import RecoverBull.Limiter.Windows.Admission

/-!
# Refunds, finalizations and the window

A reservation given back takes its candidate out of the window it names, one
finalized commits it there. If that window is gone, neither touches the entry.
-/

namespace RecoverBull

/-- Observations by which a reservation of `r` ends. -/
inductive Ends (r : ReqId) : Obs → Prop
  | refunded : Ends r (.refunded r)
  | finalized (result : LookupResult) : Ends r (.finalized r result)

/-- Observations by which a reservation of `r` is given back. -/
inductive GivesBack (r : ReqId) : Obs → Prop
  | refunded : GivesBack r (.refunded r)
  | failed (e : FinalizerError) : GivesBack r (.finalized r (.failed e))

section resolution

variable {cfg : Config} {id : String} {w log : Log} {info : RateLimitInfo} {r : ReqId} {o : Obs}

theorem GivesBack.ends (h : GivesBack r o) : Ends r o := by
  cases h with
  | refunded => exact .refunded
  | failed e => exact .finalized (.failed e)

theorem Ends.admission_ne (h : Ends r o) {r' : ReqId} {record : AdmissionRecord} :
    Obs.admission r' record ≠ o := by
  cases h <;> simp

theorem Ends.opens (h : Ends r o) : o.opens id = false := by
  cases h <;> rfl

theorem Ends.clock (h : Ends r o) : clocks (o :: log) = clocks log := by
  cases h <;> rfl

theorem Ends.mem_admission (h : Ends r o) {r' : ReqId} {record : AdmissionRecord} :
    .admission r' record ∈ o :: w ↔ .admission r' record ∈ w := by
  rw [List.mem_cons]
  exact or_iff_right h.admission_ne

theorem Ends.reservedIn (h : Ends r o) {r' : ReqId} {c : CandidateTag} :
    ReservedIn id (o :: w) r' c ↔ ReservedIn id w r' c := by
  simp only [ReservedIn, h.mem_admission]

theorem Ends.windowLog (h : Ends r o) :
    windowLog id (o :: log) = o :: RecoverBull.windowLog id log :=
  Machine.since_cons_of_neg h.opens log

theorem Ends.resolved_iff (h : Ends r o) {r' : ReqId} :
    Resolved (o :: log) r' ↔ r' = r ∨ Resolved log r' := by
  by_cases hr : r' = r
  · subst hr
    refine iff_of_true ?_ (Or.inl rfl)
    cases h with
    | refunded => exact Or.inl List.mem_cons_self
    | finalized result => exact Or.inr ⟨result, List.mem_cons_self⟩
  · cases h <;> simp [Resolved, hr]

theorem Ends.finalized_of_ne (h : Ends r o) {r' : ReqId} (hr : r' ≠ r) {result : LookupResult} :
    .finalized r' result ∈ o :: log ↔ .finalized r' result ∈ log := by
  cases h <;> simp [hr]

theorem Ends.refunded_of_ne (h : Ends r o) {r' : ReqId} (hr : r' ≠ r) :
    Refunded (o :: log) r' ↔ Refunded log r' := by
  cases h <;> simp [Refunded, hr]

theorem GivesBack.refunded_iff (h : GivesBack r o) {r' : ReqId} :
    Refunded (o :: log) r' ↔ r' = r ∨ Refunded log r' := by
  by_cases hr : r' = r
  · subst hr
    refine iff_of_true ?_ (Or.inl rfl)
    cases h with
    | refunded => exact Or.inl List.mem_cons_self
    | failed e => exact Or.inr ⟨e, List.mem_cons_self⟩
  · rw [h.ends.refunded_of_ne hr]
    exact (or_iff_right hr).symm

theorem GivesBack.committed_iff (h : GivesBack r o) {r' : ReqId} :
    Committed (o :: log) r' ↔ Committed log r' := by
  cases h with
  | refunded => simp [Committed]
  | failed e =>
    refine exists_congr fun result => and_congr_left fun hne => ?_
    rw [List.mem_cons]
    refine or_iff_right ?_
    rintro ⟨⟩
    exact hne e rfl

theorem GivesBack.miss_iff (h : GivesBack r o) {r' : ReqId} :
    .finalized r' .miss ∈ o :: log ↔ .finalized r' .miss ∈ log := by
  cases h <;> simp

/-- A resolution by a request with no reservation in the window changes nothing. -/
theorem sameWindow_of_ends (h : Ends r o) (hnot : ∀ c, ¬ReservedIn id w r c) :
    SameWindow id w log (o :: w) (o :: log) := by
  have hne : ∀ r' c, ReservedIn id w r' c → r' ≠ r := by
    rintro r' c hr rfl
    exact hnot c hr
  refine ⟨fun r' record _ => h.mem_admission, fun r' c hr => h.refunded_of_ne (hne r' c hr),
    fun r' c hr => ?_, fun r' c result hr => h.finalized_of_ne (hne r' c hr)⟩
  rw [h.resolved_iff]
  exact or_iff_right (hne r' c hr)

/-- Nobody but its owner waits for the outcome of a pending candidate. -/
theorem Window.owner (hw : Window id w log info) {c : CandidateTag} (hr : ReservedIn id w r c)
    (href : ¬Refunded log r) {r' : ReqId} (hr' : ReservedIn id w r' c) :
    r' = r ∨ Refunded log r' := by
  by_cases h : Refunded log r'
  · exact Or.inr h
  · exact Or.inl (hw.unique r' r c hr' h hr href)

/-- Once `r` has resolved nobody waits for its candidate, and the others wait as before. -/
theorem Window.waits_iff (hw : Window id w log info) (h : Ends r o) {c : CandidateTag}
    (hr : ReservedIn id w r c) (hone : ∀ c', ReservedIn id w r c' → c' = c)
    (hres : ¬Resolved log r) (c' : CandidateTag) :
    (∃ r', ReservedIn id (o :: w) r' c' ∧ ¬Resolved (o :: log) r') ↔
      c' ≠ c ∧ info.candidates.lookup c' = some .pending := by
  simp only [h.reservedIn, h.resolved_iff, not_or]
  by_cases hc : c' = c
  · subst hc
    refine iff_of_false ?_ fun hne => hne.1 rfl
    rintro ⟨r', hr', hne, hres'⟩
    obtain he | href := hw.owner hr (mt Refunded.resolved hres) hr'
    · exact hne he
    · exact hres' href.resolved
  · rw [and_iff_right hc, hw.pending]
    refine exists_congr fun r' => and_congr_right fun hr' => and_iff_right ?_
    rintro rfl
    exact hc (hone c' hr')

/-- The candidate of a reservation given back leaves the entry. -/
theorem Window.giveBack (hw : Window id w log info) (h : GivesBack r o) {c : CandidateTag}
    (hr : ReservedIn id w r c) (hone : ∀ c', ReservedIn id w r c' → c' = c)
    (hres : ¬Resolved log r) :
    Window id (o :: w) (o :: log) { info with candidates := info.candidates.erase c } := by
  have hpending := (hw.pending c).mpr ⟨r, hr, hres⟩
  refine ⟨fun r' record slot hm hs hid => ?_, fun c' => ?_, fun c' => ?_,
    fun r' r'' c' h₁ h₂ h₃ h₄ => ?_, ?_, ?_⟩
  · exact hw.started r' record slot (h.ends.mem_admission.mp hm) hs hid
  · rw [hw.waits_iff h.ends hr hone hres]
    by_cases hc : c' = c
    · subst hc
      rw [Finmap.lookup_erase]
      simp
    · rw [Finmap.lookup_erase_ne hc, and_iff_right hc]
  · simp only [h.ends.reservedIn, h.committed_iff]
    by_cases hc : c' = c
    · subst hc
      rw [Finmap.lookup_erase]
      refine iff_of_false (by simp) fun hex => ?_
      have hcom := (hw.committed c').mpr hex
      rw [hpending] at hcom
      cases hcom
    · rw [Finmap.lookup_erase_ne hc]
      exact hw.committed c'
  · rw [h.ends.reservedIn] at h₁ h₃
    rw [h.refunded_iff, not_or] at h₂ h₄
    exact hw.unique r' r'' c' h₁ h₂.2 h₃ h₄.2
  · simp only [h.ends.reservedIn, h.miss_iff]
    exact hw.failed
  · simp only [h.ends.mem_admission]
    exact hw.total

theorem refunded_cons_finalized {result : LookupResult} (hne : ∀ e, result ≠ .failed e)
    {r' : ReqId} : Refunded (.finalized r result :: log) r' ↔ Refunded log r' := by
  simp only [Refunded, List.mem_cons, reduceCtorEq, false_or]
  refine or_congr_right (exists_congr fun e => or_iff_right ?_)
  rintro ⟨⟩
  exact hne e rfl

theorem committed_cons_finalized {result : LookupResult} (hne : ∀ e, result ≠ .failed e)
    {r' : ReqId} : Committed (.finalized r result :: log) r' ↔ r' = r ∨ Committed log r' := by
  by_cases hr : r' = r
  · subst hr
    exact iff_of_true ⟨result, List.mem_cons_self, hne⟩ (Or.inl rfl)
  · simp [Committed, hr]

/-- The candidate of a finalized lookup is committed, and counted if it missed. -/
theorem Window.commit (hw : Window id w log info) {c : CandidateTag} {result : LookupResult}
    (hne : ∀ e, result ≠ .failed e) (hr : ReservedIn id w r c)
    (hone : ∀ c', ReservedIn id w r c' → c' = c) (hres : ¬Resolved log r) :
    Window id (.finalized r result :: w) (.finalized r result :: log) (commitEntry c result info) := by
  have h : Ends r (.finalized r result) := .finalized result
  refine ⟨fun r' record slot hm hs hid => ?_, fun c' => ?_, fun c' => ?_,
    fun r' r'' c' h₁ h₂ h₃ h₄ => ?_, ?_, ?_⟩
  · exact hw.started r' record slot (h.mem_admission.mp hm) hs hid
  · change (info.candidates.insert c .committed).lookup c' = _ ↔ _
    rw [hw.waits_iff h hr hone hres]
    by_cases hc : c' = c
    · subst hc
      rw [Finmap.lookup_insert]
      simp
    · rw [Finmap.lookup_insert_of_ne _ hc, and_iff_right hc]
  · change (info.candidates.insert c .committed).lookup c' = _ ↔ _
    simp only [h.reservedIn, committed_cons_finalized hne]
    by_cases hc : c' = c
    · subst hc
      rw [Finmap.lookup_insert]
      exact iff_of_true rfl ⟨r, hr, Or.inl rfl⟩
    · rw [Finmap.lookup_insert_of_ne _ hc, hw.committed]
      refine exists_congr fun r' => and_congr_right fun hr' => (or_iff_right ?_).symm
      rintro rfl
      exact hc (hone c' hr')
  · rw [h.reservedIn] at h₁ h₃
    rw [refunded_cons_finalized hne] at h₂ h₄
    exact hw.unique r' r'' c' h₁ h₂ h₃ h₄
  · obtain ⟨misses, hmem, hcard⟩ := hw.failed
    by_cases hmiss : result = .miss
    · subst hmiss
      refine ⟨Insert.insert r misses, fun r' => ?_, ?_⟩
      · simp only [Finset.mem_insert, hmem, h.reservedIn, List.mem_cons, Obs.finalized.injEq,
          and_true]
        constructor
        · rintro (rfl | ⟨hc, hm⟩)
          · exact ⟨⟨c, hr⟩, Or.inl rfl⟩
          · exact ⟨hc, Or.inr hm⟩
        · rintro ⟨hc, rfl | hm⟩
          · exact Or.inl rfl
          · exact Or.inr ⟨hc, hm⟩
      · have hnot : r ∉ misses := fun hm => hres (Or.inr ⟨.miss, ((hmem r).mp hm).2⟩)
        rw [Finset.card_insert_of_notMem hnot, commitEntry]
        simp only [if_true, hcard, saturatingAdd]
        omega
    · refine ⟨misses, fun r' => ?_, by simp [commitEntry, hmiss, hcard]⟩
      simp only [hmem, h.reservedIn, List.mem_cons, Obs.finalized.injEq]
      refine and_congr_right fun _ => (or_iff_right ?_).symm
      rintro ⟨_, he⟩
      exact hmiss he.symm
  · simp only [h.mem_admission]
    exact hw.total

variable {entry : Option RateLimitInfo} {record : AdmissionRecord} {slot : Slot}

/-- A resolution by a request with no reservation in the current window. -/
theorem WindowInv.stale (h : WindowInv cfg id log entry) (ho : Ends r o)
    (hnot : ∀ info, entry = some info → ∀ c, ¬ReservedIn id (RecoverBull.windowLog id log) r c) :
    WindowInv cfg id (o :: log) entry := by
  refine h.congr (fun info hi => ?_) (fun t ht => ?_) (fun t ht => ht.cons ho.opens)
    (fun r' => Refunded.mono [o])
    (fun r' record' hm _ => ho.mem_admission.mp hm) fun r' record' slot hm =>
      h.generation r' record' slot (ho.mem_admission.mp hm)
  · rw [ho.windowLog]
    exact sameWindow_of_ends ho (hnot info hi)
  · rw [ho.clock]
    exact ht

/-- An unresolved reservation is pending in the window it names, or that window
is gone. -/
theorem WindowInv.locate (h : WindowInv cfg id log entry) (hm : .admission r record ∈ log)
    (hslot : record.reservation = some slot) (hid : slot.idHash = id)
    (huniq : ∀ record', .admission r record' ∈ log → record' = record) (hres : ¬Resolved log r)
    (hi : entry = some info) :
    (info.windowStartedAt = slot.generation ∧
      info.candidates.lookup slot.candidate = some .pending ∧
      ReservedIn id (windowLog id log) r slot.candidate ∧
      ∀ c, ReservedIn id (windowLog id log) r c → c = slot.candidate) ∨
    (info.windowStartedAt ≠ slot.generation ∧ ∀ c, ¬ReservedIn id (windowLog id log) r c) := by
  have hw := h.window info hi
  have hgen := h.generation r record slot hm hslot
  have hcd := cfg.cooldown_pos
  have hmine : ∀ c, ReservedIn id (windowLog id log) r c →
      c = slot.candidate ∧ .admission r record ∈ windowLog id log := by
    rintro c ⟨record', g, hm', hs⟩
    have he := huniq record' (mem_of_mem_windowLog hm')
    subst he
    rw [hslot] at hs
    cases hs
    exact ⟨rfl, hm'⟩
  obtain ⟨_, hin⟩ | ⟨_, hlt⟩ := h.past r record slot hm hslot hid (mt Refunded.resolved hres)
  · have hr : ReservedIn id (windowLog id log) r slot.candidate :=
      ⟨record, slot.generation, hin, by rw [hslot, ← hid]⟩
    exact Or.inl ⟨(hw.started r record slot hin hslot hid).1.symm,
      (hw.pending slot.candidate).mpr ⟨r, hr, hres⟩, hr, fun c hc => (hmine c hc).1⟩
  · have hold := hlt info hi
    have hne : info.windowStartedAt ≠ slot.generation := by omega
    refine Or.inr ⟨hne, fun c hc => hne ?_⟩
    exact (hw.started r record slot (hmine c hc).2 hslot hid).1.symm

/-- A reservation of this window is resolved, and the window goes on. -/
theorem WindowInv.settle {info' : RateLimitInfo} (h : WindowInv cfg id log (some info))
    (ho : Ends r o) (hstarted : info'.windowStartedAt = info.windowStartedAt)
    (hw : Window id (o :: windowLog id log) (o :: log) info') :
    WindowInv cfg id (o :: log) (some info') := by
  refine ⟨fun _ hi => ?_, fun _ hi => ?_, fun r' record' slot' hm' =>
    h.generation r' record' slot' (ho.mem_admission.mp hm'),
    fun r' record' slot' hm' hs hid href => ?_⟩
  · cases hi
    rw [ho.windowLog]
    exact hw
  · cases hi
    rw [hstarted]
    exact (h.opened info rfl).cons ho.opens
  · rw [ho.windowLog, ho.mem_admission, ho.clock]
    refine (h.past r' record' slot' (ho.mem_admission.mp hm') hs hid
      (mt (Refunded.mono [o]) href)).imp ?_ ?_
    · rintro ⟨_, hin⟩
      exact ⟨⟨_, rfl⟩, hin⟩
    · rintro ⟨hclocks, hinfo⟩
      refine ⟨hclocks, fun _ hi => ?_⟩
      cases hi
      rw [hstarted]
      exact hinfo info rfl

/-- The last candidate is given back, and the entry goes with it. -/
theorem WindowInv.empty {c : CandidateTag} (h : WindowInv cfg id log (some info))
    (ho : GivesBack r o) (hr : ReservedIn id (windowLog id log) r c) (hres : ¬Resolved log r)
    (hempty : info.candidates.erase c = ∅) : WindowInv cfg id (o :: log) none where
  window _ hi := by cases hi
  opened _ hi := by cases hi
  generation r' record' slot' hm' := h.generation r' record' slot' (ho.ends.mem_admission.mp hm')
  past r' record' slot' hm' hs hid' href := by
    have hw := h.window info rfl
    rw [ho.refunded_iff, not_or] at href
    obtain ⟨_, hin⟩ | ⟨⟨t, ht, hlt⟩, _⟩ :=
      h.past r' record' slot' (ho.ends.mem_admission.mp hm') hs hid' href.2
    · -- The erased candidate was the last, and it had one owner.
      have hr' : ReservedIn id (windowLog id log) r' slot'.candidate :=
        ⟨record', slot'.generation, hin, by rw [hs, ← hid']⟩
      have hmem := hw.mem_of_not_refunded hr' href.2
      have hcc : slot'.candidate = c := by
        by_contra hcc
        have hmem' : slot'.candidate ∈ info.candidates.erase c :=
          Finmap.mem_erase.mpr ⟨hcc, hmem⟩
        rw [hempty] at hmem'
        exact Finmap.notMem_empty hmem'
      rw [hcc] at hr'
      obtain he | hr'' := hw.owner hr (mt Refunded.resolved hres) hr'
      · exact absurd he href.1
      · exact absurd hr'' href.2
    · rw [ho.ends.clock]
      exact Or.inr ⟨⟨t, ht, hlt⟩, fun _ hi => by cases hi⟩

/-- The owner of a reservation resolves it: in the window it names, or without effect. -/
theorem WindowInv.resolve (h : WindowInv cfg id log entry) (ho : Ends r o)
    (hm : .admission r record ∈ log) (hslot : record.reservation = some slot)
    (huniq : ∀ record', .admission r record' ∈ log → record' = record) (hres : ¬Resolved log r)
    {f : RateLimitInfo → Option RateLimitInfo}
    (hlive : ∀ info, entry = some info → info.windowStartedAt = slot.generation →
      info.candidates.lookup slot.candidate = some .pending →
      ReservedIn id (windowLog id log) r slot.candidate →
      (∀ c, ReservedIn id (windowLog id log) r c → c = slot.candidate) →
      WindowInv cfg id (o :: log) (f info))
    (hstale : ∀ info, entry = some info → info.windowStartedAt ≠ slot.generation →
      f info = some info) :
    WindowInv cfg id (o :: log) (if id = slot.idHash then entry.bind f else entry) := by
  split
  case isFalse hid =>
    refine h.stale ho fun info _ c ⟨record', g, hm', hs⟩ => hid ?_
    rw [huniq record' (mem_of_mem_windowLog hm'), hslot] at hs
    cases hs
    rfl
  case isTrue hid =>
    cases entry with
    | none => exact h.stale ho fun info hi => by cases hi
    | some info =>
      rw [Option.bind_some]
      obtain ⟨hg, hc, hr, hone⟩ | ⟨hg, hnot⟩ := h.locate hm hslot hid.symm huniq hres rfl
      · exact hlive info rfl hg hc hr hone
      · rw [hstale info rfl hg]
        exact h.stale ho fun _ _ => hnot

/-- The owner of a reservation gives it back. -/
theorem WindowInv.giveBack (h : WindowInv cfg id log entry) (ho : GivesBack r o)
    (hm : .admission r record ∈ log) (hslot : record.reservation = some slot)
    (huniq : ∀ record', .admission r record' ∈ log → record' = record) (hres : ¬Resolved log r)
    (hne : ∀ info, entry = some info → info.candidates ≠ ∅)
    {f : RateLimitInfo → Option RateLimitInfo}
    (hlive : ∀ info, info.windowStartedAt = slot.generation →
      info.candidates.lookup slot.candidate = some .pending →
      f info = withoutCandidate slot.candidate info)
    (hstale : ∀ info, info.windowStartedAt ≠ slot.generation → info.candidates ≠ ∅ →
      f info = some info) :
    WindowInv cfg id (o :: log) (if id = slot.idHash then entry.bind f else entry) := by
  refine h.resolve ho.ends hm hslot huniq hres (fun info hi hg hc hr hone => ?_)
    fun info hi hg => hstale info hg (hne info hi)
  subst hi
  rw [hlive info hg hc]
  unfold withoutCandidate
  split
  · next hempty => exact h.empty ho hr hres hempty
  · exact h.settle ho.ends rfl ((h.window info rfl).giveBack ho hr hone hres)

/-- The detached task finalizes a lookup that finished without an error. -/
theorem WindowInv.commit (h : WindowInv cfg id log entry) {result : LookupResult}
    (herr : ∀ e, result ≠ .failed e)
    (hm : .admission r record ∈ log) (hslot : record.reservation = some slot)
    (huniq : ∀ record', .admission r record' ∈ log → record' = record) (hres : ¬Resolved log r) :
    WindowInv cfg id (.finalized r result :: log)
      (if id = slot.idHash then entry.bind (finalizeEntry slot.candidate slot.generation result)
        else entry) := by
  refine h.resolve (.finalized result) hm hslot huniq hres (fun info hi hg hc hr hone => ?_)
    fun info _ hg => finalizeEntry_stale (Or.inl hg)
  subst hi
  rw [← hg, finalizeEntry_committed hc herr]
  exact h.settle (.finalized result) rfl ((h.window info rfl).commit herr hr hone hres)

end resolution

end RecoverBull
