import RecoverBull.Limiter.Windows.History

/-!
# Admissions and the window

A request that reaches an entry counts, and reserves its candidate if it is new
to the window; a request that finds no entry opens a window.
-/

namespace RecoverBull

section admission

variable {cfg : Config} {id : String} {w log : Log} {info : RateLimitInfo} {r : ReqId}
  {record : AdmissionRecord}

theorem window_new (id : String) (log : Log) (t : ℤ) : Window id [] log (.new t) := by
  have hnone : ∀ r c, ¬ReservedIn id [] r c := by
    rintro r c ⟨_, _, hm, _⟩
    exact absurd hm List.not_mem_nil
  refine ⟨fun _ _ _ hm => absurd hm List.not_mem_nil, fun c => ?_, fun c => ?_,
    fun r r' c hr => absurd hr (hnone r c), ⟨∅, fun r => ?_, rfl⟩, ⟨∅, fun r => ?_, rfl⟩⟩
  · simp [RateLimitInfo.new, hnone]
  · simp [RateLimitInfo.new, hnone]
  · simp [hnone]
  · simp

/-- A new request of the identifier counts as one more. -/
theorem Window.total_cons (hw : Window id w log info) (hid : record.idHash = id)
    (hfresh : ∀ record', .admission r record' ∉ w) :
    ∃ requests : Finset ReqId, (∀ r', r' ∈ requests ↔
      ∃ record', .admission r' record' ∈ Obs.admission r record :: w ∧ record'.idHash = id) ∧
      saturatingAdd u64Max info.totalRequests 1 = min requests.card u64Max := by
  obtain ⟨requests, hmem, hcard⟩ := hw.total
  refine ⟨Insert.insert r requests, fun r' => ?_, ?_⟩
  · rw [Finset.mem_insert, hmem]
    constructor
    · rintro (rfl | ⟨record', hm, hid'⟩)
      · exact ⟨record, List.mem_cons_self, hid⟩
      · exact ⟨record', List.mem_cons_of_mem _ hm, hid'⟩
    · rintro ⟨record', hm, hid'⟩
      obtain hm | hm := List.mem_cons.mp hm
      · cases hm
        exact Or.inl rfl
      · exact Or.inr ⟨record', hm, hid'⟩
  · have hnot : r ∉ requests := fun h => by
      obtain ⟨record', hm, _⟩ := (hmem r).mp h
      exact hfresh record' hm
    rw [Finset.card_insert_of_notMem hnot, hcard, saturatingAdd]
    omega

theorem refunded_cons_admission {r' : ReqId} :
    Refunded (.admission r record :: log) r' ↔ Refunded log r' := by
  simp [Refunded]

theorem resolved_cons_admission {r' : ReqId} :
    Resolved (.admission r record :: log) r' ↔ Resolved log r' := by
  simp [Resolved]

theorem committed_cons_admission {r' : ReqId} :
    Committed (.admission r record :: log) r' ↔ Committed log r' := by
  simp [Committed]

/-- A request that reserves nothing only counts. -/
theorem Window.touch (hw : Window id w log info) (hid : record.idHash = id)
    (hres : record.reservation = none) (hfresh : ∀ record', .admission r record' ∉ w) (t : ℤ) :
    Window id (.admission r record :: w) (.admission r record :: log) (touchEntry t info) := by
  have hin : ∀ r' c, ReservedIn id (.admission r record :: w) r' c ↔ ReservedIn id w r' c := by
    intro r' c
    refine exists_congr fun record' => exists_congr fun g => and_congr_left fun hslot => ?_
    rw [List.mem_cons]
    refine or_iff_right ?_
    rintro ⟨⟩
    rw [hres] at hslot
    cases hslot
  refine ⟨fun r' record' slot hm hslot hid' => ?_, fun c => ?_, fun c => ?_, fun r' r'' c => ?_,
    ?_, hw.total_cons hid hfresh⟩
  · obtain hm | hm := List.mem_cons.mp hm
    · cases hm
      rw [hres] at hslot
      cases hslot
    · exact hw.started r' record' slot hm hslot hid'
  · simp only [hin, resolved_cons_admission]
    exact hw.pending c
  · simp only [hin, committed_cons_admission]
    exact hw.committed c
  · simp only [hin, refunded_cons_admission]
    exact hw.unique r' r'' c
  · obtain ⟨misses, hmem, hcard⟩ := hw.failed
    refine ⟨misses, fun r' => ?_, hcard⟩
    simp only [hmem, hin, List.mem_cons, reduceCtorEq, false_or]

/-- Whoever is not given back has its candidate in the entry. -/
theorem Window.mem_of_not_refunded (hw : Window id w log info) {c : CandidateTag}
    (hr : ReservedIn id w r c) (href : ¬Refunded log r) : c ∈ info.candidates := by
  by_cases hres : Resolved log r
  · have hcom : Committed log r := by
      obtain h | ⟨result, h⟩ := hres
      · exact absurd (Or.inl h) href
      · exact ⟨result, h, fun e he => href (Or.inr ⟨e, he ▸ h⟩)⟩
    exact Finmap.mem_of_lookup_eq_some ((hw.committed c).mpr ⟨r, hr, hcom⟩)
  · exact Finmap.mem_of_lookup_eq_some ((hw.pending c).mpr ⟨r, hr, hres⟩)

/-- A new candidate is reserved. -/
theorem Window.reserve (hw : Window id w log info) {c : CandidateTag}
    (hslot : record.reservation = some ⟨id, c, info.windowStartedAt⟩)
    (hc : info.candidates.lookup c = none) (hfresh : ∀ record', .admission r record' ∉ w)
    (hunresolved : ¬Resolved log r)
    (hle : ∀ r' record', .admission r' record' ∈ w → record'.requestedAt ≤ record.requestedAt) :
    Window id (.admission r record :: w) (.admission r record :: log)
      (reserveEntry c record.requestedAt info) := by
  have hid : record.idHash = id := AdmissionRecord.idHash_of_reservation hslot
  have hin : ∀ r' c', ReservedIn id (.admission r record :: w) r' c' ↔
      r' = r ∧ c' = c ∨ ReservedIn id w r' c' := by
    intro r' c'
    constructor
    · rintro ⟨record', g, hm, hs⟩
      obtain hm | hm := List.mem_cons.mp hm
      · cases hm
        rw [hslot] at hs
        cases hs
        exact Or.inl ⟨rfl, rfl⟩
      · exact Or.inr ⟨record', g, hm, hs⟩
    · rintro (⟨rfl, rfl⟩ | ⟨record', g, hm, hs⟩)
      · exact ⟨record, _, List.mem_cons_self, hslot⟩
      · exact ⟨record', g, List.mem_cons_of_mem _ hm, hs⟩
  -- Nobody holds the candidate yet.
  have hfree : ∀ r', ReservedIn id w r' c → Refunded log r' := by
    intro r' hr'
    by_contra href
    exact Finmap.lookup_eq_none.mp hc (hw.mem_of_not_refunded hr' href)
  have hnotin : ∀ c', ¬ReservedIn id w r c' := fun c' ⟨record', _, hm, _⟩ => hfresh record' hm
  have hnocommit : ¬Committed log r := fun ⟨result, h, _⟩ => hunresolved (Or.inr ⟨result, h⟩)
  refine ⟨fun r' record' slot hm hs hid' => ?_, fun c' => ?_, fun c' => ?_,
    fun r' r'' c' h₁ h₂ h₃ h₄ => ?_, ?_, hw.total_cons hid hfresh⟩
  · obtain hm | hm := List.mem_cons.mp hm
    · cases hm
      rw [hslot] at hs
      cases hs
      exact ⟨rfl, le_rfl⟩
    · exact ⟨(hw.started r' record' slot hm hs hid').1, hle r' record' hm⟩
  · change (info.candidates.insert c .pending).lookup c' = _ ↔ _
    simp only [hin, resolved_cons_admission]
    by_cases hcc : c' = c
    · subst hcc
      rw [Finmap.lookup_insert]
      exact iff_of_true rfl ⟨r, Or.inl ⟨rfl, rfl⟩, hunresolved⟩
    · rw [Finmap.lookup_insert_of_ne _ hcc]
      simp only [hcc, and_false, false_or]
      exact hw.pending c'
  · change (info.candidates.insert c .pending).lookup c' = _ ↔ _
    simp only [hin, committed_cons_admission]
    by_cases hcc : c' = c
    · subst hcc
      rw [Finmap.lookup_insert]
      refine iff_of_false (by simp) ?_
      rintro ⟨r', ⟨rfl, _⟩ | hr', hcom⟩
      · exact hnocommit hcom
      · have := (hw.committed c').mpr ⟨r', hr', hcom⟩
        rw [hc] at this
        cases this
    · rw [Finmap.lookup_insert_of_ne _ hcc]
      simp only [hcc, and_false, false_or]
      exact hw.committed c'
  · rw [hin] at h₁ h₃
    rw [refunded_cons_admission] at h₂ h₄
    obtain ⟨rfl, rfl⟩ | h₁ := h₁
    · obtain ⟨rfl, _⟩ | h₃ := h₃
      · rfl
      · exact absurd (hfree r'' h₃) h₄
    · obtain ⟨rfl, rfl⟩ | h₃ := h₃
      · exact absurd (hfree r' h₁) h₂
      · exact hw.unique r' r'' c' h₁ h₂ h₃ h₄
  · obtain ⟨misses, hmem, hcard⟩ := hw.failed
    refine ⟨misses, fun r' => ?_, hcard⟩
    simp only [hmem, hin, List.mem_cons, reduceCtorEq, false_or]
    by_cases hr' : r' = r
    · subst hr'
      have : .finalized r' .miss ∉ log := fun h => hunresolved (Or.inr ⟨.miss, h⟩)
      simp [this]
    · simp [hr']

theorem EntryAdmission.reservation {left : RateLimitInfo} {c : CandidateTag} {t : ℤ}
    (h : EntryAdmission cfg info c t left record.outcome) :
    record.reservation = none ∧ left = touchEntry t info ∨
      record.reservation = some ⟨record.idHash, record.candidate, info.windowStartedAt⟩ ∧
        info.candidates.lookup c = none ∧ left = reserveEntry c t info := by
  unfold AdmissionRecord.reservation
  cases h with
  | lockedOut _ hleft hout | pending _ _ hleft hout | replay _ _ hleft hout =>
    rw [hout]
    exact Or.inl ⟨rfl, hleft⟩
  | new _ hc hleft hout =>
    rw [hout]
    exact Or.inr ⟨rfl, hc, hleft⟩

/-- Nothing but a reservation opens a window. -/
theorem EntryAdmission.fresh {left : RateLimitInfo} {c : CandidateTag} {t : ℤ}
    (h : EntryAdmission cfg (.new t) c t left record.outcome) :
    record.reservation = some ⟨record.idHash, record.candidate, t⟩ ∧
      left = reserveEntry c t (.new t) := by
  have hlen : (RateLimitInfo.new t).candidates.len = 0 := Finmap.len_empty
  cases h with
  | lockedOut hmax =>
    have := cfg.maxAttempts_pos
    omega
  | pending _ hc | replay _ hc => cases hc
  | new _ _ hleft hout =>
    refine ⟨?_, hleft⟩
    rw [AdmissionRecord.reservation, hout]
    rfl

/-- How an entry comes to be left: a window opens with its first reservation, or the entry
found there is touched or takes one more. -/
theorem AdmissionRecord.Spec.left_cases (h : record.Spec cfg) {left : RateLimitInfo}
    (hleft : record.left = some left) :
    (record.found = none ∧
        record.reservation = some ⟨record.idHash, record.candidate, record.requestedAt⟩ ∧
        left = reserveEntry record.candidate record.requestedAt (.new record.requestedAt)) ∨
      ∃ old, record.found = some old ∧
        (record.reservation = none ∧ left = touchEntry record.requestedAt old ∨
          record.reservation = some ⟨record.idHash, record.candidate, old.windowStartedAt⟩ ∧
            old.candidates.lookup record.candidate = none ∧
            left = reserveEntry record.candidate record.requestedAt old) := by
  cases h with
  | refused _ hnone =>
    rw [hnone] at hleft
    cases hleft
  | entered left' hl hentry =>
    rw [hl] at hleft
    cases hleft
    cases hf : record.found with
    | none =>
      rw [hf, Option.getD_none] at hentry
      exact Or.inl ⟨rfl, hentry.fresh⟩
    | some old =>
      rw [hf, Option.getD_some] at hentry
      exact Or.inr ⟨old, rfl, hentry.reservation⟩

/-- When the expiry check leaves nothing, every old reservation is a cooldown old. -/
theorem WindowInv.elapsed {entry : Option RateLimitInfo} (h : WindowInv cfg id log entry)
    (hfound : record.found = entry.filter (withinCooldown cfg record.requestedAt))
    (hchron : ∀ t ∈ clocks log, t ≤ record.requestedAt) (hnone : record.found = none) {r' : ReqId}
    {record' : AdmissionRecord} {slot : Slot} (hm : .admission r' record' ∈ log)
    (hs : record'.reservation = some slot) (hid : slot.idHash = id) (href : ¬Refunded log r') :
    record'.requestedAt + cfg.rateLimitCooldown < record.requestedAt := by
  obtain ⟨⟨info, rfl⟩, hw⟩ | ⟨⟨t, ht, hlt⟩, _⟩ := h.past r' record' slot hm hs hid href
  · have hlast := ((h.window info rfl).started r' record' slot hw hs hid).2
    rw [hfound, Option.filter_eq_none_iff] at hnone
    have hout := hnone info rfl
    rw [withinCooldown_iff] at hout
    omega
  · have := hchron t ht
    omega

theorem WindowInv.generation_cons {entry : Option RateLimitInfo} (h : WindowInv cfg id log entry)
    (hslot : ∀ slot, record.reservation = some slot → slot.generation ≤ record.requestedAt)
    (r' : ReqId) (record' : AdmissionRecord) (slot : Slot)
    (hm : .admission r' record' ∈ Obs.admission r record :: log)
    (hs : record'.reservation = some slot) : slot.generation ≤ record'.requestedAt := by
  obtain hm | hm := List.mem_cons.mp hm
  · cases hm
    exact hslot slot hs
  · exact h.generation r' record' slot hm hs

/-- No entry is left, and none is opened. -/
theorem WindowInv.refused {entry : Option RateLimitInfo} (h : WindowInv cfg id log entry)
    (hfound : record.found = entry.filter (withinCooldown cfg record.requestedAt))
    (hchron : ∀ t ∈ clocks log, t ≤ record.requestedAt) (hnone : record.found = none)
    (hres : record.reservation = none) : WindowInv cfg id (.admission r record :: log) none where
  window _ hi := by cases hi
  opened _ hi := by cases hi
  generation := h.generation_cons fun slot hs => by rw [hres] at hs; cases hs
  past r' record' slot hm hs hid href := by
    rw [refunded_cons_admission] at href
    obtain hm | hm := List.mem_cons.mp hm
    · cases hm
      rw [hres] at hs
      cases hs
    · have hlt := h.elapsed hfound hchron hnone hm hs hid href
      exact Or.inr ⟨⟨_, List.mem_cons_self, hlt⟩, fun _ hi => by cases hi⟩

/-- A window is opened with one reservation. -/
theorem WindowInv.openWindow {entry : Option RateLimitInfo} {left : RateLimitInfo}
    (h : WindowInv cfg id log entry) (hid : record.idHash = id)
    (hfound : record.found = entry.filter (withinCooldown cfg record.requestedAt))
    (hchron : ∀ t ∈ clocks log, t ≤ record.requestedAt) (hnone : record.found = none)
    (hleft : record.left = some left) (hunresolved : ¬Resolved log r)
    (hentry : EntryAdmission cfg (.new record.requestedAt) record.candidate record.requestedAt left
      record.outcome) :
    WindowInv cfg id (.admission r record :: log) (some left) := by
  obtain ⟨hslot, hnew⟩ := hentry.fresh
  rw [hid] at hslot
  have hopens : (Obs.admission r record).opens id = true := by
    simp [Obs.opens, hid, hnone, hleft]
  have hlog : windowLog id (.admission r record :: log) = [.admission r record] :=
    Machine.since_cons_of_pos hopens log
  rw [hnew]
  refine ⟨fun info hi => ?_, fun info hi => ?_, h.generation_cons fun slot hs => ?_,
    fun r' record' slot hm hs hid' href => ?_⟩
  · cases hi
    rw [hlog]
    exact (window_new id log record.requestedAt).reserve hslot rfl (fun _ => List.not_mem_nil)
      hunresolved fun _ _ hm => absurd hm List.not_mem_nil
  · cases hi
    exact ⟨[], r, record, hlog, hopens, rfl⟩
  · rw [hslot] at hs
    cases hs
    exact le_rfl
  · rw [refunded_cons_admission] at href
    obtain hm | hm := List.mem_cons.mp hm
    · cases hm
      exact Or.inl ⟨⟨_, rfl⟩, by rw [hlog]; exact List.mem_cons_self⟩
    · have hlt := h.elapsed hfound hchron hnone hm hs hid' href
      refine Or.inr ⟨⟨_, List.mem_cons_self, hlt⟩, fun info hi => ?_⟩
      cases hi
      exact hlt

/-- The window goes on. -/
theorem WindowInv.reenter {old left : RateLimitInfo} (h : WindowInv cfg id log (some old))
    (hid : record.idHash = id) (hsome : record.found = some old)
    (hchron : ∀ t ∈ clocks log, t ≤ record.requestedAt)
    (hfresh : ∀ record', .admission r record' ∉ log) (hunresolved : ¬Resolved log r)
    (hentry : EntryAdmission cfg old record.candidate record.requestedAt left record.outcome) :
    WindowInv cfg id (.admission r record :: log) (some left) := by
  have hw := h.window old rfl
  have hopens : (Obs.admission r record).opens id = false := by simp [Obs.opens, hsome]
  have hlog : windowLog id (.admission r record :: log) =
      .admission r record :: windowLog id log := Machine.since_cons_of_neg hopens log
  have hfreshw : ∀ record', .admission r record' ∉ windowLog id log := fun record' hm =>
    hfresh record' (mem_of_mem_windowLog hm)
  have hlew : ∀ r' record', .admission r' record' ∈ windowLog id log →
      record'.requestedAt ≤ record.requestedAt := by
    intro r' record' hm
    exact hchron _ (List.mem_filterMap.mpr ⟨_, mem_of_mem_windowLog hm, rfl⟩)
  have hstarted : left.windowStartedAt = old.windowStartedAt := by
    obtain ⟨_, rfl⟩ | ⟨_, _, rfl⟩ := hentry.reservation <;> rfl
  have hstart := hchron _ (h.opened old rfl).mem_clocks
  refine ⟨fun info hi => ?_, fun info hi => ?_, h.generation_cons fun slot hs => ?_,
    fun r' record' slot hm hs hid' href => ?_⟩
  · cases hi
    rw [hlog]
    obtain ⟨hres, rfl⟩ | ⟨hslot, hc, rfl⟩ := hentry.reservation
    · exact hw.touch hid hres hfreshw record.requestedAt
    · exact hw.reserve (hid ▸ hslot) hc hfreshw hunresolved hlew
  · cases hi
    rw [hstarted]
    exact (h.opened old rfl).cons hopens
  · obtain ⟨hres, _⟩ | ⟨hslot, _⟩ := hentry.reservation
    · rw [hres] at hs
      cases hs
    · rw [hslot] at hs
      cases hs
      exact hstart
  · rw [refunded_cons_admission] at href
    rw [hlog]
    obtain hm | hm := List.mem_cons.mp hm
    · exact Or.inl ⟨⟨_, rfl⟩, hm ▸ List.mem_cons_self⟩
    · obtain ⟨_, hwin⟩ | ⟨⟨t, ht, hlt⟩, hinfo⟩ := h.past r' record' slot hm hs hid' href
      · exact Or.inl ⟨⟨_, rfl⟩, List.mem_cons_of_mem _ hwin⟩
      · refine Or.inr ⟨⟨t, List.mem_cons_of_mem _ ht, hlt⟩, fun info hi => ?_⟩
        cases hi
        rw [hstarted]
        exact hinfo old rfl

/-- An admission of the identifier itself. -/
theorem WindowInv.enter {entry : Option RateLimitInfo} (h : WindowInv cfg id log entry)
    (hid : record.idHash = id) (hspec : record.Spec cfg)
    (hfound : record.found = entry.filter (withinCooldown cfg record.requestedAt))
    (hchron : ∀ t ∈ clocks log, t ≤ record.requestedAt)
    (hfresh : ∀ record', .admission r record' ∉ log) (hunresolved : ¬Resolved log r) :
    WindowInv cfg id (.admission r record :: log) record.left := by
  cases hspec with
  | refused hnone hleft hout =>
    rw [hleft]
    exact h.refused hfound hchron hnone (by rw [AdmissionRecord.reservation, hout])
  | entered left hleft hentry _ =>
    cases hf : record.found with
    | none =>
      rw [hf, Option.getD_none] at hentry
      rw [hleft]
      exact h.openWindow hid hfound hchron hf hleft hunresolved hentry
    | some old =>
      rw [hf, Option.getD_some] at hentry
      have hentry' : entry = some old := by
        rw [hf] at hfound
        exact (Option.filter_eq_some_iff.mp hfound.symm).1
      subst hentry'
      rw [hleft]
      exact h.reenter hid hf hchron hfresh hunresolved hentry

end admission

end RecoverBull
