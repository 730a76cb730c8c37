import RecoverBull.Limiter.Entries

/-!
# The history of a window

With clocks that never run backwards, an entry of the map is a summary of the log
since its window opened: which candidates are reserved, which are committed, how
many lookups missed, how many requests came. `WindowInv` says so for one
identifier, together with where the reservations of its earlier windows went:
they are given back, or more than a cooldown older than everything since.
-/

namespace RecoverBull

variable {F : Type}

/-! ## The log since a window opened -/

/-- The admission that opens a window of the identifier. -/
def Obs.opens (id : String) : Obs → Bool
  | .admission _ record => record.idHash == id && record.found.isNone && record.left.isSome
  | _ => false

/-- The log since the last window of the identifier opened. -/
def windowLog (id : String) (log : Log) : Log := Machine.since (Obs.opens id) log

/-- The last window of the identifier opened at time `t`. -/
def OpenedAt (id : String) (log : Log) (t : ℤ) : Prop :=
  ∃ w r record, windowLog id log = w ++ [.admission r record] ∧
    (Obs.admission r record).opens id = true ∧ record.requestedAt = t

/-- Request `r` reserved `c` in the segment `w` of the log. -/
def ReservedIn (id : String) (w : Log) (r : ReqId) (c : CandidateTag) : Prop :=
  ∃ record generation, .admission r record ∈ w ∧ record.reservation = some ⟨id, c, generation⟩

/-- The lookup of `r` was finalized without an error. -/
def Committed (log : Log) (r : ReqId) : Prop :=
  ∃ result, .finalized r result ∈ log ∧ ∀ e, result ≠ .failed e

/-- The entry sums up the segment `w` of the log, in which its window lies. -/
structure Window (id : String) (w log : Log) (info : RateLimitInfo) : Prop where
  started : ∀ r record slot, .admission r record ∈ w → record.reservation = some slot →
    slot.idHash = id →
    slot.generation = info.windowStartedAt ∧ record.requestedAt ≤ info.lastCandidateAt
  pending : ∀ c, info.candidates.lookup c = some .pending ↔
    ∃ r, ReservedIn id w r c ∧ ¬Resolved log r
  committed : ∀ c, info.candidates.lookup c = some .committed ↔
    ∃ r, ReservedIn id w r c ∧ Committed log r
  unique : ∀ r r' c, ReservedIn id w r c → ¬Refunded log r → ReservedIn id w r' c →
    ¬Refunded log r' → r = r'
  failed : ∃ misses : Finset ReqId, (∀ r, r ∈ misses ↔
    (∃ c, ReservedIn id w r c) ∧ .finalized r .miss ∈ log) ∧
    info.failedCandidates = min misses.card u8Max
  total : ∃ requests : Finset ReqId, (∀ r, r ∈ requests ↔
    ∃ record, .admission r record ∈ w ∧ record.idHash = id) ∧
    info.totalRequests = min requests.card u64Max

/-- The entry of the identifier and its log agree; reservations of earlier
windows that were not given back are more than a cooldown old. -/
structure WindowInv (cfg : Config) (id : String) (log : Log) (entry : Option RateLimitInfo) :
    Prop where
  window : ∀ info, entry = some info → Window id (windowLog id log) log info
  opened : ∀ info, entry = some info → OpenedAt id log info.windowStartedAt
  generation : ∀ r record slot, .admission r record ∈ log → record.reservation = some slot →
    slot.generation ≤ record.requestedAt
  past : ∀ r record slot, .admission r record ∈ log → record.reservation = some slot →
    slot.idHash = id → ¬Refunded log r →
    (∃ info, entry = some info) ∧ .admission r record ∈ windowLog id log ∨
      (∃ t ∈ clocks log, record.requestedAt + cfg.rateLimitCooldown < t) ∧
        ∀ info, entry = some info →
          record.requestedAt + cfg.rateLimitCooldown < info.windowStartedAt

theorem windowInv_nil (cfg : Config) (id : String) : WindowInv cfg id [] none where
  window _ h := by cases h
  opened _ h := by cases h
  generation _ _ _ h := absurd h List.not_mem_nil
  past _ _ _ h := absurd h List.not_mem_nil

/-! ## Reading a longer log -/

/-- Observations that neither admit nor resolve. -/
def Obs.isQuiet : Obs → Bool
  | .admission _ _ | .refunded _ | .finalized _ _ => false
  | _ => true

theorem Obs.isQuiet_of_isIdle {o : Obs} (h : o.isIdle = true) : o.isQuiet = true := by
  cases o <;> first | rfl | cases h

section longer

variable {os log : Log}

theorem mem_append_of_notMem {o : Obs} (h : o ∉ os) : o ∈ os ++ log ↔ o ∈ log := by
  rw [List.mem_append]
  exact or_iff_right h

theorem refunded_append {r : ReqId} (h₁ : .refunded r ∉ os)
    (h₂ : ∀ result, .finalized r result ∉ os) : Refunded (os ++ log) r ↔ Refunded log r := by
  simp only [Refunded, List.mem_append, h₁, h₂, false_or]

theorem resolved_append {r : ReqId} (h₁ : .refunded r ∉ os)
    (h₂ : ∀ result, .finalized r result ∉ os) : Resolved (os ++ log) r ↔ Resolved log r := by
  simp only [Resolved, List.mem_append, h₁, h₂, false_or]

theorem Refunded.mono {r : ReqId} (os : Log) (h : Refunded log r) : Refunded (os ++ log) r :=
  h.imp (List.mem_append_right _) fun ⟨e, he⟩ => ⟨e, List.mem_append_right _ he⟩

theorem mem_of_mem_windowLog {id : String} {o : Obs} (h : o ∈ windowLog id log) : o ∈ log :=
  (Machine.since_prefix _ _).subset h

theorem windowLog_append {id : String} (h : ∀ o ∈ os, o.opens id = false) :
    windowLog id (os ++ log) = os ++ windowLog id log :=
  Machine.since_append h log

theorem OpenedAt.mem_clocks {id : String} {t : ℤ} (h : OpenedAt id log t) : t ∈ clocks log := by
  obtain ⟨w, r, record, hw, _, rfl⟩ := h
  have hm : .admission r record ∈ windowLog id log := by
    rw [hw]
    exact List.mem_append_right _ List.mem_cons_self
  exact List.mem_filterMap.mpr ⟨_, mem_of_mem_windowLog hm, rfl⟩

theorem OpenedAt.append {id : String} {t : ℤ} (h : OpenedAt id log t)
    (hos : ∀ o ∈ os, o.opens id = false) : OpenedAt id (os ++ log) t := by
  obtain ⟨w, r, record, hw, hr⟩ := h
  refine ⟨os ++ w, r, record, ?_, hr⟩
  rw [windowLog_append hos, hw, List.append_assoc]

theorem OpenedAt.cons {id : String} {t : ℤ} {o : Obs} (h : OpenedAt id log t)
    (ho : o.opens id = false) : OpenedAt id (o :: log) t :=
  h.append fun _ hm => List.mem_singleton.mp hm ▸ ho

theorem Obs.opens_of_isQuiet {o : Obs} (h : o.isQuiet = true) (id : String) :
    o.opens id = false := by
  cases o <;> first | rfl | cases h

end longer

theorem AdmissionRecord.idHash_of_reservation {record : AdmissionRecord} {slot : Slot}
    (h : record.reservation = some slot) : record.idHash = slot.idHash := by
  unfold AdmissionRecord.reservation at h
  split at h
  · cases h
    rfl
  · cases h

/-- Two logs, with their segments, that a window cannot tell apart. -/
structure SameWindow (id : String) (w log w' log' : Log) : Prop where
  admission : ∀ r record, record.idHash = id → (.admission r record ∈ w' ↔
    .admission r record ∈ w)
  refunded : ∀ r c, ReservedIn id w r c → (Refunded log' r ↔ Refunded log r)
  resolved : ∀ r c, ReservedIn id w r c → (Resolved log' r ↔ Resolved log r)
  finalized : ∀ r c result, ReservedIn id w r c →
    (.finalized r result ∈ log' ↔ .finalized r result ∈ log)

theorem SameWindow.reservedIn {id : String} {w log w' log' : Log} (h : SameWindow id w log w' log')
    {r : ReqId} {c : CandidateTag} : ReservedIn id w' r c ↔ ReservedIn id w r c := by
  refine exists_congr fun record => exists_congr fun g => and_congr_left fun hslot => ?_
  exact h.admission r record (AdmissionRecord.idHash_of_reservation hslot)

theorem Window.congr {id : String} {w log w' log' : Log} {info : RateLimitInfo}
    (hw : Window id w log info) (h : SameWindow id w log w' log') : Window id w' log' info where
  started r record slot hm hslot hid :=
    hw.started r record slot
      ((h.admission r record ((AdmissionRecord.idHash_of_reservation hslot).trans hid)).mp hm) hslot hid
  pending c := by
    rw [hw.pending]
    refine exists_congr fun r => ?_
    rw [h.reservedIn]
    exact and_congr_right fun hr => not_congr (h.resolved r c hr).symm
  committed c := by
    rw [hw.committed]
    refine exists_congr fun r => ?_
    rw [h.reservedIn]
    refine and_congr_right fun hr => exists_congr fun result => and_congr_left fun _ => ?_
    exact (h.finalized r c result hr).symm
  unique r r' c h₁ h₂ h₃ h₄ := by
    rw [h.reservedIn] at h₁ h₃
    rw [h.refunded r c h₁] at h₂
    rw [h.refunded r' c h₃] at h₄
    exact hw.unique r r' c h₁ h₂ h₃ h₄
  failed := by
    obtain ⟨misses, hmem, hcard⟩ := hw.failed
    refine ⟨misses, fun r => ?_, hcard⟩
    simp only [hmem, h.reservedIn]
    exact and_congr_right fun ⟨c, hr⟩ => (h.finalized r c .miss hr).symm
  total := by
    obtain ⟨requests, hmem, hcard⟩ := hw.total
    refine ⟨requests, fun r => ?_, hcard⟩
    rw [hmem]
    exact exists_congr fun record => and_congr_left fun hid => (h.admission r record hid).symm

section quiet

variable {cfg : Config} {id : String} {os log : Log} {entry : Option RateLimitInfo}

theorem sameWindow_of_quiet (hq : ∀ o ∈ os, o.isQuiet = true) :
    SameWindow id (windowLog id log) log (windowLog id (os ++ log)) (os ++ log) := by
  have hadm : ∀ r record, Obs.admission r record ∉ os := fun _ _ h => Bool.noConfusion (hq _ h)
  have href : ∀ r, Obs.refunded r ∉ os := fun _ h => Bool.noConfusion (hq _ h)
  have hfin : ∀ r result, Obs.finalized r result ∉ os := fun _ _ h => Bool.noConfusion (hq _ h)
  refine ⟨fun r record _ => ?_, fun r _ _ => refunded_append (href r) (hfin r),
    fun r _ _ => resolved_append (href r) (hfin r),
    fun r _ result _ => mem_append_of_notMem (hfin r result)⟩
  rw [windowLog_append fun o ho => Obs.opens_of_isQuiet (hq o ho) id]
  exact mem_append_of_notMem (hadm r record)

/-- A log that adds nothing to the windows of the identifier. -/
theorem WindowInv.congr {log' : Log} (h : WindowInv cfg id log entry)
    (hsame : ∀ info, entry = some info →
      SameWindow id (windowLog id log) log (windowLog id log') log')
    (hclocks : ∀ t ∈ clocks log, t ∈ clocks log')
    (hopened : ∀ t, OpenedAt id log t → OpenedAt id log' t)
    (href : ∀ r, Refunded log r → Refunded log' r)
    (hadm : ∀ r record, .admission r record ∈ log' → record.idHash = id →
      .admission r record ∈ log)
    (hgen : ∀ r record slot, .admission r record ∈ log' → record.reservation = some slot →
      slot.generation ≤ record.requestedAt) : WindowInv cfg id log' entry := by
  refine ⟨fun info hi => (h.window info hi).congr (hsame info hi),
    fun info hi => hopened _ (h.opened info hi), hgen, fun r record slot hm hslot hid hnot => ?_⟩
  have hrec := (AdmissionRecord.idHash_of_reservation hslot).trans hid
  refine (h.past r record slot (hadm r record hm hrec) hslot hid (mt (href r) hnot)).imp ?_ ?_
  · rintro ⟨⟨info, hi⟩, hw⟩
    exact ⟨⟨info, hi⟩, ((hsame info hi).admission r record hrec).mpr hw⟩
  · rintro ⟨⟨t, ht, hlt⟩, hinfo⟩
    exact ⟨⟨t, hclocks t ht, hlt⟩, hinfo⟩

/-- Observations that neither admit nor resolve change nothing. -/
theorem WindowInv.quiet (h : WindowInv cfg id log entry) (hq : ∀ o ∈ os, o.isQuiet = true) :
    WindowInv cfg id (os ++ log) entry := by
  have hadm : ∀ r record, Obs.admission r record ∈ os ++ log → .admission r record ∈ log :=
    fun _ _ => (mem_append_of_notMem fun h => Bool.noConfusion (hq _ h)).mp
  exact h.congr (fun _ _ => sameWindow_of_quiet hq) (fun t => clocks_subset_append)
    (fun t ht => ht.append fun o ho => Obs.opens_of_isQuiet (hq o ho) id) (fun r => Refunded.mono os)
    (fun r record hm _ => hadm r record hm) fun r record slot hm =>
      h.generation r record slot (hadm r record hm)

/-- Dropping the entry at a clock value past its cooldown closes its window. -/
theorem WindowInv.expire (h : WindowInv cfg id log entry) {t : ℤ} (ht : t ∈ clocks log) :
    WindowInv cfg id log (entry.filter (withinCooldown cfg t)) := by
  refine ⟨fun info hi => h.window info (Option.filter_eq_some_iff.mp hi).1,
    fun info hi => h.opened info (Option.filter_eq_some_iff.mp hi).1, h.generation,
    fun r record slot hm hslot hid href => ?_⟩
  obtain ⟨⟨info, rfl⟩, hw⟩ | ⟨hold, hnew⟩ := h.past r record slot hm hslot hid href
  · by_cases hin : withinCooldown cfg t info = true
    · exact Or.inl ⟨⟨info, Option.filter_eq_some_iff.mpr ⟨rfl, hin⟩⟩, hw⟩
    · right
      have hlast := ((h.window info rfl).started r record slot hw hslot hid).2
      rw [withinCooldown_iff] at hin
      refine ⟨⟨t, ht, by omega⟩, fun info' hi => ?_⟩
      have := (Option.filter_eq_some_iff.mp hi).2
      cases (Option.filter_eq_some_iff.mp hi).1
      rw [withinCooldown_iff] at this
      exact absurd this hin
  · exact Or.inr ⟨hold, fun info hi => hnew info (Option.filter_eq_some_iff.mp hi).1⟩

/-- The admission of another identifier changes nothing. -/
theorem WindowInv.elsewhere (h : WindowInv cfg id log entry) {r : ReqId}
    {record : AdmissionRecord} (hid : record.idHash ≠ id)
    (hgen : ∀ slot, record.reservation = some slot → slot.generation ≤ record.requestedAt) :
    WindowInv cfg id (.admission r record :: log) entry := by
  have hopens : (Obs.admission r record).opens id = false := by simp [Obs.opens, hid]
  have hadm : ∀ (l : Log) r' record', record'.idHash = id →
      (.admission r' record' ∈ Obs.admission r record :: l ↔ .admission r' record' ∈ l) := by
    intro l r' record' hid'
    rw [List.mem_cons]
    refine or_iff_right ?_
    rintro ⟨⟩
    exact hid hid'
  refine h.congr (fun _ _ => ⟨fun r' record' hid' => ?_, fun r' _ _ => ?_, fun r' _ _ => ?_,
    fun r' _ result _ => ?_⟩) (fun t ht => List.mem_cons_of_mem _ ht)
    (fun t ht => ht.cons hopens) (fun r' => Refunded.mono [_])
    (fun r' record' hm hid' => (hadm log r' record' hid').mp hm) fun r' record' slot hm hslot => ?_
  · rw [windowLog, Machine.since_cons_of_neg hopens]
    exact hadm _ r' record' hid'
  · simp [Refunded]
  · simp [Resolved]
  · simp
  · obtain hm | hm := List.mem_cons.mp hm
    · cases hm
      exact hgen slot hslot
    · exact h.generation r' record' slot hm hslot

end quiet

end RecoverBull
