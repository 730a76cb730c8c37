import RecoverBull.Limiter.Counters

/-!
# Who resolves a reservation

A pending candidate of the map has one owner: the request that reserved it, or
the cleanup task or the detached task it left behind. The owner is never stuck,
ends the reservation at most once, and touches no other.
-/

namespace RecoverBull

variable {F : Type} {P : Primitives} {cfg : Config} {s s' : AppState F} {log os : Log}
  {r r' : ReqId} {slot : Slot}

/-- Request `r`, or a task it left behind, still has to resolve the reservation. -/
def Owns (s : AppState F) (r : ReqId) (slot : Slot) : Prop :=
  ∃ q a, s.fetches r = some (.active q) ∧ q.phase.owned = some a ∧ q.slot a = slot

/-- What an entry says of a reservation. -/
def RateLimitInfo.stateOf (info : RateLimitInfo) (slot : Slot) : Option CandidateState :=
  if info.windowStartedAt = slot.generation then info.candidates.lookup slot.candidate else none

/-- What the map says of a reservation. -/
def slotState (map : RateLimitMap) (slot : Slot) : Option CandidateState :=
  (map.lookup slot.idHash).bind fun info => info.stateOf slot

/-- The reservation is still pending, and `r` is to resolve it. -/
structure Holds (s : AppState F) (r : ReqId) (slot : Slot) : Prop where
  owner : Owns s r slot
  pending : slotState s.identifierRateLimit slot = some .pending

/-- The three ways in which a pending reservation ends in one step. -/
inductive Resolution (cfg : Config) (s s' : AppState F) (os : Log) (r : ReqId) (slot : Slot) : Prop
  | committed (result : LookupResult) (hos : .finalized r result ∈ os)
      (hok : ∀ e, result ≠ .failed e)
      (hstate : slotState s'.identifierRateLimit slot = some .committed)
  | removed (hos : Refunded os r) (hstate : slotState s'.identifierRateLimit slot = none)
  /-- A clock found the window past its cooldown. -/
  | expired (info : RateLimitInfo) (t : ℤ) (hi : s.identifierRateLimit.lookup slot.idHash = some info)
      (ht : t ∈ clocks os) (hlt : info.lastCandidateAt + cfg.rateLimitCooldown < t)
      (hstate : slotState s'.identifierRateLimit slot = none)

/-- The observation ends the reservation of `r`. -/
def Obs.resolves (r : ReqId) : Obs → Bool
  | .refunded r' | .finalized r' _ => r' == r
  | _ => false

theorem RateLimitInfo.stateOf_eq_some {info : RateLimitInfo} {state : CandidateState} :
    info.stateOf slot = some state ↔
      info.windowStartedAt = slot.generation ∧ info.candidates.lookup slot.candidate = some state := by
  simp [RateLimitInfo.stateOf]

theorem slotState_eq_some {map : RateLimitMap} {state : CandidateState} :
    slotState map slot = some state ↔ ∃ info, map.lookup slot.idHash = some info ∧
      info.windowStartedAt = slot.generation ∧
      info.candidates.lookup slot.candidate = some state := by
  rw [slotState, Option.bind_eq_some_iff]
  exact exists_congr fun info => and_congr_right fun _ => info.stateOf_eq_some

/-! ## Owners -/

section owners

variable [BucketNumber F]

theorem Served.of_owns (h : Served P cfg log s) (ho : Owns s r slot) :
    ∃ record, .admission r record ∈ log ∧ record.reservation = some slot ∧
      (∀ record', .admission r record' ∈ log → record' = record) ∧ ¬Resolved log r := by
  obtain ⟨q, a, hq, ha, rfl⟩ := ho
  exact h.owned hq ha

/-- A reservation that is neither resolved nor lost with its task has its owner. -/
theorem Served.owns_of_admission (h : Served P cfg log s) (hlost : .taskLost r ∉ log)
    {record : AdmissionRecord} (hm : .admission r record ∈ log)
    (hslot : record.reservation = some slot) (hres : ¬Resolved log r) : Owns s r slot := by
  have hword := h.callTrace r
  refine hword.owned_of_reserved (admission_mem_trace.mp hm) hslot ?_ (mt taskLost_mem_trace.mpr hlost)
  refine mt ?_ hres
  exact Or.imp refunded_mem_trace.mpr fun ⟨result, hf⟩ => ⟨result, finalized_mem_trace.mpr hf⟩

/-- An owner whose reservation is pending made it in the current window. -/
theorem Served.reservedIn_of_holds (h : Served P cfg log s) (hchron : Chronological log)
    (hh : Holds s r slot) :
    ReservedIn slot.idHash (windowLog slot.idHash log) r slot.candidate ∧ ¬Resolved log r := by
  obtain ⟨record, hm, hslot, huniq, hres⟩ := h.of_owns hh.owner
  obtain ⟨info, hi, hg, _⟩ := slotState_eq_some.mp hh.pending
  obtain ⟨_, _, hr, _⟩ | ⟨hne, _⟩ :=
    (h.windowInv hchron slot.idHash).locate hm hslot rfl huniq hres hi
  · exact ⟨hr, hres⟩
  · exact absurd hg hne

/-- A pending reservation has an owner, who made it. -/
theorem Served.exists_owner (h : Served P cfg log s) (hchron : Chronological log)
    (hlost : ∀ r, .taskLost r ∉ log)
    (hp : slotState s.identifierRateLimit slot = some .pending) :
    ∃ r, Owns s r slot ∧ ∃ t, Reserved log r slot t := by
  obtain ⟨info, hi, hg, hc⟩ := slotState_eq_some.mp hp
  have hw := (h.windowInv hchron slot.idHash).window info hi
  obtain ⟨r, ⟨record, g, hm, hslot⟩, hres⟩ := (hw.pending slot.candidate).mp hc
  obtain rfl : g = slot.generation := ((hw.started r record _ hm hslot rfl).1.trans hg)
  have hm' := mem_of_mem_windowLog hm
  exact ⟨r, h.owns_of_admission (hlost r) hm' hslot hres, record.requestedAt, record, hm', hslot, rfl⟩

theorem Served.holds_unique (h : Served P cfg log s) (hchron : Chronological log)
    (hr : Holds s r slot) (hr' : Holds s r' slot) : r = r' := by
  obtain ⟨info, hi, _, _⟩ := slotState_eq_some.mp hr.pending
  obtain ⟨hin, hres⟩ := h.reservedIn_of_holds hchron hr
  obtain ⟨hin', hres'⟩ := h.reservedIn_of_holds hchron hr'
  exact ((h.windowInv hchron slot.idHash).window info hi).unique r r' slot.candidate hin
    (mt Refunded.resolved hres) hin' (mt Refunded.resolved hres')

/-- An owner whose reservation is not pending any more made it more than a
cooldown ago, in a window that is gone. -/
theorem Served.past_of_owns (h : Served P cfg log s) (hchron : Chronological log)
    (ho : Owns s r slot) (hp : slotState s.identifierRateLimit slot ≠ some .pending) :
    ∃ t ∈ clocks log, slot.generation + cfg.rateLimitCooldown < t ∧
      ∀ info, s.identifierRateLimit.lookup slot.idHash = some info →
        info.windowStartedAt ≠ slot.generation := by
  obtain ⟨record, hm, hslot, huniq, hres⟩ := h.of_owns ho
  have hinv := h.windowInv hchron slot.idHash
  have hgone : ∀ info, s.identifierRateLimit.lookup slot.idHash = some info →
      info.windowStartedAt ≠ slot.generation ∧
        ∀ c, ¬ReservedIn slot.idHash (windowLog slot.idHash log) r c := by
    intro info hi
    refine (hinv.locate hm hslot rfl huniq hres hi).resolve_left fun hlive => hp ?_
    exact slotState_eq_some.mpr ⟨info, hi, hlive.1, hlive.2.1⟩
  obtain ⟨⟨info, hi⟩, hw⟩ | ⟨⟨t, ht, hlt⟩, _⟩ :=
    hinv.past r record slot hm hslot rfl (mt Refunded.resolved hres)
  · exact absurd ⟨record, slot.generation, hw, hslot⟩ ((hgone info hi).2 slot.candidate)
  · have hgen := hinv.generation r record slot hm hslot
    exact ⟨t, ht, by omega, fun info hi => (hgone info hi).1⟩

end owners

/-! ## Resolving touches one reservation -/

theorem refundEntry_stateOf {c : CandidateTag} {g : ℤ} (info : RateLimitInfo)
    (hne : ¬(slot.candidate = c ∧ slot.generation = g)) :
    ((refundEntry c g info).bind fun i => i.stateOf slot) = info.stateOf slot := by
  unfold refundEntry
  generalize hleft : (if info.windowStartedAt = g ∧ info.candidates.lookup c = some .pending then
    { info with candidates := info.candidates.erase c } else info) = left
  have hsame : left.stateOf slot = info.stateOf slot := by
    rw [← hleft]
    split
    · next hc =>
      unfold RateLimitInfo.stateOf
      dsimp only
      split
      · next hg => exact Finmap.lookup_erase_ne fun he => hne ⟨he, hg.symm.trans hc.1⟩
      · rfl
    · rfl
  dsimp only
  split
  · next hempty =>
    rw [← hsame, RateLimitInfo.stateOf, hempty.2, Finmap.lookup_empty, ite_self, Option.bind_none]
  · rw [Option.bind_some, hsame]

theorem finalizeEntry_stateOf {c : CandidateTag} {g : ℤ} {result : LookupResult}
    (info : RateLimitInfo) (hne : ¬(slot.candidate = c ∧ slot.generation = g)) :
    ((finalizeEntry c g result info).bind fun i => i.stateOf slot) = info.stateOf slot := by
  by_cases hs : info.windowStartedAt ≠ g ∨ info.candidates.lookup c ≠ some .pending
  · rw [finalizeEntry_stale hs, Option.bind_some]
  simp only [not_or, not_not] at hs
  obtain ⟨rfl, hc⟩ := hs
  have hother : info.windowStartedAt = slot.generation → slot.candidate ≠ c :=
    fun hg he => hne ⟨he, hg.symm⟩
  by_cases hf : ∃ e, result = .failed e
  · obtain ⟨e, rfl⟩ := hf
    rw [finalizeEntry_failed hc, ← refundEntry_pending hc]
    exact refundEntry_stateOf info hne
  · rw [finalizeEntry_committed hc (not_exists.mp hf), Option.bind_some]
    unfold RateLimitInfo.stateOf commitEntry
    dsimp only
    split
    · next hg => exact Finmap.lookup_insert_of_ne _ (hother hg)
    · rfl

/-- A step that ends the reservation of `r` is a refund or a finalization by its
owner. -/
inductive Resolves (cfg : Config) (s s' : AppState F) (os : Log) (r : ReqId) (slot : Slot) : Prop
  | refund (hos : .refunded r ∈ os)
      (hmap : s'.identifierRateLimit =
        removePending s.identifierRateLimit slot.idHash slot.candidate slot.generation)
  | finalize (result : LookupResult) (hos : os = [.finalized r result])
      (hmap : s'.identifierRateLimit =
        RecoverBull.finalize s.identifierRateLimit slot.idHash slot.candidate slot.generation result)

theorem Effect.resolves (he : Effect cfg s s' os) (hr : Resolved os r) :
    ∃ slot, Owns s r slot ∧ Resolves cfg s s' os r slot := by
  -- What else a step observes beside a critical section resolves nothing.
  have hidle : ∀ {extra : Log}, (∀ o ∈ extra, o.isIdle = true) → ∀ {o : Obs}, o.isIdle = false →
      o ∉ extra := by
    intro extra hextra o ho hm
    rw [hextra o hm] at ho
    cases ho
  cases he with
  | idle hmap hos =>
    obtain hm | ⟨result, hm⟩ := hr
    · exact absurd hm (hidle hos rfl)
    · exact absurd hm (hidle hos rfl)
  | admission r' q t extra hq hphase hmap hos hextra =>
    rw [hos] at hr
    obtain hm | ⟨result, hm⟩ := hr
    · simp [hidle hextra (o := .refunded r) rfl] at hm
    · simp [hidle hextra (o := .finalized r result) rfl] at hm
  | refund r' q a hq ha hmap extra extra' hos hextra hextra' =>
    have hm : .refunded r ∈ os ∧ r = r' := by
      rw [hos] at hr ⊢
      obtain hm | ⟨result, hm⟩ := hr
      · refine ⟨hm, ?_⟩
        simpa [hidle hextra (o := .refunded r) rfl, hidle hextra' (o := .refunded r) rfl] using hm
      · simp [hidle hextra (o := .finalized r result) rfl,
          hidle hextra' (o := .finalized r result) rfl] at hm
    obtain ⟨hm, rfl⟩ := hm
    exact ⟨q.slot a, ⟨q, a, hq, ha, rfl⟩, .refund hm hmap⟩
  | finalize r' q a client result hq hphase ha hmap hos =>
    have hown : q.phase.owned = some a := by
      rw [hphase]
      simp [FetchPhase.owned, ha]
    obtain rfl : r = r' := by
      rw [hos] at hr
      obtain hm | ⟨result', hm⟩ := hr
      · simp at hm
      · simp only [List.mem_singleton, Obs.finalized.injEq] at hm
        exact hm.1
    exact ⟨q.slot a, ⟨q, a, hq, hown, rfl⟩, .finalize result hos hmap⟩
  | retain now hmap extra hos hextra =>
    have hnot : ∀ {o : Obs}, o ∈ extra → ∃ r', o = .panicked (.attempts r') := by
      intro o ho
      obtain ⟨r', order, h, -⟩ := hextra o ho
      exact ⟨r', h⟩
    rw [hos] at hr
    obtain hm | ⟨result, hm⟩ := hr
    · obtain hm | hm := List.mem_append.mp hm
      · obtain ⟨_, hm⟩ := hnot hm
        cases hm
      · simp at hm
    · obtain hm | hm := List.mem_append.mp hm
      · obtain ⟨_, hm⟩ := hnot hm
        cases hm
      · simp at hm

/-- Other reservations keep their state. -/
theorem Resolves.slotState_of_ne (h : Resolves cfg s s' os r slot) {slot' : Slot}
    (hne : slot' ≠ slot) :
    slotState s'.identifierRateLimit slot' = slotState s.identifierRateLimit slot' := by
  have main : ∀ f : RateLimitInfo → Option RateLimitInfo,
      (∀ info, slot'.idHash = slot.idHash → ((f info).bind fun i => i.stateOf slot') =
        info.stateOf slot') →
      (∀ k, s'.identifierRateLimit.lookup k = if k = slot.idHash then
        (s.identifierRateLimit.lookup k).bind f else s.identifierRateLimit.lookup k) →
      slotState s'.identifierRateLimit slot' = slotState s.identifierRateLimit slot' := by
    intro f hf hl
    rw [slotState, hl]
    split
    · next hid =>
      rw [Option.bind_assoc, slotState]
      exact Option.bind_congr fun info _ => hf info hid
    · rfl
  have hslot : slot'.idHash = slot.idHash →
      ¬(slot'.candidate = slot.candidate ∧ slot'.generation = slot.generation) := by
    intro hid ⟨hc, hg⟩
    apply hne
    cases slot'
    cases slot
    simp_all
  cases h with
  | refund _ hmap =>
    exact main _ (fun info hid => refundEntry_stateOf info (hslot hid)) fun k => by
      rw [hmap, lookup_removePending]
  | finalize result _ hmap =>
    exact main _ (fun info hid => finalizeEntry_stateOf info (hslot hid)) fun k => by
      rw [hmap, lookup_finalize]

/-- Nothing happens to the map when the reservation is not pending. -/
theorem Resolves.map_eq (h : Resolves cfg s s' os r slot)
    (hb : Bounded cfg s.identifierRateLimit)
    (hp : slotState s.identifierRateLimit slot ≠ some .pending) :
    s'.identifierRateLimit = s.identifierRateLimit := by
  have hstale : ∀ info, s.identifierRateLimit.lookup slot.idHash = some info →
      info.windowStartedAt ≠ slot.generation ∨
        info.candidates.lookup slot.candidate ≠ some .pending := by
    intro info hi
    by_contra hn
    simp only [not_or, not_not] at hn
    exact hp (slotState_eq_some.mpr ⟨info, hi, hn⟩)
  have hne : ∀ info, s.identifierRateLimit.lookup slot.idHash = some info → info.candidates ≠ ∅ :=
    fun _ => hb.ne_empty
  have main : ∀ f : RateLimitInfo → Option RateLimitInfo,
      (∀ info, s.identifierRateLimit.lookup slot.idHash = some info → f info = some info) →
      (∀ k, s'.identifierRateLimit.lookup k = if k = slot.idHash then
        (s.identifierRateLimit.lookup k).bind f else s.identifierRateLimit.lookup k) →
      s'.identifierRateLimit = s.identifierRateLimit := by
    intro f hf hl
    apply Finmap.ext_lookup
    intro k
    rw [hl]
    split
    · next hk =>
      subst hk
      cases hi : s.identifierRateLimit.lookup slot.idHash with
      | none => rfl
      | some info => rw [Option.bind_some, hf info hi]
    · rfl
  cases h with
  | refund _ hmap =>
    exact main _ (fun info hi => refundEntry_stale (hstale info hi) (hne info hi)) fun k => by
      rw [hmap, lookup_removePending]
  | finalize result _ hmap =>
    exact main _ (fun info hi => finalizeEntry_stale (hstale info hi)) fun k => by
      rw [hmap, lookup_finalize]

/-- The owner's step ends a pending reservation: it commits or removes it. -/
theorem Resolves.resolution (h : Resolves cfg s s' os r slot)
    (hp : slotState s.identifierRateLimit slot = some .pending) :
    Resolution cfg s s' os r slot := by
  obtain ⟨info, hi, hg, hc⟩ := slotState_eq_some.mp hp
  have hgone : ((withoutCandidate slot.candidate info).bind fun i => i.stateOf slot) = none := by
    unfold withoutCandidate
    split
    · rfl
    · rw [Option.bind_some, RateLimitInfo.stateOf, Finmap.lookup_erase, ite_self]
  cases h with
  | refund hos hmap =>
    refine .removed (Or.inl hos) ?_
    rw [slotState, hmap, lookup_removePending, if_pos rfl, hi, Option.bind_some, ← hg,
      refundEntry_pending hc]
    exact hgone
  | finalize result hos hmap =>
    have hm : .finalized r result ∈ os := by
      rw [hos]
      exact List.mem_cons_self
    by_cases hf : ∃ e, result = .failed e
    · obtain ⟨e, rfl⟩ := hf
      refine .removed (Or.inr ⟨e, hm⟩) ?_
      rw [slotState, hmap, lookup_finalize, if_pos rfl, hi, Option.bind_some, ← hg,
        finalizeEntry_failed hc]
      exact hgone
    · refine .committed result hm (not_exists.mp hf) ?_
      rw [slotState, hmap, lookup_finalize, if_pos rfl, hi, Option.bind_some, ← hg,
        finalizeEntry_committed hc (not_exists.mp hf), Option.bind_some, RateLimitInfo.stateOf_eq_some]
      exact ⟨hg, Finmap.lookup_insert _⟩

/-! ## One step -/

/-- A pending candidate stays pending, unless its window expires or its owner
resolves it. -/
theorem EntryEffect.pending {id : String} {info : RateLimitInfo} {entry : Option RateLimitInfo}
    (he : EntryEffect cfg s os id (some info) entry) (hid : slot.idHash = id)
    (hp : info.stateOf slot = some .pending) (hle : info.windowStartedAt ≤ info.lastCandidateAt) :
    (entry.bind fun i => i.stateOf slot) = some .pending ∨
      (∃ t ∈ clocks os, info.lastCandidateAt + cfg.rateLimitCooldown < t ∧
        (entry.bind fun i => i.stateOf slot) = none) ∨
      ∃ r, Owns s r slot ∧ Resolved os r := by
  have hcd := cfg.cooldown_pos
  obtain ⟨hg, hc⟩ := RateLimitInfo.stateOf_eq_some.mp hp
  have hslot : ∀ {q : Lookup} {a : Admitted}, q.idHash = id → slot.candidate = q.candidate ∧
      slot.generation = a.generation → q.slot a = slot := by
    rintro q a hq ⟨hc', hg'⟩
    rw [Lookup.slot, hq, ← hid, ← hc', ← hg']
  generalize hold : some info = old at he
  cases he with
  | same =>
    subst hold
    exact Or.inl hp
  | expire t ht =>
    subst hold
    obtain ⟨hf, _⟩ | ⟨hf, hover⟩ := filter_withinCooldown cfg t info
    · rw [hf]
      exact Or.inl hp
    · rw [hf]
      exact Or.inr (Or.inl ⟨t, ht, hover, rfl⟩)
  | admission r record hm hid' hspec hfound =>
    subst hold
    obtain ⟨hf, _⟩ | ⟨hf, hover⟩ := filter_withinCooldown cfg record.requestedAt info
    · left
      rw [hf] at hfound
      cases hspec with
      | refused hnone => rw [hnone] at hfound; cases hfound
      | entered left hleft hentry =>
        rw [hfound, Option.getD_some] at hentry
        rw [hleft, Option.bind_some]
        obtain ⟨_, rfl⟩ | ⟨_, hfree, rfl⟩ := hentry.reservation
        · exact hp
        · refine RateLimitInfo.stateOf_eq_some.mpr ⟨hg, ?_⟩
          have hne : slot.candidate ≠ record.candidate := by
            intro he
            rw [he, hfree] at hc
            cases hc
          exact (Finmap.lookup_insert_of_ne _ hne).trans hc
    · right; left
      refine ⟨record.requestedAt, List.mem_filterMap.mpr ⟨_, hm, rfl⟩, hover, ?_⟩
      rw [hf] at hfound
      cases hl : record.left with
      | none => rfl
      | some left =>
        -- The window that replaces the old one starts now.
        obtain ⟨-, -, rfl⟩ | ⟨old, hold, -⟩ := hspec.left_cases hl
        · rw [Option.bind_some, RateLimitInfo.stateOf, if_neg]
          change record.requestedAt ≠ slot.generation
          omega
        · rw [hfound] at hold
          cases hold
  | refund r q a hq ha hid' hm =>
    subst hold
    by_cases hs : slot.candidate = q.candidate ∧ slot.generation = a.generation
    · exact Or.inr (Or.inr ⟨r, ⟨q, a, hq, ha, hslot hid' hs⟩, Or.inl hm⟩)
    · left
      rw [Option.bind_some, refundEntry_stateOf info hs]
      exact hp
  | finalize r q a result hq ha hid' hos =>
    subst hold
    by_cases hs : slot.candidate = q.candidate ∧ slot.generation = a.generation
    · refine Or.inr (Or.inr ⟨r, ⟨q, a, hq, ha, hslot hid' hs⟩, Or.inr ⟨result, ?_⟩⟩)
      rw [hos]
      exact List.mem_cons_self
    · left
      rw [Option.bind_some, finalizeEntry_stateOf info hs]
      exact hp

/-- A window an entry is in was there before the step or started in it. -/
theorem EntryEffect.windowStartedAt {id : String} {entry : Option RateLimitInfo}
    {info' : RateLimitInfo} (he : EntryEffect cfg s os id entry (some info')) :
    (∃ info, entry = some info ∧ info.windowStartedAt = info'.windowStartedAt) ∨
      info'.windowStartedAt ∈ clocks os := by
  generalize hleft : some info' = left at he
  cases he with
  | same => exact Or.inl ⟨info', hleft.symm, rfl⟩
  | expire t => exact Or.inl ⟨info', (Option.filter_eq_some_iff.mp hleft.symm).1, rfl⟩
  | admission r record hm hid hspec hfound =>
    obtain ⟨-, -, rfl⟩ | ⟨old, hold, hinto⟩ := hspec.left_cases hleft.symm
    · exact Or.inr (List.mem_filterMap.mpr ⟨_, hm, rfl⟩)
    · refine Or.inl ⟨old, (Option.filter_eq_some_iff.mp (hfound.symm.trans hold)).1, ?_⟩
      obtain ⟨_, rfl⟩ | ⟨_, _, rfl⟩ := hinto <;> rfl
  | refund r q a =>
    obtain ⟨info, hi, hr⟩ := Option.bind_eq_some_iff.mp hleft.symm
    obtain ⟨candidates, rfl⟩ := refundEntry_fields hr
    exact Or.inl ⟨info, hi, rfl⟩
  | finalize r q a result =>
    obtain ⟨info, hi, hr⟩ := Option.bind_eq_some_iff.mp hleft.symm
    obtain ⟨candidates, failed, rfl⟩ := finalizeEntry_fields hr
    exact Or.inl ⟨info, hi, rfl⟩

theorem Owns.slot_unique {slot' : Slot} (h : Owns s r slot) (h' : Owns s r slot') : slot = slot' := by
  obtain ⟨q, a, hq, ha, rfl⟩ := h
  obtain ⟨q', a', hq', ha', rfl⟩ := h'
  rw [hq] at hq'
  cases hq'
  rw [ha] at ha'
  cases ha'
  rfl

theorem Resolved.mono (os : Log) (h : Resolved log r) : Resolved (os ++ log) r :=
  h.imp (List.mem_append_right _) fun ⟨result, hf⟩ => ⟨result, List.mem_append_right _ hf⟩

section steps

variable [BucketNumber F] {event : Event}

/-- A held reservation stays held or ends in one of three ways. -/
theorem Served.holds_step (h : Served P cfg log s) (hstep : RecoverBull.step P cfg s event = some (s', os))
    (hchron : Chronological (os ++ log)) (hlost : ∀ r, .taskLost r ∉ os ++ log)
    (hh : Holds s r slot) : Holds s' r slot ∨ Resolution cfg s s' os r slot := by
  have he := step_effect hstep
  by_cases hr : Resolved os r
  · obtain ⟨slot', ho', hres⟩ := he.resolves hr
    obtain rfl := ho'.slot_unique hh.owner
    exact Or.inr (hres.resolution hh.pending)
  · obtain ⟨record, hm, hslot, _, hunresolved⟩ := h.of_owns hh.owner
    have hnot : ¬Resolved (os ++ log) r := by
      simp only [Resolved, List.mem_append] at hr hunresolved ⊢
      grind
    have ho' : Owns s' r slot :=
      (h.step hstep).owns_of_admission (hlost r) (List.mem_append_right _ hm) hslot hnot
    obtain ⟨info, hi, hg, hc⟩ := slotState_eq_some.mp hh.pending
    have hentry := he.entry h.bounded slot.idHash
    rw [hi] at hentry
    have hle := h.windowStartedAt_le hchron.of_append hi
    obtain hp | ⟨t, ht, hlt, hnone⟩ | ⟨r', ho, hr'⟩ :=
      hentry.pending rfl (RateLimitInfo.stateOf_eq_some.mpr ⟨hg, hc⟩) hle
    · exact Or.inl ⟨ho', hp⟩
    · exact Or.inr (.expired info t hi ht hlt hnone)
    · obtain rfl := h.holds_unique hchron.of_append ⟨ho, hh.pending⟩ hh
      exact absurd hr' hr

/-- A reservation that is not held any more is not held again. -/
theorem Served.not_holds_step (h : Served P cfg log s)
    (hstep : RecoverBull.step P cfg s event = some (s', os)) (hchron : Chronological (os ++ log))
    (hlost : ∀ r, .taskLost r ∉ os ++ log) {record : AdmissionRecord}
    (hm : .admission r record ∈ log) (hslot : record.reservation = some slot)
    (hn : ¬Holds s r slot) : ¬Holds s' r slot := by
  intro hh'
  obtain ⟨_, _, _, _, hres⟩ := (h.step hstep).of_owns hh'.owner
  have ho : Owns s r slot :=
    h.owns_of_admission (fun hl => hlost r (List.mem_append_right _ hl)) hm hslot
      (mt (Resolved.mono os) hres)
  obtain ⟨t, ht, hlt, hgone⟩ := h.past_of_owns hchron.of_append ho fun hp => hn ⟨ho, hp⟩
  obtain ⟨info', hi', hg', _⟩ := slotState_eq_some.mp hh'.pending
  have hentry := (step_effect hstep).entry h.bounded slot.idHash
  rw [hi'] at hentry
  obtain ⟨info, hi, hg⟩ | hclock := hentry.windowStartedAt
  · exact hgone info hi (hg.trans hg')
  · -- The window that would hold it again starts after a clock value beyond its cooldown.
    have hcd := cfg.cooldown_pos
    have := hchron.le hclock ht
    omega

/-- `Served.not_holds_step` along any continuation of the run. -/
theorem Served.not_holds_run (h : Served P cfg log s) (hr : Reaches P cfg s os s')
    (hchron : Chronological (os ++ log)) (hlost : ∀ r, .taskLost r ∉ os ++ log)
    {record : AdmissionRecord} (hm : .admission r record ∈ log)
    (hslot : record.reservation = some slot) (hn : ¬Holds s r slot) : ¬Holds s' r slot := by
  have hall : Served P cfg (os ++ log) s' ∧ (Chronological (os ++ log) →
      (∀ r, .taskLost r ∉ os ++ log) → ¬Holds s' r slot) := by
    refine hr.invariant (fun os s' => Served P cfg (os ++ log) s' ∧ (Chronological (os ++ log) →
      (∀ r, .taskLost r ∉ os ++ log) → ¬Holds s' r slot)) ⟨h, fun _ _ => hn⟩ ?_
    rintro os t event t' os' - ⟨ht, hi⟩ hstep
    rw [List.append_assoc]
    refine ⟨ht.step hstep, fun hchron hlost => ?_⟩
    exact ht.not_holds_step hstep hchron hlost (List.mem_append_right _ hm) hslot
      (hi hchron.of_append fun r hl => hlost r (List.mem_append_right _ hl))
  exact hall.2 hchron hlost

end steps

/-! ## Every owner has a way out -/

section progress

variable [BucketNumber F]

theorem step_fetch {q : Lookup} (hq : s.fetches r = some (.active q)) (event : FetchEvent) :
    step P cfg s (.fetch r event) = fetchStep cfg s r q event := by
  simp only [step, hq]

omit [BucketNumber F] in
theorem not_owns_over (hf : s.fetches r = some .over) : ¬Owns s r slot := by
  rintro ⟨q, a, hq, _⟩
  rw [hf] at hq
  cases hq

variable (P cfg) in
/-- The refund a lookup waits for can happen. -/
theorem refund_enabled {q : Lookup} {a : Admitted} (hq : s.fetches r = some (.active q))
    (hp : q.phase = .refund a ∨ q.phase = .lostRefund a ∨ q.phase = .deferred a) :
    ∃ s' os, step P cfg s (.fetch r .removePending) = some (s', os) ∧ .refunded r ∈ os ∧
      s'.fetches r = some .over := by
  rw [step_fetch hq, fetchStep]
  obtain hp | hp | hp := hp <;> rw [hp]
  · exact ⟨_, _, rfl, by simp, by simp⟩
  · exact ⟨_, _, rfl, by simp, by simp⟩
  · exact ⟨_, _, rfl, by simp, by simp⟩

variable (P cfg slot) in
/-- The finalization a task waits for can happen. -/
theorem finalize_enabled {q : Lookup} {a : Admitted} {client : Bool} {result : LookupResult}
    (hq : s.fetches r = some (.active q)) (hp : q.phase = .working a client (.finalizing result))
    (ha : a.isNew = true) :
    ∃ s' os, step P cfg s (.fetch r .finalize) = some (s', os) ∧ .finalized r result ∈ os ∧
      ¬Owns s' r slot := by
  rw [step_fetch hq, fetchStep, hp]
  dsimp only
  rw [if_pos ha]
  refine ⟨_, _, rfl, List.mem_cons_self, ?_⟩
  rintro ⟨q', a', hq', ha', _⟩
  simp only [AppState.fetches_setFetch, Function.update_self, Option.some.injEq,
    FetchCall.active.injEq] at hq'
  subst hq'
  cases ha'

/-- The owner of a reservation can end it with at most two steps of its own. -/
theorem Served.way_out (h : Served P cfg log s) (hlost : .taskLost r ∉ log)
    (ho : Owns s r slot) : ∃ events s' os, (∀ e ∈ events, ∃ event, e = .fetch r event) ∧
      events.length ≤ 2 ∧ run P cfg s events = some (s', os) ∧ Resolved os r ∧
      ¬Owns s' r slot := by
  obtain ⟨q, a, hq, ha, hslot⟩ := ho
  -- One step that ends the reservation, or one that leads to such a step.
  have one : ∀ {event s' os}, RecoverBull.step P cfg s (.fetch r event) = some (s', os) → Resolved os r →
      ¬Owns s' r slot → ∃ events s' os, (∀ e ∈ events, ∃ event, e = .fetch r event) ∧
        events.length ≤ 2 ∧ run P cfg s events = some (s', os) ∧ Resolved os r ∧
        ¬Owns s' r slot := fun hs hres hn =>
    ⟨[_], _, _, by simp, by simp, Machine.run_singleton hs, hres, hn⟩
  have two : ∀ {event event' s₁ os₁ s' os}, RecoverBull.step P cfg s (.fetch r event) = some (s₁, os₁) →
      RecoverBull.step P cfg s₁ (.fetch r event') = some (s', os) → Resolved os r → ¬Owns s' r slot →
      ∃ events s' os, (∀ e ∈ events, ∃ event, e = .fetch r event) ∧ events.length ≤ 2 ∧
        run P cfg s events = some (s', os) ∧ Resolved os r ∧ ¬Owns s' r slot :=
    fun {event event' s₁ os₁ s' os} hs hs' hres hn => by
      refine ⟨[.fetch r event, .fetch r event'], s', os ++ os₁, by simp, by simp, ?_, ?_, hn⟩
      · exact Machine.run_cons_eq_some.mpr ⟨s₁, os₁, os, hs, Machine.run_singleton hs', rfl⟩
      · exact hres.imp (List.mem_append_left _) fun ⟨result, hf⟩ =>
          ⟨result, List.mem_append_left _ hf⟩
  cases hp : q.phase with
  | bucket | clock | mapLock t => rw [hp] at ha; cases ha
  | permit b =>
    rw [hp] at ha
    simp only [FetchPhase.owned, Option.ite_none_right_eq_some, Option.some.injEq] at ha
    have hs : RecoverBull.step P cfg s (.fetch r (.permit false)) =
        some (s.setFetch r (.active { q with phase := .refund b }), []) := by
      rw [step_fetch hq, fetchStep, hp]
      simp [ha.1]
    have hq' : (s.setFetch r (.active { q with phase := .refund b })).fetches r =
        some (.active { q with phase := .refund b }) := by simp
    obtain ⟨s', os, hs', hm, hf⟩ := refund_enabled P cfg hq' (Or.inl rfl)
    exact two hs hs' (Or.inl hm) (not_owns_over hf)
  | refund b =>
    obtain ⟨s', os, hs, hm, hf⟩ := refund_enabled P cfg hq (Or.inl hp)
    exact one hs (Or.inl hm) (not_owns_over hf)
  | lostRefund b =>
    obtain ⟨s', os, hs, hm, hf⟩ := refund_enabled P cfg hq (Or.inr (Or.inl hp))
    exact one hs (Or.inl hm) (not_owns_over hf)
  | deferred b =>
    obtain ⟨s', os, hs, hm, hf⟩ := refund_enabled P cfg hq (Or.inr (Or.inr hp))
    exact one hs (Or.inl hm) (not_owns_over hf)
  | working b client task =>
    have hnew : b.isNew = true := by
      rw [hp] at ha
      cases task <;> simp only [FetchPhase.owned, Option.ite_none_right_eq_some, reduceCtorEq] at ha
      all_goals exact ha.1
    cases task with
    | finished result => rw [hp] at ha; cases ha
    | lost =>
      have hword := h.callTrace r
      rw [hq] at hword
      have hw := hword.phaseTrace
      rw [hp] at hw
      generalize htr : trace r log = word at hw
      cases hw with
      | working _ _ _ _ _ _ tail ht =>
        refine absurd (taskLost_mem_trace.mpr ?_) hlost
        rw [htr]
        exact List.mem_append_left _ ht.lost_mem
    | finalizing result =>
      obtain ⟨s', os, hs, hm, hn⟩ :=
        finalize_enabled P cfg slot hq hp hnew
      exact one hs (Or.inr ⟨result, hm⟩) hn
    | blocking =>
      rcases hl : runLookup s.secrets q.isTrashingSecret q.candidate .fails with ⟨result, table⟩
      have hs : RecoverBull.step P cfg s (.fetch r (.query .fails)) =
          some ({ s with secrets := table }.setFetch r
              (.active { q with phase := .working b client (.finalizing result) }),
            [.queried r q.isTrashingSecret q.candidate .fails result]) := by
        rw [step_fetch hq, fetchStep, hp]
        simp only [hl]
      obtain ⟨s', os, hs', hm, hn⟩ :=
        finalize_enabled P cfg slot
          (s := { s with secrets := table }.setFetch r
            (.active { q with phase := .working b client (.finalizing result) }))
          (Function.update_self _ _ _) rfl hnew
      exact two hs hs' (Or.inr ⟨result, hm⟩) hn

end progress

/-! ## Once -/

/-- The word of a request ends its reservation at most once. -/
theorem CallTrace.resolves_length_le {gone : Prop} {call : Option FetchCall} {word : Log}
    (h : CallTrace cfg r gone call word) : (word.filter (Obs.resolves r)).length ≤ 1 := by
  rcases h with _ | ⟨q, word, hq⟩ | ⟨word, hq⟩
  · simp
  · generalize q.phase = phase at hq
    cases hq
    all_goals try cases ‹TaskTrace _ _ _ _ _ _›
    all_goals simp [Obs.resolves]
  · cases hq
    all_goals try cases ‹TaskTrace _ _ _ _ _ _›
    all_goals simp [Obs.resolves]

theorem Served.resolves_length_le [BucketNumber F] (h : Served P cfg log s) (r : ReqId) :
    (log.filter (Obs.resolves r)).length ≤ 1 := by
  have hword := (h.callTrace r).resolves_length_le
  rw [trace, List.filter_filter] at hword
  have hsame : (fun o => Obs.resolves r o && o.isOf r) = Obs.resolves r := by
    funext o
    cases o <;> simp [Obs.resolves, Obs.isOf]
  rwa [hsame] at hword

/-- **A reservation has one owner and is resolved once.** -/
theorem reservations_resolved_once [BucketNumber F] (P : Primitives) (cfg : Config) {log : Log}
    {s : AppState F} (h : Served P cfg log s) (hchron : Chronological log)
    (hlost : ∀ r, .taskLost r ∉ log) :
    (∀ slot, slotState s.identifierRateLimit slot = some .pending →
      ∃ r, Owns s r slot ∧ (∃ t, Reserved log r slot t) ∧ ∀ r', Owns s r' slot → r' = r) ∧
    (∀ r, (log.filter (Obs.resolves r)).length ≤ 1) ∧
    (∀ r slot, Holds s r slot → ∃ events s' os, (∀ e ∈ events, ∃ event, e = .fetch r event) ∧
      events.length ≤ 2 ∧ run P cfg s events = some (s', os) ∧ Resolved os r ∧ ¬Owns s' r slot) ∧
    (∀ event s' os, step P cfg s event = some (s', os) → Chronological (os ++ log) →
      (∀ r, .taskLost r ∉ os) → ∀ r slot t, Reserved log r slot t →
        (Holds s r slot → Holds s' r slot ∨ Resolution cfg s s' os r slot) ∧
        (Resolved os r → ¬Holds s r slot → s'.identifierRateLimit = s.identifierRateLimit) ∧
        (Resolved os r → ∀ slot', slot' ≠ slot →
          slotState s'.identifierRateLimit slot' = slotState s.identifierRateLimit slot')) ∧
    ∀ os s', Reaches P cfg s os s' → Chronological (os ++ log) → (∀ r, .taskLost r ∉ os) →
      ∀ r slot t, Reserved log r slot t → ¬Holds s r slot → ¬Holds s' r slot := by
  have hnolost : ∀ {os : Log}, (∀ r, Obs.taskLost r ∉ os) → ∀ r, .taskLost r ∉ os ++ log :=
    fun hos r hl => (List.mem_append.mp hl).elim (hos r) (hlost r)
  refine ⟨fun slot hp => ?_, h.resolves_length_le, fun r slot hh => h.way_out (hlost r) hh.owner,
    fun event s' os hstep hchron' hlost' r slot t ⟨record, hm, hslot, _⟩ => ⟨?_, ?_, ?_⟩,
    fun os s' hr hchron' hlost' r slot t ⟨record, hm, hslot, _⟩ => ?_⟩
  · obtain ⟨r, ho, hres⟩ := h.exists_owner hchron hlost hp
    exact ⟨r, ho, hres, fun r' ho' => h.holds_unique hchron ⟨ho', hp⟩ ⟨ho, hp⟩⟩
  · exact h.holds_step hstep hchron' (hnolost hlost')
  · intro hr hn
    obtain ⟨slot', ho', hres⟩ := (step_effect hstep).resolves hr
    obtain ⟨record', hm', hslot', _⟩ := h.of_owns ho'
    rw [h.admission_unique hm' hm, hslot] at hslot'
    cases hslot'
    exact hres.map_eq h.bounded fun hp => hn ⟨ho', hp⟩
  · intro hr slot' hne
    obtain ⟨slot'', ho', hres⟩ := (step_effect hstep).resolves hr
    obtain ⟨record', hm', hslot', _⟩ := h.of_owns ho'
    rw [h.admission_unique hm' hm, hslot] at hslot'
    cases hslot'
    exact hres.slotState_of_ne hne
  · exact h.not_holds_run hr hchron' (hnolost hlost') hm hslot

/-- A candidate of the sample run waits for its database permit. -/
theorem reservations_resolved_once_sample :
    ∃ (log : Log) (s : AppState ℚ), Served .sample .sample log s ∧
      slotState s.identifierRateLimit ⟨sampleIdHash, sampleSecretId, 0⟩ = some .pending ∧
      ∃ r, Owns s r ⟨sampleIdHash, sampleSecretId, 0⟩ ∧
        ∃ t, Reserved log r ⟨sampleIdHash, sampleSecretId, 0⟩ t := by
  have hrun : (run .sample .sample .sample
      (sampleAdmission 0 false ⟨sampleIdentifier, sampleKey⟩ 0)).any
      (fun r => decide (Chronological r.2 ∧
        slotState r.1.identifierRateLimit ⟨sampleIdHash, sampleSecretId, 0⟩ = some .pending) &&
          r.2.all fun | .taskLost _ => false | _ => true) = true := by
    rw [sampleAdmission, run_sampleKey]
    decide +kernel
  obtain ⟨log, s, h, hlog⟩ := served_of_run hrun
  simp only [Bool.and_eq_true, decide_eq_true_eq, List.all_eq_true] at hlog
  obtain ⟨⟨hchron, hp⟩, hall⟩ := hlog
  have hlost : ∀ r, Obs.taskLost r ∉ log := fun r hm => Bool.noConfusion (hall _ hm)
  obtain ⟨r, ho, hres, _⟩ :=
    (reservations_resolved_once .sample .sample h hchron hlost).1 _ hp
  exact ⟨log, s, h, hp, r, ho, hres⟩

end RecoverBull
