import RecoverBull.Limiter.Accounting

/-!
# The budget of a window

Whatever the clocks say and however requests, refunds, finalizers and sweeps
interleave, an entry of the map holds at least one candidate and at most
`rateLimitMaxAttempts` of them, and the map at most `rateLimitMaxIdentifiers`
entries. With that the admission critical section never panics, and
`AdmissionRecord.Spec` says what is left for it to do.
-/

namespace RecoverBull

variable {F : Type}

/-- The entry has a candidate, and no more of them than the budget. -/
def RateLimitInfo.WithinBudget (cfg : Config) (info : RateLimitInfo) : Prop :=
  0 < info.candidates.len ∧ info.candidates.len ≤ cfg.rateLimitMaxAttempts

/-- Every entry is within its budget and the map within its capacity. -/
structure Bounded (cfg : Config) (map : RateLimitMap) : Prop where
  entry : ∀ id info, map.lookup id = some info → info.WithinBudget cfg
  capacity : map.len ≤ cfg.rateLimitMaxIdentifiers

theorem RateLimitInfo.WithinBudget.le_u8Max {cfg : Config} {info : RateLimitInfo}
    (h : info.WithinBudget cfg) : info.candidates.len ≤ u8Max :=
  le_trans h.2 cfg.attempts_u8

theorem RateLimitInfo.WithinBudget.ne_empty {cfg : Config} {info : RateLimitInfo}
    (h : info.WithinBudget cfg) : info.candidates ≠ ∅ :=
  Finmap.ne_empty_of_len_pos h.1

theorem Bounded.ne_empty {cfg : Config} {map : RateLimitMap} (h : Bounded cfg map) {id : String}
    {info : RateLimitInfo} (hi : map.lookup id = some info) : info.candidates ≠ ∅ :=
  (h.entry id info hi).ne_empty

theorem bounded_empty (cfg : Config) : Bounded cfg ∅ where
  entry id info h := by simp at h
  capacity := by simp

/-! ## Refunds, finalizers and sweeps -/

theorem withoutCandidate_withinBudget {cfg : Config} {c : CandidateTag} {info info' : RateLimitInfo}
    (h : withoutCandidate c info = some info') (hb : info.WithinBudget cfg) :
    info'.WithinBudget cfg := by
  unfold withoutCandidate at h
  split at h
  · cases h
  · next hne =>
    cases h
    refine ⟨Nat.pos_of_ne_zero fun h0 => hne (Finmap.len_eq_zero.mp h0), ?_⟩
    exact le_trans (Finmap.len_erase_le _ _) hb.2

theorem refundEntry_withinBudget {cfg : Config} {c : CandidateTag} {g : ℤ}
    {info info' : RateLimitInfo} (h : refundEntry c g info = some info')
    (hb : info.WithinBudget cfg) : info'.WithinBudget cfg := by
  by_cases hp : info.windowStartedAt = g ∧ info.candidates.lookup c = some .pending
  · obtain ⟨rfl, hc⟩ := hp
    rw [refundEntry_pending hc] at h
    exact withoutCandidate_withinBudget h hb
  · rw [refundEntry_stale (not_and_or.mp hp) hb.ne_empty] at h
    cases h
    exact hb

theorem commitEntry_withinBudget {cfg : Config} {c : CandidateTag} {info : RateLimitInfo}
    (hc : info.candidates.lookup c = some .pending) (hb : info.WithinBudget cfg)
    (result : LookupResult) : (commitEntry c result info).WithinBudget cfg := by
  have hlen : (info.candidates.insert c .committed).len = info.candidates.len :=
    Finmap.len_insert_of_mem (Finmap.mem_of_lookup_eq_some hc) _
  unfold RateLimitInfo.WithinBudget commitEntry
  rw [hlen]
  exact hb

theorem finalizeEntry_withinBudget {cfg : Config} {c : CandidateTag} {g : ℤ}
    {info info' : RateLimitInfo} {result : LookupResult}
    (h : finalizeEntry c g result info = some info') (hb : info.WithinBudget cfg) :
    info'.WithinBudget cfg := by
  by_cases hs : info.windowStartedAt ≠ g ∨ info.candidates.lookup c ≠ some .pending
  · rw [finalizeEntry_stale hs] at h
    cases h
    exact hb
  · simp only [not_or, not_not] at hs
    obtain ⟨rfl, hc⟩ := hs
    by_cases hf : ∃ e, result = .failed e
    · obtain ⟨e, rfl⟩ := hf
      rw [finalizeEntry_failed hc] at h
      exact withoutCandidate_withinBudget h hb
    · rw [finalizeEntry_committed hc (not_exists.mp hf)] at h
      cases h
      exact commitEntry_withinBudget hc hb result

/-- A map whose entries are entries of `map`, some of them altered within budget. -/
theorem Bounded.of_lookup {cfg : Config} {map map' : RateLimitMap} (hb : Bounded cfg map)
    (hlen : map'.len ≤ map.len)
    (h : ∀ id info, map'.lookup id = some info → ∃ old, map.lookup id = some old ∧
      (old.WithinBudget cfg → info.WithinBudget cfg)) : Bounded cfg map' where
  entry id info hi := by
    obtain ⟨old, ho, himp⟩ := h id info hi
    exact himp (hb.entry id old ho)
  capacity := le_trans hlen hb.capacity

/-- A map with no key but those of `map` is no larger. -/
theorem len_le_of_lookup {map map' : RateLimitMap}
    (h : ∀ id, map.lookup id = none → map'.lookup id = none) : map'.len ≤ map.len := by
  apply Finset.card_le_card
  intro id hid
  rw [Finmap.mem_keys] at hid ⊢
  by_contra hn
  exact Finmap.lookup_eq_none.mp (h id (Finmap.lookup_eq_none.mpr hn)) hid

theorem Bounded.alter {cfg : Config} {map map' : RateLimitMap} {id : String}
    {f : RateLimitInfo → Option RateLimitInfo} (hb : Bounded cfg map)
    (hl : ∀ k, map'.lookup k = if k = id then (map.lookup k).bind f else map.lookup k)
    (hf : ∀ info info', f info = some info' → info.WithinBudget cfg → info'.WithinBudget cfg) :
    Bounded cfg map' := by
  refine hb.of_lookup (len_le_of_lookup fun k hk => ?_) fun k info hk => ?_
  · rw [hl, hk]
    split <;> rfl
  · rw [hl] at hk
    split at hk
    · obtain ⟨old, ho, hi⟩ := Option.bind_eq_some_iff.mp hk
      exact ⟨old, ho, hf old info hi⟩
    · exact ⟨info, hk, fun h => h⟩

theorem Bounded.removePending {cfg : Config} {map : RateLimitMap} (hb : Bounded cfg map)
    (id : String) (c : CandidateTag) (g : ℤ) :
    Bounded cfg (RecoverBull.removePending map id c g) :=
  hb.alter (lookup_removePending map id c g) fun _ _ => refundEntry_withinBudget

theorem Bounded.finalize {cfg : Config} {map : RateLimitMap} (hb : Bounded cfg map)
    (id : String) (c : CandidateTag) (g : ℤ) (result : LookupResult) :
    Bounded cfg (RecoverBull.finalize map id c g result) :=
  hb.alter (lookup_finalize map id c g result) fun _ _ => finalizeEntry_withinBudget

theorem Bounded.retain {cfg : Config} {map : RateLimitMap} (hb : Bounded cfg map) (now : ℤ) :
    Bounded cfg (retainWithinCooldown cfg now map) := by
  refine hb.of_lookup (Finmap.len_retain_le _ _) fun id info hi => ⟨info, ?_, fun h => h⟩
  rw [lookup_retainWithinCooldown, Option.filter_eq_some_iff] at hi
  exact hi.1

/-! ## Admission -/

/-- What an admission can be on a bounded map: a refusal for capacity that leaves
no entry, or a passage through the entry found or a fresh one. -/
inductive AdmissionRecord.Spec (cfg : Config) (record : AdmissionRecord) : Prop
  | refused (hfound : record.found = none) (hleft : record.left = none)
      (hout : record.outcome =
        .capacityExhausted (overloaded "Rate-limit capacity exhausted, retry later"))
  | entered (info : RateLimitInfo) (hleft : record.left = some info)
      (hentry : EntryAdmission cfg (record.found.getD (.new record.requestedAt)) record.candidate
        record.requestedAt info record.outcome)
      (hfound : ∀ old, record.found = some old →
        old.WithinBudget cfg ∧ withinCooldown cfg record.requestedAt old = true)

theorem admissionRecord_found (cfg : Config) (map : RateLimitMap) (id : String) (c : CandidateTag)
    (t : ℤ) :
    (admissionRecord cfg map id c t).found = (map.lookup id).filter (withinCooldown cfg t) :=
  lookup_dropExpired_self cfg map id t

theorem entryAt_eq (cfg : Config) (map : RateLimitMap) (id : String) (c : CandidateTag) (t : ℤ) :
    entryAt cfg map id t = (admissionRecord cfg map id c t).found.getD (.new t) := by
  rw [admissionRecord_found, entryAt]

/-- The entry an admission works on has room for at most the budget. -/
theorem Bounded.len_entryAt {cfg : Config} {map : RateLimitMap} (hb : Bounded cfg map)
    (id : String) (t : ℤ) : (entryAt cfg map id t).candidates.len ≤ cfg.rateLimitMaxAttempts := by
  unfold entryAt
  cases hf : (map.lookup id).filter (withinCooldown cfg t) with
  | none =>
    change (∅ : CandidateMap).len ≤ _
    rw [Finmap.len_empty]
    omega
  | some info => exact (hb.entry id info (Option.filter_eq_some_iff.mp hf).1).2

theorem Bounded.entryAdmission {cfg : Config} {map : RateLimitMap} (hb : Bounded cfg map)
    (id : String) (c : CandidateTag) (t : ℤ) :
    EntryAdmission cfg (entryAt cfg map id t) c t (admitEntry cfg (entryAt cfg map id t) c t).1
      (admitEntry cfg (entryAt cfg map id t) c t).2 :=
  admitEntry_spec cfg c t (le_trans (hb.len_entryAt id t) cfg.attempts_u8)

theorem Bounded.admissionSpec {cfg : Config} {map : RateLimitMap} (hb : Bounded cfg map)
    (id : String) (c : CandidateTag) (t : ℤ) : (admissionRecord cfg map id c t).Spec cfg := by
  have hfound := admissionRecord_found cfg map id c t
  rcases admitRequest_cases cfg map id c t with ⟨hr, he⟩ | ⟨hr, he⟩
  · have hnone : (admissionRecord cfg map id c t).found = none := Finmap.lookup_eq_none.mpr hr.1
    refine .refused hnone ?_ (congrArg Prod.snd he)
    change (admitRequest cfg map id c t).1.lookup id = none
    rw [he, lookup_roomMade_self, ← hfound, hnone]
  · refine .entered (admitEntry cfg (entryAt cfg map id t) c t).1 ?_ ?_ fun old ho => ?_
    · change (admitRequest cfg map id c t).1.lookup id = _
      rw [he, Finmap.lookup_insert]
    · have hout : (admissionRecord cfg map id c t).outcome =
          (admitEntry cfg (entryAt cfg map id t) c t).2 := congrArg Prod.snd he
      change EntryAdmission cfg ((admissionRecord cfg map id c t).found.getD (.new t)) c t
        _ (admissionRecord cfg map id c t).outcome
      rw [← entryAt_eq cfg map id c t, hout]
      exact hb.entryAdmission id c t
    · rw [hfound, Option.filter_eq_some_iff] at ho
      exact ⟨hb.entry id old ho.1, ho.2⟩

/-- An admission leaves the other entries alone, unless it drops expired ones. -/
theorem lookup_admitRequest_of_ne (cfg : Config) (map : RateLimitMap) {id k : String}
    (c : CandidateTag) (t : ℤ) (hk : k ≠ id) :
    (admitRequest cfg map id c t).1.lookup k = map.lookup k ∨
      (admitRequest cfg map id c t).1.lookup k = (map.lookup k).filter (withinCooldown cfg t) := by
  rcases admitRequest_cases cfg map id c t with ⟨_, he⟩ | ⟨_, he⟩ <;> rw [he]
  · exact lookup_roomMade_of_ne cfg map t hk
  · rw [Finmap.lookup_insert_of_ne _ hk]
    exact lookup_roomMade_of_ne cfg map t hk

theorem EntryAdmission.withinBudget {cfg : Config} {info left : RateLimitInfo} {c : CandidateTag}
    {t : ℤ} {out : Outcome} (h : EntryAdmission cfg info c t left out)
    (hb : info.WithinBudget cfg ∨ info.candidates = ∅) : left.WithinBudget cfg := by
  have hpos := cfg.maxAttempts_pos
  -- Nothing but a reservation passes through a fresh entry.
  have htouch : info.candidates ≠ ∅ → (touchEntry t info).WithinBudget cfg := fun hne =>
    hb.resolve_right hne
  cases h with
  | lockedOut hmax hleft =>
    exact hleft ▸ htouch (Finmap.ne_empty_of_len_pos (by omega))
  | pending hlt hc hleft | replay hlt hc hleft =>
    refine hleft ▸ htouch fun he => ?_
    rw [he, Finmap.lookup_empty] at hc
    cases hc
  | new hlt hc hleft =>
    have hlen := len_reserveEntry hc t
    rw [hleft, RateLimitInfo.WithinBudget]
    omega

theorem len_roomMade_le (cfg : Config) (map : RateLimitMap) (id : String) (t : ℤ) :
    (roomMade cfg map id t).len ≤ map.len := by
  unfold roomMade
  dsimp only
  split
  · exact le_trans (Finmap.len_retain_le _ _) (len_dropExpired_le cfg map id t)
  · exact len_dropExpired_le cfg map id t

theorem Bounded.enter {cfg : Config} {map : RateLimitMap} (hb : Bounded cfg map)
    (id : String) (c : CandidateTag) (t : ℤ) : Bounded cfg (admitRequest cfg map id c t).1 := by
  have hroom : Bounded cfg (roomMade cfg map id t) := by
    refine hb.of_lookup (len_roomMade_le cfg map id t) fun k info hk => ⟨info, ?_, fun h => h⟩
    by_cases he : k = id
    · rw [he, lookup_roomMade_self, Option.filter_eq_some_iff] at hk
      exact he ▸ hk.1
    · rcases lookup_roomMade_of_ne cfg map t he with hl | hl <;> rw [hl] at hk
      · exact hk
      · exact (Option.filter_eq_some_iff.mp hk).1
  rcases admitRequest_cases cfg map id c t with ⟨_, he⟩ | ⟨hr, he⟩ <;> rw [he]
  · exact hroom
  refine ⟨fun k info hk => ?_, ?_⟩
  · by_cases hkid : k = id
    · rw [hkid, Finmap.lookup_insert] at hk
      cases hk
      refine (hb.entryAdmission id c t).withinBudget ?_
      unfold entryAt
      cases hf : (map.lookup id).filter (withinCooldown cfg t) with
      | none => exact Or.inr rfl
      | some info => exact Or.inl (hb.entry id info (Option.filter_eq_some_iff.mp hf).1)
    · rw [Finmap.lookup_insert_of_ne _ hkid] at hk
      exact hroom.entry k info hk
  · by_cases hmem : id ∈ roomMade cfg map id t
    · rw [Finmap.len_insert_of_mem hmem]
      exact hroom.capacity
    · rw [Finmap.len_insert_of_notMem hmem]
      have hlt : ¬(roomMade cfg map id t).len ≥ cfg.rateLimitMaxIdentifiers := by
        intro hge
        refine hr ⟨?_, hge⟩
        rwa [← Finmap.lookup_eq_none, lookup_dropExpired_self, ← lookup_roomMade_self,
          Finmap.lookup_eq_none]
      omega

/-! ## Every run -/

theorem Effect.bounded {cfg : Config} {s s' : AppState F} {os : Log} (h : Effect cfg s s' os)
    (hb : Bounded cfg s.identifierRateLimit) : Bounded cfg s'.identifierRateLimit := by
  cases h with
  | idle hmap => exact hmap ▸ hb
  | admission r q t extra hq hphase hmap => exact hmap ▸ hb.enter q.idHash q.candidate t
  | refund r q a hq ha hmap => exact hmap ▸ hb.removePending q.idHash q.candidate a.generation
  | finalize r q a client result hq hphase ha hmap =>
    exact hmap ▸ hb.finalize q.idHash q.candidate a.generation result
  | retain now hmap => exact hmap ▸ hb.retain now

theorem Served.bounded [BucketNumber F] {P : Primitives} {cfg : Config} {s : AppState F} {log : Log}
    (h : Served P cfg log s) : Bounded cfg s.identifierRateLimit :=
  h.invariant (fun _ s => Bounded cfg s.identifierRateLimit) (fun _ _ _ _ => bounded_empty cfg)
    fun _ _ _ _ _ _ hb he => (step_effect he).bounded hb

/-- Every admission a run records is one of those `AdmissionRecord.Spec` lists. -/
theorem Served.admissionSpec [BucketNumber F] {P : Primitives} {cfg : Config} {s : AppState F}
    {log : Log} (h : Served P cfg log s) {r : ReqId} {record : AdmissionRecord}
    (hmem : .admission r record ∈ log) : record.Spec cfg := by
  have hall : ∀ r record, .admission r record ∈ log → record.Spec cfg := by
    refine h.invariant (fun log _ => ∀ r record, .admission r record ∈ log → record.Spec cfg)
      (fun _ _ _ _ r record hm => absurd hm List.not_mem_nil) ?_
    intro log s event s' os hs hi he r record hm
    obtain hm | hm := List.mem_append.mp hm
    · obtain ⟨q, t, _, _, _, rfl, _⟩ := (step_effect he).of_admission hm
      exact hs.bounded.admissionSpec q.idHash q.candidate t
    · exact hi r record hm
  exact hall r record hmem

end RecoverBull
