import RecoverBull.Handlers.Fetch

/-!
# What the map operations do to one entry

Every operation on the rate-limit map, read off key by key: the entry of its own
identifier goes through an entry-level function, the others stay or are dropped
as expired.
-/

namespace RecoverBull

/-! ## Refunds and finalization -/

/-- `remove_pending` on the entry; `none` when the entry goes. -/
def refundEntry (candidate : CandidateTag) (generation : ℤ) (info : RateLimitInfo) :
    Option RateLimitInfo :=
  let info :=
    if info.windowStartedAt = generation ∧ info.candidates.lookup candidate = some .pending then
      { info with candidates := info.candidates.erase candidate }
    else info
  if info.windowStartedAt = generation ∧ info.candidates = ∅ then none else some info

/-- `finalize` on the entry. -/
def finalizeEntry (candidate : CandidateTag) (generation : ℤ) (result : LookupResult)
    (info : RateLimitInfo) : Option RateLimitInfo :=
  if info.windowStartedAt ≠ generation ∨ info.candidates.lookup candidate ≠ some .pending then
    some info
  else
    match result with
    | .hit _ => some { info with candidates := info.candidates.insert candidate .committed }
    | .miss =>
      some
        { info with
          candidates := info.candidates.insert candidate .committed
          failedCandidates := saturatingAdd u8Max info.failedCandidates 1 }
    | .failed _ =>
      if info.candidates.erase candidate = ∅ then none
      else some { info with candidates := info.candidates.erase candidate }

/-- Stores what an entry-level function answers, or removes the entry. -/
def alterEntry (map : RateLimitMap) (id : String) : Option RateLimitInfo → RateLimitMap
  | none => map.erase id
  | some info => map.insert id info

theorem lookup_alterEntry (map : RateLimitMap) (id k : String) (o : Option RateLimitInfo) :
    (alterEntry map id o).lookup k = if k = id then o else map.lookup k := by
  by_cases hk : k = id
  · subst hk
    cases o <;> simp [alterEntry]
  · cases o with
    | none => simp [alterEntry, hk, Finmap.lookup_erase_ne hk]
    | some i => simp [alterEntry, hk, Finmap.lookup_insert_of_ne _ hk]

/-- An operation that looks its identifier up and alters the entry it finds. -/
theorem lookup_of_alter {map map' : RateLimitMap} {id : String}
    {f : RateLimitInfo → Option RateLimitInfo}
    (hnone : map.lookup id = none → map' = map)
    (hsome : ∀ info, map.lookup id = some info → ∀ k,
      map'.lookup k = (alterEntry map id (f info)).lookup k) (k : String) :
    map'.lookup k = if k = id then (map.lookup k).bind f else map.lookup k := by
  cases hm : map.lookup id with
  | none =>
    rw [hnone hm]
    split
    · next hk => rw [hk, hm, Option.bind_none]
    · rfl
  | some info =>
    rw [hsome info hm, lookup_alterEntry]
    split
    · next hk => rw [hk, hm, Option.bind_some]
    · rfl

theorem lookup_removePending (map : RateLimitMap) (id : String) (c : CandidateTag) (g : ℤ)
    (k : String) :
    (removePending map id c g).lookup k =
      if k = id then (map.lookup k).bind (refundEntry c g) else map.lookup k := by
  apply lookup_of_alter
  · intro hm
    simp only [removePending, hm]
  · intro info hm k
    simp only [removePending, hm, refundEntry]
    generalize (if info.windowStartedAt = g ∧ info.candidates.lookup c = some .pending then
      { info with candidates := info.candidates.erase c } else info) = i
    by_cases he : i.windowStartedAt = g ∧ i.candidates = ∅
    · rw [if_pos he, if_pos he, alterEntry]
    · rw [if_neg he, if_neg he, alterEntry]

theorem lookup_finalize (map : RateLimitMap) (id : String) (c : CandidateTag) (g : ℤ)
    (result : LookupResult) (k : String) :
    (finalize map id c g result).lookup k =
      if k = id then (map.lookup k).bind (finalizeEntry c g result) else map.lookup k := by
  apply lookup_of_alter
  · intro hm
    simp only [finalize, hm]
  · intro info hm k
    simp only [finalize, hm, finalizeEntry]
    by_cases hs : info.windowStartedAt ≠ g ∨ info.candidates.lookup c ≠ some .pending
    · rw [if_pos hs, if_pos hs, lookup_alterEntry]
      split
      · next hk => rw [hk, hm]
      · rfl
    · rw [if_neg hs, if_neg hs]
      cases result with
      | hit _ => rfl
      | miss => rfl
      | failed _ =>
        dsimp only
        split <;> rfl

/-- A resolution whose generation is not the entry's, or whose candidate is not
pending in it, leaves a non-empty entry alone. -/
theorem refundEntry_stale {c : CandidateTag} {g : ℤ} {info : RateLimitInfo}
    (h : info.windowStartedAt ≠ g ∨ info.candidates.lookup c ≠ some .pending)
    (hne : info.candidates ≠ ∅) : refundEntry c g info = some info := by
  have hs : ¬(info.windowStartedAt = g ∧ info.candidates.lookup c = some .pending) := by
    rintro ⟨h₁, h₂⟩
    exact h.elim (fun h => h h₁) (fun h => h h₂)
  simp [refundEntry, hs, hne]

theorem finalizeEntry_stale {c : CandidateTag} {g : ℤ} {info : RateLimitInfo}
    {result : LookupResult}
    (h : info.windowStartedAt ≠ g ∨ info.candidates.lookup c ≠ some .pending) :
    finalizeEntry c g result info = some info := if_pos h

/-- The entry once a pending candidate is taken out of it. -/
def withoutCandidate (c : CandidateTag) (info : RateLimitInfo) : Option RateLimitInfo :=
  if info.candidates.erase c = ∅ then none
  else some { info with candidates := info.candidates.erase c }

theorem refundEntry_pending {c : CandidateTag} {info : RateLimitInfo}
    (h : info.candidates.lookup c = some .pending) :
    refundEntry c info.windowStartedAt info = withoutCandidate c info := by
  simp [refundEntry, withoutCandidate, h]

theorem finalizeEntry_failed {c : CandidateTag} {info : RateLimitInfo} {e : FinalizerError}
    (h : info.candidates.lookup c = some .pending) :
    finalizeEntry c info.windowStartedAt (.failed e) info = withoutCandidate c info := by
  simp [finalizeEntry, withoutCandidate, h]

/-- The entry once a pending candidate of it is committed. -/
def commitEntry (c : CandidateTag) (result : LookupResult) (info : RateLimitInfo) : RateLimitInfo :=
  { info with
    candidates := info.candidates.insert c .committed
    failedCandidates :=
      if result = .miss then saturatingAdd u8Max info.failedCandidates 1 else info.failedCandidates }

theorem finalizeEntry_committed {c : CandidateTag} {info : RateLimitInfo} {result : LookupResult}
    (h : info.candidates.lookup c = some .pending) (hne : ∀ e, result ≠ .failed e) :
    finalizeEntry c info.windowStartedAt result info = some (commitEntry c result info) := by
  cases result with
  | hit secret => simp [finalizeEntry, commitEntry, h]
  | miss => simp [finalizeEntry, commitEntry, h]
  | failed e => exact absurd rfl (hne e)

/-- A refund changes nothing but the candidates. -/
theorem refundEntry_fields {c : CandidateTag} {g : ℤ} {info info' : RateLimitInfo}
    (h : refundEntry c g info = some info') :
    ∃ candidates, info' = { info with candidates := candidates } := by
  by_cases hp : info.windowStartedAt = g ∧ info.candidates.lookup c = some .pending
  · rw [refundEntry, if_pos hp] at h
    dsimp only at h
    split at h <;> cases h
    exact ⟨info.candidates.erase c, rfl⟩
  · rw [refundEntry, if_neg hp] at h
    split at h <;> cases h
    exact ⟨info.candidates, rfl⟩

/-- A finalization changes nothing but the candidates and the count of misses. -/
theorem finalizeEntry_fields {c : CandidateTag} {g : ℤ} {info info' : RateLimitInfo}
    {result : LookupResult} (h : finalizeEntry c g result info = some info') :
    ∃ candidates failed,
      info' = { info with candidates := candidates, failedCandidates := failed } := by
  unfold finalizeEntry at h
  split at h
  · cases h
    exact ⟨info.candidates, info.failedCandidates, rfl⟩
  · split at h
    · cases h
      exact ⟨info.candidates.insert c .committed, info.failedCandidates, rfl⟩
    · cases h
      exact ⟨info.candidates.insert c .committed, _, rfl⟩
    · split at h
      · cases h
      · cases h
        exact ⟨info.candidates.erase c, info.failedCandidates, rfl⟩

/-! ## Expiry -/

theorem withinCooldown_iff {cfg : Config} {t : ℤ} {info : RateLimitInfo} :
    withinCooldown cfg t info = true ↔ t - info.lastCandidateAt ≤ cfg.rateLimitCooldown := by
  simp [withinCooldown]

/-- The strict test of a request is the negation of the sweepers' test. -/
theorem pastCooldown_eq (cfg : Config) (t : ℤ) (info : RateLimitInfo) :
    pastCooldown cfg t info = !withinCooldown cfg t info := by
  simp only [pastCooldown, withinCooldown, ← decide_not, not_le, gt_iff_lt]

/-- An entry passes the sweep at `t`, or its cooldown is over by then. -/
theorem filter_withinCooldown (cfg : Config) (t : ℤ) (info : RateLimitInfo) :
    (some info).filter (withinCooldown cfg t) = some info ∧
        t ≤ info.lastCandidateAt + cfg.rateLimitCooldown ∨
      (some info).filter (withinCooldown cfg t) = none ∧
        info.lastCandidateAt + cfg.rateLimitCooldown < t := by
  by_cases hw : withinCooldown cfg t info = true
  · left
    refine ⟨Option.filter_eq_some_iff.mpr ⟨rfl, hw⟩, ?_⟩
    have := withinCooldown_iff.mp hw
    omega
  · right
    refine ⟨by rw [Option.filter_some, if_neg hw], ?_⟩
    have := mt withinCooldown_iff.mpr hw
    omega

theorem withinCooldown_mono {cfg : Config} {t t' : ℤ} (h : t ≤ t') {info : RateLimitInfo}
    (hw : withinCooldown cfg t' info = true) : withinCooldown cfg t info = true := by
  rw [withinCooldown_iff] at *
  omega

@[simp] theorem lookup_retainWithinCooldown (cfg : Config) (t : ℤ) (map : RateLimitMap)
    (k : String) :
    (retainWithinCooldown cfg t map).lookup k = (map.lookup k).filter (withinCooldown cfg t) :=
  Finmap.lookup_retain _ map k

theorem lookup_dropExpired_self (cfg : Config) (map : RateLimitMap) (id : String) (t : ℤ) :
    (dropExpired cfg map id t).lookup id = (map.lookup id).filter (withinCooldown cfg t) := by
  unfold dropExpired
  cases hm : map.lookup id with
  | none => simp [hm]
  | some info =>
    rw [Option.any_some, pastCooldown_eq]
    cases hw : withinCooldown cfg t info with
    | false => simp [Option.filter, hw]
    | true => simp [Option.filter, hw, hm]

theorem lookup_dropExpired_of_ne (cfg : Config) (map : RateLimitMap) {id k : String} (t : ℤ)
    (hk : k ≠ id) : (dropExpired cfg map id t).lookup k = map.lookup k := by
  unfold dropExpired
  split
  · exact Finmap.lookup_erase_ne hk
  · rfl

theorem len_dropExpired_le (cfg : Config) (map : RateLimitMap) (id : String) (t : ℤ) :
    (dropExpired cfg map id t).len ≤ map.len := by
  unfold dropExpired
  split
  · exact Finmap.len_erase_le _ _
  · exact le_rfl

/-- The expiry check of a request removes nothing a sweep at its time keeps. -/
theorem retain_dropExpired (cfg : Config) (map : RateLimitMap) (id : String) (t : ℤ) :
    retainWithinCooldown cfg t (dropExpired cfg map id t) = retainWithinCooldown cfg t map := by
  apply Finmap.ext_lookup
  intro k
  rw [lookup_retainWithinCooldown, lookup_retainWithinCooldown]
  by_cases hk : k = id
  · subst hk
    rw [lookup_dropExpired_self, Option.filter_filter]
    simp
  · rw [lookup_dropExpired_of_ne cfg map t hk]

/-- Sweeping twice is sweeping at the later time. -/
theorem retain_retain (cfg : Config) {t t' : ℤ} (h : t ≤ t') (map : RateLimitMap) :
    retainWithinCooldown cfg t' (retainWithinCooldown cfg t map) =
      retainWithinCooldown cfg t' map :=
  Finmap.retain_retain_of_imp (fun _ _ hw => withinCooldown_mono h hw) map

/-! ## Admission -/

/-- The entry a request is admitted into: the one the expiry check leaves, or a
fresh one. -/
def entryAt (cfg : Config) (map : RateLimitMap) (id : String) (t : ℤ) : RateLimitInfo :=
  ((map.lookup id).filter (withinCooldown cfg t)).getD (RateLimitInfo.new t)

/-- The map an admission works on once room is made: that of the expiry check, or
the swept one. -/
def roomMade (cfg : Config) (map : RateLimitMap) (id : String) (t : ℤ) : RateLimitMap :=
  let map := dropExpired cfg map id t
  if id ∉ map ∧ map.len ≥ cfg.rateLimitMaxIdentifiers then retainWithinCooldown cfg t map else map

/-- The capacity refusal. -/
def capacityRefused (cfg : Config) (map : RateLimitMap) (id : String) (t : ℤ) : Prop :=
  id ∉ dropExpired cfg map id t ∧
    (roomMade cfg map id t).len ≥ cfg.rateLimitMaxIdentifiers

theorem lookup_roomMade_self (cfg : Config) (map : RateLimitMap) (id : String) (t : ℤ) :
    (roomMade cfg map id t).lookup id = (map.lookup id).filter (withinCooldown cfg t) := by
  unfold roomMade
  dsimp only
  split
  · rw [lookup_retainWithinCooldown, lookup_dropExpired_self, Option.filter_filter]
    simp
  · exact lookup_dropExpired_self cfg map id t

theorem lookup_roomMade_of_ne (cfg : Config) (map : RateLimitMap) {id k : String} (t : ℤ)
    (hk : k ≠ id) :
    (roomMade cfg map id t).lookup k = map.lookup k ∨
      (roomMade cfg map id t).lookup k = (map.lookup k).filter (withinCooldown cfg t) := by
  unfold roomMade
  dsimp only
  split
  · right
    rw [lookup_retainWithinCooldown, lookup_dropExpired_of_ne cfg map t hk]
  · left
    exact lookup_dropExpired_of_ne cfg map t hk

theorem retain_roomMade (cfg : Config) (map : RateLimitMap) (id : String) (t : ℤ) :
    retainWithinCooldown cfg t (roomMade cfg map id t) = retainWithinCooldown cfg t map := by
  unfold roomMade
  dsimp only
  split
  · rw [retain_retain cfg le_rfl, retain_dropExpired]
  · exact retain_dropExpired cfg map id t

theorem admitRequest_refused {cfg : Config} {map : RateLimitMap} {id : String} {c : CandidateTag}
    {t : ℤ} (h : capacityRefused cfg map id t) :
    admitRequest cfg map id c t =
      (roomMade cfg map id t,
        .capacityExhausted (overloaded "Rate-limit capacity exhausted, retry later")) := by
  obtain ⟨hid, hlen⟩ := h
  have hfull : (dropExpired cfg map id t).len ≥ cfg.rateLimitMaxIdentifiers := by
    by_contra hlt
    rw [roomMade, if_neg (fun hc => hlt hc.2)] at hlen
    exact hlt hlen
  rw [roomMade, if_pos ⟨hid, hfull⟩] at hlen ⊢
  simp only [admitRequest, hid, hfull, hlen, not_false_eq_true, and_self, if_true]

theorem admitRequest_entered {cfg : Config} {map : RateLimitMap} {id : String} {c : CandidateTag}
    {t : ℤ} (h : ¬capacityRefused cfg map id t) :
    admitRequest cfg map id c t =
      ((roomMade cfg map id t).insert id (admitEntry cfg (entryAt cfg map id t) c t).1,
        (admitEntry cfg (entryAt cfg map id t) c t).2) := by
  have henter : enterWindow cfg (roomMade cfg map id t) id c t =
      ((roomMade cfg map id t).insert id (admitEntry cfg (entryAt cfg map id t) c t).1,
        (admitEntry cfg (entryAt cfg map id t) c t).2) := by
    rw [enterWindow, lookup_roomMade_self, ← entryAt]
  rw [← henter]
  unfold admitRequest
  dsimp only
  by_cases hc : id ∉ dropExpired cfg map id t ∧
      (dropExpired cfg map id t).len ≥ cfg.rateLimitMaxIdentifiers
  · have hroom : roomMade cfg map id t =
        retainWithinCooldown cfg t (dropExpired cfg map id t) := by rw [roomMade, if_pos hc]
    have hlen : ¬(retainWithinCooldown cfg t (dropExpired cfg map id t)).len ≥
        cfg.rateLimitMaxIdentifiers := fun hl => h ⟨hc.1, by rw [hroom]; exact hl⟩
    rw [if_pos hc, if_neg hlen, hroom]
  · have hroom : roomMade cfg map id t = dropExpired cfg map id t := by rw [roomMade, if_neg hc]
    rw [if_neg hc, hroom]

/-- The two ways through the admission critical section. -/
theorem admitRequest_cases (cfg : Config) (map : RateLimitMap) (id : String) (c : CandidateTag)
    (t : ℤ) :
    (capacityRefused cfg map id t ∧
      admitRequest cfg map id c t =
        (roomMade cfg map id t,
          .capacityExhausted (overloaded "Rate-limit capacity exhausted, retry later"))) ∨
    (¬capacityRefused cfg map id t ∧
      admitRequest cfg map id c t =
        ((roomMade cfg map id t).insert id (admitEntry cfg (entryAt cfg map id t) c t).1,
          (admitEntry cfg (entryAt cfg map id t) c t).2)) := by
  by_cases h : capacityRefused cfg map id t
  · exact Or.inl ⟨h, admitRequest_refused h⟩
  · exact Or.inr ⟨h, admitRequest_entered h⟩

/-- What a request that reaches an entry always does to it. -/
def touchEntry (t : ℤ) (info : RateLimitInfo) : RateLimitInfo :=
  { info with
    totalRequests := saturatingAdd u64Max info.totalRequests 1
    lastRequestAt := t }

/-- The reservation of a new candidate. -/
def reserveEntry (c : CandidateTag) (t : ℤ) (info : RateLimitInfo) : RateLimitInfo :=
  { touchEntry t info with
    candidates := info.candidates.insert c .pending
    lastCandidateAt := t }

/-- The `attempt_status` of an entry whose count fits. -/
def statusOf (cfg : Config) (info : RateLimitInfo) (previous : Option ℤ) : AttemptStatus where
  version := 1
  totalAttempts := info.candidates.len
  failedAttempts := info.failedCandidates
  remainingAttempts := cfg.rateLimitMaxAttempts - info.candidates.len
  totalRequests := info.totalRequests
  windowStartedAt := info.windowStartedAt
  previousAttemptAt := previous
  resetsAt := info.lastCandidateAt + cfg.rateLimitCooldown

theorem attemptStatus_eq_some (cfg : Config) {info : RateLimitInfo} (previous : Option ℤ)
    (h : info.candidates.len ≤ u8Max) :
    attemptStatus cfg info previous = some (statusOf cfg info previous) := by
  rw [attemptStatus, RateLimitInfo.candidateCount_eq_some.mpr ⟨rfl, h⟩]
  rfl

/-- The four ways through an entry whose count fits a `u8`, with the entry left
behind. -/
inductive EntryAdmission (cfg : Config) (info : RateLimitInfo) (c : CandidateTag) (t : ℤ)
    (left : RateLimitInfo) (out : Outcome) : Prop
  | lockedOut (h : cfg.rateLimitMaxAttempts ≤ info.candidates.len) (hleft : left = touchEntry t info)
      (hout : out = .lockedOut (rateLimited cfg info.candidates.len info.lastCandidateAt t))
  | pending (h : info.candidates.len < cfg.rateLimitMaxAttempts)
      (hc : info.candidates.lookup c = some .pending) (hleft : left = touchEntry t info)
      (hout : out = .admitted .pending)
  | replay (h : info.candidates.len < cfg.rateLimitMaxAttempts)
      (hc : info.candidates.lookup c = some .committed) (hleft : left = touchEntry t info)
      (hout : out =
        .admitted (.replay (statusOf cfg (touchEntry t info) none) info.windowStartedAt))
  | new (h : info.candidates.len < cfg.rateLimitMaxAttempts)
      (hc : info.candidates.lookup c = none) (hleft : left = reserveEntry c t info)
      (hout : out = .admitted (.new
        (statusOf cfg (reserveEntry c t info)
          (if info.candidates.len > 0 then some info.lastCandidateAt else none))
        info.windowStartedAt))

theorem len_reserveEntry {c : CandidateTag} {info : RateLimitInfo}
    (hc : info.candidates.lookup c = none) (t : ℤ) :
    (reserveEntry c t info).candidates.len = info.candidates.len + 1 :=
  Finmap.len_insert_of_notMem (Finmap.lookup_eq_none.mp hc) _

theorem admitEntry_spec (cfg : Config) {info : RateLimitInfo} (c : CandidateTag) (t : ℤ)
    (hu : info.candidates.len ≤ u8Max) :
    EntryAdmission cfg info c t (admitEntry cfg info c t).1 (admitEntry cfg info c t).2 := by
  have hcount : (touchEntry t info).candidateCount = some info.candidates.len :=
    RateLimitInfo.candidateCount_eq_some.mpr ⟨rfl, hu⟩
  unfold admitEntry
  dsimp only
  split
  · next hnone =>
    cases hcount.symm.trans hnone
  · next count hsome =>
    obtain rfl : info.candidates.len = count := Option.some.inj (hcount.symm.trans hsome)
    split
    · next hmax => exact .lockedOut hmax rfl rfl
    · next hmax =>
      have hlt : info.candidates.len < cfg.rateLimitMaxAttempts := Nat.lt_of_not_le hmax
      split
      · next hc => exact .pending hlt hc rfl rfl
      · next hc =>
        have hstatus := attemptStatus_eq_some cfg none (show (touchEntry t info).candidates.len ≤ _ from hu)
        split
        · next hnone => cases hstatus.symm.trans hnone
        · next status hs =>
          obtain rfl := Option.some.inj (hstatus.symm.trans hs)
          exact .replay hlt hc rfl rfl
      · next hc =>
        have hfit : (reserveEntry c t info).candidates.len ≤ u8Max := by
          have := cfg.attempts_u8
          rw [len_reserveEntry hc]
          omega
        have hstatus := attemptStatus_eq_some cfg
          (if info.candidates.len > 0 then some info.lastCandidateAt else none) hfit
        split
        · next hnone => cases hstatus.symm.trans hnone
        · next status hs =>
          obtain rfl := Option.some.inj (hstatus.symm.trans hs)
          exact .new hlt hc rfl rfl

end RecoverBull
