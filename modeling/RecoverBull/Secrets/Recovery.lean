import RecoverBull.Limiter.Settled
import RecoverBull.Limiter.Expiry
import RecoverBull.Secrets.Linearization
import RecoverBull.Server.Sequential.Fetch

/-!
# Recovery

What the server is for: whoever has the identifier and the key of a stored secret gets it.
A lookup that comes to a server at rest is answered from the table exactly when the limits
let it pass, whatever runs brought the server to where it is.
-/

namespace RecoverBull

variable {F : Type} [BucketNumber F] {P : Primitives} {cfg : Config} {s : AppState F} {log : Log}
  {w : FetchWorld} {id : String} {c : CandidateTag} {trash : Bool}

/-- The lookup meets no failure. -/
structure FetchWorld.Undisturbed (w : FetchWorld) : Prop where
  granted : w.granted = true
  database : w.database = .runs
  fate : w.fate = .returns

/-- The limits of the map let a lookup of the identifier pass: there is room for an
identifier that has no window, and an attempt is left in the window of one that has. -/
structure Passes (cfg : Config) (map : RateLimitMap) (id : String) (t : ℤ) : Prop where
  room : (map.lookup id).filter (withinCooldown cfg t) = none →
    (retainWithinCooldown cfg t map).len < cfg.rateLimitMaxIdentifiers
  attempts : ∀ info, (map.lookup id).filter (withinCooldown cfg t) = some info →
    info.candidates.len < cfg.rateLimitMaxAttempts

/-- What a lookup that is let pass leaves. -/
structure Recovers (s : AppState F) (id : String) (c : CandidateTag) (trash : Bool)
    (w : FetchWorld) (cfg : Config) (t : AppState F) (response : Response) : Prop where
  answer : ∃ a : Admitted, a.requestedAt = w.utc ∧
    response = lookupResponse cfg trash a ((s.secrets.readSecretById c).elim .miss .hit)
  table : t.secrets = if trash = true ∧ (s.secrets.readSecretById c).isSome then s.secrets.delete c
    else s.secrets
  committed : ∃ info, t.identifierRateLimit.lookup id = some info ∧
    info.candidates.lookup c = some .committed

/-- What a lookup that is not let pass leaves. -/
structure TurnsAway (s t : AppState F) (response : Response) : Prop where
  answer : response.status = .serviceUnavailable ∨ response.status = .tooManyRequests
  table : t.secrets = s.secrets

omit [BucketNumber F] in
/-- An admitted lookup that meets no failure. -/
theorem fetchAdmitted_undisturbed (hw : w.Undisturbed) (a : Admitted) :
    fetchAdmitted cfg w trash id c a s =
      (finalizeIfNew id c a ((s.secrets.readSecretById c).elim .miss .hit)
        { s with secrets := if trash = true ∧ (s.secrets.readSecretById c).isSome
          then s.secrets.delete c else s.secrets },
      lookupResponse cfg trash a ((s.secrets.readSecretById c).elim .miss .hit)) := by
  have hanswer : lookupAnswer .runs (s.secrets.readSecretById c) =
      (s.secrets.readSecretById c).elim .miss .hit := by
    cases s.secrets.readSecretById c <;> rfl
  rw [fetchAdmitted, hw.granted, hw.database, hw.fate, runLookup_eq, hanswer]
  simp

theorem passes_iff {map : RateLimitMap} {t : ℤ} : Passes cfg map id t ↔
    ¬capacityRefused cfg map id t ∧
      (entryAt cfg map id t).candidates.len < cfg.rateLimitMaxAttempts := by
  rw [capacityRefused_iff, entryAt]
  cases hfound : (map.lookup id).filter (withinCooldown cfg t) with
  | none =>
    have hlen : (RateLimitInfo.new t).candidates.len < cfg.rateLimitMaxAttempts := cfg.maxAttempts_pos
    simp only [Option.getD_none, hlen, and_true, true_and, not_le]
    constructor
    · intro h
      exact h.room hfound
    · refine fun h => ⟨fun _ => h, fun info hi => ?_⟩
      rw [hfound] at hi
      cases hi
  | some info =>
    simp only [Option.getD_some, reduceCtorEq, false_and, not_false_eq_true, true_and]
    constructor
    · intro h
      exact h.attempts info hfound
    · refine fun h => ⟨fun hnone => ?_, fun info' hi => ?_⟩
      · rw [hfound] at hnone
        cases hnone
      · rw [hfound] at hi
        cases hi
        exact h

omit [BucketNumber F] in
theorem fetchReserving_refused {map : RateLimitMap} {response : Response}
    (h : admitRequest cfg s.identifierRateLimit id c w.utc = (map, .capacityExhausted response) ∨
      admitRequest cfg s.identifierRateLimit id c w.utc = (map, .lockedOut response)) :
    fetchReserving cfg w trash id c s = (s.setMap map, some response) := by
  obtain h | h := h <;> rw [fetchReserving, h]

omit [BucketNumber F] in
theorem fetchReserving_replay {map : RateLimitMap} {status : AttemptStatus} {generation : ℤ}
    (hw : w.Undisturbed) (h : admitRequest cfg s.identifierRateLimit id c w.utc =
      (map, .admitted (.replay status generation))) :
    fetchReserving cfg w trash id c s =
      ({ s.setMap map with
        secrets := if trash = true ∧ (s.secrets.readSecretById c).isSome then s.secrets.delete c
          else s.secrets },
      some (lookupResponse cfg trash ⟨w.utc, status, generation, false⟩
        ((s.secrets.readSecretById c).elim .miss .hit))) := by
  rw [fetchReserving, h]
  dsimp only
  rw [fetchAdmitted_undisturbed hw]
  rfl

omit [BucketNumber F] in
theorem fetchReserving_new {map : RateLimitMap} {status : AttemptStatus} {generation : ℤ}
    (hw : w.Undisturbed) (h : admitRequest cfg s.identifierRateLimit id c w.utc =
      (map, .admitted (.new status generation))) :
    fetchReserving cfg w trash id c s =
      ({ s.setMap (finalize map id c generation ((s.secrets.readSecretById c).elim .miss .hit)) with
        secrets := if trash = true ∧ (s.secrets.readSecretById c).isSome then s.secrets.delete c
          else s.secrets },
      some (lookupResponse cfg trash ⟨w.utc, status, generation, true⟩
        ((s.secrets.readSecretById c).elim .miss .hit))) := by
  rw [fetchReserving, h]
  dsimp only
  rw [fetchAdmitted_undisturbed hw]
  rfl

omit [BucketNumber F] in
/-- The critical section of a lookup whose candidate is not pending, and what follows. -/
theorem fetchReserving_undisturbed (hw : w.Undisturbed) (hb : Bounded cfg s.identifierRateLimit)
    (hsettled : (entryAt cfg s.identifierRateLimit id w.utc).candidates.lookup c ≠ some .pending) :
    ∃ t response, fetchReserving cfg w trash id c s = (t, some response) ∧
      (Passes cfg s.identifierRateLimit id w.utc → Recovers s id c trash w cfg t response) ∧
      (¬Passes cfg s.identifierRateLimit id w.utc → TurnsAway s t response) := by
  obtain ⟨hr, he⟩ | ⟨hr, he⟩ := admitRequest_cases cfg s.identifierRateLimit id c w.utc
  · exact ⟨_, _, fetchReserving_refused (Or.inl he), fun hp => absurd hr (passes_iff.mp hp).1,
      fun _ => ⟨Or.inl rfl, rfl⟩⟩
  have hspec := hb.entryAdmission id c w.utc
  rw [passes_iff, and_iff_right hr]
  generalize entryAt cfg s.identifierRateLimit id w.utc = info at *
  generalize admitEntry cfg info c w.utc = entered at *
  obtain ⟨left, out⟩ := entered
  dsimp only at he hspec
  cases hspec with
  | lockedOut hmax hleft hout =>
    rw [hout] at he
    exact ⟨_, _, fetchReserving_refused (Or.inr he), fun hlt => absurd hmax (Nat.not_le.mpr hlt),
      fun _ => ⟨Or.inr rfl, rfl⟩⟩
  | pending hlt hc => exact absurd hc hsettled
  | replay hlt hc hleft hout =>
    rw [hout] at he
    refine ⟨_, _, fetchReserving_replay hw he, fun _ => ⟨⟨_, rfl, rfl⟩, rfl, left, ?_, ?_⟩,
      fun hn => absurd hlt hn⟩
    · exact Finmap.lookup_insert _
    · rw [hleft]
      exact hc
  | new hlt hc hleft hout =>
    rw [hout] at he
    have hpending : left.candidates.lookup c = some .pending := by
      rw [hleft]
      exact Finmap.lookup_insert _
    have hgeneration : info.windowStartedAt = left.windowStartedAt := by rw [hleft]; rfl
    have hok : ∀ e, (s.secrets.readSecretById c).elim .miss .hit ≠ LookupResult.failed e := by
      cases s.secrets.readSecretById c <;> exact fun _ => LookupResult.noConfusion
    refine ⟨_, _, fetchReserving_new hw he, fun _ => ⟨⟨_, rfl, rfl⟩, rfl, ?_⟩,
      fun hn => absurd hlt hn⟩
    have hfinal := finalizeEntry_committed hpending hok
    refine ⟨commitEntry c ((s.secrets.readSecretById c).elim .miss .hit) left, ?_,
      Finmap.lookup_insert _⟩
    change (finalize _ id c info.windowStartedAt _).lookup id = _
    rw [lookup_finalize, if_pos rfl, Finmap.lookup_insert, hgeneration]
    exact hfinal

/-- The entry that an admission works on has no pending candidate where the map has none. -/
theorem lookup_entryAt_ne_pending {map : RateLimitMap} {t : ℤ}
    (h : ∀ info, map.lookup id = some info → info.candidates.lookup c ≠ some .pending) :
    (entryAt cfg map id t).candidates.lookup c ≠ some .pending := by
  rw [entryAt]
  cases hfound : (map.lookup id).filter (withinCooldown cfg t) with
  | none =>
    change (∅ : CandidateMap).lookup c ≠ _
    simp
  | some info => exact h info (Option.filter_eq_some_iff.mp hfound).1

/-- **The owner recovers the secret.** Let a server have come to rest, with clocks that never
went back and no task killed, and let a valid lookup come alone and meet no failure. If the
bucket has a token and the limits of the map let its identifier pass, it is answered from
the table, a trash removes just this row, and the candidate ends committed; if not, it is
answered 503 or 429 and the table is as it was. -/
theorem owner_recovers (P : Primitives) (cfg : Config) {log : Log} {s : AppState F}
    (h : Served P cfg log s) (hchron : Chronological log) (hlost : ∀ r, .taskLost r ∉ log)
    (hrest : s.AtRest) {r : ReqId} (hnew : s.fetches r = none) {request : FetchSecret}
    {identifier key id : String} (hcheck : checkFetch P request = .ok (identifier, key))
    (hid : identifierHash P identifier = some id) {w : FetchWorld} (hw : w.Undisturbed)
    (trash : Bool) :
    ∃ t response, fetchSecret P cfg w trash request s = (t, some response) ∧
      Handled P cfg (.fetchArrives r trash request) (.fetch r) s (t.setFetch r .over) [response] ∧
      ((s.lookupTokenBucket.tryConsume w.instant).1 = true ∧
          Passes cfg s.identifierRateLimit id w.utc →
        Recovers s id (generateSecretId P identifier key) trash w cfg t response) ∧
      (¬((s.lookupTokenBucket.tryConsume w.instant).1 = true ∧
          Passes cfg s.identifierRateLimit id w.utc) →
        TurnsAway s t response) := by
  have hfetch : fetchSecret P cfg w trash request s =
      fetchTakingToken cfg w trash id (generateSecretId P identifier key) s := by
    simp only [fetchSecret, hcheck, hid]
  suffices hdone : ∃ t response,
      fetchTakingToken cfg w trash id (generateSecretId P identifier key) s = (t, some response) ∧
      ((s.lookupTokenBucket.tryConsume w.instant).1 = true ∧
          Passes cfg s.identifierRateLimit id w.utc →
        Recovers s id (generateSecretId P identifier key) trash w cfg t response) ∧
      (¬((s.lookupTokenBucket.tryConsume w.instant).1 = true ∧
          Passes cfg s.identifierRateLimit id w.utc) →
        TurnsAway s t response) by
    obtain ⟨t, response, htaking, hanswer⟩ := hdone
    refine ⟨t, response, hfetch.trans htaking, (handled_lookup hnew hcheck hid).mpr ⟨w, ?_⟩, hanswer⟩
    rw [htaking]
    exact ⟨rfl, rfl⟩
  obtain ⟨admitted, bucket, htry⟩ :
      ∃ admitted bucket, s.lookupTokenBucket.tryConsume w.instant = (admitted, bucket) :=
    ⟨_, _, rfl⟩
  rw [htry, fetchTakingToken, htry]
  cases admitted with
  | false => exact ⟨_, _, rfl, fun hp => Bool.noConfusion hp.1, fun _ => ⟨Or.inl rfl, rfl⟩⟩
  | true =>
    have hsettled := @lookup_entryAt_ne_pending cfg id (generateSecretId P identifier key)
      s.identifierRateLimit w.utc fun info hi => h.not_pending hchron hrest hlost hi _
    obtain ⟨t, response, hreserving, hpasses, hturns⟩ := @fetchReserving_undisturbed F cfg
      { s with lookupTokenBucket := bucket } w id (generateSecretId P identifier key) trash hw
      h.bounded hsettled
    refine ⟨t, response, hreserving, fun hp => ?_, fun hn => ?_⟩
    · have hrecovers := hpasses hp.2
      exact ⟨hrecovers.answer, hrecovers.table, hrecovers.committed⟩
    · have hturned := hturns fun hp => hn ⟨rfl, hp⟩
      exact ⟨hturned.answer, hturned.table⟩

theorem passes_empty {t : ℤ} : Passes cfg ∅ id t := by
  refine ⟨fun _ => ?_, fun info hi => ?_⟩
  · exact (Finmap.len_retain_le _ _).trans_lt (validateCapacity_eq_ok.mp cfg.capacity_valid).1
  · rw [Finmap.lookup_empty] at hi
    cases hi

/-- After a store the owner takes the secret, and the table is empty again. -/
theorem owner_recovers_sample : ∃ (s t : AppState ℚ) (response : Response),
    (s.secrets.readSecretById sampleSecretId).isSome ∧
      Recovers s sampleIdHash sampleSecretId true default .sample t response ∧
      t.secrets = s.secrets.delete sampleSecretId := by
  have hrun : (run .sample .sample AppState.sample
      (sampleStore 0 ⟨sampleIdentifier, sampleKey, "AAAA"⟩)).any (fun u => decide
        (Chronological u.2 ∧ u.1.work (.store 0) = 0 ∧ u.1.fetches 0 = none ∧
          (u.1.secrets.readSecretById sampleSecretId).isSome ∧ u.1.identifierRateLimit.len = 0 ∧
          (u.1.lookupTokenBucket.tryConsume (default : FetchWorld).instant).1 = true ∧
          ∀ o ∈ u.2, Obs.call o = some (.store 0))) = true := by
    rw [sampleStore, run_sampleStore rfl (by decide) (by decide +kernel)]
    decide +kernel
  obtain ⟨⟨s, log⟩, hr, hall⟩ := (Option.any_eq_true _ _).mp hrun
  obtain ⟨hchron, hwork, hnew, hrow, hempty, htoken, hcalls⟩ := of_decide_eq_true hall
  have hrest : s.AtRest := by
    intro call
    by_cases hcall : call = .store 0
    · rw [hcall]
      exact hwork
    · refine work_of_not_called hr fun event he hc => hcall ?_
      have hevents : ∀ event ∈ sampleStore 0 ⟨sampleIdentifier, sampleKey, "AAAA"⟩,
          event.call = some (.store 0) := by
        simp [sampleStore, Event.call]
      exact Option.some.inj (hc.symm.trans (hevents event he))
  have hpasses : Passes .sample s.identifierRateLimit sampleIdHash (default : FetchWorld).utc := by
    rw [Finmap.len_eq_zero.mp hempty]
    exact passes_empty
  obtain ⟨t, response, -, -, hrecovers, -⟩ := owner_recovers .sample .sample
    ⟨_, _, _, _, _, hr⟩ hchron (fun r hr => by cases hcalls _ hr) hrest hnew checkFetch_sampleKey
    identifierHash_sampleIdentifier (w := default) ⟨rfl, rfl, rfl⟩ true
  rw [generateSecretId_sampleKey] at hrecovers
  have hsecret := hrecovers ⟨htoken, hpasses⟩
  exact ⟨s, t, response, hrow, hsecret, hsecret.table.trans (if_pos ⟨rfl, hrow⟩)⟩

end RecoverBull
