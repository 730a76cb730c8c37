import RecoverBull.Server.Step

/-!
# What the steps of a request depend on

Most steps of a request are decided by its phase and the event alone, whatever
the rest of the state. The others read one thing: a token bucket, the map, or the
table. `FetchMove` and `StoreMove` sort the steps by what they read, so that the
steps of two servers can be compared.
-/

namespace RecoverBull

variable {F : Type} [BucketNumber F] {P : Primitives} {cfg : Config} {s s' : AppState F} {os : Log}
  {r : ReqId}

/-- The ways in which a lookup resolves its reservation on the map. -/
inductive Lookup.Resolving (q : Lookup) : (RateLimitMap → RateLimitMap) → Prop
  | refund (a : Admitted) :
    Resolving q fun map => removePending map q.idHash q.candidate a.generation
  | finalize (a : Admitted) (result : LookupResult) :
    Resolving q fun map => finalize map q.idHash q.candidate a.generation result

inductive FetchMove (F : Type) [BucketNumber F] (cfg : Config) (os : Log) (r : ReqId) (q : Lookup)
    (event : FetchEvent) : Prop
  /-- The same from every state. -/
  | own (call : FetchCall)
      (h : ∀ u : AppState F, fetchStep cfg u r q event = some (u.setFetch r call, os))
  | token (now : ℕ) (hevent : event = .takeToken now) (hphase : q.phase = .bucket)
  | enter (t : ℤ) (hevent : event = .enter) (hphase : q.phase = .mapLock t)
  | resolve (call : FetchCall) (f : RateLimitMap → RateLimitMap) (hf : q.Resolving f)
      (h : ∀ u : AppState F, fetchStep cfg u r q event =
        some ((u.setMap (f u.identifierRateLimit)).setFetch r call, os))
  | query (outcome : DbOutcome) (a : Admitted) (client : Bool) (hevent : event = .query outcome)
      (hphase : q.phase = .working a client .blocking)

theorem cancelFetch_move {q : Lookup} {contended : Bool}
    (h : cancelFetch s r q contended = some (s', os)) :
    FetchMove F cfg os r q (.cancel contended) := by
  obtain ⟨trash, idHash, candidate, phase⟩ := q
  have hdrop : ∀ a : Admitted, dropGuard s r ⟨trash, idHash, candidate, phase⟩ a contended = (s', os) →
      (∀ u : AppState F, cancelFetch u r ⟨trash, idHash, candidate, phase⟩ contended =
        some (dropGuard u r ⟨trash, idHash, candidate, phase⟩ a contended)) →
      FetchMove F cfg os r ⟨trash, idHash, candidate, phase⟩ (.cancel contended) := by
    intro a hd hu
    cases contended with
    | true =>
      cases hd
      exact .own (.active ⟨trash, idHash, candidate, .deferred a⟩) hu
    | false =>
      cases hd
      exact .resolve .over _ (.refund a) hu
  cases phase with
  | bucket | mapLock t | lostRefund a =>
    cases h
    exact .own .over fun _ => rfl
  | clock | deferred a => cases h
  | permit a =>
    obtain ⟨requestedAt, status, generation, isNew⟩ := a
    cases isNew with
    | true => exact hdrop _ (Option.some.inj h) fun _ => rfl
    | false =>
      cases h
      exact .own .over fun _ => rfl
  | refund a => exact hdrop a (Option.some.inj h) fun _ => rfl
  | working a client task =>
    cases client with
    | true =>
      cases h
      exact .own (.active ⟨trash, idHash, candidate, .working a false task⟩) fun _ => rfl
    | false => cases h

theorem fetchStep_move {q : Lookup} {event : FetchEvent}
    (h : fetchStep cfg s r q event = some (s', os)) : FetchMove F cfg os r q event := by
  obtain ⟨trash, idHash, candidate, phase⟩ := q
  cases event with
  | takeToken now =>
    cases phase with
    | bucket => exact .token now rfl rfl
    | clock | mapLock | permit | refund | working | lostRefund | deferred => cases h
  | readClock now =>
    cases phase with
    | clock =>
      cases h
      exact .own (.active ⟨trash, idHash, candidate, .mapLock now⟩) fun _ => rfl
    | bucket | mapLock | permit | refund | working | lostRefund | deferred => cases h
  | enter =>
    cases phase with
    | mapLock t => exact .enter t rfl rfl
    | bucket | clock | permit | refund | working | lostRefund | deferred => cases h
  | permit granted =>
    cases phase with
    | permit a =>
      obtain ⟨requestedAt, status, generation, isNew⟩ := a
      cases granted <;> cases isNew <;> cases h
      · exact .own .over fun _ => rfl
      · exact .own (.active ⟨trash, idHash, candidate, .refund ⟨requestedAt, status, generation, true⟩⟩)
          fun _ => rfl
      · exact .own (.active ⟨trash, idHash, candidate,
          .working ⟨requestedAt, status, generation, false⟩ true .blocking⟩) fun _ => rfl
      · exact .own (.active ⟨trash, idHash, candidate,
          .working ⟨requestedAt, status, generation, true⟩ true .blocking⟩) fun _ => rfl
    | bucket | clock | mapLock | refund | working | lostRefund | deferred => cases h
  | removePending =>
    cases phase with
    | refund a | lostRefund a | deferred a =>
      cases h
      -- Three phases, one removal under the map lock.
      exact .resolve .over _ (.refund a) fun _ => rfl
    | bucket | clock | mapLock | permit | working => cases h
  | query outcome =>
    cases phase with
    | working a client task =>
      cases task with
      | blocking => exact .query outcome a client rfl rfl
      | finalizing | finished | lost => cases h
    | bucket | clock | mapLock | permit | refund | lostRefund | deferred => cases h
  | finalize =>
    cases phase with
    | working a client task =>
      cases task with
      | finalizing result =>
        obtain ⟨requestedAt, status, generation, isNew⟩ := a
        cases isNew <;> cases h
        · exact .own (.active ⟨trash, idHash, candidate,
            .working ⟨requestedAt, status, generation, false⟩ client (.finished result)⟩) fun _ => rfl
        · exact .resolve (.active ⟨trash, idHash, candidate,
            .working ⟨requestedAt, status, generation, true⟩ client (.finished result)⟩) _
            (.finalize ⟨requestedAt, status, generation, true⟩ result) fun _ => rfl
      | blocking | finished | lost => cases h
    | bucket | clock | mapLock | permit | refund | lostRefund | deferred => cases h
  | loseTask =>
    cases phase with
    | working a client task =>
      cases task with
      | blocking | finalizing result =>
        cases h
        exact .own (.active ⟨trash, idHash, candidate, .working a client .lost⟩) fun _ => rfl
      | finished | lost => cases h
    | bucket | clock | mapLock | permit | refund | lostRefund | deferred => cases h
  | respond =>
    cases phase with
    | working a client task =>
      cases client with
      | false => cases h
      | true =>
        cases task with
        | finished result =>
          cases h
          exact .own .over fun _ => rfl
        | lost =>
          obtain ⟨requestedAt, status, generation, isNew⟩ := a
          cases isNew <;> cases h
          · exact .own .over fun _ => rfl
          · exact .own (.active ⟨trash, idHash, candidate,
              .lostRefund ⟨requestedAt, status, generation, true⟩⟩) fun _ => rfl
        | blocking | finalizing => cases h
    | bucket | clock | mapLock | permit | refund | lostRefund | deferred => cases h
  | cancel contended => exact cancelFetch_move h

omit [BucketNumber F] in
/-- Servers on which a request is admitted alike. -/
theorem enterMap_congr {q : Lookup} {now : ℤ} {u : AppState F}
    (h : admissionRecord cfg u.identifierRateLimit q.idHash q.candidate now =
      admissionRecord cfg s.identifierRateLimit q.idHash q.candidate now) :
    ∃ call os,
      .admission r (admissionRecord cfg s.identifierRateLimit q.idHash q.candidate now) ∈ os ∧
      enterMap cfg s r q now = ((s.setMap (admitRequest cfg s.identifierRateLimit q.idHash
        q.candidate now).1).setFetch r call, os) ∧
      enterMap cfg u r q now = ((u.setMap (admitRequest cfg u.identifierRateLimit q.idHash
        q.candidate now).1).setFetch r call, os) := by
  unfold enterMap
  rw [h]
  dsimp only
  split
  all_goals refine ⟨_, _, ?_, rfl, rfl⟩
  all_goals simp

inductive StoreMove (F : Type) [BucketNumber F] (P : Primitives) (os : Log) (r : ReqId)
    (phase : StorePhase) (event : StoreEvent) : Prop
  /-- The same from every state. -/
  | own (call : StoreCall)
      (h : ∀ u : AppState F, storeStep P u r phase event = some (u.setStore r call, os))
  | token (secretId encryptedSecret : String) (now : ℕ) (hevent : event = .takeToken now)
      (hphase : phase = .bucket secretId encryptedSecret)
  | write (key : Secret) (client : Bool) (outcome : DbOutcome) (hevent : event = .write outcome)
      (hphase : phase = .writing key client)

theorem storeStep_move {phase : StorePhase} {event : StoreEvent}
    (h : storeStep P s r phase event = some (s', os)) : StoreMove F P os r phase event := by
  cases event with
  | takeToken now =>
    cases phase with
    | bucket secretId encryptedSecret => exact .token secretId encryptedSecret now rfl rfl
    | clock | permit | writing | written => cases h
  | readClock now =>
    cases phase with
    | clock secretId encryptedSecret =>
      cases h
      exact .own (.active (.permit ⟨secretId, P.toRfc3339 now, encryptedSecret⟩)) fun _ => rfl
    | bucket | permit | writing | written => cases h
  | permit granted =>
    cases phase with
    | permit key =>
      cases granted <;> cases h
      · exact .own .over fun _ => rfl
      · exact .own (.active (.writing key true)) fun _ => rfl
    | bucket | clock | writing | written => cases h
  | write outcome =>
    cases phase with
    | writing key client => exact .write key client outcome rfl rfl
    | bucket | clock | permit | written => cases h
  | respond =>
    cases phase with
    | written client isStored =>
      cases client <;> cases h
      exact .own .over fun _ => rfl
    | bucket | clock | permit | writing => cases h
  | cancel =>
    cases phase with
    | bucket secretId encryptedSecret =>
      cases h
      exact .own .over fun _ => rfl
    | permit key =>
      cases h
      exact .own .over fun _ => rfl
    | writing key client =>
      cases client <;> cases h
      exact .own (.active (.writing key false)) fun _ => rfl
    | written client isStored =>
      cases client <;> cases h
      exact .own (.active (.written false isStored)) fun _ => rfl
    | clock => cases h

/-! ## Arrivals -/

omit [BucketNumber F] in
/-- A request is taken or refused by itself, if its number is free. -/
theorem fetchArrives_move {trash : Bool} {request : FetchSecret}
    (h : fetchArrives P s r trash request = some (s', os)) : s.fetches r = none ∧
      ∃ call, s' = s.setFetch r call ∧ ∀ u : AppState F, u.fetches r = none →
        fetchArrives P u r trash request = some (u.setFetch r call, os) := by
  unfold fetchArrives at h
  split at h
  · cases h
  · next hfree =>
    refine ⟨Option.not_isSome_iff_eq_none.mp hfree, ?_⟩
    split at h
    · next response hcheck =>
      cases h
      refine ⟨.over, rfl, fun u hu => ?_⟩
      rw [fetchArrives, hu, hcheck]
      rfl
    · next identifier authenticationKey hcheck =>
      split at h
      · next hnone =>
        cases h
        refine ⟨.over, rfl, fun u hu => ?_⟩
        simp only [fetchArrives, hu, hcheck, hnone, Option.isSome_none, Bool.false_eq_true, if_false]
      · next idHash hsome =>
        cases h
        refine ⟨_, rfl, fun u hu => ?_⟩
        simp only [fetchArrives, hu, hcheck, hsome, Option.isSome_none, Bool.false_eq_true, if_false]

omit [BucketNumber F] in
theorem storeArrives_move {request : StoreSecret}
    (h : storeArrives P cfg s r request = some (s', os)) : s.stores r = none ∧
      ∃ call, s' = s.setStore r call ∧ ∀ u : AppState F, u.stores r = none →
        storeArrives P cfg u r request = some (u.setStore r call, os) := by
  unfold storeArrives at h
  split at h
  · cases h
  · next hfree =>
    refine ⟨Option.not_isSome_iff_eq_none.mp hfree, ?_⟩
    split at h
    · next response hcheck =>
      cases h
      refine ⟨.over, rfl, fun u hu => ?_⟩
      rw [storeArrives, hu, hcheck]
      rfl
    · next identifier authenticationKey hcheck =>
      cases h
      refine ⟨_, rfl, fun u hu => ?_⟩
      rw [storeArrives, hu, hcheck]
      rfl

end RecoverBull
