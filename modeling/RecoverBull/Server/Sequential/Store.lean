import RecoverBull.Server.Sequential

/-!
# `store_secret` as it is written

The handler of `/store` as a function of the shared state, and the proof that the steps of
a store, taken with nothing in between, are this function.
-/

namespace RecoverBull

variable {F : Type} [BucketNumber F] {P : Primitives} {cfg : Config} {s t : AppState F}
  {r : ReqId} {replies : List Response}

/-! ## The handler -/

/-- What a store meets. -/
structure StoreWorld where
  instant : ℕ
  utc : ℤ
  granted : Bool
  database : DbOutcome

instance : Inhabited StoreWorld := ⟨0, 0, true, .runs⟩

/-- `store_secret` from the wait for its database permit on. -/
def storeRow (w : StoreWorld) (key : Secret) (s : AppState F) : AppState F × Response :=
  if !w.granted then (s, databaseBusy)
  else
    let (isStored, table) := runWrite s.secrets key w.database
    ({ s with secrets := table }, storeResponse isStored)

/-- `store_secret` once the request is validated. -/
def storeTakingToken (P : Primitives) (w : StoreWorld) (secretId encryptedSecret : String)
    (s : AppState F) : AppState F × Response :=
  let (admitted, bucket) := s.storeTokenBucket.tryConsume w.instant
  let s := { s with storeTokenBucket := bucket }
  if !admitted then (s, overloaded "Too many store requests, retry later")
  else storeRow w ⟨secretId, P.toRfc3339 w.utc, encryptedSecret⟩ s

/-- `store_secret`. -/
def storeSecret (P : Primitives) (cfg : Config) (w : StoreWorld) (request : StoreSecret)
    (s : AppState F) : AppState F × Response :=
  match checkStore P cfg request with
  | .error response => (s, response)
  | .ok (identifier, authenticationKey) =>
    storeTakingToken P w (generateSecretId P identifier authenticationKey) request.encryptedSecret s

/-! ## Its steps -/

omit [BucketNumber F] in
@[simp] theorem setStore_setStore (s : AppState F) (r : ReqId) (call call' : StoreCall) :
    (s.setStore r call).setStore r call' = s.setStore r call' := by
  simp [AppState.setStore]

omit [BucketNumber F] in
theorem over_store : Over (.store r) (s.setStore r .over) := standing_setStore s r .over

/-- The client of the store stays. -/
def StoreEvent.Stays (event : StoreEvent) : Prop := event ≠ .cancel

theorem turns_store {phase : StorePhase} (hphase : phase.standing = .waiting) :
    Turns P cfg (.store r) (s.setStore r (.active phase)) StoreEvent.Stays
      (storeStep P (s.setStore r (.active phase)) r phase) where
  waits := by
    rw [Over, standing_setStore, StoreCall.standing, hphase]
    exact Standing.noConfusion
  step_iff := by
    intro u os
    have hstep : ∀ event, step P cfg (s.setStore r (.active phase)) (.store r event) =
        storeStep P (s.setStore r (.active phase)) r phase event := by
      intro event
      rw [step, AppState.stores_setStore, Function.update_self]
    constructor
    · rintro ⟨e, ⟨ho, hstays⟩, he⟩
      cases e with
      | store r' event =>
        cases ho
        rw [hstep] at he
        refine ⟨event, ?_, he⟩
        rintro rfl
        cases hstays
      | fetch | attempts | fetchArrives | storeArrives | attemptsArrives | info | sweep => cases ho
    · rintro ⟨event, hstays, he⟩
      refine ⟨.store r event, ⟨rfl, ?_⟩, (hstep event).trans he⟩
      cases event with
      | cancel => exact absurd rfl hstays
      | takeToken | readClock | permit | write | respond => rfl

theorem solo_written {isStored : Option Bool} :
    Solo P cfg (.store r) (s.setStore r (.active (.written true isStored))) t replies ↔
      t = s.setStore r .over ∧ replies = [storeResponse isStored] := by
  refine solo_last (turns_store rfl) [] .respond StoreEvent.noConfusion ?_ over_store rfl
    fun e hstays hne => ?_
  · simp [storeStep]
  · cases e <;> first | rfl | exact absurd rfl hstays | exact absurd rfl hne

theorem solo_writing {key : Secret} :
    Solo P cfg (.store r) (s.setStore r (.active (.writing key true))) t replies ↔
      ∃ w : StoreWorld, w.granted = true ∧ t = (storeRow w key s).1.setStore r .over ∧
        replies = [(storeRow w key s).2] := by
  have hwrite : ∀ outcome, storeStep P (s.setStore r (.active (.writing key true))) r
      (.writing key true) (.write outcome) =
        some (AppState.setStore { s with secrets := (runWrite s.secrets key outcome).2 } r
          (.active (.written true (runWrite s.secrets key outcome).1)),
          [.wrote r key outcome]) := by
    intro outcome
    have hset := setStore_setStore { s with secrets := (runWrite s.secrets key outcome).2 } r
      (.active (.writing key true)) (.active (.written true (runWrite s.secrets key outcome).1))
    rw [← hset]
    rfl
  have hwrote : ∀ outcome, answers (.store r) [.wrote r key outcome] = [] := fun _ => rfl
  rw [solo_turns (turns_store rfl)]
  constructor
  · rintro ⟨event, u, os, older, hstays, h, hrest, rfl⟩
    cases event with
    | write outcome =>
      cases (hwrite outcome).symm.trans h
      rw [hwrote, List.append_nil]
      exact ⟨{ (default : StoreWorld) with database := outcome }, rfl, solo_written.mp hrest⟩
    | cancel => exact absurd rfl hstays
    | takeToken | readClock | permit | respond => cases h
  · rintro ⟨⟨instant, utc, granted, outcome⟩, rfl, h⟩
    exact ⟨.write outcome, _, _, replies, StoreEvent.noConfusion, hwrite outcome,
      solo_written.mpr h, (List.append_nil _).symm⟩

theorem solo_storePermit {key : Secret} :
    Solo P cfg (.store r) (s.setStore r (.active (.permit key))) t replies ↔
      ∃ w : StoreWorld, t = (storeRow w key s).1.setStore r .over ∧
        replies = [(storeRow w key s).2] := by
  have hgranted : storeStep P (s.setStore r (.active (.permit key))) r (.permit key)
      (.permit true) = some (s.setStore r (.active (.writing key true)), []) := by
    simp [storeStep]
  have hrefused : storeStep P (s.setStore r (.active (.permit key))) r (.permit key)
      (.permit false) = some (s.setStore r .over, [.response (.store r) databaseBusy]) := by
    simp [storeStep]
  rw [solo_turns (turns_store rfl)]
  constructor
  · rintro ⟨event, u, os, older, hstays, h, hrest, hreplies⟩
    cases event with
    | permit granted =>
      cases granted with
      | true =>
        cases hgranted.symm.trans h
        obtain ⟨w, -, hleft⟩ := solo_writing.mp (solo_goes.mp ⟨older, hrest, hreplies⟩)
        exact ⟨w, hleft⟩
      | false =>
        cases hrefused.symm.trans h
        rw [answers_singleton rfl] at hreplies
        exact ⟨{ (default : StoreWorld) with granted := false },
          (solo_ends over_store).mp ⟨older, hrest, hreplies⟩⟩
    | cancel => exact absurd rfl hstays
    | takeToken | readClock | write | respond => cases h
  · rintro ⟨w, h⟩
    cases hw : w.granted with
    | true =>
      exact ⟨.permit true, _, _, replies, StoreEvent.noConfusion, hgranted,
        solo_writing.mpr ⟨w, hw, h⟩, (List.append_nil _).symm⟩
    | false =>
      rw [storeRow, hw] at h
      refine ⟨.permit false, _, _, [], StoreEvent.noConfusion, hrefused,
        (solo_of_over over_store).mpr ⟨h.1, rfl⟩, ?_⟩
      rw [answers_singleton rfl]
      exact h.2

theorem solo_storeClock {secretId encryptedSecret : String} :
    Solo P cfg (.store r) (s.setStore r (.active (.clock secretId encryptedSecret))) t replies ↔
      ∃ w : StoreWorld,
        t = (storeRow w ⟨secretId, P.toRfc3339 w.utc, encryptedSecret⟩ s).1.setStore r .over ∧
        replies = [(storeRow w ⟨secretId, P.toRfc3339 w.utc, encryptedSecret⟩ s).2] := by
  have hread : ∀ utc, storeStep P (s.setStore r (.active (.clock secretId encryptedSecret))) r
      (.clock secretId encryptedSecret) (.readClock utc) =
        some (s.setStore r (.active (.permit ⟨secretId, P.toRfc3339 utc, encryptedSecret⟩)), []) := by
    simp [storeStep]
  rw [solo_turns (turns_store rfl)]
  constructor
  · rintro ⟨event, u, os, older, hstays, h, hrest, hreplies⟩
    cases event with
    | readClock utc =>
      cases (hread utc).symm.trans h
      obtain ⟨w, hleft⟩ := solo_storePermit.mp (solo_goes.mp ⟨older, hrest, hreplies⟩)
      exact ⟨{ w with utc := utc }, hleft⟩
    | cancel => exact absurd rfl hstays
    | takeToken | permit | write | respond => cases h
  · rintro ⟨w, h⟩
    exact ⟨.readClock w.utc, _, _, replies, StoreEvent.noConfusion, hread w.utc,
      solo_storePermit.mpr ⟨w, h⟩, (List.append_nil _).symm⟩

theorem solo_storeBucket {secretId encryptedSecret : String} :
    Solo P cfg (.store r) (s.setStore r (.active (.bucket secretId encryptedSecret))) t replies ↔
      ∃ w : StoreWorld, t = (storeTakingToken P w secretId encryptedSecret s).1.setStore r .over ∧
        replies = [(storeTakingToken P w secretId encryptedSecret s).2] := by
  have hturn : ∀ now, ∃ u os,
      storeStep P (s.setStore r (.active (.bucket secretId encryptedSecret))) r
        (.bucket secretId encryptedSecret) (.takeToken now) = some (u, os) ∧
      ((∃ older, Solo P cfg (.store r) u t older ∧ replies = older ++ answers (.store r) os) ↔
        ∃ w : StoreWorld, w.instant = now ∧
          t = (storeTakingToken P w secretId encryptedSecret s).1.setStore r .over ∧
          replies = [(storeTakingToken P w secretId encryptedSecret s).2]) := by
    intro now
    obtain ⟨admitted, bucket, htry⟩ :
        ∃ admitted bucket, s.storeTokenBucket.tryConsume now = (admitted, bucket) := ⟨_, _, rfl⟩
    have htry' : (s.setStore r (.active (.bucket secretId encryptedSecret))).storeTokenBucket.tryConsume
        now = (admitted, bucket) := htry
    cases admitted with
    | true =>
      refine ⟨AppState.setStore { s with storeTokenBucket := bucket } r
        (.active (.clock secretId encryptedSecret)), [], ?_, ?_⟩
      · simp only [storeStep, htry', if_true]
        exact congrArg (fun u => some (u, []))
          (setStore_setStore { s with storeTokenBucket := bucket } r _ _)
      · rw [answers, List.filterMap_nil, solo_goes, solo_storeClock]
        constructor
        · rintro ⟨w, h⟩
          refine ⟨{ w with instant := now }, rfl, ?_⟩
          rw [storeTakingToken, htry]
          exact h
        · rintro ⟨w, rfl, h⟩
          rw [storeTakingToken, htry] at h
          exact ⟨w, h⟩
    | false =>
      refine ⟨AppState.setStore { s with storeTokenBucket := bucket } r .over,
        [.response (.store r) (overloaded "Too many store requests, retry later")], ?_, ?_⟩
      · simp only [storeStep, htry', Bool.false_eq_true, if_false]
        exact congrArg (fun u => some (u, _))
          (setStore_setStore { s with storeTokenBucket := bucket } r _ _)
      · rw [answers_singleton rfl, solo_ends over_store]
        constructor
        · rintro ⟨rfl, rfl⟩
          refine ⟨{ (default : StoreWorld) with instant := now }, rfl, ?_⟩
          rw [storeTakingToken, htry]
          exact ⟨rfl, rfl⟩
        · rintro ⟨w, rfl, h⟩
          rwa [storeTakingToken, htry] at h
  rw [solo_turns (turns_store rfl)]
  constructor
  · rintro ⟨event, u, os, older, hstays, h, hrest, hreplies⟩
    cases event with
    | takeToken now =>
      obtain ⟨v, vs, hv, hiff⟩ := hturn now
      cases hv.symm.trans h
      obtain ⟨w, -, hleft⟩ := hiff.mp ⟨older, hrest, hreplies⟩
      exact ⟨w, hleft⟩
    | cancel => exact absurd rfl hstays
    | readClock | permit | write | respond => cases h
  · rintro ⟨w, h⟩
    obtain ⟨v, vs, hv, hiff⟩ := hturn w.instant
    obtain ⟨older, hrest, hreplies⟩ := hiff.mpr ⟨w, rfl, h⟩
    exact ⟨.takeToken w.instant, v, vs, older, StoreEvent.noConfusion, hv, hrest, hreplies⟩

/-- A store that nothing interrupts is its handler. -/
theorem store_secret_refined {F : Type} [BucketNumber F] {P : Primitives} {cfg : Config}
    {s t : AppState F} {r : ReqId} {request : StoreSecret} {replies : List Response}
    (hnew : s.stores r = none) :
    Handled P cfg (.storeArrives r request) (.store r) s t replies ↔
      ∃ w : StoreWorld, t = (storeSecret P cfg w request s).1.setStore r .over ∧
        replies = [(storeSecret P cfg w request s).2] := by
  have harrives : step P cfg s (.storeArrives r request) = storeArrives P cfg s r request := rfl
  rw [storeArrives, if_neg (by simp [hnew])] at harrives
  cases hcheck : checkStore P cfg request with
  | error response =>
    simp only [hcheck] at harrives
    rw [handled_iff harrives, answers_singleton rfl, solo_ends over_store]
    simp [storeSecret, hcheck]
  | ok keys =>
    obtain ⟨identifier, key⟩ := keys
    simp only [hcheck] at harrives
    rw [handled_iff harrives, answers, List.filterMap_nil, solo_goes, solo_storeBucket]
    simp only [storeSecret, hcheck]

/-- The sample store is answered that the secret is stored. -/
theorem store_secret_refined_sample : ∃ t response, response.status = .created ∧
    Handled .sample .sample (.storeArrives 0 ⟨sampleIdentifier, sampleKey, "AAAA"⟩) (.store 0)
      AppState.sample t [response] := by
  have hanswer : (storeSecret .sample .sample default ⟨sampleIdentifier, sampleKey, "AAAA"⟩
      AppState.sample).2.status = .created := by
    decide +kernel
  exact ⟨_, _, hanswer, (store_secret_refined rfl).mpr ⟨default, rfl, rfl⟩⟩

end RecoverBull
