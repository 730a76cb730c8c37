import RecoverBull.Server.Sequential

/-!
# `fetch_secret` as it is written

The handler of `/fetch` and `/trash` as a function of the shared state, and the proof that
the steps of a lookup, taken with nothing in between, are this function.
-/

namespace RecoverBull

variable {F : Type} [BucketNumber F] {P : Primitives} {cfg : Config} {s t : AppState F}
  {r : ReqId} {replies : List Response}

/-! ## The handler -/

/-- What becomes of the task that `fetch_secret` spawns. -/
inductive TaskFate
  | returns
  /-- Lost before its blocking closure ran. -/
  | lostBefore
  /-- Lost after that, before it finalized. -/
  | lostAfter
  deriving DecidableEq

/-- What a lookup meets: the two clocks, the semaphore, SQLite and the runtime. -/
structure FetchWorld where
  instant : ℕ
  utc : ℤ
  granted : Bool
  database : DbOutcome
  fate : TaskFate

instance : Inhabited FetchWorld := ⟨0, 0, true, .runs, .returns⟩

/-- `remove_pending_async`, where the request has a reservation. -/
def refundIfNew (idHash : String) (candidate : CandidateTag) (a : Admitted) (s : AppState F) :
    AppState F :=
  if a.isNew then s.setMap (removePending s.identifierRateLimit idHash candidate a.generation)
  else s

/-- The end of the spawned task. -/
def finalizeIfNew (idHash : String) (candidate : CandidateTag) (a : Admitted)
    (result : LookupResult) (s : AppState F) : AppState F :=
  if a.isNew then s.setMap (finalize s.identifierRateLimit idHash candidate a.generation result)
  else s

/-- `fetch_secret` from the wait for its database permit on. -/
def fetchAdmitted (cfg : Config) (w : FetchWorld) (isTrashingSecret : Bool) (idHash : String)
    (candidate : CandidateTag) (a : Admitted) (s : AppState F) : AppState F × Response :=
  if !w.granted then (refundIfNew idHash candidate a s, databaseBusy)
  else
    let (result, table) := runLookup s.secrets isTrashingSecret candidate w.database
    match w.fate with
    | .lostBefore => (refundIfNew idHash candidate a s, internalServerError)
    | .lostAfter =>
      (refundIfNew idHash candidate a { s with secrets := table }, internalServerError)
    | .returns =>
      (finalizeIfNew idHash candidate a result { s with secrets := table },
        lookupResponse cfg isTrashingSecret a result)

/-- `fetch_secret` from its critical section on; no response stands for a panic. -/
def fetchReserving (cfg : Config) (w : FetchWorld) (isTrashingSecret : Bool) (idHash : String)
    (candidate : CandidateTag) (s : AppState F) : AppState F × Option Response :=
  let (map, outcome) := admitRequest cfg s.identifierRateLimit idHash candidate w.utc
  let s := s.setMap map
  let lookup (a : Admitted) :=
    let (s, response) := fetchAdmitted cfg w isTrashingSecret idHash candidate a s
    (s, some response)
  match outcome with
  | .capacityExhausted response | .lockedOut response => (s, some response)
  | .panicked => (s, none)
  | .admitted .pending => (s, some (overloaded "Candidate lookup pending, retry later"))
  | .admitted (.new status generation) => lookup ⟨w.utc, status, generation, true⟩
  | .admitted (.replay status generation) => lookup ⟨w.utc, status, generation, false⟩

/-- `fetch_secret` once the request is validated. -/
def fetchTakingToken (cfg : Config) (w : FetchWorld) (isTrashingSecret : Bool) (idHash : String)
    (candidate : CandidateTag) (s : AppState F) : AppState F × Option Response :=
  let (admitted, bucket) := s.lookupTokenBucket.tryConsume w.instant
  let s := { s with lookupTokenBucket := bucket }
  if !admitted then (s, some (overloaded "Too many lookup requests, retry later"))
  else fetchReserving cfg w isTrashingSecret idHash candidate s

/-- `fetch_secret`. -/
def fetchSecret (P : Primitives) (cfg : Config) (w : FetchWorld) (isTrashingSecret : Bool)
    (request : FetchSecret) (s : AppState F) : AppState F × Option Response :=
  match checkFetch P request with
  | .error response => (s, some response)
  | .ok (identifier, authenticationKey) =>
    match identifierHash P identifier with
    | none => (s, none)
    | some idHash =>
      let candidate := generateSecretId P identifier authenticationKey
      fetchTakingToken cfg w isTrashingSecret idHash candidate s

/-! ## Its steps -/

omit [BucketNumber F] in
@[simp] theorem setFetch_setFetch (s : AppState F) (r : ReqId) (call call' : FetchCall) :
    (s.setFetch r call).setFetch r call' = s.setFetch r call' := by
  simp [AppState.setFetch]

omit [BucketNumber F] in
theorem not_over_fetch {q : Lookup} : ¬Over (.fetch r) (s.setFetch r (.active q)) := by
  rw [Over, standing_setFetch, FetchCall.standing]
  cases q.phase with
  | working a client task => cases client <;> exact Standing.noConfusion
  | bucket | clock | mapLock | permit | refund | lostRefund | deferred =>
    exact Standing.noConfusion

omit [BucketNumber F] in
theorem over_fetch : Over (.fetch r) (s.setFetch r .over) := standing_setFetch s r .over

/-- The client of the lookup stays. -/
def FetchEvent.Stays (event : FetchEvent) : Prop := ∀ contended, event ≠ .cancel contended

theorem turns_fetch {q : Lookup} :
    Turns P cfg (.fetch r) (s.setFetch r (.active q)) FetchEvent.Stays
      (fetchStep cfg (s.setFetch r (.active q)) r q) where
  waits := not_over_fetch
  step_iff := by
    intro u os
    have hstep : ∀ event, step P cfg (s.setFetch r (.active q)) (.fetch r event) =
        fetchStep cfg (s.setFetch r (.active q)) r q event := by
      intro event
      rw [step, AppState.fetches_setFetch, Function.update_self]
    constructor
    · rintro ⟨e, ⟨ho, hstays⟩, he⟩
      cases e with
      | fetch r' event =>
        cases ho
        rw [hstep] at he
        refine ⟨event, ?_, he⟩
        rintro c rfl
        cases hstays
      | store | attempts | fetchArrives | storeArrives | attemptsArrives | info | sweep => cases ho
    · rintro ⟨event, hstays, he⟩
      refine ⟨.fetch r event, ⟨rfl, ?_⟩, (hstep event).trans he⟩
      cases event with
      | cancel c => exact absurd rfl (hstays c)
      | takeToken | readClock | enter | permit | removePending | query | finalize | loseTask
      | respond => rfl

variable {trash : Bool} {id : String} {c : CandidateTag} {a : Admitted}

/-- The state and the replies a handler leaves. -/
def Leaves (r : ReqId) (left : AppState F × Response) (t : AppState F) (replies : List Response) :
    Prop :=
  t = left.1.setFetch r .over ∧ replies = [left.2]

omit [BucketNumber F] in
/-- The map does not tell where the calls stand. -/
@[simp] theorem setMap_setFetch (s : AppState F) (r : ReqId) (call : FetchCall) (map : RateLimitMap) :
    (s.setFetch r call).setMap map = (s.setMap map).setFetch r call := rfl

theorem solo_finished {result : LookupResult} :
    Solo P cfg (.fetch r)
        (s.setFetch r (.active ⟨trash, id, c, .working a true (.finished result)⟩)) t replies ↔
      Leaves r (s, lookupResponse cfg trash a result) t replies := by
  refine solo_last turns_fetch [] .respond (fun _ => FetchEvent.noConfusion) ?_ over_fetch rfl
    fun e hstays hne => ?_
  · simp [fetchStep]
  · cases e <;> first | rfl | exact absurd rfl (hstays _) | exact absurd rfl hne

/-- The three waits for the map lock in which a request gives its reservation back. -/
theorem solo_lostRefund :
    Solo P cfg (.fetch r) (s.setFetch r (.active ⟨trash, id, c, .lostRefund a⟩)) t replies ↔
      Leaves r (s.setMap (removePending s.identifierRateLimit id c a.generation),
        internalServerError) t replies := by
  refine solo_last turns_fetch [.refunded r] .removePending (fun _ => FetchEvent.noConfusion) ?_
    over_fetch rfl fun e hstays hne => ?_
  · simp [fetchStep, refundReservation]
  · cases e <;> first | rfl | exact absurd rfl (hstays _) | exact absurd rfl hne

theorem solo_refund :
    Solo P cfg (.fetch r) (s.setFetch r (.active ⟨trash, id, c, .refund a⟩)) t replies ↔
      Leaves r (s.setMap (removePending s.identifierRateLimit id c a.generation), databaseBusy) t
        replies := by
  refine solo_last turns_fetch [.refunded r] .removePending (fun _ => FetchEvent.noConfusion) ?_
    over_fetch rfl fun e hstays hne => ?_
  · simp [fetchStep, refundReservation]
  · cases e <;> first | rfl | exact absurd rfl (hstays _) | exact absurd rfl hne

theorem solo_lost :
    Solo P cfg (.fetch r) (s.setFetch r (.active ⟨trash, id, c, .working a true .lost⟩)) t replies ↔
      Leaves r (refundIfNew id c a s, internalServerError) t replies := by
  have honly : ∀ e : FetchEvent, (∀ c, e ≠ .cancel c) → e ≠ .respond →
      fetchStep cfg (s.setFetch r (.active ⟨trash, id, c, .working a true .lost⟩)) r
        ⟨trash, id, c, .working a true .lost⟩ e = none := by
    intro e hstays hne
    cases e <;> first | rfl | exact absurd rfl (hstays _) | exact absurd rfl hne
  cases hnew : a.isNew with
  | true =>
    have hstep : fetchStep cfg (s.setFetch r (.active ⟨trash, id, c, .working a true .lost⟩)) r
        ⟨trash, id, c, .working a true .lost⟩ .respond =
          some (s.setFetch r (.active ⟨trash, id, c, .lostRefund a⟩), []) := by
      simp [fetchStep, hnew]
    rw [solo_only turns_fetch .respond (fun _ => FetchEvent.noConfusion) hstep honly, refundIfNew,
      if_pos hnew]
    exact solo_goes.trans solo_lostRefund
  | false =>
    rw [refundIfNew, hnew]
    refine solo_last turns_fetch [] .respond (fun _ => FetchEvent.noConfusion) ?_ over_fetch rfl
      honly
    simp [fetchStep, hnew]

/-- The task may still be lost while it waits for the map lock. -/
theorem solo_finalizing {result : LookupResult} :
    Solo P cfg (.fetch r)
        (s.setFetch r (.active ⟨trash, id, c, .working a true (.finalizing result)⟩)) t replies ↔
      Leaves r (finalizeIfNew id c a result s, lookupResponse cfg trash a result) t replies ∨
        Leaves r (refundIfNew id c a s, internalServerError) t replies := by
  have hfinalize : fetchStep cfg
      (s.setFetch r (.active ⟨trash, id, c, .working a true (.finalizing result)⟩)) r
      ⟨trash, id, c, .working a true (.finalizing result)⟩ .finalize =
        some ((finalizeIfNew id c a result s).setFetch r
          (.active ⟨trash, id, c, .working a true (.finished result)⟩),
            if a.isNew then [.finalized r result] else []) := by
    cases hnew : a.isNew <;> simp [fetchStep, finalizeIfNew, hnew]
  have hlose : fetchStep cfg
      (s.setFetch r (.active ⟨trash, id, c, .working a true (.finalizing result)⟩)) r
      ⟨trash, id, c, .working a true (.finalizing result)⟩ .loseTask =
        some (s.setFetch r (.active ⟨trash, id, c, .working a true .lost⟩), [.taskLost r]) := by
    simp [fetchStep]
  have hsilent : answers (.fetch r) (if a.isNew then [.finalized r result] else []) = [] := by
    cases a.isNew <;> rfl
  rw [solo_turns turns_fetch]
  constructor
  · rintro ⟨event, u, os, replies', hstays, h, hrest, rfl⟩
    cases event with
    | finalize =>
      cases hfinalize.symm.trans h
      rw [hsilent, List.append_nil]
      exact Or.inl (solo_finished.mp hrest)
    | loseTask =>
      cases hlose.symm.trans h
      have hlost : answers (.fetch r) [.taskLost r] = [] := rfl
      rw [hlost, List.append_nil]
      exact Or.inr (solo_lost.mp hrest)
    | cancel c => exact absurd rfl (hstays c)
    | takeToken | readClock | enter | permit | removePending | query | respond => cases h
  · rintro (h | h)
    · exact ⟨.finalize, _, _, replies, fun _ => FetchEvent.noConfusion, hfinalize,
        solo_finished.mpr h, by rw [hsilent, List.append_nil]⟩
    · exact ⟨.loseTask, _, _, replies, fun _ => FetchEvent.noConfusion, hlose, solo_lost.mpr h,
        (List.append_nil _).symm⟩

/-- The rest of a lookup that has its permit. -/
theorem solo_blocking :
    Solo P cfg (.fetch r) (s.setFetch r (.active ⟨trash, id, c, .working a true .blocking⟩)) t
        replies ↔
      ∃ w : FetchWorld, w.granted = true ∧ Leaves r (fetchAdmitted cfg w trash id c a s) t replies := by
  have hquery : ∀ outcome, fetchStep cfg
      (s.setFetch r (.active ⟨trash, id, c, .working a true .blocking⟩)) r
      ⟨trash, id, c, .working a true .blocking⟩ (.query outcome) =
        some (AppState.setFetch { s with secrets := (runLookup s.secrets trash c outcome).2 } r
          (.active ⟨trash, id, c,
            .working a true (.finalizing (runLookup s.secrets trash c outcome).1)⟩),
          [.queried r trash c outcome (runLookup s.secrets trash c outcome).1]) := by
    intro outcome
    have hset := setFetch_setFetch { s with secrets := (runLookup s.secrets trash c outcome).2 } r
      (.active ⟨trash, id, c, .working a true .blocking⟩)
      (.active ⟨trash, id, c, .working a true (.finalizing (runLookup s.secrets trash c outcome).1)⟩)
    rw [← hset]
    rfl
  have hlose : fetchStep cfg (s.setFetch r (.active ⟨trash, id, c, .working a true .blocking⟩)) r
      ⟨trash, id, c, .working a true .blocking⟩ .loseTask =
        some (s.setFetch r (.active ⟨trash, id, c, .working a true .lost⟩), [.taskLost r]) := by
    simp [fetchStep]
  have hqueried : ∀ outcome, answers (.fetch r)
      [.queried r trash c outcome (runLookup s.secrets trash c outcome).1] = [] := fun _ => rfl
  have hlost : answers (.fetch r) [.taskLost r] = [] := rfl
  rw [solo_turns turns_fetch]
  constructor
  · rintro ⟨event, u, os, replies', hstays, h, hrest, rfl⟩
    cases event with
    | query outcome =>
      cases (hquery outcome).symm.trans h
      rw [hqueried, List.append_nil]
      obtain hleft | hleft := solo_finalizing.mp hrest
      · exact ⟨{ (default : FetchWorld) with database := outcome }, rfl, hleft⟩
      · exact ⟨{ (default : FetchWorld) with database := outcome, fate := .lostAfter }, rfl, hleft⟩
    | loseTask =>
      cases hlose.symm.trans h
      rw [hlost, List.append_nil]
      exact ⟨{ (default : FetchWorld) with fate := .lostBefore }, rfl, solo_lost.mp hrest⟩
    | cancel c => exact absurd rfl (hstays c)
    | takeToken | readClock | enter | permit | removePending | finalize | respond => cases h
  · rintro ⟨⟨instant, utc, granted, outcome, fate⟩, rfl, h⟩
    cases fate with
    | returns =>
      exact ⟨.query outcome, _, _, replies, fun _ => FetchEvent.noConfusion, hquery outcome,
        solo_finalizing.mpr (Or.inl h), (List.append_nil _).symm⟩
    | lostAfter =>
      exact ⟨.query outcome, _, _, replies, fun _ => FetchEvent.noConfusion, hquery outcome,
        solo_finalizing.mpr (Or.inr h), (List.append_nil _).symm⟩
    | lostBefore =>
      exact ⟨.loseTask, _, _, replies, fun _ => FetchEvent.noConfusion, hlose, solo_lost.mpr h,
        (List.append_nil _).symm⟩

/-- Without a permit the request gives back what it reserved, if it did, and answers. -/
theorem solo_refused :
    ∃ u os, fetchStep cfg (s.setFetch r (.active ⟨trash, id, c, .permit a⟩)) r
        ⟨trash, id, c, .permit a⟩ (.permit false) = some (u, os) ∧
      ((∃ replies', Solo P cfg (.fetch r) u t replies' ∧
          replies = replies' ++ answers (.fetch r) os) ↔
        Leaves r (refundIfNew id c a s, databaseBusy) t replies) := by
  cases hnew : a.isNew with
  | true =>
    refine ⟨s.setFetch r (.active ⟨trash, id, c, .refund a⟩), [], by simp [fetchStep, hnew], ?_⟩
    rw [refundIfNew, if_pos hnew]
    exact solo_goes.trans solo_refund
  | false =>
    refine ⟨s.setFetch r .over, [.response (.fetch r) databaseBusy], by simp [fetchStep, hnew], ?_⟩
    rw [refundIfNew, hnew, answers_singleton rfl]
    exact solo_ends over_fetch

theorem solo_permit :
    Solo P cfg (.fetch r) (s.setFetch r (.active ⟨trash, id, c, .permit a⟩)) t replies ↔
      ∃ w : FetchWorld, Leaves r (fetchAdmitted cfg w trash id c a s) t replies := by
  have hgranted : fetchStep cfg (s.setFetch r (.active ⟨trash, id, c, .permit a⟩)) r
      ⟨trash, id, c, .permit a⟩ (.permit true) =
        some (s.setFetch r (.active ⟨trash, id, c, .working a true .blocking⟩), []) := by
    simp [fetchStep]
  obtain ⟨v, vs, hrefused, hleaves⟩ := @solo_refused F _ P cfg s t r replies trash id c a
  rw [solo_turns turns_fetch]
  constructor
  · rintro ⟨event, u, os, replies', hstays, h, hrest, rfl⟩
    cases event with
    | permit granted =>
      cases granted with
      | true =>
        cases hgranted.symm.trans h
        obtain ⟨w, -, hleft⟩ := solo_blocking.mp hrest
        rw [answers, List.filterMap_nil, List.append_nil]
        exact ⟨w, hleft⟩
      | false =>
        cases hrefused.symm.trans h
        exact ⟨{ (default : FetchWorld) with granted := false }, hleaves.mp ⟨replies', hrest, rfl⟩⟩
    | cancel c => exact absurd rfl (hstays c)
    | takeToken | readClock | enter | query | removePending | finalize | loseTask | respond =>
      cases h
  · rintro ⟨w, h⟩
    cases hw : w.granted with
    | true =>
      exact ⟨.permit true, _, _, replies, fun _ => FetchEvent.noConfusion, hgranted,
        solo_blocking.mpr ⟨w, hw, h⟩, (List.append_nil _).symm⟩
    | false =>
      rw [fetchAdmitted, hw] at h
      obtain ⟨replies', hrest, hreplies⟩ := hleaves.mpr h
      exact ⟨.permit false, v, vs, replies', fun _ => FetchEvent.noConfusion, hrefused, hrest,
        hreplies⟩

/-- The state and the reply, if any, that a handler which may panic leaves. -/
def MayLeave (r : ReqId) (left : AppState F × Option Response) (t : AppState F)
    (replies : List Response) : Prop :=
  t = left.1.setFetch r .over ∧ replies = left.2.toList

theorem solo_mapLock {utc : ℤ} :
    Solo P cfg (.fetch r) (s.setFetch r (.active ⟨trash, id, c, .mapLock utc⟩)) t replies ↔
      ∃ w : FetchWorld, w.utc = utc ∧
        MayLeave r (fetchReserving cfg w trash id c s) t replies := by
  have honly : ∀ e : FetchEvent, (∀ c, e ≠ .cancel c) → e ≠ .enter →
      fetchStep cfg (s.setFetch r (.active ⟨trash, id, c, .mapLock utc⟩)) r
        ⟨trash, id, c, .mapLock utc⟩ e = none := by
    intro e hstays hne
    cases e <;> first | rfl | exact absurd rfl (hstays _) | exact absurd rfl hne
  obtain ⟨map, outcome, hadmission⟩ :
      ∃ map outcome, admitRequest cfg s.identifierRateLimit id c utc = (map, outcome) :=
    ⟨_, _, rfl⟩
  have hmap : (admitRequest cfg s.identifierRateLimit id c utc).1 = map := by rw [hadmission]
  have hout : (admissionRecord cfg s.identifierRateLimit id c utc).outcome = outcome :=
    congrArg Prod.snd hadmission
  have hstep : fetchStep cfg (s.setFetch r (.active ⟨trash, id, c, .mapLock utc⟩)) r
      ⟨trash, id, c, .mapLock utc⟩ .enter = some (enterMap cfg
        (s.setFetch r (.active ⟨trash, id, c, .mapLock utc⟩)) r ⟨trash, id, c, .mapLock utc⟩ utc) :=
    rfl
  -- An outcome that ends the request leaves the same whatever it meets from here on.
  have hends : ∀ left : AppState F × Option Response,
      (∀ w : FetchWorld, w.utc = utc → fetchReserving cfg w trash id c s = left) →
      ((∃ w : FetchWorld, w.utc = utc ∧ MayLeave r (fetchReserving cfg w trash id c s) t replies) ↔
        MayLeave r left t replies) := by
    intro left hleft
    constructor
    · rintro ⟨w, hw, h⟩
      rwa [hleft w hw] at h
    · intro h
      refine ⟨{ (default : FetchWorld) with utc := utc }, rfl, ?_⟩
      rwa [hleft _ rfl]
  -- An admitted request goes on with what it was admitted with.
  have hgoes : ∀ (a : Admitted) (os : Log), answers (.fetch r) os = [] →
      enterMap cfg (s.setFetch r (.active ⟨trash, id, c, .mapLock utc⟩)) r
        ⟨trash, id, c, .mapLock utc⟩ utc =
          ((s.setMap map).setFetch r (.active ⟨trash, id, c, .permit a⟩), os) →
      (∀ w : FetchWorld, w.utc = utc →
        (MayLeave r (fetchReserving cfg w trash id c s) t replies ↔
          Leaves r (fetchAdmitted cfg w trash id c a (s.setMap map)) t replies)) →
      (Solo P cfg (.fetch r) (s.setFetch r (.active ⟨trash, id, c, .mapLock utc⟩)) t replies ↔
        ∃ w : FetchWorld, w.utc = utc ∧
          MayLeave r (fetchReserving cfg w trash id c s) t replies) := by
    intro a os hos henter hleft
    rw [solo_only turns_fetch .enter (fun _ => FetchEvent.noConfusion)
      (hstep.trans (congrArg some henter)) honly, hos, solo_goes, solo_permit]
    constructor
    · rintro ⟨w, h⟩
      exact ⟨{ w with utc := utc }, rfl, (hleft _ rfl).mpr h⟩
    · rintro ⟨w, hw, h⟩
      exact ⟨w, (hleft w hw).mp h⟩
  cases outcome with
  | admitted admission =>
    cases admission with
    | pending =>
      rw [hends (s.setMap map, some (overloaded "Candidate lookup pending, retry later"))
        (by rintro w rfl; rw [fetchReserving, hadmission])]
      exact solo_last turns_fetch [.admission r _] .enter (fun _ => FetchEvent.noConfusion)
        (by simp [hstep, enterMap, hout, hmap]; rfl) over_fetch rfl honly
    | new status generation =>
      refine hgoes ⟨utc, status, generation, true⟩ [.admission r _] rfl
        (by simp [enterMap, hout, hmap]; rfl) ?_
      rintro w rfl
      rw [fetchReserving, hadmission]
      exact Iff.rfl
    | replay status generation =>
      refine hgoes ⟨utc, status, generation, false⟩ [.admission r _] rfl
        (by simp [enterMap, hout, hmap]; rfl) ?_
      rintro w rfl
      rw [fetchReserving, hadmission]
      exact Iff.rfl
  | lockedOut response =>
    rw [hends (s.setMap map, some response) (by rintro w rfl; rw [fetchReserving, hadmission])]
    exact solo_last turns_fetch [.admission r _] .enter (fun _ => FetchEvent.noConfusion)
      (by simp [hstep, enterMap, hout, hmap]; rfl) over_fetch rfl honly
  | capacityExhausted response =>
    rw [hends (s.setMap map, some response) (by rintro w rfl; rw [fetchReserving, hadmission])]
    exact solo_last turns_fetch [.admission r _] .enter (fun _ => FetchEvent.noConfusion)
      (by simp [hstep, enterMap, hout, hmap]; rfl) over_fetch rfl honly
  | panicked =>
    rw [hends (s.setMap map, none) (by rintro w rfl; rw [fetchReserving, hadmission])]
    have henter : enterMap cfg (s.setFetch r (.active ⟨trash, id, c, .mapLock utc⟩)) r
        ⟨trash, id, c, .mapLock utc⟩ utc = ((s.setMap map).setFetch r .over,
          [.panicked (.fetch r),
            .admission r (admissionRecord cfg s.identifierRateLimit id c utc)]) := by
      simp [enterMap, hout, hmap]
    rw [solo_only turns_fetch .enter (fun _ => FetchEvent.noConfusion)
      (hstep.trans (congrArg some henter)) honly]
    exact solo_ends over_fetch

theorem solo_clock :
    Solo P cfg (.fetch r) (s.setFetch r (.active ⟨trash, id, c, .clock⟩)) t replies ↔
      ∃ w : FetchWorld, MayLeave r (fetchReserving cfg w trash id c s) t replies := by
  have hread : ∀ utc, fetchStep cfg (s.setFetch r (.active ⟨trash, id, c, .clock⟩)) r
      ⟨trash, id, c, .clock⟩ (.readClock utc) =
        some (s.setFetch r (.active ⟨trash, id, c, .mapLock utc⟩), []) := by
    intro utc
    simp [fetchStep]
  rw [solo_turns turns_fetch]
  constructor
  · rintro ⟨event, u, os, replies', hstays, h, hrest, rfl⟩
    cases event with
    | readClock utc =>
      cases (hread utc).symm.trans h
      obtain ⟨w, -, hleft⟩ := solo_mapLock.mp hrest
      rw [answers, List.filterMap_nil, List.append_nil]
      exact ⟨w, hleft⟩
    | cancel c => exact absurd rfl (hstays c)
    | takeToken | enter | permit | query | removePending | finalize | loseTask | respond => cases h
  · rintro ⟨w, h⟩
    exact ⟨.readClock w.utc, _, _, replies, fun _ => FetchEvent.noConfusion, hread w.utc,
      solo_mapLock.mpr ⟨w, rfl, h⟩, (List.append_nil _).symm⟩

theorem takeLookupToken_turn {now : ℕ} :
    ∃ u os, takeLookupToken (s.setFetch r (.active ⟨trash, id, c, .bucket⟩)) r
      ⟨trash, id, c, .bucket⟩ now = (u, os) ∧
        ((∃ replies', Solo P cfg (.fetch r) u t replies' ∧
            replies = replies' ++ answers (.fetch r) os) ↔
          ∃ w : FetchWorld, w.instant = now ∧
            MayLeave r (fetchTakingToken cfg w trash id c s) t replies) := by
  obtain ⟨admitted, bucket, htry⟩ :
      ∃ admitted bucket, s.lookupTokenBucket.tryConsume now = (admitted, bucket) := ⟨_, _, rfl⟩
  have htry' : (s.setFetch r (.active ⟨trash, id, c, .bucket⟩)).lookupTokenBucket.tryConsume now =
      (admitted, bucket) := htry
  cases admitted with
  | true =>
    refine ⟨AppState.setFetch { s with lookupTokenBucket := bucket } r
      (.active ⟨trash, id, c, .clock⟩), [], ?_, ?_⟩
    · rw [takeLookupToken, htry']
      exact congrArg (fun u => (u, [])) (setFetch_setFetch { s with lookupTokenBucket := bucket } r _ _)
    · rw [answers, List.filterMap_nil, solo_goes, solo_clock]
      constructor
      · rintro ⟨w, h⟩
        refine ⟨{ w with instant := now }, rfl, ?_⟩
        rw [fetchTakingToken, htry]
        exact h
      · rintro ⟨w, rfl, h⟩
        rw [fetchTakingToken, htry] at h
        exact ⟨w, h⟩
  | false =>
    refine ⟨AppState.setFetch { s with lookupTokenBucket := bucket } r .over,
      [.response (.fetch r) (overloaded "Too many lookup requests, retry later")], ?_, ?_⟩
    · rw [takeLookupToken, htry']
      exact congrArg (fun u => (u, _)) (setFetch_setFetch { s with lookupTokenBucket := bucket } r _ _)
    · rw [answers_singleton rfl, solo_ends over_fetch]
      constructor
      · rintro ⟨rfl, rfl⟩
        refine ⟨{ (default : FetchWorld) with instant := now }, rfl, ?_⟩
        rw [fetchTakingToken, htry]
        exact ⟨rfl, rfl⟩
      · rintro ⟨w, rfl, h⟩
        rwa [fetchTakingToken, htry] at h

theorem solo_bucket :
    Solo P cfg (.fetch r) (s.setFetch r (.active ⟨trash, id, c, .bucket⟩)) t replies ↔
      ∃ w : FetchWorld, MayLeave r (fetchTakingToken cfg w trash id c s) t replies := by
  have htake : ∀ now, fetchStep cfg (s.setFetch r (.active ⟨trash, id, c, .bucket⟩)) r
      ⟨trash, id, c, .bucket⟩ (.takeToken now) = some (takeLookupToken
        (s.setFetch r (.active ⟨trash, id, c, .bucket⟩)) r ⟨trash, id, c, .bucket⟩ now) :=
    fun _ => rfl
  rw [solo_turns turns_fetch]
  constructor
  · rintro ⟨event, u, os, replies', hstays, h, hrest, hreplies⟩
    cases event with
    | takeToken now =>
      obtain ⟨v, vs, hv, hiff⟩ := @takeLookupToken_turn F _ P cfg s t r replies trash id c now
      rw [htake, hv] at h
      cases h
      obtain ⟨w, -, hleft⟩ := hiff.mp ⟨replies', hrest, hreplies⟩
      exact ⟨w, hleft⟩
    | cancel c => exact absurd rfl (hstays c)
    | readClock | enter | permit | query | removePending | finalize | loseTask | respond => cases h
  · rintro ⟨w, h⟩
    obtain ⟨v, vs, hv, hiff⟩ := @takeLookupToken_turn F _ P cfg s t r replies trash id c w.instant
    obtain ⟨replies', hrest, hreplies⟩ := hiff.mpr ⟨w, rfl, h⟩
    exact ⟨.takeToken w.instant, v, vs, replies', fun _ => FetchEvent.noConfusion,
      (htake w.instant).trans (congrArg some hv), hrest, hreplies⟩

/-- A valid request on its own. -/
theorem handled_lookup {request : FetchSecret} {identifier key : String}
    (hnew : s.fetches r = none) (hcheck : checkFetch P request = .ok (identifier, key))
    (hid : identifierHash P identifier = some id) :
    Handled P cfg (.fetchArrives r trash request) (.fetch r) s t replies ↔
      ∃ w : FetchWorld, MayLeave r
        (fetchTakingToken cfg w trash id (generateSecretId P identifier key) s) t replies := by
  have harrives : step P cfg s (.fetchArrives r trash request) =
      some (s.setFetch r (.active ⟨trash, id, generateSecretId P identifier key, .bucket⟩), []) := by
    simp [step, fetchArrives, hnew, hcheck, hid]
  rw [handled_iff harrives, answers, List.filterMap_nil, solo_goes, solo_bucket]

/-- Taken step by step with nothing in between, a lookup is its handler: for what it meets,
it leaves the state and the answer that the handler leaves, and there is no other way for it
to end. -/
theorem fetch_secret_refined {F : Type} [BucketNumber F] {P : Primitives} {cfg : Config}
    {s t : AppState F} {r : ReqId} {trash : Bool} {request : FetchSecret} {replies : List Response}
    (hnew : s.fetches r = none) :
    Handled P cfg (.fetchArrives r trash request) (.fetch r) s t replies ↔
      ∃ w : FetchWorld, t = (fetchSecret P cfg w trash request s).1.setFetch r .over ∧
        replies = (fetchSecret P cfg w trash request s).2.toList := by
  have harrives : step P cfg s (.fetchArrives r trash request) = fetchArrives P s r trash request :=
    rfl
  rw [fetchArrives, if_neg (by simp [hnew])] at harrives
  cases hcheck : checkFetch P request with
  | error response =>
    simp only [hcheck] at harrives
    rw [handled_iff harrives, answers_singleton rfl, solo_ends over_fetch]
    simp [fetchSecret, hcheck]
  | ok keys =>
    obtain ⟨identifier, key⟩ := keys
    cases hid : identifierHash P identifier with
    | none =>
      have hsilent : answers (.fetch r) [.panicked (.fetch r)] = [] := rfl
      simp only [hcheck, hid] at harrives
      rw [handled_iff harrives, hsilent, solo_ends over_fetch]
      simp [fetchSecret, hcheck, hid]
    | some idHash =>
      rw [handled_lookup hnew hcheck hid]
      simp only [fetchSecret, hcheck, hid, MayLeave]

/-- On an empty table the sample lookup is answered that its key is wrong. -/
theorem fetch_secret_refined_sample : ∃ t response, response.status = .unauthorized ∧
    Handled .sample .sample (.fetchArrives 0 false ⟨sampleIdentifier, sampleKey⟩) (.fetch 0)
      AppState.sample t [response] := by
  have htaking : fetchSecret .sample .sample default false ⟨sampleIdentifier, sampleKey⟩
      AppState.sample =
        fetchTakingToken .sample default false sampleIdHash sampleSecretId AppState.sample := by
    rw [fetchSecret, checkFetch_sampleKey]
    dsimp only
    rw [identifierHash_sampleIdentifier]
    dsimp only
    rw [generateSecretId_sampleKey]
  have hanswer : ((fetchTakingToken .sample default false sampleIdHash sampleSecretId
      AppState.sample).2.any fun response => decide (response.status = .unauthorized)) = true := by
    decide +kernel
  obtain ⟨response, hresponse, hstatus⟩ := (Option.any_eq_true _ _).mp hanswer
  refine ⟨_, response, of_decide_eq_true hstatus, (fetch_secret_refined rfl).mpr ⟨default, rfl, ?_⟩⟩
  rw [htaking, hresponse]
  rfl

end RecoverBull
