import RecoverBull.Server.Draining
import RecoverBull.Server.StoreTrace
import RecoverBull.Secrets.Keys

/-!
# The contract of the API

What a client can rely on in every answer of every run: which statuses an endpoint
uses, when `Retry-After`, `ETag` and `Cache-Control` come with them, which body goes
with which status; and that a request is answered once.
-/

namespace RecoverBull

variable {F : Type} {P : Primitives} {cfg : Config} {s s' : AppState F} {os log : Log}
  {event : Event} {call : Call} {response : Response}

/-- The statuses of an endpoint. -/
def Call.allows : Call → StatusCode → Bool
  | .fetch _, .ok | .fetch _, .accepted | .fetch _, .badRequest | .fetch _, .unauthorized
  | .fetch _, .tooManyRequests | .fetch _, .internalServerError | .fetch _, .serviceUnavailable
  | .store _, .created | .store _, .badRequest | .store _, .internalServerError
  | .store _, .serviceUnavailable
  | .attempts _, .ok | .attempts _, .notModified | .attempts _, .internalServerError
  | .attempts _, .serviceUnavailable
  | .info _, .ok => true
  | _, _ => false

/-- The body goes with the status. -/
def StatusCode.admits : StatusCode → Body → Bool
  | .ok, .secret _ _ | .ok, .gzip _ | .ok, .info _ | .accepted, .secret _ _ | .created, .null
  | .notModified, .empty | .badRequest, .error _ | .unauthorized, .failedAttempt _ _ _ _ _
  | .tooManyRequests, .tooManyAttempts _ _ _ _ | .internalServerError, .error _
  | .serviceUnavailable, .error _ => true
  | _, _ => false

/-- The client is to wait before it asks again. -/
def StatusCode.asksToWait : StatusCode → Bool
  | .tooManyRequests | .serviceUnavailable => true
  | _ => false

/-- The answer serves the snapshot. -/
def Call.servesSnapshot : Call → StatusCode → Bool
  | .attempts _, .ok | .attempts _, .notModified => true
  | _, _ => false

/-- What every answer keeps to. -/
structure Response.Obeys (cfg : Config) (call : Call) (response : Response) : Prop where
  status : call.allows response.status = true
  body : response.status.admits response.body = true
  /-- `Retry-After` comes with the answers that ask to wait, and with no other. -/
  retryAfter : response.retryAfter.isSome = response.status.asksToWait
  wait : ∀ n, response.retryAfter = some n → 1 ≤ n
  busy : response.status = .serviceUnavailable → response.retryAfter = some 1
  etag : response.etag.isSome = call.servesSnapshot response.status
  caching : response.maxAge.isSome = call.servesSnapshot response.status
  maxAge : ∀ n, response.maxAge = some n → 1 ≤ n ∧ n ≤ cfg.attemptsSnapshotTtlSeconds

/-! ## Every answer -/

/-- The errors that say nothing about when to come back. -/
theorem obeys_error {status : StatusCode} (text : String)
    (hstatus : status = .badRequest ∨ status = .internalServerError)
    (hmem : call.allows status = true) : (errorResponse status text).Obeys cfg call := by
  have hserves : call.servesSnapshot status = false := by
    obtain rfl | rfl := hstatus <;> cases call <;> rfl
  have hplain : status.admits (.error text) = true ∧ status.asksToWait = false ∧
      status ≠ .serviceUnavailable := by
    obtain rfl | rfl := hstatus
    · exact ⟨rfl, rfl, StatusCode.noConfusion⟩
    · exact ⟨rfl, rfl, StatusCode.noConfusion⟩
  exact ⟨hmem, hplain.1, hplain.2.1.symm, fun _ => nofun, fun h => absurd h hplain.2.2,
    hserves.symm, hserves.symm, fun _ => nofun⟩

theorem obeys_overloaded (text : String) (hmem : call.allows .serviceUnavailable = true) :
    (overloaded text).Obeys cfg call := by
  have hserves : call.servesSnapshot .serviceUnavailable = false := by cases call <;> rfl
  refine ⟨hmem, rfl, rfl, fun n hn => ?_, fun _ => rfl, hserves.symm, hserves.symm, fun _ => nofun⟩
  cases hn
  exact le_rfl

theorem obeys_rateLimited (count : ℕ) (last now : ℤ) (r : ReqId) :
    (rateLimited cfg count last now).Obeys cfg (.fetch r) := by
  refine ⟨rfl, rfl, rfl, fun n hn => ?_, nofun, rfl, rfl, fun _ => nofun⟩
  cases hn
  rw [retryAfterSecs]
  omega

theorem obeys_lookupResponse (trash : Bool) (a : Admitted) (result : LookupResult) (r : ReqId) :
    (lookupResponse cfg trash a result).Obeys cfg (.fetch r) := by
  cases result with
  | hit secret =>
    cases trash
    · exact ⟨rfl, rfl, rfl, fun _ => nofun, nofun, rfl, rfl, fun _ => nofun⟩
    · exact ⟨rfl, rfl, rfl, fun _ => nofun, nofun, rfl, rfl, fun _ => nofun⟩
  | miss => exact ⟨rfl, rfl, rfl, fun _ => nofun, nofun, rfl, rfl, fun _ => nofun⟩
  | failed error => exact obeys_error _ (Or.inr rfl) (rfl)

theorem obeys_storeResponse (isStored : Option Bool) (r : ReqId) :
    (storeResponse isStored).Obeys cfg (.store r) := by
  rcases isStored with _ | _ | _
  · exact obeys_error _ (Or.inr rfl) (rfl)
  · exact obeys_error _ (Or.inr rfl) (rfl)
  · exact ⟨rfl, rfl, rfl, fun _ => nofun, nofun, rfl, rfl, fun _ => nofun⟩

/-- The remaining freshness is a whole number of seconds of the time to live. -/
theorem remainingMaxAge_le_ttl (createdAt now : ℕ) :
    1 ≤ remainingMaxAge createdAt cfg.attemptsSnapshotTtl now ∧
      remainingMaxAge createdAt cfg.attemptsSnapshotTtl now ≤ cfg.attemptsSnapshotTtlSeconds := by
  have hpos := validateSnapshotTtl_eq_ok.mp cfg.ttl_valid
  unfold remainingMaxAge Config.attemptsSnapshotTtl
  dsimp only
  split <;> omega

theorem obeys_attemptsResponse (snapshot : AttemptsSnapshotCache) (tag : Option String) (now : ℕ)
    (r : ReqId) : (attemptsResponse cfg snapshot tag now).Obeys cfg (.attempts r) := by
  have hage : ∀ n, some (remainingMaxAge snapshot.createdAt cfg.attemptsSnapshotTtl now) = some n →
      1 ≤ n ∧ n ≤ cfg.attemptsSnapshotTtlSeconds := by
    rintro _ ⟨⟩
    exact remainingMaxAge_le_ttl snapshot.createdAt now
  cases hmod : notModified tag snapshot.etag
  · simp only [attemptsResponse, hmod]
    exact ⟨rfl, rfl, rfl, fun _ => nofun, nofun, rfl, rfl, hage⟩
  · simp only [attemptsResponse, hmod]
    exact ⟨rfl, rfl, rfl, fun _ => nofun, nofun, rfl, rfl, hage⟩

theorem obeys_getInfo (metadata : Option (ℕ × ℕ)) (file : Option DotenvItems)
    (cache : Option CachedCanary) (r : ReqId) :
    (getInfo cfg metadata file cache).1.Obeys cfg (.info r) := by
  unfold getInfo
  dsimp only
  exact ⟨rfl, rfl, rfl, fun _ => nofun, nofun, rfl, rfl, fun _ => nofun⟩

/-- The answers with which an admission ends the request. -/
theorem admitEntry_obeys {info : RateLimitInfo} {candidate : CandidateTag} {t : ℤ} (r : ReqId)
    (h : (admitEntry cfg info candidate t).2 = .lockedOut response ∨
      (admitEntry cfg info candidate t).2 = .capacityExhausted response) :
    response.Obeys cfg (.fetch r) := by
  unfold admitEntry at h
  dsimp only at h
  repeat' split at h
  all_goals obtain h | h := h <;> cases h
  exact obeys_rateLimited _ _ _ r

theorem admitRequest_obeys {map : RateLimitMap} {id : String} {candidate : CandidateTag} {t : ℤ}
    (r : ReqId)
    (h : (admitRequest cfg map id candidate t).2 = .lockedOut response ∨
      (admitRequest cfg map id candidate t).2 = .capacityExhausted response) :
    response.Obeys cfg (.fetch r) := by
  unfold admitRequest at h
  dsimp only at h
  split at h
  · split at h
    · obtain h | h := h <;> cases h
      exact obeys_overloaded _ rfl
    · exact admitEntry_obeys r h
  · exact admitEntry_obeys r h

theorem enterMap_obeys {r : ReqId} {q : Lookup} {t : ℤ} (h : enterMap cfg s r q t = (s', os))
    (hm : .response call response ∈ os) : response.Obeys cfg call := by
  unfold enterMap at h
  dsimp only at h
  split at h <;> cases h
  · simp at hm
  · simp at hm
  · simp at hm
    obtain ⟨rfl, rfl⟩ := hm
    exact obeys_overloaded _ rfl
  · next ho =>
    simp at hm
    obtain ⟨rfl, rfl⟩ := hm
    exact admitRequest_obeys r (Or.inl ho)
  · next ho =>
    simp at hm
    obtain ⟨rfl, rfl⟩ := hm
    exact admitRequest_obeys r (Or.inr ho)
  · simp at hm

theorem fetchStep_obeys [BucketNumber F] {r : ReqId} {q : Lookup} {event : FetchEvent}
    (h : fetchStep cfg s r q event = some (s', os)) (hm : .response call response ∈ os) :
    response.Obeys cfg call := by
  cases event with
  | enter =>
    simp only [fetchStep] at h
    split at h
    · exact enterMap_obeys (Option.some.inj h) hm
    · cases h
  | takeToken | readClock | permit | removePending | query | finalize | loseTask | respond
  | cancel =>
    simp only [fetchStep, takeLookupToken, cancelFetch, dropGuard] at h
    repeat' split at h
    all_goals cases h
    all_goals simp at hm
    all_goals obtain ⟨rfl, rfl⟩ := hm
    all_goals first
      | exact obeys_overloaded _ rfl
      | exact obeys_lookupResponse _ _ _ r
      | exact obeys_error _ (Or.inr rfl) rfl

/-- What is refused before any state is touched. -/
theorem checkFetch_obeys {request : FetchSecret} (r : ReqId)
    (h : checkFetch P request = .error response) : response.Obeys cfg (.fetch r) := by
  unfold checkFetch at h
  dsimp only at h
  split at h <;> cases h
  exact obeys_error _ (Or.inl rfl) rfl

theorem checkStore_obeys {request : StoreSecret} (r : ReqId)
    (h : checkStore P cfg request = .error response) : response.Obeys cfg (.store r) := by
  unfold checkStore at h
  dsimp only at h
  split_ifs at h
  all_goals cases h
  all_goals exact obeys_error _ (Or.inl rfl) rfl

theorem storeStep_obeys [BucketNumber F] {r : ReqId} {phase : StorePhase} {event : StoreEvent}
    (h : storeStep P s r phase event = some (s', os)) (hm : .response call response ∈ os) :
    response.Obeys cfg call := by
  cases event <;> simp only [storeStep] at h
  all_goals repeat' split at h
  all_goals cases h
  all_goals simp at hm
  all_goals obtain ⟨rfl, rfl⟩ := hm
  all_goals first
    | exact obeys_overloaded _ rfl
    | exact obeys_storeResponse _ r

theorem attemptsStep_obeys [BucketNumber F] {r : ReqId} {phase : AttemptsPhase}
    {event : AttemptsEvent} (h : attemptsStep P cfg s r phase event = some (s', os))
    (hm : .response call response ∈ os) : response.Obeys cfg call := by
  cases event <;>
    simp only [attemptsStep, takeAttemptsToken, lockSnapshot, collectSnapshot, publishSnapshot] at h
  all_goals repeat' split at h
  all_goals cases h
  all_goals simp at hm
  all_goals obtain ⟨rfl, rfl⟩ := hm
  all_goals first
    | exact obeys_overloaded _ rfl
    | exact obeys_attemptsResponse _ _ _ r
    | exact obeys_error _ (Or.inr rfl) rfl

/-- Every answer of every step keeps to the contract. -/
theorem step_obeys [BucketNumber F] (h : step P cfg s event = some (s', os))
    (hm : .response call response ∈ os) : response.Obeys cfg call := by
  cases event with
  | fetchArrives r trash request =>
    simp only [step, fetchArrives] at h
    split at h
    · cases h
    · split at h
      · next hcheck =>
        cases h
        simp at hm
        obtain ⟨rfl, rfl⟩ := hm
        exact checkFetch_obeys r hcheck
      · split at h <;> cases h
        all_goals simp at hm
  | fetch r event =>
    simp only [step] at h
    split at h
    · exact fetchStep_obeys h hm
    · cases h
  | storeArrives r request =>
    simp only [step, storeArrives] at h
    split at h
    · cases h
    · split at h
      · next hcheck =>
        cases h
        simp at hm
        obtain ⟨rfl, rfl⟩ := hm
        exact checkStore_obeys r hcheck
      · cases h
        simp at hm
  | store r event =>
    simp only [step] at h
    split at h
    · exact storeStep_obeys h hm
    · cases h
  | attemptsArrives r ifNoneMatch =>
    simp only [step] at h
    split at h <;> cases h
    simp at hm
  | attempts r event =>
    simp only [step] at h
    split at h
    · exact attemptsStep_obeys h hm
    · cases h
  | info r metadata file =>
    cases h
    simp at hm
    obtain ⟨rfl, rfl⟩ := hm
    exact obeys_getInfo metadata file s.canaryCache r
  | sweep now =>
    cases h
    simp at hm

/-! ## One answer -/

/-- The answer an observation gives to a call. -/
def Obs.answer (call : Call) : Obs → Option Response
  | .response call' response => if call' = call then some response else none
  | _ => none

/-- The answers a call was given. -/
def answers (call : Call) (log : Log) : List Response := log.filterMap (Obs.answer call)

@[simp] theorem answers_nil (call : Call) : answers call [] = [] := rfl

@[simp] theorem answers_cons (call : Call) (o : Obs) (log : Log) :
    answers call (o :: log) = (o.answer call).toList ++ answers call log := by
  rw [answers, List.filterMap_cons]
  cases o.answer call <;> rfl

theorem answers_append (call : Call) (os log : Log) :
    answers call (os ++ log) = answers call os ++ answers call log :=
  List.filterMap_append

theorem mem_answers : response ∈ answers call log ↔ .response call response ∈ log := by
  rw [answers, List.mem_filterMap]
  constructor
  · rintro ⟨o, ho, ha⟩
    cases o with
    | response call' response' =>
      rw [Obs.answer] at ha
      split at ha
      · next hcall =>
        cases ha
        exact hcall ▸ ho
      · cases ha
    | admission | refunded | queried | finalized | taskLost | wrote | retained | cancelled
    | panicked => cases ha
  · intro ho
    exact ⟨_, ho, if_pos rfl⟩

/-- Where a call stands with its client. -/
inductive Standing
  | absent
  /-- The client waits for its answer. -/
  | waiting
  /-- The client has left, and something of the call goes on. -/
  | deserted
  | over
  deriving DecidableEq, Repr

def FetchPhase.standing : FetchPhase → Standing
  | .working _ client _ => if client then .waiting else .deserted
  | .deferred _ => .deserted
  | _ => .waiting

def StorePhase.standing : StorePhase → Standing
  | .writing _ client | .written client _ => if client then .waiting else .deserted
  | _ => .waiting

def AttemptsPhase.standing : AttemptsPhase → Standing
  | .orphaned _ => .deserted
  | _ => .waiting

def FetchCall.standing : FetchCall → Standing
  | .active q => q.phase.standing
  | .over => .over

def StoreCall.standing : StoreCall → Standing
  | .active phase => phase.standing
  | .over => .over

def AttemptsCall.standing : AttemptsCall → Standing
  | .active phase => phase.standing
  | .over => .over

def AppState.standing (s : AppState F) : Call → Standing
  | .fetch r => (s.fetches r).elim .absent FetchCall.standing
  | .store r => (s.stores r).elim .absent StoreCall.standing
  | .attempts r => (s.polls r).elim .absent AttemptsCall.standing
  | .info _ => .absent

@[simp] theorem standing_setFetch (s : AppState F) (r : ReqId) (call : FetchCall) :
    (s.setFetch r call).standing (.fetch r) = call.standing := by
  simp [AppState.standing]

@[simp] theorem standing_setStore (s : AppState F) (r : ReqId) (call : StoreCall) :
    (s.setStore r call).standing (.store r) = call.standing := by
  simp [AppState.standing]

@[simp] theorem standing_setPoll (s : AppState F) (r : ReqId) (call : AttemptsCall) :
    (s.setPoll r call).standing (.attempts r) = call.standing := by
  simp [AppState.standing, AppState.setPoll]

/-- The client of the call has left, or its handler panicked. -/
def Left (log : Log) (call : Call) : Prop := .cancelled call ∈ log ∨ .panicked call ∈ log

theorem Left.mono (os : Log) (h : Left log call) : Left (os ++ log) call :=
  h.imp (List.mem_append_right os) (List.mem_append_right os)

/-- The answers a call was given, by where it stands. -/
inductive AnswerTrace (left : Prop) : Standing → List Response → Prop
  | absent : AnswerTrace left .absent []
  | waiting : AnswerTrace left .waiting []
  | deserted (h : left) : AnswerTrace left .deserted []
  | left (h : left) : AnswerTrace left .over []
  | answered (response : Response) : AnswerTrace left .over [response]

theorem AnswerTrace.length_le {left : Prop} {standing : Standing} {word : List Response}
    (h : AnswerTrace left standing word) : word.length ≤ 1 := by
  cases h <;> simp

theorem AnswerTrace.mono {left left' : Prop} {standing : Standing} {word : List Response}
    (hl : left → left') (h : AnswerTrace left standing word) : AnswerTrace left' standing word := by
  cases h with
  | absent => exact .absent
  | waiting => exact .waiting
  | deserted h => exact .deserted (hl h)
  | left h => exact .left (hl h)
  | answered response => exact .answered response

/-- What a step of a call makes of where it stands, and the answers it gives. -/
inductive Turn (call : Call) (os : Log) : Standing → Standing → Prop
  | goesOn (standing : Standing) (h : answers call os = []) : Turn call os standing standing
  | arrives (h : answers call os = []) : Turn call os .absent .waiting
  | refuses (response : Response) (h : answers call os = [response]) : Turn call os .absent .over
  | answers (response : Response) (h : answers call os = [response]) : Turn call os .waiting .over
  | leaves (standing standing' : Standing) (h : answers call os = []) (hleft : Left os call)
      (hstanding : standing = .waiting ∨ standing = .absent)
      (hstanding' : standing' = .deserted ∨ standing' = .over) : Turn call os standing standing'
  | ends (h : answers call os = []) : Turn call os .deserted .over

theorem Turn.answerTrace {standing standing' : Standing} (h : Turn call os standing standing')
    (hs : AnswerTrace (Left log call) standing (RecoverBull.answers call log)) :
    AnswerTrace (Left (os ++ log) call) standing' (RecoverBull.answers call (os ++ log)) := by
  generalize hw : RecoverBull.answers call log = word at hs
  cases h with
  | goesOn _ h =>
    rw [answers_append, h, hw, List.nil_append]
    exact hs.mono (Left.mono os)
  | arrives h =>
    cases hs
    rw [answers_append, h, hw]
    exact .waiting
  | refuses response h | answers response h =>
    cases hs
    rw [answers_append, h, hw]
    exact .answered response
  | leaves _ _ h hleft hstanding hstanding' =>
    have hleft' : Left (os ++ log) call :=
      hleft.imp (List.mem_append_left log) (List.mem_append_left log)
    have hnil : word = [] := by
      obtain rfl | rfl := hstanding <;> cases hs <;> rfl
    rw [answers_append, h, hw, hnil]
    obtain rfl | rfl := hstanding'
    · exact .deserted hleft'
    · exact .left hleft'
  | ends h =>
    cases hs with
    | deserted hleft =>
      rw [answers_append, h, hw]
      exact .left (hleft.mono os)

section steps

variable [BucketNumber F]

/-- The one answer among what a step observes. -/
theorem answers_singleton (h : answers call os = []) :
    answers call (.response call response :: os) = [response] := by
  rw [answers_cons, h, Obs.answer, if_pos rfl]
  rfl

omit [BucketNumber F] in
theorem cancelFetch_turn {r : ReqId} {q : Lookup} {contended : Bool}
    (h : cancelFetch s r q contended = some (s', os)) :
    Turn (.fetch r) os q.phase.standing (s'.standing (.fetch r)) := by
  unfold cancelFetch dropGuard at h
  split at h
  all_goals first
    | cases h; done
    | next hp =>
      rw [hp]
      repeat' split at h
      all_goals cases h
      all_goals rw [standing_setFetch]
      all_goals first
        | exact .leaves _ _ rfl (Or.inl (by simp)) (Or.inl rfl) (Or.inl rfl)
        | exact .leaves _ _ rfl (Or.inl (by simp)) (Or.inl rfl) (Or.inr rfl)

omit [BucketNumber F] in
theorem enterMap_turn {r : ReqId} {q : Lookup} {t : ℤ} (h : enterMap cfg s r q t = (s', os)) :
    Turn (.fetch r) os .waiting (s'.standing (.fetch r)) := by
  unfold enterMap at h
  dsimp only at h
  split at h <;> cases h
  all_goals rw [standing_setFetch]
  · exact .goesOn _ rfl
  · exact .goesOn _ rfl
  · exact .answers _ (answers_singleton rfl)
  · exact .answers _ (answers_singleton rfl)
  · exact .answers _ (answers_singleton rfl)
  · exact .leaves _ _ rfl (Or.inr List.mem_cons_self) (Or.inl rfl) (Or.inr rfl)

theorem fetchStep_turn {r : ReqId} {q : Lookup} {event : FetchEvent}
    (h : fetchStep cfg s r q event = some (s', os)) :
    Turn (.fetch r) os q.phase.standing (s'.standing (.fetch r)) := by
  cases event with
  | cancel contended => exact cancelFetch_turn h
  | enter =>
    simp only [fetchStep] at h
    split at h
    · next t hp =>
      rw [hp]
      exact enterMap_turn (Option.some.inj h)
    · cases h
  | takeToken | readClock | permit | removePending | query | finalize | loseTask | respond =>
    simp only [fetchStep, takeLookupToken] at h
    split at h
    all_goals first
      | cases h; done
      | next hp =>
        rw [hp]
        repeat' split at h
        all_goals cases h
        all_goals rw [standing_setFetch]
        all_goals first
          | exact .goesOn _ rfl
          | exact .answers _ (answers_singleton rfl)
          | exact .ends rfl

theorem storeStep_turn {r : ReqId} {phase : StorePhase} {event : StoreEvent}
    (h : storeStep P s r phase event = some (s', os)) :
    Turn (.store r) os phase.standing (s'.standing (.store r)) := by
  cases event <;> simp only [storeStep] at h
  all_goals repeat' split at h
  all_goals cases h
  all_goals rw [standing_setStore]
  all_goals first
    | exact .goesOn _ rfl
    | exact .answers _ (answers_singleton rfl)
    | exact .leaves _ _ rfl (Or.inl List.mem_cons_self) (Or.inl rfl) (Or.inl rfl)
    | exact .leaves _ _ rfl (Or.inl List.mem_cons_self) (Or.inl rfl) (Or.inr rfl)

theorem attemptsStep_turn {r : ReqId} {phase : AttemptsPhase} {event : AttemptsEvent}
    (h : attemptsStep P cfg s r phase event = some (s', os)) :
    Turn (.attempts r) os phase.standing (s'.standing (.attempts r)) := by
  cases event <;>
    simp only [attemptsStep, takeAttemptsToken, lockSnapshot, collectSnapshot, publishSnapshot,
      releaseSnapshot] at h
  all_goals repeat' split at h
  all_goals cases h
  all_goals rw [standing_setPoll]
  all_goals first
    | exact .goesOn _ rfl
    | exact .answers _ (answers_singleton rfl)
    | exact .leaves _ _ rfl (Or.inl List.mem_cons_self) (Or.inl rfl) (Or.inl rfl)
    | exact .leaves _ _ rfl (Or.inl List.mem_cons_self) (Or.inl rfl) (Or.inr rfl)
    | exact .leaves _ _ rfl (Or.inr List.mem_cons_self) (Or.inl rfl) (Or.inr rfl)
    | exact .ends rfl

/-- A step answers no call but its own. -/
theorem answers_of_ne (h : step P cfg s event = some (s', os)) (hne : event.call ≠ some call) :
    answers call os = [] := by
  refine List.eq_nil_iff_forall_not_mem.mpr fun response hm => ?_
  obtain hcall | hnone := step_call h _ (mem_answers.mp hm)
  · exact hne hcall.symm
  · cases hnone

theorem step_standing_of_ne (h : step P cfg s event = some (s', os)) (hne : event.call ≠ some call) :
    s'.standing call = s.standing call := by
  have hsame := step_sameCall h hne
  cases call with
  | fetch r | store r | attempts r =>
    simp only [AppState.standing]
    rw [hsame]
  | info r => rfl

/-- Every step of a call turns it as `Turn` says. -/
theorem step_turn (h : step P cfg s event = some (s', os)) (hcall : event.call = some call)
    (hinfo : ∀ r, call ≠ .info r) : Turn call os (s.standing call) (s'.standing call) := by
  cases event with
  | fetchArrives r trash request =>
    cases hcall
    simp only [step, fetchArrives] at h
    split at h
    · cases h
    · next hfree =>
      rw [AppState.standing, Option.not_isSome_iff_eq_none.mp hfree]
      repeat' split at h
      all_goals cases h
      all_goals rw [standing_setFetch]
      · exact .refuses _ (answers_singleton rfl)
      · exact .leaves _ _ rfl (Or.inr List.mem_cons_self) (Or.inr rfl) (Or.inr rfl)
      · exact .arrives rfl
  | fetch r event =>
    cases hcall
    simp only [step] at h
    split at h
    · next q hq =>
      rw [AppState.standing, hq]
      exact fetchStep_turn h
    · cases h
  | storeArrives r request =>
    cases hcall
    simp only [step, storeArrives] at h
    split at h
    · cases h
    · next hfree =>
      rw [AppState.standing, Option.not_isSome_iff_eq_none.mp hfree]
      split at h <;> cases h
      all_goals rw [standing_setStore]
      · exact .refuses _ (answers_singleton rfl)
      · exact .arrives rfl
  | store r event =>
    cases hcall
    simp only [step] at h
    split at h
    · next phase hp =>
      rw [AppState.standing, hp]
      exact storeStep_turn h
    · cases h
  | attemptsArrives r tag =>
    cases hcall
    simp only [step] at h
    split at h
    · cases h
    · next hfree =>
      rw [AppState.standing, Option.not_isSome_iff_eq_none.mp hfree]
      cases h
      rw [standing_setPoll]
      exact .arrives rfl
  | attempts r event =>
    cases hcall
    simp only [step] at h
    split at h
    · next phase hp =>
      rw [AppState.standing, hp]
      exact attemptsStep_turn h
    · cases h
  | info r metadata file => exact absurd (Option.some.inj hcall).symm (hinfo r)
  | sweep now => cases hcall

/-- Along every run, a call was given the answers that go with where it stands. -/
theorem Served.answerTrace (h : Served P cfg log s) (hinfo : ∀ r, call ≠ .info r) :
    AnswerTrace (Left log call) (s.standing call) (answers call log) := by
  refine h.invariant
    (fun log s => AnswerTrace (Left log call) (s.standing call) (answers call log)) ?_ ?_
  · intro secrets b₁ b₂ b₃
    cases call <;> exact .absent
  · intro log s event s' os _ hi he
    by_cases hcall : event.call = some call
    · exact (step_turn he hcall hinfo).answerTrace hi
    · rw [step_standing_of_ne he hcall, answers_append, answers_of_ne he hcall, List.nil_append]
      exact hi.mono (Left.mono os)

theorem Served.obeys (h : Served P cfg log s) (hm : response ∈ answers call log) :
    response.Obeys cfg call := by
  have hall : ∀ response ∈ answers call log, response.Obeys cfg call := by
    refine h.invariant (fun log _ => ∀ response ∈ answers call log, response.Obeys cfg call)
      (fun _ _ _ _ => by simp) fun log s event s' os _ hi he response hm => ?_
    rw [answers_append, List.mem_append] at hm
    obtain hm | hm := hm
    · exact step_obeys he (mem_answers.mp hm)
    · exact hi response hm
  exact hall response hm

/-! ## No panic -/

/-- An accepted identifier has a hash. -/
theorem identifierHash_of_checkFetch {request : FetchSecret} {i k : String}
    (h : checkFetch P request = .ok (i, k)) : (identifierHash P i).isSome = true := by
  obtain ⟨⟨hi, -⟩, rfl, -⟩ := checkFetch_eq_ok_iff.mp h
  obtain ⟨bytes, -, he⟩ := hi.identifierHash (P := P)
  rw [he]
  rfl

omit [BucketNumber F] in
theorem fetchArrives_not_panicked {r : ReqId} {trash : Bool} {request : FetchSecret}
    (h : fetchArrives P s r trash request = some (s', os)) : .panicked call ∉ os := by
  intro hm
  unfold fetchArrives at h
  split at h
  · cases h
  · split at h
    · cases h
      simp at hm
    · next hcheck =>
      have hsome := identifierHash_of_checkFetch hcheck
      split at h
      · next hnone =>
        rw [hnone] at hsome
        cases hsome
      · cases h
        simp at hm

/-- The one panic of a lookup in flight would be that of its admission. -/
theorem fetchStep_panicked {r : ReqId} {q : Lookup} {event : FetchEvent}
    (h : fetchStep cfg s r q event = some (s', os)) (hm : .panicked call ∈ os) :
    ∃ record, .admission r record ∈ os ∧ record.outcome = .panicked := by
  cases event with
  | enter =>
    simp only [fetchStep] at h
    split at h
    · simp only [enterMap] at h
      split at h <;> cases h
      all_goals first
        | (simp at hm; done)
        | exact ⟨_, List.mem_cons_of_mem _ List.mem_cons_self, ‹_›⟩
    · cases h
  | takeToken | readClock | permit | removePending | query | finalize | loseTask | respond
  | cancel =>
    simp only [fetchStep, takeLookupToken, cancelFetch, dropGuard] at h
    repeat' split at h
    all_goals cases h
    all_goals simp at hm

/-- What could panic: an admission, or the scan for a snapshot. -/
theorem step_panicked (h : step P cfg s event = some (s', os)) (hm : .panicked call ∈ os) :
    (∃ r record, .admission r record ∈ os ∧ record.outcome = .panicked) ∨
      ∃ r, call = .attempts r := by
  cases event with
  | fetchArrives r trash request => exact absurd hm (fetchArrives_not_panicked h)
  | fetch r event =>
    simp only [step] at h
    split at h
    · exact Or.inl ⟨r, fetchStep_panicked h hm⟩
    · cases h
  | attempts r event =>
    obtain hcall | hnone := step_call h _ hm
    · exact Or.inr ⟨r, Option.some.inj hcall⟩
    · cases hnone
  | store r event =>
    simp only [step] at h
    split at h
    · cases event <;> simp only [storeStep] at h
      all_goals repeat' split at h
      all_goals cases h
      all_goals simp at hm
    · cases h
  | storeArrives | attemptsArrives | info | sweep =>
    simp only [step, storeArrives] at h
    repeat' split at h
    all_goals cases h
    all_goals simp at hm

/-- **No request panics.** -/
theorem Served.no_panic (h : Served P cfg log s) (call : Call) : .panicked call ∉ log := by
  by_cases hpoll : ∃ r, call = .attempts r
  · obtain ⟨r, rfl⟩ := hpoll
    exact h.not_panicked r
  · refine h.invariant (fun log _ => .panicked call ∉ log) (fun _ _ _ _ => List.not_mem_nil)
      fun log s event s' os hs hi he hm => ?_
    obtain hm | hm := List.mem_append.mp hm
    · obtain ⟨r, record, hadm, hout⟩ | hcall := step_panicked he hm
      · exact ((hs.step he).admissionSpec (List.mem_append_left _ hadm)).not_panicked hout
      · exact hpoll hcall
    · exact hi hm

end steps

/-- A client that waits has steps to wait for. -/
theorem FetchPhase.work_of_waiting {phase : FetchPhase} (h : phase.standing = .waiting) :
    phase.work ≠ 0 := by
  cases phase with
  | working a client task =>
    cases client with
    | true => cases task <;> simp [work, Task.work]
    | false => cases h
  | deferred a => cases h
  | bucket | clock | mapLock | permit | refund | lostRefund => simp [work]

theorem StorePhase.work_of_waiting {phase : StorePhase} (h : phase.standing = .waiting) :
    phase.work ≠ 0 := by
  cases phase with
  | writing key client | written client isStored =>
    cases client with
    | true => simp [work]
    | false => cases h
  | bucket | clock | permit => simp [work]

/-- At rest nobody waits. -/
theorem AppState.AtRest.not_waiting (h : s.AtRest) (call : Call) : s.standing call ≠ .waiting := by
  intro hwaits
  have hzero := h call
  cases call with
  | fetch r =>
    rcases hf : s.fetches r with _ | q | _
    all_goals simp only [AppState.standing, AppState.work, hf, Option.elim] at hwaits hzero
    · cases hwaits
    · exact FetchPhase.work_of_waiting hwaits hzero
    · cases hwaits
  | store r =>
    rcases hst : s.stores r with _ | phase | _
    all_goals simp only [AppState.standing, AppState.work, hst, Option.elim] at hwaits hzero
    · cases hwaits
    · exact StorePhase.work_of_waiting hwaits hzero
    · cases hwaits
  | attempts r =>
    rcases hp : s.polls r with _ | phase | _
    all_goals simp only [AppState.standing, AppState.work, hp, Option.elim] at hwaits hzero
    · cases hwaits
    · cases phase <;> cases hzero
    · cases hwaits
  | info r => cases hwaits

variable [BucketNumber F]

/-- **The API contract**, in every run: every answer keeps to it, no request is answered
twice or panics, and when the server has come to rest every request whose client did
not leave was answered. -/
theorem api_contract (P : Primitives) (cfg : Config) {log : Log} {s : AppState F}
    (h : Served P cfg log s) :
    (∀ call response, .response call response ∈ log → response.Obeys cfg call) ∧
    (∀ call, (∀ r, call ≠ .info r) → (answers call log).length ≤ 1) ∧
    (∀ call, .panicked call ∉ log) ∧
    (s.AtRest → ∀ call, s.standing call ≠ .absent → .cancelled call ∉ log →
      (answers call log).length = 1) := by
  refine ⟨fun call response hm => h.obeys (mem_answers.mpr hm), fun call hinfo =>
    (h.answerTrace hinfo).length_le, h.no_panic, fun hrest call hmade hstay => ?_⟩
  have hinfo : ∀ r, call ≠ .info r := by
    rintro r rfl
    exact hmade rfl
  have hstayed : ¬Left log call := fun hleft => hleft.elim hstay (h.no_panic call)
  have htrace := h.answerTrace hinfo
  generalize hw : answers call log = word at htrace
  generalize hst : s.standing call = standing at htrace
  cases htrace with
  | absent => exact absurd hst hmade
  | waiting => exact absurd hst (hrest.not_waiting call)
  | deserted hleft | left hleft => exact absurd hleft hstayed
  | answered response => rfl

/-- A lookup and a store that have come to their end. -/
theorem api_contract_sample :
    ∃ (log : Log) (s : AppState ℚ), Served .sample .sample log s ∧ s.AtRest ∧
      (answers (.fetch 0) log).length = 1 ∧ (answers (.store 1) log).length = 1 := by
  let request : StoreSecret := ⟨sampleIdentifier, sampleKey, "AAAA"⟩
  let events : List Event := .fetchArrives 0 false ⟨sampleIdentifier, sampleKey⟩ ::
    .storeArrives 1 request :: ((sampleAdmission 0 false ⟨sampleIdentifier, sampleKey⟩ 0).tail ++
      (sampleCompletion 0 ++ (sampleStore 1 request).tail))
  have hrun : (run .sample .sample AppState.sample events).any (fun u => decide
      (u.1.work (.fetch 0) = 0 ∧ u.1.work (.store 1) = 0 ∧ u.1.standing (.fetch 0) ≠ .absent ∧
        u.1.standing (.store 1) ≠ .absent ∧ .cancelled (.fetch 0) ∉ u.2 ∧
        .cancelled (.store 1) ∉ u.2)) = true := by
    rw [run_sampleKey, run_sampleStore rfl (by decide) (by decide +kernel)]
    decide +kernel
  have hcalls : ∀ event ∈ events, event.call = some (.fetch 0) ∨ event.call = some (.store 1) := by
    simp [events, sampleAdmission, sampleCompletion, sampleStore, Event.call]
  obtain ⟨⟨s, log⟩, hr, hall⟩ := (Option.any_eq_true _ _).mp hrun
  obtain ⟨hfetch, hstore, hmade, hmade', hstay, hstay'⟩ := of_decide_eq_true hall
  have hrest : s.AtRest := by
    intro call
    by_cases hf : call = .fetch 0
    · rw [hf]
      exact hfetch
    · by_cases hst : call = .store 1
      · rw [hst]
        exact hstore
      · refine work_of_not_called hr fun event he hcall => ?_
        obtain h | h := hcalls event he
        · exact hf (Option.some.inj (hcall.symm.trans h))
        · exact hst (Option.some.inj (hcall.symm.trans h))
  have hs : Served .sample .sample log s := ⟨_, _, _, _, events, hr⟩
  obtain ⟨-, -, -, honce⟩ := api_contract .sample .sample hs
  exact ⟨log, s, hs, hrest, honce hrest _ hmade hstay, honce hrest _ hmade' hstay'⟩

end RecoverBull
