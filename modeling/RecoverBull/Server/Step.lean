import RecoverBull.Server.State
import RecoverBull.Lib.Machine

/-!
# The steps of the server

One step is one critical section of one party, or a stretch of a handler between
two await points. Everything the scheduler, the clocks, the clients and SQLite
decide is in the event.
-/

namespace RecoverBull

variable {F : Type} [BucketNumber F]

/-! ## `/fetch` and `/trash` -/

/-- The blocking closure: connect, then read or read and trash. -/
def runLookup (table : SecretTable) (isTrashingSecret : Bool) (key : CandidateTag) :
    DbOutcome → LookupResult × SecretTable
  | .panics => (.failed .join, table)
  | .fails => (.failed (.database .other), table)
  | .runs =>
    if isTrashingSecret then
      match table.readAndTrashSecretById key with
      | (.ok (some secret), table) => (.hit secret, table)
      | (.ok none, table) => (.miss, table)
      | (.error error, table) => (.failed (.database error), table)
    else
      match table.readSecretById key with
      | some secret => (.hit secret, table)
      | none => (.miss, table)

/-- The response of `fetch_secret` once the task returned. -/
def lookupResponse (cfg : Config) (isTrashingSecret : Bool) (admitted : Admitted) :
    LookupResult → Response
  | .hit secret =>
    { status := if isTrashingSecret then .accepted else .ok
      body := .secret secret admitted.status }
  | .miss =>
    { status := .unauthorized
      body := .failedAttempt "Invalid identifier/authentication_key" admitted.requestedAt
        (numMinutes cfg.rateLimitCooldown) admitted.status.totalAttempts
        admitted.status.totalRequests }
  | .failed _ => internalServerError

def databaseBusy : Response := overloaded "Database busy, retry later"

/-- The start of `fetch_secret`: canonicalization and validation. -/
def fetchArrives (P : Primitives) (s : AppState F) (r : ReqId) (isTrashingSecret : Bool)
    (request : FetchSecret) : Option (AppState F × Log) :=
  if (s.fetches r).isSome then none
  else
    match checkFetch P request with
    | .error response => some (s.setFetch r .over, [.response (.fetch r) response])
    | .ok (identifier, authenticationKey) =>
      match identifierHash P identifier with
      | none => some (s.setFetch r .over, [.panicked (.fetch r)])
      | some idHash =>
        let candidate := generateSecretId P identifier authenticationKey
        some (s.setFetch r (.active ⟨isTrashingSecret, idHash, candidate, .bucket⟩), [])

def takeLookupToken (s : AppState F) (r : ReqId) (q : Lookup) (now : ℕ) :
    AppState F × Log :=
  let (admitted, bucket) := s.lookupTokenBucket.tryConsume now
  let s := { s with lookupTokenBucket := bucket }
  if admitted then (s.setFetch r (.active { q with phase := .clock }), [])
  else
    (s.setFetch r .over,
      [.response (.fetch r) (overloaded "Too many lookup requests, retry later")])

/-- The admission critical section and the returns right after it. -/
def enterMap (cfg : Config) (s : AppState F) (r : ReqId) (q : Lookup) (requestedAt : ℤ) :
    AppState F × Log :=
  let record := admissionRecord cfg s.identifierRateLimit q.idHash q.candidate requestedAt
  let s := s.setMap (admitRequest cfg s.identifierRateLimit q.idHash q.candidate requestedAt).1
  let admission := Obs.admission r record
  match record.outcome with
  | .admitted (.new status generation) =>
    (s.setFetch r (.active { q with phase := .permit ⟨requestedAt, status, generation, true⟩ }),
      [admission])
  | .admitted (.replay status generation) =>
    (s.setFetch r (.active { q with phase := .permit ⟨requestedAt, status, generation, false⟩ }),
      [admission])
  | .admitted .pending =>
    (s.setFetch r .over,
      [.response (.fetch r) (overloaded "Candidate lookup pending, retry later"), admission])
  | .lockedOut response => (s.setFetch r .over, [.response (.fetch r) response, admission])
  | .capacityExhausted response => (s.setFetch r .over, [.response (.fetch r) response, admission])
  | .panicked => (s.setFetch r .over, [.panicked (.fetch r), admission])

/-- `remove_pending` for the reservation of a request, under the map lock. -/
def refundReservation (s : AppState F) (q : Lookup) (a : Admitted) : AppState F :=
  s.setMap (removePending s.identifierRateLimit q.idHash q.candidate a.generation)

/-- `Drop` of an armed guard: it refunds at once, or from a task it spawns when
the map lock is held. -/
def dropGuard (s : AppState F) (r : ReqId) (q : Lookup) (a : Admitted) (contended : Bool) :
    AppState F × Log :=
  if contended then
    (s.setFetch r (.active { q with phase := .deferred a }), [.cancelled (.fetch r)])
  else ((refundReservation s q a).setFetch r .over, [.refunded r, .cancelled (.fetch r)])

/-- The client leaves and the handler is dropped at its await point. -/
def cancelFetch (s : AppState F) (r : ReqId) (q : Lookup) (contended : Bool) :
    Option (AppState F × Log) :=
  match q.phase with
  | .bucket | .mapLock _ | .lostRefund _ => some (s.setFetch r .over, [.cancelled (.fetch r)])
  | .permit a =>
    if a.isNew then some (dropGuard s r q a contended)
    else some (s.setFetch r .over, [.cancelled (.fetch r)])
  | .refund a => some (dropGuard s r q a contended)
  -- The detached task goes on without its client.
  | .working a true task =>
    some (s.setFetch r (.active { q with phase := .working a false task }),
      [.cancelled (.fetch r)])
  | _ => none

def fetchStep (cfg : Config) (s : AppState F) (r : ReqId) (q : Lookup) :
    FetchEvent → Option (AppState F × Log)
  | .takeToken now =>
    match q.phase with
    | .bucket => some (takeLookupToken s r q now)
    | _ => none
  | .readClock now =>
    match q.phase with
    | .clock => some (s.setFetch r (.active { q with phase := .mapLock now }), [])
    | _ => none
  | .enter =>
    match q.phase with
    | .mapLock requestedAt => some (enterMap cfg s r q requestedAt)
    | _ => none
  | .permit granted =>
    match q.phase with
    | .permit a =>
      if granted then
        some (s.setFetch r (.active { q with phase := .working a true .blocking }), [])
      -- No permit within the timeout: a new reservation is given back before the response.
      else if a.isNew then some (s.setFetch r (.active { q with phase := .refund a }), [])
      else some (s.setFetch r .over, [.response (.fetch r) databaseBusy])
    | _ => none
  | .removePending =>
    match q.phase with
    | .refund a =>
      some ((refundReservation s q a).setFetch r .over,
        [.response (.fetch r) databaseBusy, .refunded r])
    -- The guard was disarmed when the task took over, so the handler itself refunds.
    | .lostRefund a =>
      some ((refundReservation s q a).setFetch r .over,
        [.response (.fetch r) internalServerError, .refunded r])
    -- The task that `Drop` spawned where the map lock was held.
    | .deferred a => some ((refundReservation s q a).setFetch r .over, [.refunded r])
    | _ => none
  | .query outcome =>
    match q.phase with
    | .working a client .blocking =>
      let (result, table) := runLookup s.secrets q.isTrashingSecret q.candidate outcome
      let call := FetchCall.active { q with phase := .working a client (.finalizing result) }
      some
        ({ s with secrets := table }.setFetch r call,
          [.queried r q.isTrashingSecret q.candidate outcome result])
    | _ => none
  | .finalize =>
    match q.phase with
    | .working a client (.finalizing result) =>
      let call := FetchCall.active { q with phase := .working a client (.finished result) }
      if a.isNew then
        let map := finalize s.identifierRateLimit q.idHash q.candidate a.generation result
        some ((s.setMap map).setFetch r call, [.finalized r result])
      else some (s.setFetch r call, [])
    | _ => none
  | .loseTask =>
    match q.phase with
    | .working a client .blocking | .working a client (.finalizing _) =>
      some (s.setFetch r (.active { q with phase := .working a client .lost }), [.taskLost r])
    | _ => none
  | .respond =>
    match q.phase with
    | .working a true (.finished result) =>
      some (s.setFetch r .over,
        [.response (.fetch r) (lookupResponse cfg q.isTrashingSecret a result)])
    | .working a true .lost =>
      if a.isNew then some (s.setFetch r (.active { q with phase := .lostRefund a }), [])
      else some (s.setFetch r .over, [.response (.fetch r) internalServerError])
    | _ => none
  | .cancel contended => cancelFetch s r q contended

/-! ## `/store` -/

def storeArrives (P : Primitives) (cfg : Config) (s : AppState F) (r : ReqId)
    (request : StoreSecret) : Option (AppState F × Log) :=
  if (s.stores r).isSome then none
  else
    match checkStore P cfg request with
    | .error response => some (s.setStore r .over, [.response (.store r) response])
    | .ok (identifier, authenticationKey) =>
      let secretId := generateSecretId P identifier authenticationKey
      some (s.setStore r (.active (.bucket secretId request.encryptedSecret)), [])

/-- The blocking closure of a store: `is_stored`, or `none` for a panic. -/
def runWrite (table : SecretTable) (key : Secret) : DbOutcome → Option Bool × SecretTable
  | .panics => (none, table)
  | .fails => (some false, table)
  | .runs => (some true, table.write key)

def storeResponse : Option Bool → Response
  | some true => { status := .created, body := .null }
  | some false | none => internalServerError

def storeStep (P : Primitives) (s : AppState F) (r : ReqId) (phase : StorePhase) :
    StoreEvent → Option (AppState F × Log)
  | .takeToken now =>
    match phase with
    | .bucket secretId encryptedSecret =>
      let (admitted, bucket) := s.storeTokenBucket.tryConsume now
      let s := { s with storeTokenBucket := bucket }
      if admitted then some (s.setStore r (.active (.clock secretId encryptedSecret)), [])
      else
        some (s.setStore r .over,
          [.response (.store r) (overloaded "Too many store requests, retry later")])
    | _ => none
  | .readClock now =>
    match phase with
    | .clock secretId encryptedSecret =>
      let key : Secret := ⟨secretId, P.toRfc3339 now, encryptedSecret⟩
      some (s.setStore r (.active (.permit key)), [])
    | _ => none
  | .permit granted =>
    match phase with
    | .permit key =>
      if granted then some (s.setStore r (.active (.writing key true)), [])
      else some (s.setStore r .over, [.response (.store r) databaseBusy])
    | _ => none
  | .write outcome =>
    match phase with
    | .writing key client =>
      let (isStored, table) := runWrite s.secrets key outcome
      some ({ s with secrets := table }.setStore r (.active (.written client isStored)),
        [.wrote r key outcome])
    | _ => none
  | .respond =>
    match phase with
    | .written true isStored =>
      some (s.setStore r .over, [.response (.store r) (storeResponse isStored)])
    | _ => none
  | .cancel =>
    match phase with
    | .bucket _ _ | .permit _ => some (s.setStore r .over, [.cancelled (.store r)])
    | .writing key true =>
      -- Dropping the handle does not stop a closure handed to the blocking pool.
      some (s.setStore r (.active (.writing key false)), [.cancelled (.store r)])
    | .written true isStored =>
      some (s.setStore r (.active (.written false isStored)), [.cancelled (.store r)])
    | _ => none

/-! ## `/attempts` -/

/-- The end of the request that holds the snapshot lock. -/
def releaseSnapshot (s : AppState F) (r : ReqId) (call : AttemptsCall) : AppState F :=
  { s with snapshotHolder := none }.setPoll r call

def takeAttemptsToken (s : AppState F) (r : ReqId) (ifNoneMatch : Option String) (now : ℕ) :
    AppState F × Log :=
  let (admitted, bucket) := s.attemptsTokenBucket.tryConsume now
  let s := { s with attemptsTokenBucket := bucket }
  if admitted then (s.setPoll r (.active (.snapshotLock ifNoneMatch)), [])
  else
    (s.setPoll r .over,
      [.response (.attempts r) (overloaded "Too many attempts telemetry requests, retry later")])

/-- Under the snapshot lock: answer from a fresh snapshot, or start a build. -/
def lockSnapshot (cfg : Config) (s : AppState F) (r : ReqId) (ifNoneMatch : Option String)
    (now : ℕ) (utc : ℤ) (later : ℕ) : Option (AppState F × Log) :=
  if s.snapshotHolder.isSome then none
  else
    match s.attemptsSnapshot.filter fun snapshot => !isStale cfg snapshot now with
    | some snapshot =>
      some (s.setPoll r .over,
        [.response (.attempts r) (attemptsResponse cfg snapshot ifNoneMatch later)])
    | none =>
      some ({ s with snapshotHolder := some r }.setPoll r (.active (.mapLock ifNoneMatch utc)), [])

/-- Under the map lock: drop the expired entries and collect the others. -/
def collectSnapshot (cfg : Config) (s : AppState F) (r : ReqId) (ifNoneMatch : Option String)
    (now : ℤ) (order : IterationOrder) : AppState F × Log :=
  let map := retainWithinCooldown cfg now s.identifierRateLimit
  let s := s.setMap map
  match collectEntries order map with
  | none => (releaseSnapshot s r .over, [.panicked (.attempts r), .retained now])
  | some entries =>
    (s.setPoll r (.active (.compressing ifNoneMatch (snapshotPayload cfg entries))),
      [.retained now])

/-- The handler resumes with the built snapshot. -/
def publishSnapshot (cfg : Config) (s : AppState F) (r : ReqId) (ifNoneMatch : Option String)
    (now : ℕ) : BuildResult → AppState F × Log
  | .built snapshot =>
    (releaseSnapshot { s with attemptsSnapshot := some snapshot } r .over,
      [.response (.attempts r) (attemptsResponse cfg snapshot ifNoneMatch now)])
  | .failed => (releaseSnapshot s r .over, [.response (.attempts r) internalServerError])

def attemptsStep (P : Primitives) (cfg : Config) (s : AppState F) (r : ReqId)
    (phase : AttemptsPhase) : AttemptsEvent → Option (AppState F × Log)
  | .takeToken now =>
    match phase with
    | .bucket ifNoneMatch => some (takeAttemptsToken s r ifNoneMatch now)
    | _ => none
  | .lockSnapshot now utc later =>
    match phase with
    | .snapshotLock ifNoneMatch => lockSnapshot cfg s r ifNoneMatch now utc later
    | _ => none
  | .collect order =>
    match phase with
    | .mapLock ifNoneMatch now => some (collectSnapshot cfg s r ifNoneMatch now order)
    | _ => none
  | .compress succeeds createdAt =>
    match phase with
    | .compressing ifNoneMatch payload =>
      let result := if succeeds then .built (compressSnapshot P payload createdAt) else .failed
      some (s.setPoll r (.active (.built ifNoneMatch result)), [])
    | .orphaned _ => some (s.setPoll r .over, [])
    | _ => none
  | .publish now =>
    match phase with
    | .built ifNoneMatch result => some (publishSnapshot cfg s r ifNoneMatch now result)
    | _ => none
  | .cancel =>
    match phase with
    | .bucket _ | .snapshotLock _ => some (s.setPoll r .over, [.cancelled (.attempts r)])
    -- Dropping the handler drops its snapshot guard.
    | .mapLock _ _ | .built _ _ =>
      some (releaseSnapshot s r .over, [.cancelled (.attempts r)])
    -- The blocking job goes on, and nobody waits for what it builds.
    | .compressing _ payload =>
      some (releaseSnapshot s r (.active (.orphaned payload)), [.cancelled (.attempts r)])
    | .orphaned _ => none

/-! ## The server -/

def step (P : Primitives) (cfg : Config) (s : AppState F) : Event → Option (AppState F × Log)
  | .fetchArrives r isTrashingSecret request => fetchArrives P s r isTrashingSecret request
  | .fetch r event =>
    match s.fetches r with
    | some (.active q) => fetchStep cfg s r q event
    | _ => none
  | .storeArrives r request => storeArrives P cfg s r request
  | .store r event =>
    match s.stores r with
    | some (.active phase) => storeStep P s r phase event
    | _ => none
  | .attemptsArrives r ifNoneMatch =>
    if (s.polls r).isSome then none
    else some (s.setPoll r (.active (.bucket ifNoneMatch)), [])
  | .attempts r event =>
    match s.polls r with
    | some (.active phase) => attemptsStep P cfg s r phase event
    | _ => none
  | .info r metadata file =>
    let (response, cache) := getInfo cfg metadata file s.canaryCache
    some ({ s with canaryCache := cache }, [.response (.info r) response])
  | .sweep now =>
    some (s.setMap (sweepExpiredIdentifiers cfg now s.identifierRateLimit), [.retained now])

/-- The server run over a schedule. -/
def run (P : Primitives) (cfg : Config) (s : AppState F) (events : List Event) :
    Option (AppState F × Log) :=
  Machine.run (step P cfg) s events

/-- `s` is reached from `s₀` with the log `log`. -/
def Reaches (P : Primitives) (cfg : Config) (s₀ : AppState F) (log : Log) (s : AppState F) : Prop :=
  ∃ events, run P cfg s₀ events = some (s, log)

/-- `s` and `log` are those of a server started on some table and some buckets. -/
def Served (P : Primitives) (cfg : Config) (log : Log) (s : AppState F) : Prop :=
  ∃ secrets b₁ b₂ b₃, Reaches P cfg (.init secrets b₁ b₂ b₃) log s

variable {P : Primitives} {cfg : Config}

theorem run_append (s : AppState F) (events events' : List Event) :
    run P cfg s (events ++ events') =
      (run P cfg s events).bind fun u => (run P cfg u.1 events').map fun v => (v.1, v.2 ++ u.2) :=
  Machine.run_append s events events'

/-- The arrival of an accepted lookup. -/
theorem run_fetchArrives {request : FetchSecret} {identifier key idHash : String}
    (hcheck : checkFetch P request = .ok (identifier, key))
    (hid : identifierHash P identifier = some idHash) (s : AppState F) (r : ReqId)
    (isTrashingSecret : Bool) (events : List Event) :
    run P cfg s (.fetchArrives r isTrashingSecret request :: events) =
      if (s.fetches r).isSome then none
      else
        run P cfg
          (s.setFetch r
            (.active ⟨isTrashingSecret, idHash, generateSecretId P identifier key, .bucket⟩))
          events := by
  rw [run, Machine.run, RecoverBull.step, fetchArrives]
  by_cases hs : (s.fetches r).isSome = true
  · rw [if_pos hs, if_pos hs]
  · rw [if_neg hs, if_neg hs, hcheck]
    dsimp only
    rw [hid]
    simp [run]

/-- The arrival of an accepted store. -/
theorem run_storeArrives {request : StoreSecret} {identifier key : String}
    (hcheck : checkStore P cfg request = .ok (identifier, key)) (s : AppState F) (r : ReqId)
    (events : List Event) :
    run P cfg s (.storeArrives r request :: events) =
      if (s.stores r).isSome then none
      else
        run P cfg
          (s.setStore r
            (.active (.bucket (generateSecretId P identifier key) request.encryptedSecret)))
          events := by
  rw [run, Machine.run, RecoverBull.step, storeArrives]
  by_cases hs : (s.stores r).isSome = true
  · rw [if_pos hs, if_pos hs]
  · rw [if_neg hs, if_neg hs, hcheck]
    simp [run]

theorem Reaches.refl (s : AppState F) : Reaches P cfg s [] s := ⟨[], rfl⟩

theorem Reaches.step {s₀ s s' : AppState F} {event : Event} {log os : Log}
    (h : Reaches P cfg s₀ log s) (hs : RecoverBull.step P cfg s event = some (s', os)) :
    Reaches P cfg s₀ (os ++ log) s' := by
  obtain ⟨events, hr⟩ := h
  exact ⟨events ++ [event],
    Machine.run_append_eq_some.mpr ⟨s, log, os, hr, Machine.run_singleton hs, rfl⟩⟩

/-- A schedule that runs from a starting state is a server run. -/
theorem served_of_run {secrets : SecretTable} {b₁ b₂ b₃ : TokenBucket F} {events : List Event}
    {p : AppState F × Log → Bool}
    (h : (run P cfg (.init secrets b₁ b₂ b₃) events).any p = true) :
    ∃ log s, Served P cfg log s ∧ p (s, log) = true := by
  obtain ⟨⟨s, log⟩, hr, hp⟩ := (Option.any_eq_true p _).mp h
  exact ⟨log, s, ⟨secrets, b₁, b₂, b₃, events, hr⟩, hp⟩

/-- Induction on the steps of a run from `s₀`. -/
theorem Reaches.invariant {s₀ s : AppState F} {log : Log} (Inv : Log → AppState F → Prop)
    (h₀ : Inv [] s₀)
    (hstep : ∀ log s event s' os, Reaches P cfg s₀ log s → Inv log s →
      RecoverBull.step P cfg s event = some (s', os) → Inv (os ++ log) s')
    (h : Reaches P cfg s₀ log s) : Inv log s := by
  obtain ⟨events, hr⟩ := h
  have hall := Machine.run_invariant
    (fun log s e t os (hi : Reaches P cfg s₀ log s ∧ Inv log s) he =>
      ⟨hi.1.step he, hstep log s e t os hi.1 hi.2 he⟩)
    ⟨Reaches.refl s₀, h₀⟩ hr
  rw [List.append_nil] at hall
  exact hall.2

theorem Served.step {s s' : AppState F} {event : Event} {log os : Log} (h : Served P cfg log s)
    (hs : RecoverBull.step P cfg s event = some (s', os)) : Served P cfg (os ++ log) s' := by
  obtain ⟨secrets, b₁, b₂, b₃, hr⟩ := h
  exact ⟨secrets, b₁, b₂, b₃, hr.step hs⟩

/-- Induction on the steps of a server run. -/
theorem Served.invariant {s : AppState F} {log : Log} (Inv : Log → AppState F → Prop)
    (h₀ : ∀ secrets b₁ b₂ b₃, Inv [] (.init secrets b₁ b₂ b₃))
    (hstep : ∀ log s event s' os, Served P cfg log s → Inv log s →
      RecoverBull.step P cfg s event = some (s', os) → Inv (os ++ log) s')
    (h : Served P cfg log s) : Inv log s := by
  obtain ⟨secrets, b₁, b₂, b₃, hr⟩ := h
  exact hr.invariant Inv (h₀ secrets b₁ b₂ b₃) fun log s event s' os hr =>
    hstep log s event s' os ⟨secrets, b₁, b₂, b₃, hr⟩

theorem Served.reaches {s s' : AppState F} {log os : Log} (h : Served P cfg log s)
    (hr : Reaches P cfg s os s') : Served P cfg (os ++ log) s' := by
  obtain ⟨secrets, b₁, b₂, b₃, events, h⟩ := h
  obtain ⟨events', hr⟩ := hr
  exact ⟨secrets, b₁, b₂, b₃, events ++ events',
    Machine.run_append_eq_some.mpr ⟨s, log, os, h, hr, rfl⟩⟩

/-- Induction on the steps that continue a server run. -/
theorem Served.continues {s s' : AppState F} {log os : Log} (h : Served P cfg log s)
    (hr : Reaches P cfg s os s') (Inv : Log → AppState F → Prop) (h₀ : Inv [] s)
    (hstep : ∀ os s event s' os', Served P cfg (os ++ log) s → Inv os s →
      RecoverBull.step P cfg s event = some (s', os') → Inv (os' ++ os) s') : Inv os s' :=
  hr.invariant Inv h₀ fun os s event s' os' hr => hstep os s event s' os' (h.reaches hr)

/-! ## Sample schedules -/

/-- A server on an empty table, with buckets of ten tokens. -/
def AppState.sample : AppState ℚ :=
  .init .empty (.new 10 1 0) (.new 10 1 0) (.new 10 1 0)

/-- Request `r` is answered with `status`. -/
def Obs.answers (r : ReqId) (status : StatusCode) : Obs → Bool
  | .response (.fetch r') answer => r' == r && answer.status == status
  | _ => false

theorem exists_response {log : Log} {r : ReqId} {status : StatusCode}
    (h : log.any (Obs.answers r status) = true) :
    ∃ response, .response (.fetch r) response ∈ log ∧ response.status = status := by
  obtain ⟨o, ho, ha⟩ := List.any_eq_true.mp h
  cases o with
  | response call response =>
    cases call with
    | fetch r' =>
      simp only [Obs.answers, Bool.and_eq_true, beq_iff_eq] at ha
      exact ⟨response, ha.1 ▸ ho, ha.2⟩
    | store | attempts | info => cases ha
  | admission | refunded | queried | finalized | taskLost | wrote | retained | cancelled
  | panicked => cases ha

/-- A lookup up to its admission at time `t`. -/
def sampleAdmission (r : ReqId) (isTrashingSecret : Bool) (request : FetchSecret) (t : ℤ) :
    List Event :=
  [.fetchArrives r isTrashingSecret request, .fetch r (.takeToken 0), .fetch r (.readClock t),
    .fetch r .enter]

/-- A store up to its response. -/
def sampleStore (r : ReqId) (request : StoreSecret) : List Event :=
  [.storeArrives r request, .store r (.takeToken 0), .store r (.readClock 0),
    .store r (.permit true), .store r (.write .runs), .store r .respond]

/-- An admitted lookup of a new candidate up to its response. -/
def sampleCompletion (r : ReqId) : List Event :=
  [.fetch r (.permit true), .fetch r (.query .runs), .fetch r .finalize, .fetch r .respond]

/-! ### The arrivals of the sample requests

The derivations from the sample texts are the slow part of evaluating a sample
schedule: they are made here once. -/

theorem identifierHash_sampleIdentifier :
    identifierHash .sample sampleIdentifier = some sampleIdHash := by decide +kernel

theorem checkFetch_sampleKey :
    checkFetch .sample ⟨sampleIdentifier, sampleKey⟩ = .ok (sampleIdentifier, sampleKey) :=
  checkFetch_eq_ok.mpr
    ⟨by decide +kernel, by decide +kernel, by decide +kernel, by decide +kernel⟩

theorem generateSecretId_sampleKey :
    generateSecretId .sample sampleIdentifier sampleKey = sampleSecretId := by decide +kernel

theorem run_sampleKey (s : AppState F) (r : ReqId) (isTrashingSecret : Bool)
    (events : List Event) :
    run .sample cfg s (.fetchArrives r isTrashingSecret ⟨sampleIdentifier, sampleKey⟩ :: events) =
      if (s.fetches r).isSome then none
      else
        run .sample cfg
          (s.setFetch r (.active ⟨isTrashingSecret, sampleIdHash, sampleSecretId, .bucket⟩))
          events := by
  rw [run_fetchArrives checkFetch_sampleKey identifierHash_sampleIdentifier,
    generateSecretId_sampleKey]

theorem run_otherKey (s : AppState F) (r : ReqId) (isTrashingSecret : Bool)
    (events : List Event) :
    run .sample cfg s (.fetchArrives r isTrashingSecret ⟨sampleIdentifier, otherKey⟩ :: events) =
      if (s.fetches r).isSome then none
      else
        run .sample cfg
          (s.setFetch r (.active ⟨isTrashingSecret, sampleIdHash, otherSecretId, .bucket⟩))
          events := by
  have hcheck : checkFetch .sample ⟨sampleIdentifier, otherKey⟩ = .ok (sampleIdentifier, otherKey) :=
    checkFetch_eq_ok.mpr
      ⟨by decide +kernel, by decide +kernel, by decide +kernel, by decide +kernel⟩
  have hid : generateSecretId .sample sampleIdentifier otherKey = otherSecretId := by
    decide +kernel
  rw [run_fetchArrives hcheck identifierHash_sampleIdentifier, hid]

theorem run_sampleStore {encryptedSecret : String} (hempty : encryptedSecret.isEmpty = false)
    (hlen : (asBytes encryptedSecret).length ≤ cfg.secretMaxLength)
    (hbase64 : isBase64 .sample encryptedSecret = true) (s : AppState F) (r : ReqId)
    (events : List Event) :
    run .sample cfg s
        (.storeArrives r ⟨sampleIdentifier, sampleKey, encryptedSecret⟩ :: events) =
      if (s.stores r).isSome then none
      else
        run .sample cfg (s.setStore r (.active (.bucket sampleSecretId encryptedSecret))) events := by
  obtain ⟨hi, hk, hhexi, hhexk⟩ := checkFetch_eq_ok.mp checkFetch_sampleKey
  dsimp only at hi hk
  have hcheck : checkStore .sample cfg ⟨sampleIdentifier, sampleKey, encryptedSecret⟩ =
      .ok (sampleIdentifier, sampleKey) := by
    simp [checkStore, hi, hk, hhexi, hhexk, hempty, hbase64, Nat.not_lt.mpr hlen]
  rw [run_storeArrives hcheck, generateSecretId_sampleKey]

end RecoverBull
