import RecoverBull.Handlers.Fetch
import RecoverBull.Handlers.Validation
import RecoverBull.Handlers.Attempts

/-!
# The state of the server

The shared part of `AppState` and, for every request in flight, where its
handler and the tasks it spawned stand. A phase names the next thing the request
does; between two phases lies at most one critical section.
-/

namespace RecoverBull

abbrev ReqId := ℕ

/-- What a request keeps from its admission. -/
structure Admitted where
  requestedAt : ℤ
  status : AttemptStatus
  generation : ℤ
  isNew : Bool
  deriving DecidableEq, Repr

/-- The detached task that runs the lookup. -/
inductive Task
  /-- The blocking closure has not reached the database yet. -/
  | blocking
  /-- The lookup is over; the finalizer of a new candidate waits for the map lock. -/
  | finalizing (result : LookupResult)
  | finished (result : LookupResult)
  /-- Killed before it returned. -/
  | lost
  deriving DecidableEq, Repr

inductive FetchPhase
  /-- Waiting for the lock of `lookup_token_bucket`. -/
  | bucket
  /-- The token is taken, `requested_at` not read yet. -/
  | clock
  /-- Waiting for the map lock to be admitted. -/
  | mapLock (requestedAt : ℤ)
  /-- Waiting for a database permit, the guard armed if the candidate is new. -/
  | permit (admitted : Admitted)
  /-- No permit: waiting for the map lock to refund, the guard still armed. -/
  | refund (admitted : Admitted)
  /-- The detached task exists; `client` tells whether the handler still waits. -/
  | working (admitted : Admitted) (client : Bool) (task : Task)
  /-- The task was lost: waiting for the map lock to refund, the guard disarmed. -/
  | lostRefund (admitted : Admitted)
  /-- The cleanup task spawned by `Drop` waits for the map lock. -/
  | deferred (admitted : Admitted)
  deriving DecidableEq, Repr

/-- A validated `/fetch` or `/trash` request. -/
structure Lookup where
  isTrashingSecret : Bool
  idHash : String
  candidate : CandidateTag
  phase : FetchPhase
  deriving DecidableEq, Repr

inductive FetchCall
  | active (lookup : Lookup)
  | over
  deriving DecidableEq, Repr

inductive StorePhase
  | bucket (secretId encryptedSecret : String)
  | clock (secretId encryptedSecret : String)
  | permit (key : Secret)
  /-- The blocking closure owns the row; `client` tells whether the handler waits. -/
  | writing (key : Secret) (client : Bool)
  /-- The closure returned `is_stored`, or panicked. -/
  | written (client : Bool) (isStored : Option Bool)
  deriving DecidableEq, Repr

inductive StoreCall
  | active (phase : StorePhase)
  | over
  deriving DecidableEq, Repr

/-- How the blocking snapshot job ended. -/
inductive BuildResult
  | built (snapshot : AttemptsSnapshotCache)
  | failed
  deriving DecidableEq, Repr

inductive AttemptsPhase
  | bucket (ifNoneMatch : Option String)
  | snapshotLock (ifNoneMatch : Option String)
  /-- Holding the snapshot lock, waiting for the map lock. -/
  | mapLock (ifNoneMatch : Option String) (now : ℤ)
  /-- Holding the snapshot lock while the blocking job runs. -/
  | compressing (ifNoneMatch : Option String) (payload : AttemptsSnapshot)
  | built (ifNoneMatch : Option String) (result : BuildResult)
  /-- The client left: the job runs on, its result is dropped. -/
  | orphaned (payload : AttemptsSnapshot)
  deriving DecidableEq, Repr

inductive AttemptsCall
  | active (phase : AttemptsPhase)
  | over
  deriving DecidableEq, Repr

structure AppState (F : Type) where
  identifierRateLimit : RateLimitMap
  secrets : SecretTable
  storeTokenBucket : TokenBucket F
  lookupTokenBucket : TokenBucket F
  attemptsTokenBucket : TokenBucket F
  attemptsSnapshot : Option AttemptsSnapshotCache
  /-- The request that holds the lock of `attempts_snapshot`. -/
  snapshotHolder : Option ReqId
  canaryCache : Option CachedCanary
  fetches : ReqId → Option FetchCall
  stores : ReqId → Option StoreCall
  polls : ReqId → Option AttemptsCall

/-- The choice the environment makes for a blocking database closure. -/
inductive DbOutcome
  /-- The connection cannot be established. -/
  | panics
  /-- SQLite reports an error and rolls back. -/
  | fails
  | runs
  deriving DecidableEq, Repr

inductive FetchEvent
  | takeToken (now : ℕ)
  | readClock (now : ℤ)
  | enter
  | permit (granted : Bool)
  | removePending
  | query (outcome : DbOutcome)
  | finalize
  | loseTask
  | respond
  /-- The client goes away; `contended` is the map lock being held at `Drop`. -/
  | cancel (contended : Bool)
  deriving DecidableEq, Repr

inductive StoreEvent
  | takeToken (now : ℕ)
  | readClock (now : ℤ)
  | permit (granted : Bool)
  | write (outcome : DbOutcome)
  | respond
  | cancel
  deriving DecidableEq, Repr

inductive AttemptsEvent
  | takeToken (now : ℕ)
  /-- The clock readings under the lock: for the staleness test, for the build,
  for `max-age`. -/
  | lockSnapshot (now : ℕ) (utc : ℤ) (later : ℕ)
  | collect (order : IterationOrder)
  | compress (succeeds : Bool) (createdAt : ℕ)
  | publish (now : ℕ)
  | cancel

inductive Event
  | fetchArrives (r : ReqId) (isTrashingSecret : Bool) (request : FetchSecret)
  | fetch (r : ReqId) (event : FetchEvent)
  | storeArrives (r : ReqId) (request : StoreSecret)
  | store (r : ReqId) (event : StoreEvent)
  /-- With the first line of its `If-None-Match`, if it has one that is text. -/
  | attemptsArrives (r : ReqId) (ifNoneMatch : Option String)
  | attempts (r : ReqId) (event : AttemptsEvent)
  | info (r : ReqId) (metadata : Option (ℕ × ℕ)) (file : Option DotenvItems)
  | sweep (now : ℤ)

/-- The call a response or a cancellation belongs to. -/
inductive Call
  | fetch (r : ReqId)
  | store (r : ReqId)
  | attempts (r : ReqId)
  | info (r : ReqId)
  deriving DecidableEq, Repr

/-- What a step makes observable. -/
inductive Obs
  | admission (r : ReqId) (record : AdmissionRecord)
  /-- `remove_pending` ran for the reservation of this request. -/
  | refunded (r : ReqId)
  | queried (r : ReqId) (isTrashingSecret : Bool) (key : CandidateTag) (outcome : DbOutcome)
      (result : LookupResult)
  | finalized (r : ReqId) (result : LookupResult)
  | taskLost (r : ReqId)
  | wrote (r : ReqId) (row : Secret) (outcome : DbOutcome)
  /-- A `retain` outside a request: the sweeper's or the snapshot's. -/
  | retained (now : ℤ)
  | response (call : Call) (response : Response)
  | cancelled (call : Call)
  | panicked (call : Call)
  deriving DecidableEq

abbrev Log := List Obs

namespace AppState

variable {F : Type}

def setFetch (s : AppState F) (r : ReqId) (call : FetchCall) : AppState F :=
  { s with fetches := Function.update s.fetches r (some call) }

def setStore (s : AppState F) (r : ReqId) (call : StoreCall) : AppState F :=
  { s with stores := Function.update s.stores r (some call) }

def setPoll (s : AppState F) (r : ReqId) (call : AttemptsCall) : AppState F :=
  { s with polls := Function.update s.polls r (some call) }

def setMap (s : AppState F) (map : RateLimitMap) : AppState F :=
  { s with identifierRateLimit := map }

/-- The state a server starts in, on the table it finds. -/
def init (secrets : SecretTable) (storeTokenBucket lookupTokenBucket attemptsTokenBucket :
    TokenBucket F) : AppState F where
  identifierRateLimit := ∅
  secrets := secrets
  storeTokenBucket := storeTokenBucket
  lookupTokenBucket := lookupTokenBucket
  attemptsTokenBucket := attemptsTokenBucket
  attemptsSnapshot := none
  snapshotHolder := none
  canaryCache := none
  fetches := fun _ => none
  stores := fun _ => none
  polls := fun _ => none

/-! What the updates leave alone. -/

@[simp] theorem identifierRateLimit_setFetch (s : AppState F) (r : ReqId) (call : FetchCall) :
    (s.setFetch r call).identifierRateLimit = s.identifierRateLimit := rfl

@[simp] theorem secrets_setFetch (s : AppState F) (r : ReqId) (call : FetchCall) :
    (s.setFetch r call).secrets = s.secrets := rfl

@[simp] theorem fetches_setFetch (s : AppState F) (r : ReqId) (call : FetchCall) :
    (s.setFetch r call).fetches = Function.update s.fetches r (some call) := rfl

@[simp] theorem stores_setFetch (s : AppState F) (r : ReqId) (call : FetchCall) :
    (s.setFetch r call).stores = s.stores := rfl

@[simp] theorem identifierRateLimit_setStore (s : AppState F) (r : ReqId) (call : StoreCall) :
    (s.setStore r call).identifierRateLimit = s.identifierRateLimit := rfl

@[simp] theorem secrets_setStore (s : AppState F) (r : ReqId) (call : StoreCall) :
    (s.setStore r call).secrets = s.secrets := rfl

@[simp] theorem fetches_setStore (s : AppState F) (r : ReqId) (call : StoreCall) :
    (s.setStore r call).fetches = s.fetches := rfl

@[simp] theorem stores_setStore (s : AppState F) (r : ReqId) (call : StoreCall) :
    (s.setStore r call).stores = Function.update s.stores r (some call) := rfl

@[simp] theorem identifierRateLimit_setPoll (s : AppState F) (r : ReqId) (call : AttemptsCall) :
    (s.setPoll r call).identifierRateLimit = s.identifierRateLimit := rfl

@[simp] theorem secrets_setPoll (s : AppState F) (r : ReqId) (call : AttemptsCall) :
    (s.setPoll r call).secrets = s.secrets := rfl

@[simp] theorem fetches_setPoll (s : AppState F) (r : ReqId) (call : AttemptsCall) :
    (s.setPoll r call).fetches = s.fetches := rfl

@[simp] theorem stores_setPoll (s : AppState F) (r : ReqId) (call : AttemptsCall) :
    (s.setPoll r call).stores = s.stores := rfl

@[simp] theorem identifierRateLimit_setMap (s : AppState F) (map : RateLimitMap) :
    (s.setMap map).identifierRateLimit = map := rfl

@[simp] theorem secrets_setMap (s : AppState F) (map : RateLimitMap) :
    (s.setMap map).secrets = s.secrets := rfl

@[simp] theorem fetches_setMap (s : AppState F) (map : RateLimitMap) :
    (s.setMap map).fetches = s.fetches := rfl

@[simp] theorem stores_setMap (s : AppState F) (map : RateLimitMap) :
    (s.setMap map).stores = s.stores := rfl

end AppState

end RecoverBull
