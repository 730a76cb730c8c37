import RecoverBull.Lib.FiniteMap

/-!
# Data model

The records of `models.rs`. Wall-clock instants and durations are integers and
count nanoseconds, instants of the monotonic clock natural numbers; `u8` and
`u64` counters are natural numbers with the saturation written out.
-/

namespace RecoverBull

def nanosPerSecond : ℤ := 1000000000

def minutes (n : ℤ) : ℤ := n * 60 * nanosPerSecond

/-- Whole seconds, rounded toward zero. -/
def numSeconds (d : ℤ) : ℤ := d.tdiv nanosPerSecond

/-- Whole minutes, rounded toward zero. -/
def numMinutes (d : ℤ) : ℤ := d.tdiv (60 * nanosPerSecond)

def u8Max : ℕ := 255

def u64Max : ℕ := 18446744073709551615

/-- `saturating_add` of an unsigned type whose largest value is `max`. -/
def saturatingAdd (max a b : ℕ) : ℕ := min (a + b) max

inductive StatusCode
  | ok | created | accepted | notModified | badRequest | unauthorized | tooManyRequests
  | internalServerError | serviceUnavailable
  deriving DecidableEq, Repr

structure FetchSecret where
  identifier : String
  authenticationKey : String
  deriving DecidableEq, Repr

structure StoreSecret where
  identifier : String
  authenticationKey : String
  encryptedSecret : String
  deriving DecidableEq, Repr

/-- A row of the `secret` table. -/
structure Secret where
  id : String
  createdAt : String
  encryptedSecret : String
  deriving DecidableEq, Repr

inductive CandidateState
  | pending
  | committed
  deriving DecidableEq, Repr

/-- The derived `secret_id`; raw authentication material is never retained. -/
abbrev CandidateTag := String

abbrev CandidateMap := Finmap fun _ : CandidateTag => CandidateState

structure RateLimitInfo where
  windowStartedAt : ℤ
  lastCandidateAt : ℤ
  lastRequestAt : ℤ
  candidates : CandidateMap
  failedCandidates : ℕ
  totalRequests : ℕ
  deriving DecidableEq

/-- `identifier_rate_limit`, keyed by the hash of the identifier. -/
abbrev RateLimitMap := Finmap fun _ : String => RateLimitInfo

namespace RateLimitInfo

def new (now : ℤ) : RateLimitInfo where
  windowStartedAt := now
  lastCandidateAt := now
  lastRequestAt := now
  candidates := ∅
  failedCandidates := 0
  totalRequests := 0

/-- `none` where the conversion to `u8` panics. -/
def candidateCount (info : RateLimitInfo) : Option ℕ :=
  if info.candidates.len ≤ u8Max then some info.candidates.len else none

theorem candidateCount_eq_some {info : RateLimitInfo} {n : ℕ} :
    info.candidateCount = some n ↔ info.candidates.len = n ∧ info.candidates.len ≤ u8Max := by
  unfold candidateCount
  split
  · next h => simp [h]
  · next h => simp [h]

end RateLimitInfo

structure AttemptStatus where
  version : ℕ
  totalAttempts : ℕ
  failedAttempts : ℕ
  remainingAttempts : ℕ
  totalRequests : ℕ
  windowStartedAt : ℤ
  previousAttemptAt : Option ℤ
  resetsAt : ℤ
  deriving DecidableEq, Repr

structure Info where
  secretMaxLength : ℕ
  canary : String
  rateLimitCooldown : ℤ
  rateLimitMaxAttempts : ℕ
  /-- Legacy alias for `rateLimitMaxAttempts`. -/
  rateLimitMaxFailedAttempts : ℕ
  attemptsCollectionStartedAt : ℤ
  maxAttemptIdentifiers : ℕ
  deriving DecidableEq, Repr

structure AttemptEntry where
  idHash : String
  totalAttempts : ℕ
  failedAttempts : ℕ
  totalRequests : ℕ
  windowStartedAt : ℤ
  lastAttemptAt : ℤ
  deriving DecidableEq, Repr

structure AttemptsSnapshot where
  version : ℕ
  collectionStartedAt : ℤ
  entries : List AttemptEntry
  deriving DecidableEq, Repr

/-- The JSON and binary bodies the handlers answer with. -/
inductive Body
  | empty
  | null
  | error (error : String)
  | tooManyAttempts (error : String) (requestedAt : ℤ) (rateLimitCooldown : ℤ)
      (attempts : ℕ)
  | failedAttempt (error : String) (requestedAt : ℤ) (rateLimitCooldown : ℤ)
      (attempts totalRequests : ℕ)
  | secret (key : Secret) (attemptStatus : AttemptStatus)
  | info (info : Info)
  | gzip (bytes : List UInt8)
  deriving DecidableEq, Repr

structure Response where
  status : StatusCode
  retryAfter : Option ℕ := none
  /-- `max-age` of `Cache-Control: public`. -/
  maxAge : Option ℕ := none
  etag : Option String := none
  body : Body
  deriving DecidableEq, Repr

def errorResponse (status : StatusCode) (error : String) : Response where
  status := status
  body := .error error

/-- An error response with a `Retry-After` header, in seconds. -/
def retryAfterResponse (status : StatusCode) (retryAfterSecs : ℕ) (error : String) : Response where
  status := status
  retryAfter := some retryAfterSecs
  body := .error error

/-- `GLOBAL_OVERLOAD_RETRY_AFTER_SECS` of the three rate-limited handlers. -/
def globalOverloadRetryAfterSecs : ℕ := 1

/-- The 503 of a global limit. -/
def overloaded (error : String) : Response :=
  retryAfterResponse .serviceUnavailable globalOverloadRetryAfterSecs error

def internalServerError : Response :=
  errorResponse .internalServerError "Internal server error"

end RecoverBull
