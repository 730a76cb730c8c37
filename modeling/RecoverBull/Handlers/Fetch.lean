import RecoverBull.RateLimit
import RecoverBull.Database

/-!
# The critical sections of `/fetch` and `/trash`

What `fetch.rs` does to the rate-limit map while it holds the lock: admitting a
request, refunding a reservation, finalizing a lookup.
-/

namespace RecoverBull

/-- The cleanup of a reservation. The generation check makes a delayed one safe
even if it outlives the cooldown and a replacement window exists. -/
def removePending (map : RateLimitMap) (idHash : String) (candidate : CandidateTag)
    (generation : ℤ) : RateLimitMap :=
  match map.lookup idHash with
  | none => map
  | some info =>
    let info :=
      if info.windowStartedAt = generation ∧ info.candidates.lookup candidate = some .pending then
        { info with candidates := info.candidates.erase candidate }
      else info
    if info.windowStartedAt = generation ∧ info.candidates = ∅ then map.erase idHash
    else map.insert idHash info

inductive FinalizerError
  | database (error : DieselError)
  | join
  deriving DecidableEq, Repr

/-- What the detached task hands to `finalize` and to the handler. -/
inductive LookupResult
  | hit (secret : Secret)
  | miss
  | failed (error : FinalizerError)
  deriving DecidableEq, Repr

def finalize (map : RateLimitMap) (idHash : String) (candidate : CandidateTag)
    (generation : ℤ) (result : LookupResult) : RateLimitMap :=
  match map.lookup idHash with
  | none => map
  | some info =>
    if info.windowStartedAt ≠ generation ∨ info.candidates.lookup candidate ≠ some .pending then map
    else
      match result with
      | .hit _ =>
        map.insert idHash { info with candidates := info.candidates.insert candidate .committed }
      | .miss =>
        map.insert idHash
          { info with
            candidates := info.candidates.insert candidate .committed
            failedCandidates := saturatingAdd u8Max info.failedCandidates 1 }
      | .failed _ =>
        -- Candidate removal and empty-entry removal are one map update.
        let candidates := info.candidates.erase candidate
        if candidates = ∅ then map.erase idHash
        else map.insert idHash { info with candidates := candidates }

/-- `none` where `candidate_count` panics. -/
def attemptStatus (cfg : Config) (info : RateLimitInfo) (previous : Option ℤ) :
    Option AttemptStatus :=
  info.candidateCount.map fun count =>
    { version := 1
      totalAttempts := count
      failedAttempts := info.failedCandidates
      remainingAttempts := cfg.rateLimitMaxAttempts - count
      totalRequests := info.totalRequests
      windowStartedAt := info.windowStartedAt
      previousAttemptAt := previous
      resetsAt := info.lastCandidateAt + cfg.rateLimitCooldown }

def retryAfterSecs (cfg : Config) (lastCandidateAt requestedAt : ℤ) : ℕ :=
  (max (numSeconds (lastCandidateAt + cfg.rateLimitCooldown - requestedAt)) 1).toNat

def rateLimited (cfg : Config) (count : ℕ) (lastCandidateAt requestedAt : ℤ) : Response where
  status := .tooManyRequests
  retryAfter := some (retryAfterSecs cfg lastCandidateAt requestedAt)
  body := .tooManyAttempts "Too many attempts" lastCandidateAt (numMinutes cfg.rateLimitCooldown)
    count

inductive Admission
  | new (status : AttemptStatus) (generation : ℤ)
  | replay (status : AttemptStatus) (generation : ℤ)
  | pending
  deriving DecidableEq, Repr

/-- How a request leaves the admission critical section. -/
inductive Outcome
  | admitted (admission : Admission)
  | lockedOut (response : Response)
  | capacityExhausted (response : Response)
  | panicked
  deriving DecidableEq, Repr

/-- The strict test by which a request removes the expired entry of its own
identifier. -/
def pastCooldown (cfg : Config) (requestedAt : ℤ) (info : RateLimitInfo) : Bool :=
  requestedAt - info.lastCandidateAt > cfg.rateLimitCooldown

/-- A request drops its identifier's entry once the cooldown is over. -/
def dropExpired (cfg : Config) (map : RateLimitMap) (idHash : String) (requestedAt : ℤ) :
    RateLimitMap :=
  if (map.lookup idHash).any (pastCooldown cfg requestedAt) then map.erase idHash else map

/-- The admission of a request into the entry of its identifier. The saturation
check precedes membership, so that it cannot become an authentication oracle. -/
def admitEntry (cfg : Config) (info : RateLimitInfo) (candidate : CandidateTag)
    (requestedAt : ℤ) : RateLimitInfo × Outcome :=
  let info :=
    { info with
      totalRequests := saturatingAdd u64Max info.totalRequests 1
      lastRequestAt := requestedAt }
  match info.candidateCount with
  | none => (info, .panicked)
  | some count =>
    if count ≥ cfg.rateLimitMaxAttempts then
      (info, .lockedOut (rateLimited cfg count info.lastCandidateAt requestedAt))
    else
      match info.candidates.lookup candidate with
      | some .pending => (info, .admitted .pending)
      | some .committed =>
        match attemptStatus cfg info none with
        | none => (info, .panicked)
        | some status => (info, .admitted (.replay status info.windowStartedAt))
      | none =>
        let previous := if count > 0 then some info.lastCandidateAt else none
        let info :=
          { info with
            candidates := info.candidates.insert candidate .pending
            lastCandidateAt := requestedAt }
        match attemptStatus cfg info previous with
        | none => (info, .panicked)
        | some status => (info, .admitted (.new status info.windowStartedAt))

/-- `entry(..).or_insert_with(..)` and the admission into that entry. -/
def enterWindow (cfg : Config) (map : RateLimitMap) (idHash : String) (candidate : CandidateTag)
    (requestedAt : ℤ) : RateLimitMap × Outcome :=
  let entered := admitEntry cfg ((map.lookup idHash).getD (RateLimitInfo.new requestedAt)) candidate
    requestedAt
  (map.insert idHash entered.1, entered.2)

/-- The whole admission critical section. -/
def admitRequest (cfg : Config) (map : RateLimitMap) (idHash : String) (candidate : CandidateTag)
    (requestedAt : ℤ) : RateLimitMap × Outcome :=
  let map := dropExpired cfg map idHash requestedAt
  if idHash ∉ map ∧ map.len ≥ cfg.rateLimitMaxIdentifiers then
    let map := retainWithinCooldown cfg requestedAt map
    if map.len ≥ cfg.rateLimitMaxIdentifiers then
      (map, .capacityExhausted (overloaded "Rate-limit capacity exhausted, retry later"))
    else enterWindow cfg map idHash candidate requestedAt
  else enterWindow cfg map idHash candidate requestedAt

/-- What one passage through the admission critical section saw and did. -/
structure AdmissionRecord where
  idHash : String
  candidate : CandidateTag
  requestedAt : ℤ
  /-- The entry of the identifier after the expiry check. -/
  found : Option RateLimitInfo
  /-- The entry of the identifier when the lock is released. -/
  left : Option RateLimitInfo
  outcome : Outcome
  deriving DecidableEq

def admissionRecord (cfg : Config) (map : RateLimitMap) (idHash : String)
    (candidate : CandidateTag) (requestedAt : ℤ) : AdmissionRecord :=
  let admitted := admitRequest cfg map idHash candidate requestedAt
  { idHash, candidate, requestedAt
    found := (dropExpired cfg map idHash requestedAt).lookup idHash
    left := admitted.1.lookup idHash
    outcome := admitted.2 }

end RecoverBull
