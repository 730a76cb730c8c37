import RecoverBull.RateLimit
import RecoverBull.Utils
import RecoverBull.Lib.Collect

/-!
# The `/attempts` snapshot and `/info`

Building the snapshot from the rate-limit map, answering a conditional request
from it, and the configuration `/info` publishes.
-/

namespace RecoverBull

/-- Immutable `/attempts` representation. -/
structure AttemptsSnapshotCache where
  gzipBody : List UInt8
  etag : String
  createdAt : ℕ
  deriving DecidableEq, Repr

/-- The order in which a hash map hands out its entries; any order may come up. -/
structure IterationOrder where
  entries : RateLimitMap → List (Σ _ : String, RateLimitInfo)
  complete : ∀ map, (entries map : Multiset (Σ _ : String, RateLimitInfo)) = map.entries

/-- `none` where `candidate_count` panics. -/
def attemptEntry (idHash : String) (info : RateLimitInfo) : Option AttemptEntry :=
  info.candidateCount.map fun count =>
    { idHash
      totalAttempts := count
      failedAttempts := info.failedCandidates
      totalRequests := info.totalRequests
      windowStartedAt := truncateToHour info.windowStartedAt
      lastAttemptAt := truncateToHour info.lastRequestAt }

/-- The entries collected under the lock. -/
def collectEntries (order : IterationOrder) (map : RateLimitMap) : Option (List AttemptEntry) :=
  (order.entries map).mapM fun e => attemptEntry e.1 e.2

/-- What is collected are entries of the map. -/
theorem of_mem_collectEntries {order : IterationOrder} {map : RateLimitMap}
    {entries : List AttemptEntry} (h : collectEntries order map = some entries) {e : AttemptEntry}
    (he : e ∈ entries) : ∃ id info, map.lookup id = some info ∧ attemptEntry id info = some e := by
  obtain ⟨⟨id, info⟩, hm, hf⟩ := (Collect.mem_iff_of_mapM h).mp he
  have hm' : ⟨id, info⟩ ∈ map.entries := by
    rw [← order.complete map]
    exact Multiset.mem_coe.mpr hm
  exact ⟨id, info, Finmap.lookup_eq_some_iff.mpr hm', hf⟩

/-- The payload, sorted after the lock is released. -/
def snapshotPayload (cfg : Config) (entries : List AttemptEntry) : AttemptsSnapshot where
  version := 1
  collectionStartedAt := truncateToHour cfg.attemptsCollectionStartedAt
  entries := entries.mergeSort fun a b => a.idHash ≤ b.idHash

/-- The blocking job: serialization and compression. -/
def compressSnapshot (P : Primitives) (payload : AttemptsSnapshot) (createdAt : ℕ) :
    AttemptsSnapshotCache :=
  let gzip := P.gzipJson payload
  { gzipBody := gzip
    etag := "\"" ++ P.sha256Hex gzip ++ "\""
    createdAt := createdAt }

/-- Remaining freshness rounded up to the next second, never zero. -/
def remainingMaxAge (createdAt : ℕ) (ttl : ℕ) (now : ℕ) : ℕ :=
  let remaining := ttl - (now - createdAt)
  max (remaining / 1000000000 + if remaining % 1000000000 > 0 then 1 else 0) 1

/-- A rebuild is due. -/
def isStale (cfg : Config) (snapshot : AttemptsSnapshotCache) (now : ℕ) : Bool :=
  now - snapshot.createdAt ≥ cfg.attemptsSnapshotTtl

def trim (cs : List Char) : List Char :=
  ((cs.dropWhile Char.isWhitespace).reverse.dropWhile Char.isWhitespace).reverse

def stripWeakPrefix : List Char → List Char
  | 'W' :: '/' :: rest => rest
  | cs => cs

/-- `If-None-Match` against the current ETag. The value is the first line of the header,
which is all that `HeaderMap::get` gives of it. -/
def notModified (ifNoneMatch : Option String) (etag : String) : Bool :=
  ifNoneMatch.any fun value =>
    (value.toList.splitOn ',').any fun candidate =>
      let candidate := stripWeakPrefix (trim candidate)
      candidate == ['*'] || candidate == etag.toList

/-- The response of `get_attempts` from a snapshot. -/
def attemptsResponse (cfg : Config) (snapshot : AttemptsSnapshotCache) (ifNoneMatch : Option String)
    (now : ℕ) : Response :=
  let modified := !notModified ifNoneMatch snapshot.etag
  { status := if modified then .ok else .notModified
    maxAge := some (remainingMaxAge snapshot.createdAt cfg.attemptsSnapshotTtl now)
    etag := some snapshot.etag
    body := if modified then .gzip snapshot.gzipBody else .empty }

/-- The response of `get_info`, and the canary cache it leaves. -/
def getInfo (cfg : Config) (metadata : Option (ℕ × ℕ)) (file : Option DotenvItems)
    (cache : Option CachedCanary) : Response × Option CachedCanary :=
  let (canary, cache) :=
    if cfg.canaryFromEnv then (cfg.canary, cache)
    else
      let (state, cache) := canaryFileStateCached metadata file cache
      match state with
      | .value value => (value, cache)
      | .removed => ("", cache)
      | .unavailable => (cfg.canary, cache)
  let info : Info :=
    { canary
      secretMaxLength := cfg.secretMaxLength
      rateLimitCooldown := numMinutes cfg.rateLimitCooldown
      rateLimitMaxAttempts := cfg.rateLimitMaxAttempts
      rateLimitMaxFailedAttempts := cfg.rateLimitMaxAttempts
      attemptsCollectionStartedAt := truncateToHour cfg.attemptsCollectionStartedAt
      maxAttemptIdentifiers := cfg.rateLimitMaxIdentifiers }
  ({ status := .ok, body := .info info }, cache)

end RecoverBull
