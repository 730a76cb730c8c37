import RecoverBull.Models
import Mathlib.Data.Rat.Init
import Mathlib.Algebra.Order.Ring.Rat

/-!
# Configuration

The startup checks of `env.rs`, the configuration they admit and the warrant
canary read from the dotenv file.
-/

namespace RecoverBull

/-- A non-positive cooldown would disable rate limiting, and a zero budget or
secret length would make the service unusable: the server refuses to start. -/
def validateConfig (rateLimitCooldown : ℤ) (secretMaxLength rateLimitMaxAttempts : ℕ) :
    Except String Unit :=
  if rateLimitCooldown ≤ 0 then
    .error s!"RATE_LIMIT_COOLDOWN must be greater than 0, got {rateLimitCooldown}"
  else if rateLimitCooldown > 525600 then
    .error s!"RATE_LIMIT_COOLDOWN must be at most 525600 minutes (1 year), got {rateLimitCooldown}"
  else if secretMaxLength = 0 then
    .error "SECRET_MAX_LENGTH must be greater than 0"
  else if rateLimitMaxAttempts = 0 then
    .error "RATE_LIMIT_MAX_ATTEMPTS must be at least 1"
  else .ok ()

theorem validateConfig_eq_ok {c : ℤ} {l m : ℕ} :
    validateConfig c l m = .ok () ↔ 0 < c ∧ c ≤ 525600 ∧ 0 < l ∧ 0 < m := by
  unfold validateConfig
  split_ifs <;> simp <;> omega

def maxRateLimitIdentifiers : ℕ := 10000000

def maxDatabaseConcurrency : ℕ := 1024

def validateCapacity (rateLimitMaxIdentifiers databaseMaxConcurrency : ℕ) : Except String Unit :=
  if rateLimitMaxIdentifiers = 0 ∨ rateLimitMaxIdentifiers > maxRateLimitIdentifiers then
    .error s!"RATE_LIMIT_MAX_IDENTIFIERS must be between 1 and {maxRateLimitIdentifiers}, got {rateLimitMaxIdentifiers}"
  else if databaseMaxConcurrency = 0 ∨ databaseMaxConcurrency > maxDatabaseConcurrency then
    .error s!"DATABASE_MAX_CONCURRENCY must be between 1 and {maxDatabaseConcurrency}, got {databaseMaxConcurrency}"
  else .ok ()

theorem validateCapacity_eq_ok {i d : ℕ} :
    validateCapacity i d = .ok () ↔
      0 < i ∧ i ≤ maxRateLimitIdentifiers ∧ 0 < d ∧ d ≤ maxDatabaseConcurrency := by
  unfold validateCapacity
  split_ifs <;> simp <;> omega

/-- An `f64` as startup parses it, the finite ones taken for exact rationals. -/
inductive F64
  | finite (value : ℚ)
  | infinite (negative : Bool)
  | nan
  deriving DecidableEq

namespace F64

def isFinite : F64 → Bool
  | finite _ => true
  | infinite _ | nan => false

/-- `x <= 0.0`. -/
def nonpos : F64 → Bool
  | finite value => decide (value ≤ 0)
  | infinite negative => negative
  | nan => false

/-- `x < 0.0`. -/
def neg : F64 → Bool
  | finite value => decide (value < 0)
  | infinite negative => negative
  | nan => false

end F64

/-- A zero refill disables refilling but is a valid, strict bucket. `display` is
how an `f64` is printed. -/
def validateTokenBucket (display : F64 → String) (name : String) (burst refill : F64) :
    Except String Unit :=
  let shownBurst := display burst
  let shownRefill := display refill
  if !burst.isFinite || burst.nonpos then
    .error s!"{name}_RATE_LIMIT_BURST must be finite and > 0, got {shownBurst}"
  else if !refill.isFinite || refill.neg then
    .error s!"{name}_RATE_LIMIT_REFILL_PER_SECOND must be finite and >= 0, got {shownRefill}"
  else .ok ()

theorem validateTokenBucket_eq_ok {display : F64 → String} {name : String} {burst refill : F64} :
    validateTokenBucket display name burst refill = .ok () ↔
      ∃ b r, burst = .finite b ∧ refill = .finite r ∧ 0 < b ∧ 0 ≤ r := by
  cases burst with
  | infinite | nan => simp [validateTokenBucket, F64.isFinite]
  | finite b =>
    cases refill with
    | infinite | nan =>
      cases hb : (F64.finite b).nonpos <;> simp [validateTokenBucket, F64.isFinite, hb]
    | finite r =>
      simp only [validateTokenBucket, F64.isFinite, F64.nonpos, F64.neg, F64.finite.injEq,
        exists_and_left, exists_eq_left']
      by_cases hb : b ≤ 0
      · simp [hb]
      · by_cases hr : r < 0
        · simp [hb, hr]
        · simp [hb, hr, not_le.mp hb, not_lt.mp hr]

def validateSnapshotTtl (seconds : ℕ) : Except String Unit :=
  if seconds = 0 then .error "ATTEMPTS_SNAPSHOT_TTL_SECONDS must be greater than 0" else .ok ()

theorem validateSnapshotTtl_eq_ok {seconds : ℕ} :
    validateSnapshotTtl seconds = .ok () ↔ 0 < seconds := by
  unfold validateSnapshotTtl
  split
  · next h => simp [h]
  · next h => simp [Nat.pos_of_ne_zero h]

/-- The part of `AppState` that never changes after startup. It can only be
built from values the startup checks accept. -/
structure Config where
  /-- `RATE_LIMIT_COOLDOWN`, in minutes. -/
  rateLimitCooldownMinutes : ℤ
  secretMaxLength : ℕ
  rateLimitMaxAttempts : ℕ
  rateLimitMaxIdentifiers : ℕ
  databaseMaxConcurrency : ℕ
  /-- `ATTEMPTS_SNAPSHOT_TTL_SECONDS`. -/
  attemptsSnapshotTtlSeconds : ℕ
  attemptsCollectionStartedAt : ℤ
  canary : String
  canaryFromEnv : Bool
  config_valid : validateConfig rateLimitCooldownMinutes secretMaxLength rateLimitMaxAttempts = .ok ()
  attempts_u8 : rateLimitMaxAttempts ≤ u8Max
  capacity_valid : validateCapacity rateLimitMaxIdentifiers databaseMaxConcurrency = .ok ()
  ttl_valid : validateSnapshotTtl attemptsSnapshotTtlSeconds = .ok ()

namespace Config

def rateLimitCooldown (cfg : Config) : ℤ := minutes cfg.rateLimitCooldownMinutes

/-- `attempts_snapshot_ttl`, in nanoseconds. -/
def attemptsSnapshotTtl (cfg : Config) : ℕ := cfg.attemptsSnapshotTtlSeconds * 1000000000

theorem cooldown_pos (cfg : Config) : 0 < cfg.rateLimitCooldown := by
  have h := (validateConfig_eq_ok.mp cfg.config_valid).1
  have hn : (0 : ℤ) < nanosPerSecond := by decide
  exact Int.mul_pos (Int.mul_pos h (by decide)) hn

theorem maxAttempts_pos (cfg : Config) : 0 < cfg.rateLimitMaxAttempts :=
  (validateConfig_eq_ok.mp cfg.config_valid).2.2.2

theorem attemptsSnapshotTtl_pos (cfg : Config) : 0 < cfg.attemptsSnapshotTtl :=
  Nat.mul_pos (validateSnapshotTtl_eq_ok.mp cfg.ttl_valid) (by decide)

/-- A configuration a run can be evaluated with: one attempt a minute, two identifiers. -/
def sample : Config where
  rateLimitCooldownMinutes := 1
  secretMaxLength := 100
  rateLimitMaxAttempts := 1
  rateLimitMaxIdentifiers := 2
  databaseMaxConcurrency := 1
  attemptsSnapshotTtlSeconds := 1
  attemptsCollectionStartedAt := 0
  canary := "canary"
  canaryFromEnv := true
  config_valid := by decide
  attempts_u8 := by decide
  capacity_valid := by decide
  ttl_valid := by decide

/-- The sample configuration with two attempts. -/
def sampleOfTwo : Config :=
  { sample with
    rateLimitMaxAttempts := 2
    config_valid := by decide
    attempts_u8 := by decide }

end Config

/-- Live state of the warrant canary in the dotenv file. -/
inductive CanaryFileState
  | value (value : String)
  /-- The file parses but holds no `CANARY` key: the compromise signal. -/
  | removed
  /-- Missing or unreadable: an ops error, not a signal. -/
  | unavailable
  deriving DecidableEq, Repr

/-- The items `dotenvy` yields for a file: a key and value, or a parse error. -/
abbrev DotenvItems := List (Option (String × String))

/-- The loop over the items of a file that could be opened. -/
def scanCanary : DotenvItems → CanaryFileState
  | [] => .removed
  | none :: _ => .unavailable
  | some (key, value) :: items => if key = "CANARY" then .value value else scanCanary items

/-- `none` is a file that cannot be opened. -/
def canaryFileState : Option DotenvItems → CanaryFileState
  | none => .unavailable
  | some items => scanCanary items

structure CachedCanary where
  modified : ℕ
  len : ℕ
  value : Option String
  deriving DecidableEq, Repr

/-- The file is looked at twice: `metadata` is the modification time and length
of the first look, `file` what the parse finds. -/
def canaryFileStateCached (metadata : Option (ℕ × ℕ)) (file : Option DotenvItems)
    (cache : Option CachedCanary) : CanaryFileState × Option CachedCanary :=
  match metadata with
  | none => (.unavailable, cache)
  | some (modified, len) =>
    match cache.filter fun c => c.modified = modified ∧ c.len = len with
    | some cached => (cached.value.elim .removed .value, cache)
    | none =>
      match canaryFileState file with
      | .value value => (.value value, some ⟨modified, len, some value⟩)
      | .removed => (.removed, some ⟨modified, len, none⟩)
      | .unavailable => (.unavailable, cache)

end RecoverBull
