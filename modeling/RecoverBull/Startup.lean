import RecoverBull.Env
import RecoverBull.Lib.Numeral

/-!
# Startup

`env::init`: the server starts from its environment variables or refuses to. What it reads
of a number is its text, and the checks of `env.rs` come on top.
-/

namespace RecoverBull

/-! ## The environment -/

/-- What `std::env::var` finds; `shown` is how the error prints what is not Unicode. -/
inductive EnvVar
  | value (text : String)
  | notPresent
  | notUnicode (shown : String)
  deriving DecidableEq, Repr

abbrev Environment := String → EnvVar

/-- Why the process ends before it serves. -/
inductive Refusal
  | panicked (message : String)
  | exited (message : String)
  deriving DecidableEq, Repr

def Refusal.message : Refusal → String
  | panicked message | exited message => message

/-- How the standard library reads and writes an `f64`. -/
structure F64Text where
  parse : String → Except String F64
  display : F64 → String

def EnvVar.isOk : EnvVar → Bool
  | value _ => true
  | notPresent | notUnicode _ => false

/-- `env::var(name).expect(..)`. -/
def requiredEnv (env : Environment) (name : String) : Except Refusal String :=
  match env name with
  | .value text => .ok text
  | .notPresent => .error (.panicked s!"{name} must be set: NotPresent")
  | .notUnicode shown => .error (.panicked s!"{name} must be set: NotUnicode({shown})")

def optionalEnv {α : Type} (parse : String → Except String α) (env : Environment) (name : String)
    (default : α) : Except Refusal α :=
  match env name with
  | .value text =>
    match parse text with
    | .ok value => .ok value
    | .error error => .error (.exited s!"Error: {name} has an invalid value: {error}")
  | .notPresent => .ok default
  | .notUnicode shown =>
    .error (.exited s!"Error: cannot read {name}: environment variable was not valid unicode: {shown}")

/-- The name and the text of the budget, from its old name where the new one is not set. -/
def maxAttemptsEnv (env : Environment) : Except Refusal (String × String) :=
  match env "RATE_LIMIT_MAX_ATTEMPTS" with
  | .value text => .ok ("RATE_LIMIT_MAX_ATTEMPTS", text)
  | .notPresent =>
    match env "RATE_LIMIT_MAX_FAILED_ATTEMPTS" with
    | .value text => .ok ("RATE_LIMIT_MAX_FAILED_ATTEMPTS", text)
    | .notPresent => .error (.panicked "RATE_LIMIT_MAX_ATTEMPTS must be set")
    | .notUnicode shown =>
      .error (.panicked
        s!"cannot read RATE_LIMIT_MAX_FAILED_ATTEMPTS: environment variable was not valid unicode: {shown}")
  | .notUnicode shown =>
    .error (.panicked
      s!"cannot read RATE_LIMIT_MAX_ATTEMPTS: environment variable was not valid unicode: {shown}")

/-! ## What is read and checked -/

def i64 : IntType := ⟨-2 ^ 63, 2 ^ 63 - 1, by decide, by decide⟩

/-- The unsigned types by their greatest value; `usize` is that of a 64-bit target. -/
def unsigned (max : ℕ) : IntType := ⟨0, max, le_rfl, Int.natCast_nonneg max⟩

/-- `str::parse` with the text of its error. -/
def parseInt (T : IntType) (text : String) : Except String T.Value :=
  match T.parse text with
  | .ok value => .ok value
  | .error error => .error error.description

/-- A parse whose failure ends the process. -/
def parseOrExit {α : Type} (parse : String → Except String α) (what text : String) :
    Except Refusal α :=
  match parse text with
  | .ok value => .ok value
  | .error error => .error (.exited s!"Error: {what}: {error}")

/-- A check whose failure ends the process. -/
def require (checked : Except String Unit) : Except Refusal (PLift (checked = .ok ())) :=
  match checked with
  | .ok () => .ok ⟨rfl⟩
  | .error error => .error (.exited s!"Error: {error}")

/-- Settings of a token bucket that passed their check. -/
structure BucketSettings (T : F64Text) (name : String) where
  burst : F64
  refill : F64
  valid : validateTokenBucket T.display name burst refill = .ok ()

def bucketEnv (T : F64Text) (env : Environment) (name : String) (burst refill : F64) :
    Except Refusal (BucketSettings T name) := do
  let burst ← optionalEnv T.parse env s!"{name}_RATE_LIMIT_BURST" burst
  let refill ← optionalEnv T.parse env s!"{name}_RATE_LIMIT_REFILL_PER_SECOND" refill
  let ⟨valid⟩ ← require (validateTokenBucket T.display name burst refill)
  return ⟨burst, refill, valid⟩

/-- The state a server starts with, as far as the environment decides it. -/
structure Started (T : F64Text) where
  serverAddress : String
  databaseUrl : String
  canaryPath : String
  cfg : Config
  storeTokenBucket : BucketSettings T "STORE"
  lookupTokenBucket : BucketSettings T "LOOKUP"
  attemptsTokenBucket : BucketSettings T "ATTEMPTS"
  secretMaxLength_usize : cfg.secretMaxLength ≤ u64Max
  ttl_u64 : cfg.attemptsSnapshotTtlSeconds ≤ u64Max

def unsignedOf {max : ℕ} (n : ℕ) (h : n ≤ max) : (unsigned max).Value :=
  ⟨n, Int.natCast_nonneg n, Int.ofNat_le.mpr h⟩

theorem toNat_le {max : ℕ} (v : (unsigned max).Value) : v.val.toNat ≤ max :=
  Int.toNat_le.mpr v.2.2

/-- `init`: `process` is the environment of the process, and `loaded` what it is once
`dotenv` has read its file. -/
def init (T : F64Text) (process loaded : Environment) (dotenvPath : Option String) (now : ℤ) :
    Except Refusal (Started T) := do
  let canaryFromEnv := (process "CANARY").isOk
  let serverAddr ← requiredEnv loaded "SERVER_ADDRESS"
  let rateLimitCooldown ← requiredEnv loaded "RATE_LIMIT_COOLDOWN"
  let secretMaxLength ← requiredEnv loaded "SECRET_MAX_LENGTH"
  let canary ← requiredEnv loaded "CANARY"
  let (maxAttemptsName, maxAttempts) ← maxAttemptsEnv loaded
  let databaseUrl ← requiredEnv loaded "DATABASE_URL"
  let rateLimitCooldown ←
    parseOrExit (parseInt i64) "RATE_LIMIT_COOLDOWN must be a integer" rateLimitCooldown
  let secretMaxLength ←
    parseOrExit (parseInt (unsigned u64Max)) "SECRET_MAX_LENGTH must be a usize" secretMaxLength
  let maxAttempts ←
    parseOrExit (parseInt (unsigned u8Max)) s!"{maxAttemptsName} must be a u8" maxAttempts
  let ⟨config_valid⟩ ← require
    (validateConfig rateLimitCooldown.val secretMaxLength.val.toNat maxAttempts.val.toNat)
  let store ← bucketEnv T loaded "STORE" (.finite 10) (.finite 2)
  let lookup ← bucketEnv T loaded "LOOKUP" (.finite 100) (.finite 5)
  let maxIdentifiers ← optionalEnv (parseInt (unsigned u64Max)) loaded "RATE_LIMIT_MAX_IDENTIFIERS"
    (unsignedOf 100000 (by decide))
  let maxConcurrency ← optionalEnv (parseInt (unsigned u64Max)) loaded "DATABASE_MAX_CONCURRENCY"
    (unsignedOf 16 (by decide))
  let ⟨capacity_valid⟩ ← require
    (validateCapacity maxIdentifiers.val.toNat maxConcurrency.val.toNat)
  let attempts ← bucketEnv T loaded "ATTEMPTS" (.finite 20) (.finite 2)
  let ttl ← optionalEnv (parseInt (unsigned u64Max)) loaded "ATTEMPTS_SNAPSHOT_TTL_SECONDS"
    (unsignedOf 60 (by decide))
  let ⟨ttl_valid⟩ ← require (validateSnapshotTtl ttl.val.toNat)
  return {
    serverAddress := serverAddr
    databaseUrl := databaseUrl
    canaryPath := dotenvPath.getD ".env"
    cfg := {
      rateLimitCooldownMinutes := rateLimitCooldown.val
      secretMaxLength := secretMaxLength.val.toNat
      rateLimitMaxAttempts := maxAttempts.val.toNat
      rateLimitMaxIdentifiers := maxIdentifiers.val.toNat
      databaseMaxConcurrency := maxConcurrency.val.toNat
      attemptsSnapshotTtlSeconds := ttl.val.toNat
      attemptsCollectionStartedAt := now
      canary := canary
      canaryFromEnv := canaryFromEnv
      config_valid := config_valid
      attempts_u8 := toNat_le maxAttempts
      capacity_valid := capacity_valid
      ttl_valid := ttl_valid }
    storeTokenBucket := store
    lookupTokenBucket := lookup
    attemptsTokenBucket := attempts
    secretMaxLength_usize := toNat_le secretMaxLength
    ttl_u64 := toNat_le ttl }

/-! ## What startup accepts -/

theorem bind_eq_ok_iff {ε α β : Type} {first : Except ε α} {next : α → Except ε β} {result : β} :
    first >>= next = .ok result ↔ ∃ a, first = .ok a ∧ next a = .ok result := by
  cases first <;> simp [bind, Except.bind]

theorem bind_eq_error_iff {ε α β : Type} {first : Except ε α} {next : α → Except ε β} {e : ε} :
    first >>= next = .error e ↔ first = .error e ∨ ∃ a, first = .ok a ∧ next a = .error e := by
  cases first <;> simp [bind, Except.bind]

/-- The variable is set to a text with the property. -/
def Says (env : Environment) (name : String) (p : String → Prop) : Prop :=
  ∃ text, env name = .value text ∧ p text

/-- The same of a variable with a default. -/
def SaysOr (env : Environment) (name : String) (p : String → Prop) (byDefault : Prop) : Prop :=
  Says env name p ∨ env name = .notPresent ∧ byDefault

/-- The text is the numeral of a natural number. -/
def Writes (n : ℕ) (text : String) : Prop := IntType.Denotes false text.toList n

/-- The text of the budget: that of its name, or that of its old name where the new one is
not set. -/
def SaysMaxAttempts (env : Environment) (p : String → Prop) : Prop :=
  SaysOr env "RATE_LIMIT_MAX_ATTEMPTS" p (Says env "RATE_LIMIT_MAX_FAILED_ATTEMPTS" p)

structure DescribesBucket (T : F64Text) (env : Environment) (name : String)
    (burst refill : F64) (settings : BucketSettings T name) : Prop where
  burst : SaysOr env s!"{name}_RATE_LIMIT_BURST" (T.parse · = .ok settings.burst)
    (settings.burst = burst)
  refill : SaysOr env s!"{name}_RATE_LIMIT_REFILL_PER_SECOND" (T.parse · = .ok settings.refill)
    (settings.refill = refill)

/-- The environment describes the settings. -/
structure Describes (T : F64Text) (process loaded : Environment) (dotenvPath : Option String)
    (now : ℤ) (started : Started T) : Prop where
  serverAddress : loaded "SERVER_ADDRESS" = .value started.serverAddress
  databaseUrl : loaded "DATABASE_URL" = .value started.databaseUrl
  canaryPath : started.canaryPath = dotenvPath.getD ".env"
  canary : loaded "CANARY" = .value started.cfg.canary
  canaryFromEnv : started.cfg.canaryFromEnv = (process "CANARY").isOk
  startedAt : started.cfg.attemptsCollectionStartedAt = now
  cooldown : Says loaded "RATE_LIMIT_COOLDOWN" fun text =>
    IntType.Denotes true text.toList started.cfg.rateLimitCooldownMinutes
  secretMaxLength : Says loaded "SECRET_MAX_LENGTH" (Writes started.cfg.secretMaxLength)
  maxAttempts : SaysMaxAttempts loaded (Writes started.cfg.rateLimitMaxAttempts)
  maxIdentifiers : SaysOr loaded "RATE_LIMIT_MAX_IDENTIFIERS"
    (Writes started.cfg.rateLimitMaxIdentifiers) (started.cfg.rateLimitMaxIdentifiers = 100000)
  maxConcurrency : SaysOr loaded "DATABASE_MAX_CONCURRENCY"
    (Writes started.cfg.databaseMaxConcurrency) (started.cfg.databaseMaxConcurrency = 16)
  ttl : SaysOr loaded "ATTEMPTS_SNAPSHOT_TTL_SECONDS"
    (Writes started.cfg.attemptsSnapshotTtlSeconds) (started.cfg.attemptsSnapshotTtlSeconds = 60)
  store : DescribesBucket T loaded "STORE" (.finite 10) (.finite 2) started.storeTokenBucket
  lookup : DescribesBucket T loaded "LOOKUP" (.finite 100) (.finite 5) started.lookupTokenBucket
  attempts : DescribesBucket T loaded "ATTEMPTS" (.finite 20) (.finite 2)
    started.attemptsTokenBucket

section readings

variable {env : Environment} {name text : String}

theorem requiredEnv_eq_ok : requiredEnv env name = .ok text ↔ env name = .value text := by
  rw [requiredEnv]
  cases env name <;> simp

theorem optionalEnv_eq_ok {α : Type} {parse : String → Except String α} {default v : α} :
    optionalEnv parse env name default = .ok v ↔
      SaysOr env name (parse · = .ok v) (v = default) := by
  rw [optionalEnv, SaysOr, Says]
  cases env name with
  | value text => cases h : parse text <;> simp [h]
  | notPresent => simp [eq_comm]
  | notUnicode shown => simp

theorem parseOrExit_eq_ok {α : Type} {parse : String → Except String α} {what : String} {v : α} :
    parseOrExit parse what text = .ok v ↔ parse text = .ok v := by
  rw [parseOrExit]
  cases parse text <;> simp

theorem require_eq_ok {checked : Except String Unit} {u : PLift (checked = .ok ())} :
    require checked = .ok u ↔ checked = .ok () := by
  refine ⟨fun _ => u.down, fun h => ?_⟩
  subst h
  rfl

theorem parseInt_eq_ok {T : IntType} {v : T.Value} :
    parseInt T text = .ok v ↔ IntType.Denotes T.signed text.toList v.val := by
  rw [← IntType.parse_eq_ok, parseInt]
  cases T.parse text <;> simp

theorem parseInt_i64_eq_ok {v : i64.Value} :
    parseInt i64 text = .ok v ↔ IntType.Denotes true text.toList v.val :=
  parseInt_eq_ok

theorem parseInt_unsigned_eq_ok {max : ℕ} {v : (unsigned max).Value} :
    parseInt (unsigned max) text = .ok v ↔ Writes v.val.toNat text := by
  rw [parseInt_eq_ok, Writes, Int.toNat_of_nonneg v.2.1]
  rfl

theorem eq_unsignedOf {max n : ℕ} {h : n ≤ max} {v : (unsigned max).Value} :
    v = unsignedOf n h ↔ v.val.toNat = n := by
  have hnonneg : 0 ≤ v.val := v.2.1
  rw [Subtype.ext_iff, unsignedOf]
  dsimp only
  omega

/-- An optional unsigned number is its numeral, or its default. -/
theorem optionalEnv_unsigned {max n : ℕ} {h : n ≤ max} {v : (unsigned max).Value} :
    optionalEnv (parseInt (unsigned max)) env name (unsignedOf n h) = .ok v ↔
      SaysOr env name (Writes v.val.toNat) (v.val.toNat = n) := by
  simp only [optionalEnv_eq_ok, parseInt_unsigned_eq_ok, eq_unsignedOf]

/-- The text that the budget is read from, whatever the name it is found under. -/
theorem maxAttemptsEnv_eq_ok {p : String → Prop} :
    (∃ u, maxAttemptsEnv env = .ok u ∧ p u.2) ↔ SaysMaxAttempts env p := by
  rw [maxAttemptsEnv, SaysMaxAttempts, SaysOr, Says]
  cases env "RATE_LIMIT_MAX_ATTEMPTS" with
  | value text => simp
  | notUnicode shown => simp
  | notPresent =>
    rw [Says]
    cases env "RATE_LIMIT_MAX_FAILED_ATTEMPTS" <;> simp

theorem bucketEnv_eq_ok {T : F64Text} {burst refill : F64} {settings : BucketSettings T name} :
    bucketEnv T env name burst refill = .ok settings ↔
      DescribesBucket T env name burst refill settings := by
  simp only [bucketEnv, bind_eq_ok_iff, optionalEnv_eq_ok]
  constructor
  · rintro ⟨b, hb, r, hr, ⟨valid⟩, -, hsettings⟩
    cases hsettings
    exact ⟨hb, hr⟩
  · rintro ⟨hb, hr⟩
    exact ⟨_, hb, _, hr, ⟨settings.valid⟩, require_eq_ok.mpr settings.valid, rfl⟩

end readings

variable {T : F64Text} {process loaded : Environment} {dotenvPath : Option String} {now : ℤ}
  {started : Started T}

theorem init_eq_ok : init T process loaded dotenvPath now = .ok started ↔
    Describes T process loaded dotenvPath now started := by
  simp only [init, bind_eq_ok_iff, optionalEnv_unsigned, parseOrExit_eq_ok, requiredEnv_eq_ok,
    bucketEnv_eq_ok, parseInt_unsigned_eq_ok, parseInt_i64_eq_ok]
  constructor
  · rintro ⟨addr, haddr, cooldownText, hcooldownText, lengthText, hlengthText, canary, hcanary,
      ⟨name, attemptsText⟩, hattemptsText, url, hurl, cooldown, hcooldown, length, hlength,
      maxAttempts, hmaxAttempts, ⟨hconfig⟩, -, store, hstore, lookup, hlookup, identifiers,
      hidentifiers, concurrency, hconcurrency, ⟨hcapacity⟩, -, attempts, hattempts, ttl, httl,
      ⟨hvalid⟩, -, hstarted⟩
    cases hstarted
    exact {
      serverAddress := haddr
      databaseUrl := hurl
      canaryPath := rfl
      canary := hcanary
      canaryFromEnv := rfl
      startedAt := rfl
      cooldown := ⟨cooldownText, hcooldownText, hcooldown⟩
      secretMaxLength := ⟨lengthText, hlengthText, hlength⟩
      maxAttempts := maxAttemptsEnv_eq_ok.mp ⟨_, hattemptsText, hmaxAttempts⟩
      maxIdentifiers := hidentifiers
      maxConcurrency := hconcurrency
      ttl := httl
      store := hstore
      lookup := hlookup
      attempts := hattempts }
  · intro h
    obtain ⟨addr, url, path, cfg, store, lookup, attempts, husize, hu64⟩ := started
    obtain ⟨haddr, hurl, hpath, hcanary, hfromEnv, hstartedAt, ⟨cooldownText, hcooldownText,
      hcooldown⟩, ⟨lengthText, hlengthText, hlength⟩, hmaxAttempts, hidentifiers, hconcurrency,
      httl, hstore, hlookup, hattempts⟩ := h
    obtain ⟨⟨name, attemptsText⟩, hattemptsText, hmaxAttempts⟩ :=
      maxAttemptsEnv_eq_ok.mpr hmaxAttempts
    obtain ⟨hpos, hyear, -, -⟩ := validateConfig_eq_ok.mp cfg.config_valid
    obtain ⟨-, hidentifiersMax, -, hconcurrencyMax⟩ := validateCapacity_eq_ok.mp cfg.capacity_valid
    have hfits : i64.Fits cfg.rateLimitCooldownMinutes := by
      simp only [IntType.Fits, i64]
      omega
    have hidentifiersFit : cfg.rateLimitMaxIdentifiers ≤ u64Max := hidentifiersMax.trans (by decide)
    have hconcurrencyFit : cfg.databaseMaxConcurrency ≤ u64Max := hconcurrencyMax.trans (by decide)
    refine ⟨addr, haddr, cooldownText, hcooldownText, lengthText, hlengthText, cfg.canary, hcanary,
      _, hattemptsText, url, hurl, ⟨_, hfits⟩, hcooldown, unsignedOf _ husize, hlength,
      unsignedOf _ cfg.attempts_u8, hmaxAttempts, ⟨cfg.config_valid⟩,
      require_eq_ok.mpr cfg.config_valid, store, hstore, lookup, hlookup,
      unsignedOf _ hidentifiersFit, hidentifiers, unsignedOf _ hconcurrencyFit, hconcurrency,
      ⟨cfg.capacity_valid⟩, require_eq_ok.mpr cfg.capacity_valid, attempts, hattempts,
      unsignedOf _ hu64, httl, ⟨cfg.ttl_valid⟩, require_eq_ok.mpr cfg.ttl_valid, ?_⟩
    dsimp only at hpath hfromEnv hstartedAt
    rw [hpath]
    simp only [← hfromEnv, ← hstartedAt]
    rfl

/-! ## What a refusal says -/

/-- The variables that startup reads. -/
def startupVariables : List String :=
  ["SERVER_ADDRESS", "RATE_LIMIT_COOLDOWN", "SECRET_MAX_LENGTH", "CANARY",
    "RATE_LIMIT_MAX_ATTEMPTS", "RATE_LIMIT_MAX_FAILED_ATTEMPTS", "DATABASE_URL",
    "STORE_RATE_LIMIT_BURST", "STORE_RATE_LIMIT_REFILL_PER_SECOND",
    "LOOKUP_RATE_LIMIT_BURST", "LOOKUP_RATE_LIMIT_REFILL_PER_SECOND",
    "RATE_LIMIT_MAX_IDENTIFIERS", "DATABASE_MAX_CONCURRENCY",
    "ATTEMPTS_RATE_LIMIT_BURST", "ATTEMPTS_RATE_LIMIT_REFILL_PER_SECOND",
    "ATTEMPTS_SNAPSHOT_TTL_SECONDS"]

/-- The text has the name of a variable in it. -/
def NamesVariable (text : String) : Prop :=
  ∃ before, ∃ name ∈ startupVariables, ∃ after, text = before ++ name ++ after

/-- Where the computation refuses, it names a variable. -/
def Blames {α : Type} (x : Except Refusal α) : Prop :=
  ∀ refusal, x = .error refusal → NamesVariable refusal.message

section refusals

variable {α β : Type} {env : Environment} {name : String}

theorem Blames.bind {x : Except Refusal α} {f : α → Except Refusal β} (hx : Blames x)
    (hf : ∀ a, Blames (f a)) : Blames (x >>= f) := by
  intro refusal h
  obtain h | ⟨a, -, h⟩ := bind_eq_error_iff.mp h
  · exact hx refusal h
  · exact hf a refusal h

theorem requiredEnv_blames (hname : name ∈ startupVariables) : Blames (requiredEnv env name) := by
  intro refusal h
  rw [requiredEnv] at h
  split at h
  · cases h
  · cases h
    exact ⟨"", name, hname, " must be set: NotPresent", by simp [Refusal.message, toString]⟩
  · next shown _ =>
    cases h
    exact ⟨"", name, hname, s!" must be set: NotUnicode({shown})", by
      simp [Refusal.message, String.append_assoc, toString]⟩

theorem optionalEnv_blames {parse : String → Except String α} {default : α}
    (hname : name ∈ startupVariables) : Blames (optionalEnv parse env name default) := by
  intro refusal h
  rw [optionalEnv] at h
  split at h
  · split at h
    · cases h
    · next error _ =>
      cases h
      exact ⟨"Error: ", name, hname, s!" has an invalid value: {error}", by
        simp [Refusal.message, String.append_assoc, toString]⟩
  · cases h
  · next shown _ =>
    cases h
    exact ⟨"Error: cannot read ", name, hname,
      s!": environment variable was not valid unicode: {shown}", by
        simp [Refusal.message, String.append_assoc, toString]⟩

theorem maxAttemptsEnv_blames : Blames (maxAttemptsEnv env) := by
  intro refusal h
  rw [maxAttemptsEnv] at h
  split at h
  · cases h
  · split at h
    · cases h
    · cases h
      exact ⟨"", "RATE_LIMIT_MAX_ATTEMPTS", by decide, " must be set", rfl⟩
    · next shown _ =>
      cases h
      exact ⟨"cannot read ", "RATE_LIMIT_MAX_FAILED_ATTEMPTS", by decide,
        s!": environment variable was not valid unicode: {shown}", by
          simp [Refusal.message, ← String.append_assoc, toString]⟩
  · next shown _ =>
    cases h
    exact ⟨"cannot read ", "RATE_LIMIT_MAX_ATTEMPTS", by decide,
      s!": environment variable was not valid unicode: {shown}", by
        simp [Refusal.message, ← String.append_assoc, toString]⟩

theorem parseOrExit_blames {parse : String → Except String α} {what text rest : String}
    (hname : name ∈ startupVariables) (hwhat : what = name ++ rest) :
    Blames (parseOrExit parse what text) := by
  intro refusal h
  rw [parseOrExit] at h
  split at h
  · cases h
  · next error _ =>
    cases h
    exact ⟨"Error: ", name, hname, s!"{rest}: {error}", by
      simp [Refusal.message, hwhat, String.append_assoc, toString]⟩

/-- The text starts with the name of a variable. -/
def StartsWithVariable (text : String) : Prop :=
  ∃ name ∈ startupVariables, ∃ rest, text = name ++ rest

theorem require_blames {checked : Except String Unit}
    (h : ∀ error, checked = .error error → StartsWithVariable error) : Blames (require checked) := by
  intro refusal hr
  cases checked with
  | ok u => cases hr
  | error error =>
    obtain ⟨name, hname, rest, rfl⟩ := h error rfl
    cases hr
    exact ⟨"Error: ", name, hname, rest, by simp [Refusal.message, String.append_assoc, toString]⟩

theorem validateConfig_names {c : ℤ} {l m : ℕ} {e : String} (h : validateConfig c l m = .error e) :
    StartsWithVariable e := by
  unfold validateConfig at h
  split_ifs at h <;> cases h
  · exact ⟨"RATE_LIMIT_COOLDOWN", by decide, s!" must be greater than 0, got {c}", by
      simp [← String.append_assoc, toString]⟩
  · exact ⟨"RATE_LIMIT_COOLDOWN", by decide,
      s!" must be at most 525600 minutes (1 year), got {c}", by
        simp [← String.append_assoc, toString]⟩
  · exact ⟨"SECRET_MAX_LENGTH", by decide, " must be greater than 0", rfl⟩
  · exact ⟨"RATE_LIMIT_MAX_ATTEMPTS", by decide, " must be at least 1", rfl⟩

theorem validateCapacity_names {i d : ℕ} {e : String} (h : validateCapacity i d = .error e) :
    StartsWithVariable e := by
  unfold validateCapacity at h
  split_ifs at h <;> cases h
  · exact ⟨"RATE_LIMIT_MAX_IDENTIFIERS", by decide,
      s!" must be between 1 and {maxRateLimitIdentifiers}, got {i}", by
        simp [← String.append_assoc, toString]⟩
  · exact ⟨"DATABASE_MAX_CONCURRENCY", by decide,
      s!" must be between 1 and {maxDatabaseConcurrency}, got {d}", by
        simp [← String.append_assoc, toString]⟩

theorem validateSnapshotTtl_names {n : ℕ} {e : String} (h : validateSnapshotTtl n = .error e) :
    StartsWithVariable e := by
  unfold validateSnapshotTtl at h
  split_ifs at h
  cases h
  exact ⟨"ATTEMPTS_SNAPSHOT_TTL_SECONDS", by decide, " must be greater than 0", rfl⟩

theorem validateTokenBucket_names {display : F64 → String} {burst refill : F64} {e : String}
    (hburst : s!"{name}_RATE_LIMIT_BURST" ∈ startupVariables)
    (hrefill : s!"{name}_RATE_LIMIT_REFILL_PER_SECOND" ∈ startupVariables)
    (h : validateTokenBucket display name burst refill = .error e) : StartsWithVariable e := by
  have hburstText : "_RATE_LIMIT_BURST must be finite and > 0, got " =
      "_RATE_LIMIT_BURST" ++ " must be finite and > 0, got " := rfl
  have hrefillText : "_RATE_LIMIT_REFILL_PER_SECOND must be finite and >= 0, got " =
      "_RATE_LIMIT_REFILL_PER_SECOND" ++ " must be finite and >= 0, got " := rfl
  unfold validateTokenBucket at h
  dsimp only at h
  split_ifs at h <;> cases h
  · refine ⟨_, hburst, s!" must be finite and > 0, got {display burst}", ?_⟩
    rw [hburstText]
    simp only [toString, String.append_assoc]
  · refine ⟨_, hrefill, s!" must be finite and >= 0, got {display refill}", ?_⟩
    rw [hrefillText]
    simp only [toString, String.append_assoc]

theorem bucketEnv_blames {T : F64Text} {burst refill : F64}
    (hburst : s!"{name}_RATE_LIMIT_BURST" ∈ startupVariables)
    (hrefill : s!"{name}_RATE_LIMIT_REFILL_PER_SECOND" ∈ startupVariables) :
    Blames (bucketEnv T env name burst refill) := by
  rw [bucketEnv]
  refine (optionalEnv_blames hburst).bind fun b => (optionalEnv_blames hrefill).bind fun r =>
    (require_blames fun e => validateTokenBucket_names hburst hrefill).bind fun _ => ?_
  exact nofun

end refusals

theorem maxAttemptsEnv_name {env : Environment} {name text : String}
    (h : maxAttemptsEnv env = .ok (name, text)) : name ∈ startupVariables := by
  rw [maxAttemptsEnv] at h
  repeat' split at h
  all_goals cases h
  all_goals decide

theorem init_blames : Blames (init T process loaded dotenvPath now) := by
  have hattempts : ∀ {β : Type} {f : String × String → Except Refusal β},
      (∀ name ∈ startupVariables, ∀ text, Blames (f (name, text))) →
      Blames (maxAttemptsEnv loaded >>= f) := by
    intro β f hf refusal h
    obtain h | ⟨⟨name, text⟩, hu, h⟩ := bind_eq_error_iff.mp h
    · exact maxAttemptsEnv_blames refusal h
    · exact hf name (maxAttemptsEnv_name hu) text refusal h
  have hcooldown : "RATE_LIMIT_COOLDOWN must be a integer" =
      "RATE_LIMIT_COOLDOWN" ++ " must be a integer" := rfl
  have hlength : "SECRET_MAX_LENGTH must be a usize" =
      "SECRET_MAX_LENGTH" ++ " must be a usize" := rfl
  have hmax : ∀ name : String, s!"{name} must be a u8" = name ++ " must be a u8" := fun _ => rfl
  rw [init]
  refine (requiredEnv_blames (by decide)).bind fun addr => ?_
  refine (requiredEnv_blames (by decide)).bind fun cooldownText => ?_
  refine (requiredEnv_blames (by decide)).bind fun lengthText => ?_
  refine (requiredEnv_blames (by decide)).bind fun canary => ?_
  refine hattempts fun name hname text => ?_
  refine (requiredEnv_blames (by decide)).bind fun url => ?_
  refine (parseOrExit_blames (by decide) hcooldown).bind fun cooldown => ?_
  refine (parseOrExit_blames (by decide) hlength).bind fun length => ?_
  refine (parseOrExit_blames hname (hmax name)).bind fun maxAttempts => ?_
  refine (require_blames fun _ => validateConfig_names).bind fun hconfig => ?_
  refine (bucketEnv_blames (by decide) (by decide)).bind fun store => ?_
  refine (bucketEnv_blames (by decide) (by decide)).bind fun lookup => ?_
  refine (optionalEnv_blames (by decide)).bind fun identifiers => ?_
  refine (optionalEnv_blames (by decide)).bind fun concurrency => ?_
  refine (require_blames fun _ => validateCapacity_names).bind fun hcapacity => ?_
  refine (bucketEnv_blames (by decide) (by decide)).bind fun attempts => ?_
  refine (optionalEnv_blames (by decide)).bind fun ttl => ?_
  refine (require_blames fun _ => validateSnapshotTtl_names).bind fun hvalid => ?_
  exact nofun

/-- **What startup accepts.** The server starts exactly when its environment describes valid
settings, a variable that is set never giving way to a default, and it starts with them;
where it refuses it names a variable. As `dotenv` keeps the variables that exist, a canary
of the process environment is the one that is served. -/
theorem startup_exact (T : F64Text) (process loaded : Environment) (dotenvPath : Option String)
    (now : ℤ) :
    (∀ started, init T process loaded dotenvPath now = .ok started ↔
      Describes T process loaded dotenvPath now started) ∧
    (∀ refusal, init T process loaded dotenvPath now = .error refusal →
      NamesVariable refusal.message) ∧
    ∀ started canary, (∀ name text, process name = .value text → loaded name = .value text) →
      init T process loaded dotenvPath now = .ok started → process "CANARY" = .value canary →
      started.cfg.canaryFromEnv = true ∧ started.cfg.canary = canary := by
  refine ⟨fun started => init_eq_ok, init_blames, fun started canary hkeeps hstarted hcanary => ?_⟩
  have h := init_eq_ok.mp hstarted
  rw [h.canaryFromEnv, hcanary]
  exact ⟨rfl, (EnvVar.value.inj (h.canary.symm.trans (hkeeps _ _ hcanary)))⟩

/-! ## Writing settings down -/

/-- The environment that a server with these settings is started from. -/
def Started.environment (started : Started T) : Environment
  | "SERVER_ADDRESS" => .value started.serverAddress
  | "DATABASE_URL" => .value started.databaseUrl
  | "CANARY" => .value started.cfg.canary
  | "RATE_LIMIT_COOLDOWN" => .value (toString started.cfg.rateLimitCooldownMinutes)
  | "SECRET_MAX_LENGTH" => .value (toString started.cfg.secretMaxLength)
  | "RATE_LIMIT_MAX_ATTEMPTS" => .value (toString started.cfg.rateLimitMaxAttempts)
  | "RATE_LIMIT_MAX_IDENTIFIERS" => .value (toString started.cfg.rateLimitMaxIdentifiers)
  | "DATABASE_MAX_CONCURRENCY" => .value (toString started.cfg.databaseMaxConcurrency)
  | "ATTEMPTS_SNAPSHOT_TTL_SECONDS" => .value (toString started.cfg.attemptsSnapshotTtlSeconds)
  | "STORE_RATE_LIMIT_BURST" => .value (T.display started.storeTokenBucket.burst)
  | "STORE_RATE_LIMIT_REFILL_PER_SECOND" => .value (T.display started.storeTokenBucket.refill)
  | "LOOKUP_RATE_LIMIT_BURST" => .value (T.display started.lookupTokenBucket.burst)
  | "LOOKUP_RATE_LIMIT_REFILL_PER_SECOND" => .value (T.display started.lookupTokenBucket.refill)
  | "ATTEMPTS_RATE_LIMIT_BURST" => .value (T.display started.attemptsTokenBucket.burst)
  | "ATTEMPTS_RATE_LIMIT_REFILL_PER_SECOND" => .value (T.display started.attemptsTokenBucket.refill)
  | _ => .notPresent

/-- The six rates among the settings. -/
def Started.rates (started : Started T) : List F64 :=
  [started.storeTokenBucket.burst, started.storeTokenBucket.refill,
    started.lookupTokenBucket.burst, started.lookupTokenBucket.refill,
    started.attemptsTokenBucket.burst, started.attemptsTokenBucket.refill]

theorem writes_toString (n : ℕ) : Writes n (toString n) :=
  IntType.parse_eq_ok.mp (IntType.parse_toString (unsignedOf n le_rfl))

/-- **Settings are read back.** Every valid configuration can be written down: a server
started from the texts of its settings has these settings. -/
theorem startup_round_trip (T : F64Text) (started : Started T) (process : Environment)
    (hcanary : (process "CANARY").isOk = started.cfg.canaryFromEnv)
    (hparse : ∀ x ∈ started.rates, T.parse (T.display x) = .ok x) :
    init T process started.environment (some started.canaryPath)
      started.cfg.attemptsCollectionStartedAt = .ok started := by
  simp only [Started.rates, List.forall_mem_cons] at hparse
  obtain ⟨hstoreBurst, hstoreRefill, hlookupBurst, hlookupRefill, hattemptsBurst, hattemptsRefill,
    -⟩ := hparse
  have hcooldown : i64.Fits started.cfg.rateLimitCooldownMinutes := by
    obtain ⟨hpos, hyear, -⟩ := validateConfig_eq_ok.mp started.cfg.config_valid
    simp only [IntType.Fits, i64]
    omega
  exact init_eq_ok.mpr {
    serverAddress := rfl
    databaseUrl := rfl
    canaryPath := rfl
    canary := rfl
    canaryFromEnv := hcanary.symm
    startedAt := rfl
    cooldown := ⟨_, rfl, IntType.parse_eq_ok.mp (IntType.parse_toString (⟨_, hcooldown⟩ : i64.Value))⟩
    secretMaxLength := ⟨_, rfl, writes_toString _⟩
    maxAttempts := Or.inl ⟨_, rfl, writes_toString _⟩
    maxIdentifiers := Or.inl ⟨_, rfl, writes_toString _⟩
    maxConcurrency := Or.inl ⟨_, rfl, writes_toString _⟩
    ttl := Or.inl ⟨_, rfl, writes_toString _⟩
    store := ⟨Or.inl ⟨_, rfl, hstoreBurst⟩, Or.inl ⟨_, rfl, hstoreRefill⟩⟩
    lookup := ⟨Or.inl ⟨_, rfl, hlookupBurst⟩, Or.inl ⟨_, rfl, hlookupRefill⟩⟩
    attempts := ⟨Or.inl ⟨_, rfl, hattemptsBurst⟩, Or.inl ⟨_, rfl, hattemptsRefill⟩⟩ }

/-- Reading and writing of the rates that are whole numbers. -/
def F64Text.sample : F64Text where
  parse text :=
    match i64.parse text with
    | .ok value => .ok (.finite value.val)
    | .error _ => .error "invalid float literal"
  display
    | .finite value => toString value.num
    | .infinite negative => if negative then "-inf" else "inf"
    | .nan => "NaN"

/-- The sample configuration with the default buckets. -/
def Started.sample : Started .sample where
  serverAddress := "127.0.0.1:3000"
  databaseUrl := "db.sqlite3"
  canaryPath := ".env"
  cfg := .sample
  storeTokenBucket := ⟨.finite 10, .finite 2, by decide⟩
  lookupTokenBucket := ⟨.finite 100, .finite 5, by decide⟩
  attemptsTokenBucket := ⟨.finite 20, .finite 2, by decide⟩
  secretMaxLength_usize := by decide
  ttl_u64 := by decide

/-- The sample settings, with their canary in the environment of the process. -/
theorem startup_round_trip_sample :
    init .sample (fun _ => .value "canary") Started.sample.environment (some ".env") 0 =
      .ok Started.sample :=
  startup_round_trip .sample Started.sample _ rfl (by decide +kernel)

end RecoverBull
