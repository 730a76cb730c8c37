import RecoverBull.Env
import Mathlib.Data.Rat.Init
import Mathlib.Algebra.Field.Rat
import Mathlib.Algebra.Order.Ring.Rat

/-!
# Token buckets and the sweeper

`rate_limit.rs`. The bucket is generic over the number type of its fields, so
that what is proved of the handlers holds of the machine floats as well as of
exact rationals.
-/

namespace RecoverBull

/-- The `f64` operations a token bucket uses. -/
class BucketNumber (F : Type) extends Add F, Sub F, Mul F, Min F, One F where
  le : F → F → Bool
  /-- `Duration::as_secs_f64` of a number of nanoseconds. -/
  asSecs : ℕ → F

instance : BucketNumber ℚ where
  le a b := decide (a ≤ b)
  asSecs n := n / 1000000000

structure TokenBucket (F : Type) where
  tokens : F
  capacity : F
  refillPerSecond : F
  lastRefill : ℕ
  deriving DecidableEq

namespace TokenBucket

variable {F : Type} [BucketNumber F]

def new (capacity refillPerSecond : F) (now : ℕ) : TokenBucket F where
  tokens := capacity
  capacity := capacity
  refillPerSecond := refillPerSecond
  lastRefill := now

/-- Refills the tokens elapsed since the last call, then tries to consume one.
`duration_since` saturates at zero, as subtraction here does. -/
def tryConsume (bucket : TokenBucket F) (now : ℕ) : Bool × TokenBucket F :=
  let elapsed := BucketNumber.asSecs (now - bucket.lastRefill)
  let tokens := min (bucket.tokens + elapsed * bucket.refillPerSecond) bucket.capacity
  if BucketNumber.le 1 tokens then
    (true, { bucket with tokens := tokens - 1, lastRefill := now })
  else
    (false, { bucket with tokens := tokens, lastRefill := now })

end TokenBucket

/-- The test of the three `retain` calls: the sweeper's, the capacity check's
and the snapshot's. -/
def withinCooldown (cfg : Config) (now : ℤ) (info : RateLimitInfo) : Bool :=
  now - info.lastCandidateAt ≤ cfg.rateLimitCooldown

/-- `retain` with that test. -/
def retainWithinCooldown (cfg : Config) (now : ℤ) (map : RateLimitMap) : RateLimitMap :=
  map.retain fun _ info => withinCooldown cfg now info

/-- Removes the entries whose last candidate is older than the cooldown. -/
def sweepExpiredIdentifiers (cfg : Config) (now : ℤ) (map : RateLimitMap) : RateLimitMap :=
  retainWithinCooldown cfg now map

end RecoverBull
