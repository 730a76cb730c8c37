import RecoverBull.Handlers.Attempts

/-!
# How long a snapshot may be cached downstream

`max-age` is the remaining freshness of the snapshot in whole seconds. Since it is
rounded up, a cache that honours it can outlive the snapshot.
-/

namespace RecoverBull

variable {createdAt ttl now u : ℕ}

/-- What is left of the time to live. -/
def remainingFreshness (createdAt ttl now : ℕ) : ℕ := ttl - (now - createdAt)

/-- `remaining_max_age` in the arithmetic of `u64`; `none` where the addition overflows. -/
def u64MaxAge (createdAt ttl now : ℕ) : Option ℕ :=
  let remaining := remainingFreshness createdAt ttl now
  let seconds := remaining / 1000000000 + if remaining % 1000000000 > 0 then 1 else 0
  if seconds ≤ u64Max then some (max seconds 1) else none

/-- A cache keeps a response it got at `now` for `maxAge` seconds. -/
def KeptUntil (now maxAge u : ℕ) : Prop := now ≤ u ∧ u ≤ now + maxAge * 1000000000

instance (now maxAge u : ℕ) : Decidable (KeptUntil now maxAge u) :=
  inferInstanceAs (Decidable (_ ∧ _))

/-- What `max-age` promises a downstream cache. -/
structure CacheWithinSnapshot (createdAt ttl now : ℕ) : Prop where
  /-- With a second left, no cache serves the response after the rebuild is due. -/
  kept : 1000000000 ≤ remainingFreshness createdAt ttl now →
    ∀ u, KeptUntil now (remainingMaxAge createdAt ttl now) u → u ≤ createdAt + ttl
  last : remainingFreshness createdAt ttl now < 1000000000 → remainingMaxAge createdAt ttl now = 1
  fits : u64MaxAge createdAt ttl now = some (remainingMaxAge createdAt ttl now)

/-- With a second left, `max-age` is the remaining freshness rounded up. -/
theorem remainingMaxAge_bounds (h : 1000000000 ≤ remainingFreshness createdAt ttl now) :
    remainingFreshness createdAt ttl now ≤ remainingMaxAge createdAt ttl now * 1000000000 ∧
      remainingMaxAge createdAt ttl now * 1000000000 <
        remainingFreshness createdAt ttl now + 1000000000 := by
  unfold remainingMaxAge remainingFreshness at *
  dsimp only
  generalize ttl - (now - createdAt) = remaining at *
  split <;> omega

/-- A whole number of seconds is not rounded. -/
theorem remainingMaxAge_mul_iff (h : 1000000000 ≤ remainingFreshness createdAt ttl now) :
    remainingMaxAge createdAt ttl now * 1000000000 = remainingFreshness createdAt ttl now ↔
      remainingFreshness createdAt ttl now % 1000000000 = 0 := by
  obtain ⟨hle, hlt⟩ := remainingMaxAge_bounds h
  omega

theorem remainingMaxAge_eq_one (h : remainingFreshness createdAt ttl now < 1000000000) :
    remainingMaxAge createdAt ttl now = 1 := by
  unfold remainingMaxAge remainingFreshness at *
  dsimp only
  generalize ttl - (now - createdAt) = remaining at *
  split <;> omega

/-- A time to live of whole seconds that fits a `u64` leaves room for the carry: where
there is a fraction, the remaining seconds are fewer. -/
theorem u64MaxAge_eq {seconds : ℕ} (h : seconds ≤ u64Max) :
    u64MaxAge createdAt (seconds * 1000000000) now =
      some (remainingMaxAge createdAt (seconds * 1000000000) now) := by
  unfold u64MaxAge remainingFreshness
  dsimp only
  rw [if_pos]
  · rfl
  · generalize hr : seconds * 1000000000 - (now - createdAt) = remaining
    split <;> omega

/-- A cache stays within the snapshot exactly where the remaining freshness is a whole
number of seconds, or less than one. -/
theorem cacheWithinSnapshot_iff {seconds : ℕ} (hvalid : validateSnapshotTtl seconds = .ok ())
    (hu64 : seconds ≤ u64Max) (createdAt now : ℕ) :
    CacheWithinSnapshot createdAt (seconds * 1000000000) now ↔
      remainingFreshness createdAt (seconds * 1000000000) now < 1000000000 ∨
        remainingFreshness createdAt (seconds * 1000000000) now % 1000000000 = 0 := by
  have hpos := validateSnapshotTtl_eq_ok.mp hvalid
  generalize httl : seconds * 1000000000 = ttl
  constructor
  · intro h
    by_contra hc
    obtain ⟨hsecond, hfraction⟩ := not_or.mp hc
    have hsecond := Nat.not_lt.mp hsecond
    have hcreated : createdAt ≤ now := by
      -- Before its creation the whole time to live would be left.
      by_contra hearly
      have hzero : now - createdAt = 0 := by omega
      apply hfraction
      rw [remainingFreshness, hzero, Nat.sub_zero, ← httl]
      exact Nat.mul_mod_left seconds _
    have hle := (remainingMaxAge_bounds hsecond).1
    -- The last instant at which the response is kept.
    have hlate := h.kept hsecond (now + remainingMaxAge createdAt ttl now * 1000000000)
      ⟨Nat.le_add_right _ _, le_rfl⟩
    refine hfraction ((remainingMaxAge_mul_iff hsecond).mp (le_antisymm ?_ hle))
    rw [remainingFreshness]
    omega
  · intro h
    refine ⟨?_, remainingMaxAge_eq_one, ?_⟩
    · intro hsecond u ⟨_, hu⟩
      have hwhole := (remainingMaxAge_mul_iff hsecond).mpr (h.resolve_left (Nat.not_lt.mpr hsecond))
      rw [hwhole] at hu
      unfold remainingFreshness at hu hsecond
      omega
    · rw [← httl]
      exact u64MaxAge_eq hu64

theorem cacheWithinSnapshot_iff_minute :
    CacheWithinSnapshot 0 (60 * 1000000000) 1000000000 ↔
      remainingFreshness 0 (60 * 1000000000) 1000000000 < 1000000000 ∨
        remainingFreshness 0 (60 * 1000000000) 1000000000 % 1000000000 = 0 :=
  cacheWithinSnapshot_iff (by decide) (by decide) 0 1000000000

/-- Half a second into a time to live of a minute, `max-age` is a minute, and a cache
serves the snapshot for half a second after its rebuild is due. -/
theorem cache_outlives_snapshot :
    validateSnapshotTtl 60 = .ok () ∧ ¬CacheWithinSnapshot 0 (60 * 1000000000) 500000000 := by
  refine ⟨by decide, fun h => ?_⟩
  have hlate := h.kept (by decide) 60500000000 (by decide)
  exact absurd hlate (by decide)

end RecoverBull
