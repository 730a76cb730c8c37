import RecoverBull.RateLimit
import RecoverBull.Lib.Reservoir
import Mathlib.Algebra.BigOperators.Ring.Finset

/-!
# What a token bucket admits

Token buckets with exact rational fields, over whole histories of calls: a bucket is
a reservoir from which the admitted calls draw one token each.
-/

namespace RecoverBull

namespace TokenBucket

/-- Seconds since the origin of the monotonic clock. -/
def secs (n : ℕ) : ℚ := BucketNumber.asSecs n

/-- The bucket created at `t 0`, after its calls at `t 1` to `t j`. -/
def after (c r : ℚ) (t : ℕ → ℕ) : ℕ → TokenBucket ℚ
  | 0 => .new c r (t 0)
  | j + 1 => ((after c r t j).tryConsume (t (j + 1))).2

/-- Whether the call `j` is admitted; there is no call `0`. -/
def admits (c r : ℚ) (t : ℕ → ℕ) : ℕ → Bool
  | 0 => false
  | j + 1 => ((after c r t j).tryConsume (t (j + 1))).1

/-- The number of admitted calls among `max i 1` to `j - 1`. -/
def admitted (c r : ℚ) (t : ℕ → ℕ) (i j : ℕ) : ℕ :=
  ((Finset.Ico (max i 1) j).filter fun k => admits c r t k = true).card

/-- What the call `k` draws. -/
def drawn (c r : ℚ) (t : ℕ → ℕ) (k : ℕ) : ℚ := if admits c r t k = true then 1 else 0

variable {c r : ℚ} {t : ℕ → ℕ} {j : ℕ}

theorem secs_eq (n : ℕ) : secs n = n / 1000000000 := rfl

theorem secs_mono {a b : ℕ} (h : a ≤ b) : secs a ≤ secs b := by
  rw [secs_eq, secs_eq]
  have hcast : (a : ℚ) ≤ b := Nat.cast_le.mpr h
  linarith

theorem secs_sub {a b : ℕ} (h : a ≤ b) : secs (b - a) = secs b - secs a := by
  rw [secs_eq, secs_eq, secs_eq, Nat.cast_sub h]
  ring

theorem tryConsume_eq (b : TokenBucket ℚ) (now : ℕ) :
    b.tryConsume now =
      if 1 ≤ min (b.tokens + secs (now - b.lastRefill) * b.refillPerSecond) b.capacity then
        (true, { b with
          tokens := min (b.tokens + secs (now - b.lastRefill) * b.refillPerSecond) b.capacity - 1
          lastRefill := now })
      else
        (false, { b with
          tokens := min (b.tokens + secs (now - b.lastRefill) * b.refillPerSecond) b.capacity
          lastRefill := now }) := by
  have hle : ∀ x y : ℚ, BucketNumber.le x y = decide (x ≤ y) := fun _ _ => rfl
  simp only [tryConsume, hle, decide_eq_true_eq]
  rfl

/-- The settings of a bucket never change. -/
theorem after_settings (c r : ℚ) (t : ℕ → ℕ) (j : ℕ) :
    (after c r t j).capacity = c ∧ (after c r t j).refillPerSecond = r ∧
      (after c r t j).lastRefill = t j := by
  induction j with
  | zero => exact ⟨rfl, rfl, rfl⟩
  | succ j ih =>
    rw [after, tryConsume_eq]
    split
    · exact ⟨ih.1, ih.2.1, rfl⟩
    · exact ⟨ih.1, ih.2.1, rfl⟩

/-- The tokens of a bucket are the level of the reservoir. -/
theorem after_tokens (ht : Monotone t) (j : ℕ) :
    (after c r t j).tokens =
      Reservoir.level c r (fun k => secs (t k)) (drawn c r t) j := by
  induction j with
  | zero => rfl
  | succ j ih =>
    obtain ⟨hcap, hrefill, hlast⟩ := after_settings c r t j
    have hsecs : secs (t (j + 1) - t j) = secs (t (j + 1)) - secs (t j) :=
      secs_sub (ht (Nat.le_succ j))
    rw [Reservoir.level, drawn, admits, after, tryConsume_eq, hcap, hrefill, hlast, hsecs, ih]
    split
    · rfl
    · simp

/-- A call is admitted when a token is on offer. -/
theorem admits_succ_iff (ht : Monotone t) :
    admits c r t (j + 1) = true ↔
      1 ≤ Reservoir.offered c r (fun k => secs (t k)) (drawn c r t) j := by
  obtain ⟨hcap, hrefill, hlast⟩ := after_settings c r t j
  have hsecs : secs (t (j + 1) - t j) = secs (t (j + 1)) - secs (t j) :=
    secs_sub (ht (Nat.le_succ j))
  rw [Reservoir.offered, admits, tryConsume_eq, hcap, hrefill, hlast, hsecs, after_tokens ht]
  split
  · next h => exact iff_of_true rfl h
  · next h => exact iff_of_false Bool.false_ne_true h

theorem sum_drawn (i j : ℕ) :
    ∑ k ∈ Finset.Ico (max i 1) j, drawn c r t k = admitted c r t i j := by
  rw [admitted, ← Finset.sum_boole]
  rfl

/-- The calls draw at most what is on offer, and nothing back. -/
theorem drawn_spec (ht : Monotone t) (j : ℕ) : 0 ≤ drawn c r t (j + 1) ∧
    (0 ≤ Reservoir.offered c r (fun k => secs (t k)) (drawn c r t) j →
      drawn c r t (j + 1) ≤ Reservoir.offered c r (fun k => secs (t k)) (drawn c r t) j) := by
  rw [drawn]
  split
  · next hadmit => exact ⟨zero_le_one, fun _ => (admits_succ_iff ht).mp hadmit⟩
  · exact ⟨le_rfl, id⟩

/-- The tokens stay between nothing and the capacity. -/
theorem after_tokens_mem (hc : 0 ≤ c) (hr : 0 ≤ r) (ht : Monotone t) (j : ℕ) :
    0 ≤ (after c r t j).tokens ∧ (after c r t j).tokens ≤ c := by
  rw [after_tokens ht]
  constructor
  · have hsecs : ∀ j, secs (t j) ≤ secs (t (j + 1)) := fun j => secs_mono (ht (Nat.le_succ j))
    exact (Reservoir.level_nonneg hc hr hsecs (fun j => (drawn_spec ht j).2) j).1
  · exact Reservoir.level_le fun j => (drawn_spec ht j).1

/-- A call is admitted exactly when every start leaves room for it. -/
theorem admits_iff (ht : Monotone t) (hj : 1 ≤ j) :
    admits c r t j = true ↔
      ∀ i ≤ j, (admitted c r t i j : ℚ) + 1 ≤ c + r * (secs (t j) - secs (t i)) := by
  obtain ⟨j, rfl⟩ := Nat.exists_eq_add_of_le' hj
  rw [admits_succ_iff ht, Reservoir.le_offered_iff]
  have hroom : ∀ i, 1 ≤ Reservoir.room c r (fun k => secs (t k)) (drawn c r t) i j
        (secs (t (j + 1))) ↔
      (admitted c r t i (j + 1) : ℚ) + 1 ≤ c + r * (secs (t (j + 1)) - secs (t i)) := by
    intro i
    rw [Reservoir.room, sum_drawn, le_sub_iff_add_le, add_comm]
  constructor
  · intro h i hi
    exact (hroom i).mp (h i hi)
  · intro h i hi
    exact (hroom i).mpr (h i hi)

/-- The admitted calls, up to the call `n`, made in the interval from `a` to `b`. -/
def admittedWithin (c r : ℚ) (t : ℕ → ℕ) (n : ℕ) (a b : ℚ) : Finset ℕ :=
  (Finset.Icc 1 n).filter fun k => admits c r t k = true ∧ a ≤ secs (t k) ∧ secs (t k) ≤ b

theorem card_admittedWithin_le (hc : 0 ≤ c) (hr : 0 ≤ r) (ht : Monotone t) (n : ℕ) {a b : ℚ}
    (hab : a ≤ b) : ((admittedWithin c r t n a b).card : ℚ) ≤ c + r * (b - a) := by
  obtain hempty | hne := (admittedWithin c r t n a b).eq_empty_or_nonempty
  · rw [hempty, Finset.card_empty, Nat.cast_zero]
    exact add_nonneg hc (mul_nonneg hr (sub_nonneg.mpr hab))
  · -- The last admitted call of the interval, against the start at the first one.
    have hmem : ∀ k, k ∈ admittedWithin c r t n a b ↔
        (1 ≤ k ∧ k ≤ n) ∧ admits c r t k = true ∧ a ≤ secs (t k) ∧ secs (t k) ≤ b := by
      intro k
      rw [admittedWithin, Finset.mem_filter, Finset.mem_Icc]
    have hfirst := (hmem _).mp ((admittedWithin c r t n a b).min'_mem hne)
    have hlast := (hmem _).mp ((admittedWithin c r t n a b).max'_mem hne)
    have hle : ∀ k ∈ admittedWithin c r t n a b, (admittedWithin c r t n a b).min' hne ≤ k ∧
        k ≤ (admittedWithin c r t n a b).max' hne :=
      fun k hk => ⟨Finset.min'_le _ k hk, Finset.le_max' _ k hk⟩
    generalize (admittedWithin c r t n a b).min' hne = i at hfirst hle
    generalize (admittedWithin c r t n a b).max' hne = j at hlast hle
    have hij : i ≤ j := (hle i ((hmem i).mpr hfirst)).2
    have hcard : (admittedWithin c r t n a b).card ≤ admitted c r t i j + 1 := by
      have hsub : admittedWithin c r t n a b ⊆
          insert j ((Finset.Ico (max i 1) j).filter fun k => admits c r t k = true) := by
        intro k hk
        obtain ⟨hik, hkj⟩ := hle k hk
        obtain ⟨⟨h1, -⟩, hadmit, -⟩ := (hmem k).mp hk
        rw [Finset.mem_insert, Finset.mem_filter, Finset.mem_Ico]
        obtain rfl | hlt := Nat.eq_or_lt_of_le hkj
        · exact Or.inl rfl
        · exact Or.inr ⟨⟨max_le hik h1, hlt⟩, hadmit⟩
      exact le_trans (Finset.card_le_card hsub) (Finset.card_insert_le _ _)
    have hbound := (admits_iff ht hlast.1.1).mp hlast.2.1 i hij
    have hcast : ((admittedWithin c r t n a b).card : ℚ) ≤ admitted c r t i j + 1 := by
      exact_mod_cast hcard
    have hspan : r * (secs (t j) - secs (t i)) ≤ r * (b - a) :=
      mul_le_mul_of_nonneg_left (by linarith [hfirst.2.2.1, hlast.2.2.2]) hr
    linarith

/-- **A token bucket admits exactly what its rate allows.** -/
theorem admits_exactly (c r : ℚ) (hc : 0 ≤ c) (hr : 0 ≤ r) (t : ℕ → ℕ) (ht : Monotone t) :
    (∀ j, 1 ≤ j → (admits c r t j = true ↔
      ∀ i ≤ j, (admitted c r t i j : ℚ) + 1 ≤ c + r * (secs (t j) - secs (t i)))) ∧
    (∀ n a b, a ≤ b → ((admittedWithin c r t n a b).card : ℚ) ≤ c + r * (b - a)) ∧
    ∀ j, 0 ≤ (after c r t j).tokens ∧ (after c r t j).tokens ≤ c := by
  refine ⟨fun j hj => ?_, fun n a b hab => ?_, fun j => ?_⟩
  · exact admits_iff ht hj
  · exact card_admittedWithin_le hc hr ht n hab
  · exact after_tokens_mem hc hr ht j

/-- Ten tokens, two more a second, a call every nanosecond. -/
theorem admits_exactly_sample :
    (∀ j, 1 ≤ j → (admits 10 2 id j = true ↔
      ∀ i ≤ j, (admitted 10 2 id i j : ℚ) + 1 ≤ 10 + 2 * (secs j - secs i))) ∧
    ∀ n, ((admittedWithin 10 2 id n 0 1).card : ℚ) ≤ 12 := by
  obtain ⟨hadmits, hwithin, -⟩ :=
    admits_exactly 10 2 (by norm_num) (by norm_num) id monotone_id
  refine ⟨hadmits, fun n => ?_⟩
  have hn := hwithin n 0 1 zero_le_one
  linarith

/-! ## Usable buckets -/

/-- What startup promises of a bucket: the first call passes and, when the bucket
refills, so does every call that waited for a token. -/
def Usable (burst refill : ℚ) : Prop :=
  (∀ t, Monotone t → admits burst refill t 1 = true) ∧
    (0 < refill → ∀ t, Monotone t → ∀ j, 1 / refill ≤ secs (t (j + 1)) - secs (t j) →
      admits burst refill t (j + 1) = true)

/-- A call that waited for a token finds one, if the bucket can hold it. -/
theorem admits_of_waited (hc : 1 ≤ c) (hr : 0 < r) (ht : Monotone t)
    (hwait : 1 / r ≤ secs (t (j + 1)) - secs (t j)) : admits c r t (j + 1) = true := by
  rw [admits_succ_iff ht, Reservoir.offered, le_min_iff]
  refine ⟨?_, hc⟩
  have hpos : 0 ≤ c := le_trans zero_le_one hc
  have hlevel := (after_tokens_mem hpos hr.le ht j).1
  rw [after_tokens ht] at hlevel
  have hrefill : 1 ≤ (secs (t (j + 1)) - secs (t j)) * r := (div_le_iff₀ hr).mp hwait
  linarith

/-- A bucket that cannot hold a whole token admits nothing. -/
theorem not_admits_of_lt_one (hc : c < 1) (ht : Monotone t) (j : ℕ) : admits c r t j = false := by
  cases j with
  | zero => rfl
  | succ j =>
    rw [← Bool.not_eq_true, admits_succ_iff ht, not_le]
    exact lt_of_le_of_lt Reservoir.offered_le hc

/-- **Which accepted settings give a usable bucket**: those with a burst of at
least one token. -/
theorem usable_iff (display : F64 → String) (name : String) (burst refill : ℚ)
    (hok : validateTokenBucket display name (.finite burst) (.finite refill) = .ok ()) :
    Usable burst refill ↔ 1 ≤ burst := by
  obtain ⟨b, r, hb, hr, hpos, hnonneg⟩ := validateTokenBucket_eq_ok.mp hok
  cases hb
  cases hr
  constructor
  · intro h
    by_contra hlt
    have hnot := not_admits_of_lt_one (r := refill) (not_le.mp hlt) monotone_id 1
    rw [h.1 id monotone_id] at hnot
    cases hnot
  · intro hc
    refine ⟨fun t ht => ?_, fun hr t ht j hwait => admits_of_waited hc hr ht hwait⟩
    have hstart : secs (t 0) ≤ secs (t 1) := secs_mono (ht (Nat.zero_le 1))
    have hrefill : 0 ≤ (secs (t 1) - secs (t 0)) * refill :=
      mul_nonneg (sub_nonneg.mpr hstart) hnonneg
    rw [admits_succ_iff ht, Reservoir.offered, le_min_iff, Reservoir.level]
    exact ⟨by linarith, hc⟩

/-- The default store settings: a burst of ten, two tokens a second. -/
theorem usable_iff_sample : Usable 10 2 :=
  (usable_iff (fun _ => "") "STORE" 10 2
    (validateTokenBucket_eq_ok.mpr ⟨10, 2, rfl, rfl, by norm_num, by norm_num⟩)).mpr (by norm_num)

/-- Startup accepts a burst of half a token, and the bucket admits no call. -/
theorem half_burst_unusable :
    validateTokenBucket (fun _ => "") "STORE" (.finite (1 / 2)) (.finite 1) = .ok () ∧
      ¬Usable (1 / 2) 1 ∧ ∀ t, Monotone t → ∀ j, admits (1 / 2) 1 t j = false := by
  have hnever : ∀ t, Monotone t → ∀ j, admits (1 / 2) 1 t j = false :=
    fun t ht j => not_admits_of_lt_one (by norm_num) ht j
  refine ⟨validateTokenBucket_eq_ok.mpr ⟨1 / 2, 1, rfl, rfl, by norm_num, by norm_num⟩, ?_, hnever⟩
  rintro ⟨hfirst, -⟩
  have hid := hfirst id monotone_id
  rw [hnever id monotone_id] at hid
  cases hid

end TokenBucket

end RecoverBull
