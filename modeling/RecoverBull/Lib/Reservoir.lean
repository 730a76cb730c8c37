import Mathlib.Algebra.BigOperators.Intervals
import Mathlib.Algebra.Order.Ring.Defs
import Mathlib.Tactic.Ring
import Mathlib.Tactic.Linarith

/-!
# Reservoirs

A reservoir of capacity `c` starts full, fills at rate `r` and never holds more than
`c`. At the instants `t 1, t 2, …` the amounts `a 1, a 2, …` are withdrawn.

## Main results

- `Reservoir.le_offered_iff`: what is on offer at a withdrawal is the least of what
  the starts `t 0, t 1, …` leave
- `Reservoir.level_nonneg`: withdrawals that the offer covers leave no debt
-/

namespace Reservoir

open Finset

variable {K : Type*} [CommRing K]

/-- What the start `i` leaves at the instant `u` once the withdrawals from there up to
`j` are made. The start `0` is no withdrawal. -/
def room (c r : K) (t a : ℕ → K) (i j : ℕ) (u : K) : K :=
  c + r * (u - t i) - ∑ k ∈ Ico (max i 1) (j + 1), a k

variable {c r x : K} {t a : ℕ → K} {i j : ℕ}

theorem room_self (c r : K) (t a : ℕ → K) (j : ℕ) : room c r t a (j + 1) j (t (j + 1)) = c := by
  have hempty : Ico (max (j + 1) 1) (j + 1) = ∅ := Finset.Ico_eq_empty (by omega)
  rw [room, hempty, Finset.sum_empty]
  ring

theorem room_withdraw (hi : i ≤ j + 1) (u : K) :
    room c r t a i (j + 1) u = room c r t a i j u - a (j + 1) := by
  rw [room, room, Finset.sum_Ico_succ_top (by omega)]
  ring

theorem room_later (u v : K) : room c r t a i j v = room c r t a i j u + (v - u) * r := by
  rw [room, room]
  ring

variable [LinearOrder K]

/-- What is left after the withdrawal `j`. -/
def level (c r : K) (t a : ℕ → K) : ℕ → K
  | 0 => c
  | j + 1 => min (level c r t a j + (t (j + 1) - t j) * r) c - a (j + 1)

/-- What is on offer at the withdrawal `j + 1`. -/
def offered (c r : K) (t a : ℕ → K) (j : ℕ) : K :=
  min (level c r t a j + (t (j + 1) - t j) * r) c

theorem level_succ : level c r t a (j + 1) = offered c r t a j - a (j + 1) := rfl

theorem offered_le : offered c r t a j ≤ c := min_le_right _ _

variable [IsStrictOrderedRing K]

/-- The offer, when the level before it is the least of what the starts leave. -/
theorem le_offered_of_level
    (h : ∀ x, x ≤ level c r t a j ↔ ∀ i ≤ j, x ≤ room c r t a i j (t j)) :
    x ≤ offered c r t a j ↔ ∀ i ≤ j + 1, x ≤ room c r t a i j (t (j + 1)) := by
  have hlevel : x ≤ level c r t a j + (t (j + 1) - t j) * r ↔
      ∀ i ≤ j, x ≤ room c r t a i j (t (j + 1)) := by
    rw [← sub_le_iff_le_add, h]
    constructor
    · intro hall i hi
      rw [room_later (t j), ← sub_le_iff_le_add]
      exact hall i hi
    · intro hall i hi
      rw [sub_le_iff_le_add, ← room_later]
      exact hall i hi
  rw [offered, le_min_iff, hlevel]
  constructor
  · rintro ⟨hall, hc⟩ i hi
    -- A start before this instant, or this instant itself, where the reservoir may be full.
    obtain hi | rfl := Nat.le_succ_iff.mp hi
    · exact hall i hi
    · rw [room_self]
      exact hc
  · intro hall
    refine ⟨fun i hi => hall i (Nat.le_succ_of_le hi), ?_⟩
    have hself := hall (j + 1) le_rfl
    rwa [room_self] at hself

/-- What is left is the least of what the starts leave. -/
theorem le_level_iff : x ≤ level c r t a j ↔ ∀ i ≤ j, x ≤ room c r t a i j (t j) := by
  induction j generalizing x with
  | zero =>
    have hzero : room c r t a 0 0 (t 0) = c := by
      rw [room]
      simp
    constructor
    · intro hx i hi
      obtain rfl := Nat.le_zero.mp hi
      rw [hzero]
      exact hx
    · intro hall
      have h0 := hall 0 le_rfl
      rwa [hzero] at h0
  | succ j ih =>
    rw [level_succ, le_sub_iff_add_le, le_offered_of_level fun x => ih]
    constructor
    · intro hall i hi
      rw [room_withdraw hi, le_sub_iff_add_le]
      exact hall i hi
    · intro hall i hi
      rw [← le_sub_iff_add_le, ← room_withdraw hi]
      exact hall i hi

/-- What is on offer is the least of what the starts leave. -/
theorem le_offered_iff :
    x ≤ offered c r t a j ↔ ∀ i ≤ j + 1, x ≤ room c r t a i j (t (j + 1)) :=
  le_offered_of_level fun _ => le_level_iff

/-- Withdrawals that an offer covers leave no debt, and with no debt there is an offer. -/
theorem level_nonneg (hc : 0 ≤ c) (hr : 0 ≤ r) (ht : ∀ j, t j ≤ t (j + 1))
    (ha : ∀ j, 0 ≤ offered c r t a j → a (j + 1) ≤ offered c r t a j) (j : ℕ) :
    0 ≤ level c r t a j ∧ 0 ≤ offered c r t a j := by
  have hoffer : ∀ j, 0 ≤ level c r t a j → 0 ≤ offered c r t a j := by
    intro j hlevel
    have hrefill : 0 ≤ (t (j + 1) - t j) * r := mul_nonneg (sub_nonneg.mpr (ht j)) hr
    exact le_min (add_nonneg hlevel hrefill) hc
  have hlevel : ∀ j, 0 ≤ level c r t a j := by
    intro j
    induction j with
    | zero => exact hc
    | succ j ih =>
      rw [level_succ, sub_nonneg]
      exact ha j (hoffer j ih)
  exact ⟨hlevel j, hoffer j (hlevel j)⟩

theorem level_le (ha : ∀ j, 0 ≤ a (j + 1)) : level c r t a j ≤ c := by
  cases j with
  | zero => exact le_rfl
  | succ j =>
    rw [level_succ]
    have hoffer : offered c r t a j ≤ c := offered_le
    have hamount := ha j
    linarith

end Reservoir
