import RecoverBull.Lib.Machine
import Mathlib.Algebra.BigOperators.Finprod
import Mathlib.Data.Set.Card
import Mathlib.Algebra.Order.BigOperators.Group.Finset

/-!
# Machines that come to rest

The events of a machine belong to calls, or to none. A weight bounds the events a
call has left: each of its events spends some of its weight, and no event touches
the weight of another call. Where a call with weight left can always be helped on,
the machine runs until no call has any.

## Main results

- `Draining.length_le`: the weights pay for every event of a call
- `Draining.drains`: from every state there is a run to rest
-/

namespace Draining

variable {σ ε ω κ : Type*}

/-- Every admitted event spends weight of its own call, and of no other. -/
structure Ranked (step : σ → ε → Option (σ × List ω)) (admitted : ε → Prop) (owner : ε → Option κ)
    (weight : σ → κ → ℕ) : Prop where
  spends : ∀ s e t os c, step s e = some (t, os) → admitted e → owner e = some c →
    weight t c < weight s c
  others : ∀ s e t os c, step s e = some (t, os) → admitted e → owner e ≠ some c →
    weight t c = weight s c

/-- The calls that have weight left. -/
def inFlight (weight : σ → κ → ℕ) (s : σ) : Set κ := {c | weight s c ≠ 0}

/-- No call has weight left. -/
def AtRest (weight : σ → κ → ℕ) (s : σ) : Prop := ∀ c, weight s c = 0

variable {step : σ → ε → Option (σ × List ω)} {admitted : ε → Prop} {owner : ε → Option κ}
  {weight : σ → κ → ℕ} {s t : σ} {e : ε} {es : List ε} {os log : List ω}

/-- A step starts no call. -/
theorem Ranked.inFlight_subset (h : Ranked step admitted owner weight)
    (hs : step s e = some (t, os)) (ha : admitted e) : inFlight weight t ⊆ inFlight weight s := by
  intro c hc hzero
  by_cases ho : owner e = some c
  · have hlt := h.spends s e t os c hs ha ho
    omega
  · exact hc ((h.others s e t os c hs ha ho).trans hzero)

/-- A step of a call pays for itself; any other leaves the weights alone. -/
theorem Ranked.sum_le (h : Ranked step admitted owner weight) (hs : step s e = some (t, os))
    (ha : admitted e) (A : Finset κ) (hA : inFlight weight s ⊆ A) :
    (if (owner e).isSome then 1 else 0) + ∑ c ∈ A, weight t c ≤ ∑ c ∈ A, weight s c := by
  have hle : ∀ c ∈ A, weight t c ≤ weight s c := by
    intro c _
    by_cases ho : owner e = some c
    · exact (h.spends s e t os c hs ha ho).le
    · exact (h.others s e t os c hs ha ho).le
  cases ho : owner e with
  | none => simpa using Finset.sum_le_sum hle
  | some c =>
    have hlt := h.spends s e t os c hs ha ho
    have hc : c ∈ A := Finset.mem_coe.mp (hA (by rw [inFlight, Set.mem_ofPred_eq]; omega))
    have hsum := Finset.sum_lt_sum hle ⟨c, hc, hlt⟩
    simp only [Option.isSome_some, if_true]
    omega

/-- **The weights pay for every event of a call.** -/
theorem length_le (h : Ranked step admitted owner weight) (A : Finset κ)
    (hA : inFlight weight s ⊆ A) (hr : Machine.run step s es = some (t, log))
    (ha : ∀ e ∈ es, admitted e) :
    es.countP (fun e => (owner e).isSome) + ∑ c ∈ A, weight t c ≤ ∑ c ∈ A, weight s c ∧
      inFlight weight t ⊆ inFlight weight s := by
  induction es generalizing s log with
  | nil =>
    cases hr
    simp
  | cons e es ih =>
    obtain ⟨u, os, log', hs, hr', rfl⟩ := Machine.run_cons_eq_some.mp hr
    obtain ⟨hae, hrest⟩ := List.forall_mem_cons.mp ha
    have hsub := h.inFlight_subset hs hae
    obtain ⟨hlen, hsub'⟩ := ih (hsub.trans hA) hr' hrest
    have hone := h.sum_le hs hae A hA
    refine ⟨?_, hsub'.trans hsub⟩
    rw [List.countP_cons]
    omega

/-- Where every weight is at most `b`, an admitted run has at most `b` events for
each call in flight. -/
theorem countP_le (h : Ranked step admitted owner weight) {b : ℕ}
    (hb : ∀ c, weight s c ≤ b) (hfin : (inFlight weight s).Finite)
    (hr : Machine.run step s es = some (t, log)) (ha : ∀ e ∈ es, admitted e) :
    es.countP (fun e => (owner e).isSome) ≤ b * (inFlight weight s).ncard := by
  obtain ⟨hlen, -⟩ := length_le h hfin.toFinset (by simp) hr ha
  have hsum : ∑ c ∈ hfin.toFinset, weight s c ≤ hfin.toFinset.card * b :=
    Finset.sum_le_card_nsmul _ _ _ fun c _ => hb c
  rw [Set.ncard_eq_toFinset_card _ hfin, mul_comm]
  omega

/-- **A machine that can help on some call runs until none has weight left.** -/
theorem drains (h : Ranked step admitted owner weight) (Inv : σ → Prop) (helps : ε → Prop)
    (hadmitted : ∀ e, helps e → admitted e)
    (hinv : ∀ s e t os, Inv s → step s e = some (t, os) → helps e → Inv t)
    (hprogress : ∀ s c, Inv s → weight s c ≠ 0 →
      ∃ e t os, helps e ∧ (owner e).isSome ∧ step s e = some (t, os))
    (hs : Inv s) (hfin : (inFlight weight s).Finite) :
    ∃ es t log, (∀ e ∈ es, helps e) ∧ Machine.run step s es = some (t, log) ∧ AtRest weight t ∧
      Inv t := by
  -- Every step of the run spends weight of the calls that are in flight now.
  obtain ⟨A, hA⟩ : ∃ A : Finset κ, inFlight weight s ⊆ A := ⟨hfin.toFinset, by simp⟩
  induction hn : ∑ c ∈ A, weight s c using Nat.strong_induction_on generalizing s with
  | _ n ih =>
    by_cases hrest : AtRest weight s
    · exact ⟨[], s, [], by simp, rfl, hrest, hs⟩
    · obtain ⟨c, hc⟩ := not_forall.mp hrest
      obtain ⟨e, t, os, he, howner, hstep⟩ := hprogress s c hs hc
      have hsum := h.sum_le hstep (hadmitted e he) A hA
      rw [if_pos howner] at hsum
      have hsub := h.inFlight_subset hstep (hadmitted e he)
      obtain ⟨es, u, log, hes, hr, hrest', hu⟩ := ih _ (by omega) (hinv s e t os hs hstep he)
        (hfin.subset hsub) (hsub.trans hA) rfl
      exact ⟨e :: es, u, log ++ os, List.forall_mem_cons.mpr ⟨he, hes⟩,
        Machine.run_cons_eq_some.mpr ⟨t, os, log, hstep, hr, rfl⟩, hrest', hu⟩

end Draining
