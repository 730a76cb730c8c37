import RecoverBull.Lib.Machine
import Mathlib.Data.Set.Card

/-!
# Machines that draw on a semaphore

Some events of a machine take a permit of a counting semaphore, some give one back.
The guarded machine counts the permits left and refuses an event for which there
is none. It knows nothing of who holds a permit: that is read off the states.

## Main results

- `Semaphore.run_conserved`: no permit is lost or made
- `Semaphore.run_guarded_iff`: the guard admits exactly the runs that never have
  more holders than permits
-/

namespace Semaphore

variable {σ ε ω ι : Type*}

/-- What an event does with a permit. -/
inductive Use
  | acquires
  | releases
  | neither
  deriving DecidableEq, Repr

/-- The permits left after an event, of which there were `left` before; `none` where
it has to wait for one. -/
def Use.after : Use → ℕ → Option ℕ
  | .acquires, 0 => none
  | .acquires, left + 1 => some left
  | .releases, left => some (left + 1)
  | .neither, left => some left

/-- The machine that counts the permits left beside its state. -/
def guarded (step : σ → ε → Option (σ × List ω)) (use : σ → ε → Use) (s : σ × ℕ) (e : ε) :
    Option ((σ × ℕ) × List ω) :=
  ((use s.1 e).after s.2).bind fun left => (step s.1 e).map fun r => ((r.1, left), r.2)

/-- `holders` are those who have acquired a permit and not released it. -/
structure Tracks (step : σ → ε → Option (σ × List ω)) (use : σ → ε → Use)
    (holders : σ → Set ι) : Prop where
  acquires : ∀ s e t os, step s e = some (t, os) → use s e = .acquires →
    ∃ i ∉ holders s, holders t = insert i (holders s)
  releases : ∀ s e t os, step s e = some (t, os) → use s e = .releases →
    ∃ i ∈ holders s, holders t = holders s \ {i}
  neither : ∀ s e t os, step s e = some (t, os) → use s e = .neither → holders t = holders s

variable {step : σ → ε → Option (σ × List ω)} {use : σ → ε → Use} {holders : σ → Set ι}
  {s t : σ} {e : ε} {es : List ε} {os log : List ω} {n left total : ℕ}

theorem guarded_eq_some :
    guarded step use (s, n) e = some ((t, left), os) ↔
      (use s e).after n = some left ∧ step s e = some (t, os) := by
  simp only [guarded, Option.bind_eq_some_iff, Option.map_eq_some_iff, Prod.mk.injEq]
  constructor
  · rintro ⟨left', hafter, ⟨t', os'⟩, hs, ⟨rfl, rfl⟩, rfl⟩
    exact ⟨hafter, hs⟩
  · rintro ⟨hafter, hs⟩
    exact ⟨left, hafter, (t, os), hs, ⟨rfl, rfl⟩, rfl⟩

/-- Only an acquisition can be refused, and only when no permit is left. -/
theorem Use.after_eq_none {u : Use} : u.after n = none ↔ u = .acquires ∧ n = 0 := by
  cases u with
  | acquires => cases n <;> simp [Use.after]
  | releases | neither => simp [Use.after]

/-- What a step does to the count it does to the holders. -/
theorem Tracks.conserved (h : Tracks step use holders) (hs : step s e = some (t, os))
    (hafter : (use s e).after n = some left) :
    (holders t).encard + left = (holders s).encard + n := by
  cases hu : use s e with
  | acquires =>
    obtain ⟨i, hi, ht⟩ := h.acquires s e t os hs hu
    rw [hu] at hafter
    cases n with
    | zero => cases hafter
    | succ n =>
      cases hafter
      rw [ht, Set.encard_insert_of_notMem hi, Nat.cast_succ, add_assoc, add_comm 1]
  | releases =>
    obtain ⟨i, hi, ht⟩ := h.releases s e t os hs hu
    rw [hu] at hafter
    cases hafter
    rw [ht, Nat.cast_succ, add_comm (n : ℕ∞), ← add_assoc, Set.encard_sdiff_singleton_add_one hi]
  | neither =>
    rw [hu] at hafter
    cases hafter
    rw [h.neither s e t os hs hu]

/-- What an event makes of the flag that says whether its owner holds a permit. -/
def Use.Turns : Use → Bool → Bool → Prop
  | .acquires, before, after => before = false ∧ after = true
  | .releases, before, after => before = true ∧ after = false
  | .neither, before, after => after = before

/-- Holders told by a flag that an event turns for its owner alone. -/
theorem Tracks.of_flag {holds : σ → ι → Bool} {owner : ε → Option ι}
    (hothers : ∀ s e t os, step s e = some (t, os) → ∀ i, owner e ≠ some i →
      holds t i = holds s i)
    (hown : ∀ s e t os, step s e = some (t, os) → ∀ i, owner e = some i →
      (use s e).Turns (holds s i) (holds t i))
    (hnone : ∀ s e t os, step s e = some (t, os) → owner e = none → use s e = .neither) :
    Tracks step use fun s => {i | holds s i = true} := by
  have hne : ∀ {s e t os}, step s e = some (t, os) → use s e ≠ .neither →
      ∃ i, owner e = some i := fun hs hu =>
    Option.ne_none_iff_exists'.mp fun ho => hu (hnone _ _ _ _ hs ho)
  constructor
  · intro s e t os hs hu
    obtain ⟨i, hi⟩ := hne hs (by rw [hu]; decide)
    obtain ⟨hbefore, hafter⟩ : holds s i = false ∧ holds t i = true := by
      have hturn := hown s e t os hs i hi
      rwa [hu] at hturn
    refine ⟨i, by simp [hbefore], Set.ext fun j => ?_⟩
    by_cases hj : j = i
    · simp [hj, hafter]
    · have hsame := hothers s e t os hs j fun ho => hj (Option.some.inj (ho.symm.trans hi))
      simp [hj, hsame]
  · intro s e t os hs hu
    obtain ⟨i, hi⟩ := hne hs (by rw [hu]; decide)
    obtain ⟨hbefore, hafter⟩ : holds s i = true ∧ holds t i = false := by
      have hturn := hown s e t os hs i hi
      rwa [hu] at hturn
    refine ⟨i, hbefore, Set.ext fun j => ?_⟩
    by_cases hj : j = i
    · simp [hj, hafter]
    · have hsame := hothers s e t os hs j fun ho => hj (Option.some.inj (ho.symm.trans hi))
      simp [hj, hsame]
  · intro s e t os hs hu
    refine Set.ext fun j => ?_
    have hsame : holds t j = holds s j := by
      by_cases hj : owner e = some j
      · have hturn := hown s e t os hs j hj
        rwa [hu] at hturn
      · exact hothers s e t os hs j hj
    simp [hsame]

/-- **No permit is lost or made**, and the guard changes nothing else. -/
theorem run_conserved (h : Tracks step use holders)
    (hr : Machine.run (guarded step use) (s, n) es = some ((t, left), log)) :
    (holders t).encard + left = (holders s).encard + n ∧ Machine.run step s es = some (t, log) := by
  induction es generalizing s n log with
  | nil =>
    cases hr
    exact ⟨rfl, rfl⟩
  | cons e es ih =>
    obtain ⟨⟨u, m⟩, os, log', he, hr', rfl⟩ := Machine.run_cons_eq_some.mp hr
    obtain ⟨hafter, hs⟩ := guarded_eq_some.mp he
    obtain ⟨hcount, hrun⟩ := ih hr'
    exact ⟨hcount.trans (h.conserved hs hafter),
      Machine.run_cons_eq_some.mpr ⟨u, os, log', hs, hrun, rfl⟩⟩

/-- Where there is room for the holders after a step, the step has its permit. -/
theorem Tracks.after_isSome (h : Tracks step use holders) (hs : step s e = some (t, os))
    (hcount : (holders s).encard + n = total) (hroom : (holders t).encard ≤ total) :
    ∃ left, (use s e).after n = some left := by
  by_contra hnone
  obtain ⟨hu, rfl⟩ := Use.after_eq_none.mp (Option.eq_none_iff_forall_ne_some.mpr fun left hl =>
    hnone ⟨left, hl⟩)
  obtain ⟨i, hi, ht⟩ := h.acquires s e t os hs hu
  rw [ht, Set.encard_insert_of_notMem hi, ← hcount, Nat.cast_zero, add_zero] at hroom
  -- The holders are finitely many, so one more does not fit.
  have hfin : (holders s).encard ≠ ⊤ := by
    intro htop
    rw [htop, top_add] at hcount
    exact ENat.natCast_ne_top total hcount.symm
  exact absurd hroom (not_le.mpr ((ENat.lt_add_one_iff hfin).mpr le_rfl))

/-- **What the guard admits**: the runs that never have more holders than permits. -/
theorem run_guarded_iff (h : Tracks step use holders) (hcount : (holders s).encard + n = total) :
    (∃ left, Machine.run (guarded step use) (s, n) es = some ((t, left), log)) ↔
      Machine.run step s es = some (t, log) ∧
        Machine.Along step (fun _ _ u => (holders u).encard ≤ total) s es := by
  induction es generalizing s n log with
  | nil => simp [Machine.Along]
  | cons e es ih =>
    constructor
    · rintro ⟨left, hr⟩
      obtain ⟨⟨u, m⟩, os, log', he, hr', rfl⟩ := Machine.run_cons_eq_some.mp hr
      obtain ⟨hafter, hs⟩ := guarded_eq_some.mp he
      have hcount' : (holders u).encard + m = total := (h.conserved hs hafter).trans hcount
      obtain ⟨hrun, halong⟩ := (ih hcount').mp ⟨left, hr'⟩
      refine ⟨Machine.run_cons_eq_some.mpr ⟨u, os, log', hs, hrun, rfl⟩, fun u' os' hs' => ?_⟩
      rw [hs] at hs'
      cases hs'
      exact ⟨hcount' ▸ le_self_add, halong⟩
    · rintro ⟨hr, halong⟩
      obtain ⟨u, os, log', hs, hr', rfl⟩ := Machine.run_cons_eq_some.mp hr
      obtain ⟨hroom, halong'⟩ := halong u os hs
      obtain ⟨m, hafter⟩ := h.after_isSome hs hcount hroom
      have hcount' : (holders u).encard + m = total := (h.conserved hs hafter).trans hcount
      obtain ⟨left, hrun⟩ := (ih hcount').mpr ⟨hr', halong'⟩
      exact ⟨left, Machine.run_cons_eq_some.mpr
        ⟨(u, m), os, log', guarded_eq_some.mpr ⟨hafter, hs⟩, hrun, rfl⟩⟩

end Semaphore
