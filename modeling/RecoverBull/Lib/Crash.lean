import Mathlib.Logic.Relation

/-!
# Programs that commit and crash

A program over a store that survives crashes reads the store, commits changes to it
one at a time, and may fail. A crash ends it between two commits; the next start
runs it again on what is committed. Crash triples give, besides what holds at the
end, what holds after every commit.

## Main definitions

- `Committing`: programs, with the stores they commit
- `Committing.Triple`: precondition, postcondition and crash condition

## Main results

- `Committing.Triple.bind`, `Committing.triple_commit`, `Committing.triple_read`: the rules
- `Committing.Triple.restart`: crashes that leave the precondition do not matter
-/

/-- A program over the store `σ`: its result, and the stores it commits in order. -/
def Committing (σ ε α : Type) : Type := σ → Except ε α × List σ

namespace Committing

variable {σ ε α β : Type}

/-- The store a program that is not interrupted leaves behind. -/
def final (x : Committing σ ε α) (s : σ) : σ := (x s).2.getLastD s

/-- The second program runs on what the first one left, unless that failed. -/
def andThen (x : Committing σ ε α) (f : α → Committing σ ε β) : Committing σ ε β := fun s =>
  match (x s).1 with
  | .error e => (.error e, (x s).2)
  | .ok a => ((f a (x.final s)).1, (x s).2 ++ (f a (x.final s)).2)

instance : Monad (Committing σ ε) where
  pure a := fun _ => (.ok a, [])
  bind := andThen

def fail (e : ε) : Committing σ ε α := fun _ => (.error e, [])

def read (f : σ → α) : Committing σ ε α := fun s => (.ok (f s), [])

/-- A change that is committed as a whole, or fails and is not committed. -/
def commit (change : σ → Except ε σ) : Committing σ ε Unit := fun s =>
  match change s with
  | .ok s' => (.ok (), [s'])
  | .error e => (.error e, [])

theorem read_bind (g : σ → α) (f : α → Committing σ ε β) (s : σ) :
    (read g >>= f) s = f (g s) s := rfl

theorem bind_of_ok {x : Committing σ ε α} {s : σ} {a : α} (h : (x s).1 = .ok a)
    (f : α → Committing σ ε β) :
    (x >>= f) s = ((f a (x.final s)).1, (x s).2 ++ (f a (x.final s)).2) := by
  show x.andThen f s = _
  rw [andThen, h]

theorem bind_of_error {x : Committing σ ε α} {s : σ} {e : ε} (h : (x s).1 = .error e)
    (f : α → Committing σ ε β) : (x >>= f) s = (.error e, (x s).2) := by
  show x.andThen f s = _
  rw [andThen, h]

theorem final_bind {x : Committing σ ε α} {s : σ} {a : α} (h : (x s).1 = .ok a)
    (f : α → Committing σ ε β) : (x >>= f).final s = (f a).final (x.final s) := by
  rw [final, bind_of_ok h]
  simp only [final, List.getLastD_eq_getLast?, List.getLast?_append, Option.getD_or]

/-- From a store that satisfies `P` the program succeeds, its result and the store it
leaves satisfy `Q`, and every store it commits satisfies `C`. -/
def Triple (P : σ → Prop) (x : Committing σ ε α) (Q : α → σ → Prop) (C : σ → Prop) : Prop :=
  ∀ s, P s → (∃ a, (x s).1 = .ok a ∧ Q a (x.final s)) ∧ ∀ s' ∈ (x s).2, C s'

theorem Triple.consequence {P P' : σ → Prop} {x : Committing σ ε α} {Q Q' : α → σ → Prop}
    {C C' : σ → Prop} (h : Triple P x Q C) (hP : ∀ s, P' s → P s) (hQ : ∀ a s, Q a s → Q' a s)
    (hC : ∀ s, C s → C' s) : Triple P' x Q' C' := by
  intro s hs
  obtain ⟨⟨a, ha, hq⟩, hc⟩ := h s (hP s hs)
  exact ⟨⟨a, ha, hQ a _ hq⟩, fun s' hs' => hC s' (hc s' hs')⟩

theorem triple_read {P : σ → Prop} {C : σ → Prop} (f : σ → α) :
    Triple P (read f : Committing σ ε α) (fun a s => P s ∧ a = f s) C := by
  intro s hs
  exact ⟨⟨f s, rfl, hs, rfl⟩, fun s' hs' => nomatch hs'⟩

theorem triple_commit {P Q C : σ → Prop} {change : σ → Except ε σ}
    (h : ∀ s, P s → ∃ s', change s = .ok s' ∧ Q s' ∧ C s') :
    Triple P (commit change) (fun _ => Q) C := by
  intro s hs
  obtain ⟨s', hchange, hq, hc⟩ := h s hs
  have hcommit : commit change s = (.ok (), [s']) := by rw [commit, hchange]
  refine ⟨⟨(), by rw [hcommit], ?_⟩, ?_⟩
  · rw [final, hcommit]
    exact hq
  · intro t ht
    rw [hcommit] at ht
    rwa [List.mem_singleton.mp ht]

theorem Triple.bind {P : σ → Prop} {x : Committing σ ε α} {Q : α → σ → Prop} {C : σ → Prop}
    {f : α → Committing σ ε β} {R : β → σ → Prop} (hx : Triple P x Q C)
    (hf : ∀ a, Triple (Q a) (f a) R C) : Triple P (x >>= f) R C := by
  intro s hs
  obtain ⟨⟨a, ha, hq⟩, hc⟩ := hx s hs
  obtain ⟨⟨b, hb, hr⟩, hc'⟩ := hf a (x.final s) hq
  refine ⟨⟨b, ?_, ?_⟩, ?_⟩
  · rw [bind_of_ok ha, hb]
  · rwa [final_bind ha]
  · intro t ht
    rw [bind_of_ok ha] at ht
    exact (List.mem_append.mp ht).elim (hc t) (hc' t)

theorem Triple.ite {P : σ → Prop} {x y : Committing σ ε α} {Q : α → σ → Prop} {C : σ → Prop}
    {c : Prop} [Decidable c] (hx : c → Triple P x Q C) (hy : ¬c → Triple P y Q C) :
    Triple P (if c then x else y) Q C := by
  split
  · next h => exact hx h
  · next h => exact hy h

/-! ## Crashes -/

/-- A start that is interrupted before its first commit or after any of them. -/
def Interrupted (x : Committing σ ε α) (s s' : σ) : Prop := s' ∈ s :: (x s).2

/-- Any number of interrupted starts. -/
def Restarts (x : Committing σ ε α) : σ → σ → Prop := Relation.ReflTransGen (Interrupted x)

/-- When every commit leaves the precondition, interrupted starts keep it. -/
theorem Triple.of_restarts {P : σ → Prop} {x : Committing σ ε α} {Q : α → σ → Prop}
    (h : Triple P x Q P) {s s' : σ} (hs : P s) (hr : Restarts x s s') : P s' := by
  induction hr with
  | refl => exact hs
  | tail _ hint ih =>
    rcases List.mem_cons.mp hint with rfl | hcommitted
    · exact ih
    · exact (h _ ih).2 _ hcommitted

/-- After any number of interrupted starts, one that is not reaches the postcondition. -/
theorem Triple.restart {P : σ → Prop} {x : Committing σ ε α} {Q : α → σ → Prop}
    (h : Triple P x Q P) {s s' : σ} (hs : P s) (hr : Restarts x s s') :
    ∃ a, (x s').1 = .ok a ∧ Q a (x.final s') :=
  (h s' (h.of_restarts hs hr)).1

/-- A program that fails before its first commit fails again after every interruption. -/
theorem eq_of_restarts {x : Committing σ ε α} {s s' : σ} (h : (x s).2 = [])
    (hr : Restarts x s s') : s' = s := by
  induction hr with
  | refl => rfl
  | tail _ hint ih =>
    subst ih
    rw [Interrupted, h] at hint
    exact List.mem_singleton.mp hint

end Committing
