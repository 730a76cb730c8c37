import Mathlib.Tactic.TypeStar

/-!
# Transactions under one write lock

A transaction is a script of statements, each chosen by what the ones before it found. It
works on a copy of the data; others see the copy when it is committed, and never when it is
rolled back. As long as nobody else changes what is committed, a transaction that is
interrupted by any number of other steps ends as if all its statements ran at its end.

## Main results

- `Transaction.Open.Faithful`: what is left of the script computes what the script computes
- `Transaction.Open.Faithful.close`: a transaction runs as a whole, or not at all
-/

namespace Transaction

variable {ι D ε α : Type*}

/-- The statements of a transaction. A statement has an effect on the data, and what comes
next depends on the data it found. -/
inductive Script (D ε α : Type*)
  | commit (result : α)
  | rollback (error : ε)
  | statement (effect : D → D) (next : D → Script D ε α)

namespace Script

/-- The rest of a transaction on its working copy, with nothing in between. -/
def run (committed : D) : Script D ε α → D → Except ε α × D
  | .commit result, working => (.ok result, working)
  | .rollback error, _ => (.error error, committed)
  | .statement effect next, working => (next working).run committed (effect working)

/-- The whole transaction as one step. -/
def atomically (script : Script D ε α) (committed : D) : Except ε α × D :=
  script.run committed committed

end Script

/-- A transaction that is under way: who holds the write lock, the copy that is worked on,
and what is left of the script. -/
structure Open (ι D ε α : Type*) where
  owner : ι
  working : D
  rest : Script D ε α

namespace Open

/-- A transaction begins on what is committed. -/
def start (owner : ι) (committed : D) (script : Script D ε α) : Open ι D ε α :=
  ⟨owner, committed, script⟩

/-- The next statement; one that fails makes the transaction roll back. -/
def statement (o : Open ι D ε α) (failure : Option ε) : Option (Open ι D ε α) :=
  match o.rest, failure with
  | .statement effect next, none =>
    some { o with working := effect o.working, rest := next o.working }
  | .statement _ _, some error => some { o with rest := .rollback error }
  | .commit _, _ | .rollback _, _ => none

/-- The end of a transaction: what it returns, and what is committed from then on. A commit
that fails leaves what was committed before. -/
def close (o : Open ι D ε α) (committed : D) (failure : Option ε) : Option (Except ε α × D) :=
  match o.rest, failure with
  | .commit result, none => some (.ok result, o.working)
  | .commit _, some error => some (.error error, committed)
  | .rollback error, _ => some (.error error, committed)
  | .statement _ _, _ => none

variable {E : ε → Prop} {committed : D} {script : Script D ε α} {o o' : Open ι D ε α}

/-- The transaction computes what its script computes on what is committed, or an error of
the engine makes it roll back. -/
def Faithful (E : ε → Prop) (committed : D) (script : Script D ε α) (o : Open ι D ε α) : Prop :=
  o.rest.run committed o.working = script.atomically committed ∨
    ∃ error, E error ∧ o.rest = .rollback error

theorem faithful_start (owner : ι) :
    (start owner committed script).Faithful E committed script :=
  Or.inl rfl

theorem owner_statement {failure : Option ε} (h : o.statement failure = some o') :
    o'.owner = o.owner := by
  obtain ⟨owner, working, rest⟩ := o
  cases rest <;> cases failure <;> cases h <;> rfl

theorem Faithful.statement {failure : Option ε} (hf : o.Faithful E committed script)
    (hE : ∀ error, failure = some error → E error) (h : o.statement failure = some o') :
    o'.Faithful E committed script := by
  obtain ⟨owner, working, rest⟩ := o
  cases rest with
  | commit result => cases h
  | rollback error => cases h
  | statement effect next =>
    cases failure with
    | some error =>
      cases h
      exact Or.inr ⟨error, hE error rfl, rfl⟩
    | none =>
      cases h
      obtain hrun | ⟨error, -, hrest⟩ := hf
      · exact Or.inl hrun
      · cases hrest

/-- **All or nothing.** A transaction returns and leaves what its script does as one step on
what is committed, or it returns an error of the engine and leaves what is committed. -/
theorem Faithful.close {failure : Option ε} {result : Except ε α} {after : D}
    (hf : o.Faithful E committed script) (hE : ∀ error, failure = some error → E error)
    (h : o.close committed failure = some (result, after)) :
    (result, after) = script.atomically committed ∨
      ∃ error, E error ∧ result = .error error ∧ after = committed := by
  obtain ⟨owner, working, rest⟩ := o
  cases rest with
  | statement effect next => cases h
  | rollback error =>
    cases h
    obtain hrun | ⟨error', he, hrest⟩ := hf
    · exact Or.inl hrun
    · cases hrest
      exact Or.inr ⟨error, he, rfl, rfl⟩
  | commit a =>
    cases failure with
    | some error =>
      cases h
      exact Or.inr ⟨error, hE error rfl, rfl, rfl⟩
    | none =>
      cases h
      obtain hrun | ⟨error, -, hrest⟩ := hf
      · exact Or.inl hrun
      · cases hrest

end Open

end Transaction
