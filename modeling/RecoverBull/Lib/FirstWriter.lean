import Mathlib.Logic.Function.Basic
import Mathlib.Data.List.Basic

/-!
# Maps that keep the first value

A sequential map in which a value is put only where there is none, and from which
values are taken. A log is read as a history of such operations, newest first.

## Main results

- `FirstWriter.replay_eq_some_iff`: a value is the first one put since its key was
  last free
- `FirstWriter.taken_once`: what was put once is taken at most once
- `FirstWriter.kept_or_taken`: a value disappears only by being taken
-/

namespace FirstWriter

variable {κ ν ω : Type*}

inductive Op (κ ν : Type*)
  | put (k : κ) (v : ν)
  | take (k : κ)

variable [DecidableEq κ]

/-- A put leaves a value that is there. -/
def apply (m : κ → Option ν) : Op κ ν → κ → Option ν
  | .put k v => Function.update m k (some ((m k).getD v))
  | .take k => Function.update m k none

/-- The map after the operations of a log, of which `op` tells the operation of an
observation. -/
def replay (op : ω → Option (Op κ ν)) (m : κ → Option ν) : List ω → κ → Option ν
  | [] => m
  | o :: log =>
    match op o with
    | none => replay op m log
    | some e => apply (replay op m log) e

variable {op : ω → Option (Op κ ν)} {m : κ → Option ν} {log newer mid older : List ω} {o : ω}
  {k : κ} {v : ν}

theorem replay_cons_of_none (h : op o = none) : replay op m (o :: log) = replay op m log := by
  rw [replay, h]

theorem replay_cons_of_some {e : Op κ ν} (h : op o = some e) :
    replay op m (o :: log) = apply (replay op m log) e := by
  rw [replay, h]

theorem replay_append_of_none (h : ∀ o ∈ newer, op o = none) :
    replay op m (newer ++ log) = replay op m log := by
  induction newer with
  | nil => rfl
  | cons o newer ih =>
    rw [List.cons_append, replay_cons_of_none (h o List.mem_cons_self),
      ih fun o' ho' => h o' (List.mem_cons_of_mem _ ho')]

/-- After a put the key has a value: the one it had, or the one put. -/
theorem apply_put_self : apply m (.put k v) k = some ((m k).getD v) :=
  Function.update_self _ _ _

/-- Taking a key that has no value changes nothing. -/
theorem apply_take_of_none (h : m k = none) : apply m (.take k) = m := by
  rw [apply, ← h, Function.update_eq_self]

/-- An operation that leaves a value at a key: it was there, or is put now. -/
theorem apply_eq_some_iff {e : Op κ ν} :
    apply m e k = some v ↔ m k = some v ∧ e ≠ .take k ∨ m k = none ∧ e = .put k v := by
  cases e with
  | put k' v' =>
    by_cases hk : k = k'
    · subst hk
      rw [apply_put_self]
      cases hm : m k with
      | none => simp
      | some w => simp
    · have hk' : ¬k' = k := fun h => hk h.symm
      rw [apply, Function.update_of_ne hk]
      simp [hk']
  | take k' =>
    by_cases hk : k = k'
    · subst hk
      simp [apply]
    · have hk' : ¬k' = k := fun h => hk h.symm
      rw [apply, Function.update_of_ne hk]
      simp [hk']

/-- Where the value of a key comes from: it is one of the start, or was put on the
free key right after `older`. In either case the key has not been taken since. -/
def ComesFrom (op : ω → Option (Op κ ν)) (m : κ → Option ν) (log : List ω) (k : κ) (v : ν) :
    Option (List ω) → Prop
  | none => m k = some v ∧ ∀ o ∈ log, op o ≠ some (.take k)
  | some older => ∃ newer o, log = newer ++ o :: older ∧ op o = some (.put k v) ∧
      replay op m older k = none ∧ ∀ o' ∈ newer, op o' ≠ some (.take k)

/-- What does not take the key leaves its value where it comes from. -/
theorem ComesFrom.cons {origin : Option (List ω)} (h : ComesFrom op m log k v origin)
    (hne : op o ≠ some (.take k)) : ComesFrom op m (o :: log) k v origin := by
  cases origin with
  | none => exact ⟨h.1, List.forall_mem_cons.mpr ⟨hne, h.2⟩⟩
  | some older =>
    obtain ⟨newer, o', rfl, ho', hfree, hall⟩ := h
    exact ⟨o :: newer, o', rfl, ho', hfree, List.forall_mem_cons.mpr ⟨hne, hall⟩⟩

/-- A value there was before an operation, unless it takes the key, or it is put by it. -/
theorem replay_cons_eq_some_iff :
    replay op m (o :: log) k = some v ↔
      replay op m log k = some v ∧ op o ≠ some (.take k) ∨
        replay op m log k = none ∧ op o = some (.put k v) := by
  cases ho : op o with
  | none => simp [replay_cons_of_none ho]
  | some e =>
    rw [replay_cons_of_some ho, apply_eq_some_iff]
    simp

/-- A value is one of the start, or the first that was put since the key was last free. -/
theorem replay_eq_some_iff :
    replay op m log k = some v ↔ ∃ origin, ComesFrom op m log k v origin := by
  induction log with
  | nil =>
    constructor
    · intro h
      exact ⟨none, h, by simp⟩
    · rintro ⟨_ | older, h⟩
      · exact h.1
      · obtain ⟨newer, o, hnil, _⟩ := h
        simp at hnil
  | cons o log ih =>
    rw [replay_cons_eq_some_iff]
    constructor
    · rintro (⟨hv, hne⟩ | ⟨hfree, hput⟩)
      · obtain ⟨origin, h⟩ := ih.mp hv
        exact ⟨origin, h.cons hne⟩
      · exact ⟨some log, [], o, rfl, hput, hfree, by simp⟩
    · rintro ⟨_ | older, h⟩
      · obtain ⟨hne, hall⟩ := List.forall_mem_cons.mp h.2
        exact Or.inl ⟨ih.mpr ⟨none, h.1, hall⟩, hne⟩
      · obtain ⟨newer, o', hlog, ho', hfree, hall⟩ := h
        cases newer with
        | nil =>
          obtain ⟨rfl, rfl⟩ := List.cons.inj hlog
          exact Or.inr ⟨hfree, ho'⟩
        | cons o'' newer =>
          obtain ⟨rfl, rfl⟩ := List.cons.inj hlog
          obtain ⟨hne, hall⟩ := List.forall_mem_cons.mp hall
          exact Or.inl ⟨ih.mpr ⟨some older, newer, o', rfl, ho', hfree, hall⟩, hne⟩

/-- A value that was put before the key was taken is not there after. -/
theorem ComesFrom.not_taken {origin : Option (List ω)} {v' : ν}
    (h : ComesFrom op m (mid ++ o :: log) k v origin) (h' : ComesFrom op m log k v' origin) :
    op o ≠ some (.take k) := by
  cases origin with
  | none => exact h.2 o (List.mem_append_right _ List.mem_cons_self)
  | some older =>
    obtain ⟨newer, o₁, hlog, _, _, hall⟩ := h
    obtain ⟨newer', o₂, rfl, _⟩ := h'
    have hlog' : (mid ++ o :: newer') ++ o₂ :: older = newer ++ o₁ :: older := by
      rw [← hlog, List.append_assoc, List.cons_append]
    obtain ⟨rfl, -⟩ := List.append_inj' hlog' (by simp)
    exact hall o (List.mem_append_right _ List.mem_cons_self)

/-- What was put once is taken at most once: two observations of a log that take
one value are the same. -/
theorem taken_once {o₁ o₂ : ω} {newer₁ newer₂ older₁ older₂ : List ω} {v₁ v₂ : ν}
    {origin : Option (List ω)} (h : newer₁ ++ o₁ :: older₁ = newer₂ ++ o₂ :: older₂)
    (ho₁ : op o₁ = some (.take k)) (ho₂ : op o₂ = some (.take k))
    (hc₁ : ComesFrom op m older₁ k v₁ origin) (hc₂ : ComesFrom op m older₂ k v₂ origin) :
    o₁ = o₂ := by
  obtain ⟨mid, rfl, hmid⟩ | ⟨mid, rfl, hmid⟩ := List.append_eq_append_iff.mp h
  · cases mid with
    | nil => exact (List.cons.inj hmid).1
    | cons o mid =>
      obtain ⟨rfl, rfl⟩ := List.cons.inj hmid
      exact absurd ho₂ (hc₁.not_taken hc₂)
  · cases mid with
    | nil => exact (List.cons.inj hmid).1.symm
    | cons o mid =>
      obtain ⟨rfl, rfl⟩ := List.cons.inj hmid
      exact absurd ho₁ (hc₂.not_taken hc₁)

/-- A value disappears only by being taken. -/
theorem kept_or_taken (h : replay op m log k = some v) :
    replay op m (o :: log) k = some v ∨ op o = some (.take k) := by
  by_cases ho : op o = some (.take k)
  · exact Or.inr ho
  · exact Or.inl (replay_cons_eq_some_iff.mpr (Or.inl ⟨h, ho⟩))

/-! ## Observations that agree with the map -/

/-- Every observation of the log agrees with the map it was made on. -/
def Explains (op : ω → Option (Op κ ν)) (agrees : (κ → Option ν) → ω → Prop)
    (m : κ → Option ν) : List ω → Prop
  | [] => True
  | o :: log => agrees (replay op m log) o ∧ Explains op agrees m log

variable {agrees : (κ → Option ν) → ω → Prop}

theorem Explains.append (h : Explains op agrees m log) (hnew : ∀ o ∈ newer, ∀ m, agrees m o) :
    Explains op agrees m (newer ++ log) := by
  induction newer with
  | nil => exact h
  | cons o newer ih =>
    obtain ⟨ho, hnew⟩ := List.forall_mem_cons.mp hnew
    exact ⟨ho _, ih hnew⟩

theorem Explains.at (h : Explains op agrees m (newer ++ o :: older)) :
    agrees (replay op m older) o := by
  induction newer with
  | nil => exact h.1
  | cons o' newer ih => exact ih h.2

/-! ## Histories in pieces -/

theorem replay_append :
    replay op m (newer ++ log) = replay op (replay op m log) newer := by
  induction newer with
  | nil => rfl
  | cons o newer ih =>
    cases ho : op o with
    | none => rw [List.cons_append, replay_cons_of_none ho, replay_cons_of_none ho, ih]
    | some e => rw [List.cons_append, replay_cons_of_some ho, replay_cons_of_some ho, ih]

theorem explains_append :
    Explains op agrees m (newer ++ log) ↔
      Explains op agrees (replay op m log) newer ∧ Explains op agrees m log := by
  induction newer with
  | nil => exact ⟨fun h => ⟨trivial, h⟩, And.right⟩
  | cons o newer ih =>
    rw [List.cons_append, Explains, Explains, replay_append, ih, and_assoc]

/-- A history of marked observations is the history of the observations. -/
theorem replay_map {ω' : Type*} (mark : ω' → ω) (log : List ω') :
    replay op m (log.map mark) = replay (fun o => op (mark o)) m log := by
  induction log with
  | nil => rfl
  | cons o log ih =>
    simp only [List.map_cons, replay, ih]

theorem explains_map {ω' : Type*} (mark : ω' → ω) (log : List ω') :
    Explains op agrees m (log.map mark) ↔
      Explains (fun o => op (mark o)) (fun m o => agrees m (mark o)) m log := by
  induction log with
  | nil => exact Iff.rfl
  | cons o log ih => rw [List.map_cons, Explains, Explains, replay_map, ih]

/-- A key that nobody takes keeps the value it has. -/
theorem replay_of_not_taken (h : replay op m log k = some v)
    (hnew : ∀ o ∈ newer, op o ≠ some (.take k)) : replay op m (newer ++ log) k = some v := by
  induction newer with
  | nil => exact h
  | cons o newer ih =>
    obtain ⟨ho, hnew⟩ := List.forall_mem_cons.mp hnew
    exact replay_cons_eq_some_iff.mpr (Or.inl ⟨ih hnew, ho⟩)

end FirstWriter
