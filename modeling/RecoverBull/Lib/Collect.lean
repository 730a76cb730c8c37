import Mathlib.Data.List.Sort

/-!
# Collecting and sorting by a key

A partial function mapped over a list, and the order a list of distinct keys is
sorted into: it depends on the elements only, not on how they were listed.
-/

namespace Collect

variable {α β κ : Type*}

section mapM

variable {f : α → Option β} {l : List α} {bs : List β}

theorem mapM_eq_some_iff : l.mapM f = some bs ↔ l.map f = bs.map some := by
  induction l generalizing bs with
  | nil => cases bs <;> simp
  | cons a l ih =>
    rw [List.mapM_cons, List.map_cons]
    constructor
    · intro h
      obtain ⟨b, hb, h⟩ := Option.bind_eq_some_iff.mp h
      obtain ⟨bs', hbs, h⟩ := Option.bind_eq_some_iff.mp h
      cases h
      rw [hb, ih.mp hbs, List.map_cons]
    · intro h
      cases bs with
      | nil => cases h
      | cons b bs' =>
        rw [List.map_cons, List.cons.injEq] at h
        rw [h.1, ih.mpr h.2]
        rfl

/-- What is collected are the values at the elements. -/
theorem mem_iff_of_mapM (h : l.mapM f = some bs) {b : β} : b ∈ bs ↔ ∃ a ∈ l, f a = some b := by
  rw [← List.mem_map, mapM_eq_some_iff.mp h, List.mem_map_of_injective (Option.some_injective β)]

theorem mapM_isSome_iff : (l.mapM f).isSome = true ↔ ∀ a ∈ l, (f a).isSome = true := by
  induction l with
  | nil => simp
  | cons a l ih =>
    rw [List.mapM_cons, List.forall_mem_cons, ← ih]
    cases f a with
    | none => simp
    | some b => cases l.mapM f <;> simp

/-- A function that keeps the key of its argument keeps the keys of a list. -/
theorem map_key_of_mapM (key : α → κ) (key' : β → κ) (hkey : ∀ a b, f a = some b → key' b = key a)
    (h : l.mapM f = some bs) : bs.map key' = l.map key := by
  induction l generalizing bs with
  | nil =>
    cases h
    rfl
  | cons a l ih =>
    rw [List.mapM_cons] at h
    obtain ⟨b, hb, h⟩ := Option.bind_eq_some_iff.mp h
    obtain ⟨bs', hbs, h⟩ := Option.bind_eq_some_iff.mp h
    cases h
    rw [List.map_cons, List.map_cons, hkey a b hb, ih hbs]

end mapM

section sort

variable [LinearOrder κ] (key : α → κ)

theorem pairwise_lt_mergeSort {l : List α} (h : (l.map key).Nodup) :
    (l.mergeSort fun a b => decide (key a ≤ key b)).Pairwise fun a b => key a < key b := by
  have hle : (l.mergeSort fun a b => decide (key a ≤ key b)).Pairwise
      fun a b => decide (key a ≤ key b) = true := by
    apply List.pairwise_mergeSort
    · intro a b c hab hbc
      rw [decide_eq_true_iff] at hab hbc ⊢
      exact le_trans hab hbc
    · intro a b
      rw [Bool.or_eq_true, decide_eq_true_iff, decide_eq_true_iff]
      exact le_total (key a) (key b)
  have hne : (l.mergeSort fun a b => decide (key a ≤ key b)).Pairwise fun a b => key a ≠ key b :=
    List.pairwise_map.mp (((List.mergeSort_perm l _).map key).nodup_iff.mpr h)
  exact hle.imp₂ (fun a b hab hne => lt_of_le_of_ne (of_decide_eq_true hab) hne) hne

/-- Two lists of the same elements, with distinct keys, are sorted into one. -/
theorem mergeSort_eq_of_mem_iff {l l' : List α} (h : (l.map key).Nodup) (h' : (l'.map key).Nodup)
    (hmem : ∀ a, a ∈ l ↔ a ∈ l') :
    (l.mergeSort fun a b => decide (key a ≤ key b)) =
      l'.mergeSort fun a b => decide (key a ≤ key b) := by
  refine List.Perm.eq_of_pairwise ?_
    (pairwise_lt_mergeSort key h) (pairwise_lt_mergeSort key h') ?_
  · intro a b _ _ hab hba
    exact absurd hab (lt_asymm hba)
  · have hperm := (List.perm_ext_iff_of_nodup h.of_map h'.of_map).mpr hmem
    exact (List.mergeSort_perm l _).trans (hperm.trans (List.mergeSort_perm l' _).symm)

end sort

end Collect
