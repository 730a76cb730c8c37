import Mathlib.Data.List.Infix

/-!
# The pieces between separators

`List.splitOn` told by its pieces: a piece is a stretch without the separator
that a separator, or an end of the list, bounds on either side.
-/

namespace Splitting

variable {α : Type*}

/-- A stretch without `q` lies on one side of it. -/
theorem infix_append_cons_of_notMem {q : α} {l u v : List α} (hq : q ∉ l) :
    l <:+: u ++ q :: v ↔ l <:+: u ∨ l <:+: v := by
  constructor
  · intro h
    obtain h | h | ⟨t, r, rfl, ht, hr⟩ := List.infix_append_iff.mp h
    · exact Or.inl h
    · obtain h | h := List.infix_cons_iff.mp h
      · obtain rfl | ⟨l', rfl, -⟩ := List.prefix_cons_iff.mp h
        · exact Or.inl (List.nil_infix)
        · exact absurd List.mem_cons_self hq
      · exact Or.inr h
    · obtain rfl | ⟨r', rfl, -⟩ := List.prefix_cons_iff.mp hr
      · rw [List.append_nil]
        exact Or.inl ht.isInfix
      · exact absurd (List.mem_append_right t List.mem_cons_self) hq
  · rintro (h | h)
    · exact h.trans (List.prefix_append u _).isInfix
    · exact h.trans ((List.suffix_cons q v).trans (List.suffix_append u _)).isInfix

/-- Two ways to write a list around the first `q` in it are one. -/
theorem append_cons_inj_of_notMem_left {q : α} {x₁ x₂ z₁ z₂ : List α} (h₁ : q ∉ x₁) (h₂ : q ∉ x₂)
    (h : x₁ ++ q :: z₁ = x₂ ++ q :: z₂) : x₁ = x₂ ∧ z₁ = z₂ := by
  induction x₁ generalizing x₂ with
  | nil =>
    cases x₂ with
    | nil => exact ⟨rfl, (List.cons.inj h).2⟩
    | cons a x₂ => exact absurd ((List.cons.inj h).1 ▸ List.mem_cons_self) h₂
  | cons a x₁ ih =>
    cases x₂ with
    | nil => exact absurd ((List.cons.inj h).1 ▸ List.mem_cons_self) h₁
    | cons b x₂ =>
      obtain ⟨rfl, htail⟩ := List.cons.inj h
      obtain ⟨rfl, hz⟩ := ih (List.not_mem_of_not_mem_cons h₁) (List.not_mem_of_not_mem_cons h₂)
        htail
      exact ⟨rfl, hz⟩

variable [DecidableEq α] {c : α}

/-- No piece contains the separator. -/
theorem notMem_of_mem_splitOn {p xs : List α} (h : p ∈ xs.splitOn c) : c ∉ p := by
  induction xs generalizing p with
  | nil =>
    rw [List.splitOn_nil, List.mem_singleton] at h
    rw [h]
    exact List.not_mem_nil
  | cons x xs ih =>
    rw [List.splitOn_cons_eq_if_modifyHead] at h
    obtain ⟨head, tail, hsplit⟩ := List.exists_cons_of_ne_nil (List.splitOn_ne_nil c xs)
    split at h
    · obtain rfl | h := List.mem_cons.mp h
      · exact List.not_mem_nil
      · exact ih h
    · next hx =>
      rw [hsplit, List.modifyHead_cons] at h
      obtain rfl | h := List.mem_cons.mp h
      · intro hc
        obtain rfl | hc := List.mem_cons.mp hc
        · exact hx (beq_self_eq_true c)
        · exact ih (hsplit ▸ List.mem_cons_self) hc
      · exact ih (hsplit ▸ List.mem_cons_of_mem head h)

omit [DecidableEq α] in
theorem infix_of_mem_intercalate {p : List α} {pieces : List (List α)} (h : p ∈ pieces) :
    c :: (p ++ [c]) <:+: c :: ([c].intercalate pieces ++ [c]) := by
  induction pieces with
  | nil => exact absurd h List.not_mem_nil
  | cons q pieces ih =>
    cases pieces with
    | nil =>
      rw [List.mem_singleton] at h
      rw [h, List.intercalate_singleton]
    | cons q' pieces =>
      rw [List.intercalate_cons_cons]
      obtain rfl | h := List.mem_cons.mp h
      · exact ⟨[], [c].intercalate (q' :: pieces) ++ [c], by simp⟩
      · refine (ih h).trans (List.IsSuffix.isInfix ⟨c :: q, by simp⟩)

/-- The pieces are the stretches without a separator between two of them, the
ends of the list taken for separators. -/
theorem mem_splitOn {p xs : List α} :
    p ∈ xs.splitOn c ↔ c ∉ p ∧ c :: (p ++ [c]) <:+: c :: (xs ++ [c]) := by
  constructor
  · intro h
    refine ⟨notMem_of_mem_splitOn h, ?_⟩
    have hxs : [c].intercalate (xs.splitOn c) = xs := List.intercalate_splitOn c
    rw [← hxs]
    exact infix_of_mem_intercalate h
  · rintro ⟨hp, a, b, h⟩
    have hone : p ∈ p.splitOn c := by
      rw [List.splitOn_eq_singleton hp]
      exact List.mem_singleton.mpr rfl
    -- Either side of the piece is an end of the list, or holds its separator.
    have hb : ∀ ys : List α, p ++ c :: b = ys ++ [c] → p ∈ ys.splitOn c := by
      intro ys hys
      obtain rfl | ⟨b', x, rfl⟩ := List.eq_nil_or_concat' b
      · rw [← (List.append_inj' hys rfl).1]
        exact hone
      · have hys' : (p ++ c :: b') ++ [x] = ys ++ [c] := by simpa using hys
        rw [← (List.append_inj' hys' rfl).1, List.splitOn_append_cons_self]
        exact List.mem_append_left _ hone
    cases a with
    | nil => exact hb xs (by simpa using h)
    | cons x a =>
      obtain ⟨rfl, h⟩ : x = c ∧ a ++ (c :: p ++ c :: b) = xs ++ [c] := by simpa using h
      obtain hnil | ⟨ys, y, hys⟩ := List.eq_nil_or_concat' (p ++ x :: b)
      · simp at hnil
      · have h' : (a ++ x :: ys) ++ [y] = xs ++ [x] := by
          rw [← h, List.cons_append, hys]
          simp
        obtain ⟨rfl, hy⟩ := List.append_inj' h' rfl
        rw [List.splitOn_append_cons_self]
        exact List.mem_append_right _ (hb ys (List.singleton_inj.mp hy ▸ hys))

/-- The pieces of lists strung together are the pieces of each. -/
theorem splitOn_intercalate_eq_flatMap {parts : List (List α)} (h : parts ≠ []) :
    ([c].intercalate parts).splitOn c = parts.flatMap (List.splitOn c) := by
  induction parts with
  | nil => exact absurd rfl h
  | cons part parts ih =>
    cases parts with
    | nil => simp
    | cons part' parts =>
      rw [List.intercalate_cons_cons, List.append_assoc, List.singleton_append,
        List.splitOn_append_cons_self, ih (List.cons_ne_nil _ _), List.flatMap_cons,
        List.flatMap_cons, List.flatMap_cons]

end Splitting
