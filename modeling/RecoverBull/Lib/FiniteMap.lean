import Mathlib.Data.Finmap

/-!
# Retaining and altering the entries of a finite map

`Finmap` has the usual insertions and removals; this file adds the bulk
operation that keeps the entries a test accepts, the size of a map, and the
operation that replaces or removes the entry of one key.
-/

namespace Finmap

variable {α β : Type*} [DecidableEq α]

/-- The entries of `m` that pass the test `p`. -/
def retain (p : α → β → Bool) (m : Finmap fun _ : α => β) : Finmap fun _ : α => β where
  entries := m.entries.filter fun e => p e.1 e.2
  nodupKeys := by
    rw [← Multiset.nodup_keys]
    exact Multiset.nodup_of_le (Multiset.map_le_map (Multiset.filter_le _ _))
      (Multiset.nodup_keys.mpr m.nodupKeys)

/-- The number of entries of `m`. -/
def len (m : Finmap fun _ : α => β) : ℕ := m.keys.card

@[simp] theorem lookup_retain (p : α → β → Bool) (m : Finmap fun _ : α => β) (a : α) :
    (m.retain p).lookup a = (m.lookup a).filter (p a) := by
  apply Option.ext
  intro b
  rw [Finmap.lookup_eq_some_iff, Option.filter_eq_some_iff, Finmap.lookup_eq_some_iff]
  exact Multiset.mem_filter

theorem mem_retain {p : α → β → Bool} {m : Finmap fun _ : α => β} {a : α} :
    a ∈ m.retain p ↔ ∃ b, m.lookup a = some b ∧ p a b = true := by
  rw [← Finmap.lookup_isSome, lookup_retain]
  cases m.lookup a with
  | none => simp
  | some b => by_cases h : p a b = true <;> simp [Option.filter, h]

/-- Two passes of a test that implies the other are one pass. -/
theorem retain_retain_of_imp {p q : α → β → Bool} (h : ∀ a b, q a b = true → p a b = true)
    (m : Finmap fun _ : α => β) : (m.retain p).retain q = m.retain q := by
  apply Finmap.ext_lookup
  intro a
  simp only [lookup_retain, Option.filter_filter]
  congr 1
  funext b
  cases hq : q a b with
  | false => exact Bool.and_false _
  | true => simp [h a b hq]

theorem keys_retain_subset (p : α → β → Bool) (m : Finmap fun _ : α => β) :
    (m.retain p).keys ⊆ m.keys := by
  intro a ha
  obtain ⟨b, hb, _⟩ := mem_retain.mp (Finmap.mem_keys.mp ha)
  exact Finmap.mem_keys.mpr (Finmap.mem_of_lookup_eq_some hb)

theorem len_retain_le (p : α → β → Bool) (m : Finmap fun _ : α => β) :
    (m.retain p).len ≤ m.len :=
  Finset.card_le_card (keys_retain_subset p m)

omit [DecidableEq α] in
@[simp] theorem len_empty : (∅ : Finmap fun _ : α => β).len = 0 := by
  simp [len]

theorem keys_insert (a : α) (b : β) (m : Finmap fun _ : α => β) :
    (m.insert a b).keys = Insert.insert a m.keys := by
  ext x
  rw [Finmap.mem_keys, Finmap.mem_insert, Finset.mem_insert, Finmap.mem_keys]

theorem len_insert_of_mem {a : α} {m : Finmap fun _ : α => β} (h : a ∈ m) (b : β) :
    (m.insert a b).len = m.len := by
  rw [len, keys_insert, Finset.insert_eq_of_mem (Finmap.mem_keys.mpr h), len]

theorem len_insert_of_notMem {a : α} {m : Finmap fun _ : α => β} (h : a ∉ m) (b : β) :
    (m.insert a b).len = m.len + 1 := by
  rw [len, keys_insert, Finset.card_insert_of_notMem (mt Finmap.mem_keys.mp h), len]

theorem len_erase_le (a : α) (m : Finmap fun _ : α => β) : (m.erase a).len ≤ m.len := by
  rw [len, Finmap.keys_erase]
  exact Finset.card_le_card (Finset.erase_subset _ _)

omit [DecidableEq α] in
theorem len_pos_of_mem {a : α} {m : Finmap fun _ : α => β} (h : a ∈ m) : 0 < m.len :=
  Finset.card_pos.mpr ⟨a, Finmap.mem_keys.mpr h⟩

theorem len_eq_zero {m : Finmap fun _ : α => β} : m.len = 0 ↔ m = ∅ := by
  constructor
  · intro h
    apply Finmap.ext_lookup
    intro a
    rw [Finmap.lookup_empty, Finmap.lookup_eq_none]
    intro ha
    exact absurd (len_pos_of_mem ha) (by omega)
  · rintro rfl
    exact len_empty

theorem ne_empty_of_len_pos {m : Finmap fun _ : α => β} (h : 0 < m.len) : m ≠ ∅ :=
  mt len_eq_zero.mpr (Nat.ne_of_gt h)

theorem insert_ne_empty (a : α) (b : β) (m : Finmap fun _ : α => β) : m.insert a b ≠ ∅ := by
  intro h
  have hb : (m.insert a b).lookup a = some b := Finmap.lookup_insert m
  rw [h, Finmap.lookup_empty] at hb
  cases hb

/-- Inserting a fresh key and erasing it again is the identity. -/
theorem erase_insert_of_notMem {a : α} {m : Finmap fun _ : α => β} (h : a ∉ m) (b : β) :
    (m.insert a b).erase a = m := by
  apply Finmap.ext_lookup
  intro x
  by_cases hx : x = a
  · subst hx
    rw [Finmap.lookup_erase, Finmap.lookup_eq_none.mpr h]
  · rw [Finmap.lookup_erase_ne hx, Finmap.lookup_insert_of_ne _ hx]

/-! ## Altering one entry -/

/-- The entry of `a`, where there is one, replaced by what `f` makes of it. -/
def alter (m : Finmap fun _ : α => β) (a : α) (f : β → Option β) : Finmap fun _ : α => β :=
  match (m.lookup a).bind f with
  | none => m.erase a
  | some b => m.insert a b

theorem lookup_alter (m : Finmap fun _ : α => β) (a k : α) (f : β → Option β) :
    (m.alter a f).lookup k = if k = a then (m.lookup k).bind f else m.lookup k := by
  unfold alter
  by_cases hk : k = a
  · subst hk
    rw [if_pos rfl]
    split
    · next h => rw [Finmap.lookup_erase, h]
    · next b h => rw [Finmap.lookup_insert, h]
  · rw [if_neg hk]
    split
    · exact Finmap.lookup_erase_ne hk
    · exact Finmap.lookup_insert_of_ne _ hk

theorem alter_congr {m : Finmap fun _ : α => β} {a : α} {f g : β → Option β}
    (h : ∀ b, m.lookup a = some b → f b = g b) : m.alter a f = m.alter a g := by
  have hbind : (m.lookup a).bind f = (m.lookup a).bind g := by
    cases hm : m.lookup a with
    | none => rfl
    | some b => exact h b hm
  unfold alter
  rw [hbind]

theorem alter_alter (m : Finmap fun _ : α => β) (a : α) (f g : β → Option β) :
    (m.alter a f).alter a g = m.alter a fun b => (f b).bind g := by
  apply Finmap.ext_lookup
  intro k
  rw [lookup_alter, lookup_alter, lookup_alter]
  split
  · rw [Option.bind_assoc]
  · rfl

/-- Alterations of different keys do not meet. -/
theorem alter_comm_of_ne (m : Finmap fun _ : α => β) {a b : α} (h : a ≠ b) (f g : β → Option β) :
    (m.alter a f).alter b g = (m.alter b g).alter a f := by
  apply Finmap.ext_lookup
  intro k
  simp only [lookup_alter]
  by_cases ha : k = a
  · subst ha
    simp [h]
  · simp [ha]

/-- What holds of every entry holds after an alteration that keeps it. -/
theorem forall_alter {m : Finmap fun _ : α => β} {a : α} {f : β → Option β} {p : β → Prop}
    (h : ∀ k b, m.lookup k = some b → p b) (hf : ∀ b b', p b → f b = some b' → p b') :
    ∀ k b, (m.alter a f).lookup k = some b → p b := by
  intro k b' hk
  rw [lookup_alter] at hk
  split at hk
  · obtain ⟨b, hb, hfb⟩ := Option.bind_eq_some_iff.mp hk
    exact hf b b' (h k b hb) hfb
  · exact h k b' hk

end Finmap
