import RecoverBull.Models

/-!
# The secret table

The queries of `database.rs` on a table with the schema of migration 0001. The
primary key is part of the table: two rows with one id cannot be built.
-/

namespace RecoverBull

/-- The `secret` table. -/
structure SecretTable where
  rows : List Secret
  primaryKey : (rows.map Secret.id).Nodup

inductive DieselError
  | notFound
  | other
  deriving DecidableEq, Repr

namespace SecretTable

def empty : SecretTable := ⟨[], List.nodup_nil⟩

def singleton (row : Secret) : SecretTable := ⟨[row], List.nodup_singleton _⟩

/-- `SELECT .. WHERE id = ?`, first row. -/
def readSecretById (table : SecretTable) (secretId : String) : Option Secret :=
  table.rows.find? fun row => row.id = secretId

/-- `INSERT .. ON CONFLICT DO NOTHING`. -/
def write (table : SecretTable) (newSecret : Secret) : SecretTable :=
  if h : newSecret.id ∈ table.rows.map Secret.id then table
  else
    { rows := table.rows ++ [newSecret]
      primaryKey := by
        rw [List.map_append, List.nodup_append]
        refine ⟨table.primaryKey, by simp, ?_⟩
        intro a ha b hb hab
        have hb : b = newSecret.id := by simpa using hb
        exact h (hb ▸ hab ▸ ha) }

/-- `DELETE .. WHERE id = ?`. -/
def delete (table : SecretTable) (secretId : String) : SecretTable where
  rows := table.rows.filter fun row => row.id ≠ secretId
  primaryKey := List.Nodup.sublist (List.filter_sublist.map _) table.primaryKey

/-- The number of rows `delete` removes. -/
def deleted (table : SecretTable) (secretId : String) : ℕ :=
  table.rows.countP fun row => row.id = secretId

/-- One immediate transaction: an error rolls the delete back. -/
def readAndTrashSecretById (table : SecretTable) (secretId : String) :
    Except DieselError (Option Secret) × SecretTable :=
  match table.readSecretById secretId with
  | none => (.ok none, table)
  | some storedSecret =>
    if table.deleted secretId ≠ 1 then (.error .notFound, table)
    else (.ok (some storedSecret), table.delete secretId)

theorem readSecretById_isSome_iff {table : SecretTable} {k : String} :
    (table.readSecretById k).isSome ↔ k ∈ table.rows.map Secret.id := by
  simp [readSecretById, List.find?_isSome]

theorem readSecretById_write (table : SecretTable) (row : Secret) (k : String) :
    (table.write row).readSecretById k =
      if k = row.id then some ((table.readSecretById k).getD row) else table.readSecretById k := by
  unfold write
  split
  · next h =>
    split
    · next hk =>
      subst hk
      obtain ⟨old, ho⟩ := Option.isSome_iff_exists.mp (readSecretById_isSome_iff.mpr h)
      rw [ho, Option.getD_some]
    · rfl
  · next h =>
    simp only [readSecretById, List.find?_append]
    split
    · next hk =>
      subst hk
      have hn : table.rows.find? (fun r => decide (r.id = row.id)) = none := by
        have := mt readSecretById_isSome_iff.mp h
        simpa [readSecretById] using this
      simp [hn]
    · next hk =>
      have : ¬ row.id = k := fun e => hk e.symm
      simp [this]

theorem readSecretById_delete (table : SecretTable) (id k : String) :
    (table.delete id).readSecretById k = if k = id then none else table.readSecretById k := by
  simp only [delete, readSecretById, List.find?_filter]
  split
  · next hk =>
    subst hk
    rw [List.find?_eq_none]
    intro row _
    by_cases h : row.id = k <;> simp [h]
  · next hk =>
    congr 1
    funext row
    by_cases h : row.id = k
    · simp [h, hk]
    · simp [h]

/-- The primary key makes the delete of a present id remove exactly one row. -/
theorem deleted_eq_one {table : SecretTable} {k : String} {row : Secret}
    (h : table.readSecretById k = some row) : table.deleted k = 1 := by
  have hmem : k ∈ table.rows.map Secret.id :=
    readSecretById_isSome_iff.mp (by rw [h]; rfl)
  have hcount := List.count_eq_one_of_mem table.primaryKey hmem
  rw [List.count, List.countP_map] at hcount
  rw [deleted, ← hcount]
  rfl

theorem readAndTrash_eq (table : SecretTable) (k : String) :
    table.readAndTrashSecretById k =
      (.ok (table.readSecretById k), if (table.readSecretById k).isSome then table.delete k else table) := by
  unfold readAndTrashSecretById
  cases h : table.readSecretById k with
  | none => rfl
  | some row => simp [deleted_eq_one h]

end SecretTable

end RecoverBull
