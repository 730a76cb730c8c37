import RecoverBull.Migrations
import RecoverBull.Database

/-!
# Writing to an adopted table

`write` reports success when it inserted nothing, for a conflict or for a `NOT NULL` that
is to be ignored. On the table of migration 0001 it can only be a conflict with a row of
the same id; a legacy table that looks the same may have other uniqueness constraints and
generated columns, which the adoption does not look at.
-/

namespace RecoverBull

/-- The values of an insert. -/
def secretRow (key : Secret) : SqlRow :=
  [.text key.id, .text key.createdAt, .text key.encryptedSecret]

namespace SqlTable

/-- The table has a row with this id. -/
def HasId (table : SqlTable) (id : String) : Prop := ∃ row ∈ table.rows, row.head? = some (.text id)

instance (table : SqlTable) (id : String) : Decidable (table.HasId id) :=
  inferInstanceAs (Decidable (∃ row ∈ table.rows, row.head? = some (.text id)))

/-- A uniqueness constraint would be violated. -/
def Conflicts (table : SqlTable) (row : SqlRow) : Prop :=
  ∃ constraint ∈ table.definition.unique, ∃ stored ∈ table.rows, constraint.Clash stored row

instance (table : SqlTable) (row : SqlRow) : Decidable (table.Conflicts row) :=
  inferInstanceAs
    (Decidable (∃ constraint ∈ table.definition.unique, ∃ stored ∈ table.rows, constraint.Clash stored row))

def insert (table : SqlTable) (row : SqlRow) (hcheck : table.definition.check row = .passes)
    (h : ¬table.Conflicts row) : SqlTable where
  definition := table.definition
  rows := table.rows ++ [row]
  unique constraint hc := by
    rw [List.pairwise_append]
    refine ⟨table.unique constraint hc, List.pairwise_singleton _ _, ?_⟩
    intro stored hs new hnew hclash
    rw [List.mem_singleton.mp hnew] at hclash
    exact h ⟨constraint, hc, stored, hs, hclash⟩
  checked new hnew := by
    rcases List.mem_append.mp hnew with hold | hlast
    · exact table.checked new hold
    · rw [List.mem_singleton.mp hlast]
      exact hcheck

/-- `write`: `INSERT .. ON CONFLICT DO NOTHING`, and whether it was no error. `fails` is
an error that is not the table's: a busy database, a full disk. -/
def write (table : SqlTable) (key : Secret) (fails : Bool) : Bool × SqlTable :=
  if fails then (false, table)
  else
    match hcheck : table.definition.check (secretRow key) with
    | .fails => (false, table)
    | .skips => (true, table)
    | .passes =>
      if hc : table.Conflicts (secretRow key) then (true, table)
      else (true, table.insert (secretRow key) hcheck hc)

theorem write_error (table : SqlTable) (key : Secret) : table.write key true = (false, table) :=
  if_pos rfl

/-- The insert puts no row into the table and is no error: the table ignores the row, or
it runs into a stored one. -/
def PassesOver (table : SqlTable) (key : Secret) : Prop :=
  table.definition.check (secretRow key) = .skips ∨
    table.definition.check (secretRow key) = .passes ∧ table.Conflicts (secretRow key)

/-- What comes of an insert that is made: an error of the row, nothing, or the row. -/
theorem write_cases (table : SqlTable) (key : Secret) :
    table.definition.check (secretRow key) = .fails ∧ table.write key false = (false, table) ∨
      table.PassesOver key ∧ table.write key false = (true, table) ∨
      ¬table.PassesOver key ∧ ∃ hcheck hc,
        table.write key false = (true, table.insert (secretRow key) hcheck hc) := by
  rw [write, if_neg Bool.false_ne_true]
  split
  · next h => exact Or.inl ⟨h, rfl⟩
  · next h => exact Or.inr (Or.inl ⟨Or.inl h, rfl⟩)
  · next h =>
    by_cases hc : table.Conflicts (secretRow key)
    · exact Or.inr (Or.inl ⟨Or.inr ⟨h, hc⟩, dif_pos hc⟩)
    · refine Or.inr (Or.inr ⟨?_, h, hc, dif_neg hc⟩)
      rintro (hskips | ⟨-, hconflict⟩)
      · cases h.symm.trans hskips
      · exact hc hconflict

theorem hasId_insert {table : SqlTable} {key : Secret}
    (hcheck : table.definition.check (secretRow key) = .passes)
    (hc : ¬table.Conflicts (secretRow key)) :
    (table.insert (secretRow key) hcheck hc).HasId key.id :=
  ⟨secretRow key, List.mem_append_right _ (List.mem_singleton_self _), rfl⟩

theorem write_definition (table : SqlTable) (key : Secret) (fails : Bool) :
    (table.write key fails).2.definition = table.definition := by
  unfold write
  split
  · rfl
  · split
    · rfl
    · rfl
    · split <;> rfl

end SqlTable

/-! ## Acknowledged secrets -/

structure WriteCall where
  key : Secret
  fails : Bool
  deriving DecidableEq, Repr

namespace SqlTable

def afterWrites (table : SqlTable) (calls : List WriteCall) : SqlTable :=
  calls.foldl (fun table call => (table.write call.key call.fails).2) table

/-- If the write is acknowledged, its secret is there. -/
def Keeps (table : SqlTable) (call : WriteCall) : Prop :=
  (table.write call.key call.fails).1 = true →
    (table.write call.key call.fails).2.HasId call.key.id

instance (table : SqlTable) (call : WriteCall) : Decidable (table.Keeps call) :=
  inferInstanceAs (Decidable (_ → _))

/-- If the insert is passed over, the id is already stored. -/
def MeetsOwn (table : SqlTable) (call : WriteCall) : Prop :=
  call.fails = false → table.PassesOver call.key → table.HasId call.key.id

/-- What holds of every write of the sequence, where it is made. -/
def Throughout (p : SqlTable → WriteCall → Prop) (table : SqlTable) (calls : List WriteCall) : Prop :=
  ∀ before call, before ++ [call] <+: calls → p (table.afterWrites before) call

theorem keeps_iff_meetsOwn (table : SqlTable) (call : WriteCall) :
    table.Keeps call ↔ table.MeetsOwn call := by
  obtain ⟨key, fails⟩ := call
  unfold Keeps MeetsOwn
  cases fails with
  | true =>
    rw [write_error]
    constructor
    · intro _ hfails
      cases hfails
    · intro _ hack
      cases hack
  | false =>
    obtain ⟨hfails, hwrite⟩ | ⟨hpassed, hwrite⟩ | ⟨hpassed, hcheck, hc, hwrite⟩ :=
      write_cases table key
    · rw [hwrite]
      constructor
      · rintro _ _ (hskips | ⟨hpasses, -⟩)
        · cases hfails.symm.trans hskips
        · cases hfails.symm.trans hpasses
      · intro _ hack
        cases hack
    · rw [hwrite]
      exact ⟨fun hkeeps _ _ => hkeeps rfl, fun hmeets _ => hmeets rfl hpassed⟩
    · rw [hwrite]
      exact ⟨fun _ _ hpasses => absurd hpasses hpassed, fun _ _ => hasId_insert hcheck hc⟩

theorem throughout_congr {p q : SqlTable → WriteCall → Prop}
    (h : ∀ table call, p table call ↔ q table call) (table : SqlTable) (calls : List WriteCall) :
    Throughout p table calls ↔ Throughout q table calls := by
  constructor
  · intro hp before call hpre
    exact (h _ _).mp (hp before call hpre)
  · intro hq before call hpre
    exact (h _ _).mpr (hq before call hpre)

theorem afterWrites_definition (table : SqlTable) (calls : List WriteCall) :
    (table.afterWrites calls).definition = table.definition := by
  induction calls generalizing table with
  | nil => rfl
  | cons call calls ih => exact (ih _).trans (table.write_definition call.key call.fails)

end SqlTable

/-! ## The tables on which every acknowledged secret is kept -/

/-- Two rows that a uniqueness constraint keeps apart have the same id. -/
def TableDefinition.SeparatesIds (definition : TableDefinition) : Prop :=
  ∀ constraint ∈ definition.unique, ∀ stored key, definition.check stored = .passes →
    definition.check (secretRow key) = .passes → constraint.Clash stored (secretRow key) →
      stored.head? = some (.text key.id)

/-- The table ignores no secret. -/
def TableDefinition.SkipsNone (definition : TableDefinition) : Prop :=
  ∀ key, definition.check (secretRow key) ≠ .skips

/-- The primary key of migration 0001 is the id. -/
theorem initialDefinition_separatesIds : initialDefinition.SeparatesIds := by
  intro constraint hc stored key _ _ ⟨k, hstored, hnew⟩
  rw [List.mem_singleton.mp hc] at hstored hnew
  obtain rfl : [.text key.id] = k := Option.some.inj hnew
  have htake : stored.take 1 = [.text key.id] := Option.some.inj hstored
  cases stored with
  | nil => cases htake
  | cons v vs =>
    rw [List.take_succ_cons, List.take_zero] at htake
    rw [List.head?_cons, (List.cons.inj htake).1]

theorem SqlTable.conflicts_iff_hasId {table : SqlTable}
    (hdefinition : table.definition = initialDefinition) {key : Secret} :
    table.Conflicts (secretRow key) ↔ table.HasId key.id := by
  constructor
  · rintro ⟨constraint, hc, stored, hs, hclash⟩
    have hchecked := table.checked stored hs
    rw [hdefinition] at hc hchecked
    exact ⟨stored, hs,
      initialDefinition_separatesIds constraint hc stored key hchecked rfl hclash⟩
  · rintro ⟨stored, hs, hid⟩
    refine ⟨⟨fun row => some (row.take 1)⟩, ?_, stored, hs, [.text key.id], ?_, rfl⟩
    · rw [hdefinition]
      exact List.mem_singleton_self _
    · obtain ⟨vs, rfl⟩ := List.head?_eq_some_iff.mp hid
      rfl

/-- On a table of migration 0001 a write is the one of the table with a primary key. -/
theorem SqlTable.write_simulates {table : SqlTable} {secrets : SecretTable}
    (hdefinition : table.definition = initialDefinition)
    (hrows : table.rows = secrets.rows.map secretRow) (key : Secret) :
    (table.write key false).1 = true ∧
      (table.write key false).2.rows = (secrets.write key).rows.map secretRow := by
  have hcheck : table.definition.check (secretRow key) = .passes := by
    rw [hdefinition]
    rfl
  have hids : table.HasId key.id ↔ key.id ∈ secrets.rows.map Secret.id := by
    rw [HasId, hrows]
    simp [secretRow]
  obtain ⟨hfails, -⟩ | ⟨hpassed, hwrite⟩ | ⟨hpassed, hcheck', hc, hwrite⟩ := write_cases table key
  · cases hcheck.symm.trans hfails
  · have hmem : key.id ∈ secrets.rows.map Secret.id := by
      obtain hskips | ⟨-, hc⟩ := hpassed
      · cases hcheck.symm.trans hskips
      · exact hids.mp ((conflicts_iff_hasId hdefinition).mp hc)
    rw [hwrite, SecretTable.write, dif_pos hmem]
    exact ⟨rfl, hrows⟩
  · have hmem : key.id ∉ secrets.rows.map Secret.id := fun hmem =>
      hc ((conflicts_iff_hasId hdefinition).mpr (hids.mpr hmem))
    rw [hwrite, SecretTable.write, dif_neg hmem]
    refine ⟨rfl, ?_⟩
    show table.rows ++ [secretRow key] = (secrets.rows ++ [key]).map secretRow
    rw [hrows, List.map_append, List.map_singleton]

/-- The table of migration 0001 with these rows. -/
def SecretTable.toSqlTable (secrets : SecretTable) : SqlTable where
  definition := initialDefinition
  rows := secrets.rows.map secretRow
  unique constraint hc := by
    rw [List.pairwise_map]
    refine (List.pairwise_map.mp secrets.primaryKey).imp fun {a b} hne hclash => hne ?_
    have hhead := initialDefinition_separatesIds constraint hc (secretRow a) b rfl rfl hclash
    exact SqlValue.text.inj (Option.some.inj hhead)
  checked row hrow := by
    obtain ⟨key, -, rfl⟩ := List.mem_map.mp hrow
    rfl

/-- The database a server has once it has started. -/
def SecretTable.database (secrets : SecretTable) : LegacyDatabase := adopted secrets.toSqlTable

/-- A start on it leaves it as it is, after any number of starts that were interrupted. -/
theorem runMigrations_database {secrets : SecretTable} {database : LegacyDatabase}
    (hr : runMigrations.Restarts secrets.database database) :
    (runMigrations database).1 = .ok () ∧ runMigrations.final database = secrets.database := by
  obtain ⟨_, hok, hfinal⟩ := (runMigrations_triple secrets.toSqlTable).restart .adopted hr
  exact ⟨hok, hfinal⟩

theorem SqlTable.throughout_keeps {table : SqlTable} (h : table.definition.SeparatesIds)
    (hskips : table.definition.SkipsNone) (calls : List WriteCall) :
    SqlTable.Throughout SqlTable.Keeps table calls := by
  intro before call _
  rw [SqlTable.keeps_iff_meetsOwn]
  rintro _ (hskipped | ⟨hcheck, constraint, hc, stored, hs, hclash⟩)
  · rw [SqlTable.afterWrites_definition] at hskipped
    exact absurd hskipped (hskips call.key)
  · have hchecked := (table.afterWrites before).checked stored hs
    rw [SqlTable.afterWrites_definition] at hc hcheck hchecked
    exact ⟨stored, hs, h constraint hc stored call.key hchecked hcheck hclash⟩

/-- A table of one row. -/
def TableDefinition.single (definition : TableDefinition) (row : SqlRow)
    (h : definition.check row = .passes) : SqlTable where
  definition := definition
  rows := [row]
  unique _ _ := List.pairwise_singleton _ _
  checked _ hm := by
    rw [List.mem_singleton.mp hm]
    exact h

theorem separatesIds_of_keeps {definition : TableDefinition}
    (h : ∀ table : SqlTable, table.definition = definition →
      ∀ calls, SqlTable.Throughout SqlTable.Keeps table calls) : definition.SeparatesIds := by
  intro constraint hc stored key hstored hnew hclash
  have hkeeps : (definition.single stored hstored).Keeps ⟨key, false⟩ :=
    h (definition.single stored hstored) rfl [⟨key, false⟩] [] ⟨key, false⟩ List.prefix_rfl
  obtain ⟨row, hrow, hid⟩ := (SqlTable.keeps_iff_meetsOwn _ _).mp hkeeps rfl
    (Or.inr ⟨hnew, constraint, hc, stored, List.mem_singleton_self _, hclash⟩)
  rw [List.mem_singleton.mp hrow] at hid
  exact hid

/-- An ignored secret is lost on the table without rows. -/
theorem skipsNone_of_keeps {definition : TableDefinition}
    (h : ∀ table : SqlTable, table.definition = definition →
      ∀ calls, SqlTable.Throughout SqlTable.Keeps table calls) : definition.SkipsNone := by
  intro key hskips
  have hkeeps : definition.empty.Keeps ⟨key, false⟩ :=
    h definition.empty rfl [⟨key, false⟩] [] ⟨key, false⟩ List.prefix_rfl
  obtain ⟨row, hrow, -⟩ := (SqlTable.keeps_iff_meetsOwn _ _).mp hkeeps rfl (Or.inl hskips)
  exact absurd hrow List.not_mem_nil

/-! ## Adoption -/

theorem final_of_adopted {database : LegacyDatabase} {table : SqlTable}
    (hsecret : database.secret = some table) (hledger : database.ledger = none)
    (hok : (runMigrations database).1 = .ok ()) :
    (runMigrations.final database).secret = some table ∧
      table.definition.info = initialDefinition.info := by
  by_cases h : database.LooksCompatible
  · have hfinal := (run_of_looksCompatible hledger h Relation.ReflTransGen.refl).2
    refine ⟨?_, h table hsecret⟩
    rw [hfinal, LegacyDatabase.table, hsecret]
    rfl
  · rw [run_of_incompatible hledger h] at hok
    cases hok

/-- Every write to the table the migrations leave keeps what it acknowledges. -/
def KeepsAcknowledged (database : LegacyDatabase) (calls : List WriteCall) : Prop :=
  ∃ table, (runMigrations.final database).secret = some table ∧
    SqlTable.Throughout SqlTable.Keeps table calls

/-- On an adopted table an acknowledged secret is kept exactly when its insert is not
passed over, but for a row of its own id. The tables that never lose one are those that
ignore no row and whose uniqueness constraints all separate ids. -/
theorem adopted_keeps_acknowledged_iff {database : LegacyDatabase} {table : SqlTable}
    (hsecret : database.secret = some table) (hledger : database.ledger = none)
    (hok : (runMigrations database).1 = .ok ()) :
    (∀ calls, KeepsAcknowledged database calls ↔
        SqlTable.Throughout SqlTable.MeetsOwn table calls) ∧
      ((∀ other : SqlTable, other.definition = table.definition →
          ∀ calls, KeepsAcknowledged ⟨some other, none⟩ calls) ↔
        table.definition.SeparatesIds ∧ table.definition.SkipsNone) := by
  obtain ⟨hfinal, hinfo⟩ := final_of_adopted hsecret hledger hok
  constructor
  · intro calls
    rw [← SqlTable.throughout_congr SqlTable.keeps_iff_meetsOwn, KeepsAcknowledged, hfinal]
    simp only [Option.some.injEq, exists_eq_left']
  · -- A table of this definition is adopted as it is.
    have hadopted : ∀ other : SqlTable, other.definition = table.definition →
        (runMigrations.final ⟨some other, none⟩).secret = some other := by
      intro other hdefinition
      have hlooks : LegacyDatabase.LooksCompatible ⟨some other, none⟩ := by
        intro t ht
        cases ht
        rw [hdefinition, hinfo]
      rw [(run_of_looksCompatible rfl hlooks Relation.ReflTransGen.refl).2]
      rfl
    constructor
    · intro h
      have hkeeps : ∀ other : SqlTable, other.definition = table.definition →
          ∀ calls, SqlTable.Throughout SqlTable.Keeps other calls := by
        intro other hdefinition calls
        obtain ⟨t, ht, hkeeps⟩ := h other hdefinition calls
        rw [hadopted other hdefinition] at ht
        cases ht
        exact hkeeps
      exact ⟨separatesIds_of_keeps hkeeps, skipsNone_of_keeps hkeeps⟩
    · rintro ⟨hseparates, hskips⟩ other hdefinition calls
      refine ⟨other, hadopted other hdefinition, SqlTable.throughout_keeps ?_ ?_ calls⟩
      · rw [hdefinition]
        exact hseparates
      · rw [hdefinition]
        exact hskips

/-- The columns of migration 0001, with `UNIQUE (encrypted_secret)`. -/
def uniquePayload : TableDefinition :=
  { initialDefinition with unique := initialDefinition.unique ++ [⟨fun row => some (row.drop 2)⟩] }

def uniquePayloadTable : SqlTable :=
  uniquePayload.single [.text "a", .text "time", .text "cipher"] (by decide)

theorem adopted_keeps_acknowledged_iff_sample :
    ((∀ calls, KeepsAcknowledged ⟨some uniquePayloadTable, none⟩ calls ↔
        SqlTable.Throughout SqlTable.MeetsOwn uniquePayloadTable calls) ∧
      ((∀ other : SqlTable, other.definition = uniquePayloadTable.definition →
          ∀ calls, KeepsAcknowledged ⟨some other, none⟩ calls) ↔
        uniquePayloadTable.definition.SeparatesIds ∧ uniquePayloadTable.definition.SkipsNone)) :=
  adopted_keeps_acknowledged_iff rfl rfl rfl

/-- A second secret with the same payload is acknowledged and not stored. -/
theorem adopted_drops_acknowledged :
    (runMigrations ⟨some uniquePayloadTable, none⟩).1 = .ok () ∧
      ¬KeepsAcknowledged ⟨some uniquePayloadTable, none⟩ [⟨⟨"b", "time", "cipher"⟩, false⟩] := by
  refine ⟨rfl, ?_⟩
  rintro ⟨table, htable, hkeeps⟩
  obtain rfl : uniquePayloadTable = table := Option.some.inj htable
  have hkeep := hkeeps [] _ List.prefix_rfl
  exact absurd hkeep (by decide)

end RecoverBull
