import RecoverBull.Models
import RecoverBull.Lib.Crash

/-!
# Migrations and the adoption of a legacy database

`run_migrations` of `database.rs` on a database with at most the two tables it is
about. A legacy database has a `secret` table and no ledger of migrations; it is
adopted if `pragma_table_info` reports the columns of migration 0001, and that is
all that is looked at of its table. The pragma passes over generated columns.
-/

namespace RecoverBull

/-! ## Tables -/

/-- A line of `pragma_table_info`. -/
structure SecretColumn where
  name : String
  columnType : String
  notNull : ℤ
  primaryKey : ℤ
  defaultValue : Option String
  deriving DecidableEq, Repr

/-- What a column is filled with where an insert gives no value for it. -/
inductive ColumnDefault
  | none
  | value (text : String)
  /-- `GENERATED ALWAYS AS (..)`: no insert gives a value for it. -/
  | generated (expression : String)
  deriving DecidableEq, Repr

/-- A column as `CREATE TABLE` declares it. -/
structure TableColumn where
  name : String
  columnType : String
  notNull : ℤ
  primaryKey : ℤ
  default : ColumnDefault
  deriving DecidableEq, Repr

/-- The line of a column in `pragma_table_info`, which has none for a generated one. -/
def TableColumn.info (column : TableColumn) : Option SecretColumn :=
  match column.default with
  | .none => some ⟨column.name, column.columnType, column.notNull, column.primaryKey, none⟩
  | .value text => some ⟨column.name, column.columnType, column.notNull, column.primaryKey, some text⟩
  | .generated _ => none

inductive SqlValue
  | null
  | integer (value : ℤ)
  /-- The bits of the number. -/
  | real (bits : UInt64)
  | text (value : String)
  | blob (value : List UInt8)
  deriving DecidableEq, Repr

/-- The values of a row, in the order of the ordinary columns. They determine the
generated ones. -/
abbrev SqlRow := List SqlValue

/-- What a `TEXT NOT NULL` column can hold: it turns numbers into text. -/
def SqlValue.isTextual : SqlValue → Bool
  | .text _ | .blob _ => true
  | .null | .integer _ | .real _ => false

/-- A primary key, a `UNIQUE` clause or a unique index, by what it compares of a row
once the collations are applied. `none` is a row it leaves out, for a null or for the
condition of a partial index. -/
structure UniqueConstraint where
  key : SqlRow → Option (List SqlValue)

/-- The two rows cannot both be in the table. -/
def UniqueConstraint.Clash (constraint : UniqueConstraint) (a b : SqlRow) : Prop :=
  ∃ k, constraint.key a = some k ∧ constraint.key b = some k

instance (constraint : UniqueConstraint) (a b : SqlRow) : Decidable (constraint.Clash a b) :=
  decidable_of_iff ((constraint.key a).isSome ∧ constraint.key a = constraint.key b) <| by
    rw [UniqueConstraint.Clash, Option.isSome_iff_exists]
    constructor
    · rintro ⟨⟨k, hk⟩, he⟩
      exact ⟨k, hk, he ▸ hk⟩
    · rintro ⟨k, ha, hb⟩
      exact ⟨⟨k, ha⟩, ha.trans hb.symm⟩

/-- What comes of a row by itself: of its shape, its generated columns, `NOT NULL` and
`CHECK`, in this order and before any uniqueness constraint. -/
inductive RowCheck
  | passes
  /-- `NOT NULL ON CONFLICT IGNORE`: the insert leaves the row out, and is no error. -/
  | skips
  | fails
  deriving DecidableEq, Repr

/-- What `CREATE TABLE` and `CREATE UNIQUE INDEX` say of a table. -/
structure TableDefinition where
  columns : List TableColumn
  unique : List UniqueConstraint
  check : SqlRow → RowCheck

/-- A table on which its constraints hold. -/
structure SqlTable where
  definition : TableDefinition
  rows : List SqlRow
  unique : ∀ constraint ∈ definition.unique, rows.Pairwise fun a b => ¬constraint.Clash a b
  checked : ∀ row ∈ rows, definition.check row = .passes

/-- A table without rows. -/
def TableDefinition.empty (definition : TableDefinition) : SqlTable where
  definition := definition
  rows := []
  unique _ _ := List.Pairwise.nil
  checked _ h := nomatch h

/-- The table `secret` and the ledger `__diesel_schema_migrations`, by its versions. -/
structure LegacyDatabase where
  secret : Option SqlTable
  ledger : Option (List String)

/-! ## Statements -/

inductive MigrationError
  | incompatibleSchema (message : String)
  | sql (message : String)
  deriving DecidableEq, Repr

abbrev Statement := LegacyDatabase → Except MigrationError LegacyDatabase

/-- The statements of a transaction, all or none of them. -/
def transaction (statements : List Statement) : Statement := fun database =>
  statements.foldlM (fun database statement => statement database) database

def createLedger : Statement := fun database =>
  if database.ledger.isSome then .error (.sql "table __diesel_schema_migrations already exists")
  else .ok { database with ledger := some [] }

def createLedgerIfNotExists : Statement := fun database =>
  .ok { database with ledger := some (database.ledger.getD []) }

/-- `INSERT INTO __diesel_schema_migrations (version) VALUES (?)`. -/
def insertVersion (version : String) : Statement := fun database =>
  match database.ledger with
  | none => .error (.sql "no such table: __diesel_schema_migrations")
  | some versions =>
    if version ∈ versions then
      .error (.sql "UNIQUE constraint failed: __diesel_schema_migrations.version")
    else .ok { database with ledger := some (versions ++ [version]) }

/-- The table of migration 0001. The only constraint is its primary key. -/
def initialDefinition : TableDefinition where
  columns :=
    [⟨"id", "TEXT", 1, 1, .none⟩, ⟨"created_at", "TEXT", 1, 0, .none⟩,
      ⟨"encrypted_secret", "TEXT", 1, 0, .none⟩]
  unique := [⟨fun row => some (row.take 1)⟩]
  check row := if row.length == 3 && row.all SqlValue.isTextual then .passes else .fails

def initialTable : SqlTable := initialDefinition.empty

/-- `CREATE TABLE secret` of migration 0001. -/
def createSecret : Statement := fun database =>
  if database.secret.isSome then .error (.sql "table secret already exists")
  else .ok { database with secret := some initialTable }

structure Migration where
  version : String
  up : Statement

/-- The embedded migrations, by version. -/
def migrations : List Migration := [⟨"0001", createSecret⟩]

def initialMigrationVersion : String := "0001"

/-! ## The run -/

abbrev Connection (α : Type) := Committing LegacyDatabase MigrationError α

/-- Diesel makes sure of the ledger, and runs each migration that it does not list in a
transaction that records it. -/
def runPendingMigrations (migrations : List Migration) : Connection Unit := do
  Committing.commit createLedgerIfNotExists
  let applied ← Committing.read fun database => database.ledger.getD []
  (migrations.filter fun migration => migration.version ∉ applied).forM fun migration =>
    Committing.commit (transaction [migration.up, insertVersion migration.version])

def expectedColumns : List SecretColumn :=
  [⟨"id", "TEXT", 1, 1, none⟩, ⟨"created_at", "TEXT", 1, 0, none⟩,
    ⟨"encrypted_secret", "TEXT", 1, 0, none⟩]

def isExact (columns : List SecretColumn) : Bool :=
  columns.length == expectedColumns.length &&
    (columns.zip expectedColumns).all fun pair => pair.1 == pair.2

/-- `pragma_table_info`, of a table. -/
def TableDefinition.info (definition : TableDefinition) : List SecretColumn :=
  definition.columns.filterMap TableColumn.info

/-- `pragma_table_info('secret')`. -/
def tableInfo (database : LegacyDatabase) : List SecretColumn :=
  (database.secret.map fun table => table.definition.info).getD []

/-- The adoption of a table without a ledger. -/
def adoptLegacy : Connection Unit := do
  let columns ← Committing.read tableInfo
  if isExact columns then
    Committing.commit (transaction [createLedger, insertVersion initialMigrationVersion])
  else
    Committing.fail (.incompatibleSchema "legacy secret table has an incompatible schema")

/-- `run_migrations`. -/
def runMigrations : Connection Unit := do
  let secretExists ← Committing.read fun database => database.secret.isSome
  let ledgerExists ← Committing.read fun database => database.ledger.isSome
  if secretExists && !ledgerExists then
    adoptLegacy
  runPendingMigrations migrations

/-! ## What the check of the columns means -/

theorem all_zip_beq_iff {α : Type} [DecidableEq α] {l m : List α} :
    (l.length == m.length && (l.zip m).all fun pair => pair.1 == pair.2) = true ↔ l = m := by
  induction l generalizing m with
  | nil =>
    cases m with
    | nil => simp
    | cons b m => simp
  | cons a l ih =>
    cases m with
    | nil => simp
    | cons b m =>
      have hlength : ((a :: l).length == (b :: m).length) = (l.length == m.length) := by simp
      rw [hlength, List.zip_cons_cons, List.all_cons, List.cons.injEq, ← ih, Bool.and_left_comm,
        Bool.and_eq_true, beq_iff_eq]

/-- The columns the adoption expects are those of the migration it records. -/
theorem isExact_iff {columns : List SecretColumn} :
    isExact columns = true ↔ columns = initialDefinition.info :=
  all_zip_beq_iff

/-- The table has a generated column. -/
def TableDefinition.HasGenerated (definition : TableDefinition) : Prop :=
  ∃ column ∈ definition.columns, column.info = none

instance (definition : TableDefinition) : Decidable definition.HasGenerated :=
  inferInstanceAs (Decidable (∃ column ∈ definition.columns, column.info = none))

/-- The line of a column that has one tells all of it. -/
theorem TableColumn.info_inj {a b : TableColumn} {line : SecretColumn} (ha : a.info = some line)
    (hb : b.info = some line) : a = b := by
  obtain ⟨name, columnType, notNull, primaryKey, default⟩ := a
  obtain ⟨name', columnType', notNull', primaryKey', default'⟩ := b
  cases default <;> cases default' <;> cases ha <;> cases hb <;> rfl

/-- Where nothing is passed over, the lines of the pragma tell the columns. -/
theorem columns_eq_of_info {columns columns' : List TableColumn}
    (h : ∀ column ∈ columns, column.info ≠ none) (h' : ∀ column ∈ columns', column.info ≠ none)
    (he : columns.filterMap TableColumn.info = columns'.filterMap TableColumn.info) :
    columns = columns' := by
  induction columns generalizing columns' with
  | nil =>
    cases columns' with
    | nil => rfl
    | cons b columns' =>
      obtain ⟨line, hb⟩ := Option.ne_none_iff_exists'.mp (h' b List.mem_cons_self)
      rw [List.filterMap_cons_some hb] at he
      cases he
  | cons a columns ih =>
    obtain ⟨line, ha⟩ := Option.ne_none_iff_exists'.mp (h a List.mem_cons_self)
    rw [List.filterMap_cons_some ha] at he
    cases columns' with
    | nil => cases he
    | cons b columns' =>
      obtain ⟨line', hb⟩ := Option.ne_none_iff_exists'.mp (h' b List.mem_cons_self)
      rw [List.filterMap_cons_some hb] at he
      obtain ⟨rfl, htail⟩ := List.cons.inj he
      rw [TableColumn.info_inj ha hb, ih (fun c hc => h c (List.mem_cons_of_mem _ hc))
        (fun c hc => h' c (List.mem_cons_of_mem _ hc)) htail]

theorem initialDefinition_ordinary : ¬initialDefinition.HasGenerated := by decide

/-- The columns of a table are those of migration 0001 when the pragma shows these and
passes over none. -/
theorem columns_eq_initial_iff {definition : TableDefinition} :
    definition.columns = initialDefinition.columns ↔
      definition.info = initialDefinition.info ∧ ¬definition.HasGenerated := by
  constructor
  · intro h
    refine ⟨congrArg (List.filterMap TableColumn.info) h, ?_⟩
    rw [TableDefinition.HasGenerated, h]
    exact initialDefinition_ordinary
  · rintro ⟨hinfo, hordinary⟩
    exact columns_eq_of_info (fun column hc hn => hordinary ⟨column, hc, hn⟩)
      (fun column hc hn => initialDefinition_ordinary ⟨column, hc, hn⟩) hinfo

/-! ## The databases a start can find -/

/-- The database that ends up with the table. -/
def adopted (table : SqlTable) : LegacyDatabase := ⟨some table, some ["0001"]⟩

/-- A database on the way there, at the beginning or after a commit. -/
inductive Adopting (table : SqlTable) : LegacyDatabase → Prop
  | legacy (h : table.definition.info = initialDefinition.info) :
    Adopting table ⟨some table, none⟩
  | blank (h : table = initialTable) : Adopting table ⟨none, none⟩
  /-- Interrupted after the ledger, before the migration. -/
  | ledger (h : table = initialTable) : Adopting table ⟨none, some []⟩
  | adopted : Adopting table (RecoverBull.adopted table)

/-- With the ledger made sure of, what is left is at most the migration. -/
def Pending (table : SqlTable) (database : LegacyDatabase) : Prop :=
  table = initialTable ∧ database = ⟨none, some []⟩ ∨ database = adopted table

theorem Pending.adopting {table : SqlTable} {database : LegacyDatabase}
    (h : Pending table database) : Adopting table database := by
  obtain ⟨rfl, rfl⟩ | rfl := h
  · exact .ledger rfl
  · exact .adopted

/-- The run of the migrations that are pending, on a database whose secrets are in its
ledger if it has any. -/
theorem runPendingMigrations_triple (table : SqlTable) :
    Committing.Triple (fun database => Adopting table database ∧
        (database.secret.isSome && !database.ledger.isSome) = false)
      (runPendingMigrations migrations) (fun _ database => database = adopted table)
      (Adopting table) := by
  have hledger : Committing.Triple (fun database => Adopting table database ∧
        (database.secret.isSome && !database.ledger.isSome) = false)
      (Committing.commit createLedgerIfNotExists) (fun _ => Pending table) (Adopting table) := by
    apply Committing.triple_commit
    rintro database ⟨hshape, hlegacy⟩
    have hpending : Pending table { database with ledger := some (database.ledger.getD []) } := by
      cases hshape with
      | legacy => cases hlegacy
      | blank h => exact Or.inl ⟨h, rfl⟩
      | ledger h => exact Or.inl ⟨h, rfl⟩
      | adopted => exact Or.inr rfl
    exact ⟨_, rfl, hpending, hpending.adopting⟩
  refine hledger.bind fun _ => (Committing.triple_read _).bind fun applied => ?_
  rintro database ⟨⟨rfl, rfl⟩ | rfl, rfl⟩
  · -- The migration and its record are one commit.
    refine ⟨⟨(), rfl, rfl⟩, ?_⟩
    intro database' h
    rw [List.mem_singleton.mp h]
    exact .adopted
  · exact ⟨⟨(), rfl, rfl⟩, fun _ h => nomatch h⟩

theorem adoptLegacy_triple (table : SqlTable) :
    Committing.Triple (fun database => database = ⟨some table, none⟩ ∧
        table.definition.info = initialDefinition.info) adoptLegacy
      (fun _ database => database = adopted table) (Adopting table) := by
  refine (Committing.triple_read tableInfo).bind fun columns =>
    Committing.Triple.ite (fun _ => ?_) fun hinexact => ?_
  · rintro database ⟨⟨rfl, _⟩, _⟩
    -- The ledger and its first version are one commit.
    refine ⟨⟨(), rfl, rfl⟩, ?_⟩
    intro database' h
    rw [List.mem_singleton.mp h]
    exact .adopted
  · rintro database ⟨⟨rfl, hcolumns⟩, rfl⟩
    exact absurd (isExact_iff.mpr hcolumns) hinexact

/-- A start on any of these databases ends with the table adopted, and leaves one of them
wherever it is interrupted. -/
theorem runMigrations_triple (table : SqlTable) :
    Committing.Triple (Adopting table) runMigrations (fun _ database => database = adopted table)
      (Adopting table) := by
  refine (Committing.triple_read _).bind fun secretExists =>
    (Committing.triple_read _).bind fun ledgerExists =>
      Committing.Triple.ite (fun hlegacy => ?_) fun hmigrated => ?_
  · refine Committing.Triple.bind (Q := fun _ database => database = adopted table) ?_ fun _ => ?_
    · refine (adoptLegacy_triple table).consequence ?_ (fun _ _ h => h) fun _ h => h
      rintro database ⟨⟨hshape, rfl⟩, rfl⟩
      cases hshape with
      | legacy hcolumns => exact ⟨rfl, hcolumns⟩
      | blank | ledger | adopted => cases hlegacy
    · refine (runPendingMigrations_triple table).consequence ?_ (fun _ _ h => h) fun _ h => h
      rintro database rfl
      exact ⟨.adopted, rfl⟩
  · refine (runPendingMigrations_triple table).consequence ?_ (fun _ _ h => h) fun _ h => h
    rintro database ⟨⟨hshape, rfl⟩, rfl⟩
    exact ⟨hshape, Bool.eq_false_of_not_eq_true hmigrated⟩

/-! ## The run on a database without a ledger -/

/-- The table that ends up in the database: its own, or the one of migration 0001. -/
def LegacyDatabase.table (database : LegacyDatabase) : SqlTable :=
  database.secret.getD initialTable

/-- The database has no `secret` table, or one with the columns of migration 0001. -/
def LegacyDatabase.Compatible (database : LegacyDatabase) : Prop :=
  ∀ table, database.secret = some table →
    table.definition.columns = initialDefinition.columns

/-- The database has no `secret` table, or one of which the pragma shows the columns of
migration 0001. -/
def LegacyDatabase.LooksCompatible (database : LegacyDatabase) : Prop :=
  ∀ table, database.secret = some table → table.definition.info = initialDefinition.info

/-- The table has the columns of migration 0001 and a generated column. -/
def LegacyDatabase.HidesGenerated (database : LegacyDatabase) : Prop :=
  ∃ table, database.secret = some table ∧ table.definition.HasGenerated ∧
    table.definition.info = initialDefinition.info

theorem LegacyDatabase.Compatible.looks {database : LegacyDatabase} (h : database.Compatible) :
    database.LooksCompatible :=
  fun table htable => (columns_eq_initial_iff.mp (h table htable)).1

/-- What the pragma shows is right but for generated columns. -/
theorem looksCompatible_iff {database : LegacyDatabase} :
    database.LooksCompatible ↔ database.Compatible ∨ database.HidesGenerated := by
  constructor
  · intro h
    by_cases hhides : database.HidesGenerated
    · exact Or.inr hhides
    · exact Or.inl fun table htable => columns_eq_initial_iff.mpr
        ⟨h table htable, fun hgenerated => hhides ⟨table, htable, hgenerated, h table htable⟩⟩
  · rintro (h | ⟨table, htable, -, hinfo⟩) other hother
    · exact h.looks other hother
    · cases htable.symm.trans hother
      exact hinfo

theorem LegacyDatabase.HidesGenerated.not_compatible {database : LegacyDatabase}
    (h : database.HidesGenerated) : ¬database.Compatible := by
  obtain ⟨table, htable, hgenerated, -⟩ := h
  exact fun hcompatible => (columns_eq_initial_iff.mp (hcompatible table htable)).2 hgenerated

theorem adopting_of_looksCompatible {database : LegacyDatabase} (hledger : database.ledger = none)
    (h : database.LooksCompatible) : Adopting database.table database := by
  obtain ⟨secret, ledger⟩ := database
  obtain rfl : ledger = none := hledger
  cases secret with
  | none => exact .blank rfl
  | some table => exact .legacy (h table rfl)

theorem runMigrations_incompatible {table : SqlTable}
    (h : table.definition.info ≠ initialDefinition.info) :
    runMigrations ⟨some table, none⟩ =
      (.error (.incompatibleSchema "legacy secret table has an incompatible schema"), []) := by
  have hinexact : ¬isExact (tableInfo ⟨some table, none⟩) = true := mt isExact_iff.mp h
  have hadopt : adoptLegacy ⟨some table, none⟩ =
      (.error (.incompatibleSchema "legacy secret table has an incompatible schema"), []) := by
    rw [adoptLegacy, Committing.read_bind, if_neg hinexact]
    rfl
  show (adoptLegacy >>= fun _ => runPendingMigrations migrations) ⟨some table, none⟩ = _
  rw [Committing.bind_of_error (congrArg Prod.fst hadopt), hadopt]

/-- What `run_migrations` does to a database without a ledger, however often it is
interrupted. -/
structure AdoptsAtomically (database : LegacyDatabase) : Prop where
  incompatible : ¬database.Compatible →
    (∃ e, (runMigrations database).1 = .error e) ∧ runMigrations.final database = database
  compatible : database.Compatible →
    (runMigrations database).1 = .ok () ∧
      (runMigrations.final database).ledger = some ["0001"] ∧
      ∃ table, (runMigrations.final database).secret = some table ∧
        table.definition.columns = initialDefinition.columns ∧
        (∀ old, database.secret = some old → table = old) ∧
        (database.secret = none → table.rows = [])
  restart : ∀ database', runMigrations.Restarts database database' →
    (runMigrations database').1 = (runMigrations database).1 ∧
      runMigrations.final database' = runMigrations.final database

theorem run_of_looksCompatible {database database' : LegacyDatabase}
    (hledger : database.ledger = none) (h : database.LooksCompatible)
    (hr : runMigrations.Restarts database database') :
    (runMigrations database').1 = .ok () ∧ runMigrations.final database' = adopted database.table := by
  obtain ⟨_, hok, hfinal⟩ :=
    (runMigrations_triple database.table).restart (adopting_of_looksCompatible hledger h) hr
  exact ⟨hok, hfinal⟩

theorem run_of_incompatible {database : LegacyDatabase} (hledger : database.ledger = none)
    (h : ¬database.LooksCompatible) :
    runMigrations database =
      (.error (.incompatibleSchema "legacy secret table has an incompatible schema"), []) := by
  obtain ⟨secret, ledger⟩ := database
  obtain rfl : ledger = none := hledger
  simp only [LegacyDatabase.LooksCompatible, not_forall] at h
  obtain ⟨table, rfl, hinfo⟩ := h
  exact runMigrations_incompatible hinfo

/-- The table that ends up in the database has the columns of migration 0001. -/
theorem table_columns {database : LegacyDatabase} (h : database.Compatible) :
    database.table.definition.columns = initialDefinition.columns := by
  unfold LegacyDatabase.table
  cases hs : database.secret with
  | none => rfl
  | some table => exact h table hs

/-- A start that is interrupted commits nothing that the next one does not complete. -/
theorem restart_of_ledger_none {database database' : LegacyDatabase}
    (hledger : database.ledger = none) (hr : runMigrations.Restarts database database') :
    (runMigrations database').1 = (runMigrations database).1 ∧
      runMigrations.final database' = runMigrations.final database := by
  by_cases h : database.LooksCompatible
  · obtain ⟨hok, hfinal⟩ := run_of_looksCompatible hledger h Relation.ReflTransGen.refl
    obtain ⟨hok', hfinal'⟩ := run_of_looksCompatible hledger h hr
    exact ⟨hok'.trans hok.symm, hfinal'.trans hfinal.symm⟩
  · -- Nothing is ever committed.
    have hrun := run_of_incompatible hledger h
    rw [Committing.eq_of_restarts (congrArg Prod.snd hrun) hr]
    exact ⟨rfl, rfl⟩

/-- **Legacy adoption is atomic and restartable**, and leaves the secrets alone, exactly
where the pragma does not pass over a generated column beside the columns of migration
0001: a table with one is adopted. -/
theorem legacy_adoption_atomic_iff (database : LegacyDatabase) (hledger : database.ledger = none) :
    AdoptsAtomically database ↔ ¬database.HidesGenerated := by
  constructor
  · intro h hhides
    obtain ⟨⟨e, he⟩, -⟩ := h.incompatible hhides.not_compatible
    have hok := (run_of_looksCompatible hledger (looksCompatible_iff.mpr (Or.inr hhides))
      Relation.ReflTransGen.refl).1
    rw [hok] at he
    cases he
  · intro hshown
    refine ⟨fun h => ?_, fun h => ?_, fun database' hr => restart_of_ledger_none hledger hr⟩
    · have hlooks : ¬database.LooksCompatible := fun hlooks =>
        (looksCompatible_iff.mp hlooks).elim h hshown
      have hrun := run_of_incompatible hledger hlooks
      refine ⟨⟨_, congrArg Prod.fst hrun⟩, ?_⟩
      rw [Committing.final, hrun]
      rfl
    · obtain ⟨hok, hfinal⟩ :=
        run_of_looksCompatible hledger h.looks Relation.ReflTransGen.refl
      refine ⟨hok, by rw [hfinal]; rfl, database.table, by rw [hfinal]; rfl, table_columns h, ?_, ?_⟩
      · intro old hold
        rw [LegacyDatabase.table, hold, Option.getD_some]
      · intro hnone
        rw [LegacyDatabase.table, hnone, Option.getD_none]
        rfl

/-- A legacy table of one secret. -/
def sampleLegacy : SqlTable where
  definition := initialDefinition
  rows := [[.text "id", .text "time", .text "cipher"]]
  unique _ _ := List.pairwise_singleton _ _
  checked := by decide

theorem legacy_adoption_atomic_iff_sample : AdoptsAtomically ⟨some sampleLegacy, none⟩ := by
  refine (legacy_adoption_atomic_iff ⟨some sampleLegacy, none⟩ rfl).mpr ?_
  rintro ⟨table, htable, hgenerated, -⟩
  cases htable
  exact initialDefinition_ordinary hgenerated

/-- `digest TEXT GENERATED ALWAYS AS (upper(id)) VIRTUAL`, beside the columns of migration
0001. -/
def generatedDigest : TableDefinition :=
  { initialDefinition with
    columns := initialDefinition.columns ++ [⟨"digest", "TEXT", 0, 0, .generated "upper(id)"⟩] }

def generatedDigestTable : SqlTable := generatedDigest.empty

/-- The table is not one of migration 0001, and is adopted. -/
theorem generated_column_adopted :
    ¬LegacyDatabase.Compatible ⟨some generatedDigestTable, none⟩ ∧
      (runMigrations ⟨some generatedDigestTable, none⟩).1 = .ok () ∧
      ¬AdoptsAtomically ⟨some generatedDigestTable, none⟩ := by
  have hcolumns : ¬LegacyDatabase.Compatible ⟨some generatedDigestTable, none⟩ := fun h =>
    absurd (h generatedDigestTable rfl) (by decide)
  refine ⟨hcolumns, rfl, fun h => ?_⟩
  obtain ⟨⟨e, he⟩, -⟩ := h.incompatible hcolumns
  cases he

end RecoverBull
