import RecoverBull.Secrets.Adopted
import RecoverBull.Secrets.Release

/-!
# Secrets across restarts

A server stops at any moment, by a signal or a crash, and starts again on the database
it left, which `run_migrations` finds migrated. The rate limiter, the snapshot and the requests in flight are gone with it; the
table and what was promised of it are not.
-/

namespace RecoverBull

variable {F : Type}

/-- One start of the server: its settings, its buckets, and what it does until it stops. -/
structure Life (F : Type) where
  cfg : Config
  storeTokenBucket : TokenBucket F
  lookupTokenBucket : TokenBucket F
  attemptsTokenBucket : TokenBucket F
  events : List Event

/-- What is observed, with the number of the life it is observed in. -/
abbrev History := List (ℕ × Obs)

def Life.run [BucketNumber F] (P : Primitives) (life : Life F) (secrets : SecretTable) :
    Option (AppState F × Log) :=
  RecoverBull.run P life.cfg (.init secrets life.storeTokenBucket life.lookupTokenBucket
    life.attemptsTokenBucket) life.events

/-- The next life, on what the database keeps. -/
def restart [BucketNumber F] (P : Primitives) (s : ℕ × SecretTable) (life : Life F) :
    Option ((ℕ × SecretTable) × History) :=
  (life.run P s.2).map fun u => ((s.1 + 1, u.1.secrets), u.2.map (Prod.mk s.1))

def runLives [BucketNumber F] (P : Primitives) (secrets : SecretTable) (lives : List (Life F)) :
    Option ((ℕ × SecretTable) × History) :=
  Machine.run (restart P) (0, secrets) lives

/-- The operation on the table, in whatever life. -/
def historyOp (x : ℕ × Obs) : Option (FirstWriter.Op String Secret) := x.2.op

/-- A lookup found what is there, in whatever life. -/
def HistoryAgrees (m : String → Option Secret) (x : ℕ × Obs) : Prop := x.2.Agrees m

/-- The map after a history, on the table of the first start. -/
abbrev tableAfterHistory (secrets : SecretTable) (history : History) : String → Option Secret :=
  FirstWriter.replay historyOp secrets.readSecretById history

variable {P : Primitives} {secrets table : SecretTable} {lives : List (Life F)} {n : ℕ}
  {history : History}

theorem restart_eq_some [BucketNumber F] {s s' : ℕ × SecretTable} {life : Life F}
    {os : History} (h : restart P s life = some (s', os)) :
    ∃ t log, life.run P s.2 = some (t, log) ∧ s' = (s.1 + 1, t.secrets) ∧
      os = log.map (Prod.mk s.1) := by
  obtain ⟨⟨t, log⟩, hr, he⟩ := Option.map_eq_some_iff.mp h
  cases he
  exact ⟨t, log, hr, rfl, rfl⟩

/-- The observations of life `n` are one piece of the history, which ran on the table the
older history left. -/
structure Lived [BucketNumber F] (P : Primitives) (secrets : SecretTable) (lives : List (Life F))
    (history : History) (n : ℕ) (life : Life F) (s : AppState F) (log : Log)
    (newer older : History) : Prop where
  started : lives[n]? = some life
  pieces : history = newer ++ (log.map (Prod.mk n) ++ older)
  run : ∃ table, life.run P table = some (s, log) ∧
    table.readSecretById = tableAfterHistory secrets older

section runs

variable [BucketNumber F]

/-- A history that goes on leaves the lives it has where they are. -/
theorem Lived.later {life : Life F} {s : AppState F} {log : Log} {newer older : History}
    (h : Lived P secrets lives history n life s log newer older) (next : Life F)
    (os : History) :
    Lived P secrets (lives ++ [next]) (os ++ history) n life s log (os ++ newer) older where
  started := by
    rw [List.getElem?_append_left (List.getElem?_eq_some_iff.mp h.started).1]
    exact h.started
  pieces := by rw [h.pieces, List.append_assoc]
  run := h.run

/-- The table a history leaves, with the number of lives it took. -/
structure Remembered (P : Primitives) (secrets : SecretTable) (lives : List (Life F))
    (history : History) (n : ℕ) (table : SecretTable) : Prop where
  count : n = lives.length
  table : table.readSecretById = tableAfterHistory secrets history
  answers : FirstWriter.Explains historyOp HistoryAgrees secrets.readSecretById history
  lived : ∀ k o, (k, o) ∈ history →
    ∃ life s log newer older, Lived P secrets lives history k life s log newer older ∧ o ∈ log

theorem Remembered.restart {s : ℕ × SecretTable} {life : Life F} {s' : ℕ × SecretTable}
    {os : History} (h : Remembered P secrets lives history s.1 s.2)
    (hr : RecoverBull.restart P s life = some (s', os)) :
    Remembered P secrets (lives ++ [life]) (os ++ history) s'.1 s'.2 := by
  obtain ⟨t, log, hrun, rfl, rfl⟩ := restart_eq_some hr
  have hlin := linearized_of_run hrun
  constructor
  · rw [List.length_append, ← h.count]
    rfl
  · show t.secrets.readSecretById = _
    rw [hlin.table, tableAfter, h.table, tableAfterHistory, tableAfterHistory,
      FirstWriter.replay_append, FirstWriter.replay_map]
    rfl
  · rw [FirstWriter.explains_append, FirstWriter.explains_map]
    have hanswers := hlin.answers
    rw [h.table] at hanswers
    exact ⟨hanswers, h.answers⟩
  · intro k o ho
    obtain ho | ho := List.mem_append.mp ho
    · obtain ⟨o', ho', he⟩ := List.mem_map.mp ho
      cases he
      refine ⟨life, t, log, [], history, ⟨?_, rfl, s.2, hrun, h.table⟩, ho'⟩
      rw [h.count, List.getElem?_append_right le_rfl, Nat.sub_self]
      rfl
    · obtain ⟨life', s', log', newer, older, hlived, ho'⟩ := h.lived k o ho
      exact ⟨life', s', log', _, older, hlived.later life _, ho'⟩

/-- What the database keeps over any number of lives. -/
theorem remembered_of_run (h : runLives P secrets lives = some ((n, table), history)) :
    Remembered P secrets lives history n table := by
  refine @Machine.run_history _ _ _ (restart P)
    (fun lives history s => Remembered P secrets lives history s.1 s.2) (0, secrets) ?_ ?_
    (n, table) lives history h
  · exact ⟨rfl, rfl, trivial, fun _ _ hm => absurd hm List.not_mem_nil⟩
  · exact fun lives history s life s' os _ hi hr => hi.restart hr

end runs

/-! ## What was promised -/

/-- The lookup `r` of life `n` found `row` under `key`, where it had come from `origin`: the
table of the first start (`none`), or the store that wrote right after the history `origin`. -/
def HandsOutInLife (secrets : SecretTable) (history : History) (n : ℕ) (r : ReqId) (trash : Bool)
    (key : CandidateTag) (row : Secret) (origin : Option History) : Prop :=
  ∃ newer older, history = newer ++ (n, .queried r trash key .runs (.hit row)) :: older ∧
    FirstWriter.ComesFrom historyOp secrets.readSecretById older key row origin

/-- What the responses of all lives promise of the table. -/
structure SecretsSurvive [BucketNumber F] (P : Primitives) (secrets : SecretTable)
    (lives : List (Life F)) (history : History) (table : SecretTable) : Prop where
  /-- The table is the sequential map of the database steps of all lives, and every lookup
  found what is there. -/
  linearized : table.readSecretById = tableAfterHistory secrets history ∧
    FirstWriter.Explains historyOp HistoryAgrees secrets.readSecretById history
  /-- The next start migrates without an error and finds the table as it was left, also
  after starts that were interrupted. -/
  started : ∀ database, runMigrations.Restarts table.database database →
    (runMigrations database).1 = .ok () ∧ runMigrations.final database = table.database
  /-- A secret that was acknowledged with a 201 is in the table until a trash takes it,
  however often the server stops: the row stored, or the one that was there before. -/
  created : ∀ n r response, (n, .response (.store r) response) ∈ history →
    response.status = .created → ∃ row newer older,
      history = newer ++ (n, .wrote r row .runs) :: older ∧
      (n, .response (.store r) response) ∈ newer ∧
      ((∀ x ∈ newer, historyOp x ≠ some (.take row.id)) →
        table.readSecretById row.id =
          some ((tableAfterHistory secrets older row.id).getD row))
  /-- A 200 or 202 returns the first row stored since the id was last free. -/
  released : ∀ n r response, (n, .response (.fetch r) response) ∈ history →
    response.status = .ok ∨ response.status = .accepted → ∃ trash key row status origin,
      response.status = (if trash then .accepted else .ok) ∧
        response.body = .secret row status ∧ HandsOutInLife secrets history n r trash key row origin
  /-- One stored row is handed out by at most one trash of one life. -/
  once : ∀ n₁ n₂ r₁ r₂ key row₁ row₂ origin,
    HandsOutInLife secrets history n₁ r₁ true key row₁ origin →
    HandsOutInLife secrets history n₂ r₂ true key row₂ origin → n₁ = n₂ ∧ r₁ = r₂
  /-- A row disappears only by being handed out. -/
  kept : ∀ newer x older key row, history = newer ++ x :: older →
    tableAfterHistory secrets older key = some row →
    tableAfterHistory secrets (x :: older) key = some row ∨
      ∃ n r, x = (n, .queried r true key .runs (.hit row))
  /-- A stored row is handed out under the pair it was stored under, in whatever life. -/
  own : ∀ n r trash key row origin, HandsOutInLife secrets history n r trash key row (some origin) →
    ∃ (n' : ℕ) (r' : ReqId) (life life' : Life F) (identifier authenticationKey : String),
      lives[n]? = some life ∧ lives[n']? = some life' ∧
      LookupArrived P life.events r trash identifier authenticationKey ∧
      StoreArrived P life'.cfg life'.events r' identifier authenticationKey row.encryptedSecret

section promises

variable [BucketNumber F]

/-- A piece of the log of a life, in the history. -/
theorem Lived.split {life : Life F} {s : AppState F} {log newer' older' : Log} {o : Obs}
    {newer older : History} (h : Lived P secrets lives history n life s log newer older)
    (hlog : log = newer' ++ o :: older') :
    history = (newer ++ newer'.map (Prod.mk n)) ++ (n, o) :: (older'.map (Prod.mk n) ++ older) := by
  rw [h.pieces, hlog, List.map_append, List.map_cons]
  simp

theorem Remembered.found (h : Remembered P secrets lives history n table) {newer older : History}
    {k : ℕ} {r : ReqId} {trash : Bool} {key : CandidateTag} {outcome : DbOutcome}
    {result : LookupResult}
    (hhistory : history = newer ++ (k, .queried r trash key outcome result) :: older) :
    result = lookupAnswer outcome (tableAfterHistory secrets older key) := by
  have hall := h.answers
  rw [hhistory] at hall
  exact hall.at

theorem Remembered.created (h : Remembered P secrets lives history n table) {k : ℕ} {r : ReqId}
    {response : Response} (hm : (k, .response (.store r) response) ∈ history)
    (hstatus : response.status = .created) : ∃ row newer older,
      history = newer ++ (k, .wrote r row .runs) :: older ∧
      (k, .response (.store r) response) ∈ newer ∧
      ((∀ x ∈ newer, historyOp x ≠ some (.take row.id)) →
        table.readSecretById row.id =
          some ((tableAfterHistory secrets older row.id).getD row)) := by
  obtain ⟨life, s, log, newer, older, hlived, ho⟩ := h.lived _ _ hm
  obtain ⟨start, hrun, -⟩ := hlived.run
  have hs : Served P life.cfg log s := ⟨_, _, _, _, _, hrun⟩
  obtain ⟨row, newer', older', hlog, hmem⟩ := hs.of_created ho hstatus
  have hhistory := hlived.split hlog
  refine ⟨row, _, _, hhistory, ?_, fun hkeep => ?_⟩
  · exact List.mem_append_right _ (List.mem_map.mpr ⟨_, hmem, rfl⟩)
  · rw [h.table, hhistory]
    refine FirstWriter.replay_of_not_taken ?_ hkeep
    have hop : historyOp (k, .wrote r row .runs) = some (.put row.id row) := rfl
    rw [FirstWriter.replay_cons_of_some hop]
    exact FirstWriter.apply_put_self

theorem Remembered.released (h : Remembered P secrets lives history n table) {k : ℕ} {r : ReqId}
    {response : Response} (hm : (k, .response (.fetch r) response) ∈ history)
    (hstatus : response.status = .ok ∨ response.status = .accepted) :
    ∃ trash key row status origin, response.status = (if trash then .accepted else .ok) ∧
      response.body = .secret row status ∧
      HandsOutInLife secrets history k r trash key row origin := by
  obtain ⟨life, s, log, newer, older, hlived, ho⟩ := h.lived _ _ hm
  obtain ⟨start, hrun, -⟩ := hlived.run
  have hs : Served P life.cfg log s := ⟨_, _, _, _, _, hrun⟩
  obtain ⟨trash, key, a, outcome, row, newer', older', hlog, -, -, rfl⟩ := hs.of_released ho hstatus
  have hhistory := hlived.split hlog
  obtain ⟨rfl, hrow⟩ := lookupAnswer_eq_hit.mp (h.found hhistory).symm
  obtain ⟨origin, horigin⟩ := FirstWriter.replay_eq_some_iff.mp hrow
  exact ⟨trash, key, row, a.status, origin, rfl, rfl, _, _, hhistory, horigin⟩

/-- The pair of a lookup and of the store it finds the row of. -/
theorem same_pair (hinj : Function.Injective P.sha256Hex) {events events' : List Event} {r r' : ReqId}
    {trash : Bool} {cfg : Config} {i k i' k' secret : String}
    (hlookup : LookupArrived P events r trash i k)
    (hstore : StoreArrived P cfg events' r' i' k' secret)
    (hids : generateSecretId P i k = generateSecretId P i' k') : i = i' ∧ k = k' := by
  obtain ⟨request, -, hc⟩ := hlookup
  obtain ⟨request', -, hc', -⟩ := hstore
  have hi : IsKeyText i := is256bitsHexHash_iff.mp (checkFetch_eq_ok.mp hc).2.2.1
  have hi' : IsKeyText i' :=
    is256bitsHexHash_iff.mp (checkFetch_eq_ok.mp (checkStore_eq_ok hc')).2.2.1
  exact generateSecretId_inj hinj hi hi' hids

theorem Remembered.own (h : Remembered P secrets lives history n table)
    (hinj : Function.Injective P.sha256Hex) {k : ℕ} {r : ReqId} {trash : Bool} {key : CandidateTag}
    {row : Secret} {origin : History}
    (hout : HandsOutInLife secrets history k r trash key row (some origin)) :
    ∃ (k' : ℕ) (r' : ReqId) (life life' : Life F) (identifier authenticationKey : String),
      lives[k]? = some life ∧ lives[k']? = some life' ∧
      LookupArrived P life.events r trash identifier authenticationKey ∧
      StoreArrived P life'.cfg life'.events r' identifier authenticationKey row.encryptedSecret := by
  obtain ⟨newer, older, hhistory, between, ⟨k', o⟩, rfl, hop, -⟩ := hout
  obtain ⟨hid, r', rfl⟩ := Obs.op_eq_put.mp hop
  have hq : (k, Obs.queried r trash key .runs (.hit row)) ∈ history := by
    rw [hhistory]
    simp
  have hw : (k', Obs.wrote r' row .runs) ∈ history := by
    rw [hhistory]
    simp
  obtain ⟨life, s, log, _, _, hlived, hq⟩ := h.lived _ _ hq
  obtain ⟨life', s', log', _, _, hlived', hw⟩ := h.lived _ _ hw
  obtain ⟨_, hrun, -⟩ := hlived.run
  obtain ⟨_, hrun', -⟩ := hlived'.run
  obtain ⟨i, a, ha, hkey⟩ := (arrived_of_run hrun).queried _ _ _ _ _ hq
  obtain ⟨i', a', ha', hkey'⟩ := (arrived_of_run hrun').wrote _ _ _ hw
  have hids : generateSecretId P i a = generateSecretId P i' a' := by
    rw [← hkey, ← hid, hkey']
  obtain ⟨rfl, rfl⟩ := same_pair hinj ha ha' hids
  exact ⟨k', r', life, life', i, a, hlived.started, hlived'.started, ha, ha'⟩

end promises

/-- **Secrets survive restarts.** Over any number of lives of the server on one database,
each stopped at any moment: the next start finds the table, an acknowledged secret stays
until a trash takes it, every lookup returns the first row stored, one row is handed out
by one trash of one life, and under the pair it was stored under. -/
theorem secrets_survive [BucketNumber F] (hinj : Function.Injective P.sha256Hex)
    (h : runLives P secrets lives = some ((n, table), history)) :
    SecretsSurvive P secrets lives history table := by
  have hrem := remembered_of_run h
  refine ⟨⟨hrem.table, hrem.answers⟩, fun database hr => runMigrations_database hr,
    fun k r response hm hs => hrem.created hm hs,
    fun k r response hm hs => hrem.released hm hs, fun n₁ n₂ r₁ r₂ key row₁ row₂ origin h₁ h₂ => ?_,
    fun newer x older key row hhistory hrow => ?_, fun k r trash key row origin hout =>
      hrem.own hinj hout⟩
  · obtain ⟨newer₁, older₁, hhistory₁, hc₁⟩ := h₁
    obtain ⟨newer₂, older₂, hhistory₂, hc₂⟩ := h₂
    have hsame := FirstWriter.taken_once (hhistory₁.symm.trans hhistory₂) rfl rfl hc₁ hc₂
    cases hsame
    exact ⟨rfl, rfl⟩
  · apply (FirstWriter.kept_or_taken hrow).imp_right
    intro hop
    obtain ⟨k, o⟩ := x
    obtain ⟨r, result, rfl⟩ := Obs.op_eq_take.mp hop
    have hfound := hrem.found hhistory
    rw [hrow] at hfound
    obtain rfl : result = .hit row := hfound
    exact ⟨k, r, rfl⟩

/-- A life of the sample server. -/
def Life.sample (events : List Event) : Life ℚ where
  cfg := .sample
  storeTokenBucket := .new 10 1 0
  lookupTokenBucket := .new 10 1 0
  attemptsTokenBucket := .new 10 1 0
  events := events

/-- A secret stored in one life is trashed in the next. -/
theorem secrets_survive_sample : ∃ table history,
    SecretsSurvive .sample .empty
      [.sample (sampleStore 0 ⟨sampleIdentifier, sampleKey, "AAAA"⟩),
        .sample (sampleAdmission 0 true ⟨sampleIdentifier, sampleKey⟩ 0 ++ sampleCompletion 0)]
      history table ∧
    (history.any fun x => x.1 == 1 && Obs.answers 0 .accepted x.2) = true ∧ table.rows = [] := by
  have hrun : (runLives .sample .empty
      [.sample (sampleStore 0 ⟨sampleIdentifier, sampleKey, "AAAA"⟩),
        .sample (sampleAdmission 0 true ⟨sampleIdentifier, sampleKey⟩ 0 ++
          sampleCompletion 0)]).any
      (fun u => (u.2.any fun x => x.1 == 1 && Obs.answers 0 .accepted x.2) &&
        decide (u.1.2.rows = [])) = true := by
    decide +kernel
  obtain ⟨⟨⟨n, table⟩, history⟩, hr, hp⟩ := (Option.any_eq_true _ _).mp hrun
  obtain ⟨hanswer, hrows⟩ := Bool.and_eq_true_iff.mp hp
  exact ⟨table, history, secrets_survive Primitives.sample_sha256Hex_injective hr, hanswer,
    of_decide_eq_true hrows⟩

end RecoverBull
