import RecoverBull.Lib.Transaction
import RecoverBull.Secrets.Linearization
import RecoverBull.Server.Frame

/-!
# The statements behind a trash

The steps of the server take each call of `database.rs` as one step. Here the immediate
transaction of a trash is the statements it sends, with steps of everybody else in between:
`BEGIN IMMEDIATE` takes the write lock, an insert then waits for it or fails, and a plain
lookup reads what is committed. The server that sends statements has the logs and the states
of the server that makes whole calls, and no others.
-/

namespace RecoverBull

open Transaction

variable {F : Type} {P : Primitives} {cfg : Config}

/-- The statements of `read_and_trash_secret_by_id`. -/
def readAndTrashScript (secretId : String) : Script SecretTable DieselError (Option Secret) :=
  .statement id fun table =>
    match table.readSecretById secretId with
    | none => .commit none
    | some storedSecret =>
      .statement (fun table => table.delete secretId) fun table =>
        if table.deleted secretId ≠ 1 then .rollback .notFound else .commit (some storedSecret)

/-- What the blocking closure makes of the end of its transaction. -/
def trashResult : Except DieselError (Option Secret) → LookupResult
  | .ok (some secret) => .hit secret
  | .ok none => .miss
  | .error error => .failed (.database error)

/-- The outcome of the call that ended so. -/
def reported : Except DieselError (Option Secret) → DbOutcome
  | .error .other => .fails
  | .ok _ | .error .notFound => .runs

/-- The trash whose blocking closure is at work for request `r`. -/
def AppState.trashing (s : AppState F) (r : ReqId) : Option Lookup :=
  match s.fetches r with
  | some (.active q) =>
    match q.phase with
    | .working _ _ .blocking => if q.isTrashingSecret then some q else none
    | _ => none
  | _ => none

/-- The lookup once its closure has returned. -/
def Lookup.returned (q : Lookup) (result : LookupResult) : Lookup :=
  match q.phase with
  | .working a client _ => { q with phase := .working a client (.finalizing result) }
  | _ => q

/-- The closure of a lookup returns. -/
def closureReturns (s : AppState F) (r : ReqId) (q : Lookup) (outcome : DbOutcome)
    (result : LookupResult) (table : SecretTable) : AppState F × Log :=
  ({ s with secrets := table }.setFetch r (.active (q.returned result)),
    [.queried r q.isTrashingSecret q.candidate outcome result])

/-- The closure of a trash returns as its transaction ended. -/
def transactionReturns (s : AppState F) (r : ReqId) (q : Lookup)
    (ended : Except DieselError (Option Secret) × SecretTable) : AppState F × Log :=
  closureReturns s r q (reported ended.1) (trashResult ended.1) ended.2

/-- The server and its connections. The table of the server is what is committed. -/
structure SqlState (F : Type) where
  server : AppState F
  /-- The transaction that holds the write lock. -/
  writer : Option (Open ReqId SecretTable DieselError (Option Secret))

inductive SqlEvent
  | server (event : Event)
  /-- `BEGIN IMMEDIATE` for the trash of a request. -/
  | begin (r : ReqId)
  | statement (succeeds : Bool)
  /-- `COMMIT` or `ROLLBACK`; a closure that panics drops its connection. -/
  | close (outcome : DbOutcome)

/-- What does not happen as one step: a trash runs statement by statement, the task of the
request that holds the write lock waits for its closure, and an insert waits for the lock. -/
def SqlState.excludes (s : SqlState F) : Event → Bool
  | .fetch r (.query .runs) =>
    (s.server.trashing r).isSome || s.writer.any fun o => o.owner = r
  | .fetch r (.query .fails) | .fetch r (.query .panics) | .fetch r .loseTask =>
    s.writer.any fun o => o.owner = r
  | .store _ (.write .runs) => s.writer.isSome
  | _ => false

/-- The error a statement may report. -/
def engineError (succeeds : Bool) : Option DieselError := if succeeds then none else some .other

/-- The transaction that holds the lock ends. -/
def SqlState.close (s : SqlState F) (o : Open ReqId SecretTable DieselError (Option Secret))
    (q : Lookup) : DbOutcome → Option (AppState F × Log)
  | .panics => some (closureReturns s.server o.owner q .panics (.failed .join) s.server.secrets)
  | .fails =>
    (o.close s.server.secrets (some .other)).map (transactionReturns s.server o.owner q)
  | .runs =>
    (o.close s.server.secrets none).map (transactionReturns s.server o.owner q)

variable [BucketNumber F]

def sqlStep (P : Primitives) (cfg : Config) (s : SqlState F) : SqlEvent → Option (SqlState F × Log)
  | .server event =>
    if s.excludes event then none
    else (step P cfg s.server event).map fun u => ({ s with server := u.1 }, u.2)
  | .begin r =>
    match s.writer, s.server.trashing r with
    | none, some q =>
      some ({ s with
        writer := some (.start r s.server.secrets (readAndTrashScript q.candidate)) }, [])
    | _, _ => none
  | .statement succeeds =>
    (s.writer.bind fun o => o.statement (engineError succeeds)).map fun o =>
      ({ s with writer := some o }, [])
  | .close outcome =>
    match s.writer with
    | none => none
    | some o =>
      ((s.server.trashing o.owner).bind fun q => s.close o q outcome).map fun u =>
        (⟨u.1, none⟩, u.2)

/-- The server with its connections run over a schedule. -/
def sqlRun (P : Primitives) (cfg : Config) (s : SqlState F) (events : List SqlEvent) :
    Option (SqlState F × Log) :=
  Machine.run (sqlStep P cfg) s events

section calls

omit [BucketNumber F]

theorem readAndTrashScript_atomically (table : SecretTable) (k : String) :
    (readAndTrashScript k).atomically table = table.readAndTrashSecretById k := by
  simp only [Script.atomically, readAndTrashScript, Script.run, SecretTable.readAndTrashSecretById]
  cases table.readSecretById k with
  | none => rfl
  | some row =>
    simp only [Script.run, id]
    split <;> rfl

theorem runLookup_trash (table : SecretTable) (k : String) :
    runLookup table true k .runs =
      (trashResult ((readAndTrashScript k).atomically table).1,
        ((readAndTrashScript k).atomically table).2) := by
  rw [readAndTrashScript_atomically, runLookup, if_pos rfl]
  obtain ⟨result, left⟩ := table.readAndTrashSecretById k
  obtain error | _ | secret := result <;> rfl

/-- A trash that runs is its transaction as one step. -/
theorem transactionReturns_atomically (s : AppState F) (r : ReqId) (q : Lookup) :
    transactionReturns s r q ((readAndTrashScript q.candidate).atomically s.secrets) =
      closureReturns s r q .runs (runLookup s.secrets true q.candidate .runs).1
        (runLookup s.secrets true q.candidate .runs).2 := by
  have hruns : reported ((readAndTrashScript q.candidate).atomically s.secrets).1 = .runs := by
    rw [readAndTrashScript_atomically, SecretTable.readAndTrash_eq]
    rfl
  rw [transactionReturns, hruns, runLookup_trash]

theorem AppState.trashing_eq_some {s : AppState F} {r : ReqId} {q : Lookup} :
    s.trashing r = some q ↔ s.fetches r = some (.active q) ∧ q.isTrashingSecret = true ∧
      ∃ a client, q.phase = .working a client .blocking := by
  rw [AppState.trashing]
  constructor
  · intro h
    split at h
    · next q' hq =>
      split at h
      · next a client hphase =>
        split at h
        · next htrash =>
          cases h
          exact ⟨hq, htrash, a, client, hphase⟩
        · cases h
      · cases h
    · cases h
  · rintro ⟨hq, htrash, a, client, hphase⟩
    simp only [hq, hphase, htrash, if_true]

theorem trashing_congr {s s' : AppState F} {r : ReqId} (h : s'.fetches r = s.fetches r) :
    s'.trashing r = s.trashing r := by
  rw [AppState.trashing, AppState.trashing, h]

/-- A plain lookup leaves the table. -/
theorem runLookup_read (table : SecretTable) (k : String) (outcome : DbOutcome) :
    (runLookup table false k outcome).2 = table := by
  cases outcome with
  | panics | fails => rfl
  | runs => cases h : table.readSecretById k <;> simp [runLookup, h]

end calls

variable {s s' : AppState F} {S S' : SqlState F} {os log : Log} {event : Event}
  {o : Open ReqId SecretTable DieselError (Option Secret)} {q : Lookup} {r : ReqId}

/-- A call of the database takes effect as the closure returns. -/
theorem step_query {a : Admitted} {client : Bool} (hq : s.fetches r = some (.active q))
    (hphase : q.phase = .working a client .blocking) (outcome : DbOutcome) :
    step P cfg s (.fetch r (.query outcome)) = some (closureReturns s r q outcome
      (runLookup s.secrets q.isTrashingSecret q.candidate outcome).1
      (runLookup s.secrets q.isTrashingSecret q.candidate outcome).2) := by
  simp only [step, hq, fetchStep, hphase, closureReturns, Lookup.returned]

/-- While a transaction holds the write lock, no other step changes the table. -/
theorem secrets_of_not_excluded (h : step P cfg S.server event = some (s', os))
    (hw : S.writer = some o) (hx : S.excludes event = false) : s'.secrets = S.server.secrets := by
  cases event with
  | fetch r event =>
    simp only [step] at h
    split at h
    · next q hq =>
      cases event with
      | query outcome =>
        simp only [fetchStep] at h
        split at h
        · next a client hphase =>
          cases h
          change (runLookup S.server.secrets q.isTrashingSecret q.candidate outcome).2 = _
          cases outcome with
          | panics | fails => rfl
          | runs =>
            cases htrash : q.isTrashingSecret with
            | false => exact runLookup_read _ _ _
            | true =>
              have hsome := AppState.trashing_eq_some.mpr ⟨hq, htrash, a, client, hphase⟩
              simp [SqlState.excludes, hsome] at hx
        · cases h
      | takeToken | readClock | enter | permit | removePending | finalize | loseTask | respond
      | cancel =>
        simp only [fetchStep, takeLookupToken, enterMap, cancelFetch, dropGuard] at h
        repeat' split at h
        all_goals cases h
        all_goals rfl
    · cases h
  | store r event =>
    simp only [step] at h
    split at h
    · cases event with
      | write outcome =>
        simp only [storeStep] at h
        split at h <;> cases h
        cases outcome with
        | panics | fails => rfl
        | runs => simp [SqlState.excludes, hw] at hx
      | takeToken | readClock | permit | respond | cancel =>
        simp only [storeStep] at h
        repeat' split at h
        all_goals cases h
        all_goals rfl
    · cases h
  | attempts r event =>
    simp only [step] at h
    split at h
    · cases event <;>
        simp only [attemptsStep, takeAttemptsToken, lockSnapshot, collectSnapshot,
          publishSnapshot] at h <;> repeat' split at h
      all_goals cases h
      all_goals rfl
    · cases h
  | fetchArrives | storeArrives | attemptsArrives | info | sweep =>
    simp only [step, fetchArrives, storeArrives] at h
    repeat' split at h
    all_goals cases h
    all_goals rfl

/-- Nor does the trash whose transaction it is move on, but its client may leave. -/
theorem trashing_of_not_excluded (h : step P cfg S.server event = some (s', os))
    (hw : S.writer = some o) (hx : S.excludes event = false)
    (hq : S.server.trashing o.owner = some q) :
    ∃ q', s'.trashing o.owner = some q' ∧ q'.candidate = q.candidate := by
  obtain ⟨hfetch, htrash, a, client, hphase⟩ := AppState.trashing_eq_some.mp hq
  by_cases hcall : event.call = some (.fetch o.owner)
  · cases event with
    | fetchArrives r trash request =>
      obtain rfl : r = o.owner := Call.fetch.inj (Option.some.inj hcall)
      simp [step, fetchArrives, hfetch] at h
    | fetch r event =>
      obtain rfl : r = o.owner := Call.fetch.inj (Option.some.inj hcall)
      simp only [step, hfetch] at h
      cases event with
      | cancel contended =>
        simp only [fetchStep, cancelFetch, hphase] at h
        cases client with
        | false => cases h
        | true =>
          cases h
          exact ⟨{ q with phase := .working a false .blocking },
            AppState.trashing_eq_some.mpr ⟨Function.update_self _ _ _, htrash, a, false, rfl⟩, rfl⟩
      | query outcome => cases outcome <;> simp [SqlState.excludes, hw] at hx
      | loseTask => simp [SqlState.excludes, hw] at hx
      | takeToken | readClock | enter | permit | removePending | finalize | respond =>
        simp [fetchStep, hphase] at h
    | storeArrives | store | attemptsArrives | attempts | info | sweep => cases hcall
  · have hsame : s'.fetches o.owner = S.server.fetches o.owner := step_sameCall h hcall
    exact ⟨q, (trashing_congr hsame).trans hq, rfl⟩

/-- The transaction that holds the write lock is that of a trash whose closure is at work,
and computes what the trash as one step would. -/
def SqlState.Locked (S : SqlState F) : Prop :=
  ∀ o, S.writer = some o → ∃ q, S.server.trashing o.owner = some q ∧
    o.Faithful (· = .other) S.server.secrets (readAndTrashScript q.candidate)

theorem engineError_eq_some {succeeds : Bool} {error : DieselError}
    (h : engineError succeeds = some error) : error = .other := by
  cases succeeds <;> cases h
  rfl

/-- The end of a faithful transaction is the call of the database as one step. -/
theorem close_eq_query {outcome : DbOutcome} (hfaithful : o.Faithful (· = .other)
      S.server.secrets (readAndTrashScript q.candidate))
    (hq : S.server.trashing o.owner = some q) (h : S.close o q outcome = some (s', os)) :
    ∃ outcome', step P cfg S.server (.fetch o.owner (.query outcome')) = some (s', os) := by
  obtain ⟨hfetch, htrash, a, client, hphase⟩ := AppState.trashing_eq_some.mp hq
  simp only [step_query hfetch hphase, htrash]
  have hended : ∀ {failure : Option DieselError} {ended : Except DieselError (Option Secret) ×
      SecretTable}, (∀ error, failure = some error → error = .other) →
      o.close S.server.secrets failure = some ended →
      ∃ outcome', some (closureReturns S.server o.owner q outcome'
        (runLookup S.server.secrets true q.candidate outcome').1
        (runLookup S.server.secrets true q.candidate outcome').2) =
          some (transactionReturns S.server o.owner q ended) := by
    rintro failure ⟨result, after⟩ herror hclose
    obtain hrun | ⟨error, rfl, rfl, rfl⟩ := hfaithful.close herror hclose
    · rw [hrun, transactionReturns_atomically]
      exact ⟨.runs, rfl⟩
    · exact ⟨.fails, rfl⟩
  cases outcome with
  | panics => exact ⟨.panics, h⟩
  | fails =>
    obtain ⟨ended, hclose, hreturns⟩ := Option.map_eq_some_iff.mp h
    rw [← hreturns]
    exact hended (fun error he => (Option.some.inj he).symm) hclose
  | runs =>
    obtain ⟨ended, hclose, hreturns⟩ := Option.map_eq_some_iff.mp h
    rw [← hreturns]
    exact hended (fun error he => by cases he) hclose

/-- Each step of the connections is a step of the server that makes whole calls, or none. -/
theorem sqlStep_simulated {event : SqlEvent} (hlocked : S.Locked)
    (h : sqlStep P cfg S event = some (S', os)) :
    ∃ events, run P cfg S.server events = some (S'.server, os) ∧ S'.Locked := by
  cases event with
  | server event =>
    simp only [sqlStep] at h
    split at h
    · cases h
    · next hx =>
      obtain ⟨⟨s', os'⟩, hs, he⟩ := Option.map_eq_some_iff.mp h
      cases he
      refine ⟨[event], Machine.run_singleton hs, fun o hw => ?_⟩
      obtain ⟨q, hq, hfaithful⟩ := hlocked o hw
      have hx := Bool.eq_false_of_not_eq_true hx
      obtain ⟨q', hq', hcandidate⟩ := trashing_of_not_excluded hs hw hx hq
      refine ⟨q', hq', ?_⟩
      rw [hcandidate, secrets_of_not_excluded hs hw hx]
      exact hfaithful
  | begin r =>
    simp only [sqlStep] at h
    split at h
    · next q hwriter hq =>
      cases h
      refine ⟨[], rfl, fun o hw => ?_⟩
      cases hw
      exact ⟨q, hq, Open.faithful_start _⟩
    · cases h
  | statement succeeds =>
    obtain ⟨o, hbind, he⟩ := Option.map_eq_some_iff.mp h
    obtain ⟨o', hwriter, hstatement⟩ := Option.bind_eq_some_iff.mp hbind
    cases he
    refine ⟨[], rfl, fun o hw => ?_⟩
    cases hw
    obtain ⟨q, hq, hfaithful⟩ := hlocked o' hwriter
    have howner := Open.owner_statement hstatement
    exact ⟨q, howner ▸ hq, hfaithful.statement (fun error => engineError_eq_some) hstatement⟩
  | close outcome =>
    simp only [sqlStep] at h
    split at h
    · cases h
    · next o hwriter =>
      obtain ⟨⟨s', os'⟩, hbind, he⟩ := Option.map_eq_some_iff.mp h
      obtain ⟨q, hq, hclose⟩ := Option.bind_eq_some_iff.mp hbind
      cases he
      obtain ⟨q', hq', hfaithful⟩ := hlocked o hwriter
      obtain rfl : q = q' := Option.some.inj (hq.symm.trans hq')
      obtain ⟨outcome', hquery⟩ := close_eq_query hfaithful hq hclose
      exact ⟨[.fetch o.owner (.query outcome')], Machine.run_singleton hquery,
        fun o hw => by cases hw⟩

/-- The statements by which a transaction goes on undisturbed. -/
def SqlEvent.isOfWriter : SqlEvent → Bool
  | .statement succeeds => succeeds
  | .close outcome => outcome = .runs
  | .server _ | .begin _ => false

/-- With nothing in between, the rest of a transaction can be run to its end. -/
theorem sqlRun_rest (rest : Script SecretTable DieselError (Option Secret)) :
    ∀ {working : SecretTable} (server : AppState F), server.trashing r = some q →
      ∃ events, (∀ e ∈ events, e.isOfWriter = true) ∧
        sqlRun P cfg ⟨server, some ⟨r, working, rest⟩⟩ events =
          some (⟨(transactionReturns server r q (rest.run server.secrets working)).1, none⟩,
            (transactionReturns server r q (rest.run server.secrets working)).2) := by
  induction rest with
  | commit result =>
    intro working server hq
    refine ⟨[.close .runs], by simp [SqlEvent.isOfWriter], Machine.run_singleton ?_⟩
    simp only [sqlStep, hq]
    rfl
  | rollback error =>
    intro working server hq
    refine ⟨[.close .runs], by simp [SqlEvent.isOfWriter], Machine.run_singleton ?_⟩
    simp only [sqlStep, hq]
    rfl
  | statement effect next ih =>
    intro working server hq
    obtain ⟨events, hown, hr⟩ := @ih working (effect working) server hq
    exact ⟨.statement true :: events, List.forall_mem_cons.mpr ⟨rfl, hown⟩,
      Machine.run_cons_eq_some.mpr ⟨_, _, _, rfl, hr, (List.append_nil _).symm⟩⟩

omit [BucketNumber F] in
/-- When nobody holds the write lock, only a trash does not happen as one step. -/
theorem trash_of_excluded (hx : (⟨s, none⟩ : SqlState F).excludes event = true) :
    ∃ r q, event = .fetch r (.query .runs) ∧ s.trashing r = some q := by
  cases event with
  | fetch r event =>
    cases event with
    | query outcome =>
      cases outcome with
      | runs =>
        obtain ⟨q, hq⟩ := Option.isSome_iff_exists.mp ((Bool.or_false _).symm.trans hx)
        exact ⟨r, q, rfl, hq⟩
      | panics | fails => cases hx
    | takeToken | readClock | enter | permit | removePending | finalize | loseTask | respond
    | cancel => cases hx
  | store r event =>
    cases event with
    | write outcome => cases outcome <;> cases hx
    | takeToken | readClock | permit | respond | cancel => cases hx
  | fetchArrives | storeArrives | attemptsArrives | attempts | info | sweep => cases hx

/-- Each step of the server that makes whole calls is a run of the connections. -/
theorem step_simulated {event : Event} (h : step P cfg s event = some (s', os)) :
    ∃ events, sqlRun P cfg ⟨s, none⟩ events = some (⟨s', none⟩, os) := by
  cases hx : (⟨s, none⟩ : SqlState F).excludes event with
  | false =>
    refine ⟨[.server event], Machine.run_singleton ?_⟩
    rw [sqlStep, hx, h]
    rfl
  | true =>
    -- Nobody holds the lock, so only a trash that runs is left.
    obtain ⟨r, q, rfl, hq⟩ := trash_of_excluded hx
    obtain ⟨hfetch, htrash, a, client, hphase⟩ := AppState.trashing_eq_some.mp hq
    have hatomic := transactionReturns_atomically s r q
    rw [step_query hfetch hphase, htrash, ← hatomic] at h
    obtain ⟨events, -, hr⟩ := @sqlRun_rest F P cfg _ q r (readAndTrashScript q.candidate) s.secrets s hq
    refine ⟨.begin r :: events, Machine.run_cons_eq_some.mpr
      ⟨⟨s, some (.start r s.secrets (readAndTrashScript q.candidate))⟩, [], os, ?_, ?_,
        (List.append_nil _).symm⟩⟩
    · simp only [sqlStep, hq]
    · refine hr.trans ?_
      have hu := Option.some.inj h
      rw [Script.atomically] at hu
      rw [hu]

/-- **A trash is atomic.** The server whose trashes are transactions of several statements,
with the statements and requests of everybody else in between, runs through the states and
the logs of the server that makes whole calls of the database, and no others. And whatever
it has reached, the transaction that holds the write lock can go on to its end. -/
theorem statements_refined {F : Type} [BucketNumber F] (P : Primitives) (cfg : Config)
    (s₀ : AppState F) :
    (∀ s log, (∃ events writer, sqlRun P cfg ⟨s₀, none⟩ events = some (⟨s, writer⟩, log)) ↔
      Reaches P cfg s₀ log s) ∧
    ∀ events S log, sqlRun P cfg ⟨s₀, none⟩ events = some (S, log) →
      ∃ events' s os, (∀ e ∈ events', e.isOfWriter = true) ∧
        sqlRun P cfg S events' = some (⟨s, none⟩, os) := by
  have hsound : ∀ {events S log}, sqlRun P cfg ⟨s₀, none⟩ events = some (S, log) →
      Reaches P cfg s₀ log S.server ∧ S.Locked := by
    intro events S log h
    have hstep : ∀ (S : SqlState F) s e S' os, S.server = s ∧ S.Locked →
        sqlStep P cfg S e = some (S', os) →
        ∃ events s', run P cfg s events = some (s', os) ∧ S'.server = s' ∧ S'.Locked := by
      rintro S _ e S' os ⟨rfl, hlocked⟩ he
      obtain ⟨events', hr, hlocked'⟩ := sqlStep_simulated hlocked he
      exact ⟨events', _, hr, rfl, hlocked'⟩
    obtain ⟨events', s, hr, rfl, hlocked⟩ :=
      Machine.run_simulated hstep ⟨rfl, fun o hw => by cases hw⟩ h
    exact ⟨⟨events', hr⟩, hlocked⟩
  have hcomplete : ∀ (s : AppState F) (S : SqlState F) e s' os, S = ⟨s, none⟩ →
      step P cfg s e = some (s', os) →
      ∃ events S', sqlRun P cfg S events = some (S', os) ∧ S' = ⟨s', none⟩ := by
    rintro s _ e s' os rfl he
    obtain ⟨events', hr⟩ := step_simulated he
    exact ⟨events', _, hr, rfl⟩
  refine ⟨fun s log => ⟨fun ⟨events, writer, h⟩ => (hsound h).1, fun ⟨events, h⟩ => ?_⟩,
    fun events S log h => ?_⟩
  · obtain ⟨events', S, hr, rfl⟩ := Machine.run_simulated hcomplete rfl h
    exact ⟨events', none, hr⟩
  · obtain ⟨server, writer⟩ := S
    cases writer with
    | none => exact ⟨[], server, [], by simp, rfl⟩
    | some o =>
      obtain ⟨q, hq, -⟩ := (hsound h).2 o rfl
      obtain ⟨events', hown, hr⟩ := sqlRun_rest o.rest server hq
      exact ⟨events', _, _, hown, hr⟩

end RecoverBull
