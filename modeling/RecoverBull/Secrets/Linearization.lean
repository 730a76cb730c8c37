import RecoverBull.Lib.FirstWriter
import RecoverBull.Server.Step

/-!
# The table as a sequential map

Whatever the requests do in between, the table is the one their database steps
leave when they are taken one after another, and every lookup finds what is there
at its own step.
-/

namespace RecoverBull

variable {F : Type} {P : Primitives} {cfg : Config} {s s' : AppState F} {secrets : SecretTable}
  {os log : Log}

/-- What a lookup makes of the row under its key. -/
def lookupAnswer : DbOutcome → Option Secret → LookupResult
  | .panics, _ => .failed .join
  | .fails, _ => .failed (.database .other)
  | .runs, some secret => .hit secret
  | .runs, none => .miss

theorem lookupAnswer_eq_hit {outcome : DbOutcome} {found : Option Secret} {row : Secret} :
    lookupAnswer outcome found = .hit row ↔ outcome = .runs ∧ found = some row := by
  cases outcome <;> cases found <;> simp [lookupAnswer]

/-- The rows-affected check of a trash never fails: the primary key makes it one row. -/
theorem runLookup_eq (table : SecretTable) (isTrashingSecret : Bool) (key : CandidateTag)
    (outcome : DbOutcome) :
    runLookup table isTrashingSecret key outcome =
      (lookupAnswer outcome (table.readSecretById key),
        if isTrashingSecret = true ∧ outcome = .runs ∧ (table.readSecretById key).isSome then
          table.delete key
        else table) := by
  cases outcome with
  | panics | fails => simp [runLookup, lookupAnswer]
  | runs =>
    cases isTrashingSecret <;> cases h : table.readSecretById key <;>
      simp [runLookup, SecretTable.readAndTrash_eq, lookupAnswer, h]

/-- The operation of a database step on the map from ids to rows. Failed steps have none. -/
def Obs.op : Obs → Option (FirstWriter.Op String Secret)
  | .wrote _ row .runs => some (.put row.id row)
  | .queried _ true key .runs _ => some (.take key)
  | _ => none

/-- A lookup on the map `m` found what is there. -/
def Obs.Agrees (m : String → Option Secret) : Obs → Prop
  | .queried _ _ key outcome result => result = lookupAnswer outcome (m key)
  | _ => True

/-- The map after the database steps of a log, on the table the server found. -/
abbrev tableAfter (secrets : SecretTable) (log : Log) : String → Option Secret :=
  FirstWriter.replay Obs.op secrets.readSecretById log

theorem tableAfter_cons_of_none {o : Obs} (h : o.op = none) :
    tableAfter secrets (o :: log) = tableAfter secrets log :=
  FirstWriter.replay_cons_of_none h

theorem tableAfter_cons_of_some {o : Obs} {e : FirstWriter.Op String Secret} (h : o.op = some e) :
    tableAfter secrets (o :: log) = FirstWriter.apply (tableAfter secrets log) e :=
  FirstWriter.replay_cons_of_some h

theorem Obs.op_eq_take {o : Obs} {k : String} :
    o.op = some (.take k) ↔ ∃ r result, o = .queried r true k .runs result := by
  cases o with
  | queried r trash key outcome result => cases trash <;> cases outcome <;> simp [op]
  | wrote r row outcome => cases outcome <;> simp [op]
  | admission | refunded | finalized | taskLost | retained | response | cancelled | panicked =>
    simp [op]

theorem Obs.op_eq_put {o : Obs} {k : String} {row : Secret} :
    o.op = some (.put k row) ↔ row.id = k ∧ ∃ r, o = .wrote r row .runs := by
  cases o with
  | queried r trash key outcome result => cases trash <;> cases outcome <;> simp [op]
  | wrote r row' outcome =>
    cases outcome with
    | panics | fails => simp [op]
    | runs =>
      simp only [op, Option.some.injEq, FirstWriter.Op.put.injEq, wrote.injEq, and_true,
        exists_eq_left']
      constructor
      · rintro ⟨rfl, rfl⟩
        exact ⟨rfl, rfl⟩
      · rintro ⟨rfl, rfl⟩
        exact ⟨rfl, rfl⟩
  | admission | refunded | finalized | taskLost | retained | response | cancelled | panicked =>
    simp [op]

def Obs.isDatabase : Obs → Bool
  | .queried _ _ _ _ _ | .wrote _ _ _ => true
  | _ => false

/-- What a step can do to the table, with what it observes of it. -/
inductive TableEffect (s s' : AppState F) (os : Log) : Prop
  | same (hs : s'.secrets = s.secrets) (hos : ∀ o ∈ os, o.isDatabase = false)
  | wrote (r : ReqId) (row : Secret) (outcome : DbOutcome)
      (hs : s'.secrets = (runWrite s.secrets row outcome).2) (hos : os = [.wrote r row outcome])
  | queried (r : ReqId) (trash : Bool) (key : CandidateTag) (outcome : DbOutcome)
      (hs : s'.secrets = (runLookup s.secrets trash key outcome).2)
      (hos : os = [.queried r trash key outcome (runLookup s.secrets trash key outcome).1])

section steps

variable [BucketNumber F]

theorem fetchStep_tableEffect {r : ReqId} {q : Lookup} {event : FetchEvent}
    (h : fetchStep cfg s r q event = some (s', os)) : TableEffect s s' os := by
  cases event with
  | query outcome =>
    simp only [fetchStep] at h
    split at h <;> cases h
    exact .queried r q.isTrashingSecret q.candidate outcome rfl rfl
  | takeToken | readClock | enter | permit | removePending | finalize | loseTask | respond
  | cancel =>
    simp only [fetchStep, takeLookupToken, enterMap, cancelFetch, dropGuard] at h
    repeat' split at h
    all_goals cases h
    all_goals exact .same rfl (by simp [Obs.isDatabase])

theorem storeStep_tableEffect {r : ReqId} {phase : StorePhase} {event : StoreEvent}
    (h : storeStep P s r phase event = some (s', os)) : TableEffect s s' os := by
  cases event with
  | write outcome =>
    simp only [storeStep] at h
    split at h <;> cases h
    exact .wrote r _ outcome rfl rfl
  | takeToken | readClock | permit | respond | cancel =>
    simp only [storeStep] at h
    repeat' split at h
    all_goals cases h
    all_goals exact .same rfl (by simp [Obs.isDatabase])

/-- The table changes in the database steps only. -/
theorem step_tableEffect {event : Event} (h : step P cfg s event = some (s', os)) :
    TableEffect s s' os := by
  cases event with
  | fetch r event =>
    simp only [step] at h
    split at h
    · exact fetchStep_tableEffect h
    · cases h
  | store r event =>
    simp only [step] at h
    split at h
    · exact storeStep_tableEffect h
    · cases h
  | attempts r event =>
    simp only [step] at h
    split at h
    · cases event <;>
        simp only [attemptsStep, takeAttemptsToken, lockSnapshot, collectSnapshot,
          publishSnapshot] at h <;> repeat' split at h
      all_goals cases h
      all_goals exact .same rfl (by simp [Obs.isDatabase])
    · cases h
  | fetchArrives | storeArrives | attemptsArrives | info | sweep =>
    simp only [step, fetchArrives, storeArrives] at h
    repeat' split at h
    all_goals cases h
    all_goals exact .same rfl (by simp [Obs.isDatabase])

end steps

/-- The table is the sequential map, and the lookups agree with it. -/
structure Linearized (secrets : SecretTable) (log : Log) (s : AppState F) : Prop where
  table : s.secrets.readSecretById = tableAfter secrets log
  answers : FirstWriter.Explains Obs.op Obs.Agrees secrets.readSecretById log

theorem Linearized.wrote (h : Linearized secrets log s) (r : ReqId) (row : Secret)
    (outcome : DbOutcome) (hs : s'.secrets = (runWrite s.secrets row outcome).2) :
    Linearized secrets (.wrote r row outcome :: log) s' := by
  refine ⟨?_, trivial, h.answers⟩
  cases outcome with
  | panics =>
    have hop : (Obs.wrote r row .panics).op = none := rfl
    rw [tableAfter_cons_of_none hop, ← h.table, hs, runWrite]
  | fails =>
    have hop : (Obs.wrote r row .fails).op = none := rfl
    rw [tableAfter_cons_of_none hop, ← h.table, hs, runWrite]
  | runs =>
    have hop : (Obs.wrote r row .runs).op = some (.put row.id row) := rfl
    rw [tableAfter_cons_of_some hop, ← h.table, hs]
    funext k
    rw [runWrite, SecretTable.readSecretById_write, FirstWriter.apply, Function.update_apply]
    split
    · next hk => rw [hk]
    · rfl

theorem Linearized.queried (h : Linearized secrets log s) (r : ReqId) (trash : Bool)
    (key : CandidateTag) (outcome : DbOutcome)
    (hs : s'.secrets = (runLookup s.secrets trash key outcome).2) :
    Linearized secrets
      (.queried r trash key outcome (runLookup s.secrets trash key outcome).1 :: log) s' := by
  rw [runLookup_eq] at hs ⊢
  refine ⟨?_, ?_, h.answers⟩
  · by_cases htake : trash = true ∧ outcome = .runs
    · obtain ⟨rfl, rfl⟩ := htake
      have hop : ∀ result, (Obs.queried r true key .runs result).op = some (.take key) :=
        fun _ => rfl
      rw [tableAfter_cons_of_some (hop _), ← h.table, hs]
      funext k
      by_cases hsome : (s.secrets.readSecretById key).isSome = true
      · rw [if_pos ⟨rfl, rfl, hsome⟩, SecretTable.readSecretById_delete, FirstWriter.apply,
          Function.update_apply]
      · rw [if_neg fun hc => hsome hc.2.2, FirstWriter.apply_take_of_none (by simpa using hsome)]
    · -- A fetch, or a lookup that failed.
      have hop : ∀ result, (Obs.queried r trash key outcome result).op = none := by
        intro result
        cases hop : (Obs.queried r trash key outcome result).op with
        | none => rfl
        | some e => cases trash <;> cases outcome <;> simp [Obs.op] at hop htake
      rw [tableAfter_cons_of_none (hop _), ← h.table, hs, if_neg fun hc => htake ⟨hc.1, hc.2.1⟩]
  · change _ = lookupAnswer outcome (tableAfter secrets log key)
    rw [← h.table]

theorem Linearized.step (h : Linearized secrets log s) (he : TableEffect s s' os) :
    Linearized secrets (os ++ log) s' := by
  cases he with
  | same hs hos =>
    refine ⟨?_, h.answers.append fun o ho m => ?_⟩
    · rw [hs, h.table, tableAfter, tableAfter, FirstWriter.replay_append_of_none fun o ho => ?_]
      have hf := hos o ho
      cases o <;> first | rfl | cases hf
    · have hf := hos o ho
      cases o <;> trivial
  | wrote r row outcome hs hos =>
    subst hos
    exact h.wrote r row outcome hs
  | queried r trash key outcome hs hos =>
    subst hos
    exact h.queried r trash key outcome hs

/-- Along every run from the start of a server, the table is the sequential map. -/
theorem linearized_of_run [BucketNumber F] {b₁ b₂ b₃ : TokenBucket F} {events : List Event}
    (h : run P cfg (.init secrets b₁ b₂ b₃) events = some (s, log)) :
    Linearized secrets log s := by
  have hr : Reaches P cfg (.init secrets b₁ b₂ b₃) log s := ⟨events, h⟩
  exact hr.invariant (Linearized secrets) ⟨rfl, trivial⟩ fun _ _ _ _ _ _ hi he =>
    hi.step (step_tableEffect he)

end RecoverBull
