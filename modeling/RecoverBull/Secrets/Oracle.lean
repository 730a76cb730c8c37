import RecoverBull.Limiter.LockoutBoundary

/-!
# No free existence oracle

Two servers whose tables differ in the row of one secret answer a schedule alike
as long as it does not look that secret up. Everything but a lookup and a write
leaves the table unread, and a write does not tell whether it found the row.
-/

namespace RecoverBull

variable {F : Type} {P : Primitives} {cfg : Config} {s s' t : AppState F} {os : Log}
  {secretId : String}

/-- The tables hold the same rows, but for the row of `secretId`. -/
def SecretTable.SameBut (secretId : String) (table table' : SecretTable) : Prop :=
  ∀ k, k ≠ secretId → table'.readSecretById k = table.readSecretById k

/-- The state on another table. -/
def AppState.withSecrets (s : AppState F) (table : SecretTable) : AppState F :=
  { s with secrets := table }

/-- The servers agree in everything but the row of `secretId`. -/
structure AppState.SameBut (secretId : String) (s t : AppState F) : Prop where
  memory : t = s.withSecrets t.secrets
  rows : s.secrets.SameBut secretId t.secrets

/-- The event runs a statement on the table. -/
def Event.usesTable : Event → Bool
  | .fetch _ (.query _) | .store _ (.write _) => true
  | _ => false

section commute

variable [BucketNumber F] (table : SecretTable)

theorem fetchStep_withSecrets {r : ReqId} {q : Lookup} {event : FetchEvent}
    (hevent : ∀ outcome, event ≠ .query outcome) :
    fetchStep cfg (s.withSecrets table) r q event =
      (fetchStep cfg s r q event).map fun u => (u.1.withSecrets table, u.2) := by
  obtain ⟨trash, idHash, candidate, phase⟩ := q
  cases event with
  -- The query is the one step that reads the table.
  | query outcome => exact absurd rfl (hevent outcome)
  | takeToken now =>
    cases phase with
    | bucket =>
      rcases h : s.lookupTokenBucket.tryConsume now with ⟨_ | _, bucket⟩
      all_goals
        have h' : (s.withSecrets table).lookupTokenBucket.tryConsume now = _ := h
        simp only [fetchStep, takeLookupToken, Option.map_some, h, h']
        rfl
    | _ => rfl
  | readClock now => cases phase <;> rfl
  | enter =>
    cases phase with
    | mapLock requestedAt =>
      simp only [fetchStep, enterMap, Option.map_some, AppState.withSecrets]
      generalize admissionRecord cfg s.identifierRateLimit idHash candidate requestedAt = record
      obtain ⟨_, _, _, _, _, outcome⟩ := record
      cases outcome with
      | admitted admission => cases admission <;> rfl
      | lockedOut response | capacityExhausted response | panicked => rfl
    | _ => rfl
  | permit granted =>
    cases phase with
    | permit a =>
      obtain ⟨_, _, _, isNew⟩ := a
      cases granted <;> cases isNew <;> rfl
    | _ => rfl
  | removePending => cases phase <;> rfl
  | finalize =>
    cases phase with
    | working a client task =>
      cases task with
      | finalizing result =>
        obtain ⟨_, _, _, isNew⟩ := a
        cases isNew <;> rfl
      | _ => rfl
    | _ => rfl
  | loseTask =>
    cases phase with
    | working a client task => cases task <;> rfl
    | _ => rfl
  | respond =>
    cases phase with
    | working a client task =>
      obtain ⟨_, _, _, isNew⟩ := a
      cases client <;> cases task <;> cases isNew <;> rfl
    | _ => rfl
  | cancel contended =>
    cases phase with
    | permit a =>
      obtain ⟨_, _, _, isNew⟩ := a
      cases isNew <;> cases contended <;> rfl
    | refund a => cases contended <;> rfl
    | working a client task => cases client <;> rfl
    | _ => rfl

theorem storeStep_withSecrets {r : ReqId} {phase : StorePhase} {event : StoreEvent}
    (hevent : ∀ outcome, event ≠ .write outcome) :
    storeStep P (s.withSecrets table) r phase event =
      (storeStep P s r phase event).map fun u => (u.1.withSecrets table, u.2) := by
  cases event with
  | write outcome => exact absurd rfl (hevent outcome)
  | takeToken now =>
    cases phase with
    | bucket secretId encryptedSecret =>
      rcases h : s.storeTokenBucket.tryConsume now with ⟨_ | _, bucket⟩
      all_goals
        have h' : (s.withSecrets table).storeTokenBucket.tryConsume now = _ := h
        simp only [storeStep, h, h']
        rfl
    | _ => rfl
  | readClock now => cases phase <;> rfl
  | permit granted =>
    cases phase with
    | permit key => cases granted <;> rfl
    | _ => rfl
  | respond =>
    cases phase with
    | written client isStored => cases client <;> rfl
    | _ => rfl
  | cancel =>
    cases phase with
    | writing key client | written client isStored => cases client <;> rfl
    | _ => rfl

theorem attemptsStep_withSecrets {r : ReqId} {phase : AttemptsPhase} {event : AttemptsEvent} :
    attemptsStep P cfg (s.withSecrets table) r phase event =
      (attemptsStep P cfg s r phase event).map fun u => (u.1.withSecrets table, u.2) := by
  cases event with
  | takeToken now =>
    cases phase with
    | bucket ifNoneMatch =>
      rcases h : s.attemptsTokenBucket.tryConsume now with ⟨_ | _, bucket⟩
      all_goals
        have h' : (s.withSecrets table).attemptsTokenBucket.tryConsume now = _ := h
        simp only [attemptsStep, takeAttemptsToken, Option.map_some, h, h']
        rfl
    | _ => rfl
  | lockSnapshot now utc later =>
    cases phase with
    | snapshotLock ifNoneMatch =>
      obtain ⟨map, secrets, b₁, b₂, b₃, snapshot, holder, canary, fetches, stores, polls⟩ := s
      simp only [attemptsStep, lockSnapshot, AppState.withSecrets]
      generalize snapshot.filter (fun snapshot => !isStale cfg snapshot now) = fresh
      cases holder <;> cases fresh <;> rfl
    | _ => rfl
  | collect order =>
    cases phase with
    | mapLock ifNoneMatch now =>
      simp only [attemptsStep, collectSnapshot, Option.map_some, AppState.withSecrets]
      generalize collectEntries order (retainWithinCooldown cfg now s.identifierRateLimit) = entries
      cases entries <;> rfl
    | _ => rfl
  | compress succeeds createdAt => cases phase <;> rfl
  | publish now =>
    cases phase with
    | built ifNoneMatch result => cases result <;> rfl
    | _ => rfl
  | cancel => cases phase <;> rfl

/-- An event that runs no statement commutes with an exchange of the table. -/
theorem step_withSecrets {event : Event} (hevent : event.usesTable = false) :
    step P cfg (s.withSecrets table) event =
      (step P cfg s event).map fun u => (u.1.withSecrets table, u.2) := by
  cases event with
  | fetchArrives r trash request =>
    cases h : s.fetches r with
    | some call =>
      have h' : (s.withSecrets table).fetches r = some call := h
      simp only [step, fetchArrives, h, h']
      rfl
    | none =>
      have h' : (s.withSecrets table).fetches r = none := h
      simp only [step, fetchArrives, h, h', Option.isSome_none, Bool.false_eq_true, if_false]
      cases checkFetch P request with
      | error response => rfl
      | ok pair =>
        obtain ⟨identifier, authenticationKey⟩ := pair
        dsimp only
        cases identifierHash P identifier <;> rfl
  | fetch r event =>
    have hne : ∀ outcome, event ≠ .query outcome := by
      rintro outcome rfl
      cases hevent
    rcases h : s.fetches r with _ | q | _
    all_goals
      have h' : (s.withSecrets table).fetches r = _ := h
      simp only [step, h, h', Option.map_none]
    exact fetchStep_withSecrets table hne
  | storeArrives r request =>
    cases h : s.stores r with
    | some call =>
      have h' : (s.withSecrets table).stores r = some call := h
      simp only [step, storeArrives, h, h']
      rfl
    | none =>
      have h' : (s.withSecrets table).stores r = none := h
      simp only [step, storeArrives, h, h', Option.isSome_none, Bool.false_eq_true, if_false]
      cases checkStore P cfg request <;> rfl
  | store r event =>
    -- The write is the one step of a store that reads the table.
    have hne : ∀ outcome, event ≠ .write outcome := by
      rintro outcome rfl
      cases hevent
    rcases h : s.stores r with _ | phase | _
    all_goals
      have h' : (s.withSecrets table).stores r = _ := h
      simp only [step, h, h', Option.map_none]
    exact storeStep_withSecrets table hne
  | attemptsArrives r ifNoneMatch =>
    cases h : s.polls r with
    | some call =>
      have h' : (s.withSecrets table).polls r = some call := h
      simp only [step, h, h']
      rfl
    | none =>
      have h' : (s.withSecrets table).polls r = none := h
      simp only [step, h, h']
      rfl
  | attempts r event =>
    rcases h : s.polls r with _ | phase | _
    all_goals
      have h' : (s.withSecrets table).polls r = _ := h
      simp only [step, h, h', Option.map_none]
    exact attemptsStep_withSecrets table
  | info r metadata file => rfl
  | sweep now => rfl

end commute

/-! ## Statements on two tables -/

theorem SecretTable.SameBut.write {table table' : SecretTable} (h : table.SameBut secretId table')
    (row : Secret) : (table.write row).SameBut secretId (table'.write row) := by
  intro k hk
  rw [SecretTable.readSecretById_write, SecretTable.readSecretById_write, h k hk]

theorem SecretTable.SameBut.delete {table table' : SecretTable} (h : table.SameBut secretId table')
    (id : String) : (table.delete id).SameBut secretId (table'.delete id) := by
  intro k hk
  rw [SecretTable.readSecretById_delete, SecretTable.readSecretById_delete, h k hk]

/-- A write answers the same whether or not the row is there. -/
theorem runWrite_sameBut {table table' : SecretTable} (h : table.SameBut secretId table')
    (key : Secret) (outcome : DbOutcome) :
    (runWrite table' key outcome).1 = (runWrite table key outcome).1 ∧
      (runWrite table key outcome).2.SameBut secretId (runWrite table' key outcome).2 := by
  cases outcome with
  | panics | fails => exact ⟨rfl, h⟩
  | runs => exact ⟨rfl, h.write key⟩

/-- A lookup that does not run on `secretId` answers the same. -/
theorem runLookup_sameBut {table table' : SecretTable} (h : table.SameBut secretId table')
    (trash : Bool) {key : CandidateTag} {outcome : DbOutcome}
    (hne : outcome = .runs → key ≠ secretId) :
    (runLookup table' trash key outcome).1 = (runLookup table trash key outcome).1 ∧
      (runLookup table trash key outcome).2.SameBut secretId
        (runLookup table' trash key outcome).2 := by
  cases outcome with
  | panics | fails => exact ⟨rfl, h⟩
  | runs =>
    have hread := h key (hne rfl)
    cases trash with
    | false =>
      simp only [runLookup, Bool.false_eq_true, if_false, hread]
      cases table.readSecretById key <;> exact ⟨rfl, h⟩
    | true =>
      simp only [runLookup, if_true, SecretTable.readAndTrash_eq, hread]
      cases table.readSecretById key with
      | none => exact ⟨rfl, h⟩
      | some row => exact ⟨rfl, h.delete key⟩

section runs

variable [BucketNumber F]

theorem AppState.SameBut.query (h : s.SameBut secretId t) {r : ReqId} {outcome : DbOutcome}
    (hs : step P cfg s (.fetch r (.query outcome)) = some (s', os))
    (hos : ∀ r trash result, .queried r trash secretId .runs result ∉ os) :
    ∃ t', step P cfg t (.fetch r (.query outcome)) = some (t', os) ∧ s'.SameBut secretId t' := by
  have hf : t.fetches r = s.fetches r := by rw [h.memory]; rfl
  simp only [step] at hs ⊢
  rw [hf]
  split at hs
  case h_2 => cases hs
  case h_1 q hq =>
    simp only [fetchStep] at hs ⊢
    split at hs
    case h_2 => cases hs
    case h_1 a client hp =>
      cases hs
      have hne : outcome = .runs → q.candidate ≠ secretId := by
        rintro rfl rfl
        exact hos _ _ _ List.mem_cons_self
      obtain ⟨hresult, hrows⟩ := runLookup_sameBut h.rows q.isTrashingSecret hne
      rw [hresult]
      refine ⟨_, rfl, ?_, hrows⟩
      rw [h.memory]
      rfl

theorem AppState.SameBut.write (h : s.SameBut secretId t) {r : ReqId} {outcome : DbOutcome}
    (hs : step P cfg s (.store r (.write outcome)) = some (s', os)) :
    ∃ t', step P cfg t (.store r (.write outcome)) = some (t', os) ∧ s'.SameBut secretId t' := by
  have hf : t.stores r = s.stores r := by rw [h.memory]; rfl
  simp only [step] at hs ⊢
  rw [hf]
  split at hs
  case h_2 => cases hs
  case h_1 phase hphase =>
    simp only [storeStep] at hs ⊢
    split at hs
    case h_2 => cases hs
    case h_1 key client =>
      cases hs
      obtain ⟨hresult, hrows⟩ := runWrite_sameBut h.rows key outcome
      rw [hresult]
      refine ⟨_, rfl, ?_, hrows⟩
      rw [h.memory]
      rfl

/-- Unwinding: an event is answered alike unless it looks `secretId` up. -/
theorem AppState.SameBut.step (h : s.SameBut secretId t) {event : Event}
    (hs : RecoverBull.step P cfg s event = some (s', os))
    (hos : ∀ r trash result, .queried r trash secretId .runs result ∉ os) :
    ∃ t', RecoverBull.step P cfg t event = some (t', os) ∧ s'.SameBut secretId t' := by
  by_cases hevent : event.usesTable = true
  · cases event with
    | fetch r event =>
      cases event with
      | query outcome => exact h.query hs hos
      | _ => cases hevent
    | store r event =>
      cases event with
      | write outcome => exact h.write hs
      | _ => cases hevent
    | _ => cases hevent
  · have hevent := Bool.eq_false_iff.mpr hevent
    refine ⟨s'.withSecrets t.secrets, ?_, rfl, ?_⟩
    · rw [h.memory, step_withSecrets t.secrets hevent, hs]
      rfl
    · -- The event leaves the table of the first server as it is.
      have hkeep : RecoverBull.step P cfg (s.withSecrets s.secrets) event = _ :=
        step_withSecrets s.secrets hevent
      have hself : s.withSecrets s.secrets = s := rfl
      rw [hself, hs] at hkeep
      have hs' : s' = s'.withSecrets s.secrets := congrArg Prod.fst (Option.some.inj hkeep)
      rw [hs']
      exact h.rows

/-- **No free existence oracle.** Two servers that differ in the row of `secretId`
answer a schedule alike, and keep the same rate-limit map, unless it looks
`secretId` up; and a lookup is paid for with a slot of its identifier's window. -/
theorem no_existence_oracle (P : Primitives) (cfg : Config) (secretId : String) :
    (∀ (s t : AppState F) (events : List Event) (s' : AppState F) (log : Log),
      s.SameBut secretId t → run P cfg s events = some (s', log) →
      (∀ r trash result, .queried r trash secretId .runs result ∉ log) →
      ∃ t', run P cfg t events = some (t', log) ∧
        t'.identifierRateLimit = s'.identifierRateLimit ∧ s'.SameBut secretId t') ∧
    ∀ (log : Log) (s : AppState F), Served P cfg log s →
      ∀ r trash outcome result, .queried r trash secretId outcome result ∈ log →
        ∃ record info, .admission r record ∈ log ∧ record.candidate = secretId ∧
          record.left = some info ∧ secretId ∈ info.candidates := by
  refine ⟨fun s t events s' log h hr hlog => ?_, fun log s h r trash outcome result hq =>
    h.queried_in_window hq⟩
  have hstep : ∀ (s t : AppState F) event s' os, s.SameBut secretId t →
      step P cfg s event = some (s', os) →
      (∀ o ∈ os, ∀ r trash result, o ≠ .queried r trash secretId .runs result) →
      ∃ t', step P cfg t event = some (t', os) ∧ s'.SameBut secretId t' :=
    fun s t event s' os h hs hos =>
      h.step hs fun r trash result hm => hos _ hm r trash result rfl
  obtain ⟨t', ht', hsame⟩ := Machine.run_lockstep hstep h hr fun o ho r trash result he =>
    hlog r trash result (he ▸ ho)
  refine ⟨t', ht', ?_, hsame⟩
  rw [hsame.memory]
  rfl

end runs

/-- A store of an id that one server holds and the other does not. -/
theorem no_existence_oracle_sample :
    ∃ (log : Log) (s t : AppState ℚ),
      run .sample .sample .sample (sampleStore 0 ⟨sampleIdentifier, sampleKey, "AAAA"⟩) =
        some (s, log) ∧
      .response (.store 0) { status := .created, body := .null } ∈ log ∧
      run .sample .sample
        (AppState.sample.withSecrets (.singleton ⟨sampleSecretId, "earlier", "BBBB"⟩))
        (sampleStore 0 ⟨sampleIdentifier, sampleKey, "AAAA"⟩) = some (t, log) := by
  have hrun : (run .sample .sample .sample
      (sampleStore 0 ⟨sampleIdentifier, sampleKey, "AAAA"⟩)).any (fun r =>
        decide (r.2 = [.response (.store 0) { status := .created, body := .null },
          .wrote 0 ⟨sampleSecretId, Primitives.sample.toRfc3339 0, "AAAA"⟩ .runs])) = true := by
    simp (disch := decide +kernel) only [sampleStore, run_sampleStore]
    decide +kernel
  obtain ⟨⟨s, log⟩, hr, hlog⟩ := (Option.any_eq_true _ _).mp hrun
  obtain rfl := of_decide_eq_true hlog
  have hsame : AppState.sample.SameBut sampleSecretId
      (AppState.sample.withSecrets (.singleton ⟨sampleSecretId, "earlier", "BBBB"⟩)) := by
    refine ⟨rfl, fun k hk => ?_⟩
    have hne : ¬sampleSecretId = k := fun he => hk he.symm
    simp [AppState.withSecrets, AppState.sample, AppState.init, SecretTable.readSecretById,
      SecretTable.singleton, SecretTable.empty, hne]
  obtain ⟨t, ht, _⟩ := (no_existence_oracle .sample .sample sampleSecretId).1 _ _ _ _ _ hsame hr
    fun _ _ _ hm => by simp at hm
  exact ⟨_, s, t, hr, List.mem_cons_self, ht⟩

end RecoverBull
