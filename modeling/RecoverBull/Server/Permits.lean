import RecoverBull.Server.Frame
import RecoverBull.Secrets.Linearization
import RecoverBull.Lib.Semaphore

/-!
# The database semaphore

A lookup and a store get a permit of `database_semaphore` before they touch the
database, and their blocking closure owns it until it returns or is dropped. The
steps of the server leave the outcome of the wait to the schedule; here the
permits are counted, and a wait is granted only what is left.
-/

namespace RecoverBull

variable {F : Type} {P : Primitives} {cfg : Config} {s s' : AppState F} {os log : Log}

/-- The blocking closure has its permit and has not returned. -/
def FetchPhase.holdsPermit : FetchPhase → Bool
  | .working _ _ .blocking => true
  | _ => false

def StorePhase.holdsPermit : StorePhase → Bool
  | .writing _ _ => true
  | _ => false

def FetchCall.holdsPermit : FetchCall → Bool
  | .active q => q.phase.holdsPermit
  | .over => false

def StoreCall.holdsPermit : StoreCall → Bool
  | .active phase => phase.holdsPermit
  | .over => false

/-- The call, or the closure it left behind, holds a permit. -/
def AppState.holdsPermit (s : AppState F) : Call → Bool
  | .fetch r => (s.fetches r).any FetchCall.holdsPermit
  | .store r => (s.stores r).any StoreCall.holdsPermit
  | .attempts _ | .info _ => false

def AppState.permitHolders (s : AppState F) : Set Call := {call | s.holdsPermit call = true}

/-- What an event does with a permit of `database_semaphore`. -/
def permitUse (s : AppState F) : Event → Semaphore.Use
  | .fetch _ (.permit true) | .store _ (.permit true) => .acquires
  | .fetch _ (.query _) | .store _ (.write _) => .releases
  -- A task killed before its closure ran drops the closure, and with it the permit.
  | .fetch r .loseTask => if s.holdsPermit (.fetch r) then .releases else .neither
  | _ => .neither

variable [BucketNumber F]

/-- The server beside its semaphore, of which the number counts the permits left. -/
def stepWithPermits (P : Primitives) (cfg : Config) (s : AppState F × ℕ) (event : Event) :
    Option ((AppState F × ℕ) × Log) :=
  Semaphore.guarded (step P cfg) permitUse s event

def runWithPermits (P : Primitives) (cfg : Config) (s : AppState F × ℕ) (events : List Event) :
    Option ((AppState F × ℕ) × Log) :=
  Machine.run (stepWithPermits P cfg) s events

/-- The permits left are told by `Semaphore::new(database_max_concurrency)` and the
run so far. -/
def ServedWithPermits (P : Primitives) (cfg : Config) (log : Log) (s : AppState F) (left : ℕ) :
    Prop :=
  ∃ secrets b₁ b₂ b₃ events,
    runWithPermits P cfg (.init secrets b₁ b₂ b₃, cfg.databaseMaxConcurrency) events =
      some ((s, left), log)

/-! ## Who holds a permit -/

/-- A step leaves the permits of the other calls where they are. -/
theorem step_holdsPermit_of_ne {event : Event} (h : step P cfg s event = some (s', os))
    {call : Call} (hne : event.call ≠ some call) : s'.holdsPermit call = s.holdsPermit call := by
  have hsame := step_sameCall h hne
  cases call with
  | fetch r | store r =>
    simp only [AppState.holdsPermit]
    rw [hsame]
  | attempts r | info r => rfl

omit [BucketNumber F] in
theorem holdsPermit_fetch {r : ReqId} {q : Lookup} (hq : s.fetches r = some (.active q)) :
    s.holdsPermit (.fetch r) = q.phase.holdsPermit := by
  rw [AppState.holdsPermit, hq]
  rfl

omit [BucketNumber F] in
theorem holdsPermit_store {r : ReqId} {phase : StorePhase}
    (hp : s.stores r = some (.active phase)) : s.holdsPermit (.store r) = phase.holdsPermit := by
  rw [AppState.holdsPermit, hp]
  rfl

omit [BucketNumber F] in
@[simp] theorem holdsPermit_setFetch (s : AppState F) (r : ReqId) (call : FetchCall) :
    (s.setFetch r call).holdsPermit (.fetch r) = call.holdsPermit := by
  rw [AppState.holdsPermit, AppState.fetches_setFetch, Function.update_self, Option.any_some]

omit [BucketNumber F] in
@[simp] theorem holdsPermit_setStore (s : AppState F) (r : ReqId) (call : StoreCall) :
    (s.setStore r call).holdsPermit (.store r) = call.holdsPermit := by
  rw [AppState.holdsPermit, AppState.stores_setStore, Function.update_self, Option.any_some]

omit [BucketNumber F] in
/-- A client that leaves takes no permit along: the closure keeps it. -/
theorem cancelFetch_permit {r : ReqId} {q : Lookup} {contended : Bool}
    (h : cancelFetch s r q contended = some (s', os)) :
    s'.holdsPermit (.fetch r) = q.phase.holdsPermit := by
  unfold cancelFetch dropGuard at h
  split at h
  · next hp =>
    cases h
    simp [hp, FetchCall.holdsPermit, FetchPhase.holdsPermit]
  · next hp =>
    cases h
    simp [hp, FetchCall.holdsPermit, FetchPhase.holdsPermit]
  · next hp =>
    cases h
    simp [hp, FetchCall.holdsPermit, FetchPhase.holdsPermit]
  · next hp =>
    rw [hp]
    repeat' split at h
    all_goals cases h
    all_goals simp [FetchCall.holdsPermit, FetchPhase.holdsPermit]
  · next hp =>
    rw [hp]
    split at h <;> cases h
    all_goals simp [FetchCall.holdsPermit, FetchPhase.holdsPermit]
  · next a task hp =>
    cases h
    rw [holdsPermit_setFetch, FetchCall.holdsPermit, hp]
    cases task <;> rfl
  · cases h

/-- A lookup takes its permit into its closure, and gives it back when that returns. -/
theorem fetchStep_permit {r : ReqId} {q : Lookup} {event : FetchEvent}
    (hq : s.fetches r = some (.active q)) (h : fetchStep cfg s r q event = some (s', os)) :
    (permitUse s (.fetch r event)).Turns (s.holdsPermit (.fetch r)) (s'.holdsPermit (.fetch r)) := by
  have hbefore := holdsPermit_fetch hq
  cases event with
  | cancel contended =>
    show s'.holdsPermit (.fetch r) = s.holdsPermit (.fetch r)
    rw [cancelFetch_permit h, hbefore]
  | loseTask =>
    simp only [fetchStep] at h
    split at h
    all_goals cases h
    all_goals next hp =>
      rw [permitUse, hbefore, hp]
      simp [FetchPhase.holdsPermit, Semaphore.Use.Turns, FetchCall.holdsPermit]
  | takeToken now | readClock now | enter | permit granted | removePending | query outcome
  | finalize | respond =>
    simp only [fetchStep, takeLookupToken, enterMap] at h
    split at h
    all_goals first
      | cases h; done
      | next hp =>
        rw [hbefore, hp]
        repeat' split at h
        all_goals cases h
        all_goals simp [permitUse, Semaphore.Use.Turns, FetchCall.holdsPermit,
          FetchPhase.holdsPermit, *]

theorem storeStep_permit {r : ReqId} {phase : StorePhase} {event : StoreEvent}
    (hp : s.stores r = some (.active phase)) (h : storeStep P s r phase event = some (s', os)) :
    (permitUse s (.store r event)).Turns (s.holdsPermit (.store r)) (s'.holdsPermit (.store r)) := by
  rw [holdsPermit_store hp]
  cases event <;> simp only [storeStep] at h
  all_goals split at h
  all_goals first
    | cases h; done
    | skip
  all_goals repeat' split at h
  all_goals cases h
  all_goals simp [permitUse, Semaphore.Use.Turns, StoreCall.holdsPermit, StorePhase.holdsPermit, *]

omit [BucketNumber F] in
/-- A call that arrives holds no permit yet. -/
theorem fetchArrives_permit {r : ReqId} {isTrashingSecret : Bool} {request : FetchSecret}
    (h : fetchArrives P s r isTrashingSecret request = some (s', os)) :
    s'.holdsPermit (.fetch r) = false ∧ s.holdsPermit (.fetch r) = false := by
  unfold fetchArrives at h
  split at h
  · cases h
  · next hfree =>
    refine ⟨?_, by simp [AppState.holdsPermit, Option.not_isSome_iff_eq_none.mp hfree]⟩
    repeat' split at h
    all_goals cases h
    all_goals simp [FetchCall.holdsPermit, FetchPhase.holdsPermit]

omit [BucketNumber F] in
theorem storeArrives_permit {r : ReqId} {request : StoreSecret}
    (h : storeArrives P cfg s r request = some (s', os)) :
    s'.holdsPermit (.store r) = false ∧ s.holdsPermit (.store r) = false := by
  unfold storeArrives at h
  split at h
  · cases h
  · next hfree =>
    refine ⟨?_, by simp [AppState.holdsPermit, Option.not_isSome_iff_eq_none.mp hfree]⟩
    split at h <;> cases h
    all_goals simp [StoreCall.holdsPermit, StorePhase.holdsPermit]

/-- Every step turns the permit of its call as its event says. -/
theorem step_permit {event : Event} (h : step P cfg s event = some (s', os)) {call : Call}
    (hcall : event.call = some call) :
    (permitUse s event).Turns (s.holdsPermit call) (s'.holdsPermit call) := by
  cases event with
  | fetch r event =>
    cases hcall
    simp only [step] at h
    split at h
    · next q hq => exact fetchStep_permit hq h
    · cases h
  | store r event =>
    cases hcall
    simp only [step] at h
    split at h
    · next phase hp => exact storeStep_permit hp h
    · cases h
  | fetchArrives r trash request =>
    cases hcall
    obtain ⟨hafter, hbefore⟩ := fetchArrives_permit h
    exact hafter.trans hbefore.symm
  | storeArrives r request =>
    cases hcall
    obtain ⟨hafter, hbefore⟩ := storeArrives_permit h
    exact hafter.trans hbefore.symm
  | attemptsArrives r ifNoneMatch | attempts r event | info r metadata file =>
    cases hcall
    rfl
  | sweep now => cases hcall

/-- The holders are the calls that got a permit and have not given it back. -/
theorem tracksPermits (P : Primitives) (cfg : Config) :
    Semaphore.Tracks (step (F := F) P cfg) permitUse AppState.permitHolders := by
  refine .of_flag (fun _ _ _ _ h call hne => step_holdsPermit_of_ne h hne)
    (fun _ _ _ _ h call hcall => step_permit h hcall) fun _ event _ _ _ hnone => ?_
  cases event with
  | sweep now => rfl
  | fetchArrives | fetch | storeArrives | store | attemptsArrives | attempts | info => cases hnone

omit [BucketNumber F] in
theorem permitHolders_init (secrets : SecretTable) (b₁ b₂ b₃ : TokenBucket F) :
    (AppState.init secrets b₁ b₂ b₃).permitHolders = ∅ := by
  refine Set.eq_empty_iff_forall_notMem.mpr fun call hm => ?_
  cases call <;> cases hm

/-- A database step gives a permit back, so that there was one. -/
theorem step_releases {event : Event} (h : step P cfg s event = some (s', os)) {o : Obs}
    (ho : o ∈ os) (htouch : o.isDatabase = true) : permitUse s event = .releases := by
  cases event with
  | fetch r event =>
    simp only [step] at h
    split at h
    · cases event with
      | query outcome => rfl
      | takeToken | readClock | enter | permit | removePending | finalize | loseTask | respond
      | cancel =>
        simp only [fetchStep, takeLookupToken, enterMap, cancelFetch, dropGuard] at h
        repeat' split at h
        all_goals cases h
        all_goals simp at ho
        all_goals first
          | (subst ho; cases htouch)
          | (obtain rfl | rfl := ho <;> cases htouch)
    · cases h
  | store r event =>
    simp only [step] at h
    split at h
    · cases event with
      | write outcome => rfl
      | takeToken | readClock | permit | respond | cancel =>
        simp only [storeStep] at h
        repeat' split at h
        all_goals cases h
        all_goals simp at ho
        all_goals (subst ho; cases htouch)
    · cases h
  | attempts r event =>
    simp only [step] at h
    split at h
    · obtain ⟨-, -, hwrote, hqueried⟩ := attemptsStep_moves h
      cases o with
      | queried => exact absurd ho (hqueried _ _ _ _ _)
      | wrote => exact absurd ho (hwrote _ _ _)
      | admission | refunded | finalized | taskLost | retained | response | cancelled | panicked =>
        cases htouch
    · cases h
  | fetchArrives | storeArrives | attemptsArrives | info | sweep =>
    simp only [step, fetchArrives, storeArrives] at h
    repeat' split at h
    all_goals cases h
    all_goals simp at ho
    all_goals (subst ho; cases htouch)

/-- What touches the database holds a permit. -/
theorem step_database {event : Event} (h : step P cfg s event = some (s', os)) {o : Obs}
    (ho : o ∈ os) (htouch : o.isDatabase = true) :
    ∃ call ∈ s.permitHolders, o.call = some call := by
  have hrel := step_releases h ho htouch
  obtain hcall | hnone := step_call h o ho
  · cases hc : event.call with
    | none =>
      rw [hc] at hcall
      cases o with
      | queried | wrote => cases hcall
      | admission | refunded | finalized | taskLost | retained | response | cancelled | panicked =>
        cases htouch
    | some call =>
      have hturn := step_permit h hc
      rw [hrel] at hturn
      exact ⟨call, hturn.1, hcall.trans hc⟩
  · cases o with
    | queried | wrote => cases hnone
    | admission | refunded | finalized | taskLost | retained | response | cancelled | panicked =>
      cases htouch

/-- **The database semaphore is exact.** At any time the permits left and the calls
that hold one make up `DATABASE_MAX_CONCURRENCY`; the schedules it admits are those
in which no more closures than that are at work; and nothing touches the database
without a permit. -/
theorem permits_exact (P : Primitives) (cfg : Config) (secrets : SecretTable)
    (b₁ b₂ b₃ : TokenBucket F) (events : List Event) (s : AppState F) (log : Log) :
    (∀ left, runWithPermits P cfg (.init secrets b₁ b₂ b₃, cfg.databaseMaxConcurrency) events =
        some ((s, left), log) →
      s.permitHolders.encard + left = cfg.databaseMaxConcurrency) ∧
    ((∃ left, runWithPermits P cfg (.init secrets b₁ b₂ b₃, cfg.databaseMaxConcurrency) events =
        some ((s, left), log)) ↔
      run P cfg (.init secrets b₁ b₂ b₃) events = some (s, log) ∧
        Machine.Along (step P cfg)
          (fun _ _ t => t.permitHolders.encard ≤ cfg.databaseMaxConcurrency)
          (.init secrets b₁ b₂ b₃) events) ∧
    ∀ event s' os, step P cfg s event = some (s', os) → ∀ o ∈ os, o.isDatabase = true →
      ∃ call ∈ s.permitHolders, o.call = some call := by
  have htracks := tracksPermits (F := F) P cfg
  have hstart : (AppState.init secrets b₁ b₂ b₃).permitHolders.encard + cfg.databaseMaxConcurrency =
      cfg.databaseMaxConcurrency := by
    rw [permitHolders_init, Set.encard_empty, zero_add]
  refine ⟨fun left hr => ?_, Semaphore.run_guarded_iff htracks hstart,
    fun event s' os h o ho htouch => step_database h ho htouch⟩
  exact (Semaphore.run_conserved htracks hr).1.trans hstart

end RecoverBull
