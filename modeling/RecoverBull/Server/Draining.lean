import RecoverBull.Server.Permits
import RecoverBull.Server.SingleFlight
import RecoverBull.Lib.Draining

/-!
# Shutting down

After `shutdown_signal` no request arrives any more, and those in flight run to
their end. The work of a call bounds the steps it has left; the waits on the
database semaphore and on the lock of the snapshot never close a circle.
-/

namespace RecoverBull

variable {F : Type} {P : Primitives} {cfg : Config} {s s' : AppState F} {os log : Log}
  {event : Event}

/-! ## The work left -/

/-- The steps a detached task and the handler that waits for it can still take. -/
def Task.work (client : Bool) : Task → ℕ
  | .blocking => if client then 4 else 2
  | .finalizing _ => if client then 3 else 1
  | .finished _ => if client then 1 else 0
  | .lost => if client then 2 else 0

def FetchPhase.work : FetchPhase → ℕ
  | .bucket => 8
  | .clock => 7
  | .mapLock _ => 6
  | .permit _ => 5
  | .working _ client task => task.work client
  | .refund _ => 2
  | .lostRefund _ | .deferred _ => 1

def StorePhase.work : StorePhase → ℕ
  | .bucket _ _ => 5
  | .clock _ _ => 4
  | .permit _ => 3
  | .writing _ true => 2
  | .writing _ false => 1
  | .written true _ => 1
  | .written false _ => 0

def AttemptsPhase.work : AttemptsPhase → ℕ
  | .bucket _ => 5
  | .snapshotLock _ => 4
  | .mapLock _ _ => 3
  | .compressing _ _ => 2
  | .built _ _ | .orphaned _ => 1

def FetchCall.work : FetchCall → ℕ
  | .active q => q.phase.work
  | .over => 0

def StoreCall.work : StoreCall → ℕ
  | .active phase => phase.work
  | .over => 0

def AttemptsCall.work : AttemptsCall → ℕ
  | .active phase => phase.work
  | .over => 0

/-- The work left of a call. `/info` has none: it answers in one step. -/
def AppState.work (s : AppState F) : Call → ℕ
  | .fetch r => (s.fetches r).elim 0 FetchCall.work
  | .store r => (s.stores r).elim 0 StoreCall.work
  | .attempts r => (s.polls r).elim 0 AttemptsCall.work
  | .info _ => 0

@[simp] theorem work_setFetch (s : AppState F) (r : ReqId) (call : FetchCall) :
    (s.setFetch r call).work (.fetch r) = call.work := by
  simp [AppState.work]

@[simp] theorem work_setStore (s : AppState F) (r : ReqId) (call : StoreCall) :
    (s.setStore r call).work (.store r) = call.work := by
  simp [AppState.work]

@[simp] theorem work_setPoll (s : AppState F) (r : ReqId) (call : AttemptsCall) :
    (s.setPoll r call).work (.attempts r) = call.work := by
  simp [AppState.work, AppState.setPoll]

theorem Task.work_le (task : Task) (client : Bool) : task.work client ≤ 8 := by
  cases task <;> cases client <;> simp [work]

/-- A client that leaves saves the step that would answer it. -/
theorem Task.work_of_left (task : Task) : task.work false < task.work true := by
  cases task <;> simp [work]

theorem Task.work_finalizing_lt (result : LookupResult) (client : Bool) :
    (finalizing result).work client < blocking.work client := by
  cases client <;> simp [work]

theorem Task.work_finished_lt (result result' : LookupResult) (client : Bool) :
    (finished result').work client < (finalizing result).work client := by
  cases client <;> simp [work]

theorem Task.work_lost_lt {task : Task} (h : task = .blocking ∨ ∃ result, task = .finalizing result)
    (client : Bool) : lost.work client < task.work client := by
  obtain rfl | ⟨result, rfl⟩ := h <;> cases client <;> simp [work]

theorem FetchPhase.work_le (phase : FetchPhase) : phase.work ≤ 8 := by
  cases phase with
  | working a client task => exact task.work_le client
  | bucket | clock | mapLock | permit | refund | lostRefund | deferred => simp [work]

theorem StorePhase.work_le (phase : StorePhase) : phase.work ≤ 8 := by
  cases phase with
  | writing key client | written client isStored => cases client <;> simp [work]
  | bucket | clock | permit => simp [work]

theorem AttemptsPhase.work_le (phase : AttemptsPhase) : phase.work ≤ 8 := by
  cases phase <;> simp [work]

theorem work_le (s : AppState F) (call : Call) : s.work call ≤ 8 := by
  cases call with
  | fetch r =>
    rcases hf : s.fetches r with _ | q | _
    · simp [AppState.work, hf]
    · simpa [AppState.work, hf, FetchCall.work] using q.phase.work_le
    · simp [AppState.work, hf, FetchCall.work]
  | store r =>
    rcases hst : s.stores r with _ | phase | _
    · simp [AppState.work, hst]
    · simpa [AppState.work, hst, StoreCall.work] using phase.work_le
    · simp [AppState.work, hst, StoreCall.work]
  | attempts r =>
    rcases hp : s.polls r with _ | phase | _
    · simp [AppState.work, hp]
    · simpa [AppState.work, hp, AttemptsCall.work] using phase.work_le
    · simp [AppState.work, hp, AttemptsCall.work]
  | info r => simp [AppState.work]

/-! ## Every step spends work -/

/-- A request arrives. -/
def Event.isArrival : Event → Bool
  | .fetchArrives _ _ _ | .storeArrives _ _ | .attemptsArrives _ _ => true
  | _ => false

/-- The call in flight that the event is a step of. -/
def Event.owner : Event → Option Call
  | .fetch r _ => some (.fetch r)
  | .store r _ => some (.store r)
  | .attempts r _ => some (.attempts r)
  | _ => none

theorem cancelFetch_work {r : ReqId} {q : Lookup} {contended : Bool}
    (h : cancelFetch s r q contended = some (s', os)) : s'.work (.fetch r) < q.phase.work := by
  unfold cancelFetch dropGuard at h
  split at h
  all_goals first
    | cases h; done
    | next hp =>
      rw [hp]
      repeat' split at h
      all_goals cases h
      all_goals simp [FetchCall.work, FetchPhase.work, Task.work_of_left]

theorem fetchStep_work [BucketNumber F] {r : ReqId} {q : Lookup} {event : FetchEvent}
    (h : fetchStep cfg s r q event = some (s', os)) : s'.work (.fetch r) < q.phase.work := by
  cases event with
  | cancel contended => exact cancelFetch_work h
  -- The task moves on, whether its client still waits or not.
  | query outcome =>
    simp only [fetchStep] at h
    split at h
    · next a client hp =>
      cases h
      rw [work_setFetch, FetchCall.work, hp]
      exact Task.work_finalizing_lt (runLookup s.secrets q.isTrashingSecret q.candidate outcome).1 client
    · cases h
  | finalize =>
    simp only [fetchStep] at h
    split at h
    · next a client result hp =>
      rw [hp]
      split at h <;> cases h
      all_goals rw [work_setFetch, FetchCall.work]
      all_goals exact Task.work_finished_lt result result client
    · cases h
  | loseTask =>
    simp only [fetchStep] at h
    split at h
    · next a client hp =>
      cases h
      rw [work_setFetch, FetchCall.work, hp]
      exact Task.work_lost_lt (Or.inl rfl) client
    · next a client result hp =>
      cases h
      rw [work_setFetch, FetchCall.work, hp]
      exact Task.work_lost_lt (Or.inr ⟨result, rfl⟩) client
    · cases h
  | takeToken now | readClock now | enter | permit granted | removePending | respond =>
    simp only [fetchStep, takeLookupToken, enterMap] at h
    split at h
    all_goals first
      | cases h; done
      | next hp =>
        rw [hp]
        repeat' split at h
        all_goals cases h
        all_goals simp [FetchCall.work, FetchPhase.work, Task.work]

theorem storeStep_work [BucketNumber F] {r : ReqId} {phase : StorePhase} {event : StoreEvent}
    (h : storeStep P s r phase event = some (s', os)) : s'.work (.store r) < phase.work := by
  cases event with
  | write outcome =>
    simp only [storeStep] at h
    split at h
    · next key client =>
      cases h
      cases client <;> simp [StoreCall.work, StorePhase.work]
    · cases h
  | takeToken now | readClock now | permit granted | respond | cancel =>
    simp only [storeStep] at h
    repeat' split at h
    all_goals cases h
    all_goals simp [StoreCall.work, StorePhase.work]

theorem attemptsStep_work [BucketNumber F] {r : ReqId} {phase : AttemptsPhase}
    {event : AttemptsEvent} (h : attemptsStep P cfg s r phase event = some (s', os)) :
    s'.work (.attempts r) < phase.work := by
  cases event <;>
    simp only [attemptsStep, takeAttemptsToken, lockSnapshot, collectSnapshot, publishSnapshot] at h
  all_goals repeat' split at h
  all_goals cases h
  all_goals simp [releaseSnapshot, AttemptsCall.work, AttemptsPhase.work]

/-- Every step of a call in flight spends work of that call. -/
theorem step_work_lt [BucketNumber F] (h : step P cfg s event = some (s', os)) {call : Call}
    (ho : event.owner = some call) : s'.work call < s.work call := by
  cases event with
  | fetch r event =>
    cases ho
    simp only [step] at h
    split at h
    · next q hq =>
      have hlt := fetchStep_work h
      simpa [AppState.work, hq, FetchCall.work] using hlt
    · cases h
  | store r event =>
    cases ho
    simp only [step] at h
    split at h
    · next phase hp =>
      have hlt := storeStep_work h
      simpa [AppState.work, hp, StoreCall.work] using hlt
    · cases h
  | attempts r event =>
    cases ho
    simp only [step] at h
    split at h
    · next phase hp =>
      have hlt := attemptsStep_work h
      simpa [AppState.work, hp, AttemptsCall.work] using hlt
    · cases h
  | fetchArrives | storeArrives | attemptsArrives | info | sweep => cases ho

/-- A step leaves the work of the other calls alone. -/
theorem step_work_of_ne [BucketNumber F] (h : step P cfg s event = some (s', os)) {call : Call}
    (hne : event.call ≠ some call) : s'.work call = s.work call := by
  have hsame := step_sameCall h hne
  cases call with
  | fetch r | store r | attempts r =>
    simp only [AppState.work]
    rw [hsame]
  | info r => rfl

/-- The call of an event that is no arrival is the one in flight, if it has work at all. -/
theorem Event.owner_of_call {call : Call} (harrival : event.isArrival = false)
    (hcall : event.call = some call) : event.owner = some call ∨ ∃ r, call = .info r := by
  cases event with
  | fetch | store | attempts => exact Or.inl hcall
  | info r => exact Or.inr ⟨r, (Option.some.inj hcall).symm⟩
  | sweep => cases hcall
  | fetchArrives | storeArrives | attemptsArrives => cases harrival

/-- Without arrivals, the work left is spent step by step. -/
theorem ranked [BucketNumber F] (P : Primitives) (cfg : Config) :
    Draining.Ranked (stepWithPermits (F := F) P cfg) (fun event => event.isArrival = false)
      Event.owner fun s => s.1.work := by
  constructor
  · intro s event t os call h _ ho
    exact step_work_lt (Semaphore.guarded_eq_some.mp h).2 ho
  · intro s event t os call h harrival hne
    have hs := (Semaphore.guarded_eq_some.mp h).2
    by_cases hcall : event.call = some call
    · obtain ho | ⟨r, rfl⟩ := Event.owner_of_call harrival hcall
      · exact absurd ho hne
      · rfl
    · exact step_work_of_ne hs hcall

/-! ## No call waits in a circle -/

/-- Whoever holds the lock of the snapshot is at work under it. -/
def HolderWorks (s : AppState F) : Prop :=
  ∀ r, s.snapshotHolder = some r →
    ∃ phase, s.polls r = some (.active phase) ∧ phase.holdsLock = true

theorem PollEffect.holderWorks (he : PollEffect P cfg s s' event) (h : HolderWorks s) :
    HolderWorks s' := by
  -- The holder is another request, which stays where it is.
  have hother : ∀ {r : ReqId} {call : AttemptsCall},
      s'.polls = Function.update s.polls r (some call) → s'.snapshotHolder = s.snapshotHolder →
      (∀ phase, s.polls r = some (.active phase) → phase.holdsLock = false) → HolderWorks s' := by
    intro r call hpolls hholder hnot r' hr'
    obtain ⟨phase, hp, hlock⟩ := h r' (hholder ▸ hr')
    have hr : r' ≠ r := by
      rintro rfl
      rw [hnot phase hp] at hlock
      cases hlock
    exact ⟨phase, by rw [hpolls, Function.update_of_ne hr, hp], hlock⟩
  -- The holder is the request of the step, which stays under the lock.
  have hself : ∀ {r : ReqId} {phase : AttemptsPhase},
      s'.polls = Function.update s.polls r (some (.active phase)) → phase.holdsLock = true →
      (∀ r', s'.snapshotHolder = some r' → r' ≠ r → s.snapshotHolder = some r') →
      HolderWorks s' := by
    intro r phase hpolls hlock hothers r' hr'
    by_cases hr : r' = r
    · subst hr
      exact ⟨phase, by rw [hpolls, Function.update_self], hlock⟩
    · obtain ⟨phase', hp, hlock'⟩ := h r' (hothers r' hr' hr)
      exact ⟨phase', by rw [hpolls, Function.update_of_ne hr, hp], hlock'⟩
  have hfree : s'.snapshotHolder = none → HolderWorks s' := by
    intro hnone r hr
    rw [hnone] at hr
    cases hr
  cases he with
  | elsewhere hsame =>
    intro r hr
    rw [hsame.polls]
    exact h r (hsame.holder ▸ hr)
  | waits r call hbefore _ hpolls _ hholder =>
    exact hother hpolls hholder fun phase hp => (hbefore phase hp).1
  | starts r tag now utc later _ _ _ _ hpolls _ hholder =>
    refine hself hpolls rfl fun r' hr' hne => ?_
    rw [hholder] at hr'
    exact absurd (Option.some.inj hr').symm hne
  | scans r tag now order entries _ _ _ hpolls _ hholder =>
    exact hself hpolls rfl fun r' hr' _ => hholder ▸ hr'
  | compresses r tag payload succeeds createdAt _ _ hpolls _ hholder =>
    exact hself hpolls rfl fun r' hr' _ => hholder ▸ hr'
  | panics _ _ _ _ _ _ _ _ _ hholder => exact hfree hholder
  | publishes _ _ _ _ _ _ hholder => exact hfree hholder
  | leaves _ _ _ _ _ _ _ _ _ hholder => exact hfree hholder
  | ends r payload hphase hpolls _ hholder =>
    refine hother hpolls hholder fun phase hp => ?_
    rw [hphase] at hp
    cases hp
    rfl

section runs

variable [BucketNumber F]

theorem Served.holderWorks (h : Served P cfg log s) : HolderWorks s :=
  h.invariant (fun _ s => HolderWorks s) (fun _ _ _ _ r hr => by cases hr)
    fun _ _ _ _ _ _ hi he => (step_pollEffect he).holderWorks hi

/-- The requests in flight are finitely many. -/
theorem Served.inFlight_finite (h : Served P cfg log s) :
    (Draining.inFlight AppState.work s).Finite := by
  refine h.invariant (fun _ s => (Draining.inFlight AppState.work s).Finite) ?_ ?_
  · intro secrets b₁ b₂ b₃
    refine Set.Finite.subset Set.finite_empty fun call hc => ?_
    cases call <;> exact absurd rfl hc
  · intro log s event s' os _ hi he
    refine (hi.union (Set.finite_singleton (event.call.getD (.info 0)))).subset fun call hc => ?_
    by_cases hcall : event.call = some call
    · exact Or.inr (by rw [hcall]; rfl)
    · refine Or.inl fun hzero => hc ?_
      rw [step_work_of_ne he hcall]
      exact hzero

theorem ServedWithPermits.served {left : ℕ} (h : ServedWithPermits P cfg log s left) :
    Served P cfg log s := by
  obtain ⟨secrets, b₁, b₂, b₃, events, hr⟩ := h
  exact ⟨secrets, b₁, b₂, b₃, events, (Semaphore.run_conserved (tracksPermits P cfg) hr).2⟩

theorem ServedWithPermits.conserved {left : ℕ} (h : ServedWithPermits P cfg log s left) :
    s.permitHolders.encard + left = cfg.databaseMaxConcurrency := by
  obtain ⟨secrets, b₁, b₂, b₃, events, hr⟩ := h
  rw [(Semaphore.run_conserved (tracksPermits P cfg) hr).1, permitHolders_init, Set.encard_empty,
    zero_add]

theorem ServedWithPermits.step {left left' : ℕ} (h : ServedWithPermits P cfg log s left)
    (hs : stepWithPermits P cfg (s, left) event = some ((s', left'), os)) :
    ServedWithPermits P cfg (os ++ log) s' left' := by
  obtain ⟨secrets, b₁, b₂, b₃, events, hr⟩ := h
  exact ⟨secrets, b₁, b₂, b₃, events ++ [event],
    Machine.run_append_eq_some.mpr ⟨(s, left), log, os, hr, Machine.run_singleton hs, rfl⟩⟩

/-- A step of the server that needs no permit is one beside the semaphore. -/
theorem stepWithPermits_of_ne (left : ℕ) (h : RecoverBull.step P cfg s event = some (s', os))
    (hu : permitUse s event ≠ .acquires) :
    ∃ left', stepWithPermits P cfg (s, left) event = some ((s', left'), os) := by
  obtain ⟨left', hafter⟩ := Option.ne_none_iff_exists'.mp
    (mt Semaphore.Use.after_eq_none.mp fun hn => hu hn.1 : (permitUse s event).after left ≠ none)
  exact ⟨left', Semaphore.guarded_eq_some.mpr ⟨hafter, h⟩⟩

/-! ### What a call does next -/

/-- The event is a step of a call in flight, on which no client leaves, no task is
lost, no wait for a permit runs out and nothing fails. -/
def Event.helps : Event → Bool
  | .fetch _ .loseTask | .fetch _ (.cancel _) | .fetch _ (.permit false) => false
  | .fetch _ (.query outcome) => outcome == .runs
  | .store _ .cancel | .store _ (.permit false) => false
  | .store _ (.write outcome) => outcome == .runs
  | .attempts _ .cancel | .attempts _ (.compress false _) => false
  | event => event.owner.isSome

/-- The step a lookup waits to take. -/
def FetchPhase.next : FetchPhase → FetchEvent
  | .bucket => .takeToken 0
  | .clock => .readClock 0
  | .mapLock _ => .enter
  | .permit _ => .permit true
  | .refund _ | .lostRefund _ | .deferred _ => .removePending
  | .working _ _ .blocking => .query .runs
  | .working _ _ (.finalizing _) => .finalize
  | .working _ _ (.finished _) | .working _ _ .lost => .respond

def StorePhase.next : StorePhase → StoreEvent
  | .bucket _ _ => .takeToken 0
  | .clock _ _ => .readClock 0
  | .permit _ => .permit true
  | .writing _ _ => .write .runs
  | .written _ _ => .respond

def AttemptsPhase.next : AttemptsPhase → AttemptsEvent
  | .bucket _ => .takeToken 0
  | .snapshotLock _ => .lockSnapshot 0 0 0
  | .mapLock _ _ => .collect .byKey
  | .compressing _ _ | .orphaned _ => .compress true 0
  | .built _ _ => .publish 0

/-- A lookup with work left can take its next step, but for the permit. -/
theorem fetch_next (P : Primitives) (cfg : Config) {r : ReqId} {q : Lookup} (hq : s.fetches r = some (.active q))
    (hwork : q.phase.work ≠ 0) :
    ∃ s' os, step P cfg s (.fetch r q.phase.next) = some (s', os) := by
  suffices h : (fetchStep cfg s r q q.phase.next).isSome = true by
    obtain ⟨⟨s', os⟩, h⟩ := Option.isSome_iff_exists.mp h
    exact ⟨s', os, by rw [step, hq]; exact h⟩
  rcases q with ⟨trash, id, candidate, phase⟩
  cases phase with
  | working a client task =>
    cases client <;> cases task
    all_goals first
      | exact absurd rfl hwork
      | (simp only [FetchPhase.next, fetchStep]; try split) <;> rfl
  | bucket | clock | mapLock | permit | refund | lostRefund | deferred => rfl

theorem store_next (P : Primitives) (cfg : Config) {r : ReqId} {phase : StorePhase} (hp : s.stores r = some (.active phase))
    (hwork : phase.work ≠ 0) :
    ∃ s' os, step P cfg s (.store r phase.next) = some (s', os) := by
  suffices h : (storeStep P s r phase phase.next).isSome = true by
    obtain ⟨⟨s', os⟩, h⟩ := Option.isSome_iff_exists.mp h
    exact ⟨s', os, by rw [step, hp]; exact h⟩
  cases phase with
  | written client isStored =>
    cases client with
    | false => exact absurd rfl hwork
    | true => rfl
  | bucket | clock | permit | writing =>
    simp only [StorePhase.next, storeStep]
    repeat' split
    all_goals rfl

/-- A poll can take its next step, unless it waits for the lock of the snapshot. -/
theorem attempts_next (P : Primitives) (cfg : Config) {r : ReqId} {phase : AttemptsPhase}
    (hp : s.polls r = some (.active phase))
    (hlock : ∀ tag, phase = .snapshotLock tag → s.snapshotHolder = none) :
    ∃ s' os, step P cfg s (.attempts r phase.next) = some (s', os) := by
  suffices h : (attemptsStep P cfg s r phase phase.next).isSome = true by
    obtain ⟨⟨s', os⟩, h⟩ := Option.isSome_iff_exists.mp h
    exact ⟨s', os, by rw [step, hp]; exact h⟩
  cases phase with
  | snapshotLock tag =>
    simp only [AttemptsPhase.next, attemptsStep, lockSnapshot, hlock tag rfl, Option.isSome_none,
      Bool.false_eq_true, if_false]
    split <;> rfl
  | bucket | mapLock | compressing | built | orphaned => rfl

theorem FetchPhase.next_helps (phase : FetchPhase) (r : ReqId) :
    (Event.fetch r phase.next).helps = true := by
  cases phase with
  | working a client task => cases task <;> rfl
  | bucket | clock | mapLock | permit | refund | lostRefund | deferred => rfl

theorem StorePhase.next_helps (phase : StorePhase) (r : ReqId) :
    (Event.store r phase.next).helps = true := by
  cases phase <;> rfl

theorem AttemptsPhase.next_helps (phase : AttemptsPhase) (r : ReqId) :
    (Event.attempts r phase.next).helps = true := by
  cases phase <;> rfl

/-- Some call in flight can take a step, on the state the server is in. -/
def CanHelp (P : Primitives) (cfg : Config) (s : AppState F) (left : ℕ) : Prop :=
  ∃ event s' left' os, event.helps = true ∧
    stepWithPermits P cfg (s, left) event = some ((s', left'), os)

omit [BucketNumber F] in
/-- What a closure with a permit does next is its query. -/
theorem FetchPhase.next_of_holdsPermit {phase : FetchPhase} (h : phase.holdsPermit = true) :
    phase.work ≠ 0 ∧ phase.next = .query .runs := by
  unfold FetchPhase.holdsPermit at h
  split at h
  · next a client =>
    refine ⟨?_, rfl⟩
    cases client <;> simp [FetchPhase.work, Task.work]
  · cases h

omit [BucketNumber F] in
theorem StorePhase.next_of_holdsPermit {phase : StorePhase} (h : phase.holdsPermit = true) :
    phase.work ≠ 0 ∧ phase.next = .write .runs := by
  unfold StorePhase.holdsPermit at h
  split at h
  · next key client =>
    refine ⟨?_, rfl⟩
    cases client <;> simp [StorePhase.work]
  · cases h

/-- A closure that holds a permit can run. -/
theorem canHelp_of_holder {call : Call} (h : s.holdsPermit call = true) (left : ℕ) :
    CanHelp P cfg s left := by
  cases call with
  | fetch r =>
    simp only [AppState.holdsPermit, Option.any_eq_true] at h
    obtain ⟨call, hf, hholds⟩ := h
    rcases call with q | _
    · obtain ⟨hwork, hnext⟩ := FetchPhase.next_of_holdsPermit hholds
      obtain ⟨s', os, hs⟩ := fetch_next P cfg hf hwork
      obtain ⟨left', hstep⟩ := stepWithPermits_of_ne left hs
        (by rw [hnext]; exact Semaphore.Use.noConfusion)
      exact ⟨_, s', left', os, q.phase.next_helps r, hstep⟩
    · cases hholds
  | store r =>
    simp only [AppState.holdsPermit, Option.any_eq_true] at h
    obtain ⟨call, hst, hholds⟩ := h
    rcases call with phase | _
    · obtain ⟨hwork, hnext⟩ := StorePhase.next_of_holdsPermit hholds
      obtain ⟨s', os, hs⟩ := store_next P cfg hst hwork
      obtain ⟨left', hstep⟩ := stepWithPermits_of_ne left hs
        (by rw [hnext]; exact Semaphore.Use.noConfusion)
      exact ⟨_, s', left', os, phase.next_helps r, hstep⟩
    · cases hholds
  | attempts | info => cases h

/-- A step that only a permit may be missing for can be taken, or a holder can run. -/
theorem canHelp_of_step {left : ℕ} (h : ServedWithPermits P cfg log s left)
    (hs : RecoverBull.step P cfg s event = some (s', os)) (hhelps : event.helps = true) :
    CanHelp P cfg s left := by
  cases hafter : (permitUse s event).after left with
  | some left' => exact ⟨event, s', left', os, hhelps, Semaphore.guarded_eq_some.mpr ⟨hafter, hs⟩⟩
  | none =>
    -- No permit is left, so that all of them are held.
    obtain ⟨-, rfl⟩ := Semaphore.Use.after_eq_none.mp hafter
    have hcount := h.conserved
    have hpos := (validateCapacity_eq_ok.mp cfg.capacity_valid).2.2.1
    have hne : s.permitHolders.encard ≠ 0 := by
      rw [Nat.cast_zero, add_zero] at hcount
      rw [hcount]
      exact Nat.cast_ne_zero.mpr hpos.ne'
    obtain ⟨call, hholder⟩ := Set.encard_ne_zero.mp hne
    exact canHelp_of_holder hholder 0

/-- **No deadlock.** While a call has work left, some call in flight can take a step. -/
theorem ServedWithPermits.canHelp {left : ℕ} (h : ServedWithPermits P cfg log s left) {call : Call}
    (hwork : s.work call ≠ 0) : CanHelp P cfg s left := by
  cases call with
  | fetch r =>
    rcases hf : s.fetches r with _ | q | _
    · simp [AppState.work, hf] at hwork
    · obtain ⟨s', os, hs⟩ := fetch_next P cfg hf
        (by simpa [AppState.work, hf, FetchCall.work] using hwork)
      exact canHelp_of_step h hs (q.phase.next_helps r)
    · simp [AppState.work, hf, FetchCall.work] at hwork
  | store r =>
    rcases hst : s.stores r with _ | phase | _
    · simp [AppState.work, hst] at hwork
    · obtain ⟨s', os, hs⟩ := store_next P cfg hst
        (by simpa [AppState.work, hst, StoreCall.work] using hwork)
      exact canHelp_of_step h hs (phase.next_helps r)
    · simp [AppState.work, hst, StoreCall.work] at hwork
  | attempts r =>
    -- Whoever holds the lock of the snapshot is under it, and waits for nothing.
    have hlocked : ∀ {r : ReqId} {phase : AttemptsPhase}, s.polls r = some (.active phase) →
        (∀ tag, phase = .snapshotLock tag → s.snapshotHolder = none) → CanHelp P cfg s left := by
      intro r phase hp hlock
      obtain ⟨s', os, hs⟩ := attempts_next P cfg hp hlock
      exact canHelp_of_step h hs (phase.next_helps r)
    rcases hp : s.polls r with _ | phase | _
    · simp [AppState.work, hp] at hwork
    · cases hholder : s.snapshotHolder with
      | none => exact hlocked hp fun _ _ => hholder
      | some r' =>
        obtain ⟨phase', hp', hlock⟩ := h.served.holderWorks r' hholder
        refine hlocked hp' fun tag htag => ?_
        rw [htag] at hlock
        cases hlock
    · simp [AppState.work, hp, AttemptsCall.work] at hwork
  | info r => exact absurd rfl hwork

/-! ### Rest -/

/-- No call has anything left to do. -/
def AppState.AtRest (s : AppState F) : Prop := Draining.AtRest AppState.work s

omit [BucketNumber F] in
/-- At rest no call holds a permit. -/
theorem AppState.AtRest.permitHolders (h : s.AtRest) : s.permitHolders = ∅ := by
  refine Set.eq_empty_iff_forall_notMem.mpr fun call hm => ?_
  have hholds : s.holdsPermit call = true := hm
  have hzero := h call
  cases call with
  | fetch r =>
    simp only [AppState.holdsPermit, Option.any_eq_true] at hholds
    obtain ⟨call, hf, hholds⟩ := hholds
    simp only [AppState.work, hf, Option.elim_some] at hzero
    rcases call with q | _
    · exact (FetchPhase.next_of_holdsPermit hholds).1 hzero
    · cases hholds
  | store r =>
    simp only [AppState.holdsPermit, Option.any_eq_true] at hholds
    obtain ⟨call, hst, hholds⟩ := hholds
    simp only [AppState.work, hst, Option.elim_some] at hzero
    rcases call with phase | _
    · exact (StorePhase.next_of_holdsPermit hholds).1 hzero
    · cases hholds
  | attempts | info => cases hholds

/-- At rest every permit is back, and nobody holds the lock of the snapshot. -/
theorem ServedWithPermits.of_atRest {left : ℕ} (h : ServedWithPermits P cfg log s left)
    (hrest : s.AtRest) : left = cfg.databaseMaxConcurrency ∧ s.snapshotHolder = none := by
  constructor
  · have hcount := h.conserved
    rw [hrest.permitHolders, Set.encard_empty, zero_add] at hcount
    exact_mod_cast hcount
  · refine Option.eq_none_iff_forall_ne_some.mpr fun r hr => ?_
    obtain ⟨phase, hp, hlock⟩ := h.served.holderWorks r hr
    have hzero := hrest (.attempts r)
    simp only [AppState.work, hp, Option.elim_some, AttemptsCall.work] at hzero
    cases phase with
    | mapLock | compressing | built => cases hzero
    | bucket | snapshotLock | orphaned => cases hlock

/-- A call of which the schedule has no event has no work. -/
theorem work_of_not_called {secrets : SecretTable} {b₁ b₂ b₃ : TokenBucket F} {events : List Event}
    (hr : run P cfg (.init secrets b₁ b₂ b₃) events = some (s, log))
    (hcalls : ∀ event ∈ events, Event.call event ≠ some call) : s.work call = 0 := by
  refine @Machine.run_history _ _ _ (step P cfg)
    (fun events _ s => (∀ event ∈ events, Event.call event ≠ some call) → s.work call = 0) _
    (fun _ => ?_) ?_ s events log hr hcalls
  · cases call <;> rfl
  · intro events log s event s' os _ hi he hcalls
    rw [step_work_of_ne he (hcalls event (List.mem_append_right _ List.mem_cons_self))]
    exact hi fun event he => hcalls event (List.mem_append_left _ he)

theorem ServedWithPermits.runs {left left' : ℕ} {events : List Event}
    (h : ServedWithPermits P cfg log s left)
    (hr : runWithPermits P cfg (s, left) events = some ((s', left'), os)) :
    ServedWithPermits P cfg (os ++ log) s' left' := by
  obtain ⟨secrets, b₁, b₂, b₃, events', h⟩ := h
  exact ⟨secrets, b₁, b₂, b₃, events' ++ events,
    Machine.run_append_eq_some.mpr ⟨(s, left), log, os, h, hr, rfl⟩⟩

omit [BucketNumber F] in
theorem Event.helps_spec (h : event.helps = true) :
    event.isArrival = false ∧ event.owner.isSome = true := by
  cases event with
  | fetch | store | attempts => exact ⟨rfl, rfl⟩
  | fetchArrives | storeArrives | attemptsArrives | info | sweep => cases h

/-- The runs that only help the calls on lead to rest. -/
theorem drains_to_rest {left : ℕ} (h : ServedWithPermits P cfg log s left)
    (hfin : (Draining.inFlight (fun u : AppState F × ℕ => u.1.work) (s, left)).Finite) :
    ∃ events u os, (∀ event ∈ events, Event.helps event = true) ∧
      Machine.run (stepWithPermits P cfg) (s, left) events = some (u, os) ∧
      Draining.AtRest (fun u : AppState F × ℕ => u.1.work) u ∧
      ∃ log, ServedWithPermits P cfg log u.1 u.2 := by
  refine Draining.drains (ranked P cfg) (fun u => ∃ log, ServedWithPermits P cfg log u.1 u.2)
    (fun event => event.helps = true) ?_ ?_ ?_ ⟨log, h⟩ hfin
  · exact fun event he => (Event.helps_spec he).1
  · rintro ⟨s, left⟩ event ⟨s', left'⟩ os ⟨log, hu⟩ hs -
    exact ⟨_, hu.step hs⟩
  · rintro ⟨s, left⟩ call ⟨log, hu⟩ hwork
    obtain ⟨event, s', left', os, he, hs⟩ := hu.canHelp hwork
    exact ⟨event, (s', left'), os, he, (Event.helps_spec he).2, hs⟩

/-- **A shutdown completes.** Once no request arrives any more, the calls in flight take
at most eight steps each, whatever the schedule; while one of them is not done, some
call can take a step that is no failure; and when all are done, every permit is back
and the lock of the snapshot is free. -/
theorem shutdown_completes (P : Primitives) (cfg : Config) {log : Log} {s : AppState F} {left : ℕ}
    (h : ServedWithPermits P cfg log s left) :
    (∀ events s' left' os, runWithPermits P cfg (s, left) events = some ((s', left'), os) →
      (∀ event ∈ events, event.isArrival = false) →
      events.countP (fun event => event.owner.isSome) ≤
          8 * (Draining.inFlight AppState.work s).ncard ∧
        (s'.AtRest ∨ CanHelp P cfg s' left')) ∧
    (∃ events s' left' os, (∀ event ∈ events, event.helps = true) ∧
      runWithPermits P cfg (s, left) events = some ((s', left'), os) ∧ s'.AtRest) ∧
    (s.AtRest → left = cfg.databaseMaxConcurrency ∧ s.snapshotHolder = none) := by
  have hranked := ranked (F := F) P cfg
  have hsame : Draining.inFlight (fun u : AppState F × ℕ => u.1.work) (s, left) =
      Draining.inFlight AppState.work s := rfl
  have hfin := h.served.inFlight_finite
  rw [← hsame] at hfin ⊢
  refine ⟨fun events s' left' os hr hquiet => ⟨?_, ?_⟩, ?_, h.of_atRest⟩
  · exact Draining.countP_le hranked (fun call => work_le s call) hfin hr hquiet
  · by_cases hrest : s'.AtRest
    · exact Or.inl hrest
    · obtain ⟨call, hwork⟩ := not_forall.mp hrest
      exact Or.inr ((h.runs hr).canHelp hwork)
  · obtain ⟨events, ⟨s', left'⟩, os, hhelps, hr, hrest, -⟩ := drains_to_rest h hfin
    exact ⟨events, s', left', os, hhelps, hr, hrest⟩

end runs

/-- A lookup at work with the only permit, and a poll under the lock of the snapshot. -/
theorem shutdown_completes_sample :
    ∃ (log : Log) (s : AppState ℚ), ServedWithPermits .sample .sample log s 0 ∧
      s.work (.fetch 0) = 4 ∧ s.work (.attempts 1) = 3 ∧
      ∃ events s' left' os, (∀ event ∈ events, event.helps = true) ∧
        runWithPermits .sample .sample (s, 0) events = some ((s', left'), os) ∧ s'.AtRest := by
  have hrun : (runWithPermits .sample .sample (AppState.sample, Config.sample.databaseMaxConcurrency)
      (sampleAdmission 0 false ⟨sampleIdentifier, sampleKey⟩ 0 ++
        .fetch 0 (.permit true) :: samplePoll 1 0)).any
      (fun u => decide (u.1.2 = 0 ∧ u.1.1.work (.fetch 0) = 4 ∧ u.1.1.work (.attempts 1) = 3)) =
        true := by
    decide +kernel
  obtain ⟨⟨⟨s, left⟩, log⟩, hr, hwork⟩ := (Option.any_eq_true _ _).mp hrun
  obtain ⟨rfl, hfetch, hpoll⟩ := of_decide_eq_true hwork
  have hs : ServedWithPermits .sample .sample log s 0 := ⟨_, _, _, _, _, hr⟩
  exact ⟨log, s, hs, hfetch, hpoll, (shutdown_completes .sample .sample hs).2.1⟩

end RecoverBull
