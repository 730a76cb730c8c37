import RecoverBull.Server.Calls

/-!
# What a step can do to the `/attempts` requests

`PollEffect` lists what a step of the server can do to the requests for the
snapshot, to the cached snapshot and to its lock, and `step_pollEffect` that it
lists everything.
-/

namespace RecoverBull

variable {F : Type} {P : Primitives} {cfg : Config} {s s' : AppState F} {os : Log} {event : Event}

/-- The request holds the lock of `attempts_snapshot`. -/
def AttemptsPhase.holdsLock : AttemptsPhase → Bool
  | .mapLock _ _ | .compressing _ _ | .built _ _ => true
  | .bucket _ | .snapshotLock _ | .orphaned _ => false

/-- The build of the request is under way, or runs on without it. -/
def AttemptsPhase.building : AttemptsPhase → Bool
  | .mapLock _ _ | .compressing _ _ | .orphaned _ => true
  | .bucket _ | .snapshotLock _ | .built _ _ => false

def BuildResult.snapshot : BuildResult → Option AttemptsSnapshotCache
  | .built snapshot => some snapshot
  | .failed => none

/-- The step is none of an `/attempts` request. -/
structure SamePolls (s s' : AppState F) : Prop where
  polls : s'.polls = s.polls
  snapshot : s'.attemptsSnapshot = s.attemptsSnapshot
  holder : s'.snapshotHolder = s.snapshotHolder

inductive PollEffect (P : Primitives) (cfg : Config) (s s' : AppState F) (event : Event) : Prop
  | elsewhere (h : SamePolls s s')
  /-- A request that has no part in a build. -/
  | waits (r : ReqId) (call : AttemptsCall)
      (hbefore : ∀ phase, s.polls r = some (.active phase) →
        phase.holdsLock = false ∧ phase.building = false)
      (hafter : ∀ phase, call = .active phase → phase.holdsLock = false ∧ phase.building = false)
      (hpolls : s'.polls = Function.update s.polls r (some call))
      (hsnapshot : s'.attemptsSnapshot = s.attemptsSnapshot)
      (hholder : s'.snapshotHolder = s.snapshotHolder)
  | starts (r : ReqId) (tag : Option String) (now : ℕ) (utc : ℤ) (later : ℕ)
      (hevent : event = .attempts r (.lockSnapshot now utc later))
      (hphase : s.polls r = some (.active (.snapshotLock tag))) (hfree : s.snapshotHolder = none)
      (hstale : ∀ snapshot, s.attemptsSnapshot = some snapshot → isStale cfg snapshot now = true)
      (hpolls : s'.polls = Function.update s.polls r (some (.active (.mapLock tag utc))))
      (hsnapshot : s'.attemptsSnapshot = s.attemptsSnapshot) (hholder : s'.snapshotHolder = some r)
  | scans (r : ReqId) (tag : Option String) (now : ℤ) (order : IterationOrder)
      (entries : List AttemptEntry) (hevent : event = .attempts r (.collect order))
      (hphase : s.polls r = some (.active (.mapLock tag now)))
      (hentries : collectEntries order s'.identifierRateLimit = some entries)
      (hpolls : s'.polls = Function.update s.polls r
        (some (.active (.compressing tag (snapshotPayload cfg entries)))))
      (hsnapshot : s'.attemptsSnapshot = s.attemptsSnapshot)
      (hholder : s'.snapshotHolder = s.snapshotHolder)
  | panics (r : ReqId) (tag : Option String) (now : ℤ) (order : IterationOrder)
      (hevent : event = .attempts r (.collect order))
      (hphase : s.polls r = some (.active (.mapLock tag now)))
      (hnone : collectEntries order s'.identifierRateLimit = none)
      (hpolls : s'.polls = Function.update s.polls r (some .over))
      (hsnapshot : s'.attemptsSnapshot = s.attemptsSnapshot) (hholder : s'.snapshotHolder = none)
  | compresses (r : ReqId) (tag : Option String) (payload : AttemptsSnapshot) (succeeds : Bool)
      (createdAt : ℕ) (hevent : event = .attempts r (.compress succeeds createdAt))
      (hphase : s.polls r = some (.active (.compressing tag payload)))
      (hpolls : s'.polls = Function.update s.polls r (some (.active (.built tag
        (if succeeds then .built (compressSnapshot P payload createdAt) else .failed)))))
      (hsnapshot : s'.attemptsSnapshot = s.attemptsSnapshot)
      (hholder : s'.snapshotHolder = s.snapshotHolder)
  | publishes (r : ReqId) (tag : Option String) (result : BuildResult)
      (hphase : s.polls r = some (.active (.built tag result)))
      (hpolls : s'.polls = Function.update s.polls r (some .over))
      (hsnapshot : s'.attemptsSnapshot = result.snapshot.or s.attemptsSnapshot)
      (hholder : s'.snapshotHolder = none)
  /-- The client of a build goes away. -/
  | leaves (r : ReqId) (phase : AttemptsPhase) (call : AttemptsCall)
      (hevent : event = .attempts r .cancel) (hphase : s.polls r = some (.active phase))
      (hlock : phase.holdsLock = true)
      (hafter : ∀ phase', call = .active phase' → ∃ tag payload,
        phase = .compressing tag payload ∧ phase' = .orphaned payload)
      (hpolls : s'.polls = Function.update s.polls r (some call))
      (hsnapshot : s'.attemptsSnapshot = s.attemptsSnapshot) (hholder : s'.snapshotHolder = none)
  /-- A job whose client has left comes to its end. -/
  | ends (r : ReqId) (payload : AttemptsSnapshot)
      (hphase : s.polls r = some (.active (.orphaned payload)))
      (hpolls : s'.polls = Function.update s.polls r (some .over))
      (hsnapshot : s'.attemptsSnapshot = s.attemptsSnapshot)
      (hholder : s'.snapshotHolder = s.snapshotHolder)

theorem lockSnapshot_pollEffect {r : ReqId} {tag : Option String} {now : ℕ} {utc : ℤ} {later : ℕ}
    (hphase : s.polls r = some (.active (.snapshotLock tag)))
    (h : lockSnapshot cfg s r tag now utc later = some (s', os)) :
    PollEffect P cfg s s' (.attempts r (.lockSnapshot now utc later)) := by
  unfold lockSnapshot at h
  split at h
  · cases h
  · next hfree =>
    split at h <;> cases h
    · refine .waits r .over ?_ (fun _ => AttemptsCall.noConfusion) rfl rfl rfl
      intro phase hp
      rw [hphase] at hp
      cases hp
      exact ⟨rfl, rfl⟩
    · next hnone =>
      refine .starts r tag now utc later rfl hphase (Option.not_isSome_iff_eq_none.mp hfree) ?_
        rfl rfl rfl
      intro snapshot hs
      have hout := Option.filter_eq_none_iff.mp hnone snapshot hs
      simpa using hout

section steps

variable [BucketNumber F] {r : ReqId}

theorem fetchStep_polls {q : Lookup} {event : FetchEvent}
    (h : fetchStep cfg s r q event = some (s', os)) :
    SamePolls s s' ∧ s'.attemptsTokenBucket = s.attemptsTokenBucket := by
  cases event <;> simp only [fetchStep, takeLookupToken, enterMap, cancelFetch, dropGuard] at h
  all_goals repeat' split at h
  all_goals cases h
  all_goals exact ⟨⟨rfl, rfl, rfl⟩, rfl⟩

theorem storeStep_polls {phase : StorePhase} {event : StoreEvent}
    (h : storeStep P s r phase event = some (s', os)) :
    SamePolls s s' ∧ s'.attemptsTokenBucket = s.attemptsTokenBucket := by
  cases event <;> simp only [storeStep] at h
  all_goals repeat' split at h
  all_goals cases h
  all_goals exact ⟨⟨rfl, rfl, rfl⟩, rfl⟩

/-- The requests for secrets leave the polls alone. -/
theorem step_polls (h : step P cfg s event = some (s', os))
    (hcall : ∀ r, event.call ≠ some (.attempts r)) :
    SamePolls s s' ∧ s'.attemptsTokenBucket = s.attemptsTokenBucket := by
  cases event with
  | fetch r event =>
    simp only [step] at h
    split at h
    · exact fetchStep_polls h
    · cases h
  | store r event =>
    simp only [step] at h
    split at h
    · exact storeStep_polls h
    · cases h
  | attemptsArrives r tag | attempts r event => exact absurd rfl (hcall r)
  | fetchArrives | storeArrives | info | sweep =>
    simp only [step, fetchArrives, storeArrives] at h
    repeat' split at h
    all_goals cases h
    all_goals exact ⟨⟨rfl, rfl, rfl⟩, rfl⟩

theorem attemptsStep_pollEffect {phase : AttemptsPhase} {event : AttemptsEvent}
    (hphase : s.polls r = some (.active phase))
    (h : attemptsStep P cfg s r phase event = some (s', os)) :
    PollEffect P cfg s s' (.attempts r event) := by
  -- The request waits for a token or the lock.
  have hwaits : ∀ call : AttemptsCall, phase.holdsLock = false ∧ phase.building = false →
      (∀ phase, call = .active phase → phase.holdsLock = false ∧ phase.building = false) →
      s'.polls = Function.update s.polls r (some call) →
      s'.attemptsSnapshot = s.attemptsSnapshot → s'.snapshotHolder = s.snapshotHolder →
      PollEffect P cfg s s' (.attempts r event) := by
    intro call hbefore hafter hpolls hsnapshot hholder
    refine .waits r call (fun phase' hp => ?_) hafter hpolls hsnapshot hholder
    rw [hphase] at hp
    cases hp
    exact hbefore
  cases event with
  | takeToken now =>
    simp only [attemptsStep] at h
    split at h
    · simp only [takeAttemptsToken] at h
      split at h <;> cases h
      · refine hwaits _ ⟨rfl, rfl⟩ ?_ rfl rfl rfl
        intro phase hp
        cases hp
        exact ⟨rfl, rfl⟩
      · exact hwaits .over ⟨rfl, rfl⟩ (fun _ => AttemptsCall.noConfusion) rfl rfl rfl
    · cases h
  | lockSnapshot now utc later =>
    simp only [attemptsStep] at h
    split at h
    · exact lockSnapshot_pollEffect hphase h
    · cases h
  | collect order =>
    simp only [attemptsStep] at h
    split at h
    · simp only [collectSnapshot] at h
      split at h <;> cases h
      · next hnone => exact .panics r _ _ order rfl hphase hnone rfl rfl rfl
      · next entries hentries => exact .scans r _ _ order entries rfl hphase hentries rfl rfl rfl
    · cases h
  | compress succeeds createdAt =>
    simp only [attemptsStep] at h
    split at h <;> cases h
    · exact .compresses r _ _ succeeds createdAt rfl hphase rfl rfl rfl
    · exact .ends r _ hphase rfl rfl rfl
  | publish now =>
    simp only [attemptsStep] at h
    split at h
    · next tag result =>
      cases result with
      | built snapshot =>
        cases h
        exact .publishes r tag (.built snapshot) hphase rfl rfl rfl
      | failed =>
        cases h
        exact .publishes r tag .failed hphase rfl rfl rfl
    · cases h
  | cancel =>
    simp only [attemptsStep] at h
    split at h <;> cases h
    · exact hwaits .over ⟨rfl, rfl⟩ (fun _ => AttemptsCall.noConfusion) rfl rfl rfl
    · exact hwaits .over ⟨rfl, rfl⟩ (fun _ => AttemptsCall.noConfusion) rfl rfl rfl
    · exact .leaves r _ .over rfl hphase rfl (fun _ => AttemptsCall.noConfusion) rfl
        rfl rfl
    · exact .leaves r _ .over rfl hphase rfl (fun _ => AttemptsCall.noConfusion) rfl
        rfl rfl
    · refine .leaves r _ _ rfl hphase rfl (fun phase' hp => ?_) rfl rfl rfl
      cases hp
      exact ⟨_, _, rfl, rfl⟩

theorem step_pollEffect (h : step P cfg s event = some (s', os)) :
    PollEffect P cfg s s' event := by
  cases event with
  | fetchArrives | fetch | storeArrives | store | info | sweep =>
    exact .elsewhere (step_polls h (by simp [Event.call])).1
  | attemptsArrives r ifNoneMatch =>
    simp only [step] at h
    split at h <;> cases h
    next hfree =>
      refine .waits r _ (fun phase hp => ?_) (fun phase hp => ?_) rfl rfl rfl
      · rw [hp] at hfree
        exact absurd rfl hfree
      · cases hp
        exact ⟨rfl, rfl⟩
  | attempts r event =>
    simp only [step] at h
    split at h
    · next phase hphase => exact attemptsStep_pollEffect hphase h
    · cases h

end steps

end RecoverBull
