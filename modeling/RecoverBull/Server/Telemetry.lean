import RecoverBull.Server.Frame
import RecoverBull.Server.SingleFlight
import RecoverBull.Server.Snapshot

/-!
# What the pollers see

Every answer from the snapshot is the picture of the map at one moment of the run, the
one at which its build scanned it, and answers never go back to an older moment.
-/

namespace RecoverBull

variable {F : Type} {P : Primitives} {cfg : Config} {s s' : AppState F} {os log : Log}
  {event : Event}

/-! ## One request under the lock -/

/-- Whoever is in a phase under the lock of the snapshot holds it. -/
def LockHeld (s : AppState F) : Prop :=
  ∀ r phase, s.polls r = some (.active phase) → phase.holdsLock = true → s.snapshotHolder = some r

/-- A step of one request that leaves it where the holder says. -/
theorem LockHeld.of_update (h : LockHeld s) {r : ReqId} {call : AttemptsCall}
    (hpolls : s'.polls = Function.update s.polls r (some call))
    (hself : ∀ phase, call = .active phase → phase.holdsLock = true → s'.snapshotHolder = some r)
    (hothers : ∀ r', r' ≠ r → s.snapshotHolder = some r' → s'.snapshotHolder = some r') :
    LockHeld s' := by
  intro r' phase hp hlock
  rw [hpolls] at hp
  by_cases hr : r' = r
  · subst hr
    rw [Function.update_self] at hp
    exact hself phase (Option.some.inj hp) hlock
  · rw [Function.update_of_ne hr] at hp
    exact hothers r' hr (h r' phase hp hlock)

theorem PollEffect.lockHeld (he : PollEffect P cfg s s' event) (h : LockHeld s) : LockHeld s' := by
  -- Where the lock is released, its holder was the request of the step.
  have hrelease : ∀ {r : ReqId} {phase : AttemptsPhase}, s.polls r = some (.active phase) →
      phase.holdsLock = true → ∀ r', r' ≠ r → s.snapshotHolder = some r' →
      s'.snapshotHolder = some r' := by
    intro r phase hp hlock r' hr hholder
    rw [h r phase hp hlock] at hholder
    exact absurd (Option.some.inj hholder).symm hr
  cases he with
  | elsewhere hsame =>
    intro r phase hp hlock
    rw [hsame.polls] at hp
    rw [hsame.holder]
    exact h r phase hp hlock
  | waits r call _ hafter hpolls _ hholder =>
    refine h.of_update hpolls (fun phase hp hlock => ?_) fun r' _ ho => hholder.trans ho
    rw [(hafter phase hp).1] at hlock
    cases hlock
  | starts r tag now utc later _ _ hfree _ hpolls _ hholder =>
    refine h.of_update hpolls (fun _ _ _ => hholder) fun r' _ ho => ?_
    rw [hfree] at ho
    cases ho
  | scans r tag now order entries _ hphase _ hpolls _ hholder =>
    exact h.of_update hpolls (fun _ _ _ => hholder.trans (h r _ hphase rfl))
      fun r' _ ho => hholder.trans ho
  | compresses r tag payload succeeds createdAt _ hphase hpolls _ hholder =>
    exact h.of_update hpolls (fun _ _ _ => hholder.trans (h r _ hphase rfl))
      fun r' _ ho => hholder.trans ho
  | panics r tag now order _ hphase _ hpolls =>
    exact h.of_update hpolls (fun _ => AttemptsCall.noConfusion) (hrelease hphase rfl)
  | publishes r tag result hphase hpolls =>
    exact h.of_update hpolls (fun _ => AttemptsCall.noConfusion) (hrelease hphase rfl)
  | leaves r phase call _ hphase hlock hafter hpolls =>
    refine h.of_update hpolls (fun phase' hp hlock' => ?_) (hrelease hphase hlock)
    obtain ⟨tag, payload, -, rfl⟩ := hafter phase' hp
    cases hlock'
  | ends r payload _ hpolls _ hholder =>
    exact h.of_update hpolls (fun _ => AttemptsCall.noConfusion) fun r' _ ho => hholder.trans ho

variable [BucketNumber F]

theorem Served.lockHeld (h : Served P cfg log s) : LockHeld s :=
  h.invariant (fun _ s => LockHeld s) (fun _ _ _ _ _ _ hp => by cases hp)
    fun _ _ _ _ _ _ hi he => (step_pollEffect he).lockHeld hi

/-! ## Moments and pictures -/

/-- The event number `k` of the schedule scans the map into `payload`. -/
def Scanned (P : Primitives) (cfg : Config) (s₀ : AppState F) (events : List Event)
    (payload : AttemptsSnapshot) (k : ℕ) : Prop :=
  ∃ s log r tag now order, run P cfg s₀ (events.take k) = some (s, log) ∧
    events[k]? = some (.attempts r (.collect order)) ∧
    s.polls r = some (.active (.mapLock tag now)) ∧
    buildPayload cfg now order s.identifierRateLimit = some payload

theorem Scanned.lt {s₀ : AppState F} {events : List Event} {payload : AttemptsSnapshot} {k : ℕ}
    (h : Scanned P cfg s₀ events payload k) : k < events.length := by
  obtain ⟨s, log, r, tag, now, order, -, hk, -⟩ := h
  exact (List.getElem?_eq_some_iff.mp hk).1

theorem Scanned.append {s₀ : AppState F} {events : List Event} {payload : AttemptsSnapshot} {k : ℕ}
    (h : Scanned P cfg s₀ events payload k) (events' : List Event) :
    Scanned P cfg s₀ (events ++ events') payload k := by
  have hk := h.lt
  obtain ⟨s, log, r, tag, now, order, hr, hevent, hp, hb⟩ := h
  refine ⟨s, log, r, tag, now, order, ?_, ?_, hp, hb⟩
  · rw [List.take_append_of_le_length hk.le]
    exact hr
  · rw [List.getElem?_append_left hk]
    exact hevent

/-- The snapshot was built from the map at moment `k`. -/
def Pictures (P : Primitives) (cfg : Config) (s₀ : AppState F) (events : List Event)
    (snapshot : AttemptsSnapshotCache) (k : ℕ) : Prop :=
  ∃ payload createdAt, Scanned P cfg s₀ events payload k ∧
    snapshot = compressSnapshot P payload createdAt

/-- The answer shows the map at moment `k`: its ETag is that of the payload, and its body
is the payload or, for a client that has it, empty. -/
def Depicts (P : Primitives) (cfg : Config) (s₀ : AppState F) (events : List Event)
    (answer : Response) (k : ℕ) : Prop :=
  ∃ payload, Scanned P cfg s₀ events payload k ∧
    answer.etag = some ("\"" ++ P.sha256Hex (P.gzipJson payload) ++ "\"") ∧
    (answer.status = .ok ∧ answer.body = .gzip (P.gzipJson payload) ∨
      answer.status = .notModified ∧ answer.body = .empty)

theorem Pictures.depicts {s₀ : AppState F} {events : List Event} {snapshot : AttemptsSnapshotCache}
    {k : ℕ} (h : Pictures P cfg s₀ events snapshot k) (tag : Option String) (now : ℕ) :
    Depicts P cfg s₀ events (attemptsResponse cfg snapshot tag now) k := by
  obtain ⟨payload, createdAt, hs, hsnapshot⟩ := h
  have hbody : snapshot.gzipBody = P.gzipJson payload := by rw [hsnapshot]; rfl
  have hetag : snapshot.etag = "\"" ++ P.sha256Hex (P.gzipJson payload) ++ "\"" := by
    rw [hsnapshot]
    rfl
  refine ⟨payload, hs, congrArg some hetag, ?_⟩
  rw [attemptsResponse]
  cases notModified tag snapshot.etag with
  | true => exact Or.inr ⟨rfl, rfl⟩
  | false => exact Or.inl ⟨rfl, congrArg Body.gzip hbody⟩

/-- An answer to `/attempts` that is made from a snapshot. -/
def Obs.picture : Obs → Option Response
  | .response (.attempts _) answer => if answer.etag.isSome then some answer else none
  | _ => none

/-- The answers made from snapshots, newest first. -/
def pictures (log : Log) : List Response := log.filterMap Obs.picture

theorem pictures_append (os log : Log) : pictures (os ++ log) = pictures os ++ pictures log :=
  List.filterMap_append

/-- What a request that builds carries is a picture of a moment since `latest`. -/
def Carries (P : Primitives) (cfg : Config) (s₀ : AppState F) (events : List Event) (latest : ℕ) :
    AttemptsPhase → Prop
  | .compressing _ payload => ∃ k, latest ≤ k ∧ Scanned P cfg s₀ events payload k
  | .built _ (.built snapshot) => ∃ k, latest ≤ k ∧ Pictures P cfg s₀ events snapshot k
  | _ => True

/-- The answers so far, newest first, show the given moments, and what is cached or on
its way is not older. -/
structure Album (P : Primitives) (cfg : Config) (s₀ : AppState F) (events : List Event) (log : Log)
    (s : AppState F) (moments : List ℕ) (latest : ℕ) : Prop where
  answers : List.Forall₂ (Depicts P cfg s₀ events) (pictures log) moments
  sorted : (latest :: moments).Pairwise (· ≥ ·)
  bounded : latest ≤ events.length
  cached : ∀ snapshot, s.attemptsSnapshot = some snapshot →
    Pictures P cfg s₀ events snapshot latest
  carried : ∀ r phase, s.polls r = some (.active phase) → Carries P cfg s₀ events latest phase

section steps

variable {s₀ : AppState F} {events : List Event} {moments : List ℕ} {latest : ℕ}

theorem Pictures.append {snapshot : AttemptsSnapshotCache} {k : ℕ}
    (h : Pictures P cfg s₀ events snapshot k) (events' : List Event) :
    Pictures P cfg s₀ (events ++ events') snapshot k :=
  let ⟨payload, createdAt, hs, hsnapshot⟩ := h
  ⟨payload, createdAt, hs.append events', hsnapshot⟩

theorem Depicts.append {answer : Response} {k : ℕ} (h : Depicts P cfg s₀ events answer k)
    (events' : List Event) : Depicts P cfg s₀ (events ++ events') answer k :=
  let ⟨payload, hs, hanswer⟩ := h
  ⟨payload, hs.append events', hanswer⟩

theorem Carries.append {phase : AttemptsPhase} (h : Carries P cfg s₀ events latest phase)
    (events' : List Event) : Carries P cfg s₀ (events ++ events') latest phase := by
  cases phase with
  | compressing tag payload =>
    obtain ⟨k, hk, hs⟩ := h
    exact ⟨k, hk, hs.append events'⟩
  | built tag result =>
    cases result with
    | built snapshot =>
      obtain ⟨k, hk, hs⟩ := h
      exact ⟨k, hk, hs.append events'⟩
    | failed => trivial
  | bucket | snapshotLock | mapLock | orphaned => trivial

/-- A step that answers nobody from a snapshot and publishes none. -/
theorem Album.of_silent (h : Album P cfg s₀ events log s moments latest) (event : Event)
    (hos : pictures os = []) (hcached : s'.attemptsSnapshot = s.attemptsSnapshot)
    (hcarried : ∀ r phase, s'.polls r = some (.active phase) →
      Carries P cfg s₀ (events ++ [event]) latest phase) :
    Album P cfg s₀ (events ++ [event]) (os ++ log) s' moments latest where
  answers := by
    rw [pictures_append, hos, List.nil_append]
    exact h.answers.imp fun _ _ hd => hd.append [event]
  sorted := h.sorted
  bounded := by
    rw [List.length_append]
    exact Nat.le_add_right_of_le h.bounded
  cached snapshot hs := (h.cached snapshot (hcached ▸ hs)).append [event]
  carried := hcarried

/-- One request moves on. -/
theorem Album.carried_update (h : Album P cfg s₀ events log s moments latest) (event : Event)
    {r : ReqId} {call : AttemptsCall} (hpolls : s'.polls = Function.update s.polls r (some call))
    (hself : ∀ phase, call = .active phase →
      Carries P cfg s₀ (events ++ [event]) latest phase) (r' : ReqId) (phase : AttemptsPhase)
    (hp : s'.polls r' = some (.active phase)) :
    Carries P cfg s₀ (events ++ [event]) latest phase := by
  rw [hpolls] at hp
  by_cases hr : r' = r
  · subst hr
    rw [Function.update_self] at hp
    exact hself phase (Option.some.inj hp)
  · rw [Function.update_of_ne hr] at hp
    exact (h.carried r' phase hp).append [event]

/-- A cached snapshot is handed out once more. -/
theorem Album.of_hit (h : Album P cfg s₀ events log s moments latest) (event : Event) {r : ReqId}
    {snapshot : AttemptsSnapshotCache} (hs : s.attemptsSnapshot = some snapshot)
    (tag : Option String) (now : ℕ) :
    Album P cfg s₀ (events ++ [event])
      (.response (.attempts r) (attemptsResponse cfg snapshot tag now) :: log)
      (s.setPoll r .over) (latest :: moments) latest where
  answers := .cons ((h.cached snapshot hs).append [event] |>.depicts tag now)
    (h.answers.imp fun _ _ hd => hd.append [event])
  sorted := List.pairwise_cons.mpr ⟨fun m hm => by
    obtain rfl | hm := List.mem_cons.mp hm
    · exact le_rfl
    · exact (List.pairwise_cons.mp h.sorted).1 m hm, h.sorted⟩
  bounded := by
    rw [List.length_append]
    exact Nat.le_add_right_of_le h.bounded
  cached snapshot hs := (h.cached snapshot hs).append [event]
  carried := h.carried_update event rfl fun _ => AttemptsCall.noConfusion

/-- A new snapshot is published, and handed out for the first time. -/
theorem Album.of_publication (h : Album P cfg s₀ events log s moments latest) (hheld : LockHeld s)
    (event : Event) {r : ReqId} {tag : Option String} {snapshot : AttemptsSnapshotCache}
    (hp : s.polls r = some (.active (.built tag (.built snapshot)))) (now : ℕ) :
    ∃ latest', Album P cfg s₀ (events ++ [event])
      (.response (.attempts r) (attemptsResponse cfg snapshot tag now) :: log)
      (releaseSnapshot { s with attemptsSnapshot := some snapshot } r .over)
      (latest' :: moments) latest' := by
  obtain ⟨k, hk, hpicture⟩ := h.carried r _ hp
  have hk' : k < events.length := by
    obtain ⟨payload, createdAt, hs, -⟩ := hpicture
    exact hs.lt
  have hsorted := List.pairwise_cons.mp h.sorted
  refine ⟨k, ⟨.cons (hpicture.append [event] |>.depicts tag now)
    (h.answers.imp fun _ _ hd => hd.append [event]), ?_, ?_, ?_, ?_⟩⟩
  · have hall : ∀ m ∈ moments, k ≥ m := fun m hm => (hsorted.1 m hm).trans hk
    refine List.pairwise_cons.mpr ⟨fun m hm => ?_, List.pairwise_cons.mpr ⟨hall, hsorted.2⟩⟩
    obtain rfl | hm := List.mem_cons.mp hm
    · exact le_rfl
    · exact hall m hm
  · rw [List.length_append]
    exact Nat.le_add_right_of_le hk'.le
  · intro snapshot' hs
    obtain rfl : snapshot = snapshot' := Option.some.inj hs
    exact hpicture.append [event]
  · -- Nobody else is under the lock, so that nobody carries an older picture.
    intro r' phase hp'
    by_cases hr : r' = r
    · subst hr
      simp [releaseSnapshot, AppState.setPoll] at hp'
    · have hpolls : s.polls r' = some (.active phase) := by
        simpa [releaseSnapshot, AppState.setPoll, Function.update_of_ne hr] using hp'
      have hfree : phase.holdsLock = false := by
        refine Bool.eq_false_iff.mpr fun hlock => hr ?_
        have hholder := (hheld r' phase hpolls hlock).symm.trans (hheld r _ hp rfl)
        exact Option.some.inj hholder
      cases phase with
      | mapLock | compressing | built => cases hfree
      | bucket | snapshotLock | orphaned => trivial

/-- The steps of a poll turn one page of the album at most. -/
theorem Album.attemptsStep (h : Album P cfg s₀ events log s moments latest) (hheld : LockHeld s)
    (hr : run P cfg s₀ events = some (s, log)) {r : ReqId} {phase : AttemptsPhase}
    {event : AttemptsEvent} (hp : s.polls r = some (.active phase))
    (he : RecoverBull.attemptsStep P cfg s r phase event = some (s', os)) :
    ∃ moments' latest', Album P cfg s₀ (events ++ [.attempts r event]) (os ++ log) s' moments'
      latest' := by
  -- The request comes to a phase in which it carries no picture, and answers with none.
  have hplain : ∀ {call : AttemptsCall}, s'.polls = Function.update s.polls r (some call) →
      (∀ phase, call = .active phase → Carries P cfg s₀ (events ++ [.attempts r event]) latest phase) →
      pictures os = [] → s'.attemptsSnapshot = s.attemptsSnapshot →
      ∃ moments' latest', Album P cfg s₀ (events ++ [.attempts r event]) (os ++ log) s' moments'
        latest' :=
    fun hpolls hself hos hcached =>
      ⟨moments, latest, h.of_silent _ hos hcached (h.carried_update _ hpolls hself)⟩
  have hover : ∀ phase, AttemptsCall.over = .active phase →
      Carries P cfg s₀ (events ++ [.attempts r event]) latest phase :=
    fun _ => AttemptsCall.noConfusion
  cases event with
  | takeToken now =>
    simp only [RecoverBull.attemptsStep] at he
    split at he
    · simp only [takeAttemptsToken] at he
      split at he <;> cases he
      · refine hplain rfl (fun phase hc => ?_) rfl rfl
        cases hc
        trivial
      · exact hplain rfl hover rfl rfl
    · cases he
  | lockSnapshot now utc later =>
    simp only [RecoverBull.attemptsStep] at he
    split at he
    · simp only [lockSnapshot] at he
      split at he
      · cases he
      · split at he <;> cases he
        · next snapshot hs =>
          exact ⟨_, _, h.of_hit _ (Option.filter_eq_some_iff.mp hs).1 _ later⟩
        · refine hplain rfl (fun phase hc => ?_) rfl rfl
          cases hc
          trivial
    · cases he
  | collect order =>
    simp only [RecoverBull.attemptsStep] at he
    split at he
    · next tag now =>
      rw [collectSnapshot_eq] at he
      split at he <;> cases he
      · exact hplain rfl hover rfl rfl
      · next payload hbuild =>
        refine hplain rfl (fun phase hc => ?_) rfl rfl
        cases hc
        -- The moment is this one.
        refine ⟨events.length, h.bounded, s, log, r, tag, now, order, ?_, ?_, hp, hbuild⟩
        · rw [List.take_left]
          exact hr
        · rw [List.getElem?_append_right le_rfl, Nat.sub_self]
          rfl
    · cases he
  | compress succeeds createdAt =>
    simp only [RecoverBull.attemptsStep] at he
    split at he <;> cases he
    · next tag payload =>
      obtain ⟨k, hk, hs⟩ := h.carried r _ hp
      refine hplain rfl (fun phase hc => ?_) rfl rfl
      cases hc
      cases succeeds with
      | true => exact ⟨k, hk, payload, createdAt, hs.append _, rfl⟩
      | false => trivial
    · exact hplain rfl hover rfl rfl
  | publish now =>
    simp only [RecoverBull.attemptsStep] at he
    split at he
    · next tag result =>
      cases result with
      | built snapshot =>
        cases he
        obtain ⟨latest', halbum⟩ := h.of_publication hheld _ hp now
        exact ⟨_, latest', halbum⟩
      | failed =>
        cases he
        exact hplain rfl hover rfl rfl
    · cases he
  | cancel =>
    simp only [RecoverBull.attemptsStep] at he
    split at he <;> cases he
    all_goals refine hplain rfl (fun phase hc => ?_) rfl rfl
    all_goals cases hc
    trivial

theorem Album.step (h : Album P cfg s₀ events log s moments latest) (hheld : LockHeld s)
    (hr : run P cfg s₀ events = some (s, log))
    (he : RecoverBull.step P cfg s event = some (s', os)) :
    ∃ moments' latest', Album P cfg s₀ (events ++ [event]) (os ++ log) s' moments' latest' := by
  by_cases hcall : ∀ r, event.call ≠ some (.attempts r)
  · obtain ⟨hsame, -⟩ := step_polls he hcall
    have hos : pictures os = [] := by
      refine List.eq_nil_iff_forall_not_mem.mpr fun answer hm => ?_
      obtain ⟨o, ho, hpicture⟩ := List.mem_filterMap.mp hm
      have hof : ∃ r, o.call = some (.attempts r) := by
        unfold Obs.picture at hpicture
        split at hpicture
        · exact ⟨_, rfl⟩
        · cases hpicture
      obtain ⟨r, hof⟩ := hof
      obtain hc | hc := step_call he o ho
      · exact hcall r (hc.symm.trans hof)
      · rw [hof] at hc
        cases hc
    refine ⟨moments, latest, h.of_silent event hos hsame.snapshot fun r phase hp => ?_⟩
    exact (h.carried r phase (hsame.polls ▸ hp)).append [event]
  · cases event with
    | attempts r event =>
      simp only [RecoverBull.step] at he
      split at he
      · next phase hp => exact h.attemptsStep hheld hr hp he
      · cases he
    | attemptsArrives r tag =>
      simp only [RecoverBull.step] at he
      split at he <;> cases he
      refine ⟨moments, latest, h.of_silent _ rfl rfl (h.carried_update _ rfl fun phase hc => ?_)⟩
      cases hc
      trivial
    | fetchArrives | fetch | storeArrives | store | info | sweep =>
      exact absurd (fun r hc => by cases hc) hcall

end steps

/-- **Pollers read monotonically.** In every run, each answer made from a snapshot shows
the map as it was at one step of the run, under the ETag of what it shows, and the
answers show moments in the order in which they are given: none goes back to an older
one. -/
theorem answers_monotone (P : Primitives) (cfg : Config) {secrets : SecretTable}
    {b₁ b₂ b₃ : TokenBucket F} {events : List Event} {s : AppState F} {log : Log}
    (h : run P cfg (.init secrets b₁ b₂ b₃) events = some (s, log)) :
    ∃ moments : List ℕ, moments.Pairwise (· ≥ ·) ∧
      List.Forall₂ (Depicts P cfg (.init secrets b₁ b₂ b₃) events) (pictures log) moments := by
  suffices halbum : ∃ moments latest,
      Album P cfg (.init secrets b₁ b₂ b₃) events log s moments latest by
    obtain ⟨moments, latest, halbum⟩ := halbum
    exact ⟨moments, (List.pairwise_cons.mp halbum.sorted).2, halbum.answers⟩
  refine @Machine.run_history _ _ _ (step P cfg) (fun events log s => ∃ moments latest,
    Album P cfg (.init secrets b₁ b₂ b₃) events log s moments latest) _ ⟨[], 0, ?_⟩ ?_ s events log h
  · exact ⟨.nil, List.pairwise_singleton _ _, le_rfl, fun _ hs => (by cases hs),
      fun _ _ hp => (by cases hp)⟩
  · rintro events log s event s' os hr ⟨moments, latest, halbum⟩ he
    exact halbum.step (Served.lockHeld ⟨_, _, _, _, events, hr⟩) hr he

/-- A build and its answer, and a second answer from the cache. -/
theorem answers_monotone_sample :
    ∃ (log : Log) (s : AppState ℚ) (moments : List ℕ),
      run .sample .sample .sample (samplePoll 0 0 ++ .attempts 0 (.collect .byKey) ::
        (samplePublication 0 0 ++ samplePoll 1 1)) = some (s, log) ∧
      moments.length = 2 ∧ moments.Pairwise (· ≥ ·) := by
  have hrun : (run .sample .sample .sample (samplePoll 0 0 ++ .attempts 0 (.collect .byKey) ::
      (samplePublication 0 0 ++ samplePoll 1 1))).any
      (fun u => decide ((pictures u.2).length = 2)) = true := by
    decide +kernel
  obtain ⟨⟨s, log⟩, hr, hlength⟩ := (Option.any_eq_true _ _).mp hrun
  have hlength : (pictures log).length = 2 := of_decide_eq_true hlength
  obtain ⟨moments, hsorted, hdepicts⟩ := answers_monotone .sample .sample hr
  exact ⟨log, s, moments, hr, hdepicts.length_eq.symm.trans hlength, hsorted⟩

end RecoverBull
