import RecoverBull.Limiter.LockoutBoundary
import RecoverBull.Server.Polls
import RecoverBull.Lib.Collect

/-!
# One build at a time

The lock of the snapshot is held from the staleness check to the publication, and
a published snapshot keeps the next build away for its time to live. Both hold as
long as the handler of a build is not dropped between its scan and its
publication: the job runs on, but the lock is free and its result is lost.
-/

namespace RecoverBull

variable {F : Type} {P : Primitives} {cfg : Config} {s s' : AppState F} {os log : Log}
  {event : Event} {events : List Event}

/-- A build is in progress for `r`: it waits for the map, or its job runs. -/
def Building (s : AppState F) (r : ReqId) : Prop :=
  ∃ phase, s.polls r = some (.active phase) ∧ phase.building = true

/-- The map is scanned, and the result not published yet. -/
def AttemptsPhase.scanned : AttemptsPhase → Bool
  | .compressing _ _ | .built _ _ => true
  | _ => false

def AttemptsCall.building : AttemptsCall → Bool
  | .active phase => phase.building
  | .over => false

def AttemptsCall.unscanned : AttemptsCall → Bool
  | .active phase => !phase.scanned
  | .over => true

theorem AttemptsPhase.holdsLock_of_scanned {phase : AttemptsPhase} (h : phase.scanned = true) :
    phase.holdsLock = true := by
  cases phase with
  | compressing | built => rfl
  | bucket | snapshotLock | mapLock | orphaned => cases h

/-- The event is no client going away between the scan of its build and its
publication, and no failed build. -/
def keepsBuild (s : AppState F) : Event → Bool
  | .attempts r .cancel => (s.polls r).all AttemptsCall.unscanned
  | .attempts _ (.compress succeeds _) => succeeds
  | _ => true

instance (s : AppState F) (r : ReqId) : Decidable (Building s r) :=
  decidable_of_iff ((s.polls r).any AttemptsCall.building = true) <| by
    rw [Option.any_eq_true]
    constructor
    · rintro ⟨call, hp, hbuild⟩
      rcases call with phase | _
      · exact ⟨phase, hp, hbuild⟩
      · cases hbuild
    · rintro ⟨phase, hp, hbuild⟩
      exact ⟨.active phase, hp, hbuild⟩

/-- The reading of the monotonic clock that decides on a build, or dates it. -/
def Event.instant : Event → Option ℕ
  | .attempts _ (.lockSnapshot now _ _) => some now
  | .attempts _ (.compress _ createdAt) => some createdAt
  | _ => none

/-- Two readings of the monotonic clock, one after the other, lie `d` apart. -/
def Elapsed (d : ℕ) (events : List Event) : Prop :=
  ∃ t₁ t₂, [t₁, t₂].Sublist (events.filterMap Event.instant) ∧ t₁ + d ≤ t₂

theorem Elapsed.append {d : ℕ} (h : Elapsed d events) (events' : List Event) :
    Elapsed d (events ++ events') := by
  obtain ⟨t₁, t₂, hsub, hle⟩ := h
  refine ⟨t₁, t₂, ?_, hle⟩
  rw [List.filterMap_append]
  exact hsub.trans (List.sublist_append_left _ _)

theorem not_cancelled (hkept : keepsBuild s event = true) {r : ReqId} {phase : AttemptsPhase}
    (hp : s.polls r = some (.active phase)) (hscanned : phase.scanned = true) :
    event ≠ .attempts r .cancel := by
  rintro rfl
  rw [keepsBuild, hp, Option.all_some, AttemptsCall.unscanned, hscanned] at hkept
  cases hkept

/-! ## The lock -/

/-- Whoever is in a phase under the lock is the holder, and no job is orphaned. -/
structure Locked (s : AppState F) : Prop where
  holder : ∀ r phase, s.polls r = some (.active phase) → phase.holdsLock = true →
    s.snapshotHolder = some r
  attended : ∀ r payload, s.polls r ≠ some (.active (.orphaned payload))

/-- A step of one request that leaves it where the holder says. -/
theorem Locked.of_update (h : Locked s) {r : ReqId} {call : AttemptsCall}
    (hpolls : s'.polls = Function.update s.polls r (some call))
    (hself : ∀ phase, call = .active phase →
      (phase.holdsLock = true → s'.snapshotHolder = some r) ∧ ∀ payload, phase ≠ .orphaned payload)
    (hothers : ∀ r', r' ≠ r → s.snapshotHolder = some r' → s'.snapshotHolder = some r') :
    Locked s' := by
  constructor
  · intro r' phase hp hlock
    rw [hpolls] at hp
    by_cases hr : r' = r
    · subst hr
      rw [Function.update_self] at hp
      exact (hself phase (Option.some.inj hp)).1 hlock
    · rw [Function.update_of_ne hr] at hp
      exact hothers r' hr (h.holder r' phase hp hlock)
  · intro r' payload hp
    rw [hpolls] at hp
    by_cases hr : r' = r
    · subst hr
      rw [Function.update_self] at hp
      exact (hself _ (Option.some.inj hp)).2 payload rfl
    · rw [Function.update_of_ne hr] at hp
      exact h.attended r' payload hp

theorem PollEffect.locked (he : PollEffect P cfg s s' event) (h : Locked s)
    (hkept : keepsBuild s event = true) : Locked s' := by
  -- Where the lock is released, its holder was the request of the step.
  have hrelease : ∀ {r : ReqId} {phase : AttemptsPhase}, s.polls r = some (.active phase) →
      phase.holdsLock = true → ∀ r', r' ≠ r → s.snapshotHolder = some r' →
      s'.snapshotHolder = some r' := by
    intro r phase hp hlock r' hr hholder
    rw [h.holder r phase hp hlock] at hholder
    exact absurd (Option.some.inj hholder).symm hr
  cases he with
  | elsewhere hsame =>
    constructor
    · intro r phase hp hlock
      rw [hsame.polls] at hp
      rw [hsame.holder]
      exact h.holder r phase hp hlock
    · intro r payload hp
      rw [hsame.polls] at hp
      exact h.attended r payload hp
  | waits r call _ hafter hpolls _ hholder =>
    refine h.of_update hpolls (fun phase hp => ?_) fun r' _ ho => hholder.trans ho
    obtain ⟨hlock, hbuild⟩ := hafter phase hp
    refine ⟨fun hl => ?_, fun payload ho => ?_⟩
    · rw [hlock] at hl
      cases hl
    · rw [ho] at hbuild
      cases hbuild
  | starts r tag now utc later _ _ hfree _ hpolls _ hholder =>
    refine h.of_update hpolls (fun phase hp => ?_) fun r' _ ho => ?_
    · cases hp
      exact ⟨fun _ => hholder, fun _ => AttemptsPhase.noConfusion⟩
    · rw [hfree] at ho
      cases ho
  | scans r tag now order entries _ hphase _ hpolls _ hholder =>
    refine h.of_update hpolls (fun phase hp => ?_) fun r' _ ho => hholder.trans ho
    cases hp
    exact ⟨fun _ => hholder.trans (h.holder r _ hphase rfl), fun _ => AttemptsPhase.noConfusion⟩
  | compresses r tag payload succeeds createdAt _ hphase hpolls _ hholder =>
    refine h.of_update hpolls (fun phase hp => ?_) fun r' _ ho => hholder.trans ho
    cases hp
    exact ⟨fun _ => hholder.trans (h.holder r _ hphase rfl), fun _ => AttemptsPhase.noConfusion⟩
  | panics r tag now order _ hphase _ hpolls =>
    exact h.of_update hpolls (fun _ => AttemptsCall.noConfusion) (hrelease hphase rfl)
  | publishes r tag result hphase hpolls =>
    exact h.of_update hpolls (fun _ => AttemptsCall.noConfusion) (hrelease hphase rfl)
  | leaves r phase call hevent hphase hlock hafter hpolls =>
    refine h.of_update hpolls (fun phase' hp => ?_) (hrelease hphase hlock)
    obtain ⟨tag, payload, rfl, -⟩ := hafter phase' hp
    exact absurd hevent (not_cancelled hkept hphase rfl)
  | ends r payload hphase => exact absurd hphase (h.attended r payload)

theorem Locked.building_unique (h : Locked s) {r r' : ReqId} (hr : Building s r)
    (hr' : Building s r') : r = r' := by
  have hholder : ∀ {r : ReqId}, Building s r → s.snapshotHolder = some r := by
    rintro r ⟨phase, hp, hbuild⟩
    refine h.holder r phase hp ?_
    cases phase with
    | mapLock | compressing => rfl
    | orphaned payload => exact absurd hp (h.attended r payload)
    | bucket | snapshotLock | built => cases hbuild
  have hsame := (hholder hr).symm.trans (hholder hr')
  exact Option.some.inj hsame

/-! ## Between two scans -/

/-- What has become of a scan, `events` being those since: its snapshot is on the
way, or cached, or its time to live is over. -/
inductive SinceScan (cfg : Config) (s : AppState F) (events : List Event) : Prop
  | compressing (r : ReqId) (tag : Option String) (payload : AttemptsSnapshot)
      (hphase : s.polls r = some (.active (.compressing tag payload)))
  | built (r : ReqId) (tag : Option String) (snapshot : AttemptsSnapshotCache)
      (hphase : s.polls r = some (.active (.built tag (.built snapshot))))
      (hread : snapshot.createdAt ∈ events.filterMap Event.instant)
  | cached (snapshot : AttemptsSnapshotCache) (hfree : s.snapshotHolder = none)
      (hcached : s.attemptsSnapshot = some snapshot)
      (hread : snapshot.createdAt ∈ events.filterMap Event.instant)
  | elapsed (h : Elapsed cfg.attemptsSnapshotTtl events)

/-- A stale snapshot is a time to live old. -/
theorem elapsed_of_stale {snapshot : AttemptsSnapshotCache} {now : ℕ}
    (hread : snapshot.createdAt ∈ events.filterMap Event.instant)
    (hnow : event.instant = some now) (hstale : isStale cfg snapshot now = true) :
    Elapsed cfg.attemptsSnapshotTtl (events ++ [event]) := by
  have hpos := cfg.attemptsSnapshotTtl_pos
  have hold : now - snapshot.createdAt ≥ cfg.attemptsSnapshotTtl := of_decide_eq_true hstale
  refine ⟨snapshot.createdAt, now, ?_, by omega⟩
  rw [List.filterMap_append, List.filterMap_cons_some hnow, List.filterMap_nil]
  exact (List.singleton_sublist.mpr hread).append (List.Sublist.refl [now])

theorem mem_instants_append {t : ℕ} (event : Event) (h : t ∈ events.filterMap Event.instant) :
    t ∈ (events ++ [event]).filterMap Event.instant := by
  rw [List.filterMap_append]
  exact List.mem_append_left _ h

/-- The request of a scan stays where it is, or its job ends, or it publishes. -/
theorem PollEffect.of_scanned (he : PollEffect P cfg s s' event) {r : ReqId}
    {phase : AttemptsPhase} (hp : s.polls r = some (.active phase)) (hscanned : phase.scanned = true)
    (hkept : keepsBuild s event = true) :
    s'.polls r = s.polls r ∨
    (∃ tag payload createdAt, phase = .compressing tag payload ∧
      event = .attempts r (.compress true createdAt) ∧
      s'.polls r = some (.active (.built tag (.built (compressSnapshot P payload createdAt))))) ∨
    ∃ tag result, phase = .built tag result ∧ s'.snapshotHolder = none ∧
      s'.attemptsSnapshot = result.snapshot.or s.attemptsSnapshot := by
  -- A step of another request.
  have hother : ∀ {r' : ReqId} {call : AttemptsCall}, r ≠ r' →
      s'.polls = Function.update s.polls r' (some call) → s'.polls r = s.polls r := by
    intro r' call hr hpolls
    rw [hpolls, Function.update_of_ne hr]
  have hne : ∀ {r' : ReqId} {phase' : AttemptsPhase}, s.polls r' = some (.active phase') →
      phase'.scanned = false → r ≠ r' := by
    rintro r' phase' hp' hnot rfl
    rw [hp] at hp'
    cases hp'
    rw [hscanned] at hnot
    cases hnot
  cases he with
  | elsewhere hsame => exact Or.inl (by rw [hsame.polls])
  | waits r' call hbefore _ hpolls =>
    refine Or.inl (hother ?_ hpolls)
    rintro rfl
    have hlock := (hbefore phase hp).1
    rw [AttemptsPhase.holdsLock_of_scanned hscanned] at hlock
    cases hlock
  | starts r' _ _ _ _ _ hphase _ _ hpolls => exact Or.inl (hother (hne hphase rfl) hpolls)
  | scans r' _ _ _ _ _ hphase _ hpolls => exact Or.inl (hother (hne hphase rfl) hpolls)
  | panics r' _ _ _ _ hphase _ hpolls => exact Or.inl (hother (hne hphase rfl) hpolls)
  | ends r' _ hphase hpolls => exact Or.inl (hother (hne hphase rfl) hpolls)
  | compresses r' tag payload succeeds createdAt hevent hphase hpolls =>
    by_cases hr : r = r'
    · subst hr
      rw [hp] at hphase
      cases hphase
      obtain rfl : succeeds = true := by
        rw [hevent] at hkept
        exact hkept
      exact Or.inr (Or.inl ⟨tag, payload, createdAt, rfl, hevent,
        by rw [hpolls, Function.update_self]; rfl⟩)
    · exact Or.inl (hother hr hpolls)
  | publishes r' tag result hphase hpolls hsnapshot hholder =>
    by_cases hr : r = r'
    · subst hr
      rw [hp] at hphase
      cases hphase
      exact Or.inr (Or.inr ⟨tag, result, rfl, hholder, hsnapshot⟩)
    · exact Or.inl (hother hr hpolls)
  | leaves r' phase' call hevent _ _ _ hpolls =>
    refine Or.inl (hother ?_ hpolls)
    rintro rfl
    exact not_cancelled hkept hp hscanned hevent

theorem PollEffect.sinceScan (he : PollEffect P cfg s s' event) (hl : Locked s)
    (hkept : keepsBuild s event = true) (h : SinceScan cfg s events) :
    SinceScan cfg s' (events ++ [event]) := by
  cases h with
  | elapsed h => exact .elapsed (h.append _)
  | compressing r tag payload hphase =>
    obtain hsame | ⟨tag', payload', createdAt, -, hevent, hpolls⟩ | ⟨_, _, hbuilt, -⟩ :=
      he.of_scanned hphase rfl hkept
    · exact .compressing r tag payload (hsame.trans hphase)
    · refine .built r tag' _ hpolls (List.mem_filterMap.mpr ⟨event, ?_, by rw [hevent]; rfl⟩)
      exact List.mem_append_right _ List.mem_cons_self
    · cases hbuilt
  | built r tag snapshot hphase hread =>
    have hread' := mem_instants_append event hread
    obtain hsame | ⟨_, _, _, hcompressing, -⟩ | ⟨tag', result, hbuilt, hfree, hcached⟩ :=
      he.of_scanned hphase rfl hkept
    · exact .built r tag snapshot (hsame.trans hphase) hread'
    · cases hcompressing
    · cases hbuilt
      exact .cached snapshot hfree hcached hread'
  | cached snapshot hfree hcached hread =>
    have hread' := mem_instants_append event hread
    -- The lock is free, so no request is in a phase that holds it.
    have hheld : ∀ {r : ReqId} {phase : AttemptsPhase}, s.polls r = some (.active phase) →
        phase.holdsLock = true → False := by
      intro r phase hp hlock
      rw [hl.holder r phase hp hlock] at hfree
      cases hfree
    cases he with
    | elsewhere hsame =>
      exact .cached snapshot (hsame.holder.trans hfree) (hsame.snapshot.trans hcached) hread'
    | waits r call _ _ _ hsnapshot hholder =>
      exact .cached snapshot (hholder.trans hfree) (hsnapshot.trans hcached) hread'
    | starts r tag now utc later hevent _ _ hstale =>
      exact .elapsed (elapsed_of_stale hread (hevent ▸ rfl) (hstale snapshot hcached))
    | scans r _ _ _ _ _ hphase => exact (hheld hphase rfl).elim
    | panics r _ _ _ _ hphase => exact (hheld hphase rfl).elim
    | compresses r _ _ _ _ _ hphase => exact (hheld hphase rfl).elim
    | publishes r _ _ hphase => exact (hheld hphase rfl).elim
    | leaves r _ _ _ hphase hlock => exact (hheld hphase hlock).elim
    | ends r _ hphase => exact absurd hphase (hl.attended r _)

/-! ## Every run -/

variable [BucketNumber F]

/-- A request scans the map when it got at it, and then compresses. -/
theorem step_collect {r : ReqId} {order : IterationOrder}
    (h : step P cfg s (.attempts r (.collect order)) = some (s', os)) : ∃ tag now,
    s.polls r = some (.active (.mapLock tag now)) ∧
      (collectEntries order s'.identifierRateLimit = none ∨
        ∃ payload, s'.polls r = some (.active (.compressing tag payload))) := by
  simp only [step] at h
  split at h
  · next phase hphase =>
    simp only [attemptsStep] at h
    split at h
    · next tag now =>
      refine ⟨tag, now, hphase, ?_⟩
      simp only [collectSnapshot] at h
      split at h <;> cases h
      · next hnone => exact Or.inl hnone
      · exact Or.inr ⟨_, Function.update_self r _ s.polls⟩
    · cases h
  · cases h

/-- What holds after every event of a run whose builds are not dropped. -/
structure SingleFlight (cfg : Config) (events : List Event) (s : AppState F) : Prop where
  locked : Locked s
  scans : ∀ before r order between, events = before ++ .attempts r (.collect order) :: between →
    SinceScan cfg s between

theorem SingleFlight.step (h : SingleFlight cfg events s) (hs : Served P cfg log s)
    (hstep : RecoverBull.step P cfg s event = some (s', os)) (hkept : keepsBuild s event = true) :
    SingleFlight cfg (events ++ [event]) s' := by
  have he := step_pollEffect hstep
  refine ⟨he.locked h.locked hkept, fun before r order between hevents => ?_⟩
  obtain rfl | ⟨between', last, rfl⟩ := between.eq_nil_or_concat'
  · -- The event is the scan.
    obtain ⟨-, hlast⟩ := List.append_inj' hevents rfl
    obtain rfl := List.singleton_inj.mp hlast
    obtain ⟨tag, now, -, hnone | ⟨payload, hp⟩⟩ := step_collect hstep
    · have hsome := (hs.step hstep).bounded.collectEntries order
      rw [hnone] at hsome
      cases hsome
    · exact .compressing r tag payload hp
  · rw [← List.cons_append, ← List.append_assoc] at hevents
    obtain ⟨hinit, hlast⟩ := List.append_inj' hevents rfl
    obtain rfl := List.singleton_inj.mp hlast
    exact he.sinceScan h.locked hkept (h.scans before r order between' hinit)

theorem singleFlight_run {secrets : SecretTable} {b₁ b₂ b₃ : TokenBucket F}
    (hr : run P cfg (.init secrets b₁ b₂ b₃) events = some (s, log))
    (hkept : Machine.obeys (step P cfg) keepsBuild (.init secrets b₁ b₂ b₃) events = true) :
    SingleFlight cfg events s := by
  refine @Machine.run_obeying _ _ _ (step P cfg) keepsBuild
    (fun events _ s => SingleFlight cfg events s) _ ?_ ?_ s events log hr hkept
  · refine ⟨⟨fun r phase hp => ?_, fun r payload hp => ?_⟩, fun before r order between hnil => ?_⟩
    · cases hp
    · cases hp
    · simp at hnil
  · intro events log s event s' os hr h hkept hstep
    exact h.step ⟨_, _, _, _, _, hr⟩ hstep hkept

/-- A scan finds the time to live of every earlier one over. -/
theorem SingleFlight.elapsed (h : SingleFlight cfg events s) {before between : List Event}
    {r r' : ReqId} {order order' : IterationOrder}
    (hevents : events = before ++ .attempts r (.collect order) :: between)
    (hstep : RecoverBull.step P cfg s (.attempts r' (.collect order')) = some (s', os)) :
    Elapsed cfg.attemptsSnapshotTtl between := by
  obtain ⟨tag, now, hp, -⟩ := step_collect hstep
  have hholder := h.locked.holder r' _ hp rfl
  have hself : ∀ {r : ReqId} {phase : AttemptsPhase}, s.polls r = some (.active phase) →
      phase.holdsLock = true → phase = .mapLock tag now := by
    intro r phase hphase hlock
    have hr := h.locked.holder r phase hphase hlock
    rw [hholder] at hr
    obtain rfl := Option.some.inj hr
    rw [hp] at hphase
    cases hphase
    rfl
  cases h.scans before r order between hevents with
  | elapsed h => exact h
  | compressing r _ _ hphase => cases hself hphase rfl
  | built r _ _ hphase => cases hself hphase rfl
  | cached _ hfree =>
    rw [hfree] at hholder
    cases hholder

/-- **One build at a time, and one in a time to live**, as long as no client goes
away between the scan of its build and its publication. -/
theorem single_flight (P : Primitives) (cfg : Config) {secrets : SecretTable}
    {b₁ b₂ b₃ : TokenBucket F} {events : List Event} {s : AppState F} {log : Log}
    (h : run P cfg (.init secrets b₁ b₂ b₃) events = some (s, log))
    (hkept : Machine.obeys (step P cfg) keepsBuild (.init secrets b₁ b₂ b₃) events = true) :
    (∀ r r', Building s r → Building s r' → r = r') ∧
    ∀ before r order between r' order' after,
      events = before ++ .attempts r (.collect order) ::
        (between ++ .attempts r' (.collect order') :: after) →
      Elapsed cfg.attemptsSnapshotTtl between := by
  refine ⟨fun r r' => (singleFlight_run h hkept).locked.building_unique, ?_⟩
  intro before r order between r' order' after hevents
  have hcut : events = (before ++ .attempts r (.collect order) :: between) ++
      .attempts r' (.collect order') :: after := by rw [hevents, List.append_assoc, List.cons_append]
  rw [hcut] at h hkept
  obtain ⟨t, l₁, l₂, hr, hrest, rfl⟩ := Machine.run_append_eq_some.mp h
  obtain ⟨u, os, l₃, hscan, -⟩ := Machine.run_cons_eq_some.mp hrest
  exact (singleFlight_run hr ((Machine.obeys_append hr).mp hkept).1).elapsed rfl hscan

/-! ## Two polls -/

/-- The entries of a map in the order of their keys. -/
def IterationOrder.byKey : IterationOrder where
  entries map := map.liftOn (fun a => a.entries.mergeSort fun x y => x.1 ≤ y.1) fun a b hab =>
    Collect.mergeSort_eq_of_mem_iff Sigma.fst a.nodupKeys b.nodupKeys fun _ => hab.mem_iff
  complete map := by
    induction map using Finmap.induction_on with
    | H a =>
      rw [Finmap.liftOn_toFinmap]
      exact Multiset.coe_eq_coe.mpr (List.mergeSort_perm _ _)

/-- A poll at time `now` up to the map lock. -/
def samplePoll (r : ReqId) (now : ℕ) : List Event :=
  [.attemptsArrives r none, .attempts r (.takeToken now), .attempts r (.lockSnapshot now 0 now)]

/-- The job and the publication of a poll that scanned. -/
def samplePublication (r : ReqId) (now : ℕ) : List Event :=
  [.attempts r (.compress true now), .attempts r (.publish now)]

/-- Two polls with their builds, a time to live apart. -/
theorem single_flight_sample :
    ∃ (log : Log) (s : AppState ℚ),
      run .sample .sample .sample (samplePoll 0 0 ++ .attempts 0 (.collect .byKey) ::
        ((samplePublication 0 0 ++ samplePoll 1 1000000000) ++
          .attempts 1 (.collect .byKey) :: [])) = some (s, log) ∧
      Building s 1 ∧ (∀ r, Building s r → r = 1) ∧
      Elapsed Config.sample.attemptsSnapshotTtl
        (samplePublication 0 0 ++ samplePoll 1 1000000000) := by
  have hrun : (run .sample .sample .sample (samplePoll 0 0 ++ .attempts 0 (.collect .byKey) ::
      ((samplePublication 0 0 ++ samplePoll 1 1000000000) ++
        .attempts 1 (.collect .byKey) :: []))).any (fun u => decide (Building u.1 1)) = true := by
    decide +kernel
  have hkept : Machine.obeys (step .sample .sample) keepsBuild AppState.sample
      (samplePoll 0 0 ++ .attempts 0 (.collect .byKey) ::
        ((samplePublication 0 0 ++ samplePoll 1 1000000000) ++
          .attempts 1 (.collect .byKey) :: [])) = true := by
    decide +kernel
  obtain ⟨⟨s, log⟩, hr, hbuild⟩ := (Option.any_eq_true _ _).mp hrun
  have hbuild : Building s 1 := of_decide_eq_true hbuild
  obtain ⟨honce, hapart⟩ := single_flight .sample .sample hr hkept
  exact ⟨log, s, hr, hbuild, fun r hr => honce r 1 hr hbuild, hapart _ 0 .byKey _ 1 .byKey [] rfl⟩

/-- The client of the first build leaves while its job runs: the next poll scans the
map again at once, and two builds are in progress. -/
theorem dropped_build_repeated :
    ∃ (log : Log) (s : AppState ℚ),
      run .sample .sample .sample (samplePoll 0 0 ++ .attempts 0 (.collect .byKey) ::
        ((.attempts 0 .cancel :: samplePoll 1 0) ++ .attempts 1 (.collect .byKey) :: [])) =
          some (s, log) ∧
      Building s 0 ∧ Building s 1 ∧
      ¬Elapsed Config.sample.attemptsSnapshotTtl (.attempts 0 .cancel :: samplePoll 1 0) := by
  have hrun : (run .sample .sample .sample (samplePoll 0 0 ++ .attempts 0 (.collect .byKey) ::
      ((.attempts 0 .cancel :: samplePoll 1 0) ++ .attempts 1 (.collect .byKey) :: []))).any
      (fun u => decide (Building u.1 0 ∧ Building u.1 1)) = true := by
    decide +kernel
  obtain ⟨⟨s, log⟩, hr, hbuild⟩ := (Option.any_eq_true _ _).mp hrun
  obtain ⟨h₀, h₁⟩ := of_decide_eq_true hbuild
  refine ⟨log, s, hr, h₀, h₁, ?_⟩
  -- There is only one reading in between.
  rintro ⟨t₁, t₂, hsub, -⟩
  have hlen := hsub.length_le
  change 2 ≤ 1 at hlen
  omega

end RecoverBull
