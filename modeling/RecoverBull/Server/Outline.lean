import RecoverBull.Limiter.LockoutBoundary
import RecoverBull.Server.Polls

/-!
# Polls without their snapshots

How the `/attempts` requests move does not depend on what the snapshots say: only on
their tokens, the lock and the age of the cached one. Servers with different maps go
through the same phases.
-/

namespace RecoverBull

variable {F : Type} {P : Primitives} {cfg : Config} {s s' t : AppState F} {os : Log} {r : ReqId}

/-- The phases differ in the contents of a snapshot at most. -/
inductive AttemptsPhase.Alike : AttemptsPhase → AttemptsPhase → Prop
  | same (phase : AttemptsPhase) : Alike phase phase
  | compressing (tag : Option String) (payload payload' : AttemptsSnapshot) :
    Alike (.compressing tag payload) (.compressing tag payload')
  | built (tag : Option String) (snapshot snapshot' : AttemptsSnapshotCache)
      (h : snapshot.createdAt = snapshot'.createdAt) :
    Alike (.built tag (.built snapshot)) (.built tag (.built snapshot'))
  | orphaned (payload payload' : AttemptsSnapshot) : Alike (.orphaned payload) (.orphaned payload')

inductive AttemptsCall.Alike : AttemptsCall → AttemptsCall → Prop
  | over : Alike .over .over
  | active {phase phase' : AttemptsPhase} (h : phase.Alike phase') :
    Alike (.active phase) (.active phase')

/-- The polls of the two servers stand at the same points. -/
structure PollsAlike (s t : AppState F) : Prop where
  bucket : s.attemptsTokenBucket = t.attemptsTokenBucket
  holder : s.snapshotHolder = t.snapshotHolder
  age : s.attemptsSnapshot.map AttemptsSnapshotCache.createdAt =
    t.attemptsSnapshot.map AttemptsSnapshotCache.createdAt
  polls : ∀ r, Option.Rel AttemptsCall.Alike (s.polls r) (t.polls r)

theorem AttemptsCall.Alike.refl (call : AttemptsCall) : call.Alike call := by
  rcases call with phase | _
  · exact .active (.same phase)
  · exact .over

theorem PollsAlike.refl (s : AppState F) : PollsAlike s s := by
  refine ⟨rfl, rfl, rfl, fun r => ?_⟩
  cases s.polls r with
  | none => exact .none
  | some call => exact .some (.refl call)

theorem PollsAlike.setPoll (h : PollsAlike s t) (r : ReqId) {call call' : AttemptsCall}
    (hcall : call.Alike call') : PollsAlike (s.setPoll r call) (t.setPoll r call') := by
  refine ⟨h.bucket, h.holder, h.age, fun r' => ?_⟩
  show Option.Rel _ (Function.update s.polls r (some call) r')
    (Function.update t.polls r (some call') r')
  by_cases hr : r' = r
  · rw [hr, Function.update_self, Function.update_self]
    exact .some hcall
  · rw [Function.update_of_ne hr, Function.update_of_ne hr]
    exact h.polls r'

/-- The same step of a poll that waits, on both servers. -/
theorem PollsAlike.setOwn (h : PollsAlike s t) (r : ReqId) (call : AttemptsCall) :
    PollsAlike (s.setPoll r call) (t.setPoll r call) :=
  h.setPoll r (.refl call)

theorem PollsAlike.releaseSnapshot (h : PollsAlike s t) (r : ReqId) {call call' : AttemptsCall}
    (hcall : call.Alike call') :
    PollsAlike (releaseSnapshot s r call) (releaseSnapshot t r call') := by
  have hfree : PollsAlike { s with snapshotHolder := none } { t with snapshotHolder := none } :=
    { h with holder := rfl }
  exact hfree.setPoll r hcall

section steps

variable [BucketNumber F]

theorem PollsAlike.takeAttemptsToken (h : PollsAlike s t) (r : ReqId) (tag : Option String)
    (now : ℕ) : clocks (takeAttemptsToken t r tag now).2 = clocks (takeAttemptsToken s r tag now).2 ∧
      PollsAlike (takeAttemptsToken s r tag now).1 (takeAttemptsToken t r tag now).1 := by
  have hbucket : PollsAlike
      { s with attemptsTokenBucket := (s.attemptsTokenBucket.tryConsume now).2 }
      { t with attemptsTokenBucket := (s.attemptsTokenBucket.tryConsume now).2 } :=
    { h with bucket := rfl }
  simp only [RecoverBull.takeAttemptsToken, ← h.bucket]
  split
  · exact ⟨rfl, hbucket.setOwn r _⟩
  · exact ⟨rfl, hbucket.setOwn r _⟩

omit [BucketNumber F] in
/-- The staleness test reads nothing but the age of the snapshot. -/
theorem PollsAlike.fresh (h : PollsAlike s t) (cfg : Config) (now : ℕ) :
    (s.attemptsSnapshot.filter fun snapshot => !isStale cfg snapshot now).isSome =
      (t.attemptsSnapshot.filter fun snapshot => !isStale cfg snapshot now).isSome := by
  have hage := h.age
  cases hs : s.attemptsSnapshot with
  | none =>
    rw [hs, Option.map_none, eq_comm, Option.map_eq_none_iff] at hage
    rw [hage]
  | some snapshot =>
    rw [hs, Option.map_some, eq_comm, Option.map_eq_some_iff] at hage
    obtain ⟨snapshot', ht, hcreated⟩ := hage
    have hstale : isStale cfg snapshot' now = isStale cfg snapshot now := by
      rw [isStale, isStale, hcreated]
    rw [ht, Option.filter_some, Option.filter_some, hstale]
    split <;> rfl

omit [BucketNumber F] in
theorem PollsAlike.lockSnapshot (h : PollsAlike s t) {tag : Option String} {now : ℕ} {utc : ℤ}
    {later : ℕ} (he : lockSnapshot cfg s r tag now utc later = some (s', os)) :
    ∃ t' os', lockSnapshot cfg t r tag now utc later = some (t', os') ∧ clocks os' = clocks os ∧
      PollsAlike s' t' := by
  have hfresh := h.fresh cfg now
  have hlocked : PollsAlike { s with snapshotHolder := some r } { t with snapshotHolder := some r } :=
    { h with holder := rfl }
  simp only [RecoverBull.lockSnapshot, ← h.holder] at he ⊢
  split at he
  · cases he
  · next hfree =>
    rw [if_neg hfree]
    split at he <;> cases he
    · next snapshot hs =>
      rw [hs, Option.isSome_some, eq_comm, Option.isSome_iff_exists] at hfresh
      obtain ⟨snapshot', ht⟩ := hfresh
      rw [ht]
      exact ⟨_, _, rfl, rfl, h.setOwn r .over⟩
    · next hs =>
      rw [hs, Option.isSome_none, eq_comm, Option.isSome_eq_false_iff, Option.isNone_iff_eq_none]
        at hfresh
      rw [hfresh]
      exact ⟨_, _, rfl, rfl, hlocked.setOwn r _⟩

omit [BucketNumber F] in
theorem PollsAlike.collectSnapshot (h : PollsAlike s t) (hs : Bounded cfg s.identifierRateLimit)
    (ht : Bounded cfg t.identifierRateLimit) (r : ReqId) (tag : Option String) (now : ℤ)
    (order : IterationOrder) :
    clocks (collectSnapshot cfg t r tag now order).2 =
        clocks (collectSnapshot cfg s r tag now order).2 ∧
      PollsAlike (collectSnapshot cfg s r tag now order).1
        (collectSnapshot cfg t r tag now order).1 := by
  obtain ⟨entries, hs⟩ := Option.isSome_iff_exists.mp ((hs.retain now).collectEntries order)
  obtain ⟨entries', ht⟩ := Option.isSome_iff_exists.mp ((ht.retain now).collectEntries order)
  have hmap : ∀ map map', PollsAlike (s.setMap map) (t.setMap map') := fun _ _ =>
    ⟨h.bucket, h.holder, h.age, h.polls⟩
  simp only [RecoverBull.collectSnapshot, hs, ht]
  exact ⟨trivial, (hmap _ _).setPoll r (.active (.compressing tag _ _))⟩

/-- A poll moves alike on both servers. -/
theorem PollsAlike.attemptsStep (h : PollsAlike s t) (hs : Bounded cfg s.identifierRateLimit)
    (ht : Bounded cfg t.identifierRateLimit) {phase phase' : AttemptsPhase}
    (hp : phase.Alike phase') {event : AttemptsEvent}
    (he : attemptsStep P cfg s r phase event = some (s', os)) :
    ∃ t' os', attemptsStep P cfg t r phase' event = some (t', os') ∧ clocks os' = clocks os ∧
      PollsAlike s' t' := by
  cases event with
  | takeToken now =>
    cases phase with
    | bucket tag =>
      cases hp
      have he : RecoverBull.takeAttemptsToken s r tag now = (s', os) := Option.some.inj he
      obtain ⟨hclocks, hpolls⟩ := h.takeAttemptsToken r tag now
      rw [he] at hclocks hpolls
      exact ⟨_, _, rfl, hclocks, hpolls⟩
    | snapshotLock | mapLock | compressing | built | orphaned => cases he
  | lockSnapshot now utc later =>
    cases phase with
    | snapshotLock tag =>
      cases hp
      exact h.lockSnapshot he
    | bucket | mapLock | compressing | built | orphaned => cases he
  | collect order =>
    cases phase with
    | mapLock tag now =>
      cases hp
      have he : RecoverBull.collectSnapshot cfg s r tag now order = (s', os) := Option.some.inj he
      obtain ⟨hclocks, hpolls⟩ := h.collectSnapshot hs ht r tag now order
      rw [he] at hclocks hpolls
      exact ⟨_, _, rfl, hclocks, hpolls⟩
    | bucket | snapshotLock | compressing | built | orphaned => cases he
  | compress succeeds createdAt =>
    cases phase with
    | compressing tag payload =>
      -- The two jobs end alike, whatever they compressed.
      have hbuilt : ∀ payload', ((AttemptsPhase.built tag
          (if succeeds then .built (compressSnapshot P payload createdAt) else .failed)).Alike
          (.built tag (if succeeds then .built (compressSnapshot P payload' createdAt)
            else .failed))) := by
        intro payload'
        cases succeeds with
        | true => exact .built tag _ _ rfl
        | false => exact .same _
      cases he
      cases hp with
      | same => exact ⟨_, _, rfl, rfl, h.setPoll r (.active (hbuilt payload))⟩
      | compressing _ _ payload' => exact ⟨_, _, rfl, rfl, h.setPoll r (.active (hbuilt payload'))⟩
    | orphaned payload =>
      cases he
      cases hp <;> exact ⟨_, _, rfl, rfl, h.setOwn r .over⟩
    | bucket | snapshotLock | mapLock | built => cases he
  | publish now =>
    cases phase with
    | built tag result =>
      cases hp with
      | same =>
        cases result with
        | failed =>
          cases he
          exact ⟨_, _, rfl, rfl, h.releaseSnapshot r .over⟩
        | built snapshot =>
          cases he
          exact ⟨_, _, rfl, rfl, PollsAlike.releaseSnapshot
            (s := { s with attemptsSnapshot := some snapshot })
            (t := { t with attemptsSnapshot := some snapshot }) { h with age := rfl } r .over⟩
      | built _ snapshot snapshot' hage =>
        cases he
        exact ⟨_, _, rfl, rfl, PollsAlike.releaseSnapshot
          (s := { s with attemptsSnapshot := some snapshot })
          (t := { t with attemptsSnapshot := some snapshot' })
          { h with age := congrArg some hage } r .over⟩
    | bucket | snapshotLock | mapLock | compressing | orphaned => cases he
  | cancel =>
    cases phase with
    | bucket tag | snapshotLock tag =>
      cases hp
      cases he
      exact ⟨_, _, rfl, rfl, h.setOwn r .over⟩
    | mapLock tag now =>
      cases hp
      cases he
      exact ⟨_, _, rfl, rfl, h.releaseSnapshot r .over⟩
    | built tag result =>
      cases he
      cases hp <;> exact ⟨_, _, rfl, rfl, h.releaseSnapshot r .over⟩
    | compressing tag payload =>
      cases he
      cases hp with
      | same => exact ⟨_, _, rfl, rfl, h.releaseSnapshot r (.active (.same _))⟩
      | compressing _ _ payload' =>
        exact ⟨_, _, rfl, rfl, h.releaseSnapshot r (.active (.orphaned payload payload'))⟩
    | orphaned payload => cases he

theorem PollsAlike.elsewhere (h : PollsAlike s t) {event : Event}
    (he : step P cfg s event = some (s', os)) (hcall : ∀ r, event.call ≠ some (.attempts r)) :
    PollsAlike s' t := by
  obtain ⟨hsame, hbucket⟩ := step_polls he hcall
  exact ⟨hbucket.trans h.bucket, hsame.holder.trans h.holder,
    by rw [hsame.snapshot, h.age], fun r => by rw [hsame.polls]; exact h.polls r⟩

/-- A sweep or a step of a poll is the same on both servers, but for what the snapshot
says. -/
theorem PollsAlike.step (h : PollsAlike s t) (hs : Bounded cfg s.identifierRateLimit)
    (ht : Bounded cfg t.identifierRateLimit) {event : Event}
    (hevent : event.call = none ∨ ∃ r, event.call = some (.attempts r))
    (he : step P cfg s event = some (s', os)) :
    ∃ t' os', RecoverBull.step P cfg t event = some (t', os') ∧ clocks os' = clocks os ∧
      PollsAlike s' t' := by
  cases event with
  | sweep now =>
    cases he
    exact ⟨_, _, rfl, rfl, { h with }⟩
  | attemptsArrives r tag =>
    have hpolls := h.polls r
    simp only [RecoverBull.step] at he ⊢
    split at he
    · cases he
    · next hfree =>
      rw [Option.not_isSome_iff_eq_none.mp hfree] at hpolls
      cases he
      generalize ht : t.polls r = call at hpolls
      cases hpolls
      exact ⟨_, _, rfl, rfl, h.setOwn r _⟩
  | attempts r event =>
    have hpolls := h.polls r
    simp only [RecoverBull.step] at he ⊢
    split at he
    · next phase hphase =>
      rw [hphase] at hpolls
      generalize t.polls r = call at hpolls ⊢
      cases hpolls with
      | some hcall =>
        cases hcall with
        | active hp => exact h.attemptsStep hs ht hp he
    · cases he
  | fetchArrives | fetch | storeArrives | store | info =>
    obtain hnone | ⟨r, hr⟩ := hevent
    · cases hnone
    · cases hr

end steps

end RecoverBull
