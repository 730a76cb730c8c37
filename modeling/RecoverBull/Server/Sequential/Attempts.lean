import RecoverBull.Server.Sequential
import RecoverBull.Server.SingleFlight
import RecoverBull.Server.Snapshot

/-!
# `get_attempts` as it is written

The handler of `/attempts` as a function of the shared state, and the proof that the steps
of a poll that finds the snapshot lock free, taken with nothing in between, are this function.
-/

namespace RecoverBull

variable {F : Type} [BucketNumber F] {P : Primitives} {cfg : Config} {s t : AppState F}
  {r : ReqId} {replies : List Response}

/-! ## The handler -/

/-- What a poll meets: its readings of the monotonic clock, the clock of the build and the
order in which the map hands out its entries, and whether the blocking job succeeds. -/
structure AttemptsWorld where
  instant : ℕ
  locked : ℕ
  utc : ℤ
  order : IterationOrder
  succeeds : Bool
  createdAt : ℕ
  answered : ℕ

instance : Inhabited AttemptsWorld := ⟨0, 0, 0, .byKey, true, 0, 0⟩

/-- The blocking job of `build_snapshot`. -/
def runBuild (P : Primitives) (w : AttemptsWorld) (payload : AttemptsSnapshot) : BuildResult :=
  if w.succeeds then .built (compressSnapshot P payload w.createdAt) else .failed

/-- `build_snapshot`; no result stands for a panic under the map lock. -/
def buildSnapshot (P : Primitives) (cfg : Config) (w : AttemptsWorld) (s : AppState F) :
    AppState F × Option BuildResult :=
  (s.setMap (retainWithinCooldown cfg w.utc s.identifierRateLimit),
    (buildPayload cfg w.utc w.order s.identifierRateLimit).map (runBuild P w))

/-- `get_attempts` after its build. -/
def publishBuilt (cfg : Config) (w : AttemptsWorld) (ifNoneMatch : Option String)
    (result : BuildResult) (s : AppState F) : AppState F × Response :=
  match result with
  | .failed => (s, internalServerError)
  | .built snapshot =>
    ({ s with attemptsSnapshot := some snapshot },
      attemptsResponse cfg snapshot ifNoneMatch w.answered)

/-- `get_attempts` where the snapshot is due for a rebuild. -/
def attemptsRebuilding (P : Primitives) (cfg : Config) (w : AttemptsWorld)
    (ifNoneMatch : Option String) (s : AppState F) : AppState F × Option Response :=
  match buildSnapshot P cfg w s with
  | (s, none) => (s, none)
  | (s, some result) =>
    let (s, response) := publishBuilt cfg w ifNoneMatch result s
    (s, some response)

/-- `get_attempts` under the snapshot lock. -/
def attemptsLocked (P : Primitives) (cfg : Config) (w : AttemptsWorld)
    (ifNoneMatch : Option String) (s : AppState F) : AppState F × Option Response :=
  match s.attemptsSnapshot.filter fun snapshot => !isStale cfg snapshot w.locked with
  | some snapshot => (s, some (attemptsResponse cfg snapshot ifNoneMatch w.answered))
  | none => attemptsRebuilding P cfg w ifNoneMatch s

/-- `get_attempts`. -/
def getAttempts (P : Primitives) (cfg : Config) (w : AttemptsWorld) (ifNoneMatch : Option String)
    (s : AppState F) : AppState F × Option Response :=
  let (admitted, bucket) := s.attemptsTokenBucket.tryConsume w.instant
  let s := { s with attemptsTokenBucket := bucket }
  if !admitted then (s, some (overloaded "Too many attempts telemetry requests, retry later"))
  else attemptsLocked P cfg w ifNoneMatch s

/-! ## Its steps -/

omit [BucketNumber F] in
@[simp] theorem setPoll_setPoll (s : AppState F) (r : ReqId) (call call' : AttemptsCall) :
    (s.setPoll r call).setPoll r call' = s.setPoll r call' := by
  simp [AppState.setPoll]

omit [BucketNumber F] in
theorem over_attempts : Over (.attempts r) (s.setPoll r .over) := standing_setPoll s r .over

/-- The client of the poll stays. -/
def AttemptsEvent.Stays (event : AttemptsEvent) : Prop := event ≠ .cancel

theorem turns_attempts {phase : AttemptsPhase} (hphase : phase.standing = .waiting) :
    Turns P cfg (.attempts r) (s.setPoll r (.active phase)) AttemptsEvent.Stays
      (attemptsStep P cfg (s.setPoll r (.active phase)) r phase) where
  waits := by
    rw [Over, standing_setPoll, AttemptsCall.standing, hphase]
    exact Standing.noConfusion
  step_iff := by
    intro u os
    have hpolls : (s.setPoll r (.active phase)).polls r = some (.active phase) :=
      Function.update_self r _ s.polls
    have hstep : ∀ event, step P cfg (s.setPoll r (.active phase)) (.attempts r event) =
        attemptsStep P cfg (s.setPoll r (.active phase)) r phase event := by
      intro event
      rw [step, hpolls]
    constructor
    · rintro ⟨e, ⟨ho, hstays⟩, he⟩
      cases e with
      | attempts r' event =>
        cases ho
        rw [hstep] at he
        refine ⟨event, ?_, he⟩
        rintro rfl
        cases hstays
      | fetch | store | fetchArrives | storeArrives | attemptsArrives | info | sweep => cases ho
    · rintro ⟨event, hstays, he⟩
      refine ⟨.attempts r event, ⟨rfl, ?_⟩, (hstep event).trans he⟩
      cases event with
      | cancel => exact absurd rfl hstays
      | takeToken | lockSnapshot | collect | compress | publish => rfl

/-- The poll holds the lock of the snapshot. -/
def AppState.hold (s : AppState F) (r : ReqId) : AppState F := { s with snapshotHolder := some r }

omit [BucketNumber F] in
/-- A lock that was free is free again once it is released. -/
theorem releaseSnapshot_hold (hfree : s.snapshotHolder = none) (call call' : AttemptsCall) :
    releaseSnapshot ((s.hold r).setPoll r call) r call' = s.setPoll r call' := by
  simp [releaseSnapshot, AppState.hold, AppState.setPoll, ← hfree]

theorem solo_built (hfree : s.snapshotHolder = none) {ifNoneMatch : Option String}
    {result : BuildResult} :
    Solo P cfg (.attempts r) ((s.hold r).setPoll r (.active (.built ifNoneMatch result))) t
        replies ↔
      ∃ w : AttemptsWorld, t = (publishBuilt cfg w ifNoneMatch result s).1.setPoll r .over ∧
        replies = [(publishBuilt cfg w ifNoneMatch result s).2] := by
  have hpublish : ∀ w : AttemptsWorld, attemptsStep P cfg
      ((s.hold r).setPoll r (.active (.built ifNoneMatch result))) r (.built ifNoneMatch result)
      (.publish w.answered) = some ((publishBuilt cfg w ifNoneMatch result s).1.setPoll r .over,
        [.response (.attempts r) (publishBuilt cfg w ifNoneMatch result s).2]) := by
    intro w
    cases result with
    | failed =>
      have hrelease := releaseSnapshot_hold (r := r) hfree
        (.active (.built ifNoneMatch .failed)) .over
      exact congrArg (fun u => some (u, _)) hrelease
    | built snapshot =>
      have hrelease := @releaseSnapshot_hold F { s with attemptsSnapshot := some snapshot } r hfree
        (.active (.built ifNoneMatch (.built snapshot))) .over
      exact congrArg (fun u => some (u, _)) hrelease
  rw [solo_turns (turns_attempts rfl)]
  constructor
  · rintro ⟨event, u, os, older, hstays, h, hrest, hreplies⟩
    cases event with
    | publish answered =>
      let w : AttemptsWorld := { (default : AttemptsWorld) with answered := answered }
      cases (hpublish w).symm.trans h
      rw [answers_singleton rfl] at hreplies
      exact ⟨w, (solo_ends over_attempts).mp ⟨older, hrest, hreplies⟩⟩
    | cancel => exact absurd rfl hstays
    | takeToken | lockSnapshot | collect | compress => cases h
  · rintro ⟨w, h⟩
    refine ⟨.publish w.answered, _, _, [], AttemptsEvent.noConfusion, hpublish w,
      (solo_of_over over_attempts).mpr ⟨h.1, rfl⟩, ?_⟩
    rw [answers_singleton rfl]
    exact h.2

theorem solo_compressing (hfree : s.snapshotHolder = none) {ifNoneMatch : Option String}
    {payload : AttemptsSnapshot} :
    Solo P cfg (.attempts r) ((s.hold r).setPoll r (.active (.compressing ifNoneMatch payload))) t
        replies ↔
      ∃ w : AttemptsWorld,
        t = (publishBuilt cfg w ifNoneMatch (runBuild P w payload) s).1.setPoll r .over ∧
        replies = [(publishBuilt cfg w ifNoneMatch (runBuild P w payload) s).2] := by
  have hcompress : ∀ w : AttemptsWorld, attemptsStep P cfg
      ((s.hold r).setPoll r (.active (.compressing ifNoneMatch payload))) r
      (.compressing ifNoneMatch payload) (.compress w.succeeds w.createdAt) =
        some ((s.hold r).setPoll r (.active (.built ifNoneMatch (runBuild P w payload))), []) := by
    intro w
    rw [attemptsStep, runBuild]
    simp
  rw [solo_turns (turns_attempts rfl)]
  constructor
  · rintro ⟨event, u, os, older, hstays, h, hrest, hreplies⟩
    cases event with
    | compress succeeds createdAt =>
      let w : AttemptsWorld :=
        { (default : AttemptsWorld) with succeeds := succeeds, createdAt := createdAt }
      cases (hcompress w).symm.trans h
      obtain ⟨w', hleft⟩ := (solo_built hfree).mp (solo_goes.mp ⟨older, hrest, hreplies⟩)
      exact ⟨{ w' with succeeds := succeeds, createdAt := createdAt }, hleft⟩
    | cancel => exact absurd rfl hstays
    | takeToken | lockSnapshot | collect | publish => cases h
  · rintro ⟨w, h⟩
    exact ⟨.compress w.succeeds w.createdAt, _, _, replies, AttemptsEvent.noConfusion, hcompress w,
      (solo_built hfree).mpr ⟨w, h⟩, (List.append_nil _).symm⟩

theorem solo_collecting (hfree : s.snapshotHolder = none) {ifNoneMatch : Option String} {now : ℤ} :
    Solo P cfg (.attempts r) ((s.hold r).setPoll r (.active (.mapLock ifNoneMatch now))) t
        replies ↔
      ∃ w : AttemptsWorld, w.utc = now ∧
        t = (attemptsRebuilding P cfg w ifNoneMatch s).1.setPoll r .over ∧
        replies = (attemptsRebuilding P cfg w ifNoneMatch s).2.toList := by
  have hcollect : ∀ order, attemptsStep P cfg
      ((s.hold r).setPoll r (.active (.mapLock ifNoneMatch now))) r (.mapLock ifNoneMatch now)
      (.collect order) = some (collectSnapshot cfg
        ((s.hold r).setPoll r (.active (.mapLock ifNoneMatch now))) r ifNoneMatch now order) :=
    fun _ => rfl
  have hturn : ∀ order, ∃ u os, collectSnapshot cfg
      ((s.hold r).setPoll r (.active (.mapLock ifNoneMatch now))) r ifNoneMatch now order = (u, os) ∧
      ((∃ older, Solo P cfg (.attempts r) u t older ∧ replies = older ++ answers (.attempts r) os) ↔
        ∃ w : AttemptsWorld, w.order = order ∧ w.utc = now ∧
          t = (attemptsRebuilding P cfg w ifNoneMatch s).1.setPoll r .over ∧
          replies = (attemptsRebuilding P cfg w ifNoneMatch s).2.toList) := by
    intro order
    have hmap : (s.hold r).identifierRateLimit = s.identifierRateLimit := rfl
    rw [collectSnapshot_eq, AppState.identifierRateLimit_setPoll, hmap]
    cases hbuild : buildPayload cfg now order s.identifierRateLimit with
    | none =>
      have hrebuild : ∀ w : AttemptsWorld, w.order = order → w.utc = now →
          attemptsRebuilding P cfg w ifNoneMatch s =
            (s.setMap (retainWithinCooldown cfg now s.identifierRateLimit), none) := by
        rintro w rfl rfl
        rw [attemptsRebuilding, buildSnapshot, hbuild]
        rfl
      have hrelease := @releaseSnapshot_hold F
        (s.setMap (retainWithinCooldown cfg now s.identifierRateLimit)) r hfree
        (.active (.mapLock ifNoneMatch now)) .over
      have hsilent : answers (.attempts r) [.panicked (.attempts r), .retained now] = [] := rfl
      refine ⟨_, _, congrArg (fun u => (u, _)) hrelease, ?_⟩
      rw [hsilent, solo_ends over_attempts]
      constructor
      · rintro ⟨rfl, rfl⟩
        refine ⟨{ (default : AttemptsWorld) with order := order, utc := now }, rfl, rfl, ?_⟩
        rw [hrebuild _ rfl rfl]
        exact ⟨rfl, rfl⟩
      · rintro ⟨w, horder, hutc, h⟩
        rwa [hrebuild w horder hutc] at h
    | some payload =>
      have hrebuild : ∀ w : AttemptsWorld, w.order = order → w.utc = now →
          attemptsRebuilding P cfg w ifNoneMatch s =
            Prod.map id some (publishBuilt cfg w ifNoneMatch (runBuild P w payload)
              (s.setMap (retainWithinCooldown cfg now s.identifierRateLimit))) := by
        rintro w rfl rfl
        rw [attemptsRebuilding, buildSnapshot, hbuild]
        rfl
      have hcollected : AppState.setPoll (AppState.setMap
          ((s.hold r).setPoll r (.active (.mapLock ifNoneMatch now)))
            (retainWithinCooldown cfg now s.identifierRateLimit)) r
          (.active (.compressing ifNoneMatch payload)) =
            (AppState.hold (s.setMap (retainWithinCooldown cfg now s.identifierRateLimit)) r).setPoll
              r (.active (.compressing ifNoneMatch payload)) :=
        setPoll_setPoll ((s.setMap (retainWithinCooldown cfg now s.identifierRateLimit)).hold r) r _ _
      have hfree' :
          (s.setMap (retainWithinCooldown cfg now s.identifierRateLimit)).snapshotHolder = none := hfree
      have hsilent : answers (.attempts r) [.retained now] = [] := rfl
      refine ⟨_, _, congrArg (fun u => (u, _)) hcollected, ?_⟩
      rw [hsilent, solo_goes, solo_compressing hfree']
      constructor
      · rintro ⟨w, h⟩
        refine ⟨{ w with order := order, utc := now }, rfl, rfl, ?_⟩
        rw [hrebuild _ rfl rfl]
        exact h
      · rintro ⟨w, horder, hutc, h⟩
        rw [hrebuild w horder hutc] at h
        exact ⟨w, h⟩
  rw [solo_turns (turns_attempts rfl)]
  constructor
  · rintro ⟨event, u, os, older, hstays, h, hrest, hreplies⟩
    cases event with
    | collect order =>
      obtain ⟨v, vs, hv, hiff⟩ := hturn order
      rw [hcollect, hv] at h
      cases h
      obtain ⟨w, -, hleft⟩ := hiff.mp ⟨older, hrest, hreplies⟩
      exact ⟨w, hleft⟩
    | cancel => exact absurd rfl hstays
    | takeToken | lockSnapshot | compress | publish => cases h
  · rintro ⟨w, h⟩
    obtain ⟨v, vs, hv, hiff⟩ := hturn w.order
    obtain ⟨older, hrest, hreplies⟩ := hiff.mpr ⟨w, rfl, h⟩
    exact ⟨.collect w.order, v, vs, older, AttemptsEvent.noConfusion,
      (hcollect w.order).trans (congrArg some hv), hrest, hreplies⟩

theorem solo_snapshotLock (hfree : s.snapshotHolder = none) {ifNoneMatch : Option String} :
    Solo P cfg (.attempts r) (s.setPoll r (.active (.snapshotLock ifNoneMatch))) t replies ↔
      ∃ w : AttemptsWorld, t = (attemptsLocked P cfg w ifNoneMatch s).1.setPoll r .over ∧
        replies = (attemptsLocked P cfg w ifNoneMatch s).2.toList := by
  have hheld : (s.setPoll r (.active (.snapshotLock ifNoneMatch))).snapshotHolder = none := hfree
  have hcached : (s.setPoll r (.active (.snapshotLock ifNoneMatch))).attemptsSnapshot =
      s.attemptsSnapshot := rfl
  have hanswer : ∀ now utc later snapshot,
      s.attemptsSnapshot.filter (fun snapshot => !isStale cfg snapshot now) = some snapshot →
      attemptsStep P cfg (s.setPoll r (.active (.snapshotLock ifNoneMatch))) r
        (.snapshotLock ifNoneMatch) (.lockSnapshot now utc later) = some (s.setPoll r .over,
          [.response (.attempts r) (attemptsResponse cfg snapshot ifNoneMatch later)]) := by
    intro now utc later snapshot hfresh
    simp [attemptsStep, lockSnapshot, hheld, hcached, hfresh]
  have hbuild : ∀ now utc later,
      s.attemptsSnapshot.filter (fun snapshot => !isStale cfg snapshot now) = none →
      attemptsStep P cfg (s.setPoll r (.active (.snapshotLock ifNoneMatch))) r
        (.snapshotLock ifNoneMatch) (.lockSnapshot now utc later) =
          some ((s.hold r).setPoll r (.active (.mapLock ifNoneMatch utc)), []) := by
    intro now utc later hstale
    simp only [attemptsStep, lockSnapshot, hheld, hcached, hstale, Option.isSome_none,
      Bool.false_eq_true, if_false]
    exact congrArg (fun u => some (u, [])) (setPoll_setPoll (s.hold r) r _ _)
  rw [solo_turns (turns_attempts rfl)]
  constructor
  · rintro ⟨event, u, os, older, hstays, h, hrest, hreplies⟩
    cases event with
    | lockSnapshot now utc later =>
      cases hfresh : s.attemptsSnapshot.filter fun snapshot => !isStale cfg snapshot now with
      | some snapshot =>
        cases (hanswer now utc later snapshot hfresh).symm.trans h
        rw [answers_singleton rfl] at hreplies
        refine ⟨{ (default : AttemptsWorld) with locked := now, answered := later }, ?_⟩
        rw [attemptsLocked, hfresh]
        exact (solo_ends over_attempts).mp ⟨older, hrest, hreplies⟩
      | none =>
        cases (hbuild now utc later hfresh).symm.trans h
        obtain ⟨w, -, hleft⟩ :=
          (solo_collecting hfree).mp (solo_goes.mp ⟨older, hrest, hreplies⟩)
        refine ⟨{ w with locked := now }, ?_⟩
        rw [attemptsLocked, hfresh]
        exact hleft
    | cancel => exact absurd rfl hstays
    | takeToken | collect | compress | publish => cases h
  · rintro ⟨w, h⟩
    refine ⟨.lockSnapshot w.locked w.utc w.answered, ?_⟩
    rw [attemptsLocked] at h
    cases hfresh : s.attemptsSnapshot.filter fun snapshot => !isStale cfg snapshot w.locked with
    | some snapshot =>
      rw [hfresh] at h
      refine ⟨_, _, [], AttemptsEvent.noConfusion, hanswer _ _ _ _ hfresh,
        (solo_of_over over_attempts).mpr ⟨h.1, rfl⟩, ?_⟩
      rw [answers_singleton rfl]
      exact h.2
    | none =>
      rw [hfresh] at h
      exact ⟨_, _, replies, AttemptsEvent.noConfusion, hbuild _ _ _ hfresh,
        (solo_collecting hfree).mpr ⟨w, rfl, h⟩, (List.append_nil _).symm⟩

theorem solo_pollBucket (hfree : s.snapshotHolder = none) {ifNoneMatch : Option String} :
    Solo P cfg (.attempts r) (s.setPoll r (.active (.bucket ifNoneMatch))) t replies ↔
      ∃ w : AttemptsWorld, t = (getAttempts P cfg w ifNoneMatch s).1.setPoll r .over ∧
        replies = (getAttempts P cfg w ifNoneMatch s).2.toList := by
  have htake : ∀ now, attemptsStep P cfg (s.setPoll r (.active (.bucket ifNoneMatch))) r
      (.bucket ifNoneMatch) (.takeToken now) = some (takeAttemptsToken
        (s.setPoll r (.active (.bucket ifNoneMatch))) r ifNoneMatch now) :=
    fun _ => rfl
  have hturn : ∀ now, ∃ u os, takeAttemptsToken (s.setPoll r (.active (.bucket ifNoneMatch))) r
      ifNoneMatch now = (u, os) ∧
      ((∃ older, Solo P cfg (.attempts r) u t older ∧ replies = older ++ answers (.attempts r) os) ↔
        ∃ w : AttemptsWorld, w.instant = now ∧
          t = (getAttempts P cfg w ifNoneMatch s).1.setPoll r .over ∧
          replies = (getAttempts P cfg w ifNoneMatch s).2.toList) := by
    intro now
    obtain ⟨admitted, bucket, htry⟩ :
        ∃ admitted bucket, s.attemptsTokenBucket.tryConsume now = (admitted, bucket) := ⟨_, _, rfl⟩
    have htry' : (s.setPoll r (.active (.bucket ifNoneMatch))).attemptsTokenBucket.tryConsume now =
        (admitted, bucket) := htry
    have hfree' : { s with attemptsTokenBucket := bucket }.snapshotHolder = none := hfree
    cases admitted with
    | true =>
      refine ⟨AppState.setPoll { s with attemptsTokenBucket := bucket } r
        (.active (.snapshotLock ifNoneMatch)), [], ?_, ?_⟩
      · rw [takeAttemptsToken, htry']
        exact congrArg (fun u => (u, []))
          (setPoll_setPoll { s with attemptsTokenBucket := bucket } r _ _)
      · rw [answers, List.filterMap_nil, solo_goes, solo_snapshotLock hfree']
        constructor
        · rintro ⟨w, h⟩
          refine ⟨{ w with instant := now }, rfl, ?_⟩
          rw [getAttempts, htry]
          exact h
        · rintro ⟨w, rfl, h⟩
          rw [getAttempts, htry] at h
          exact ⟨w, h⟩
    | false =>
      refine ⟨AppState.setPoll { s with attemptsTokenBucket := bucket } r .over,
        [.response (.attempts r)
          (overloaded "Too many attempts telemetry requests, retry later")], ?_, ?_⟩
      · rw [takeAttemptsToken, htry']
        exact congrArg (fun u => (u, _))
          (setPoll_setPoll { s with attemptsTokenBucket := bucket } r _ _)
      · rw [answers_singleton rfl, solo_ends over_attempts]
        constructor
        · rintro ⟨rfl, rfl⟩
          refine ⟨{ (default : AttemptsWorld) with instant := now }, rfl, ?_⟩
          rw [getAttempts, htry]
          exact ⟨rfl, rfl⟩
        · rintro ⟨w, rfl, h⟩
          rwa [getAttempts, htry] at h
  rw [solo_turns (turns_attempts rfl)]
  constructor
  · rintro ⟨event, u, os, older, hstays, h, hrest, hreplies⟩
    cases event with
    | takeToken now =>
      obtain ⟨v, vs, hv, hiff⟩ := hturn now
      rw [htake, hv] at h
      cases h
      obtain ⟨w, -, hleft⟩ := hiff.mp ⟨older, hrest, hreplies⟩
      exact ⟨w, hleft⟩
    | cancel => exact absurd rfl hstays
    | lockSnapshot | collect | compress | publish => cases h
  · rintro ⟨w, h⟩
    obtain ⟨v, vs, hv, hiff⟩ := hturn w.instant
    obtain ⟨older, hrest, hreplies⟩ := hiff.mpr ⟨w, rfl, h⟩
    exact ⟨.takeToken w.instant, v, vs, older, AttemptsEvent.noConfusion,
      (htake w.instant).trans (congrArg some hv), hrest, hreplies⟩

/-- A poll that finds the lock of the snapshot free and that nothing interrupts is its handler. -/
theorem get_attempts_refined {F : Type} [BucketNumber F] {P : Primitives} {cfg : Config}
    {s t : AppState F} {r : ReqId} {ifNoneMatch : Option String} {replies : List Response}
    (hnew : s.polls r = none) (hfree : s.snapshotHolder = none) :
    Handled P cfg (.attemptsArrives r ifNoneMatch) (.attempts r) s t replies ↔
      ∃ w : AttemptsWorld, t = (getAttempts P cfg w ifNoneMatch s).1.setPoll r .over ∧
        replies = (getAttempts P cfg w ifNoneMatch s).2.toList := by
  have harrives : step P cfg s (.attemptsArrives r ifNoneMatch) =
      some (s.setPoll r (.active (.bucket ifNoneMatch)), []) := by
    simp [step, hnew]
  rw [handled_iff harrives, answers, List.filterMap_nil, solo_goes, solo_pollBucket hfree]

/-- The first poll builds the snapshot and is answered with it. -/
theorem get_attempts_refined_sample : ∃ t response, response.status = .ok ∧
    Handled .sample .sample (.attemptsArrives 0 none) (.attempts 0) AppState.sample t [response] := by
  have hanswer : ((getAttempts .sample .sample default none AppState.sample).2.any fun response =>
      decide (response.status = .ok)) = true := by
    decide +kernel
  obtain ⟨response, hresponse, hstatus⟩ := (Option.any_eq_true _ _).mp hanswer
  refine ⟨_, response, of_decide_eq_true hstatus,
    (get_attempts_refined rfl rfl).mpr ⟨default, rfl, ?_⟩⟩
  rw [hresponse]
  rfl

end RecoverBull
