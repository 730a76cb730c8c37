import RecoverBull.Server.Step
import RecoverBull.Limiter.Operations

/-!
# What a step can do to the limiter

`Effect` lists what a step of the server can do to the rate-limit map, with the
observations that go with it, and `step_effect` that it lists everything.
-/

namespace RecoverBull

variable {F : Type}

/-- A reservation: a pending candidate in the window that started at `generation`. -/
structure Slot where
  idHash : String
  candidate : CandidateTag
  generation : ℤ
  deriving DecidableEq, Repr

def Lookup.slot (q : Lookup) (a : Admitted) : Slot := ⟨q.idHash, q.candidate, a.generation⟩

/-- The reservation a lookup still has to resolve, with what its admission gave it. -/
def FetchPhase.owned : FetchPhase → Option Admitted
  | .bucket | .clock | .mapLock _ | .working _ _ (.finished _) => none
  | .permit a | .working a _ _ => if a.isNew then some a else none
  | .refund a | .lostRefund a | .deferred a => some a

/-- Observations that do not come from a critical section on the map. -/
def Obs.isIdle : Obs → Bool
  | .admission _ _ | .refunded _ | .finalized _ _ | .retained _ | .panicked (.attempts _) => false
  | _ => true

inductive Effect (cfg : Config) (s s' : AppState F) (os : Log) : Prop
  | idle (hmap : s'.identifierRateLimit = s.identifierRateLimit) (hos : ∀ o ∈ os, o.isIdle = true)
  | admission (r : ReqId) (q : Lookup) (t : ℤ) (extra : Log)
      (hq : s.fetches r = some (.active q)) (hphase : q.phase = .mapLock t)
      (hmap : s'.identifierRateLimit =
        (admitRequest cfg s.identifierRateLimit q.idHash q.candidate t).1)
      (hos : os = extra ++
        [.admission r (admissionRecord cfg s.identifierRateLimit q.idHash q.candidate t)])
      (hextra : ∀ o ∈ extra, o.isIdle = true)
  | refund (r : ReqId) (q : Lookup) (a : Admitted) (hq : s.fetches r = some (.active q))
      (ha : q.phase.owned = some a)
      (hmap : s'.identifierRateLimit =
        removePending s.identifierRateLimit q.idHash q.candidate a.generation)
      (extra extra' : Log) (hos : os = extra ++ .refunded r :: extra')
      (hextra : ∀ o ∈ extra, o.isIdle = true) (hextra' : ∀ o ∈ extra', o.isIdle = true)
  | finalize (r : ReqId) (q : Lookup) (a : Admitted) (client : Bool) (result : LookupResult)
      (hq : s.fetches r = some (.active q))
      (hphase : q.phase = .working a client (.finalizing result)) (ha : a.isNew = true)
      (hmap : s'.identifierRateLimit =
        RecoverBull.finalize s.identifierRateLimit q.idHash q.candidate a.generation result)
      (hos : os = [.finalized r result])
  | retain (now : ℤ)
      (hmap : s'.identifierRateLimit = retainWithinCooldown cfg now s.identifierRateLimit)
      (extra : Log) (hos : os = extra ++ [.retained now]) (hextra : ∀ o ∈ extra, ∃ r order,
        o = .panicked (.attempts r) ∧ collectEntries order s'.identifierRateLimit = none)

theorem fetchArrives_effect {P : Primitives} {cfg : Config} {s s' : AppState F} {r : ReqId}
    {isTrashingSecret : Bool} {request : FetchSecret} {os : Log}
    (h : fetchArrives P s r isTrashingSecret request = some (s', os)) : Effect cfg s s' os := by
  unfold fetchArrives at h
  repeat' split at h
  all_goals cases h
  all_goals exact .idle rfl (by simp [Obs.isIdle])

theorem enterMap_effect {cfg : Config} {s s' : AppState F} {r : ReqId} {q : Lookup} {t : ℤ}
    {os : Log} (hq : s.fetches r = some (.active q)) (hphase : q.phase = .mapLock t)
    (h : enterMap cfg s r q t = (s', os)) : Effect cfg s s' os := by
  have main : ∀ extra : Log, (∀ o ∈ extra, o.isIdle = true) → os = extra ++
      [.admission r (admissionRecord cfg s.identifierRateLimit q.idHash q.candidate t)] →
      s'.identifierRateLimit = (admitRequest cfg s.identifierRateLimit q.idHash q.candidate t).1 →
      Effect cfg s s' os := fun extra hextra hos hmap =>
    .admission r q t extra hq hphase hmap hos hextra
  unfold enterMap at h
  dsimp only at h
  split at h <;> cases h
  · exact main [] (by simp) rfl rfl
  · exact main [] (by simp) rfl rfl
  · exact main [_] (by simp [Obs.isIdle]) rfl rfl
  · exact main [_] (by simp [Obs.isIdle]) rfl rfl
  · exact main [_] (by simp [Obs.isIdle]) rfl rfl
  · exact main [_] (by simp [Obs.isIdle]) rfl rfl

theorem cancelFetch_effect {cfg : Config} {s s' : AppState F} {r : ReqId} {q : Lookup}
    {contended : Bool} {os : Log} (hq : s.fetches r = some (.active q))
    (h : cancelFetch s r q contended = some (s', os)) : Effect cfg s s' os := by
  -- The guard of a reservation refunds it now, or leaves that to a task.
  have hdrop : ∀ a, q.phase.owned = some a → dropGuard s r q a contended = (s', os) →
      Effect cfg s s' os := by
    intro a ha hd
    unfold dropGuard at hd
    split at hd <;> cases hd
    · exact .idle rfl (by simp [Obs.isIdle])
    · exact .refund r q a hq ha rfl [] [_] rfl (by simp) (by simp [Obs.isIdle])
  unfold cancelFetch at h
  split at h
  · cases h
    exact .idle rfl (by simp [Obs.isIdle])
  · cases h
    exact .idle rfl (by simp [Obs.isIdle])
  · cases h
    exact .idle rfl (by simp [Obs.isIdle])
  · next a hp =>
    split at h
    · next hnew => exact hdrop a (by simp only [hp, FetchPhase.owned, hnew, if_true]) (Option.some.inj h)
    · cases h
      exact .idle rfl (by simp [Obs.isIdle])
  · next a hp => exact hdrop a (by rw [hp, FetchPhase.owned]) (Option.some.inj h)
  · cases h
    exact .idle rfl (by simp [Obs.isIdle])
  · cases h

theorem fetchStep_effect [BucketNumber F] {cfg : Config} {s s' : AppState F} {r : ReqId}
    {q : Lookup} {event : FetchEvent} {os : Log} (hq : s.fetches r = some (.active q))
    (h : fetchStep cfg s r q event = some (s', os)) : Effect cfg s s' os := by
  cases event with
  | takeToken now =>
    simp only [fetchStep] at h
    split at h
    · unfold takeLookupToken at h
      dsimp only at h
      split at h <;> cases h
      · exact .idle rfl (by simp)
      · exact .idle rfl (by simp [Obs.isIdle])
    · cases h
  | enter =>
    simp only [fetchStep] at h
    split at h
    · next t hp => exact enterMap_effect hq hp (Option.some.inj h)
    · cases h
  | removePending =>
    simp only [fetchStep] at h
    -- The three refunds differ in what the client is told.
    have main : ∀ a (extra : Log), q.phase.owned = some a → (∀ o ∈ extra, o.isIdle = true) →
        ((refundReservation s q a).setFetch r .over, extra ++ [.refunded r]) = (s', os) →
        Effect cfg s s' os := by
      rintro a extra ha hextra he
      cases he
      exact .refund r q a hq ha rfl extra [] rfl hextra (by simp)
    split at h
    · next a hp => exact main a [_] (by rw [hp, FetchPhase.owned]) (by simp [Obs.isIdle]) (Option.some.inj h)
    · next a hp => exact main a [_] (by rw [hp, FetchPhase.owned]) (by simp [Obs.isIdle]) (Option.some.inj h)
    · next a hp => exact main a [] (by rw [hp, FetchPhase.owned]) (by simp) (Option.some.inj h)
    · cases h
  | finalize =>
    simp only [fetchStep] at h
    split at h
    · next a client result hp =>
      split at h <;> cases h
      · next hnew => exact .finalize r q a client result hq hp hnew rfl rfl
      · exact .idle rfl (by simp)
    · cases h
  | cancel contended => exact cancelFetch_effect hq h
  | readClock now | permit granted | query outcome | loseTask | respond =>
    simp only [fetchStep] at h
    repeat' split at h
    all_goals cases h
    all_goals exact .idle rfl (by simp [Obs.isIdle])

/-- A store leaves the map alone. -/
theorem storeStep_effect [BucketNumber F] {P : Primitives} {cfg : Config} {s s' : AppState F}
    {r : ReqId} {phase : StorePhase} {event : StoreEvent} {os : Log}
    (h : storeStep P s r phase event = some (s', os)) : Effect cfg s s' os := by
  cases event <;> simp only [storeStep] at h <;> repeat' split at h
  all_goals cases h
  all_goals exact .idle rfl (by simp [Obs.isIdle])

theorem attemptsStep_effect [BucketNumber F] {P : Primitives} {cfg : Config} {s s' : AppState F}
    {r : ReqId} {phase : AttemptsPhase} {event : AttemptsEvent} {os : Log}
    (h : attemptsStep P cfg s r phase event = some (s', os)) : Effect cfg s s' os := by
  cases event with
  | takeToken now =>
    simp only [attemptsStep, takeAttemptsToken] at h
    repeat' split at h
    all_goals cases h
    all_goals exact .idle rfl (by simp [Obs.isIdle])
  | lockSnapshot now utc later =>
    simp only [attemptsStep, lockSnapshot] at h
    repeat' split at h
    all_goals cases h
    all_goals exact .idle rfl (by simp [Obs.isIdle])
  | collect order =>
    simp only [attemptsStep, collectSnapshot] at h
    split at h
    · split at h
      · next hnone =>
        cases h
        refine .retain _ rfl [_] rfl fun o ho => ?_
        obtain rfl := List.mem_singleton.mp ho
        exact ⟨r, order, rfl, hnone⟩
      · cases h
        exact .retain _ rfl [] rfl (by simp)
    · cases h
  | compress succeeds createdAt =>
    simp only [attemptsStep] at h
    split at h <;> cases h
    all_goals exact .idle rfl (by simp)
  | publish now =>
    simp only [attemptsStep, publishSnapshot] at h
    repeat' split at h
    all_goals cases h
    all_goals exact .idle rfl (by simp [Obs.isIdle])
  | cancel =>
    simp only [attemptsStep] at h
    split at h <;> cases h
    all_goals exact .idle rfl (by simp [Obs.isIdle])

/-- `Effect` leaves nothing out: every step has one of the effects. -/
theorem step_effect [BucketNumber F] {P : Primitives} {cfg : Config} {s s' : AppState F}
    {event : Event} {os : Log} (h : step P cfg s event = some (s', os)) : Effect cfg s s' os := by
  cases event with
  | fetchArrives r isTrashingSecret request => exact fetchArrives_effect h
  | fetch r event =>
    simp only [step] at h
    split at h
    · next q hq => exact fetchStep_effect hq h
    · cases h
  | storeArrives r request =>
    simp only [step, storeArrives] at h
    repeat' split at h
    all_goals cases h
    all_goals exact .idle rfl (by simp [Obs.isIdle])
  | store r event =>
    simp only [step] at h
    split at h
    · exact storeStep_effect h
    · cases h
  | attemptsArrives r ifNoneMatch =>
    simp only [step] at h
    split at h <;> cases h
    exact .idle rfl (by simp)
  | attempts r event =>
    simp only [step] at h
    split at h
    · exact attemptsStep_effect h
    · cases h
  | info r metadata file =>
    cases h
    exact .idle rfl (by simp [Obs.isIdle])
  | sweep now =>
    cases h
    exact .retain now rfl [] rfl (by simp)

/-- A step that records an admission is one. -/
theorem Effect.of_admission {cfg : Config} {s s' : AppState F} {os : Log}
    (he : Effect cfg s s' os) {r : ReqId} {record : AdmissionRecord}
    (hm : .admission r record ∈ os) :
    ∃ q t extra, s.fetches r = some (.active q) ∧ q.phase = .mapLock t ∧
      record = admissionRecord cfg s.identifierRateLimit q.idHash q.candidate t ∧
      s'.identifierRateLimit =
        (admitRequest cfg s.identifierRateLimit q.idHash q.candidate t).1 ∧
      os = extra ++ [.admission r record] ∧ ∀ o ∈ extra, o.isIdle = true := by
  have hnot : ∀ {extra : Log}, (∀ o ∈ extra, o.isIdle = true) → .admission r record ∉ extra :=
    fun hextra hm => Bool.noConfusion (hextra _ hm)
  cases he with
  | idle _ hos => exact absurd hm (hnot hos)
  | admission r' q t extra hq hphase hmap hos hextra =>
    have hm' := hm
    rw [hos, List.mem_append, List.mem_singleton] at hm'
    cases hm'.resolve_left (hnot hextra)
    exact ⟨q, t, extra, hq, hphase, rfl, hmap, hos, hextra⟩
  | refund _ _ _ _ _ _ _ _ hos hextra hextra' =>
    rw [hos, List.mem_append, List.mem_cons] at hm
    obtain hm | hm | hm := hm
    · exact absurd hm (hnot hextra)
    · cases hm
    · exact absurd hm (hnot hextra')
  | finalize _ _ _ _ _ _ _ _ _ hos => simp [hos] at hm
  | retain _ _ extra hos hextra =>
    rw [hos, List.mem_append, List.mem_singleton] at hm
    obtain hm | hm := hm
    · obtain ⟨_, _, ho, _⟩ := hextra _ hm
      cases ho
    · cases hm

end RecoverBull
