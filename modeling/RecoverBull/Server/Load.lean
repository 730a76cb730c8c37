import RecoverBull.Buckets
import RecoverBull.Server.Frame

/-!
# The load the buckets let through

The work behind an endpoint (its critical section on the map, its database closure,
its answer from the snapshot) is done for the calls its token bucket let through, and
each bucket lets through what its settings say, whatever the calls in between. The
bounds are those of a bucket that counts in rational numbers.
-/

namespace RecoverBull

variable {F : Type} {P : Primitives} {cfg : Config} {s s' : AppState F} {os log : Log}
  {event : Event}

/-! ## A bucket called over and over -/

/-- The bucket after calls with the given readings, and how many it admitted. -/
def TokenBucket.serve [BucketNumber F] (bucket : TokenBucket F) : List ℕ → ℕ × TokenBucket F
  | [] => (0, bucket)
  | now :: readings =>
    let rest := serve (bucket.tryConsume now).2 readings
    ((bucket.tryConsume now).1.toNat + rest.1, rest.2)

namespace TokenBucket

theorem serve_append [BucketNumber F] (bucket : TokenBucket F) (readings readings' : List ℕ) :
    bucket.serve (readings ++ readings') =
      ((bucket.serve readings).1 + ((bucket.serve readings).2.serve readings').1,
        ((bucket.serve readings).2.serve readings').2) := by
  induction readings generalizing bucket with
  | nil => simp [serve]
  | cons now readings ih => simp [serve, ih, add_assoc]

variable {bucket : TokenBucket ℚ} {now : ℕ} {readings : List ℕ}

/-- The tokens of a bucket are between nothing and its capacity, and it never leaks. -/
structure Sound (bucket : TokenBucket ℚ) : Prop where
  tokens_nonneg : 0 ≤ bucket.tokens
  tokens_le : bucket.tokens ≤ bucket.capacity
  refill_nonneg : 0 ≤ bucket.refillPerSecond

theorem Sound.new {c r : ℚ} (hc : 0 ≤ c) (hr : 0 ≤ r) (start : ℕ) : (new c r start).Sound :=
  ⟨hc, le_rfl, hr⟩

/-- One call: what it takes and leaves comes from what was there and what was refilled. -/
theorem Sound.tryConsume (h : bucket.Sound) (hnow : bucket.lastRefill ≤ now) :
    (bucket.tryConsume now).2.Sound ∧
    (bucket.tryConsume now).2.capacity = bucket.capacity ∧
    (bucket.tryConsume now).2.refillPerSecond = bucket.refillPerSecond ∧
    (bucket.tryConsume now).2.lastRefill = now ∧
    ((bucket.tryConsume now).1.toNat : ℚ) + (bucket.tryConsume now).2.tokens ≤
      min (bucket.tokens + (secs now - secs bucket.lastRefill) * bucket.refillPerSecond)
        bucket.capacity := by
  obtain ⟨hnonneg, hle, hrefill⟩ := h
  have helapsed : 0 ≤ secs now - secs bucket.lastRefill := sub_nonneg.mpr (secs_mono hnow)
  have hgain := mul_nonneg helapsed hrefill
  have hlevel : 0 ≤ min
      (bucket.tokens + (secs now - secs bucket.lastRefill) * bucket.refillPerSecond)
      bucket.capacity := le_min (by linarith) (by linarith)
  have htop := min_le_right
    (bucket.tokens + (secs now - secs bucket.lastRefill) * bucket.refillPerSecond) bucket.capacity
  rw [tryConsume_eq, secs_sub hnow]
  split
  · next hone =>
    exact ⟨⟨by linarith, by dsimp only; linarith, hrefill⟩, rfl, rfl, rfl, by simp⟩
  · exact ⟨⟨hlevel, htop, hrefill⟩, rfl, rfl, rfl, by simp⟩

/-- What a bucket admits is covered by its tokens and what is refilled meanwhile. -/
theorem Sound.serve_le (h : bucket.Sound) (hclock : (bucket.lastRefill :: readings).Pairwise (· ≤ ·))
    {b : ℕ} (hb : ∀ now ∈ bucket.lastRefill :: readings, now ≤ b) :
    ((bucket.serve readings).1 : ℚ) ≤
      bucket.tokens + bucket.refillPerSecond * (secs b - secs bucket.lastRefill) := by
  induction readings generalizing bucket with
  | nil =>
    have hspan : secs bucket.lastRefill ≤ secs b := secs_mono (hb _ List.mem_cons_self)
    have hgain := mul_nonneg h.refill_nonneg (sub_nonneg.mpr hspan)
    have htokens := h.tokens_nonneg
    simp only [serve, Nat.cast_zero]
    linarith
  | cons now readings ih =>
    obtain ⟨hfirst, hrest⟩ := List.pairwise_cons.mp hclock
    obtain ⟨hsound, -, hrefill, hlast, hspent⟩ :=
      h.tryConsume (hfirst now List.mem_cons_self)
    rw [← hlast] at hrest
    have hrec := ih hsound hrest fun t ht => by
      rw [hlast] at ht
      exact hb t (List.mem_cons_of_mem _ ht)
    rw [hrefill, hlast] at hrec
    have hcover := hspent.trans (min_le_left _ _)
    simp only [serve, Nat.cast_add]
    linarith

theorem Sound.serve (h : bucket.Sound) (hclock : (bucket.lastRefill :: readings).Pairwise (· ≤ ·)) :
    (bucket.serve readings).2.Sound ∧
      (bucket.serve readings).2.capacity = bucket.capacity ∧
      (bucket.serve readings).2.refillPerSecond = bucket.refillPerSecond ∧
      (bucket.serve readings).2.lastRefill = (bucket.lastRefill :: readings).getLast (by simp) := by
  induction readings generalizing bucket with
  | nil => exact ⟨h, rfl, rfl, rfl⟩
  | cons now readings ih =>
    obtain ⟨hfirst, hrest⟩ := List.pairwise_cons.mp hclock
    obtain ⟨hsound, hcap, hrefill, hlast, -⟩ := h.tryConsume (hfirst now List.mem_cons_self)
    rw [← hlast] at hrest
    obtain ⟨hsound', hcap', hrefill', hlast'⟩ := ih hsound hrest
    refine ⟨hsound', hcap'.trans hcap, hrefill'.trans hrefill, hlast'.trans ?_⟩
    simp [hlast]

end TokenBucket

/-! ## The endpoints and what is done behind them -/

/-- The endpoints with a token bucket. -/
inductive Endpoint
  | store
  | lookup
  | attempts
  deriving DecidableEq

def Call.endpoint : Call → Option Endpoint
  | .store _ => some .store
  | .fetch _ => some .lookup
  | .attempts _ => some .attempts
  | .info _ => none

def AppState.bucketOf (s : AppState F) : Endpoint → TokenBucket F
  | .store => s.storeTokenBucket
  | .lookup => s.lookupTokenBucket
  | .attempts => s.attemptsTokenBucket

/-- The reading of the monotonic clock with which a call asks its bucket. -/
def Event.reading : Event → Option ℕ
  | .fetch _ (.takeToken now) | .store _ (.takeToken now) | .attempts _ (.takeToken now) => some now
  | _ => none

/-- The readings of an endpoint over a schedule. -/
def readings (e : Endpoint) (events : List Event) : List ℕ :=
  events.filterMap fun event => if event.call.bind Call.endpoint = some e then event.reading else none

theorem readings_append (e : Endpoint) (events events' : List Event) :
    readings e (events ++ events') = readings e events ++ readings e events' :=
  List.filterMap_append

theorem readings_singleton (e : Endpoint) (event : Event) :
    readings e [event] = if event.call.bind Call.endpoint = some e then event.reading.toList else [] := by
  by_cases he : event.call.bind Call.endpoint = some e
  · cases hr : event.reading <;> simp [readings, he, hr]
  · simp [readings, he]

def FetchCall.hasPaid : FetchCall → Bool
  | .active ⟨_, _, _, .bucket⟩ => false
  | .active _ => true
  | .over => false

def StoreCall.hasPaid : StoreCall → Bool
  | .active (.bucket _ _) => false
  | .active _ => true
  | .over => false

def AttemptsCall.hasPaid : AttemptsCall → Bool
  | .active (.bucket _) => false
  | .active _ => true
  | .over => false

/-- The call is in flight and has its token. -/
def AppState.hasPaid (s : AppState F) : Call → Bool
  | .fetch r => (s.fetches r).any FetchCall.hasPaid
  | .store r => (s.stores r).any StoreCall.hasPaid
  | .attempts r => (s.polls r).any AttemptsCall.hasPaid
  | .info _ => false

/-- The call for which the observed work was done: a visit to the map, a closure on
the database, or an answer to `/attempts` that is no refusal. -/
def Obs.workedFor : Obs → Option Call
  | .admission r _ | .queried r _ _ _ _ => some (.fetch r)
  | .wrote r _ _ => some (.store r)
  | .response (.attempts r) answer =>
    if answer.status = .serviceUnavailable then none else some (.attempts r)
  | _ => none

theorem Obs.call_of_workedFor {o : Obs} {call : Call} (h : o.workedFor = some call) :
    o.call = some call := by
  unfold Obs.workedFor at h
  split at h
  · exact h
  · exact h
  · exact h
  · split at h
    · cases h
    · exact h
  · cases h

@[simp] theorem hasPaid_setFetch (s : AppState F) (r : ReqId) (call : FetchCall) :
    (s.setFetch r call).hasPaid (.fetch r) = call.hasPaid := by
  rw [AppState.hasPaid, AppState.fetches_setFetch, Function.update_self, Option.any_some]

@[simp] theorem hasPaid_setStore (s : AppState F) (r : ReqId) (call : StoreCall) :
    (s.setStore r call).hasPaid (.store r) = call.hasPaid := by
  rw [AppState.hasPaid, AppState.stores_setStore, Function.update_self, Option.any_some]

@[simp] theorem hasPaid_setPoll (s : AppState F) (r : ReqId) (call : AttemptsCall) :
    (s.setPoll r call).hasPaid (.attempts r) = call.hasPaid := by
  simp [AppState.hasPaid, AppState.setPoll]

section steps

variable [BucketNumber F]

/-! ### One step -/

/-- A lookup asks its own bucket and no other. -/
theorem fetchStep_buckets {r : ReqId} {q : Lookup} {event : FetchEvent}
    (h : fetchStep cfg s r q event = some (s', os)) (e : Endpoint) :
    s'.bucketOf e = ((s.bucketOf e).serve (readings e [.fetch r event])).2 := by
  rw [readings_singleton]
  cases event with
  | takeToken now =>
    simp only [fetchStep, takeLookupToken] at h
    repeat' split at h
    all_goals cases h
    all_goals cases e <;> rfl
  | readClock | enter | permit | removePending | query | finalize | loseTask | respond | cancel =>
    simp only [fetchStep, enterMap, cancelFetch, dropGuard, refundReservation] at h
    repeat' split at h
    all_goals cases h
    all_goals cases e <;> rfl

theorem storeStep_buckets {r : ReqId} {phase : StorePhase} {event : StoreEvent}
    (h : storeStep P s r phase event = some (s', os)) (e : Endpoint) :
    s'.bucketOf e = ((s.bucketOf e).serve (readings e [.store r event])).2 := by
  rw [readings_singleton]
  cases event <;> simp only [storeStep] at h
  all_goals repeat' split at h
  all_goals cases h
  all_goals cases e <;> rfl

theorem attemptsStep_buckets {r : ReqId} {phase : AttemptsPhase} {event : AttemptsEvent}
    (h : attemptsStep P cfg s r phase event = some (s', os)) (e : Endpoint) :
    s'.bucketOf e = ((s.bucketOf e).serve (readings e [.attempts r event])).2 := by
  rw [readings_singleton]
  cases event <;>
    simp only [attemptsStep, takeAttemptsToken, lockSnapshot, collectSnapshot, publishSnapshot,
      releaseSnapshot] at h
  all_goals repeat' split at h
  all_goals cases h
  all_goals cases e <;> rfl

/-- The bucket of an endpoint serves the readings of its calls, and nothing else
touches it. -/
theorem step_buckets (h : step P cfg s event = some (s', os)) (e : Endpoint) :
    s'.bucketOf e = ((s.bucketOf e).serve (readings e [event])).2 := by
  cases event with
  | fetch r event =>
    simp only [step] at h
    split at h
    · exact fetchStep_buckets h e
    · cases h
  | store r event =>
    simp only [step] at h
    split at h
    · exact storeStep_buckets h e
    · cases h
  | attempts r event =>
    simp only [step] at h
    split at h
    · exact attemptsStep_buckets h e
    · cases h
  | fetchArrives | storeArrives | attemptsArrives | info | sweep =>
    rw [readings_singleton]
    simp only [step, fetchArrives, storeArrives] at h
    repeat' split at h
    all_goals cases h
    all_goals cases e <;> rfl

/-- The event is the successful visit of a call to the bucket of its endpoint. -/
def Pays (s : AppState F) (event : Event) (e : Endpoint) : Prop :=
  ∃ now, event.reading = some now ∧ ((s.bucketOf e).tryConsume now).1 = true

/-- What a step of a call without a token can do: get the token, and no work. -/
structure Unpaid (s s' : AppState F) (event : Event) (os : Log) (e : Endpoint) (call : Call) :
    Prop where
  pays : s'.hasPaid call = true → Pays s event e
  idle : ∀ o ∈ os, o.workedFor = none

/-- A step after which the call has no token and nothing was done for it. -/
theorem Unpaid.of_not {e : Endpoint} {call : Call} (hnot : s'.hasPaid call = false)
    (hidle : ∀ o ∈ os, o.workedFor = none) : Unpaid s s' event os e call where
  pays hpaid := by
    rw [hnot] at hpaid
    cases hpaid
  idle := hidle

theorem fetchStep_unpaid {r : ReqId} {q : Lookup} {event : FetchEvent}
    (hnot : (FetchCall.active q).hasPaid = false) (h : fetchStep cfg s r q event = some (s', os)) :
    Unpaid s s' (.fetch r event) os .lookup (.fetch r) := by
  rcases q with ⟨trash, id, c, phase⟩
  cases phase with
  | bucket =>
    cases event with
    | takeToken now =>
      simp only [fetchStep, takeLookupToken] at h
      split at h
      · next htoken =>
        cases h
        exact ⟨fun _ => ⟨now, rfl, htoken⟩, by simp⟩
      · cases h
        exact .of_not (hasPaid_setFetch _ r _) (by simp [Obs.workedFor])
    | cancel contended =>
      cases h
      exact .of_not (hasPaid_setFetch _ r _) (by simp [Obs.workedFor])
    | readClock | enter | permit | removePending | query | finalize | loseTask | respond => cases h
  | clock | mapLock | permit | refund | working | lostRefund | deferred => cases hnot

theorem storeStep_unpaid {r : ReqId} {phase : StorePhase} {event : StoreEvent}
    (hnot : (StoreCall.active phase).hasPaid = false)
    (h : storeStep P s r phase event = some (s', os)) :
    Unpaid s s' (.store r event) os .store (.store r) := by
  cases phase with
  | bucket id secret =>
    cases event with
    | takeToken now =>
      simp only [storeStep] at h
      split at h
      · next htoken =>
        cases h
        exact ⟨fun _ => ⟨now, rfl, htoken⟩, by simp⟩
      · cases h
        exact .of_not (hasPaid_setStore _ r _) (by simp [Obs.workedFor])
    | cancel =>
      cases h
      exact .of_not (hasPaid_setStore _ r _) (by simp [Obs.workedFor])
    | readClock | permit | write | respond => cases h
  | clock | permit | writing | written => cases hnot

theorem attemptsStep_unpaid {r : ReqId} {phase : AttemptsPhase} {event : AttemptsEvent}
    (hnot : (AttemptsCall.active phase).hasPaid = false)
    (h : attemptsStep P cfg s r phase event = some (s', os)) :
    Unpaid s s' (.attempts r event) os .attempts (.attempts r) := by
  cases phase with
  | bucket tag =>
    cases event with
    | takeToken now =>
      simp only [attemptsStep, takeAttemptsToken] at h
      split at h
      · next htoken =>
        cases h
        exact ⟨fun _ => ⟨now, rfl, htoken⟩, by simp⟩
      · cases h
        exact .of_not (hasPaid_setPoll _ r _)
          (by simp [Obs.workedFor, overloaded, retryAfterResponse])
    | cancel =>
      cases h
      exact .of_not (hasPaid_setPoll _ r _) (by simp [Obs.workedFor])
    | lockSnapshot | collect | compress | publish => cases h
  | snapshotLock | mapLock | compressing | built | orphaned => cases hnot

/-- A call without a token gets one in a step of its own, or nothing. -/
theorem step_unpaid (h : step P cfg s event = some (s', os)) {call : Call} {e : Endpoint}
    (he : call.endpoint = some e) (hcall : event.call = some call) (hnot : s.hasPaid call = false) :
    Unpaid s s' event os e call := by
  cases event with
  | fetch r event =>
    cases hcall
    cases he
    simp only [step] at h
    split at h
    · next q hq =>
      rw [AppState.hasPaid, hq] at hnot
      exact fetchStep_unpaid hnot h
    · cases h
  | store r event =>
    cases hcall
    cases he
    simp only [step] at h
    split at h
    · next phase hp =>
      rw [AppState.hasPaid, hp] at hnot
      exact storeStep_unpaid hnot h
    · cases h
  | attempts r event =>
    cases hcall
    cases he
    simp only [step] at h
    split at h
    · next phase hp =>
      rw [AppState.hasPaid, hp] at hnot
      exact attemptsStep_unpaid hnot h
    · cases h
  -- What has just arrived has no token yet.
  | fetchArrives r trash request =>
    cases hcall
    simp only [step, fetchArrives] at h
    repeat' split at h
    all_goals cases h
    all_goals exact .of_not (hasPaid_setFetch s r _) (by simp [Obs.workedFor])
  | storeArrives r request =>
    cases hcall
    simp only [step, storeArrives] at h
    repeat' split at h
    all_goals cases h
    all_goals exact .of_not (hasPaid_setStore s r _) (by simp [Obs.workedFor])
  | attemptsArrives r tag =>
    cases hcall
    simp only [step] at h
    split at h <;> cases h
    exact .of_not (hasPaid_setPoll s r _) (by simp)
  | info r metadata file =>
    cases hcall
    cases he
  | sweep now => cases hcall

theorem step_hasPaid_of_ne (h : step P cfg s event = some (s', os)) {call : Call}
    (hne : event.call ≠ some call) : s'.hasPaid call = s.hasPaid call := by
  have hsame := step_sameCall h hne
  cases call with
  | fetch r | store r | attempts r =>
    simp only [AppState.hasPaid]
    rw [hsame]
  | info r => rfl

/-- Who has a token after a step, or was worked for in it, had one before or got it in
the step. -/
theorem step_paid (h : step P cfg s event = some (s', os)) {call : Call} {e : Endpoint}
    (he : call.endpoint = some e)
    (hpaid : s'.hasPaid call = true ∨ ∃ o ∈ os, o.workedFor = some call) :
    s.hasPaid call = true ∨ event.call = some call ∧ Pays s event e := by
  cases hnot : s.hasPaid call with
  | true => exact Or.inl rfl
  | false =>
    refine Or.inr ?_
    by_cases hcall : event.call = some call
    · have hunpaid := step_unpaid h he hcall hnot
      obtain hpaid | ⟨o, ho, hwork⟩ := hpaid
      · exact ⟨hcall, hunpaid.pays hpaid⟩
      · rw [hunpaid.idle o ho] at hwork
        cases hwork
    · obtain hpaid | ⟨o, ho, hwork⟩ := hpaid
      · rw [step_hasPaid_of_ne h hcall, hnot] at hpaid
        cases hpaid
      · have hof := Obs.call_of_workedFor hwork
        obtain hc | hc := step_call h o ho
        · exact absurd (hc.symm.trans hof) hcall
        · rw [hof] at hc
          cases hc

/-! ### Every run -/

/-- The calls of an endpoint that got their token after `s₀` and hold it, or were worked
for in `log`. -/
def PaidSince (s₀ : AppState F) (e : Endpoint) (log : Log) (s : AppState F) : Set Call :=
  {call | call.endpoint = some e ∧ s₀.hasPaid call = false ∧
    (s.hasPaid call = true ∨ ∃ o ∈ log, o.workedFor = some call)}

/-- A step adds at most the call that pays in it. -/
theorem step_paidSince {s₀ : AppState F} {e : Endpoint} {call : Call}
    (h : step P cfg s event = some (s', os)) (hm : call ∈ PaidSince s₀ e (os ++ log) s') :
    call ∈ PaidSince s₀ e log s ∨ event.call = some call ∧ Pays s event e := by
  obtain ⟨he, hnot, hpaid⟩ := hm
  by_cases hworked : ∃ o ∈ log, o.workedFor = some call
  · exact Or.inl ⟨he, hnot, Or.inr hworked⟩
  · have hnow : s'.hasPaid call = true ∨ ∃ o ∈ os, o.workedFor = some call := by
      refine hpaid.imp_right fun ⟨o, ho, hw⟩ => ⟨o, ?_, hw⟩
      exact (List.mem_append.mp ho).resolve_right fun ho => hworked ⟨o, ho, hw⟩
    exact (step_paid h he hnow).imp_left fun hbefore => ⟨he, hnot, Or.inl hbefore⟩

theorem serve_of_pays {e : Endpoint} {call : Call} (he : call.endpoint = some e)
    (hcall : event.call = some call) (h : Pays s event e) :
    ((s.bucketOf e).serve (readings e [event])).1 = 1 := by
  obtain ⟨now, hreading, htoken⟩ := h
  rw [readings_singleton, hcall, Option.bind_some, if_pos he, hreading]
  simp [TokenBucket.serve, htoken]

/-- In every run, the bucket of an endpoint serves its readings. -/
theorem run_buckets {s₀ : AppState F} {events : List Event}
    (hr : run P cfg s₀ events = some (s, log)) (e : Endpoint) :
    s.bucketOf e = ((s₀.bucketOf e).serve (readings e events)).2 := by
  refine @Machine.run_history _ _ _ (step P cfg)
    (fun events _ s => s.bucketOf e = ((s₀.bucketOf e).serve (readings e events)).2) s₀ rfl ?_
    s events log hr
  intro events log s event s' os _ hbucket h
  rw [readings_append, TokenBucket.serve_append, ← hbucket]
  exact step_buckets h e

/-- In every run, no more calls have paid than the bucket admitted. -/
theorem run_paidSince {s₀ : AppState F} {events : List Event}
    (hr : run P cfg s₀ events = some (s, log)) (e : Endpoint) :
    ∃ paid : List Call, paid.length ≤ ((s₀.bucketOf e).serve (readings e events)).1 ∧
      ∀ call ∈ PaidSince s₀ e log s, call ∈ paid := by
  refine @Machine.run_history _ _ _ (step P cfg) (fun events log s =>
    ∃ paid : List Call, paid.length ≤ ((s₀.bucketOf e).serve (readings e events)).1 ∧
      ∀ call ∈ PaidSince s₀ e log s, call ∈ paid) s₀ ⟨[], Nat.zero_le _, ?_⟩ ?_ s events log hr
  · rintro call ⟨-, hnot, hpaid | ⟨o, ho, -⟩⟩
    · rw [hnot] at hpaid
      cases hpaid
    · cases ho
  · rintro events log s event s' os hr ⟨paid, hlen, hmem⟩ h
    rw [readings_append, TokenBucket.serve_append, ← run_buckets hr]
    by_cases hpays : ∃ call, event.call = some call ∧ call.endpoint = some e ∧ Pays s event e
    · -- The call of the step joins those that have paid.
      obtain ⟨call, hcall, he, hpays⟩ := hpays
      refine ⟨call :: paid, ?_, fun call' hm => ?_⟩
      · rw [serve_of_pays he hcall hpays, List.length_cons]
        exact Nat.succ_le_succ hlen
      · obtain hbefore | ⟨hcall', -⟩ := step_paidSince h hm
        · exact List.mem_cons_of_mem _ (hmem call' hbefore)
        · exact List.mem_cons.mpr (Or.inl (Option.some.inj (hcall'.symm.trans hcall)))
    · refine ⟨paid, hlen.trans (Nat.le_add_right _ _), fun call hm => ?_⟩
      obtain hbefore | ⟨hcall, hpay⟩ := step_paidSince h hm
      · exact hmem call hbefore
      · exact absurd ⟨call, hcall, hm.1, hpay⟩ hpays

/-- Calls that have paid are counted by the admissions of the bucket. -/
theorem length_le_of_paidSince {s₀ : AppState F} {events : List Event}
    (hr : run P cfg s₀ events = some (s, log)) {e : Endpoint} {calls : List Call}
    (hnodup : calls.Nodup) (hpaid : ∀ call ∈ calls, call ∈ PaidSince s₀ e log s) :
    calls.length ≤ ((s₀.bucketOf e).serve (readings e events)).1 := by
  obtain ⟨paid, hlen, hmem⟩ := run_paidSince hr e
  have hsub : calls ⊆ paid := fun call hc => hmem call (hpaid call hc)
  exact (List.subperm_of_subset hnodup hsub).length_le.trans hlen

end steps

/-! ### The bound -/

/-- A server that has just started, its buckets with the given settings. -/
def AppState.started (secrets : SecretTable) (burst refill : Endpoint → ℚ) (start : ℕ) :
    AppState ℚ :=
  .init secrets (.new (burst .store) (refill .store) start)
    (.new (burst .lookup) (refill .lookup) start) (.new (burst .attempts) (refill .attempts) start)

end RecoverBull
