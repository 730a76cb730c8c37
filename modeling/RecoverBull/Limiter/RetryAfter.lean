import RecoverBull.Limiter.Lockout

/-!
# Honoring `Retry-After`

The header of a 429 is the rest of the lockout in whole seconds, rounded down but
never zero; the entry expires strictly after its deadline. A client that waits as
told is let in only when less than a second was left.
-/

namespace RecoverBull

variable {F : Type} {P : Primitives} {cfg : Config} {s s' : AppState F} {log os : Log}
  {id : String} {info : RateLimitInfo} {record : AdmissionRecord}

/-- No candidate of the identifier is reserved or given back in the newer part of
the log. -/
structure Undisturbed (id : String) (later log : Log) : Prop where
  reserved : ∀ r record, .admission r record ∈ later → record.idHash = id →
    record.reservation = none
  refunded : ∀ r c, Refunded later r → ¬ReservedIn id (later ++ log) r c

/-! ## The header -/

/-- The remaining time is waited out by the header exactly when it is short of a second. -/
theorem lt_retryAfterSecs_iff (cfg : Config) {last t : ℤ} (h : t ≤ last + cfg.rateLimitCooldown) :
    last + cfg.rateLimitCooldown < t + retryAfterSecs cfg last t * nanosPerSecond ↔
      last + cfg.rateLimitCooldown - t < nanosPerSecond := by
  have hsecond : (0 : ℤ) < nanosPerSecond := by decide
  generalize hd : last + cfg.rateLimitCooldown - t = d
  have hnonneg : 0 ≤ d := by omega
  have hsecs : (retryAfterSecs cfg last t : ℤ) = max (d / nanosPerSecond) 1 := by
    rw [retryAfterSecs, hd, numSeconds, Int.tdiv_eq_ediv_of_nonneg hnonneg]
    omega
  rw [hsecs]
  by_cases hlt : d < nanosPerSecond
  · have hzero : d / nanosPerSecond = 0 := Int.ediv_eq_zero_of_lt hnonneg hlt
    rw [hzero, max_eq_right zero_le_one, one_mul]
    constructor <;> intro <;> omega
  · -- A whole second is left: the header rounds it down.
    have hone : 1 ≤ d / nanosPerSecond := by
      rw [Int.le_ediv_iff_mul_le hsecond]
      omega
    have hround := Int.ediv_mul_le d (ne_of_gt hsecond)
    rw [max_eq_left hone]
    constructor <;> intro <;> omega

/-! ## The deadline between two requests -/

/-- Whatever is left of the entry has its old deadline. -/
def KeepsDeadline (last : ℤ) (entry : Option RateLimitInfo) : Prop :=
  ∀ info, entry = some info → info.lastCandidateAt = last

theorem KeepsDeadline.filter {last : ℤ} {entry : Option RateLimitInfo}
    (h : KeepsDeadline last entry) (p : RateLimitInfo → Bool) :
    KeepsDeadline last (entry.filter p) := fun info hi =>
  h info (Option.filter_eq_some_iff.mp hi).1

/-- A step without a reservation moves no deadline and makes no entry. -/
theorem EntryEffect.keepsDeadline {last : ℤ} {entry entry' : Option RateLimitInfo}
    (he : EntryEffect cfg s os id entry entry') (h : KeepsDeadline last entry)
    (hnone : ∀ r record, .admission r record ∈ os → record.idHash = id →
      record.reservation = none) : KeepsDeadline last entry' := by
  cases he with
  | same => exact h
  | expire t => exact h.filter _
  | admission r record hm hid hspec hfound =>
    have hres := hnone r record hm hid
    intro info hi
    obtain ⟨-, hsome, -⟩ | ⟨old, hold, hinto⟩ := hspec.left_cases hi
    · rw [hsome] at hres
      cases hres
    · obtain ⟨-, rfl⟩ | ⟨hsome, -⟩ := hinto
      · exact h.filter _ old (hfound.symm.trans hold)
      · rw [hsome] at hres
        cases hres
  | refund r q a =>
    intro info hi
    obtain ⟨old, rfl, hrefund⟩ := Option.bind_eq_some_iff.mp hi
    obtain ⟨candidates, rfl⟩ := refundEntry_fields hrefund
    exact h old rfl
  | finalize r q a result =>
    intro info hi
    obtain ⟨old, rfl, hfinal⟩ := Option.bind_eq_some_iff.mp hi
    obtain ⟨candidates, failed, rfl⟩ := finalizeEntry_fields hfinal
    exact h old rfl

theorem Served.keepsDeadline [BucketNumber F] (h : Served P cfg log s) {last : ℤ}
    (hi : KeepsDeadline last (s.identifierRateLimit.lookup id)) (hr : Reaches P cfg s os s')
    (hnone : ∀ r record, .admission r record ∈ os → record.idHash = id →
      record.reservation = none) :
    KeepsDeadline last (s'.identifierRateLimit.lookup id) := by
  refine h.continues hr (fun os s' => (∀ r record, .admission r record ∈ os →
    record.idHash = id → record.reservation = none) →
      KeepsDeadline last (s'.identifierRateLimit.lookup id)) (fun _ => hi) ?_ hnone
  intro os s event s' os' hs ih hstep hnone
  have hbefore := ih fun r record hm => hnone r record (List.mem_append_right _ hm)
  exact ((step_effect hstep).entry hs.bounded id).keepsDeadline hbefore
    fun r record hm => hnone r record (List.mem_append_left _ hm)

/-! ## The claim of the header -/

/-- A 429 is the one of a full entry that has not expired, with its header. -/
theorem AdmissionRecord.Spec.lockedOut (h : record.Spec cfg) {response : Response}
    (href : record.refusal = some response) (h429 : response.status = .tooManyRequests) :
    ∃ info, record.found = some info ∧ info.candidates.len = cfg.rateLimitMaxAttempts ∧
      record.requestedAt ≤ info.deadline cfg ∧
      response.retryAfter = some (retryAfterSecs cfg info.lastCandidateAt record.requestedAt) := by
  obtain ⟨info, hfound, hfull⟩ := h.full_of_lockedOut href h429
  rw [h.refusal_of_full hfound hfull] at href
  refine ⟨info, hfound, hfull, ?_, by rw [← Option.some.inj href]; rfl⟩
  cases h with
  | refused hnone =>
    rw [hnone] at hfound
    cases hfound
  | entered _ _ _ hold =>
    have hwithin := withinCooldown_iff.mp (hold info hfound).2
    rw [RateLimitInfo.deadline]
    omega

/-- **Waiting for `Retry-After` is enough exactly when less than a second of the
lockout was left.** Otherwise the header is rounded down to an instant at which the
entry has not expired. -/
theorem retry_after_iff [BucketNumber F] (P : Primitives) (cfg : Config) {log : Log}
    {s : AppState F} (h : Served P cfg log s) {event : Event} {s₁ : AppState F} {os : Log}
    (hstep : step P cfg s event = some (s₁, os)) {r : ReqId} {record : AdmissionRecord}
    (hm : .admission r record ∈ os) {response : Response}
    (href : record.refusal = some response) (h429 : response.status = .tooManyRequests)
    {info : RateLimitInfo} (hi : s.identifierRateLimit.lookup record.idHash = some info) :
    (∀ later s₂, Reaches P cfg s₁ later s₂ → Undisturbed record.idHash later (os ++ log) →
      ∀ n : ℕ, response.retryAfter = some n → ∀ candidate (t' : ℤ),
        record.requestedAt + n * nanosPerSecond ≤ t' →
        (admissionRecord cfg s₂.identifierRateLimit record.idHash candidate t').RefusedForCapacity ∨
          (admissionRecord cfg s₂.identifierRateLimit record.idHash candidate t').OpensWindow) ↔
      info.deadline cfg - record.requestedAt < nanosPerSecond := by
  have hs₁ := h.step hstep
  have hspec := hs₁.admissionSpec (List.mem_append_left _ hm)
  obtain ⟨info', hfound, hfull, hwithin, hretry⟩ := hspec.lockedOut href h429
  obtain ⟨q, t, -, -, -, hrec, hmap, -⟩ := (step_effect hstep).of_admission hm
  have hid : record.idHash = q.idHash := by rw [hrec]; rfl
  obtain rfl : info' = info := by
    rw [hrec, admissionRecord_found, ← hid, hi] at hfound
    exact (Option.some.inj (Option.filter_eq_some_iff.mp hfound).1).symm
  -- The request that is turned away leaves everything but its own count.
  have hleft : s₁.identifierRateLimit.lookup record.idHash =
      some (touchEntry record.requestedAt info') := by
    rw [← (hspec.full hfound hfull).1, hmap, hid, hrec]
    rfl
  have hlt := lt_retryAfterSecs_iff cfg hwithin
  rw [← RateLimitInfo.deadline] at hlt
  rw [← hlt]
  constructor
  · intro hall
    by_contra hle
    rw [not_lt] at hle
    have hnow := hall [] s₁ (Reaches.refl s₁)
      ⟨fun _ _ hm => absurd hm List.not_mem_nil, fun r c href => by simp [Refunded] at href⟩
      _ hretry record.candidate _ le_rfl
    generalize hrec' : admissionRecord cfg s₁.identifierRateLimit record.idHash record.candidate
      (record.requestedAt + (retryAfterSecs cfg info'.lastCandidateAt record.requestedAt) *
        nanosPerSecond) = record' at hnow
    have hspec' : record'.Spec cfg := by
      rw [← hrec']
      exact hs₁.bounded.admissionSpec _ _ _
    have hfound' : record'.found = some (touchEntry record.requestedAt info') := by
      rw [← hrec', admissionRecord_found, hleft, Option.filter_eq_some_iff]
      refine ⟨rfl, withinCooldown_iff.mpr ?_⟩
      change _ - info'.lastCandidateAt ≤ _
      rw [RateLimitInfo.deadline] at hle
      omega
    have hout := (hspec'.full hfound' hfull).2
    obtain hcap | hopens := hnow
    · rw [AdmissionRecord.RefusedForCapacity, hout] at hcap
      cases hcap
    · obtain ⟨status, hnew, -⟩ := hopens.outcome
      rw [hout] at hnew
      cases hnew
  · intro hshort later s₂ hr hquiet n hn candidate t' ht'
    have hspec' := (hs₁.reaches hr).bounded.admissionSpec record.idHash candidate t'
    refine (hspec'.of_not_found ?_).imp_left And.left
    have hbefore : KeepsDeadline info'.lastCandidateAt
        (s₁.identifierRateLimit.lookup record.idHash) := by
      intro i hi'
      rw [hleft] at hi'
      cases hi'
      rfl
    have hkeep := hs₁.keepsDeadline hbefore hr hquiet.reserved
    rw [admissionRecord_found, Option.filter_eq_none_iff]
    intro i hi'
    rw [withinCooldown_iff, hkeep i hi', not_le]
    rw [hretry] at hn
    obtain rfl := Option.some.inj hn
    rw [RateLimitInfo.deadline] at hshort
    omega

/-! ## Two lockouts -/

/-- The one attempt at time 0, then a request with the other key that has read `t`. -/
def lockedOutAt (t : ℤ) : List Event :=
  sampleAdmission 0 false ⟨sampleIdentifier, sampleKey⟩ 0 ++ sampleCompletion 0 ++
    [.fetchArrives 1 true ⟨sampleIdentifier, otherKey⟩, .fetch 1 (.takeToken 0),
      .fetch 1 (.readClock t)]

/-- Half a second before the deadline, one second of waiting is enough. -/
theorem retry_after_iff_sample :
    ∃ (log os : Log) (s s₁ : AppState ℚ) (record : AdmissionRecord) (response : Response),
      Served .sample .sample log s ∧ step .sample .sample s (.fetch 1 .enter) = some (s₁, os) ∧
        .admission 1 record ∈ os ∧ response.status = .tooManyRequests ∧
        response.retryAfter = some 1 ∧ record.requestedAt = 59500000000 ∧
        ∀ candidate (t' : ℤ), 60500000000 ≤ t' →
          (admissionRecord .sample s₁.identifierRateLimit record.idHash candidate
            t').RefusedForCapacity ∨
          (admissionRecord .sample s₁.identifierRateLimit record.idHash candidate
            t').OpensWindow := by
  have hrun : (run .sample .sample .sample (lockedOutAt 59500000000)).any (fun u =>
      (step .sample .sample u.1 (.fetch 1 .enter)).any fun v =>
        decide (v.2 = [.response (.fetch 1) (rateLimited .sample 1 0 59500000000),
          .admission 1 (admissionRecord .sample u.1.identifierRateLimit sampleIdHash otherSecretId
            59500000000)]) &&
        (u.1.identifierRateLimit.lookup sampleIdHash).any fun info =>
          decide ((admissionRecord .sample u.1.identifierRateLimit sampleIdHash otherSecretId
              59500000000).refusal = some (rateLimited .sample 1 0 59500000000) ∧
            info.lastCandidateAt = 0)) = true := by
    simp only [lockedOutAt, run_append, sampleAdmission, run_sampleKey, run_otherKey]
    decide +kernel
  obtain ⟨⟨s, log⟩, hr, h⟩ := (Option.any_eq_true _ _).mp hrun
  obtain ⟨⟨s₁, os⟩, hstep, h⟩ := (Option.any_eq_true _ _).mp h
  obtain ⟨hos, h⟩ := Bool.and_eq_true_iff.mp h
  obtain ⟨info, hi, h⟩ := (Option.any_eq_true _ _).mp h
  obtain ⟨href, hlast⟩ := of_decide_eq_true h
  have hserved : Served .sample .sample log s := ⟨_, _, _, _, _, hr⟩
  have hm : .admission 1 (admissionRecord .sample s.identifierRateLimit sampleIdHash otherSecretId
      59500000000) ∈ os := by
    rw [show os = _ from of_decide_eq_true hos]
    exact List.mem_cons_of_mem _ List.mem_cons_self
  have hshort : info.deadline .sample - 59500000000 < nanosPerSecond := by
    rw [RateLimitInfo.deadline, hlast]
    decide
  have hiff := retry_after_iff .sample .sample hserved hstep hm href rfl hi
  refine ⟨log, os, s, s₁, _, rateLimited .sample 1 0 59500000000, hserved, hstep, hm, rfl,
    by decide, rfl, fun candidate t' ht' => ?_⟩
  refine hiff.mpr hshort [] s₁ (Reaches.refl s₁) ?_ 1 (by decide) candidate t' ht'
  exact ⟨fun _ _ hm => absurd hm List.not_mem_nil, fun r c href => by simp [Refunded] at href⟩

/-- With 5.7 seconds left the header says 5, and a client that waits 5 seconds is
turned away again, though nothing happened in between. -/
theorem retry_after_too_early :
    ∃ (log os os' : Log) (s s₁ s₂ s₃ : AppState ℚ) (response response' : Response),
      Served .sample .sample log s ∧
        step .sample .sample s (.fetch 1 .enter) = some (s₁, os) ∧
        Reaches .sample .sample s₁ [] s₂ ∧
        step .sample .sample s₂ (.fetch 2 .enter) = some (s₃, os') ∧
        (∀ q, s.fetches 1 = some (.active q) → s₂.fetches 2 = some (.active
          { q with phase := .mapLock 59300000000 })) ∧
        clocks os = [54300000000] ∧ clocks os' = [59300000000] ∧
        .response (.fetch 1) response ∈ os ∧ response.status = .tooManyRequests ∧
        response.retryAfter = some 5 ∧
        .response (.fetch 2) response' ∈ os' ∧ response'.status = .tooManyRequests := by
  have hrun : (run .sample .sample .sample (lockedOutAt 54300000000)).any (fun u =>
      (step .sample .sample u.1 (.fetch 1 .enter)).any fun v =>
        (run .sample .sample v.1 [.fetchArrives 2 true ⟨sampleIdentifier, otherKey⟩,
          .fetch 2 (.takeToken 0), .fetch 2 (.readClock 59300000000)]).any fun w =>
          (step .sample .sample w.1 (.fetch 2 .enter)).any fun x =>
            decide (w.2 = [] ∧
              u.1.fetches 1 =
                some (.active ⟨true, sampleIdHash, otherSecretId, .mapLock 54300000000⟩) ∧
              w.1.fetches 2 =
                some (.active ⟨true, sampleIdHash, otherSecretId, .mapLock 59300000000⟩) ∧
              clocks v.2 = [54300000000] ∧ clocks x.2 = [59300000000] ∧
              .response (.fetch 1) (rateLimited .sample 1 0 54300000000) ∈ v.2 ∧
              .response (.fetch 2) (rateLimited .sample 1 0 59300000000) ∈ x.2)) = true := by
    simp only [lockedOutAt, run_append, sampleAdmission, run_sampleKey, run_otherKey]
    decide +kernel
  obtain ⟨⟨s, log⟩, hr, h⟩ := (Option.any_eq_true _ _).mp hrun
  obtain ⟨⟨s₁, os⟩, hstep, h⟩ := (Option.any_eq_true _ _).mp h
  obtain ⟨⟨s₂, later⟩, hr', h⟩ := (Option.any_eq_true _ _).mp h
  obtain ⟨⟨s₃, os'⟩, hstep', h⟩ := (Option.any_eq_true _ _).mp h
  obtain ⟨hnil, hq, hq', hclock, hclock', hresp, hresp'⟩ := of_decide_eq_true h
  obtain rfl : later = [] := hnil
  refine ⟨log, os, os', s, s₁, s₂, s₃, _, _, ⟨_, _, _, _, _, hr⟩, hstep, ⟨_, hr'⟩, hstep',
    fun q hactive => ?_, hclock, hclock', hresp, rfl, by decide, hresp', rfl⟩
  rw [hq] at hactive
  cases hactive
  exact hq'

end RecoverBull
