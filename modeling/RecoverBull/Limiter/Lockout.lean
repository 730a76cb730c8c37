import RecoverBull.Limiter.Refunds
import RecoverBull.Limiter.LockoutBoundary

/-!
# How a lockout ends

Once every candidate of a full entry is committed, nothing but its own deadline
moves it: requests are turned away, refunds and finalizers of earlier windows find
nothing pending. After the deadline the next request opens a window.
-/

namespace RecoverBull

variable {F : Type} {P : Primitives} {cfg : Config} {s s' : AppState F} {log os : Log}
  {id : String} {info : RateLimitInfo} {record : AdmissionRecord}

/-- The last instant at which the window of the entry lasts. -/
def RateLimitInfo.deadline (cfg : Config) (info : RateLimitInfo) : ℤ :=
  info.lastCandidateAt + cfg.rateLimitCooldown

/-- The entry is full, and none of its candidates is pending. -/
structure RateLimitInfo.Saturated (cfg : Config) (info : RateLimitInfo) : Prop where
  full : info.candidates.len = cfg.rateLimitMaxAttempts
  committed : ∀ c state, info.candidates.lookup c = some state → state = .committed

/-- The map has no room for the identifier of the request. -/
def AdmissionRecord.RefusedForCapacity (record : AdmissionRecord) : Prop :=
  record.outcome = .capacityExhausted (overloaded "Rate-limit capacity exhausted, retry later")

/-- The request reserves the first candidate of a fresh window. -/
structure AdmissionRecord.OpensWindow (record : AdmissionRecord) : Prop where
  outcome : ∃ status, record.outcome = .admitted (.new status record.requestedAt) ∧
    status.totalAttempts = 1 ∧ status.failedAttempts = 0 ∧ status.totalRequests = 1 ∧
      status.windowStartedAt = record.requestedAt ∧ status.previousAttemptAt = none
  left : ∃ info, record.left = some info ∧
    info.candidates = Finmap.singleton record.candidate .pending ∧ info.failedCandidates = 0 ∧
      info.windowStartedAt = record.requestedAt ∧ info.lastCandidateAt = record.requestedAt

theorem RateLimitInfo.SameButRequests.refl (info : RateLimitInfo) : info.SameButRequests info :=
  ⟨rfl, rfl, rfl, rfl⟩

theorem RateLimitInfo.SameButRequests.trans {info' info'' : RateLimitInfo}
    (h : info.SameButRequests info') (h' : info'.SameButRequests info'') :
    info.SameButRequests info'' :=
  ⟨h'.1.trans h.1, h'.2.1.trans h.2.1, h'.2.2.1.trans h.2.2.1, h'.2.2.2.trans h.2.2.2⟩

theorem RateLimitInfo.Saturated.congr {info' : RateLimitInfo} (h : info.Saturated cfg)
    (hsame : info.SameButRequests info') : info'.Saturated cfg := by
  obtain ⟨hc, -⟩ := hsame
  exact ⟨hc ▸ h.full, hc ▸ h.committed⟩

theorem RateLimitInfo.Saturated.not_pending (h : info.Saturated cfg) (c : CandidateTag) :
    info.candidates.lookup c ≠ some .pending := by
  intro hc
  cases h.committed c _ hc

theorem RateLimitInfo.Saturated.ne_empty (h : info.Saturated cfg) : info.candidates ≠ ∅ := by
  have hpos := cfg.maxAttempts_pos
  have hfull := h.full
  exact Finmap.ne_empty_of_len_pos (by omega)

/-! ## Admissions without an entry -/

/-- A request that finds no entry is refused for capacity or opens a window. -/
theorem AdmissionRecord.Spec.of_not_found (h : record.Spec cfg) (hfound : record.found = none) :
    record.RefusedForCapacity ∧ record.left = none ∨ record.OpensWindow := by
  cases h with
  | refused _ hleft hout => exact Or.inl ⟨hout, hleft⟩
  | entered left hleft hentry =>
    right
    rw [hfound, Option.getD_none] at hentry
    have hlen : (RateLimitInfo.new record.requestedAt).candidates.len = 0 := Finmap.len_empty
    cases hentry with
    | lockedOut hmax =>
      have := cfg.maxAttempts_pos
      omega
    | pending _ hc | replay _ hc => cases hc
    | new _ hc he hout =>
      have hone := len_reserveEntry hc record.requestedAt
      subst he
      rw [hlen] at hone
      exact ⟨⟨_, hout, hone, rfl, rfl, rfl, rfl⟩, _, hleft, rfl, rfl, rfl, rfl⟩

theorem AdmissionRecord.OpensWindow.not_refused (h : record.OpensWindow) :
    ¬record.RefusedForCapacity := by
  intro hc
  obtain ⟨status, hout, -⟩ := h.outcome
  rw [AdmissionRecord.RefusedForCapacity, hout] at hc
  cases hc

theorem AdmissionRecord.Spec.left_of_refused (h : record.Spec cfg) (hfound : record.found = none)
    (hcap : record.RefusedForCapacity) : record.left = none := by
  obtain ⟨-, hleft⟩ | hopens := h.of_not_found hfound
  · exact hleft
  · exact absurd hcap hopens.not_refused

/-! ## The frozen entry -/

/-- The entry is still there, but for the count of requests, or a clock value past
its deadline has removed it. -/
def Frozen (cfg : Config) (info : RateLimitInfo) (os : Log) (entry : Option RateLimitInfo) : Prop :=
  (∃ info', entry = some info' ∧ info.SameButRequests info') ∨
    entry = none ∧ ∃ t ∈ clocks os, info.deadline cfg < t

/-- Every request for the identifier that came after the deadline found no room. -/
def NoRoom (cfg : Config) (id : String) (info : RateLimitInfo) (os : Log) : Prop :=
  ∀ r record, .admission r record ∈ os → record.idHash = id →
    info.deadline cfg < record.requestedAt → record.RefusedForCapacity

theorem NoRoom.of_append {os' : Log} (h : NoRoom cfg id info (os' ++ os)) :
    NoRoom cfg id info os' ∧ NoRoom cfg id info os :=
  ⟨fun r record hm => h r record (List.mem_append_left _ hm),
    fun r record hm => h r record (List.mem_append_right _ hm)⟩

/-- A saturated entry survives what a step does to it, or expires. -/
theorem EntryEffect.frozen {entry : Option RateLimitInfo}
    (he : EntryEffect cfg s os id (some info) entry) (h : info.Saturated cfg)
    (hroom : NoRoom cfg id info os) : Frozen cfg info os entry := by
  have hexpire : ∀ t ∈ clocks os,
      Frozen cfg info os ((some info).filter (withinCooldown cfg t)) := by
    intro t ht
    obtain ⟨hf, -⟩ | ⟨hf, hlt⟩ := filter_withinCooldown cfg t info
    · exact Or.inl ⟨info, hf, .refl info⟩
    · exact Or.inr ⟨hf, t, ht, hlt⟩
  have hsame : Frozen cfg info os (some info) := Or.inl ⟨info, rfl, .refl info⟩
  generalize hold : some info = old at he
  cases he with
  | same => exact hold ▸ hsame
  | expire t ht => exact hold ▸ hexpire t ht
  | admission r record hm hid hspec hfound =>
    subst hold
    have ht : record.requestedAt ∈ clocks os := List.mem_filterMap.mpr ⟨_, hm, rfl⟩
    obtain ⟨hf, -⟩ | ⟨hf, hlt⟩ := filter_withinCooldown cfg record.requestedAt info
    · have hleft := (hspec.full (hfound.trans hf) h.full).1
      exact Or.inl ⟨_, hleft, rfl, rfl, rfl, rfl⟩
    · exact Or.inr ⟨hspec.left_of_refused (hfound.trans hf) (hroom r record hm hid hlt), _, ht, hlt⟩
  | refund r q a =>
    subst hold
    rw [Option.bind_some, refundEntry_stale (Or.inr (h.not_pending _)) h.ne_empty]
    exact hsame
  | finalize r q a result =>
    subst hold
    rw [Option.bind_some, finalizeEntry_stale (Or.inr (h.not_pending _))]
    exact hsame

/-- Nothing brings an entry back but a request with room for it. -/
theorem EntryEffect.none_of_noRoom {entry : Option RateLimitInfo}
    (he : EntryEffect cfg s os id none entry)
    (hroom : ∀ r record, .admission r record ∈ os → record.idHash = id →
      record.RefusedForCapacity) : entry = none := by
  generalize hold : none = old at he
  subst hold
  cases he with
  | same | expire | refund | finalize => rfl
  | admission r record hm hid hspec hfound =>
    exact hspec.left_of_refused hfound (hroom r record hm hid)

theorem Served.frozen [BucketNumber F] (h : Served P cfg log s)
    (hi : s.identifierRateLimit.lookup id = some info) (hsat : info.Saturated cfg)
    (hr : Reaches P cfg s os s') (hchron : Chronological os)
    (hroom : NoRoom cfg id info os) : Frozen cfg info os (s'.identifierRateLimit.lookup id) := by
  refine h.continues hr (fun os s' => Chronological os → NoRoom cfg id info os →
    Frozen cfg info os (s'.identifierRateLimit.lookup id)) ?_ ?_ hchron hroom
  · intro _ _
    exact Or.inl ⟨info, hi, .refl info⟩
  · intro os s event s' os' hs ih hstep hchron hroom
    obtain ⟨hroom', hroom⟩ := hroom.of_append
    have hentry := (step_effect hstep).entry hs.bounded id
    obtain ⟨info', hlook, hsame⟩ | ⟨hnone, t, ht, hlt⟩ := ih hchron.of_append hroom
    · rw [hlook] at hentry
      have hdeadline : info'.deadline cfg = info.deadline cfg := by
        rw [RateLimitInfo.deadline, hsame.2.2.2, RateLimitInfo.deadline]
      have hfrozen := hentry.frozen (hsat.congr hsame) fun r record hm hid hlt =>
        hroom' r record hm hid (hdeadline ▸ hlt)
      obtain ⟨info'', hlook', hsame'⟩ | ⟨hnone, t, ht, hlt⟩ := hfrozen
      · exact Or.inl ⟨info'', hlook', hsame.trans hsame'⟩
      · refine Or.inr ⟨hnone, t, ?_, hdeadline ▸ hlt⟩
        rw [clocks_append]
        exact List.mem_append_left _ ht
    · refine Or.inr ⟨?_, t, clocks_subset_append ht, hlt⟩
      rw [hnone] at hentry
      refine hentry.none_of_noRoom fun r record hm hid => hroom' r record hm hid ?_
      -- The clock that removed the entry does not run backwards.
      have hnow : record.requestedAt ∈ clocks os' := List.mem_filterMap.mpr ⟨_, hm, rfl⟩
      have := hchron.le hnow ht
      omega

/-! ## Requests at a frozen entry -/

section requests

variable [BucketNumber F] {s'' : AppState F} {os' : Log} {event : Event} {r : ReqId}

/-- A request that its admission turns away is answered in that very step. -/
theorem Served.answered_of_refusal (h : Served P cfg log s)
    (hstep : RecoverBull.step P cfg s event = some (s', os)) (hm : .admission r record ∈ os)
    {response : Response} (href : record.refusal = some response) :
    .response (.fetch r) response ∈ os := by
  obtain ⟨q, t, -, hq, hphase, -⟩ := (step_effect hstep).of_admission hm
  have hword := ((h.step hstep).callTrace r).of_refusal
    (admission_mem_trace.mp (List.mem_append_left _ hm)) href
  have hresp : .response (.fetch r) response ∈ os ++ log :=
    response_mem_trace.mpr (hword ▸ List.mem_cons_self)
  obtain hresp | hresp := List.mem_append.mp hresp
  · exact hresp
  · -- Before it entered, the request had left nothing in the log.
    have hbefore := h.callTrace r
    rw [hq] at hbefore
    have hphased := hbefore.phaseTrace
    rw [hphase] at hphased
    have hresp' := response_mem_trace.mp hresp
    generalize trace r log = word at hphased hresp'
    cases hphased
    exact absurd hresp' List.not_mem_nil

/-- A request its admission lets pass is never answered 429. -/
theorem Served.not_tooManyRequests (h : Served P cfg log s) (hm : .admission r record ∈ log)
    (hout : ∀ response, record.outcome ≠ .lockedOut response) {response : Response}
    (hresp : .response (.fetch r) response ∈ log) : response.status ≠ .tooManyRequests := by
  intro h429
  obtain ⟨record', hm', href⟩ :=
    (h.callTrace r).of_tooManyRequests (response_mem_trace.mp hresp) h429
  obtain rfl := (h.callTrace r).admission_unique (admission_mem_trace.mp hm) hm'
  unfold AdmissionRecord.refusal at href
  cases h.admissionSpec hm with
  | refused _ _ ho =>
    rw [ho] at href
    cases href
    cases h429
  | entered _ _ hentry =>
    cases hentry with
    | lockedOut _ _ ho => exact hout _ ho
    | pending _ _ _ ho =>
      rw [ho] at href
      cases href
      cases h429
    | replay _ _ _ ho | new _ _ _ ho =>
      rw [ho] at href
      cases href

/-- What a request finds while the entry is frozen. -/
theorem Frozen.found (hf : Frozen cfg info os (s.identifierRateLimit.lookup id))
    (hchron : Chronological (os' ++ os)) (hstep : step P cfg s event = some (s', os'))
    (hm : .admission r record ∈ os') (hid : record.idHash = id) :
    (record.requestedAt ≤ info.deadline cfg →
      ∃ info', record.found = some info' ∧ info.SameButRequests info') ∧
    (info.deadline cfg < record.requestedAt → record.found = none) := by
  obtain ⟨q, t, -, -, -, rfl, -⟩ := (step_effect hstep).of_admission hm
  obtain rfl : q.idHash = id := hid
  rw [admissionRecord_found]
  obtain ⟨info', hlook, hsame⟩ | ⟨hnone, t', ht', hlt⟩ := hf
  · have hdeadline : info'.lastCandidateAt = info.lastCandidateAt := hsame.2.2.2
    rw [hlook, RateLimitInfo.deadline, ← hdeadline]
    change (t ≤ _ → _) ∧ (_ < t → _)
    obtain ⟨hin, hle⟩ | ⟨hin, hlt⟩ := filter_withinCooldown cfg t info'
    · exact ⟨fun _ => ⟨info', hin, hsame⟩, fun hlt => absurd hle (not_le.mpr hlt)⟩
    · exact ⟨fun hle => absurd hle (not_le.mpr hlt), fun _ => hin⟩
  · have hle := hchron.le (List.mem_filterMap.mpr ⟨_, hm, rfl⟩ : t ∈ clocks os') ht'
    change (t ≤ _ → _) ∧ (_ < t → _)
    refine ⟨fun h => ?_, fun _ => by rw [hnone, Option.filter_none]⟩
    omega

end requests

/-- **A lockout is not extended.** While the clock is within the deadline of a
saturated entry, nothing changes it but the count of requests, and every request
for it is answered 429; the first request after the deadline that finds room
opens a window. -/
theorem lockout_not_extended [BucketNumber F] (P : Primitives) (cfg : Config) {log : Log}
    {s : AppState F} (h : Served P cfg log s) {id : String} {info : RateLimitInfo}
    (hi : s.identifierRateLimit.lookup id = some info) (hsat : info.Saturated cfg) {os : Log}
    {s' : AppState F} (hr : Reaches P cfg s os s') (hchron : Chronological os) :
    ((∀ t ∈ clocks os, t ≤ info.deadline cfg) →
      ∃ info', s'.identifierRateLimit.lookup id = some info' ∧ info.SameButRequests info') ∧
    ∀ event s'' os' r record, step P cfg s' event = some (s'', os') →
      .admission r record ∈ os' → record.idHash = id → Chronological (os' ++ os) →
      (record.requestedAt ≤ info.deadline cfg →
        ∃ response, .response (.fetch r) response ∈ os' ∧ response.status = .tooManyRequests) ∧
      (info.deadline cfg < record.requestedAt → NoRoom cfg id info os →
        (record.RefusedForCapacity ∨ record.OpensWindow) ∧
        ∀ later s₃, Reaches P cfg s'' later s₃ → ∀ response,
          .response (.fetch r) response ∈ later ++ os' → response.status ≠ .tooManyRequests) := by
  have hwithin : ∀ T : ℤ, T ≤ info.deadline cfg → (∀ t ∈ clocks os, t ≤ T) →
      NoRoom cfg id info os := by
    intro T hT hall r record hm _ hlt
    have := hall _ (List.mem_filterMap.mpr ⟨_, hm, rfl⟩)
    omega
  constructor
  · intro hclocks
    obtain hfrozen | ⟨-, t, ht, hlt⟩ :=
      h.frozen hi hsat hr hchron (hwithin _ le_rfl hclocks)
    · exact hfrozen
    · exact absurd (hclocks t ht) (not_le.mpr hlt)
  · intro event s'' os' r record hstep hm hid hos
    have hs' := h.reaches hr
    have hspec : record.Spec cfg := (hs'.step hstep).admissionSpec (List.mem_append_left _ hm)
    have hnow : record.requestedAt ∈ clocks os' := List.mem_filterMap.mpr ⟨_, hm, rfl⟩
    constructor
    · intro hle
      have hroom := hwithin _ hle fun t ht => hos.le hnow ht
      obtain ⟨info', hfound, hsame⟩ :=
        ((h.frozen hi hsat hr hchron hroom).found hos hstep hm hid).1 hle
      have href := hspec.refusal_of_full hfound (hsat.congr hsame).full
      exact ⟨_, hs'.answered_of_refusal hstep hm href, rfl⟩
    · intro hlt hroom
      have hfound := ((h.frozen hi hsat hr hchron hroom).found hos hstep hm hid).2 hlt
      have hcase := hspec.of_not_found hfound
      refine ⟨hcase.imp_left And.left, fun later s₃ hlater response hresp => ?_⟩
      have hend := (hs'.step hstep).reaches hlater
      have hm' : .admission r record ∈ later ++ (os' ++ (os ++ log)) :=
        List.mem_append_right _ (List.mem_append_left _ hm)
      -- A request is answered once, and a 429 would have been the answer of its admission.
      refine hend.not_tooManyRequests hm' (fun response ho => ?_) ?_
      · obtain ⟨hcap, -⟩ | hopens := hcase
        · rw [AdmissionRecord.RefusedForCapacity, ho] at hcap
          cases hcap
        · obtain ⟨status, hout, -⟩ := hopens.outcome
          rw [ho] at hout
          cases hout
      · rw [← List.append_assoc]
        exact List.mem_append_left _ hresp

/-- The one attempt is used up; a request with the other key a minute later, at the
deadline itself, leaves the entry as it was. -/
theorem lockout_not_extended_sample :
    ∃ (log os : Log) (s s' : AppState ℚ) (info info' : RateLimitInfo),
      Served .sample .sample log s ∧ Reaches .sample .sample s os s' ∧
        s.identifierRateLimit.lookup sampleIdHash = some info ∧
        s'.identifierRateLimit.lookup sampleIdHash = some info' ∧ info.SameButRequests info' ∧
        clocks os = [60000000000] := by
  have hrun : (run .sample .sample .sample
      (sampleAdmission 0 false ⟨sampleIdentifier, sampleKey⟩ 0 ++ sampleCompletion 0)).any
      (fun u => (u.1.identifierRateLimit.lookup sampleIdHash).any (fun info =>
        decide (info.candidates = Finmap.singleton sampleSecretId .committed ∧
          info.lastCandidateAt = 0)) &&
        (run .sample .sample u.1
          (sampleAdmission 1 true ⟨sampleIdentifier, otherKey⟩ 60000000000)).any
          fun v => decide (Chronological v.2 ∧ clocks v.2 = [60000000000])) = true := by
    simp only [run_append, sampleAdmission, run_sampleKey, run_otherKey]
    decide +kernel
  obtain ⟨⟨s, log⟩, hr, h⟩ := (Option.any_eq_true _ _).mp hrun
  obtain ⟨hinfo, h⟩ := Bool.and_eq_true_iff.mp h
  obtain ⟨info, hi, hinfo⟩ := (Option.any_eq_true _ _).mp hinfo
  obtain ⟨⟨s', os⟩, hr', h⟩ := (Option.any_eq_true _ _).mp h
  obtain ⟨hc, hlast⟩ := of_decide_eq_true hinfo
  obtain ⟨hchron, hclocks⟩ := of_decide_eq_true h
  have hserved : Served .sample .sample log s := ⟨_, _, _, _, _, hr⟩
  have hsat : info.Saturated .sample := by
    refine ⟨by rw [hc]; rfl, fun c state hl => ?_⟩
    rw [hc] at hl
    by_cases hcs : c = sampleSecretId
    · rw [hcs, Finmap.lookup_singleton_eq] at hl
      exact (Option.some.inj hl).symm
    · rw [Finmap.lookup_eq_none.mpr (mt (Finmap.mem_singleton _ _ _).mp hcs)] at hl
      cases hl
  obtain ⟨hfrozen, -⟩ :=
    lockout_not_extended .sample .sample hserved hi hsat ⟨_, hr'⟩ hchron
  obtain ⟨info', hi', hsame⟩ := hfrozen fun t ht => by
    change t ∈ clocks os at ht
    rw [show clocks os = [60000000000] from hclocks, List.mem_singleton] at ht
    rw [ht, RateLimitInfo.deadline, hlast]
    decide
  exact ⟨log, os, s, s', info, info', hserved, ⟨_, hr'⟩, hi, hi', hsame, hclocks⟩

end RecoverBull
