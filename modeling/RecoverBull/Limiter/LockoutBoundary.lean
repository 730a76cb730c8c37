import RecoverBull.Limiter.Budget

/-!
# The lockout boundary

With any clocks and any interleaving, an entry never leaves its budget, the
conversion of its count to a `u8` never panics, and a request is answered 429
exactly when its entry is full. Then the key and the endpoint do not matter and
the database is not asked.
-/

namespace RecoverBull

variable {F : Type}

/-! ## Snapshots do not panic -/

theorem Bounded.collectEntries {cfg : Config} {map : RateLimitMap} (hb : Bounded cfg map)
    (order : IterationOrder) : (RecoverBull.collectEntries order map).isSome = true := by
  refine Collect.mapM_isSome_iff.mpr fun e he => ?_
  have hmem : e ∈ map.entries := by
    rw [← order.complete map]
    exact Multiset.mem_coe.mpr he
  have hfit := (hb.entry e.1 e.2 (Finmap.lookup_eq_some_iff.mpr hmem)).le_u8Max
  rw [attemptEntry, RateLimitInfo.candidateCount_eq_some.mpr ⟨rfl, hfit⟩]
  rfl

/-- A snapshot build counts only entries within their budget. -/
theorem Served.not_panicked [BucketNumber F] {P : Primitives} {cfg : Config} {s : AppState F}
    {log : Log} (h : Served P cfg log s) (r : ReqId) : .panicked (.attempts r) ∉ log := by
  refine h.invariant (fun log _ => .panicked (.attempts r) ∉ log)
    (fun _ _ _ _ => List.not_mem_nil) fun log s event s' os hs hi he hm => ?_
  obtain hm | hm := List.mem_append.mp hm
  · cases step_effect he with
    | idle _ hos => exact absurd (hos _ hm) Bool.noConfusion
    | admission _ _ _ extra _ _ _ hos hextra =>
      rw [hos, List.mem_append, List.mem_singleton] at hm
      obtain hm | hm := hm
      · exact absurd (hextra _ hm) Bool.noConfusion
      · cases hm
    | refund _ _ _ _ _ _ _ _ hos hextra hextra' =>
      rw [hos, List.mem_append, List.mem_cons] at hm
      obtain hm | hm | hm := hm
      · exact absurd (hextra _ hm) Bool.noConfusion
      · cases hm
      · exact absurd (hextra' _ hm) Bool.noConfusion
    | finalize _ _ _ _ _ _ _ _ _ hos => simp [hos] at hm
    | retain now hmap _ hos hextra =>
      rw [hos, List.mem_append, List.mem_singleton] at hm
      obtain hm | hm := hm
      · obtain ⟨_, order, _, hnone⟩ := hextra _ hm
        have hsome := (hs.bounded.retain now).collectEntries order
        rw [← hmap, hnone] at hsome
        cases hsome
      · cases hm
  · exact hi hm

/-! ## Refusals in the word of a request -/

section words

variable {cfg : Config} {r : ReqId} {gone : Prop} {call : Option FetchCall} {word : Log}

theorem AdmissionRecord.Admits.refusal {record : AdmissionRecord} {id : String}
    {c : CandidateTag} {a : Admitted} (h : record.Admits id c a) : record.refusal = none := by
  rw [AdmissionRecord.refusal, h.2.2.2]
  cases a.isNew <;> rfl

/-- A request its admission turned away does nothing else. -/
theorem CallTrace.of_refusal (h : CallTrace cfg r gone call word) {record : AdmissionRecord}
    {response : Response} (hmem : .admission r record ∈ word)
    (href : record.refusal = some response) :
    word = [.response (.fetch r) response, .admission r record] := by
  have hadm : ∀ {record' : AdmissionRecord} {id c a}, .admission r record' ∈ word →
      ¬record'.Admits id c a := by
    intro record' id c a hmem' hadm
    rw [h.admission_unique hmem hmem', hadm.refusal] at href
    cases href
  rcases h with _ | ⟨q, word, hq⟩ | ⟨word, hq⟩
  · exact absurd hmem List.not_mem_nil
  · generalize q.phase = phase at hq
    cases hq
    case bucket | clock | mapLock => exact absurd hmem List.not_mem_nil
    all_goals exact absurd ‹AdmissionRecord.Admits _ _ _ _› (hadm (by simp))
  · cases hq
    case turnedAway record' response' href' =>
      obtain rfl : record = record' := by simpa using hmem
      rw [href'] at href
      cases href
      rfl
    case left => exact absurd hmem List.not_mem_nil
    case refused | panicked => simp at hmem
    case admissionPanicked record' hout =>
      obtain rfl : record = record' := by simpa using hmem
      rw [AdmissionRecord.refusal, hout] at href
      cases href
    all_goals exact absurd ‹AdmissionRecord.Admits _ _ _ _› (hadm (by simp))

theorem lookupResponse_status_ne {trash : Bool} {a : Admitted} {result : LookupResult} :
    (lookupResponse cfg trash a result).status ≠ .tooManyRequests := by
  cases result <;> cases trash <;> exact StatusCode.noConfusion

/-- A 429 comes from the admission. -/
theorem CallTrace.of_tooManyRequests (h : CallTrace cfg r gone call word) {response : Response}
    (hmem : .response (.fetch r) response ∈ word) (h429 : response.status = .tooManyRequests) :
    ∃ record, .admission r record ∈ word ∧ record.refusal = some response := by
  rcases h with _ | ⟨q, word, hq⟩ | ⟨word, hq⟩
  · exact absurd hmem List.not_mem_nil
  · generalize q.phase = phase at hq
    cases hq
    all_goals try cases ‹TaskTrace _ _ _ _ _ _›
    all_goals simp at hmem
  · cases hq
    case turnedAway record response' href =>
      obtain rfl : response = response' := by simpa using hmem
      exact ⟨record, by simp, href⟩
    case refused response' hstatus =>
      obtain rfl : response = response' := by simpa using hmem
      rw [h429] at hstatus
      exact hstatus.elim StatusCode.noConfusion StatusCode.noConfusion
    case answered trash id c a record hadm result tail ht =>
      obtain rfl : response = lookupResponse cfg trash a result := by
        cases ht <;> simpa using hmem
      exact absurd h429 lookupResponse_status_ne
    case replayBusy | busy =>
      obtain rfl : response = databaseBusy := by simpa using hmem
      cases h429
    case lostReplay ht | lostRefunded ht =>
      obtain rfl : response = internalServerError := by cases ht <;> simpa using hmem
      cases h429
    all_goals try cases ‹TaskTrace _ _ _ _ _ _›
    all_goals simp at hmem

/-- Only an admitted request asks the database, and for its own candidate. -/
theorem CallTrace.of_queried (h : CallTrace cfg r gone call word) {trash : Bool}
    {key : CandidateTag} {outcome : DbOutcome} {result : LookupResult}
    (hmem : .queried r trash key outcome result ∈ word) :
    ∃ record id a, .admission r record ∈ word ∧ record.Admits id key a := by
  have htask : ∀ {trash' c isNew task tail}, TaskTrace r trash' c isNew task tail →
      .queried r trash key outcome result ∈ tail → key = c := by
    intro trash' c isNew task tail ht hm
    cases ht <;> simp at hm <;> exact hm.2.1
  have main : ∀ {record : AdmissionRecord} {id c a trash' isNew task tail},
      TaskTrace r trash' c isNew task tail → .queried r trash key outcome result ∈ tail →
      .admission r record ∈ word → record.Admits id c a →
      ∃ record id a, .admission r record ∈ word ∧ record.Admits id key a := by
    intro record id c a trash' isNew task tail ht hm hadm h
    exact ⟨record, id, a, hadm, htask ht hm ▸ h⟩
  rcases h with _ | ⟨q, word, hq⟩ | ⟨word, hq⟩
  · exact absurd hmem List.not_mem_nil
  · generalize q.phase = phase at hq
    cases hq with
    | bucket | clock | mapLock | permit | refund | deferred => simp at hmem
    | working a record hadm client hclient task tail ht =>
      exact main ht (by simpa using hmem) (by simp) hadm
    | lostRefund a record hadm hnew tail ht => exact main ht (by simpa using hmem) (by simp) hadm
  · cases hq with
    | left | refused | panicked | turnedAway | admissionPanicked | replayLeft | replayBusy
    | refunded | busy => simp at hmem
    | answered trash' id c a record hadm result' tail ht =>
      exact main ht (by simpa using hmem) (by simp) hadm
    | lostReplay trash' id c a record hadm hnew tail ht
    | lostRefunded trash' id c a record hadm hnew tail ht
    | lostLeft trash' id c a record hadm hnew tail ht =>
      exact main ht (by simpa using hmem) (by simp) hadm

end words

/-! ## The boundary -/

theorem attemptStatus_total {cfg : Config} {info : RateLimitInfo} (h : info.WithinBudget cfg)
    (previous : Option ℤ) :
    attemptStatus cfg info previous = some (statusOf cfg info previous) ∧
      (statusOf cfg info previous).totalAttempts + (statusOf cfg info previous).remainingAttempts =
        cfg.rateLimitMaxAttempts := by
  refine ⟨attemptStatus_eq_some cfg previous h.le_u8Max, ?_⟩
  have := h.2
  simp only [statusOf]
  omega

/-- A passage through a full entry, seen from its record. -/
theorem AdmissionRecord.Spec.full {cfg : Config} {record : AdmissionRecord}
    (h : record.Spec cfg) {info : RateLimitInfo} (hfound : record.found = some info)
    (hfull : info.candidates.len = cfg.rateLimitMaxAttempts) :
    record.left = some (touchEntry record.requestedAt info) ∧
      record.outcome = .lockedOut
        (rateLimited cfg cfg.rateLimitMaxAttempts info.lastCandidateAt record.requestedAt) := by
  cases h with
  | refused hnone => rw [hnone] at hfound; cases hfound
  | entered left hleft hentry =>
    rw [hfound, Option.getD_some] at hentry
    cases hentry with
    | lockedOut hmax he hout =>
      rw [hfull] at hout
      exact ⟨he ▸ hleft, hout⟩
    | pending hlt | replay hlt | new hlt => omega

theorem AdmissionRecord.Spec.refusal_of_full {cfg : Config} {record : AdmissionRecord}
    (h : record.Spec cfg) {info : RateLimitInfo} (hfound : record.found = some info)
    (hfull : info.candidates.len = cfg.rateLimitMaxAttempts) :
    record.refusal = some
      (rateLimited cfg cfg.rateLimitMaxAttempts info.lastCandidateAt record.requestedAt) := by
  rw [AdmissionRecord.refusal, (h.full hfound hfull).2]

/-- A passage that is locked out found a full entry. -/
theorem AdmissionRecord.Spec.full_of_lockedOut {cfg : Config} {record : AdmissionRecord}
    (h : record.Spec cfg) {response : Response} (href : record.refusal = some response)
    (h429 : response.status = .tooManyRequests) :
    ∃ info, record.found = some info ∧ info.candidates.len = cfg.rateLimitMaxAttempts := by
  unfold AdmissionRecord.refusal at href
  cases h with
  | refused _ _ hout =>
    rw [hout] at href
    cases href
    cases h429
  | entered left hleft hentry hfound =>
    cases hentry with
    | lockedOut hmax =>
      cases hf : record.found with
      | none =>
        have hpos := cfg.maxAttempts_pos
        rw [hf, Option.getD_none] at hmax
        change _ ≤ (∅ : CandidateMap).len at hmax
        rw [Finmap.len_empty] at hmax
        omega
      | some info =>
        rw [hf, Option.getD_some] at hmax
        exact ⟨info, rfl, Nat.le_antisymm (hfound info hf).1.2 hmax⟩
    | pending _ _ _ hout =>
      rw [hout] at href
      cases href
      cases h429
    | replay _ _ _ hout | new _ _ _ hout => rw [hout] at href; cases href

theorem AdmissionRecord.Spec.not_panicked {cfg : Config} {record : AdmissionRecord}
    (h : record.Spec cfg) : record.outcome ≠ .panicked := by
  intro hp
  cases h with
  | refused _ _ hout => rw [hp] at hout; cases hout
  | entered left hleft hentry =>
    cases hentry with
    | lockedOut _ _ hout | pending _ _ _ hout | replay _ _ _ hout | new _ _ _ hout =>
      rw [hp] at hout
      cases hout

/-- The statuses an admission hands out account for the whole budget. -/
theorem AdmissionRecord.Spec.status_total {cfg : Config} {record : AdmissionRecord}
    (h : record.Spec cfg) {status : AttemptStatus} {generation : ℤ}
    (hout : record.outcome = .admitted (.new status generation) ∨
      record.outcome = .admitted (.replay status generation)) :
    status.totalAttempts + status.remainingAttempts = cfg.rateLimitMaxAttempts := by
  cases h with
  | refused _ _ ho => rw [ho] at hout; cases hout with | inl h | inr h => cases h
  | entered left hleft hentry hfound =>
    cases hentry with
    | lockedOut _ _ ho | pending _ _ _ ho =>
      rw [ho] at hout
      cases hout with | inl h | inr h => cases h
    | replay hlt hc _ ho =>
      rw [ho] at hout
      cases hout with
      | inl h => cases h
      | inr h =>
        cases h
        exact Nat.add_sub_cancel' (Nat.le_of_lt hlt)
    | new hlt hc _ ho =>
      rw [ho] at hout
      cases hout with
      | inl h =>
        cases h
        have hlen := len_reserveEntry hc record.requestedAt
        simp only [statusOf]
        omega
      | inr h => cases h

/-- The candidate of a request that goes on to the database is in the entry the
admission leaves. -/
theorem AdmissionRecord.Spec.candidate_mem {cfg : Config} {record : AdmissionRecord}
    (h : record.Spec cfg) {id : String} {c : CandidateTag} {a : Admitted}
    (hadm : record.Admits id c a) : ∃ info, record.left = some info ∧ c ∈ info.candidates := by
  obtain ⟨_, hc, _, hout⟩ := hadm
  cases h with
  | refused _ _ ho => rw [ho] at hout; cases hout
  | entered left hleft hentry =>
    refine ⟨left, hleft, ?_⟩
    cases hentry with
    | lockedOut _ _ ho | pending _ _ _ ho =>
      rw [ho] at hout
      split at hout <;> cases hout
    | replay _ hl he =>
      rw [he, ← hc]
      exact Finmap.mem_of_lookup_eq_some hl
    | new _ _ he =>
      rw [he, ← hc]
      exact Finmap.mem_insert.mpr (Or.inl rfl)

/-- At a full entry the admission does not look at the candidate. -/
theorem admitRequest_full {cfg : Config} {map : RateLimitMap} (hb : Bounded cfg map) {id : String}
    {t : ℤ} {info : RateLimitInfo}
    (hfound : (map.lookup id).filter (withinCooldown cfg t) = some info)
    (hfull : info.candidates.len = cfg.rateLimitMaxAttempts) (c : CandidateTag) :
    admitRequest cfg map id c t =
      ((roomMade cfg map id t).insert id (touchEntry t info),
        .lockedOut (rateLimited cfg cfg.rateLimitMaxAttempts info.lastCandidateAt t)) := by
  have hentry : entryAt cfg map id t = info := by rw [entryAt, hfound, Option.getD_some]
  have hroom : ¬capacityRefused cfg map id t := by
    intro h
    have := Finmap.lookup_eq_none.mpr h.1
    rw [lookup_dropExpired_self, hfound] at this
    cases this
  rw [admitRequest_entered hroom, hentry]
  have hspec := hb.entryAdmission id c t
  rw [hentry] at hspec
  cases hspec with
  | lockedOut hmax hleft hout => rw [hleft, hout, hfull]
  | pending hlt | replay hlt | new hlt => omega

/-- At a full entry two requests that differ in the key and the endpoint are
answered alike and leave the same state. -/
theorem enterMap_full {cfg : Config} {s : AppState F} (hb : Bounded cfg s.identifierRateLimit)
    (r : ReqId) {q q' : Lookup} (hid : q.idHash = q'.idHash) {t : ℤ} {info : RateLimitInfo}
    (hfound : (s.identifierRateLimit.lookup q.idHash).filter (withinCooldown cfg t) = some info)
    (hfull : info.candidates.len = cfg.rateLimitMaxAttempts) :
    ∃ s' response record record', response.status = .tooManyRequests ∧
      enterMap cfg s r q t = (s', [.response (.fetch r) response, .admission r record]) ∧
      enterMap cfg s r q' t = (s', [.response (.fetch r) response, .admission r record']) := by
  have henter : ∀ q : Lookup, admitRequest cfg s.identifierRateLimit q.idHash q.candidate t =
      ((roomMade cfg s.identifierRateLimit q.idHash t).insert q.idHash (touchEntry t info),
        .lockedOut (rateLimited cfg cfg.rateLimitMaxAttempts info.lastCandidateAt t)) →
      enterMap cfg s r q t =
        ((s.setMap ((roomMade cfg s.identifierRateLimit q.idHash t).insert q.idHash
            (touchEntry t info))).setFetch r .over,
          [.response (.fetch r) (rateLimited cfg cfg.rateLimitMaxAttempts info.lastCandidateAt t),
            .admission r (admissionRecord cfg s.identifierRateLimit q.idHash q.candidate t)]) := by
    intro q he
    have hout : (admissionRecord cfg s.identifierRateLimit q.idHash q.candidate t).outcome =
        .lockedOut (rateLimited cfg cfg.rateLimitMaxAttempts info.lastCandidateAt t) :=
      congrArg Prod.snd he
    simp only [enterMap, hout, he]
  have h' := henter q' (admitRequest_full hb (hid ▸ hfound) hfull q'.candidate)
  rw [← hid] at h'
  exact ⟨_, _, _, _, rfl, henter q (admitRequest_full hb hfound hfull q.candidate), h'⟩

/-- A lookup is executed for a candidate in the window its request was admitted to. -/
theorem Served.queried_in_window [BucketNumber F] {P : Primitives} {cfg : Config} {s : AppState F}
    {log : Log} (h : Served P cfg log s) {r : ReqId} {trash : Bool}
    {key : CandidateTag} {outcome : DbOutcome} {result : LookupResult}
    (hq : .queried r trash key outcome result ∈ log) :
    ∃ record info, .admission r record ∈ log ∧ record.candidate = key ∧
      record.left = some info ∧ key ∈ info.candidates := by
  obtain ⟨record, id, a, hmem, hadm⟩ := (h.callTrace r).of_queried (queried_mem_trace.mp hq)
  have hmem' := admission_mem_trace.mpr hmem
  obtain ⟨info, hleft, hkey⟩ := (h.admissionSpec hmem').candidate_mem hadm
  exact ⟨record, info, hmem', hadm.2.1, hleft, hkey⟩

/-- **The lockout boundary is exact**, along every run of a server and for any
clocks. -/
theorem lockout_boundary [BucketNumber F] (P : Primitives) (cfg : Config) {log : Log}
    {s : AppState F} (h : Served P cfg log s) :
    (∀ id info, s.identifierRateLimit.lookup id = some info →
      1 ≤ info.candidates.len ∧ info.candidates.len ≤ cfg.rateLimitMaxAttempts ∧
        info.candidateCount = some info.candidates.len ∧
        ∀ previous, ∃ status, attemptStatus cfg info previous = some status ∧
          status.totalAttempts + status.remainingAttempts = cfg.rateLimitMaxAttempts) ∧
    (∀ r, .panicked (.attempts r) ∉ log) ∧
    (∀ r record, .admission r record ∈ log →
      record.outcome ≠ .panicked ∧
      (∀ status generation, record.outcome = .admitted (.new status generation) ∨
        record.outcome = .admitted (.replay status generation) →
        status.totalAttempts + status.remainingAttempts = cfg.rateLimitMaxAttempts) ∧
      ((∃ response, .response (.fetch r) response ∈ log ∧ response.status = .tooManyRequests) ↔
        ∃ info, record.found = some info ∧ info.candidates.len = cfg.rateLimitMaxAttempts) ∧
      ∀ info, record.found = some info → info.candidates.len = cfg.rateLimitMaxAttempts →
        (∃ left, record.left = some left ∧ left.candidates = info.candidates ∧
          left.failedCandidates = info.failedCandidates ∧
          left.windowStartedAt = info.windowStartedAt ∧
          left.lastCandidateAt = info.lastCandidateAt) ∧
        ∀ trash key outcome result, .queried r trash key outcome result ∉ log) ∧
    (∀ r (q q' : Lookup) t info, q.idHash = q'.idHash →
      (s.identifierRateLimit.lookup q.idHash).filter (withinCooldown cfg t) = some info →
      info.candidates.len = cfg.rateLimitMaxAttempts →
      ∃ s' response record record', response.status = .tooManyRequests ∧
        enterMap cfg s r q t = (s', [.response (.fetch r) response, .admission r record]) ∧
        enterMap cfg s r q' t = (s', [.response (.fetch r) response, .admission r record'])) ∧
    ∀ r trash key outcome result, .queried r trash key outcome result ∈ log →
      ∃ record info, .admission r record ∈ log ∧ record.left = some info ∧
        key ∈ info.candidates := by
  have hb := h.bounded
  refine ⟨fun id info hi => ?_, h.not_panicked, fun r record hmem => ?_,
    fun r q q' t info hid => enterMap_full hb r hid, fun r trash key outcome result hq => ?_⟩
  · have hbudget := hb.entry id info hi
    exact ⟨hbudget.1, hbudget.2, RateLimitInfo.candidateCount_eq_some.mpr ⟨rfl, hbudget.le_u8Max⟩,
      fun previous => ⟨_, attemptStatus_total hbudget previous⟩⟩
  · have hspec := h.admissionSpec hmem
    have hword := h.callTrace r
    have hmem' := admission_mem_trace.mp hmem
    refine ⟨hspec.not_panicked, fun status generation => hspec.status_total, ⟨?_, ?_⟩,
      fun info hfound hfull => ?_⟩
    · rintro ⟨response, hresp, h429⟩
      obtain ⟨record', hr, href⟩ := hword.of_tooManyRequests (response_mem_trace.mp hresp) h429
      rw [hword.admission_unique hmem' hr]
      exact (h.admissionSpec (admission_mem_trace.mpr hr)).full_of_lockedOut href h429
    · rintro ⟨info, hfound, hfull⟩
      have hw := hword.of_refusal hmem' (hspec.refusal_of_full hfound hfull)
      exact ⟨_, response_mem_trace.mpr (by rw [hw]; exact List.mem_cons_self), rfl⟩
    · refine ⟨⟨_, (hspec.full hfound hfull).1, rfl, rfl, rfl, rfl⟩,
        fun trash key outcome result hq => ?_⟩
      have hw := hword.of_refusal hmem' (hspec.refusal_of_full hfound hfull)
      have hq' := queried_mem_trace.mp hq
      rw [hw] at hq'
      simp at hq'
  · obtain ⟨record, info, hmem, _, hleft, hkey⟩ := h.queried_in_window hq
    exact ⟨record, info, hmem, hleft, hkey⟩

/-- The budget of one attempt is used up, then the other key is tried at the
other endpoint. -/
theorem lockout_boundary_sample :
    ∃ (log : Log) (s : AppState ℚ) (record : AdmissionRecord), Served .sample .sample log s ∧
      .admission 1 record ∈ log ∧ (∃ info, record.found = some info ∧ info.candidates.len = 1) ∧
      record.outcome ≠ .panicked := by
  have hrun : (run .sample .sample .sample
      (sampleAdmission 0 false ⟨sampleIdentifier, sampleKey⟩ 0 ++ sampleCompletion 0 ++
        sampleAdmission 1 true ⟨sampleIdentifier, otherKey⟩ 0)).any
      (fun r => r.2.any (Obs.answers 1 .tooManyRequests)) = true := by
    simp only [run_append, sampleAdmission, run_sampleKey, run_otherKey]
    decide +kernel
  obtain ⟨log, s, h, hlog⟩ := served_of_run hrun
  obtain ⟨response, hmem, h429⟩ := exists_response hlog
  obtain ⟨record, hadm, _⟩ :=
    (h.callTrace 1).of_tooManyRequests (response_mem_trace.mp hmem) h429
  have hadm' := admission_mem_trace.mpr hadm
  obtain ⟨hpanic, _, hiff, _⟩ := (lockout_boundary .sample .sample h).2.2.1 1 record hadm'
  exact ⟨log, s, record, h, hadm', hiff.mp ⟨response, hmem, h429⟩, hpanic⟩

end RecoverBull
