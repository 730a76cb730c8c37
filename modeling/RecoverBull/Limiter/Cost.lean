import RecoverBull.Limiter.Accounting

/-!
# What an answer costs

The status a lookup is answered with tells its client whether the guess was counted:
200, 202 and 401 come with a committed candidate, 503 and 500 with a refund, and a
request that reserved nothing leaves the reservations alone.
-/

namespace RecoverBull

variable {F : Type} {cfg : Config} {r : ReqId} {gone : Prop} {call : Option FetchCall} {word : Log}

/-- The two statuses that refund a reservation. -/
def StatusCode.refunds : StatusCode → Bool
  | .serviceUnavailable | .internalServerError => true
  | _ => false

/-- The word has a reservation. -/
def Reserving (word : Log) (r : ReqId) : Prop :=
  ∃ record slot, .admission r record ∈ word ∧ record.reservation = some slot

theorem StatusCode.refunds_eq_false {status : StatusCode} (h : status.isAnswer = true) :
    status.refunds = false := by
  cases status <;> first | rfl | cases h

theorem StatusCode.isAnswer_eq_false {status : StatusCode} (h : status.refunds = true) :
    status.isAnswer = false := by
  cases status <;> first | rfl | cases h

/-- What the word of an answered lookup says of its guess. -/
inductive Cost (word : Log) (r : ReqId) (response : Response) : Prop
  | counted (hres : Reserving word r) (result : LookupResult)
      (hstatus : response.status.isAnswer = true) (hfinal : .finalized r result ∈ word)
      (hok : ∀ e, result ≠ .failed e) (hkept : ¬Refunded word r)
  | refunded (hres : Reserving word r) (hstatus : response.status.refunds = true)
      (hrefund : Refunded word r)
  | free (hnone : ¬Reserving word r) (hleft : ¬Resolved word r)

/-- The admission of an answered request decides on the reservation. -/
theorem reserving_iff {record : AdmissionRecord} (head : Log)
    (hhead : ∀ record', .admission r record' ∉ head) :
    Reserving (head ++ [.admission r record]) r ↔ ∃ slot, record.reservation = some slot := by
  constructor
  · rintro ⟨record', slot, hm, hslot⟩
    obtain hm | hm := List.mem_append.mp hm
    · exact absurd hm (hhead record')
    · obtain rfl : record' = record := by simpa using hm
      exact ⟨slot, hslot⟩
  · rintro ⟨slot, hslot⟩
    exact ⟨record, slot, by simp, hslot⟩

theorem AdmissionRecord.Admits.reserves_iff {record : AdmissionRecord} {id : String}
    {c : CandidateTag} {a : Admitted} (h : record.Admits id c a) :
    (∃ slot, record.reservation = some slot) ↔ a.isNew = true := by
  rw [h.reservation]
  cases a.isNew <;> simp

theorem AdmissionRecord.Admits.reserving {record : AdmissionRecord} {id : String}
    {c : CandidateTag} {a : Admitted} (h : record.Admits id c a) (hnew : a.isNew = true)
    (head : Log) : Reserving (head ++ [.admission r record]) r :=
  let ⟨slot, hslot⟩ := h.reserves_iff.mpr hnew
  ⟨record, slot, by simp, hslot⟩

theorem cost_answered {trash : Bool} {id : String} {c : CandidateTag} {a : Admitted}
    {record : AdmissionRecord} (hadm : record.Admits id c a) {result : LookupResult} {tail : Log}
    (ht : TaskTrace r trash c a.isNew (.finished result) tail) :
    Cost (.response (.fetch r) (lookupResponse cfg trash a result) ::
      (tail ++ [.admission r record])) r (lookupResponse cfg trash a result) := by
  obtain ⟨outcome, ⟨hold, rfl⟩ | ⟨hnew, rfl⟩⟩ := ht.finished_cases
  · refine .free (fun hres => ?_) (by simp [Resolved])
    obtain ⟨slot, hslot⟩ := (reserving_iff [_, _] (by simp)).mp hres
    rw [hadm.reserves_iff.mp ⟨slot, hslot⟩] at hold
    cases hold
  · have hres := hadm.reserving (r := r) hnew
      [.response (.fetch r) (lookupResponse cfg trash a result), .finalized r result,
        .queried r trash c outcome result]
    by_cases hfailed : ∃ e, result = .failed e
    · obtain ⟨e, rfl⟩ := hfailed
      exact .refunded hres rfl (Or.inr ⟨e, by simp⟩)
    · have hok : ∀ e, result ≠ .failed e := fun e he => hfailed ⟨e, he⟩
      exact .counted hres result (lookupResponse_isAnswer.mpr hok) (by simp) hok
        (by simp [Refunded, (hok _).symm])

/-- A word without an admission has no reservation, and resolves none. -/
theorem Cost.of_no_admission {response : Response}
    (hnone : ∀ record, .admission r record ∉ word) (hleft : ¬Resolved word r) :
    Cost word r response :=
  .free (fun ⟨record, _, hm, _⟩ => hnone record hm) hleft

theorem Cost.of_no_reservation {response : Response} {record : AdmissionRecord} (head : Log)
    (hhead : ∀ record', .admission r record' ∉ head) (hslot : ∀ slot, record.reservation ≠ some slot)
    (hleft : ¬Resolved (head ++ [.admission r record]) r) :
    Cost (head ++ [.admission r record]) r response :=
  .free (fun hres => let ⟨slot, hs⟩ := (reserving_iff head hhead).mp hres; hslot slot hs) hleft

/-- The cost of every answered lookup. -/
theorem CallTrace.cost (h : CallTrace cfg r gone call word) {response : Response}
    (hm : .response (.fetch r) response ∈ word) : Cost word r response := by
  rcases h with _ | ⟨q, word, hq⟩ | ⟨word, hq⟩
  · exact absurd hm List.not_mem_nil
  · generalize q.phase = phase at hq
    cases hq
    all_goals try cases ‹TaskTrace _ _ _ _ _ _›
    all_goals simp at hm
  · cases hq
    case left | panicked | admissionPanicked | replayLeft | refunded => simp at hm
    case lostLeft ht _ => cases ht <;> simp at hm
    case refused => exact .of_no_admission (by simp) (by simp [Resolved])
    case turnedAway record response' href =>
      refine .of_no_reservation [_] (by simp) (fun slot hslot => ?_) (by simp [Resolved])
      rw [AdmissionRecord.reservation_of_refusal href] at hslot
      cases hslot
    case replayBusy a record hadm hold =>
      refine .of_no_reservation [_] (by simp) (fun slot hslot => ?_) (by simp [Resolved])
      rw [hadm.reserves_iff.mp ⟨slot, hslot⟩] at hold
      cases hold
    case busy a record hadm hnew =>
      obtain rfl : response = databaseBusy := by simpa using hm
      exact .refunded (hadm.reserving hnew [_, _]) rfl (Or.inl (by simp))
    case answered trash id c a record hadm result tail ht =>
      obtain rfl : response = lookupResponse cfg trash a result := by cases ht <;> simpa using hm
      exact cost_answered hadm ht
    case lostReplay a record hadm hold tail ht =>
      obtain rfl : response = internalServerError := by cases ht <;> simpa using hm
      have hnew : ∀ slot, record.reservation ≠ some slot := by
        intro slot hslot
        rw [hadm.reserves_iff.mp ⟨slot, hslot⟩] at hold
        cases hold
      cases ht
      · exact .of_no_reservation [_, _] (by simp) hnew (by simp [Resolved])
      · exact .of_no_reservation [_, _, _] (by simp) hnew (by simp [Resolved])
    case lostRefunded a record hadm hnew tail ht =>
      obtain rfl : response = internalServerError := by cases ht <;> simpa using hm
      refine .refunded ?_ rfl (Or.inl (by simp))
      exact hadm.reserving hnew (_ :: _ :: tail)

/-- **The status of an answer tells its cost.** In every run, an answered lookup that
reserved an attempt either was answered 200, 202 or 401 and its attempt was committed
for good, or was answered 503 or 500 and its attempt was given back; one that reserved
nothing neither commits nor gives back anything. -/
theorem answer_tells_cost [BucketNumber F] (P : Primitives) (cfg : Config) {log : Log}
    {s : AppState F} (h : Served P cfg log s) {r : ReqId} {response : Response}
    (hm : .response (.fetch r) response ∈ log) :
    ((∃ slot t, Reserved log r slot t) →
      (response.status.isAnswer = true ↔
        (∃ result, .finalized r result ∈ log ∧ ∀ e, result ≠ .failed e) ∧ ¬Refunded log r) ∧
      (response.status.refunds = true ↔ Refunded log r)) ∧
    ((¬∃ slot t, Reserved log r slot t) → ¬Resolved log r) := by
  have hreserving : (∃ slot t, Reserved log r slot t) ↔ Reserving (trace r log) r := by
    constructor
    · rintro ⟨slot, t, record, ha, hslot, -⟩
      exact ⟨record, slot, admission_mem_trace.mp ha, hslot⟩
    · rintro ⟨record, slot, ha, hslot⟩
      exact ⟨slot, _, record, admission_mem_trace.mpr ha, hslot, rfl⟩
  have hrefunded : Refunded log r ↔ Refunded (trace r log) r :=
    or_congr refunded_mem_trace (exists_congr fun _ => finalized_mem_trace)
  have hresolved : Resolved log r ↔ Resolved (trace r log) r :=
    or_congr refunded_mem_trace (exists_congr fun _ => finalized_mem_trace)
  rw [hreserving, hrefunded, hresolved]
  cases (h.callTrace r).cost (response_mem_trace.mp hm) with
  | counted hres result hstatus hfinal hok hkept =>
    have hcommitted : ∃ result, .finalized r result ∈ log ∧ ∀ e, result ≠ .failed e :=
      ⟨result, finalized_mem_trace.mpr hfinal, hok⟩
    have hrefund : response.status.refunds ≠ true := by
      rw [StatusCode.refunds_eq_false hstatus]
      exact Bool.false_ne_true
    exact ⟨fun _ => ⟨iff_of_true hstatus ⟨hcommitted, hkept⟩, iff_of_false hrefund hkept⟩,
      fun hnone => absurd hres hnone⟩
  | refunded hres hstatus hrefund =>
    have hanswer : response.status.isAnswer ≠ true := by
      rw [StatusCode.isAnswer_eq_false hstatus]
      exact Bool.false_ne_true
    exact ⟨fun _ => ⟨iff_of_false hanswer fun hkept => hkept.2 hrefund, iff_of_true hstatus hrefund⟩,
      fun hnone => absurd hres hnone⟩
  | free hnone hleft => exact ⟨fun hres => absurd hres hnone, fun _ => hleft⟩

/-- A first guess is answered 401, and its attempt is spent for good. -/
theorem answer_tells_cost_sample :
    ∃ (log : Log) (s : AppState ℚ), Served .sample .sample log s ∧
      (∃ result, .finalized 0 result ∈ log ∧ ∀ e, result ≠ .failed e) ∧ ¬Refunded log 0 := by
  have hrun : (run .sample .sample .sample
      (sampleAdmission 0 false ⟨sampleIdentifier, sampleKey⟩ 0 ++ sampleCompletion 0)).any
      (fun u => u.2.any (Obs.answers 0 .unauthorized) &&
        u.2.any (Obs.reserves 0 ⟨sampleIdHash, sampleSecretId, 0⟩ 0)) = true := by
    rw [sampleAdmission, List.cons_append, run_sampleKey]
    decide +kernel
  obtain ⟨log, s, h, hlog⟩ := served_of_run hrun
  obtain ⟨hans, hres⟩ := Bool.and_eq_true_iff.mp hlog
  obtain ⟨response, hm, hstatus⟩ := exists_response hans
  have hanswer : response.status.isAnswer = true := by
    rw [hstatus]
    rfl
  have hcost := (answer_tells_cost .sample .sample h hm).1
    ⟨_, 0, reserved_iff.mpr (List.any_eq_true.mp hres)⟩
  exact ⟨log, s, h, hcost.1.mp hanswer⟩

end RecoverBull
