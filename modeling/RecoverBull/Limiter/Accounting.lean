import RecoverBull.Server.Effects
import RecoverBull.Server.Trace

/-!
# Reservations in the log

A reservation is an admission of a new candidate. The log of a run tells for each
request which reservation it made, whether it was refunded and what its lookup
was finalized with; the words of `CallTrace` make each of these happen at most
once, and tie them to where the request stands.
-/

namespace RecoverBull

variable {F : Type}

/-- The reservation an admission made. -/
def AdmissionRecord.reservation (record : AdmissionRecord) : Option Slot :=
  match record.outcome with
  | .admitted (.new _ generation) => some ⟨record.idHash, record.candidate, generation⟩
  | _ => none

/-- Request `r` reserved `slot` at time `t`. -/
def Reserved (log : Log) (r : ReqId) (slot : Slot) (t : ℤ) : Prop :=
  ∃ record, .admission r record ∈ log ∧ record.reservation = some slot ∧ record.requestedAt = t

/-- The reservation of `r` was given back. -/
def Refunded (log : Log) (r : ReqId) : Prop :=
  .refunded r ∈ log ∨ ∃ error, .finalized r (.failed error) ∈ log

/-- The reservation of `r` was given back or finalized. -/
def Resolved (log : Log) (r : ReqId) : Prop :=
  .refunded r ∈ log ∨ ∃ result, .finalized r result ∈ log

/-- The statuses that tell a client the outcome of its lookup. -/
def StatusCode.isAnswer : StatusCode → Bool
  | .ok | .accepted | .unauthorized => true
  | _ => false

/-- Request `r` was answered 200, 202 or 401. -/
def Answered (log : Log) (r : ReqId) : Prop :=
  ∃ response, Obs.response (.fetch r) response ∈ log ∧ response.status.isAnswer = true

/-- The observation reserves `slot` for `r` at time `t`. -/
def Obs.reserves (r : ReqId) (slot : Slot) (t : ℤ) : Obs → Bool
  | .admission r' record => r' == r && record.reservation == some slot && record.requestedAt == t
  | _ => false

/-- The observation tells `r` the outcome of its lookup. -/
def Obs.tells (r : ReqId) : Obs → Bool
  | .response (.fetch r') answer => r' == r && answer.status.isAnswer
  | _ => false

/-- The observation gives the reservation of `r` back. -/
def Obs.refunds (r : ReqId) : Obs → Bool
  | .refunded r' => r' == r
  | .finalized r' (.failed _) => r' == r
  | _ => false

theorem reserved_iff {log : Log} {r : ReqId} {slot : Slot} {t : ℤ} :
    Reserved log r slot t ↔ ∃ o ∈ log, o.reserves r slot t = true := by
  constructor
  · rintro ⟨record, hm, hslot, ht⟩
    exact ⟨_, hm, by simp [Obs.reserves, hslot, ht]⟩
  · rintro ⟨o, ho, hr⟩
    cases o with
    | admission r' record =>
      simp only [Obs.reserves, Bool.and_eq_true, beq_iff_eq] at hr
      obtain ⟨⟨rfl, hslot⟩, ht⟩ := hr
      exact ⟨record, ho, hslot, ht⟩
    | _ => cases hr

theorem answered_iff {log : Log} {r : ReqId} : Answered log r ↔ ∃ o ∈ log, o.tells r = true := by
  constructor
  · rintro ⟨response, hm, ha⟩
    exact ⟨_, hm, by simp [Obs.tells, ha]⟩
  · rintro ⟨o, ho, hr⟩
    cases o with
    | response call response =>
      cases call with
      | fetch r' =>
        simp only [Obs.tells, Bool.and_eq_true, beq_iff_eq] at hr
        obtain ⟨rfl, ha⟩ := hr
        exact ⟨response, ho, ha⟩
      | _ => cases hr
    | _ => cases hr

theorem refunded_iff {log : Log} {r : ReqId} : Refunded log r ↔ ∃ o ∈ log, o.refunds r = true := by
  constructor
  · rintro (h | ⟨e, h⟩)
    · exact ⟨_, h, beq_self_eq_true r⟩
    · exact ⟨_, h, beq_self_eq_true r⟩
  · rintro ⟨o, ho, hr⟩
    cases o with
    | refunded r' =>
      obtain rfl := beq_iff_eq.mp hr
      exact Or.inl ho
    | finalized r' result =>
      cases result with
      | failed e =>
        obtain rfl := beq_iff_eq.mp hr
        exact Or.inr ⟨e, ho⟩
      | hit | miss => cases hr
    | _ => cases hr

instance (log : Log) (r : ReqId) (slot : Slot) (t : ℤ) : Decidable (Reserved log r slot t) :=
  decidable_of_iff _ reserved_iff.symm

instance (log : Log) (r : ReqId) : Decidable (Answered log r) :=
  decidable_of_iff _ answered_iff.symm

instance (log : Log) (r : ReqId) : Decidable (Refunded log r) :=
  decidable_of_iff _ refunded_iff.symm

theorem Refunded.resolved {log : Log} {r : ReqId} (h : Refunded log r) : Resolved log r :=
  h.imp id fun ⟨error, he⟩ => ⟨.failed error, he⟩

/-! Membership in the log and in the word of the request. -/

theorem admission_mem_trace {log : Log} {r : ReqId} {record : AdmissionRecord} :
    .admission r record ∈ log ↔ .admission r record ∈ trace r log := by
  simp [mem_trace, Obs.isOf]

theorem refunded_mem_trace {log : Log} {r : ReqId} :
    .refunded r ∈ log ↔ .refunded r ∈ trace r log := by
  simp [mem_trace, Obs.isOf]

theorem finalized_mem_trace {log : Log} {r : ReqId} {result : LookupResult} :
    .finalized r result ∈ log ↔ .finalized r result ∈ trace r log := by
  simp [mem_trace, Obs.isOf]

theorem queried_mem_trace {log : Log} {r : ReqId} {trash : Bool} {key : CandidateTag}
    {outcome : DbOutcome} {result : LookupResult} :
    .queried r trash key outcome result ∈ log ↔ .queried r trash key outcome result ∈ trace r log := by
  simp [mem_trace, Obs.isOf]

theorem taskLost_mem_trace {log : Log} {r : ReqId} :
    .taskLost r ∈ log ↔ .taskLost r ∈ trace r log := by
  simp [mem_trace, Obs.isOf]

theorem response_mem_trace {log : Log} {r : ReqId} {response : Response} :
    .response (.fetch r) response ∈ log ↔ .response (.fetch r) response ∈ trace r log := by
  simp [mem_trace, Obs.isOf]

theorem AdmissionRecord.Admits.reservation {record : AdmissionRecord} {id : String}
    {c : CandidateTag} {a : Admitted} (h : record.Admits id c a) :
    record.reservation = if a.isNew then some ⟨id, c, a.generation⟩ else none := by
  obtain ⟨hid, hc, _, ho⟩ := h
  rw [AdmissionRecord.reservation, ho]
  cases a.isNew with
  | true => simp [hid, hc]
  | false => rfl

theorem AdmissionRecord.reservation_of_refusal {record : AdmissionRecord} {response : Response}
    (h : record.refusal = some response) : record.reservation = none := by
  unfold AdmissionRecord.refusal at h
  unfold AdmissionRecord.reservation
  split at h
  all_goals simp_all

/-! ## Clocks -/

/-- The clock value a critical section on the map uses. -/
def Obs.clock : Obs → Option ℤ
  | .admission _ record => some record.requestedAt
  | .retained now => some now
  | _ => none

/-- The clock values of the log, newest first. -/
def clocks (log : Log) : List ℤ := log.filterMap Obs.clock

/-- The clock values never decrease. -/
def Chronological (log : Log) : Prop := (clocks log).Pairwise (· ≥ ·)

instance (log : Log) : Decidable (Chronological log) :=
  inferInstanceAs (Decidable (List.Pairwise _ _))

theorem clocks_append (os log : Log) : clocks (os ++ log) = clocks os ++ clocks log :=
  List.filterMap_append

theorem clocks_subset_append {os log : Log} {t : ℤ} (ht : t ∈ clocks log) :
    t ∈ clocks (os ++ log) := by
  rw [clocks_append]
  exact List.mem_append_right _ ht

theorem clocks_subset_append_left {os log : Log} {t : ℤ} (ht : t ∈ clocks os) :
    t ∈ clocks (os ++ log) := by
  rw [clocks_append]
  exact List.mem_append_left _ ht

theorem Chronological.of_append {os log : Log} (h : Chronological (os ++ log)) :
    Chronological log := by
  rw [Chronological, clocks_append, List.pairwise_append] at h
  exact h.2.1

theorem Chronological.le {os log : Log} (h : Chronological (os ++ log)) {t t' : ℤ}
    (ht : t ∈ clocks os) (ht' : t' ∈ clocks log) : t' ≤ t := by
  rw [Chronological, clocks_append, List.pairwise_append] at h
  exact h.2.2 t ht t' ht'

/-! ## What the words say -/

section words

variable {cfg : Config} {r : ReqId} {gone : Prop} {call : Option FetchCall} {word : Log}

/-- A request passes the admission critical section at most once. -/
theorem CallTrace.admission_unique (h : CallTrace cfg r gone call word)
    {record record' : AdmissionRecord} (h₁ : .admission r record ∈ word)
    (h₂ : .admission r record' ∈ word) : record = record' := by
  rcases h with _ | ⟨q, word, h⟩ | ⟨word, h⟩
  · simp at h₁
  · cases hp : q.phase <;> rw [hp] at h <;> cases h
    all_goals try cases ‹TaskTrace _ _ _ _ _ _›
    all_goals simp at h₁ h₂
    all_goals rw [h₁, h₂]
  · cases h
    all_goals try cases ‹TaskTrace _ _ _ _ _ _›
    all_goals simp at h₁ h₂
    all_goals rw [h₁, h₂]

/-- The word of a request that still owns a reservation: it has made it, and only
tried to look the candidate up since. -/
theorem PhaseTrace.of_owned {trash : Bool} {id : String} {c : CandidateTag} {phase : FetchPhase}
    {a : Admitted} (h : PhaseTrace r gone trash id c phase word) (ha : phase.owned = some a) :
    a.isNew = true ∧ ∃ record task tail, word = tail ++ [.admission r record] ∧
      record.Admits id c a ∧ TaskTrace r trash c a.isNew task tail ∧
      ∀ result, task ≠ .finished result := by
  cases h with
  | bucket | clock | mapLock t => cases ha
  | permit b record h =>
    simp only [FetchPhase.owned, Option.ite_none_right_eq_some, Option.some.injEq] at ha
    obtain ⟨hnew, rfl⟩ := ha
    exact ⟨hnew, record, .blocking, [], rfl, h, .blocking, fun _ => Task.noConfusion⟩
  | refund b record h hnew =>
    cases ha
    exact ⟨hnew, record, .blocking, [], rfl, h, .blocking, fun _ => Task.noConfusion⟩
  | deferred b record h hnew =>
    cases ha
    exact ⟨hnew, record, .blocking, [], rfl, h, .blocking, fun _ => Task.noConfusion⟩
  | lostRefund b record h hnew tail ht =>
    cases ha
    exact ⟨hnew, record, .lost, tail, rfl, h, ht, fun _ => Task.noConfusion⟩
  | working b record h client hclient task tail ht =>
    have hfin : ∀ result, task ≠ .finished result := by
      rintro result rfl
      cases ha
    have hown : (if b.isNew then some b else none) = some a := by
      cases task <;> first | exact ha | cases ha
    simp only [Option.ite_none_right_eq_some, Option.some.injEq] at hown
    obtain ⟨hnew, rfl⟩ := hown
    exact ⟨hnew, record, task, tail, rfl, h, ht, hfin⟩

/-- Only a task that returned has finalized anything. -/
theorem TaskTrace.not_resolved {trash isNew : Bool} {key : CandidateTag} {task : Task}
    (h : TaskTrace r trash key isNew task word) (hfin : ∀ result, task ≠ .finished result)
    (record : AdmissionRecord) : ¬Resolved (word ++ [.admission r record]) r := by
  cases h with
  | replayed outcome result | finalized outcome result => exact absurd rfl (hfin result)
  | blocking | finalizing outcome result | lostBefore | lostAfter outcome result =>
    simp [Resolved]

/-- What the task leaves once it returned. -/
theorem TaskTrace.finished_cases {trash isNew : Bool} {key : CandidateTag} {result : LookupResult}
    (h : TaskTrace r trash key isNew (.finished result) word) :
    ∃ outcome, isNew = false ∧ word = [.queried r trash key outcome result] ∨
      isNew = true ∧ word = [.finalized r result, .queried r trash key outcome result] := by
  cases h with
  | replayed outcome _ h => exact ⟨outcome, Or.inl ⟨h, rfl⟩⟩
  | finalized outcome _ h => exact ⟨outcome, Or.inr ⟨h, rfl⟩⟩

theorem TaskTrace.lost_mem {trash isNew : Bool} {key : CandidateTag}
    (h : TaskTrace r trash key isNew .lost word) : .taskLost r ∈ word := by
  cases h <;> exact List.mem_cons_self

/-- A reservation that is neither resolved nor lost is still owned. -/
theorem CallTrace.owned_of_reserved (h : CallTrace cfg r gone call word)
    {record : AdmissionRecord} {slot : Slot} (hmem : .admission r record ∈ word)
    (hslot : record.reservation = some slot) (hres : ¬Resolved word r)
    (hlost : .taskLost r ∉ word) :
    ∃ q a, call = some (.active q) ∧ q.phase.owned = some a ∧ q.slot a = slot := by
  have hnew : ∀ {record' : AdmissionRecord} {id c a}, .admission r record' ∈ word →
      record'.Admits id c a → a.isNew = true ∧ ⟨id, c, a.generation⟩ = slot := by
    intro record' id c a hmem' hadm
    have hrec := h.admission_unique hmem hmem'
    rw [hrec, hadm.reservation] at hslot
    cases ha : a.isNew with
    | true => exact ⟨rfl, by simpa [ha] using hslot⟩
    | false => simp [ha] at hslot
  rcases h with _ | ⟨q, word, hq⟩ | ⟨word, hq⟩
  · exact absurd hmem List.not_mem_nil
  · refine ⟨q, ?_⟩
    cases hp : q.phase <;> rw [hp] at hq <;> cases hq
    case bucket | clock | mapLock => exact absurd hmem List.not_mem_nil
    case permit a record' hadm =>
      obtain ⟨ha, rfl⟩ := hnew List.mem_cons_self hadm
      exact ⟨a, rfl, by simp [FetchPhase.owned, ha], rfl⟩
    case refund a record' hadm ha =>
      exact ⟨a, rfl, rfl, (hnew List.mem_cons_self hadm).2⟩
    case deferred a record' hgone hadm ha =>
      exact ⟨a, rfl, rfl, (hnew List.mem_cons_self hadm).2⟩
    case lostRefund a record' hadm ha tail ht =>
      exact absurd (List.mem_append_left _ ht.lost_mem) hlost
    case working a client task record' tail hadm hclient ht =>
      obtain ⟨ha, rfl⟩ := hnew (List.mem_append_right _ List.mem_cons_self) hadm
      refine ⟨a, rfl, ?_, rfl⟩
      cases task with
      | finished result =>
        obtain ⟨outcome, ⟨hf, _⟩ | ⟨_, rfl⟩⟩ := ht.finished_cases
        · exact absurd (ha.symm.trans hf) Bool.noConfusion
        · exact absurd (Or.inr ⟨result, by simp⟩) hres
      | blocking | finalizing result | lost => simp [FetchPhase.owned, ha]
  -- A finished request had no reservation, resolved it, or lost the task that held it.
  · cases hq
    case left => exact absurd hmem List.not_mem_nil
    case refused | panicked => simp at hmem
    case turnedAway record' response href =>
      obtain rfl : record = record' := by simpa using hmem
      rw [AdmissionRecord.reservation_of_refusal href] at hslot
      cases hslot
    case admissionPanicked record' hout =>
      obtain rfl : record = record' := by simpa using hmem
      rw [AdmissionRecord.reservation, hout] at hslot
      cases hslot
    case replayLeft hadm ha _ =>
      exact absurd ((hnew List.mem_cons_self hadm).1.symm.trans ha) Bool.noConfusion
    case replayBusy hadm ha =>
      exact absurd ((hnew (by simp) hadm).1.symm.trans ha) Bool.noConfusion
    case refunded => exact absurd (Or.inl (by simp)) hres
    case busy => exact absurd (Or.inl (by simp)) hres
    case answered a record' hadm result tail ht =>
      obtain ⟨outcome, ⟨hf, _⟩ | ⟨_, rfl⟩⟩ := ht.finished_cases
      · exact absurd ((hnew (by simp) hadm).1.symm.trans hf) Bool.noConfusion
      · exact absurd (Or.inr ⟨result, by simp⟩) hres
    case lostReplay ht => exact absurd (by simp [ht.lost_mem]) hlost
    case lostRefunded ht => exact absurd (by simp [ht.lost_mem]) hlost
    case lostLeft ht _ => exact absurd (by simp [ht.lost_mem]) hlost

theorem lookupResponse_isAnswer {trash : Bool} {a : Admitted} {result : LookupResult} :
    (lookupResponse cfg trash a result).status.isAnswer = true ↔ ∀ e, result ≠ .failed e := by
  cases result with
  | hit secret => cases trash <;> simp [lookupResponse, StatusCode.isAnswer]
  | miss => simp [lookupResponse, StatusCode.isAnswer]
  | failed e => simp [lookupResponse, internalServerError, errorResponse, StatusCode.isAnswer]

/-- A finalized request was admitted and answered by its task. -/
theorem CallTrace.finalized_cases (h : CallTrace cfg r gone call word) {result : LookupResult}
    (hf : .finalized r result ∈ word) :
    ∃ (head : Log) (trash : Bool) (outcome : DbOutcome) (record : AdmissionRecord) (id : String)
      (c : CandidateTag) (a : Admitted),
      word = head ++ [.finalized r result, .queried r trash c outcome result, .admission r record] ∧
        record.Admits id c a ∧ a.isNew = true ∧
        (head = [] ∨ head = [.response (.fetch r) (lookupResponse cfg trash a result)]) := by
  rcases h with _ | ⟨q, word, hq⟩ | ⟨word, hq⟩
  · exact absurd hf List.not_mem_nil
  · generalize q.phase = phase at hq
    cases hq with
    | bucket | clock | mapLock | permit | refund | deferred => simp at hf
    | lostRefund a record hadm hnew tail ht => cases ht <;> simp at hf
    | working a record hadm client hclient task tail ht =>
      cases ht with
      | blocking | finalizing | replayed | lostBefore | lostAfter => simp at hf
      | finalized outcome result' hnew =>
        obtain rfl : result = result' := by simpa using hf
        exact ⟨[], _, outcome, record, _, _, a, rfl, hadm, hnew, Or.inl rfl⟩
  · cases hq with
    | left | refused | panicked | turnedAway | admissionPanicked | replayLeft | replayBusy
    | refunded | busy => simp at hf
    | lostReplay _ _ _ a record hadm hnew tail ht
    | lostRefunded _ _ _ a record hadm hnew tail ht
    | lostLeft _ _ _ a record hadm hnew tail ht => cases ht <;> simp at hf
    | answered trash id c a record hadm result' tail ht =>
      obtain ⟨outcome, ⟨_, rfl⟩ | ⟨hnew, rfl⟩⟩ := ht.finished_cases
      · simp at hf
      · obtain rfl : result = result' := by simpa using hf
        exact ⟨[_], trash, outcome, record, id, c, a, rfl, hadm, hnew, Or.inr rfl⟩

/-- A request that was told the outcome of its lookup has not been refunded. -/
theorem CallTrace.not_refunded (h : CallTrace cfg r gone call word) (ha : Answered word r) :
    ¬Refunded word r := by
  obtain ⟨response, hmem, hans⟩ := ha
  have hfinal : ∀ e, .finalized r (.failed e) ∉ word := by
    intro e he
    obtain ⟨head, trash, outcome, record, id, c, a, rfl, _, _, hhead⟩ := h.finalized_cases he
    obtain rfl | rfl := hhead
    · simp at hmem
    · obtain rfl : response = lookupResponse cfg trash a (.failed e) := by simpa using hmem
      exact lookupResponse_isAnswer.mp hans e rfl
  rintro (hr | ⟨e, he⟩)
  · rcases h with _ | ⟨q, word, hq⟩ | ⟨word, hq⟩
    · exact absurd hr List.not_mem_nil
    · generalize q.phase = phase at hq
      cases hq
      all_goals try cases ‹TaskTrace _ _ _ _ _ _›
      all_goals simp at hr
    · cases hq
      case busy =>
        obtain rfl : response = databaseBusy := by simpa using hmem
        cases hans
      case lostRefunded ht =>
        obtain rfl : response = internalServerError := by cases ht <;> simpa using hmem
        cases hans
      case refunded => simp at hmem
      all_goals try cases ‹TaskTrace _ _ _ _ _ _›
      all_goals simp at hr
  · exact hfinal e he

end words

end RecoverBull
