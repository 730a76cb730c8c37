import RecoverBull.Limiter.Cost
import RecoverBull.Limiter.Counters
import RecoverBull.Server.Draining

/-!
# The limiter at rest

When no call has anything left to do, every reservation that was made is resolved. The
one exception is the reservation of a task that was killed and whose client left, in
either order: it stays pending until its window is over.
-/

namespace RecoverBull

variable {F : Type} {P : Primitives} {cfg : Config} {s : AppState F} {log : Log} {r : ReqId}

section words

variable {gone : Prop} {call : Option FetchCall} {word : Log}

/-- A task that is done has resolved the reservation of its request. -/
theorem resolved_of_finished {trash : Bool} {id : String} {c : CandidateTag} {a : Admitted}
    {record : AdmissionRecord} (hadm : record.Admits id c a) {result : LookupResult}
    {tail : Log} (ht : TaskTrace r trash c a.isNew (.finished result) tail) (head : Log)
    (hres : Reserving (tail ++ [.admission r record]) r) :
    Resolved (head ++ (tail ++ [.admission r record])) r := by
  obtain ⟨outcome, ⟨hold, rfl⟩ | ⟨-, rfl⟩⟩ := ht.finished_cases
  · obtain ⟨slot, hslot⟩ := (reserving_iff [_] (by simp)).mp hres
    rw [hadm.reserves_iff.mp ⟨slot, hslot⟩] at hold
    cases hold
  · exact Or.inr ⟨result, by simp⟩

/-- A call without work that left its reservation unresolved lost its task and its client. -/
theorem CallTrace.unresolved (h : CallTrace cfg r gone call word)
    (hrest : call.elim 0 FetchCall.work = 0) (hres : Reserving word r) (hnot : ¬Resolved word r) :
    .taskLost r ∈ word ∧ gone := by
  have hidle : ∀ {record : AdmissionRecord} {id : String} {c : CandidateTag} {a : Admitted},
      record.Admits id c a → a.isNew = false → ∀ slot, record.reservation ≠ some slot := by
    intro record id c a hadm hold slot hslot
    rw [hadm.reserves_iff.mp ⟨slot, hslot⟩] at hold
    cases hold
  rcases h with _ | ⟨q, word, hq⟩ | ⟨word, hq⟩
  · obtain ⟨record, slot, hm, -⟩ := hres
    cases hm
  · simp only [Option.elim, FetchCall.work] at hrest
    generalize q.phase = phase at hq hrest
    cases hq with
    | bucket | clock | mapLock | permit | refund | lostRefund | deferred => cases hrest
    | working a record hadm client hclient task tail ht =>
      cases client with
      | true => cases task <;> cases hrest
      | false =>
        cases task with
        | blocking | finalizing => cases hrest
        | finished result => exact absurd (resolved_of_finished hadm ht [] hres) hnot
        | lost => exact ⟨List.mem_append_left _ ht.lost_mem, hclient rfl⟩
  · cases hq with
    | left | refused | panicked =>
      obtain ⟨record, slot, hm, -⟩ := hres
      simp at hm
    | turnedAway record response href =>
      obtain ⟨slot, hslot⟩ := (reserving_iff [_] (by simp)).mp hres
      rw [AdmissionRecord.reservation_of_refusal href] at hslot
      cases hslot
    | admissionPanicked record hout =>
      obtain ⟨slot, hslot⟩ := (reserving_iff [_] (by simp)).mp hres
      simp [AdmissionRecord.reservation, hout] at hslot
    | replayLeft id c a record hadm hold =>
      obtain ⟨slot, hslot⟩ := (reserving_iff [] (by simp)).mp hres
      exact absurd hslot (hidle hadm hold slot)
    | replayBusy id c a record hadm hold =>
      obtain ⟨slot, hslot⟩ := (reserving_iff [_] (by simp)).mp hres
      exact absurd hslot (hidle hadm hold slot)
    | refunded | busy | lostRefunded => exact absurd (Or.inl (by simp)) hnot
    | answered trash id c a record hadm result tail ht =>
      have hres' : Reserving (tail ++ [.admission r record]) r := by
        obtain ⟨record', slot, hm, hslot⟩ := hres
        exact ⟨record', slot, by simpa using hm, hslot⟩
      exact absurd (resolved_of_finished hadm ht [_] hres') hnot
    | lostReplay trash id c a record hadm hold tail ht =>
      have hnone : ∀ record', .admission r record' ∉
          .response (.fetch r) internalServerError :: tail := by
        cases ht <;> simp
      obtain ⟨slot, hslot⟩ := (reserving_iff _ hnone).mp hres
      exact absurd hslot (hidle hadm hold slot)
    | lostLeft trash id c a record hadm hnew tail ht hgone =>
      exact ⟨List.mem_append_left _ ht.lost_mem, hgone⟩

end words

variable [BucketNumber F]

/-- A reservation that is not resolved at rest was lost with its task and its client. -/
theorem Served.unresolved (h : Served P cfg log s) (hrest : s.AtRest) {slot : Slot} {t : ℤ}
    (hres : Reserved log r slot t) (hnot : ¬Resolved log r) : .taskLost r ∈ log ∧ Gone log r := by
  obtain ⟨record, hm, hslot, -⟩ := hres
  have hreserving : Reserving (trace r log) r := ⟨record, slot, admission_mem_trace.mp hm, hslot⟩
  have hword : ¬Resolved (trace r log) r :=
    mt (Or.imp refunded_mem_trace.mpr (Exists.imp fun _ => finalized_mem_trace.mpr)) hnot
  obtain ⟨hlost, hgone⟩ := (h.callTrace r).unresolved (hrest (.fetch r)) hreserving hword
  exact ⟨taskLost_mem_trace.mpr hlost, hgone⟩

/-- At rest a candidate is committed, or its task was lost. -/
theorem Served.settled (h : Served P cfg log s) (hchron : Chronological log) (hrest : s.AtRest)
    {id : String} {info : RateLimitInfo} {c : CandidateTag} {state : CandidateState}
    (hi : s.identifierRateLimit.lookup id = some info)
    (hc : info.candidates.lookup c = some state) :
    ∃ r, ReservedIn id (windowLog id log) r c ∧ (state = .committed ∧ Committed log r ∨
      state = .pending ∧ .taskLost r ∈ log ∧ Gone log r) := by
  have hw := (h.windowInv hchron id).window info hi
  cases state with
  | committed =>
    obtain ⟨r, hin, hcommitted⟩ := (hw.committed c).mp hc
    exact ⟨r, hin, Or.inl ⟨rfl, hcommitted⟩⟩
  | pending =>
    obtain ⟨r, hin, hnot⟩ := (hw.pending c).mp hc
    obtain ⟨record, generation, hm, hslot⟩ := hin
    have hreserved : Reserved log r ⟨id, c, generation⟩ record.requestedAt :=
      ⟨record, mem_of_mem_windowLog hm, hslot, rfl⟩
    exact ⟨r, ⟨record, generation, hm, hslot⟩, Or.inr ⟨rfl, h.unresolved hrest hreserved hnot⟩⟩

/-- At rest no candidate is pending, unless tasks were killed. -/
theorem Served.not_pending (h : Served P cfg log s) (hchron : Chronological log)
    (hrest : s.AtRest) (hlost : ∀ r, .taskLost r ∉ log) {id : String} {info : RateLimitInfo}
    (hi : s.identifierRateLimit.lookup id = some info) (c : CandidateTag) :
    info.candidates.lookup c ≠ some .pending := by
  intro hc
  obtain ⟨r, -, ⟨hstate, -⟩ | ⟨-, hkilled, -⟩⟩ := h.settled hchron hrest hi hc
  · cases hstate
  · exact hlost r hkilled

/-- **Nothing stays reserved.** When a server has come to rest, every reservation that was
ever made has been committed or given back, except those whose task was killed and whose
client left; and the candidates that the map still holds are committed, each by the
lookup of a request that reserved it in this window, with that exception only. -/
theorem reservations_settled (P : Primitives) (cfg : Config) {log : Log} {s : AppState F}
    (h : Served P cfg log s) (hrest : s.AtRest) :
    (∀ r slot t, Reserved log r slot t → Resolved log r ∨ .taskLost r ∈ log ∧ Gone log r) ∧
    (Chronological log → ∀ id info c state, s.identifierRateLimit.lookup id = some info →
      info.candidates.lookup c = some state →
      ∃ r, ReservedIn id (windowLog id log) r c ∧ (state = .committed ∧ Committed log r ∨
        state = .pending ∧ .taskLost r ∈ log ∧ Gone log r)) := by
  refine ⟨fun r slot t hres => ?_, fun hchron id info c state hi hc => h.settled hchron hrest hi hc⟩
  by_cases hresolved : Resolved log r
  · exact Or.inl hresolved
  · exact Or.inr (h.unresolved hrest hres hresolved)

/-- A lookup that found nothing leaves its candidate committed. -/
theorem reservations_settled_sample : ∃ (log : Log) (s : AppState ℚ) (info : RateLimitInfo),
    Served .sample .sample log s ∧ s.AtRest ∧
      s.identifierRateLimit.lookup sampleIdHash = some info ∧
      info.candidates.lookup sampleSecretId = some .committed ∧
      ∃ r, ReservedIn sampleIdHash (windowLog sampleIdHash log) r sampleSecretId := by
  let events : List Event := .fetchArrives 0 false ⟨sampleIdentifier, sampleKey⟩ ::
    ((sampleAdmission 0 false ⟨sampleIdentifier, sampleKey⟩ 0).tail ++ sampleCompletion 0)
  have hrun : (run .sample .sample AppState.sample events).any (fun u => decide
      (Chronological u.2 ∧ u.1.work (.fetch 0) = 0) &&
        (u.1.identifierRateLimit.lookup sampleIdHash).any fun info =>
          decide (info.candidates.lookup sampleSecretId = some .committed)) = true := by
    rw [run_sampleKey]
    decide +kernel
  have hcalls : ∀ event ∈ events, event.call = some (.fetch 0) := by
    simp [events, sampleAdmission, sampleCompletion, Event.call]
  obtain ⟨⟨s, log⟩, hr, hall⟩ := (Option.any_eq_true _ _).mp hrun
  obtain ⟨hdone, hentry⟩ := Bool.and_eq_true_iff.mp hall
  obtain ⟨hchron, hwork⟩ := of_decide_eq_true hdone
  obtain ⟨info, hi, hcommitted⟩ := (Option.any_eq_true _ _).mp hentry
  have hrest : s.AtRest := by
    intro call
    by_cases hcall : call = .fetch 0
    · rw [hcall]
      exact hwork
    · exact work_of_not_called hr fun event he hc =>
        hcall (Option.some.inj (hc.symm.trans (hcalls event he)))
  have hs : Served .sample .sample log s := ⟨_, _, _, _, events, hr⟩
  obtain ⟨r, hin, -⟩ :=
    (reservations_settled .sample .sample hs hrest).2 hchron _ info _ _ hi (of_decide_eq_true hcommitted)
  exact ⟨log, s, info, hs, hrest, hi, of_decide_eq_true hcommitted, r, hin⟩

end RecoverBull
