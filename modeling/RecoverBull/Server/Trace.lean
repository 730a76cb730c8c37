import RecoverBull.Server.Calls

/-!
# The trace of one lookup

What a run observes of a single `/fetch` or `/trash` request is one of a few
words: it depends on nothing but how far the request got. `CallTrace` lists the
words, and `Served.callTrace` shows that a run produces no others.
-/

namespace RecoverBull

variable {F : Type}

/-- The observations about the lookup request `r`. -/
def Obs.isOf (r : ReqId) : Obs → Bool
  | .admission r' _ | .refunded r' | .queried r' _ _ _ _ | .finalized r' _ | .taskLost r'
  | .response (.fetch r') _ | .panicked (.fetch r') => r' == r
  | _ => false

/-- The observations about `r`, newest first. -/
def trace (r : ReqId) (log : Log) : Log := log.filter (Obs.isOf r)

@[simp] theorem trace_nil (r : ReqId) : trace r [] = [] := rfl

theorem trace_append (r : ReqId) (os log : Log) : trace r (os ++ log) = trace r os ++ trace r log :=
  List.filter_append _ _

@[simp] theorem trace_cancelled (r : ReqId) (call : Call) (os : Log) :
    trace r (.cancelled call :: os) = trace r os := rfl

/-- Observations about `r` are about no other request. -/
theorem trace_of_forall {r : ReqId} {os : Log} (h : ∀ o ∈ os, ∀ r', o.isOf r' = (r == r'))
    (r' : ReqId) : trace r' os = if r' = r then os else [] := by
  by_cases hr : r' = r
  · rw [if_pos hr, trace, List.filter_eq_self]
    intro o ho
    rw [h o ho, hr, beq_self_eq_true]
  · rw [if_neg hr, trace, List.filter_eq_nil_iff]
    intro o ho
    rw [h o ho, beq_iff_eq]
    exact Ne.symm hr

theorem mem_trace {r : ReqId} {log : Log} {o : Obs} :
    o ∈ trace r log ↔ o ∈ log ∧ o.isOf r = true :=
  List.mem_filter

/-- The admission recorded is the one the request continues with. -/
def AdmissionRecord.Admits (record : AdmissionRecord) (idHash : String) (candidate : CandidateTag)
    (a : Admitted) : Prop :=
  record.idHash = idHash ∧ record.candidate = candidate ∧ record.requestedAt = a.requestedAt ∧
    record.outcome =
      .admitted (if a.isNew then .new a.status a.generation else .replay a.status a.generation)

/-- The response with which an admission ends the request. -/
def AdmissionRecord.refusal (record : AdmissionRecord) : Option Response :=
  match record.outcome with
  | .admitted .pending => some (overloaded "Candidate lookup pending, retry later")
  | .lockedOut response | .capacityExhausted response => some response
  | _ => none

/-- What the detached task of a lookup leaves in the log. -/
inductive TaskTrace (r : ReqId) (isTrashingSecret : Bool) (key : CandidateTag) (isNew : Bool) :
    Task → Log → Prop
  | blocking : TaskTrace r isTrashingSecret key isNew .blocking []
  | finalizing (outcome : DbOutcome) (result : LookupResult) :
    TaskTrace r isTrashingSecret key isNew (.finalizing result)
      [.queried r isTrashingSecret key outcome result]
  | replayed (outcome : DbOutcome) (result : LookupResult) (h : isNew = false) :
    TaskTrace r isTrashingSecret key isNew (.finished result)
      [.queried r isTrashingSecret key outcome result]
  | finalized (outcome : DbOutcome) (result : LookupResult) (h : isNew = true) :
    TaskTrace r isTrashingSecret key isNew (.finished result)
      [.finalized r result, .queried r isTrashingSecret key outcome result]
  | lostBefore : TaskTrace r isTrashingSecret key isNew .lost [.taskLost r]
  | lostAfter (outcome : DbOutcome) (result : LookupResult) :
    TaskTrace r isTrashingSecret key isNew .lost
      [.taskLost r, .queried r isTrashingSecret key outcome result]

/-- The words of a request still in flight; `gone` stands for its client having
left. -/
inductive PhaseTrace (r : ReqId) (gone : Prop) (isTrashingSecret : Bool) (idHash : String)
    (candidate : CandidateTag) : FetchPhase → Log → Prop
  | bucket : PhaseTrace r gone isTrashingSecret idHash candidate .bucket []
  | clock : PhaseTrace r gone isTrashingSecret idHash candidate .clock []
  | mapLock (t : ℤ) : PhaseTrace r gone isTrashingSecret idHash candidate (.mapLock t) []
  | permit (a : Admitted) (record : AdmissionRecord) (h : record.Admits idHash candidate a) :
    PhaseTrace r gone isTrashingSecret idHash candidate (.permit a) [.admission r record]
  | refund (a : Admitted) (record : AdmissionRecord) (h : record.Admits idHash candidate a)
      (hnew : a.isNew = true) :
    PhaseTrace r gone isTrashingSecret idHash candidate (.refund a) [.admission r record]
  | working (a : Admitted) (record : AdmissionRecord) (h : record.Admits idHash candidate a)
      (client : Bool) (hclient : client = false → gone) (task : Task) (word : Log)
      (ht : TaskTrace r isTrashingSecret candidate a.isNew task word) :
    PhaseTrace r gone isTrashingSecret idHash candidate (.working a client task)
      (word ++ [.admission r record])
  | lostRefund (a : Admitted) (record : AdmissionRecord) (h : record.Admits idHash candidate a)
      (hnew : a.isNew = true) (word : Log)
      (ht : TaskTrace r isTrashingSecret candidate a.isNew .lost word) :
    PhaseTrace r gone isTrashingSecret idHash candidate (.lostRefund a)
      (word ++ [.admission r record])
  | deferred (a : Admitted) (record : AdmissionRecord) (h : record.Admits idHash candidate a)
      (hnew : a.isNew = true) (hgone : gone) :
    PhaseTrace r gone isTrashingSecret idHash candidate (.deferred a) [.admission r record]

/-- The words of a finished request. -/
inductive OverTrace (cfg : Config) (r : ReqId) (gone : Prop) : Log → Prop
  | left (h : gone) : OverTrace cfg r gone []
  | refused (response : Response)
      (h : response.status = .badRequest ∨ response.status = .serviceUnavailable) :
    OverTrace cfg r gone [.response (.fetch r) response]
  | panicked : OverTrace cfg r gone [.panicked (.fetch r)]
  | turnedAway (record : AdmissionRecord) (response : Response)
      (h : record.refusal = some response) :
    OverTrace cfg r gone [.response (.fetch r) response, .admission r record]
  | admissionPanicked (record : AdmissionRecord) (h : record.outcome = .panicked) :
    OverTrace cfg r gone [.panicked (.fetch r), .admission r record]
  | replayLeft (idHash : String) (candidate : CandidateTag) (a : Admitted)
      (record : AdmissionRecord) (h : record.Admits idHash candidate a) (hnew : a.isNew = false)
      (hgone : gone) :
    OverTrace cfg r gone [.admission r record]
  | replayBusy (idHash : String) (candidate : CandidateTag) (a : Admitted)
      (record : AdmissionRecord) (h : record.Admits idHash candidate a) (hnew : a.isNew = false) :
    OverTrace cfg r gone [.response (.fetch r) databaseBusy, .admission r record]
  | refunded (idHash : String) (candidate : CandidateTag) (a : Admitted)
      (record : AdmissionRecord) (h : record.Admits idHash candidate a) (hnew : a.isNew = true)
      (hgone : gone) :
    OverTrace cfg r gone [.refunded r, .admission r record]
  | busy (idHash : String) (candidate : CandidateTag) (a : Admitted) (record : AdmissionRecord)
      (h : record.Admits idHash candidate a) (hnew : a.isNew = true) :
    OverTrace cfg r gone [.response (.fetch r) databaseBusy, .refunded r, .admission r record]
  | answered (isTrashingSecret : Bool) (idHash : String) (candidate : CandidateTag)
      (a : Admitted) (record : AdmissionRecord) (h : record.Admits idHash candidate a)
      (result : LookupResult) (word : Log)
      (ht : TaskTrace r isTrashingSecret candidate a.isNew (.finished result) word) :
    OverTrace cfg r gone
      (.response (.fetch r) (lookupResponse cfg isTrashingSecret a result) ::
        (word ++ [.admission r record]))
  | lostReplay (isTrashingSecret : Bool) (idHash : String) (candidate : CandidateTag)
      (a : Admitted) (record : AdmissionRecord) (h : record.Admits idHash candidate a)
      (hnew : a.isNew = false) (word : Log)
      (ht : TaskTrace r isTrashingSecret candidate a.isNew .lost word) :
    OverTrace cfg r gone
      (.response (.fetch r) internalServerError :: (word ++ [.admission r record]))
  | lostRefunded (isTrashingSecret : Bool) (idHash : String) (candidate : CandidateTag)
      (a : Admitted) (record : AdmissionRecord) (h : record.Admits idHash candidate a)
      (hnew : a.isNew = true) (word : Log)
      (ht : TaskTrace r isTrashingSecret candidate a.isNew .lost word) :
    OverTrace cfg r gone
      (.response (.fetch r) internalServerError :: .refunded r :: (word ++ [.admission r record]))
  | lostLeft (isTrashingSecret : Bool) (idHash : String) (candidate : CandidateTag)
      (a : Admitted) (record : AdmissionRecord) (h : record.Admits idHash candidate a)
      (hnew : a.isNew = true) (word : Log)
      (ht : TaskTrace r isTrashingSecret candidate a.isNew .lost word) (hgone : gone) :
    OverTrace cfg r gone (word ++ [.admission r record])

/-- The words of request `r`, by where its call stands. -/
inductive CallTrace (cfg : Config) (r : ReqId) (gone : Prop) : Option FetchCall → Log → Prop
  | absent : CallTrace cfg r gone none []
  | active (q : Lookup) (word : Log)
      (h : PhaseTrace r gone q.isTrashingSecret q.idHash q.candidate q.phase word) :
    CallTrace cfg r gone (some (.active q)) word
  | over (word : Log) (h : OverTrace cfg r gone word) : CallTrace cfg r gone (some .over) word

/-- The client of `r` has left. -/
def Gone (log : Log) (r : ReqId) : Prop := .cancelled (.fetch r) ∈ log

theorem Gone.mono {log : Log} {r : ReqId} (os : Log) (h : Gone log r) : Gone (os ++ log) r :=
  List.mem_append_right _ h

theorem PhaseTrace.mono {r : ReqId} {gone gone' : Prop} {trash : Bool} {id : String}
    {c : CandidateTag} {phase : FetchPhase} {word : Log} (hg : gone → gone')
    (h : PhaseTrace r gone trash id c phase word) : PhaseTrace r gone' trash id c phase word := by
  cases h with
  | bucket => exact .bucket
  | clock => exact .clock
  | mapLock t => exact .mapLock t
  | permit a record h => exact .permit a record h
  | refund a record h hnew => exact .refund a record h hnew
  | working a record h client hclient task word ht =>
    exact .working a record h client (hg ∘ hclient) task word ht
  | lostRefund a record h hnew word ht => exact .lostRefund a record h hnew word ht
  | deferred a record h hnew hgone => exact .deferred a record h hnew (hg hgone)

theorem OverTrace.mono {cfg : Config} {r : ReqId} {gone gone' : Prop} {word : Log}
    (hg : gone → gone') (h : OverTrace cfg r gone word) : OverTrace cfg r gone' word := by
  cases h with
  | left h => exact .left (hg h)
  | refused response h => exact .refused response h
  | panicked => exact .panicked
  | turnedAway record response h => exact .turnedAway record response h
  | admissionPanicked record h => exact .admissionPanicked record h
  | replayLeft id c a record h hnew hgone => exact .replayLeft id c a record h hnew (hg hgone)
  | replayBusy id c a record h hnew => exact .replayBusy id c a record h hnew
  | refunded id c a record h hnew hgone => exact .refunded id c a record h hnew (hg hgone)
  | busy id c a record h hnew => exact .busy id c a record h hnew
  | answered trash id c a record h result word ht =>
    exact .answered trash id c a record h result word ht
  | lostReplay trash id c a record h hnew word ht => exact .lostReplay trash id c a record h hnew word ht
  | lostRefunded trash id c a record h hnew word ht =>
    exact .lostRefunded trash id c a record h hnew word ht
  | lostLeft trash id c a record h hnew word ht hgone =>
    exact .lostLeft trash id c a record h hnew word ht (hg hgone)

theorem CallTrace.mono {cfg : Config} {r : ReqId} {gone gone' : Prop} {call : Option FetchCall}
    {word : Log} (hg : gone → gone') (h : CallTrace cfg r gone call word) :
    CallTrace cfg r gone' call word := by
  rcases h with _ | ⟨q, word, h⟩ | ⟨word, h⟩
  · exact .absent
  · exact .active q word (h.mono hg)
  · exact .over word (h.mono hg)

/-! ## A step extends the word of one request -/

/-- What a step means for the words: at most the call of `r` moves, and it reads
on with its own word. -/
def ExtendsTrace (cfg : Config) (s s' : AppState F) (os log : Log) : Prop :=
  s'.fetches = s.fetches ∧ (∀ r, trace r os = []) ∨
    ∃ r call, s'.fetches = Function.update s.fetches r (some call) ∧
      (∀ r', r' ≠ r → trace r' os = []) ∧
      CallTrace cfg r (Gone (os ++ log) r) (some call) (trace r (os ++ log))

theorem ExtendsTrace.callTrace {cfg : Config} {s s' : AppState F} {os log : Log}
    (h : ExtendsTrace cfg s s' os log)
    (hs : ∀ r, CallTrace cfg r (Gone log r) (s.fetches r) (trace r log)) (r : ReqId) :
    CallTrace cfg r (Gone (os ++ log) r) (s'.fetches r) (trace r (os ++ log)) := by
  have hkeep : s'.fetches r = s.fetches r → trace r os = [] →
      CallTrace cfg r (Gone (os ++ log) r) (s'.fetches r) (trace r (os ++ log)) := by
    intro hf hos
    rw [hf, trace_append, hos, List.nil_append]
    exact (hs r).mono (Gone.mono os)
  obtain ⟨hf, hos⟩ | ⟨r', call, hf, hos, hc⟩ := h
  · exact hkeep (by rw [hf]) (hos r)
  · by_cases hr : r = r'
    · subst hr
      rw [hf, Function.update_self]
      exact hc
    · exact hkeep (by rw [hf, Function.update_of_ne hr]) (hos r hr)

/-- The word of a lookup in flight. -/
theorem CallTrace.phaseTrace {cfg : Config} {r : ReqId} {gone : Prop} {q : Lookup} {word : Log}
    (h : CallTrace cfg r gone (some (.active q)) word) :
    PhaseTrace r gone q.isTrashingSecret q.idHash q.candidate q.phase word := by
  cases h with
  | active q word h => exact h

/-- A step that moves the call of `r` and observes only `r`. -/
theorem ExtendsTrace.of_update {cfg : Config} {s s' : AppState F} {os log : Log} {r : ReqId}
    {call : FetchCall} {word : Log} (added : Log)
    (hf : s'.fetches = Function.update s.fetches r (some call))
    (hos : ∀ r', trace r' os = if r' = r then added else []) (hw : trace r log = word)
    (hc : CallTrace cfg r (Gone (os ++ log) r) (some call) (added ++ word)) :
    ExtendsTrace cfg s s' os log := by
  refine .inr ⟨r, call, hf, fun r' hr => by rw [hos, if_neg hr], ?_⟩
  rw [trace_append, hos, if_pos rfl, hw]
  exact hc

theorem fetchArrives_trace {P : Primitives} {cfg : Config} {s s' : AppState F} {r : ReqId}
    {isTrashingSecret : Bool} {request : FetchSecret} {os log : Log}
    (hs : CallTrace cfg r (Gone log r) (s.fetches r) (trace r log))
    (h : fetchArrives P s r isTrashingSecret request = some (s', os)) :
    ExtendsTrace cfg s s' os log := by
  unfold fetchArrives at h
  split at h
  · cases h
  · next hfree =>
    rw [Option.not_isSome_iff_eq_none.mp hfree] at hs
    generalize hw : trace r log = word at hs
    cases hs
    split at h
    · next response hcheck =>
      have hbad : response.status = .badRequest := by
        unfold checkFetch at hcheck
        dsimp only at hcheck
        split at hcheck <;> cases hcheck
        rfl
      cases h
      exact .of_update [_] rfl (trace_of_forall (by simp [Obs.isOf])) hw
        (.over _ (.refused response (Or.inl hbad)))
    · split at h <;> cases h
      · exact .of_update [_] rfl (trace_of_forall (by simp [Obs.isOf])) hw (.over _ .panicked)
      · exact .of_update [] rfl (by simp) hw (.active _ _ .bucket)

theorem takeLookupToken_trace [BucketNumber F] {cfg : Config} {s s' : AppState F} {r : ReqId}
    {q : Lookup} {now : ℕ} {os log : Log} (hw : trace r log = [])
    (h : takeLookupToken s r q now = (s', os)) : ExtendsTrace cfg s s' os log := by
  unfold takeLookupToken at h
  dsimp only at h
  split at h <;> cases h
  · exact .of_update [] rfl (by simp) hw (.active _ _ .clock)
  · exact .of_update _ rfl (trace_of_forall (by simp [Obs.isOf])) hw
      (.over _ (.refused _ (Or.inr rfl)))

theorem enterMap_trace {cfg : Config} {s s' : AppState F} {r : ReqId} {q : Lookup} {t : ℤ}
    {os log : Log} (hw : trace r log = []) (h : enterMap cfg s r q t = (s', os)) :
    ExtendsTrace cfg s s' os log := by
  unfold enterMap at h
  dsimp only at h
  generalize hrec : admissionRecord cfg s.identifierRateLimit q.idHash q.candidate t = record at h
  have hadmits : ∀ status generation isNew, record.outcome =
      .admitted (if isNew then .new status generation else .replay status generation) →
      record.Admits q.idHash q.candidate ⟨t, status, generation, isNew⟩ :=
    fun status generation isNew ho => ⟨by rw [← hrec]; rfl, by rw [← hrec]; rfl, by rw [← hrec]; rfl, ho⟩
  have hrefused : ∀ response, record.refusal = some response →
      s' = (s.setMap (admitRequest cfg s.identifierRateLimit q.idHash q.candidate t).1).setFetch r .over →
      os = [.response (.fetch r) response, .admission r record] → ExtendsTrace cfg s s' os log := by
    rintro response ho rfl rfl
    exact .of_update _ rfl (trace_of_forall (by simp [Obs.isOf])) hw (.over _ (.turnedAway record response ho))
  split at h
  · next status generation ho =>
    cases h
    exact .of_update _ rfl (trace_of_forall (by simp [Obs.isOf])) hw
      (.active _ _ (.permit _ record (hadmits status generation true ho)))
  · next status generation ho =>
    cases h
    exact .of_update _ rfl (trace_of_forall (by simp [Obs.isOf])) hw
      (.active _ _ (.permit _ record (hadmits status generation false ho)))
  · next ho =>
    cases h
    exact hrefused _ (by rw [AdmissionRecord.refusal, ho]) rfl rfl
  · next response ho =>
    cases h
    exact hrefused response (by rw [AdmissionRecord.refusal, ho]) rfl rfl
  · next response ho =>
    cases h
    exact hrefused response (by rw [AdmissionRecord.refusal, ho]) rfl rfl
  · next ho =>
    cases h
    exact .of_update _ rfl (trace_of_forall (by simp [Obs.isOf])) hw
      (.over _ (.admissionPanicked record ho))

theorem dropGuard_trace {cfg : Config} {s s' : AppState F} {r : ReqId} {q : Lookup}
    {a : Admitted} {record : AdmissionRecord} {contended : Bool} {os log : Log}
    (hadm : record.Admits q.idHash q.candidate a) (hnew : a.isNew = true)
    (hw : trace r log = [.admission r record]) (h : dropGuard s r q a contended = (s', os)) :
    ExtendsTrace cfg s s' os log := by
  unfold dropGuard at h
  split at h <;> cases h
  · exact .of_update [] rfl (by simp) hw
      (.active _ _ (.deferred a record hadm hnew (by simp [Gone])))
  · exact .of_update [.refunded r] rfl
      (fun r' => (trace_of_forall (by simp [Obs.isOf]) r' : trace r' [Obs.refunded r] = _)) hw
      (.over _ (.refunded q.idHash q.candidate a record hadm hnew (by simp [Gone])))

theorem cancelFetch_trace {cfg : Config} {s s' : AppState F} {r : ReqId} {q : Lookup}
    {contended : Bool} {os log : Log}
    (hs : PhaseTrace r (Gone log r) q.isTrashingSecret q.idHash q.candidate q.phase (trace r log))
    (h : cancelFetch s r q contended = some (s', os)) : ExtendsTrace cfg s s' os log := by
  have hleave : OverTrace cfg r (Gone (.cancelled (.fetch r) :: log) r) (trace r log) →
      (s.setFetch r .over, [Obs.cancelled (.fetch r)]) = (s', os) →
      ExtendsTrace cfg s s' os log := by
    intro hover he
    cases he
    exact .of_update [] rfl (by simp) rfl (.over _ hover)
  have hgone : Gone (.cancelled (.fetch r) :: log) r := List.mem_cons_self
  unfold cancelFetch at h
  split at h
  · next hp =>
    rw [hp] at hs
    generalize hw : trace r log = word at hs
    cases hs
    exact hleave (by rw [hw]; exact .left hgone) (Option.some.inj h)
  · next hp =>
    rw [hp] at hs
    generalize hw : trace r log = word at hs
    cases hs
    exact hleave (by rw [hw]; exact .left hgone) (Option.some.inj h)
  · next a hp =>
    rw [hp] at hs
    generalize hw : trace r log = word at hs
    cases hs with
    | lostRefund _ record hadm hnew word ht =>
      refine hleave ?_ (Option.some.inj h)
      rw [hw]
      exact .lostLeft q.isTrashingSecret q.idHash q.candidate a record hadm hnew word ht hgone
  · next a hp =>
    rw [hp] at hs
    generalize hw : trace r log = word at hs
    cases hs with
    | permit _ record hadm =>
      split at h
      · next hnew => exact dropGuard_trace hadm hnew hw (Option.some.inj h)
      · next hnew =>
        refine hleave ?_ (Option.some.inj h)
        rw [hw]
        exact .replayLeft q.idHash q.candidate a record hadm (by simpa using hnew) hgone
  · next a hp =>
    rw [hp] at hs
    generalize hw : trace r log = word at hs
    cases hs with
    | refund _ record hadm hnew => exact dropGuard_trace hadm hnew hw (Option.some.inj h)
  · next a task hp =>
    rw [hp] at hs
    generalize hw : trace r log = word at hs
    cases hs with
    | working _ record hadm _ hclient _ word ht =>
      -- Only the handler is dropped: the task and its word go on.
      cases h
      exact .of_update [] rfl (by simp) hw
        (.active _ _ (.working a record hadm false (fun _ => hgone) task word ht))
  · cases h

/-- The detached task moves on. -/
theorem working_trace {cfg : Config} {s s' : AppState F} {r : ReqId} {q : Lookup}
    {a : Admitted} {client : Bool} {task task' : Task} {os log : Log} (added : Log)
    (hs : PhaseTrace r (Gone log r) q.isTrashingSecret q.idHash q.candidate (.working a client task)
      (trace r log))
    (hf : s'.fetches = Function.update s.fetches r
      (some (.active { q with phase := .working a client task' })))
    (hos : ∀ r', trace r' os = if r' = r then added else [])
    (ht : ∀ word, TaskTrace r q.isTrashingSecret q.candidate a.isNew task word →
      TaskTrace r q.isTrashingSecret q.candidate a.isNew task' (added ++ word)) :
    ExtendsTrace cfg s s' os log := by
  generalize hw : trace r log = word at hs
  cases hs with
  | working _ record hadm _ hclient _ word hword =>
    refine .of_update _ hf hos hw (.active _ _ ?_)
    rw [← List.append_assoc]
    exact .working a record hadm client (Gone.mono os ∘ hclient) task' _ (ht word hword)

theorem fetchStep_trace [BucketNumber F] {cfg : Config} {s s' : AppState F} {r : ReqId}
    {q : Lookup} {event : FetchEvent} {os log : Log}
    (hs : PhaseTrace r (Gone log r) q.isTrashingSecret q.idHash q.candidate q.phase (trace r log))
    (h : fetchStep cfg s r q event = some (s', os)) : ExtendsTrace cfg s s' os log := by
  cases event with
  | takeToken now =>
    simp only [fetchStep] at h
    split at h
    · next hp =>
      rw [hp] at hs
      generalize hw : trace r log = word at hs
      cases hs
      exact takeLookupToken_trace hw (Option.some.inj h)
    · cases h
  | readClock now =>
    simp only [fetchStep] at h
    split at h
    · next hp =>
      rw [hp] at hs
      generalize hw : trace r log = word at hs
      cases hs
      cases h
      exact .of_update [] rfl (by simp) hw (.active _ _ (.mapLock now))
    · cases h
  | enter =>
    simp only [fetchStep] at h
    split at h
    · next t hp =>
      rw [hp] at hs
      generalize hw : trace r log = word at hs
      cases hs
      exact enterMap_trace hw (Option.some.inj h)
    · cases h
  | permit granted =>
    simp only [fetchStep] at h
    split at h
    · next a hp =>
      rw [hp] at hs
      generalize hw : trace r log = word at hs
      cases hs with
      | permit _ record hadm =>
        split at h
        · cases h
          exact .of_update [] rfl (by simp) hw
            (.active _ _ (.working a record hadm true (by simp) .blocking [] .blocking))
        · split at h
          · next hnew =>
            cases h
            exact .of_update [] rfl (by simp) hw (.active _ _ (.refund a record hadm hnew))
          · next hnew =>
            cases h
            exact .of_update _ rfl (trace_of_forall (by simp [Obs.isOf])) hw
              (.over _ (.replayBusy q.idHash q.candidate a record hadm (by simpa using hnew)))
    · cases h
  | removePending =>
    simp only [fetchStep] at h
    split at h
    · next a hp =>
      rw [hp] at hs
      generalize hw : trace r log = word at hs
      cases hs with
      | refund _ record hadm hnew =>
        cases h
        exact .of_update _ rfl (trace_of_forall (by simp [Obs.isOf])) hw
          (.over _ (.busy q.idHash q.candidate a record hadm hnew))
    · next a hp =>
      rw [hp] at hs
      generalize hw : trace r log = word at hs
      cases hs with
      | lostRefund _ record hadm hnew word ht =>
        cases h
        exact .of_update _ rfl (trace_of_forall (by simp [Obs.isOf])) hw
          (.over _ (.lostRefunded q.isTrashingSecret q.idHash q.candidate a record hadm hnew word ht))
    · next a hp =>
      rw [hp] at hs
      generalize hw : trace r log = word at hs
      cases hs with
      | deferred _ record hadm hnew hgone =>
        cases h
        exact .of_update _ rfl (trace_of_forall (by simp [Obs.isOf])) hw
          (.over _ (.refunded q.idHash q.candidate a record hadm hnew (hgone.mono _)))
    · cases h
  -- The steps of the task add to its own word, before that of the handler.
  | query outcome =>
    simp only [fetchStep] at h
    split at h
    · next a client hp =>
      rw [hp] at hs
      cases h
      refine working_trace _ hs rfl (trace_of_forall (by simp [Obs.isOf])) fun word ht => ?_
      cases ht
      exact .finalizing outcome _
    · cases h
  | finalize =>
    simp only [fetchStep] at h
    split at h
    · next a client result hp =>
      rw [hp] at hs
      split at h
      · next hnew =>
        cases h
        refine working_trace _ hs rfl (trace_of_forall (by simp [Obs.isOf])) fun word ht => ?_
        cases ht with
        | finalizing outcome _ => exact .finalized outcome result hnew
      · next hnew =>
        cases h
        refine working_trace [] hs rfl (by simp) fun word ht => ?_
        cases ht with
        | finalizing outcome _ => exact .replayed outcome result (by simpa using hnew)
    · cases h
  | loseTask =>
    simp only [fetchStep] at h
    split at h
    · next a client hp =>
      rw [hp] at hs
      cases h
      refine working_trace _ hs rfl (trace_of_forall (by simp [Obs.isOf])) fun word ht => ?_
      cases ht
      exact .lostBefore
    · next a client result hp =>
      rw [hp] at hs
      cases h
      refine working_trace _ hs rfl (trace_of_forall (by simp [Obs.isOf])) fun word ht => ?_
      cases ht with
      | finalizing outcome _ => exact .lostAfter outcome result
    · cases h
  | respond =>
    simp only [fetchStep] at h
    split at h
    · next a result hp =>
      rw [hp] at hs
      generalize hw : trace r log = word at hs
      cases hs with
      | working _ record hadm _ hclient _ word ht =>
        cases h
        exact .of_update _ rfl (trace_of_forall (by simp [Obs.isOf])) hw
          (.over _ (.answered q.isTrashingSecret q.idHash q.candidate a record hadm result word ht))
    · next a hp =>
      rw [hp] at hs
      generalize hw : trace r log = word at hs
      cases hs with
      | working _ record hadm _ hclient _ word ht =>
        split at h
        · next hnew =>
          cases h
          exact .of_update [] rfl (by simp) hw
            (.active _ _ (.lostRefund a record hadm hnew word ht))
        · next hnew =>
          cases h
          exact .of_update _ rfl (trace_of_forall (by simp [Obs.isOf])) hw
            (.over _ (.lostReplay q.isTrashingSecret q.idHash q.candidate a record hadm
              (by simpa using hnew) word ht))
    · cases h
  | cancel contended => exact cancelFetch_trace hs h

/-! ## Every run -/

theorem Obs.call_of_isOf {r : ReqId} {o : Obs} (h : o.isOf r = true) : o.call = some (.fetch r) := by
  unfold Obs.isOf at h
  split at h
  all_goals first
    | cases h
    | rw [beq_iff_eq] at h
      rw [Obs.call, h]

/-- A step of another call observes nothing about a lookup. -/
theorem ExtendsTrace.of_elsewhere [BucketNumber F] {P : Primitives} {cfg : Config}
    {s s' : AppState F} {event : Event} {os log : Log} (h : step P cfg s event = some (s', os))
    (hcall : ∀ r, event.call ≠ some (.fetch r)) : ExtendsTrace cfg s s' os log := by
  obtain hf | ⟨r, _, hr, _⟩ := step_fetches h
  · refine .inl ⟨hf, fun r => ?_⟩
    rw [trace, List.filter_eq_nil_iff]
    intro o ho hof
    have hc := Obs.call_of_isOf hof
    obtain hsame | hnone := step_call h o ho
    · exact hcall r (hsame.symm.trans hc)
    · rw [hnone] at hc
      cases hc
  · exact absurd hr (hcall r)

theorem step_extendsTrace [BucketNumber F] {P : Primitives} {cfg : Config} {s s' : AppState F}
    {event : Event} {os log : Log}
    (hs : ∀ r, CallTrace cfg r (Gone log r) (s.fetches r) (trace r log))
    (h : step P cfg s event = some (s', os)) : ExtendsTrace cfg s s' os log := by
  cases event with
  | fetchArrives r isTrashingSecret request => exact fetchArrives_trace (hs r) h
  | fetch r event =>
    simp only [step] at h
    split at h
    · next q hq =>
      have hr := hs r
      rw [hq] at hr
      exact fetchStep_trace hr.phaseTrace h
    · cases h
  | storeArrives | store | attemptsArrives | attempts | info | sweep =>
    exact .of_elsewhere h (by simp [Event.call])

/-- Along every run, what is observed of a lookup is one of the words. -/
theorem Served.callTrace [BucketNumber F] {P : Primitives} {cfg : Config} {s : AppState F}
    {log : Log} (h : Served P cfg log s) (r : ReqId) :
    CallTrace cfg r (Gone log r) (s.fetches r) (trace r log) := by
  have hall : ∀ r, CallTrace cfg r (Gone log r) (s.fetches r) (trace r log) :=
    h.invariant (fun log s => ∀ r, CallTrace cfg r (Gone log r) (s.fetches r) (trace r log))
      (fun _ _ _ _ _ => .absent) fun log s event s' os _ hs he => (step_extendsTrace hs he).callTrace hs
  exact hall r

end RecoverBull
