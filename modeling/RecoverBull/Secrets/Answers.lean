import RecoverBull.Limiter.LockoutBoundary
import RecoverBull.Server.StoreTrace
import RecoverBull.Secrets.Linearization

/-!
# Answers and database steps

What the response of a lookup or a store tells of its database step, and that a
lookup whose step is done gets its response.
-/

namespace RecoverBull

variable {F : Type} {P : Primitives} {cfg : Config} {s : AppState F} {log : Log}

/-- The response hands `row` out and trashes it. -/
def Response.Releases (response : Response) (row : Secret) : Prop :=
  response.status = .accepted ∧ ∃ status, response.body = .secret row status

theorem lookupResponse_releases (cfg : Config) (a : Admitted) (row : Secret) :
    (lookupResponse cfg true a (.hit row)).Releases row :=
  ⟨rfl, a.status, rfl⟩

/-- Only a hit is answered 200 or 202. -/
theorem lookupResponse_hit {trash : Bool} {a : Admitted} {result : LookupResult}
    (h : (lookupResponse cfg trash a result).status = .ok ∨
      (lookupResponse cfg trash a result).status = .accepted) : ∃ row, result = .hit row := by
  cases result with
  | hit row => exact ⟨row, rfl⟩
  | miss | failed => cases h with | inl h | inr h => cases h

/-- An admission refuses with 503 or 429. -/
theorem AdmissionRecord.Spec.refusal_status {record : AdmissionRecord} (h : record.Spec cfg)
    {response : Response} (href : record.refusal = some response) :
    response.status = .serviceUnavailable ∨ response.status = .tooManyRequests := by
  unfold AdmissionRecord.refusal at href
  cases h with
  | refused _ _ hout =>
    rw [hout] at href
    cases href
    exact Or.inl rfl
  | entered left hleft hentry =>
    cases hentry with
    | lockedOut _ _ hout =>
      rw [hout] at href
      cases href
      exact Or.inr rfl
    | pending _ _ _ hout =>
      rw [hout] at href
      cases href
      exact Or.inl rfl
    | replay _ _ _ hout | new _ _ _ hout => rw [hout] at href; cases href

section words

variable {r : ReqId} {gone : Prop} {call : Option FetchCall} {word : Log}

theorem TaskTrace.of_queried {trash trash' isNew : Bool} {key key' : CandidateTag} {task : Task}
    {outcome : DbOutcome} {result : LookupResult} (h : TaskTrace r trash' key' isNew task word)
    (hq : .queried r trash key outcome result ∈ word) (hlost : .taskLost r ∉ word) :
    trash = trash' ∧ (task = .finalizing result ∨ task = .finished result) := by
  cases h with
  | blocking => simp at hq
  | finalizing outcome' result' | replayed outcome' result' | finalized outcome' result' =>
    simp at hq
    simp [hq]
  | lostBefore | lostAfter => simp at hlost

/-- A lookup that asked the database has its answer, or is on the way to it, or
its client has left. -/
theorem CallTrace.of_found (h : CallTrace cfg r gone call word) {trash : Bool}
    {key : CandidateTag} {outcome : DbOutcome} {result : LookupResult}
    (hq : .queried r trash key outcome result ∈ word) (hlost : .taskLost r ∉ word) :
    (∃ a, ∀ response, .response (.fetch r) response ∈ word ↔
      response = lookupResponse cfg trash a result) ∨
    (∀ response, .response (.fetch r) response ∉ word) ∧
      (gone ∨ ∃ q a task, call = some (.active q) ∧ q.phase = .working a true task ∧
        q.isTrashingSecret = trash ∧ (task = .finalizing result ∨ task = .finished result)) := by
  rcases h with _ | ⟨q, word, hw⟩ | ⟨word, hw⟩
  · exact absurd hq List.not_mem_nil
  · right
    generalize hp : q.phase = phase at hw
    cases hw with
    | bucket | clock | mapLock | permit | refund | deferred => simp at hq
    | working a record hadm client hclient task tail ht =>
      have hq' : .queried r trash key outcome result ∈ tail := by simpa using hq
      have hlost' : .taskLost r ∉ tail := fun hm => hlost (List.mem_append_left _ hm)
      obtain ⟨rfl, htask⟩ := ht.of_queried hq' hlost'
      refine ⟨fun response hm => ?_, ?_⟩
      · cases ht <;> simp at hm
      · cases client with
        | false => exact Or.inl (hclient rfl)
        | true => exact Or.inr ⟨q, a, task, rfl, hp, rfl, htask⟩
    | lostRefund a record hadm hnew tail ht =>
      exact absurd (List.mem_append_left _ ht.lost_mem) hlost
  · cases hw with
    | left | refused | panicked | turnedAway | admissionPanicked | replayLeft | replayBusy
    | refunded | busy => simp at hq
    -- The handler answers with what the task found.
    | answered trash' id c a record hadm result' tail ht =>
      have hq' : .queried r trash key outcome result ∈ tail := by simpa using hq
      have hlost' : .taskLost r ∉ tail := by
        intro hm
        exact hlost (List.mem_cons_of_mem _ (List.mem_append_left _ hm))
      obtain ⟨rfl, htask⟩ := ht.of_queried hq' hlost'
      obtain rfl : result' = result := by simpa using htask
      refine Or.inl ⟨a, fun response => ?_⟩
      cases ht <;> simp
    | lostReplay trash' id c a record hadm hnew tail ht
    | lostRefunded trash' id c a record hadm hnew tail ht
    | lostLeft trash' id c a record hadm hnew tail ht =>
      exact absurd (by simp [ht.lost_mem]) hlost

/-- What is handed out was found before. -/
theorem CallTrace.of_released (h : CallTrace cfg r gone call word) {response : Response}
    (hm : .response (.fetch r) response ∈ word)
    (hstatus : response.status = .ok ∨ response.status = .accepted)
    (hspec : ∀ record, .admission r record ∈ word → record.Spec cfg) :
    ∃ trash key a outcome row newer older,
      word = newer ++ .queried r trash key outcome (.hit row) :: older ∧
        .response (.fetch r) response ∈ newer ∧
        (∃ id record, .admission r record ∈ word ∧ record.Admits id key a) ∧
        response = lookupResponse cfg trash a (.hit row) := by
  have hother : ∀ {other : Response}, response = other → other.status ≠ .ok →
      other.status ≠ .accepted → False := by
    rintro other rfl hok haccepted
    exact hstatus.elim hok haccepted
  rcases h with _ | ⟨q, word, hw⟩ | ⟨word, hw⟩
  · exact absurd hm List.not_mem_nil
  · generalize q.phase = phase at hw
    cases hw
    all_goals try cases ‹TaskTrace _ _ _ _ _ _›
    all_goals simp at hm
  · cases hw
    case refused response' hrefused =>
      obtain rfl : response = response' := by simpa using hm
      rcases hrefused with hr | hr <;> rw [hr] at hstatus <;> simp at hstatus
    case turnedAway record response' href =>
      obtain rfl : response = response' := by simpa using hm
      rcases (hspec record (by simp)).refusal_status href with hr | hr <;> rw [hr] at hstatus <;>
        simp at hstatus
    case replayBusy | busy =>
      exact (hother (by simpa using hm) StatusCode.noConfusion StatusCode.noConfusion).elim
    case lostReplay ht | lostRefunded ht =>
      obtain rfl : response = internalServerError := by cases ht <;> simpa using hm
      exact (hother rfl StatusCode.noConfusion StatusCode.noConfusion).elim
    case answered trash id c a record hadm result tail ht =>
      obtain rfl : response = lookupResponse cfg trash a result := by
        cases ht <;> simpa using hm
      obtain ⟨row, rfl⟩ := lookupResponse_hit hstatus
      obtain ⟨outcome, ⟨-, rfl⟩ | ⟨-, rfl⟩⟩ := ht.finished_cases
      · exact ⟨trash, c, a, outcome, row, [_], _, rfl, List.mem_cons_self,
          ⟨id, record, by simp, hadm⟩, rfl⟩
      · exact ⟨trash, c, a, outcome, row, [_, _], _, rfl, List.mem_cons_self,
          ⟨id, record, by simp, hadm⟩, rfl⟩
    all_goals try cases ‹TaskTrace _ _ _ _ _ _›
    all_goals simp at hm

end words

/-! ## Lookups -/

section lookups

variable [BucketNumber F] {r : ReqId} {trash : Bool} {key : CandidateTag} {result : LookupResult}

/-- A row handed out was read at a step of its own before. -/
theorem Served.of_released (h : Served P cfg log s) {response : Response}
    (hm : .response (.fetch r) response ∈ log)
    (hstatus : response.status = .ok ∨ response.status = .accepted) :
    ∃ trash key a outcome row newer older,
      log = newer ++ .queried r trash key outcome (.hit row) :: older ∧
        .response (.fetch r) response ∈ newer ∧
        (∃ id record, .admission r record ∈ log ∧ record.Admits id key a) ∧
        response = lookupResponse cfg trash a (.hit row) := by
  have hspec : ∀ record, .admission r record ∈ trace r log → record.Spec cfg :=
    fun record hrec => h.admissionSpec (admission_mem_trace.mpr hrec)
  obtain ⟨trash, key, a, outcome, row, newer, older, hword, hnewer, ⟨id, record, hrec, hadm⟩,
    hresponse⟩ :=
    (h.callTrace r).of_released (response_mem_trace.mp hm) hstatus hspec
  obtain ⟨newer', older', hlog, hnewer', -⟩ := Machine.split_of_filter hword
  refine ⟨trash, key, a, outcome, row, newer', older', hlog, ?_,
    ⟨id, record, admission_mem_trace.mpr hrec, hadm⟩, hresponse⟩
  rw [← hnewer'] at hnewer
  exact (List.mem_filter.mp hnewer).1

/-- The answer of a lookup whose task was not lost is the one to what it found. -/
theorem Served.answer_of_queried (h : Served P cfg log s) {outcome : DbOutcome}
    (hq : .queried r trash key outcome result ∈ log) (hlost : .taskLost r ∉ log)
    {response : Response} (hm : .response (.fetch r) response ∈ log) :
    ∃ a, response = lookupResponse cfg trash a result := by
  obtain ⟨a, ha⟩ | ⟨hnone, -⟩ := (h.callTrace r).of_found (queried_mem_trace.mp hq)
    (mt taskLost_mem_trace.mpr hlost)
  · exact ⟨a, (ha response).mp (response_mem_trace.mp hm)⟩
  · exact absurd (response_mem_trace.mp hm) (hnone response)

/-- The last steps of a lookup whose task waits or has returned. -/
theorem answer_enabled (P : Primitives) (cfg : Config) {q : Lookup} {a : Admitted} {task : Task}
    (hq : s.fetches r = some (.active q)) (hp : q.phase = .working a true task)
    (htask : task = .finalizing result ∨ task = .finished result) :
    ∃ events s' os, (∀ e ∈ events, ∃ event, e = .fetch r event) ∧ events.length ≤ 2 ∧
      run P cfg s events = some (s', os) ∧
      .response (.fetch r) (lookupResponse cfg q.isTrashingSecret a result) ∈ os := by
  have hrespond : ∀ {s : AppState F} {q' : Lookup}, s.fetches r = some (.active q') →
      q'.phase = .working a true (.finished result) →
      RecoverBull.step P cfg s (.fetch r .respond) = some (s.setFetch r .over,
        [.response (.fetch r) (lookupResponse cfg q'.isTrashingSecret a result)]) := by
    intro s q' hq' hp'
    simp only [RecoverBull.step, hq', fetchStep, hp']
  obtain rfl | rfl := htask
  · -- The task finalizes first, under the map lock or, for a replay, without it.
    obtain ⟨s₁, os₁, hs₁, hq₁⟩ : ∃ s₁ os₁,
        RecoverBull.step P cfg s (.fetch r .finalize) = some (s₁, os₁) ∧
          s₁.fetches r = some (.active { q with phase := .working a true (.finished result) }) := by
      simp only [RecoverBull.step, hq, fetchStep, hp]
      split
      · exact ⟨_, _, rfl, by simp⟩
      · exact ⟨_, _, rfl, by simp⟩
    have hs₂ := hrespond hq₁ rfl
    refine ⟨[.fetch r .finalize, .fetch r .respond], _, _, by simp, by simp,
      Machine.run_cons_eq_some.mpr ⟨s₁, os₁, _, hs₁, Machine.run_singleton hs₂, rfl⟩, ?_⟩
    exact List.mem_append_left _ List.mem_cons_self
  · exact ⟨[.fetch r .respond], _, _, by simp, by simp, Machine.run_singleton (hrespond hq hp),
      List.mem_cons_self⟩

/-- A lookup that asked the database and whose client stays is answered, or can
be with two steps of its own. -/
theorem Served.answered_of_queried (h : Served P cfg log s) {outcome : DbOutcome}
    (hq : .queried r trash key outcome result ∈ log) (hlost : .taskLost r ∉ log)
    (hstays : .cancelled (.fetch r) ∉ log) :
    (∃ response, .response (.fetch r) response ∈ log) ∨
      ∃ events s' os a, (∀ e ∈ events, ∃ event, e = .fetch r event) ∧ events.length ≤ 2 ∧
        run P cfg s events = some (s', os) ∧
        .response (.fetch r) (lookupResponse cfg trash a result) ∈ os := by
  obtain ⟨a, ha⟩ | ⟨-, hgone | ⟨q, a, task, hcall, hp, rfl, htask⟩⟩ :=
    (h.callTrace r).of_found (queried_mem_trace.mp hq) (mt taskLost_mem_trace.mpr hlost)
  · exact Or.inl ⟨_, response_mem_trace.mpr ((ha _).mpr rfl)⟩
  · exact absurd hgone hstays
  · obtain ⟨events, s', os, hevents, hlen, hrun, hm⟩ := answer_enabled P cfg hcall hp htask
    exact Or.inr ⟨events, s', os, a, hevents, hlen, hrun, hm⟩

end lookups

/-! ## Stores -/

section stores

variable [BucketNumber F] {r : ReqId} {response : Response}

theorem response_mem_storeTrace (hm : .response (.store r) response ∈ log) :
    .response (.store r) response ∈ storeTrace r log :=
  mem_storeTrace.mpr ⟨hm, by simp [Obs.isOfStore]⟩

/-- A 201 follows a write that ran. -/
theorem Served.of_created (h : Served P cfg log s) (hm : .response (.store r) response ∈ log)
    (hstatus : response.status = .created) :
    ∃ row newer older, log = newer ++ .wrote r row .runs :: older ∧
      .response (.store r) response ∈ newer := by
  have hm' := response_mem_storeTrace hm
  have hword := h.storeTrace r
  generalize hw : RecoverBull.storeTrace r log = word at hword hm'
  generalize s.stores r = call at hword
  cases hword with
  | absent | waiting | left | written => simp at hm'
  | refused response' href =>
    obtain rfl : response = response' := by simpa using hm'
    rw [hstatus] at href
    simp at href
  | answered key outcome =>
    obtain rfl : response = storeResponse outcome.isStored := by simpa using hm'
    obtain rfl := storeResponse_created_iff.mp hstatus
    have hsplit : log.filter (Obs.isOfStore r) =
        [Obs.response (.store r) (storeResponse DbOutcome.runs.isStored)] ++
          Obs.wrote r key .runs :: [] := hw
    obtain ⟨newer, older, hlog, hnewer, -⟩ := Machine.split_of_filter hsplit
    refine ⟨key, newer, older, hlog, ?_⟩
    have hin : .response (.store r) (storeResponse DbOutcome.runs.isStored) ∈
        newer.filter (Obs.isOfStore r) := by
      rw [hnewer]
      exact List.mem_cons_self
    exact (List.mem_filter.mp hin).1

/-- A store that is answered otherwise has not written. -/
theorem Served.of_not_created (h : Served P cfg log s)
    (hm : .response (.store r) response ∈ log) (hstatus : response.status ≠ .created)
    {row : Secret} {outcome : DbOutcome} (hw : .wrote r row outcome ∈ log) : outcome ≠ .runs := by
  have hm' := response_mem_storeTrace hm
  have hw' : .wrote r row outcome ∈ RecoverBull.storeTrace r log :=
    mem_storeTrace.mpr ⟨hw, by simp [Obs.isOfStore]⟩
  have hword := h.storeTrace r
  generalize RecoverBull.storeTrace r log = word at hword hm' hw'
  generalize s.stores r = call at hword
  cases hword with
  | absent | waiting | left | written | refused => simp at hm' hw'
  | answered key outcome' =>
    obtain ⟨-, rfl⟩ : row = key ∧ outcome = outcome' := by simpa using hw'
    obtain rfl : response = storeResponse outcome.isStored := by simpa using hm'
    exact fun hruns => hstatus (storeResponse_created_iff.mpr hruns)

end stores

end RecoverBull
