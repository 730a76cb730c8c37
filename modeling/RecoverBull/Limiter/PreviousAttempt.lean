import RecoverBull.Limiter.Counters
import RecoverBull.Secrets.Answers

/-!
# The previous attempt

A successful response tells its client when the window was last attempted before.
A replay is told nothing, and a new candidate the time of the last reservation of
the window, even if that one was given back.
-/

namespace RecoverBull

variable {F : Type} {P : Primitives} {cfg : Config} {s s' : AppState F} {log os older : Log}
  {id : String} {info : RateLimitInfo} {record : AdmissionRecord} {generation t : ℤ}

/-! ## Attempts on a window -/

/-- The start of the window the request is admitted to: that of the entry it finds,
or of a fresh one. -/
def AdmissionRecord.window (record : AdmissionRecord) : ℤ :=
  (record.found.getD (.new record.requestedAt)).windowStartedAt

/-- The time of a reservation in the window. -/
def Obs.attemptOn (id : String) (generation : ℤ) : Obs → Option ℤ
  | .admission _ record =>
    if record.reservation = some ⟨id, record.candidate, generation⟩ then some record.requestedAt
    else none
  | _ => none

/-- The attempts on a window, given back or not, newest first. -/
def windowAttempts (id : String) (generation : ℤ) (log : Log) : List ℤ :=
  log.filterMap (Obs.attemptOn id generation)

/-- The time of a reservation in the window of the request for another candidate, if
the log does not say that it was given back. -/
def Obs.foreignAttempt (record : AdmissionRecord) (log : Log) : Obs → Option ℤ
  | .admission r attempt =>
    if attempt.reservation = some ⟨record.idHash, attempt.candidate, record.window⟩ ∧
      attempt.candidate ≠ record.candidate ∧ ¬Refunded log r then some attempt.requestedAt
    else none
  | _ => none

/-- The attempts of other candidates on the window of the request that stand when it
enters, newest first. -/
def foreignAttempts (record : AdmissionRecord) (log : Log) : List ℤ :=
  log.filterMap (Obs.foreignAttempt record log)

/-- The entry the request finds does not hold its candidate. -/
def AdmissionRecord.NewToWindow (record : AdmissionRecord) : Prop :=
  ∀ info, record.found = some info → record.candidate ∉ info.candidates

theorem AdmissionRecord.candidate_of_reservation {slot : Slot}
    (h : record.reservation = some slot) : record.candidate = slot.candidate := by
  unfold AdmissionRecord.reservation at h
  split at h
  · cases h
    rfl
  · cases h

theorem mem_windowAttempts : t ∈ windowAttempts id generation log ↔ ∃ r record c,
    .admission r record ∈ log ∧ record.reservation = some ⟨id, c, generation⟩ ∧
      record.requestedAt = t := by
  rw [windowAttempts, List.mem_filterMap]
  constructor
  · rintro ⟨o, ho, ht⟩
    cases o with
    | admission r record =>
      rw [Obs.attemptOn, Option.ite_none_right_eq_some, Option.some.injEq] at ht
      exact ⟨r, record, _, ho, ht⟩
    | _ => cases ht
  · rintro ⟨r, record, c, ho, hslot, ht⟩
    obtain rfl := AdmissionRecord.candidate_of_reservation hslot
    exact ⟨_, ho, by rw [Obs.attemptOn, if_pos hslot, ht]⟩

theorem mem_foreignAttempts : t ∈ foreignAttempts record log ↔ ∃ r attempt c,
    .admission r attempt ∈ log ∧
      attempt.reservation = some ⟨record.idHash, c, record.window⟩ ∧ c ≠ record.candidate ∧
      ¬Refunded log r ∧ attempt.requestedAt = t := by
  rw [foreignAttempts, List.mem_filterMap]
  constructor
  · rintro ⟨o, ho, ht⟩
    cases o with
    | admission r attempt =>
      rw [Obs.foreignAttempt, Option.ite_none_right_eq_some, Option.some.injEq] at ht
      obtain ⟨⟨hslot, hne, href⟩, ht⟩ := ht
      exact ⟨r, attempt, _, ho, hslot, hne, href, ht⟩
    | _ => cases ht
  · rintro ⟨r, attempt, c, ho, hslot, hne, href, ht⟩
    obtain rfl := AdmissionRecord.candidate_of_reservation hslot
    exact ⟨_, ho, by rw [Obs.foreignAttempt, if_pos ⟨hslot, hne, href⟩, ht]⟩

theorem windowAttempts_append (h : t ∈ windowAttempts id generation log) :
    t ∈ windowAttempts id generation (os ++ log) := by
  rw [windowAttempts, List.filterMap_append]
  exact List.mem_append_right _ h

theorem foreignAttempts_subset (h : t ∈ foreignAttempts record log) :
    t ∈ windowAttempts record.idHash record.window log := by
  obtain ⟨r, attempt, c, hm, hslot, -, -, ht⟩ := mem_foreignAttempts.mp h
  exact mem_windowAttempts.mpr ⟨r, attempt, c, hm, hslot, ht⟩

/-- With non-decreasing clocks the newest attempt is the latest. -/
theorem foreignAttempts_sorted (hchron : Chronological log) :
    (foreignAttempts record log).Pairwise (· ≥ ·) := by
  have hclock : ∀ {o : Obs} {t : ℤ}, o.foreignAttempt record log = some t → o.clock = some t := by
    intro o t ht
    cases o with
    | admission r attempt =>
      rw [Obs.foreignAttempt, Option.ite_none_right_eq_some] at ht
      exact ht.2
    | _ => cases ht
  rw [foreignAttempts, List.pairwise_filterMap]
  rw [Chronological, clocks, List.pairwise_filterMap] at hchron
  exact hchron.imp fun hle t ht t' ht' => hle t (hclock ht) t' (hclock ht')

/-! ## The last reservation of a window -/

/-- The deadline of an entry counts from a reservation of its window. -/
def LastReserved (id : String) (log : Log) (entry : Option RateLimitInfo) : Prop :=
  ∀ info, entry = some info →
    info.lastCandidateAt ∈ windowAttempts id info.windowStartedAt log

theorem EntryEffect.lastReserved {entry entry' : Option RateLimitInfo}
    (he : EntryEffect cfg s os id entry entry') (h : LastReserved id log entry) :
    LastReserved id (os ++ log) entry' := by
  have hkeep : ∀ info, entry = some info →
      info.lastCandidateAt ∈ windowAttempts id info.windowStartedAt (os ++ log) :=
    fun info hi => windowAttempts_append (h info hi)
  cases he with
  | same => exact hkeep
  | expire t => exact fun info hi => hkeep info (Option.filter_eq_some_iff.mp hi).1
  | admission r record hm hid hspec hfound =>
    have hreserved : ∀ {g : ℤ}, record.reservation = some ⟨record.idHash, record.candidate, g⟩ →
        record.requestedAt ∈ windowAttempts id g (os ++ log) := by
      intro g hslot
      exact mem_windowAttempts.mpr
        ⟨r, record, record.candidate, List.mem_append_left _ hm, hid ▸ hslot, rfl⟩
    intro info hi
    obtain ⟨-, hslot, rfl⟩ | ⟨old, hold, hinto⟩ := hspec.left_cases hi
    · exact hreserved hslot
    · -- Nothing but a reservation moves the time of the last candidate.
      obtain ⟨-, rfl⟩ | ⟨hslot, -, rfl⟩ := hinto
      · exact hkeep old (Option.filter_eq_some_iff.mp (hfound.symm.trans hold)).1
      · exact hreserved hslot
  | refund r q a =>
    intro info hi
    obtain ⟨old, hold, hrefund⟩ := Option.bind_eq_some_iff.mp hi
    obtain ⟨candidates, rfl⟩ := refundEntry_fields hrefund
    exact hkeep old hold
  | finalize r q a result =>
    intro info hi
    obtain ⟨old, hold, hfinal⟩ := Option.bind_eq_some_iff.mp hi
    obtain ⟨candidates, failed, rfl⟩ := finalizeEntry_fields hfinal
    exact hkeep old hold

section runs

variable [BucketNumber F]

theorem Served.lastReserved (h : Served P cfg log s) (id : String) :
    LastReserved id log (s.identifierRateLimit.lookup id) := by
  refine h.invariant (fun log s => LastReserved id log (s.identifierRateLimit.lookup id)) ?_ ?_
  · intro secrets b₁ b₂ b₃ info hi
    cases hi
  · intro log s event s' os hs ih hstep
    exact ((step_effect hstep).entry hs.bounded id).lastReserved ih

/-- No attempt on the window of an entry came after the one its deadline counts from. -/
theorem Served.le_lastCandidateAt (h : Served P cfg log s) (hchron : Chronological log)
    (hi : s.identifierRateLimit.lookup id = some info)
    (ht : t ∈ windowAttempts id info.windowStartedAt log) : t ≤ info.lastCandidateAt := by
  have hinv := h.windowInv hchron id
  obtain ⟨r, record, c, hm, hslot, rfl⟩ := mem_windowAttempts.mp ht
  obtain ⟨before, hlog⟩ := Machine.since_prefix (Obs.opens id) log
  rw [← hlog] at hm hchron
  obtain hm | hm := List.mem_append.mp hm
  · exact ((hinv.window info hi).started r record _ hm hslot rfl).2
  · -- An attempt from before the window opened came no later than its opening.
    obtain ⟨w, r₀, record₀, hw, -, hstart⟩ := hinv.opened info hi
    have hopen : record₀.requestedAt ∈ clocks (windowLog id log) := by
      rw [hw]
      exact List.mem_filterMap.mpr ⟨_, List.mem_append_right _ List.mem_cons_self, rfl⟩
    have hbefore : record.requestedAt ∈ clocks before := List.mem_filterMap.mpr ⟨_, hm, rfl⟩
    have := hchron.le hopen hbefore
    have := h.windowStartedAt_le (hlog ▸ hchron) hi
    omega

/-- A request that finds no entry joins no one's window. -/
theorem Served.foreignAttempts_of_not_found (h : Served P cfg log s) (hchron : Chronological log)
    (hnow : ∀ t ∈ clocks log, t ≤ record.requestedAt)
    (hfound : record.found = (s.identifierRateLimit.lookup record.idHash).filter
      (withinCooldown cfg record.requestedAt)) (hnone : record.found = none) :
    foreignAttempts record log = [] := by
  have hinv := h.windowInv hchron record.idHash
  have hcd := cfg.cooldown_pos
  have hwindow : record.window = record.requestedAt := by
    rw [AdmissionRecord.window, hnone]
    rfl
  rw [List.eq_nil_iff_forall_not_mem]
  intro t ht
  obtain ⟨r, attempt, c, hm, hslot, -, href, rfl⟩ := mem_foreignAttempts.mp ht
  have hgen := hinv.generation r attempt _ hm hslot
  change record.window ≤ attempt.requestedAt at hgen
  obtain ⟨⟨info, hi⟩, hin⟩ | ⟨⟨t', ht', hlt⟩, -⟩ := hinv.past r attempt _ hm hslot rfl href
  · -- An entry with an attempt that new has not expired.
    have hlast := ((hinv.window info hi).started r attempt _ hin hslot rfl).2
    rw [hnone, hi, eq_comm, Option.filter_eq_none_iff] at hfound
    have hover := hfound info rfl
    rw [withinCooldown_iff] at hover
    omega
  · have := hnow t' ht'
    omega

/-- A new candidate in an entry joins the window of another one. -/
theorem Served.foreignAttempts_of_found (h : Served P cfg log s) (hchron : Chronological log)
    (hi : s.identifierRateLimit.lookup record.idHash = some info)
    (hfound : record.found = some info) (hc : record.candidate ∉ info.candidates) :
    foreignAttempts record log ≠ [] := by
  have hw := (h.windowInv hchron record.idHash).window info hi
  have hwindow : record.window = info.windowStartedAt := by
    rw [AdmissionRecord.window, hfound]
    rfl
  obtain ⟨c, hmem⟩ := Finset.card_pos.mp (h.bounded.entry record.idHash info hi).1
  have hmem' := Finmap.mem_keys.mp hmem
  obtain ⟨r, ⟨attempt, g, hm, hslot⟩, href⟩ :=
    (hw.mem_iff (fun _ => h.not_refunded_of_committed) c).mp hmem'
  have hg : g = record.window := by
    rw [hwindow]
    exact (hw.started r attempt _ hm hslot rfl).1
  subst hg
  refine List.ne_nil_of_mem (mem_foreignAttempts.mpr
    ⟨r, attempt, c, mem_of_mem_windowLog hm, hslot, ?_, href, rfl⟩)
  rintro rfl
  exact hc hmem'

/-- Where an admission stands in the log, and the state it met. -/
theorem Served.before_admission (h : Served P cfg log s) {r : ReqId}
    (hm : .admission r record ∈ log) : ∃ (newer older : Log) (s₀ : AppState F),
      log = newer ++ .admission r record :: older ∧ Served P cfg older s₀ ∧ record.found =
        (s₀.identifierRateLimit.lookup record.idHash).filter
          (withinCooldown cfg record.requestedAt) := by
  refine h.invariant (fun log _ => .admission r record ∈ log → ∃ (newer older : Log) (s₀ : AppState F),
    log = newer ++ .admission r record :: older ∧ Served P cfg older s₀ ∧ record.found =
      (s₀.identifierRateLimit.lookup record.idHash).filter
        (withinCooldown cfg record.requestedAt)) ?_ ?_ hm
  · intro _ _ _ _ hm
    exact absurd hm List.not_mem_nil
  · intro log s event s' os hs ih hstep hm
    obtain hm | hm := List.mem_append.mp hm
    · obtain ⟨q, t, extra, -, -, rfl, -, rfl, -⟩ := (step_effect hstep).of_admission hm
      exact ⟨extra, log, s, by simp, hs, admissionRecord_found _ _ _ _ _⟩
    · obtain ⟨newer, older, s₀, rfl, hserved, hfound⟩ := ih hm
      exact ⟨os ++ newer, older, s₀, by simp, hserved, hfound⟩

end runs

/-! ## What the response tells -/

/-- The three ways into a window, with the time the client is told. -/
inductive AdmissionRecord.Told (record : AdmissionRecord) (status : AttemptStatus) : Prop
  | opens (hfound : record.found = none) (hprevious : status.previousAttemptAt = none)
  | joins (info : RateLimitInfo) (hfound : record.found = some info)
      (hc : record.candidate ∉ info.candidates)
      (hprevious : status.previousAttemptAt = some info.lastCandidateAt)
  | repeats (info : RateLimitInfo) (hfound : record.found = some info)
      (hc : record.candidate ∈ info.candidates) (hprevious : status.previousAttemptAt = none)

theorem AdmissionRecord.Spec.told (h : record.Spec cfg) {a : Admitted} {c : CandidateTag}
    (hadm : record.Admits id c a) :
    record.Told a.status ∧ a.status.windowStartedAt = record.window := by
  obtain ⟨-, -, -, hadmitted⟩ := hadm
  cases h with
  | refused _ _ hout =>
    rw [hout] at hadmitted
    cases ha : a.isNew <;> rw [ha] at hadmitted <;> cases hadmitted
  | entered left hleft hentry hold =>
    unfold AdmissionRecord.window
    generalize hinfo : record.found.getD (.new record.requestedAt) = info at hentry ⊢
    cases hentry with
    | lockedOut _ _ hout | pending _ _ _ hout =>
      rw [hout] at hadmitted
      cases ha : a.isNew <;> rw [ha] at hadmitted <;> cases hadmitted
    | replay _ hc _ hout =>
      rw [hout] at hadmitted
      cases ha : a.isNew <;> rw [ha] at hadmitted
      · obtain ⟨hstatus, -⟩ : statusOf cfg (touchEntry record.requestedAt info) none = a.status ∧
            info.windowStartedAt = a.generation := by simpa using hadmitted
        rw [← hstatus]
        refine ⟨?_, rfl⟩
        cases hf : record.found with
        -- A new entry has no candidate to replay.
        | none =>
          rw [hf, Option.getD_none] at hinfo
          subst hinfo
          cases hc
        | some old =>
          rw [hf, Option.getD_some] at hinfo
          subst hinfo
          exact .repeats old hf (Finmap.mem_of_lookup_eq_some hc) rfl
      · cases hadmitted
    | new _ hc _ hout =>
      rw [hout] at hadmitted
      cases ha : a.isNew <;> rw [ha] at hadmitted
      · cases hadmitted
      · obtain ⟨hstatus, -⟩ : statusOf cfg (reserveEntry record.candidate record.requestedAt info)
            (if info.candidates.len > 0 then some info.lastCandidateAt else none) = a.status ∧
            info.windowStartedAt = a.generation := by simpa using hadmitted
        rw [← hstatus]
        refine ⟨?_, rfl⟩
        cases hf : record.found with
        | none =>
          rw [hf, Option.getD_none] at hinfo
          subst hinfo
          exact .opens hf rfl
        | some old =>
          rw [hf, Option.getD_some] at hinfo
          subst hinfo
          have hpos : old.candidates.len > 0 := (hold old hf).1.1
          exact .joins old hf (Finmap.lookup_eq_none.mp hc) (if_pos hpos)

/-- What the client is told against the history of the window. -/
theorem AdmissionRecord.Told.previous_iff [BucketNumber F] {status : AttemptStatus}
    (h : record.Told status) (hs : Served P cfg older s) (hchron : Chronological older)
    (hnow : ∀ t ∈ clocks older, t ≤ record.requestedAt)
    (hfound : record.found = (s.identifierRateLimit.lookup record.idHash).filter
      (withinCooldown cfg record.requestedAt)) :
    status.previousAttemptAt = (foreignAttempts record older).head? ↔
      foreignAttempts record older = [] ∨ record.NewToWindow ∧
        ∀ t ∈ windowAttempts record.idHash record.window older,
          ∃ t' ∈ foreignAttempts record older, t ≤ t' := by
  cases h with
  | opens hnone hprevious =>
    rw [hs.foreignAttempts_of_not_found hchron hnow hfound hnone, hprevious]
    simp
  | repeats info hsome hc hprevious =>
    have hnew : ¬record.NewToWindow := fun hnew => hnew info hsome hc
    rw [hprevious, eq_comm, List.head?_eq_none_iff]
    exact (or_iff_left fun hr => hnew hr.1).symm
  | joins info hsome hc hprevious =>
    have hi : s.identifierRateLimit.lookup record.idHash = some info := by
      rw [hsome] at hfound
      exact (Option.filter_eq_some_iff.mp hfound.symm).1
    have hwindow : record.window = info.windowStartedAt := by
      rw [AdmissionRecord.window, hsome]
      rfl
    have hnew : record.NewToWindow := by
      intro info' hi'
      rw [hsome] at hi'
      cases hi'
      exact hc
    -- The time told is that of the window's last reservation, whoever made it.
    have hlast : info.lastCandidateAt ∈ windowAttempts record.idHash record.window older :=
      hwindow ▸ hs.lastReserved record.idHash info hi
    have hle : ∀ t ∈ windowAttempts record.idHash record.window older, t ≤ info.lastCandidateAt :=
      fun t ht => hs.le_lastCandidateAt hchron hi (hwindow ▸ ht)
    have hsorted : (foreignAttempts record older).Pairwise (· ≥ ·) := foreignAttempts_sorted hchron
    have hsub : ∀ t ∈ foreignAttempts record older, t ≤ info.lastCandidateAt := fun t ht =>
      hle t (foreignAttempts_subset ht)
    have hne := hs.foreignAttempts_of_found hchron hi hsome hc
    generalize foreignAttempts record older = foreign at hsorted hsub hne ⊢
    cases foreign with
    | nil => exact absurd rfl hne
    | cons t₀ rest =>
      have hhead : ∀ t ∈ t₀ :: rest, t ≤ t₀ := by
        intro t ht
        obtain rfl | ht := List.mem_cons.mp ht
        · exact le_rfl
        · exact List.rel_of_pairwise_cons hsorted ht
      rw [hprevious, List.head?_cons, Option.some.injEq]
      constructor
      · intro heq
        exact Or.inr ⟨hnew, fun t ht => ⟨t₀, List.mem_cons_self, heq ▸ hle t ht⟩⟩
      · rintro (hnil | ⟨-, hall⟩)
        · cases hnil
        · obtain ⟨t, ht, hlt⟩ := hall _ hlast
          exact le_antisymm (hlt.trans (hhead t ht)) (hsub t₀ List.mem_cons_self)

/-- **A successful response tells of the last standing attempt by another candidate
exactly when there is none, or the candidate is new to the window and no attempt on
the window, given back or not, came later than one of those.** -/
theorem previous_attempt_iff [BucketNumber F] (P : Primitives) (cfg : Config) {log : Log}
    {s : AppState F} (h : Served P cfg log s) (hchron : Chronological log) {r : ReqId}
    {response : Response} (hm : .response (.fetch r) response ∈ log)
    (hstatus : response.status = .ok ∨ response.status = .accepted) :
    ∃ newer record older row status, log = newer ++ .admission r record :: older ∧
      response.body = .secret row status ∧ status.windowStartedAt = record.window ∧
      (status.previousAttemptAt = (foreignAttempts record older).head? ↔
        foreignAttempts record older = [] ∨ record.NewToWindow ∧
          ∀ t ∈ windowAttempts record.idHash record.window older,
            ∃ t' ∈ foreignAttempts record older, t ≤ t') := by
  obtain ⟨_, _, a, _, row, _, _, -, -, ⟨id, record, hrec, hadm⟩, rfl⟩ := h.of_released hm hstatus
  obtain ⟨newer, older, s₀, rfl, hserved, hfound⟩ := h.before_admission hrec
  obtain ⟨htold, hwindow⟩ := (h.admissionSpec hrec).told hadm
  have hbefore : Chronological ([.admission r record] ++ older) := hchron.of_append
  have hnow : ∀ t ∈ clocks older, t ≤ record.requestedAt := fun t ht =>
    hbefore.le List.mem_cons_self ht
  exact ⟨newer, record, older, row, a.status, rfl, rfl, hwindow,
    htold.previous_iff hserved hbefore.of_append hnow hfound⟩

/-! ## Two requests in someone else's window -/

/-- The sample configuration with three attempts. -/
def Config.sampleOfThree : Config :=
  { sample with
    rateLimitMaxAttempts := 3
    config_valid := by decide
    attempts_u8 := by decide }

/-- The row stored under the sample key. -/
def sampleRow : Secret := ⟨sampleSecretId, "1970-01-01T00:00:00+00:00", "AAAA"⟩

/-- A new candidate is told of the miss that opened its window. -/
theorem previous_attempt_iff_sample :
    ∃ (log : Log) (s : AppState ℚ) (status : AttemptStatus), Served .sample .sampleOfThree log s ∧
      .response (.fetch 1) { status := .ok, body := .secret sampleRow status } ∈ log ∧
      status.previousAttemptAt = some 0 ∧
      ∃ newer record older, log = newer ++ .admission 1 record :: older ∧
        (some 0 = (foreignAttempts record older).head? ↔
          foreignAttempts record older = [] ∨ record.NewToWindow ∧
            ∀ t ∈ windowAttempts record.idHash record.window older,
              ∃ t' ∈ foreignAttempts record older, t ≤ t') := by
  have hrun : (run .sample .sampleOfThree .sample
      (sampleStore 0 ⟨sampleIdentifier, sampleKey, "AAAA"⟩ ++
        sampleAdmission 0 true ⟨sampleIdentifier, otherKey⟩ 0 ++ sampleCompletion 0 ++
        sampleAdmission 1 false ⟨sampleIdentifier, sampleKey⟩ 1 ++ sampleCompletion 1)).any
      (fun u => decide (Chronological u.2 ∧
        .response (.fetch 1)
          { status := .ok
            body := .secret sampleRow ⟨1, 2, 1, 1, 2, 0, some 0, 60000000001⟩ } ∈ u.2)) = true := by
    simp (disch := decide +kernel) only [run_append, sampleStore, sampleAdmission, run_sampleStore,
      run_sampleKey, run_otherKey]
    decide +kernel
  obtain ⟨log, s, h, hlog⟩ := served_of_run hrun
  obtain ⟨hchron, hm⟩ := of_decide_eq_true hlog
  obtain ⟨newer, record, older, row, status, hsplit, hbody, -, hiff⟩ :=
    previous_attempt_iff .sample .sampleOfThree h hchron hm (Or.inl rfl)
  cases hbody
  exact ⟨log, s, _, h, hm, rfl, newer, record, older, hsplit, hiff⟩

/-- A replay after someone else's attempt is told of none. -/
theorem replay_told_of_none :
    ∃ (newer older : Log) (s : AppState ℚ) (record : AdmissionRecord) (status : AttemptStatus),
      Served .sample .sampleOfThree (newer ++ .admission 2 record :: older) s ∧
        Chronological (newer ++ .admission 2 record :: older) ∧
        .response (.fetch 2) { status := .ok, body := .secret sampleRow status } ∈ newer ∧
        status.windowStartedAt = record.window ∧
        status.previousAttemptAt = none ∧ foreignAttempts record older = [1] := by
  have hrun : (run .sample .sampleOfThree .sample
      (sampleStore 0 ⟨sampleIdentifier, sampleKey, "AAAA"⟩ ++
        sampleAdmission 0 false ⟨sampleIdentifier, sampleKey⟩ 0 ++ sampleCompletion 0 ++
        sampleAdmission 1 true ⟨sampleIdentifier, otherKey⟩ 1 ++ sampleCompletion 1 ++
        [.fetchArrives 2 false ⟨sampleIdentifier, sampleKey⟩, .fetch 2 (.takeToken 0),
          .fetch 2 (.readClock 2)])).any (fun u =>
      (step .sample .sampleOfThree u.1 (.fetch 2 .enter)).any fun v =>
        (run .sample .sampleOfThree v.1 (sampleCompletion 2)).any fun w =>
          decide (v.2 = [.admission 2 (admissionRecord .sampleOfThree u.1.identifierRateLimit
              sampleIdHash sampleSecretId 2)] ∧
            Chronological (w.2 ++ (v.2 ++ u.2)) ∧
            .response (.fetch 2)
              { status := .ok
                body := .secret sampleRow ⟨1, 2, 1, 1, 3, 0, none, 60000000001⟩ } ∈ w.2 ∧
            (admissionRecord .sampleOfThree u.1.identifierRateLimit sampleIdHash sampleSecretId
              2).window = 0 ∧
            foreignAttempts (admissionRecord .sampleOfThree u.1.identifierRateLimit sampleIdHash
              sampleSecretId 2) u.2 = [1])) = true := by
    simp (disch := decide +kernel) only [run_append, sampleStore, sampleAdmission, run_sampleStore,
      run_sampleKey, run_otherKey]
    decide +kernel
  obtain ⟨⟨s, older⟩, hr, h⟩ := (Option.any_eq_true _ _).mp hrun
  obtain ⟨⟨s₁, os⟩, hstep, h⟩ := (Option.any_eq_true _ _).mp h
  obtain ⟨⟨s₂, newer⟩, hr', h⟩ := (Option.any_eq_true _ _).mp h
  obtain ⟨hos, hchron, hm, hwindow, hforeign⟩ := of_decide_eq_true h
  have hserved : Served .sample .sampleOfThree older s := ⟨_, _, _, _, _, hr⟩
  have hall := (hserved.step hstep).reaches ⟨_, hr'⟩
  rw [show os = _ from hos] at hall hchron
  exact ⟨newer, older, s₂, _, _, hall, hchron, hm, hwindow.symm, rfl, hforeign⟩

end RecoverBull
