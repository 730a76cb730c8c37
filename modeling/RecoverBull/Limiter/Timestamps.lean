import RecoverBull.Limiter.Entries
import RecoverBull.Server.Polls

/-!
# The order of an entry's timestamps

A request reads its clock before it waits for the map lock, and the timestamps of
an entry are overwritten with that reading. They are ordered and never move back
as long as the requests enter in the order of their readings; two requests that
enter the other way round take them back.
-/

namespace RecoverBull

variable {F : Type} {P : Primitives} {cfg : Config} {s s' : AppState F} {log os : Log}

/-- Every request that found an entry entered no earlier than the last one that
reached it, by their readings. -/
def InOrder (log : Log) : Prop :=
  ∀ r record info, .admission r record ∈ log → record.found = some info →
    info.lastRequestAt ≤ record.requestedAt

/-- The observation is no late entrance. -/
def Obs.inOrder : Obs → Bool
  | .admission _ record => record.found.all fun info => info.lastRequestAt ≤ record.requestedAt
  | _ => true

theorem inOrder_iff : InOrder log ↔ ∀ o ∈ log, o.inOrder = true := by
  constructor
  · intro h o ho
    cases o with
    | admission r record =>
      simp only [Obs.inOrder]
      cases hf : record.found with
      | none => rfl
      | some info => exact decide_eq_true (h r record info ho hf)
    | _ => rfl
  · intro h r record info hm hf
    have ho := h _ hm
    simp only [Obs.inOrder, hf] at ho
    exact of_decide_eq_true ho

instance (log : Log) : Decidable (InOrder log) := decidable_of_iff _ inOrder_iff.symm

/-- The timestamps of an entry are ordered. -/
def RateLimitInfo.Ordered (info : RateLimitInfo) : Prop :=
  info.windowStartedAt ≤ info.lastCandidateAt ∧ info.lastCandidateAt ≤ info.lastRequestAt

/-- Neither timestamp of the window moves back from `info` to `info'`. -/
def RateLimitInfo.Advances (info info' : RateLimitInfo) : Prop :=
  info.lastCandidateAt ≤ info'.lastCandidateAt ∧ info.lastRequestAt ≤ info'.lastRequestAt

theorem RateLimitInfo.Advances.refl (info : RateLimitInfo) : info.Advances info :=
  ⟨le_rfl, le_rfl⟩

theorem InOrder.of_append (h : InOrder (os ++ log)) : InOrder os ∧ InOrder log :=
  ⟨fun r record info hm => h r record info (List.mem_append_left _ hm),
    fun r record info hm => h r record info (List.mem_append_right _ hm)⟩

/-- A passage that changes an entry stamps it with the reading of the request. -/
theorem EntryAdmission.stamps {info left : RateLimitInfo} {c : CandidateTag} {t : ℤ} {out : Outcome}
    (h : EntryAdmission cfg info c t left out) : left.lastRequestAt = t ∧
      left.windowStartedAt = info.windowStartedAt ∧
      (left.lastCandidateAt = info.lastCandidateAt ∧ info.candidates ≠ ∅ ∨
        left.lastCandidateAt = t) := by
  have hpos := cfg.maxAttempts_pos
  cases h with
  | lockedOut hmax hleft =>
    subst hleft
    exact ⟨rfl, rfl, Or.inl ⟨rfl, Finmap.ne_empty_of_len_pos (by omega)⟩⟩
  | pending _ hc hleft | replay _ hc hleft =>
    subst hleft
    refine ⟨rfl, rfl, Or.inl ⟨rfl, fun he => ?_⟩⟩
    rw [he, Finmap.lookup_empty] at hc
    cases hc
  | new _ _ hleft =>
    subst hleft
    exact ⟨rfl, rfl, Or.inr rfl⟩

/-- What a step that keeps the order does to an entry: it is ordered, and if it is
the window that was there its timestamps advance. -/
theorem EntryEffect.ordered {id : String} {entry : Option RateLimitInfo} {info' : RateLimitInfo}
    (he : EntryEffect cfg s os id entry (some info')) (ho : InOrder os)
    (hordered : ∀ info, entry = some info → info.Ordered) :
    info'.Ordered ∧ ∀ info, entry = some info → info'.windowStartedAt = info.windowStartedAt →
      info.Advances info' := by
  have hcd := cfg.cooldown_pos
  have hkeep : entry = some info' → info'.Ordered ∧ ∀ info, entry = some info →
      info'.windowStartedAt = info.windowStartedAt → info.Advances info' := by
    intro hi
    refine ⟨hordered info' hi, fun info hi' _ => ?_⟩
    rw [hi] at hi'
    cases hi'
    exact .refl _
  generalize hleft : some info' = left at he
  cases he with
  | same => exact hkeep hleft.symm
  | expire t => exact hkeep (Option.filter_eq_some_iff.mp hleft.symm).1
  | refund r q a =>
    obtain ⟨info, hi, hr⟩ := Option.bind_eq_some_iff.mp hleft.symm
    obtain ⟨candidates, rfl⟩ := refundEntry_fields hr
    refine ⟨hordered info hi, fun info₁ hi₁ _ => ?_⟩
    rw [hi] at hi₁
    cases hi₁
    exact .refl _
  | finalize r q a result =>
    obtain ⟨info, hi, hr⟩ := Option.bind_eq_some_iff.mp hleft.symm
    obtain ⟨candidates, failed, rfl⟩ := finalizeEntry_fields hr
    refine ⟨hordered info hi, fun info₁ hi₁ _ => ?_⟩
    rw [hi] at hi₁
    cases hi₁
    exact .refl _
  | admission r record hm hid hspec hfound =>
    cases hspec with
    | refused _ hnone =>
      rw [hnone] at hleft
      cases hleft
    | entered left hl hentry =>
      rw [hl] at hleft
      cases hleft
      cases hf : record.found with
      | none =>
        -- A fresh window, at the reading of the request.
        rw [hf, Option.getD_none] at hentry
        obtain ⟨hreq, hstart, hcand⟩ := hentry.stamps
        have hstart' : info'.windowStartedAt = record.requestedAt := hstart
        have hcand' : info'.lastCandidateAt = record.requestedAt :=
          hcand.resolve_left fun h => h.2 rfl
        refine ⟨⟨by omega, by omega⟩, fun info hi hsame => ?_⟩
        obtain ⟨hfilter, _⟩ | ⟨_, hover⟩ := filter_withinCooldown cfg record.requestedAt info
        · rw [hf, hi, hfilter] at hfound
          cases hfound
        · have := (hordered info hi).1
          omega
      | some old =>
        rw [hf, Option.getD_some] at hentry
        obtain ⟨hreq, hstart, hcand⟩ := hentry.stamps
        rw [hf] at hfound
        have hi := (Option.filter_eq_some_iff.mp hfound.symm).1
        have hlast := ho r record old hm hf
        obtain ⟨hold₁, hold₂⟩ := hordered old hi
        refine ⟨⟨by omega, by omega⟩, fun info hi' _ => ?_⟩
        rw [hi] at hi'
        cases hi'
        exact ⟨by omega, by omega⟩

/-! ## Published snapshots -/

/-- The entry a snapshot publishes for an ordered entry is ordered. -/
theorem attemptEntry_ordered {id : String} {info : RateLimitInfo} {e : AttemptEntry}
    (h : attemptEntry id info = some e) (ho : info.Ordered) : e.windowStartedAt ≤ e.lastAttemptAt := by
  obtain ⟨_, _, rfl⟩ := Option.map_eq_some_iff.mp h
  exact truncateToHour_mono (le_trans ho.1 ho.2)

section snapshots

variable [BucketNumber F] {event : Event}

/-- A payload under compression was there before or is collected from the map. -/
theorem step_compressing (h : step P cfg s event = some (s', os)) {r : ReqId} {tag : Option String}
    {payload : AttemptsSnapshot} (hp : s'.polls r = some (.active (.compressing tag payload))) :
    s.polls r = some (.active (.compressing tag payload)) ∨ ∃ order entries,
      collectEntries order s'.identifierRateLimit = some entries ∧
        payload = snapshotPayload cfg entries := by
  -- A step of a poll that does not start a compression.
  have hother : ∀ (r' : ReqId) (call : AttemptsCall), s'.polls = Function.update s.polls r' (some call) →
      call ≠ .active (.compressing tag payload) →
      s.polls r = some (.active (.compressing tag payload)) := by
    intro r' call he hne
    rw [he] at hp
    by_cases hr : r = r'
    · subst hr
      rw [Function.update_self] at hp
      exact absurd (Option.some.inj hp) hne
    · rwa [Function.update_of_ne hr] at hp
  cases step_pollEffect h with
  | elsewhere hsame =>
    rw [hsame.polls] at hp
    exact Or.inl hp
  | waits r' call _ hafter hpolls =>
    refine Or.inl (hother r' call hpolls ?_)
    rintro rfl
    cases (hafter _ rfl).1
  | scans r' tag' now order entries _ _ hentries hpolls =>
    rw [hpolls] at hp
    by_cases hr : r = r'
    · subst hr
      rw [Function.update_self] at hp
      cases hp
      exact Or.inr ⟨order, entries, hentries, rfl⟩
    · rw [Function.update_of_ne hr] at hp
      exact Or.inl hp
  | leaves r' phase call _ _ _ hafter hpolls =>
    refine Or.inl (hother r' call hpolls ?_)
    rintro rfl
    obtain ⟨_, _, _, horphan⟩ := hafter _ rfl
    cases horphan
  | starts r' _ _ _ _ _ _ _ _ hpolls => exact Or.inl (hother r' _ hpolls (by simp))
  | compresses r' _ _ _ _ _ _ hpolls => exact Or.inl (hother r' _ hpolls (by simp))
  | panics r' _ _ _ _ _ _ hpolls => exact Or.inl (hother r' .over hpolls AttemptsCall.noConfusion)
  | publishes r' _ _ _ hpolls => exact Or.inl (hother r' .over hpolls AttemptsCall.noConfusion)
  | ends r' _ _ hpolls => exact Or.inl (hother r' .over hpolls AttemptsCall.noConfusion)

end snapshots

/-! ## Every run -/

/-- The entries of the map and of every snapshot about to be published are
ordered. -/
structure Timely (s : AppState F) : Prop where
  entry : ∀ id info, s.identifierRateLimit.lookup id = some info → info.Ordered
  published : ∀ r tag payload, s.polls r = some (.active (.compressing tag payload)) →
    ∀ e ∈ payload.entries, e.windowStartedAt ≤ e.lastAttemptAt

/-- Along the step no timestamp of a window moves back. -/
def TimestampsKept (s : AppState F) (_ : Log) (s' : AppState F) : Prop :=
  Timely s' ∧ ∀ id info info', s.identifierRateLimit.lookup id = some info →
    s'.identifierRateLimit.lookup id = some info' →
    info'.windowStartedAt = info.windowStartedAt → info.Advances info'

theorem timely_init (secrets : SecretTable) (b₁ b₂ b₃ : TokenBucket F) :
    Timely (.init secrets b₁ b₂ b₃) where
  entry id info h := by cases h
  published r tag payload h := by cases h

section runs

variable [BucketNumber F] {event : Event}

theorem timestampsKept_of_inOrder (hb : Bounded cfg s.identifierRateLimit) (ht : Timely s)
    (h : step P cfg s event = some (s', os)) (ho : InOrder os) : TimestampsKept s os s' := by
  have hentry : ∀ id info', s'.identifierRateLimit.lookup id = some info' →
      info'.Ordered ∧ ∀ info, s.identifierRateLimit.lookup id = some info →
        info'.windowStartedAt = info.windowStartedAt → info.Advances info' := by
    intro id info' hi'
    have he := (step_effect h).entry hb id
    rw [hi'] at he
    exact he.ordered ho (ht.entry id)
  refine ⟨⟨fun id info' hi' => (hentry id info' hi').1, fun r tag payload hp e he => ?_⟩,
    fun id info info' hi hi' => (hentry id info' hi').2 info hi⟩
  obtain hp | ⟨order, entries, hc, rfl⟩ := step_compressing h hp
  · exact ht.published r tag payload hp e he
  · obtain ⟨id, info, hi, hae⟩ := of_mem_collectEntries hc (List.mem_mergeSort.mp he)
    exact attemptEntry_ordered hae (hentry id info hi).1

/-- A request that enters late takes the time of the last request back. -/
theorem inOrder_of_timestampsKept (hb : Bounded cfg s.identifierRateLimit)
    (h : step P cfg s event = some (s', os)) (hk : TimestampsKept s os s') : InOrder os := by
  intro r record info hm hfound
  obtain ⟨q, t, _, _, _, rfl, hmap, _⟩ := (step_effect h).of_admission hm
  have hi : s.identifierRateLimit.lookup q.idHash = some info := by
    rw [admissionRecord_found] at hfound
    exact (Option.filter_eq_some_iff.mp hfound).1
  cases hb.admissionSpec q.idHash q.candidate t with
  | refused hnone => rw [hnone] at hfound; cases hfound
  | entered left hleft hentry =>
    rw [hfound, Option.getD_some] at hentry
    obtain ⟨hreq, hstart, _⟩ := hentry.stamps
    have hi' : s'.identifierRateLimit.lookup q.idHash = some left := by
      rw [hmap]
      exact hleft
    have hadv := (hk.2 q.idHash info left hi hi' hstart).2
    rwa [hreq] at hadv

/-- **The timestamps of a window stay in order exactly when requests enter in the
order of their readings**: along a run from the start of a server. -/
theorem timestamps_ordered_iff (P : Primitives) (cfg : Config) {secrets : SecretTable}
    {b₁ b₂ b₃ : TokenBucket F} {events : List Event} {s : AppState F} {log : Log}
    (h : run P cfg (.init secrets b₁ b₂ b₃) events = some (s, log)) :
    Machine.Along (step P cfg) TimestampsKept (.init secrets b₁ b₂ b₃) events ↔ InOrder log := by
  have hnil : InOrder [] := fun r record info hm => absurd hm List.not_mem_nil
  have happend : ∀ os log, InOrder (os ++ log) ↔ InOrder os ∧ InOrder log := by
    refine fun os log => ⟨InOrder.of_append, ?_⟩
    rintro ⟨ho, hl⟩ r record info hm
    exact (List.mem_append.mp hm).elim (ho r record info) (hl r record info)
  have hiff : ∀ (s : AppState F) event s' os, Bounded cfg s.identifierRateLimit ∧ Timely s →
      step P cfg s event = some (s', os) → (TimestampsKept s os s' ↔ InOrder os) :=
    fun s event s' os hi he =>
      ⟨inOrder_of_timestampsKept hi.1 he, timestampsKept_of_inOrder hi.1 hi.2 he⟩
  have hinv : ∀ (s : AppState F) event s' os, Bounded cfg s.identifierRateLimit ∧ Timely s →
      step P cfg s event = some (s', os) → InOrder os →
      Bounded cfg s'.identifierRateLimit ∧ Timely s' :=
    fun s event s' os hi he ho =>
      ⟨(step_effect he).bounded hi.1, (timestampsKept_of_inOrder hi.1 hi.2 he ho).1⟩
  exact Machine.along_iff hnil happend hiff hinv
    ⟨bounded_empty cfg, timely_init secrets b₁ b₂ b₃⟩ h

/-- Two requests that enter in the order of their readings. -/
theorem timestamps_ordered_iff_sample :
    ∃ (log : Log) (s : AppState ℚ), log.any (fun | .admission 1 _ => true | _ => false) = true ∧
      run .sample .sampleOfTwo .sample
        (sampleAdmission 0 false ⟨sampleIdentifier, sampleKey⟩ 0 ++
          sampleAdmission 1 false ⟨sampleIdentifier, otherKey⟩ 1) = some (s, log) ∧
      Machine.Along (step .sample .sampleOfTwo) TimestampsKept AppState.sample
        (sampleAdmission 0 false ⟨sampleIdentifier, sampleKey⟩ 0 ++
          sampleAdmission 1 false ⟨sampleIdentifier, otherKey⟩ 1) := by
  have hrun : (run .sample .sampleOfTwo .sample
      (sampleAdmission 0 false ⟨sampleIdentifier, sampleKey⟩ 0 ++
        sampleAdmission 1 false ⟨sampleIdentifier, otherKey⟩ 1)).any (fun r =>
      r.2.any (fun | .admission 1 _ => true | _ => false) && decide (InOrder r.2)) = true := by
    simp only [run_append, sampleAdmission, run_sampleKey, run_otherKey]
    decide +kernel
  obtain ⟨⟨s, log⟩, hr, hlog⟩ := (Option.any_eq_true _ _).mp hrun
  obtain ⟨hsecond, ho⟩ := Bool.and_eq_true_iff.mp hlog
  exact ⟨log, s, hsecond, hr,
    (timestamps_ordered_iff .sample .sampleOfTwo hr).mpr (of_decide_eq_true ho)⟩

/-- Two requests read the clock one after the other, across the turn of an hour,
and enter the other way round. -/
def lateEntrance : List Event :=
  [.fetchArrives 0 false ⟨sampleIdentifier, sampleKey⟩, .fetch 0 (.takeToken 0),
    .fetchArrives 1 false ⟨sampleIdentifier, otherKey⟩, .fetch 1 (.takeToken 0),
    .fetch 0 (.readClock (nanosPerHour - 1)), .fetch 1 (.readClock nanosPerHour),
    .fetch 1 .enter, .fetch 0 .enter]

/-- The wall-clock reading of an event. -/
def Event.clock : Event → Option ℤ
  | .fetch _ (.readClock now) | .store _ (.readClock now) | .sweep now
  | .attempts _ (.lockSnapshot _ now _) => some now
  | _ => none

/-- A window that starts after its last candidate, although the clock never went
back. -/
theorem timestamps_out_of_order :
    (lateEntrance.filterMap Event.clock).Pairwise (· ≤ ·) ∧
    ∃ (log : Log) (s : AppState ℚ) (info : RateLimitInfo),
      run .sample .sampleOfTwo .sample lateEntrance = some (s, log) ∧
      s.identifierRateLimit.lookup sampleIdHash = some info ∧
      info.lastCandidateAt < info.windowStartedAt ∧ info.lastRequestAt < info.windowStartedAt ∧
      truncateToHour info.lastRequestAt < truncateToHour info.windowStartedAt ∧
      ¬Machine.Along (step .sample .sampleOfTwo) TimestampsKept AppState.sample lateEntrance := by
  refine ⟨by decide, ?_⟩
  have hrun : (run .sample .sampleOfTwo .sample lateEntrance).any (fun r =>
      (r.1.identifierRateLimit.lookup sampleIdHash).any fun info =>
        decide (info.lastCandidateAt < info.windowStartedAt ∧
          info.lastRequestAt < info.windowStartedAt ∧
          truncateToHour info.lastRequestAt < truncateToHour info.windowStartedAt)) = true := by
    rw [← List.take_append_drop 2 lateEntrance, run_append]
    simp only [lateEntrance, List.take, List.drop, run_sampleKey, run_otherKey]
    decide +kernel
  obtain ⟨⟨s, log⟩, hr, hany⟩ := (Option.any_eq_true _ _).mp hrun
  obtain ⟨info, hi, hlate⟩ := (Option.any_eq_true _ _).mp hany
  obtain ⟨h₁, h₂, h₃⟩ := of_decide_eq_true hlate
  refine ⟨log, s, info, hr, hi, h₁, h₂, h₃, fun hall => ?_⟩
  obtain ⟨_, _, hkept⟩ := hall.last hr (List.cons_ne_nil _ _)
  have := (hkept.1.entry sampleIdHash info hi).1
  omega

end runs

end RecoverBull
