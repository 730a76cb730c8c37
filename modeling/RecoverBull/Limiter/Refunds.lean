import RecoverBull.Limiter.Ownership

/-!
# What a refund leaves behind

A refund takes the candidate out of its window again, but not the time at which
it came: the window lasts as long as if the candidate had been looked up.
-/

namespace RecoverBull

variable {F : Type} {P : Primitives} {cfg : Config} {s s' : AppState F} {log os : Log}
  {id : String} {r : ReqId}

/-- The request whose critical section on the map an observation comes from. -/
def Obs.sectionOf : Obs → Option ReqId
  | .admission r _ | .refunded r | .finalized r _ => some r
  | _ => none

/-- A run in which nothing but request `r` gets at the entry of the identifier: no
other request for it passes a critical section, and its window does not expire. -/
inductive Interlude [BucketNumber F] (P : Primitives) (cfg : Config) (id : String) (r : ReqId)
    (s : AppState F) : Log → AppState F → Prop
  | refl : Interlude P cfg id r s [] s
  | step {s' s'' : AppState F} {os os' : Log} {event : Event} (h : Interlude P cfg id r s os s')
      (hs : step P cfg s' event = some (s'', os'))
      (hothers : ∀ r', r' ≠ r → ∀ q, s'.fetches r' = some (.active q) → q.idHash = id →
        ∀ o ∈ os', o.sectionOf ≠ some r')
      (hlasts : s''.identifierRateLimit.lookup id = none →
        s'.identifierRateLimit.lookup id = none) : Interlude P cfg id r s (os' ++ os) s''

/-- The two entries agree in everything but the record of requests. -/
def RateLimitInfo.SameButRequests (info info' : RateLimitInfo) : Prop :=
  info'.candidates = info.candidates ∧ info'.failedCandidates = info.failedCandidates ∧
    info'.windowStartedAt = info.windowStartedAt ∧ info'.lastCandidateAt = info.lastCandidateAt

section interludes

variable [BucketNumber F]

theorem Interlude.served (h : Interlude P cfg id r s os s') (hs : Served P cfg log s) :
    Served P cfg (os ++ log) s' := by
  induction h with
  | refl => exact hs
  | step h hstep _ _ ih =>
    rw [List.append_assoc]
    exact ih.step hstep

/-- One step of an interlude leaves the entry as it is. -/
theorem EntryEffect.interlude {info : RateLimitInfo} {entry : Option RateLimitInfo}
    (he : EntryEffect cfg s os id (some info) entry) (h : Served P cfg log s)
    {record : AdmissionRecord} (hm : .admission r record ∈ log) (hres : ¬Resolved os r)
    (hothers : ∀ r', r' ≠ r → ∀ q, s.fetches r' = some (.active q) → q.idHash = id →
      ∀ o ∈ os, o.sectionOf ≠ some r') (hlasts : entry ≠ none) : entry = some info := by
  -- A critical section on the entry is one of `r` itself.
  have hself : ∀ {r' : ReqId} {q : Lookup} {o : Obs}, s.fetches r' = some (.active q) →
      q.idHash = id → o ∈ os → o.sectionOf = some r' → r' = r := by
    intro r' q o hq hid ho hsec
    by_contra hne
    exact hothers r' hne q hq hid o ho hsec
  generalize hold : some info = old at he
  cases he with
  | same => rfl
  | expire t =>
    subst hold
    obtain ⟨hf, _⟩ | ⟨hf, _⟩ := filter_withinCooldown cfg t info
    · exact hf
    · exact absurd hf hlasts
  | admission r' record' hm' hid hspec hfound q hq hqid hphase =>
    obtain rfl := hself hq hqid hm' rfl
    exact absurd hm ((h.fresh hq hphase).1 record)
  | refund r' q a hq ha hid hm' =>
    obtain rfl := hself hq hid hm' rfl
    exact absurd (Or.inl hm') hres
  | finalize r' q a result hq ha hid hos =>
    have hm' : .finalized r' result ∈ os := by
      rw [hos]
      exact List.mem_cons_self
    obtain rfl := hself hq hid hm' rfl
    exact absurd (Or.inr ⟨result, hm'⟩) hres

theorem Interlude.lookup_eq (h : Interlude P cfg id r s os s') (hs : Served P cfg log s)
    {record : AdmissionRecord} (hm : .admission r record ∈ log) (hres : ¬Resolved os r)
    {info : RateLimitInfo} (hi : s.identifierRateLimit.lookup id = some info) :
    s'.identifierRateLimit.lookup id = some info := by
  induction h with
  | refl => exact hi
  | @step s' s'' os os' event h hstep hothers hlasts ih =>
    have hi' := ih (mt (Resolved.mono os') hres)
    have hs' := h.served hs
    have he := (step_effect hstep).entry hs'.bounded id
    rw [hi'] at he
    refine he.interlude hs' (List.mem_append_right _ hm) (fun hr => hres ?_) hothers fun hn => ?_
    · exact hr.imp (List.mem_append_left _) fun ⟨result, hf⟩ => ⟨result, List.mem_append_left _ hf⟩
    · rw [hlasts hn] at hi'
      cases hi'

end interludes

/-- Taking the new candidate out again leaves the entry as it was, but for the
times and the count of requests. -/
theorem withoutCandidate_reserveEntry {c : CandidateTag} {info : RateLimitInfo}
    (hc : info.candidates.lookup c = none) (hne : info.candidates ≠ ∅) (t : ℤ) :
    withoutCandidate c (reserveEntry c t info) =
      some { touchEntry t info with lastCandidateAt := t } := by
  have herase : (reserveEntry c t info).candidates.erase c = info.candidates :=
    Finmap.erase_insert_of_notMem (Finmap.lookup_eq_none.mp hc) _
  rw [withoutCandidate, herase, if_neg hne]
  rfl

/-- The entry a request that reserves a candidate in an existing window leaves. -/
theorem AdmissionRecord.Spec.reserved {record : AdmissionRecord} (h : record.Spec cfg)
    {info : RateLimitInfo} (hfound : record.found = some info) {slot : Slot}
    (hslot : record.reservation = some slot) :
    record.left = some (reserveEntry record.candidate record.requestedAt info) ∧
      info.candidates.lookup record.candidate = none ∧
      slot = ⟨record.idHash, record.candidate, info.windowStartedAt⟩ := by
  cases h with
  | refused hnone => rw [hnone] at hfound; cases hfound
  | entered left hleft hentry =>
    rw [hfound, Option.getD_some] at hentry
    obtain ⟨hnone, _⟩ | ⟨hres, hfree, rfl⟩ := hentry.reservation
    · rw [hnone] at hslot
      cases hslot
    · rw [hres] at hslot
      exact ⟨hleft, hfree, (Option.some.inj hslot).symm⟩

/-- The step that refunds a reservation takes its candidate out of the entry. -/
theorem Resolves.lookup_of_refunded {slot : Slot} (h : Resolves cfg s s' os r slot)
    (href : Refunded os r) {info : RateLimitInfo}
    (hi : s.identifierRateLimit.lookup slot.idHash = some info)
    (hg : info.windowStartedAt = slot.generation)
    (hc : info.candidates.lookup slot.candidate = some .pending) :
    s'.identifierRateLimit.lookup slot.idHash = withoutCandidate slot.candidate info := by
  cases h with
  | refund hos hmap =>
    rw [hmap, lookup_removePending, if_pos rfl, hi, Option.bind_some, ← hg, refundEntry_pending hc]
  | finalize result hos hmap =>
    obtain ⟨e, rfl⟩ : ∃ e, result = .failed e := by
      rw [hos] at href
      obtain hm | ⟨e, hm⟩ := href
      · simp at hm
      · simp only [List.mem_singleton, Obs.finalized.injEq] at hm
        exact ⟨e, hm.2.symm⟩
    rw [hmap, lookup_finalize, if_pos rfl, hi, Option.bind_some, ← hg, finalizeEntry_failed hc]

/-- A request enters at time `t`, finds the unexpired entry `info` and reserves a
candidate in it, and is refunded with nothing else happening to that window. -/
structure RefundRun [BucketNumber F] (P : Primitives) (cfg : Config) (log : Log) (s : AppState F)
    (r : ReqId) (q : Lookup) (t : ℤ) (info : RateLimitInfo) (s' : AppState F) : Prop where
  served : Served P cfg log s
  waiting : s.fetches r = some (.active q)
  phase : q.phase = .mapLock t
  found : (s.identifierRateLimit.lookup q.idHash).filter (withinCooldown cfg t) = some info
  run : ∃ s₁ os₁ slot s₂ os₂ event os₃, step P cfg s (.fetch r .enter) = some (s₁, os₁) ∧
    Reserved os₁ r slot t ∧ Interlude P cfg q.idHash r s₁ os₂ s₂ ∧
    step P cfg s₂ event = some (s', os₃) ∧ Refunded os₃ r

/-- What a refund leaves of a reservation in an existing window: everything but
the time of its candidate is as before. -/
theorem RefundRun.lookup_eq [BucketNumber F] {q : Lookup} {t : ℤ} {info : RateLimitInfo}
    (h : RefundRun P cfg log s r q t info s') :
    s'.identifierRateLimit.lookup q.idHash =
      some { touchEntry t info with lastCandidateAt := t } := by
  have hb := h.served.bounded
  obtain ⟨s₁, os₁, slot, s₂, os₂, event, os₃, hadmit, ⟨record, hm, hslot, ht⟩, hinter, hrefund,
    href⟩ := h.run
  obtain ⟨q', t', _, hq', hphase', hrec, hmap, _⟩ := (step_effect hadmit).of_admission hm
  rw [h.waiting] at hq'
  cases hq'
  rw [h.phase] at hphase'
  cases hphase'
  have hid : record.idHash = q.idHash := by rw [hrec]; rfl
  have hcand : record.candidate = q.candidate := by rw [hrec]; rfl
  have hspec : record.Spec cfg := hrec ▸ hb.admissionSpec q.idHash q.candidate t
  have hrfound : record.found = some info := by rw [hrec, admissionRecord_found, h.found]
  obtain ⟨hleft, hfree, hslot'⟩ := hspec.reserved hrfound hslot
  rw [hcand] at hleft hfree
  rw [ht] at hleft
  subst hslot'
  have hi₁ : s₁.identifierRateLimit.lookup q.idHash = some (reserveEntry q.candidate t info) := by
    rw [hmap, ← hleft, hrec]
    rfl
  have hs₁ : Served P cfg (os₁ ++ log) s₁ := h.served.step hadmit
  have hs₂ := hinter.served hs₁
  have hm₁ : .admission r record ∈ os₁ ++ log := List.mem_append_left _ hm
  obtain ⟨slot', ho, hres⟩ := (step_effect hrefund).resolves href.resolved
  obtain ⟨record', hm', hslot', _, hunresolved⟩ := hs₂.of_owns ho
  rw [hs₂.admission_unique hm' (List.mem_append_right _ hm₁), hslot] at hslot'
  cases hslot'
  -- Until then the reservation was neither resolved nor touched.
  have hi₂ := hinter.lookup_eq hs₁ hm₁ (fun hr => hunresolved ?_) hi₁
  · have hne : info.candidates ≠ ∅ := hb.ne_empty (Option.filter_eq_some_iff.mp h.found).1
    rw [← hid] at hi₂ ⊢
    rw [hres.lookup_of_refunded href hi₂ rfl]
    · rw [hcand]
      exact withoutCandidate_reserveEntry hfree hne t
    · rw [hcand]
      exact Finmap.lookup_insert _
  · exact hr.imp (List.mem_append_left _) fun ⟨result, hf⟩ => ⟨result, List.mem_append_left _ hf⟩

/-- **A refund restores the entry exactly when the clock had not moved since the
last candidate.** -/
theorem refund_restores_iff [BucketNumber F] (P : Primitives) (cfg : Config) {log : Log}
    {s s' : AppState F} {r : ReqId} {q : Lookup} {t : ℤ} {info : RateLimitInfo}
    (h : RefundRun P cfg log s r q t info s') :
    (∃ info', s'.identifierRateLimit.lookup q.idHash = some info' ∧ info.SameButRequests info') ↔
      t = info.lastCandidateAt := by
  rw [h.lookup_eq]
  constructor
  · rintro ⟨info', hi', -, -, -, hlast⟩
    cases hi'
    exact hlast
  · intro ht
    exact ⟨_, rfl, rfl, rfl, rfl, ht⟩

/-! ## A refunded request -/

/-- A committed candidate at time 0, then a second request that read `t`. -/
def secondRequest (t : ℤ) : List Event :=
  sampleAdmission 0 false ⟨sampleIdentifier, sampleKey⟩ 0 ++ sampleCompletion 0 ++
    [.fetchArrives 1 true ⟨sampleIdentifier, otherKey⟩, .fetch 1 (.takeToken 0),
      .fetch 1 (.readClock t)]

def secondLookup (t : ℤ) : Lookup := ⟨true, sampleIdHash, otherSecretId, .mapLock t⟩

/-- The second request enters, gets no database permit and is refunded. -/
def refundsSecond (t : ℤ) : Bool :=
  (run .sample .sampleOfTwo .sample (secondRequest t)).any fun (s, _) =>
    (step .sample .sampleOfTwo s (.fetch 1 .enter)).any fun (s₁, os₁) =>
      (step .sample .sampleOfTwo s₁ (.fetch 1 (.permit false))).any fun (s₂, os₂) =>
        (step .sample .sampleOfTwo s₂ (.fetch 1 .removePending)).any fun (_, os₃) =>
          decide (s.fetches 1 = some (.active (secondLookup t)) ∧
            Reserved os₁ 1 ⟨sampleIdHash, otherSecretId, 0⟩ t ∧ os₂ = [] ∧ .refunded 1 ∈ os₃) &&
          ((s.identifierRateLimit.lookup sampleIdHash).filter
            (withinCooldown .sampleOfTwo t)).any (fun info => info.lastCandidateAt == 0) &&
          (s₂.identifierRateLimit.lookup sampleIdHash).isSome

theorem refundsSecond_zero : refundsSecond 0 = true := by
  simp only [refundsSecond, secondRequest, run_append, sampleAdmission, run_sampleKey, run_otherKey]
  decide +kernel

theorem refundsSecond_late : refundsSecond 30000000000 = true := by
  simp only [refundsSecond, secondRequest, run_append, sampleAdmission, run_sampleKey, run_otherKey]
  decide +kernel

theorem exists_refundRun {t : ℤ} (h : refundsSecond t = true) :
    ∃ (log : Log) (s : AppState ℚ) (info : RateLimitInfo) (s' : AppState ℚ),
      RefundRun .sample .sampleOfTwo log s 1 (secondLookup t) t info s' ∧
        info.lastCandidateAt = 0 := by
  obtain ⟨⟨s, log⟩, hr, h⟩ := (Option.any_eq_true _ _).mp h
  obtain ⟨⟨s₁, os₁⟩, hs₁, h⟩ := (Option.any_eq_true _ _).mp h
  obtain ⟨⟨s₂, os₂⟩, hs₂, h⟩ := (Option.any_eq_true _ _).mp h
  obtain ⟨⟨s₃, os₃⟩, hs₃, h⟩ := (Option.any_eq_true _ _).mp h
  simp only [Bool.and_eq_true, decide_eq_true_eq] at h
  obtain ⟨⟨⟨hq, hres, rfl, href⟩, hinfo⟩, hsome⟩ := h
  obtain ⟨info, hfound, hlast⟩ := (Option.any_eq_true _ _).mp hinfo
  have hinter : Interlude .sample .sampleOfTwo sampleIdHash 1 s₁ ([] ++ []) s₂ := by
    refine .step .refl hs₂ (fun _ _ _ _ _ o ho => absurd ho List.not_mem_nil) fun hn => ?_
    rw [hn] at hsome
    cases hsome
  exact ⟨log, s, info, s₃, ⟨⟨_, _, _, _, _, hr⟩, hq, rfl, hfound, s₁, os₁, _, s₂, _, _, os₃, hs₁, hres,
    hinter, hs₃, Or.inl href⟩, beq_iff_eq.mp hlast⟩

/-- With a clock that stands still nothing is left of the second request. -/
theorem refund_restores_iff_sample :
    ∃ (log : Log) (s : AppState ℚ) (info : RateLimitInfo) (s' : AppState ℚ),
      RefundRun .sample .sampleOfTwo log s 1 (secondLookup 0) 0 info s' ∧
        ∃ info', s'.identifierRateLimit.lookup sampleIdHash = some info' ∧
          info.SameButRequests info' := by
  obtain ⟨log, s, info, s', h, hlast⟩ := exists_refundRun refundsSecond_zero
  exact ⟨log, s, info, s', h, (refund_restores_iff .sample .sampleOfTwo h).mpr hlast.symm⟩

/-- A second request half a cooldown later, refunded, moves the deadline of the
window by half a cooldown. -/
theorem refund_moves_deadline :
    ∃ (log : Log) (s : AppState ℚ) (info : RateLimitInfo) (s' : AppState ℚ),
      RefundRun .sample .sampleOfTwo log s 1 (secondLookup 30000000000) 30000000000 info s' ∧
        ¬∃ info', s'.identifierRateLimit.lookup sampleIdHash = some info' ∧
          info.SameButRequests info' := by
  obtain ⟨log, s, info, s', h, hlast⟩ := exists_refundRun refundsSecond_late
  refine ⟨log, s, info, s', h, ?_⟩
  rintro ⟨info', hi', -, -, -, hsame⟩
  have hi := h.lookup_eq
  rw [show (secondLookup 30000000000).idHash = sampleIdHash from rfl, hi'] at hi
  cases hi
  rw [hlast] at hsame
  cases hsame

end RecoverBull
