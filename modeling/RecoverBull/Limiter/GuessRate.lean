import RecoverBull.Limiter.Windows.Runs

/-!
# The guess rate

Within any stretch of one cooldown no more than `rateLimitMaxAttempts` distinct
candidates of an identifier are looked up with an answer, across however many
windows of the identifier the stretch touches.
-/

namespace RecoverBull

variable {F : Type} [BucketNumber F] {P : Primitives} {cfg : Config} {s : AppState F} {log : Log}

/-- Request `r` was newly admitted for candidate `c` of the identifier, not
before `since` and at most a cooldown after it. -/
def GuessedSince (cfg : Config) (log : Log) (id : String) (since : ℤ) (r : ReqId)
    (c : CandidateTag) : Prop :=
  ∃ generation t, Reserved log r ⟨id, c, generation⟩ t ∧ since ≤ t ∧
    t ≤ since + cfg.rateLimitCooldown

/-- Reservations no older than a cooldown are in the entry, unless given back. -/
theorem Served.mem_entry (h : Served P cfg log s) (hchron : Chronological log) {id : String}
    {now : ℤ} (hnow : ∀ t ∈ clocks log, t ≤ now) {r : ReqId} {record : AdmissionRecord}
    {slot : Slot} (hm : .admission r record ∈ log) (hslot : record.reservation = some slot)
    (hid : slot.idHash = id) (hrecent : now ≤ record.requestedAt + cfg.rateLimitCooldown)
    (href : ¬Refunded log r) :
    ∃ info, s.identifierRateLimit.lookup id = some info ∧ slot.candidate ∈ info.candidates := by
  have hinv := h.windowInv hchron id
  obtain ⟨⟨info, hi⟩, hw⟩ | ⟨⟨t, ht, hlt⟩, _⟩ := hinv.past r record slot hm hslot hid href
  · have hin : ReservedIn id (windowLog id log) r slot.candidate :=
      ⟨record, slot.generation, hw, by rw [hslot, ← hid]⟩
    exact ⟨info, hi, (hinv.window info hi).mem_of_not_refunded hin href⟩
  · have := hnow t ht
    omega

omit [BucketNumber F] in
/-- An admission is the newest use of a clock. -/
theorem Effect.clock_le {s' : AppState F} {os : Log} (he : Effect cfg s s' os)
    (hchron : Chronological (os ++ log)) {r : ReqId} {record : AdmissionRecord}
    (hm : .admission r record ∈ os) : ∀ t ∈ clocks (os ++ log), t ≤ record.requestedAt := by
  obtain ⟨q, t, extra, _, _, _, _, hos, hextra⟩ := he.of_admission hm
  have hclocks : clocks extra = [] := by
    refine List.filterMap_eq_nil_iff.mpr fun o ho => ?_
    have := hextra o ho
    cases o <;> first | rfl | cases this
  intro t' ht'
  rw [hos] at ht' hchron
  rw [List.append_assoc] at hchron
  rw [clocks_append, clocks_append, hclocks, List.nil_append, List.mem_append] at ht'
  obtain ht' | ht' := ht'
  · rw [List.mem_singleton.mp ht']
  · exact hchron.of_append.le List.mem_cons_self ht'

/-- The candidates reserved in a stretch and not given back fit the budget. -/
theorem Served.guesses_card_le (h : Served P cfg log s) (hchron : Chronological log)
    (id : String) (since : ℤ) {candidates : Finset CandidateTag}
    (hc : ∀ c ∈ candidates, ∃ r, GuessedSince cfg log id since r c ∧ ¬Refunded log r) :
    candidates.card ≤ cfg.rateLimitMaxAttempts := by
  have hall : Chronological log → ∀ candidates : Finset CandidateTag,
      (∀ c ∈ candidates, ∃ r, GuessedSince cfg log id since r c ∧ ¬Refunded log r) →
      candidates.card ≤ cfg.rateLimitMaxAttempts := by
    refine h.invariant (fun log _ => Chronological log → ∀ candidates : Finset CandidateTag,
      (∀ c ∈ candidates, ∃ r, GuessedSince cfg log id since r c ∧ ¬Refunded log r) →
      candidates.card ≤ cfg.rateLimitMaxAttempts) ?_ ?_
    · intro _ _ _ _ _ candidates hc
      have hempty : candidates = ∅ := by
        refine Finset.eq_empty_of_forall_notMem fun c hmem => ?_
        obtain ⟨r, ⟨_, _, ⟨_, hm, _⟩, _⟩, _⟩ := hc c hmem
        exact List.not_mem_nil hm
      rw [hempty, Finset.card_empty]
      exact Nat.zero_le _
    intro log s event s' os hs ih he hchron candidates hc
    have hs' : Served P cfg (os ++ log) s' := hs.step he
    -- Without a new admission in the stretch, the bound is the old one.
    by_cases hnew : ∃ r record, .admission r record ∈ os ∧ since ≤ record.requestedAt ∧
        record.requestedAt ≤ since + cfg.rateLimitCooldown
    · obtain ⟨r, record, hm, hlow, hhigh⟩ := hnew
      -- Everything in the stretch is then at most a cooldown older than this admission.
      have hnow := (step_effect he).clock_le hchron hm
      have hentry : ∀ c ∈ candidates, ∃ info, s'.identifierRateLimit.lookup id = some info ∧
          c ∈ info.candidates := by
        intro c hmem
        obtain ⟨r', ⟨g, t, ⟨record', hm', hslot, rfl⟩, hlow', _⟩, href⟩ := hc c hmem
        exact hs'.mem_entry hchron hnow hm' hslot rfl (by omega) href
      cases hi : s'.identifierRateLimit.lookup id with
      | none =>
        have hempty : candidates = ∅ := by
          refine Finset.eq_empty_of_forall_notMem fun c hmem => ?_
          obtain ⟨info, hi', _⟩ := hentry c hmem
          rw [hi] at hi'
          cases hi'
        rw [hempty, Finset.card_empty]
        exact Nat.zero_le _
      | some info =>
        have hsub : candidates ⊆ info.candidates.keys := by
          intro c hmem
          obtain ⟨info', hi', hin⟩ := hentry c hmem
          rw [hi] at hi'
          cases hi'
          exact Finmap.mem_keys.mpr hin
        exact le_trans (Finset.card_le_card hsub) (hs'.bounded.entry id info hi).2
    · refine ih hchron.of_append candidates fun c hmem => ?_
      obtain ⟨r, ⟨g, t, ⟨record, hm, hslot, rfl⟩, hlow, hhigh⟩, href⟩ := hc c hmem
      refine ⟨r, ⟨g, _, ⟨record, ?_, hslot, rfl⟩, hlow, hhigh⟩, mt (Refunded.mono os) href⟩
      refine (List.mem_append.mp hm).resolve_left fun ho => ?_
      exact hnew ⟨r, record, ho, hlow, hhigh⟩
  exact hall hchron candidates hc

/-- **The guess rate is bounded.** With non-decreasing clocks, whatever else
happens, the distinct candidates of an identifier that were newly admitted within
one cooldown and whose lookup was answered 200, 202 or 401 are at most
`rateLimitMaxAttempts`. -/
theorem guess_rate_bound (P : Primitives) (cfg : Config) {log : Log} {s : AppState F}
    (h : Served P cfg log s) (hchron : Chronological log) (id : String) (since : ℤ)
    (candidates : Finset CandidateTag)
    (hc : ∀ c ∈ candidates, ∃ r generation t, Reserved log r ⟨id, c, generation⟩ t ∧ since ≤ t ∧
      t ≤ since + cfg.rateLimitCooldown ∧ Answered log r) :
    candidates.card ≤ cfg.rateLimitMaxAttempts := by
  refine h.guesses_card_le hchron id since fun c hmem => ?_
  obtain ⟨r, g, t, hres, hlow, hhigh, response, hresp, hans⟩ := hc c hmem
  refine ⟨r, ⟨g, t, hres, hlow, hhigh⟩, fun href => ?_⟩
  refine (h.callTrace r).not_refunded ⟨response, response_mem_trace.mp hresp, hans⟩ ?_
  exact href.imp refunded_mem_trace.mp fun ⟨e, he⟩ => ⟨e, finalized_mem_trace.mp he⟩

/-- The sample budget of one is used up by an answered guess. -/
theorem guess_rate_bound_sample :
    ∃ (log : Log) (s : AppState ℚ), Served .sample .sample log s ∧ Answered log 0 ∧
      Reserved log 0 ⟨sampleIdHash, sampleSecretId, 0⟩ 0 ∧
      ({sampleSecretId} : Finset CandidateTag).card ≤ Config.sample.rateLimitMaxAttempts := by
  have hrun : (run .sample .sample .sample
      (sampleAdmission 0 false ⟨sampleIdentifier, sampleKey⟩ 0 ++ sampleCompletion 0 ++
        sampleAdmission 1 true ⟨sampleIdentifier, otherKey⟩ 1)).any
      (fun r => decide (Chronological r.2 ∧ Answered r.2 0 ∧
        Reserved r.2 0 ⟨sampleIdHash, sampleSecretId, 0⟩ 0)) = true := by
    simp only [run_append, sampleAdmission, run_sampleKey, run_otherKey]
    decide +kernel
  obtain ⟨log, s, h, hlog⟩ := served_of_run hrun
  obtain ⟨hchron, hans, hres⟩ := of_decide_eq_true hlog
  have hcd := Config.sample.cooldown_pos
  refine ⟨log, s, h, hans, hres, ?_⟩
  refine guess_rate_bound .sample .sample h hchron sampleIdHash 0 _ fun c hc => ?_
  rw [Finset.mem_singleton.mp hc]
  exact ⟨0, 0, 0, hres, le_rfl, by omega, hans⟩

end RecoverBull
