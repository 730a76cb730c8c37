import RecoverBull.Limiter.Windows.Runs
import Mathlib.Combinatorics.Enumerative.DoubleCounting

/-!
# Exact counters

What an entry shows is exact with respect to the history of its window: the
candidates, which of them are committed, how many lookups missed and how many
requests came.
-/

namespace RecoverBull

variable {F : Type} [BucketNumber F] {P : Primitives} {cfg : Config} {s s' : AppState F}
  {log os : Log}

/-- The number of committed candidates. -/
def RateLimitInfo.committedCount (info : RateLimitInfo) : ℕ :=
  (info.candidates.retain fun _ state => state == .committed).len

/-- A finalized lookup was asked for the candidate its request reserved, and has
one result. -/
theorem Served.finalized_spec (h : Served P cfg log s) {r : ReqId} {result : LookupResult}
    (hf : .finalized r result ∈ log) :
    (∃ record slot trash outcome, .admission r record ∈ log ∧ record.reservation = some slot ∧
      .queried r trash slot.candidate outcome result ∈ log) ∧
      (∀ result', .finalized r result' ∈ log → result' = result) ∧ .refunded r ∉ log := by
  obtain ⟨head, trash, outcome, record, id, c, a, hw, hadm, hnew, hhead⟩ :=
    (h.callTrace r).finalized_cases (finalized_mem_trace.mp hf)
  refine ⟨⟨record, ⟨id, c, a.generation⟩, trash, outcome, ?_, ?_, ?_⟩, fun result' hf' => ?_,
    fun hr => ?_⟩
  · rw [admission_mem_trace, hw]
    simp
  · rw [hadm.reservation, hnew]
    rfl
  · rw [queried_mem_trace, hw]
    simp
  · rw [finalized_mem_trace, hw] at hf'
    obtain rfl | rfl := hhead <;> simpa using hf'
  · rw [refunded_mem_trace, hw] at hr
    obtain rfl | rfl := hhead <;> simp at hr

theorem Served.admission_unique (h : Served P cfg log s) {r : ReqId}
    {record record' : AdmissionRecord} (h₁ : .admission r record ∈ log)
    (h₂ : .admission r record' ∈ log) : record = record' :=
  (h.callTrace r).admission_unique (admission_mem_trace.mp h₁) (admission_mem_trace.mp h₂)

/-- A request reserves one candidate. -/
theorem Served.reservedIn_unique (h : Served P cfg log s) {id : String} {r : ReqId}
    {c c' : CandidateTag} (h₁ : ReservedIn id (windowLog id log) r c)
    (h₂ : ReservedIn id (windowLog id log) r c') : c = c' := by
  obtain ⟨record, g, hm, hs⟩ := h₁
  obtain ⟨record', g', hm', hs'⟩ := h₂
  rw [h.admission_unique (mem_of_mem_windowLog hm) (mem_of_mem_windowLog hm'), hs'] at hs
  cases hs
  rfl

/-- The lookup behind a finalization is one for the reserved candidate. -/
theorem Served.queried_of_finalized (h : Served P cfg log s) {id : String} {r : ReqId}
    {c : CandidateTag} {result : LookupResult} (hr : ReservedIn id (windowLog id log) r c)
    (hf : .finalized r result ∈ log) : ∃ trash outcome, .queried r trash c outcome result ∈ log := by
  obtain ⟨⟨record, slot, trash, outcome, hm, hs, hq⟩, _, _⟩ := h.finalized_spec hf
  obtain ⟨record', g, hm', hs'⟩ := hr
  rw [h.admission_unique hm (mem_of_mem_windowLog hm'), hs'] at hs
  cases hs
  exact ⟨trash, outcome, hq⟩

theorem Served.not_refunded_of_committed (h : Served P cfg log s) {r : ReqId}
    (hc : Committed log r) : ¬Refunded log r := by
  obtain ⟨result, hf, hne⟩ := hc
  obtain ⟨_, huniq, hnot⟩ := h.finalized_spec hf
  rintro (hr | ⟨e, he⟩)
  · exact hnot hr
  · exact hne e (huniq _ he).symm

theorem mem_committed_iff {info : RateLimitInfo} {c : CandidateTag} :
    c ∈ (info.candidates.retain fun _ state => state == .committed).keys ↔
      info.candidates.lookup c = some .committed := by
  rw [Finmap.mem_keys, Finmap.mem_retain]
  constructor
  · rintro ⟨state, hl, hs⟩
    rw [hl, beq_iff_eq.mp hs]
  · exact fun hl => ⟨.committed, hl, rfl⟩

section window

variable {id : String} {info : RateLimitInfo}

/-- The candidates are those reserved in the window and not given back. -/
theorem Window.mem_iff {w : Log} (hw : Window id w log info)
    (hcom : ∀ r, Committed log r → ¬Refunded log r) (c : CandidateTag) :
    c ∈ info.candidates ↔ ∃ r, ReservedIn id w r c ∧ ¬Refunded log r := by
  constructor
  · intro hc
    obtain ⟨state, hl⟩ := Finmap.mem_iff.mp hc
    cases state with
    | pending =>
      obtain ⟨r, hr, hres⟩ := (hw.pending c).mp hl
      exact ⟨r, hr, mt Refunded.resolved hres⟩
    | committed =>
      obtain ⟨r, hr, hc'⟩ := (hw.committed c).mp hl
      exact ⟨r, hr, hcom r hc'⟩
  · rintro ⟨r, hr, href⟩
    exact hw.mem_of_not_refunded hr href

/-- Each miss committed a candidate of its own. -/
theorem Served.misses_card_le (h : Served P cfg log s)
    (hw : Window id (windowLog id log) log info) {misses : Finset ReqId}
    (hm : ∀ r, r ∈ misses ↔ (∃ c, ReservedIn id (windowLog id log) r c) ∧ .finalized r .miss ∈ log) :
    misses.card ≤ info.committedCount := by
  have hcommitted : ∀ {r}, Obs.finalized r .miss ∈ log → Committed log r := fun hf =>
    ⟨.miss, hf, fun e => LookupResult.noConfusion⟩
  refine Finset.card_le_card_of_forall_subsingleton (ReservedIn id (windowLog id log))
    (fun r hr => ?_) fun c hc r hr r' hr' => ?_
  · obtain ⟨⟨c, hin⟩, hf⟩ := (hm r).mp hr
    exact ⟨c, mem_committed_iff.mpr ((hw.committed c).mpr ⟨r, hin, hcommitted hf⟩), hin⟩
  · have href : ∀ {r}, r ∈ misses → ¬Refunded log r := fun hr =>
      h.not_refunded_of_committed (hcommitted ((hm _).mp hr).2)
    exact hw.unique r r' c hr.2 (href hr.1) hr'.2 (href hr'.1)

/-- Each candidate was brought by a request of its own. -/
theorem Served.candidates_len_le (h : Served P cfg log s)
    (hw : Window id (windowLog id log) log info) {requests : Finset ReqId}
    (hm : ∀ r, r ∈ requests ↔ ∃ record, .admission r record ∈ windowLog id log ∧ record.idHash = id) :
    info.candidates.len ≤ requests.card := by
  refine Finset.card_le_card_of_forall_subsingleton
    (fun c r => ReservedIn id (windowLog id log) r c) (fun c hc => ?_) fun r hr c hc c' hc' => ?_
  · obtain ⟨r, hin, _⟩ :=
      (hw.mem_iff (fun _ => h.not_refunded_of_committed) c).mp (Finmap.mem_keys.mp hc)
    obtain ⟨record, g, hmem, hs⟩ := hin
    exact ⟨r, (hm r).mpr ⟨record, hmem, AdmissionRecord.idHash_of_reservation hs⟩,
      record, g, hmem, hs⟩
  · exact h.reservedIn_unique hc.2 hc'.2

theorem RateLimitInfo.committedCount_le (info : RateLimitInfo) :
    info.committedCount ≤ info.candidates.len :=
  Finmap.len_retain_le _ _

/-! ## Who counts a miss -/

/-- A window starts no later than its last candidate comes. -/
theorem Served.windowStartedAt_le (h : Served P cfg log s) (hchron : Chronological log)
    (hi : s.identifierRateLimit.lookup id = some info) :
    info.windowStartedAt ≤ info.lastCandidateAt := by
  have hinv := h.windowInv hchron id
  have hw := hinv.window info hi
  obtain ⟨c, hc⟩ := Finset.card_pos.mp (h.bounded.entry id info hi).1
  obtain ⟨r, ⟨record, g, hm, hs⟩, _⟩ :=
    (hw.mem_iff (fun _ => h.not_refunded_of_committed) c).mp (Finmap.mem_keys.mp hc)
  obtain ⟨hg, hlast⟩ := hw.started r record _ hm hs rfl
  have := hinv.generation r record _ (mem_of_mem_windowLog hm) hs
  omega

/-- While a window lasts, its count of misses changes only when the lookup of a
reservation of the window is first finalized with a miss. -/
theorem EntryEffect.failedCandidates {info' : RateLimitInfo}
    (he : EntryEffect cfg s os id (some info) (some info')) (h : Served P cfg log s)
    (hchron : Chronological log) (hi : s.identifierRateLimit.lookup id = some info)
    (hsame : info'.windowStartedAt = info.windowStartedAt) :
    info'.failedCandidates = info.failedCandidates ∨
      ∃ r c, os = [.finalized r .miss] ∧ ReservedIn id (windowLog id log) r c ∧
        ¬Resolved log r := by
  generalize hleft : some info' = left at he
  cases he with
  | same =>
    cases hleft
    exact Or.inl rfl
  | expire t =>
    cases (Option.filter_eq_some_iff.mp hleft.symm).1
    exact Or.inl rfl
  | refund r q a =>
    rw [Option.bind_some] at hleft
    obtain ⟨candidates, rfl⟩ := refundEntry_fields hleft.symm
    exact Or.inl rfl
  | admission r record hm hid hspec hfound =>
    left
    obtain ⟨hnone, -, rfl⟩ | ⟨old, hold, hinto⟩ := hspec.left_cases hleft.symm
    · -- The old window is over: the new one starts later.
      obtain ⟨hf, _⟩ | ⟨_, hover⟩ := filter_withinCooldown cfg record.requestedAt info
      · rw [hfound, hf] at hnone
        cases hnone
      · change record.requestedAt = info.windowStartedAt at hsame
        have hlast := h.windowStartedAt_le hchron hi
        have hcd := cfg.cooldown_pos
        omega
    · cases (Option.filter_eq_some_iff.mp (hfound.symm.trans hold)).1
      obtain ⟨_, rfl⟩ | ⟨_, _, rfl⟩ := hinto <;> rfl
  | finalize r q a result hq ha hid hos =>
    obtain ⟨record, hm, hslot, huniq, hres⟩ := h.owned hq ha
    rw [Option.bind_some] at hleft
    obtain ⟨hg, hc, hr, _⟩ | ⟨hg, _⟩ :=
      (h.windowInv hchron id).locate hm hslot hid huniq hres hi
    · by_cases hmiss : result = .miss
      · subst hmiss
        exact Or.inr ⟨r, q.candidate, hos, hr, hres⟩
      left
      change info.windowStartedAt = a.generation at hg
      change info.candidates.lookup q.candidate = some .pending at hc
      by_cases hf : ∃ e, result = .failed e
      · obtain ⟨e, rfl⟩ := hf
        rw [← hg, finalizeEntry_failed hc, withoutCandidate] at hleft
        split at hleft <;> cases hleft
        rfl
      · rw [← hg, finalizeEntry_committed hc (not_exists.mp hf)] at hleft
        cases hleft
        exact if_neg hmiss
    -- The window of the task is gone, and the entry is left as it is.
    · change info.windowStartedAt ≠ a.generation at hg
      rw [finalizeEntry_stale (Or.inl hg)] at hleft
      cases hleft
      exact Or.inl rfl

end window

/-- **The counters are exact.** With non-decreasing clocks, an entry of a
reachable map tells the history of its window. -/
theorem counters_exact (P : Primitives) (cfg : Config) {log : Log} {s : AppState F}
    (h : Served P cfg log s) (hchron : Chronological log) {id : String} {info : RateLimitInfo}
    (hi : s.identifierRateLimit.lookup id = some info) :
    OpenedAt id log info.windowStartedAt ∧
    (∀ c, c ∈ info.candidates ↔ ∃ r, ReservedIn id (windowLog id log) r c ∧ ¬Refunded log r) ∧
    (∀ c, info.candidates.lookup c = some .committed ↔
      ∃ r trash outcome result, ReservedIn id (windowLog id log) r c ∧
        .queried r trash c outcome result ∈ log ∧ (∀ e, result ≠ .failed e) ∧
        .finalized r result ∈ log) ∧
    (∃ misses : Finset ReqId, (∀ r, r ∈ misses ↔ ∃ c trash outcome,
      ReservedIn id (windowLog id log) r c ∧ .queried r trash c outcome .miss ∈ log ∧
        .finalized r .miss ∈ log) ∧ info.failedCandidates = misses.card) ∧
    (∃ requests : Finset ReqId, (∀ r, r ∈ requests ↔
      ∃ record, .admission r record ∈ windowLog id log ∧ record.idHash = id) ∧
      info.totalRequests = min requests.card u64Max) ∧
    info.failedCandidates ≤ info.committedCount ∧ info.committedCount ≤ info.candidates.len ∧
    info.candidates.len ≤ info.totalRequests ∧
    ∀ event s' os info', step P cfg s event = some (s', os) → Chronological (os ++ log) →
      s'.identifierRateLimit.lookup id = some info' →
      info'.windowStartedAt = info.windowStartedAt →
      info'.failedCandidates ≠ info.failedCandidates →
      ∃ r c, os = [.finalized r .miss] ∧ ReservedIn id (windowLog id log) r c ∧
        ¬Resolved log r := by
  have hw := (h.windowInv hchron id).window info hi
  have hbudget := h.bounded.entry id info hi
  have hu8 := hbudget.le_u8Max
  have hcount := info.committedCount_le
  obtain ⟨misses, hmisses, hfailed⟩ := hw.failed
  obtain ⟨requests, hrequests, htotal⟩ := hw.total
  have hmissed := h.misses_card_le hw hmisses
  have hlen := h.candidates_len_le hw hrequests
  have hmax : u8Max ≤ u64Max := by decide
  refine ⟨(h.windowInv hchron id).opened info hi, hw.mem_iff fun _ => h.not_refunded_of_committed, fun c => ?_, ⟨misses, fun r => ?_, by omega⟩,
    ⟨requests, hrequests, htotal⟩, by omega, hcount, by omega,
    fun event s' os info' he hchron' hi' hsame hne => ?_⟩
  · rw [hw.committed]
    constructor
    · rintro ⟨r, hr, result, hf, hok⟩
      obtain ⟨trash, outcome, hq⟩ := h.queried_of_finalized hr hf
      exact ⟨r, trash, outcome, result, hr, hq, hok, hf⟩
    · rintro ⟨r, _, _, result, hr, _, hok, hf⟩
      exact ⟨r, hr, result, hf, hok⟩
  -- Whatever was finalized was queried before, so the counters can be told from the queries.
  · rw [hmisses]
    constructor
    · rintro ⟨⟨c, hr⟩, hf⟩
      obtain ⟨trash, outcome, hq⟩ := h.queried_of_finalized hr hf
      exact ⟨c, trash, outcome, hr, hq, hf⟩
    · rintro ⟨c, _, _, hr, _, hf⟩
      exact ⟨⟨c, hr⟩, hf⟩
  · have hentry := (step_effect he).entry h.bounded id
    rw [hi, hi'] at hentry
    exact (hentry.failedCandidates h hchron hi hsame).resolve_left hne

/-- A missed lookup of the sample candidate, then a request with the other key, which the
used-up window turns away. -/
theorem counters_exact_sample :
    ∃ (log : Log) (s : AppState ℚ) (info : RateLimitInfo), Served .sample .sample log s ∧
      s.identifierRateLimit.lookup sampleIdHash = some info ∧ info.totalRequests = 2 ∧
      info.failedCandidates = 1 ∧ info.failedCandidates ≤ info.committedCount ∧
      ∃ r, ReservedIn sampleIdHash (windowLog sampleIdHash log) r sampleSecretId ∧
        ¬Refunded log r := by
  have hrun : (run .sample .sample .sample
      (sampleAdmission 0 false ⟨sampleIdentifier, sampleKey⟩ 0 ++ sampleCompletion 0 ++
        sampleAdmission 1 true ⟨sampleIdentifier, otherKey⟩ 1)).any
      (fun r => decide (Chronological r.2) &&
        (r.1.identifierRateLimit.lookup sampleIdHash).any fun info =>
          decide (sampleSecretId ∈ info.candidates ∧ info.totalRequests = 2 ∧
            info.failedCandidates = 1)) = true := by
    simp only [run_append, sampleAdmission, run_sampleKey, run_otherKey]
    decide +kernel
  obtain ⟨log, s, h, hlog⟩ := served_of_run hrun
  simp only [Bool.and_eq_true, decide_eq_true_eq] at hlog
  obtain ⟨hchron, hany⟩ := hlog
  obtain ⟨info, hi, hinfo⟩ := (Option.any_eq_true _ _).mp hany
  obtain ⟨hmem, htotal, hfailed⟩ := of_decide_eq_true hinfo
  obtain ⟨_, hcand, _, _, _, hle, _⟩ := counters_exact .sample .sample h hchron hi
  exact ⟨log, s, info, h, hi, htotal, hfailed, hle, (hcand _).mp hmem⟩

end RecoverBull
