import RecoverBull.Limiter.PreviousAttempt
import RecoverBull.Server.Telemetry

/-!
# Retention

Identifiers are forgotten after the cooldown. What a sweep leaves was attempted within the
cooldown before it, and so was what a snapshot shows before its build; nothing brings an
identifier back but a request for it.
-/

namespace RecoverBull

variable {F : Type} {P : Primitives} {cfg : Config} {s s' : AppState F} {os log : Log}
  {id : String}

/-- A request reserved an attempt on the identifier at that time. -/
def Attempted (log : Log) (id : String) (t : ℤ) : Prop :=
  ∃ r slot, Reserved log r slot t ∧ slot.idHash = id

/-- The entry is within the cooldown of every sweep there was. -/
def OutlivesSweeps (cfg : Config) (log : Log) (entry : Option RateLimitInfo) : Prop :=
  ∀ info, entry = some info → ∀ now, .retained now ∈ log →
    now ≤ info.lastCandidateAt + cfg.rateLimitCooldown

/-- Only a sweep is observed as one. -/
theorem Effect.of_retained (he : Effect cfg s s' os) {now : ℤ} (hm : .retained now ∈ os) :
    s'.identifierRateLimit = retainWithinCooldown cfg now s.identifierRateLimit := by
  have hnot : ∀ {extra : Log}, (∀ o ∈ extra, o.isIdle = true) → .retained now ∉ extra :=
    fun h hm => by cases h _ hm
  cases he with
  | idle hmap hos => exact absurd hm (hnot hos)
  | retain t hmap extra hos hextra =>
    subst hos
    obtain hm | hm := List.mem_append.mp hm
    · obtain ⟨r, order, he, -⟩ := hextra _ hm
      cases he
    · cases List.mem_singleton.mp hm
      exact hmap
  | admission r q t extra hq hphase hmap hos hextra =>
    subst hos
    obtain hm | hm := List.mem_append.mp hm
    · exact absurd hm (hnot hextra)
    · cases List.mem_singleton.mp hm
  | refund r q a hq ha hmap extra extra' hos hextra hextra' =>
    subst hos
    obtain hm | hm := List.mem_append.mp hm
    · exact absurd hm (hnot hextra)
    · obtain hm | hm := List.mem_cons.mp hm
      · cases hm
      · exact absurd hm (hnot hextra')
  | finalize r q a client result hq hphase ha hmap hos =>
    subst hos
    cases List.mem_singleton.mp hm

/-- A step other than a sweep keeps what outlived the sweeps, and an attempt comes after
them all. -/
theorem EntryEffect.outlivesSweeps {entry entry' : Option RateLimitInfo}
    (he : EntryEffect cfg s os id entry entry') (hchron : Chronological (os ++ log))
    (h : OutlivesSweeps cfg log entry) : OutlivesSweeps cfg log entry' := by
  cases he with
  | same => exact h
  | expire t => exact fun info hi => h info (Option.filter_eq_some_iff.mp hi).1
  | admission r record hm hid hspec hfound =>
    have hnow : ∀ now, .retained now ∈ log → now ≤ record.requestedAt := fun now hn =>
      hchron.le (List.mem_filterMap.mpr ⟨_, hm, rfl⟩) (List.mem_filterMap.mpr ⟨_, hn, rfl⟩)
    have hcd := cfg.cooldown_pos
    intro info hi now hn
    obtain ⟨-, -, rfl⟩ | ⟨old, hold, hinto⟩ := hspec.left_cases hi
    · exact (hnow now hn).trans (le_add_of_nonneg_right hcd.le)
    · obtain ⟨-, rfl⟩ | ⟨-, -, rfl⟩ := hinto
      · exact h old (Option.filter_eq_some_iff.mp (hfound.symm.trans hold)).1 now hn
      · exact (hnow now hn).trans (le_add_of_nonneg_right hcd.le)
  | refund r q a =>
    intro info hi
    obtain ⟨old, hold, hrefund⟩ := Option.bind_eq_some_iff.mp hi
    obtain ⟨candidates, rfl⟩ := refundEntry_fields hrefund
    exact h old hold
  | finalize r q a result =>
    intro info hi
    obtain ⟨old, hold, hfinal⟩ := Option.bind_eq_some_iff.mp hi
    obtain ⟨candidates, failed, rfl⟩ := finalizeEntry_fields hfinal
    exact h old hold

section runs

variable [BucketNumber F]

theorem Served.outlivesSweeps (h : Served P cfg log s) (hchron : Chronological log) (id : String) :
    OutlivesSweeps cfg log (s.identifierRateLimit.lookup id) := by
  have hall : Chronological log → ∀ id,
      OutlivesSweeps cfg log (s.identifierRateLimit.lookup id) := by
    refine h.invariant (fun log s => Chronological log → ∀ id,
      OutlivesSweeps cfg log (s.identifierRateLimit.lookup id)) ?_ ?_
    · intro secrets b₁ b₂ b₃ _ id info hi
      cases hi
    · intro log s event s' os hs ih he hchron id info hi now hm
      obtain hm | hm := List.mem_append.mp hm
      · rw [(step_effect he).of_retained hm, lookup_retainWithinCooldown] at hi
        have hwithin := withinCooldown_iff.mp (Option.filter_eq_some_iff.mp hi).2
        omega
      · have hentry := (step_effect he).entry hs.bounded id
        exact hentry.outlivesSweeps hchron (ih hchron.of_append id) info hi now hm
  exact hall hchron id

/-- The window of an entry was last attempted when its cooldown began. -/
theorem Served.attempted (h : Served P cfg log s) {info : RateLimitInfo}
    (hi : s.identifierRateLimit.lookup id = some info) : Attempted log id info.lastCandidateAt := by
  obtain ⟨r, record, c, hm, hslot, ht⟩ := mem_windowAttempts.mp (h.lastReserved id info hi)
  exact ⟨r, _, ⟨record, hm, hslot, ht⟩, rfl⟩

/-- The scan of the map for a snapshot is observed as a sweep. -/
theorem retained_of_collect {r : ReqId} {tag : Option String} {now : ℤ} {order : IterationOrder}
    (hphase : s.polls r = some (.active (.mapLock tag now)))
    (h : step P cfg s (.attempts r (.collect order)) = some (s', os)) :
    ∃ extra, os = extra ++ [.retained now] := by
  simp only [step, hphase, attemptsStep, collectSnapshot] at h
  split at h <;> cases h
  · exact ⟨[_], rfl⟩
  · exact ⟨[], rfl⟩

/-- What the payload of a scan shows, after the log `before` and at the time `now`. -/
theorem buildPayload_attempted {before : Log} (hs : Served P cfg before s) {now : ℤ}
    {order : IterationOrder} {payload : AttemptsSnapshot}
    (hbuild : buildPayload cfg now order s.identifierRateLimit = some payload) :
    ∀ e ∈ payload.entries, ∃ t, Attempted before e.idHash t ∧ now ≤ t + cfg.rateLimitCooldown := by
  intro e hmem
  obtain ⟨info, hi, -⟩ := (mem_buildPayload hbuild).mp hmem
  obtain ⟨hlookup, hwithin⟩ := Option.filter_eq_some_iff.mp hi
  have hnow := withinCooldown_iff.mp hwithin
  exact ⟨_, hs.attempted hlookup, by omega⟩

/-- **Identifiers are forgotten.** In every run with clocks that never go back: after a
sweep, for good, the map holds no identifier but those attempted within the cooldown before
the sweep or since; and a snapshot shows no identifier but those attempted, before the scan
of the map that it is built from (the event `k`, after the log `before`, at the time `now`),
within the cooldown of it. -/
theorem identifiers_forgotten (P : Primitives) (cfg : Config) {secrets : SecretTable}
    {b₁ b₂ b₃ : TokenBucket F} {events : List Event}
    (hr : run P cfg (.init secrets b₁ b₂ b₃) events = some (s, log)) (hchron : Chronological log) :
    (∀ now, .retained now ∈ log → ∀ id ∈ s.identifierRateLimit,
      ∃ t, Attempted log id t ∧ now ≤ t + cfg.rateLimitCooldown) ∧
    ∀ payload k, Scanned P cfg (.init secrets b₁ b₂ b₃) events payload k →
      ∃ s₁ newer now before,
        run P cfg (.init secrets b₁ b₂ b₃) (events.take k) = some (s₁, before) ∧
        log = newer ++ .retained now :: before ∧
        ∀ e ∈ payload.entries,
          ∃ t, Attempted before e.idHash t ∧ now ≤ t + cfg.rateLimitCooldown := by
  have hs : Served P cfg log s := ⟨_, _, _, _, events, hr⟩
  constructor
  · intro now hm id hid
    obtain ⟨info, hi⟩ := Finmap.mem_iff.mp hid
    exact ⟨_, hs.attempted hi, hs.outlivesSweeps hchron id info hi now hm⟩
  · rintro payload k ⟨s₁, before, r, tag, now, order, hr₁, hevent, hphase, hbuild⟩
    obtain ⟨hk, hget⟩ := List.getElem?_eq_some_iff.mp hevent
    have hsplit : events = events.take k ++ .attempts r (.collect order) :: events.drop (k + 1) := by
      rw [← hget, ← List.drop_eq_getElem_cons hk, List.take_append_drop]
    rw [hsplit] at hr
    obtain ⟨u, l₁, l₂, htake, hrest, rfl⟩ := Machine.run_append_eq_some.mp hr
    cases hr₁.symm.trans htake
    obtain ⟨v, os, l₃, he, -, rfl⟩ := Machine.run_cons_eq_some.mp hrest
    obtain ⟨extra, rfl⟩ := retained_of_collect hphase he
    exact ⟨s₁, l₃ ++ extra, now, before, hr₁, by simp,
      buildPayload_attempted ⟨_, _, _, _, _, hr₁⟩ hbuild⟩

end runs

/-- An identifier that was attempted is still there after a sweep at once, and in the
snapshot of a poll that scans the map after it. -/
theorem identifiers_forgotten_sample :
    ∃ (log newer before : Log) (s : AppState ℚ) (payload : AttemptsSnapshot),
      Served .sample .sample log s ∧ sampleIdHash ∈ s.identifierRateLimit ∧
        (∃ t, Attempted log sampleIdHash t ∧ 0 ≤ t + Config.sample.rateLimitCooldown) ∧
        (∃ e ∈ payload.entries, e.idHash = sampleIdHash) ∧
        log = newer ++ .retained 0 :: before ∧ .retained 0 ∈ before ∧
        ∃ t, Attempted before sampleIdHash t ∧ 0 ≤ t + Config.sample.rateLimitCooldown := by
  let events : List Event := .fetchArrives 0 false ⟨sampleIdentifier, sampleKey⟩ ::
    ((sampleAdmission 0 false ⟨sampleIdentifier, sampleKey⟩ 0).tail ++ .sweep 0 :: samplePoll 0 0)
  have hscan : (run .sample .sample AppState.sample events).any (fun u => decide
      (.retained 0 ∈ u.2 ∧ u.1.polls 0 = some (.active (.mapLock none 0))) &&
        ((buildPayload .sample 0 .byKey u.1.identifierRateLimit).any fun payload =>
          decide (∃ e ∈ payload.entries, e.idHash = sampleIdHash)) &&
        (run .sample .sample u.1 [.attempts 0 (.collect .byKey)]).any fun v => decide
          (Chronological (v.2 ++ u.2) ∧ v.2 = [.retained 0] ∧
            sampleIdHash ∈ v.1.identifierRateLimit)) = true := by
    rw [run_sampleKey]
    decide +kernel
  obtain ⟨⟨s₁, before⟩, hr₁, h⟩ := (Option.any_eq_true _ _).mp hscan
  obtain ⟨h, hlast⟩ := Bool.and_eq_true_iff.mp h
  obtain ⟨hat, hbuild⟩ := Bool.and_eq_true_iff.mp h
  obtain ⟨hswept, hphase⟩ := of_decide_eq_true hat
  obtain ⟨payload, hbuild, hshown⟩ := (Option.any_eq_true _ _).mp hbuild
  obtain ⟨⟨s, os⟩, hr₂, hlast⟩ := (Option.any_eq_true _ _).mp hlast
  obtain ⟨hchron, hos, hid⟩ := of_decide_eq_true hlast
  obtain ⟨e, he, heid⟩ := of_decide_eq_true hshown
  have hr : run .sample .sample AppState.sample (events ++ [.attempts 0 (.collect .byKey)]) =
      some (s, os ++ before) :=
    Machine.run_append_eq_some.mpr ⟨s₁, before, os, hr₁, hr₂, rfl⟩
  have hscanned : Scanned .sample .sample AppState.sample
      (events ++ [.attempts 0 (.collect .byKey)]) payload events.length :=
    ⟨s₁, before, 0, none, 0, .byKey, by rw [List.take_left]; exact hr₁,
      List.getElem?_concat_length, hphase, hbuild⟩
  obtain ⟨hmap, hsnapshot⟩ := identifiers_forgotten .sample .sample hr hchron
  obtain ⟨s₂, newer, now, before', hr', hlog, hall⟩ := hsnapshot payload _ hscanned
  -- The scan is the last event, at time 0.
  rw [List.take_left] at hr'
  cases hr₁.symm.trans hr'
  obtain ⟨rfl, rfl⟩ : newer = [] ∧ now = 0 := by
    have hpieces : [] ++ [Obs.retained 0] ++ before = newer ++ [.retained now] ++ before := by
      rw [List.nil_append, ← hos, List.append_assoc]
      exact hlog
    obtain ⟨hnew, hnow⟩ := List.append_inj' (List.append_cancel_right hpieces) rfl
    cases hnow
    exact ⟨hnew.symm, rfl⟩
  obtain ⟨t, hattempted, ht⟩ := hall e he
  rw [heid] at hattempted
  exact ⟨_, [], before, s, payload, ⟨_, _, _, _, _, hr⟩, hid,
    hmap 0 (List.mem_append_right _ hswept) _ hid, ⟨e, he, heid⟩, hlog, hswept, t, hattempted, ht⟩

end RecoverBull
