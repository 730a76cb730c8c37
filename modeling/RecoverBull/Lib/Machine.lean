import Mathlib.Data.List.Induction

/-!
# Machines driven by a schedule

A machine is a partial step function: an event is accepted, with the next state
and what was observed, or refused. Everything the environment chooses is part of
the event, so that a schedule determines the run. Logs are newest first.

## Main results

- `Machine.run_invariant`: what every step preserves holds along every run
- `Machine.run_history`: the same for what a schedule brought about
- `Machine.run_lockstep`: two runs over one schedule
- `Machine.run_simulated`: a run of another machine that observes the same
- `Machine.run_obeying`: what follows when every event comes in a state that admits it
- `Machine.along_iff`: what holds of every step, told from the log
- `Machine.completes_iff`: the runs of one party on its own, step by step
-/

namespace Machine

variable {σ ε ω τ : Type*}

/-- Runs a schedule. The log of the run is newest first. -/
def run (step : σ → ε → Option (σ × List ω)) : σ → List ε → Option (σ × List ω)
  | s, [] => some (s, [])
  | s, e :: es =>
    match step s e with
    | none => none
    | some (t, os) => (run step t es).map fun r => (r.1, r.2 ++ os)

variable {step : σ → ε → Option (σ × List ω)}

@[simp] theorem run_nil (s : σ) : run step s [] = some (s, []) := rfl

theorem run_cons_eq_some {s u : σ} {e : ε} {es : List ε} {log : List ω} :
    run step s (e :: es) = some (u, log) ↔
      ∃ t os log', step s e = some (t, os) ∧ run step t es = some (u, log') ∧ log = log' ++ os := by
  rw [run]
  cases step s e with
  | none =>
    constructor
    · intro h
      cases h
    · rintro ⟨_, _, _, h, -⟩
      cases h
  | some r =>
    obtain ⟨t, os⟩ := r
    constructor
    · intro h
      obtain ⟨⟨u', log'⟩, hr, heq⟩ := Option.map_eq_some_iff.mp h
      cases heq
      exact ⟨t, os, log', rfl, hr, rfl⟩
    · rintro ⟨_, _, log', h, hr, rfl⟩
      cases h
      exact Option.map_eq_some_iff.mpr ⟨(u, log'), hr, rfl⟩

theorem run_append_eq_some {s u : σ} {es fs : List ε} {log : List ω} :
    run step s (es ++ fs) = some (u, log) ↔
      ∃ t l₁ l₂, run step s es = some (t, l₁) ∧ run step t fs = some (u, l₂) ∧ log = l₂ ++ l₁ := by
  induction es generalizing s log with
  | nil => simp
  | cons e es ih =>
    rw [List.cons_append, run_cons_eq_some]
    constructor
    · rintro ⟨t, os, log', hs, hr, rfl⟩
      obtain ⟨v, l₁, l₂, h₁, h₂, rfl⟩ := ih.mp hr
      exact ⟨v, l₁ ++ os, l₂, run_cons_eq_some.mpr ⟨t, os, l₁, hs, h₁, rfl⟩, h₂,
        List.append_assoc _ _ _⟩
    · rintro ⟨v, l₁, l₂, h₁, h₂, rfl⟩
      obtain ⟨t, os, l₁', hs, h₁', rfl⟩ := run_cons_eq_some.mp h₁
      exact ⟨t, os, l₂ ++ l₁', hs, ih.mpr ⟨v, l₁', l₂, h₁', h₂, rfl⟩,
        (List.append_assoc _ _ _).symm⟩

/-- A schedule in two parts. -/
theorem run_append (s : σ) (es fs : List ε) :
    run step s (es ++ fs) =
      (run step s es).bind fun p => (run step p.1 fs).map fun q => (q.1, q.2 ++ p.2) := by
  apply Option.ext
  rintro ⟨u, log⟩
  rw [run_append_eq_some, Option.bind_eq_some_iff]
  constructor
  · rintro ⟨t, l₁, l₂, h₁, h₂, rfl⟩
    exact ⟨(t, l₁), h₁, Option.map_eq_some_iff.mpr ⟨(u, l₂), h₂, rfl⟩⟩
  · rintro ⟨⟨t, l₁⟩, h₁, hmap⟩
    obtain ⟨⟨v, l₂⟩, h₂, hq⟩ := Option.map_eq_some_iff.mp hmap
    cases hq
    exact ⟨t, l₁, l₂, h₁, h₂, rfl⟩

theorem run_singleton {s t : σ} {e : ε} {os : List ω} (h : step s e = some (t, os)) :
    run step s [e] = some (t, os) :=
  run_cons_eq_some.mpr ⟨t, os, [], h, rfl, rfl⟩

/-- What every step preserves holds along every run. The invariant may speak of
the log so far. -/
theorem run_invariant {Inv : List ω → σ → Prop}
    (hstep : ∀ log s e t os, Inv log s → step s e = some (t, os) → Inv (os ++ log) t)
    {s t : σ} {es : List ε} {log os : List ω} (hi : Inv log s)
    (hr : run step s es = some (t, os)) : Inv (os ++ log) t := by
  induction es generalizing s log os with
  | nil =>
    obtain ⟨rfl, rfl⟩ : s = t ∧ [] = os := by simpa using hr
    exact hi
  | cons e es ih =>
    obtain ⟨u, o, log', hs, hr', rfl⟩ := run_cons_eq_some.mp hr
    have hu := hstep log s e u o hi hs
    rw [List.append_assoc]
    exact ih hu hr'

/-- An invariant that may also speak of the schedule so far. -/
theorem run_history {Inv : List ε → List ω → σ → Prop} {s₀ : σ} (h₀ : Inv [] [] s₀)
    (hstep : ∀ es log s e t os, run step s₀ es = some (s, log) → Inv es log s →
      step s e = some (t, os) → Inv (es ++ [e]) (os ++ log) t)
    {s : σ} {es : List ε} {log : List ω} (hr : run step s₀ es = some (s, log)) : Inv es log s := by
  induction es using List.reverseRecOn generalizing s log with
  | nil =>
    obtain ⟨rfl, rfl⟩ : s₀ = s ∧ [] = log := by simpa using hr
    exact h₀
  | append_singleton es e ih =>
    obtain ⟨t, l₁, l₂, h₁, h₂, rfl⟩ := run_append_eq_some.mp hr
    obtain ⟨u, os, l₃, he, h₃, rfl⟩ := run_cons_eq_some.mp h₂
    obtain ⟨rfl, rfl⟩ : u = s ∧ [] = l₃ := by simpa using h₃
    exact hstep es l₁ t e u os h₁ (ih h₁) he

/-- Two machines over one schedule: when related states answer an event alike,
runs that start related stay related, as long as the first one observes only
what `Allowed` admits. -/
theorem run_lockstep {step' : τ → ε → Option (τ × List ω)} {R : σ → τ → Prop}
    {Allowed : ω → Prop}
    (hstep : ∀ s t e s' os, R s t → step s e = some (s', os) → (∀ o ∈ os, Allowed o) →
      ∃ t', step' t e = some (t', os) ∧ R s' t')
    {s s' : σ} {t : τ} {es : List ε} {log : List ω} (hR : R s t)
    (hr : run step s es = some (s', log)) (ha : ∀ o ∈ log, Allowed o) :
    ∃ t', run step' t es = some (t', log) ∧ R s' t' := by
  induction es generalizing s t log with
  | nil =>
    obtain ⟨rfl, rfl⟩ : s = s' ∧ [] = log := by simpa using hr
    exact ⟨t, rfl, hR⟩
  | cons e es ih =>
    obtain ⟨u, os, log', hs, hr', rfl⟩ := run_cons_eq_some.mp hr
    obtain ⟨v, hv, hRv⟩ := hstep s t e u os hR hs fun o ho => ha o (List.mem_append_right _ ho)
    obtain ⟨t', ht', hR'⟩ := ih hRv hr' fun o ho => ha o (List.mem_append_left _ ho)
    exact ⟨t', run_cons_eq_some.mpr ⟨v, os, log', hv, ht', rfl⟩, hR'⟩

/-- When each step can be answered from a related state by a run of another machine that
observes the same, so can each run. -/
theorem run_simulated {φ : Type*} {step' : τ → φ → Option (τ × List ω)} {R : σ → τ → Prop}
    (hstep : ∀ s t e s' os, R s t → step s e = some (s', os) →
      ∃ fs t', run step' t fs = some (t', os) ∧ R s' t')
    {s s' : σ} {t : τ} {es : List ε} {log : List ω} (hR : R s t)
    (hr : run step s es = some (s', log)) :
    ∃ fs t', run step' t fs = some (t', log) ∧ R s' t' := by
  induction es generalizing s t log with
  | nil =>
    obtain ⟨rfl, rfl⟩ : s = s' ∧ [] = log := by simpa using hr
    exact ⟨[], t, rfl, hR⟩
  | cons e es ih =>
    obtain ⟨u, os, log', hs, hr', rfl⟩ := run_cons_eq_some.mp hr
    obtain ⟨fs, v, hv, hRv⟩ := hstep s t e u os hR hs
    obtain ⟨fs', t', ht', hR'⟩ := ih hRv hr'
    exact ⟨fs ++ fs', t', run_append_eq_some.mpr ⟨v, os, log', hv, ht', rfl⟩, hR'⟩

/-! ## Properties of every step -/

/-- Every step of the run over a schedule satisfies `p`. -/
def Along (step : σ → ε → Option (σ × List ω)) (p : σ → List ω → σ → Prop) : σ → List ε → Prop
  | _, [] => True
  | s, e :: es => ∀ t os, step s e = some (t, os) → p s os t ∧ Along step p t es

/-- The last step of a run that is not empty. -/
theorem Along.last {p : σ → List ω → σ → Prop} {s u : σ} {es : List ε} {log : List ω}
    (h : Along step p s es) (hr : run step s es = some (u, log)) (hne : es ≠ []) :
    ∃ t os, p t os u := by
  induction es generalizing s log with
  | nil => exact absurd rfl hne
  | cons e es ih =>
    obtain ⟨t, os, log', he, hr', rfl⟩ := run_cons_eq_some.mp hr
    obtain ⟨hp, hall⟩ := h t os he
    cases es with
    | nil =>
      obtain ⟨rfl, -⟩ : t = u ∧ [] = log' := by simpa using hr'
      exact ⟨s, os, hp⟩
    | cons e' es => exact ih hall hr' (List.cons_ne_nil _ _)

/-- A property of steps that can be told from what they observe, in states that
keep an invariant, can be told from the log of the run. -/
theorem along_iff {Inv : σ → Prop} {p : σ → List ω → σ → Prop} {q : List ω → Prop} (hnil : q [])
    (happend : ∀ os log, q (os ++ log) ↔ q os ∧ q log)
    (hiff : ∀ s e t os, Inv s → step s e = some (t, os) → (p s os t ↔ q os))
    (hinv : ∀ s e t os, Inv s → step s e = some (t, os) → q os → Inv t)
    {s u : σ} {es : List ε} {log : List ω} (hs : Inv s) (hr : run step s es = some (u, log)) :
    Along step p s es ↔ q log := by
  induction es generalizing s log with
  | nil =>
    obtain ⟨-, rfl⟩ : s = u ∧ [] = log := by simpa using hr
    exact iff_of_true trivial hnil
  | cons e es ih =>
    obtain ⟨t, os, log', he, hr', rfl⟩ := run_cons_eq_some.mp hr
    rw [happend]
    constructor
    · intro h
      obtain ⟨hp, hall⟩ := h t os he
      have hq := (hiff s e t os hs he).mp hp
      exact ⟨(ih (hinv s e t os hs he hq) hr').mp hall, hq⟩
    · rintro ⟨hlog, hq⟩ t' os' he'
      rw [he] at he'
      cases he'
      exact ⟨(hiff s e t os hs he).mpr hq, (ih (hinv s e t os hs he hq) hr').mpr hlog⟩

/-- Every event of the schedule comes in a state that admits it. -/
def obeys (step : σ → ε → Option (σ × List ω)) (q : σ → ε → Bool) : σ → List ε → Bool
  | _, [] => true
  | s, e :: es => q s e && (step s e).all fun r => obeys step q r.1 es

theorem obeys_append {q : σ → ε → Bool} {s t : σ} {es fs : List ε} {log : List ω}
    (hr : run step s es = some (t, log)) :
    obeys step q s (es ++ fs) = true ↔ obeys step q s es = true ∧ obeys step q t fs = true := by
  induction es generalizing s log with
  | nil =>
    obtain ⟨rfl, -⟩ : s = t ∧ [] = log := by simpa using hr
    simp [obeys]
  | cons e es ih =>
    obtain ⟨u, os, log', he, hr', rfl⟩ := run_cons_eq_some.mp hr
    simp only [List.cons_append, obeys, he, Option.all_some, Bool.and_eq_true, ih hr', and_assoc]

/-- What every admitted event preserves holds along a run that has no other. -/
theorem run_obeying {q : σ → ε → Bool} {Inv : List ε → List ω → σ → Prop} {s₀ : σ}
    (h₀ : Inv [] [] s₀)
    (hstep : ∀ es log s e t os, run step s₀ es = some (s, log) → Inv es log s → q s e = true →
      step s e = some (t, os) → Inv (es ++ [e]) (os ++ log) t)
    {s : σ} {es : List ε} {log : List ω} (hr : run step s₀ es = some (s, log))
    (hq : obeys step q s₀ es = true) : Inv es log s := by
  refine @run_history σ ε ω step (fun es log s => obeys step q s₀ es = true → Inv es log s) s₀
    (fun _ => h₀) ?_ s es log hr hq
  intro es log s e t os hr ih he hq
  obtain ⟨hbefore, hlast⟩ := (obeys_append hr).mp hq
  exact hstep es log s e t os hr (ih hbefore) (Bool.and_eq_true_iff.mp hlast).1 he

/-! ## Segments of a log -/

/-- The newest part of a log, down to the last observation that passes the test. -/
def since (p : ω → Bool) : List ω → List ω
  | [] => []
  | o :: log => if p o then [o] else o :: since p log

theorem since_prefix (p : ω → Bool) (log : List ω) : since p log <+: log := by
  induction log with
  | nil => exact List.prefix_rfl
  | cons o log ih =>
    rw [since]
    split
    · exact List.prefix_append [o] log
    · exact (List.prefix_cons_inj o).mpr ih

theorem since_cons_of_pos {p : ω → Bool} {o : ω} (h : p o = true) (log : List ω) :
    since p (o :: log) = [o] := if_pos h

theorem since_cons_of_neg {p : ω → Bool} {o : ω} (h : p o = false) (log : List ω) :
    since p (o :: log) = o :: since p log := by
  rw [since, h]
  rfl

theorem since_append {p : ω → Bool} {os : List ω} (h : ∀ o ∈ os, p o = false) (log : List ω) :
    since p (os ++ log) = os ++ since p log := by
  induction os with
  | nil => rfl
  | cons o os ih =>
    rw [List.cons_append, since_cons_of_neg (h o List.mem_cons_self),
      ih fun x hx => h x (List.mem_cons_of_mem _ hx), List.cons_append]

/-- Where the observations that pass a test split, the log splits. -/
theorem split_of_filter {p : ω → Bool} {log newer older : List ω} {o : ω}
    (h : log.filter p = newer ++ o :: older) : ∃ newer' older', log = newer' ++ o :: older' ∧
      newer'.filter p = newer ∧ older'.filter p = older := by
  obtain ⟨l₁, l₂, rfl, h₁, h₂⟩ := List.filter_eq_append_iff.mp h
  obtain ⟨l₃, l₄, rfl, h₃, ho, h₄⟩ := List.filter_eq_cons_iff.mp h₂
  have h₃' : l₃.filter p = [] := List.filter_eq_nil_iff.mpr h₃
  refine ⟨l₁ ++ l₃, l₄, by simp, ?_, h₄⟩
  rw [List.filter_append, h₁, h₃', List.append_nil]

/-! ## One party on its own -/

/-- A run of the party's own events only, up to a state in which it is done. -/
def Completes (step : σ → ε → Option (σ × List ω)) (own : ε → Prop) (done : σ → Prop) (s t : σ)
    (log : List ω) : Prop :=
  ∃ es, (∀ e ∈ es, own e) ∧ run step s es = some (t, log) ∧ done t

theorem completes_iff {own : ε → Prop} {done : σ → Prop} {s t : σ} {log : List ω} (hs : ¬done s) :
    Completes step own done s t log ↔ ∃ e u os log', own e ∧ step s e = some (u, os) ∧
      Completes step own done u t log' ∧ log = log' ++ os := by
  constructor
  · rintro ⟨es, hown, hr, hdone⟩
    cases es with
    | nil =>
      obtain ⟨rfl, -⟩ : s = t ∧ [] = log := by simpa using hr
      exact absurd hdone hs
    | cons e es =>
      obtain ⟨u, os, log', he, hr', rfl⟩ := run_cons_eq_some.mp hr
      obtain ⟨he', hown⟩ := List.forall_mem_cons.mp hown
      exact ⟨e, u, os, log', he', he, ⟨es, hown, hr', hdone⟩, rfl⟩
  · rintro ⟨e, u, os, log', he', he, ⟨es, hown, hr, hdone⟩, rfl⟩
    exact ⟨e :: es, List.forall_mem_cons.mpr ⟨he', hown⟩,
      run_cons_eq_some.mpr ⟨u, os, log', he, hr, rfl⟩, hdone⟩

/-- Who is done and has no step left stays where it is. -/
theorem completes_of_done {own : ε → Prop} {done : σ → Prop} {s t : σ} {log : List ω} (hs : done s)
    (hstop : ∀ e, own e → step s e = none) :
    Completes step own done s t log ↔ t = s ∧ log = [] := by
  constructor
  · rintro ⟨es, hown, hr, -⟩
    cases es with
    | nil =>
      obtain ⟨rfl, rfl⟩ : s = t ∧ [] = log := by simpa using hr
      exact ⟨rfl, rfl⟩
    | cons e es =>
      obtain ⟨u, os, log', he, -⟩ := run_cons_eq_some.mp hr
      rw [hstop e (hown e List.mem_cons_self)] at he
      cases he
  · rintro ⟨rfl, rfl⟩
    exact ⟨[], by simp, rfl, hs⟩

end Machine
