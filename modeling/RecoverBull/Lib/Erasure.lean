import RecoverBull.Lib.Machine

/-!
# Runs over a part of a schedule

Deleting events from a schedule: when the states of two machines stay related
over the events that are deleted, and answer the others alike, the run over what is
left exists and shows the same to whoever does not see the deleted part.

## Main results

- `Machine.run_erase`: the run over the kept events, with the same visible log
-/

namespace Machine

variable {σ τ ε ω : Type*} {step : σ → ε → Option (σ × List ω)} {step' : τ → ε → Option (τ × List ω)}

/-- No run over a prefix of the schedule observes what is bad. -/
def Avoids (step : σ → ε → Option (σ × List ω)) (bad : ω → Prop) (s : σ) (es : List ε) : Prop :=
  ∀ fs t log, fs <+: es → run step s fs = some (t, log) → ∀ o ∈ log, ¬bad o

theorem Avoids.head {bad : ω → Prop} {s t : σ} {e : ε} {es : List ε} {os : List ω}
    (h : Avoids step bad s (e :: es)) (he : step s e = some (t, os)) : ∀ o ∈ os, ¬bad o :=
  h [e] t os (List.prefix_append [e] es) (run_singleton he)

theorem Avoids.tail {bad : ω → Prop} {s t : σ} {e : ε} {es : List ε} {os : List ω}
    (h : Avoids step bad s (e :: es)) (he : step s e = some (t, os)) : Avoids step bad t es := by
  intro fs u log hfs hr o ho
  exact h (e :: fs) u (log ++ os) ((List.prefix_cons_inj e).mpr hfs)
    (run_cons_eq_some.mpr ⟨t, os, log, he, hr, rfl⟩) o (List.mem_append_left _ ho)

theorem Avoids.of_prefix {bad : ω → Prop} {s : σ} {es fs : List ε} (h : Avoids step bad s es)
    (hfs : fs <+: es) : Avoids step bad s fs :=
  fun gs t log hgs => h gs t log (hgs.trans hfs)

/-- The whole run tells for its prefixes. -/
theorem avoids_of_run {bad : ω → Prop} {s t : σ} {es : List ε} {log : List ω}
    (hr : run step s es = some (t, log)) (h : ∀ o ∈ log, ¬bad o) : Avoids step bad s es := by
  rintro fs u log' ⟨gs, rfl⟩ hfs o ho
  obtain ⟨v, l₁, l₂, h₁, -, rfl⟩ := run_append_eq_some.mp hr
  rw [hfs] at h₁
  cases h₁
  exact h o (List.mem_append_right _ ho)

/-- The run over the kept part of a schedule of `sound` events. `Allowed` may speak of
the whole log of the first run, `bad` of single observations of the second. -/
theorem run_erase {keep : ε → Bool} {see : ω → Bool} {R : List ω → σ → τ → Prop}
    {sound : ε → Prop} {Allowed : List ω → Prop} {bad : ω → Prop}
    (hsuffix : ∀ os log, Allowed (os ++ log) → Allowed log)
    (hdrop : ∀ log s t e s' os, R log s t → sound e → step s e = some (s', os) →
      Allowed (os ++ log) → keep e = false → os.filter see = [] ∧ R (os ++ log) s' t)
    (hkeep : ∀ log s t e s' os, R log s t → sound e → step s e = some (s', os) →
      Allowed (os ++ log) → keep e = true →
      (∀ t' os', step' t e = some (t', os') → ∀ o ∈ os', ¬bad o) →
      ∃ t' os', step' t e = some (t', os') ∧ os'.filter see = os.filter see ∧ R (os ++ log) s' t')
    {log os : List ω} {s s' : σ} {t : τ} {es : List ε} (hR : R log s t)
    (hsound : ∀ e ∈ es, sound e) (hr : run step s es = some (s', os)) (ha : Allowed (os ++ log))
    (hbad : Avoids step' bad t (es.filter keep)) :
    ∃ t' os', run step' t (es.filter keep) = some (t', os') ∧ os'.filter see = os.filter see ∧
      R (os ++ log) s' t' := by
  induction es generalizing s t log os with
  | nil =>
    obtain ⟨rfl, rfl⟩ : s = s' ∧ [] = os := by simpa using hr
    exact ⟨t, [], rfl, rfl, hR⟩
  | cons e es ih =>
    obtain ⟨u, o, rest, he, hr', rfl⟩ := run_cons_eq_some.mp hr
    rw [List.append_assoc] at ha ⊢
    have hnow := hsuffix rest (o ++ log) ha
    have hs := hsound e List.mem_cons_self
    have hrest : ∀ e ∈ es, sound e := fun e he => hsound e (List.mem_cons_of_mem _ he)
    cases hk : keep e with
    | false =>
      rw [List.filter_cons_of_neg (by simp [hk])] at hbad ⊢
      obtain ⟨hnil, hR'⟩ := hdrop log s t e u o hR hs he hnow hk
      obtain ⟨t', os', hrun, hsee, hlast⟩ := ih hR' hrest hr' ha hbad
      exact ⟨t', os', hrun, by rw [List.filter_append, hnil, List.append_nil, hsee], hlast⟩
    | true =>
      rw [List.filter_cons_of_pos hk] at hbad ⊢
      obtain ⟨v, o', he', hsame, hR'⟩ := hkeep log s t e u o hR hs he hnow hk
        fun t' os' he' => hbad.head he'
      obtain ⟨t', os', hrun, hsee, hlast⟩ := ih hR' hrest hr' ha (hbad.tail he')
      refine ⟨t', os' ++ o', run_cons_eq_some.mpr ⟨v, o', os', he', hrun, rfl⟩, ?_, hlast⟩
      rw [List.filter_append, List.filter_append, hsee, hsame]

end Machine
