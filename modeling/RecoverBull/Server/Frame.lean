import RecoverBull.Server.Polls

/-!
# What a step leaves alone

A step of one call leaves every other call where it stands.
-/

namespace RecoverBull

variable {F : Type} [BucketNumber F] {P : Primitives} {cfg : Config} {s s' : AppState F} {os : Log}
  {event : Event}

theorem attemptsStep_pollCalls {r : ReqId} {phase : AttemptsPhase} {event : AttemptsEvent}
    (h : attemptsStep P cfg s r phase event = some (s', os)) :
    ∃ call, s'.polls = Function.update s.polls r (some call) := by
  cases event <;>
    simp only [attemptsStep, takeAttemptsToken, lockSnapshot, collectSnapshot, publishSnapshot] at h
  all_goals repeat' split at h
  all_goals cases h
  all_goals exact ⟨_, rfl⟩

/-- The polls move in the steps of their own calls only. -/
theorem step_pollCalls (h : step P cfg s event = some (s', os)) :
    s'.polls = s.polls ∨ ∃ r call, event.call = some (.attempts r) ∧
      s'.polls = Function.update s.polls r (some call) := by
  cases event with
  | attempts r event =>
    simp only [step] at h
    split at h
    · obtain ⟨call, hpolls⟩ := attemptsStep_pollCalls h
      exact Or.inr ⟨r, call, rfl, hpolls⟩
    · cases h
  | attemptsArrives r ifNoneMatch =>
    simp only [step] at h
    split at h <;> cases h
    exact Or.inr ⟨r, _, rfl, rfl⟩
  | fetchArrives | fetch | storeArrives | store | info | sweep =>
    exact Or.inl (step_polls h (by simp [Event.call])).1.polls

omit [BucketNumber F] in
/-- The call stands in `s'` where it stood in `s`. -/
def SameCall (s s' : AppState F) : Call → Prop
  | .fetch r => s'.fetches r = s.fetches r
  | .store r => s'.stores r = s.stores r
  | .attempts r => s'.polls r = s.polls r
  | .info _ => True

/-- A step leaves the other calls where they stand. -/
theorem step_sameCall (h : step P cfg s event = some (s', os)) {call : Call}
    (hne : event.call ≠ some call) : SameCall s s' call := by
  -- What was updated was another call of the same kind.
  have hother : ∀ {r r' : ReqId} {kind : ReqId → Call}, event.call = some (kind r') →
      event.call ≠ some (kind r) → r ≠ r' := by
    rintro r r' kind hcall hne rfl
    exact hne hcall
  cases call with
  | fetch r =>
    show s'.fetches r = s.fetches r
    obtain hf | ⟨r', call, hcall, hf⟩ := step_fetches h <;> rw [hf]
    rw [Function.update_of_ne (hother hcall hne)]
  | store r =>
    show s'.stores r = s.stores r
    obtain hst | ⟨r', call, hcall, hst⟩ := step_stores h <;> rw [hst]
    rw [Function.update_of_ne (hother hcall hne)]
  | attempts r =>
    show s'.polls r = s.polls r
    obtain hp | ⟨r', call, hcall, hp⟩ := step_pollCalls h <;> rw [hp]
    rw [Function.update_of_ne (hother hcall hne)]
  | info r => trivial

end RecoverBull
