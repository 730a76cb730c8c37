import RecoverBull.Server.Arrivals

/-!
# Steps and calls

Every step of a request is one of its call, and so is what it observes; the other
calls stay where they are.
-/

namespace RecoverBull

variable {F : Type} {P : Primitives} {cfg : Config} {s s' : AppState F} {os log : Log}

/-- The call the event is a step of. -/
def Event.call : Event → Option Call
  | .fetchArrives r _ _ | .fetch r _ => some (.fetch r)
  | .storeArrives r _ | .store r _ => some (.store r)
  | .attemptsArrives r _ | .attempts r _ => some (.attempts r)
  | .info r _ _ => some (.info r)
  | .sweep _ => none

/-- The call the observation is about. -/
def Obs.call : Obs → Option Call
  | .admission r _ | .refunded r | .queried r _ _ _ _ | .finalized r _ | .taskLost r =>
    some (.fetch r)
  | .wrote r _ _ => some (.store r)
  | .response call _ | .cancelled call | .panicked call => some call
  | .retained _ => none

/-- A request for a secret that arrives, with its canonical identifier. -/
def Event.arrival (P : Primitives) : Event → Option (Call × String)
  | .fetchArrives r _ request => some (.fetch r, toLowercase P request.identifier)
  | .storeArrives r request => some (.store r, toLowercase P request.identifier)
  | _ => none

section steps

variable [BucketNumber F]

theorem fetchStep_call {r : ReqId} {q : Lookup} {event : FetchEvent}
    (h : fetchStep cfg s r q event = some (s', os)) : ∀ o ∈ os, o.call = some (.fetch r) := by
  cases event <;>
    simp only [fetchStep, takeLookupToken, enterMap, cancelFetch, dropGuard] at h
  all_goals repeat' split at h
  all_goals cases h
  all_goals simp [Obs.call]

theorem storeStep_call {r : ReqId} {phase : StorePhase} {event : StoreEvent}
    (h : storeStep P s r phase event = some (s', os)) : ∀ o ∈ os, o.call = some (.store r) := by
  cases event <;> simp only [storeStep] at h
  all_goals repeat' split at h
  all_goals cases h
  all_goals simp [Obs.call]

theorem attemptsStep_call {r : ReqId} {phase : AttemptsPhase} {event : AttemptsEvent}
    (h : attemptsStep P cfg s r phase event = some (s', os)) :
    ∀ o ∈ os, o.call = some (.attempts r) ∨ o.call = none := by
  cases event <;>
    simp only [attemptsStep, takeAttemptsToken, lockSnapshot, collectSnapshot, publishSnapshot] at h
  all_goals repeat' split at h
  all_goals cases h
  all_goals simp [Obs.call]

/-- What a step observes is about its own call. -/
theorem step_call {event : Event} (h : step P cfg s event = some (s', os)) :
    ∀ o ∈ os, o.call = event.call ∨ o.call = none := by
  cases event with
  | fetch r event =>
    simp only [step] at h
    split at h
    · exact fun o ho => Or.inl (fetchStep_call h o ho)
    · cases h
  | store r event =>
    simp only [step] at h
    split at h
    · exact fun o ho => Or.inl (storeStep_call h o ho)
    · cases h
  | attempts r event =>
    simp only [step] at h
    split at h
    · exact attemptsStep_call h
    · cases h
  | fetchArrives | storeArrives | attemptsArrives | info | sweep =>
    simp only [step, fetchArrives, storeArrives] at h
    repeat' split at h
    all_goals cases h
    all_goals simp [Obs.call, Event.call]

/-- The lookups move in the steps of their own calls only. -/
theorem step_fetches {event : Event} (h : step P cfg s event = some (s', os)) :
    s'.fetches = s.fetches ∨ ∃ r call, event.call = some (.fetch r) ∧
      s'.fetches = Function.update s.fetches r (some call) := by
  cases event with
  | fetch r event =>
    simp only [step] at h
    split at h
    · obtain ⟨⟨call, hf, -⟩, -⟩ := fetchStep_moves h
      exact Or.inr ⟨r, call, rfl, hf⟩
    · cases h
  | fetchArrives r trash request =>
    simp only [step, fetchArrives] at h
    repeat' split at h
    all_goals cases h
    all_goals exact Or.inr ⟨r, _, rfl, rfl⟩
  | store r event =>
    simp only [step] at h
    split at h
    · exact Or.inl (storeStep_moves h).2.1
    · cases h
  | attempts r event =>
    simp only [step] at h
    split at h
    · exact Or.inl (attemptsStep_moves h).1
    · cases h
  | storeArrives | attemptsArrives | info | sweep =>
    simp only [step, storeArrives] at h
    repeat' split at h
    all_goals cases h
    all_goals exact Or.inl rfl

theorem step_stores {event : Event} (h : step P cfg s event = some (s', os)) :
    s'.stores = s.stores ∨ ∃ r call, event.call = some (.store r) ∧
      s'.stores = Function.update s.stores r (some call) := by
  cases event with
  | store r event =>
    simp only [step] at h
    split at h
    · obtain ⟨⟨call, hst, -⟩, -⟩ := storeStep_moves h
      exact Or.inr ⟨r, call, rfl, hst⟩
    · cases h
  | storeArrives r request =>
    simp only [step, storeArrives] at h
    repeat' split at h
    all_goals cases h
    all_goals exact Or.inr ⟨r, _, rfl, rfl⟩
  | fetch r event =>
    simp only [step] at h
    split at h
    · exact Or.inl (fetchStep_moves h).2.1
    · cases h
  | attempts r event =>
    simp only [step] at h
    split at h
    · exact Or.inl (attemptsStep_moves h).2.1
    · cases h
  | fetchArrives | attemptsArrives | info | sweep =>
    simp only [step, fetchArrives] at h
    repeat' split at h
    all_goals cases h
    all_goals exact Or.inl rfl

/-! ## Arrivals -/

/-- The call has been made, if it is for a secret. -/
def AppState.knows (s : AppState F) : Call → Bool
  | .fetch r => (s.fetches r).isSome
  | .store r => (s.stores r).isSome
  | .attempts _ | .info _ => false

/-- A call that has been made stays known. -/
theorem step_knows {event : Event} (h : step P cfg s event = some (s', os)) {call : Call}
    (hk : s.knows call = true) : s'.knows call = true := by
  cases call with
  | fetch r =>
    show (s'.fetches r).isSome = true
    obtain hf | ⟨r', call, -, hf⟩ := step_fetches h <;> rw [hf]
    · exact hk
    · by_cases hr : r = r'
      · rw [hr, Function.update_self, Option.isSome_some]
      · rw [Function.update_of_ne hr]
        exact hk
  | store r =>
    show (s'.stores r).isSome = true
    obtain hst | ⟨r', call, -, hst⟩ := step_stores h <;> rw [hst]
    · exact hk
    · by_cases hr : r = r'
      · rw [hr, Function.update_self, Option.isSome_some]
      · rw [Function.update_of_ne hr]
        exact hk
  | attempts r | info r => cases hk

/-- A call that arrives is new, and known from then on. -/
theorem step_arrival {event : Event} (h : step P cfg s event = some (s', os)) {call : Call}
    {identifier : String} (ha : event.arrival P = some (call, identifier)) :
    s.knows call = false ∧ s'.knows call = true := by
  cases event with
  | fetchArrives r trash request =>
    cases ha
    simp only [step, fetchArrives] at h
    split at h
    · cases h
    · next hfree =>
      refine ⟨Bool.eq_false_iff.mpr hfree, ?_⟩
      repeat' split at h
      all_goals cases h
      all_goals simp [AppState.knows]
  | storeArrives r request =>
    cases ha
    simp only [step, storeArrives] at h
    split at h
    · cases h
    · next hfree =>
      refine ⟨Bool.eq_false_iff.mpr hfree, ?_⟩
      split at h <;> cases h
      all_goals simp [AppState.knows]
  | fetch | store | attemptsArrives | attempts | info | sweep => cases ha

/-- No call arrives twice in a run. -/
theorem arrivals_nodup {secrets : SecretTable} {b₁ b₂ b₃ : TokenBucket F} {es : List Event}
    (hr : run P cfg (.init secrets b₁ b₂ b₃) es = some (s, log)) :
    ((es.filterMap (Event.arrival P)).map Prod.fst).Nodup := by
  have hall : ((es.filterMap (Event.arrival P)).map Prod.fst).Nodup ∧
      ∀ call ∈ (es.filterMap (Event.arrival P)).map Prod.fst, s.knows call = true := by
    refine @Machine.run_history (AppState F) Event Obs (step P cfg) (fun es _ s =>
      ((es.filterMap (Event.arrival P)).map Prod.fst).Nodup ∧
        ∀ call ∈ (es.filterMap (Event.arrival P)).map Prod.fst, s.knows call = true) _
      ⟨List.nodup_nil, fun _ hm => absurd hm List.not_mem_nil⟩ ?_ s es log hr
    intro es log s event t os _ hi he
    obtain ⟨hnodup, hknown⟩ := hi
    rw [List.filterMap_append, List.map_append]
    cases ha : event.arrival P with
    | none =>
      simp only [List.filterMap_cons, ha, List.filterMap_nil, List.map_nil, List.append_nil]
      exact ⟨hnodup, fun call hm => step_knows he (hknown call hm)⟩
    | some arrival =>
      obtain ⟨call, identifier⟩ := arrival
      obtain ⟨hnew, hknows⟩ := step_arrival he ha
      simp only [List.filterMap_cons, ha, List.filterMap_nil, List.map_cons, List.map_nil]
      constructor
      · refine List.nodup_append.mpr ⟨hnodup, List.nodup_singleton call, ?_⟩
        rintro call' hm _ hm' rfl
        obtain rfl := List.mem_singleton.mp hm'
        rw [hknown _ hm] at hnew
        cases hnew
      · intro call' hm
        obtain hm | hm := List.mem_append.mp hm
        · exact step_knows he (hknown call' hm)
        · rw [List.mem_singleton.mp hm]
          exact hknows
  exact hall.1

end steps

end RecoverBull
