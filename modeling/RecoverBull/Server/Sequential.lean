import RecoverBull.Server.Contract

/-!
# A request on its own

What becomes of a request while nothing else happens: the steps that it takes, its client
staying, until it is over, and the replies it is given. The handlers of the source are
compared with these runs, branch by branch.
-/

namespace RecoverBull

variable {F : Type} [BucketNumber F] {P : Primitives} {cfg : Config} {s t : AppState F}
  {replies : List Response}

/-- No client goes away. -/
def Event.stays : Event → Bool
  | .fetch _ (.cancel _) | .store _ .cancel | .attempts _ .cancel => false
  | _ => true

/-- A step of the call in which its client stays. -/
def Own (call : Call) (e : Event) : Prop := e.owner = some call ∧ e.stays = true

def Over (call : Call) (s : AppState F) : Prop := s.standing call = .over

/-- The call takes its steps, its client staying, until it is over, and is answered with
`replies`. -/
def Solo (P : Primitives) (cfg : Config) (call : Call) (s t : AppState F)
    (replies : List Response) : Prop :=
  ∃ log, Machine.Completes (step P cfg) (Own call) (Over call) s t log ∧ replies = answers call log

/-- A request arrives and is dealt with while nothing else happens. -/
def Handled (P : Primitives) (cfg : Config) (arrival : Event) (call : Call) (s t : AppState F)
    (replies : List Response) : Prop :=
  ∃ u os replies', step P cfg s arrival = some (u, os) ∧ Solo P cfg call u t replies' ∧
    replies = replies' ++ answers call os

theorem solo_iff {call : Call} (hs : ¬Over call s) :
    Solo P cfg call s t replies ↔ ∃ e u os replies', Own call e ∧
      step P cfg s e = some (u, os) ∧ Solo P cfg call u t replies' ∧
      replies = replies' ++ answers call os := by
  constructor
  · rintro ⟨log, hc, rfl⟩
    obtain ⟨e, u, os, log', hown, he, hrest, rfl⟩ := (Machine.completes_iff hs).mp hc
    exact ⟨e, u, os, answers call log', hown, he, ⟨log', hrest, rfl⟩, answers_append call log' os⟩
  · rintro ⟨e, u, os, replies', hown, he, ⟨log', hrest, rfl⟩, rfl⟩
    exact ⟨log' ++ os, (Machine.completes_iff hs).mpr ⟨e, u, os, log', hown, he, hrest, rfl⟩,
      (answers_append call log' os).symm⟩

/-- A call that is over has no step left. -/
theorem step_of_over {call : Call} (hs : Over call s) {e : Event}
    (ho : e.owner = some call) : step P cfg s e = none := by
  cases e with
  | fetch r event =>
    cases ho
    rw [Over, AppState.standing] at hs
    rw [step]
    rcases hf : s.fetches r with _ | q | _
    · rfl
    · rw [hf] at hs
      rcases q with ⟨trash, id, c, phase⟩
      cases phase <;> simp [FetchCall.standing, FetchPhase.standing] at hs
      split at hs <;> cases hs
    · rfl
  | store r event =>
    cases ho
    rw [Over, AppState.standing] at hs
    rw [step]
    rcases hst : s.stores r with _ | phase | _
    · rfl
    · rw [hst] at hs
      cases phase <;> simp [StoreCall.standing, StorePhase.standing] at hs
      all_goals split at hs <;> cases hs
    · rfl
  | attempts r event =>
    cases ho
    rw [Over, AppState.standing] at hs
    rw [step]
    rcases hp : s.polls r with _ | phase | _
    · rfl
    · rw [hp] at hs
      cases phase <;> simp [AttemptsCall.standing, AttemptsPhase.standing] at hs
    · rfl
  | fetchArrives | storeArrives | attemptsArrives | info | sweep => cases ho

theorem solo_of_over {call : Call} (hs : Over call s) :
    Solo P cfg call s t replies ↔ t = s ∧ replies = [] := by
  constructor
  · rintro ⟨log, hc, rfl⟩
    obtain ⟨rfl, rfl⟩ :=
      (Machine.completes_of_done hs fun e he => step_of_over hs he.1).mp hc
    exact ⟨rfl, rfl⟩
  · rintro ⟨rfl, rfl⟩
    exact ⟨[], (Machine.completes_of_done hs fun e he => step_of_over hs he.1).mpr ⟨rfl, rfl⟩, rfl⟩

/-- A call that is over when a step left `replies'` is answered with these. -/
theorem solo_ends {call : Call} {replies' : List Response} (hs : Over call s) :
    (∃ older, Solo P cfg call s t older ∧ replies = older ++ replies') ↔ t = s ∧ replies = replies' := by
  constructor
  · rintro ⟨older, hsolo, rfl⟩
    obtain ⟨rfl, rfl⟩ := (solo_of_over hs).mp hsolo
    exact ⟨rfl, rfl⟩
  · rintro ⟨rfl, rfl⟩
    exact ⟨[], (solo_of_over hs).mpr ⟨rfl, rfl⟩, rfl⟩

/-- A step that answers nothing leaves the replies to the rest. -/
theorem solo_goes {call : Call} :
    (∃ older, Solo P cfg call s t older ∧ replies = older ++ []) ↔ Solo P cfg call s t replies := by
  simp only [List.append_nil, exists_eq_right']

/-- The steps that a call in flight may take while its client stays, under the names that its
handler has for them. -/
structure Turns (P : Primitives) (cfg : Config) (call : Call) (s : AppState F) {E : Type}
    (stays : E → Prop) (turn : E → Option (AppState F × Log)) : Prop where
  waits : ¬Over call s
  step_iff : ∀ {u : AppState F} {os : Log},
    (∃ e, Own call e ∧ step P cfg s e = some (u, os)) ↔ ∃ x, stays x ∧ turn x = some (u, os)

section turns

variable {call : Call} {E : Type} {stays : E → Prop} {turn : E → Option (AppState F × Log)}

theorem solo_turns (h : Turns P cfg call s stays turn) :
    Solo P cfg call s t replies ↔ ∃ x u os older, stays x ∧ turn x = some (u, os) ∧
      Solo P cfg call u t older ∧ replies = older ++ answers call os := by
  rw [solo_iff h.waits]
  constructor
  · rintro ⟨e, u, os, older, ho, he, hrest⟩
    obtain ⟨x, hx, hturn⟩ := h.step_iff.mp ⟨e, ho, he⟩
    exact ⟨x, u, os, older, hx, hturn, hrest⟩
  · rintro ⟨x, u, os, older, hx, hturn, hrest⟩
    obtain ⟨e, ho, he⟩ := h.step_iff.mpr ⟨x, hx, hturn⟩
    exact ⟨e, u, os, older, ho, he, hrest⟩

/-- A call that has one step to take. -/
theorem solo_only (h : Turns P cfg call s stays turn) {u : AppState F} {os : Log} (x : E)
    (hx : stays x) (hturn : turn x = some (u, os))
    (honly : ∀ y, stays y → y ≠ x → turn y = none) :
    Solo P cfg call s t replies ↔
      ∃ older, Solo P cfg call u t older ∧ replies = older ++ answers call os := by
  rw [solo_turns h]
  constructor
  · rintro ⟨y, u', os', older, hy, he, hrest⟩
    by_cases hne : y = x
    · subst hne
      cases hturn.symm.trans he
      exact ⟨older, hrest⟩
    · rw [honly y hy hne] at he
      cases he
  · rintro ⟨older, hrest⟩
    exact ⟨x, u, os, older, hx, hturn, hrest⟩

/-- A call whose one step is its last. -/
theorem solo_last (h : Turns P cfg call s stays turn) {u : AppState F} {response : Response}
    (os : Log) (x : E) (hx : stays x) (hturn : turn x = some (u, .response call response :: os))
    (hu : Over call u) (hos : answers call os = []) (honly : ∀ y, stays y → y ≠ x → turn y = none) :
    Solo P cfg call s t replies ↔ t = u ∧ replies = [response] := by
  rw [solo_only h x hx hturn honly, answers_singleton hos]
  exact solo_ends hu

end turns

theorem handled_iff {arrival : Event} {call : Call} {u : AppState F} {os : Log}
    (h : step P cfg s arrival = some (u, os)) :
    Handled P cfg arrival call s t replies ↔
      ∃ older, Solo P cfg call u t older ∧ replies = older ++ answers call os := by
  constructor
  · rintro ⟨u', os', older, he, hrest⟩
    cases h.symm.trans he
    exact ⟨older, hrest⟩
  · rintro ⟨older, hrest⟩
    exact ⟨u, os, older, h, hrest⟩

end RecoverBull
