import RecoverBull.Server.Calls

/-!
# The trace of one store

The words a run observes of a single `/store` request, and that a run produces
no others.
-/

namespace RecoverBull

variable {F : Type}

/-- The observations about the store request `r`. -/
def Obs.isOfStore (r : ReqId) : Obs → Bool
  | .wrote r' _ _ | .response (.store r') _ => r' == r
  | _ => false

/-- The observations about the store `r`, newest first. -/
def storeTrace (r : ReqId) (log : Log) : Log := log.filter (Obs.isOfStore r)

theorem storeTrace_append (r : ReqId) (os log : Log) :
    storeTrace r (os ++ log) = storeTrace r os ++ storeTrace r log :=
  List.filter_append _ _

theorem mem_storeTrace {r : ReqId} {log : Log} {o : Obs} :
    o ∈ storeTrace r log ↔ o ∈ log ∧ o.isOfStore r = true :=
  List.mem_filter

theorem storeTrace_eq_nil {r : ReqId} {os : Log} (h : ∀ o ∈ os, o.isOfStore r = false) :
    storeTrace r os = [] := by
  rw [storeTrace, List.filter_eq_nil_iff]
  intro o ho
  rw [h o ho]
  exact Bool.false_ne_true

theorem storeTrace_eq_self {r : ReqId} {os : Log} (h : ∀ o ∈ os, o.isOfStore r = true) :
    storeTrace r os = os :=
  List.filter_eq_self.mpr h

/-- What the closure of a store returns: whether the row is stored, nothing after
a panic. -/
def DbOutcome.isStored : DbOutcome → Option Bool
  | .panics => none
  | .fails => some false
  | .runs => some true

theorem runWrite_fst (table : SecretTable) (key : Secret) (outcome : DbOutcome) :
    (runWrite table key outcome).1 = outcome.isStored := by
  cases outcome <;> rfl

/-- A store is answered 201 exactly when its write ran. -/
theorem storeResponse_created_iff {outcome : DbOutcome} :
    (storeResponse outcome.isStored).status = .created ↔ outcome = .runs := by
  cases outcome <;> decide

/-- The words of the store `r`, by where its call stands. -/
inductive StoreTrace (r : ReqId) : Option StoreCall → Log → Prop
  | absent : StoreTrace r none []
  | waiting (phase : StorePhase) (h : phase.payload.isSome = true) :
    StoreTrace r (some (.active phase)) []
  | written (client : Bool) (key : Secret) (outcome : DbOutcome) :
    StoreTrace r (some (.active (.written client outcome.isStored))) [.wrote r key outcome]
  | left : StoreTrace r (some .over) []
  | refused (response : Response)
      (h : response.status = .badRequest ∨ response.status = .serviceUnavailable) :
    StoreTrace r (some .over) [.response (.store r) response]
  | answered (key : Secret) (outcome : DbOutcome) :
    StoreTrace r (some .over)
      [.response (.store r) (storeResponse outcome.isStored), .wrote r key outcome]

/-- What a step means for the words: at most the store `r` moves, and it reads on
with its own word. -/
def ExtendsStoreTrace (s s' : AppState F) (os log : Log) : Prop :=
  s'.stores = s.stores ∧ (∀ r, storeTrace r os = []) ∨
    ∃ r call, s'.stores = Function.update s.stores r (some call) ∧
      (∀ r', r' ≠ r → storeTrace r' os = []) ∧ StoreTrace r (some call) (storeTrace r (os ++ log))

theorem ExtendsStoreTrace.storeTrace {s s' : AppState F} {os log : Log}
    (h : ExtendsStoreTrace s s' os log)
    (hs : ∀ r, StoreTrace r (s.stores r) (RecoverBull.storeTrace r log)) (r : ReqId) :
    StoreTrace r (s'.stores r) (RecoverBull.storeTrace r (os ++ log)) := by
  have hkeep : s'.stores r = s.stores r → RecoverBull.storeTrace r os = [] →
      StoreTrace r (s'.stores r) (RecoverBull.storeTrace r (os ++ log)) := by
    intro hst hos
    rw [hst, storeTrace_append, hos, List.nil_append]
    exact hs r
  obtain ⟨hst, hos⟩ | ⟨r', call, hst, hos, hc⟩ := h
  · exact hkeep (by rw [hst]) (hos r)
  · by_cases hr : r = r'
    · subst hr
      rw [hst, Function.update_self]
      exact hc
    · exact hkeep (by rw [hst, Function.update_of_ne hr]) (hos r hr)

theorem Obs.call_of_isOfStore {r : ReqId} {o : Obs} (h : o.isOfStore r = true) :
    o.call = some (.store r) := by
  unfold Obs.isOfStore at h
  split at h
  all_goals first
    | cases h
    | rw [beq_iff_eq] at h
      rw [Obs.call, h]

/-- A step of another call observes nothing about a store. -/
theorem ExtendsStoreTrace.of_elsewhere [BucketNumber F] {P : Primitives} {cfg : Config}
    {s s' : AppState F} {event : Event} {os log : Log} (h : step P cfg s event = some (s', os))
    (hcall : ∀ r, event.call ≠ some (.store r)) : ExtendsStoreTrace s s' os log := by
  obtain hst | ⟨r, _, hr, _⟩ := step_stores h
  · refine .inl ⟨hst, fun r => storeTrace_eq_nil fun o ho => Bool.eq_false_iff.mpr fun hof => ?_⟩
    have hc := Obs.call_of_isOfStore hof
    obtain hsame | hnone := step_call h o ho
    · exact hcall r (hsame.symm.trans hc)
    · rw [hnone] at hc
      cases hc
  · exact absurd hr (hcall r)

/-- A step that moves the store `r`, with the word it reads on. -/
theorem ExtendsStoreTrace.of_update {s s' : AppState F} {os log : Log} {r : ReqId}
    {call : StoreCall} {word : Log} (added : Log)
    (hst : s'.stores = Function.update s.stores r (some call))
    (hos : ∀ o ∈ os, ∀ r', o.isOfStore r' = (r == r') ∨ o.isOfStore r' = false)
    (hadded : RecoverBull.storeTrace r os = added) (hw : RecoverBull.storeTrace r log = word)
    (hc : StoreTrace r (some call) (added ++ word)) : ExtendsStoreTrace s s' os log := by
  refine .inr ⟨r, call, hst, fun r' hr => storeTrace_eq_nil fun o ho => ?_, ?_⟩
  · obtain he | he := hos o ho r'
    · rw [he, beq_eq_false_iff_ne]
      exact Ne.symm hr
    · exact he
  · rw [storeTrace_append, hadded, hw]
    exact hc

theorem storeArrives_trace {P : Primitives} {cfg : Config} {s s' : AppState F} {r : ReqId}
    {request : StoreSecret} {os log : Log}
    (hs : StoreTrace r (s.stores r) (storeTrace r log))
    (h : storeArrives P cfg s r request = some (s', os)) : ExtendsStoreTrace s s' os log := by
  unfold storeArrives at h
  split at h
  · cases h
  · next hfree =>
    rw [Option.not_isSome_iff_eq_none.mp hfree] at hs
    generalize hw : storeTrace r log = word at hs
    cases hs
    split at h
    · next response hcheck =>
      have hbad : response.status = .badRequest := by
        unfold checkStore at hcheck
        dsimp only at hcheck
        split_ifs at hcheck
        all_goals cases hcheck
        all_goals rfl
      cases h
      exact .of_update _ rfl (by simp [Obs.isOfStore]) (storeTrace_eq_self (by simp [Obs.isOfStore]))
        hw (.refused response (Or.inl hbad))
    · cases h
      exact .of_update [] rfl (by simp) rfl hw (.waiting _ rfl)

theorem storeStep_trace [BucketNumber F] {P : Primitives} {s s' : AppState F} {r : ReqId}
    {phase : StorePhase} {event : StoreEvent} {os log : Log}
    (hs : StoreTrace r (some (.active phase)) (storeTrace r log))
    (h : storeStep P s r phase event = some (s', os)) : ExtendsStoreTrace s s' os log := by
  generalize hw : storeTrace r log = word at hs
  -- A store that waits has left no word yet.
  have hnil : phase.payload.isSome = true → storeTrace r log = [] := by
    intro hpay
    cases hs with
    | waiting => exact hw
    | written => cases hpay
  have hwaits : ∀ phase', phase.payload.isSome = true → phase'.payload.isSome = true →
      (s.setStore r (.active phase')).stores = s'.stores → storeTrace r os = [] →
      (∀ o ∈ os, ∀ r', o.isOfStore r' = false) → ExtendsStoreTrace s s' os log :=
    fun phase' hpay hpay' hst hos hothers =>
      .of_update [] hst.symm (fun o ho r' => Or.inr (hothers o ho r')) hos (hnil hpay)
        (.waiting phase' hpay')
  have hrefused : ∀ response, phase.payload.isSome = true →
      response.status = .serviceUnavailable → (s.setStore r .over).stores = s'.stores →
      os = [.response (.store r) response] → ExtendsStoreTrace s s' os log := by
    rintro response hpay hstatus hst rfl
    exact .of_update _ hst.symm (by simp [Obs.isOfStore])
      (storeTrace_eq_self (by simp [Obs.isOfStore])) (hnil hpay) (.refused response (Or.inr hstatus))
  cases event with
  | takeToken now =>
    simp only [storeStep] at h
    split at h
    · split at h <;> cases h
      · exact hwaits _ rfl rfl rfl rfl (by simp)
      · exact hrefused _ rfl rfl rfl rfl
    · cases h
  | readClock now =>
    simp only [storeStep] at h
    split at h <;> cases h
    exact hwaits _ rfl rfl rfl rfl (by simp)
  | permit granted =>
    simp only [storeStep] at h
    split at h
    · split at h <;> cases h
      · exact hwaits _ rfl rfl rfl rfl (by simp)
      · exact hrefused _ rfl rfl rfl rfl
    · cases h
  | write outcome =>
    simp only [storeStep] at h
    split at h <;> cases h
    next key client =>
    rw [runWrite_fst]
    exact .of_update _ rfl (by simp [Obs.isOfStore]) (storeTrace_eq_self (by simp [Obs.isOfStore]))
      (hnil rfl) (.written client key outcome)
  | respond =>
    simp only [storeStep] at h
    split at h
    · next isStored =>
      cases hs with
      | waiting _ hpay => cases hpay
      | written _ key outcome =>
        cases h
        exact .of_update _ rfl (by simp [Obs.isOfStore])
          (storeTrace_eq_self (by simp [Obs.isOfStore])) hw (.answered key outcome)
    · cases h
  | cancel =>
    have hcancelled : ∀ o ∈ [Obs.cancelled (.store r)], ∀ r', o.isOfStore r' = false := by
      simp [Obs.isOfStore]
    simp only [storeStep] at h
    split at h
    · cases h
      exact .of_update [] rfl (fun o ho r' => Or.inr (hcancelled o ho r')) rfl (hnil rfl) .left
    · cases h
      exact .of_update [] rfl (fun o ho r' => Or.inr (hcancelled o ho r')) rfl (hnil rfl) .left
    · cases h
      exact hwaits _ rfl rfl rfl rfl hcancelled
    · next isStored =>
      cases hs with
      | waiting _ hpay => cases hpay
      | written _ key outcome =>
        cases h
        exact .of_update [] rfl (fun o ho r' => Or.inr (hcancelled o ho r')) rfl hw
          (.written false key outcome)
    · cases h

/-! ## Every run -/

theorem step_extendsStoreTrace [BucketNumber F] {P : Primitives} {cfg : Config}
    {s s' : AppState F} {event : Event} {os log : Log}
    (hs : ∀ r, StoreTrace r (s.stores r) (storeTrace r log))
    (h : step P cfg s event = some (s', os)) : ExtendsStoreTrace s s' os log := by
  cases event with
  | storeArrives r request => exact storeArrives_trace (hs r) h
  | store r event =>
    simp only [step] at h
    split at h
    · next phase hp => exact storeStep_trace (hp ▸ hs r) h
    · cases h
  | fetchArrives | fetch | attemptsArrives | attempts | info | sweep =>
    exact .of_elsewhere h (by simp [Event.call])

/-- Along every run, what is observed of a store is one of the words. -/
theorem Served.storeTrace [BucketNumber F] {P : Primitives} {cfg : Config} {s : AppState F}
    {log : Log} (h : Served P cfg log s) (r : ReqId) :
    StoreTrace r (s.stores r) (RecoverBull.storeTrace r log) := by
  have hall : ∀ r, StoreTrace r (s.stores r) (RecoverBull.storeTrace r log) :=
    h.invariant (fun log s => ∀ r, StoreTrace r (s.stores r) (RecoverBull.storeTrace r log))
      (fun _ _ _ _ _ => .absent) fun log s event s' os _ hs he =>
        (step_extendsStoreTrace hs he).storeTrace hs
  exact hall r

end RecoverBull
