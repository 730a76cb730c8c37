import RecoverBull.Server.Step

/-!
# What requests arrive with

The lookups and stores in flight, and the database steps in the log, are for the
identifier and the key their requests arrived with.
-/

namespace RecoverBull

variable {F : Type} {P : Primitives} {cfg : Config} {s s' : AppState F} {os log : Log}

/-- A `/fetch` or `/trash` request of the schedule, with its canonical pair. -/
def LookupArrived (P : Primitives) (events : List Event) (r : ReqId) (isTrashingSecret : Bool)
    (identifier authenticationKey : String) : Prop :=
  ∃ request, .fetchArrives r isTrashingSecret request ∈ events ∧
    checkFetch P request = .ok (identifier, authenticationKey)

/-- A `/store` request of the schedule, with its canonical pair and its payload. -/
def StoreArrived (P : Primitives) (cfg : Config) (events : List Event) (r : ReqId)
    (identifier authenticationKey encryptedSecret : String) : Prop :=
  ∃ request, .storeArrives r request ∈ events ∧
    checkStore P cfg request = .ok (identifier, authenticationKey) ∧
    request.encryptedSecret = encryptedSecret

/-- The id and the payload a store is going to write. -/
def StorePhase.payload : StorePhase → Option (String × String)
  | .bucket secretId encryptedSecret | .clock secretId encryptedSecret =>
    some (secretId, encryptedSecret)
  | .permit key | .writing key _ => some (key.id, key.encryptedSecret)
  | .written _ _ => none

/-- Everything in flight and in the log goes back to an arrival. -/
structure Arrived (P : Primitives) (cfg : Config) (events : List Event) (log : Log)
    (s : AppState F) : Prop where
  fetch : ∀ r q, s.fetches r = some (.active q) → ∃ identifier key,
    LookupArrived P events r q.isTrashingSecret identifier key ∧
      identifierHash P identifier = some q.idHash ∧ q.candidate = generateSecretId P identifier key
  store : ∀ r phase secretId encryptedSecret, s.stores r = some (.active phase) →
    phase.payload = some (secretId, encryptedSecret) → ∃ identifier key,
      StoreArrived P cfg events r identifier key encryptedSecret ∧
        secretId = generateSecretId P identifier key
  queried : ∀ r trash candidate outcome result, .queried r trash candidate outcome result ∈ log →
    ∃ identifier key, LookupArrived P events r trash identifier key ∧
      candidate = generateSecretId P identifier key
  wrote : ∀ r row outcome, .wrote r row outcome ∈ log → ∃ identifier key,
    StoreArrived P cfg events r identifier key row.encryptedSecret ∧
      row.id = generateSecretId P identifier key

theorem LookupArrived.mono {events events' : List Event} {r : ReqId} {trash : Bool} {i k : String}
    (h : LookupArrived P events r trash i k) : LookupArrived P (events ++ events') r trash i k :=
  h.imp fun _ => And.imp_left (List.mem_append_left _)

theorem StoreArrived.mono {events events' : List Event} {r : ReqId} {i k e : String}
    (h : StoreArrived P cfg events r i k e) : StoreArrived P cfg (events ++ events') r i k e :=
  h.imp fun _ => And.imp_left (List.mem_append_left _)

theorem Arrived.mono {events : List Event} (h : Arrived P cfg events log s) (events' : List Event) :
    Arrived P cfg (events ++ events') log s where
  fetch r q hq := by
    obtain ⟨i, k, ha, hq⟩ := h.fetch r q hq
    exact ⟨i, k, ha.mono, hq⟩
  store r phase id e hp hpay := by
    obtain ⟨i, k, ha, hid⟩ := h.store r phase id e hp hpay
    exact ⟨i, k, ha.mono, hid⟩
  queried r trash c outcome result hm := by
    obtain ⟨i, k, ha, hc⟩ := h.queried r trash c outcome result hm
    exact ⟨i, k, ha.mono, hc⟩
  wrote r row outcome hm := by
    obtain ⟨i, k, ha, hid⟩ := h.wrote r row outcome hm
    exact ⟨i, k, ha.mono, hid⟩

/-- A step that leaves the lookups and the stores alone. -/
theorem Arrived.of_same {events : List Event} (h : Arrived P cfg events log s)
    (hf : s'.fetches = s.fetches) (hst : s'.stores = s.stores)
    (hw : ∀ r row outcome, .wrote r row outcome ∉ os)
    (hq : ∀ r trash candidate outcome result, .queried r trash candidate outcome result ∉ os) :
    Arrived P cfg events (os ++ log) s' where
  fetch r q hq' := h.fetch r q (hf ▸ hq')
  store r phase id e hp hpay := h.store r phase id e (hst ▸ hp) hpay
  queried r trash c outcome result hm :=
    h.queried r trash c outcome result ((List.mem_append.mp hm).resolve_left (hq _ _ _ _ _))
  wrote r row outcome hm :=
    h.wrote r row outcome ((List.mem_append.mp hm).resolve_left (hw _ _ _))

theorem fetchArrives_arrived {events : List Event} {r : ReqId} {trash : Bool}
    {request : FetchSecret} (h : Arrived P cfg events log s)
    (harrives : .fetchArrives r trash request ∈ events)
    (hs : fetchArrives P s r trash request = some (s', os)) :
    Arrived P cfg events (os ++ log) s' := by
  have main : ∀ (call : FetchCall) (os : Log),
      (∀ o ∈ os, (∃ response, o = .response (.fetch r) response) ∨ o = .panicked (.fetch r)) →
      (∀ q, call = .active q → q.isTrashingSecret = trash ∧ ∃ i k, checkFetch P request = .ok (i, k) ∧
        identifierHash P i = some q.idHash ∧ q.candidate = generateSecretId P i k) →
      Arrived P cfg events (os ++ log) (s.setFetch r call) := by
    intro call os hos hcall
    have hsame : Arrived P cfg events (os ++ log) s := by
      refine h.of_same rfl rfl (fun r' row outcome hm => ?_) fun r' t c outcome result hm => ?_
      · obtain ⟨_, he⟩ | he := hos _ hm <;> cases he
      · obtain ⟨_, he⟩ | he := hos _ hm <;> cases he
    refine ⟨fun r' q hq => ?_, hsame.store, hsame.queried, hsame.wrote⟩
    by_cases hr : r' = r
    · subst hr
      rw [AppState.fetches_setFetch, Function.update_self, Option.some.injEq] at hq
      obtain ⟨rfl, i, k, hc, hid, hcand⟩ := hcall q hq
      exact ⟨i, k, ⟨request, harrives, hc⟩, hid, hcand⟩
    · rw [AppState.fetches_setFetch, Function.update_of_ne hr] at hq
      exact hsame.fetch r' q hq
  unfold fetchArrives at hs
  split at hs
  · cases hs
  · split at hs
    · cases hs
      exact main _ _ (by simp) (by simp)
    · next i k hc =>
      split at hs <;> cases hs
      · exact main _ _ (by simp) (by simp)
      · next idHash hid =>
        refine main _ [] (by simp) ?_
        rintro q ⟨⟩
        exact ⟨rfl, i, k, hc, hid, rfl⟩

theorem storeArrives_arrived {events : List Event} {r : ReqId} {request : StoreSecret}
    (h : Arrived P cfg events log s) (harrives : .storeArrives r request ∈ events)
    (hs : storeArrives P cfg s r request = some (s', os)) :
    Arrived P cfg events (os ++ log) s' := by
  have main : ∀ (call : StoreCall) (os : Log), (∀ o ∈ os, ∃ response, o = .response (.store r) response) →
      (∀ phase id e, call = .active phase → phase.payload = some (id, e) →
        request.encryptedSecret = e ∧ ∃ i k, checkStore P cfg request = .ok (i, k) ∧
          id = generateSecretId P i k) →
      Arrived P cfg events (os ++ log) (s.setStore r call) := by
    intro call os hos hcall
    have hsame : Arrived P cfg events (os ++ log) s := by
      refine h.of_same rfl rfl (fun r' row outcome hm => ?_) fun r' t c outcome result hm => ?_
      · obtain ⟨_, he⟩ := hos _ hm
        cases he
      · obtain ⟨_, he⟩ := hos _ hm
        cases he
    refine ⟨hsame.fetch, fun r' phase id e hp hpay => ?_, hsame.queried, hsame.wrote⟩
    by_cases hr : r' = r
    · subst hr
      rw [AppState.stores_setStore, Function.update_self, Option.some.injEq] at hp
      obtain ⟨he, i, k, hc, hid⟩ := hcall phase id e hp hpay
      exact ⟨i, k, ⟨request, harrives, hc, he⟩, hid⟩
    · rw [AppState.stores_setStore, Function.update_of_ne hr] at hp
      exact hsame.store r' phase id e hp hpay
  unfold storeArrives at hs
  split at hs
  · cases hs
  · split at hs <;> cases hs
    · exact main _ _ (by simp) (by simp)
    · next i k hc =>
      refine main _ [] (by simp) ?_
      rintro phase id e ⟨⟩ ⟨⟩
      exact ⟨rfl, i, k, hc, rfl⟩

section steps

variable [BucketNumber F]

/-- A step of a lookup moves its phase, and queries for its own candidate. -/
theorem fetchStep_moves {r : ReqId} {q : Lookup} {event : FetchEvent}
    (h : fetchStep cfg s r q event = some (s', os)) :
    (∃ call, s'.fetches = Function.update s.fetches r (some call) ∧
      ∀ q', call = .active q' → ∃ phase, q' = { q with phase := phase }) ∧
      s'.stores = s.stores ∧
      (∀ r' row outcome, .wrote r' row outcome ∉ os) ∧
      ∀ r' trash candidate outcome result, .queried r' trash candidate outcome result ∈ os →
        r' = r ∧ trash = q.isTrashingSecret ∧ candidate = q.candidate := by
  cases event <;>
    simp only [fetchStep, takeLookupToken, enterMap, cancelFetch, dropGuard] at h
  all_goals repeat' split at h
  all_goals cases h
  all_goals refine ⟨⟨_, rfl, ?_⟩, rfl, by simp, by simp +contextual⟩
  all_goals rintro q' ⟨⟩
  all_goals exact ⟨_, rfl⟩

/-- A step of a store keeps its payload, and writes it. -/
theorem storeStep_moves {r : ReqId} {phase : StorePhase} {event : StoreEvent}
    (h : storeStep P s r phase event = some (s', os)) :
    (∃ call, s'.stores = Function.update s.stores r (some call) ∧
      ∀ phase' payload, call = .active phase' → phase'.payload = some payload →
        phase.payload = some payload) ∧
      s'.fetches = s.fetches ∧
      (∀ r' trash candidate outcome result, .queried r' trash candidate outcome result ∉ os) ∧
      ∀ r' row outcome, .wrote r' row outcome ∈ os →
        r' = r ∧ phase.payload = some (row.id, row.encryptedSecret) := by
  cases event <;> simp only [storeStep] at h
  all_goals repeat' split at h
  all_goals cases h
  all_goals refine ⟨⟨_, rfl, ?_⟩, rfl, by simp, by simp +contextual [StorePhase.payload]⟩
  all_goals rintro phase' payload ⟨⟩
  all_goals first | exact id | (rintro ⟨⟩)

theorem attemptsStep_moves {r : ReqId} {phase : AttemptsPhase} {event : AttemptsEvent}
    (h : attemptsStep P cfg s r phase event = some (s', os)) :
    s'.fetches = s.fetches ∧ s'.stores = s.stores ∧
      (∀ r' row outcome, .wrote r' row outcome ∉ os) ∧
      ∀ r' trash candidate outcome result, .queried r' trash candidate outcome result ∉ os := by
  cases event <;>
    simp only [attemptsStep, takeAttemptsToken, lockSnapshot, collectSnapshot, publishSnapshot] at h
  all_goals repeat' split at h
  all_goals cases h
  all_goals exact ⟨rfl, rfl, by simp, by simp⟩

theorem fetchStep_arrived {events : List Event} {r : ReqId} {q : Lookup} {event : FetchEvent}
    (h : Arrived P cfg events log s) (hq : s.fetches r = some (.active q))
    (hs : fetchStep cfg s r q event = some (s', os)) : Arrived P cfg events (os ++ log) s' := by
  obtain ⟨⟨call, hf, hcall⟩, hst, hw, hquery⟩ := fetchStep_moves hs
  refine ⟨fun r' q' hq' => ?_, fun r' phase id e hp => h.store r' phase id e (hst ▸ hp),
    fun r' trash c outcome result hm => ?_,
    fun r' row outcome hm => h.wrote r' row outcome ((List.mem_append.mp hm).resolve_left (hw _ _ _))⟩
  · by_cases hr : r' = r
    · subst hr
      rw [hf, Function.update_self, Option.some.injEq] at hq'
      obtain ⟨phase, rfl⟩ := hcall q' hq'
      exact h.fetch r' q hq
    · rw [hf, Function.update_of_ne hr] at hq'
      exact h.fetch r' q' hq'
  · obtain hm | hm := List.mem_append.mp hm
    · obtain ⟨rfl, rfl, rfl⟩ := hquery _ _ _ _ _ hm
      obtain ⟨i, k, ha, _, hc⟩ := h.fetch r' q hq
      exact ⟨i, k, ha, hc⟩
    · exact h.queried r' trash c outcome result hm

theorem storeStep_arrived {events : List Event} {r : ReqId} {phase : StorePhase}
    {event : StoreEvent} (h : Arrived P cfg events log s) (hp : s.stores r = some (.active phase))
    (hs : storeStep P s r phase event = some (s', os)) : Arrived P cfg events (os ++ log) s' := by
  obtain ⟨⟨call, hst, hcall⟩, hf, hquery, hw⟩ := storeStep_moves hs
  refine ⟨fun r' q' hq' => h.fetch r' q' (hf ▸ hq'), fun r' phase' id e hp' hpay => ?_,
    fun r' trash c outcome result hm =>
      h.queried r' trash c outcome result ((List.mem_append.mp hm).resolve_left (hquery _ _ _ _ _)),
    fun r' row outcome hm => ?_⟩
  · by_cases hr : r' = r
    · subst hr
      rw [hst, Function.update_self, Option.some.injEq] at hp'
      exact h.store r' phase id e hp (hcall phase' _ hp' hpay)
    · rw [hst, Function.update_of_ne hr] at hp'
      exact h.store r' phase' id e hp' hpay
  · obtain hm | hm := List.mem_append.mp hm
    · obtain ⟨rfl, hpay⟩ := hw _ _ _ hm
      exact h.store r' phase _ _ hp hpay
    · exact h.wrote r' row outcome hm

theorem Arrived.step {events : List Event} {event : Event} (h : Arrived P cfg events log s)
    (hs : RecoverBull.step P cfg s event = some (s', os)) :
    Arrived P cfg (events ++ [event]) (os ++ log) s' := by
  have h := h.mono [event]
  have hlast : event ∈ events ++ [event] := List.mem_append_right _ List.mem_cons_self
  cases event with
  | fetchArrives r trash request => exact fetchArrives_arrived h hlast hs
  | storeArrives r request => exact storeArrives_arrived h hlast hs
  | fetch r event =>
    simp only [RecoverBull.step] at hs
    split at hs
    · next q hq => exact fetchStep_arrived h hq hs
    · cases hs
  | store r event =>
    simp only [RecoverBull.step] at hs
    split at hs
    · next phase hp => exact storeStep_arrived h hp hs
    · cases hs
  | attemptsArrives r ifNoneMatch =>
    simp only [RecoverBull.step] at hs
    split at hs <;> cases hs
    exact h.of_same rfl rfl (by simp) (by simp)
  | attempts r event =>
    simp only [RecoverBull.step] at hs
    split at hs
    · obtain ⟨hf, hst, hw, hq⟩ := attemptsStep_moves hs
      exact h.of_same hf hst hw hq
    · cases hs
  | info r metadata file | sweep now =>
    cases hs
    exact h.of_same rfl rfl (by simp) (by simp)

end steps

/-- Along every run from the start of a server, everything goes back to an arrival. -/
theorem arrived_of_run [BucketNumber F] {secrets : SecretTable} {b₁ b₂ b₃ : TokenBucket F}
    {events : List Event} (h : run P cfg (.init secrets b₁ b₂ b₃) events = some (s, log)) :
    Arrived P cfg events log s := by
  have hnil : Arrived P cfg [] [] (AppState.init secrets b₁ b₂ b₃) :=
    ⟨fun _ _ hq => (by cases hq), fun _ _ _ _ hp => (by cases hp), by simp, by simp⟩
  exact Machine.run_history hnil (fun _ _ _ _ _ _ _ hi he => hi.step he) h

end RecoverBull
