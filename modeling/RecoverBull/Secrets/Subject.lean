import RecoverBull.Secrets.Keys
import RecoverBull.Server.Calls

/-!
# The requests for one identifier

Which calls of a schedule are for an identifier, and what they have in flight: with
SHA-256 taken to be injective, its entry of the map and its rows are touched by no
other call.
-/

namespace RecoverBull

variable {F : Type} {P : Primitives} {cfg : Config} {s s' : AppState F} {os log : Log}
  {event : Event}

/-- The calls that arrive for the identifier, in whatever letter case. -/
def requestsFor (P : Primitives) (identifier : String) (es : List Event) (call : Call) : Bool :=
  decide ((call, toLowercase P identifier) ∈ es.filterMap (Event.arrival P))

/-- The event is no step of a request for another identifier. -/
def Event.isKept (mine : Call → Bool) : Event → Bool
  | .fetchArrives r _ _ | .fetch r _ => mine (.fetch r)
  | .storeArrives r _ | .store r _ => mine (.store r)
  | .attemptsArrives _ _ | .attempts _ _ | .info _ _ _ | .sweep _ => true

/-- The observation is about one of the calls. -/
def Obs.isAbout (mine : Call → Bool) (o : Obs) : Bool := o.call.any mine

/-- An identifier, and the calls that are for it. -/
structure Subject (P : Primitives) where
  raw : String
  isKeyText : IsKeyText raw
  idHash : String
  hashed : identifierHash P (toLowercase P raw) = some idHash
  mine : Call → Bool
  fetch_or_store : ∀ call, mine call = true → (∃ r, call = .fetch r) ∨ ∃ r, call = .store r

variable {subject : Subject P}

/-- The arrival is marked as what it is. -/
def Subject.Labels (subject : Subject P) (event : Event) : Prop :=
  ∀ call identifier, event.arrival P = some (call, identifier) →
    (subject.mine call = true ↔ identifier = toLowercase P subject.raw)

/-- A row of the identifier, under some key. -/
def Subject.OwnsRow (subject : Subject P) (secretId : String) : Prop :=
  ∃ key, secretId = generateSecretId P (toLowercase P subject.raw) key

/-- What is in flight, and what the database steps were about, is the identifier's
exactly if the call is. -/
structure Subject.Marks (subject : Subject P) (log : Log) (s : AppState F) : Prop where
  entry : ∀ r q, s.fetches r = some (.active q) →
    (subject.mine (.fetch r) = true ↔ q.idHash = subject.idHash)
  candidate : ∀ r q, s.fetches r = some (.active q) →
    (subject.mine (.fetch r) = true ↔ subject.OwnsRow q.candidate)
  payload : ∀ r phase secretId encryptedSecret, s.stores r = some (.active phase) →
    phase.payload = some (secretId, encryptedSecret) →
    (subject.mine (.store r) = true ↔ subject.OwnsRow secretId)
  queried : ∀ r trash key outcome result, .queried r trash key outcome result ∈ log →
    (subject.mine (.fetch r) = true ↔ subject.OwnsRow key)
  wrote : ∀ r row outcome, .wrote r row outcome ∈ log →
    (subject.mine (.store r) = true ↔ subject.OwnsRow row.id)

/-- The calls of an identifier are for its secrets. -/
theorem Subject.not_mine (subject : Subject P) {call : Call} (hfetch : ∀ r, call ≠ .fetch r)
    (hstore : ∀ r, call ≠ .store r) : subject.mine call = false := by
  rw [← Bool.not_eq_true]
  intro hm
  obtain ⟨r, hr⟩ | ⟨r, hr⟩ := subject.fetch_or_store call hm
  · exact hfetch r hr
  · exact hstore r hr

theorem Subject.ownsRow_iff (subject : Subject P) (hinj : Function.Injective P.sha256Hex)
    {i k : String} (hi : IsKeyText i) :
    subject.OwnsRow (generateSecretId P i k) ↔ i = toLowercase P subject.raw := by
  have hcanon : IsKeyText (toLowercase P subject.raw) := by
    rw [subject.isKeyText.toLowercase]
    exact subject.isKeyText.toAsciiLowercase
  constructor
  · rintro ⟨key, h⟩
    exact (generateSecretId_inj hinj hi hcanon h).1
  · rintro rfl
    exact ⟨k, rfl⟩

theorem Subject.idHash_iff (subject : Subject P) (hinj : Function.Injective P.sha256Hex)
    {raw idHash : String} (hraw : IsKeyText raw)
    (h : identifierHash P (toAsciiLowercase raw) = some idHash) :
    idHash = subject.idHash ↔ toAsciiLowercase raw = toLowercase P subject.raw := by
  have hashed := subject.hashed
  rw [subject.isKeyText.toLowercase] at hashed ⊢
  constructor
  · rintro rfl
    exact hraw.identifierHash_inj hinj subject.isKeyText (h.trans hashed.symm)
  · intro he
    rw [he, hashed] at h
    exact (Option.some.inj h).symm

/-- A lookup that arrived for the pair. -/
theorem Subject.mine_of_lookup {es : List Event} (hlabels : ∀ e ∈ es, subject.Labels e) {r : ReqId}
    {trash : Bool} {i k : String} (h : LookupArrived P es r trash i k) :
    (subject.mine (.fetch r) = true ↔ i = toLowercase P subject.raw) ∧
      ∃ raw, IsKeyText raw ∧ i = toAsciiLowercase raw := by
  obtain ⟨request, hm, hcheck⟩ := h
  obtain ⟨⟨hraw, -⟩, hi, -⟩ := checkFetch_eq_ok_iff.mp hcheck
  refine ⟨?_, request.identifier, hraw, hi⟩
  rw [← (checkFetch_eq_ok.mp hcheck).1]
  exact hlabels _ hm _ _ rfl

theorem Subject.mine_of_store {es : List Event} (hlabels : ∀ e ∈ es, subject.Labels e) {r : ReqId}
    {i k e : String} (h : StoreArrived P cfg es r i k e) :
    (subject.mine (.store r) = true ↔ i = toLowercase P subject.raw) ∧
      ∃ raw, IsKeyText raw ∧ i = toAsciiLowercase raw := by
  obtain ⟨request, hm, hcheck, -⟩ := h
  have hfetch := checkStore_eq_ok hcheck
  obtain ⟨⟨hraw, -⟩, hi, -⟩ := checkFetch_eq_ok_iff.mp hfetch
  refine ⟨?_, request.identifier, hraw, hi⟩
  rw [← (checkFetch_eq_ok.mp hfetch).1]
  exact hlabels _ hm _ _ rfl

/-- What goes back to arrivals is marked if these are. -/
theorem Arrived.marks {es : List Event} (h : Arrived P cfg es log s)
    (hinj : Function.Injective P.sha256Hex) (hlabels : ∀ e ∈ es, subject.Labels e) :
    subject.Marks log s := by
  have hlookup : ∀ {r trash i k}, LookupArrived P es r trash i k →
      (subject.mine (.fetch r) = true ↔ subject.OwnsRow (generateSecretId P i k)) := by
    intro r trash i k ha
    obtain ⟨hmine, raw, hraw, rfl⟩ := Subject.mine_of_lookup hlabels ha
    rw [hmine, subject.ownsRow_iff hinj hraw.toAsciiLowercase]
  have hstore : ∀ {r i k e}, StoreArrived P cfg es r i k e →
      (subject.mine (.store r) = true ↔ subject.OwnsRow (generateSecretId P i k)) := by
    intro r i k e ha
    obtain ⟨hmine, raw, hraw, rfl⟩ := Subject.mine_of_store hlabels ha
    rw [hmine, subject.ownsRow_iff hinj hraw.toAsciiLowercase]
  constructor
  · intro r q hq
    obtain ⟨i, k, ha, hid, -⟩ := h.fetch r q hq
    obtain ⟨hmine, raw, hraw, rfl⟩ := Subject.mine_of_lookup hlabels ha
    rw [hmine, subject.idHash_iff hinj hraw hid]
  · intro r q hq
    obtain ⟨i, k, ha, -, hc⟩ := h.fetch r q hq
    rw [hc]
    exact hlookup ha
  · intro r phase secretId encryptedSecret hp hpay
    obtain ⟨i, k, ha, rfl⟩ := h.store r phase secretId encryptedSecret hp hpay
    exact hstore ha
  · intro r trash key outcome result hm
    obtain ⟨i, k, ha, rfl⟩ := h.queried r trash key outcome result hm
    exact hlookup ha
  · intro r row outcome hm
    obtain ⟨i, k, ha, hid⟩ := h.wrote r row outcome hm
    rw [hid]
    exact hstore ha

/-- The identifier, with the calls a schedule makes for it. -/
theorem exists_subject {identifier : String} (h : IsKeyText identifier) (es : List Event) :
    ∃ subject : Subject P, subject.raw = identifier ∧
      subject.mine = requestsFor P identifier es := by
  obtain ⟨bytes, -, hhash⟩ := h.identifierHash (P := P)
  rw [← h.toLowercase (P := P)] at hhash
  refine ⟨⟨identifier, h, _, hhash, requestsFor P identifier es, fun call hm => ?_⟩, rfl, rfl⟩
  obtain ⟨event, -, ha⟩ := List.mem_filterMap.mp (of_decide_eq_true hm)
  cases event with
  | fetchArrives r trash request =>
    exact Or.inl ⟨r, (congrArg Prod.fst (Option.some.inj ha)).symm⟩
  | storeArrives r request =>
    exact Or.inr ⟨r, (congrArg Prod.fst (Option.some.inj ha)).symm⟩
  | fetch | store | attemptsArrives | attempts | info | sweep => cases ha

/-- No call of a run arrives for two identifiers. -/
theorem labels_of_run [BucketNumber F] {secrets : SecretTable} {b₁ b₂ b₃ : TokenBucket F}
    {es : List Event} (hr : run P cfg (.init secrets b₁ b₂ b₃) es = some (s, log))
    (hmine : subject.mine = requestsFor P subject.raw es) : ∀ e ∈ es, subject.Labels e := by
  intro event he call identifier ha
  have hm : (call, identifier) ∈ es.filterMap (Event.arrival P) :=
    List.mem_filterMap.mpr ⟨event, he, ha⟩
  rw [hmine, requestsFor, decide_eq_true_iff]
  constructor
  · intro hm'
    have hsame := List.inj_on_of_nodup_map (arrivals_nodup hr) hm hm' rfl
    exact congrArg Prod.snd hsame
  · rintro rfl
    exact hm

end RecoverBull
