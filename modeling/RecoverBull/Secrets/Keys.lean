import RecoverBull.Server.Step

/-!
# Keys in and out of canonical form

Which raw strings `/store`, `/fetch` and `/trash` accept, and when two accepted
pairs come to one row or to one rate-limit entry.
-/

namespace RecoverBull

variable {P : Primitives}

/-- 64 hex digits, in any letter case. -/
def IsKeyText (raw : String) : Prop :=
  raw.toList.length = 64 ∧ ∀ c ∈ raw.toList, isAsciiHexdigit c = true

instance (raw : String) : Decidable (IsKeyText raw) :=
  decidable_of_iff (raw.toList.length = 64 ∧ raw.toList.all isAsciiHexdigit = true)
    (and_congr_right fun _ => List.all_eq_true)

/-- `str::to_ascii_lowercase`. -/
def toAsciiLowercase (raw : String) : String := String.ofList (raw.toList.map Char.toLower)

/-- `str::eq_ignore_ascii_case`. -/
def EqIgnoreAsciiCase (a b : String) : Prop := toAsciiLowercase a = toAsciiLowercase b

/-! ## Digits -/

theorem isAsciiHexdigit_toLower (c : Char) :
    isAsciiHexdigit c.toLower = true ↔ isAsciiHexdigit c = true := by
  rw [isAsciiHexdigit_iff, isAsciiHexdigit_iff, Codec.toNat_toLower]
  split <;> omega

/-! ## Canonical texts -/

theorem asBytes_eq (s : String) : asBytes s = s.toList.flatMap String.utf8EncodeChar := by
  show s.toByteArray.data.toList = _
  rw [← String.utf8Encode_toList, List.utf8Encode, List.data_toByteArray, List.toList_toArray]

/-- Hex digits are one byte each. -/
theorem length_asBytes {s : String} (h : ∀ c ∈ s.toList, isAsciiHexdigit c = true) :
    (asBytes s).length = s.toList.length := by
  rw [asBytes_eq]
  generalize s.toList = cs at h
  induction cs with
  | nil => rfl
  | cons c cs ih =>
    obtain ⟨hc, hcs⟩ := List.forall_mem_cons.mp h
    have hsize : c.utf8Size = 1 := by
      rw [Char.utf8Size_eq_one_iff, UInt32.le_iff_toNat_le]
      show c.toNat ≤ 127
      rw [isAsciiHexdigit_iff] at hc
      omega
    rw [List.flatMap_cons, List.length_append, String.length_utf8EncodeChar, hsize, ih hcs,
      List.length_cons, Nat.add_comm]

theorem is256bitsHexHash_iff {s : String} : is256bitsHexHash s = true ↔ IsKeyText s := by
  simp only [is256bitsHexHash, isLength, isHex, Bool.and_eq_true, beq_iff_eq, List.all_eq_true]
  constructor
  · rintro ⟨hlen, hhex⟩
    exact ⟨by rw [← length_asBytes hhex, hlen], hhex⟩
  · rintro ⟨hlen, hhex⟩
    exact ⟨by rw [length_asBytes hhex, hlen], hhex⟩

theorem lowercaseFrom_eq {before cs : List Char} (h : ∀ c ∈ cs, isAsciiHexdigit c = true) :
    lowercaseFrom P before cs = cs.map Char.toLower := by
  induction cs generalizing before with
  | nil => rfl
  | cons c cs ih =>
    obtain ⟨hc, hcs⟩ := List.forall_mem_cons.mp h
    have hascii : c.toNat < 128 := by
      rw [isAsciiHexdigit_iff] at hc
      omega
    rw [lowercaseFrom, if_pos hascii, ih hcs, List.map_cons, List.singleton_append]

/-- What lowercases to digits is made of digits: nothing outside ASCII vanishes or
becomes one. -/
theorem isAsciiHexdigit_of_lowercaseFrom {before cs : List Char}
    (h : ∀ d ∈ lowercaseFrom P before cs, isAsciiHexdigit d = true) :
    ∀ c ∈ cs, isAsciiHexdigit c = true := by
  induction cs generalizing before with
  | nil => simp
  | cons c cs ih =>
    rw [lowercaseFrom, List.forall_mem_append] at h
    obtain ⟨hc, hcs⟩ := h
    refine List.forall_mem_cons.mpr ⟨?_, ih hcs⟩
    split at hc
    · exact (isAsciiHexdigit_toLower c).mp (hc _ (List.mem_singleton_self _))
    · next hlarge =>
      have hlarge' : 128 ≤ c.toNat := Nat.le_of_not_lt hlarge
      obtain ⟨d, hd⟩ := List.exists_mem_of_ne_nil _ (P.lowercase_ne_nil before c cs hlarge')
      have hnot := P.lowercase_not_hex before c cs hlarge' d hd
      rw [hc d hd] at hnot
      cases hnot

theorem IsKeyText.toLowercase {raw : String} (h : IsKeyText raw) :
    RecoverBull.toLowercase P raw = toAsciiLowercase raw := by
  rw [RecoverBull.toLowercase, lowercaseFrom_eq h.2, toAsciiLowercase]

theorem IsKeyText.lower {raw : String} (h : IsKeyText raw) :
    ∀ c ∈ (toAsciiLowercase raw).toList, isAsciiHexdigit c = true ∧ c.toLower = c := by
  rw [toAsciiLowercase, String.toList_ofList]
  intro c hc
  obtain ⟨d, hd, rfl⟩ := List.mem_map.mp hc
  refine ⟨(isAsciiHexdigit_toLower d).mpr (h.2 d hd), ?_⟩
  apply Char.toNat_inj.mp
  rw [Codec.toNat_toLower, Codec.toNat_toLower]
  split_ifs <;> omega

theorem IsKeyText.toAsciiLowercase {raw : String} (h : IsKeyText raw) :
    IsKeyText (RecoverBull.toAsciiLowercase raw) := by
  refine ⟨?_, fun c hc => (h.lower c hc).1⟩
  rw [RecoverBull.toAsciiLowercase, String.toList_ofList, List.length_map]
  exact h.1

/-- Lowercasing neither lets a raw string in nor keeps one out. -/
theorem is256bitsHexHash_toLowercase {raw : String} :
    is256bitsHexHash (toLowercase P raw) = true ↔ IsKeyText raw := by
  rw [is256bitsHexHash_iff]
  constructor
  · rintro ⟨hlen, hhex⟩
    rw [toLowercase, String.toList_ofList] at hlen hhex
    have hraw := isAsciiHexdigit_of_lowercaseFrom hhex
    rw [lowercaseFrom_eq hraw, List.length_map] at hlen
    exact ⟨hlen, hraw⟩
  · intro h
    rw [h.toLowercase]
    exact h.toAsciiLowercase

theorem IsKeyText.length_asBytes {s : String} (h : IsKeyText s) : (asBytes s).length = 64 := by
  rw [RecoverBull.length_asBytes h.2, h.1]

/-- The concatenation is unambiguous: the identifier is its first 64 bytes. -/
theorem generateSecretId_inj (hinj : Function.Injective P.sha256Hex) {i k i' k' : String}
    (hi : IsKeyText i) (hi' : IsKeyText i') (h : generateSecretId P i k = generateSecretId P i' k') :
    i = i' ∧ k = k' := by
  have hlen : (asBytes i).length = (asBytes i').length := by
    rw [hi.length_asBytes, hi'.length_asBytes]
  obtain ⟨h₁, h₂⟩ := List.append_inj (hinj h) hlen
  exact ⟨asBytes_injective h₁, asBytes_injective h₂⟩

theorem IsKeyText.identifierHash {raw : String} (h : IsKeyText raw) :
    ∃ bytes, P.hexDecode (RecoverBull.toAsciiLowercase raw).toList = some bytes ∧
      RecoverBull.identifierHash P (RecoverBull.toAsciiLowercase raw) = some (P.sha256Hex bytes) := by
  have heven : (RecoverBull.toAsciiLowercase raw).toList.length % 2 = 0 := by
    rw [h.toAsciiLowercase.1]
  obtain ⟨bytes, hbytes⟩ :=
    Option.isSome_iff_exists.mp (P.hexDecode_isSome _ h.toAsciiLowercase.2 heven)
  exact ⟨bytes, hbytes, by rw [RecoverBull.identifierHash, hbytes, Option.map_some]⟩

/-- Identifiers that differ in more than letter case have different hashes. -/
theorem IsKeyText.identifierHash_inj (hinj : Function.Injective P.sha256Hex) {a b : String}
    (ha : IsKeyText a) (hb : IsKeyText b)
    (h : RecoverBull.identifierHash P (RecoverBull.toAsciiLowercase a) =
      RecoverBull.identifierHash P (RecoverBull.toAsciiLowercase b)) :
    RecoverBull.toAsciiLowercase a = RecoverBull.toAsciiLowercase b := by
  obtain ⟨bytes, hda, ha'⟩ := ha.identifierHash (P := P)
  obtain ⟨bytes', hdb, hb'⟩ := hb.identifierHash (P := P)
  rw [ha', hb'] at h
  obtain rfl := hinj (Option.some.inj h)
  exact String.toList_inj.mp (P.hexDecode_inj _ _ _ (fun c hc => (ha.lower c hc).2)
    (fun d hd => (hb.lower d hd).2) hda hdb)

/-- The canonical pair of an accepted request. -/
theorem checkFetch_eq_ok_iff {request : FetchSecret} {i k : String} :
    checkFetch P request = .ok (i, k) ↔
      (IsKeyText request.identifier ∧ IsKeyText request.authenticationKey) ∧
        i = toAsciiLowercase request.identifier ∧ k = toAsciiLowercase request.authenticationKey := by
  rw [checkFetch_eq_ok]
  constructor
  · rintro ⟨rfl, rfl, hi, hk⟩
    have hi' := is256bitsHexHash_toLowercase.mp hi
    have hk' := is256bitsHexHash_toLowercase.mp hk
    exact ⟨⟨hi', hk'⟩, hi'.toLowercase, hk'.toLowercase⟩
  · rintro ⟨⟨hi, hk⟩, rfl, rfl⟩
    refine ⟨hi.toLowercase, hk.toLowercase, ?_, ?_⟩
    · exact is256bitsHexHash_iff.mpr hi.toAsciiLowercase
    · exact is256bitsHexHash_iff.mpr hk.toAsciiLowercase

/-- The other errors of a store begin with another letter. -/
theorem errorResponse_ne_notHexHashes {text : String} (h : text.toList.head? = some 'e') :
    errorResponse .badRequest text ≠ notHexHashes := by
  intro he
  have htext : text = "identifier or authentication_key are not 256 bits HEX hashes" :=
    Body.error.inj (congrArg Response.body he)
  rw [htext] at h
  revert h
  decide

/-- The hex validation of a store, told from its error. -/
theorem checkStore_eq_notHexHashes {cfg : Config} {request : StoreSecret} :
    checkStore P cfg request = .error notHexHashes ↔
      ¬(IsKeyText request.identifier ∧ IsKeyText request.authenticationKey) := by
  rw [← is256bitsHexHash_toLowercase (P := P), ← is256bitsHexHash_toLowercase (P := P)]
  have hother : ∀ text : String, text.toList.head? = some 'e' →
      (Except.error (errorResponse .badRequest text) : Except Response (String × String)) ≠
        .error notHexHashes := by
    intro text h he
    exact errorResponse_ne_notHexHashes h (Except.error.inj he)
  unfold checkStore
  dsimp only
  split
  · next h =>
    simp only [Bool.or_eq_true, Bool.not_eq_true'] at h
    refine iff_of_true rfl ?_
    rintro ⟨hi, hk⟩
    rw [hi, hk] at h
    simp at h
  · next h =>
    simp only [Bool.or_eq_true, Bool.not_eq_true', not_or, Bool.not_eq_false] at h
    refine iff_of_false ?_ fun hn => hn h
    split_ifs
    · exact hother _ (by decide)
    · exact hother _ (by rw [String.toList_append, List.head?_append]; rfl)
    · exact hother _ (by decide)
    · intro he
      cases he

/-- **Key validation and derivation are exact**, for SHA-256 taken to be injective. -/
theorem keys_exact (hinj : Function.Injective P.sha256Hex) (cfg : Config) :
    -- The endpoints pass the hex validation for the same pairs, those of 64 digits each.
    (∀ request : FetchSecret, (∃ pair, checkFetch P request = .ok pair) ↔
      IsKeyText request.identifier ∧ IsKeyText request.authenticationKey) ∧
    (∀ request : StoreSecret, checkStore P cfg request ≠ .error notHexHashes ↔
      IsKeyText request.identifier ∧ IsKeyText request.authenticationKey) ∧
    (∀ (request : StoreSecret) pair, checkStore P cfg request = .ok pair →
      checkFetch P ⟨request.identifier, request.authenticationKey⟩ = .ok pair) ∧
    -- An accepted lookup has an identifier hash, so that its arrival does not panic.
    (∀ request i k, checkFetch P request = .ok (i, k) → (identifierHash P i).isSome = true) ∧
    (∀ {F : Type} (s s' : AppState F) r trash request os,
      fetchArrives P s r trash request = some (s', os) → ∀ call, .panicked call ∉ os) ∧
    -- Rows and rate-limit entries are those of the pairs up to ASCII case.
    ∀ a b i k i' k', checkFetch P a = .ok (i, k) → checkFetch P b = .ok (i', k') →
      (generateSecretId P i k = generateSecretId P i' k' ↔
        EqIgnoreAsciiCase a.identifier b.identifier ∧
          EqIgnoreAsciiCase a.authenticationKey b.authenticationKey) ∧
      (identifierHash P i = identifierHash P i' ↔
        EqIgnoreAsciiCase a.identifier b.identifier) := by
  have hhash : ∀ request i k, checkFetch P request = .ok (i, k) →
      (identifierHash P i).isSome = true := by
    intro request i k h
    obtain ⟨⟨hi, -⟩, rfl, -⟩ := checkFetch_eq_ok_iff.mp h
    obtain ⟨bytes, -, he⟩ := hi.identifierHash (P := P)
    rw [he]
    rfl
  refine ⟨fun request => ?_, fun request => ?_, fun request pair h => checkStore_eq_ok h, hhash,
    fun s s' r trash request os h call hm => ?_, fun a b i k i' k' ha hb => ?_⟩
  · constructor
    · rintro ⟨⟨i, k⟩, h⟩
      exact (checkFetch_eq_ok_iff.mp h).1
    · intro h
      exact ⟨_, checkFetch_eq_ok_iff.mpr ⟨h, rfl, rfl⟩⟩
  · rw [Ne, checkStore_eq_notHexHashes, not_not]
  · unfold fetchArrives at h
    split at h
    · cases h
    · split at h
      · cases h
        simp at hm
      · next i k hcheck =>
        have hsome := hhash request i k hcheck
        split at h
        · next hnone => rw [hnone] at hsome; cases hsome
        · cases h
          simp at hm
  · obtain ⟨⟨hia, hka⟩, rfl, rfl⟩ := checkFetch_eq_ok_iff.mp ha
    obtain ⟨⟨hib, hkb⟩, rfl, rfl⟩ := checkFetch_eq_ok_iff.mp hb
    constructor
    · constructor
      · exact generateSecretId_inj hinj hia.toAsciiLowercase hib.toAsciiLowercase
      · rintro ⟨hi, hk⟩
        rw [hi, hk]
    · constructor
      · exact hia.identifierHash_inj hinj hib
      · intro hi
        rw [hi]

/-- Two keys of one identifier, on the sample digests. -/
theorem keys_exact_sample :
    generateSecretId .sample sampleIdentifier sampleKey ≠
      generateSecretId .sample sampleIdentifier otherKey := by
  have hcheck : ∀ key, key = sampleKey ∨ key = otherKey →
      checkFetch .sample ⟨sampleIdentifier, key⟩ = .ok (sampleIdentifier, key) := by
    rintro key (rfl | rfl)
    · exact checkFetch_eq_ok_iff.mpr ⟨by decide +kernel, by decide +kernel, by decide +kernel⟩
    · exact checkFetch_eq_ok_iff.mpr ⟨by decide +kernel, by decide +kernel, by decide +kernel⟩
  obtain ⟨-, -, -, -, -, hkeys⟩ := keys_exact Primitives.sample_sha256Hex_injective .sample
  obtain ⟨hid, -⟩ := hkeys _ _ _ _ _ _ (hcheck _ (Or.inl rfl)) (hcheck _ (Or.inr rfl))
  intro h
  have hdiffer : toAsciiLowercase sampleKey ≠ toAsciiLowercase otherKey := by decide +kernel
  exact hdiffer (hid.mp h).2

end RecoverBull
