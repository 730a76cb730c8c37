import RecoverBull.Models
import RecoverBull.Lib.Codec

/-!
# Hex, base64, hashes and hour truncation

The functions of `utils.rs`. What they take from libraries outside the
repository is collected in `Primitives`.
-/

namespace RecoverBull

/-- `char::is_ascii_hexdigit`. -/
def isAsciiHexdigit (c : Char) : Bool :=
  ('0' ≤ c && c ≤ '9') || ('a' ≤ c && c ≤ 'f') || ('A' ≤ c && c ≤ 'F')

theorem isAsciiHexdigit_iff {c : Char} :
    isAsciiHexdigit c = true ↔
      (48 ≤ c.toNat ∧ c.toNat ≤ 57) ∨ (97 ≤ c.toNat ∧ c.toNat ≤ 102) ∨
        (65 ≤ c.toNat ∧ c.toNat ≤ 70) := by
  have hle : ∀ a b : Char, a ≤ b ↔ a.toNat ≤ b.toNat := fun a b => Iff.rfl
  simp only [isAsciiHexdigit, Bool.or_eq_true, Bool.and_eq_true, decide_eq_true_eq, hle]
  exact or_assoc

/-- Library functions the handlers call. -/
structure Primitives where
  /-- Unicode lowercase of a character outside ASCII, between the characters
  before it (nearest first) and after it: the final sigma depends on them. -/
  lowercaseNonAscii : List Char → Char → List Char → List Char
  lowercase_not_hex : ∀ before c after, 128 ≤ c.toNat →
    ∀ d ∈ lowercaseNonAscii before c after, isAsciiHexdigit d = false
  lowercase_ne_nil : ∀ before c after, 128 ≤ c.toNat → lowercaseNonAscii before c after ≠ []
  /-- SHA-256 of a byte string, as hex text. -/
  sha256Hex : List UInt8 → String
  /-- `hex::decode`. -/
  hexDecode : List Char → Option (List UInt8)
  /-- Digits in pairs decode. -/
  hexDecode_isSome : ∀ cs, (∀ c ∈ cs, isAsciiHexdigit c = true) → cs.length % 2 = 0 →
    (hexDecode cs).isSome = true
  /-- A lowercase text is told by its bytes. -/
  hexDecode_inj : ∀ cs ds bytes, (∀ c ∈ cs, c.toLower = c) → (∀ d ∈ ds, d.toLower = d) →
    hexDecode cs = some bytes → hexDecode ds = some bytes → cs = ds
  /-- Whether `BASE64_STANDARD` decodes the text. -/
  base64Decodes : List Char → Bool
  /-- Groups of four characters of the alphabet decode. -/
  base64Decodes_of_alphabet : ∀ cs, (∀ c ∈ cs, c.isAlphanum = true ∨ c = '+' ∨ c = '/') →
    cs.length % 4 = 0 → base64Decodes cs = true
  toRfc3339 : ℤ → String
  /-- The snapshot serialized as JSON and compressed with gzip, mtime zero. -/
  gzipJson : AttemptsSnapshot → List UInt8

def asBytes (s : String) : List UInt8 := s.toUTF8.data.toList

theorem asBytes_injective : Function.Injective asBytes := by
  intro a b h
  have hd : a.toUTF8.data = b.toUTF8.data := Array.toList_inj.mp h
  exact String.toByteArray_inj.mp (ByteArray.ext hd)

/-- The loop of `str::to_lowercase`, with the characters already passed. -/
def lowercaseFrom (P : Primitives) : List Char → List Char → List Char
  | _, [] => []
  | before, c :: cs =>
    (if c.toNat < 128 then [c.toLower] else P.lowercaseNonAscii before c cs) ++
      lowercaseFrom P (c :: before) cs

def toLowercase (P : Primitives) (s : String) : String :=
  String.ofList (lowercaseFrom P [] s.toList)

def isHex (input : String) : Bool := input.toList.all isAsciiHexdigit

/-- Lengths are in bytes. -/
def isLength (length : ℕ) (input : String) : Bool := (asBytes input).length == length

def is256bitsHexHash (input : String) : Bool := isLength 64 input && isHex input

def isBase64 (P : Primitives) (input : String) : Bool :=
  (asBytes input).length % 4 == 0 && P.base64Decodes input.toList

def identifierHash (P : Primitives) (identifier : String) : Option String :=
  (P.hexDecode identifier.toList).map P.sha256Hex

def generateSecretId (P : Primitives) (identifier authenticationKey : String) : String :=
  P.sha256Hex (asBytes identifier ++ asBytes authenticationKey)

def nanosPerHour : ℤ := 3600 * nanosPerSecond

/-- `duration_trunc` to the hour. It fails, and the code panics, on a time before 1677 or
after 2262, whose nanoseconds an `i64` does not hold: the clocks stay within these. -/
def truncateToHour (timestamp : ℤ) : ℤ := timestamp - timestamp % nanosPerHour

theorem truncateToHour_eq (a : ℤ) : truncateToHour a = nanosPerHour * (a / nanosPerHour) :=
  Int.sub_eq_iff_eq_add.mpr (Int.mul_ediv_add_emod a nanosPerHour).symm

theorem truncateToHour_mono {a b : ℤ} (h : a ≤ b) : truncateToHour a ≤ truncateToHour b := by
  have hp : (0 : ℤ) < nanosPerHour := by decide
  rw [truncateToHour_eq, truncateToHour_eq]
  exact Int.mul_le_mul_of_nonneg_left (Int.ediv_le_ediv hp h) (Int.le_of_lt hp)

/-! ## Sample primitives

Primitives a run can be evaluated with. -/

def sampleIdentifier : String := "0000000000000000000000000000000000000000000000000000000000000000"

def otherIdentifier : String := "3333333333333333333333333333333333333333333333333333333333333333"

def sampleKey : String := "1111111111111111111111111111111111111111111111111111111111111111"

def otherKey : String := "2222222222222222222222222222222222222222222222222222222222222222"

def sampleIdHash : String := "66687aadf862bd776c8fc18b8e9f8e20089714856ee233b3902a591d0d5f2925"

def otherIdHash : String := "deb0e38ced1e41de6f92e70e80c418d2d356afaaa99e26f5939dbc7d3ef4772a"

/-- The id of the sample identifier under the sample key. -/
def sampleSecretId : String := "2c5a757af655400d3c30ba6f2aec54334006e4b784e2bcc79b99452abfc66ec9"

/-- The id of the sample identifier under the other key. -/
def otherSecretId : String := "5d54fc424e614f86dfa76ef9d63c25063df4a6c084436b9661c0d0f3bbd72c6f"

/-- SHA-256 of the inputs made of the samples. -/
def sampleDigests : List (List UInt8 × String) :=
  [(List.replicate 32 0x00, sampleIdHash),
    (List.replicate 32 0x33, otherIdHash),
    (asBytes sampleIdentifier ++ asBytes sampleKey, sampleSecretId),
    (asBytes sampleIdentifier ++ asBytes otherKey, otherSecretId),
    (asBytes otherIdentifier ++ asBytes sampleKey,
      "db2c17090e278485b47a0edbe256946a73b5a058934ffaf2fc0b0ebd4a102b9d")]

/-- Spells an input out where no digest is listed. -/
def spell (bytes : List UInt8) : String :=
  String.ofList ('#' :: bytes.map fun b => Char.ofNat b.toNat)

theorem spell_injective : Function.Injective spell := by
  intro a b h
  have hl := List.cons_injective (String.ofList_injective h)
  refine List.map_injective_iff.mpr (fun x y hxy => ?_) hl
  have hx : ∀ z : UInt8, (Char.ofNat z.toNat).toNat = z.toNat := by
    intro z
    have hz := z.toNat_lt
    rw [Char.ofNat, dif_pos (Or.inl (by omega))]
    rfl
  exact UInt8.toNat_inj.mp (by rw [← hx x, ← hx y, hxy])

theorem isAsciiHexdigit_eq (c : Char) : isAsciiHexdigit c = (Codec.hexValue c).isSome := by
  rw [Bool.eq_iff_iff, isAsciiHexdigit_iff, Option.isSome_iff_exists]
  simp only [Codec.hexValue_eq_some]
  constructor
  · rintro (h | h | h)
    · exact ⟨_, Or.inl ⟨h.1, h.2, rfl⟩⟩
    · exact ⟨_, Or.inr (Or.inl ⟨h.1, h.2, rfl⟩)⟩
    · exact ⟨_, Or.inr (Or.inr ⟨h.1, h.2, rfl⟩)⟩
  · rintro ⟨x, h⟩
    omega

/-- Primitives that know the listed digests and leave characters outside ASCII
as they are. -/
def Primitives.sample : Primitives where
  lowercaseNonAscii _ c _ := [c]
  lowercase_not_hex _ c _ h d hd := by
    rw [List.mem_singleton.mp hd]
    have hle : ∀ x : Char, x.toNat < 128 → x < c := by
      intro x hx
      change x.toNat < c.toNat
      omega
    simp [isAsciiHexdigit, hle '9' (by decide), hle 'f' (by decide), hle 'F' (by decide)]
  lowercase_ne_nil _ _ _ _ := List.cons_ne_nil _ _
  hexDecode := Codec.hexDecode
  hexDecode_isSome _ h heven :=
    Codec.hexDecode_isSome (fun c hc => isAsciiHexdigit_eq c ▸ h c hc) heven
  hexDecode_inj _ _ _ := Codec.hexDecode_inj
  base64Decodes := Codec.base64Decodes
  base64Decodes_of_alphabet _ h :=
    Codec.base64Decodes_of_alphabet fun c hc => Codec.base64Value_isSome (h c hc)
  sha256Hex bytes := (sampleDigests.lookup bytes).getD (spell bytes)
  toRfc3339 _ := "1970-01-01T00:00:00+00:00"
  gzipJson _ := []

/-- The listed digests differ, and none of them is spelt out. -/
theorem sampleDigests_lookup {a : List UInt8} {d : String} (h : sampleDigests.lookup a = some d) :
    (a, d) ∈ sampleDigests := by
  obtain ⟨l, r, hl, -⟩ := List.lookup_eq_some_iff.mp h
  rw [hl]
  exact List.mem_append_right _ List.mem_cons_self

theorem Primitives.sample_sha256Hex_injective : Function.Injective Primitives.sample.sha256Hex := by
  have hdistinct : ∀ x ∈ sampleDigests, ∀ y ∈ sampleDigests, x.2 = y.2 → x.1 = y.1 := by
    decide +kernel
  have hspelt : ∀ x ∈ sampleDigests, x.2.toList.head? ≠ some '#' := by decide +kernel
  have hne : ∀ {a d bytes}, sampleDigests.lookup a = some d → d ≠ spell bytes := by
    intro a d bytes h he
    refine hspelt _ (sampleDigests_lookup h) ?_
    rw [he, spell, String.toList_ofList, List.head?_cons]
  intro a b h
  have h' : (sampleDigests.lookup a).getD (spell a) = (sampleDigests.lookup b).getD (spell b) := h
  cases ha : sampleDigests.lookup a with
  | none =>
    cases hb : sampleDigests.lookup b with
    | none =>
      rw [ha, hb] at h'
      exact spell_injective h'
    | some d =>
      rw [ha, hb] at h'
      exact absurd h'.symm (hne hb)
  | some d =>
    cases hb : sampleDigests.lookup b with
    | none =>
      rw [ha, hb] at h'
      exact absurd h' (hne ha)
    | some d' =>
      rw [ha, hb] at h'
      exact hdistinct _ (sampleDigests_lookup ha) _ (sampleDigests_lookup hb) h'

end RecoverBull
