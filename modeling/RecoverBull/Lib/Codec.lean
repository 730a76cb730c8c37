import Mathlib.Data.String.Basic
import Mathlib.Data.UInt
import Mathlib.Tactic.SplitIfs

/-!
# Hex and base64

Decoders of the two text encodings of bytes. Hex digits are accepted in both letter
cases; base64 is the standard alphabet with its padding required.

## Main results

- `Codec.hexDecode_isSome`: pairs of digits decode
- `Codec.hexDecode_inj`: lowercase texts with the same bytes are equal
- `Codec.base64Decodes_of_alphabet`: groups of four characters of the alphabet decode
-/

namespace Codec

theorem toNat_toLower (c : Char) :
    c.toLower.toNat = if 65 ≤ c.toNat ∧ c.toNat ≤ 90 then c.toNat + 32 else c.toNat := by
  by_cases h : c.toNat < 128
  · -- An ASCII character is one of 128.
    have hall : ∀ n < 128, (Char.ofNat n).toLower.toNat =
        if 65 ≤ n ∧ n ≤ 90 then n + 32 else n := by decide +kernel
    have hc := hall c.toNat h
    rwa [Char.ofNat_toNat] at hc
  · have hlarge : ¬(c.val ≥ 'A'.val ∧ c.val ≤ 'Z'.val) := by
      rintro ⟨-, hz⟩
      have hz' : c.toNat ≤ 90 := hz
      omega
    have hsame : c.toLower = c := dif_neg hlarge
    rw [hsame, if_neg (by omega)]

/-! ## Hex -/

def hexValue (c : Char) : Option ℕ :=
  if '0' ≤ c ∧ c ≤ '9' then some (c.toNat - 48)
  else if 'a' ≤ c ∧ c ≤ 'f' then some (c.toNat - 87)
  else if 'A' ≤ c ∧ c ≤ 'F' then some (c.toNat - 55)
  else none

def hexDecode : List Char → Option (List UInt8)
  | [] => some []
  | [_] => none
  | a :: b :: cs =>
    match hexValue a, hexValue b, hexDecode cs with
    | some x, some y, some bs => some (UInt8.ofNat (16 * x + y) :: bs)
    | _, _, _ => none

/-- The digits, by their code points. -/
theorem hexValue_eq_some {c : Char} {x : ℕ} : hexValue c = some x ↔
    48 ≤ c.toNat ∧ c.toNat ≤ 57 ∧ x = c.toNat - 48 ∨
      97 ≤ c.toNat ∧ c.toNat ≤ 102 ∧ x = c.toNat - 87 ∨
      65 ≤ c.toNat ∧ c.toNat ≤ 70 ∧ x = c.toNat - 55 := by
  have hle : ∀ a b : Char, a ≤ b ↔ a.toNat ≤ b.toNat := fun a b => Iff.rfl
  have h0 : '0'.toNat = 48 := rfl
  have h9 : '9'.toNat = 57 := rfl
  have ha : 'a'.toNat = 97 := rfl
  have hf : 'f'.toNat = 102 := rfl
  have hA : 'A'.toNat = 65 := rfl
  have hF : 'F'.toNat = 70 := rfl
  simp only [hexValue, hle, h0, h9, ha, hf, hA, hF]
  split_ifs with h₁ h₂ h₃
  · rw [Option.some.injEq]
    omega
  · rw [Option.some.injEq]
    omega
  · rw [Option.some.injEq]
    omega
  · refine iff_of_false not_false ?_
    omega

theorem hexValue_lt {c : Char} {x : ℕ} (h : hexValue c = some x) : x < 16 := by
  have := hexValue_eq_some.mp h
  omega

/-- Among lowercase digits the value determines the digit. -/
theorem hexValue_inj {c d : Char} {x : ℕ} (hcl : c.toLower = c) (hdl : d.toLower = d)
    (hc : hexValue c = some x) (hd : hexValue d = some x) : c = d := by
  have hcl' := toNat_toLower c
  have hdl' := toNat_toLower d
  rw [hcl] at hcl'
  rw [hdl] at hdl'
  have hc' := hexValue_eq_some.mp hc
  have hd' := hexValue_eq_some.mp hd
  apply Char.toNat_inj.mp
  split_ifs at hcl' hdl' <;> omega

/-- What a text that begins with two characters decodes to. -/
theorem hexDecode_cons_cons {a b : Char} {cs : List Char} {bytes : List UInt8} :
    hexDecode (a :: b :: cs) = some bytes ↔ ∃ x y rest, hexValue a = some x ∧
      hexValue b = some y ∧ hexDecode cs = some rest ∧ bytes = UInt8.ofNat (16 * x + y) :: rest := by
  rw [hexDecode]
  constructor
  · intro h
    split at h
    · next x y rest hx hy hrest => exact ⟨x, y, rest, hx, hy, hrest, (Option.some.inj h).symm⟩
    · cases h
  · rintro ⟨x, y, rest, hx, hy, hrest, rfl⟩
    rw [hx, hy, hrest]

theorem hexDecode_isSome : ∀ {cs : List Char}, (∀ c ∈ cs, (hexValue c).isSome = true) →
    cs.length % 2 = 0 → (hexDecode cs).isSome = true
  | [], _, _ => rfl
  | [_], _, heven => by simp at heven
  | a :: b :: cs, h, heven => by
    obtain ⟨x, hx⟩ := Option.isSome_iff_exists.mp (h a (by simp))
    obtain ⟨y, hy⟩ := Option.isSome_iff_exists.mp (h b (by simp))
    have heven' : cs.length % 2 = 0 := by
      simp only [List.length_cons] at heven
      omega
    obtain ⟨rest, hrest⟩ := Option.isSome_iff_exists.mp
      (hexDecode_isSome (fun c hc => h c (by simp [hc])) heven')
    exact Option.isSome_iff_exists.mpr ⟨_, hexDecode_cons_cons.mpr ⟨x, y, rest, hx, hy, hrest, rfl⟩⟩

/-- Among lowercase texts, the bytes determine the text. -/
theorem hexDecode_inj : ∀ {cs ds : List Char} {bytes : List UInt8},
    (∀ c ∈ cs, c.toLower = c) → (∀ d ∈ ds, d.toLower = d) →
    hexDecode cs = some bytes → hexDecode ds = some bytes → cs = ds
  | [], [], _, _, _, _, _ => rfl
  | [_], _, _, _, _, h, _ => by cases h
  | _, [_], _, _, _, _, h' => by cases h'
  | [], a :: b :: ds, _, _, _, h, h' => by
    cases h
    obtain ⟨_, _, _, _, _, _, hnil⟩ := hexDecode_cons_cons.mp h'
    cases hnil
  | a :: b :: cs, [], _, _, _, h, h' => by
    cases h'
    obtain ⟨_, _, _, _, _, _, hnil⟩ := hexDecode_cons_cons.mp h
    cases hnil
  | a :: b :: cs, a' :: b' :: ds, _, hc, hd, h, h' => by
    obtain ⟨x, y, rest, hxa, hyb, hrest, rfl⟩ := hexDecode_cons_cons.mp h
    obtain ⟨x', y', rest', hxa', hyb', hrest', hbytes⟩ := hexDecode_cons_cons.mp h'
    obtain ⟨hbyte, rfl⟩ := List.cons.inj hbytes
    have hnat : (UInt8.ofNat (16 * x + y)).toNat = (UInt8.ofNat (16 * x' + y')).toNat :=
      congrArg UInt8.toNat hbyte
    rw [UInt8.toNat_ofNat', UInt8.toNat_ofNat'] at hnat
    have hx := hexValue_lt hxa
    have hy := hexValue_lt hyb
    have hx' := hexValue_lt hxa'
    have hy' := hexValue_lt hyb'
    obtain rfl : x = x' := by omega
    obtain rfl : y = y' := by omega
    have hcs : cs = ds := by
      refine hexDecode_inj ?_ ?_ hrest hrest'
      · intro c hm
        exact hc c (by simp [hm])
      · intro d hm
        exact hd d (by simp [hm])
    rw [hexValue_inj (hc a (by simp)) (hd a' (by simp)) hxa hxa',
      hexValue_inj (hc b (by simp)) (hd b' (by simp)) hyb hyb', hcs]

/-! ## Base64 -/

/-- The position of a character in the standard alphabet. -/
def base64Value (c : Char) : Option ℕ :=
  if 'A' ≤ c ∧ c ≤ 'Z' then some (c.toNat - 65)
  else if 'a' ≤ c ∧ c ≤ 'z' then some (c.toNat - 71)
  else if '0' ≤ c ∧ c ≤ '9' then some (c.toNat + 4)
  else if c = '+' then some 62
  else if c = '/' then some 63
  else none

/-- The alphabet. -/
theorem base64Value_isSome {c : Char} (h : c.isAlphanum = true ∨ c = '+' ∨ c = '/') :
    (base64Value c).isSome = true := by
  rcases h with h | rfl | rfl
  · have hranges : (decide (c.val ≥ 'A'.val ∧ c.val ≤ 'Z'.val) || c.val ≥ 'a'.val && c.val ≤ 'z'.val ||
        c.val ≥ '0'.val && c.val ≤ '9'.val) = true := h
    simp only [Bool.or_eq_true, Bool.and_eq_true, decide_eq_true_eq] at hranges
    have hle : ∀ a b : Char, a ≤ b ↔ a.val ≤ b.val := fun a b => Iff.rfl
    simp only [base64Value, hle]
    rcases hranges with (h | h) | h
    · rw [if_pos h]
      rfl
    · split_ifs <;> rfl
    · split_ifs <;> rfl
  · rfl
  · rfl

/-- Whether the text decodes: padding is required, and the bits that a padded group
leaves over must be zero. -/
def base64Decodes : List Char → Bool
  | [] => true
  | [a, b, '=', '='] => (base64Value a).isSome && (base64Value b).any (· % 16 == 0)
  | [a, b, c, '='] =>
    (base64Value a).isSome && (base64Value b).isSome && (base64Value c).any (· % 4 == 0)
  | a :: b :: c :: d :: rest =>
    (base64Value a).isSome && (base64Value b).isSome && (base64Value c).isSome &&
      (base64Value d).isSome && base64Decodes rest
  | _ => false

/-- Without padding there is nothing to check but the alphabet. -/
theorem base64Decodes_of_alphabet : ∀ {cs : List Char}, (∀ c ∈ cs, (base64Value c).isSome = true) →
    cs.length % 4 = 0 → base64Decodes cs = true
  | [], _, _ => rfl
  | [_], _, hlen | [_, _], _, hlen | [_, _, _], _, hlen => by simp at hlen
  | a :: b :: c :: d :: rest, h, hlen => by
    have hd := h d (by simp)
    have hrest : base64Decodes rest = true := by
      refine base64Decodes_of_alphabet (fun e he => h e (by simp [he])) ?_
      simp only [List.length_cons] at hlen
      omega
    have hpad : d ≠ '=' := by
      rintro rfl
      cases hd
    rw [base64Decodes, h a (by simp), h b (by simp), h c (by simp), hd, hrest]
    · rfl
    · exact fun _ hd' _ => hpad hd'
    · exact fun hd' _ => hpad hd'

end Codec
