import Mathlib.Data.Int.Order.Basic
import Mathlib.Tactic.Ring

/-!
# Reading a machine integer

`str::parse` of an integer type: an optional sign, then decimal digits that are added up with
checked arithmetic. The loop gives up at the first partial result that does not fit, which
loses no numeral: partial results only grow away from zero.

## Main results

- `IntType.parse_eq_ok`: what is accepted is exactly the numerals whose value fits
- `IntType.parse_toString`: a value is read back from its decimal text
-/

/-- A range of integers around zero, as a machine integer type is. -/
structure IntType where
  min : ℤ
  max : ℤ
  min_nonpos : min ≤ 0
  max_nonneg : 0 ≤ max

/-- `std::num::IntErrorKind`. -/
inductive IntErrorKind
  | empty
  | invalidDigit
  | posOverflow
  | negOverflow
  deriving DecidableEq, Repr

/-- The text of a `ParseIntError`. -/
def IntErrorKind.description : IntErrorKind → String
  | empty => "cannot parse integer from empty string"
  | invalidDigit => "invalid digit found in string"
  | posOverflow => "number too large to fit in target type"
  | negOverflow => "number too small to fit in target type"

namespace IntType

def Fits (T : IntType) (n : ℤ) : Prop := T.min ≤ n ∧ n ≤ T.max

instance (T : IntType) (n : ℤ) : Decidable (T.Fits n) := inferInstanceAs (Decidable (_ ∧ _))

/-- The values of the type. -/
abbrev Value (T : IntType) := {n : ℤ // T.Fits n}

variable {T : IntType}

def zero : T.Value := ⟨0, T.min_nonpos, T.max_nonneg⟩

/-- A result of checked arithmetic. -/
def checked (n : ℤ) : Option T.Value := if h : T.Fits n then some ⟨n, h⟩ else none

def signed (T : IntType) : Bool := decide (T.min < 0)

/-- `char::to_digit(10)`. -/
def toDigit (c : Char) : Option ℕ := if c.isDigit then some (c.toNat - '0'.toNat) else none

/-- What does not fit is too large or too small. -/
def overflow (isPositive : Bool) : IntErrorKind := if isPositive then .posOverflow else .negOverflow

/-- The loop over the digits: `checked_mul`, then `checked_add` or `checked_sub`. -/
def accumulate (isPositive : Bool) : T.Value → List Char → Except IntErrorKind T.Value
  | result, [] => .ok result
  | result, c :: rest =>
    match toDigit c with
    | none => .error .invalidDigit
    | some x =>
      match checked (T := T) (result * 10) with
      | none => .error (overflow isPositive)
      | some result =>
        match checked (T := T) (if isPositive then result + x else result - x) with
        | none => .error (overflow isPositive)
        | some result => accumulate isPositive result rest

/-- `from_str_radix(_, 10)`. -/
def parseChars (T : IntType) : List Char → Except IntErrorKind T.Value
  | [] => .error .empty
  | ['+'] | ['-'] => .error .invalidDigit
  | '+' :: rest => accumulate true zero rest
  | '-' :: rest => if T.signed then accumulate false zero rest else accumulate true zero ('-' :: rest)
  | digits => accumulate true zero digits

/-- `str::parse`. -/
def parse (T : IntType) (text : String) : Except IntErrorKind T.Value := T.parseChars text.toList

/-! ## Numerals -/

/-- The value of a magnitude read with a sign. -/
def withSign (isPositive : Bool) (m : ℕ) : ℤ := if isPositive then m else -m

/-- A decimal numeral and its value; a minus sign is for signed types only. -/
inductive Denotes (signed : Bool) : List Char → ℤ → Prop
  | plain {digits : List Char} (hne : digits ≠ []) (hd : ∀ c ∈ digits, c.isDigit) :
    Denotes signed digits (withSign true (Nat.ofDigitChars 10 digits 0))
  | plus {digits : List Char} (hne : digits ≠ []) (hd : ∀ c ∈ digits, c.isDigit) :
    Denotes signed ('+' :: digits) (withSign true (Nat.ofDigitChars 10 digits 0))
  | minus {digits : List Char} (hs : signed = true) (hne : digits ≠ [])
      (hd : ∀ c ∈ digits, c.isDigit) :
    Denotes signed ('-' :: digits) (withSign false (Nat.ofDigitChars 10 digits 0))

variable {isPositive : Bool} {m n : ℕ} {digits : List Char} {v : T.Value}

/-- Nearer to zero fits as well. -/
theorem Fits.of_le (hmn : m ≤ n) (h : T.Fits (withSign isPositive n)) :
    T.Fits (withSign isPositive m) := by
  have hmin := T.min_nonpos
  have hmax := T.max_nonneg
  cases isPositive <;> simp only [Fits, withSign, Bool.false_eq_true, if_true, if_false] at h ⊢ <;>
    omega

theorem withSign_step (isPositive : Bool) (m x : ℕ) :
    (if isPositive then withSign isPositive (10 * m) + x else withSign isPositive (10 * m) - x) =
      withSign isPositive (10 * m + x) := by
  cases isPositive <;> simp only [withSign, Bool.false_eq_true, if_true, if_false] <;> omega

theorem withSign_ten (isPositive : Bool) (m : ℕ) :
    withSign isPositive m * 10 = withSign isPositive (10 * m) := by
  cases isPositive <;> simp only [withSign, Bool.false_eq_true, if_true, if_false] <;> omega

theorem le_ofDigitChars (digits : List Char) (m : ℕ) : m ≤ Nat.ofDigitChars 10 digits m := by
  rw [Nat.ofDigitChars_eq_ofDigitChars_zero]
  exact (Nat.le_mul_of_pos_left m (Nat.pow_pos (by decide))).trans (Nat.le_add_right _ _)

theorem checked_of_fits {k : ℤ} (h : T.Fits k) : checked (T := T) k = some ⟨k, h⟩ := dif_pos h

theorem checked_of_not_fits {k : ℤ} (h : ¬T.Fits k) : checked (T := T) k = none := dif_neg h

theorem accumulate_digit {result : T.Value} (hm : result.val = withSign isPositive m) {c : Char}
    (hc : c.isDigit = true)
    (hfits : T.Fits (withSign isPositive (10 * m + (c.toNat - '0'.toNat)))) :
    accumulate isPositive result (c :: digits) = accumulate isPositive ⟨_, hfits⟩ digits := by
  have hten : T.Fits (withSign isPositive (10 * m)) := hfits.of_le (Nat.le_add_right _ _)
  rw [accumulate, toDigit, if_pos hc, hm, withSign_ten]
  dsimp only
  rw [checked_of_fits hten]
  dsimp only
  rw [withSign_step, checked_of_fits hfits]

theorem accumulate_overflow {result : T.Value} (hm : result.val = withSign isPositive m) {c : Char}
    (hc : c.isDigit = true)
    (hnot : ¬T.Fits (withSign isPositive (10 * m + (c.toNat - '0'.toNat)))) :
    accumulate isPositive result (c :: digits) = .error (overflow isPositive) := by
  rw [accumulate, toDigit, if_pos hc, hm, withSign_ten]
  dsimp only
  by_cases hten : T.Fits (withSign isPositive (10 * m))
  · rw [checked_of_fits hten]
    dsimp only
    rw [withSign_step, checked_of_not_fits hnot]
  · rw [checked_of_not_fits hten]

/-- Reading the digits after a magnitude `m`. The partial results are the magnitudes of the
prefixes, which the last one exceeds: where it fits, each of them does. -/
theorem accumulate_eq_ok {result : T.Value} (hm : result.val = withSign isPositive m) :
    accumulate isPositive result digits = .ok v ↔
      (∀ c ∈ digits, c.isDigit = true) ∧
        v.val = withSign isPositive (Nat.ofDigitChars 10 digits m) := by
  induction digits generalizing result m with
  | nil =>
    rw [accumulate, Nat.ofDigitChars_nil, ← hm, Except.ok.injEq, eq_comm, Subtype.ext_iff]
    simp
  | cons c rest ih =>
    rw [List.forall_mem_cons, Nat.ofDigitChars_cons]
    by_cases hc : c.isDigit = true
    · by_cases hfits : T.Fits (withSign isPositive (10 * m + (c.toNat - '0'.toNat)))
      · rw [accumulate_digit hm hc hfits, ih rfl, and_iff_right hc]
      · rw [accumulate_overflow hm hc hfits]
        refine ⟨nofun, fun h => absurd ?_ hfits⟩
        exact Fits.of_le (le_ofDigitChars rest _) (h.2 ▸ v.2)
    · rw [accumulate, toDigit, if_neg hc]
      exact ⟨nofun, fun h => absurd h.1.1 hc⟩

theorem accumulate_zero_eq_ok : accumulate isPositive zero digits = .ok v ↔
    (∀ c ∈ digits, c.isDigit = true) ∧
      v.val = withSign isPositive (Nat.ofDigitChars 10 digits 0) :=
  accumulate_eq_ok (by cases isPositive <;> rfl)

theorem denotes_plus {signed : Bool} {k : ℤ} : Denotes signed ('+' :: digits) k ↔
    digits ≠ [] ∧ (∀ c ∈ digits, c.isDigit = true) ∧
      k = withSign true (Nat.ofDigitChars 10 digits 0) := by
  constructor
  · intro h
    cases h with
    | plain hne hd => exact absurd (hd _ List.mem_cons_self) (by decide)
    | plus hne hd => exact ⟨hne, hd, rfl⟩
  · rintro ⟨hne, hd, rfl⟩
    exact .plus hne hd

theorem denotes_minus {signed : Bool} {k : ℤ} : Denotes signed ('-' :: digits) k ↔
    signed = true ∧ digits ≠ [] ∧ (∀ c ∈ digits, c.isDigit = true) ∧
      k = withSign false (Nat.ofDigitChars 10 digits 0) := by
  constructor
  · intro h
    cases h with
    | plain hne hd => exact absurd (hd _ List.mem_cons_self) (by decide)
    | minus hs hne hd => exact ⟨hs, hne, hd, rfl⟩
  · rintro ⟨hs, hne, hd, rfl⟩
    exact .minus hs hne hd

theorem denotes_plain {signed : Bool} {k : ℤ} {c : Char} (hplus : c ≠ '+') (hminus : c ≠ '-') :
    Denotes signed (c :: digits) k ↔ (∀ d ∈ c :: digits, d.isDigit = true) ∧
      k = withSign true (Nat.ofDigitChars 10 (c :: digits) 0) := by
  constructor
  · intro h
    cases h with
    | plain hne hd => exact ⟨hd, rfl⟩
    | plus => exact absurd rfl hplus
    | minus => exact absurd rfl hminus
  · rintro ⟨hd, rfl⟩
    exact .plain (List.cons_ne_nil _ _) hd

theorem not_denotes_nil {signed : Bool} {k : ℤ} : ¬Denotes signed [] k := by
  intro h
  cases h with
  | plain hne => exact hne rfl

theorem parseChars_plain {c : Char} (hplus : c ≠ '+') (hminus : c ≠ '-') :
    T.parseChars (c :: digits) = accumulate true zero (c :: digits) := by
  rw [parseChars] <;> simp [hplus, hminus]

/-- **What is accepted.** Exactly the numerals whose value the type has, with that value. -/
theorem parse_eq_ok {text : String} :
    T.parse text = .ok v ↔ Denotes T.signed text.toList v.val := by
  rw [parse]
  generalize text.toList = chars
  obtain _ | ⟨c, digits⟩ := chars
  · exact ⟨nofun, fun h => absurd h not_denotes_nil⟩
  by_cases hplus : c = '+'
  · subst hplus
    rw [denotes_plus]
    cases digits with
    | nil => exact ⟨nofun, fun h => absurd rfl h.1⟩
    | cons d digits =>
      rw [and_iff_right (List.cons_ne_nil _ _), ← accumulate_zero_eq_ok]
      rfl
  by_cases hminus : c = '-'
  · subst hminus
    rw [denotes_minus]
    cases digits with
    | nil => exact ⟨nofun, fun h => absurd rfl h.2.1⟩
    | cons d digits =>
      rw [and_iff_right (List.cons_ne_nil _ _), ← accumulate_zero_eq_ok, parseChars]
      · cases T.signed with
        | true => simp
        | false =>
          rw [if_neg Bool.false_ne_true, accumulate_zero_eq_ok]
          refine ⟨fun h => absurd (h.1 _ List.mem_cons_self) (by decide), fun h => ?_⟩
          cases h.1
      · simp
  rw [denotes_plain hplus hminus, parseChars_plain hplus hminus, accumulate_zero_eq_ok]

/-- A value is read back from its decimal text. -/
theorem parse_toString (v : T.Value) : T.parse (toString v.val) = .ok v := by
  rw [parse_eq_ok]
  have hdigits : ∀ n : ℕ, ∀ c ∈ Nat.toDigits 10 n, c.isDigit = true := fun n c hc =>
    Nat.isDigit_of_mem_toDigits (by decide) (by decide) hc
  have hvalue := @Nat.ofDigitChars_ten_toDigits
  obtain ⟨k, hk⟩ := v
  dsimp only
  rw [Int.toString_eq_repr, Int.repr_eq_if]
  split
  · next hnonneg =>
    obtain ⟨n, rfl⟩ := Int.eq_ofNat_of_zero_le hnonneg
    rw [Int.toNat_natCast, Nat.toList_repr]
    have h := @Denotes.plain T.signed _ Nat.toDigits_ne_nil (hdigits n)
    rw [hvalue] at h
    exact h
  · next hneg =>
    obtain ⟨n, hn⟩ := Int.eq_ofNat_of_zero_le (a := -k) (by omega)
    have hsigned : T.signed = true := decide_eq_true (lt_of_le_of_lt hk.1 (not_le.mp hneg))
    rw [hn, Int.toNat_natCast, String.toList_append, Nat.toList_repr]
    have h := Denotes.minus hsigned Nat.toDigits_ne_nil (hdigits n)
    rw [hvalue] at h
    have hk' : withSign false n = k := by
      rw [withSign, if_neg Bool.false_ne_true]
      omega
    rw [hk'] at h
    exact h

end IntType
