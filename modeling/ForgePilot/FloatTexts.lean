import ForgePilot.Characters
import ForgePilot.JsonReading
import Mathlib.Algebra.Group.Nat.Defs

/-!
# Numbers in texts

A text is read as a floating-point number, and the number is cut to an integer. The text of a decimal
number is a fraction, which is rounded to a significand of 53 bits, ties to even. Which characters
beyond ASCII are digits is left open.
-/

namespace ForgePilot.FloatTexts

open Characters JsonReading List

/-- The digits that are not in ASCII, with their values. -/
abbrev DigitTable := Nat → Option (Fin 10)

/-- A quotient, rounded to the nearest integer, and to the even one between two. -/
def roundHalfEven (numerator denominator : Nat) : Nat :=
  let rest := numerator % denominator
  let below := numerator / denominator
  if denominator < 2 * rest ∨ (denominator = 2 * rest ∧ below % 2 = 1) then below + 1 else below

/-- The whole part of the number nearest to a fraction; too large ones have none. -/
def truncated (numerator denominator : Nat) : Option Nat :=
  let size := numerator / denominator
  if size < 2 ^ 53 then
    let scale := 2 ^ (if size = 0 then 53 else 52 - size.log2)
    some (roundHalfEven (numerator * scale) denominator / scale)
  else
    let unit := 2 ^ (size.log2 - 52)
    let rounded := roundHalfEven numerator (denominator * unit) * unit
    if rounded < 2 ^ 1024 then some rounded else none

/-- A character as it is read for a number: spaces and digits are those of ASCII. -/
def asciiOf (table : DigitTable) (point : Nat) : Char :=
  if point < 127 then Char.ofNat point
  else if isSpace (Char.ofNat point) then ' '
  else
    match table point with
    | some value => Char.ofNat (48 + value.val)
    | none => '?'

def isBlank (character : Char) : Bool :=
  character = ' ' || (9 ≤ character.toNat && character.toNat ≤ 13)

def trimmed (text : Text) : Text := ((text.dropWhile isBlank).reverse.dropWhile isBlank).reverse

/-- A text without underscores, which may stand between two digits. -/
def withoutUnderscores (previous : Char) : Text → Option Text
  | [] => if previous = '_' then none else some []
  | '_' :: rest => if previous.isDigit then withoutUnderscores '_' rest else none
  | character :: rest =>
      if previous = '_' ∧ ¬ character.isDigit then none
      else (withoutUnderscores character rest).map (character :: ·)

def exponentValue : Text → Int
  | [] => 0
  | _ :: '-' :: written => -(Nat.ofDigitChars 10 written 0 : Int)
  | _ :: '+' :: written => (Nat.ofDigitChars 10 written 0 : Int)
  | _ :: written => (Nat.ofDigitChars 10 written 0 : Int)

/-- The digits of a number as an integer, and the power of ten it is multiplied with. -/
def floatParts (text : Text) : Option (Nat × Int) :=
  let (whole, rest) := digits text
  let (fractional, rest) :=
    match rest with
    | '.' :: after => digits after
    | _ => ([], rest)
  let (exponential, rest) := exponent rest
  if (whole = [] ∧ fractional = []) ∨ rest ≠ [] then none
  else
    some (Nat.ofDigitChars 10 (whole ++ fractional) 0, exponentValue exponential - fractional.length)

/-- The integer of a text, -1 for other texts; there is none when the number is infinite. -/
def intOfText (table : DigitTable) (points : CodePoints) : Option Int :=
  match withoutUnderscores 'x' (trimmed (points.map (asciiOf table))) with
  | none => some (-1)
  | some text =>
      let (signed, unsigned) := sign ['+', '-'] text
      if unsigned.map Char.toLower ∈ ["inf".toList, "infinity".toList] then none
      else
        match floatParts unsigned with
        | none => some (-1)
        | some (significand, power) =>
            (truncated (significand * 10 ^ power.toNat) (10 ^ (-power).toNat)).map
              fun size : Nat => if signed = ['-'] then -(size : Int) else (size : Int)

/-! ## Decimal integers -/

/-- An integer as it is printed. -/
def decimal (number : Int) : Text :=
  if number < 0 then '-' :: number.natAbs.repr.toList else number.natAbs.repr.toList

/-- An integer that went through a floating-point number. -/
def throughDouble (number : Int) : Option Int :=
  (truncated number.natAbs 1).map fun size : Nat => if number < 0 then -(size : Int) else (size : Int)

theorem repr_digits (number : Nat) : ∀ char ∈ number.repr.toList, char.isDigit = true := by
  intro char listed
  have among : char ∈ Nat.toDigits 10 number := by simpa [Nat.repr] using listed
  exact Nat.isDigit_of_mem_toDigits (by decide) (by decide) among

variable (table : DigitTable) (number : Int)

theorem decimal_characters : ∀ char ∈ decimal number, char = '-' ∨ char.isDigit = true := by
  intro char listed
  rw [decimal] at listed
  split at listed
  · rcases mem_cons.mp listed with minus | later
    · exact .inl minus
    · exact .inr (repr_digits _ _ later)
  · exact .inr (repr_digits _ _ listed)

theorem digit_bounds {char : Char} (digit : char.isDigit = true) :
    48 ≤ char.toNat ∧ char.toNat ≤ 57 := by
  have codes : '0'.val.toNat = 48 ∧ '9'.val.toNat = 57 := by decide
  simp only [Char.isDigit, Bool.and_eq_true, decide_eq_true_eq, ge_iff_le,
    UInt32.le_iff_toNat_le] at digit
  rw [Char.toNat]
  omega

/-- The characters of a printed integer are read as they are. -/
theorem decimal_bounds {number : Int} {char : Char} (listed : char ∈ decimal number) :
    45 ≤ char.toNat ∧ char.toNat ≤ 57 := by
  rcases decimal_characters _ _ listed with rfl | digit
  · decide
  · have bounds := digit_bounds digit
    omega

theorem ascii_decimal : ((decimal number).map Char.toNat).map (asciiOf table) = decimal number := by
  rw [map_map, map_congr_left (g := id), map_id]
  intro char listed
  have bounds := decimal_bounds listed
  rw [Function.comp_apply, asciiOf, if_pos (by omega), Char.ofNat_toNat]
  rfl

theorem trimmed_decimal : trimmed (decimal number) = decimal number := by
  have visible : ∀ char ∈ decimal number, isBlank char = false := by
    intro char listed
    have bounds := decimal_bounds listed
    refine Bool.eq_false_iff.mpr fun blank => ?_
    simp only [isBlank, Bool.or_eq_true, Bool.and_eq_true, decide_eq_true_eq] at blank
    rcases blank with rfl | control
    · exact absurd bounds.1 (by decide)
    · omega
  have kept (text : Text) (all : ∀ char ∈ text, isBlank char = false) :
      text.dropWhile isBlank = text := by
    cases text with
    | nil => rfl
    | cons first rest => exact dropWhile_cons_of_neg (by simp [all first (.head _)])
  rw [trimmed, kept _ visible,
    kept _ fun char listed => visible char (mem_reverse.mp listed), reverse_reverse]

theorem withoutUnderscores_absent (previous : Char) {text : Text} (notLine : previous ≠ '_')
    (absent : '_' ∉ text) : withoutUnderscores previous text = some text := by
  induction text generalizing previous with
  | nil => rw [withoutUnderscores, if_neg notLine]
  | cons char text ih =>
    have other : char ≠ '_' := fun same => absent (same ▸ (.head _))
    rw [withoutUnderscores, if_neg fun marked => notLine marked.1,
      ih char other fun later => absent (.tail _ later)]
    · rfl
    · exact other

/-- Digits alone are a number without a power of ten. -/
theorem floatParts_digits (text : Text) (filled : text ≠ [])
    (all : ∀ char ∈ text, char.isDigit = true) :
    floatParts text = some (Nat.ofDigitChars 10 text 0, 0) := by
  have taken : text.takeWhile Char.isDigit = text := takeWhile_eq_self_iff.mpr all
  have dropped : text.dropWhile Char.isDigit = [] := dropWhile_eq_nil_iff.mpr all
  simp [floatParts, digits, taken, dropped, exponent, exponentValue, filled]

theorem repr_filled (number : Nat) : number.repr.toList ≠ [] := by
  intro empty
  simp [Nat.repr] at empty

theorem digit_lower (char : Char) (digit : char.isDigit = true) : char.toLower = char := by
  have bounds := digit_bounds digit
  have codes : 'A'.val.toNat = 65 := by decide
  refine dif_neg fun upper => ?_
  rw [Char.toNat] at bounds
  have larger := UInt32.le_iff_toNat_le.mp upper.1
  omega

theorem digits_finite (text : Text) (all : ∀ char ∈ text, char.isDigit = true) :
    text.map Char.toLower ∉ ["inf".toList, "infinity".toList] := by
  have same : text.map Char.toLower = text := by
    rw [map_congr_left fun char listed => digit_lower _ (all char listed), map_id']
  rw [same]
  intro listed
  have first : 'i' ∈ text := by
    rcases mem_pair.mp listed with rfl | rfl
    · decide
    · decide
  exact absurd (all 'i' first) (by decide)

/-- The digits of a printed number are its own. -/
theorem value_repr (number : Nat) : Nat.ofDigitChars 10 number.repr.toList 0 = number := by
  have printed : number.repr.toList = Nat.toDigits 10 number := by simp [Nat.repr]
  rw [printed, Nat.ofDigitChars_ten_toDigits]

/-- A printed integer has a sign when it is negative. -/
theorem sign_decimal : sign ['+', '-'] (decimal number) =
    (if number < 0 then ['-'] else [], number.natAbs.repr.toList) := by
  have all := repr_digits number.natAbs
  rw [decimal]
  split
  · rfl
  obtain ⟨first, rest, same⟩ := exists_cons_of_ne_nil (repr_filled _)
  rw [same] at all ⊢
  have unsigned : first ∉ ['+', '-'] := by
    intro listed
    have digit := all first (.head _)
    rcases mem_pair.mp listed with rfl | rfl
    · cases digit
    · cases digit
  rw [sign, if_neg unsigned]

/-- A printed integer is read as the number that is nearest to it. -/
theorem intOfText_decimal :
    intOfText table ((decimal number).map Char.toNat) = throughDouble number := by
  have plain : '_' ∉ decimal number := fun listed => absurd (decimal_bounds listed).2 (by decide)
  have all := repr_digits number.natAbs
  have filled := repr_filled number.natAbs
  have finite := digits_finite _ all
  have value := value_repr number.natAbs
  have parts := floatParts_digits _ filled all
  rw [value] at parts
  have signs := sign_decimal number
  have one : (10 : Nat) ^ (-(0 : Int)).toNat = 1 := rfl
  rw [intOfText, ascii_decimal, trimmed_decimal, withoutUnderscores_absent 'x' (by decide) plain]
  simp only [signs, if_neg finite, parts, one, Int.toNat_zero, Nat.pow_zero, Nat.mul_one]
  rw [throughDouble]
  by_cases negative : number < 0
  · simp only [if_pos negative]
    rfl
  · simp only [if_neg negative]
    rfl

/-! ## Integers -/

def strOfInt (number : Int) : String := String.ofList (decimal number)

def strOfNat (number : Nat) : String := strOfInt number

/-- The integer that a text is, if it is one. -/
def intOfStr (table : DigitTable) (text : String) : Option Int :=
  match withoutUnderscores 'x' (trimmed ((text.toList.map Char.toNat).map (asciiOf table))) with
  | none => none
  | some text =>
      let (signed, unsigned) := sign ['+', '-'] text
      let (whole, rest) := digits unsigned
      if whole = [] ∨ rest ≠ [] then none
      else
        let size : Int := Nat.ofDigitChars 10 whole 0
        some (if signed = ['-'] then -size else size)

theorem intOfStr_strOfInt : intOfStr table (strOfInt number) = some number := by
  have plain : '_' ∉ decimal number := fun listed => absurd (decimal_bounds listed).2 (by decide)
  have all := repr_digits number.natAbs
  have taken : number.natAbs.repr.toList.takeWhile Char.isDigit = number.natAbs.repr.toList :=
    takeWhile_eq_self_iff.mpr all
  have dropped : number.natAbs.repr.toList.dropWhile Char.isDigit = [] :=
    dropWhile_eq_nil_iff.mpr all
  have filled : ¬ (number.natAbs.repr.toList = [] ∨ ([] : Text) ≠ []) := by
    rintro (empty | other)
    · exact repr_filled _ empty
    · exact other rfl
  rw [intOfStr, strOfInt, String.toList_ofList, ascii_decimal, trimmed_decimal,
    withoutUnderscores_absent 'x' (by decide) plain]
  simp only [sign_decimal, digits, taken, dropped, if_neg filled, value_repr, Option.some.injEq]
  by_cases negative : number < 0
  · rw [if_pos negative, if_pos rfl]
    omega
  · rw [if_neg negative, if_neg (by decide)]
    omega

end ForgePilot.FloatTexts
