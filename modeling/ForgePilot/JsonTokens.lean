import ForgePilot.JsonReading
import Mathlib.Data.List.TakeWhile

/-!
# Words and numbers of JSON

A word or a number that was read stands at the front of the text, and it is read again in front of any other rest.
Only what follows a number must not be a part of one.
-/

namespace ForgePilot.JsonTokens

open JsonReading List

def AllDigits (text : Text) : Prop := ∀ character ∈ text, character.isDigit = true

/-- A whole number without superfluous zeros. -/
def IsWhole (text : Text) : Prop :=
  text = ['0'] ∨ ∃ first rest, text = first :: rest ∧ first ≠ '0' ∧ AllDigits (first :: rest)

/-- A fraction, or nothing. -/
def IsFraction (text : Text) : Prop :=
  text = [] ∨ ∃ after, text = '.' :: after ∧ after ≠ [] ∧ AllDigits after

/-- An exponent, or nothing. -/
def IsExponent (text : Text) : Prop :=
  text = [] ∨ ∃ mark signed after, text = mark :: (signed ++ after) ∧ (mark = 'e' ∨ mark = 'E') ∧
    (signed = [] ∨ signed = ['+'] ∨ signed = ['-']) ∧ after ≠ [] ∧ AllDigits after

structure NumberParts (signed integer fractional exponential : Text) : Prop where
  sign : signed = [] ∨ signed = ['-']
  whole : IsWhole integer
  fraction : IsFraction fractional
  exponent : IsExponent exponential

/-- A value without strings and other values in it, and the text that it is written as. -/
inductive Atom : Json → Text → Prop
  | null : Atom .null "null".toList
  | yes : Atom (.bool true) "true".toList
  | no : Atom (.bool false) "false".toList
  | number (signed integer fractional exponential : Text)
      (parts : NumberParts signed integer fractional exponential) :
      Atom (.number (signed ++ integer ++ fractional ++ exponential))
        (signed ++ integer ++ fractional ++ exponential)
  | notANumber : Atom (.number "NaN".toList) "NaN".toList
  | infinity : Atom (.number "Infinity".toList) "Infinity".toList
  | negativeInfinity : Atom (.number "-Infinity".toList) "-Infinity".toList

/-- A text begins with no character that may be a part of a number. -/
def EndsNumber (rest : Text) : Prop :=
  ∀ character, rest.head? = some character →
    character.isDigit = false ∧ character ≠ '.' ∧ character ≠ 'e' ∧ character ≠ 'E'

/-! ## Numbers that are read -/

theorem digits_parts (text : Text) : text = (digits text).1 ++ (digits text).2 ∧ AllDigits (digits text).1 :=
  ⟨takeWhile_append_dropWhile.symm, fun _ member => mem_takeWhile_imp member⟩

theorem sign_parts (signs text : Text) : text = (sign signs text).1 ++ (sign signs text).2 ∧
    ((sign signs text).1 = [] ∨ ∃ mark ∈ signs, (sign signs text).1 = [mark]) := by
  unfold sign
  split
  · split
    · rename_i mark rest listed
      exact ⟨rfl, .inr ⟨mark, listed, rfl⟩⟩
    · exact ⟨rfl, .inl rfl⟩
  · exact ⟨rfl, .inl rfl⟩

variable {rest integer text : Text}

theorem whole_parts (scanned : whole text = some (integer, rest)) :
    text = integer ++ rest ∧ IsWhole integer := by
  unfold whole at scanned
  split at scanned
  · cases scanned
    exact ⟨rfl, .inl rfl⟩
  · rename_i char others notZero
    split at scanned
    · rename_i digit
      obtain ⟨split, all⟩ := digits_parts ..
      cases scanned
      exact ⟨congrArg (char :: ·) split, .inr ⟨char, _, rfl, fun zero => notZero zero,
        forall_mem_cons.mpr ⟨digit, all⟩⟩⟩
    · cases scanned
  · cases scanned

theorem fraction_parts (text : Text) :
    text = (fraction text).1 ++ (fraction text).2 ∧ IsFraction (fraction text).1 := by
  unfold fraction
  split
  · rename_i rest
    dsimp only
    split
    · exact ⟨rfl, .inl rfl⟩
    · rename_i filled
      obtain ⟨split, all⟩ := digits_parts _
      exact ⟨congrArg ('.' :: ·) split, .inr ⟨_, rfl, filled, all⟩⟩
  · exact ⟨rfl, .inl rfl⟩

theorem exponent_parts (text : Text) :
    text = (exponent text).1 ++ (exponent text).2 ∧ IsExponent (exponent text).1 := by
  unfold exponent
  split
  · rename_i mark rest
    split
    · rename_i marked
      dsimp only
      split
      · exact ⟨rfl, .inl rfl⟩
      rename_i filled
      obtain ⟨split, signed⟩ := sign_parts ..
      obtain ⟨later, all⟩ := digits_parts ..
      refine ⟨?_, .inr ⟨mark, _, _, rfl, marked, ?_, filled, all⟩⟩
      · calc mark :: rest
            = mark :: ((sign ['+', '-'] rest).1 ++ (sign ['+', '-'] rest).2) := by rw [← split]
          _ = _ := by
              rw [cons_append, append_assoc, ← later]
      · simpa using signed
    · exact ⟨rfl, .inl rfl⟩
  · exact ⟨rfl, .inl rfl⟩

theorem scanNumber_parts (text rest : Text) (value : Json) (scanned : scanNumber text = some (value, rest)) :
    ∃ written, Atom value written ∧ text = written ++ rest := by
  obtain ⟨split, mark⟩ := sign_parts ..
  rw [scanNumber] at scanned
  generalize sign ['-'] text = signs at scanned split mark
  obtain ⟨signed, unsigned⟩ := signs
  obtain ⟨⟨integer, after⟩, found, scanned⟩ := Option.bind_eq_some_iff.mp scanned
  obtain ⟨integral, isWhole⟩ := whole_parts found
  obtain ⟨fractional, isFraction⟩ := fraction_parts _
  obtain ⟨exponential, isExponent⟩ := exponent_parts ..
  dsimp only at scanned
  cases scanned
  refine ⟨_, Atom.number _ _ _ _ ⟨by simpa using mark, isWhole, isFraction, isExponent⟩, ?_⟩
  calc text = signed ++ unsigned := split
    _ = signed ++ (integer ++ after) := by rw [← integral]
    _ = signed ++ (integer ++ ((fraction after).1 ++ (fraction after).2)) := by rw [← fractional]
    _ = signed ++ (integer ++ ((fraction after).1 ++ ((exponent (fraction after).2).1 ++
          (exponent (fraction after).2).2))) := by rw [← exponential]
    _ = _ := by simp

variable {value : Json}

variable {written : String}

theorem word_parts {found : Json} (scanned : word written value text = some (found, rest)) :
    found = value ∧ text = written.toList ++ rest := by
  rw [word] at scanned
  split at scanned
  · rename_i front
    cases scanned
    obtain ⟨more, rfl⟩ := isPrefixOf_iff_prefix.mp front
    exact ⟨rfl, by rw [← String.length_toList, drop_left]⟩
  · cases scanned

/-- What is read as a word or a number is written in front of the rest. -/
theorem scanAtom_parts (scanned : scanAtom text = some (value, rest)) :
    ∃ written, Atom value written ∧ text = written ++ rest := by
  have worded (written : String) (named : Json) (atom : Atom named written.toList)
      (found : word written named text = some (value, rest)) :
      ∃ written, Atom value written ∧ text = written ++ rest := by
    obtain ⟨rfl, split⟩ := word_parts found
    exact ⟨_, atom, split⟩
  simp only [scanAtom, Option.or_eq_some_iff] at scanned
  rcases scanned with (((((found | ⟨-, found⟩) | ⟨-, found⟩) | ⟨-, found⟩) | ⟨-, found⟩) |
    ⟨-, found | ⟨-, found⟩⟩)
  · exact worded _ _ .null found
  · exact worded _ _ .yes found
  · exact worded _ _ .no found
  · exact scanNumber_parts _ _ _ found
  · exact worded _ _ .notANumber found
  · exact worded _ _ .infinity found
  · exact worded _ _ .negativeInfinity found

/-! ## Numbers that are written -/

/-- A text does not begin with a digit. -/
def EndsDigits (rest : Text) : Prop := ∀ character, rest.head? = some character → character.isDigit = false

theorem digits_written {after : Text} (all : AllDigits after) (ends : EndsDigits rest) :
    digits (after ++ rest) = (after, rest) := by
  have taken : rest.takeWhile Char.isDigit = [] ∧ rest.dropWhile Char.isDigit = rest := by
    cases rest with
    | nil => exact ⟨rfl, rfl⟩
    | cons char others =>
      have visible : ¬ char.isDigit = true := by simp [ends char rfl]
      exact ⟨takeWhile_cons_of_neg visible, dropWhile_cons_of_neg visible⟩
  rw [digits, takeWhile_append_of_pos all, dropWhile_append_of_pos all, taken.1, taken.2,
    append_nil]

theorem whole_written (isWhole : IsWhole integer) (ends : EndsDigits rest) :
    whole (integer ++ rest) = some (integer, rest) := by
  rcases isWhole with rfl | ⟨first, others, rfl, notZero, all⟩
  · rfl
  · obtain ⟨digit, later⟩ := forall_mem_cons.mp all
    rw [cons_append, whole, digit, if_pos rfl, digits_written later ends]
    exact notZero

theorem exponent_written (exponential rest : Text) (isExponent : IsExponent exponential)
    (ends : EndsNumber rest) : exponent (exponential ++ rest) = (exponential, rest) := by
  rcases isExponent with rfl | ⟨mark, signed, after, rfl, marked, isSign, filled, all⟩
  · cases rest with
    | nil => rfl
    | cons char others =>
      obtain ⟨-, -, small, large⟩ := ends char rfl
      rw [nil_append, exponent, if_neg (by simp [small, large])]
  · have stops : EndsDigits rest := fun char head => (ends char head).1
    obtain ⟨first, others, rfl⟩ := exists_cons_of_ne_nil filled
    have digit : first.isDigit = true := all first (.head _)
    have unsigned : ∀ mark ∈ ['+', '-'], first ≠ mark := by
      rintro mark listed rfl
      simp only [mem_cons, not_mem_nil, or_false] at listed
      rcases listed with rfl | rfl
      · revert digit
        decide
      · revert digit
        decide
    have split : sign ['+', '-'] (signed ++ ((first :: others) ++ rest)) = (signed, (first :: others) ++ rest) := by
      rcases isSign with rfl | rfl | rfl
      · rw [nil_append, cons_append, sign, if_neg]
        exact fun listed => unsigned first listed rfl
      · rfl
      · rfl
    rw [cons_append, append_assoc, exponent, if_pos marked, split]
    dsimp only
    rw [digits_written all stops]
    rfl

variable {fractional : Text}

theorem fraction_written (isFraction : IsFraction fractional)
    (ends : ∀ char, rest.head? = some char → char.isDigit = false ∧ char ≠ '.') :
    fraction (fractional ++ rest) = (fractional, rest) := by
  rcases isFraction with rfl | ⟨after, rfl, filled, all⟩
  · cases rest with
    | nil => rfl
    | cons char others =>
      rw [nil_append, fraction]
      exact fun others same => (ends char rfl).2 (cons.inj same).1
  · rw [cons_append, fraction, digits_written all fun char head => (ends char head).1]
    exact if_neg filled

variable {exponential : Text}

/-- An exponent begins with no digit and no point. -/
theorem exponent_head (isExponent : IsExponent exponential) (ends : EndsNumber rest) (char : Char)
    (head : (exponential ++ rest).head? = some char) : char.isDigit = false ∧ char ≠ '.' := by
  rcases isExponent with rfl | ⟨mark, signed, after, rfl, rfl | rfl, -⟩
  · exact ⟨(ends char head).1, (ends char head).2.1⟩
  · cases head
    decide
  · cases head
    decide

/-- Nor does a fraction with an exponent begin with a digit. -/
theorem fraction_head (isFraction : IsFraction fractional) (isExponent : IsExponent exponential)
    (ends : EndsNumber rest) : EndsDigits (fractional ++ (exponential ++ rest)) := by
  intro char head
  rcases isFraction with rfl | ⟨after, rfl, -⟩
  · exact (exponent_head isExponent ends _ head).1
  · cases head
    decide

/-- A whole number begins with a digit. -/
theorem whole_head (isWhole : IsWhole integer) :
    ∃ first rest, integer = first :: rest ∧ first.isDigit = true := by
  rcases isWhole with rfl | ⟨first, rest, rfl, -, all⟩
  · exact ⟨'0', [], rfl, by decide⟩
  · exact ⟨first, rest, rfl, all first (.head _)⟩

variable {signed : Text} (parts : NumberParts signed integer fractional exponential)

include parts in
theorem scanNumber_written (ends : EndsNumber rest) :
    scanNumber (signed ++ integer ++ fractional ++ exponential ++ rest) =
      some (.number (signed ++ integer ++ fractional ++ exponential), rest) := by
  obtain ⟨first, others, same, digit⟩ := whole_head parts.whole
  have negative : first ≠ '-' := by
    rintro rfl
    revert digit
    decide
  have split : sign ['-'] (signed ++ (integer ++ (fractional ++ (exponential ++ rest)))) =
      (signed, integer ++ (fractional ++ (exponential ++ rest))) := by
    rcases parts.sign with rfl | rfl
    · rw [nil_append, same, cons_append, sign, if_neg (by simpa using negative)]
    · rfl
  simp only [append_assoc]
  rw [scanNumber, split]
  dsimp only
  rw [whole_written parts.whole
    (fraction_head parts.fraction parts.exponent ends)]
  simp [fraction_written parts.fraction (exponent_head parts.exponent ends),
    exponent_written _ _ parts.exponent ends]

/-! ## Words and numbers -/

variable {first : Char}

/-- A word is not at the front of a text that begins in another way. -/
theorem word_none (value : Json) {letter : Char} (begins : text.head? = some first)
    (own : written.toList.head? = some letter) (differs : letter ≠ first) :
    word written value text = none := by
  rw [word, if_neg]
  intro front
  obtain ⟨more, rfl⟩ := isPrefixOf_iff_prefix.mp front
  rw [head?_append, own] at begins
  exact differs (Option.some.inj begins)

theorem word_written (written : String) (value : Json) (rest : Text) :
    word written value (written.toList ++ rest) = some (value, rest) := by
  rw [word, if_pos (List.isPrefixOf_iff_prefix.mpr (prefix_append _ _)), ← String.length_toList,
    drop_left]

/-- A digit is none of some marks that are no digits. -/
theorem digit_apart (digit : first.isDigit = true) {marks : Text}
    (none : ∀ mark ∈ marks, mark.isDigit = false) : first ∉ marks := by
  intro listed
  rw [none first listed] at digit
  cases digit

include parts in
theorem number_head :
    ∃ first rest, signed ++ integer ++ fractional ++ exponential = first :: rest ∧
      (first.isDigit = true ∨ first = '-') := by
  obtain ⟨first, others, rfl, digit⟩ := whole_head parts.whole
  rcases parts.sign with rfl | rfl
  · exact ⟨first, _, rfl, .inl digit⟩
  · exact ⟨'-', _, rfl, .inr rfl⟩

/-- The characters that have a meaning of their own, or none. -/
def marks : Text := [' ', '\t', '\n', '\r', '"', '[', ']', '\x7b', '\x7d', ',', ':']

theorem visible_of_apart (apart : first ∉ marks) : isWhitespace first = false := by
  by_contra space
  simp only [isWhitespace, Bool.not_eq_false, Bool.or_eq_true, decide_eq_true_eq] at space
  rcases space with ((rfl | rfl) | rfl) | rfl
  all_goals exact apart (by decide)

/-- A word or a number begins with a letter, a digit or a sign. -/
theorem atom_head {written : Text} (atom : Atom value written) :
    ∃ first rest, written = first :: rest ∧ first ∉ marks := by
  cases atom with
  | null | yes | no | notANumber | infinity | negativeInfinity => exact ⟨_, _, rfl, by decide⟩
  | number signed integer fractional exponential parts =>
    obtain ⟨first, rest, split, digit | rfl⟩ := number_head parts
    · exact ⟨first, rest, split, digit_apart digit (by simp [marks])⟩
    · exact ⟨'-', rest, split, by decide⟩

/-- No word is at the front of a number. -/
theorem scanAtom_number (begins : text.head? = some first)
    (numeric : first.isDigit = true ∨ first = '-') (scanned : Json × Text)
    (found : scanNumber text = some scanned) : scanAtom text = some scanned := by
  have letters : 'n' ≠ first ∧ 't' ≠ first ∧ 'f' ≠ first := by
    refine ⟨?_, ?_, ?_⟩
    all_goals
      rintro rfl
      revert numeric
      decide
  rw [scanAtom, found, word_none _ begins rfl letters.1, word_none _ begins rfl letters.2.1,
    word_none _ begins rfl letters.2.2]
  rfl

/-- A word or a number is read in front of any rest. -/
theorem scanAtom_written {written : Text} (atom : Atom value written)
    (ends : (∃ number, value = .number number) → EndsNumber rest) :
    scanAtom (written ++ rest) = some (value, rest) := by
  cases atom with
  | null =>
    rw [scanAtom, word_written]
    rfl
  | yes =>
    rw [scanAtom, word_none _ rfl rfl (by decide), word_written]
    rfl
  | no =>
    rw [scanAtom, word_none _ rfl rfl (by decide), word_none _ rfl rfl (by decide), word_written]
    rfl
  | notANumber =>
    have none : scanNumber ("NaN".toList ++ rest) = none := rfl
    rw [scanAtom, word_none _ rfl rfl (by decide),
      word_none _ rfl rfl (by decide), word_none _ rfl rfl (by decide),
      none, word_written]
    rfl
  | infinity =>
    have none : scanNumber ("Infinity".toList ++ rest) = none := rfl
    rw [scanAtom, word_none _ rfl rfl (by decide),
      word_none _ rfl rfl (by decide), word_none _ rfl rfl (by decide),
      none, word_none _ rfl rfl (by decide), word_written]
    rfl
  | negativeInfinity =>
    have none : scanNumber ("-Infinity".toList ++ rest) = none := rfl
    rw [scanAtom, word_none _ rfl rfl (by decide),
      word_none _ rfl rfl (by decide), word_none _ rfl rfl (by decide),
      none, word_none _ rfl rfl (by decide),
      word_none _ rfl rfl (by decide), word_written]
    rfl
  | number signed integer fractional exponential parts =>
    obtain ⟨first, others, split, numeric⟩ := number_head parts
    apply scanAtom_number (by rw [split]; rfl) numeric
    exact scanNumber_written parts (ends ⟨_, rfl⟩)

end ForgePilot.JsonTokens
