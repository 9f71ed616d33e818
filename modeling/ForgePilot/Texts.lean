import Mathlib.Data.List.Basic

/-!
# Texts with a separator and a decimal number

A text that ends in a separator and the decimal digits of a number determines
both: the last separator is the one before the digits, because digits contain
none.
-/

namespace ForgePilot.Texts

/-- Two lists that agree after appending a separator and separator-free rests
agree in front of it and behind it. -/
theorem append_cons_inj {α : Type} (separator : α) (left right : List α)
    (leftRest rightRest : List α) (leftFree : separator ∉ leftRest)
    (rightFree : separator ∉ rightRest)
    (same : left ++ separator :: leftRest = right ++ separator :: rightRest) :
    left = right ∧ leftRest = rightRest := by
  induction left generalizing right with
  | nil =>
    cases right with
    | nil => exact ⟨rfl, (List.cons.inj same).2⟩
    | cons head tail =>
      have rests : leftRest = tail ++ separator :: rightRest := (List.cons.inj same).2
      exact absurd (rests ▸ List.mem_append_right tail (.head _)) leftFree
  | cons head tail ih =>
    cases right with
    | nil =>
      have rests : tail ++ separator :: leftRest = rightRest := (List.cons.inj same).2
      exact absurd (rests ▸ List.mem_append_right tail (.head _)) rightFree
    | cons other others =>
      obtain ⟨sameHead, sameTail⟩ := List.cons.inj same
      obtain ⟨rfl, rfl⟩ := ih others sameTail
      exact ⟨by rw [sameHead], rfl⟩

/-- The decimal digits of a number contain no number sign. -/
theorem hash_not_mem_repr (number : Nat) : '#' ∉ number.repr.toList := by
  intro member
  have digits : '#' ∈ Nat.toDigits 10 number := by simpa [Nat.repr] using member
  exact absurd (Nat.isDigit_of_mem_toDigits (by decide) (by decide) digits) (by decide)

/-- A text followed by a number sign and a number determines both. -/
theorem hash_suffix_inj {left right : String} {leftNumber rightNumber : Nat}
    (same : left ++ "#" ++ leftNumber.repr = right ++ "#" ++ rightNumber.repr) :
    left = right ∧ leftNumber = rightNumber := by
  have lists : left.toList ++ '#' :: leftNumber.repr.toList =
      right.toList ++ '#' :: rightNumber.repr.toList := by
    simpa using congrArg String.toList same
  obtain ⟨texts, numbers⟩ := append_cons_inj '#' _ _ _ _
    (hash_not_mem_repr _) (hash_not_mem_repr _) lists
  have digits : Nat.toDigits 10 leftNumber = Nat.toDigits 10 rightNumber := by
    simpa using numbers
  refine ⟨String.toList_inj.mp texts, ?_⟩
  calc
    leftNumber = Nat.ofDigitChars 10 (Nat.toDigits 10 leftNumber) 0 :=
      Nat.ofDigitChars_ten_toDigits.symm
    _ = Nat.ofDigitChars 10 (Nat.toDigits 10 rightNumber) 0 := by rw [digits]
    _ = rightNumber := Nat.ofDigitChars_ten_toDigits

end ForgePilot.Texts
