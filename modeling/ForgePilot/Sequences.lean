import Mathlib.Data.List.Basic

/-!
# Sequences with signed positions

Slices and insertions count negative positions from the end and clip positions
beyond either end. A position of minus zero is zero, which is the start and not
the end: `slice items low (-0)` is empty.
-/

namespace ForgePilot.Sequences

open List Option

universe u
variable {α : Type u}

/-- The place a signed position denotes in a sequence of the given length. -/
def place (length : Nat) (position : Int) : Nat :=
  if position < 0 then (position + length).toNat else min position.toNat length

/-- The items from one position up to another. -/
def slice (items : List α) (start stop : Option Int) : List α :=
  (items.take (stop.elim items.length (place items.length))).drop
    (start.elim 0 (place items.length))

/-- Insert an item before the one at a position. -/
def insertAt (items : List α) (position : Int) (item : α) : List α :=
  items.take (place items.length position) ++ item :: items.drop (place items.length position)

theorem place_natural {length position : Nat} (inside : position ≤ length) :
    place length position = position := by
  rw [place, if_neg (by omega)]
  omega

theorem place_negative (length back : Nat) (positive : 0 < back) :
    place length (-(back : Int)) = length - back := by
  rw [place, if_pos (by omega)]
  omega

variable (items : List α)

/-- A slice up to a natural position is a front part. -/
theorem slice_front (stop : Nat) : slice items none (some stop) = items.take stop := by
  simp only [slice, elim_none, elim_some, drop_zero]
  by_cases inside : stop ≤ items.length
  · rw [place_natural inside]
  have beyond : items.length ≤ stop := by omega
  have clipped : place items.length stop = items.length := by
    rw [place, if_neg (by omega)]
    omega
  rw [clipped, take_of_length_le beyond, take_length]

/-- A slice between a natural position and one counted from the end. -/
theorem slice_middle {start back : Nat} (inside : start ≤ items.length) (positive : 0 < back) :
    slice items (some start) (some (-(back : Int))) =
      (items.take (items.length - back)).drop start := by
  simp only [slice, elim_some]
  rw [place_natural inside, place_negative _ _ positive]

/-- A slice that ends at position zero is empty. -/
theorem slice_to_zero (start : Option Int) : slice items start (some 0) = [] := by
  have zero : place items.length 0 = 0 := place_natural (Nat.zero_le _)
  simp [slice, zero]

/-- Inserting at a natural position inside the sequence. -/
theorem insert_at_natural {position : Nat} (item : α) (inside : position ≤ items.length) :
    insertAt items position item = items.take position ++ item :: items.drop position := by
  rw [insertAt, place_natural inside]

/-- A slice between natural positions. -/
theorem slice_natural (first last : Nat) :
    slice items (some (first : Int)) (some (last : Int)) = (items.take last).drop first := by
  have clipped (position : Nat) : place items.length position = min position items.length := by
    rw [place, if_neg (by omega), Int.toNat_natCast]
  simp only [slice, elim_some, clipped]
  have front : items.take (min last items.length) = items.take last := by
    rw [← take_eq_take_min]
  rw [front]
  by_cases inside : first ≤ items.length
  · rw [Nat.min_eq_left inside]
  have beyond : (items.take last).length ≤ items.length := by
    rw [length_take]
    omega
  rw [drop_eq_nil_of_le (by omega), drop_eq_nil_of_le (by omega)]

/-- A slice from a natural position to the end. -/
theorem slice_rest (first : Nat) : slice items (some (first : Int)) none = items.drop first := by
  have whole : slice items (some (first : Int)) none =
      slice items (some (first : Int)) (some (items.length : Int)) := by
    simp only [slice, elim_some, elim_none]
    rw [place_natural (Nat.le_refl _)]
  rw [whole, slice_natural, take_length]

end ForgePilot.Sequences
