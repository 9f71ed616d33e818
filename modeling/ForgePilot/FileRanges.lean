import ForgePilot.RuntimeFiles

/-!
# Ranges of lines that are read

The lines that are asked for are those between two bounds that are clipped to the file. What is read
begins no later than at the last line but one and holds at least one line, so that it is what was asked for
when the range goes to the end of the file by its sentinel, and otherwise when it holds a line and does not
begin at the last of several lines.
-/

namespace ForgePilot.FileRanges

open Sequences RuntimeFiles List

universe u
variable {α : Type u}

/-- A number brought between two bounds. -/
def clip (low high value : Int) : Int := max low (min value high)

def requested (lines : List α) (start stop : Int) : List α :=
  let first := clip 0 lines.length start
  let last := if stop = -1 then (lines.length : Int) else clip first lines.length stop
  slice lines (some first) (some last)

/-- The ranges of a file with so many lines that are read as they were asked for. -/
def ReadExactly (length : Nat) (start stop : Int) : Prop :=
  stop = -1 ∨ length = 0 ∨
    clip 0 length start < clip 0 length stop ∧ (length = 1 ∨ clip 0 length start ≤ length - 2)

/-- Where a range begins when it is asked for. -/
def firstOf (length : Nat) (start : Int) : Nat := min start.toNat length

/-! ## What is read and what is asked for -/

theorem clip_eq (length : Nat) (value : Int) : clip 0 length value = (firstOf length value : Int) := by
  simp only [clip, firstOf]
  omega

variable (lines : List α) (start stop : Int)

theorem requested_eq (bounded : stop ≠ -1) : requested lines start stop =
      (lines.take (max (firstOf lines.length start) (firstOf lines.length stop))).drop
        (firstOf lines.length start) := by
  have last : clip (clip 0 lines.length start) lines.length stop =
      ((max (firstOf lines.length start) (firstOf lines.length stop) : Nat) : Int) := by
    simp only [clip, firstOf]
    omega
  rw [requested, if_neg bounded, last, clip_eq, slice_natural]

theorem requested_to_end :
    requested lines start (-1) = lines.drop (firstOf lines.length start) := by
  rw [requested, if_pos rfl, clip_eq, slice_natural, take_length]

theorem readLines_to_end :
    readLines lines start (-1) = lines.drop (firstOf lines.length start) := by
  have first : min (max start 0) (lines.length : Int) = (firstOf lines.length start : Int) := by
    simp only [firstOf]
    omega
  have sentinel : min (-1) (lines.length : Int) = -1 := by omega
  simp only [readLines, first, if_true, sentinel, slice_rest]
  split
  · rename_i zero
    rw [Int.natCast_eq_zero.mp zero, drop_zero]
  · rfl

/-- What is read begins no later than at the last line but one, and holds a line if there is one. -/
theorem readLines_eq (bounded : stop ≠ -1) : readLines lines start stop =
      (lines.take (max (min (firstOf lines.length start) (lines.length - 2) + 1)
        (firstOf lines.length stop))).drop (min (firstOf lines.length start) (lines.length - 2)) := by
  have last : min (max stop 0) (lines.length : Int) = (firstOf lines.length stop : Int) := by
    simp only [firstOf]
    omega
  have first : max 0 (min (min (max start 0) (lines.length : Int)) ((lines.length : Int) - 2)) =
      ((min (firstOf lines.length start) (lines.length - 2) : Nat) : Int) := by
    simp only [firstOf]
    omega
  have notSentinel : (firstOf lines.length stop : Int) ≠ -1 := by omega
  have inside : ¬ (firstOf lines.length stop : Int) > lines.length := by
    simp only [firstOf]
    omega
  have held : max (((min (firstOf lines.length start) (lines.length - 2) : Nat) : Int) + 1)
      (firstOf lines.length stop : Int) =
      ((max (min (firstOf lines.length start) (lines.length - 2) + 1)
        (firstOf lines.length stop) : Nat) : Int) := by
    omega
  simp only [readLines, if_neg bounded, last, if_neg notSentinel, if_neg inside, first, held]
  rw [← slice_natural]

/-! ## Lengths -/

theorem requested_length (bounded : stop ≠ -1) : (requested lines start stop).length =
      firstOf lines.length stop - firstOf lines.length start := by
  rw [requested_eq _ _ _ bounded, length_drop, length_take]
  simp only [firstOf]
  omega

theorem readLines_length (bounded : stop ≠ -1) : (readLines lines start stop).length =
      min (max (min (firstOf lines.length start) (lines.length - 2) + 1) (firstOf lines.length stop))
        lines.length - min (firstOf lines.length start) (lines.length - 2) := by
  rw [readLines_eq _ _ _ bounded, length_drop, length_take]

theorem readExactly_iff (length : Nat) (start stop : Int) (bounded : stop ≠ -1) :
    ReadExactly length start stop ↔ length = 0 ∨ firstOf length start < firstOf length stop ∧
        (length = 1 ∨ firstOf length start + 2 ≤ length) := by
  rw [ReadExactly, clip_eq, clip_eq]
  constructor
  · rintro (sentinel | empty | ⟨filled, early⟩)
    · exact absurd sentinel bounded
    · exact .inl empty
    · exact .inr ⟨by omega, by omega⟩
  · rintro (empty | ⟨filled, early⟩)
    · exact .inr (.inl empty)
    · exact .inr (.inr ⟨by omega, by omega⟩)

/-- No fewer lines are read than are asked for, and more unless the range is read exactly. -/
theorem length_readLines_cases : ReadExactly lines.length start stop ∨
      (requested lines start stop).length < (readLines lines start stop).length := by
  by_cases bounded : stop = -1
  · exact .inl (.inl bounded)
  rw [readExactly_iff _ _ _ bounded, readLines_length _ _ _ bounded, requested_length _ _ _ bounded]
  simp only [firstOf]
  omega

theorem readLines_of_exactly {lines : List α} {start stop : Int}
    (exactly : ReadExactly lines.length start stop) :
    readLines lines start stop = requested lines start stop := by
  by_cases bounded : stop = -1
  · rw [bounded, readLines_to_end, requested_to_end]
  rw [readLines_eq _ _ _ bounded, requested_eq _ _ _ bounded]
  rcases (readExactly_iff _ _ _ bounded).mp exactly with empty | ⟨filled, early⟩
  · rw [length_eq_zero_iff.mp empty]
    simp
  have first : min (firstOf lines.length start) (lines.length - 2) = firstOf lines.length start := by
    simp only [firstOf] at filled early ⊢
    omega
  have last : max (firstOf lines.length start + 1) (firstOf lines.length stop) =
      max (firstOf lines.length start) (firstOf lines.length stop) := by
    omega
  rw [first, last]

/-- A range is read as it was asked for exactly under the condition on its bounds. -/
theorem readLines_iff : readLines lines start stop = requested lines start stop ↔
      ReadExactly lines.length start stop := by
  constructor
  · intro same
    refine (length_readLines_cases ..).resolve_right ?_
    rw [same]
    exact Nat.lt_irrefl _
  · exact readLines_of_exactly

/-! ## Consecutive ranges -/

theorem requested_consecutive {first second : Nat} (ordered : first ≤ second)
    (inside : second ≤ lines.length) :
    requested lines 0 first ++ requested lines first second ++
      requested lines second lines.length = lines := by
  have position (place : Nat) (within : place ≤ lines.length) :
      firstOf lines.length (place : Int) = place := by
    simp only [firstOf]
    omega
  have zero : firstOf lines.length 0 = 0 := position 0 (Nat.zero_le _)
  rw [requested_eq _ _ _ (by omega), requested_eq _ _ _ (by omega), requested_eq _ _ _ (by omega),
    zero, position first (by omega), position second inside, position _ le_rfl,
    Nat.zero_max, Nat.max_eq_right ordered, Nat.max_eq_right inside, drop_zero, take_length]
  have front : lines.take first ++ (lines.take second).drop first = lines.take second := by
    conv_rhs => rw [← take_append_drop first (lines.take second), take_take,
      Nat.min_eq_left ordered]
  rw [front, take_append_drop]

/-- Ranges are read as they were asked for exactly when they hold a line and do not begin at the last
of several lines, or go to the end by the sentinel; consecutive ranges give back the file exactly when all
three are. -/
theorem ranges_read_exactly (lines : List α) :
    (∀ start stop, readLines lines start stop = requested lines start stop ↔
      ReadExactly lines.length start stop) ∧
    ∀ first second : Nat, first ≤ second → second ≤ lines.length →
      (readLines lines 0 first ++ readLines lines first second ++
          readLines lines second lines.length = lines ↔
        ReadExactly lines.length 0 first ∧ ReadExactly lines.length first second ∧
          ReadExactly lines.length second lines.length) := by
  refine ⟨readLines_iff _, fun first second ordered inside => ?_⟩
  have whole := requested_consecutive _ ordered inside
  constructor
  · intro same
    have lengths := congrArg List.length (same.trans whole.symm)
    simp only [List.length_append] at lengths
    -- no range is read too short, so none is read too long
    have atLeast (start stop : Int) : (requested lines start stop).length ≤
        (readLines lines start stop).length := by
      rcases length_readLines_cases .. with exactly | longer
      · exact Nat.le_of_eq (congrArg List.length (readLines_of_exactly exactly).symm)
      · exact Nat.le_of_lt longer
    have front := atLeast 0 first
    have middle := atLeast first second
    have back := atLeast second lines.length
    refine ⟨(length_readLines_cases ..).resolve_right ?_,
      (length_readLines_cases ..).resolve_right ?_,
      (length_readLines_cases ..).resolve_right ?_⟩
    · omega
    · omega
    · omega
  · rintro ⟨front, middle, back⟩
    rw [readLines_of_exactly front, readLines_of_exactly middle, readLines_of_exactly back, whole]

/-- Three lines in three ranges. -/
theorem three_ranges_read_exactly :
    readLines ["a", "b", "c"] 0 0 ++ readLines ["a", "b", "c"] 0 1 ++ readLines ["a", "b", "c"] 1 3 =
        ["a", "b", "c"] ↔
      ReadExactly 3 0 0 ∧ ReadExactly 3 0 1 ∧ ReadExactly 3 1 3 :=
  (ranges_read_exactly ..).2 0 1 (by decide) (by decide)

/-- The last of three lines is read with the one before it. -/
theorem last_line_read_twice : ¬ ∀ (lines : List Nat) (start stop : Int),
      readLines lines start stop = requested lines start stop := by
  intro all
  exact absurd (all [1, 2, 3] 2 3) (by decide)

end ForgePilot.FileRanges
