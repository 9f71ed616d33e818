import Mathlib.Algebra.Ring.Int.Defs
import Mathlib.Data.List.DropRight

/-!
# Intervals between changes

A list of changes, some of them to a state that runs, divides time into intervals: one reaches from a
change to the running state outside any interval up to the next change to another state. Leaving out
changes to the running state makes intervals start later or vanish, so that their total length shrinks,
and stays just when every interval keeps its first time.
-/

namespace ForgePilot.RunningIntervals

open List

variable {α : Type} (time : α → Int) (runs : α → Bool)

/-- The intervals of some changes, in one that has begun or in none. -/
def runningIntervals : Option Int → List α → List (Int × Int)
  | _, [] => []
  | none, change :: rest =>
      if runs change then runningIntervals (some (time change)) rest else runningIntervals none rest
  | some start, change :: rest =>
      if runs change then runningIntervals (some start) rest
      else (start, time change) :: runningIntervals none rest

def totalLength (intervals : List (Int × Int)) : Int :=
  (intervals.map fun interval => interval.2 - interval.1).sum

theorem totalLength_cons (interval : Int × Int) (intervals : List (Int × Int)) :
    totalLength (interval :: intervals) = interval.2 - interval.1 + totalLength intervals := by
  simp [totalLength]

/-! ## Changes that are left out -/

/-- Whether an interval is open, and whether its first change was left out with no later one since. -/
inductive Phase where
  | outside
  | counted
  | missed (start : Int)

variable (late : α → Bool)

/-- How much of the intervals is lost when late changes are left out. -/
def lost : Phase → List α → Int
  | _, [] => 0
  | .outside, change :: rest =>
      if runs change then
        if late change then lost (.missed (time change)) rest else lost .counted rest
      else lost .outside rest
  | .counted, change :: rest => if runs change then lost .counted rest else lost .outside rest
  | .missed start, change :: rest =>
      if late change then lost (.missed start) rest
      else time change - start + if runs change then lost .counted rest else lost .outside rest

/-- The last of the changes is not to the running state; without changes no interval is open. -/
def Ends (opened : Bool) (changes : List α) : Prop :=
  match changes.getLast? with
  | none => opened = false
  | some change => runs change = false

theorem ends_cons {opened later : Bool} {change : α} {rest : List α}
    (ends : Ends runs opened (change :: rest)) (only : later = true → runs change = true) :
    Ends runs later rest := by
  cases rest with
  | nil =>
    have last : runs change = false := ends
    cases later with
    | false => rfl
    | true => exact absurd (only rfl) (by rw [last]; decide)
  | cons next others =>
    rw [Ends, getLast?_cons_cons] at ends
    exact ends

variable (changes : List α) (only : ∀ change ∈ changes, late change = true → runs change = true)

include only in
/-- What the intervals of all changes have more than those of the changes that are not late. -/
theorem totalLength_lost :
    (Ends runs false changes → totalLength (runningIntervals time runs none changes) =
        totalLength (runningIntervals time runs none (changes.filter fun change => !late change)) +
          lost time runs late .outside changes) ∧
    (∀ start begun : Int, Ends runs true changes →
      totalLength (runningIntervals time runs (some start) changes) =
        totalLength (runningIntervals time runs (some begun)
          (changes.filter fun change => !late change)) + (begun - start) +
          lost time runs late .counted changes) ∧
    ∀ start : Int, Ends runs true changes →
      totalLength (runningIntervals time runs (some start) changes) =
        totalLength (runningIntervals time runs none (changes.filter fun change => !late change)) +
          lost time runs late (.missed start) changes := by
  induction changes with
  | nil =>
    refine ⟨fun _ => rfl, ?_, ?_⟩
    · intro _ _ ends
      cases ends
    · intro _ ends
      cases ends
  | cons change rest ih =>
    obtain ⟨outside, counted, missed⟩ := ih fun other listed => only other (.tail _ listed)
    have onTime : runs change = false → late change = false := by
      intro stops
      cases isLate : late change with
      | false => rfl
      | true => exact absurd (only change (.head _) isLate) (by rw [stops]; decide)
    have later : ∀ opened, Ends runs opened (change :: rest) → Ends runs (runs change) rest :=
      fun opened ends => ends_cons _ ends id
    refine ⟨fun ends => ?_, fun start begun ends => ?_, fun start ends => ?_⟩
    · have after := later _ ends
      cases running : runs change with
      | true =>
        rw [running] at after
        cases isLate : late change with
        | true =>
          have step := missed (time change) after
          simpa [runningIntervals, lost, running, isLate] using step
        | false =>
          have step := counted (time change) (time change) after
          simpa [runningIntervals, lost, running, isLate] using step
      | false =>
        rw [running] at after
        simpa [runningIntervals, lost, running, onTime running] using outside after
    · have after := later _ ends
      cases running : runs change with
      | true =>
        rw [running] at after
        cases isLate : late change with
        | true => simpa [runningIntervals, lost, running, isLate] using counted start begun after
        | false => simpa [runningIntervals, lost, running, isLate] using counted start begun after
      | false =>
        rw [running] at after
        have step := outside after
        simp only [runningIntervals, lost, running, onTime running, filter_cons, Bool.not_false,
          if_true, Bool.false_eq_true, if_false, totalLength_cons]
        omega
    · have after := later _ ends
      cases isLate : late change with
      | true =>
        have running : runs change = true := only change (.head _) isLate
        rw [running] at after
        simpa [runningIntervals, lost, running, isLate] using missed start after
      | false =>
        cases running : runs change with
        | true =>
          rw [running] at after
          have step := counted start (time change) after
          simp only [runningIntervals, lost, running, isLate, filter_cons, Bool.not_false, if_true,
            Bool.false_eq_true, if_false]
          omega
        | false =>
          rw [running] at after
          have step := outside after
          simp only [runningIntervals, lost, running, isLate, filter_cons, Bool.not_false, if_true,
            Bool.false_eq_true, if_false, totalLength_cons]
          omega

/-! ## When nothing is lost -/

/-- Every late change that begins an interval has the time of the next change that is not late. -/
def Timely (inside : Bool) (changes : List α) : Prop :=
  ∀ front start back, changes = front ++ start :: back → runs start = true → late start = true →
    front.getLast?.elim inside runs = false →
      ∃ next, back.find? (fun change => !late change) = some next ∧ time next = time start

theorem timely_nil (inside : Bool) : Timely time runs late inside ([] : List α) := by
  intro front start back same
  simp at same

theorem timely_cons (inside : Bool) (change : α) (rest : List α) :
    Timely time runs late inside (change :: rest) ↔
      (runs change = true → late change = true → inside = false →
        ∃ next, rest.find? (fun change => !late change) = some next ∧ time next = time change) ∧
      Timely time runs late (runs change) rest := by
  have last (front : List α) : (change :: front).getLast?.elim inside runs =
      front.getLast?.elim (runs change) runs := by
    rw [getLast?_cons]
    cases front.getLast? <;> rfl
  constructor
  · intro timely
    constructor
    · exact fun running isLate outside => timely [] change rest rfl running isLate outside
    · intro front start back same running isLate outside
      refine timely (change :: front) start back (by rw [same]; rfl) running isLate ?_
      rw [last]
      exact outside
  · rintro ⟨first, later⟩ front start back same running isLate outside
    cases front with
    | nil =>
      cases same
      exact first running isLate outside
    | cons head front =>
      cases same
      rw [last] at outside
      exact later front start back rfl running isLate outside

include only in
/-- Nothing can be gained, and nothing is lost just when the late changes are timely. -/
theorem lost_eq_zero (ordered : changes.Pairwise fun first second => time first ≤ time second) :
    (Ends runs false changes → 0 ≤ lost time runs late .outside changes ∧
      (lost time runs late .outside changes = 0 ↔ Timely time runs late false changes)) ∧
    (Ends runs true changes → 0 ≤ lost time runs late .counted changes ∧
      (lost time runs late .counted changes = 0 ↔ Timely time runs late true changes)) ∧
    ∀ start, (∀ change ∈ changes, start ≤ time change) → Ends runs true changes →
      0 ≤ lost time runs late (.missed start) changes ∧
      (lost time runs late (.missed start) changes = 0 ↔
        (∃ next, changes.find? (fun change => !late change) = some next ∧ time next = start) ∧
          Timely time runs late true changes) := by
  induction changes with
  | nil =>
    refine ⟨fun _ => ⟨Int.le_refl 0, ?_⟩, fun ends => ?_, fun _ _ ends => ?_⟩
    · exact ⟨fun _ => timely_nil _ _ _ _, fun _ => rfl⟩
    · cases ends
    · cases ends
  | cons change rest ih =>
    obtain ⟨after, ordered⟩ := pairwise_cons.mp ordered
    obtain ⟨outside, counted, missed⟩ :=
      ih (fun other listed => only other (.tail _ listed)) ordered
    have later : ∀ opened, Ends runs opened (change :: rest) → Ends runs (runs change) rest :=
      fun opened ends => ends_cons _ ends id
    -- What is lost in the rest, when the change is not left out.
    have onward : Ends runs (runs change) rest →
        0 ≤ (if runs change then lost time runs late .counted rest
          else lost time runs late .outside rest) ∧
        ((if runs change then lost time runs late .counted rest
          else lost time runs late .outside rest) = 0 ↔ Timely time runs late (runs change) rest) := by
      cases runs change with
      | true => exact counted
      | false => exact outside
    refine ⟨fun ends => ?_, fun ends => ?_, fun start below ends => ?_⟩
    · rw [timely_cons]
      have rest_ends := later _ ends
      by_cases begins : runs change = true ∧ late change = true
      · rw [begins.1] at rest_ends
        have step := missed (time change) after rest_ends
        simpa [lost, begins.1, begins.2] using step
      have step := onward rest_ends
      have value : lost time runs late .outside (change :: rest) =
          if runs change then lost time runs late .counted rest
          else lost time runs late .outside rest := by
        rw [lost]
        split
        · rename_i running
          exact if_neg fun isLate => begins ⟨running, isLate⟩
        · rfl
      rw [value, step.2]
      refine ⟨step.1, fun timely => ⟨fun running isLate => absurd ⟨running, isLate⟩ begins, timely⟩,
        fun timely => timely.2⟩
    · rw [timely_cons, lost]
      have step := onward (later _ ends)
      rw [step.2]
      exact ⟨step.1, fun timely => ⟨fun _ _ impossible => (by cases impossible), timely⟩,
        fun timely => timely.2⟩
    · rw [timely_cons]
      have rest_ends := later _ ends
      cases isLate : late change with
      | true =>
        have running := only change (.head _) isLate
        rw [running] at rest_ends ⊢
        have step := missed start (fun other listed => below other (.tail _ listed))
          rest_ends
        simpa [lost, isLate] using step
      | false =>
        have step := onward rest_ends
        have here := below change (.head _)
        have value : lost time runs late (.missed start) (change :: rest) =
            time change - start + if runs change then lost time runs late .counted rest
              else lost time runs late .outside rest := by
          rw [lost, if_neg (by rw [isLate]; decide)]
        have found : (change :: rest).find? (fun change => !late change) = some change := by
          rw [find?_cons_of_pos (by rw [isLate]; rfl)]
        rw [value, found, ← step.2]
        constructor
        · omega
        · constructor
          · intro none_lost
            exact ⟨⟨change, rfl, by omega⟩, fun _ impossible => (by cases impossible), by omega⟩
          · rintro ⟨⟨next, same, equal⟩, -, nothing⟩
            cases same
            omega

/-! ## How long the intervals are -/

/-- Intervals do not overlap, so that they are no longer than the time they lie in. -/
theorem totalLength_le {changes : List α}
    (ordered : changes.Pairwise fun first second => time first ≤ time second) {stop : Int}
    (below : ∀ change ∈ changes, time change ≤ stop) :
    (∀ start ≤ stop, (∀ change ∈ changes, start ≤ time change) →
      totalLength (runningIntervals time runs none changes) ≤ stop - start) ∧
    ∀ start ≤ stop, (∀ change ∈ changes, start ≤ time change) →
      totalLength (runningIntervals time runs (some start) changes) ≤ stop - start := by
  induction changes with
  | nil =>
    constructor
    · intro start before _
      exact Int.sub_nonneg_of_le before
    · intro start before _
      exact Int.sub_nonneg_of_le before
  | cons change rest ih =>
    obtain ⟨after, ordered⟩ := pairwise_cons.mp ordered
    have here := below change (.head _)
    obtain ⟨outside, inside⟩ := ih ordered fun other listed => below other (.tail _ listed)
    constructor
    · intro start before above
      have first := above change (.head _)
      rw [runningIntervals]
      split
      · have step := inside (time change) here after
        omega
      · have step := outside (time change) here after
        omega
    · intro start before above
      rw [runningIntervals]
      split
      · exact inside start before fun other listed => above other (.tail _ listed)
      · have step := outside (time change) here after
        rw [totalLength_cons]
        omega
end ForgePilot.RunningIntervals
