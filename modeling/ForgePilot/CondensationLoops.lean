import ForgePilot.Places
import ForgePilot.StuckDetector

/-!
# Loops of condensations

Ten condensations with nothing between them are a loop. The detector looks at the last ten, but it is content
with two of them that nothing stands between.
-/

namespace ForgePilot.CondensationLoops

open Places StuckDetector List
open Events (EventSource)
open Spans (part)

variable {ρ : Type}

def condensations (filtered : List (Event ρ)) : List Nat := filtered.findIdxs (·.body.isCondensation)

/-- Where the last ten condensations stand. -/
def lastTen (filtered : List (Event ρ)) : List Nat :=
  (condensations filtered).drop ((condensations filtered).length - 10)

/-- No other event occurs between the first and the last of the last ten condensations. -/
def Uninterrupted (filtered : List (Event ρ)) : Prop :=
  ∀ first ∈ (lastTen filtered).head?, ∀ last ∈ (lastTen filtered).getLast?,
    (part filtered first last).all (·.body.isCondensation) = true

/-- Some other event occurs between each two neighbours among the last ten condensations. -/
def Separated (filtered : List (Event ρ)) : Prop :=
  ∀ pair ∈ neighbours (lastTen filtered), pair.2 ≠ pair.1 + 1

def Reports [DecidableEq ρ] (history : List (Event ρ)) (headlessMode : Bool)
    (stuckAnalysis : Option StuckAnalysis) : Prop :=
  (isStuck history headlessMode stuckAnalysis).1 = true ∧
    (isStuck history headlessMode stuckAnalysis).2.map StuckAnalysis.loopType = some .contextWindowError

theorem last_ten_neighbours {filtered : List (Event ρ)} {pair : Nat × Nat}
    (side : pair ∈ neighbours (lastTen filtered)) : pair ∈ neighbours (condensations filtered) :=
  neighbours_drop _ side

variable (filtered : List (Event ρ))

/-- The check finds two neighbours that stand side by side. -/
theorem context_window_iff (offset : Nat) :
    (isStuckContextWindowError filtered offset).isSome = true ↔
      10 ≤ (condensations filtered).length ∧ ¬ Separated filtered := by
  simp only [isStuckContextWindowError]
  rw [show filtered.findIdxs (·.body.isCondensation) = condensations filtered from rfl]
  split
  · rename_i few
    simp only [Option.isSome_none, Bool.false_eq_true, false_iff, not_and]
    intro many
    omega
  · rename_i many
    rw [findSome?_isSome_iff]
    simp only [Separated, not_forall, Decidable.not_not]
    constructor
    · rintro ⟨⟨first, second⟩, side, found⟩
      refine ⟨by omega, ⟨first, second⟩, side, ?_⟩
      refine (neighbours_side_iff (last_ten_neighbours side)).mp ?_
      split at found
      · cases found
      · rename_i nothing
        rw [any_eq_not_all_not] at nothing
        simpa using nothing
    · rintro ⟨-, ⟨first, second⟩, side, adjacent⟩
      refine ⟨⟨first, second⟩, side, ?_⟩
      have every := (neighbours_side_iff
        (last_ten_neighbours side)).mpr adjacent
      rw [if_neg]
      · rfl
      · rw [any_eq_not_all_not]
        simpa using every

theorem last_ten_length (many : 10 ≤ (condensations filtered).length) :
    (lastTen filtered).length = 10 := by
  rw [lastTen, length_drop]
  omega

/-- Ten condensations in a row are not separated. -/
theorem uninterrupted_side (many : 10 ≤ (condensations filtered).length)
    (uninterrupted : Uninterrupted filtered) : ¬ Separated filtered := by
  have length := last_ten_length _ many
  have ordered : (lastTen filtered).Pairwise (· < ·) :=
    pairwise_findIdxs.sublist (drop_sublist _ _)
  have first := getElem?_eq_getElem (show 0 < (lastTen filtered).length by omega)
  have second := getElem?_eq_getElem (show 1 < (lastTen filtered).length by omega)
  have last := getElem?_eq_getElem (show 9 < (lastTen filtered).length by omega)
  have side : ((lastTen filtered)[0], (lastTen filtered)[1]) ∈ neighbours (lastTen filtered) :=
    (neighbours_iff _ _ _).mpr ⟨0, first, second⟩
  have every := uninterrupted _ (head?_eq_getElem?.trans first) _
    (getLast?_eq_getElem?.trans (by rw [length]; exact last))
  have before : (lastTen filtered)[1] < (lastTen filtered)[9] :=
    pairwise_iff_getElem.mp ordered 1 9 _ _ (by decide)
  intro separated
  refine separated _ side ((neighbours_side_iff (last_ten_neighbours side)).mp ?_)
  rw [all_part_iff] at every ⊢
  intro position early late
  exact every position (by omega) (by omega)

theorem context_window_type {offset : Nat} {analysis : StuckAnalysis}
    (found : isStuckContextWindowError filtered offset = some analysis) :
    analysis.loopType = .contextWindowError := by
  simp only [isStuckContextWindowError] at found
  split at found
  · cases found
  obtain ⟨pair, -, here⟩ := exists_of_findSome?_eq_some found
  split at here
  · cases here
  · cases here
    rfl

theorem condensations_length : (condensations filtered).length ≤ filtered.length := by
  rw [condensations, length_findIdxs]
  exact countP_le_length

variable [DecidableEq ρ]

/-- Where no other scenario applies, a loop of condensations is reported by the check for it alone. -/
theorem reports_iff (history : List (Event ρ)) (headlessMode : Bool) (stuckAnalysis : Option StuckAnalysis)
    (alone : repeatedSteps (filteredHistory history headlessMode)
      (filteredHistoryOffset history headlessMode) = none) :
    Reports history headlessMode stuckAnalysis ↔
      10 ≤ (condensations (filteredHistory history headlessMode)).length ∧
        ¬ Separated (filteredHistory history headlessMode) := by
  have fewer := condensations_length (filteredHistory history headlessMode)
  rw [← context_window_iff .., Reports]
  simp only [isStuck]
  rw [alone, Option.none_or]
  split
  · rename_i short
    rw [context_window_iff]
    constructor
    · rintro ⟨stuck, -⟩
      cases stuck
    · rintro ⟨many, -⟩
      omega
  · by_cases long : 10 ≤ (filteredHistory history headlessMode).length
    · rw [if_pos long]
      cases found : isStuckContextWindowError (filteredHistory history headlessMode)
          (filteredHistoryOffset history headlessMode) with
      | none => simp
      | some analysis => simp [context_window_type _ found]
    · rw [if_neg long, context_window_iff]
      constructor
      · rintro ⟨stuck, -⟩
        cases stuck
      · rintro ⟨many, -⟩
        omega

/-- The promise is kept exactly where there are fewer than ten condensations, where the last ten stand in a row,
or where no two of them do. -/
theorem condensation_loop_iff (history : List (Event ρ)) (headlessMode : Bool)
    (stuckAnalysis : Option StuckAnalysis)
    (alone : repeatedSteps (filteredHistory history headlessMode)
      (filteredHistoryOffset history headlessMode) = none) :
    (Reports history headlessMode stuckAnalysis ↔
        10 ≤ (condensations (filteredHistory history headlessMode)).length ∧
          Uninterrupted (filteredHistory history headlessMode)) ↔
      ((condensations (filteredHistory history headlessMode)).length < 10 ∨
        Uninterrupted (filteredHistory history headlessMode) ∨
        Separated (filteredHistory history headlessMode)) := by
  have together := reports_iff history headlessMode stuckAnalysis alone
  have apart := uninterrupted_side (filteredHistory history headlessMode)
  rw [together]
  constructor
  · intro promise
    rcases Nat.lt_or_ge (condensations (filteredHistory history headlessMode)).length 10 with few | many
    · exact .inl few
    · by_cases separated : Separated (filteredHistory history headlessMode)
      · exact .inr (.inr separated)
      · exact .inr (.inl (promise.mp ⟨many, separated⟩).2)
  · rintro (few | uninterrupted | separated)
    · constructor <;> (rintro ⟨many, -⟩; omega)
    · exact ⟨fun found => ⟨found.1, uninterrupted⟩, fun found => ⟨found.1, apart found.1 uninterrupted⟩⟩
    · constructor
      · exact fun found => absurd separated found.2
      · exact fun found => absurd separated (apart found.1 found.2)

/-! ## Nine condensations in a row -/

def condensation : Event Nat where
  source := none
  body := .agentCondensation 0

def command : Event Nat where
  source := some .agent
  body := .otherAction 0

def row : List (Event Nat) := List.replicate 10 condensation

theorem row_loop_iff :
    (Reports row true none ↔
        10 ≤ (condensations (filteredHistory row true)).length ∧ Uninterrupted (filteredHistory row true)) ↔
      ((condensations (filteredHistory row true)).length < 10 ∨
        Uninterrupted (filteredHistory row true) ∨ Separated (filteredHistory row true)) :=
  condensation_loop_iff row _ _ (by decide)

/-- The first of ten condensations has an action behind it. -/
def interrupted : List (Event Nat) := condensation :: command :: List.replicate 9 condensation

theorem interrupted_reported :
    ¬ ∀ (history : List (Event Nat)) (headlessMode : Bool) (stuckAnalysis : Option StuckAnalysis),
      repeatedSteps (filteredHistory history headlessMode)
          (filteredHistoryOffset history headlessMode) = none →
        (Reports history headlessMode stuckAnalysis ↔
          10 ≤ (condensations (filteredHistory history headlessMode)).length ∧
            Uninterrupted (filteredHistory history headlessMode)) := by
  intro promise
  have reported : Reports interrupted true none := ⟨by decide, by decide⟩
  have every := ((promise interrupted true none (by decide)).mp reported).2 0 (by decide) 10 (by decide)
  cases every

end ForgePilot.CondensationLoops
