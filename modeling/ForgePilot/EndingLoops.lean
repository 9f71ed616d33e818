import ForgePilot.StuckDetector

/-!
# Loops at the end of a history

A history that ends with a repetition is always found to be stuck: four times one step, three times two steps
in turn, or three times a step that fails. Whatever stands before, and whatever messages of the user and
empty events stand in between, do not matter.
-/

namespace ForgePilot.EndingLoops

open Characters (occursIn)
open StuckDetector List

variable {ρ : Type}

def isEditCell : Body ρ → Bool
  | .ipythonRunCell code _ => occursIn editCall code
  | _ => false

/-- An action and the observation behind it. -/
abbrev Step (ρ : Type) := Event ρ × Event ρ

def flatten (steps : List (Step ρ)) : List (Event ρ) := steps.flatMap fun step => [step.1, step.2]

/-- Every step is an action and an observation. -/
def WellFormed (steps : List (Step ρ)) : Prop :=
  ∀ step ∈ steps, step.1.body.isAction = true ∧ step.2.body.isObservation = true

/-- The actions are equal, and none of them edits a file. -/
def SameAction (actions : List (Event ρ)) : Prop :=
  ∀ first ∈ actions, isEditCell first.body = false ∧ ∀ second ∈ actions, first.body = second.body

/-- The observations agree, but for the process. -/
def SameObservation [DecidableEq ρ] (observations : List (Event ρ)) : Prop :=
  ∀ first ∈ observations, ∀ second ∈ observations, eqNoPid first second = true

inductive Repetition [DecidableEq ρ] : List (Event ρ) → Prop where
  | pairs (steps : List (Step ρ)) (four : steps.length = 4) (wellFormed : WellFormed steps)
      (actions : SameAction (steps.map Prod.fst)) (observations : SameObservation (steps.map Prod.snd)) :
      Repetition (flatten steps)
  | blocks (first₁ second₁ first₂ second₂ first₃ second₃ : Step ρ)
      (wellFormed : WellFormed [first₁, second₁, first₂, second₂, first₃, second₃])
      (firstActions : SameAction [first₁.1, first₂.1, first₃.1])
      (secondActions : SameAction [second₁.1, second₂.1, second₃.1])
      (firstObservations : SameObservation [first₁.2, first₂.2, first₃.2])
      (secondObservations : SameObservation [second₁.2, second₂.2, second₃.2]) :
      Repetition (flatten [first₁, second₁, first₂, second₂, first₃, second₃])
  | errors (steps : List (Step ρ)) (three : steps.length = 3) (wellFormed : WellFormed steps)
      (actions : SameAction (steps.map Prod.fst))
      (observations : ∀ step ∈ steps, step.2.body.isError = true) : Repetition (flatten steps)

/-! ## What is collected from steps -/

variable (steps : List (Step ρ))

theorem flatten_actions (wellFormed : WellFormed steps) :
    (flatten steps).filter (·.body.isAction) = steps.map Prod.fst := by
  induction steps with
  | nil => rfl
  | cons step rest ih =>
    obtain ⟨action, observation⟩ := wellFormed step (.head _)
    have later := ih fun other member => wellFormed other (.tail _ member)
    have other : step.2.body.isAction = false := by simpa [Body.isObservation] using observation
    rw [flatten] at later
    simp [flatten, action, other, later]

theorem flatten_observations (wellFormed : WellFormed steps) :
    (flatten steps).filter (·.body.isObservation) = steps.map Prod.snd := by
  induction steps with
  | nil => rfl
  | cons step rest ih =>
    obtain ⟨action, observation⟩ := wellFormed step (.head _)
    have later := ih fun other member => wellFormed other (.tail _ member)
    have other : step.1.body.isObservation = false := by simp [Body.isObservation, action]
    rw [flatten] at later
    simp [flatten, observation, other, later]

theorem flatten_length : (flatten steps).length = 2 * steps.length := by
  induction steps with
  | nil => rfl
  | cons step rest ih =>
    rw [flatten] at ih
    rw [flatten, flatMap_cons, length_append, ih, length_cons]
    simp only [length_cons, length_nil]
    omega

/-- The last steps of a history are collected from its end, the latest first. -/
theorem collect_flatten (count : Nat) (before : List (Event ρ)) {steps : List (Step ρ)}
    (wellFormed : WellFormed steps) :
    collect count [] [] (before ++ flatten steps).reverse =
      (((steps.map Prod.fst).reverse ++ (before.filter (·.body.isAction)).reverse).take count,
        ((steps.map Prod.snd).reverse ++ (before.filter (·.body.isObservation)).reverse).take count) := by
  rw [collect_reverse, filter_append, filter_append, flatten_actions _ wellFormed,
    flatten_observations _ wellFormed, reverse_append, reverse_append]

variable [DecidableEq ρ]

/-- Equal events agree, unless they are cells that edit a file. -/
theorem eq_no_pid_of_equal {first second : Event ρ} (edits : isEditCell first.body = false)
    (equal : first.body = second.body) : eqNoPid first second = true := by
  rw [eqNoPid, ← equal]
  cases body : first.body with
  | ipythonRunCell code fields =>
    rw [body, isEditCell] at edits
    simp [edits]
  | _ => simp

theorem same_action_agree {actions : List (Event ρ)} (same : SameAction actions) :
    SameObservation actions := by
  intro first listed second alsoListed
  obtain ⟨edits, equal⟩ := same first listed
  exact eq_no_pid_of_equal edits (equal second alsoListed)

/-- Events that agree with each other agree in every order. -/
theorem agree_of_same {events others : List (Event ρ)} (same : SameObservation others)
    (among : ∀ event ∈ events, event ∈ others) : agree events = true := by
  cases events with
  | nil => rfl
  | cons first rest =>
    rw [agree, all_eq_true]
    intro event listed
    exact same first (among first (.head _)) event (among event listed)

variable (before : List (Event ρ)) (offset : Nat)

theorem pairs_stuck (steps : List (Step ρ)) (four : steps.length = 4)
    (wellFormed : WellFormed steps) (actions : SameAction (steps.map Prod.fst))
    (observations : SameObservation (steps.map Prod.snd)) :
    (repeatedSteps (before ++ flatten steps) offset).isSome = true := by
  have agreeActions := agree_of_same (same_action_agree actions)
    fun _ => mem_reverse.mp
  have agreeObservations := agree_of_same observations
    fun _ => mem_reverse.mp
  simp only [repeatedSteps, collect_flatten 4 _ wellFormed]
  rw [take_left' (by simp [four]), take_left' (by simp [four]), Option.isSome_or,
    isStuckRepeatingActionObservation, if_pos ⟨by simp [four], by simp [four]⟩, agreeActions,
    agreeObservations]
  rfl

/-- A step that fails three times. -/
theorem errors_stuck (steps : List (Step ρ)) (three : steps.length = 3)
    (wellFormed : WellFormed steps) (actions : SameAction (steps.map Prod.fst))
    (observations : ∀ step ∈ steps, step.2.body.isError = true) :
    (repeatedSteps (before ++ flatten steps) offset).isSome = true := by
  have agreeActions := agree_of_same (same_action_agree actions)
    fun _ => mem_reverse.mp
  have lastThree : ∀ events others : List (Event ρ), events.length = 3 →
      ((events ++ others).take 4).take 3 = events ∧ 3 ≤ ((events ++ others).take 4).length := by
    intro events others length
    rw [take_take, show min 3 4 = 3 from rfl, take_left' length, length_take,
      length_append]
    exact ⟨rfl, by omega⟩
  obtain ⟨lastActions, manyActions⟩ := lastThree (steps.map Prod.fst).reverse
    (before.filter (·.body.isAction)).reverse (by simp [three])
  obtain ⟨lastObservations, manyObservations⟩ := lastThree (steps.map Prod.snd).reverse
    (before.filter (·.body.isObservation)).reverse (by simp [three])
  have failed : (steps.map Prod.snd).reverse.all (·.body.isError) = true := by
    rw [all_reverse, all_map, all_eq_true]
    exact observations
  simp only [repeatedSteps, collect_flatten 4 _ wellFormed]
  rw [Option.isSome_or, Option.isSome_or, isStuckRepeatingActionError, if_neg (by omega), lastActions,
    if_pos agreeActions, lastObservations]
  simp only
  rw [if_pos failed, Option.isSome_some, Bool.true_or, Bool.or_true]

/-- Two steps in turn, three times. -/
theorem blocks_stuck {first₁ second₁ first₂ second₂ first₃ second₃ : Step ρ}
    (wellFormed : WellFormed [first₁, second₁, first₂, second₂, first₃, second₃])
    (firstActions : SameAction [first₁.1, first₂.1, first₃.1])
    (secondActions : SameAction [second₁.1, second₂.1, second₃.1])
    (firstObservations : SameObservation [first₁.2, first₂.2, first₃.2])
    (secondObservations : SameObservation [second₁.2, second₂.2, second₃.2]) :
    (repeatedSteps (before ++ flatten [first₁, second₁, first₂, second₂, first₃, second₃])
      offset).isSome = true := by
  have collected := collect_flatten 6 before wellFormed
  rw [take_left' (by simp), take_left' (by simp)] at collected
  have long : 6 ≤ (before ++ flatten [first₁, second₁, first₂, second₂, first₃, second₃]).length := by
    rw [length_append, flatten_length]
    simp only [length_cons, length_nil]
    omega
  have laterActions := same_action_agree firstActions
  have otherActions := same_action_agree secondActions
  simp only [repeatedSteps, Option.isSome_or]
  rw [if_pos long, isStuckActionObservationPattern, collected]
  simp only [map_cons, map_nil, reverse_cons, reverse_nil, nil_append,
    cons_append]
  rw [otherActions second₃.1 (by simp) second₂.1 (by simp), otherActions second₃.1 (by simp) second₁.1 (by simp),
    laterActions first₃.1 (by simp) first₂.1 (by simp), laterActions first₃.1 (by simp) first₁.1 (by simp),
    secondObservations second₃.2 (by simp) second₂.2 (by simp),
    secondObservations second₃.2 (by simp) second₁.2 (by simp),
    firstObservations first₃.2 (by simp) first₂.2 (by simp),
    firstObservations first₃.2 (by simp) first₁.2 (by simp)]
  simp

theorem repetition_stuck (before repeated : List (Event ρ)) (offset : Nat) (repetition : Repetition repeated) :
    3 ≤ repeated.length ∧ (repeatedSteps (before ++ repeated) offset).isSome = true := by
  cases repetition with
  | pairs steps four wellFormed actions observations =>
    refine ⟨?_, pairs_stuck _ _ _ four wellFormed actions observations⟩
    rw [flatten_length, four]
    decide
  | blocks first₁ second₁ first₂ second₂ first₃ second₃ wellFormed firstActions secondActions
      firstObservations secondObservations =>
    refine ⟨?_, blocks_stuck _ _ wellFormed firstActions secondActions
      firstObservations secondObservations⟩
    rw [flatten_length]
    simp
  | errors steps three wellFormed actions observations =>
    refine ⟨?_, errors_stuck _ _ _ three wellFormed actions observations⟩
    rw [flatten_length, three]
    decide

/-- In headless mode, every history that ends with a repetition is stuck. -/
theorem ending_loop_caught (front ending : List (Event ρ)) (stuckAnalysis : Option StuckAnalysis)
    (repetition : Repetition (ending.filter counts)) :
    (isStuck (front ++ ending) true stuckAnalysis).1 = true := by
  have filtered : filteredHistory (front ++ ending) true = front.filter counts ++ ending.filter counts := by
    rw [filteredHistory, historyToCheck, filteredHistoryOffset, if_pos rfl, List.drop_zero,
      List.filter_append]
  obtain ⟨long, found⟩ := repetition_stuck _ _ _ repetition
  rw [stuck_iff, filtered]
  refine ⟨?_, .inl found⟩
  rw [List.length_append]
  omega

/-! ## A command that fails three times -/

def command : Event Nat where
  source := some .agent
  body := .otherAction 0

def failure : Event Nat where
  source := some .environment
  body := .error 0

def question : Event Nat where
  source := some .user
  body := .message 0

/-- The user wrote a message in between. -/
def failures : List (Event Nat) := [command, failure, question, command, failure, command, failure]

theorem failures_repetition : Repetition (failures.filter counts) :=
  Repetition.errors [(command, failure), (command, failure), (command, failure)] rfl
    (by simp [WellFormed, command, failure, Body.isAction, Body.isObservation])
    (by simp [SameAction, command, isEditCell]) (by simp [failure, Body.isError])

theorem failures_caught : (isStuck ([question] ++ failures) true none).1 = true :=
  ending_loop_caught _ _ _ failures_repetition

end ForgePilot.EndingLoops
