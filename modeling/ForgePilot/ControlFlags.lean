import ForgePilot.FloatTexts
import ForgePilot.Runs

/-!
# Limits on iterations and costs

Two flags watch over an agent. The flag for iterations counts itself; the value of the flag for costs is copied
from the metrics. A check that finds a limit reached is remembered, and only then can the limit be raised.

Costs are floating-point numbers; how they are compared, added and printed comes with them.
-/

namespace ForgePilot.ControlFlags

open FloatTexts Runs
open JsonReading (Text)

/-- Floating-point numbers as far as limits use them: compared, added, and printed with two digits behind the
point. -/
structure FloatArithmetic (β : Type) where
  le : β → β → Bool
  add : β → β → β
  fixed : β → Text
  fixed_characters : ∀ amount, ∀ character ∈ fixed amount,
    character.isDigit = true ∨ character ∈ ['-', '.', 'i', 'n', 'f', 'a']

structure IterationControlFlag where
  limitIncreaseAmount : Int
  currentValue : Int
  maxValue : Int
  hitLimit : Bool := false
deriving DecidableEq

structure BudgetControlFlag (β : Type) where
  limitIncreaseAmount : β
  currentValue : β
  maxValue : β
  hitLimit : Bool := false
deriving DecidableEq

/-- The message of an error, if there was one. -/
abbrev Outcome := Except Text Unit

namespace IterationControlFlag

def reachedLimit (flag : IterationControlFlag) : IterationControlFlag :=
  { flag with hitLimit := flag.maxValue ≤ flag.currentValue }

def increaseLimit (flag : IterationControlFlag) (headlessMode : Bool) : IterationControlFlag :=
  if !headlessMode && flag.hitLimit then
    { flag with maxValue := flag.maxValue + flag.limitIncreaseAmount, hitLimit := false }
  else flag

def limitMessage (flag : IterationControlFlag) : Text :=
  "Agent reached maximum iteration. Current iteration: ".toList ++ decimal flag.currentValue ++
    ", max iteration: ".toList ++ decimal flag.maxValue

def step (flag : IterationControlFlag) : Outcome × IterationControlFlag :=
  let checked := flag.reachedLimit
  if checked.hitLimit then (.error flag.limitMessage, checked)
  else (.ok (), { checked with currentValue := checked.currentValue + 1 })

end IterationControlFlag

namespace BudgetControlFlag

variable {β : Type} (arithmetic : FloatArithmetic β)

def reachedLimit (flag : BudgetControlFlag β) : BudgetControlFlag β :=
  { flag with hitLimit := arithmetic.le flag.maxValue flag.currentValue }

/-- The mode is not looked at. -/
def increaseLimit (flag : BudgetControlFlag β) (_headlessMode : Bool) : BudgetControlFlag β :=
  if flag.hitLimit then
    { flag with
      maxValue := arithmetic.add flag.currentValue flag.limitIncreaseAmount
      hitLimit := false }
  else flag

def limitMessage (flag : BudgetControlFlag β) : Text :=
  "Agent reached maximum budget for conversation.Current budget: ".toList ++
    arithmetic.fixed flag.currentValue ++ ", max budget: ".toList ++ arithmetic.fixed flag.maxValue

def step (flag : BudgetControlFlag β) : Outcome × BudgetControlFlag β :=
  let checked := flag.reachedLimit arithmetic
  (if checked.hitLimit then .error (flag.limitMessage arithmetic) else .ok (), checked)

end BudgetControlFlag

/-- The flags of a state; there may be no limit on costs. -/
structure Flags (β : Type) where
  iteration : IterationControlFlag
  budget : Option (BudgetControlFlag β) := none
deriving DecidableEq

section
variable {β : Type} (arithmetic : FloatArithmetic β)

/-- Both flags take a step, that for iterations first. -/
def runControlFlags (flags : Flags β) : Outcome × Flags β :=
  match flags.iteration.step with
  | (.error message, iteration) => (.error message, { flags with iteration })
  | (.ok (), iteration) =>
      match flags.budget with
      | none => (.ok (), { flags with iteration })
      | some budget =>
          let (outcome, budget) := budget.step arithmetic
          (outcome, { iteration, budget := some budget })

def maybeIncreaseControlFlagsLimits (flags : Flags β) (headlessMode : Bool) : Flags β where
  iteration := flags.iteration.increaseLimit headlessMode
  budget := flags.budget.map (·.increaseLimit arithmetic headlessMode)

/-- Copy the cost from the metrics, if there are any. -/
def syncBudgetFlagWithMetrics (flags : Flags β) (accumulatedCost : Option β) : Flags β :=
  { flags with
    budget := flags.budget.map fun budget =>
      { budget with currentValue := accumulatedCost.getD budget.currentValue } }

/-! ## Runs -/

inductive Call (β : Type) where
  | runControlFlags
  | maybeIncreaseControlFlagsLimits (headlessMode : Bool)
  | syncBudgetFlagWithMetrics (accumulatedCost : Option β)

def perform (flags : Flags β) : Call β → Flags β
  | .runControlFlags => (runControlFlags arithmetic flags).2
  | .maybeIncreaseControlFlagsLimits headlessMode =>
      maybeIncreaseControlFlagsLimits arithmetic flags headlessMode
  | .syncBudgetFlagWithMetrics accumulatedCost => syncBudgetFlagWithMetrics flags accumulatedCost

/-- The counter is within its limit, and raising the limit does not lower it. -/
structure Within (flags : Flags β) : Prop where
  counter : flags.iteration.currentValue ≤ flags.iteration.maxValue
  increase : 0 ≤ flags.iteration.limitIncreaseAmount

/-- The calls that raise limits are those of a headless controller. -/
def Headless : Call β → Prop
  | .maybeIncreaseControlFlagsLimits headlessMode => headlessMode = true
  | _ => True

/-! ## One call -/

theorem iteration_step (flag : IterationControlFlag) : (flag.maxValue ≤ flag.currentValue ∧
      flag.step = (.error flag.limitMessage, { flag with hitLimit := true })) ∨
    (flag.currentValue < flag.maxValue ∧
      flag.step = (.ok (), { flag with currentValue := flag.currentValue + 1, hitLimit := false })) := by
  by_cases reached : flag.maxValue ≤ flag.currentValue
  · refine .inl ⟨reached, ?_⟩
    simp [IterationControlFlag.step, IterationControlFlag.reachedLimit, reached]
  · refine .inr ⟨by omega, ?_⟩
    simp [IterationControlFlag.step, IterationControlFlag.reachedLimit, reached]

variable (flags : Flags β)

/-- What a step of both flags does to the counter. -/
theorem runControlFlags_cases :
    (flags.iteration.maxValue ≤ flags.iteration.currentValue ∧
      runControlFlags arithmetic flags = (.error flags.iteration.limitMessage,
        { flags with iteration := { flags.iteration with hitLimit := true } })) ∨
    (flags.iteration.currentValue < flags.iteration.maxValue ∧
      (runControlFlags arithmetic flags).2.iteration = { flags.iteration with
        currentValue := flags.iteration.currentValue + 1, hitLimit := false }) := by
  rcases iteration_step .. with ⟨reached, stepped⟩ | ⟨inside, stepped⟩
  · exact .inl ⟨reached, by rw [runControlFlags, stepped]⟩
  · refine .inr ⟨inside, ?_⟩
    rw [runControlFlags, stepped]
    cases flags.budget <;> rfl

variable (call : Call β)

theorem perform_within (within : Within flags) : Within (perform arithmetic flags call) := by
  obtain ⟨counter, increase⟩ := within
  cases call with
  | runControlFlags =>
    rcases runControlFlags_cases .. with ⟨-, stepped⟩ | ⟨inside, stepped⟩
    · rw [perform, stepped]
      exact ⟨counter, increase⟩
    · refine ⟨?_, ?_⟩ <;> rw [perform, stepped]
      · exact inside
      · exact increase
  | maybeIncreaseControlFlagsLimits headlessMode =>
    simp only [perform, maybeIncreaseControlFlagsLimits, IterationControlFlag.increaseLimit]
    split
    · refine ⟨?_, increase⟩
      simp only
      omega
    · exact ⟨counter, increase⟩
  | syncBudgetFlagWithMetrics accumulatedCost => exact ⟨counter, increase⟩

theorem perform_headless (headless : Headless call) :
    (perform arithmetic flags call).iteration.maxValue = flags.iteration.maxValue := by
  cases call with
  | runControlFlags =>
    rcases runControlFlags_cases .. with ⟨-, stepped⟩ | ⟨-, stepped⟩ <;> rw [perform, stepped]
  | maybeIncreaseControlFlagsLimits headlessMode =>
    cases headless
    rfl
  | syncBudgetFlagWithMetrics accumulatedCost => rfl

/-! ## All runs -/

/-- What the limits promise in a state. -/
structure Enforced (flags : Flags β) : Prop where
  within : flags.iteration.currentValue ≤ flags.iteration.maxValue
  refused : flags.iteration.maxValue ≤ flags.iteration.currentValue →
    (runControlFlags arithmetic flags).1 = .error flags.iteration.limitMessage ∧
      (runControlFlags arithmetic flags).2.iteration.currentValue = flags.iteration.currentValue
  counted : (runControlFlags arithmetic flags).1 = .ok () →
    (runControlFlags arithmetic flags).2.iteration.currentValue = flags.iteration.currentValue + 1
  iterations : (maybeIncreaseControlFlagsLimits arithmetic flags true).iteration.maxValue =
    flags.iteration.maxValue
  costs : ∀ headlessMode, ∀ budget ∈ flags.budget,
    (maybeIncreaseControlFlagsLimits arithmetic flags headlessMode).budget.map
        BudgetControlFlag.maxValue =
      some (if budget.hitLimit then arithmetic.add budget.currentValue budget.limitIncreaseAmount
        else budget.maxValue)

theorem enforced_of_within {flags : Flags β} (within : Within flags) : Enforced arithmetic flags where
  within := within.counter
  refused := by
    intro reached
    rcases runControlFlags_cases .. with ⟨-, stepped⟩ | ⟨inside, -⟩
    · rw [stepped]
      exact ⟨rfl, rfl⟩
    · omega
  counted := by
    intro returned
    rcases runControlFlags_cases .. with ⟨-, stepped⟩ | ⟨-, stepped⟩
    · rw [stepped] at returned
      cases returned
    · rw [stepped]
  iterations := rfl
  costs := by
    intro headlessMode budget present
    rw [maybeIncreaseControlFlagsLimits, present, Option.map_some, Option.map_some,
      BudgetControlFlag.increaseLimit]
    split <;> rfl

end

/-! ## Costs in cents -/

def cents : FloatArithmetic Nat where
  le amount other := decide (amount ≤ other)
  add := (· + ·)
  fixed amount := (amount / 100).repr.toList ++
    '.' :: ((amount / 10 % 10).repr.toList ++ (amount % 10).repr.toList)
  fixed_characters := by
    intro amount character listed
    simp only [List.mem_append, List.mem_cons] at listed ⊢
    rcases listed with whole | rfl | tenths | hundredths
    · exact .inl (repr_digits _ _ whole)
    · exact .inr (.inr (.inl rfl))
    · exact .inl (repr_digits _ _ tenths)
    · exact .inl (repr_digits _ _ hundredths)

/-- Six dollars were spent where five are the limit. -/
def overspent : Flags Nat where
  iteration := { limitIncreaseAmount := 100, currentValue := 0, maxValue := 100 }
  budget := some { limitIncreaseAmount := 500, currentValue := 600, maxValue := 500 }

theorem overspent_within : Within overspent := ⟨by decide, by decide⟩

/-- All limits stay where they are in a headless controller, and what raises an error counts nothing. -/
structure Atomic {β : Type} (arithmetic : FloatArithmetic β) (flags : Flags β) : Prop where
  within : flags.iteration.currentValue ≤ flags.iteration.maxValue
  unchanged : ∀ message, (runControlFlags arithmetic flags).1 = .error message →
    (runControlFlags arithmetic flags).2.iteration.currentValue = flags.iteration.currentValue
  iterations : (maybeIncreaseControlFlagsLimits arithmetic flags true).iteration.maxValue ≤
    flags.iteration.maxValue
  costs : ∀ before ∈ flags.budget,
    ∀ after ∈ (maybeIncreaseControlFlagsLimits arithmetic flags true).budget,
      arithmetic.le after.maxValue before.maxValue = true
  counted : (runControlFlags arithmetic flags).1 = .ok () →
    (runControlFlags arithmetic flags).2.iteration.currentValue = flags.iteration.currentValue + 1

end ForgePilot.ControlFlags
