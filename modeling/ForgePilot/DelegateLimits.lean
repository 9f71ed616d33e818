import ForgePilot.ControlFlags
import ForgePilot.Events

/-!
# Delegates that hit a limit

A parent hands its events to its delegate until the delegate has come to an end. A delegate whose error is
that of a limit has not: the user may raise the limit. The parent tells such an error by its text, which
was put together where the error was recorded.
-/

namespace ForgePilot.DelegateLimits

open ControlFlags List
open Characters (occursIn occurs_in_iff)
open Events (AgentState)
open JsonReading (Text)

/-- Errors of model calls that are told apart when an error is recorded. -/
inductive ErrorClass where
  | authenticationError
  | serviceUnavailableError
  | apiConnectionError
  | apiError
  | internalServerError
  | badRequestError
  | contentPolicyViolationError
  | rateLimitError
deriving DecidableEq

/-- An exception: the name of its class, its message, and the classes that it is an instance of. -/
structure Raised where
  name : Text
  message : Text
  isInstance : ErrorClass → Bool
  retryAttempt : Option Int := none
  maxRetries : Option Int := none

/-- A runtime error is no error of a model call. -/
def runtimeError (message : Text) : Raised where
  name := "RuntimeError".toList
  message
  isInstance _ := false

/-- A controller as far as limits and errors go. -/
structure Controller (β : Type) where
  agentState : AgentState
  lastError : Text := []
  flags : Flags β
  statusCallback : Bool

variable {β : Type} (arithmetic : FloatArithmetic β)

/-- All retries of a model call are used up. -/
def Raised.exhausted (raised : Raised) : Bool :=
  match raised.retryAttempt, raised.maxRetries with
  | some attempt, some retries => retries ≤ attempt
  | _, _ => false

/-- The text that stands for an error in front of the user. -/
def statusText (raised : Raised) : Option Text :=
  if raised.isInstance .authenticationError then some "STATUS$ERROR_LLM_AUTHENTICATION".toList
  else if raised.isInstance .serviceUnavailableError || raised.isInstance .apiConnectionError ||
      raised.isInstance .apiError then
    some "STATUS$ERROR_LLM_SERVICE_UNAVAILABLE".toList
  else if raised.isInstance .internalServerError then
    some "STATUS$ERROR_LLM_INTERNAL_SERVER_ERROR".toList
  else if raised.isInstance .badRequestError && occursIn "ExceededBudget".toList raised.message then
    some "STATUS$ERROR_LLM_OUT_OF_CREDITS".toList
  else if raised.isInstance .contentPolicyViolationError || (raised.isInstance .badRequestError &&
      occursIn "ContentPolicyViolationError".toList raised.message) then
    some "STATUS$ERROR_LLM_CONTENT_POLICY_VIOLATION".toList
  else none

/-- Record an error. A call that was refused for its rate is tried again, unless this was the last time. -/
def reactToException (controller : Controller β) (raised : Raised) : Controller β :=
  let lastError := raised.name ++ ": ".toList ++ raised.message
  if controller.statusCallback then
    match statusText raised with
    | some text => { controller with lastError := text, agentState := .error }
    | none =>
        if raised.isInstance .rateLimitError then
          if raised.exhausted then
            { controller with
              lastError := "CHAT_INTERFACE$AGENT_RATE_LIMITED_STOPPED_MESSAGE".toList
              agentState := .error }
          else { controller with lastError, agentState := .rateLimited }
        else { controller with lastError, agentState := .error }
  else { controller with lastError, agentState := .error }

/-- The part of a step that checks the limits: whether the step goes on, and the controller behind it. -/
def checkLimits (controller : Controller β) : Bool × Controller β :=
  match runControlFlags arithmetic controller.flags with
  | (.ok (), flags) => (true, { controller with flags })
  | (.error message, flags) =>
      (false, reactToException { controller with flags } (runtimeError message))

/-- Who an event goes to. -/
inductive Routing where
  | delegate
  | endDelegate
  | parent
deriving DecidableEq

def iterationMark : Text := "RuntimeError: Agent reached maximum iteration.".toList

def budgetMark : Text := "RuntimeError:Agent reached maximum budget for conversation".toList

def onEvent (delegate : Option (Controller β)) : Routing :=
  match delegate with
  | none => .parent
  | some delegate =>
      if !([AgentState.finished, .error, .rejected].contains delegate.agentState) ||
          occursIn iterationMark delegate.lastError || occursIn budgetMark delegate.lastError then
        .delegate
      else .endDelegate

/-! ## Texts of errors -/

/-- A runtime error is recorded with its class in front. -/
theorem react_runtimeError (controller : Controller β) (message : Text) :
    reactToException controller (runtimeError message) = { controller with
      lastError := "RuntimeError: ".toList ++ message, agentState := .error } := by
  rw [reactToException]
  split
  · rfl
  · rfl

/-- Where the first character occurs nowhere else, an occurrence is at the beginning. -/
theorem occursIn_front (first : Char) (mark text : Text) (apart : first ∉ text) :
    occursIn (first :: mark) (first :: text) = true ↔ mark <+: text := by
  rw [occurs_in_iff]
  constructor
  · rintro ⟨position, begins⟩
    cases position with
    | zero => exact (cons_prefix_cons.mp begins).2
    | succ position =>
      have member : first ∈ text.drop position := begins.subset (.head _)
      exact absurd (mem_of_mem_drop member) apart
  · intro begins
    exact ⟨0, cons_prefix_cons.mpr ⟨rfl, begins⟩⟩

theorem fixed_apart (amount : β) : 'R' ∉ arithmetic.fixed amount := by
  intro listed
  rcases arithmetic.fixed_characters amount 'R' listed with digit | among
  · cases digit
  · exact absurd among (by decide)

theorem limitMessage_apart (flag : BudgetControlFlag β) : 'R' ∉ flag.limitMessage arithmetic := by
  have current : 'R' ∉ "Agent reached maximum budget for conversation.Current budget: ".toList := by simp
  have maximum : 'R' ∉ ", max budget: ".toList := by simp
  unfold BudgetControlFlag.limitMessage
  rw [mem_append, mem_append, mem_append, not_or, not_or, not_or]
  exact ⟨⟨⟨current, fixed_apart _ _⟩, maximum⟩, fixed_apart _ _⟩

theorem iteration_marked (flag : IterationControlFlag) :
    occursIn iterationMark ("RuntimeError: ".toList ++ flag.limitMessage) = true := by
  have begins : "RuntimeError: ".toList ++ "Agent reached maximum iteration. Current iteration: ".toList =
    iterationMark ++ " Current iteration: ".toList := rfl
  unfold IterationControlFlag.limitMessage
  rw [occurs_in_iff, append_assoc, append_assoc, ← append_assoc "RuntimeError: ".toList,
    begins, append_assoc]
  exact ⟨0, prefix_append _ _⟩

/-- The error of the limit on costs bears neither mark: a blank stands behind the colon. -/
theorem budget_unmarked (flag : BudgetControlFlag β) {mark : Text}
    (listed : mark ∈ [iterationMark, budgetMark]) :
    occursIn mark ("RuntimeError: ".toList ++ flag.limitMessage arithmetic) = false := by
  have apart : 'R' ∉ "untimeError: ".toList ++ flag.limitMessage arithmetic := by
    rw [mem_append, not_or]
    exact ⟨by simp, limitMessage_apart _ _⟩
  have begins : "untimeError: Agent reached maximum b".toList <+:
      "untimeError: ".toList ++ flag.limitMessage arithmetic := by
    unfold BudgetControlFlag.limitMessage
    rw [append_assoc, append_assoc, ← append_assoc]
    exact List.IsPrefix.trans ⟨_, rfl⟩ (prefix_append _ _)
  rw [Bool.eq_false_iff, show "RuntimeError: ".toList = 'R' :: "untimeError: ".toList from rfl,
    cons_append]
  intro occurs
  simp only [mem_cons, not_mem_nil, or_false] at listed
  rcases listed with rfl | rfl
  · have other : "untimeError: Agent reached maximum iteration.".toList <+: _ :=
      (occursIn_front 'R' _ _ apart).mp occurs
    have either := prefix_or_prefix_of_prefix other begins
    exact absurd either (by decide)
  · have other : "untimeError:Agent reached maximum budget for conversation".toList <+: _ :=
      (occursIn_front 'R' _ _ apart).mp occurs
    have either := prefix_or_prefix_of_prefix other begins
    exact absurd either (by decide)

/-! ## Which limit was hit -/

/-- The delegate of a run that raises: it failed, with the text of the limit that was hit first. -/
theorem checkLimits_raised {delegate : Controller β} {message : Text}
    (raised : (runControlFlags arithmetic delegate.flags).1 = .error message) :
    (checkLimits arithmetic delegate).2.agentState = .error ∧
      (checkLimits arithmetic delegate).2.lastError = "RuntimeError: ".toList ++ message := by
  rw [checkLimits]
  cases stepped : runControlFlags arithmetic delegate.flags with
  | mk outcome flags =>
    rw [stepped] at raised
    subst raised
    simp only [react_runtimeError]
    exact ⟨trivial, trivial⟩

/-- The message is that of the iterations, where these are used up, and otherwise that of the costs. -/
theorem raised_cases {flags : Flags β} {message : Text}
    (raised : (runControlFlags arithmetic flags).1 = .error message) :
    (flags.iteration.maxValue ≤ flags.iteration.currentValue ∧
      message = flags.iteration.limitMessage) ∨
    (flags.iteration.currentValue < flags.iteration.maxValue ∧
      ∃ budget, message = BudgetControlFlag.limitMessage arithmetic budget) := by
  rcases iteration_step .. with ⟨reached, stepped⟩ | ⟨inside, stepped⟩
  · refine .inl ⟨reached, ?_⟩
    rw [runControlFlags, stepped] at raised
    exact (Except.error.inj raised).symm
  refine .inr ⟨inside, ?_⟩
  rw [runControlFlags, stepped] at raised
  cases present : flags.budget with
  | none =>
    rw [present] at raised
    cases raised
  | some budget =>
    rw [present] at raised
    simp only [BudgetControlFlag.step] at raised
    split at raised
    · exact ⟨_, (Except.error.inj raised).symm⟩
    · cases raised

/-- A delegate that hit a limit keeps receiving events if and only if the limit was that on iterations. -/
theorem forwarded_iff (delegate : Controller β) (message : Text)
    (raised : (runControlFlags arithmetic delegate.flags).1 = .error message) :
    onEvent (some (checkLimits arithmetic delegate).2) = .delegate ↔
      delegate.flags.iteration.maxValue ≤ delegate.flags.iteration.currentValue := by
  obtain ⟨failed, recorded⟩ := checkLimits_raised _ raised
  rw [onEvent, failed, recorded]
  rcases raised_cases _ raised with ⟨reached, rfl⟩ | ⟨inside, budget, rfl⟩
  · rw [iteration_marked]
    simpa using reached
  · rw [budget_unmarked _ _ (by simp), budget_unmarked _ _ (by simp)]
    simpa using inside

/-! ## A delegate that spent six dollars of five -/

def spender : Controller Nat where
  agentState := .running
  flags := overspent
  statusCallback := true

theorem spender_forwarded_iff : onEvent (some (checkLimits cents spender).2) = .delegate ↔
      spender.flags.iteration.maxValue ≤ spender.flags.iteration.currentValue :=
  forwarded_iff _ _ _ rfl

/-- The delegate is ended. -/
theorem spender_ended : ¬ ∀ (delegate : Controller Nat) (message : Text),
      (runControlFlags cents delegate.flags).1 = .error message →
        onEvent (some (checkLimits cents delegate).2) = .delegate := by
  intro claimed
  have forwarded := claimed spender
    "Agent reached maximum budget for conversation.Current budget: 6.00, max budget: 5.00".toList rfl
  have ended : onEvent (some (checkLimits cents spender).2) = .endDelegate := by decide
  rw [ended] at forwarded
  cases forwarded

end ForgePilot.DelegateLimits
