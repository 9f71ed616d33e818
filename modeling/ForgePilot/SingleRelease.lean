import ForgePilot.AgentController

/-!
# How often an action is released

An answer of the agent is released when it is added to the stream as confirmed.
The answers are counted by the controller, so that the entries of one answer can be
told apart from those of another, even when the two have the same content.

Most operations of the controller add nothing of an answer: they are quiet. Three
changes are not: the agent gives a new answer, and the pending answer is confirmed
or rejected. Every step is one of these, and the number of releases of an answer is
the number of its confirmations, and one more when it was first added as confirmed.
-/

namespace ForgePilot.AgentControllers

open Events StateTrackers Runs List Option

def releasing (answer : Nat) : Entry → Bool
  | .moved _ _ => false
  | .added added event =>
      added = some answer && event.confirmationState = some .confirmed

/-- An entry that moves the agent to the confirmed state while an answer is pending. -/
def confirming (answer : Nat) : Entry → Bool
  | .moved agentState pending => agentState = .userConfirmed && pending = some answer
  | .added _ _ => false

/-- The confirmation state that an answer is added with. -/
def statusOf (answer : Nat) : Entry → Option (Option ActionConfirmationStatus)
  | .moved _ _ => none
  | .added added event => if added = some answer then some event.confirmationState else none

/-- How often an answer is released. -/
def releases (answer : Nat) (record : List Entry) : Nat :=
  record.countP (releasing answer)

/-- How often an answer is confirmed. -/
def confirmations (answer : Nat) (record : List Entry) : Nat :=
  record.countP (confirming answer)

/-- The confirmation state that an answer is first added with. -/
def firstStatus (answer : Nat) (record : List Entry) :
    Option (Option ActionConfirmationStatus) :=
  record.findSome? (statusOf answer)

/-- No answer is released twice. -/
def ReleasedOnce (record : List Entry) : Prop :=
  ∀ answer, releases answer record ≤ 1

/-- An answer that was added as awaiting its confirmation is released only after the
agent was moved to the confirmed state while the answer was pending. -/
def ReleasedAfterConfirmation (record : List Entry) : Prop :=
  ∀ answer before entry after, record = before ++ entry :: after →
    releasing answer entry = true →
    (∃ event, Entry.added (some answer) event ∈ record ∧
      event.confirmationState = some .awaitingConfirmation) →
    Entry.moved .userConfirmed (some answer) ∈ before

/-- An entry that concerns no answer, or only moves the agent elsewhere. -/
def Plain : Entry → Prop
  | .moved agentState pending => agentState ≠ .userConfirmed ∨ pending = none
  | .added answer _ => answer = none

/-- A change that adds nothing of an answer. -/
structure Quiet (controller next : Controller) : Prop where
  grows : ∃ entries, next.record = controller.record ++ entries ∧ ∀ entry ∈ entries, Plain entry
  pending : next.pendingAnswer = controller.pendingAnswer ∨ next.pendingAnswer = none
  answers : next.answers = controller.answers

/-- What only changes other fields is quiet. -/
theorem Quiet.of_eq {ctrl next : Controller} (record : next.record = ctrl.record)
    (pending : next.pendingAnswer = ctrl.pendingAnswer ∨ next.pendingAnswer = none)
    (answers : next.answers = ctrl.answers) : Quiet ctrl next where
  grows := ⟨[], by simp [record], by simp⟩
  pending := pending
  answers := answers

variable (config : Config) (ctrl : Controller)

/-- No change is quiet. -/
theorem Quiet.refl : Quiet ctrl ctrl := .of_eq rfl (.inl rfl) rfl

/-- Two quiet changes are one. -/
theorem Quiet.trans {first second third : Controller} (earlier : Quiet first second)
    (later : Quiet second third) : Quiet first third := by
  obtain ⟨before, beforeEq, beforePlain⟩ := earlier.grows
  obtain ⟨after, afterEq, afterPlain⟩ := later.grows
  refine ⟨⟨before ++ after, ?_, ?_⟩, ?_, later.answers.trans earlier.answers⟩
  · rw [afterEq, beforeEq, append_assoc]
  · exact forall_mem_append.mpr ⟨beforePlain, afterPlain⟩
  · cases later.pending with
    | inl same => rw [same]; exact earlier.pending
    | inr cleared => exact .inr cleared

theorem add_event_record (answer : Option Nat) (event : Event) (source : EventSource) :
    ∃ added, (addEvent ctrl answer event source).record = ctrl.record ++ [.added answer added] :=
  ⟨_, rfl⟩

variable (event : Event) (newState : AgentState) (status : ActionConfirmationStatus) (answer : Nat)
  (source : EventSource)

/-- An event that is no answer is added quietly. -/
theorem add_event_quiet : Quiet ctrl (addEvent ctrl none event source) where
  grows := ⟨_, rfl, by simp [Plain]⟩
  pending := .inl rfl
  answers := rfl

/-- A pending action that is no answer is added quietly. -/
theorem add_pending_quiet : Quiet ctrl (addPending ctrl ⟨none, event⟩ source) where
  grows := ⟨_, rfl, by simp [Plain]⟩
  pending := .inr rfl
  answers := rfl

/-- The pending action is given up quietly. -/
theorem reset_quiet : Quiet ctrl (reset ctrl) := by
  cases held : ctrl.pending with
  | none =>
    have same : reset ctrl = ctrl := by simp [reset, held]
    rw [same]
    exact Quiet.refl _
  | some pending =>
    have cleared (other : Controller) : Quiet other { other with pending := none } :=
      .of_eq rfl (.inr rfl) rfl
    simp only [reset, held]
    split
    · exact cleared ctrl
    · apply Quiet.trans _ (cleared _)
      exact add_event_quiet ..

/-- The agent is moved quietly to a state that does not settle the pending action. -/
theorem set_agent_state_quiet (unconfirmed : newState ≠ .userConfirmed)
    (unrejected : newState ≠ .userRejected) :
    Quiet ctrl (setAgentStateTo ctrl newState) := by
  rw [setAgentStateTo]
  split
  · exact Quiet.refl _
  apply Quiet.trans _ (add_event_quiet _ _ _)
  have moved : Quiet ctrl { ctrl with
      agentState := newState
      record := ctrl.record ++ [.moved newState ctrl.pendingAnswer] } :=
    ⟨⟨_, rfl, by simp [Plain, unconfirmed]⟩, .inl rfl, rfl⟩
  split
  · exact moved.trans (reset_quiet _)
  · exact moved

/-- Without a pending answer the agent is moved quietly to every state. -/
theorem set_agent_state_idle (idle : ctrl.pendingAnswer = none) :
    Quiet ctrl (setAgentStateTo ctrl newState) := by
  have answered (other : Controller) (status : ActionConfirmationStatus)
      (otherIdle : other.pendingAnswer = none) : Quiet other (answerPending other status) := by
    cases held : other.pending with
    | none =>
      have same : answerPending other status = other := by simp [answerPending, held]
      rw [same]
      exact Quiet.refl _
    | some pending =>
      have anonymous : pending.answer = none := by
        simpa [Controller.pendingAnswer, held] using otherIdle
      simp only [answerPending, held, anonymous]
      exact add_pending_quiet ..
  have moved : Quiet ctrl { ctrl with
      agentState := newState
      record := ctrl.record ++ [.moved newState ctrl.pendingAnswer] } :=
    ⟨⟨_, rfl, by simp [Plain, idle]⟩, .inl rfl, rfl⟩
  by_cases confirmed : newState = .userConfirmed
  · subst confirmed
    rw [setAgentStateTo]
    split
    · exact Quiet.refl _
    · apply Quiet.trans _ (add_event_quiet _ _ _)
      exact moved.trans (answered _ _ idle)
  · by_cases rejected : newState = .userRejected
    · subst rejected
      rw [setAgentStateTo]
      split
      · exact Quiet.refl _
      · apply Quiet.trans _ (add_event_quiet _ _ _)
        exact moved.trans (answered _ _ idle)
    · exact set_agent_state_quiet _ _ confirmed rejected

/-- The pending answer is added again, confirmed or rejected. -/
structure Answered (newState : AgentState) (status : ActionConfirmationStatus) (answer : Nat)
    (controller next : Controller) : Prop where
  held : controller.pendingAnswer = some answer
  grows : ∃ event observation, event.confirmationState = some status ∧
    next.record = controller.record ++
      [.moved newState (some answer), .added (some answer) event, .added none observation]
  pending : next.pendingAnswer = some answer
  answers : next.answers = controller.answers

/-- What adding the pending answer again does. -/
theorem answer_pending_spec (held : ctrl.pendingAnswer = some answer) :
    ∃ event, event.confirmationState = some status ∧ (answerPending ctrl status).record =
        ctrl.record ++ [.added (some answer) event] ∧
      (answerPending ctrl status).pendingAnswer = some answer ∧
      (answerPending ctrl status).answers = ctrl.answers := by
  cases waiting : ctrl.pending with
  | none => simp [Controller.pendingAnswer, waiting] at held
  | some pending =>
    have named : pending.answer = some answer := by
      simpa [Controller.pendingAnswer, waiting] using held
    simp only [answerPending, waiting, addPending, addEvent, named, Controller.pendingAnswer,
      bind_some, and_true]
    exact ⟨_, rfl, rfl⟩

def Settles (newState : AgentState) (status : ActionConfirmationStatus) : Prop :=
  newState = .userConfirmed ∧ status = .confirmed ∨ newState = .userRejected ∧ status = .rejected

/-- Moving the agent to a state that settles adds the pending action again. -/
theorem set_agent_state_settling (settles : Settles newState status)
    (different : newState ≠ ctrl.agentState) :
    setAgentStateTo ctrl newState =
      addEvent
        (answerPending { ctrl with
          agentState := newState
          record := ctrl.record ++ [.moved newState ctrl.pendingAnswer] } status)
        none { body := .observation "" (.agentStateChanged newState "") } .environment := by
  rw [setAgentStateTo]
  rw [if_neg different]
  cases settles with
  | inl confirmed =>
    obtain ⟨rfl, rfl⟩ := confirmed
    rfl
  | inr rejected =>
    obtain ⟨rfl, rfl⟩ := rejected
    rfl

/-- Moving the agent to a state that settles answers for the pending answer. -/
theorem set_agent_state_answered (settles : Settles newState status)
    (different : newState ≠ ctrl.agentState) (held : ctrl.pendingAnswer = some answer) :
    Answered newState status answer ctrl (setAgentStateTo ctrl newState) := by
  obtain ⟨event, added, grown, still, counted⟩ := answer_pending_spec
    { ctrl with
      agentState := newState
      record := ctrl.record ++ [.moved newState ctrl.pendingAnswer] } _ _ held
  rw [set_agent_state_settling _ _ _ settles different]
  generalize answerPending _ status = answered at grown still counted ⊢
  obtain ⟨observation, reported⟩ := add_event_record ..
  refine ⟨held, ⟨event, observation, added, ?_⟩, still, counted⟩
  rw [reported, grown]
  simp [held]

/-- The agent gives a new answer: it is added to the stream, or it is refused and
not pending. -/
structure Acted (controller next : Controller) : Prop where
  grows : ∃ entries, (∀ entry ∈ entries, Plain entry) ∧
    (next.record = controller.record ++ entries ∧ next.pendingAnswer = none ∨
      (∃ event, next.record =
        controller.record ++ entries ++ [.added (some controller.answers) event]) ∧
      (next.pendingAnswer = none ∨ next.pendingAnswer = some controller.answers))
  answers : next.answers = controller.answers + 1

/-- A quiet change may come before a new answer. -/
theorem Acted.after_quiet {first second third : Controller} (quiet : Quiet first second)
    (acted : Acted second third) : Acted first third := by
  obtain ⟨before, beforeEq, beforePlain⟩ := quiet.grows
  obtain ⟨entries, plain, shape⟩ := acted.grows
  refine ⟨⟨before ++ entries, ?_, ?_⟩, ?_⟩
  · exact forall_mem_append.mpr ⟨beforePlain, plain⟩
  · rw [beforeEq, quiet.answers] at shape
    rw [← append_assoc]
    exact shape
  · rw [acted.answers, quiet.answers]

/-- Giving up the pending action keeps the state of the agent. -/
theorem reset_agent_state : (reset ctrl).agentState = ctrl.agentState := by
  cases held : ctrl.pending with
  | none => simp [reset, held]
  | some pending =>
    simp only [reset, held]
    split
    · rfl
    · rfl

/-- Settling the pending action keeps the state of the agent. -/
theorem answer_pending_agent_state : (answerPending ctrl status).agentState = ctrl.agentState := by
  cases held : ctrl.pending with
  | none => simp [answerPending, held]
  | some pending => simp [answerPending, held, addPending, addEvent]

theorem set_agent_state_reaches : (setAgentStateTo ctrl newState).agentState = newState := by
  rw [setAgentStateTo]
  split
  case isTrue same => exact same.symm
  case isFalse =>
    extract_lets moved settled answered reason
    have settledState : settled.agentState = newState := by
      simp only [settled]
      split
      · rw [reset_agent_state]
      · rfl
    show answered.agentState = newState
    simp only [answered]
    split
    · rw [answer_pending_agent_state, settledState]
    · split
      · rw [answer_pending_agent_state, settledState]
      · exact settledState

/-- An error gives up the pending action. -/
theorem set_error_pending (different : ctrl.agentState ≠ .error) :
    (setAgentStateTo ctrl .error).pendingAnswer = none := by
  have cleared (other : Controller) : (reset other).pending = none := by
    cases held : other.pending with
    | none => simp [reset, held]
    | some pending => simp only [reset, held]
  rw [setAgentStateTo]
  rw [if_neg (Ne.symm different)]
  exact congrArg (bind · Pending.answer) (cleared _)

/-- A runnable answer is not the null action. -/
theorem runnable_of_null (null : isNull event = true) : runnable event.body = false := by
  rw [isNull] at null
  split at null
  case h_1 shape => rw [shape]; rfl
  case h_2 => simp at null

/-- Taking an answer of a running agent without a pending action. -/
theorem act_on_acted (action : Event) (risk : ActionSecurityRisk)
    (running : ctrl.agentState = .running) (idle : ctrl.pending = none) :
    Acted ctrl (actOn config ctrl action risk) := by
  unfold actOn
  extract_lets answer gated counted held asked
  have heldRecord : held.record = ctrl.record := by
    simp only [held]; split <;> rfl
  have heldAnswers : held.answers = ctrl.answers + 1 := by
    simp only [held]; split <;> rfl
  have heldState : held.agentState = .running := by
    simp only [held]; split <;> exact running
  have heldPending : held.pendingAnswer = none ∨ held.pendingAnswer = some ctrl.answers := by
    simp only [held]
    split
    · exact .inr rfl
    · exact .inl (by simp [counted, Controller.pendingAnswer, idle])
  have asking : Quiet held asked := by
    simp only [asked]
    split
    · exact set_agent_state_quiet _ _ (by decide) (by decide)
    · exact Quiet.refl _
  obtain ⟨entries, grown, plain⟩ := asking.grows
  rw [heldRecord] at grown
  have askedAnswers : asked.answers = ctrl.answers + 1 := by
    rw [asking.answers, heldAnswers]
  have askedPending : asked.pendingAnswer = none ∨ asked.pendingAnswer = some ctrl.answers := by
    cases asking.pending with
    | inl same => rw [same]; exact heldPending
    | inr cleared => exact .inl cleared
  have askedState : asked.agentState ≠ .error := by
    simp only [asked]
    split
    · rw [set_agent_state_reaches]
      decide
    · rw [heldState]
      decide
  by_cases null : isNull gated = true
  · rw [if_pos null]
    have unheld : held.pendingAnswer = none := by
      have still : held = counted := by
        simp [held, runnable_of_null _ null]
      simp [still, counted, Controller.pendingAnswer, idle]
    exact ⟨⟨[], by simp, .inl ⟨by simp [heldRecord], unheld⟩⟩, heldAnswers⟩
  · rw [if_neg null]
    split
    · have failing := set_agent_state_quiet asked .error (by decide) (by decide)
      have dropped := set_error_pending _ askedState
      have shape : reactToException config asked false false = setAgentStateTo asked .error := by
        simp [reactToException]
      obtain ⟨more, moreEq, morePlain⟩ := failing.grows
      rw [shape]
      refine ⟨⟨entries ++ more, ?_, .inl ⟨?_, dropped⟩⟩, ?_⟩
      · exact forall_mem_append.mpr ⟨plain, morePlain⟩
      · rw [moreEq, grown, append_assoc]
      · rw [failing.answers, askedAnswers]
    · split
      · obtain ⟨added, addedEq⟩ := add_event_record ..
        rw [grown] at addedEq
        exact ⟨⟨entries, plain, .inr ⟨⟨added, addedEq⟩, .inr rfl⟩⟩, askedAnswers⟩
      · obtain ⟨added, addedEq⟩ := add_event_record ..
        rw [grown] at addedEq
        exact ⟨⟨entries, plain, .inr ⟨⟨added, addedEq⟩, askedPending⟩⟩, askedAnswers⟩

theorem handle_message_quiet (content : String) (waitForResponse : Bool) :
    Quiet ctrl (handleMessageAction ctrl event content waitForResponse) := by
  rw [handleMessageAction]
  split
  · extract_lets recallType recalled
    have recalling : Quiet ctrl recalled := add_pending_quiet ..
    split
    · exact recalling.trans (set_agent_state_quiet _ _ (by decide) (by decide))
    · exact recalling
  · split
    · exact set_agent_state_quiet _ _ (by decide) (by decide)
    · exact Quiet.refl _

theorem cut_quiet (state : State) : Quiet ctrl { ctrl with state := state } :=
  .of_eq rfl (.inl rfl) rfl

variable (loopStartIdx : Nat)

theorem perform_loop_recovery_quiet : Quiet ctrl (performLoopRecovery ctrl loopStartIdx) := by
  rw [performLoopRecovery]
  apply Quiet.trans _ (add_event_quiet _ _ _)
  apply Quiet.trans (cut_quiet ..)
  exact set_agent_state_quiet _ _ (by decide) (by decide)

theorem restart_quiet : Quiet ctrl (restartWithLastUserMessage ctrl loopStartIdx) := by
  rw [restartWithLastUserMessage]
  split
  · exact perform_loop_recovery_quiet ..
  apply Quiet.trans _ (handle_message_quiet ..)
  apply Quiet.trans _ (add_event_quiet _ _ _)
  apply Quiet.trans (cut_quiet ..)
  exact set_agent_state_quiet _ _ (by decide) (by decide)

/-- The choice for a loop is followed quietly. -/
theorem handle_loop_recovery_quiet (loopStartIdx : Option Nat) (option : Int) :
    Quiet ctrl (handleLoopRecoveryAction ctrl loopStartIdx option) := by
  unfold handleLoopRecoveryAction
  split
  · exact Quiet.refl _
  split
  · exact perform_loop_recovery_quiet ..
  split
  · exact restart_quiet ..
  · split
    · exact set_agent_state_quiet _ _ (by decide) (by decide)
    · exact Quiet.refl _

variable (circumstances : Circumstances)

/-- Every action but a change of the agent's state is handled quietly. -/
theorem handle_action_quiet (event : Event) (action : Action)
    (other : ∀ agentState, action ≠ .changeAgentState agentState) :
    Quiet ctrl (handleAction ctrl circumstances event action) := by
  unfold handleAction
  split
  case h_1 agentState => exact absurd rfl (other agentState)
  case h_2 => exact handle_message_quiet ..
  case h_3 =>
    extract_lets delegated
    have delegating : Quiet ctrl delegated := .of_eq rfl (.inl rfl) rfl
    split
    · exact delegating.trans (add_event_quiet ..)
    · exact delegating
  case h_4 => exact set_agent_state_quiet _ _ (by decide) (by decide)
  case h_5 => exact set_agent_state_quiet _ _ (by decide) (by decide)
  case h_6 => exact handle_loop_recovery_quiet ..
  case h_7 => exact Quiet.refl _

theorem handle_observation_quiet (observation : Event) :
    Quiet ctrl (handleObservation ctrl observation) := by
  rw [handleObservation]
  split
  · exact Quiet.refl _
  split
  · exact Quiet.refl _
  split
  · exact Quiet.refl _
  extract_lets cleared resumed
  have clearing : Quiet ctrl cleared := .of_eq rfl (.inr rfl) rfl
  have resuming : Quiet cleared resumed := by
    simp only [resumed]
    split
    · exact set_agent_state_quiet _ _ (by decide) (by decide)
    · exact Quiet.refl ..
  apply Quiet.trans (clearing.trans resuming)
  split
  · exact set_agent_state_quiet _ _ (by decide) (by decide)
  · exact Quiet.refl ..

theorem react_to_exception_quiet (rateLimited retriesLeft : Bool) :
    Quiet ctrl (reactToException config ctrl rateLimited retriesLeft) := by
  rw [reactToException]
  split
  · exact set_agent_state_quiet _ _ (by decide) (by decide)
  · exact set_agent_state_quiet _ _ (by decide) (by decide)

/-- The agent takes a step quietly, or gives a new answer. -/
theorem step_agent_changes (outcome : StepOutcome) : Quiet ctrl (stepAgent config ctrl outcome) ∨
      Acted ctrl (stepAgent config ctrl outcome) := by
  unfold stepAgent
  split
  case isTrue => exact .inl (Quiet.refl _)
  case isFalse ready =>
    have running : ctrl.agentState = .running := by
      by_contra different
      exact ready (.inl different)
    have idle : ctrl.pending = none := by
      cases held : ctrl.pending with
      | none => rfl
      | some pending => exact absurd (.inr (by simp [held])) ready
    cases outcome with
    | stuck => exact .inl (react_to_exception_quiet ..)
    | limited => exact .inl (react_to_exception_quiet ..)
    | acted action risk => exact .inr (act_on_acted _ _ _ _ running idle)
    | malformed message => exact .inl (add_event_quiet ..)
    | contextExceeded => exact .inl (add_event_quiet ..)
    | raised rateLimited retriesLeft => exact .inl (react_to_exception_quiet ..)

/-- A step that moves the agent to the confirmed state while an answer is pending. -/
def Confirms (controller : Controller) (label : Label) (answer : Nat) : Prop :=
  controller.hasDelegate = false ∧ controller.agentState ≠ .userConfirmed ∧
    controller.pendingAnswer = some answer ∧
    ∃ event circumstances, label = .deliver event circumstances ∧ event.hidden = false ∧
      event.body = .action (.changeAgentState .userConfirmed)

/-- What a step may do when it confirms no answer. -/
inductive Unconfirmed (controller next : Controller) : Prop where
  | quiet (quiet : Quiet controller next)
  | rejected (answer : Nat) (rejected : Answered .userRejected .rejected answer controller next)
  | acted (acted : Acted controller next)

theorem set_agent_state_changes :
    (∃ answer, newState = .userConfirmed ∧ ctrl.agentState ≠ .userConfirmed ∧
        Answered .userConfirmed .confirmed answer ctrl (setAgentStateTo ctrl newState)) ∨
      (newState = .userConfirmed → ctrl.agentState ≠ .userConfirmed → ctrl.pendingAnswer = none) ∧
      Unconfirmed ctrl (setAgentStateTo ctrl newState) := by
  by_cases same : newState = ctrl.agentState
  · have unchanged : setAgentStateTo ctrl newState = ctrl := by
      simp [setAgentStateTo, same]
    refine .inr ⟨?_, ?_⟩
    · intro confirmed different
      exact absurd (same.symm.trans confirmed) different
    · rw [unchanged]
      exact .quiet (Quiet.refl _)
  · cases held : ctrl.pendingAnswer with
    | none => exact .inr ⟨fun _ _ => rfl, .quiet (set_agent_state_idle _ _ held)⟩
    | some answer =>
      by_cases confirmed : newState = .userConfirmed
      · subst confirmed
        exact .inl ⟨answer, rfl, Ne.symm same, set_agent_state_answered _ _ _ _
          (.inl ⟨rfl, rfl⟩) same held⟩
      refine .inr ⟨fun reached => absurd reached confirmed, ?_⟩
      by_cases rejected : newState = .userRejected
      · subst rejected
        exact .rejected answer (set_agent_state_answered _ _ _ _
          (.inr ⟨rfl, rfl⟩) same held)
      · exact .quiet (set_agent_state_quiet _ _ confirmed rejected)

/-- A quiet change may come before every change that confirms nothing, unless that
change needs a pending answer. -/
theorem step_agent_unconfirmed {ctrl handled : Controller} (quiet : Quiet ctrl handled)
    (stepping : Bool) (outcome : StepOutcome) :
    Unconfirmed ctrl (if stepping then stepAgent config handled outcome else handled) := by
  cases stepping with
  | false => exact .quiet quiet
  | true =>
    cases step_agent_changes .. with
    | inl still => exact .quiet (quiet.trans still)
    | inr acted => exact .acted (acted.after_quiet quiet)

/-- After a request to move the agent the agent takes no step. -/
theorem should_step_request (request : event.body = .action (.changeAgentState newState)) :
    shouldStep ctrl event = false := by
  rw [shouldStep]
  split
  · rfl
  · rw [request]

/-- What a delivered request to move the agent does. -/
theorem request_changes {ctrl : Controller} {event : Event} {newState : AgentState}
    (present : ctrl.hasDelegate = false) (visible : event.hidden = false)
    (body : event.body = .action (.changeAgentState newState)) :
    (∃ answer, Confirms ctrl (.deliver event circumstances) answer ∧
        Answered .userConfirmed .confirmed answer ctrl (onEvent config ctrl event circumstances)) ∨
      (∀ answer, ¬ Confirms ctrl (.deliver event circumstances) answer) ∧
      Unconfirmed ctrl (onEvent config ctrl event circumstances) := by
  have known := cut_quiet ctrl (addHistory ctrl.state event)
  have moves : onEvent config ctrl event circumstances = setAgentStateTo
      { ctrl with state := addHistory ctrl.state event } newState := by
    rw [onEvent, if_neg (by simp [present]), if_neg (by simp [visible])]
    simp [should_step_request _ event newState body, body, handleAction]
  rw [moves]
  cases set_agent_state_changes
    { ctrl with state := addHistory ctrl.state event } newState with
  | inl confirmed =>
    obtain ⟨answer, rfl, different, answered⟩ := confirmed
    refine .inl ⟨answer, ?_, ?_⟩
    · exact ⟨present, different, answered.held, event, circumstances, rfl, visible, body⟩
    · exact ⟨answered.held, answered.grows, answered.pending, answered.answers⟩
  | inr unconfirmed =>
    obtain ⟨idle, change⟩ := unconfirmed
    refine .inr ⟨?_, ?_⟩
    · rintro answer ⟨-, different, held, _, _, ⟨⟩, -, confirmed⟩
      have asked : newState = .userConfirmed := by
        rw [body] at confirmed
        injection confirmed with inner
        injection inner
      have nothing : ctrl.pendingAnswer = none := idle asked different
      rw [held] at nothing
      cases nothing
    · cases change with
      | quiet quiet => exact .quiet (known.trans quiet)
      | rejected answer answered =>
        exact .rejected answer
          ⟨answered.held, answered.grows, answered.pending, answered.answers⟩
      | acted acted => exact .acted (acted.after_quiet known)

variable (label : Label)

/-- What one step does to the answers of the agent. -/
theorem step_changes : (∃ answer, Confirms ctrl label answer ∧
        Answered .userConfirmed .confirmed answer ctrl (step config ctrl label)) ∨
      (∀ answer, ¬ Confirms ctrl label answer) ∧
      Unconfirmed ctrl (step config ctrl label) := by
  have otherwise (unrequested : ∀ event circumstances, label = .deliver event circumstances →
      ctrl.hasDelegate = false → event.hidden = false →
      event.body ≠ .action (.changeAgentState .userConfirmed)) (answer : Nat) :
      ¬ Confirms ctrl label answer := by
    rintro ⟨present, -, -, event, circumstances, delivered, visible, request⟩
    exact unrequested event circumstances delivered present visible request
  cases label with
  | external event source => exact .inr ⟨otherwise (by simp), .quiet (add_event_quiet ..)⟩
  | close setStopState =>
    refine .inr ⟨otherwise (by simp), .quiet ?_⟩
    cases setStopState with
    | true => exact set_agent_state_quiet _ _ (by decide) (by decide)
    | false => exact Quiet.refl _
  | deliver event circumstances =>
    by_cases delegating : ctrl.hasDelegate = true
    · refine .inr ⟨otherwise (by simp [delegating]), .quiet ?_⟩
      simp only [step, onEvent]
      rw [if_pos delegating]
      split
      · exact (add_event_quiet ..).trans (.of_eq rfl (.inl rfl) rfl)
      · exact Quiet.refl _
    by_cases concealed : event.hidden = true
    · refine .inr ⟨otherwise ?_, .quiet ?_⟩
      · rintro _ _ ⟨⟩ - visible
        simp [concealed] at visible
      · simp only [step, onEvent]
        rw [if_neg delegating, if_pos concealed]
        exact Quiet.refl _
    by_cases request : ∃ newState, event.body = .action (.changeAgentState newState)
    · obtain ⟨newState, body⟩ := request
      exact request_changes _ _
        (by simpa using delegating) (by simpa using concealed) body
    refine .inr ⟨otherwise ?_, ?_⟩
    · rintro _ _ ⟨⟩ - - body
      exact request ⟨_, body⟩
    · have known := cut_quiet ctrl (addHistory ctrl.state event)
      simp only [step, onEvent]
      rw [if_neg delegating, if_neg concealed]
      cases body : event.body with
      | bare => exact step_agent_unconfirmed _ known _ _
      | observation content kind =>
        exact step_agent_unconfirmed _ (known.trans (handle_observation_quiet ..)) _ _
      | action action =>
        have other : ∀ newState, action ≠ .changeAgentState newState := by
          rintro newState rfl
          exact request ⟨newState, body⟩
        exact step_agent_unconfirmed _
          (known.trans (handle_action_quiet _ _ _ _ other)) _ _

variable (first second : List Entry)

@[simp] theorem releases_append :
    releases answer (first ++ second) = releases answer first + releases answer second :=
  countP_append

@[simp] theorem confirmations_append : confirmations answer (first ++ second) =
      confirmations answer first + confirmations answer second :=
  countP_append

@[simp] theorem first_status_append : firstStatus answer (first ++ second) =
      (firstStatus answer first).or (firstStatus answer second) :=
  findSome?_append

/-- Without a confirmation no entry confirms. -/
theorem confirmations_eq_zero (record : List Entry) :
    confirmations answer record = 0 ↔ Entry.moved .userConfirmed (some answer) ∉ record := by
  rw [confirmations, countP_eq_zero]
  constructor
  · intro never member
    exact never _ member (by simp [confirming])
  · intro absent entry member confirms
    cases entry with
    | added added event => simp [confirming] at confirms
    | moved agentState pending =>
      simp only [confirming, Bool.and_eq_true, decide_eq_true_eq] at confirms
      exact absent (confirms.1 ▸ confirms.2 ▸ member)

/-- Plain entries release, confirm and add no answer. -/
theorem plain_entries (entries : List Entry) (plain : ∀ entry ∈ entries, Plain entry) :
    releases answer entries = 0 ∧ confirmations answer entries = 0 ∧
      firstStatus answer entries = none := by
  have each (entry : Entry) (member : entry ∈ entries) : releasing answer entry = false ∧
      confirming answer entry = false ∧ statusOf answer entry = none := by
    have fact := plain entry member
    cases entry with
    | added added event =>
      simp only [Plain] at fact
      simp [releasing, confirming, statusOf, fact]
    | moved agentState pending =>
      refine ⟨rfl, ?_, rfl⟩
      cases fact with
      | inl elsewhere => simp [confirming, elsewhere]
      | inr nothing => simp [confirming, nothing]
  refine ⟨?_, ?_, ?_⟩
  · apply countP_eq_zero.mpr
    intro entry member
    simp [(each entry member).1]
  · apply countP_eq_zero.mpr
    intro entry member
    simp [(each entry member).2.1]
  · apply findSome?_eq_none_iff.mpr
    intro entry member
    exact (each entry member).2.2

/-- Every release comes after a confirmation of its answer or is the first entry of
the answer. -/
def Preceded (record : List Entry) : Prop :=
  ∀ answer before entry after, record = before ++ entry :: after →
    releasing answer entry = true →
    Entry.moved .userConfirmed (some answer) ∈ before ∨ firstStatus answer before = none

variable {record : List Entry} (preceded : Preceded record)
include preceded

theorem Preceded.append_one (last : Entry) (allowed : ∀ answer, releasing answer last = true →
      Entry.moved .userConfirmed (some answer) ∈ record ∨ firstStatus answer record = none) :
    Preceded (record ++ [last]) := by
  intro answer before entry after split released
  cases eq_nil_or_concat after with
  | inl ending =>
    subst ending
    obtain ⟨rfl, same⟩ := append_inj' split rfl
    obtain rfl : last = entry := by simpa using same
    exact allowed answer released
  | inr longer =>
    obtain ⟨shorter, final, rfl⟩ := longer
    have regrouped : record ++ [last] = (before ++ entry :: shorter) ++ [final] := by
      rw [split]
      simp
    obtain ⟨rfl, -⟩ := append_inj' regrouped rfl
    exact preceded answer before entry shorter rfl released

/-- More entries that release nothing. -/
theorem Preceded.append_plain (entries : List Entry) (plain : ∀ entry ∈ entries, Plain entry) :
    Preceded (record ++ entries) := by
  induction entries generalizing record with
  | nil => simpa using preceded
  | cons entry rest ih =>
    have next : Preceded (record ++ [entry]) := by
      apply preceded.append_one
      intro answer released
      have silent := (plain_entries answer [entry] (by
        intro other member
        obtain rfl := mem_singleton.mp member
        exact plain other (by simp))).1
      simp [releases, released] at silent
    have whole := ih next (by
      intro other member
      exact plain other (.tail entry member))
    simpa using whole

omit preceded

/-- What holds in every state of a controller, however the steps are chosen. -/
structure Sound (controller : Controller) : Prop where
  counted : ∀ answer, releases answer controller.record =
    confirmations answer controller.record +
      if firstStatus answer controller.record = some (some .confirmed) then 1 else 0
  known : ∀ answer, controller.pendingAnswer = some answer →
    firstStatus answer controller.record ≠ none
  fresh : ∀ answer, controller.answers ≤ answer →
    confirmations answer controller.record = 0 ∧ firstStatus answer controller.record = none
  preceded : Preceded controller.record
  awaited : ∀ answer event, Entry.added (some answer) event ∈ controller.record →
    event.confirmationState = some .awaitingConfirmation →
    firstStatus answer controller.record = some (some .awaitingConfirmation)

theorem Sound.quiet {ctrl next : Controller} (sound : Sound ctrl)
    (quiet : Quiet ctrl next) : Sound next := by
  obtain ⟨entries, grown, plain⟩ := quiet.grows
  have silent (answer : Nat) := plain_entries answer entries plain
  have sameStatus (answer : Nat) :
      firstStatus answer next.record = firstStatus answer ctrl.record := by
    rw [grown, first_status_append, (silent answer).2.2, or_none]
  have sameConfirmations (answer : Nat) :
      confirmations answer next.record = confirmations answer ctrl.record := by
    rw [grown, confirmations_append, (silent answer).2.1, Nat.add_zero]
  refine ⟨?_, ?_, ?_, ?_, ?_⟩
  · intro answer
    rw [sameStatus, sameConfirmations, ← sound.counted answer, grown, releases_append,
      (silent answer).1, Nat.add_zero]
  · intro answer held
    rw [sameStatus]
    cases quiet.pending with
    | inl same => exact sound.known answer (same ▸ held)
    | inr cleared => rw [cleared] at held; cases held
  · intro answer beyond
    rw [sameStatus, sameConfirmations]
    exact sound.fresh answer (quiet.answers ▸ beyond)
  · rw [grown]
    exact sound.preceded.append_plain entries plain
  · intro answer event member status
    rw [sameStatus]
    rw [grown] at member
    cases mem_append.mp member with
    | inl early => exact sound.awaited answer event early status
    | inr late =>
      have none := plain _ late
      simp [Plain] at none

/-- Settling the pending answer releases it exactly when it confirms it. -/
theorem Answered.counts {newState : AgentState} {status : ActionConfirmationStatus}
    {answer : Nat} {ctrl next : Controller} (settles : Settles newState status)
    (answered : Answered newState status answer ctrl next) (other : Nat) :
    releases other next.record = releases other ctrl.record +
        (if status = .confirmed ∧ answer = other then 1 else 0) ∧
      confirmations other next.record = confirmations other ctrl.record +
        (if status = .confirmed ∧ answer = other then 1 else 0) := by
  obtain ⟨event, observation, added, grown⟩ := answered.grows
  rw [grown, releases_append, confirmations_append]
  cases settles with
  | inl confirmed =>
    obtain ⟨rfl, rfl⟩ := confirmed
    simp [releases, confirmations, releasing, confirming, countP_cons, added]
  | inr rejected =>
    obtain ⟨rfl, rfl⟩ := rejected
    simp [releases, confirmations, releasing, confirming, added]

/-- Settling the pending answer changes no first status. -/
theorem Answered.first_status {newState : AgentState} {status : ActionConfirmationStatus}
    {answer : Nat} {ctrl next : Controller} (sound : Sound ctrl)
    (answered : Answered newState status answer ctrl next) (other : Nat) :
    firstStatus other next.record = firstStatus other ctrl.record := by
  obtain ⟨event, observation, -, grown⟩ := answered.grows
  rw [grown, first_status_append]
  cases before : firstStatus other ctrl.record with
  | some first => rfl
  | none =>
    have different : answer ≠ other := by
      rintro rfl
      exact sound.known answer answered.held before
    simp [firstStatus, statusOf, different]

/-- Settling the pending answer keeps the controller sound. -/
theorem Sound.answered {newState : AgentState} {status : ActionConfirmationStatus}
    {answer : Nat} {ctrl next : Controller} (sound : Sound ctrl)
    (settles : Settles newState status)
    (answered : Answered newState status answer ctrl next) : Sound next := by
  have sameStatus := answered.first_status sound
  have counts := answered.counts settles
  have old : answer < ctrl.answers := by
    by_contra beyond
    exact sound.known answer answered.held (sound.fresh answer (by omega)).2
  obtain ⟨event, observation, added, grown⟩ := answered.grows
  refine ⟨?_, ?_, ?_, ?_, ?_⟩
  · intro other
    rw [(counts other).1, (counts other).2, sameStatus, sound.counted other]
    omega
  · intro other held
    rw [sameStatus]
    apply sound.known
    rw [answered.held, ← answered.pending, held]
  · intro other beyond
    rw [answered.answers] at beyond
    have different : answer ≠ other := by omega
    rw [(counts other).2, sameStatus]
    simpa [different] using sound.fresh other beyond
  · -- the release stands right after the move that it needs
    have moved : Preceded (ctrl.record ++ [.moved newState (some answer)]) := by
      apply sound.preceded.append_one
      intro other released
      simp [releasing] at released
    have released : Preceded (ctrl.record ++ [.moved newState (some answer)] ++
        [.added (some answer) event]) := by
      apply moved.append_one
      intro other released
      simp only [releasing, Bool.and_eq_true, decide_eq_true_eq, added, some.injEq]
        at released
      obtain ⟨rfl, rfl⟩ := released
      cases settles with
      | inl confirmed => exact .inl (by simp [confirmed.1])
      | inr rejected => cases rejected.2
    have reported := released.append_plain [.added none observation] (by simp [Plain])
    rw [grown]
    simpa using reported
  · intro other former member status
    rw [sameStatus]
    rw [grown] at member
    cases mem_append.mp member with
    | inl early => exact sound.awaited other former early status
    | inr late =>
      simp only [mem_cons, reduceCtorEq, Entry.added.injEq, some.injEq, false_and,
        not_mem_nil, or_false, false_or] at late
      rw [late.2, added] at status
      cases settles with
      | inl confirmed => rw [confirmed.2] at status; cases status
      | inr rejected => rw [rejected.2] at status; cases status

/-- A new answer is released at most once, and no other answer is. -/
theorem Acted.releases_le {ctrl next : Controller} (sound : Sound ctrl)
    (acted : Acted ctrl next) (answer : Nat) :
    releases answer next.record ≤ max (releases answer ctrl.record) 1 := by
  obtain ⟨entries, plain, shape⟩ := acted.grows
  have silent := (plain_entries answer entries plain).1
  cases shape with
  | inl refused => rw [refused.1, releases_append, silent]; omega
  | inr given =>
    obtain ⟨⟨event, grown⟩, -⟩ := given
    rw [grown, releases_append, releases_append, silent]
    by_cases same : ctrl.answers = answer
    · obtain ⟨unconfirmed, unseen⟩ := sound.fresh answer (by omega)
      have before : releases answer ctrl.record = 0 := by
        rw [sound.counted answer, unconfirmed, unseen]
        rfl
      have one : releases answer [Entry.added (some ctrl.answers) event] ≤ 1 :=
        countP_le_length
      omega
    · have nothing : releases answer [Entry.added (some ctrl.answers) event] = 0 := by
        simp [releases, releasing, same]
      omega

/-- Adding a new answer keeps the controller sound. -/
theorem Sound.given {ctrl next : Controller} (sound : Sound ctrl) (event : Event)
    (grown : next.record = ctrl.record ++ [.added (some ctrl.answers) event])
    (pending : next.pendingAnswer = none ∨ next.pendingAnswer = some ctrl.answers)
    (answers : next.answers = ctrl.answers + 1) : Sound next := by
  have unseen := sound.fresh ctrl.answers le_rfl
  have newStatus : firstStatus ctrl.answers next.record = some event.confirmationState := by
    rw [grown, first_status_append, unseen.2]
    simp [firstStatus, statusOf]
  have oldStatus (answer : Nat) (different : ctrl.answers ≠ answer) :
      firstStatus answer next.record = firstStatus answer ctrl.record := by
    rw [grown, first_status_append]
    simp [firstStatus, statusOf, different]
  have sameConfirmations (answer : Nat) :
      confirmations answer next.record = confirmations answer ctrl.record := by
    rw [grown, confirmations_append]
    simp [confirmations, confirming]
  refine ⟨?_, ?_, ?_, ?_, ?_⟩
  · intro answer
    by_cases same : ctrl.answers = answer
    · subst same
      have before : releases ctrl.answers ctrl.record = 0 := by
        rw [sound.counted, unseen.1, unseen.2]
        rfl
      rw [newStatus, sameConfirmations, unseen.1, grown, releases_append, before]
      simp [releases, releasing, countP_cons]
    · rw [oldStatus answer same, sameConfirmations, ← sound.counted answer, grown, releases_append]
      simp [releases, releasing, same]
  · intro answer held
    cases pending with
    | inl cleared => rw [cleared] at held; cases held
    | inr new =>
      rw [new] at held
      cases held
      simp [newStatus]
  · intro answer beyond
    rw [answers] at beyond
    rw [oldStatus answer (by omega), sameConfirmations]
    exact sound.fresh answer (by omega)
  · rw [grown]
    apply sound.preceded.append_one
    intro answer released
    simp only [releasing, Bool.and_eq_true, decide_eq_true_eq, some.injEq] at released
    rw [← released.1]
    exact .inr unseen.2
  · intro answer former member status
    rw [grown] at member
    cases mem_append.mp member with
    | inl early =>
      have before := sound.awaited answer former early status
      by_cases same : ctrl.answers = answer
      · rw [← same, unseen.2] at before
        cases before
      · rw [oldStatus answer same, before]
    | inr late =>
      simp only [mem_singleton, Entry.added.injEq, some.injEq] at late
      rw [late.1, newStatus, ← late.2, status]

/-- A step of the agent keeps the controller sound. -/
theorem Sound.acted {ctrl next : Controller} (sound : Sound ctrl)
    (acted : Acted ctrl next) : Sound next := by
  obtain ⟨entries, plain, shape⟩ := acted.grows
  have quiet : Quiet ctrl
      { ctrl with record := ctrl.record ++ entries, pending := none } :=
    ⟨⟨entries, rfl, plain⟩, .inr rfl, rfl⟩
  have middle := sound.quiet quiet
  cases shape with
  | inl refused =>
    obtain ⟨grown, cleared⟩ := refused
    refine ⟨?_, ?_, ?_, ?_, ?_⟩
    · rw [grown]
      exact middle.counted
    · intro answer held
      rw [cleared] at held
      cases held
    · intro answer beyond
      rw [grown]
      exact middle.fresh answer (by rw [acted.answers] at beyond; exact Nat.le_of_succ_le beyond)
    · rw [grown]
      exact middle.preceded
    · rw [grown]
      exact middle.awaited
  | inr given =>
    obtain ⟨⟨event, grown⟩, pending⟩ := given
    exact middle.given event grown pending acted.answers

/-- Every step keeps the controller sound. -/
theorem step_sound {ctrl : Controller} (sound : Sound ctrl) : Sound (step config ctrl label) := by
  cases step_changes .. with
  | inl confirmed =>
    obtain ⟨answer, -, answered⟩ := confirmed
    exact sound.answered (.inl ⟨rfl, rfl⟩) answered
  | inr unconfirmed =>
    cases unconfirmed.2 with
    | quiet quiet => exact sound.quiet quiet
    | rejected answer answered => exact sound.answered (.inr ⟨rfl, rfl⟩) answered
    | acted acted => exact sound.acted acted

/-- In a sound record the answers that had to wait were confirmed before. -/
theorem Sound.released_after_confirmation {ctrl : Controller} (sound : Sound ctrl) :
    ReleasedAfterConfirmation ctrl.record := by
  rintro answer before entry after split released ⟨event, member, status⟩
  cases sound.preceded answer before entry after split released with
  | inl confirmed => exact confirmed
  | inr first =>
    have awaited := sound.awaited answer event member status
    cases entry with
    | moved agentState pending => simp [releasing] at released
    | added added event =>
      simp only [releasing, Bool.and_eq_true, decide_eq_true_eq] at released
      rw [split, first_status_append, first] at awaited
      simp [firstStatus, statusOf, released.1, released.2] at awaited

/-- A step that confirms the pending answer finds it neither confirmed before nor
added as confirmed at first. -/
def Careful (controller : Controller) (label : Label) : Prop :=
  ∀ answer, Confirms controller label answer →
    firstStatus answer controller.record ≠ some (some .confirmed) ∧
      Entry.moved .userConfirmed (some answer) ∉ controller.record

/-- A careful step is exactly one that releases no answer twice. -/
theorem step_released_once (sound : Sound ctrl) (once : ReleasedOnce ctrl.record) :
    Careful ctrl label ↔ ReleasedOnce (step config ctrl label).record := by
  cases step_changes _ ctrl _ with
  | inl confirmed =>
    obtain ⟨answer, confirms, answered⟩ := confirmed
    have counts := answered.counts (.inl ⟨rfl, rfl⟩)
    have unreleased : Careful ctrl label ↔ releases answer ctrl.record = 0 := by
      rw [sound.counted answer, Nat.add_eq_zero_iff, confirmations_eq_zero]
      constructor
      · intro careful
        obtain ⟨unready, unmoved⟩ := careful answer confirms
        exact ⟨unmoved, if_neg unready⟩
      · rintro ⟨unmoved, unready⟩ other confirmsOther
        obtain rfl : answer = other :=
          some.inj (confirms.2.2.1.symm.trans confirmsOther.2.2.1)
        exact ⟨by simpa using unready, unmoved⟩
    rw [unreleased]
    constructor
    · intro none other
      rw [(counts other).1]
      by_cases same : answer = other
      · subst same
        simp [none]
      · simpa [same] using once other
    · intro next
      have bound := next answer
      rw [(counts answer).1] at bound
      simpa using bound
  | inr unconfirmed =>
    obtain ⟨never, change⟩ := unconfirmed
    refine iff_of_true (fun answer confirms => absurd confirms (never answer)) ?_
    intro answer
    cases change with
    | quiet quiet =>
      obtain ⟨entries, grown, plain⟩ := quiet.grows
      rw [grown, releases_append, (plain_entries _ _ plain).1]
      exact once answer
    | rejected rejectedAnswer answered =>
      have same := (answered.counts (.inr ⟨rfl, rfl⟩) answer).1
      rw [same]
      exact once answer
    | acted acted =>
      have bound := acted.releases_le sound answer
      have before := once answer
      omega

/-- A controller that was just created: nothing is pending and nothing recorded. -/
def created (agentState : AgentState) (state : State) (earlier : List Event) (nextId : Int) :
    Controller where
  agentState := agentState
  state := state
  earlier := earlier
  nextId := nextId

theorem created_sound (agentState : AgentState) (state : State) (earlier : List Event)
    (nextId : Int) : Sound (created agentState state earlier nextId) where
  counted := by intro answer; rfl
  known := by intro answer held; cases held
  fresh := by intro answer _; exact ⟨rfl, rfl⟩
  preceded := by intro answer before entry after split; simp [created] at split
  awaited := by intro answer event member; simp [created] at member

/-- Every state of a run is sound. -/
theorem runs_sound {config : Config} {agentState : AgentState} {state : State}
    {earlier : List Event} {nextId : Int} {labels : List Label} {ctrl : Controller}
    (reached : Reached (step config) (created agentState state earlier nextId) labels
      ctrl) : Sound ctrl := by
  apply invariant_along _ (fun _ _ => True) _ _ _ _ _ _ _ reached
  · intro ctrl label sound _
    exact step_sound _ _ sound
  · exact created_sound ..
  · exact along_of_forall _ (fun _ _ => trivial) _ _

/-- The runs that release every answer at most once, and a waiting answer only after
its confirmation, are exactly those whose every step is careful. -/
theorem answers_released_once_exact (config : Config) (agentState : AgentState) (state : State)
    (earlier : List Event) (nextId : Int) (labels : List Label) :
    (∀ controller, Reached (step config) (created agentState state earlier nextId) labels
      controller → ReleasedOnce controller.record ∧ ReleasedAfterConfirmation controller.record) ↔
      Along (step config) Careful (created agentState state earlier nextId) labels := by
  have exactly := invariant_exact (step config) Careful
    (fun controller => Sound controller ∧ ReleasedOnce controller.record)
    (by
      rintro controller label ⟨sound, once⟩
      rw [step_released_once config controller label sound once]
      exact ⟨fun next => ⟨step_sound config label sound, next⟩, fun next => next.2⟩)
    (created agentState state earlier nextId) labels
    ⟨created_sound .., by intro answer; exact Nat.zero_le 1⟩
  rw [← exactly]
  constructor
  · intro throughout controller reached
    exact ⟨runs_sound reached, (throughout controller reached).1⟩
  · intro throughout controller reached
    obtain ⟨sound, once⟩ := throughout controller reached
    exact ⟨once, sound.released_after_confirmation⟩

/-- A request of a client to move the agent. -/
def request (newState : AgentState) : Label :=
  .deliver { source := some .user, body := .action (.changeAgentState newState) } {}

/-- The first message of the user. -/
def cleanUp : Event where
  id := 0
  source := some .user
  body := .action (.message "Please clean up." none false)

/-- What is recalled for the first message. -/
def recalled : Event where
  id := 3
  source := some .environment
  cause := some 1
  body := .observation "" (.recall ⟨.workspaceContext, "", "", "", "", [], "", "", [], "", "", []⟩)

/-- A command of the agent, as it is created. -/
def makeClean : Event where
  confirmationState := some .confirmed
  body := .action (.cmdRun "make clean" "" false)

/-- The agent answers with a command that waits for its confirmation, and the command
is confirmed, rejected and confirmed again before its observation arrives. -/
def alternatingRequests : List Label :=
  [.deliver cleanUp {}, .deliver recalled { outcome := .acted makeClean .unknown },
    request .userConfirmed, request .userRejected, request .userConfirmed]

/-- A command that was confirmed, rejected and confirmed again is released twice. -/
theorem alternating_requests_release_twice :
    ¬ (∀ config agentState state earlier nextId labels controller,
      Reached (step config) (created agentState state earlier nextId) labels controller →
      ReleasedOnce controller.record ∧ ReleasedAfterConfirmation controller.record) := by
  intro always
  have once := (always { stateConfirmationMode := true, confirmationMode := true }
    .awaitingUserInput {} [cleanUp] 1 alternatingRequests _
    ⟨alternatingRequests, [], by simp, rfl⟩).1 0
  have twice : releases 0 (run (step { stateConfirmationMode := true, confirmationMode := true })
      (created .awaitingUserInput {} [cleanUp] 1) alternatingRequests).record = 2 := by
    decide +kernel
  rw [twice] at once
  omega

end ForgePilot.AgentControllers
