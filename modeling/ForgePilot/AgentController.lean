import ForgePilot.LoopRecovery

/-!
# The agent controller

The controller receives the events of a stream one by one. Actions and observations
change the state of the agent, a step of the agent may follow, and the action that
the agent answers with is added to the stream. A runnable action stays pending
until its observation arrives. An action that needs a confirmation is added as
awaiting one, and added again when the agent is moved to a confirmed or a rejected
state.

What the controller cannot decide itself comes with each event: the answer of the
agent, whether a delegate is done, whether the agent was found to be stuck. What is
added to the stream is recorded, together with the moves of the agent's state.
Limits on iterations and costs, metrics, logging and saved files are not modelled.
-/

namespace ForgePilot.AgentControllers

open Events StateTrackers
open LoopRecovery (truncateMemoryToPoint)

/-- How dangerous an action is. -/
inductive ActionSecurityRisk where
  | unknown
  | low
  | medium
  | high
deriving DecidableEq

structure Config where
  stateConfirmationMode : Bool := false
  confirmationMode : Bool := false
  cliMode : Bool := false
  securityAnalyzer : Bool := false
  statusCallback : Bool := false

/-- What is recorded: a move of the agent's state with the answer that is pending,
or an event that was added to the stream with the answer it is. -/
inductive Entry where
  | moved (agentState : AgentState) (pending : Option Nat)
  | added (answer : Option Nat) (event : Event)

/-- An action that waits for its observation. It may be an answer of the agent. -/
structure Pending where
  answer : Option Nat
  event : Event

/-- A controller: `earlier` is what the stream held at first, `answers` counts the
answers of the agent. -/
structure Controller where
  agentState : AgentState := .loading
  pending : Option Pending := none
  hasDelegate : Bool := false
  state : State := {}
  lastError : String := ""
  earlier : List Event := []
  nextId : Int := 0
  answers : Nat := 0
  record : List Entry := []

def Entry.event : Entry → Option Event
  | .moved _ _ => none
  | .added _ event => some event

def Controller.stream (controller : Controller) : List Event :=
  controller.earlier ++ controller.record.filterMap Entry.event

def Controller.pendingAnswer (controller : Controller) : Option Nat :=
  controller.pending.bind Pending.answer

def addEvent (controller : Controller) (answer : Option Nat) (event : Event)
    (source : EventSource) : Controller :=
  { controller with
    record := controller.record ++
      [.added answer { event with id := controller.nextId, source := some source }]
    nextId := controller.nextId + 1 }

/-- Make an action pending and add it to the stream; the pending action gets the
identifier. -/
def addPending (controller : Controller) (pending : Pending) (source : EventSource) :
    Controller :=
  { addEvent controller pending.answer pending.event source with
    pending := some { pending with
      event := { pending.event with id := controller.nextId, source := some source } } }

def withoutThought : Action → Action
  | .cmdRun command _ hidden => .cmdRun command "" hidden
  | .ipythonRunCell code _ => .ipythonRunCell code ""
  | .fileRead path _ => .fileRead path ""
  | .fileWrite path content _ => .fileWrite path content ""
  | .fileEdit path _ => .fileEdit path ""
  | .browseUrl url _ => .browseUrl url ""
  | .browseInteractive browserActions _ => .browseInteractive browserActions ""
  | .mcp name arguments _ => .mcp name arguments ""
  | .taskTracking command _ => .taskTracking command ""
  | .agentThink _ => .agentThink ""
  | .agentDelegate agent inputs _ => .agentDelegate agent inputs ""
  | .agentFinish outputs _ => .agentFinish outputs ""
  | .agentReject outputs _ => .agentReject outputs ""
  | .recall recallType query _ => .recall recallType query ""
  | other => other

/-- A body without its thought. -/
def thoughtless : EventBody → EventBody
  | .action action => .action (withoutThought action)
  | other => other

/-- Give up the pending action; without an observation it gets one that says that
it was not executed. -/
def reset (controller : Controller) : Controller :=
  match controller.pending with
  | none => controller
  | some pending =>
      let foundObservation := controller.state.history.any (fun event =>
        event.isObservation && event.toolCallMetadata = pending.event.toolCallMetadata)
      let (content, errorId) :=
        if controller.agentState = .stopped then
          ("Stop button pressed. The action has not been executed.",
            "AGENT_ERROR$ERROR_ACTION_NOT_EXECUTED_STOPPED")
        else
          ("The action has not been executed due to a runtime error. The runtime system may " ++
            "have crashed and restarted due to resource constraints. Any previously " ++
            "established system state, dependencies, or environment variables may have been lost.",
            "AGENT_ERROR$ERROR_ACTION_NOT_EXECUTED_ERROR")
      let observed :=
        if foundObservation then controller
        else
          addEvent controller none
            { toolCallMetadata := pending.event.toolCallMetadata
              cause := some pending.event.id
              body := .observation content (.error errorId) } .agent
      { observed with pending := none }

/-- Add the pending action again, confirmed or rejected. -/
def answerPending (controller : Controller) (status : ActionConfirmationStatus) : Controller :=
  match controller.pending with
  | none => controller
  | some pending =>
      addPending controller
        { pending with
          event := { pending.event with
            confirmationState := some status
            body := thoughtless pending.event.body } } .agent

def setAgentStateTo (controller : Controller) (newState : AgentState) : Controller :=
  if newState = controller.agentState then controller
  else
    let moved := { controller with
      agentState := newState
      record := controller.record ++ [.moved newState controller.pendingAnswer] }
    let settled := if newState = .stopped ∨ newState = .error then reset moved else moved
    let answered :=
      if newState = .userConfirmed then answerPending settled .confirmed
      else if newState = .userRejected then answerPending settled .rejected
      else settled
    let reason := if newState = .error then answered.lastError else ""
    addEvent answered none { body := .observation "" (.agentStateChanged newState reason) }
      .environment

def firstUserMessage (controller : Controller) : Option Int :=
  ((controller.stream.filter (fun event =>
    controller.state.startId ≤ event.id ∧ event.isUserMessage)).head?).map Event.id

/-- A message of the user starts a recall and lets the agent run; a message of the
agent may wait for the user. -/
def handleMessageAction (controller : Controller) (event : Event) (content : String)
    (waitForResponse : Bool) : Controller :=
  if event.source = some .user then
    let recallType : RecallType :=
      if firstUserMessage controller = some event.id then .workspaceContext else .knowledge
    let recalled := addPending controller
      ⟨none, { body := .action (.recall recallType content "") }⟩ .user
    if recalled.agentState ≠ .running then setAgentStateTo recalled .running else recalled
  else if event.source = some .agent ∧ waitForResponse then
    setAgentStateTo controller .awaitingUserInput
  else controller

/-- An observation that reports on a recovery. -/
def loopDetection (content : String) : Event where
  body := .observation content .loopDetection

/-- Cut the history back to before the loop and wait for the user. -/
def performLoopRecovery (controller : Controller) (loopStartIdx : Nat) : Controller :=
  let cut := { controller with state := truncateMemoryToPoint controller.state loopStartIdx }
  addEvent (setAgentStateTo cut .awaitingUserInput) none
    (loopDetection ("✅ Loop recovery completed. Agent has been reset to before the loop.\n" ++
      "You can now provide new instructions to continue.\n")) .environment

def lastUserMessage (history : List Event) : Option String :=
  ((history.filter Event.isUserMessage).getLast?).bind (fun event =>
    match event.body with
    | .action (.message content _ _) => some content
    | _ => none)

/-- Cut the history back to before the loop and start again with the last message of
the user. -/
def restartWithLastUserMessage (controller : Controller) (loopStartIdx : Nat) : Controller :=
  match lastUserMessage controller.state.history with
  | none => performLoopRecovery controller loopStartIdx
  | some content =>
      let cut := { controller with state := truncateMemoryToPoint controller.state loopStartIdx }
      let announced := addEvent (setAgentStateTo cut .running) none
        (loopDetection ("\n✅ Restarting with your last instruction: " ++ content ++
          "\nAgent is now continuing with the same task...\n")) .environment
      handleMessageAction announced
        { source := some .user, body := .action (.message content none false) } content false

/-- What the agent does when it takes a step. -/
inductive StepOutcome where
  | stuck
  | limited
  | acted (action : Event) (risk : ActionSecurityRisk)
  | malformed (message : String)
  | contextExceeded
  | raised (rateLimited retriesLeft : Bool)

/-- What comes with an event from outside of the controller. -/
structure Circumstances where
  delegateDone : Bool := false
  delegateOutputs : List (String × Value) := []
  delegateReport : String := ""
  loopStartIdx : Option Nat := none
  outcome : StepOutcome := .stuck

/-- Follow the choice of the user for a loop. -/
def handleLoopRecoveryAction (controller : Controller) (loopStartIdx : Option Nat)
    (option : Int) : Controller :=
  match loopStartIdx with
  | none => controller
  | some index =>
      if option = 1 then performLoopRecovery controller index
      else if option = 2 then restartWithLastUserMessage controller index
      else if option = 3 then setAgentStateTo controller .stopped
      else controller

def handleAction (controller : Controller) (circumstances : Circumstances) (event : Event)
    (action : Action) : Controller :=
  match action with
  | .changeAgentState agentState => setAgentStateTo controller agentState
  | .message content _ waitForResponse =>
      handleMessageAction controller event content waitForResponse
  | .agentDelegate _ inputs _ =>
      let delegated := { controller with hasDelegate := true }
      match inputs.lookup "task" with
      | some (.str task) =>
          addEvent delegated none
            { body := .action (.message ("TASK: " ++ task) none false) } .user
      | _ => delegated
  | .agentFinish _ _ => setAgentStateTo controller .finished
  | .agentReject _ _ => setAgentStateTo controller .rejected
  | .loopRecovery option =>
      handleLoopRecoveryAction controller circumstances.loopStartIdx option
  | _ => controller

/-- Handle an observation: the pending action it belongs to is done, unless the
user is asked about an action. -/
def handleObservation (controller : Controller) (observation : Event) : Controller :=
  match controller.pending with
  | none => controller
  | some pending =>
      if observation.cause ≠ some pending.event.id then controller
      else if controller.agentState = .awaitingUserConfirmation then controller
      else
        let cleared := { controller with pending := none }
        let resumed :=
          if cleared.agentState = .userConfirmed then setAgentStateTo cleared .running
          else cleared
        if resumed.agentState = .userRejected then setAgentStateTo resumed .awaitingUserInput
        else resumed

/-- Whether the agent takes a step after an event. -/
def shouldStep (controller : Controller) (event : Event) : Bool :=
  if controller.hasDelegate then false
  else
    match event.body with
    | .action (.message _ _ _) =>
        event.source = some .user || controller.agentState ≠ .awaitingUserInput
    | .action (.agentDelegate _ _ _) | .action (.condensation _)
    | .action .condensationRequest => true
    | .action _ => false
    | .observation _ .null => event.cause.any (fun cause => 0 < cause)
    | .observation _ (.agentStateChanged _ _) => false
    | .observation _ _ => true
    | .bare => false

def reactToException (config : Config) (controller : Controller)
    (rateLimited retriesLeft : Bool) : Controller :=
  if config.statusCallback && rateLimited && retriesLeft then
    setAgentStateTo controller .rateLimited
  else setAgentStateTo controller .error

/-- The actions that are executed by a runtime. -/
def runnable : EventBody → Bool
  | .action (.cmdRun _ _ _) | .action (.ipythonRunCell _ _) | .action (.browseInteractive _ _)
  | .action (.browseUrl _ _) | .action (.fileEdit _ _) | .action (.fileRead _ _)
  | .action (.fileWrite _ _ _) | .action (.mcp _ _ _) => true
  | _ => false

/-- The confirmation state of an answer: in confirmation mode a runnable action may
have to wait for the user. -/
def gatedState (config : Config) (action : Event) (risk : ActionSecurityRisk) :
    Option ActionConfirmationStatus :=
  let securityRisk := if config.securityAnalyzer then risk else .unknown
  let asks := config.cliMode ||
    (securityRisk = .high || (securityRisk = .unknown && !config.securityAnalyzer)) &&
      config.confirmationMode
  if runnable action.body && config.stateConfirmationMode && asks then
    some .awaitingConfirmation
  else action.confirmationState

/-- An answer that is the null action. -/
def isNull (event : Event) : Bool :=
  match event.body with
  | .action .null => true
  | _ => false

/-- Take an answer of the agent: a runnable one becomes pending, the user is asked
where needed, and the answer is added to the stream. An answer that is already in
the stream is refused. -/
def actOn (config : Config) (controller : Controller) (action : Event)
    (risk : ActionSecurityRisk) : Controller :=
  let answer := controller.answers
  let gated := { action with
    confirmationState := gatedState config action risk
    source := some .agent }
  let counted := { controller with answers := controller.answers + 1 }
  let held :=
    if runnable gated.body then { counted with pending := some ⟨some answer, gated⟩ } else counted
  if isNull gated then held
  else
    let asked :=
      if gated.confirmationState = some .awaitingConfirmation then
        setAgentStateTo held .awaitingUserConfirmation
      else held
    if gated.id ≠ -1 then reactToException config asked false false
    else if runnable gated.body then addPending asked ⟨some answer, gated⟩ .agent
    else addEvent asked (some answer) gated .agent

/-- Let the agent take a step. -/
def stepAgent (config : Config) (controller : Controller) (outcome : StepOutcome) : Controller :=
  if controller.agentState ≠ .running ∨ controller.pending.isSome then controller
  else
    match outcome with
    | .stuck | .limited => reactToException config controller false false
    | .acted action risk => actOn config controller action risk
    | .malformed message =>
        addEvent controller none { body := .observation message (.error "") } .agent
    | .contextExceeded =>
        addEvent controller none { body := .action .condensationRequest } .agent
    | .raised rateLimited retriesLeft =>
        reactToException config controller rateLimited retriesLeft

def lastDelegateCall (history : List Event) : Option ToolCallMetadata :=
  ((history.filter (fun event => delegateKind event = .opening)).getLast?).bind
    Event.toolCallMetadata

/-- Take the result of a delegate. -/
def endDelegate (controller : Controller) (circumstances : Circumstances) : Controller :=
  { addEvent controller none
      { toolCallMetadata := lastDelegateCall controller.state.history
        body := .observation ("Delegated agent finished with result:\n\n" ++
          circumstances.delegateReport) (.agentDelegate circumstances.delegateOutputs) } .agent with
    hasDelegate := false }

/-- Receive an event: a delegate that is not done receives it instead. -/
def onEvent (config : Config) (controller : Controller) (event : Event)
    (circumstances : Circumstances) : Controller :=
  if controller.hasDelegate then
    if circumstances.delegateDone then endDelegate controller circumstances else controller
  else if event.hidden then controller
  else
    let known := { controller with state := addHistory controller.state event }
    let handled :=
      match event.body with
      | .action action => handleAction known circumstances event action
      | .observation _ _ => handleObservation known event
      | .bare => known
    if shouldStep handled event then stepAgent config handled circumstances.outcome else handled

/-- What happens to a controller: an event is delivered, somebody else adds an event
to the stream, or the controller is closed. -/
inductive Label where
  | deliver (event : Event) (circumstances : Circumstances)
  | external (event : Event) (source : EventSource)
  | close (setStopState : Bool)

def step (config : Config) (controller : Controller) : Label → Controller
  | .deliver event circumstances => onEvent config controller event circumstances
  | .external event source => addEvent controller none event source
  | .close setStopState =>
      if setStopState then setAgentStateTo controller .stopped else controller

end ForgePilot.AgentControllers
