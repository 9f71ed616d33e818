import ForgePilot.Values

/-!
# Events of a conversation

An event is an action or an observation together with what the event stream and
the controller attach to it: an identifier, its source, the event that caused it,
and the tool call it belongs to. An event that never entered a stream has the
identifier minus one.

Every class of action and observation has its constructor, with the fields that
the functions of this development read. The text an event prints as is kept with
the event, since it is computed from fields that nothing else reads.
-/

namespace ForgePilot.Events

inductive EventSource where
  | agent
  | user
  | environment
deriving DecidableEq

inductive AgentState where
  | loading
  | running
  | awaitingUserInput
  | paused
  | stopped
  | finished
  | rejected
  | error
  | awaitingUserConfirmation
  | userConfirmed
  | userRejected
  | rateLimited
deriving DecidableEq

/-- Whether an action may be executed. -/
inductive ActionConfirmationStatus where
  | confirmed
  | rejected
  | awaitingConfirmation
deriving DecidableEq

inductive RecallType where
  | workspaceContext
  | knowledge
deriving DecidableEq

/-- One call of a tool in a response of the model. -/
structure ToolCall where
  id : String
  name : String
  arguments : String
deriving DecidableEq

/-- A response of the model: its identifier and its message. -/
structure ModelResponse where
  id : String
  role : String := "assistant"
  content : Option String := none
  toolCalls : Option (List ToolCall) := none
deriving DecidableEq

structure ToolCallMetadata where
  functionName : String
  toolCallId : String
  modelResponse : ModelResponse
  totalCallsInResponse : Int
deriving DecidableEq

/-- The fields of a condensation that may be left out. -/
structure CondensationFields where
  forgottenEventIds : Option (List Int) := none
  forgottenEventsStartId : Option Int := none
  forgottenEventsEndId : Option Int := none
  summary : Option String := none
  summaryOffset : Option Int := none
deriving DecidableEq

/-- Events are forgotten by a list of identifiers or by a range, and not by both;
a summary comes with its offset. -/
def CondensationFields.validateFieldPolymorphism (fields : CondensationFields) : Bool :=
  (fields.forgottenEventIds.isSome ^^
      (fields.forgottenEventsStartId.isSome && fields.forgottenEventsEndId.isSome)) &&
    (fields.summary.isSome == fields.summaryOffset.isSome)

/-- A condensation that passed its check. -/
structure CondensationAction extends CondensationFields where
  valid : toCondensationFields.validateFieldPolymorphism = true

/-- Build a condensation, or raise. -/
def CondensationAction.create (fields : CondensationFields) :
    Except String CondensationAction :=
  if valid : fields.validateFieldPolymorphism = true then .ok ⟨fields, valid⟩
  else .error "Invalid configuration of the optional fields."

/-- The integers from a start up to and including an end. -/
def idRange (start stop : Int) : List Int :=
  (List.range (stop + 1 - start).toNat).map (fun offset : Nat => start + offset)

/-- The identifiers a condensation forgets. -/
def CondensationAction.forgotten (action : CondensationAction) : List Int :=
  match action.forgottenEventIds with
  | some ids => ids
  | none =>
      idRange (action.forgottenEventsStartId.getD 0) (action.forgottenEventsEndId.getD 0)

/-- Membership of a range of identifiers. -/
@[simp] theorem mem_id_range (start stop id : Int) :
    id ∈ idRange start stop ↔ start ≤ id ∧ id ≤ stop := by
  simp only [idRange, List.mem_map, List.mem_range]
  constructor
  · rintro ⟨offset, inside, rfl⟩
    omega
  · rintro ⟨low, high⟩
    exact ⟨(id - start).toNat, by omega, by omega⟩

inductive Action where
  | null
  | changeAgentState (agentState : AgentState)
  | message (content : String) (imageUrls : Option (List String)) (waitForResponse : Bool)
  | systemMessage (content : String)
  | cmdRun (command thought : String) (hidden : Bool)
  | ipythonRunCell (code thought : String)
  | fileRead (path thought : String)
  | fileWrite (path content thought : String)
  | fileEdit (path thought : String)
  | browseUrl (url thought : String)
  | browseInteractive (browserActions thought : String)
  | mcp (name : String) (arguments : List (String × Value)) (thought : String)
  | taskTracking (command thought : String)
  | agentThink (thought : String)
  | agentDelegate (agent : String) (inputs : List (String × Value)) (thought : String)
  | agentFinish (outputs : List (String × Value)) (thought : String)
  | agentReject (outputs : List (String × Value)) (thought : String)
  | recall (recallType : RecallType) (query thought : String)
  | condensation (action : CondensationAction)
  | condensationRequest
  | loopRecovery (option : Int)

/-- What the prompt of a shell reports after a command. -/
structure CmdOutputMetadata where
  exitCode : Int := -1
  workingDir : Option String := none
  pyInterpreterPath : Option String := none
  before : String := ""
  after : String := ""
deriving DecidableEq

/-- A piece of knowledge that a recall brings up. -/
structure MicroagentKnowledge where
  name : String
  trigger : String
  content : String
deriving DecidableEq

structure RecallFindings where
  recallType : RecallType
  repoName : String := ""
  repoDirectory : String := ""
  repoBranch : String := ""
  repoInstructions : String := ""
  runtimeHosts : List (String × Int) := []
  additionalAgentInstructions : String := ""
  date : String := ""
  customSecretsDescriptions : List (String × String) := []
  conversationInstructions : String := ""
  workingDir : String := ""
  microagentKnowledge : List MicroagentKnowledge := []
deriving DecidableEq

/-- The classes of observations; the content of an observation stands beside its
class. -/
inductive ObservationClass where
  | null
  | agentStateChanged (agentState : AgentState) (reason : String)
  | cmdOutput (command : String) (metadata : CmdOutputMetadata) (hidden : Bool)
  | ipythonRunCell (code : String) (imageUrls : Option (List String))
  | fileRead (path : String)
  | fileWrite (path : String)
  | fileEdit (path : String)
  | browserOutput (url triggerByAction screenshot setOfMarks : String)
  | agentDelegate (outputs : List (String × Value))
  | agentThink
  | taskTracking
  | error (errorId : String)
  | userReject
  | agentCondensation
  | fileDownload (filePath : String)
  | loopDetection
  | recall (findings : RecallFindings)
  | mcp (name : String)
  | success

/-- What an event is. The base class itself is neither action nor observation. -/
inductive EventBody where
  | action (action : Action)
  | observation (content : String) (observationClass : ObservationClass)
  | bare

/-- An event with what was attached to it. -/
structure Event where
  id : Int := -1
  source : Option EventSource := none
  cause : Option Int := none
  toolCallMetadata : Option ToolCallMetadata := none
  confirmationState : Option ActionConfirmationStatus := none
  printed : String := ""
  body : EventBody

namespace Event

def isAction (event : Event) : Bool :=
  match event.body with
  | .action _ => true
  | _ => false

def isObservation (event : Event) : Bool :=
  match event.body with
  | .observation _ _ => true
  | _ => false

def isUserMessage (event : Event) : Bool :=
  match event.body with
  | .action (.message _ _ _) => event.source = some .user
  | _ => false

def isSystemMessage (event : Event) : Bool :=
  match event.body with
  | .action (.systemMessage _) => true
  | _ => false

/-- An observation that stands for condensed events. -/
def isAgentCondensation (event : Event) : Bool :=
  match event.body with
  | .observation _ .agentCondensation => true
  | _ => false

def browserUrl (event : Event) : Option String :=
  match event.body with
  | .observation _ (.browserOutput url _ _ _) => some url
  | _ => none

def condensation (event : Event) : Option CondensationAction :=
  match event.body with
  | .action (.condensation action) => some action
  | _ => none

def isCondensationRequest (event : Event) : Bool :=
  match event.body with
  | .action .condensationRequest => true
  | _ => false

/-- Only commands and their outputs can be hidden. -/
def hidden (event : Event) : Bool :=
  match event.body with
  | .action (.cmdRun _ _ hidden) => hidden
  | .observation _ (.cmdOutput _ _ hidden) => hidden
  | _ => false

end Event

end ForgePilot.Events
