import ForgePilot.EventClasses

/-!
# Events as dictionaries

An event is written as a dictionary: what is attached to it, and either the arguments of an
action or the content and the extras of an observation. Reading finds the class by the
type of the event, undoes the conversions, renames what older events call differently, and
constructs an event of the class.

The dictionary of an event is a record of the entries that are read or written; the
metrics of model calls are left out. The metadata of a tool call hold a response of a
library, so that dumping and validating them are parameters, as are the text of an object
that is not a text and the evaluation of a literal. Cutting, joining or counting anything
but the declared type raises.
-/

namespace ForgePilot.EventSerialization

open EventClasses
open Events (EventSource RecallType idRange)

inductive PythonError where
  | attributeError | keyError | typeError | valueError | validationError | malformedAction

/-- What the code leaves to its surroundings. -/
structure Environment (μ : Type) where
  version : String
  printed : Attribute → String
  literalEval : String → Option (List (String × Value))
  modelDump : μ → Value
  modelValidate : Value → Except PythonError μ

/-- An event of a class, with its attributes and what is attached to it. -/
structure Event (μ : Type) where
  eventClass : EventClass
  attributes : String → Attribute
  id : Int := -1
  timestamp : Option String := none
  source : Option EventSource := none
  cause : Option Int := none
  timeout : Option Float := none
  toolCallMetadata : Option μ := none

structure EventDict where
  id : Option Int := none
  timestamp : Option String := none
  source : Option String := none
  message : Option Attribute := none
  cause : Option Int := none
  action : Option Attribute := none
  observation : Option Attribute := none
  toolCallMetadata : Option Value := none
  args : Option (OrderedDict String Attribute) := none
  timeout : Option Float := none
  content : Option Attribute := none
  extras : Option (OrderedDict String Attribute) := none
  success : Option Bool := none

def sourceValue : EventSource → String
  | .agent => "agent"
  | .user => "user"
  | .environment => "environment"

def readSource (value : String) : Except PythonError EventSource :=
  match [EventSource.agent, .user, .environment].find? (fun source => sourceValue source = value) with
  | some source => .ok source
  | none => .error .valueError

variable {μ : Type}

/-! ## Command output -/

/-- The greatest size of command output. -/
def maxCmdOutputSize : Nat := 30000

/-- What stands for the middle of a text that is cut. -/
def truncationNotice : List Char := "\n[... Observation truncated due to length ...]\n".toList

/-- Cut the middle of a text that is too long. -/
def maybeTruncate (maxSize : Nat) (content : List Char) : List Char :=
  if content.length ≤ maxSize then content
  else content.take (maxSize / 2) ++ truncationNotice ++
    content.drop (content.length - maxSize / 2)

/-- Cut the content of command output. -/
def truncateContent : Attribute → Except PythonError Attribute
  | .data (.str content) =>
      .ok (.text (String.ofList (maybeTruncate maxCmdOutputSize content.toList)))
  | _ => .error .typeError

/-- A text that may be nothing, as a value. -/
def optionalValue : Option String → Value
  | none => .none
  | some value => .str value

/-- The metadata of command output as a dictionary. -/
def dumpMetadata (metadata : CmdOutputMetadata) : List (String × Value) :=
  [("exit_code", .int metadata.exitCode), ("pid", .int metadata.pid),
    ("username", optionalValue metadata.username), ("hostname", optionalValue metadata.hostname),
    ("working_dir", optionalValue metadata.workingDir),
    ("py_interpreter_path", optionalValue metadata.pyInterpreterPath),
    ("prefix", .str metadata.before), ("suffix", .str metadata.after)]

/-- A number in a dictionary. -/
def intIn (entries : List (String × Value)) (name : String) (standard : Int) :
    Except PythonError Int :=
  match OrderedDict.find name entries with
  | none => .ok standard
  | some (.int value) => .ok value
  | some _ => .error .validationError

/-- A text or nothing in a dictionary. -/
def optionalIn (entries : List (String × Value)) (name : String) :
    Except PythonError (Option String) :=
  match OrderedDict.find name entries with
  | none => .ok none
  | some .none => .ok none
  | some (.str value) => .ok (some value)
  | some _ => .error .validationError

/-- A text in a dictionary. -/
def strIn (entries : List (String × Value)) (name : String) : Except PythonError String :=
  match OrderedDict.find name entries with
  | none => .ok ""
  | some (.str value) => .ok value
  | some _ => .error .validationError

def metadataOf (entries : List (String × Value)) : Except PythonError CmdOutputMetadata := do
  let exitCode ← intIn entries "exit_code" (-1)
  let pid ← intIn entries "pid" (-1)
  let username ← optionalIn entries "username"
  let hostname ← optionalIn entries "hostname"
  let workingDir ← optionalIn entries "working_dir"
  let pyInterpreterPath ← optionalIn entries "py_interpreter_path"
  let before ← strIn entries "prefix"
  let after ← strIn entries "suffix"
  return { exitCode, pid, username, hostname, workingDir, pyInterpreterPath, before, after }

/-! ## Constructing events -/

/-- What a field holds when nothing is given for it. -/
def defaultOf (version : String) (eventClass : EventClass) (name : String) : Option Attribute :=
  match eventClass.fields.find? (fun field => field.name = name) with
  | none => none
  | some field =>
      match field.default with
      | .required => none
      | .value held => some held
      | .version => some (.text version)

/-- The attributes a dataclass gives to an object; arguments without a field and missing ones
are refused. -/
def initialise (version : String) (eventClass : EventClass)
    (arguments : OrderedDict String Attribute) : Except PythonError (String → Attribute) :=
  if arguments.keys.all (fun name => name ∈ eventClass.names) ∧
      eventClass.names.all (fun name =>
        ((arguments.get name).or (defaultOf version eventClass name)).isSome) then
    .ok (fun name => ((arguments.get name).or (defaultOf version eventClass name)).getD .nothing)
  else .error .typeError

def isNothing : Attribute → Bool
  | .data .none => true
  | _ => false

/-- Events are forgotten by a list or by a range, and not by both; a summary comes with its
offset. -/
def validateFieldPolymorphism (attributes : String → Attribute) : Bool :=
  let given := fun name => !isNothing (attributes name)
  (given "forgotten_event_ids" ^^
      (given "forgotten_events_start_id" && given "forgotten_events_end_id")) &&
    (given "summary" == given "summary_offset")

/-- Set an entry of the metadata of command output. -/
def setMetadata (name : String) (held : Attribute) (metadata : CmdOutputMetadata) :
    Except PythonError CmdOutputMetadata :=
  match held with
  | .data (.int value) =>
      .ok (if name = "exit_code" then { metadata with exitCode := value }
        else { metadata with pid := value })
  | _ => .error .typeError

/-- The metadata an observation of command output is given. -/
def givenMetadata : Option Attribute → Except PythonError Attribute
  | some (.data (.mapping entries)) => (metadataOf entries).map .metadata
  | some held => .ok (if held.truthy then held else .metadata {})
  | none => .ok (.metadata {})

/-- Set a legacy argument in the metadata of command output. -/
def legacyMetadata (name : String) (held : Option Attribute) (metadata : Attribute) :
    Except PythonError Attribute :=
  match held, metadata with
  | none, metadata => .ok metadata
  | some held, .metadata metadata => (setMetadata name held metadata).map .metadata
  | some _, _ => .error .attributeError

/-- The attributes of an observation of command output; unless it is hidden its content is
cut. -/
def initialiseCmdOutput (arguments : OrderedDict String Attribute) :
    Except PythonError (String → Attribute) := do
  let some content := arguments.get "content" | throw .typeError
  let some command := arguments.get "command" | throw .typeError
  let observation := (arguments.get "observation").getD (.text "run")
  let hidden := (arguments.get "hidden").getD (.data (.bool false))
  let content ← if hidden.truthy then pure content else truncateContent content
  let metadata ← givenMetadata (arguments.get "metadata")
  let metadata ← legacyMetadata "exit_code" (arguments.get "exit_code") metadata
  let metadata ← legacyMetadata "pid" (arguments.get "command_id") metadata
  return fun name =>
    if name = "content" then content
    else if name = "command" then command
    else if name = "observation" then observation
    else if name = "metadata" then metadata
    else if name = "hidden" then hidden
    else .nothing

/-- The attributes of a new object of a class. -/
def construct (version : String) (eventClass : EventClass)
    (arguments : OrderedDict String Attribute) : Except PythonError (String → Attribute) :=
  match eventClass with
  | .cmdOutputObservation => initialiseCmdOutput arguments
  | .condensationAction => do
      let attributes ← initialise version .condensationAction arguments
      if validateFieldPolymorphism attributes then return attributes else throw .valueError
  | eventClass => initialise version eventClass arguments

/-! ## Messages -/

/-- An attribute inside a text. -/
def shown (env : Environment μ) : Attribute → String
  | .data (.str value) => value
  | held => env.printed held

def needText : Attribute → Except PythonError String
  | .data (.str value) => .ok value
  | _ => .error .typeError

/-- The identifiers a condensation forgets. -/
def forgotten (attributes : String → Attribute) : Except PythonError Attribute :=
  if validateFieldPolymorphism attributes then
    match attributes "forgotten_event_ids" with
    | .data .none =>
        match attributes "forgotten_events_start_id", attributes "forgotten_events_end_id" with
        | .data (.int start), .data (.int stop) =>
            .ok (.data (.list ((idRange start stop).map .int)))
        | _, _ => .error .typeError
    | ids => .ok ids
  else .error .valueError

/-- The message of an event; `none` when it has none. -/
def message (env : Environment μ) (eventClass : EventClass) (attributes : String → Attribute) :
    Except PythonError (Option Attribute) :=
  let field := fun name => shown env (attributes name)
  let told := fun (value : String) => Except.ok (some (Attribute.text value))
  let unlessNothing := fun held => Except.ok (if isNothing held then none else some held)
  match eventClass with
  | .nullAction => told "No action"
  | .cmdRunAction => told ("Running command: " ++ field "command")
  | .ipythonRunCellAction => told ("Running Python code interactively: " ++ field "code")
  | .browseUrlAction => told ("I am browsing the URL: " ++ field "url")
  | .browseInteractiveAction =>
      told ("I am interacting with the browser:\n```\n" ++ field "browser_actions" ++ "\n```")
  | .fileReadAction => told ("Reading file: " ++ field "path")
  | .fileWriteAction => told ("Writing file: " ++ field "path")
  | .fileEditAction => told ""
  | .agentThinkAction => told ("I am thinking...: " ++ field "thought")
  | .agentFinishAction =>
      match attributes "thought" with
      | .data (.str "") => told "All done! What's next on the agenda?"
      | thought => unlessNothing thought
  | .agentRejectAction =>
      match attributes "outputs" with
      | .data (.mapping outputs) =>
          match OrderedDict.find "reason" outputs with
          | none => told "Task is rejected by the agent."
          | some (.str reason) => told ("Task is rejected by the agent." ++ " Reason: " ++ reason)
          | some _ => .error .typeError
      | _ => .error .typeError
  | .agentDelegateAction =>
      told ("I'm asking " ++ field "agent" ++ " for help with this task.")
  | .recallAction => do
      let query ← needText (attributes "query")
      told ("Retrieving content for: " ++ String.ofList (query.toList.take 50))
  | .changeAgentStateAction => told ("Agent state changed to " ++ field "agent_state")
  | .messageAction | .systemMessageAction => unlessNothing (attributes "content")
  | .condensationAction =>
      if (attributes "summary").truthy then told ("Summary: " ++ field "summary")
      else do
        let ids ← forgotten attributes
        told ("Condenser is dropping the events: " ++ shown env ids ++ ".")
  | .condensationRequestAction => told "Requesting a condensation of the conversation history."
  | .mcpAction =>
      told ("I am interacting with the MCP server with name:\n```\n" ++ field "name" ++
        "\n```\nand arguments:\n```\n" ++ field "arguments" ++ "\n```")
  | .taskTrackingAction =>
      match attributes "task_list" with
      | .data (.list []) => told "Clearing the task list."
      | .data (.list [_]) => told "Managing 1 task item."
      | .data (.list tasks) => told ("Managing " ++ toString tasks.length ++ " task items.")
      | _ => .error .typeError
  | .loopRecoveryAction => told ""
  | .nullObservation => told "No observation"
  | .cmdOutputObservation =>
      match attributes "metadata" with
      | .metadata metadata => told ("Command `" ++ field "command" ++
          "` executed with exit code " ++ toString metadata.exitCode ++ ".")
      | _ => .ok none
  | .ipythonRunCellObservation => told "Code executed in IPython cell."
  | .browserOutputObservation => do
      let url ← needText (attributes "url")
      told ("Visited " ++ url)
  | .fileReadObservation => told ("I read the file " ++ field "path" ++ ".")
  | .fileWriteObservation => told ("I wrote to the file " ++ field "path" ++ ".")
  | .fileEditObservation => told ("I edited the file " ++ field "path" ++ ".")
  | .agentDelegateObservation | .agentStateChangedObservation | .loopDetectionObservation =>
      told ""
  | .recallObservation =>
      match (attributes "recall_type").plain with
      | .data (.str "workspace_context") => told "Added workspace context"
      | _ => told "Added microagent knowledge"
  | .fileDownloadObservation =>
      told ("Downloaded the file at location: " ++ field "file_path")
  | .successObservation | .errorObservation | .userRejectObservation
  | .agentCondensationObservation | .agentThinkObservation | .mcpObservation
  | .taskTrackingObservation => unlessNothing (attributes "content")

/-! ## Writing -/

def topKeys : List String :=
  ["id", "timestamp", "source", "message", "cause", "action", "observation",
    "tool_call_metadata", "llm_metrics"]

def knowledgeValue : MicroagentKnowledge ⊕ Value → Value
  | .inl known => .mapping
      [("name", known.name), ("trigger", known.trigger), ("content", known.content)]
  | .inr value => value

/-- An attribute with the dataclasses in it as dictionaries. -/
def asdict : Attribute → Attribute
  | .knowledge items => .data (.list (items.map knowledgeValue))
  | held => held

/-- The fields of an event as a dictionary. -/
def props (eventClass : EventClass) (attributes : String → Attribute) :
    OrderedDict String Attribute :=
  ⟨eventClass.fields.map (fun field => (field.name, asdict (attributes field.name))), by
    rw [List.map_map]
    exact eventClass.names_distinct⟩

/-- Take the keys at the top out of the fields. -/
def withoutTopKeys (props : OrderedDict String Attribute) : OrderedDict String Attribute :=
  topKeys.foldl OrderedDict.erase props

/-- Take an entry out when it is nothing. -/
def dropNothing (name : String) (props : OrderedDict String Attribute) :
    OrderedDict String Attribute :=
  match props.get name with
  | some (.data .none) => props.erase name
  | _ => props

/-- The risk of an action as its number. -/
def writeSecurityRisk (props : OrderedDict String Attribute) :
    Except PythonError (OrderedDict String Attribute) :=
  match props.get "security_risk" with
  | none => .ok props
  | some held =>
      match held.enumValue with
      | some value => .ok (props.set "security_risk" (.data value))
      | none => .error .attributeError

/-- An extra of an observation: the value of a member, metadata as a dictionary. -/
def extraValue (held : Attribute) : Attribute :=
  match held with
  | .metadata metadata => .data (.mapping (dumpMetadata metadata))
  | held => held.plain

/-- Whether an observation was successful, where that is said. -/
def success (eventClass : EventClass) (attributes : String → Attribute) : Option Bool :=
  match eventClass with
  | .cmdOutputObservation =>
      match attributes "metadata" with
      | .metadata metadata => some (metadata.exitCode = 0)
      | _ => none
  | .ipythonRunCellObservation => some true
  | _ => none

def topType (name : String) (eventClass : EventClass) (attributes : String → Attribute) :
    Option Attribute :=
  if name ∈ eventClass.names ∧ ¬isNothing (attributes name) then some (attributes name) else none

/-- What is attached to an event, its message and its type. -/
def topEntries (env : Environment μ) (event : Event μ) (message : Option Attribute) : EventDict where
  id := if event.id = -1 then none else some event.id
  timestamp := event.timestamp
  source := event.source.map sourceValue
  message
  cause := event.cause
  action := topType "action" event.eventClass event.attributes
  observation := topType "observation" event.eventClass event.attributes
  toolCallMetadata := event.toolCallMetadata.map env.modelDump

/-- Write an event as a dictionary. -/
def eventToDict (env : Environment μ) (event : Event μ) : Except PythonError EventDict := do
  let message ← message env event.eventClass event.attributes
  let props := dropNothing "task_completed" (dropNothing "security_risk"
    (withoutTopKeys (props event.eventClass event.attributes)))
  let dict := topEntries env event message
  if dict.action.isSome then
    let args ← writeSecurityRisk props
    return { dict with args := some args, timeout := event.timeout }
  else if dict.observation.isSome then
    return { dict with
      content := some ((props.get "content").getD (.text ""))
      extras := some ((props.erase "content").mapValues extraValue)
      success := success event.eventClass event.attributes }
  else throw .valueError

/-! ## Reading -/

/-- The confirmation state by its older name. -/
def renameConfirmed (args : OrderedDict String Attribute) : OrderedDict String Attribute :=
  match args.get "is_confirmed" with
  | none => args
  | some (.data .none) => args.erase "is_confirmed"
  | some held => (args.erase "is_confirmed").set "confirmation_state" held

/-- The addresses of images by their older name. -/
def renameImages (args : OrderedDict String Attribute) : OrderedDict String Attribute :=
  match args.get "images_urls" with
  | none => args
  | some held => (args.erase "images_urls").set "image_urls" held

def riskOf (held : Attribute) : Option ActionSecurityRisk :=
  match held.plain with
  | .data (.int value) =>
      [ActionSecurityRisk.unknown, .low, .medium, .high].find? (fun risk => risk.value = value)
  | _ => none

/-- The risk of an action from its number; what is no risk is taken out. -/
def readSecurityRisk (args : OrderedDict String Attribute) : OrderedDict String Attribute :=
  match args.get "security_risk" with
  | none => args
  | some (.data .none) => args
  | some held =>
      match riskOf held with
      | some risk => args.set "security_risk" (.risk risk)
      | none => args.erase "security_risk"

/-- The entries of a call of the file editor inside code. -/
def fileEditorArgs (env : Environment μ) : Attribute → List (String × Value)
  | .data (.str code) =>
      let opening := "print(file_editor(**".toList
      if opening.isPrefixOf code.toList ∧ "))".toList.isSuffixOf code.toList then
        (env.literalEval (String.ofList
          ((code.toList.drop opening.length).take (code.length - opening.length - 2)))).getD []
      else []
  | _ => []

/-- Take out what is deprecated; a translated call of the file editor gives its arguments. -/
def handleActionDeprecatedArgs (env : Environment μ) (args : OrderedDict String Attribute) :
    OrderedDict String Attribute :=
  let args := (args.erase "keep_prompt").erase "task_completed"
  match args.get "translated_ipython_code" with
  | none => args
  | some code =>
      let updated := (fileEditorArgs env code).foldl
        (fun args entry => args.set entry.1 (.data entry.2)) (args.erase "translated_ipython_code")
      match updated.get "command" with
      | some (.data (.str "view")) => updated.erase "command"
      | _ => updated

/-- Set a timeout; a command that can block is told whether it does. -/
def setHardTimeout (event : Event μ) (timeout : Float) (blocking : Attribute) : Event μ :=
  { event with
    timeout := some timeout
    attributes := fun name =>
      if name = "blocking" ∧ "blocking" ∈ event.eventClass.names then blocking
      else event.attributes name }

def actionFromDict (env : Environment μ) (dict : EventDict) : Except PythonError (Event μ) := do
  let some (.data (.str value)) := dict.action | throw .malformedAction
  let some eventClass := EventClass.actionClass value | throw .malformedAction
  let args := dict.args.getD .empty
  let timestamp := args.get "timestamp"
  let args := readSecurityRisk (renameImages (renameConfirmed (args.erase "timestamp")))
  let args := handleActionDeprecatedArgs env args
  match construct env.version eventClass args with
  | .error .typeError => throw .malformedAction
  | .error error => throw error
  | .ok attributes =>
      let decoded : Event μ :=
        { eventClass
          attributes
          timestamp :=
            match timestamp with
            | some (.data (.str value)) => if value = "" then none else some value
            | _ => none }
      match dict.timeout with
      | none => return decoded
      | some timeout =>
          let blocking := (args.get "blocking").getD (.data (.bool false))
          return setHardTimeout decoded timeout blocking

/-- Put an older extra into the metadata of command output. -/
def updateCmdOutputMetadata (metadata : Option Attribute) (name : String) (held : Attribute) :
    Except PythonError Attribute :=
  match metadata, held with
  | none, .data value | some (.data .none), .data value =>
      (metadataOf [(name, value)]).map .metadata
  | some (.data (.mapping entries)), .data value =>
      .ok (.data (.mapping (OrderedDict.put name value entries)))
  | some (.metadata metadata), held => (setMetadata name held metadata).map .metadata
  | some other, _ => .ok other
  | none, _ => .error .validationError

/-- Move an older extra into the metadata. -/
def moveExtra (older name : String) (extras : OrderedDict String Attribute) :
    Except PythonError (OrderedDict String Attribute) :=
  match extras.get older with
  | none => .ok extras
  | some held => do
      let metadata ← updateCmdOutputMetadata (extras.get "metadata") name held
      return (extras.erase older).set "metadata" metadata

/-- Move the extras that older events have. -/
def handleObservationDeprecatedExtras (extras : OrderedDict String Attribute) :
    Except PythonError (OrderedDict String Attribute) := do
  let extras ← moveExtra "exit_code" "exit_code" extras
  let extras ← moveExtra "command_id" "pid" extras
  return extras.erase "formatted_output_and_error"

/-- The metadata of command output from a dictionary. -/
def readMetadata (extras : OrderedDict String Attribute) :
    Except PythonError (OrderedDict String Attribute) :=
  match extras.get "metadata" with
  | some (.data (.mapping entries)) => do
      let metadata ← metadataOf entries
      return extras.set "metadata" (.metadata metadata)
  | some (.metadata _) => .ok extras
  | _ => .ok (extras.set "metadata" (.metadata {}))

def recallOf (held : Attribute) : Except PythonError RecallType :=
  match held.plain with
  | .data (.str value) =>
      match [RecallType.workspaceContext, .knowledge].find?
          (fun recallType => recallValue recallType = value) with
      | some recallType => .ok recallType
      | none => .error .valueError
  | _ => .error .valueError

def knowledgeOf : Value → Except PythonError (MicroagentKnowledge ⊕ Value)
  | .mapping entries =>
      match OrderedDict.find "name" entries, OrderedDict.find "trigger" entries,
          OrderedDict.find "content" entries with
      | some name, some trigger, some content =>
          if entries.all (fun entry => entry.1 ∈ ["name", "trigger", "content"]) then
            .ok (.inl ⟨name, trigger, content⟩)
          else .error .typeError
      | _, _, _ => .error .typeError
  | value => .ok (.inr value)

def readRecallType (extras : OrderedDict String Attribute) :
    Except PythonError (OrderedDict String Attribute) :=
  match extras.get "recall_type" with
  | none => .ok extras
  | some held => do
      let recallType ← recallOf held
      return extras.set "recall_type" (.recall recallType)

/-- The knowledge of a recall from its list. -/
def readKnowledge (extras : OrderedDict String Attribute) :
    Except PythonError (OrderedDict String Attribute) :=
  match extras.get "microagent_knowledge" with
  | some (.data (.list values)) => do
      let items ← values.mapM knowledgeOf
      return extras.set "microagent_knowledge" (.knowledge items)
  | _ => .ok extras

/-- The extras as the class of an observation needs them. -/
def readExtras (eventClass : EventClass) (extras : OrderedDict String Attribute) :
    Except PythonError (OrderedDict String Attribute) :=
  match eventClass with
  | .cmdOutputObservation => readMetadata extras
  | .recallObservation => do readKnowledge (← readRecallType extras)
  | _ => .ok extras

def observationFromDict (env : Environment μ) (dict : EventDict) :
    Except PythonError (Event μ) := do
  let some (.data (.str value)) := dict.observation | throw .keyError
  let some eventClass := EventClass.observationClass value | throw .keyError
  let content := dict.content.getD (.text "")
  let extras ← handleObservationDeprecatedExtras (dict.extras.getD .empty)
  let extras ← readExtras eventClass extras
  if "content" ∈ extras.keys then throw .typeError
  let attributes ← construct env.version eventClass (extras.set "content" content)
  return { eventClass, attributes }

/-- Attach to an event what a dictionary says. -/
def attach (env : Environment μ) (dict : EventDict) (event : Event μ) :
    Except PythonError (Event μ) := do
  let source ← dict.source.mapM readSource
  let toolCallMetadata ← dict.toolCallMetadata.mapM env.modelValidate
  return { event with
    id := dict.id.getD event.id
    timestamp := dict.timestamp.or event.timestamp
    source := source.or event.source
    cause := dict.cause.or event.cause
    toolCallMetadata := toolCallMetadata.or event.toolCallMetadata }

/-- Read an event from a dictionary. -/
def eventFromDict (env : Environment μ) (dict : EventDict) : Except PythonError (Event μ) := do
  let event ←
    if dict.action.isSome then actionFromDict env dict
    else if dict.observation.isSome then observationFromDict env dict
    else throw .valueError
  attach env dict event

/-! ## Round trips -/

/-- Every field holds its declared type. -/
def Typed (event : Event μ) : Prop :=
  ∀ field ∈ event.eventClass.fields, field.type.Holds (event.attributes field.name)

/-- An event is as before: its class, its fields and what is attached to it. -/
structure Reloaded (event decoded : Event μ) : Prop where
  eventClass : decoded.eventClass = event.eventClass
  fields : ∀ name ∈ event.eventClass.names,
    (decoded.attributes name).Same (event.attributes name)
  id : decoded.id = event.id
  timestamp : decoded.timestamp = event.timestamp
  source : decoded.source = event.source
  cause : decoded.cause = event.cause
  timeout : event.eventClass ∈ EventClass.actions → decoded.timeout = event.timeout

/-- An event is written, read back as it was, and written again as the same dictionary. -/
def RoundTrips (env : Environment μ) (event : Event μ) : Prop :=
  ∃ dict decoded, eventToDict env event = .ok dict ∧ eventFromDict env dict = .ok decoded ∧
    Reloaded event decoded ∧ eventToDict env decoded = .ok dict

/-- Write an event and read it back. -/
def reload (env : Environment μ) (event : Event μ) : Except PythonError (Event μ) := do
  eventFromDict env (← eventToDict env event)

/-- Write an event and read it back a number of times. -/
def reloads (env : Environment μ) : Nat → Event μ → Except PythonError (Event μ)
  | 0, event => .ok event
  | trips + 1, event => do reloads env trips (← reload env event)

/-- The reason of a rejection is a text, command output is hidden or as cutting leaves it, and a
condensation is valid. -/
def Sound (event : Event μ) : Prop :=
  match event.eventClass with
  | .agentRejectAction =>
      ∀ outputs reason, event.attributes "outputs" = .data (.mapping outputs) →
        OrderedDict.find "reason" outputs = some reason → ∃ value, reason = .str value
  | .cmdOutputObservation =>
      (event.attributes "hidden").truthy = true ∨
        truncateContent (event.attributes "content") = .ok (event.attributes "content")
  | .condensationAction => validateFieldPolymorphism event.attributes = true
  | _ => True

end ForgePilot.EventSerialization
