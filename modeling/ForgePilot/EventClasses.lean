import ForgePilot.Events
import ForgePilot.OrderedDict

/-!
# The classes of events and their fields

Every class of actions and observations is a dataclass: it has fields with a declared type,
some with a default, and one field that holds the type of the event. The table of fields
is in the order of the source. Attributes are what the fields of an event hold.

Members of an enumeration that is a text equal the text they stand for, and so do the
types of events, which are kept as texts.
-/

namespace ForgePilot.EventClasses

open Events

inductive ActionSecurityRisk where
  | unknown | low | medium | high
deriving DecidableEq

def ActionSecurityRisk.value : ActionSecurityRisk → Int
  | .unknown => -1
  | .low => 0
  | .medium => 1
  | .high => 2

inductive FileReadSource where
  | ohAci | default
deriving DecidableEq

/-- The text of an implementation that reads. -/
def FileReadSource.value : FileReadSource → String
  | .ohAci => "oh_aci"
  | .default => "default"

inductive FileEditSource where
  | llmBasedEdit | ohAci
deriving DecidableEq

/-- The text of an implementation that edits. -/
def FileEditSource.value : FileEditSource → String
  | .llmBasedEdit => "llm_based_edit"
  | .ohAci => "oh_aci"

/-- The text of a confirmation state. -/
def confirmationValue : ActionConfirmationStatus → String
  | .confirmed => "confirmed"
  | .rejected => "rejected"
  | .awaitingConfirmation => "awaiting_confirmation"

def recallValue : RecallType → String
  | .workspaceContext => "workspace_context"
  | .knowledge => "knowledge"

/-- What the prompt of a shell reports after a command. -/
structure CmdOutputMetadata where
  exitCode : Int := -1
  pid : Int := -1
  username : Option String := none
  hostname : Option String := none
  workingDir : Option String := none
  pyInterpreterPath : Option String := none
  before : String := ""
  after : String := ""

/-- Knowledge from a microagent that was triggered. -/
structure MicroagentKnowledge where
  name : Value
  trigger : Value
  content : Value

/-- What a field of an event holds. -/
inductive Attribute where
  | data (value : Value)
  | confirmation (status : ActionConfirmationStatus)
  | risk (risk : ActionSecurityRisk)
  | recall (recallType : RecallType)
  | readSource (source : FileReadSource)
  | editSource (source : FileEditSource)
  | metadata (metadata : CmdOutputMetadata)
  | knowledge (items : List (MicroagentKnowledge ⊕ Value))

namespace Attribute

def text (value : String) : Attribute := .data (.str value)

def nothing : Attribute := .data .none

/-- The value of a member of an enumeration. -/
def enumValue : Attribute → Option Value
  | .confirmation status => some (.str (confirmationValue status))
  | .risk level => some (.int level.value)
  | .recall recallType => some (.str (recallValue recallType))
  | .readSource source => some (.str source.value)
  | .editSource source => some (.str source.value)
  | _ => none

/-- Members of enumerations as the values they equal. -/
def plain (held : Attribute) : Attribute :=
  match held.enumValue with
  | some value => .data value
  | none => held

/-- Equality: a member of an enumeration equals its value. -/
def Same (first second : Attribute) : Prop := first.plain = second.plain

/-- Whether something counts as true. -/
def truthy : Attribute → Bool
  | .data .none => false
  | .data (.bool value) => value
  | .data (.int value) => value ≠ 0
  | .data (.str value) => value ≠ ""
  | .data (.list items) => ¬items.isEmpty
  | .data (.mapping entries) => ¬entries.isEmpty
  | .risk level => level.value ≠ 0
  | .knowledge items => ¬items.isEmpty
  | _ => true

end Attribute

inductive FieldType where
  | eventType (value : String)
  | str | optionalStr | int | optionalInt | bool
  | strList | optionalStrList | optionalIntList | dict | dictList | optionalList
  | securityRisk | confirmationState | recallType | readSource | editSource
  | metadata | knowledge
deriving DecidableEq

def FieldType.Holds : FieldType → Attribute → Prop
  | .eventType value, held => held = .text value
  | .str, held => ∃ value, held = .text value
  | .optionalStr, held => held = .nothing ∨ ∃ value, held = .text value
  | .int, held => ∃ value, held = .data (.int value)
  | .optionalInt, held => held = .nothing ∨ ∃ value, held = .data (.int value)
  | .bool, held => ∃ value, held = .data (.bool value)
  | .strList, held => ∃ items : List String, held = .data (.list (items.map .str))
  | .optionalStrList, held =>
      held = .nothing ∨ ∃ items : List String, held = .data (.list (items.map .str))
  | .optionalIntList, held =>
      held = .nothing ∨ ∃ items : List Int, held = .data (.list (items.map .int))
  | .dict, held => ∃ entries, held = .data (.mapping entries)
  | .dictList, held =>
      ∃ items : List (List (String × Value)), held = .data (.list (items.map .mapping))
  | .optionalList, held => held = .nothing ∨ ∃ items, held = .data (.list items)
  | .securityRisk, held => ∃ risk, held = .risk risk
  | .confirmationState, held => ∃ status, held = .confirmation status
  | .recallType, held => ∃ recallType, held = .recall recallType
  | .readSource, held => ∃ source, held = .readSource source
  | .editSource, held => ∃ source, held = .editSource source
  | .metadata, held => ∃ metadata, held = .metadata metadata
  | .knowledge, held => ∃ items : List MicroagentKnowledge, held = .knowledge (items.map .inl)

/-- What a field holds when nothing is given for it. -/
inductive Default where
  | required
  | value (held : Attribute)
  | version

structure Field where
  name : String
  type : FieldType
  default : Default := .required

/-- The classes of actions and of observations. -/
inductive EventClass where
  | nullAction | cmdRunAction | ipythonRunCellAction | browseUrlAction
  | browseInteractiveAction | fileReadAction | fileWriteAction | fileEditAction
  | agentThinkAction | agentFinishAction | agentRejectAction | agentDelegateAction
  | recallAction | changeAgentStateAction | messageAction | systemMessageAction
  | condensationAction | condensationRequestAction | mcpAction | taskTrackingAction
  | loopRecoveryAction
  | nullObservation | cmdOutputObservation | ipythonRunCellObservation
  | browserOutputObservation | fileReadObservation | fileWriteObservation
  | fileEditObservation | agentDelegateObservation | successObservation | errorObservation
  | agentStateChangedObservation | userRejectObservation | agentCondensationObservation
  | agentThinkObservation | recallObservation | mcpObservation | fileDownloadObservation
  | taskTrackingObservation | loopDetectionObservation
deriving DecidableEq

namespace EventClass

def actions : List EventClass :=
  [.nullAction, .cmdRunAction, .ipythonRunCellAction, .browseUrlAction,
    .browseInteractiveAction, .fileReadAction, .fileWriteAction, .fileEditAction,
    .agentThinkAction, .agentFinishAction, .agentRejectAction, .agentDelegateAction,
    .recallAction, .changeAgentStateAction, .messageAction, .systemMessageAction,
    .condensationAction, .condensationRequestAction, .mcpAction, .taskTrackingAction,
    .loopRecoveryAction]

def observations : List EventClass :=
  [.nullObservation, .cmdOutputObservation, .ipythonRunCellObservation,
    .browserOutputObservation, .fileReadObservation, .fileWriteObservation,
    .fileEditObservation, .agentDelegateObservation, .successObservation, .errorObservation,
    .agentStateChangedObservation, .userRejectObservation, .agentCondensationObservation,
    .agentThinkObservation, .recallObservation, .mcpObservation, .fileDownloadObservation,
    .taskTrackingObservation, .loopDetectionObservation]

def eventType : EventClass → String
  | .nullAction | .nullObservation => "null"
  | .cmdRunAction | .cmdOutputObservation => "run"
  | .ipythonRunCellAction | .ipythonRunCellObservation => "run_ipython"
  | .browseUrlAction | .browserOutputObservation => "browse"
  | .browseInteractiveAction => "browse_interactive"
  | .fileReadAction | .fileReadObservation => "read"
  | .fileWriteAction | .fileWriteObservation => "write"
  | .fileEditAction | .fileEditObservation => "edit"
  | .agentThinkAction | .agentThinkObservation => "think"
  | .agentFinishAction => "finish"
  | .agentRejectAction => "reject"
  | .agentDelegateAction | .agentDelegateObservation => "delegate"
  | .recallAction | .recallObservation => "recall"
  | .changeAgentStateAction => "change_agent_state"
  | .messageAction => "message"
  | .systemMessageAction => "system"
  | .condensationAction => "condensation"
  | .condensationRequestAction => "condensation_request"
  | .mcpAction => "call_tool_mcp"
  | .taskTrackingAction | .taskTrackingObservation => "task_tracking"
  | .loopRecoveryAction => "loop_recovery"
  | .successObservation => "success"
  | .errorObservation => "error"
  | .agentStateChangedObservation => "agent_state_changed"
  | .userRejectObservation => "user_rejected"
  | .agentCondensationObservation => "condense"
  | .mcpObservation => "mcp"
  | .fileDownloadObservation => "download"
  | .loopDetectionObservation => "loop_detection"

def actionClass (value : String) : Option EventClass :=
  actions.find? (fun eventClass => eventClass.eventType = value)

def observationClass (value : String) : Option EventClass :=
  observations.find? (fun eventClass => eventClass.eventType = value)

end EventClass

namespace Field

def action (value : String) : Field := ⟨"action", .eventType value, .value (.text value)⟩

def observation (value : String) : Field :=
  ⟨"observation", .eventType value, .value (.text value)⟩

/-- A text that may be left out. -/
def str (name value : String) : Field := ⟨name, .str, .value (.text value)⟩

/-- A number that may be left out. -/
def int (name : String) (value : Int) : Field := ⟨name, .int, .value (.data (.int value))⟩

/-- A truth value that may be left out. -/
def bool (name : String) (value : Bool) : Field := ⟨name, .bool, .value (.data (.bool value))⟩

/-- A dictionary that may be left out. -/
def dict (name : String) : Field := ⟨name, .dict, .value (.data (.mapping []))⟩

/-- A field that is nothing when left out. -/
def optional (name : String) (type : FieldType) : Field := ⟨name, type, .value .nothing⟩

def thought : Field := str "thought" ""

def securityRisk : Field := ⟨"security_risk", .securityRisk, .value (.risk .unknown)⟩

def confirmationState : Field :=
  ⟨"confirmation_state", .confirmationState, .value (.confirmation .confirmed)⟩

end Field

namespace EventClass

open ForgePilot.EventClasses.Field

def fields : EventClass → List Field
  | .nullAction => [action "null"]
  | .cmdRunAction =>
      [⟨"command", .str, .required⟩, bool "is_input" false, thought, bool "blocking" false,
        bool "is_static" false, optional "cwd" .optionalStr, bool "hidden" false, action "run",
        confirmationState, securityRisk]
  | .ipythonRunCellAction =>
      [⟨"code", .str, .required⟩, thought, bool "include_extra" true, action "run_ipython",
        confirmationState, securityRisk, str "kernel_init_code" ""]
  | .browseUrlAction =>
      [⟨"url", .str, .required⟩, thought, action "browse", securityRisk,
        bool "return_axtree" false]
  | .browseInteractiveAction =>
      [⟨"browser_actions", .str, .required⟩, thought, str "browsergym_send_msg_to_user" "",
        action "browse_interactive", securityRisk, bool "return_axtree" false]
  | .fileReadAction =>
      [⟨"path", .str, .required⟩, int "start" 0, int "end" (-1), thought, action "read",
        securityRisk, ⟨"impl_source", .readSource, .value (.readSource .default)⟩,
        optional "view_range" .optionalIntList]
  | .fileWriteAction =>
      [⟨"path", .str, .required⟩, ⟨"content", .str, .required⟩, int "start" 0, int "end" (-1),
        thought, action "write", securityRisk]
  | .fileEditAction =>
      [⟨"path", .str, .required⟩, str "command" "", optional "file_text" .optionalStr,
        optional "old_str" .optionalStr, optional "new_str" .optionalStr,
        optional "insert_line" .optionalInt, str "content" "", int "start" 1, int "end" (-1),
        thought, action "edit", securityRisk,
        ⟨"impl_source", .editSource, .value (.editSource .ohAci)⟩]
  | .agentThinkAction => [thought, action "think"]
  | .agentFinishAction => [str "final_thought" "", dict "outputs", thought, action "finish"]
  | .agentRejectAction => [dict "outputs", thought, action "reject"]
  | .agentDelegateAction =>
      [⟨"agent", .str, .required⟩, ⟨"inputs", .dict, .required⟩, thought, action "delegate"]
  | .recallAction =>
      [⟨"recall_type", .recallType, .required⟩, str "query" "", thought, action "recall"]
  | .changeAgentStateAction =>
      [⟨"agent_state", .str, .required⟩, thought, action "change_agent_state"]
  | .messageAction =>
      [⟨"content", .str, .required⟩, optional "file_urls" .optionalStrList,
        optional "image_urls" .optionalStrList, bool "wait_for_response" false,
        action "message", securityRisk]
  | .systemMessageAction =>
      [⟨"content", .str, .required⟩, optional "tools" .optionalList,
        ⟨"openhands_version", .optionalStr, .version⟩, optional "agent_class" .optionalStr,
        action "system"]
  | .condensationAction =>
      [action "condensation", optional "forgotten_event_ids" .optionalIntList,
        optional "forgotten_events_start_id" .optionalInt,
        optional "forgotten_events_end_id" .optionalInt, optional "summary" .optionalStr,
        optional "summary_offset" .optionalInt]
  | .condensationRequestAction => [action "condensation_request"]
  | .mcpAction =>
      [⟨"name", .str, .required⟩, dict "arguments", thought, action "call_tool_mcp",
        securityRisk]
  | .taskTrackingAction =>
      [str "command" "view", ⟨"task_list", .dictList, .value (.data (.list []))⟩, thought,
        action "task_tracking"]
  | .loopRecoveryAction => [int "option" 1, action "loop_recovery"]
  | .nullObservation => [⟨"content", .str, .required⟩, observation "null"]
  | .cmdOutputObservation =>
      [⟨"content", .str, .required⟩, ⟨"command", .str, .required⟩, observation "run",
        ⟨"metadata", .metadata, .value (.metadata {})⟩, bool "hidden" false]
  | .ipythonRunCellObservation =>
      [⟨"content", .str, .required⟩, ⟨"code", .str, .required⟩, observation "run_ipython",
        optional "image_urls" .optionalStrList]
  | .browserOutputObservation =>
      [⟨"content", .str, .required⟩, ⟨"url", .str, .required⟩,
        ⟨"trigger_by_action", .str, .required⟩, str "screenshot" "",
        optional "screenshot_path" .optionalStr, str "set_of_marks" "", bool "error" false,
        observation "browse", ⟨"goal_image_urls", .strList, .value (.data (.list []))⟩,
        ⟨"open_pages_urls", .strList, .value (.data (.list []))⟩, int "active_page_index" (-1),
        dict "dom_object", dict "axtree_object", dict "extra_element_properties",
        str "last_browser_action" "", str "last_browser_action_error" "",
        str "focused_element_bid" "", bool "filter_visible_only" false]
  | .fileReadObservation =>
      [⟨"content", .str, .required⟩, ⟨"path", .str, .required⟩, observation "read",
        ⟨"impl_source", .readSource, .value (.readSource .default)⟩]
  | .fileWriteObservation =>
      [⟨"content", .str, .required⟩, ⟨"path", .str, .required⟩, observation "write"]
  | .fileEditObservation =>
      [⟨"content", .str, .required⟩, str "path" "", bool "prev_exist" false,
        optional "old_content" .optionalStr, optional "new_content" .optionalStr,
        observation "edit", ⟨"impl_source", .editSource, .value (.editSource .llmBasedEdit)⟩,
        optional "diff" .optionalStr, optional "_diff_cache" .optionalStr]
  | .agentDelegateObservation =>
      [⟨"content", .str, .required⟩, ⟨"outputs", .dict, .required⟩, observation "delegate"]
  | .successObservation => [⟨"content", .str, .required⟩, observation "success"]
  | .errorObservation =>
      [⟨"content", .str, .required⟩, observation "error", str "error_id" ""]
  | .agentStateChangedObservation =>
      [⟨"content", .str, .required⟩, ⟨"agent_state", .str, .required⟩, str "reason" "",
        observation "agent_state_changed"]
  | .userRejectObservation => [⟨"content", .str, .required⟩, observation "user_rejected"]
  | .agentCondensationObservation => [⟨"content", .str, .required⟩, observation "condense"]
  | .agentThinkObservation => [⟨"content", .str, .required⟩, observation "think"]
  | .recallObservation =>
      [⟨"content", .str, .required⟩, ⟨"recall_type", .recallType, .required⟩,
        observation "recall", str "repo_name" "", str "repo_directory" "", str "repo_branch" "",
        str "repo_instructions" "", dict "runtime_hosts", str "additional_agent_instructions" "",
        str "date" "", dict "custom_secrets_descriptions", str "conversation_instructions" "",
        str "working_dir" "", ⟨"microagent_knowledge", .knowledge, .value (.knowledge [])⟩]
  | .mcpObservation =>
      [⟨"content", .str, .required⟩, observation "mcp", str "name" "", dict "arguments"]
  | .fileDownloadObservation =>
      [⟨"content", .str, .required⟩, ⟨"file_path", .str, .required⟩, observation "download"]
  | .taskTrackingObservation =>
      [⟨"content", .str, .required⟩, observation "task_tracking", str "command" "",
        ⟨"task_list", .dictList, .value (.data (.list []))⟩]
  | .loopDetectionObservation => [⟨"content", .str, .required⟩, observation "loop_detection"]

def names (eventClass : EventClass) : List String := eventClass.fields.map Field.name

variable (eventClass : EventClass)

theorem names_distinct : eventClass.names.Nodup := by
  cases eventClass <;> decide

theorem action_class_type (isAction : eventClass ∈ actions) :
    actionClass eventClass.eventType = some eventClass := by
  revert eventClass
  decide

theorem observation_class_type (isObservation : eventClass ∈ observations) :
    observationClass eventClass.eventType = some eventClass := by
  revert eventClass
  decide

/-- Every class is one of actions or one of observations. -/
theorem action_or_observation : eventClass ∈ actions ∨ eventClass ∈ observations := by
  cases eventClass <;> decide

end EventClass

end ForgePilot.EventClasses
