import ForgePilot.Characters
import ForgePilot.Events
import ForgePilot.OrderedDict
import ForgePilot.Sequences
import Mathlib.Data.List.SplitOn

/-!
# Messages for the model, built from a history

`processEvents` turns a list of events into the messages of a conversation. An
action that belongs to a tool call waits in a table, keyed by the response it came
from, until every call of that response has a result in a second table. Then the
assistant message and the results are added together. A last pass drops calls
without results and results without calls.

The texts of prompts come from templates and are supplied by the prompt manager.
Marks for prompt caching are not modelled; nothing sets them here. The thought of a
finished agent is rewritten in its event, which only a later call would see.
-/

namespace ForgePilot.ConversationMemory

open Events Sequences Characters

inductive Role where
  | user
  | system
  | assistant
  | tool
deriving DecidableEq

/-- The role a text names, if any. -/
def Role.ofText (text : String) : Option Role :=
  if text = "user" then some .user
  else if text = "system" then some .system
  else if text = "assistant" then some .assistant
  else if text = "tool" then some .tool
  else none

/-- A piece of a message. -/
inductive Content where
  | text (text : String)
  | image (imageUrls : List String)
deriving DecidableEq

structure Message where
  role : Role
  content : List Content
  toolCalls : Option (List ToolCall) := none
  toolCallId : Option String := none
  name : Option String := none
deriving DecidableEq

structure RepositoryInfo where
  repoName : String
  repoDirectory : String
  branchName : Option String

structure RuntimeInfo where
  date : String
  availableHosts : List (String × Int)
  additionalAgentInstructions : String
  customSecretsDescriptions : List (String × String)
  workingDir : String

/-- The texts that come from prompt templates. -/
structure PromptManager where
  getSystemMessage : Bool → String
  buildWorkspaceContext :
    Option RepositoryInfo → RuntimeInfo → Option String → String → String
  buildMicroagentInfo : List MicroagentKnowledge → String

/-- The configuration that building messages reads. -/
structure Setup where
  prompts : PromptManager
  enableSomVisualBrowsing : Bool := true
  enablePromptExtensions : Bool := true
  disabledMicroagents : List String := []
  cliMode : Bool := false
  maxMessageChars : Option Int := none
  visionIsActive : Bool := false

/-- A text that is more than white space. -/
def filled (text : String) : Bool := strip text.toList ≠ []

/-- Cut the middle out of a text that is too long. -/
def truncateContent (content : String) (maxChars : Option Int) : String :=
  match maxChars with
  | none => content
  | some limit =>
      if (content.length : Int) ≤ limit ∨ limit < 0 then content
      else
        String.ofList (slice content.toList none (some (limit / 2))) ++
          "\n[... Observation truncated due to length ...]\n" ++
          String.ofList (slice content.toList (some (-(limit / 2))) none)

/-- The output of a command as the agent sees it. -/
def toAgentObservation (content : String) (metadata : CmdOutputMetadata) : String :=
  metadata.before ++ content ++ metadata.after ++
    (if metadata.workingDir.getD "" = "" then ""
      else "\n[Current working directory: " ++ metadata.workingDir.getD "" ++ "]") ++
    (if metadata.pyInterpreterPath.getD "" = "" then ""
      else "\n[Python interpreter: " ++ metadata.pyInterpreterPath.getD "" ++ "]") ++
    (if metadata.exitCode = -1 then ""
      else "\n[Command finished with exit code " ++ toString metadata.exitCode ++ "]")

/-- Replace lines that hold an encoded image. -/
def withoutEncodedImages (text : String) : String :=
  "\n".intercalate ((text.toList.splitOn '\n').map (fun line =>
    if occursIn "![image](data:image/png;base64,".toList line then
      "![image](data:image/png;base64, ...) already displayed to user"
    else String.ofList line))

/-- The content of a notebook observation. -/
def ipythonContent (setup : Setup) (text : String) (imageUrls : Option (List String)) :
    List Content :=
  let shown := truncateContent (withoutEncodedImages text) setup.maxMessageChars
  let urls := imageUrls.getD []
  let valid := urls.filter filled
  if urls = [] then [.text shown]
  else if valid ≠ [] then
    let note :=
      if setup.visionIsActive ∧ valid.length < urls.length then
        "\n\nNote: " ++ toString (urls.length - valid.length) ++
          " invalid or empty image(s) were filtered from this output. The agent may need to " ++
          "use alternative methods to access visual information."
      else ""
    [.text (shown ++ note), .image valid]
  else
    let note :=
      if setup.visionIsActive then
        "\n\nNote: All " ++ toString urls.length ++
          " image(s) in this output were invalid or empty and have been filtered. The agent " ++
          "should use alternative methods to access visual information."
      else ""
    [.text (shown ++ note)]

/-- The image of a web page that is shown, and what it is. -/
def pageImage (setOfMarks screenshot : String) : Option (String × String) :=
  if setOfMarks ≠ "" then some (setOfMarks, "set of marks")
  else if screenshot ≠ "" then some (screenshot, "screenshot")
  else none

def browserContent (setup : Setup) (text triggerByAction screenshot setOfMarks : String) :
    List Content :=
  if triggerByAction = "browse_interactive" ∧ setup.enableSomVisualBrowsing then
    let described :=
      if setup.visionIsActive then
        text ++ "Image: Current webpage screenshot (Note that only visible portion of webpage " ++
          "is present in the screenshot. However, the Accessibility tree contains information " ++
          "from the entire webpage.)\n"
      else text
    match pageImage setOfMarks screenshot with
    | some (url, imageType) =>
        if filled url then [.text described, .image [url]]
        else if setup.visionIsActive then
          [.text (described ++ "\n\nNote: The " ++ imageType ++
            " for this webpage was invalid or empty and has been filtered. The agent should " ++
            "use alternative methods to access visual information about the webpage.")]
        else [.text described]
    | none =>
        if setup.visionIsActive then
          [.text (described ++ "\n\nNote: No visual information (screenshot or set of marks) is " ++
            "available for this webpage. The agent should rely on the text content above.")]
        else [.text described]
  else [.text text]

/-- The knowledge that is not disabled. -/
def enabledAgents (setup : Setup) (agents : List MicroagentKnowledge) :
    List MicroagentKnowledge :=
  agents.filter (fun agent => agent.name ∉ setup.disabledMicroagents)

def workspaceContent (setup : Setup) (findings : RecallFindings) : List Content :=
  let repository :=
    if findings.repoName ≠ "" ∨ findings.repoDirectory ≠ "" then
      some (RepositoryInfo.mk findings.repoName findings.repoDirectory
        (if findings.repoBranch = "" then none else some findings.repoBranch))
    else none
  let runtime := RuntimeInfo.mk findings.date findings.runtimeHosts
    findings.additionalAgentInstructions findings.customSecretsDescriptions findings.workingDir
  let instructions :=
    if findings.conversationInstructions = "" then none
    else some findings.conversationInstructions
  let agents := enabledAgents setup findings.microagentKnowledge
  (if repository.isSome ∨ findings.date ≠ "" ∨ findings.customSecretsDescriptions ≠ [] ∨
        filled findings.repoInstructions ∨ instructions.isSome then
      [.text (setup.prompts.buildWorkspaceContext repository runtime instructions
        findings.repoInstructions)]
    else []) ++
    (if agents = [] then [] else [.text (setup.prompts.buildMicroagentInfo agents)])

/-- An earlier recall brought up this piece of knowledge. -/
def hasAgentInEarlierEvents (name : String) (earlier : List Event) : Bool :=
  earlier.any (fun event =>
    match event.body with
    | .observation _ (.recall findings) =>
        findings.microagentKnowledge.any (fun agent => agent.name = name)
    | _ => false)

/-- What an observation contributes: nothing, a message of its own whatever tool
call it belongs to, or content that answers its tool call if it has one. -/
inductive Shown where
  | nothing
  | message (content : List Content)
  | content (content : List Content)

/-- What an observation contributes; an unknown class raises. -/
def observationContent (setup : Setup) (earlier : List Event) (event : Event)
    (content : String) : ObservationClass → Except String Shown
  | .cmdOutput _ metadata _ =>
      let shown := toAgentObservation content metadata
      .ok (.content [.text (truncateContent
        (if event.toolCallMetadata.isNone then
          "\nObserved result of command executed by user:\n" ++ shown
        else shown) setup.maxMessageChars)])
  | .ipythonRunCell _ imageUrls => .ok (.content (ipythonContent setup content imageUrls))
  | .fileEdit _ =>
      .ok (.content [.text (truncateContent event.printed setup.maxMessageChars)])
  | .fileRead _ => .ok (.content [.text content])
  | .browserOutput _ triggerByAction screenshot setOfMarks =>
      .ok (.content (browserContent setup content triggerByAction screenshot setOfMarks))
  | .agentDelegate outputs =>
      match outputs.lookup "content" with
      | none => .ok (.content [.text (truncateContent content setup.maxMessageChars)])
      | some (.str text) => .ok (.content [.text (truncateContent text setup.maxMessageChars)])
      | some _ => .error "Input should be a valid string"
  | .mcp _ | .agentThink | .taskTracking | .agentCondensation | .fileDownload _ =>
      .ok (.content [.text (truncateContent content setup.maxMessageChars)])
  | .error _ =>
      .ok (.content [.text (truncateContent content setup.maxMessageChars ++
        "\n[Error occurred in processing last action]")])
  | .userReject =>
      .ok (.content [.text ("OBSERVATION:\n" ++ truncateContent content setup.maxMessageChars ++
        "\n[Last action has been rejected by the user]")])
  | .loopDetection => .ok .nothing
  | .recall findings =>
      if setup.enablePromptExtensions then
        match findings.recallType with
        | .workspaceContext =>
            let shown := workspaceContent setup findings
            .ok (if shown = [] then .nothing else .content shown)
        | .knowledge =>
            let agents := enabledAgents setup (findings.microagentKnowledge.filter
              (fun agent => !hasAgentInEarlierEvents agent.name earlier))
            .ok (if agents = [] then .nothing
              else .message [.text (setup.prompts.buildMicroagentInfo agents)])
      else .ok .nothing
  | .null | .agentStateChanged _ _ | .fileWrite _ | .success =>
      .error "Unknown observation type"

/-- Messages so far, assistant messages that wait for results, and results. -/
structure Progress where
  messages : List Message
  pending : OrderedDict String Message
  answers : OrderedDict String Message

def toolMessage (metadata : ToolCallMetadata) (content : List Content) : Message :=
  { role := .tool
    content
    toolCallId := some metadata.toolCallId
    name := some metadata.functionName }

def processObservation (setup : Setup) (earlier : List Event) (event : Event) (content : String)
    (observationClass : ObservationClass) (answers : OrderedDict String Message) :
    Except String (List Message × OrderedDict String Message) := do
  match ← observationContent setup earlier event content observationClass with
  | .nothing => return ([], answers)
  | .message shown => return ([{ role := .user, content := shown }], answers)
  | .content shown =>
      match event.toolCallMetadata with
      | some metadata =>
          return ([], answers.set metadata.toolCallId (toolMessage metadata shown))
      | none => return ([{ role := .user, content := shown }], answers)

/-- The actions that wait for the results of their tool calls. -/
def toolBased (event : Event) : Action → Bool
  | .agentDelegate _ _ _ | .agentThink _ | .ipythonRunCell _ _ | .fileEdit _ _ | .fileRead _ _
  | .browseInteractive _ _ | .browseUrl _ _ | .mcp _ _ _ | .taskTracking _ _ => true
  | .cmdRun _ _ _ => event.source = some .agent
  | _ => false

def assistantMessage (response : ModelResponse) : Except String Message :=
  match Role.ofText response.role with
  | none => .error "Input should be 'user', 'system', 'assistant' or 'tool'"
  | some role =>
      .ok {
        role
        content :=
          if filled (response.content.getD "") then [.text (response.content.getD "")] else []
        toolCalls := response.toolCalls }

/-- The thought of a finished agent, completed by what the response said. -/
def finishThought (event : Event) (thought : String) : String :=
  match event.toolCallMetadata with
  | none => thought
  | some metadata =>
      let content := metadata.modelResponse.content.getD ""
      if thought = "" then content
      else if thought = content then thought
      else thought ++ "\n" ++ content

def messageContents (setup : Setup) (role : Role) (content : String)
    (imageUrls : Option (List String)) : List Content :=
  let urls := imageUrls.getD []
  .text content ::
    (if urls = [] then []
    else if role = .user then
      (urls.mapIdx (fun index url =>
        (if setup.visionIsActive then [.text ("Image " ++ toString (index + 1) ++ ":")] else []) ++
          [.image [url]])).flatten
    else [.image urls])

/-- Users speak for themselves, all others for the assistant. -/
def speaker (event : Event) : Role := if event.source = some .user then .user else .assistant

def processAction (setup : Setup) (event : Event) (action : Action)
    (pending : OrderedDict String Message) :
    Except String (List Message × OrderedDict String Message) :=
  if toolBased event action then
    match event.toolCallMetadata with
    | none =>
        if event.source = some .user then
          .ok ([{ role := .user,
                  content := [.text ("User requested to read file: " ++ event.printed)] }], pending)
        else
          .error ("Tool call metadata should NOT be None when function calling is enabled for " ++
            "agent actions. Action: " ++ event.printed)
    | some metadata => do
        let message ← assistantMessage metadata.modelResponse
        return ([], pending.set metadata.modelResponse.id message)
  else
    match action with
    | .agentFinish _ thought =>
        .ok ([{ role := speaker event, content := [.text (finishThought event thought)] }], pending)
    | .message content imageUrls _ =>
        .ok ([{ role := speaker event,
                content := messageContents setup (speaker event) content imageUrls }], pending)
    | .cmdRun command _ _ =>
        if event.source = some .user then
          .ok ([{ role := .user,
                  content := [.text ("User executed the command:\n" ++ command)] }], pending)
        else .ok ([], pending)
    | .systemMessage content => .ok ([{ role := .system, content := [.text content] }], pending)
    | _ => .ok ([], pending)

/-- Take the results of calls out of the table, in the order of the calls. -/
def takeAnswers : List ToolCall → OrderedDict String Message →
    Except String (List Message × OrderedDict String Message)
  | [], answers => .ok ([], answers)
  | call :: rest, answers =>
      match answers.get call.id with
      | none => .error ("KeyError: " ++ call.id)
      | some answer => do
          let (later, left) ← takeAnswers rest (answers.erase call.id)
          return (answer :: later, left)

/-- Go through the waiting messages: a complete one is added with its results, the
others keep waiting. -/
def completePending : List (String × Message) → OrderedDict String Message →
    Except String (List Message × List String × OrderedDict String Message)
  | [], answers => .ok ([], [], answers)
  | (responseId, message) :: rest, answers =>
      match message.toolCalls with
      | none => .error "Tool calls should NOT be None when function calling is enabled"
      | some calls =>
          if calls.all (fun call => (answers.get call.id).isSome) then do
            let (results, left) ← takeAnswers calls answers
            let (later, removed, remaining) ← completePending rest left
            return (message :: results ++ later, responseId :: removed, remaining)
          else completePending rest answers

/-- Drop the entries of a table that were completed. -/
def dropCompleted (pending : OrderedDict String Message) (removed : List String) :
    OrderedDict String Message :=
  removed.foldl OrderedDict.erase pending

/-- What one event adds before the waiting messages are looked at. -/
def receive (setup : Setup) (earlier : List Event) (event : Event) (progress : Progress) :
    Except String (List Message × Progress) :=
  match event.body with
  | .action action => do
      let (added, pending) ← processAction setup event action progress.pending
      return (added, { progress with pending })
  | .observation content observationClass => do
      let (added, answers) ←
        processObservation setup earlier event content observationClass progress.answers
      return (added, { progress with answers })
  | .bare => .error "Unknown event type"

/-- Process one event: what it adds, and then what it completes. -/
def processEvent (setup : Setup) (earlier : List Event) (event : Event) (progress : Progress) :
    Except String Progress := do
  let (added, received) ← receive setup earlier event progress
  let (completed, removed, answers) ← completePending received.pending.entries received.answers
  return {
    messages := received.messages ++ (added ++ completed)
    pending := dropCompleted received.pending removed
    answers }

def processAll (setup : Setup) : List Event → List Event → Progress → Except String Progress
  | _, [], progress => .ok progress
  | earlier, event :: rest, progress => do
      let next ← processEvent setup earlier event progress
      processAll setup (earlier ++ [event]) rest next

/-- The identifiers of calls in assistant messages. -/
def calledIds (messages : List Message) : List String :=
  messages.flatMap (fun message =>
    if message.role = .assistant then
      ((message.toolCalls.getD []).map ToolCall.id).filter (· ≠ "")
    else [])

/-- The identifiers that tool messages answer. -/
def answeredIds (messages : List Message) : List String :=
  messages.filterMap (fun message =>
    if message.role = .tool ∧ message.toolCallId.getD "" ≠ "" then message.toolCallId else none)

/-- Keep, trim or drop one message, given the calls and answers of all. -/
def matchedMessage (called answered : List String) (message : Message) : Option Message :=
  if message.role = .tool ∧ message.toolCallId.getD "" ≠ "" then
    if message.toolCallId.getD "" ∈ called then some message else none
  else if message.role = .assistant ∧ message.toolCalls.getD [] ≠ [] then
    let calls := message.toolCalls.getD []
    if calls.all (fun call => call.id ∈ answered) then some message
    else
      let matched := calls.filter (fun call => call.id ∈ answered)
      if matched = [] then none else some { message with toolCalls := some matched }
  else some message

/-- Drop calls without results and results without calls. -/
def filterUnmatchedToolCalls (messages : List Message) : List Message :=
  messages.filterMap (matchedMessage (calledIds messages) (answeredIds messages))

/-- Put two line breaks before the first text of a message. -/
def separated : List Content → List Content
  | [] => []
  | .text text :: rest => .text ("\n\n" ++ text) :: rest
  | .image urls :: rest => .image urls :: separated rest

/-- Separate consecutive messages of the user. -/
def applyUserMessageFormatting : Option Role → List Message → List Message
  | _, [] => []
  | previous, message :: rest =>
      (if message.role = .user ∧ previous = some .user then
        { message with content := separated message.content }
      else message) :: applyUserMessageFormatting (some message.role) rest

/-- Add a system message to a history that has none. -/
def ensureSystemMessage (setup : Setup) (events : List Event) : List Event :=
  let prompt := setup.prompts.getSystemMessage setup.cliMode
  if events.any Event.isSystemMessage ∨ prompt = "" then events
  else { body := .action (.systemMessage prompt) } :: events

/-- Insert the first message of the user after the first event, unless the second
event is a message of the user or the first message was forgotten. -/
def ensureInitialUserMessage (events : List Event) (initialUserAction : Event)
    (forgottenEventIds : List Int) : List Event :=
  match events with
  | [] => []
  | first :: rest =>
      if initialUserAction.id ∈ forgottenEventIds then first :: rest
      else
        match rest with
        | [] => [first, initialUserAction]
        | second :: _ =>
            if second.isUserMessage then first :: rest else first :: initialUserAction :: rest

def ensuredEvents (setup : Setup) (condensedHistory : List Event) (initialUserAction : Event)
    (forgottenEventIds : List Int) : List Event :=
  ensureInitialUserMessage (ensureSystemMessage setup condensedHistory) initialUserAction
    forgottenEventIds

/-- The messages for the model. -/
def processEvents (setup : Setup) (condensedHistory : List Event) (initialUserAction : Event)
    (forgottenEventIds : List Int) : Except String (List Message) := do
  let progress ← processAll setup []
    (ensuredEvents setup condensedHistory initialUserAction forgottenEventIds)
    ⟨[], .empty, .empty⟩
  return applyUserMessageFormatting none (filterUnmatchedToolCalls progress.messages)

end ForgePilot.ConversationMemory
