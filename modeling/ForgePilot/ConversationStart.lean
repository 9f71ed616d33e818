import ForgePilot.ConversationInfo
import ForgePilot.Generators
import ForgePilot.Values

/-!
# Starting a conversation

A start finds or starts a sandbox, prepares its repository, and has the agent server in it
open a conversation. Clients poll the start task, which is saved each time it is yielded.
Everything between the first yield and the end stands under one handler that turns what was
raised into a final status; the messages that wait for the conversation are processed there
too, after the success was published.

What each awaited call returns or raises is given with the call, by its arguments, and for
calls that are made twice by the place; an exception is its text. A save of the task is the
consumer's own step. The parts of a request that only shape what is sent to the agent server
are left out, as are the files and the text of what is sent.
-/

namespace ForgePilot.ConversationStart

open List

open Conversations Generators Generator

inductive AppConversationStartTaskStatus where
  | working | waitingForSandbox | preparingRepository | runningSetupScript | settingUpGitHooks
  | settingUpSkills | startingConversation | ready | error
deriving DecidableEq

inductive SandboxStatus where
  | starting | running | paused | error | missing
deriving DecidableEq

/-- The name of a state of a sandbox. -/
def SandboxStatus.value : SandboxStatus → String
  | .starting => "STARTING"
  | .running => "RUNNING"
  | .paused => "PAUSED"
  | .error => "ERROR"
  | .missing => "MISSING"

/-- How conversations are put into sandboxes. -/
inductive SandboxGroupingStrategy where
  | noGrouping | groupByNewest | leastRecentlyUsed | fewestConversations | addToAny
deriving DecidableEq

/-- A service of a sandbox and where it is reached. -/
structure ExposedUrl where
  name : String
  url : String

/-- What is known about a sandbox. -/
structure SandboxInfo where
  id : String
  sandboxSpecId : String
  status : SandboxStatus
  sessionApiKey : Option String
  exposedUrls : Option (List ExposedUrl)

structure SandboxSpecInfo where
  workingDir : String

structure SendMessageRequest where
  role : String
  content : List String

/-- A task that was suggested to the user. -/
structure SuggestedTask where
  gitProvider : ProviderType
  taskType : String
  repo : String

/-- What is done with the events of a conversation. -/
inductive Processor where
  | setTitle
  | other (kind : String)
deriving DecidableEq

variable {υ : Type}

structure AppConversationStartRequest (υ : Type) where
  sandboxId : Option String := none
  conversationId : Option υ := none
  initialMessage : Option SendMessageRequest := none
  processors : Option (List Processor) := none
  llmModel : Option String := none
  selectedRepository : Option String := none
  selectedBranch : Option String := none
  gitProvider : Option ProviderType := none
  suggestedTask : Option SuggestedTask := none
  trigger : Option ConversationTrigger := none
  prNumber : List Int := []
  parentConversationId : Option υ := none

/-- The process of starting a conversation, as clients see it. -/
structure AppConversationStartTask (υ : Type) where
  id : υ
  createdByUserId : Option String
  status : AppConversationStartTaskStatus := .working
  detail : Option String := none
  appConversationId : Option υ := none
  sandboxId : Option String := none
  agentServerUrl : Option String := none
  request : AppConversationStartRequest υ
  createdAt : Nat
  updatedAt : Nat

/-- What is sent to the agent server, of which the model is read back. -/
structure StartConversationRequest where
  llmModel : String

/-- An answer of the agent server. -/
structure Response where
  statusCode : Nat
  body : String

/-- What the calls of one start return or raise. -/
structure Calls (υ : Type) where
  userId : Except String (Option String)
  appConversationInfo : υ → Except String (Option (AppConversationInfo υ))
  promptForTask : SuggestedTask → Except String String
  taskId : υ
  now : Nat
  runningSandbox : Except String (Option SandboxInfo)
  startSandbox : Option String → Except String SandboxInfo
  requestedSandbox : String → Except String (Option SandboxInfo)
  resumeSandbox : String → Except String Bool
  waitForSandboxRunning : String → Except String SandboxInfo
  sandbox : String → Except String (Option SandboxInfo)
  replaceLocalhostHostname : String → String
  sandboxSpec : String → Except String (Option SandboxSpecInfo)
  conversationId : υ
  sandboxGroupingStrategy : Except String SandboxGroupingStrategy
  cloneOrInitGitRepo : AppConversationStartRequest υ → String → Except String Unit
  maybeRunSetupScript : String → String → Except String Unit
  maybeSetupGitHooks : String → String → Except String Unit
  loadAndMergeAllSkills : SandboxInfo → Option String → String → String → Except String Unit
  buildStartConversationRequest : SandboxInfo → υ → AppConversationStartRequest υ → String →
    Except String StartConversationRequest
  post : String → StartConversationRequest → Option String → Except String Response
  raiseForStatus : Response → Except String Unit
  validate : Response → Except String υ
  userIdAtEnd : Except String (Option String)
  infoCreatedAt : Nat
  saveAppConversationInfo : AppConversationInfo υ → Except String Unit
  saveEventCallback : Nat → υ → Processor → Except String Unit
  securityAnalyzer : Except String (Option String)
  setSecurityAnalyzer : String → Option String → υ → Option String → Except String Unit
  processPendingMessages : υ → υ → String → String → Except String Unit

variable (platform : Platform υ) (calls : Calls υ)

def sandboxError (detail : String) : String := "500: " ++ detail

/-! ## Before the first yield -/

/-- Take what was not requested from the parent. -/
def inheritConfigurationFromParent (request : AppConversationStartRequest υ)
    (parentInfo : AppConversationInfo υ) : AppConversationStartRequest υ :=
  { request with
    sandboxId := (truthy request.sandboxId).or (some parentInfo.sandboxId)
    selectedRepository := (truthy request.selectedRepository).or parentInfo.selectedRepository
    selectedBranch := (truthy request.selectedBranch).or parentInfo.selectedBranch
    gitProvider := request.gitProvider.or parentInfo.gitProvider
    llmModel :=
      if (truthy request.llmModel).isNone ∧ (truthy parentInfo.llmModel).isSome then
        parentInfo.llmModel
      else request.llmModel }

/-- Take what was not requested from the suggested task. -/
def applySuggestedTask (request : AppConversationStartRequest υ) :
    Except String (AppConversationStartRequest υ) :=
  match request.suggestedTask with
  | none => .ok request
  | some suggestedTask =>
      if request.initialMessage.isSome then
        .error "initial_message cannot be provided when suggested_task is present"
      else do
        let prompt ← calls.promptForTask suggestedTask
        if prompt = "" then
          .error ("Suggested task returned empty prompt for task type " ++ suggestedTask.taskType)
        else
          .ok { request with
            initialMessage := some ⟨"user", [prompt]⟩
            trigger := some .suggestedTask
            selectedRepository := (truthy request.selectedRepository).or (some suggestedTask.repo)
            gitProvider := request.gitProvider.or (some suggestedTask.gitProvider) }

/-- Inherit from the parent, which must be stored. -/
def inheritFromParent (request : AppConversationStartRequest υ) :
    Except String (AppConversationStartRequest υ) :=
  match request.parentConversationId with
  | none => .ok request
  | some parentConversationId => do
      match ← calls.appConversationInfo parentConversationId with
      | none => .error ("Parent conversation not found: " ++ platform.text parentConversationId)
      | some parentInfo => .ok (inheritConfigurationFromParent request parentInfo)

/-- The task as it is yielded first. -/
def startTask (request : AppConversationStartRequest υ) :
    Except String (AppConversationStartTask υ) := do
  let userId ← calls.userId
  let inherited ← inheritFromParent platform calls request
  let applied ← applySuggestedTask calls inherited
  return {
    id := calls.taskId
    createdByUserId := userId
    request := applied
    createdAt := calls.now
    updatedAt := calls.now }

/-! ## The sandbox -/

/-- A running sandbox of the user; that none could be found is only logged. -/
def findRunningSandboxForUser : Option SandboxInfo :=
  match calls.runningSandbox with
  | .ok sandbox => sandbox
  | .error _ => none

/-- The sandbox of a start, and whether it was named in the request. -/
def assignSandbox (request : AppConversationStartRequest υ) : Except String SandboxInfo :=
  match truthy request.sandboxId with
  | none =>
      match findRunningSandboxForUser calls with
      | some sandbox => .ok sandbox
      | none => calls.startSandbox (request.conversationId.map platform.hex)
  | some sandboxId => do
      match ← calls.requestedSandbox sandboxId with
      | some sandbox => .ok sandbox
      | none => .error (sandboxError ("Sandbox not found: " ++ sandboxId))

/-- Refuse a sandbox that cannot come to run. -/
def checkStartable (sandbox : SandboxInfo) : Except String Unit :=
  if sandbox.status = .error then
    .error (sandboxError ("Sandbox status: SandboxStatus." ++ sandbox.status.value))
  else if sandbox.status ∉ [SandboxStatus.starting, .running, .paused] then
    .error (sandboxError ("Sandbox not startable: " ++ sandbox.id))
  else .ok ()

def waitForSandboxStart : Generator String (AppConversationStartTask υ) Unit := do
  let task ← get
  let sandbox ← perform (assignSandbox platform calls task.request)
  update (fun task => { task with status := .waitingForSandbox, sandboxId := some sandbox.id })
  publish
  let _ ← perform (if sandbox.status = .paused then calls.resumeSandbox sandbox.id else .ok true)
  perform (checkStartable sandbox)
  let _ ← perform (calls.waitForSandboxRunning sandbox.id)

/-- Where the agent server of a sandbox is reached. -/
def getAgentServerUrl (sandbox : SandboxInfo) : Except String String :=
  match sandbox.exposedUrls with
  | none => .error ""
  | some exposedUrls =>
      match exposedUrls.find? (fun exposedUrl => exposedUrl.name = "AGENT_SERVER") with
      | none => .error ""
      | some exposedUrl => .ok (calls.replaceLocalhostHostname exposedUrl.url)

/-- A value that is asserted to be there. -/
def asserted {α : Type} : Option α → Except String α
  | some value => .ok value
  | none => .error ""

/-! ## The repository -/

/-- The directory of the project: below the working directory for a repository. -/
def getProjectDir (workingDir : String) (selectedRepository : Option String) : String :=
  match truthy selectedRepository with
  | none => workingDir
  | some repository => workingDir ++ "/" ++ ((repository.splitOn "/").getLast?.getD "")

/-- Prepare the repository, each part announced by its status. -/
def runSetupScripts (sandbox : SandboxInfo) (workingDir agentServerUrl : String) :
    Generator String (AppConversationStartTask υ) Unit := do
  update (fun task => { task with status := .preparingRepository })
  publish
  let request := (← get).request
  perform (calls.cloneOrInitGitRepo request workingDir)
  let projectDir := getProjectDir workingDir request.selectedRepository
  update (fun task => { task with status := .runningSetupScript })
  publish
  perform (calls.maybeRunSetupScript workingDir projectDir)
  update (fun task => { task with status := .settingUpGitHooks })
  publish
  perform (calls.maybeSetupGitHooks workingDir projectDir)
  update (fun task => { task with status := .settingUpSkills })
  publish
  perform (calls.loadAndMergeAllSkills sandbox request.selectedRepository projectDir agentServerUrl)

/-! ## The conversation -/

/-- The working directory of a conversation: its own one where sandboxes are shared. -/
def groupedWorkingDir (spec : SandboxSpecInfo) (strategy : SandboxGroupingStrategy)
    (conversationId : υ) : String :=
  if strategy ≠ .noGrouping then spec.workingDir ++ "/" ++ platform.hex conversationId
  else spec.workingDir

/-- The metadata of the conversation that was opened. -/
def appConversationInfo (request : AppConversationStartRequest υ) (sandbox : SandboxInfo)
    (startRequest : StartConversationRequest) (conversationId : υ) (userId : Option String) :
    AppConversationInfo υ :=
  { id := conversationId
    title := some ("Conversation " ++ String.ofList ((platform.hex conversationId).toList.take 5))
    sandboxId := sandbox.id
    createdByUserId := userId
    llmModel := some startRequest.llmModel
    selectedRepository := request.selectedRepository
    selectedBranch := request.selectedBranch
    gitProvider := request.gitProvider
    trigger := request.trigger
    prNumber := request.prNumber
    parentConversationId := request.parentConversationId
    createdAt := calls.infoCreatedAt
    updatedAt := calls.infoCreatedAt }

/-- The processors of a conversation: the requested ones, and one that sets the title. -/
def withSetTitle (processors : List Processor) : List Processor :=
  if .setTitle ∈ processors then processors else processors ++ [.setTitle]

/-- The request after its list of processors was extended; an empty one is replaced. -/
def extendProcessors (request : AppConversationStartRequest υ) : AppConversationStartRequest υ :=
  match request.processors with
  | none | some [] => request
  | some processors => { request with processors := some (withSetTitle processors) }

/-- Save the processors from a position on. -/
def saveEventCallbacks (conversationId : υ) :
    Nat → List Processor → Generator String (AppConversationStartTask υ) Unit
  | _, [] => pure ()
  | position, processor :: rest => do
      perform (calls.saveEventCallback position conversationId processor)
      saveEventCallbacks conversationId (position + 1) rest

/-- The steps up to the success, with the sandbox, the address of its agent server and the
identifier of the conversation. -/
def untilReady : Generator String (AppConversationStartTask υ) (SandboxInfo × String × υ) := do
  waitForSandboxStart platform calls
  let sandboxId ← perform (asserted (← get).sandboxId)
  let found ← perform (calls.sandbox sandboxId)
  let sandbox ← perform (asserted found)
  let agentServerUrl ← perform (getAgentServerUrl calls sandbox)
  let foundSpec ← perform (calls.sandboxSpec sandbox.sandboxSpecId)
  let spec ← perform (asserted foundSpec)
  let request := (← get).request
  let conversationId := request.conversationId.getD calls.conversationId
  let strategy ← perform calls.sandboxGroupingStrategy
  let workingDir := groupedWorkingDir platform spec strategy conversationId
  runSetupScripts calls sandbox workingDir agentServerUrl
  let startRequest ← perform
    (calls.buildStartConversationRequest sandbox conversationId request workingDir)
  update (fun task => { task with
    status := .startingConversation, agentServerUrl := some agentServerUrl })
  publish
  let response ← perform (calls.post agentServerUrl startRequest (truthy sandbox.sessionApiKey))
  perform (calls.raiseForStatus response)
  let infoId ← perform (calls.validate response)
  let userId ← perform calls.userIdAtEnd
  perform (calls.saveAppConversationInfo
    (appConversationInfo platform calls request sandbox startRequest infoId userId))
  update (fun task => { task with request := extendProcessors task.request })
  saveEventCallbacks calls infoId 0 (withSetTitle (request.processors.getD []))
  let securityAnalyzer ← perform calls.securityAnalyzer
  perform (calls.setSecurityAnalyzer agentServerUrl sandbox.sessionApiKey infoId securityAnalyzer)
  return (sandbox, agentServerUrl, infoId)

/-- Publish the success, and process the messages that waited for it. -/
def announceReady (sandbox : SandboxInfo) (agentServerUrl : String) (infoId : υ) :
    Generator String (AppConversationStartTask υ) Unit := do
  update (fun task => { task with status := .ready, appConversationId := some infoId })
  publish
  match truthy sandbox.sessionApiKey with
  | none => pure ()
  | some sessionApiKey =>
      perform (calls.processPendingMessages (← get).id infoId agentServerUrl sessionApiKey)

/-- The steps under the handler. -/
def attempt : Generator String (AppConversationStartTask υ) Unit := do
  let (sandbox, agentServerUrl, infoId) ← untilReady platform calls
  announceReady calls sandbox agentServerUrl infoId

/-- A start: what is raised after the first yield becomes the last one. -/
def guarded : Generator String (AppConversationStartTask υ) Unit := do
  publish
  catching (attempt platform calls) (fun text => do
    update (fun task => { task with status := .error, detail := some text })
    publish)

/-- What an observer of a start is shown. -/
def startAppConversation (request : AppConversationStartRequest υ) :
    List (Happening (AppConversationStartTask υ)) :=
  match startTask platform calls request with
  | .error _ => [.step true]
  | .ok task => .step false :: (guarded platform calls task).happenings

/-! ## What is announced -/

/-- The task of a start, which names no conversation yet. -/
def Unnamed (taskId : υ) (task : AppConversationStartTask υ) : Prop :=
  task.id = taskId ∧ task.appConversationId = none

/-- While the task names no conversation, a generator announces states. -/
abbrev Announces {α : Type} (taskId : υ) (states : List AppConversationStartTaskStatus)
    (generator : Generator String (AppConversationStartTask υ) α) : Prop :=
  Yields AppConversationStartTask.status (Unnamed taskId) states generator

variable (taskId : υ)

theorem wait_announces :
    Announces taskId [.waitingForSandbox] (waitForSandboxStart platform calls) := by
  apply yields_read
  intro task
  apply yields_step
  intro sandbox
  apply yields_announce
  · exact fun _ unnamed => unnamed
  · exact fun _ => rfl
  apply yields_step
  intro _
  apply yields_step
  intro _
  apply yields_step
  intro _
  exact yields_pure _ _ _

variable (task : AppConversationStartTask υ) (sandbox : SandboxInfo)

/-- Every part of the preparation of the repository is announced. -/
theorem setup_announces (workingDir agentServerUrl : String) : Announces taskId
      [.preparingRepository, .runningSetupScript, .settingUpGitHooks, .settingUpSkills]
      (runSetupScripts calls sandbox workingDir agentServerUrl) := by
  apply yields_announce
  · exact fun _ unnamed => unnamed
  · exact fun _ => rfl
  apply yields_read
  intro task
  apply yields_step
  intro _
  apply yields_announce
  · exact fun _ unnamed => unnamed
  · exact fun _ => rfl
  apply yields_step
  intro _
  apply yields_announce
  · exact fun _ unnamed => unnamed
  · exact fun _ => rfl
  apply yields_step
  intro _
  apply yields_announce
  · exact fun _ unnamed => unnamed
  · exact fun _ => rfl
  exact yields_perform _ _ _

variable (conversationId : υ) (place : Nat) (processors : List Processor)

/-- Saving the processors announces nothing. -/
theorem save_callbacks_announces :
    Announces taskId [] (saveEventCallbacks calls conversationId place processors) := by
  induction processors generalizing place with
  | nil => exact yields_pure _ _ _
  | cons processor rest ih =>
    apply yields_step
    intro _
    exact ih (place + 1)

/-- The states between the first one and the success. -/
def underway : List AppConversationStartTaskStatus :=
  [.waitingForSandbox, .preparingRepository, .runningSetupScript, .settingUpGitHooks,
    .settingUpSkills, .startingConversation]

/-- Up to the success the states come in order. -/
theorem until_ready_announces : Announces taskId underway (untilReady platform calls) := by
  refine yields_bind _ _
    (wait_announces _ _ _) ?_
  intro _
  apply yields_read
  intro waited
  apply yields_step
  intro sandboxId
  apply yields_step
  intro found
  apply yields_step
  intro sandbox
  apply yields_step
  intro agentServerUrl
  apply yields_step
  intro foundSpec
  apply yields_step
  intro spec
  apply yields_read
  intro task
  apply yields_step
  intro strategy
  refine yields_bind _ _ (setup_announces _ _ _ _ _) ?_
  intro _
  apply yields_step
  intro startRequest
  apply yields_announce
  · exact fun _ unnamed => unnamed
  · exact fun _ => rfl
  apply yields_step
  intro response
  apply yields_step
  intro _
  apply yields_step
  intro infoId
  apply yields_step
  intro userId
  apply yields_step
  intro _
  apply yields_change
  · exact fun _ unnamed => unnamed
  refine yields_bind _ _ (save_callbacks_announces _ _ _ 0 _) ?_
  intro _
  apply yields_step
  intro securityAnalyzer
  apply yields_step
  intro _
  exact yields_pure _ _ _

/-! ## Which starts succeed -/

/-- Every step before the success is passed, in a sandbox whose agent server has the address
and opens the conversation. -/
inductive Passes (request : AppConversationStartRequest υ) : SandboxInfo → String → υ → Prop
  | intro (assigned sandbox : SandboxInfo) (agentServerUrl : String) (spec : SandboxSpecInfo)
      (strategy : SandboxGroupingStrategy) (startRequest : StartConversationRequest)
      (response : Response) (infoId : υ) (userId securityAnalyzer : Option String)
      (assignment : assignSandbox platform calls request = .ok assigned)
      (resumed : assigned.status = .paused → ∃ found, calls.resumeSandbox assigned.id = .ok found)
      (startable : checkStartable assigned = .ok ())
      (running : ∃ info, calls.waitForSandboxRunning assigned.id = .ok info)
      (found : calls.sandbox assigned.id = .ok (some sandbox))
      (exposed : getAgentServerUrl calls sandbox = .ok agentServerUrl)
      (specified : calls.sandboxSpec sandbox.sandboxSpecId = .ok (some spec))
      (grouped : calls.sandboxGroupingStrategy = .ok strategy)
      (workingDir : String)
      (placed : workingDir = groupedWorkingDir platform spec strategy
        (request.conversationId.getD calls.conversationId))
      (cloned : calls.cloneOrInitGitRepo request workingDir = .ok ())
      (setUp : calls.maybeRunSetupScript workingDir
        (getProjectDir workingDir request.selectedRepository) = .ok ())
      (hooked : calls.maybeSetupGitHooks workingDir
        (getProjectDir workingDir request.selectedRepository) = .ok ())
      (skilled : calls.loadAndMergeAllSkills sandbox request.selectedRepository
        (getProjectDir workingDir request.selectedRepository) agentServerUrl = .ok ())
      (built : calls.buildStartConversationRequest sandbox
        (request.conversationId.getD calls.conversationId) request workingDir = .ok startRequest)
      (posted : calls.post agentServerUrl startRequest (truthy sandbox.sessionApiKey) = .ok response)
      (accepted : calls.raiseForStatus response = .ok ())
      (validated : calls.validate response = .ok infoId)
      (identified : calls.userIdAtEnd = .ok userId)
      (saved : calls.saveAppConversationInfo
        (appConversationInfo platform calls request sandbox startRequest infoId userId) = .ok ())
      (called : ∀ entry ∈ (withSetTitle (request.processors.getD [])).zipIdx,
        calls.saveEventCallback entry.2 infoId entry.1 = .ok ())
      (analyzed : calls.securityAnalyzer = .ok securityAnalyzer)
      (secured : calls.setSecurityAnalyzer agentServerUrl sandbox.sessionApiKey infoId
        securityAnalyzer = .ok ()) :
      Passes request sandbox agentServerUrl infoId

/-- Saving the processors succeeds when each save does. -/
theorem save_callbacks_outcome (task : AppConversationStartTask υ) :
    (saveEventCallbacks calls conversationId place processors task).outcome = .ok () ↔
      ∀ entry ∈ processors.zipIdx place,
        calls.saveEventCallback entry.2 conversationId entry.1 = .ok () := by
  induction processors generalizing place task with
  | nil => simp [saveEventCallbacks]
  | cons processor rest ih =>
    rw [saveEventCallbacks, outcome_step, Unique.exists_iff, ih,
      zipIdx_cons, forall_mem_cons]

/-- Waiting succeeds when the assigned sandbox comes to run. -/
theorem wait_outcome : (waitForSandboxStart platform calls task).outcome = .ok () ↔
      ∃ assigned, assignSandbox platform calls task.request = .ok assigned ∧
        (assigned.status = .paused → ∃ found, calls.resumeSandbox assigned.id = .ok found) ∧
        checkStartable assigned = .ok () ∧
        ∃ info, calls.waitForSandboxRunning assigned.id = .ok info := by
  rw [waitForSandboxStart]
  simp only [get_bind, update_bind, outcome_publish_bind, outcome_step, outcome_pure, and_true,
    Unique.exists_iff, PUnit.default_eq_unit]
  apply exists_congr
  intro assigned
  by_cases paused : assigned.status = .paused
  · simp [paused]
  · simp [paused]

/-- After waiting, the task has the assigned sandbox and its request. -/
theorem wait_item {task : AppConversationStartTask υ} {assigned : SandboxInfo}
    (assignment : assignSandbox platform calls task.request = .ok assigned) :
    (waitForSandboxStart platform calls task).item =
      { task with status := .waitingForSandbox, sandboxId := some assigned.id } := by
  rw [waitForSandboxStart]
  rw [get_bind, bind_of_ok _ assignment]
  apply item_step
  intro _
  apply item_step
  intro _
  apply item_step
  intro _
  rfl

/-- Preparing the repository succeeds when each part does. -/
theorem setup_outcome (workingDir agentServerUrl : String) (task : AppConversationStartTask υ) :
    (runSetupScripts calls sandbox workingDir agentServerUrl task).outcome = .ok () ↔
      calls.cloneOrInitGitRepo task.request workingDir = .ok () ∧
      calls.maybeRunSetupScript workingDir
        (getProjectDir workingDir task.request.selectedRepository) = .ok () ∧
      calls.maybeSetupGitHooks workingDir
        (getProjectDir workingDir task.request.selectedRepository) = .ok () ∧
      calls.loadAndMergeAllSkills sandbox task.request.selectedRepository
        (getProjectDir workingDir task.request.selectedRepository) agentServerUrl = .ok () := by
  rw [runSetupScripts]
  simp [get_bind, update_bind, outcome_publish_bind, outcome_step, outcome_perform,
    Unique.exists_iff, PUnit.default_eq_unit]

theorem asserted_ok {α : Type} (option : Option α) (value : α) :
    asserted option = .ok value ↔ option = some value := by
  cases option with
  | none => simp [asserted]
  | some other => simp [asserted]

/-- The steps up to the success succeed when they are all passed. -/
theorem until_ready_outcome (agentServerUrl : String) (infoId : υ) :
    (untilReady platform calls task).outcome = .ok (sandbox, agentServerUrl, infoId) ↔
      Passes platform calls task.request sandbox agentServerUrl infoId := by
  rw [untilReady]
  simp only [outcome_bind (waitForSandboxStart _ _), outcome_bind (runSetupScripts _ _ _ _),
    outcome_bind (saveEventCallbacks _ _ _ _), get_bind, outcome_step, update_bind,
    outcome_publish_bind, outcome_pure, save_callbacks_outcome, setup_outcome, wait_outcome,
    Unique.exists_iff, PUnit.default_eq_unit]
  constructor
  · rintro ⟨⟨assigned, assignment, resumed, startable, running⟩, rest⟩
    simp only [wait_item platform calls assignment, asserted_ok] at rest
    obtain ⟨_, ⟨⟩, _, found, _, rfl, _, exposed, _, specified, spec, rfl, strategy, grouped,
      ⟨cloned, setUp, hooked, skilled⟩, startRequest, built, response, posted, accepted, _,
      validated, userId, identified, saved, called, securityAnalyzer, analyzed, secured, result⟩ :=
      rest
    cases result
    exact .intro assigned sandbox agentServerUrl spec strategy startRequest response infoId userId
      securityAnalyzer assignment resumed startable running found exposed specified grouped _ rfl
      cloned setUp hooked skilled built posted accepted validated identified saved called analyzed
      secured
  · intro passes
    cases passes with
    | intro assigned sandbox agentServerUrl spec strategy startRequest response infoId userId
        securityAnalyzer assignment resumed startable running found exposed specified grouped
        workingDir placed cloned setUp hooked skilled built posted accepted validated identified
        saved called analyzed secured =>
      subst placed
      simp only [wait_item platform calls assignment, asserted_ok]
      exact ⟨⟨assigned, assignment, resumed, startable, running⟩, _, rfl, _, found, _, rfl, _,
        exposed, _, specified, spec, rfl, strategy, grouped, ⟨cloned, setUp, hooked, skilled⟩,
        startRequest, built, response, posted, accepted, _, validated, userId, identified, saved,
        called, securityAnalyzer, analyzed, secured, rfl⟩

variable {result : SandboxInfo × String × υ} {agentServerUrl : String}

/-- A start passes in one sandbox only. -/
theorem passes_unique {task : AppConversationStartTask υ}
    (outcome : (untilReady platform calls task).outcome = .ok result) {sandbox : SandboxInfo}
    {infoId : υ} (passes : Passes platform calls task.request sandbox agentServerUrl infoId) :
    result = (sandbox, agentServerUrl, infoId) := by
  rw [(until_ready_outcome ..).mpr passes] at outcome
  exact (Except.ok.inj outcome).symm

/-! ## How a start ends -/

/-- The states of a start that succeeds. -/
def path : List AppConversationStartTaskStatus := .working :: underway ++ [.ready]

/-- The states that were published. -/
def statuses (happenings : List (Happening (AppConversationStartTask υ))) :
    List AppConversationStartTaskStatus :=
  (yields happenings).map AppConversationStartTask.status

/-- A start that yields anything goes through its states in order and ends with the success,
or with one error where it was cut short; the error tells of a step that raised between the
first yield and the success, and only the success names the conversation. -/
structure EndsOnce (happenings : List (Happening (AppConversationStartTask υ))) : Prop where
  in_order : statuses happenings = [] ∨ statuses happenings = path ∨
    ∃ count, 0 < count ∧ count < path.length ∧ statuses happenings = path.take count ++ [.error]
  error_exact : .error ∈ statuses happenings ↔
    ∃ before after, happenings = before ++ .step true :: after ∧ yields before ≠ [] ∧
      .ready ∉ statuses before
  named : ∀ task ∈ yields happenings, task.appConversationId.isSome → task.status = .ready

/-- The task after the success. -/
def readied (task : AppConversationStartTask υ) (infoId : υ) : AppConversationStartTask υ :=
  { task with status := .ready, appConversationId := some infoId }

/-- The task after an error. -/
def failed (task : AppConversationStartTask υ) (text : String) : AppConversationStartTask υ :=
  { task with status := .error, detail := some text }

/-- What is shown of a start after its first yield. -/
theorem guarded_happenings : (guarded platform calls task).happenings =
      .yielded task :: (attempt platform calls task).happenings ++
        match (attempt platform calls task).outcome with
        | .ok _ => []
        | .error text => [.yielded (failed (attempt platform calls task).item text)] := by
  have shown : (guarded platform calls task).happenings = .yielded task ::
      (catching (attempt platform calls) (fun text => do
        update (fun task => { task with status := .error, detail := some text })
        publish) task).happenings := rfl
  rw [shown]
  rw [catching]
  cases (attempt platform calls task).outcome with
  | ok value => simp
  | error text => rfl

/-- Where the steps before the success raise, nothing else is shown. -/
theorem attempt_broken (text : String)
    (raised : (untilReady platform calls task).outcome = .error text) :
    attempt platform calls task =
      ⟨(untilReady platform calls task).happenings, (untilReady platform calls task).item,
        .error text⟩ :=
  bind_of_error _ raised

/-- Where they succeed, the success follows. -/
theorem attempt_ready {task : AppConversationStartTask υ} {sandbox : SandboxInfo} {infoId : υ}
    (passed : (untilReady platform calls task).outcome = .ok (sandbox, agentServerUrl, infoId)) :
    attempt platform calls task = ⟨(untilReady platform calls task).happenings ++
          (announceReady calls sandbox agentServerUrl infoId
            (untilReady platform calls task).item).happenings,
        (announceReady calls sandbox agentServerUrl infoId (untilReady platform calls task).item).item,
        (announceReady calls sandbox agentServerUrl infoId
          (untilReady platform calls task).item).outcome⟩ :=
  bind_of_ok _ passed

/-- Announcing the success shows it, and the processing of messages where there is a key. -/
theorem announce_ready (agentServerUrl : String) (infoId : υ) (task : AppConversationStartTask υ) :
    announceReady calls sandbox agentServerUrl infoId task = match truthy sandbox.sessionApiKey with
      | none => ⟨[.yielded (readied task infoId)], readied task infoId, .ok ()⟩
      | some sessionApiKey =>
          let processed := calls.processPendingMessages task.id infoId agentServerUrl sessionApiKey
          ⟨[.yielded (readied task infoId), .step (!processed.isOk)], readied task infoId,
            processed⟩ := by
  rw [announceReady]
  cases truthy sandbox.sessionApiKey with
  | none => rfl
  | some sessionApiKey => rfl

/-- The states before the success hold neither the success nor an error. -/
theorem underway_open : .ready ∉ underway ∧ .error ∉ underway := by decide

section
variable (task : AppConversationStartTask υ) (working : task.status = .working)
  (unnamed : task.appConversationId = none)
include working unnamed

variable (middle : Course String (AppConversationStartTask υ) (SandboxInfo × String × υ))

/-- A start that raises before the success ends with the error. -/
theorem broken_ends (text : String)
    (follows : Follows AppConversationStartTask.status (Unnamed task.id) underway middle)
    (raised : middle.outcome = .error text) :
    EndsOnce (.step false :: .yielded task :: middle.happenings ++
      [.yielded (failed middle.item text)]) := by
  obtain ⟨shorter, broke⟩ := follows.broken text raised
  have shown : statuses (.step false :: .yielded task :: middle.happenings ++
      [.yielded (failed middle.item text)]) =
      .working :: statuses middle.happenings ++ [.error] := by
    simp [statuses, yields, working, failed]
  refine ⟨.inr (.inr ?_), ?_, ?_⟩
  · refine ⟨(statuses middle.happenings).length + 1, by omega, ?_, ?_⟩
    · have := shorter.length_le
      simp only [path, length_append, length_cons, length_nil, statuses] at this ⊢
      omega
    · have cut : statuses middle.happenings = underway.take (statuses middle.happenings).length :=
        prefix_iff_eq_take.mp shorter
      have few : (statuses middle.happenings).length ≤ underway.length := shorter.length_le
      have shape : path = .working :: (underway ++ [.ready]) := rfl
      rw [shown, shape, take_succ_cons, take_append_of_le_length few, ← cut]
  · obtain ⟨before, after, split⟩ := append_of_mem broke
    refine iff_of_true (by rw [shown]; simp) ⟨.step false :: .yielded task :: before,
      after ++ [.yielded (failed middle.item text)], by simp [split], by simp [yields], ?_⟩
    intro member
    have unready : AppConversationStartTaskStatus.ready ∈ statuses before := by
      simpa [statuses, yields, working] using member
    apply underway_open.1
    apply shorter.subset
    rw [split, yields_append, map_append]
    exact mem_append_left _ unready
  · intro other member identified
    have nameless : other.appConversationId = none := by
      simp only [yields, yields_append, cons_append, mem_cons, mem_append] at member
      rcases member with rfl | earlier | rfl | ⟨⟨⟩⟩
      · exact unnamed
      · exact (follows.yields_kept other earlier).2
      · exact follows.item_kept.2
    simp [nameless] at identified

/-- A start that succeeds and in which nothing raises later ends with the success. -/
theorem ready_ends (infoId : υ)
    (follows : Follows AppConversationStartTask.status (Unnamed task.id) underway middle)
    (passed : middle.outcome = .ok result) (quiet : List (Happening (AppConversationStartTask υ)))
    (silent : quiet = [] ∨ quiet = [.step false]) :
    EndsOnce (.step false :: .yielded task :: middle.happenings ++
      (.yielded (readied middle.item infoId) :: quiet)) := by
  obtain ⟨carried, calm⟩ := follows.completed result passed
  have still : yields quiet = [] := by
    rcases silent with rfl | rfl <;> rfl
  have shown : statuses (.step false :: .yielded task :: middle.happenings ++
      (.yielded (readied middle.item infoId) :: quiet)) = path := by
    simp [statuses, yields, working, readied, still, path, carried]
  refine ⟨.inr (.inl shown), ?_, ?_⟩
  · refine iff_of_false (by rw [shown]; decide) ?_
    rintro ⟨before, after, split, -, -⟩
    have raised : Happening.step true ∈ (.step false :: .yielded task :: middle.happenings ++
        (.yielded (readied middle.item infoId) :: quiet)) := by
      rw [split]
      exact mem_append_right _ (.head _)
    rcases silent with rfl | rfl
    · simp [calm] at raised
    · simp [calm] at raised
  · intro other member identified
    simp only [yields, yields_append, still, cons_append, mem_cons, mem_append,
      not_mem_nil, or_false] at member
    rcases member with rfl | earlier | rfl
    · simp [unnamed] at identified
    · simp [(follows.yields_kept other earlier).2] at identified
    · rfl

omit working unnamed in
/-- An error after the success names the conversation, and ends the start a second time. -/
theorem error_after_ready (before : List (Happening (AppConversationStartTask υ)))
    (infoId : υ) (text : String) :
    ¬ EndsOnce (before ++ [.yielded (failed (readied task infoId) text)]) := by
  intro ends
  have named := ends.named (failed (readied task infoId) text) (by simp [yields]) rfl
  cases named

end

/-- The task is yielded first without a conversation. -/
theorem start_task_fresh (request : AppConversationStartRequest υ) (task : AppConversationStartTask υ)
    (started : startTask platform calls request = .ok task) :
    task.id = calls.taskId ∧ task.status = .working ∧ task.appConversationId = none := by
  obtain ⟨userId, _, inheriting⟩ := bind_eq_ok _ _ started
  obtain ⟨inherited, _, applying⟩ := bind_eq_ok _ _ inheriting
  obtain ⟨applied, _, made⟩ := bind_eq_ok _ _ applying
  cases made
  exact ⟨rfl, rfl, rfl⟩

/-- A start ends in exactly one final state unless it succeeds in a sandbox with a key and the
processing of the messages that waited raises. -/
theorem start_ends_exact (request : AppConversationStartRequest υ) :
    EndsOnce (startAppConversation platform calls request) ↔
      ∀ task, startTask platform calls request = .ok task → ∀ sandbox agentServerUrl infoId,
          Passes platform calls task.request sandbox agentServerUrl infoId →
            ∀ sessionApiKey, truthy sandbox.sessionApiKey = some sessionApiKey →
              calls.processPendingMessages task.id infoId agentServerUrl sessionApiKey = .ok () := by
  rw [startAppConversation]
  cases started : startTask platform calls request with
  | error text =>
    refine iff_of_true ⟨.inl rfl, iff_of_false (by simp [statuses, yields]) ?_, ?_⟩ (by rintro task ⟨⟩)
    · rintro ⟨before, after, split, begun, -⟩
      have none := congrArg yields split
      rw [yields_append] at none
      exact begun (List.append_eq_nil_iff.mp none.symm).1
    · rintro other ⟨⟩
  | ok task =>
    obtain ⟨-, working, unnamed⟩ := start_task_fresh _ _ _ _ started
    have follows := until_ready_announces platform calls task.id task ⟨rfl, unnamed⟩
    simp only [guarded_happenings]
    cases outcome : (untilReady platform calls task).outcome with
    | error text =>
      rw [attempt_broken _ _ _ _ outcome]
      refine iff_of_true (broken_ends _ working unnamed _ _ follows outcome) ?_
      rintro other ⟨⟩ sandbox agentServerUrl infoId passes
      rw [(until_ready_outcome ..).mpr passes]
        at outcome
      cases outcome
    | ok result =>
      obtain ⟨sandbox, agentServerUrl, infoId⟩ := result
      have same : (untilReady platform calls task).item.id = task.id := follows.item_kept.1
      rw [attempt_ready _ _ outcome, announce_ready]
      cases key : truthy sandbox.sessionApiKey with
      | none =>
        simp only [List.append_nil]
        refine iff_of_true
          (ready_ends _ working unnamed _ _ follows outcome [] (.inl rfl)) ?_
        rintro other ⟨⟩ otherSandbox otherUrl otherId passes sessionApiKey known
        cases passes_unique _ _ outcome passes
        rw [key] at known
        cases known
      | some sessionApiKey =>
        simp only [same]
        cases processed :
            calls.processPendingMessages task.id infoId agentServerUrl sessionApiKey with
        | ok value =>
          simp only [List.append_nil]
          refine iff_of_true
            (ready_ends _ working unnamed _ _ follows outcome _ (.inr rfl)) ?_
          rintro other ⟨⟩ otherSandbox otherUrl otherId passes otherKey known
          cases passes_unique _ _ outcome passes
          rw [key] at known
          cases known
          exact processed
        | error text =>
          refine iff_of_false ?_ ?_
          · rw [← List.cons_append]
            exact error_after_ready _ _ _ _
          · intro always
            have passes := (until_ready_outcome ..).mp outcome
            rw [always task rfl sandbox agentServerUrl infoId passes sessionApiKey key] at processed
            cases processed

/-- Identifiers that are numbers, and no metrics. -/
def numbered : Platform Nat where
  readUuid _ := none
  text id := String.ofList (Nat.toDigits 10 id)
  hex id := String.ofList (Nat.toDigits 16 id)
  defaultMetrics := ⟨0, none, none⟩
  defaultUsage := ⟨0, 0, 0, 0, 0, 0⟩
  readMetrics _ := none

/-- A running sandbox with an agent server and a key. -/
def runningSandbox : SandboxInfo where
  id := "sandbox"
  sandboxSpecId := "spec"
  status := .running
  sessionApiKey := some "key"
  exposedUrls := some [⟨"AGENT_SERVER", "http://sandbox:8000"⟩]

/-- Every call succeeds but the last one, which works on the waiting messages. -/
def lockedAtTheEnd : Calls Nat where
  userId := .ok none
  appConversationInfo _ := .ok none
  promptForTask _ := .ok ""
  taskId := 1
  now := 0
  runningSandbox := .ok (some runningSandbox)
  startSandbox _ := .ok runningSandbox
  requestedSandbox _ := .ok (some runningSandbox)
  resumeSandbox _ := .ok true
  waitForSandboxRunning _ := .ok runningSandbox
  sandbox _ := .ok (some runningSandbox)
  replaceLocalhostHostname url := url
  sandboxSpec _ := .ok (some ⟨"/workspace"⟩)
  conversationId := 2
  sandboxGroupingStrategy := .ok .noGrouping
  cloneOrInitGitRepo _ _ := .ok ()
  maybeRunSetupScript _ _ := .ok ()
  maybeSetupGitHooks _ _ := .ok ()
  loadAndMergeAllSkills _ _ _ _ := .ok ()
  buildStartConversationRequest _ _ _ _ := .ok ⟨"model"⟩
  post _ _ _ := .ok ⟨201, ""⟩
  raiseForStatus _ := .ok ()
  validate _ := .ok 2
  userIdAtEnd := .ok none
  infoCreatedAt := 0
  saveAppConversationInfo _ := .ok ()
  saveEventCallback _ _ _ := .ok ()
  securityAnalyzer := .ok none
  setSecurityAnalyzer _ _ _ _ := .ok ()
  processPendingMessages _ _ _ _ := .error "database is locked"

/-- Such a start is ready, and in error after that. -/
theorem ready_then_error : ¬ EndsOnce (startAppConversation numbered lockedAtTheEnd {}) := by
  intro ends
  have last : (yields (startAppConversation numbered lockedAtTheEnd {})).getLast? = some
      { id := 1, createdByUserId := none, status := .error, detail := some "database is locked"
        appConversationId := some 2, sandboxId := some "sandbox"
        agentServerUrl := some "http://sandbox:8000", request := {}, createdAt := 0
        updatedAt := 0 } := rfl
  have named := ends.named _ (List.mem_of_getLast? last) rfl
  cases named

end ForgePilot.ConversationStart
