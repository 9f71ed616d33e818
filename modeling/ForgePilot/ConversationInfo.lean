import ForgePilot.OrderedDict

/-!
# Conversation metadata with owners

Conversation metadata are rows keyed by the conversation identifier. In the hosted
deployment a second table records the user and the organisation a conversation
belongs to. Reading is filtered by that record; saving writes and commits the row
first and compares the record afterwards. The webhook of a sandbox reads what is
visible to the owner of the sandbox, takes a stub when nothing is, and saves.

Identifiers, and the models of the software development kit that hold metrics, are
parameters. Timestamps are instants, amounts are only copied. A commit either
succeeds or fails on a foreign key; lost connections are not modelled.
-/

namespace ForgePilot.Conversations

/-- The hosting services of repositories. -/
inductive ProviderType where
  | github | gitlab | bitbucket | bitbucketDataCenter | forgejo | azureDevops | enterpriseSso
deriving DecidableEq

/-- The stored spelling of a hosting service. -/
def ProviderType.value : ProviderType → String
  | .github => "github"
  | .gitlab => "gitlab"
  | .bitbucket => "bitbucket"
  | .bitbucketDataCenter => "bitbucket_data_center"
  | .forgejo => "forgejo"
  | .azureDevops => "azure_devops"
  | .enterpriseSso => "enterprise_sso"

/-- Read a hosting service; other spellings are refused. -/
def ProviderType.ofValue (value : String) : Option ProviderType :=
  [ProviderType.github, .gitlab, .bitbucket, .bitbucketDataCenter, .forgejo, .azureDevops,
    .enterpriseSso].find? (fun provider => provider.value = value)

inductive ConversationTrigger where
  | resolver | gui | suggestedTask | remoteApiKey | slack | microagentManagement
  | jira | jiraDc | linear | bitbucket | automation
deriving DecidableEq

/-- The stored spelling of a trigger. -/
def ConversationTrigger.value : ConversationTrigger → String
  | .resolver => "resolver"
  | .gui => "gui"
  | .suggestedTask => "suggested_task"
  | .remoteApiKey => "openhands_api"
  | .slack => "slack"
  | .microagentManagement => "microagent_management"
  | .jira => "jira"
  | .jiraDc => "jira_dc"
  | .linear => "linear"
  | .bitbucket => "bitbucket"
  | .automation => "automation"

/-- Read a trigger; other spellings are refused. -/
def ConversationTrigger.ofValue (value : String) : Option ConversationTrigger :=
  [ConversationTrigger.resolver, .gui, .suggestedTask, .remoteApiKey, .slack,
    .microagentManagement, .jira, .jiraDc, .linear, .bitbucket, .automation].find?
      (fun trigger => trigger.value = value)

structure TokenUsage where
  promptTokens : Int
  completionTokens : Int
  cacheReadTokens : Int
  cacheWriteTokens : Int
  contextWindow : Int
  perTurnToken : Int

/-- Accumulated cost and tokens. -/
structure MetricsSnapshot where
  accumulatedCost : Float
  maxBudgetPerTask : Option Float
  accumulatedTokenUsage : Option TokenUsage

/-- What is known about a conversation. -/
structure AppConversationInfo (υ : Type) where
  id : υ
  createdByUserId : Option String
  sandboxId : String
  selectedRepository : Option String := none
  selectedBranch : Option String := none
  gitProvider : Option ProviderType := none
  title : Option String := none
  trigger : Option ConversationTrigger := none
  prNumber : List Int := []
  llmModel : Option String := none
  metrics : Option MetricsSnapshot := none
  parentConversationId : Option υ := none
  subConversationIds : List υ := []
  isPublic : Option Bool := none
  tags : OrderedDict String String := .empty
  createdAt : Nat
  updatedAt : Nat

/-- A row of the metadata table, without its key. -/
structure StoredConversationMetadata where
  selectedRepository : Option String
  selectedBranch : Option String
  gitProvider : Option String
  title : Option String
  lastUpdatedAt : Nat
  createdAt : Nat
  trigger : Option String
  prNumber : List Int
  accumulatedCost : Option Float
  promptTokens : Option Int
  completionTokens : Option Int
  totalTokens : Option Int
  maxBudgetPerTask : Option Float
  cacheReadTokens : Option Int
  cacheWriteTokens : Option Int
  reasoningTokens : Option Int
  contextWindow : Option Int
  perTurnToken : Option Int
  llmModel : Option String
  conversationVersion : String
  sandboxId : Option String
  parentConversationId : Option String
  isPublic : Option Bool
  tags : Option (OrderedDict String String)

/-- The owner of a conversation. -/
structure StoredConversationMetadataSaas (υ : Type) where
  userId : υ
  orgId : υ
deriving DecidableEq

/-- A user, of which only the current organisation matters here. -/
structure User (υ : Type) where
  currentOrgId : υ

structure Database (υ : Type) where
  metadata : OrderedDict String StoredConversationMetadata
  saas : String → Option (StoredConversationMetadataSaas υ)
  users : υ → Option (User υ)
  orgs : υ → Bool

/-- Identifiers and the models that hold metrics. -/
structure Platform (υ : Type) where
  readUuid : String → Option υ
  text : υ → String
  hex : υ → String
  defaultMetrics : MetricsSnapshot
  defaultUsage : TokenUsage
  readMetrics : StoredConversationMetadata → Option MetricsSnapshot

/-- Whom a request is served for: a specified user, an authenticated one, or one
on whose behalf an integration works. -/
inductive UserContext (υ : Type) where
  | specify (userId : Option String)
  | auth (userId : Option String) (apiKeyOrgId : Option υ)
  | resolver (userId : Option String) (resolverOrgId : Option υ)

variable {υ : Type} [DecidableEq υ] (platform : Platform υ)

/-- A text unless it is empty. -/
def truthy (text : Option String) : Option String := text.filter (· ≠ "")

namespace UserContext

/-- The context without a user. -/
def admin : UserContext υ := .specify none

/-- Whether the context is the one without a user. -/
def isAdmin : UserContext υ → Bool
  | .specify none => true
  | _ => false

def getUserId : UserContext υ → Option String
  | .specify userId => userId
  | .auth userId _ => userId
  | .resolver userId _ => userId

/-- The organisation of a call: the one of the integration, else the one of the
interface key, else the current one of the user. -/
def orgId (context : UserContext υ) (user : User υ) : υ :=
  match context with
  | .specify _ => user.currentOrgId
  | .auth _ apiKeyOrgId => apiKeyOrgId.getD user.currentOrgId
  | .resolver _ resolverOrgId => resolverOrgId.getD user.currentOrgId

end UserContext

/-! ## Saving -/

/-- The row that is written for a conversation over the one that is there: the
reasoning tokens are not set and keep their value. -/
def merged (info : AppConversationInfo υ) (existing : Option StoredConversationMetadata) :
    StoredConversationMetadata :=
  let metrics := info.metrics.getD platform.defaultMetrics
  let usage := metrics.accumulatedTokenUsage.getD platform.defaultUsage
  { selectedRepository := info.selectedRepository
    selectedBranch := info.selectedBranch
    gitProvider := info.gitProvider.map ProviderType.value
    title := info.title
    lastUpdatedAt := info.updatedAt
    createdAt := info.createdAt
    trigger := info.trigger.map ConversationTrigger.value
    prNumber := info.prNumber
    accumulatedCost := some metrics.accumulatedCost
    promptTokens := some usage.promptTokens
    completionTokens := some usage.completionTokens
    totalTokens := some 0
    maxBudgetPerTask := metrics.maxBudgetPerTask
    cacheReadTokens := some usage.cacheReadTokens
    cacheWriteTokens := some usage.cacheWriteTokens
    reasoningTokens :=
      match existing with
      | none => some 0
      | some row => row.reasoningTokens
    contextWindow := some usage.contextWindow
    perTurnToken := some usage.perTurnToken
    llmModel := info.llmModel
    conversationVersion := "V1"
    sandboxId := some info.sandboxId
    parentConversationId := info.parentConversationId.map platform.text
    isPublic := info.isPublic
    tags := if info.tags.entries = [] then none else some info.tags }

/-- Write and commit the row of a conversation. -/
def saveBase (info : AppConversationInfo υ) (database : Database υ) : Database υ :=
  let key := platform.text info.id
  { database with
    metadata := database.metadata.set key (merged platform info (database.metadata.get key)) }

/-- How saving fails. -/
inductive SaveError where
  | badUserId | assertion | integrity
deriving DecidableEq

/-- The user a conversation is saved for: the one of the context, else the one that
is said to have created it. -/
def callerOf (context : UserContext υ) (info : AppConversationInfo υ) : Option String :=
  (truthy context.getUserId).or (truthy info.createdByUserId)

/-- Save a conversation and its owner. -/
def saveAppConversationInfo (context : UserContext υ) (info : AppConversationInfo υ)
    (database : Database υ) : Database υ × Except SaveError (AppConversationInfo υ) :=
  let key := platform.text info.id
  let written := saveBase platform info database
  match callerOf context info with
  | none => (written, .ok info)
  | some userIdStr =>
      match platform.readUuid userIdStr with
      | none => (written, .error .badUserId)
      | some userId =>
          match written.users userId with
          | none => (written, .error .assertion)
          | some user =>
              match written.saas key with
              | some existing =>
                  if existing.userId = userId ∧ existing.orgId = context.orgId user then
                    (written, .ok info)
                  else (written, .error .assertion)
              | none =>
                  if written.orgs (context.orgId user) then
                    ({ written with
                       saas := fun other =>
                         if other = key then some ⟨userId, context.orgId user⟩
                         else written.saas other }, .ok info)
                  else (written, .error .integrity)

/-! ## Reading -/

/-- Which records a context may see; `none` when it may not ask. -/
def accessFilter (context : UserContext υ) (database : Database υ) :
    Option (StoredConversationMetadataSaas υ → Bool) :=
  if context.isAdmin then some (fun _ => true)
  else
    match truthy context.getUserId with
    | none => none
    | some userIdStr =>
        match platform.readUuid userIdStr with
        | none => none
        | some userId =>
            match database.users userId with
            | none => some (fun record => record.userId = userId)
            | some user =>
                some (fun record => record.userId = userId ∧ record.orgId = user.currentOrgId)

/-- Whether a row is selected, with its record. -/
def selected (visible : StoredConversationMetadataSaas υ → Bool) (database : Database υ)
    (key : String) (row : StoredConversationMetadata) :
    Option (StoredConversationMetadataSaas υ) :=
  if row.conversationVersion = "V1" then (database.saas key).filter visible else none

/-- The conversations below another one; `none` when an identifier cannot be read. -/
def subConversationIds (visible : StoredConversationMetadataSaas υ → Bool)
    (database : Database υ) (parent : String) : Option (List υ) :=
  (database.metadata.entries.filter (fun entry =>
    entry.2.parentConversationId = some parent ∧
      (selected visible database entry.1 entry.2).isSome)).mapM (fun entry =>
        platform.readUuid entry.1)

/-- Read a row; `none` when a value cannot be read. -/
def toInfo (key : String) (row : StoredConversationMetadata)
    (record : StoredConversationMetadataSaas υ) (children : List υ) :
    Option (AppConversationInfo υ) := do
  let sandboxId ← row.sandboxId
  let metrics ← platform.readMetrics row
  let id ← platform.readUuid key
  let gitProvider ← (truthy row.gitProvider).mapM ProviderType.ofValue
  let trigger ← (truthy row.trigger).mapM ConversationTrigger.ofValue
  let parentConversationId ← (truthy row.parentConversationId).mapM platform.readUuid
  return {
    id
    createdByUserId := some (platform.text record.userId)
    sandboxId
    selectedRepository := row.selectedRepository
    selectedBranch := row.selectedBranch
    gitProvider
    title := row.title
    trigger
    prNumber := row.prNumber
    llmModel := row.llmModel
    metrics := some metrics
    parentConversationId
    subConversationIds := children
    isPublic := row.isPublic
    tags := row.tags.getD .empty
    createdAt := row.createdAt
    updatedAt := row.lastUpdatedAt }

/-- The conversation a context sees under an identifier: an exception, nothing, or
the conversation. -/
def getAppConversationInfo (context : UserContext υ) (id : υ) (database : Database υ) :
    Option (Option (AppConversationInfo υ)) := do
  let key := platform.text id
  let visible ← accessFilter platform context database
  match database.metadata.get key with
  | none => return none
  | some row =>
      match selected visible database key row with
      | none => return none
      | some record =>
          let children ← subConversationIds platform visible database key
          let info ← toInfo platform key row record children
          return some info

/-! ## The webhook -/

structure SandboxInfo where
  id : String
  createdByUserId : Option String

/-- What a sandbox reports about a conversation. -/
structure ConversationInfo (υ : Type) where
  id : υ
  deleting : Bool
  tags : Option (OrderedDict String String)
  llmModel : String
  combinedMetrics : MetricsSnapshot

/-- The time a record is created and the time it is updated. -/
structure Instants where
  createdAt : Nat
  updatedAt : Nat

/-- Incoming tags override existing ones. -/
def mergeConversationTags (existing incoming : Option (OrderedDict String String)) :
    OrderedDict String String :=
  (incoming.getD .empty).entries.foldl (fun tags entry => tags.set entry.1 entry.2)
    (existing.getD .empty)

/-- Tags of automations set the trigger when there is none. -/
def detectAutomationTrigger (currentTrigger : Option ConversationTrigger)
    (mergedTags : OrderedDict String String) : Option ConversationTrigger :=
  match currentTrigger with
  | some trigger => some trigger
  | none =>
      if ["automationtrigger", "automationid", "automationrunid"].any (fun tag =>
          (truthy (mergedTags.get tag)).isSome) then some .automation
      else none

/-- What stands for a conversation that is not found. -/
def stub (id : υ) (sandbox : SandboxInfo) (instants : Instants) : AppConversationInfo υ where
  id
  sandboxId := sandbox.id
  createdByUserId := sandbox.createdByUserId
  createdAt := instants.createdAt
  updatedAt := instants.updatedAt

/-- The conversation of a webhook: what the owner of the sandbox sees, a stub when
that is nothing, and an exception when it was created by someone else. -/
def validConversation (id : υ) (sandbox : SandboxInfo) (instants : Instants)
    (context : UserContext υ) (database : Database υ) : Option (AppConversationInfo υ) := do
  let found ← getAppConversationInfo platform context id database
  match found with
  | none => return stub id sandbox instants
  | some info =>
      if info.createdByUserId ≠ sandbox.createdByUserId then none else some info

/-- What the webhook saves. -/
def reported (conversation : ConversationInfo υ) (sandbox : SandboxInfo) (instants : Instants)
    (existing : AppConversationInfo υ) : AppConversationInfo υ :=
  let mergedTags := mergeConversationTags (some existing.tags) conversation.tags
  { id := conversation.id
    title := some ((truthy existing.title).getD ("Conversation " ++ platform.hex conversation.id))
    sandboxId := sandbox.id
    createdByUserId := sandbox.createdByUserId
    llmModel := some conversation.llmModel
    selectedRepository := existing.selectedRepository
    selectedBranch := existing.selectedBranch
    gitProvider := existing.gitProvider
    trigger := detectAutomationTrigger existing.trigger mergedTags
    prNumber := existing.prNumber
    parentConversationId := existing.parentConversationId
    metrics := some conversation.combinedMetrics
    tags := mergedTags
    createdAt := instants.createdAt
    updatedAt := instants.updatedAt }

/-- A report of a sandbox about a conversation. The sandbox is the one of the session
key, if any; requests are served for its owner. Returns whether it succeeds. -/
def onConversationUpdate (conversation : ConversationInfo υ) (sandbox : Option SandboxInfo)
    (instants : Instants) (database : Database υ) : Database υ × Bool :=
  match sandbox with
  | none => (database, false)
  | some sandbox =>
      match truthy sandbox.createdByUserId with
      | none => (database, false)
      | some owner =>
          match validConversation platform conversation.id sandbox instants
              (.specify (some owner)) database with
          | none => (database, false)
          | some existing =>
              if conversation.deleting then (database, true)
              else
                match saveAppConversationInfo platform (.specify (some owner))
                    (reported platform conversation sandbox instants existing) database with
                | (after, .ok _) => (after, true)
                | (after, .error _) => (after, false)

end ForgePilot.Conversations
