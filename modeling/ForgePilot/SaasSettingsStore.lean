import ForgePilot.UserMigration

/-!
# The settings store of a user

Settings are loaded from the user, from the organisation the user works in, and from the membership;
what the membership does not say is taken from the organisation. They are stored into all
three, and into all memberships of the organisation. Loading brings an organisation of an earlier
version up to date.

Whether the JSON of a column is a configuration of MCP servers, or a list of texts, is left to two
checks. Settings that are stored have passed all checks when they were made; those that are
loaded have to pass them.
-/

namespace ForgePilot.SaasSettingsStore

open Ciphers UserTables UserMigration

/-! ## Settings -/

inductive SandboxGroupingStrategy where
  | noGrouping
  | groupByNewest
  | leastRecentlyUsed
  | fewestConversations
  | addToAny
deriving DecidableEq

namespace SandboxGroupingStrategy

def value : SandboxGroupingStrategy → String
  | noGrouping => "NO_GROUPING"
  | groupByNewest => "GROUP_BY_NEWEST"
  | leastRecentlyUsed => "LEAST_RECENTLY_USED"
  | fewestConversations => "FEWEST_CONVERSATIONS"
  | addToAny => "ADD_TO_ANY"

def parse (text : String) : Option SandboxGroupingStrategy :=
  [noGrouping, groupByNewest, leastRecentlyUsed, fewestConversations, addToAny].find?
    (fun strategy => strategy.value = text)

@[simp] theorem parse_value (strategy : SandboxGroupingStrategy) :
    parse strategy.value = some strategy := by
  cases strategy <;> decide

end SandboxGroupingStrategy

structure Settings (γ : Type) where
  language : Option String
  agent : Option String
  maxIterations : Option Int
  securityAnalyzer : Option String
  confirmationMode : Option Bool
  llmModel : Option String
  llmApiKey : Option String
  llmBaseUrl : Option String
  remoteRuntimeResourceFactor : Option Int
  enableDefaultCondenser : Bool
  enableSoundNotifications : Bool
  enableProactiveConversationStarters : Bool
  enableSolvabilityAnalysis : Bool
  userConsentsToAnalytics : Option Bool
  sandboxBaseContainerImage : Option String
  sandboxRuntimeContainerImage : Option String
  mcpConfig : Option γ
  disabledSkills : Option γ
  searchApiKey : Option String
  sandboxApiKey : Option String
  maxBudgetPerTask : Option Rat
  condenserMaxSize : Option Int
  email : Option String
  emailVerified : Option Bool
  gitUserName : Option String
  gitUserEmail : Option String
  v1Enabled : Bool
  sandboxGroupingStrategy : SandboxGroupingStrategy
deriving DecidableEq

/-- What the JSON of a column has to be. -/
structure Checks (γ : Type) where
  isMcpConfig : γ → Bool
  isSkills : γ → Bool

variable {γ : Type}

/-- Optional values that are checked where they are given. -/
def passes {α : Type} (check : α → Bool) (value : Option α) : Bool := value.all check

def validCondenserMaxSize (size : Option Int) : Bool := passes (fun given => 20 ≤ given) size

/-- Settings that are stored, with the fields that were set explicitly. -/
structure Item (checks : Checks γ) where
  settings : Settings γ
  fieldsSet : List String
  mcpConfig_valid : passes checks.isMcpConfig settings.mcpConfig
  disabledSkills_valid : passes checks.isSkills settings.disabledSkills
  condenserMaxSize_valid : validCondenserMaxSize settings.condenserMaxSize

variable (checks : Checks γ) (config : Config) (legacy : Cipher String)
  (jwe : Cipher (Option String))

/-! ## Loading -/

/-- Bring an organisation of an earlier version up to date. -/
def updateOrg (org : Org γ) : Org γ :=
  { org with
      orgVersion := orgSettingsVersion
      defaultLlmModel := some (getDefaultLitellmModel config) }

/-- The organisation as it is after its version was checked. -/
def validateOrgVersion (org : Org γ) : Org γ :=
  if org.orgVersion < orgSettingsVersion then updateOrg config org else org

/-- Change the organisations with an identifier. -/
def mapOrg (orgId : String) (change : Org γ → Org γ) (database : Database γ) : Database γ :=
  { database with
      orgs := database.orgs.map fun org => if org.id = orgId then change org else org }

/-- A membership's text where it is not empty, or that of the organisation. -/
def overridden (value default : Option String) : Option String :=
  if truthy value then value else default

/-- Make settings of the three rows. What is a Boolean in settings has to be known, and the keys of
the organisation stay encrypted. -/
def settingsOf (org : Org γ) (user : User γ) (member : OrgMember γ) (key : String) :
    Except Raised (Settings γ) :=
  match user.enableSoundNotifications, org.enableSolvabilityAnalysis,
      ((user.sandboxGroupingStrategy.getD "NO_GROUPING" |> SandboxGroupingStrategy.parse)) with
  | some enableSoundNotifications, some enableSolvabilityAnalysis, some sandboxGroupingStrategy =>
      let mcpConfig := member.mcpConfig.or org.mcpConfig
      if passes checks.isMcpConfig mcpConfig && passes checks.isSkills user.disabledSkills &&
          validCondenserMaxSize org.condenserMaxSize then
        .ok {
          language := user.language
          agent := org.agent
          maxIterations :=
            if member.maxIterations.any (fun given => given ≠ 0) then member.maxIterations
            else org.defaultMaxIterations
          securityAnalyzer := org.securityAnalyzer
          confirmationMode := org.confirmationMode
          llmModel := overridden member.llmModel org.defaultLlmModel
          llmApiKey := some key
          llmBaseUrl := overridden member.llmBaseUrl org.defaultLlmBaseUrl
          remoteRuntimeResourceFactor := org.remoteRuntimeResourceFactor
          enableDefaultCondenser := org.enableDefaultCondenser
          enableSoundNotifications := enableSoundNotifications
          enableProactiveConversationStarters := org.enableProactiveConversationStarters
          enableSolvabilityAnalysis := enableSolvabilityAnalysis
          userConsentsToAnalytics := user.userConsentsToAnalytics
          sandboxBaseContainerImage := org.sandboxBaseContainerImage
          sandboxRuntimeContainerImage := org.sandboxRuntimeContainerImage
          mcpConfig := mcpConfig
          disabledSkills := user.disabledSkills
          searchApiKey := org.searchApiKeyColumn
          sandboxApiKey := org.sandboxApiKeyColumn
          maxBudgetPerTask := org.maxBudgetPerTask
          condenserMaxSize := org.condenserMaxSize
          email := user.email
          emailVerified := user.emailVerified
          gitUserName := user.gitUserName
          gitUserEmail := user.gitUserEmail
          v1Enabled := org.v1Enabled.getD true
          sandboxGroupingStrategy := sandboxGroupingStrategy }
      else .error .validationError
  | _, _, _ => .error .validationError

/-- The membership of a user in the organisation the user works in. -/
def currentMember (database : Database γ) (user : User γ) : Option (OrgMember γ) :=
  database.orgMembers.find? fun member => member.userId = user.id ∧ member.orgId = user.currentOrgId

/-- Load the settings of a user who was found. -/
def loadFor (database : Database γ) (user : User γ) :
    Database γ × Except Raised (Option (Settings γ)) :=
  match currentMember database user with
  | none => (database, .ok none)
  | some member =>
      match givenKey jwe member.llmApiKeyColumn with
      | .error raised => (database, .error raised)
      | .ok none => (database, .ok none)
      | .ok (some key) =>
          match database.orgs.find? (fun org => org.id = user.currentOrgId) with
          | none => (database, .ok none)
          | some org =>
              (mapOrg org.id (validateOrgVersion config) database, do
                let _ ← columnKey jwe member.llmApiKeyForByorColumn
                let settings ←
                  settingsOf checks (validateOrgVersion config org) user member key
                return some settings)

/-- Find a user; a user who is known from an unmigrated settings row is migrated if there is user
information. -/
def getUserById (database : Database γ) (userId : String) (userInfo : Option MigrationGiven) :
    Except Raised (Database γ × Option (User γ)) :=
  match database.users.find? (fun user => user.id = userId) with
  | some user => .ok (database, some user)
  | none =>
      match database.userSettings.find? (fun row =>
          row.keycloakUserId = some userId ∧ row.alreadyMigrated = some false), userInfo with
      | some userSettings, some given =>
          match migrateUser config legacy jwe database userId userSettings given with
          | .error raised => .error raised
          | .ok after => .ok (after, after.users.find? (fun user => user.id = userId))
      | _, _ => .ok (database, none)

def load (database : Database γ) (userId : String) (userInfo : Option MigrationGiven) :
    Database γ × Except Raised (Option (Settings γ)) :=
  match getUserById config legacy jwe database userId userInfo with
  | .error raised => (database, .error raised)
  | .ok (after, none) => (after, .ok none)
  | .ok (after, some user) => loadFor checks config jwe after user

/-! ## Storing -/

/-- What a store is given from outside. -/
structure StoreGiven where
  /-- LiteLLM knows the key. -/
  verified : Bool
  /-- The key that LiteLLM generates otherwise. -/
  generated : String
  salt : String → Nat
  userInfo : Option MigrationGiven

def isOpenhandsModel (model : Option String) : Bool :=
  model.any (fun name => name.startsWith "openhands/")

/-- Settings that use the proxy need a key that LiteLLM knows. -/
def ensureApiKey (given : StoreGiven) (settings : Settings γ) : Settings γ :=
  if settings.llmBaseUrl = some config.liteLlmApiUrl ∨
      (!truthy settings.llmBaseUrl ∧ isOpenhandsModel settings.llmModel) then
    if truthy settings.llmApiKey && !given.verified then
      { settings with llmApiKey := some given.generated }
    else settings
  else settings

def dumpedKey (key : Option String) : Option String := if (stripped key).isSome then key else none

def writeUser (settings : Settings γ) (user : User γ) : User γ :=
  { user with
      enableSoundNotifications := some settings.enableSoundNotifications
      language := settings.language
      userConsentsToAnalytics := settings.userConsentsToAnalytics
      email := settings.email
      emailVerified := settings.emailVerified
      gitUserName := settings.gitUserName
      gitUserEmail := settings.gitUserEmail
      sandboxGroupingStrategy := some settings.sandboxGroupingStrategy.value
      disabledSkills := settings.disabledSkills }

/-- The configuration of MCP servers is not written into an organisation; the defaults are only where
the field was set. -/
def writeOrg (given : StoreGiven) (settings : Settings γ) (fieldsSet : List String) (org : Org γ) :
    Org γ :=
  { org with
      agent := settings.agent
      securityAnalyzer := settings.securityAnalyzer
      confirmationMode := settings.confirmationMode
      remoteRuntimeResourceFactor := settings.remoteRuntimeResourceFactor
      enableDefaultCondenser := settings.enableDefaultCondenser
      enableProactiveConversationStarters := settings.enableProactiveConversationStarters
      sandboxBaseContainerImage := settings.sandboxBaseContainerImage
      sandboxRuntimeContainerImage := settings.sandboxRuntimeContainerImage
      searchApiKeyColumn :=
        encryptGiven jwe (given.salt "search_api_key") (dumpedKey settings.searchApiKey)
      sandboxApiKeyColumn := encryptGiven jwe (given.salt "sandbox_api_key") settings.sandboxApiKey
      maxBudgetPerTask := settings.maxBudgetPerTask
      enableSolvabilityAnalysis := some settings.enableSolvabilityAnalysis
      v1Enabled := some settings.v1Enabled
      condenserMaxSize := settings.condenserMaxSize
      sandboxGroupingStrategy := some settings.sandboxGroupingStrategy.value
      defaultLlmModel :=
        if "llm_model" ∈ fieldsSet then settings.llmModel else org.defaultLlmModel
      defaultLlmBaseUrl :=
        if "llm_base_url" ∈ fieldsSet then settings.llmBaseUrl else org.defaultLlmBaseUrl
      defaultMaxIterations :=
        if "max_iterations" ∈ fieldsSet then settings.maxIterations else org.defaultMaxIterations }

/-- What is written into the membership of the user. -/
def writeMember (given : StoreGiven) (settings : Settings γ) (member : OrgMember γ) : OrgMember γ :=
  { member with
      llmApiKeyColumn := jwe.encrypt (given.salt "llm_api_key") (dumpedKey settings.llmApiKey)
      maxIterations := settings.maxIterations
      llmModel := settings.llmModel
      llmBaseUrl := settings.llmBaseUrl
      mcpConfig := settings.mcpConfig }

/-- What is then written into all memberships of the organisation, where it is given. -/
def propagate (given : StoreGiven) (settings : Settings γ) (member : OrgMember γ) : OrgMember γ :=
  { member with
      llmModel := settings.llmModel.or member.llmModel
      llmBaseUrl := settings.llmBaseUrl.or member.llmBaseUrl
      maxIterations := settings.maxIterations.or member.maxIterations
      llmApiKeyColumn :=
        match settings.llmApiKey with
        | some key => jwe.encrypt (given.salt "_llm_api_key") (some key)
        | none => member.llmApiKeyColumn }

/-- Store the settings of a user who was found. A user who was just migrated is not attached to the
transaction: what is written into the user and the membership as such is lost. -/
def storeFor (database : Database γ) (user : User γ) (attached : Bool) (given : StoreGiven)
    (item : Item checks) : Database γ × Option Raised :=
  match currentMember database user with
  | none => (database, none)
  | some member =>
      match givenKey jwe member.llmApiKeyColumn with
      | .error raised => (database, some raised)
      | .ok none => (database, none)
      | .ok (some _) =>
          if database.orgs.all (fun org => org.id ≠ user.currentOrgId) then (database, none)
          else
            let settings := ensureApiKey config given item.settings
            let orgId := user.currentOrgId
            let writtenMember := fun other : OrgMember γ =>
              if attached ∧ other.userId = user.id ∧ other.orgId = orgId then
                writeMember jwe given settings other
              else other
            ({ mapOrg orgId (writeOrg jwe given settings item.fieldsSet) database with
                users := database.users.map fun other =>
                  if attached ∧ other.id = user.id then writeUser settings other else other
                orgMembers := database.orgMembers.map fun other =>
                  if other.orgId = orgId then propagate jwe given settings (writtenMember other)
                  else writtenMember other }, none)

/-- Store settings; a user who is only known from a settings row is migrated. -/
def store (database : Database γ) (userId : String) (given : StoreGiven) (item : Item checks) :
    Database γ × Option Raised :=
  match database.users.find? (fun user => user.id = userId) with
  | some user => storeFor checks config jwe database user true given item
  | none =>
      match database.userSettings.find? (fun row => row.keycloakUserId = some userId),
          given.userInfo with
      | some userSettings, some userInfo =>
          match migrateUser config legacy jwe database userId userSettings userInfo with
          | .error raised => (database, some raised)
          | .ok after =>
              match after.users.find? (fun user => user.id = userId) with
              | none => (after, none)
              | some user => storeFor checks config jwe after user false given item
      | _, _ => (database, none)

end ForgePilot.SaasSettingsStore
