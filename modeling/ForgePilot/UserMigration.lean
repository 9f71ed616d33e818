import ForgePilot.UserTables

/-!
# Migration and downgrade of a user

A migration spreads the settings of a user over a new personal organisation, the user and the
membership, and writes the organisation into the rows that belong to the user. A downgrade writes
two keys of the membership back into the settings row, takes the organisation out of the rows
that belong to it, and deletes what the migration has created.

Each is one transaction: a call that raises has no effect. What LiteLLM does with budgets and teams
is left out. It may generate a key where it does not know the one of the settings.
-/

namespace ForgePilot.UserMigration

open Ciphers UserTables

variable {γ : Type} (config : Config) (legacy : Cipher String) (jwe : Cipher (Option String))

/-! ## Custom settings -/

/-- A text without the whitespace around it, unless nothing is left. -/
def stripped (text : Option String) : Option String :=
  text.bind fun value =>
    let inner := String.ofList (Characters.strip value.toList)
    if inner = "" then none else some inner

/-- The part of a name after its last slash. -/
def lastPart (name : String) : String :=
  String.ofList (name.toList.reverse.takeWhile (fun character => character ≠ '/')).reverse

/-- The default model of a version of the settings. -/
def oldDefault (oldUserVersion : Int) : Option String :=
  if oldUserVersion ≠ 0 ∧ oldUserVersion ≤ orgSettingsVersion then
    personalWorkspaceVersionToModel.lookup oldUserVersion
  else none

def hasCustomSettings (userSettings : UserSettings γ) (oldUserVersion : Int) : Bool :=
  let userModel := stripped userSettings.llmModel
  let userBaseUrl := stripped userSettings.llmBaseUrl
  if userBaseUrl.isSome ∧ userBaseUrl ≠ some config.liteLlmApiUrl then true
  else
    match userModel with
    | none => false
    | some model => !((oldDefault oldUserVersion).any (fun base => lastPart model = base))

/-! ## Migration -/

/-- What a migration is given from outside. -/
structure MigrationGiven where
  /-- The mail address of the user. -/
  email : Option String
  /-- The key that LiteLLM generates because it does not know the one of the settings. -/
  generated : Option String
  now : Nat
  salt : String → Nat

/-- A generated key replaces both keys of the settings. -/
def migrateEntries (generated : Option String) (userSettings : UserSettings γ) : UserSettings γ :=
  if truthy userSettings.llmApiKey ∧ userSettings.llmBaseUrl = some config.liteLlmApiUrl then
    match generated with
    | some key => { userSettings with llmApiKey := some key, llmApiKeyForByor := some key }
    | none => userSettings
  else userSettings

def migratedSettings (generated : Option String) (userSettings : UserSettings γ) : UserSettings γ :=
  migrateEntries config generated (userSettings.decryptLegacyModel legacy)

def personalName (userId : String) : String := "user_" ++ userId ++ "_org"

/-- The personal organisation of a user. That the settings are custom sets its model and its version;
the base URL that is meant to be set as well is no column of an organisation. -/
def migratedOrg (userId : String) (completed custom : Bool) (given : MigrationGiven)
    (settings : UserSettings γ) : Org γ where
  id := userId
  name := personalName userId
  agent := settings.agent
  defaultMaxIterations := settings.maxIterations
  securityAnalyzer := settings.securityAnalyzer
  confirmationMode := settings.confirmationMode
  defaultLlmModel := if custom then some (getDefaultLitellmModel config) else settings.llmModel
  defaultLlmBaseUrl := settings.llmBaseUrl
  remoteRuntimeResourceFactor := settings.remoteRuntimeResourceFactor
  enableDefaultCondenser := settings.enableDefaultCondenser
  billingMargin := settings.billingMargin
  enableProactiveConversationStarters := settings.enableProactiveConversationStarters
  sandboxBaseContainerImage := settings.sandboxBaseContainerImage
  sandboxRuntimeContainerImage := settings.sandboxRuntimeContainerImage
  orgVersion := if custom then orgSettingsVersion else settings.userVersion
  mcpConfig := settings.mcpConfig
  searchApiKeyColumn := encryptGiven jwe (given.salt "search_api_key") settings.searchApiKey
  sandboxApiKeyColumn := encryptGiven jwe (given.salt "sandbox_api_key") settings.sandboxApiKey
  maxBudgetPerTask := settings.maxBudgetPerTask
  enableSolvabilityAnalysis := settings.enableSolvabilityAnalysis
  v1Enabled := some (settings.v1Enabled.getD config.defaultV1Enabled)
  condenserMaxSize := settings.condenserMaxSize
  byorExportEnabled := completed
  sandboxGroupingStrategy := settings.sandboxGroupingStrategy

def migratedUser (userId : String) (settings : UserSettings γ) : User γ where
  id := userId
  currentOrgId := userId
  acceptedTos := settings.acceptedTos
  enableSoundNotifications := settings.enableSoundNotifications
  language := settings.language
  userConsentsToAnalytics := settings.userConsentsToAnalytics
  email := settings.email
  emailVerified := settings.emailVerified
  gitUserName := settings.gitUserName
  gitUserEmail := settings.gitUserEmail
  sandboxGroupingStrategy := settings.sandboxGroupingStrategy
  disabledSkills := settings.disabledSkills

/-- The membership of a user; without custom settings it leaves the model and the base URL to the
organisation. -/
def migratedMember (userId : String) (roleId : Nat) (custom : Bool) (given : MigrationGiven)
    (settings : UserSettings γ) : OrgMember γ where
  orgId := userId
  userId := userId
  roleId := roleId
  llmApiKeyColumn := jwe.encrypt (given.salt "llm_api_key") settings.llmApiKey
  maxIterations := settings.maxIterations
  llmModel := if custom then settings.llmModel else none
  llmApiKeyForByorColumn :=
    encryptGiven jwe (given.salt "llm_api_key_for_byor") settings.llmApiKeyForByor
  llmBaseUrl := if custom then settings.llmBaseUrl else none
  status := some "active"
  mcpConfig := settings.mcpConfig

/-- Write an organisation into the rows that belong to a user. -/
def assign {δ : Type} (userId : String) (table : List (Owned δ)) : List (Owned δ) :=
  table.map fun row => if row.userId = some userId then { row with orgId := some userId } else row

/-- Take an organisation out of the rows that belong to it. -/
def release {δ : Type} (orgId : String) (table : List (Owned δ)) : List (Owned δ) :=
  table.map fun row => if row.orgId = some orgId then { row with orgId := none } else row

/-- A Stripe customer that moves to an organisation was updated now. -/
def migrateRow (userId : String) (now : Nat) (row : Owned StripeCustomer) : Owned StripeCustomer :=
  if row.userId = some userId ∧ row.orgId ≠ some userId then
    { row with orgId := some userId, rest := { row.rest with updatedAt := now } }
  else row

/-- Move the Stripe customer of a user to the organisation; there has to be one at most. -/
def migrateCustomer (userId : String) (now : Nat) (table : List (Owned StripeCustomer)) :
    Except Raised (List (Owned StripeCustomer)) :=
  if (table.filter (fun row => row.userId = some userId)).length ≤ 1 then
    .ok (table.map (migrateRow userId now))
  else .error .multipleResultsFound

/-- The rows of the conversations of a user in the table of the organisations. -/
def migratedConversations (userId : String) (table : List ConversationMetadata) :
    List ConversationMetadataSaas :=
  (table.filter (fun row => row.userId = some userId)).map
    (fun row => ⟨row.conversationId, userId, userId⟩)

/-- Write a settings row back. -/
def merge (userSettings : UserSettings γ) (table : List (UserSettings γ)) : List (UserSettings γ) :=
  table.map fun row => if row.id = userSettings.id then userSettings else row

/-- Everything that a migration writes. -/
def migrated (database : Database γ) (userId : String) (userSettings : UserSettings γ)
    (given : MigrationGiven) (roleId : Nat) (customers : List (Owned StripeCustomer)) : Database γ :=
  let settings := migratedSettings config legacy given.generated userSettings
  let custom := hasCustomSettings config settings userSettings.userVersion
  let completed := database.billingSessions.any
    (fun row => row.userId = some userId ∧ row.rest.status = .completed)
  { database with
      userSettings := merge { userSettings with alreadyMigrated := some true } database.userSettings
      orgs := database.orgs ++ [migratedOrg config jwe userId completed custom given settings]
      users := database.users ++ [migratedUser userId settings]
      orgMembers := database.orgMembers ++ [migratedMember jwe userId roleId custom given settings]
      conversationMetadataSaas := database.conversationMetadataSaas ++
        migratedConversations userId database.conversationMetadata
      stripeCustomers := assign userId customers
      slackUsers := assign userId database.slackUsers
      slackConversation := assign userId database.slackConversation
      apiKeys := assign userId database.apiKeys
      customSecrets := assign userId database.customSecrets
      billingSessions := assign userId database.billingSessions }

/-- An organisation with the identifier or the name of the personal one cannot exist already. -/
def orgTaken (database : Database γ) (userId : String) : Bool :=
  database.orgs.any (fun org => org.id = userId ∨ org.name = personalName userId)

/-- Neither can the user, nor a row of the table of the organisations for one of the conversations. -/
def userTaken (database : Database γ) (userId : String) : Bool :=
  database.users.any (fun user => user.id = userId) ||
    (migratedConversations userId database.conversationMetadata).any (fun row =>
      database.conversationMetadataSaas.any (fun other => other.conversationId = row.conversationId))

def migrateUser (database : Database γ) (userId : String) (userSettings : UserSettings γ)
    (given : MigrationGiven) : Except Raised (Database γ) :=
  if given.email = none then .error .keyError
  else if orgTaken database userId then .error .integrityError
  else
    match migrateCustomer userId given.now database.stripeCustomers with
    | .error raised => .error raised
    | .ok customers =>
        match database.roles.lookup "owner" with
        | none => .error .valueError
        | some roleId =>
            if userTaken database userId then .error .integrityError
            else .ok (migrated config legacy jwe database userId userSettings given roleId customers)

/-! ## Downgrade -/

/-- What a downgrade is given from outside. -/
structure DowngradeGiven where
  salt : String → Nat
  /-- The identifier of a new settings row. -/
  newId : Nat

/-- Write a key of the membership into the settings row where it is given. -/
def copyKey (salt : Nat) (stored : Option String) : Option String → Option String
  | some key => some (legacy.encrypt salt key)
  | none => stored

/-- A settings row with the two keys of a membership. -/
def withKeys (given : DowngradeGiven) (key byor : Option String) (userSettings : UserSettings γ) :
    UserSettings γ :=
  { userSettings with
      llmApiKey := copyKey legacy (given.salt "llm_api_key") userSettings.llmApiKey key
      llmApiKeyForByor :=
        copyKey legacy (given.salt "llm_api_key_for_byor") userSettings.llmApiKeyForByor byor }

/-- The settings row of a migrated user with the keys of the membership. -/
def copyKeys (given : DowngradeGiven) (member : OrgMember γ) (userSettings : UserSettings γ) :
    Except Raised (UserSettings γ) := do
  let key ← givenKey jwe member.llmApiKeyColumn
  let byor ← columnKey jwe member.llmApiKeyForByorColumn
  return withKeys legacy given key byor userSettings

/-- The value of a membership, or the default of the organisation. -/
def orDefault {α : Type} (value default : Option α) : Option α := value.or default

/-- A settings row for a user who never had one. -/
def createUserSettingsFromEntities (given : DowngradeGiven) (userId : String) (member : OrgMember γ)
    (user : User γ) (org : Org γ) : Except Raised (UserSettings γ) := do
  let key ← givenKey jwe member.llmApiKeyColumn
  let byor ← columnKey jwe member.llmApiKeyForByorColumn
  let search ← columnKey jwe org.searchApiKeyColumn
  let sandbox ← columnKey jwe org.sandboxApiKeyColumn
  return {
    id := given.newId
    keycloakUserId := some userId
    language := user.language
    agent := org.agent
    maxIterations := orDefault member.maxIterations org.defaultMaxIterations
    securityAnalyzer := org.securityAnalyzer
    confirmationMode := org.confirmationMode
    llmModel := orDefault member.llmModel org.defaultLlmModel
    llmApiKey := key
    llmApiKeyForByor := byor
    llmBaseUrl := orDefault member.llmBaseUrl org.defaultLlmBaseUrl
    remoteRuntimeResourceFactor := org.remoteRuntimeResourceFactor
    enableDefaultCondenser := org.enableDefaultCondenser
    condenserMaxSize := org.condenserMaxSize
    userConsentsToAnalytics := user.userConsentsToAnalytics
    billingMargin := org.billingMargin
    enableSoundNotifications := user.enableSoundNotifications
    enableProactiveConversationStarters := org.enableProactiveConversationStarters
    sandboxBaseContainerImage := org.sandboxBaseContainerImage
    sandboxRuntimeContainerImage := org.sandboxRuntimeContainerImage
    sandboxGroupingStrategy := none
    userVersion := org.orgVersion
    acceptedTos := user.acceptedTos
    mcpConfig := org.mcpConfig
    disabledSkills := none
    searchApiKey := search
    sandboxApiKey := sandbox
    maxBudgetPerTask := org.maxBudgetPerTask
    enableSolvabilityAnalysis := org.enableSolvabilityAnalysis
    email := user.email
    emailVerified := user.emailVerified
    gitUserName := user.gitUserName
    gitUserEmail := user.gitUserEmail
    v1Enabled := org.v1Enabled
    alreadyMigrated := some false }

/-- The keys are decrypted for LiteLLM, and encrypted again unless they still are. -/
def reencrypt (given : DowngradeGiven) (userSettings : UserSettings γ) : UserSettings γ :=
  { (userSettings.decryptLegacyModel legacy).mapKeys
      (fun field value => legacy.closed (given.salt field) value) with alreadyMigrated := some false }

/-- The user of a conversation is that of its row in the table of the organisations. -/
def restoreConversations (userId : String) (saas : List ConversationMetadataSaas)
    (table : List ConversationMetadata) : List ConversationMetadata :=
  table.map fun row =>
    if saas.any (fun other => other.userId = userId ∧ other.conversationId = row.conversationId) then
      { row with userId := some userId }
    else row

/-- Everything that a downgrade writes beside the settings row. -/
def downgraded (database : Database γ) (userId : String) : Database γ :=
  { database with
      orgs := database.orgs.filter (fun org => org.id ≠ userId)
      users := database.users.filter (fun user => user.id ≠ userId)
      orgMembers := database.orgMembers.filter (fun member => member.orgId ≠ userId)
      conversationMetadata :=
        restoreConversations userId database.conversationMetadataSaas database.conversationMetadata
      conversationMetadataSaas :=
        database.conversationMetadataSaas.filter (fun row => row.userId ≠ userId)
      stripeCustomers := release userId database.stripeCustomers
      slackUsers := release userId database.slackUsers
      slackConversation := release userId database.slackConversation
      apiKeys := release userId database.apiKeys
      customSecrets := release userId database.customSecrets
      billingSessions := release userId database.billingSessions }

def findMigrated (database : Database γ) (userId : String) : Option (UserSettings γ) :=
  database.userSettings.find? fun row =>
    row.keycloakUserId = some userId ∧ row.alreadyMigrated = some true

/-- Downgrade a user with a personal organisation and one member; everybody else stays. -/
def downgradeUser (database : Database γ) (userId : String) (given : DowngradeGiven) :
    Except Raised (Database γ × Option (UserSettings γ)) :=
  match database.users.find? (fun user => user.id = userId),
      database.orgs.find? (fun org => org.id = userId) with
  | some user, some org =>
      match database.orgMembers.filter (fun member => member.orgId = org.id) with
      | [member] =>
          match findMigrated database userId with
          | some userSettings => do
              let copied ← copyKeys legacy jwe given member userSettings
              let written := reencrypt legacy given copied
              return ({ downgraded database userId with
                userSettings := merge written database.userSettings }, some written)
          | none => do
              let created ← createUserSettingsFromEntities jwe given userId member user org
              let written := reencrypt legacy given created
              return ({ downgraded database userId with
                userSettings := database.userSettings ++ [written] }, some written)
      | _ => return (database, none)
  | _, _ => return (database, none)

end ForgePilot.UserMigration
