import ForgePilot.Characters
import ForgePilot.Ciphers

/-!
# The tables of a user

The settings of a user were one row. They are now spread over three: what belongs to the
user, what belongs to the organisation, and what belongs to the membership. Seven more tables say to which
organisation their rows belong.

Rows carry the columns that the migration, the downgrade and the settings store read or write.
Identifiers are canonical, so that the identifier of a user is that of the personal organisation;
a column of JSON has a type of its own. The keys in the settings row are encrypted by one cipher,
those of an organisation and a membership by another one that also encrypts that there is no key.
-/

namespace ForgePilot.UserTables

open Ciphers

/-! ## Rows -/

structure UserSettings (γ : Type) where
  id : Nat
  keycloakUserId : Option String
  language : Option String
  agent : Option String
  maxIterations : Option Int
  securityAnalyzer : Option String
  confirmationMode : Option Bool
  llmModel : Option String
  llmApiKey : Option String
  llmApiKeyForByor : Option String
  llmBaseUrl : Option String
  remoteRuntimeResourceFactor : Option Int
  enableDefaultCondenser : Bool
  condenserMaxSize : Option Int
  userConsentsToAnalytics : Option Bool
  billingMargin : Option Rat
  enableSoundNotifications : Option Bool
  enableProactiveConversationStarters : Bool
  sandboxBaseContainerImage : Option String
  sandboxRuntimeContainerImage : Option String
  sandboxGroupingStrategy : Option String
  userVersion : Int
  acceptedTos : Option Nat
  mcpConfig : Option γ
  disabledSkills : Option γ
  searchApiKey : Option String
  sandboxApiKey : Option String
  maxBudgetPerTask : Option Rat
  enableSolvabilityAnalysis : Option Bool
  email : Option String
  emailVerified : Option Bool
  gitUserName : Option String
  gitUserEmail : Option String
  v1Enabled : Option Bool
  alreadyMigrated : Option Bool
deriving DecidableEq

/-- An organisation; its two keys are encrypted. -/
structure Org (γ : Type) where
  id : String
  name : String
  agent : Option String
  defaultMaxIterations : Option Int
  securityAnalyzer : Option String
  confirmationMode : Option Bool
  defaultLlmModel : Option String
  defaultLlmBaseUrl : Option String
  remoteRuntimeResourceFactor : Option Int
  enableDefaultCondenser : Bool
  billingMargin : Option Rat
  enableProactiveConversationStarters : Bool
  sandboxBaseContainerImage : Option String
  sandboxRuntimeContainerImage : Option String
  orgVersion : Int
  mcpConfig : Option γ
  searchApiKeyColumn : Option String
  sandboxApiKeyColumn : Option String
  maxBudgetPerTask : Option Rat
  enableSolvabilityAnalysis : Option Bool
  v1Enabled : Option Bool
  condenserMaxSize : Option Int
  byorExportEnabled : Bool
  sandboxGroupingStrategy : Option String
deriving DecidableEq

structure User (γ : Type) where
  id : String
  currentOrgId : String
  acceptedTos : Option Nat
  enableSoundNotifications : Option Bool
  language : Option String
  userConsentsToAnalytics : Option Bool
  email : Option String
  emailVerified : Option Bool
  gitUserName : Option String
  gitUserEmail : Option String
  sandboxGroupingStrategy : Option String
  disabledSkills : Option γ
deriving DecidableEq

/-- A membership; its keys are encrypted. -/
structure OrgMember (γ : Type) where
  orgId : String
  userId : String
  roleId : Nat
  llmApiKeyColumn : String
  maxIterations : Option Int
  llmModel : Option String
  llmApiKeyForByorColumn : Option String
  llmBaseUrl : Option String
  status : Option String
  mcpConfig : Option γ
deriving DecidableEq

structure ConversationMetadata where
  conversationId : String
  userId : Option String
deriving DecidableEq

structure ConversationMetadataSaas where
  conversationId : String
  userId : String
  orgId : String
deriving DecidableEq

/-- A row that belongs to a user and may belong to an organisation. -/
structure Owned (δ : Type) where
  userId : Option String
  orgId : Option String
  rest : δ
deriving DecidableEq

/-- What else is known of a Stripe customer. -/
structure StripeCustomer where
  id : Nat
  stripeCustomerId : String
  updatedAt : Nat
deriving DecidableEq

inductive BillingStatus where
  | inProgress
  | completed
  | cancelled
  | error
deriving DecidableEq

/-- What else is known of a billing session. -/
structure BillingSession where
  id : String
  status : BillingStatus
deriving DecidableEq

structure Database (γ : Type) where
  userSettings : List (UserSettings γ)
  orgs : List (Org γ)
  users : List (User γ)
  orgMembers : List (OrgMember γ)
  roles : List (String × Nat)
  conversationMetadata : List ConversationMetadata
  conversationMetadataSaas : List ConversationMetadataSaas
  stripeCustomers : List (Owned StripeCustomer)
  slackUsers : List (Owned Nat)
  slackConversation : List (Owned Nat)
  apiKeys : List (Owned Nat)
  customSecrets : List (Owned Nat)
  billingSessions : List (Owned BillingSession)
deriving DecidableEq

/-! ## Values -/

/-- The environment of the server. -/
structure Config where
  liteLlmApiUrl : String
  litellmDefaultModel : Option String
  defaultV1Enabled : Bool

def personalWorkspaceVersionToModel : List (Int × String) :=
  [(1, "claude-3-5-sonnet-20241022"), (2, "claude-3-7-sonnet-20250219"),
    (3, "claude-sonnet-4-20250514"), (4, "claude-sonnet-4-20250514"), (5, "minimax-m2.5")]

def orgSettingsVersion : Int := 5

/-- A text that counts as given is not empty. -/
def truthy (text : Option String) : Bool := text.any (fun value => value ≠ "")

/-- The model of the latest version, unless another one is configured. -/
def getDefaultLitellmModel (config : Config) : String :=
  match config.litellmDefaultModel with
  | some model => if model = "" then "litellm_proxy/minimax-m2.5" else model
  | none => "litellm_proxy/minimax-m2.5"

/-- What a table is keyed by is encrypted where it is given. -/
def encryptGiven (jwe : Cipher (Option String)) (salt : Nat) (value : Option String) :
    Option String :=
  if truthy value then some (jwe.encrypt salt value) else none

/-- The four keys of a settings row are changed. -/
def UserSettings.mapKeys {γ : Type} (change : String → String → String) (settings : UserSettings γ) :
    UserSettings γ :=
  { settings with
      llmApiKey := settings.llmApiKey.map (change "llm_api_key")
      llmApiKeyForByor := settings.llmApiKeyForByor.map (change "llm_api_key_for_byor")
      searchApiKey := settings.searchApiKey.map (change "search_api_key")
      sandboxApiKey := settings.sandboxApiKey.map (change "sandbox_api_key") }

/-- Decrypt the keys of a settings row that can be decrypted. -/
def UserSettings.decryptLegacyModel {γ : Type} (legacy : Cipher String) (settings : UserSettings γ) :
    UserSettings γ :=
  settings.mapKeys (fun _ value => legacy.opened value)

/-- A database with the keys of its settings rows decrypted. -/
def Database.decrypted {γ : Type} (legacy : Cipher String) (database : Database γ) : Database γ :=
  { database with
      userSettings := database.userSettings.map (UserSettings.decryptLegacyModel legacy) }

inductive Raised where
  | keyError
  | integrityError
  | multipleResultsFound
  | valueError
  | typeError
  | validationError
  | decryptionError
deriving DecidableEq

/-- The key that an encrypted column stands for, if it is not empty. Asking for the key is asking for its
length, which raises where it was encrypted that there is none. -/
def givenKey (jwe : Cipher (Option String)) (text : String) : Except Raised (Option String) :=
  match jwe.decrypt text with
  | none => .error .decryptionError
  | some none => .error .typeError
  | some (some value) => .ok (if value = "" then none else some value)

/-- A key whose column may be empty. -/
def columnKey (jwe : Cipher (Option String)) : Option String → Except Raised (Option String)
  | none => .ok none
  | some text => if text = "" then .ok none else givenKey jwe text

end ForgePilot.UserTables
