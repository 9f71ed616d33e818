import ForgePilot.Attempts

/-!
# Creating and deleting an organisation

An organisation has its rows in the database and a team at the service that bills language
models. Both are changed by one call each after the other: creating makes the team first
and then adds the rows, deleting clears the rows in a transaction, deletes the team and then
commits. Each call of the database or of the service may raise, with its effect or without.

A row carries the columns that the services read or write here; an encrypted column holds
what it decrypts to. Whether an identifier is well formed, and its text, are parameters.
Beside the state it is noted whether deleting a team has failed.
-/

namespace ForgePilot.OrgLifecycle

open Attempts

/-! ## The database -/

structure Org (κ : Type) where
  id : κ
  name : String
  contactName : String
  contactEmail : String
  orgVersion : Nat
  agent : Option String
  defaultLlmModel : String
  defaultLlmBaseUrl : Option String
deriving DecidableEq

structure User (κ : Type) where
  id : κ
  currentOrgId : κ
deriving DecidableEq

structure Role where
  id : Nat
  name : String
deriving DecidableEq

structure OrgMember (κ : Type) where
  orgId : κ
  userId : κ
  roleId : Nat
  llmApiKey : String
  llmModel : String
  llmBaseUrl : Option String
  status : String
deriving DecidableEq

/-- A row of a table whose rows may belong to an organisation. -/
structure OwnedRow (κ : Type) where
  id : Nat
  orgId : Option κ
deriving DecidableEq

/-- The rows of the tables; a conversation stands for its row in the table of all
conversations. -/
structure Database (κ : Type) where
  orgs : List (Org κ)
  users : List (User κ)
  roles : List Role
  orgMembers : List (OrgMember κ)
  conversationMetadata : List String
  conversationMetadataSaas : List (String × κ)
  appConversationStartTasks : List κ
  billingSessions : List (OwnedRow κ)
  customSecrets : List (OwnedRow κ)
  apiKeys : List (OwnedRow κ)
  slackConversations : List (OwnedRow κ)
  slackUsers : List (OwnedRow κ)
  stripeCustomers : List (OwnedRow κ)
deriving DecidableEq

/-! ## The service -/

structure Team (κ : Type) where
  teamId : κ
  teamAlias : String
  maxBudget : Option Int
  members : List String
deriving DecidableEq

structure LiteLlm (κ : Type) where
  teams : List (Team κ)
  users : List String
deriving DecidableEq

/-- The database, the service, and whether deleting a team has failed. -/
structure World (κ : Type) where
  db : Database κ
  liteLlm : LiteLlm κ
  deletionFailed : Bool

structure Config where
  liteLlmApiKey : Option String
  liteLlmApiUrl : Option String
  localDeployment : Bool
  defaultInitialBudget : Option Int
  orgSettingsVersion : Nat
  defaultLlmModel : String

def Config.configured (config : Config) : Bool :=
  config.liteLlmApiKey.isSome && config.liteLlmApiUrl.isSome

/-- What the service raises. -/
inductive OrgError (κ : Type) where
  | orgNameExists (name : String)
  | liteLlmIntegration (message : String)
  | orgDatabase (message : String)
  | orgNotFound (orgId : κ)
  | orgAuthorization (message : String)
  | orphanedUser (userIds : List κ)
  | other (message : String)

variable {κ : Type}

def OrgError.str (text : κ → String) : OrgError κ → String
  | orgNameExists name => "Organization with name \"" ++ name ++ "\" already exists"
  | liteLlmIntegration message => message
  | orgDatabase message => message
  | orgNotFound orgId => "Organization with id \"" ++ text orgId ++ "\" not found"
  | orgAuthorization message => message
  | orphanedUser userIds =>
      "Cannot delete organization: " ++ toString userIds.length ++
        " user(s) would have no remaining organization"
  | other message => message

abbrev Service (κ : Type) := EStateM (OrgError κ) (World κ)

/-- What becomes of a call of the database or of the service: an error of its own. -/
abbrev Call := Outcome String

/-- A call of another system, whose error is passed on. -/
def call (outcome : Call) (effect : World κ → World κ) : Service κ Unit :=
  attempt (outcome.map .other) effect

def query (outcome : Call) : Service κ Unit := call outcome id

/-- A query returns, or raises; the state stays. -/
theorem query_cases (outcome : Call) (world : World κ) :
    (outcome.ok = true ∧ query outcome world = .ok () world) ∨
      (outcome.ok = false ∧ ∃ message, query outcome world = .error (.other message) world) := by
  cases outcome with
  | returns => exact .inl ⟨rfl, rfl⟩
  | raises message applied => exact .inr ⟨rfl, message, by cases applied <;> rfl⟩

/-- A call returns with its effect, or raises with its effect or without. -/
theorem call_cases (outcome : Call) (effect : World κ → World κ) (world : World κ) :
    (outcome.ok = true ∧ outcome.applied = true ∧ call outcome effect world = .ok () (effect world)) ∨
      (outcome.ok = false ∧ ∃ message, call outcome effect world =
        .error (.other message) (if outcome.applied then effect world else world)) := by
  cases outcome with
  | returns => exact .inl ⟨rfl, rfl, rfl⟩
  | raises message applied => exact .inr ⟨rfl, message, rfl⟩

def setDb (db : Database κ) (world : World κ) : World κ := { world with db := db }

def setLiteLlm (liteLlm : LiteLlm κ) (world : World κ) : World κ := { world with liteLlm := liteLlm }

/-! ## Teams -/

variable [DecidableEq κ]

def LiteLlm.hasTeam (liteLlm : LiteLlm κ) (teamId : κ) : Bool :=
  liteLlm.teams.any (fun team => team.teamId = teamId)

def LiteLlm.newTeam (liteLlm : LiteLlm κ) (teamAlias : String) (teamId : κ)
    (maxBudget : Option Int) : LiteLlm κ :=
  { liteLlm with teams := liteLlm.teams ++ [⟨teamId, teamAlias, maxBudget, []⟩] }

def LiteLlm.changeTeam (liteLlm : LiteLlm κ) (teamId : κ) (change : Team κ → Team κ) : LiteLlm κ :=
  { liteLlm with
      teams := liteLlm.teams.map (fun team => if team.teamId = teamId then change team else team) }

/-- Add a member to a team, who may be in it already. -/
def LiteLlm.addMember (liteLlm : LiteLlm κ) (teamId : κ) (userId : String) : LiteLlm κ :=
  liteLlm.changeTeam teamId (fun team =>
    if userId ∈ team.members then team else { team with members := team.members ++ [userId] })

def LiteLlm.removeTeam (liteLlm : LiteLlm κ) (teamId : κ) : LiteLlm κ :=
  { liteLlm with teams := liteLlm.teams.filter (fun team => team.teamId ≠ teamId) }

/-- The calls that create the entries of an organisation at the service. -/
structure EntryCalls where
  getUserInfo : Call
  getTeam : Call
  createTeam : Call
  updateTeam : Call
  userExists : Call
  addUserToTeam : Call
  deleteKeyByAlias : Call
  generateKey : Call
  /-- The key that is generated. -/
  key : String

def callTeams (outcome : Call) (effect : LiteLlm κ → LiteLlm κ) : Service κ Unit :=
  call outcome (fun world => setLiteLlm (effect world.liteLlm) world)

/-- Create a team; one that exists already is refused and updated. -/
def createTeam (calls : EntryCalls) (teamAlias : String) (teamId : κ) (maxBudget : Option Int) :
    Service κ Unit := do
  let world ← get
  if world.liteLlm.hasTeam teamId then
    query calls.createTeam
    callTeams calls.updateTeam (fun liteLlm => liteLlm.changeTeam teamId (fun team =>
      { team with teamAlias := teamAlias, maxBudget := maxBudget.orElse (fun _ => team.maxBudget) }))
  else callTeams calls.createTeam (fun liteLlm => liteLlm.newTeam teamAlias teamId maxBudget)

/-- The user is known to the service; an error counts as not known. -/
def userExists (calls : EntryCalls) (userId : String) : Service κ Bool := do
  let world ← get
  return calls.userExists.ok && world.liteLlm.users.contains userId

def addUserToTeam (calls : EntryCalls) (userId : String) (teamId : κ) : Service κ Unit :=
  callTeams calls.addUserToTeam (fun liteLlm => liteLlm.addMember teamId userId)

/-- Delete a team, where there is one; a failure is noted. -/
def deleteTeam (config : Config) (outcome : Call) (teamId : κ) : Service κ Unit := do
  if config.configured then
    try callTeams outcome (fun liteLlm => liteLlm.removeTeam teamId)
    catch error =>
      modify (fun world => { world with deletionFailed := true })
      throw error

structure Settings where
  agent : String
  llmModel : String
  llmApiKey : String
  llmBaseUrl : Option String

/-- The budget of an existing team, or that of a new one. -/
def teamBudget (config : Config) (liteLlm : LiteLlm κ) (teamId : κ) : Option Int :=
  match liteLlm.teams.find? (fun team => team.teamId = teamId) with
  | some team => team.maxBudget
  | none => config.defaultInitialBudget

/-- Add a user whom the service knows to a team, and make a key for the two. -/
def addKey (calls : EntryCalls) (orgId : κ) (userId : String) : Service κ (Option String) := do
  if ← userExists calls userId then
    addUserToTeam calls userId orgId
    query calls.deleteKeyByAlias
    query calls.generateKey
    return some calls.key
  else return none

/-- Make a team with the budget of the one there is, and a key for it. -/
def addTeam (config : Config) (calls : EntryCalls) (orgId : κ) (userId : String) :
    Service κ (Option String) := do
  query calls.getUserInfo
  query calls.getTeam
  let world ← get
  createTeam calls userId orgId (teamBudget config world.liteLlm orgId)
  addKey calls orgId userId

/-- Create the entries of an organisation at the service; a local deployment has none. -/
def createEntries (config : Config) (calls : EntryCalls) (orgId : κ) (userId : String) :
    Service κ (Option Settings) :=
  match config.liteLlmApiKey, config.liteLlmApiUrl with
  | some apiKey, some apiUrl => do
      let key ← if config.localDeployment then pure (some apiKey)
        else addTeam config calls orgId userId
      return key.map (fun key => ⟨"CodeActAgent", config.defaultLlmModel, key, some apiUrl⟩)
  | _, _ => return none

/-! ## Organisations -/

structure UpdateCalls where
  select : Call
  commit : Call
  refresh : Call

def Database.findOrg (db : Database κ) (orgId : κ) : Option (Org κ) :=
  db.orgs.find? (fun org => org.id = orgId)

/-- Write the version of the settings and the model into the row of an organisation. -/
def Database.upgradeOrg (config : Config) (db : Database κ) (orgId : κ) : Database κ :=
  { db with orgs := db.orgs.map (fun org =>
      if org.id = orgId then
        { org with orgVersion := config.orgSettingsVersion, defaultLlmModel := config.defaultLlmModel }
      else org) }

/-- Update an organisation of an earlier version. -/
def updateOrg (config : Config) (calls : UpdateCalls) (orgId : κ) : Service κ (Option (Org κ)) := do
  query calls.select
  let world ← get
  match world.db.findOrg orgId with
  | none => return none
  | some _ =>
      call calls.commit (fun world => setDb (world.db.upgradeOrg config orgId) world)
      query calls.refresh
      let world ← get
      return world.db.findOrg orgId

/-- Update an organisation that was found, where its version is an earlier one. -/
def validateOrgVersion (config : Config) (calls : UpdateCalls) :
    Option (Org κ) → Service κ (Option (Org κ))
  | none => return none
  | some org =>
      if org.orgVersion < config.orgSettingsVersion then updateOrg config calls org.id
      else return some org

def getOrgByName (config : Config) (select : Call) (calls : UpdateCalls) (name : String) :
    Service κ (Option (Org κ)) := do
  query select
  let world ← get
  validateOrgVersion config calls (world.db.orgs.find? (fun org => org.name = name))

def getOrgById (config : Config) (select : Call) (calls : UpdateCalls) (orgId : κ) :
    Service κ (Option (Org κ)) := do
  query select
  let world ← get
  validateOrgVersion config calls (world.db.findOrg orgId)

/-! ## Creating -/

structure CreateCalls where
  getOrgByName : Call
  update : UpdateCalls
  entries : EntryCalls
  getRoleByName : Call
  commit : Call
  refresh : Call
  deleteTeam : Call

section Creating

variable (config : Config) (text : κ → String) (parseUuid : String → Option κ)
variable (calls : CreateCalls)

def validateNameUniqueness (name : String) : Service κ Unit := do
  match ← getOrgByName config calls.getOrgByName calls.update name with
  | some _ => throw (.orgNameExists name)
  | none => return ()

/-- Create the team of an organisation; any failure is one of the integration. -/
def createLitellmIntegration (orgId : κ) (userId : String) : Service κ Settings :=
  tryCatch
    (do
      match ← createEntries config calls.entries orgId userId with
      | none => throw (.liteLlmIntegration "Failed to create LiteLLM settings")
      | some settings => return settings)
    (fun error => match error with
      | .liteLlmIntegration message => throw (.liteLlmIntegration message)
      | error => throw (.liteLlmIntegration ("LiteLLM integration failed: " ++ error.str text)))

def createOrgEntity (orgId : κ) (name contactName contactEmail : String) : Org κ :=
  ⟨orgId, name, contactName, contactEmail, config.orgSettingsVersion, none,
    config.defaultLlmModel, none⟩

def applyLitellmSettingsToOrg (org : Org κ) (settings : Settings) : Org κ :=
  { org with
      agent := some settings.agent
      defaultLlmModel := settings.llmModel
      defaultLlmBaseUrl := settings.llmBaseUrl }

def getOwnerRole : Service κ Role := do
  query calls.getRoleByName
  let world ← get
  match world.db.roles.find? (fun role => role.name = "owner") with
  | none => throw (.other "Owner role not found in database")
  | some role => return role

def createOrgMemberEntity (orgId : κ) (userId : String) (roleId : Nat) (settings : Settings) :
    Service κ (OrgMember κ) :=
  match parseUuid userId with
  | none => throw (.other "badly formed hexadecimal UUID string")
  | some userId =>
      return ⟨orgId, userId, roleId, settings.llmApiKey, settings.llmModel, settings.llmBaseUrl,
        "active"⟩

/-- The constraints of the tables admit an organisation and its first member. -/
def Database.admits (db : Database κ) (org : Org κ) (member : OrgMember κ) : Bool :=
  !db.orgs.any (fun other => other.id = org.id || other.name = org.name) &&
    !db.orgMembers.any (fun other => other.orgId = member.orgId && other.userId = member.userId) &&
    db.users.any (fun user => user.id = member.userId)

def Database.addOrg (db : Database κ) (org : Org κ) (member : OrgMember κ) : Database κ :=
  { db with orgs := db.orgs ++ [org], orgMembers := db.orgMembers ++ [member] }

/-- Add an organisation and its first member in one transaction. -/
def persistOrgWithOwner (org : Org κ) (member : OrgMember κ) : Service κ (Org κ) := do
  let world ← get
  if world.db.admits org member then
    call calls.commit (fun world => setDb (world.db.addOrg org member) world)
    query calls.refresh
    return org
  else throw (.other "IntegrityError")

/-- Delete the team again, and say what went wrong. -/
def handleFailureWithCleanup (orgId : κ) (originalError : OrgError κ) (errorMessage : String)
    {α : Type} : Service κ α := do
  let cleanupError ← tryCatch
    (do
      deleteTeam config calls.deleteTeam orgId
      return none)
    (fun error => return some error)
  match cleanupError with
  | some error =>
      throw (.orgDatabase (errorMessage ++ ": " ++ originalError.str text ++
        ". Cleanup also failed: " ++ error.str text))
  | none => throw (.orgDatabase (errorMessage ++ ": " ++ originalError.str text))

def persistWithCompensation (org : Org κ) (member : OrgMember κ) (orgId : κ) : Service κ (Org κ) :=
  tryCatch (persistOrgWithOwner calls org member)
    (fun error =>
      handleFailureWithCleanup config text calls orgId error "Failed to create organization")

/-- The rows of an organisation and its owner, once the team is there. -/
def createRows (orgId : κ) (name contactName contactEmail userId : String) (settings : Settings) :
    Service κ (Org κ) :=
  tryCatch
    (do
      let org := applyLitellmSettingsToOrg
        (createOrgEntity config orgId name contactName contactEmail) settings
      let ownerRole ← getOwnerRole calls
      let member ← createOrgMemberEntity parseUuid orgId userId ownerRole.id settings
      persistWithCompensation config text calls org member orgId)
    (fun error => match error with
      | .orgDatabase message => throw (.orgDatabase message)
      | error =>
          handleFailureWithCleanup config text calls orgId error "Failed to create organization")

def createOrgWithOwner (orgId : κ) (name contactName contactEmail userId : String) :
    Service κ (Org κ) := do
  validateNameUniqueness config calls name
  let settings ← createLitellmIntegration config text calls orgId userId
  createRows config text parseUuid calls orgId name contactName contactEmail userId settings

end Creating

/-! ## Deleting -/

/-- The calls of a deletion; the statements of its transaction are numbered from zero. -/
structure DeleteCalls where
  getOrgById : Call
  update : UpdateCalls
  getOrgMember : Call
  getRoleById : Call
  select : Call
  statements : Nat → Call
  deleteTeam : Call
  commit : Call
  rollback : Call

section Deleting

variable (config : Config) (text : κ → String) (parseUuid : String → Option κ)
variable (calls : DeleteCalls)

def Database.findMember (db : Database κ) (orgId userId : κ) : Option (OrgMember κ) :=
  db.orgMembers.find? (fun member => member.orgId = orgId && member.userId = userId)

/-- Verify that a user is an owner of an organisation that exists. -/
def verifyOwner (userId : String) (orgId : κ) : Service κ Unit :=
  match parseUuid userId with
  | none => throw (.other "badly formed hexadecimal UUID string")
  | some userId => do
      query calls.getOrgMember
      let world ← get
      match world.db.findMember orgId userId with
      | none => throw (.orgAuthorization "User is not a member of this organization")
      | some member => do
          query calls.getRoleById
          match world.db.roles.find? (fun role => role.id = member.roleId) with
          | none => throw (.orgAuthorization "Only organization owners can delete organizations")
          | some role =>
              if role.name = "owner" then return ()
              else throw (.orgAuthorization "Only organization owners can delete organizations")

def verifyOwnerAuthorization (userId : String) (orgId : κ) : Service κ Unit := do
  match ← getOrgById config calls.getOrgById calls.update orgId with
  | none => throw (.orgNotFound orgId)
  | some _ => verifyOwner parseUuid calls userId orgId

def Database.conversationsOf (db : Database κ) (orgId : κ) : List String :=
  (db.conversationMetadataSaas.filter (fun row => row.2 = orgId)).map Prod.fst

/-- The rows that do not belong to an organisation. -/
def clear (orgId : κ) (rows : List (OwnedRow κ)) : List (OwnedRow κ) :=
  rows.filter (fun row => row.orgId ≠ some orgId)

/-- An organisation of a user other than the given one. -/
def Database.alternative (db : Database κ) (orgId userId : κ) : Option κ :=
  (db.orgMembers.find? (fun member => member.userId = userId && member.orgId ≠ orgId)).map
    OrgMember.orgId

/-- The users who would be left without an organisation. -/
def Database.orphanedUsers (db : Database κ) (orgId : κ) : List κ :=
  (db.users.filter (fun user =>
    user.currentOrgId = orgId && (db.alternative orgId user.id).isNone)).map User.id

/-- A user who is in an organisation that goes is moved to another one. -/
def Database.reassign (db : Database κ) (orgId : κ) (user : User κ) : User κ :=
  if user.currentOrgId = orgId then
    { user with currentOrgId := (db.alternative orgId user.id).getD user.currentOrgId }
  else user

/-- The statements that clear what belongs to an organisation. -/
def cascade (orgId : κ) : List (Database κ → Except (OrgError κ) (Database κ)) :=
  [fun db => .ok { db with
      conversationMetadata := db.conversationMetadata.filter (fun conversationId =>
        conversationId ∉ db.conversationsOf orgId) },
    fun db =>
      match (db.conversationsOf orgId).mapM parseUuid with
      | none => .error (.other "invalid input syntax for type uuid")
      | some conversations => .ok { db with
          appConversationStartTasks := db.appConversationStartTasks.filter (fun conversationId =>
            conversationId ∉ conversations) },
    fun db => .ok { db with billingSessions := clear orgId db.billingSessions },
    fun db => .ok { db with
      conversationMetadataSaas := db.conversationMetadataSaas.filter (fun row => row.2 ≠ orgId) },
    fun db => .ok { db with customSecrets := clear orgId db.customSecrets },
    fun db => .ok { db with apiKeys := clear orgId db.apiKeys },
    fun db => .ok { db with slackConversations := clear orgId db.slackConversations },
    fun db => .ok { db with slackUsers := clear orgId db.slackUsers },
    fun db => .ok { db with stripeCustomers := clear orgId db.stripeCustomers },
    fun db =>
      if db.orphanedUsers orgId = [] then .ok db
      else .error (.orphanedUser (db.orphanedUsers orgId)),
    fun db => .ok { db with users := db.users.map (db.reassign orgId) },
    fun db => .ok { db with
      orgMembers := db.orgMembers.filter (fun member => member.orgId ≠ orgId) }]

/-- The session is asked to delete an organisation, but what it returns is not awaited, so
nothing happens. -/
def sessionDelete (_org : Org κ) (db : Database κ) : Database κ := db

/-- The transaction of a deletion, with the deletion of the team before its commit. -/
def deleteOrgCascade (orgId : κ) : Service κ (Option (Org κ)) := do
  query calls.select
  let world ← get
  match world.db.findOrg orgId with
  | none => return none
  | some org =>
      tryCatch
        (match execute (fun position => (calls.statements position).map .other) 0
            (cascade parseUuid orgId) world.db with
        | .error error => throw error
        | .ok db => do
            deleteTeam config calls.deleteTeam orgId
            call calls.commit (setDb (sessionDelete org db))
            return some org)
        (fun error => do
          query calls.rollback
          throw error)

def deleteOrgWithCleanup (userId : String) (orgId : κ) : Service κ (Org κ) := do
  verifyOwnerAuthorization config parseUuid calls userId orgId
  tryCatch
    (do
      match ← deleteOrgCascade config parseUuid calls orgId with
      | none => throw (.orgDatabase "Organization not found during deletion")
      | some org => return org)
    (fun error => throw (.orgDatabase ("Failed to delete organization: " ++ error.str text)))

end Deleting

end ForgePilot.OrgLifecycle
