import ForgePilot.SettingsDowngrade

/-!
# Settings for all members

Whether all members of an organisation load the same settings of the language model after one of them
has stored some. Every member has the stored values, where there are any. Where there is none the user
who stored them has lost the own value and every other member has kept it, so that the defaults
of the organisation show only through what is not kept.
-/

namespace ForgePilot.SharedSettings

open Ciphers UserTables UserMigration SaasSettingsStore SettingsDowngrade List Option

variable {γ : Type}

/-! ## What is loaded -/

/-- What settings say of the language model. -/
structure LlmSettings where
  llmModel : Option String
  llmBaseUrl : Option String
  maxIterations : Option Int
  llmApiKey : Option String
deriving DecidableEq

def llmSettings (settings : Settings γ) : LlmSettings where
  llmModel := settings.llmModel
  llmBaseUrl := settings.llmBaseUrl
  maxIterations := settings.maxIterations
  llmApiKey := settings.llmApiKey

/-- A number of iterations counts where it is not zero. -/
def iterations (value default : Option Int) : Option Int :=
  if value.any (fun given => given ≠ 0) then value else default

/-- What is loaded from a membership, its organisation and its key. -/
def llmSettingsOf (org : Org γ) (member : OrgMember γ) (key : String) : LlmSettings where
  llmModel := overridden member.llmModel org.defaultLlmModel
  llmBaseUrl := overridden member.llmBaseUrl org.defaultLlmBaseUrl
  maxIterations := iterations member.maxIterations org.defaultMaxIterations
  llmApiKey := some key

variable (checks : Checks γ) (config : Config) (legacy : Cipher String)
  (jwe : Cipher (Option String))

def loadedLlm (database : Database γ) (userId : String) (userInfo : Option MigrationGiven) :
    Except Raised (Option LlmSettings) :=
  (load checks config legacy jwe database userId userInfo).2.map (Option.map llmSettings)

/-- The rows of a member can be read, apart from what concerns the language model. -/
structure Readable (org : Org γ) (user : User γ) (member : OrgMember γ) : Prop where
  notifications : user.enableSoundNotifications.isSome
  grouping : (SandboxGroupingStrategy.parse
    (user.sandboxGroupingStrategy.getD "NO_GROUPING")).isSome
  skills : passes checks.isSkills user.disabledSkills
  servers : passes checks.isMcpConfig (member.mcpConfig.or org.mcpConfig)
  byor : ∃ key, columnKey jwe member.llmApiKeyForByorColumn = .ok key

variable (given : StoreGiven) (settings : Settings γ) (org : Org γ) (user : User γ)
  (member : OrgMember γ) (key : String)

theorem settingsOf_ok (settings : Settings γ)
    (made : settingsOf checks org user member key = .ok settings) :
    llmSettings settings = llmSettingsOf org member key ∧ user.enableSoundNotifications.isSome ∧
      (SandboxGroupingStrategy.parse (user.sandboxGroupingStrategy.getD "NO_GROUPING")).isSome ∧
      passes checks.isSkills user.disabledSkills ∧
      passes checks.isMcpConfig (member.mcpConfig.or org.mcpConfig) := by
  rw [settingsOf] at made
  split at made
  · rename_i notifications solvability grouping isNotifications isSolvability isGrouping
    by_cases valid : (passes checks.isMcpConfig (member.mcpConfig.or org.mcpConfig) &&
        passes checks.isSkills user.disabledSkills &&
          validCondenserMaxSize org.condenserMaxSize) = true
    · rw [if_pos valid] at made
      cases made
      simp only [Bool.and_eq_true] at valid
      exact ⟨rfl, by rw [isNotifications]; rfl, by rw [isGrouping]; rfl, valid.1.2, valid.1.1⟩
    · rw [if_neg valid] at made
      cases made
  · cases made

/-- Rows that can be read make settings, if the organisation has what they need. -/
theorem settingsOf_readable (readable : Readable checks jwe org user member)
    (solvability : org.enableSolvabilityAnalysis.isSome)
    (condenser : validCondenserMaxSize org.condenserMaxSize) :
    ∃ settings, settingsOf checks org user member key = .ok settings ∧
      llmSettings settings = llmSettingsOf org member key := by
  obtain ⟨notifications, isNotifications⟩ := isSome_iff_exists.mp readable.notifications
  obtain ⟨analysis, isAnalysis⟩ := isSome_iff_exists.mp solvability
  obtain ⟨grouping, isGrouping⟩ := isSome_iff_exists.mp readable.grouping
  have valid : (passes checks.isMcpConfig (member.mcpConfig.or org.mcpConfig) &&
      passes checks.isSkills user.disabledSkills &&
        validCondenserMaxSize org.condenserMaxSize) = true := by
    rw [readable.servers, readable.skills, condenser]
    rfl
  rw [settingsOf, isNotifications, isAnalysis]
  simp only [isGrouping, valid]
  exact ⟨_, rfl, rfl⟩

/-- What a user who is a member loads, when the organisation has what settings need. -/
theorem loadedLlm_iff {database : Database γ} {userId : String} (userInfo : Option MigrationGiven)
    {user : User γ} {member : OrgMember γ} {org : Org γ}
    (known : database.users.find? (fun user => user.id = userId) = some user)
    (isMember : currentMember database user = some member)
    (isOrg : database.orgs.find? (fun org => org.id = user.currentOrgId) = some org)
    (solvability : org.enableSolvabilityAnalysis.isSome)
    (condenser : validCondenserMaxSize org.condenserMaxSize) (expected : LlmSettings) :
    loadedLlm checks config legacy jwe database userId userInfo = .ok (some expected) ↔
      Readable checks jwe org user member ∧ ∃ key,
        givenKey jwe member.llmApiKeyColumn = .ok (some key) ∧
          llmSettingsOf (validateOrgVersion config org) member key = expected := by
  have servers : (validateOrgVersion config org).mcpConfig = org.mcpConfig := by
    rw [validateOrgVersion]
    split <;> rfl
  have analysis : (validateOrgVersion config org).enableSolvabilityAnalysis.isSome := by
    rw [validateOrgVersion]
    split <;> exact solvability
  have size : validCondenserMaxSize (validateOrgVersion config org).condenserMaxSize := by
    rw [validateOrgVersion]
    split <;> exact condenser
  have found : getUserById config legacy jwe database userId userInfo = .ok (database, some user) := by
    simp [getUserById, known]
  simp only [loadedLlm, load, found, loadFor, isMember, isOrg]
  constructor
  · intro loaded
    split at loaded
    · cases loaded
    · cases loaded
    · rename_i key isKey
      cases byor : columnKey jwe member.llmApiKeyForByorColumn with
      | error raised =>
        rw [byor] at loaded
        cases loaded
      | ok byorKey =>
        rw [byor] at loaded
        cases made : settingsOf checks (validateOrgVersion config org) user member key with
        | error raised =>
          simp only [made] at loaded
          cases loaded
        | ok settings =>
          simp only [made] at loaded
          obtain ⟨values, notifications, grouping, skills, isServers⟩ :=
            settingsOf_ok _ _ _ _ _ _ made
          rw [servers] at isServers
          refine ⟨⟨notifications, grouping, skills, isServers, byorKey, byor⟩, key, isKey, ?_⟩
          exact values.symm.trans (some.inj (Except.ok.inj loaded))
  · rintro ⟨readable, key, isKey, rfl⟩
    obtain ⟨byorKey, byor⟩ := readable.byor
    have kept : Readable checks jwe (validateOrgVersion config org) user member :=
      ⟨readable.notifications, readable.grouping, readable.skills, by
        rw [servers]
        exact readable.servers, readable.byor⟩
    obtain ⟨settings, made, values⟩ := settingsOf_readable _ jwe _ _ _ key kept analysis size
    simp only [isKey, byor, made]
    exact congrArg (fun loaded => Except.ok (some loaded)) values

theorem loadedLlm_key {database : Database γ} {userId : String} {userInfo : Option MigrationGiven}
    {user : User γ} {member : OrgMember γ}
    (known : database.users.find? (fun user => user.id = userId) = some user)
    (isMember : currentMember database user = some member) {values : LlmSettings}
    (loaded : loadedLlm checks config legacy jwe database userId userInfo = .ok (some values)) :
    ∃ key, givenKey jwe member.llmApiKeyColumn = .ok (some key) := by
  have found : getUserById config legacy jwe database userId userInfo = .ok (database, some user) := by
    simp [getUserById, known]
  simp only [loadedLlm, load, found, loadFor, isMember] at loaded
  split at loaded
  · cases loaded
  · cases loaded
  · rename_i key isKey
    exact ⟨key, isKey⟩

/-! ## What is stored -/

/-- What the settings say of the language model, and the organisation where they say nothing. -/
def expectedLlm (org : Org γ) (settings : Settings γ) : LlmSettings where
  llmModel := overridden settings.llmModel org.defaultLlmModel
  llmBaseUrl := overridden settings.llmBaseUrl org.defaultLlmBaseUrl
  maxIterations := iterations settings.maxIterations org.defaultMaxIterations
  llmApiKey := settings.llmApiKey

/-- Where the settings have nothing a membership has nothing either, or what the organisation has. -/
structure Yields (settings : Settings γ) (org : Org γ) (member : OrgMember γ) : Prop where
  llmModel : settings.llmModel = none → truthy member.llmModel →
    member.llmModel = org.defaultLlmModel
  llmBaseUrl : settings.llmBaseUrl = none → truthy member.llmBaseUrl →
    member.llmBaseUrl = org.defaultLlmBaseUrl
  maxIterations : settings.maxIterations = none →
    member.maxIterations.any (fun given => given ≠ 0) →
      member.maxIterations = org.defaultMaxIterations

theorem overridden_or (given own default : Option String) :
    overridden (given.or own) default = overridden given default ↔
      (given = none → truthy own → own = default) := by
  cases given with
  | some value => simp
  | none =>
    have nothing : overridden none default = default := rfl
    rw [none_or, nothing, overridden]
    split
    · rename_i isGiven
      exact ⟨fun same _ _ => same, fun same => same rfl isGiven⟩
    · rename_i empty
      exact ⟨fun _ _ isGiven => absurd isGiven empty, fun _ => rfl⟩

theorem iterations_or (given own default : Option Int) :
    iterations (given.or own) default = iterations given default ↔
      (given = none → own.any (fun number => number ≠ 0) → own = default) := by
  cases given with
  | some value => simp
  | none =>
    have nothing : iterations none default = default := rfl
    rw [none_or, nothing, iterations]
    split
    · rename_i isGiven
      exact ⟨fun same _ _ => same, fun same => same rfl isGiven⟩
    · rename_i empty
      exact ⟨fun _ _ isGiven => absurd isGiven empty, fun _ => rfl⟩

/-- A membership that was written to says what the settings say just when it yields to them. -/
theorem propagated_iff {settings : Settings γ} {key : String}
    (isKey : settings.llmApiKey = some key) :
    llmSettingsOf org (propagate jwe given settings member) key = expectedLlm org settings ↔
      Yields settings org member := by
  rw [llmSettingsOf, expectedLlm, LlmSettings.mk.injEq, isKey]
  constructor
  · rintro ⟨model, url, number, -⟩
    exact ⟨(overridden_or _ _ _).mp model, (overridden_or _ _ _).mp url,
      (iterations_or _ _ _).mp number⟩
  · rintro ⟨model, url, number⟩
    exact ⟨(overridden_or _ _ _).mpr model, (overridden_or _ _ _).mpr url,
      (iterations_or _ _ _).mpr number, rfl⟩

/-- The membership of the user who stores yields. -/
theorem yields_written : Yields settings org (writeMember jwe given settings member) where
  llmModel absent isGiven := by
    rw [writeMember, absent] at isGiven
    cases isGiven
  llmBaseUrl absent isGiven := by
    rw [writeMember, absent] at isGiven
    cases isGiven
  maxIterations absent isGiven := by
    rw [writeMember, absent] at isGiven
    cases isGiven

/-- The key of a membership that was written to. -/
theorem propagated_key :
    givenKey jwe (propagate jwe given settings member).llmApiKeyColumn = .ok (some key) ↔
      (settings.llmApiKey = some key ∧ key ≠ "") ∨
        (settings.llmApiKey = none ∧ givenKey jwe member.llmApiKeyColumn = .ok (some key)) := by
  rw [propagate]
  cases settings.llmApiKey with
  | none => simp
  | some stored =>
    simp only [givenKey, jwe.decrypt_encrypt]
    by_cases empty : stored = ""
    · rw [if_pos empty]
      constructor
      · intro same
        cases Except.ok.inj same
      · rintro (⟨same, filled⟩ | ⟨absent, -⟩)
        · exact absurd (empty ▸ (some.inj same).symm) filled
        · cases absent
    · rw [if_neg empty]
      constructor
      · intro same
        cases same
        exact .inl ⟨rfl, empty⟩
      · rintro (⟨same, -⟩ | ⟨absent, -⟩)
        · exact congrArg Except.ok same
        · cases absent

/-- A membership that was written to yields the expected settings just when there is a key and it has
nothing of its own. -/
theorem propagated_expected :
    (∃ key, givenKey jwe (propagate jwe given settings member).llmApiKeyColumn = .ok (some key) ∧
      llmSettingsOf org (propagate jwe given settings member) key = expectedLlm org settings) ↔
      truthy settings.llmApiKey ∧ Yields settings org member := by
  constructor
  · rintro ⟨key, isKey, same⟩
    have stored : some key = settings.llmApiKey := congrArg LlmSettings.llmApiKey same
    rcases (propagated_key ..).mp isKey with ⟨-, filled⟩ | ⟨absent, -⟩
    · refine ⟨?_, (propagated_iff jwe _ org _ stored.symm).mp same⟩
      rw [← stored]
      simpa [truthy] using filled
    · rw [absent] at stored
      cases stored
  · rintro ⟨isGiven, yields⟩
    cases stored : settings.llmApiKey with
    | none =>
      rw [stored] at isGiven
      cases isGiven
    | some key =>
      rw [stored] at isGiven
      have filled : key ≠ "" := by simpa [truthy] using isGiven
      exact ⟨key, (propagated_key ..).mpr (.inl ⟨stored, filled⟩),
        (propagated_iff jwe _ org _ stored).mpr yields⟩

/-! ## Storing, then loading -/

section Stored

variable (database : Database γ) (userId : String) (given : StoreGiven) (item : Item checks)
  (user : User γ) (member : OrgMember γ)

/-- The settings that are stored, with the key they have then. -/
def storedSettings : Settings γ := ensureApiKey config given item.settings

/-- The row of a membership after a store. -/
def storedMember (row : OrgMember γ) : OrgMember γ :=
  let written :=
    if row.userId = user.id ∧ row.orgId = user.currentOrgId then
      writeMember jwe given (storedSettings checks config given item) row
    else row
  if row.orgId = user.currentOrgId then
    propagate jwe given (storedSettings checks config given item) written
  else written

/-- The row of an organisation after a store, in the latest version. -/
def storedOrg (org : Org γ) : Org γ :=
  validateOrgVersion config
    (writeOrg jwe given (storedSettings checks config given item) item.fieldsSet org)

variable (known : database.users.find? (fun user => user.id = userId) = some user)
  (isMember : currentMember database user = some member)
include known isMember

/-- What a store by a member who has a key changes. -/
theorem store_eq (org : Org γ)
    (isOrg : database.orgs.find? (fun org => org.id = user.currentOrgId) = some org) (key : String)
    (isKey : givenKey jwe member.llmApiKeyColumn = .ok (some key)) :
    store checks config legacy jwe database userId given item = ({ mapOrg user.currentOrgId
          (writeOrg jwe given (storedSettings checks config given item) item.fieldsSet) database with
        users := database.users.map fun other =>
          if other.id = user.id then writeUser (storedSettings checks config given item) other
          else other
        orgMembers := database.orgMembers.map (storedMember checks config jwe given item user) },
        none) := by
  have present : ¬ (database.orgs.all fun org => org.id ≠ user.currentOrgId) = true := by
    intro absent
    have here := find?_some isOrg
    have listed := mem_of_find?_eq_some isOrg
    simp_all
  simp only [store, known, storeFor, isMember, isKey, if_neg present, true_and]
  rfl

/-- A store without a key changes nothing. -/
theorem store_without (missing : ∀ key, givenKey jwe member.llmApiKeyColumn ≠ .ok (some key)) :
    (store checks config legacy jwe database userId given item).1 = database := by
  simp only [store, known, storeFor, isMember]
  split
  · rfl
  · rfl
  · rename_i key isKey
    exact absurd isKey (missing key)

omit known isMember

theorem storedMember_keys (row : OrgMember γ) :
    (storedMember checks config jwe given item user row).userId = row.userId ∧
      (storedMember checks config jwe given item user row).orgId = row.orgId := by
  simp only [storedMember]
  split <;> split <;> exact ⟨rfl, rfl⟩

/-- Rows that keep what they are found by are found again. -/
theorem find_map {α : Type} (rows : List α) {change : α → α} {wanted : α → Bool}
    (keeps : ∀ row, wanted (change row) = wanted row) :
    (rows.map change).find? wanted = (rows.find? wanted).map change := by
  rw [find?_map]
  exact congrArg (fun sought => (rows.find? sought).map change) (funext keeps)

end Stored

/-- All members of an organisation who work in it load the same values, and memberships of other
organisations are what they were. -/
structure SharesSettings (before after : Database γ) (orgId : String) (expected : LlmSettings) :
    Prop where
  loaded : ∀ userId userInfo other,
    before.users.find? (fun user => user.id = userId) = some other → other.currentOrgId = orgId →
      (currentMember before other).isSome →
        loadedLlm checks config legacy jwe after userId userInfo = .ok (some expected)
  elsewhere : after.orgMembers.filter (fun row => row.orgId ≠ orgId) =
    before.orgMembers.filter fun row => row.orgId ≠ orgId

/-- What a database and settings have to be like: there is a key before and after, the rows of all
members can be read, and no other member has a value of its own where the settings have none. -/
structure Shareable (database : Database γ) (given : StoreGiven) (item : Item checks) (user : User γ)
    (member : OrgMember γ) (org : Org γ) : Prop where
  hasKey : ∃ key, givenKey jwe member.llmApiKeyColumn = .ok (some key)
  keyGiven : truthy (storedSettings checks config given item).llmApiKey
  servers : passes checks.isMcpConfig (item.settings.mcpConfig.or org.mcpConfig)
  byor : ∃ key, columnKey jwe member.llmApiKeyForByorColumn = .ok key
  others : ∀ userId other row,
    database.users.find? (fun user => user.id = userId) = some other → other.id ≠ user.id →
      other.currentOrgId = user.currentOrgId → currentMember database other = some row →
        Readable checks jwe org other row ∧
          Yields (storedSettings checks config given item)
            (storedOrg checks config jwe given item org) row

section Shared

variable (database : Database γ) (given : StoreGiven) (item : Item checks) (user : User γ)

theorem readable_other (org : Org γ) (other : User γ) (row : OrgMember γ) : Readable checks jwe
        (writeOrg jwe given (storedSettings checks config given item) item.fieldsSet org) other
        (propagate jwe given (storedSettings checks config given item) row) ↔
      Readable checks jwe org other row :=
  ⟨fun kept => ⟨kept.notifications, kept.grouping, kept.skills, kept.servers, kept.byor⟩,
    fun kept => ⟨kept.notifications, kept.grouping, kept.skills, kept.servers, kept.byor⟩⟩

/-- What the user who stores has written can be read. -/
theorem readable_saver (org : Org γ) (member : OrgMember γ) : Readable checks jwe
        (writeOrg jwe given (storedSettings checks config given item) item.fieldsSet org)
        (writeUser (storedSettings checks config given item) user)
        (propagate jwe given (storedSettings checks config given item)
          (writeMember jwe given (storedSettings checks config given item) member)) ↔
      passes checks.isMcpConfig (item.settings.mcpConfig.or org.mcpConfig) ∧
        ∃ key, columnKey jwe member.llmApiKeyForByorColumn = .ok key := by
  have same : (storedSettings checks config given item).mcpConfig = item.settings.mcpConfig ∧
      (storedSettings checks config given item).disabledSkills = item.settings.disabledSkills := by
    simp only [storedSettings, ensureApiKey]
    split
    · split <;> exact ⟨rfl, rfl⟩
    · exact ⟨rfl, rfl⟩
  constructor
  · intro readable
    have servers := readable.servers
    refine ⟨?_, readable.byor⟩
    rw [← same.1]
    exact servers
  · rintro ⟨servers, byor⟩
    refine ⟨rfl, ?_, ?_, ?_, byor⟩
    · rw [writeUser, getD_some, SandboxGroupingStrategy.parse_value]
      rfl
    · rw [writeUser, same.2]
      exact item.disabledSkills_valid
    · rw [← same.1] at servers
      exact servers

theorem loaded_after {userId otherId : String} (userInfo : Option MigrationGiven) {other : User γ}
    {row member : OrgMember γ} {org : Org γ} {key : String}
    (known : database.users.find? (fun user => user.id = userId) = some user)
    (isMember : currentMember database user = some member)
    (isOrg : database.orgs.find? (fun org => org.id = user.currentOrgId) = some org)
    (isKey : givenKey jwe member.llmApiKeyColumn = .ok (some key))
    (otherKnown : database.users.find? (fun user => user.id = otherId) = some other)
    (sameOrg : other.currentOrgId = user.currentOrgId) (isRow : currentMember database other = some row)
    (expected : LlmSettings) :
    loadedLlm checks config legacy jwe (store checks config legacy jwe database userId given item).1
        otherId userInfo = .ok (some expected) ↔
      Readable checks jwe
          (writeOrg jwe given (storedSettings checks config given item) item.fieldsSet org)
          (if other.id = user.id then writeUser (storedSettings checks config given item) other
            else other)
          (storedMember checks config jwe given item user row) ∧
        ∃ key, givenKey jwe (storedMember checks config jwe given item user row).llmApiKeyColumn =
            .ok (some key) ∧
          llmSettingsOf (storedOrg checks config jwe given item org)
            (storedMember checks config jwe given item user row) key = expected := by
  rw [store_eq _ _ _ jwe _ _ _ _ _ _ known isMember org
    isOrg key isKey]
  have size : (storedSettings checks config given item).condenserMaxSize =
      item.settings.condenserMaxSize := by
    simp only [storedSettings, ensureApiKey]
    split
    · split <;> rfl
    · rfl
  refine loadedLlm_iff _ _ _ jwe _ ?_ ?_ ?_ rfl ?_ ..
  · rw [find_map _ fun row => by split <;> rfl, otherKnown, map_some]
  · have ids : (if other.id = user.id then
          writeUser (storedSettings checks config given item) other else other).id = other.id ∧
        (if other.id = user.id then
          writeUser (storedSettings checks config given item) other else other).currentOrgId =
            other.currentOrgId := by
      split <;> exact ⟨rfl, rfl⟩
    rw [currentMember, ids.1, ids.2]
    rw [find_map]
    · rw [currentMember] at isRow
      rw [isRow, map_some]
    · intro row
      rw [(storedMember_keys ..).1, (storedMember_keys ..).2]
  · have here : org.id = user.currentOrgId := by simpa using find?_some isOrg
    have current : (if other.id = user.id then
        writeUser (storedSettings checks config given item) other else other).currentOrgId =
          user.currentOrgId := by
      split <;> exact sameOrg
    rw [current]
    dsimp [mapOrg]
    rw [find_map _ fun row => by split <;> rfl, isOrg, map_some, if_pos here]
  · rw [writeOrg, size]
    exact item.condenserMaxSize_valid

theorem storedMember_other {other : User γ} {row : OrgMember γ} (apart : other.id ≠ user.id)
    (sameOrg : other.currentOrgId = user.currentOrgId)
    (isRow : currentMember database other = some row) :
    storedMember checks config jwe given item user row =
      propagate jwe given (storedSettings checks config given item) row := by
  have found := find?_some isRow
  simp only [decide_eq_true_eq] at found
  have notSaver : ¬ (row.userId = user.id ∧ row.orgId = user.currentOrgId) := fun both =>
    apart (found.1.symm.trans both.1)
  simp [storedMember, if_neg notSaver, if_pos (found.2.trans sameOrg)]

theorem storedMember_saver {member : OrgMember γ}
    (isMember : currentMember database user = some member) :
    storedMember checks config jwe given item user member =
      propagate jwe given (storedSettings checks config given item)
        (writeMember jwe given (storedSettings checks config given item) member) := by
  have found := find?_some isMember
  simp only [decide_eq_true_eq] at found
  simp [storedMember, if_pos found, if_pos found.2]

/-- Memberships of other organisations stay as they are. -/
theorem storedMember_elsewhere (row : OrgMember γ) (elsewhere : row.orgId ≠ user.currentOrgId) :
    storedMember checks config jwe given item user row = row := by
  have notSaver : ¬ (row.userId = user.id ∧ row.orgId = user.currentOrgId) :=
    fun both => elsewhere both.2
  simp [storedMember, if_neg notSaver, if_neg elsewhere]

/-- The rows of other organisations after a store. -/
theorem store_elsewhere {userId : String} {member : OrgMember γ} (org : Org γ)
    (known : database.users.find? (fun user => user.id = userId) = some user)
    (isMember : currentMember database user = some member)
    (isOrg : database.orgs.find? (fun org => org.id = user.currentOrgId) = some org) :
    (store checks config legacy jwe database userId given item).1.orgMembers.filter
        (fun row => row.orgId ≠ user.currentOrgId) =
      database.orgMembers.filter fun row => row.orgId ≠ user.currentOrgId := by
  by_cases hasKey : ∃ key, givenKey jwe member.llmApiKeyColumn = .ok (some key)
  · obtain ⟨key, isKey⟩ := hasKey
    rw [store_eq _ _ _ jwe _ _ _ _ _ _ known isMember org
      isOrg key isKey]
    induction database.orgMembers with
    | nil => rfl
    | cons row rows ih =>
      have sameOrg := (storedMember_keys checks config jwe given item user row).2
      by_cases elsewhere : row.orgId ≠ user.currentOrgId
      · rw [map_cons, filter_cons_of_pos (by simpa [sameOrg] using elsewhere),
          filter_cons_of_pos (by simpa using elsewhere), ih,
          storedMember_elsewhere _ _ jwe _ _ _ row elsewhere]
      · rw [map_cons, filter_cons_of_neg (by simpa [sameOrg] using elsewhere),
          filter_cons_of_neg (by simpa using elsewhere), ih]
  · rw [store_without _ _ _ jwe _ _ _ _ _ _ known isMember
      fun key isKey => hasKey ⟨key, isKey⟩]

/-- After a store all members load what was stored, or else the defaults, just when there is a key,
their rows can be read, and no other member has a value of its own where the settings have none. -/
theorem settings_shared (userId : String) (member : OrgMember γ) (org : Org γ)
    (known : database.users.find? (fun user => user.id = userId) = some user)
    (isMember : currentMember database user = some member)
    (isOrg : database.orgs.find? (fun org => org.id = user.currentOrgId) = some org) :
    SharesSettings checks config legacy jwe database
        (store checks config legacy jwe database userId given item).1 user.currentOrgId
        (expectedLlm (storedOrg checks config jwe given item org)
          (storedSettings checks config given item)) ↔
      Shareable checks config jwe database given item user member org := by
  have sameUser : ∀ otherId other,
      database.users.find? (fun user => user.id = otherId) = some other →
        other.id = user.id → other = user := by
    intro otherId other otherKnown same
    have otherHere : other.id = otherId := by simpa using List.find?_some otherKnown
    have here : user.id = userId := by simpa using List.find?_some known
    have ids : otherId = userId := otherHere.symm.trans (same.trans here)
    rw [ids, known] at otherKnown
    exact (Option.some.inj otherKnown).symm
  constructor
  · intro shared
    have mine := shared.loaded userId given.userInfo user known rfl (by rw [isMember]; rfl)
    have hasKey : ∃ key, givenKey jwe member.llmApiKeyColumn = .ok (some key) := by
      by_contra missing
      rw [store_without _ _ _ jwe _ _ _ _ _ _ known isMember
        fun key isKey => missing ⟨key, isKey⟩] at mine
      exact missing (loadedLlm_key _ _ _ jwe known
        isMember mine)
    obtain ⟨key, isKey⟩ := hasKey
    rw [loaded_after _ _ _ jwe _ _ _ _ _
      known isMember isOrg isKey known rfl isMember, if_pos rfl,
      storedMember_saver _ _ jwe _ _ _ _ isMember,
      readable_saver, propagated_expected] at mine
    refine ⟨⟨key, isKey⟩, mine.2.1, mine.1.1, mine.1.2, ?_⟩
    intro otherId other row otherKnown apart sameOrg isRow
    have theirs := shared.loaded otherId given.userInfo other otherKnown sameOrg (by rw [isRow]; rfl)
    rw [loaded_after _ _ _ jwe _ _ _ _ _
      known isMember isOrg isKey otherKnown sameOrg isRow, if_neg apart,
      storedMember_other _ _ jwe _ _ _ _ apart sameOrg isRow,
      readable_other, propagated_expected] at theirs
    exact ⟨theirs.1, theirs.2.2⟩
  · rintro ⟨⟨key, isKey⟩, keyGiven, servers, byor, others⟩
    refine ⟨?_, store_elsewhere _ _ _ jwe _ _ _ _ org
      known isMember isOrg⟩
    intro otherId userInfo other otherKnown sameOrg otherMember
    obtain ⟨row, isRow⟩ := Option.isSome_iff_exists.mp otherMember
    rw [loaded_after _ _ _ jwe _ _ _ _ _
      known isMember isOrg isKey otherKnown sameOrg isRow]
    by_cases same : other.id = user.id
    · obtain rfl := sameUser otherId other otherKnown same
      obtain rfl : member = row := Option.some.inj (isMember.symm.trans isRow)
      rw [if_pos rfl, storedMember_saver _ _ jwe _ _ _ _ isMember,
        readable_saver, propagated_expected]
      exact ⟨⟨servers, byor⟩, keyGiven, yields_written ..⟩
    · obtain ⟨readable, yields⟩ := others otherId other row otherKnown same sameOrg isRow
      rw [if_neg same, storedMember_other _ _ jwe _ _ _ _ same
        sameOrg isRow, readable_other, propagated_expected]
      exact ⟨readable, keyGiven, yields⟩

end Shared

/-! ## An organisation with two members -/

section Team

def teamOrg : Org Unit where
  id := "team"
  name := "team"
  agent := none
  defaultMaxIterations := some 100
  securityAnalyzer := none
  confirmationMode := none
  defaultLlmModel := some "provider/small"
  defaultLlmBaseUrl := none
  remoteRuntimeResourceFactor := none
  enableDefaultCondenser := true
  billingMargin := none
  enableProactiveConversationStarters := true
  sandboxBaseContainerImage := none
  sandboxRuntimeContainerImage := none
  orgVersion := 5
  mcpConfig := none
  searchApiKeyColumn := none
  sandboxApiKeyColumn := none
  maxBudgetPerTask := none
  enableSolvabilityAnalysis := some false
  v1Enabled := none
  condenserMaxSize := none
  byorExportEnabled := false
  sandboxGroupingStrategy := none

def teamUser (id : String) : User Unit where
  id := id
  currentOrgId := "team"
  acceptedTos := none
  enableSoundNotifications := some false
  language := none
  userConsentsToAnalytics := none
  email := none
  emailVerified := none
  gitUserName := none
  gitUserEmail := none
  sandboxGroupingStrategy := none
  disabledSkills := none

def teamMember (userId : String) (maxIterations : Option Int) : OrgMember Unit where
  orgId := "team"
  userId := userId
  roleId := 1
  llmApiKeyColumn := markingNone.encrypt 0 (some "old")
  maxIterations := maxIterations
  llmModel := none
  llmApiKeyForByorColumn := none
  llmBaseUrl := none
  status := none
  mcpConfig := none

/-- The first user stores settings; the second one may have a number of iterations. -/
def teamDatabase (maxIterations : Option Int) : Database Unit :=
  { exampleDatabase none with
      orgs := [teamOrg]
      users := [teamUser "first", teamUser "second"]
      orgMembers := [teamMember "first" none, teamMember "second" maxIterations] }

def teamEdit : Edit (⟨fun _ => true, fun _ => true⟩ : Checks Unit) :=
  exampleEdit "provider/large" "https://provider" "new"

/-- Settings without a number of iterations do not reach a member who has an own number. -/
theorem cleared_iterations_kept :
    ¬ SharesSettings ⟨fun _ => true, fun _ => true⟩ exampleConfig marking markingNone
      (teamDatabase (some 7))
      (store _ exampleConfig marking markingNone (teamDatabase (some 7)) "first" teamEdit.given
        teamEdit.item).1 "team"
      (expectedLlm (storedOrg _ exampleConfig markingNone teamEdit.given teamEdit.item teamOrg)
        (storedSettings _ exampleConfig teamEdit.given teamEdit.item)) := by
  intro shared
  have theirs := shared.loaded "second" none (teamUser "second") (by decide +kernel) rfl
    (by decide +kernel)
  have kept : loadedLlm ⟨fun _ => true, fun _ => true⟩ exampleConfig marking markingNone
      (store _ exampleConfig marking markingNone (teamDatabase (some 7)) "first" teamEdit.given
        teamEdit.item).1 "second" none =
      .ok (some ⟨some "provider/large", some "https://provider", some 7, some "new"⟩) := by
    decide +kernel
  rw [kept] at theirs
  revert theirs
  decide +kernel

/-- A member without own values loads what another one has stored. -/
theorem settings_shared_team :
    SharesSettings ⟨fun _ => true, fun _ => true⟩ exampleConfig marking markingNone
      (teamDatabase none)
      (store _ exampleConfig marking markingNone (teamDatabase none) "first" teamEdit.given
        teamEdit.item).1 "team"
      (expectedLlm (storedOrg _ exampleConfig markingNone teamEdit.given teamEdit.item teamOrg)
        (storedSettings _ exampleConfig teamEdit.given teamEdit.item)) := by
  refine (settings_shared _ _ _ _ _ _
    teamEdit.item (teamUser "first") "first" (teamMember "first" none) teamOrg (by decide +kernel)
    (by decide +kernel) (by decide +kernel)).mpr ⟨⟨"old", by decide +kernel⟩, by decide +kernel, rfl,
      ⟨none, rfl⟩, ?_⟩
  intro userId other row known apart sameOrg isRow
  have listed := List.mem_of_find?_eq_some known
  obtain rfl : other = teamUser "second" := by
    rcases List.mem_pair.mp listed with rfl | rfl
    · exact absurd rfl apart
    · rfl
  obtain rfl : teamMember "second" none = row := by
    have found : currentMember (teamDatabase none) (teamUser "second") =
        some (teamMember "second" none) := by
      decide +kernel
    exact Option.some.inj (found.symm.trans isRow)
  refine ⟨⟨rfl, by decide +kernel, rfl, rfl, ⟨none, rfl⟩⟩, ?_, ?_, ?_⟩
  · intro _ isGiven
    cases isGiven
  · intro _ isGiven
    cases isGiven
  · intro _ isGiven
    cases isGiven

end Team
end ForgePilot.SharedSettings
