import ForgePilot.MigrationRoundTrip
import ForgePilot.SaasSettingsStore
import Mathlib.Data.List.Induction

/-!
# Settings that survive a downgrade

Between the migration and the downgrade the settings are stored any number of times. A downgrade
copies the key of the membership into the settings row, but neither the model nor the base URL, which
stay what they were before the migration. So the row carries what was loaded last exactly when
the model and the base URL that are in force then are the old ones.

In force is what the last store has given, or else the default of the organisation: the last one that
a store has set, or the one of the migration, unless the organisation is brought up to date.
-/

namespace ForgePilot.SettingsDowngrade

open Ciphers UserTables UserMigration MigrationRoundTrip SaasSettingsStore List

variable {γ : Type} {checks : Checks γ}

/-! ## Stores -/

/-- One call of the settings store. -/
structure Edit (checks : Checks γ) where
  given : StoreGiven
  item : Item checks

variable (config : Config) (legacy : Cipher String) (jwe : Cipher (Option String))

/-- The settings that are stored, with a key that LiteLLM knows where they need one. -/
def Edit.settings (edit : Edit checks) : Settings γ :=
  ensureApiKey config edit.given edit.item.settings

/-- Store settings one after the other. -/
def storeAll (database : Database γ) (userId : String) (edits : List (Edit checks)) : Database γ :=
  edits.foldl
    (fun current edit => (store checks config legacy jwe current userId edit.given edit.item).1)
    database

/-- What was stored last. -/
def last {α : Type} (get : Settings γ → α) (start : α) (edits : List (Edit checks)) : α :=
  edits.getLast?.elim start (fun edit => get (edit.settings config))

/-- What was stored last where the field was set. -/
def lastSet {α : Type} (field : String) (get : Settings γ → α) (start : α)
    (edits : List (Edit checks)) : α :=
  edits.foldl
    (fun value edit => if field ∈ edit.item.fieldsSet then get (edit.settings config) else value) start

/-- The key of the membership: without one, nothing more is stored. -/
def keyAfter (start : Option String) (edits : List (Edit checks)) : Option String :=
  edits.foldl
    (fun key edit => if truthy key then (edit.settings config).llmApiKey else key) start

variable (key : Option String) {α : Type}

@[simp] theorem last_concat (get : Settings γ → α) (start : α) (edits : List (Edit checks))
    (edit : Edit checks) :
    last config get start (edits ++ [edit]) = get (edit.settings config) := by
  simp [last]

@[simp] theorem lastSet_concat (field : String) (get : Settings γ → α) (start : α)
    (edits : List (Edit checks)) (edit : Edit checks) :
    lastSet config field get start (edits ++ [edit]) =
      if field ∈ edit.item.fieldsSet then get (edit.settings config)
      else lastSet config field get start edits := by
  simp [lastSet]

@[simp] theorem keyAfter_concat (start : Option String) (edits : List (Edit checks))
    (edit : Edit checks) :
    keyAfter config start (edits ++ [edit]) =
      if truthy (keyAfter config start edits) then (edit.settings config).llmApiKey
      else keyAfter config start edits := by
  rw [keyAfter, foldl_append]
  rfl

/-- There is a key after all stores exactly when there was one before and every store gave one. -/
theorem truthy_keyAfter_iff (start : Option String) (edits : List (Edit checks)) :
    truthy (keyAfter config start edits) ↔
      truthy start ∧ ∀ edit ∈ edits, truthy (edit.settings config).llmApiKey := by
  induction edits using reverseRecOn with
  | nil => simp [keyAfter]
  | append_singleton prior edit ih =>
    rw [keyAfter_concat]
    split
    · rename_i known
      have before := ih.mp known
      constructor
      · intro given
        refine ⟨before.1, fun other listed => ?_⟩
        rcases mem_append.mp listed with old | new
        · exact before.2 other old
        · exact mem_singleton.mp new ▸ given
      · exact fun all => all.2 edit (mem_append_right _ (.head _))
    · rename_i unknown
      refine ⟨fun known => absurd known unknown, fun all => absurd ?_ unknown⟩
      exact ih.mpr
        ⟨all.1, fun other listed => all.2 other (mem_append_left _ listed)⟩

variable {edits : List (Edit checks)}

/-- Where there is a key after all stores, it is the one that was stored last. -/
theorem keyAfter_eq_last {start : Option String} (known : truthy (keyAfter config start edits)) :
    keyAfter config start edits = last config Settings.llmApiKey start edits := by
  induction edits using reverseRecOn with
  | nil => rfl
  | append_singleton prior edit ih =>
    rw [keyAfter_concat] at known ⊢
    by_cases before : truthy (keyAfter config start prior)
    · rw [if_pos before, last_concat]
    · rw [if_neg before] at known
      exact absurd known before

/-! ## The rows of the user -/

/-- Changing rows under their keys changes what is found under a key. -/
theorem filter_map_keyed {key : α → String} {change : α → α} (table : List α) (identifier : String)
    (keyed : ∀ row, key (change row) = key row) :
    (table.map change).filter (fun row => key row = identifier) =
      (table.filter (fun row => key row = identifier)).map change := by
  rw [filter_map]
  congr 2
  funext row
  simp [keyed]

section Rows

variable {database : Database γ} {userId : String} {userSettings : UserSettings γ} {user : User γ}
  {org : Org γ} {member : OrgMember γ}

section

variable (personal : Personal database userId userSettings user org member)
include personal

theorem currentMember_personal : currentMember database user = some member := by
  refine find_of_filter ?_
  have both : database.orgMembers.filter
      (fun row => row.userId = user.id ∧ row.orgId = user.currentOrgId) =
      (database.orgMembers.filter (fun row => row.orgId = userId)).filter
        (fun row => row.userId = userId) := by
    rw [filter_filter, personal.user_id, personal.current]
    refine filter_congr fun row _ => ?_
    rw [Bool.decide_and]
  rw [both, personal.members]
  simp [personal.owned]

/-- Where there is a key, a store writes all three rows. -/
theorem store_personal (key : String) (given : StoreGiven) (item : Item checks)
    (known : givenKey jwe member.llmApiKeyColumn = .ok (some key)) :
    let settings := ensureApiKey config given item.settings
    Personal (store checks config legacy jwe database userId given item).1 userId userSettings
      (writeUser settings user) (writeOrg jwe given settings item.fieldsSet org)
      (propagate jwe given settings (writeMember jwe given settings member)) := by
  have present : database.orgs.all (fun row => row.id ≠ user.currentOrgId) = false := by
    rw [all_eq_false]
    have listed : org ∈ database.orgs.filter (fun row => row.id = userId) := by
      rw [personal.orgs]
      exact .head _
    exact ⟨org, (mem_filter.mp listed).1, by simp [personal.org_id, personal.current]⟩
  rw [store, personal.find_user]
  simp only [storeFor, currentMember_personal personal, known, present, Bool.false_eq_true, if_false,
    true_and]
  constructor
  · rw [filter_map_keyed _ _ (fun row => by split <;> rfl), personal.users]
    simp
  · simp only [mapOrg]
    rw [filter_map_keyed _ _ (fun row => by split <;> rfl), personal.orgs]
    simp [personal.org_id, personal.current]
  · rw [filter_map_keyed _ _ (fun row => by
      split <;> split <;> rfl), personal.members]
    simp [personal.member_orgId, personal.owned, personal.user_id, personal.current]
  · exact personal.current
  · exact personal.owned
  · exact personal.settings

/-- Without a key, a store changes nothing. -/
theorem store_without_key (given : StoreGiven) (item : Item checks)
    (unknown : ∀ key, givenKey jwe member.llmApiKeyColumn ≠ .ok (some key)) :
    (store checks config legacy jwe database userId given item).1 = database := by
  rw [store, personal.find_user]
  simp only [storeFor, currentMember_personal personal]
  cases found : givenKey jwe member.llmApiKeyColumn with
  | error raised => rfl
  | ok key =>
    cases key with
    | none => rfl
    | some value => exact absurd found (unknown value)

/-- Loading brings the organisation up to date and makes settings of the three rows, where there is a
key. -/
theorem load_personal (key : String) (userInfo : Option MigrationGiven)
    (known : givenKey jwe member.llmApiKeyColumn = .ok (some key)) :
    load checks config legacy jwe database userId userInfo =
      (mapOrg userId (validateOrgVersion config) database, do
        let _ ← columnKey jwe member.llmApiKeyForByorColumn
        let settings ← settingsOf checks (validateOrgVersion config org) user member key
        return some settings) := by
  have present : getUserById config legacy jwe database userId userInfo = .ok (database, some user) := by
    simp [getUserById, personal.find_user]
  rw [load, present]
  simp [loadFor, currentMember_personal personal, known, personal.current, personal.find_org, personal.org_id]

/-- Without a key, no settings are loaded. -/
theorem load_without_key (userInfo : Option MigrationGiven) (settings : Settings γ)
    (unknown : ∀ key, givenKey jwe member.llmApiKeyColumn ≠ .ok (some key)) :
    (load checks config legacy jwe database userId userInfo).2 ≠ .ok (some settings) := by
  have present : getUserById config legacy jwe database userId userInfo = .ok (database, some user) := by
    simp [getUserById, personal.find_user]
  rw [load, present]
  simp only [loadFor, currentMember_personal personal]
  cases found : givenKey jwe member.llmApiKeyColumn with
  | error raised => simp
  | ok key =>
    cases key with
    | none => simp
    | some value => exact absurd found (unknown value)

theorem validated_personal :
    Personal (mapOrg userId (validateOrgVersion config) database) userId userSettings user
      (validateOrgVersion config org) member where
  users := personal.users
  orgs := by
    simp only [mapOrg]
    rw [filter_map_keyed _ _ (fun row => by
      split
      · rw [validateOrgVersion]
        split <;> rfl
      · rfl), personal.orgs]
    simp [personal.org_id]
  members := personal.members
  current := personal.current
  owned := personal.owned
  settings := personal.settings

end

end Rows

/-! ## Runs of stores -/

/-- A key that LiteLLM knows is all that settings get before they are stored. -/
theorem settings_eq (edit : Edit checks) : edit.settings config =
      { edit.item.settings with llmApiKey := (edit.settings config).llmApiKey } := by
  rw [Edit.settings, ensureApiKey]
  split
  · split <;> rfl
  · rfl

/-- The key of a membership is the one that was stored last. -/
theorem decrypt_written (given : StoreGiven) (settings : Settings γ) (member : OrgMember γ) :
    jwe.decrypt (propagate jwe given settings (writeMember jwe given settings member)).llmApiKeyColumn =
      some settings.llmApiKey := by
  cases key : settings.llmApiKey with
  | some value => simp [propagate, key, jwe.decrypt_encrypt]
  | none => simp [propagate, writeMember, key, dumpedKey, stripped, jwe.decrypt_encrypt]

/-- A key is given where it was decrypted and is not empty. -/
theorem givenKey_iff {column : String} {key : Option String}
    (decrypted : jwe.decrypt column = some key) (value : String) :
    givenKey jwe column = .ok (some value) ↔ key = some value ∧ truthy key := by
  rw [givenKey, decrypted]
  cases key with
  | none => simp
  | some text => by_cases empty : text = "" <;> simp [truthy, empty]

/-- What the three rows say of the settings after some stores. -/
structure Follows (edits : List (Edit checks)) (userBefore : User γ) (orgBefore : Org γ)
    (memberBefore : OrgMember γ) (user : User γ) (org : Org γ) (member : OrgMember γ) : Prop where
  llmModel : member.llmModel = last config Settings.llmModel memberBefore.llmModel edits
  llmBaseUrl : member.llmBaseUrl = last config Settings.llmBaseUrl memberBefore.llmBaseUrl edits
  mcpConfig : member.mcpConfig = last config Settings.mcpConfig memberBefore.mcpConfig edits
  byor : member.llmApiKeyForByorColumn = memberBefore.llmApiKeyForByorColumn
  orgVersion : org.orgVersion = orgBefore.orgVersion
  orgMcpConfig : org.mcpConfig = orgBefore.mcpConfig
  defaultLlmModel : org.defaultLlmModel =
    lastSet config "llm_model" Settings.llmModel orgBefore.defaultLlmModel edits
  defaultLlmBaseUrl : org.defaultLlmBaseUrl =
    lastSet config "llm_base_url" Settings.llmBaseUrl orgBefore.defaultLlmBaseUrl edits
  solvability : org.enableSolvabilityAnalysis =
    last config (fun settings => some settings.enableSolvabilityAnalysis)
      orgBefore.enableSolvabilityAnalysis edits
  condenserMaxSize : org.condenserMaxSize =
    last config Settings.condenserMaxSize orgBefore.condenserMaxSize edits
  sounds : user.enableSoundNotifications =
    last config (fun settings => some settings.enableSoundNotifications)
      userBefore.enableSoundNotifications edits
  strategy : user.sandboxGroupingStrategy =
    last config (fun settings => some settings.sandboxGroupingStrategy.value)
      userBefore.sandboxGroupingStrategy edits
  disabledSkills : user.disabledSkills =
    last config Settings.disabledSkills userBefore.disabledSkills edits

theorem follows_concat (edit : Edit checks) {userBefore user : User γ} {orgBefore org : Org γ}
    {memberBefore member : OrgMember γ}
    (follows : Follows config edits userBefore orgBefore memberBefore user org member) :
    Follows config (edits ++ [edit]) userBefore orgBefore memberBefore
      (writeUser (edit.settings config) user)
      (writeOrg jwe edit.given (edit.settings config) edit.item.fieldsSet org)
      (propagate jwe edit.given (edit.settings config)
        (writeMember jwe edit.given (edit.settings config) member)) where
  llmModel := by simp [propagate, writeMember]
  llmBaseUrl := by simp [propagate, writeMember]
  mcpConfig := by simp [propagate, writeMember]
  byor := follows.byor
  orgVersion := follows.orgVersion
  orgMcpConfig := follows.orgMcpConfig
  defaultLlmModel := by simp [writeOrg, follows.defaultLlmModel]
  defaultLlmBaseUrl := by simp [writeOrg, follows.defaultLlmBaseUrl]
  solvability := by simp [writeOrg]
  condenserMaxSize := by simp [writeOrg]
  sounds := by simp [writeUser]
  strategy := by simp [writeUser]
  disabledSkills := by simp [writeUser]

/-- After any stores the user still has the three rows alone; the key is followed, and where there
still is one, so is everything else. -/
theorem storeAll_personal {database : Database γ} {userId : String} {userSettings : UserSettings γ}
    {user : User γ} {org : Org γ} {member : OrgMember γ}
    (personal : Personal database userId userSettings user org member) {key : Option String}
    (decrypted : jwe.decrypt member.llmApiKeyColumn = some key) (edits : List (Edit checks)) :
    ∃ userAfter orgAfter memberAfter,
      Personal (storeAll config legacy jwe database userId edits) userId userSettings userAfter
        orgAfter memberAfter ∧
      jwe.decrypt memberAfter.llmApiKeyColumn = some (keyAfter config key edits) ∧
      (truthy (keyAfter config key edits) →
        Follows config edits user org member userAfter orgAfter memberAfter) := by
  induction edits using reverseRecOn with
  | nil => exact ⟨user, org, member, personal, decrypted, fun _ => by constructor <;> rfl⟩
  | append_singleton prior edit ih =>
    obtain ⟨userNow, orgNow, memberNow, personalNow, decryptedNow, follows⟩ := ih
    have next : storeAll config legacy jwe database userId (prior ++ [edit]) =
        (store checks config legacy jwe (storeAll config legacy jwe database userId prior) userId
          edit.given edit.item).1 := by
      rw [storeAll, foldl_append]
      rfl
    rw [next, keyAfter_concat]
    by_cases known : truthy (keyAfter config key prior)
    · obtain ⟨value, same⟩ : ∃ value, keyAfter config key prior = some value := by
        cases now : keyAfter config key prior with
        | some value => exact ⟨value, rfl⟩
        | none => simp [now, truthy] at known
      have given := (givenKey_iff jwe decryptedNow _).mpr
        ⟨same, known⟩
      rw [if_pos known]
      exact ⟨_, _, _, store_personal _ _ jwe personalNow _ _ _ given, decrypt_written ..,
        fun _ => follows_concat _ jwe _
          (follows known)⟩
    · rw [if_neg known, store_without_key _ _ jwe personalNow _ _
        fun value given => known
          ((givenKey_iff jwe decryptedNow _).mp given).2]
      exact ⟨userNow, orgNow, memberNow, personalNow, decryptedNow, fun given => absurd given known⟩

/-! ## Loading after the stores -/

/-- What the columns of a settings row have to be for them to be loaded. -/
structure RowLoads (checks : Checks γ) (userSettings : UserSettings γ) : Prop where
  sounds : userSettings.enableSoundNotifications ≠ none
  solvability : userSettings.enableSolvabilityAnalysis ≠ none
  strategy :
    SandboxGroupingStrategy.parse (userSettings.sandboxGroupingStrategy.getD "NO_GROUPING") ≠ none
  disabledSkills : passes checks.isSkills userSettings.disabledSkills
  condenserMaxSize : validCondenserMaxSize userSettings.condenserMaxSize

/-- Where the settings that are loaded after some stores pass all checks: those that were stored do, but a
configuration of MCP servers that they do not give is the one of the settings row. -/
structure Loads (userSettings : UserSettings γ) (edits : List (Edit checks)) : Prop where
  mcpConfig : passes checks.isMcpConfig
    ((last config Settings.mcpConfig userSettings.mcpConfig edits).or userSettings.mcpConfig)
  row : edits = [] → RowLoads checks userSettings

/-- The rows of a user say what a settings row said. -/
structure Copied (userSettings : UserSettings γ) (user : User γ) (org : Org γ)
    (member : OrgMember γ) : Prop where
  sounds : user.enableSoundNotifications = userSettings.enableSoundNotifications
  strategy : user.sandboxGroupingStrategy = userSettings.sandboxGroupingStrategy
  disabledSkills : user.disabledSkills = userSettings.disabledSkills
  solvability : org.enableSolvabilityAnalysis = userSettings.enableSolvabilityAnalysis
  condenserMaxSize : org.condenserMaxSize = userSettings.condenserMaxSize
  mcpConfig : org.mcpConfig = userSettings.mcpConfig
  memberMcpConfig : member.mcpConfig = userSettings.mcpConfig

/-- A value that is checked is returned exactly when the check is passed. -/
theorem exists_ok_iff (check : Bool) (value : α) (raised : Raised) :
    (∃ result, (if check then .ok value else .error raised) = (.ok result : Except Raised α)) ↔
      check := by
  cases check <;> simp

/-- Settings are made of three rows exactly when these pass all checks. -/
theorem settingsOf_ok_iff (user : User γ) (org : Org γ) (member : OrgMember γ) (key : String) :
    (∃ settings, settingsOf checks org user member key = .ok settings) ↔
      user.enableSoundNotifications ≠ none ∧ org.enableSolvabilityAnalysis ≠ none ∧
        SandboxGroupingStrategy.parse (user.sandboxGroupingStrategy.getD "NO_GROUPING") ≠ none ∧
        passes checks.isMcpConfig (member.mcpConfig.or org.mcpConfig) ∧
        passes checks.isSkills user.disabledSkills ∧ validCondenserMaxSize org.condenserMaxSize := by
  rw [settingsOf]
  cases user.enableSoundNotifications with
  | none => simp
  | some sounds =>
    cases org.enableSolvabilityAnalysis with
    | none => simp
    | some solvability =>
      cases SandboxGroupingStrategy.parse (user.sandboxGroupingStrategy.getD "NO_GROUPING") with
      | none => simp
      | some strategy =>
        simp only [ne_eq, reduceCtorEq, not_false_eq_true, true_and]
        rw [exists_ok_iff, Bool.and_eq_true, Bool.and_eq_true, and_assoc]

/-- What settings say of the model, the base URL and the key. -/
theorem settingsOf_llm {user : User γ} {org : Org γ} {member : OrgMember γ} {key : String}
    {settings : Settings γ} (made : settingsOf checks org user member key = .ok settings) :
    settings.llmModel = overridden member.llmModel org.defaultLlmModel ∧
      settings.llmBaseUrl = overridden member.llmBaseUrl org.defaultLlmBaseUrl ∧
      settings.llmApiKey = some key := by
  rw [settingsOf] at made
  split at made
  · dsimp only at made
    split at made
    · cases made
      exact ⟨rfl, rfl, rfl⟩
    · cases made
  · cases made

@[simp] theorem validate_settings (org : Org γ) :
    (validateOrgVersion config org).enableSolvabilityAnalysis = org.enableSolvabilityAnalysis ∧
      (validateOrgVersion config org).condenserMaxSize = org.condenserMaxSize ∧
      (validateOrgVersion config org).mcpConfig = org.mcpConfig ∧
      (validateOrgVersion config org).defaultLlmBaseUrl = org.defaultLlmBaseUrl := by
  rw [validateOrgVersion]
  split <;> exact ⟨rfl, rfl, rfl, rfl⟩

theorem validate_default (org : Org γ) : (validateOrgVersion config org).defaultLlmModel =
      if org.orgVersion < orgSettingsVersion then some (getDefaultLitellmModel config)
      else org.defaultLlmModel := by
  rw [validateOrgVersion]
  split <;> rfl

/-- After stores that are followed, settings are loaded exactly where they pass all checks. -/
theorem loads_iff {userSettings : UserSettings γ} {userBefore user : User γ} {orgBefore org : Org γ}
    {memberBefore member : OrgMember γ} (key : String)
    (copied : Copied userSettings userBefore orgBefore memberBefore)
    (follows : Follows config edits userBefore orgBefore memberBefore user org member) :
    (∃ settings, settingsOf checks (validateOrgVersion config org) user member key =
        .ok settings) ↔ Loads config userSettings edits := by
  obtain ⟨solvability, condenser, mcp, -⟩ := validate_settings ..
  rw [settingsOf_ok_iff, solvability, condenser, mcp, follows.mcpConfig, follows.orgMcpConfig,
    copied.mcpConfig, copied.memberMcpConfig, follows.sounds, follows.solvability, follows.strategy,
    follows.disabledSkills, follows.condenserMaxSize, copied.sounds, copied.strategy,
    copied.disabledSkills, copied.solvability, copied.condenserMaxSize]
  rcases eq_nil_or_concat edits with rfl | ⟨prior, edit, rfl⟩
  · constructor
    · rintro ⟨sounds, solvable, strategy, mcpValid, skills, size⟩
      exact ⟨mcpValid, fun _ => ⟨sounds, solvable, strategy, skills, size⟩⟩
    · rintro ⟨mcpValid, row⟩
      have valid := row rfl
      exact ⟨valid.sounds, valid.solvability, valid.strategy, mcpValid, valid.disabledSkills,
        valid.condenserMaxSize⟩
  · simp only [concat_eq_append, last_concat]
    constructor
    · rintro ⟨-, -, -, mcpValid, -, -⟩
      exact ⟨by simpa using mcpValid, fun none => by simp at none⟩
    · rintro ⟨mcpValid, -⟩
      have settings := settings_eq config edit
      refine ⟨by simp, by simp, by simp, by simpa using mcpValid, ?_, ?_⟩
      · rw [settings]
        exact edit.item.disabledSkills_valid
      · rw [settings]
        exact edit.item.condenserMaxSize_valid

/-! ## The downgrade after the stores -/

section Downgrade

variable (database : Database γ) (userId : String) (userSettings : UserSettings γ)
  (given : MigrationGiven)

/-- The settings row that a downgrade writes has the model, the base URL and the key that were loaded
just before. -/
def CarriesLoaded (checks : Checks γ) (current : Database γ) (userInfo : Option MigrationGiven)
    (downgrade : DowngradeGiven) : Prop :=
  ∀ loaded settings,
    load checks config legacy jwe current userId userInfo = (loaded, .ok (some settings)) →
      ∃ after written,
        downgradeUser legacy jwe loaded userId downgrade = .ok (after, some written) ∧
        written.llmModel = settings.llmModel ∧ written.llmBaseUrl = settings.llmBaseUrl ∧
        written.llmApiKey.map legacy.opened = settings.llmApiKey

/-- Where there is a key, the settings row carries what was loaded exactly when it was loaded or the
old model and base URL are in force and the key is not encrypted itself. -/
theorem carriesLoaded_iff {current : Database γ} {user : User γ} {org : Org γ} {member : OrgMember γ}
    (personal : Personal current userId (marked userSettings) user org member)
    {key : String} {byor : Option String}
    (known : givenKey jwe member.llmApiKeyColumn = .ok (some key))
    (knownByor : columnKey jwe member.llmApiKeyForByorColumn = .ok byor)
    (userInfo : Option MigrationGiven) (downgrade : DowngradeGiven) :
    CarriesLoaded config legacy jwe userId checks current userInfo downgrade ↔
      ((∃ settings, settingsOf checks (validateOrgVersion config org) user member key =
          .ok settings) →
        overridden member.llmModel (validateOrgVersion config org).defaultLlmModel =
            userSettings.llmModel ∧
          overridden member.llmBaseUrl org.defaultLlmBaseUrl = userSettings.llmBaseUrl ∧
          legacy.opened key = key) := by
  have loading : load checks config legacy jwe current userId userInfo = _ :=
    load_personal config legacy jwe personal key _ known
  rw [knownByor] at loading
  have downgrading := (validated_personal config personal).downgradeUser legacy jwe downgrade
  have copied : copyKeys legacy jwe downgrade member (marked userSettings) =
      .ok (withKeys legacy downgrade (some key) byor (marked userSettings)) := by
    simp only [copyKeys, known, knownByor]
    rfl
  rw [copied] at downgrading
  have baseUrl := (validate_settings config org).2.2.2
  constructor
  · rintro carries ⟨settings, made⟩
    rw [made] at loading
    obtain ⟨after, written, downgraded, model, url, same⟩ := carries _ settings loading
    obtain ⟨-, ended⟩ := Prod.mk.inj (Except.ok.inj (downgrading.symm.trans downgraded))
    obtain rfl := Option.some.inj ended
    obtain ⟨settingsModel, settingsUrl, settingsKey⟩ := settingsOf_llm made
    rw [settingsModel] at model
    rw [settingsUrl, baseUrl] at url
    rw [settingsKey] at same
    refine ⟨model.symm, url.symm, ?_⟩
    simpa [reencrypt, withKeys, copyKey, UserSettings.decryptLegacyModel, UserSettings.mapKeys]
      using same
  · intro inForce loaded settings loads
    rw [loading] at loads
    obtain ⟨rfl, returned⟩ := Prod.mk.inj loads
    cases made : settingsOf checks (validateOrgVersion config org) user member key with
    | error raised =>
      rw [made] at returned
      cases returned
    | ok result =>
      rw [made] at returned
      obtain rfl := Option.some.inj (Except.ok.inj returned)
      obtain ⟨model, url, same⟩ := inForce ⟨result, made⟩
      obtain ⟨settingsModel, settingsUrl, settingsKey⟩ := settingsOf_llm made
      refine ⟨_, _, downgrading, ?_, ?_, ?_⟩
      · rw [settingsModel, model]
        rfl
      · rw [settingsUrl, baseUrl, url]
        rfl
      · rw [settingsKey]
        simp [reencrypt, withKeys, copyKey, UserSettings.decryptLegacyModel, UserSettings.mapKeys,
          same]

/-- The migration changes no more of the settings than their keys. -/
theorem migratedSettings_eq : migratedSettings config legacy given.generated userSettings =
      { userSettings with
          llmApiKey := (migratedSettings config legacy given.generated userSettings).llmApiKey
          llmApiKeyForByor :=
            (migratedSettings config legacy given.generated userSettings).llmApiKeyForByor
          searchApiKey := userSettings.searchApiKey.map legacy.opened
          sandboxApiKey := userSettings.sandboxApiKey.map legacy.opened } := by
  simp only [migratedSettings, migrateEntries]
  split
  · cases given.generated <;> rfl
  · rfl

/-- The key of the membership after the migration. -/
def migratedKey : Option String :=
  (migratedSettings config legacy given.generated userSettings).llmApiKey

/-- The model that is in force after some stores: without a model of the membership, the default of the
organisation, which is brought up to date when it is loaded. -/
def modelInForce (edits : List (Edit checks)) : Option String :=
  let custom := isCustom config legacy userSettings given
  overridden (last config Settings.llmModel (if custom then userSettings.llmModel else none) edits)
    (if !custom ∧ userSettings.userVersion < orgSettingsVersion then
      some (getDefaultLitellmModel config)
    else lastSet config "llm_model" Settings.llmModel
      (if custom then some (getDefaultLitellmModel config) else userSettings.llmModel) edits)

/-- The base URL that is in force after some stores. -/
def baseUrlInForce (edits : List (Edit checks)) : Option String :=
  overridden
    (last config Settings.llmBaseUrl
      (if isCustom config legacy userSettings given then userSettings.llmBaseUrl else none) edits)
    (lastSet config "llm_base_url" Settings.llmBaseUrl userSettings.llmBaseUrl edits)

/-- There is a key after the migration and every store gives one. -/
def Keyed (edits : List (Edit checks)) : Prop :=
  truthy (migratedKey config legacy userSettings given) ∧
    ∀ edit ∈ edits, truthy (edit.settings config).llmApiKey

/-- What is in force after some stores is what the settings row says, and the key is not itself an
encrypted one. -/
structure InForce (edits : List (Edit checks)) : Prop where
  model : modelInForce config legacy userSettings given edits = userSettings.llmModel
  baseUrl : baseUrlInForce config legacy userSettings given edits = userSettings.llmBaseUrl
  key : ∀ key ∈ last config Settings.llmApiKey (migratedKey config legacy userSettings given) edits,
    legacy.opened key = key

/-- After a migration and any stores, the downgraded settings row has the model, the base URL and the
key that were loaded just before. -/
def Carried (edits : List (Edit checks)) (userInfo : Option MigrationGiven)
    (downgrade : DowngradeGiven) : Prop :=
  ∀ middle, migrateUser config legacy jwe database userId userSettings given = .ok middle →
    CarriesLoaded config legacy jwe userId checks
      (storeAll config legacy jwe middle userId edits) userInfo downgrade

theorem migrated_copied (completed : Bool) (roleId : Nat) (custom : Bool) : Copied userSettings
      (migratedUser userId (migratedSettings config legacy given.generated userSettings))
      (migratedOrg config jwe userId completed custom given
        (migratedSettings config legacy given.generated userSettings))
      (migratedMember jwe userId roleId custom given
        (migratedSettings config legacy given.generated userSettings)) := by
  rw [migratedSettings_eq]
  constructor <;> rfl

/-- After stores that are followed from the migration on, the model and the base URL of the three rows are those
in force. -/
theorem inForce_of_follows {completed : Bool} {roleId : Nat} {edits : List (Edit checks)}
    {user : User γ} {org : Org γ} {member : OrgMember γ}
    (follows : Follows config edits
      (migratedUser userId (migratedSettings config legacy given.generated userSettings))
      (migratedOrg config jwe userId completed (isCustom config legacy userSettings given) given
        (migratedSettings config legacy given.generated userSettings))
      (migratedMember jwe userId roleId (isCustom config legacy userSettings given) given
        (migratedSettings config legacy given.generated userSettings)) user org member) :
    overridden member.llmModel (validateOrgVersion config org).defaultLlmModel =
        modelInForce config legacy userSettings given edits ∧
      overridden member.llmBaseUrl org.defaultLlmBaseUrl =
        baseUrlInForce config legacy userSettings given edits := by
  have settings := migratedSettings_eq config legacy userSettings given
  have model : (migratedSettings config legacy given.generated userSettings).llmModel =
      userSettings.llmModel := by rw [settings]
  have url : (migratedSettings config legacy given.generated userSettings).llmBaseUrl =
      userSettings.llmBaseUrl := by rw [settings]
  have version : (migratedSettings config legacy given.generated userSettings).userVersion =
      userSettings.userVersion := by rw [settings]
  constructor
  · rw [validate_default, follows.orgVersion, follows.defaultLlmModel, follows.llmModel, modelInForce]
    simp only [migratedOrg, migratedMember, model, version]
    cases isCustom config legacy userSettings given with
    | true => simp
    | false => simp
  · rw [follows.defaultLlmBaseUrl, follows.llmBaseUrl, baseUrlInForce]
    simp [migratedOrg, migratedMember, url]

end Downgrade

section Exact

variable (database : Database γ) (userId : String) (userSettings : UserSettings γ)
  (given : MigrationGiven)

/-- The downgraded row carries what was loaded exactly when the old model and base URL are in force, where
the user is migrated, there are keys, and the settings are loaded at all. -/
theorem carried_iff (consistent : Consistent database)
    (unmigrated : Unmigrated database userId userSettings) (edits : List (Edit checks))
    (userInfo : Option MigrationGiven) (downgrade : DowngradeGiven) :
    Carried config legacy jwe database userId userSettings given edits userInfo downgrade ↔
      (Migrates database userId given → Keyed config legacy userSettings given edits →
        Loads config userSettings edits → InForce config legacy userSettings given edits) := by
  have after : ∀ roleId, CarriesLoaded config legacy jwe userId checks
          (storeAll config legacy jwe (migrated config legacy jwe database userId userSettings given
            roleId (database.stripeCustomers.map (migrateRow userId given.now))) userId edits)
          userInfo downgrade ↔
        (Keyed config legacy userSettings given edits → Loads config userSettings edits →
          InForce config legacy userSettings given edits) := by
    intro roleId
    obtain ⟨user, org, member, personal, decrypted, follows⟩ := storeAll_personal _ _ jwe
      (migrated_personal _ _ jwe _ _ _ _ consistent unmigrated
        ..) (jwe.decrypt_encrypt _ _) _
    have keyed := truthy_keyAfter_iff config (migratedKey config legacy userSettings given) edits
    by_cases known : truthy (keyAfter config (migratedKey config legacy userSettings given) edits)
    · have lastKey := keyAfter_eq_last _ known
      obtain ⟨key, same⟩ : ∃ key,
          keyAfter config (migratedKey config legacy userSettings given) edits = some key := by
        cases now : keyAfter config (migratedKey config legacy userSettings given) edits with
        | some key => exact ⟨key, rfl⟩
        | none => simp [now, truthy] at known
      have followed := follows known
      have byor := columnKey_encryptGiven jwe (given.salt "llm_api_key_for_byor")
        (migratedSettings config legacy given.generated userSettings).llmApiKeyForByor
      rw [show encryptGiven jwe (given.salt "llm_api_key_for_byor") _ =
        member.llmApiKeyForByorColumn from followed.byor.symm] at byor
      rw [carriesLoaded_iff _ _ jwe _ _ personal
        ((givenKey_iff jwe decrypted key).mpr ⟨same, known⟩) byor ..,
        loads_iff _ key
          (migrated_copied ..) followed]
      obtain ⟨model, url⟩ := inForce_of_follows _ _ jwe _ _ _
        followed
      rw [model, url]
      rw [lastKey] at same
      constructor
      · intro inForce _ loads
        obtain ⟨sameModel, sameUrl, sameKey⟩ := inForce loads
        refine ⟨sameModel, sameUrl, fun other isLast => ?_⟩
        obtain rfl := Option.some.inj (same.symm.trans isLast)
        exact sameKey
      · intro inForce loads
        obtain ⟨sameModel, sameUrl, sameKey⟩ := inForce (keyed.mp known) loads
        exact ⟨sameModel, sameUrl, sameKey key same⟩
    · refine iff_of_true ?_ fun given => absurd (keyed.mpr given) known
      intro loaded settings loads
      refine absurd (congrArg Prod.snd loads) ?_
      exact load_without_key _ _ jwe personal _ _ fun value isGiven =>
        known ((givenKey_iff jwe decrypted _).mp isGiven).2
  constructor
  · intro carried migrates
    obtain ⟨roleId, owner⟩ := Option.ne_none_iff_exists'.mp migrates.owner
    exact (after roleId).mp (carried _ ((migrateUser_ok_iff _ _ jwe _ _
      _ _ unmigrated _).mpr ⟨migrates, roleId, owner, rfl⟩))
  · intro inForce middle migration
    obtain ⟨migrates, roleId, -, rfl⟩ := (migrateUser_ok_iff _ _ jwe _ _
      _ _ unmigrated ..).mp migration
    exact (after roleId).mpr (inForce migrates)

/-- A downgrade right after the migration restores every table exactly where the migration is
undoable; and after any stores in between the settings row has the model, the base URL and the key that
were loaded last exactly where these are in force. -/
theorem downgrade_undoes (consistent : Consistent database)
    (unmigrated : Unmigrated database userId userSettings) (edits : List (Edit checks))
    (userInfo : Option MigrationGiven) (downgrade : DowngradeGiven) :
    (Restored config legacy jwe database userId userSettings given downgrade ↔
      Undoable config legacy database userId userSettings given) ∧
    (Carried config legacy jwe database userId userSettings given edits userInfo downgrade ↔
      (Migrates database userId given → Keyed config legacy userSettings given edits →
        Loads config userSettings edits → InForce config legacy userSettings given edits)) :=
  ⟨restored_iff _ _ jwe _ _ _ _ consistent unmigrated ..,
    carried_iff _ _ jwe _ _ _ _ consistent unmigrated ..⟩

end Exact

/-! ## A user -/

/-- A text is encrypted by a mark before it. -/
def marking : Cipher String where
  encrypt _ plain := String.ofList ('#' :: plain.toList)
  decrypt text :=
    match text.toList with
    | '#' :: rest => some (String.ofList rest)
    | _ => none
  decrypt_encrypt _ plain := by simp
  decrypt_empty := rfl

/-- That there is no key has a mark of its own. -/
def markingNone : Cipher (Option String) where
  encrypt _ key :=
    match key with
    | some plain => String.ofList ('+' :: plain.toList)
    | none => "-"
  decrypt text :=
    match text.toList with
    | ['-'] => some none
    | '+' :: rest => some (some (String.ofList rest))
    | _ => none
  decrypt_encrypt _ key := by
    cases key with
    | some plain => simp
    | none => rfl
  decrypt_empty := rfl

/-- The settings of a user with a model, a base URL and a key of another provider. -/
def exampleRow (key : Option String) : UserSettings Unit where
  id := 1
  keycloakUserId := some "user"
  language := some "en"
  agent := none
  maxIterations := none
  securityAnalyzer := none
  confirmationMode := none
  llmModel := some "provider/large"
  llmApiKey := key
  llmApiKeyForByor := none
  llmBaseUrl := some "https://provider"
  remoteRuntimeResourceFactor := none
  enableDefaultCondenser := true
  condenserMaxSize := none
  userConsentsToAnalytics := none
  billingMargin := none
  enableSoundNotifications := some false
  enableProactiveConversationStarters := true
  sandboxBaseContainerImage := none
  sandboxRuntimeContainerImage := none
  sandboxGroupingStrategy := none
  userVersion := 5
  acceptedTos := none
  mcpConfig := none
  disabledSkills := none
  searchApiKey := none
  sandboxApiKey := none
  maxBudgetPerTask := none
  enableSolvabilityAnalysis := some false
  email := none
  emailVerified := none
  gitUserName := none
  gitUserEmail := none
  v1Enabled := none
  alreadyMigrated := some false

/-- The user has a conversation and a key for the service. -/
def exampleDatabase (key : Option String) : Database Unit where
  userSettings := [exampleRow key]
  orgs := []
  users := []
  orgMembers := []
  roles := [("owner", 1)]
  conversationMetadata := [⟨"conversation", some "user"⟩]
  conversationMetadataSaas := []
  stripeCustomers := []
  slackUsers := []
  slackConversation := []
  apiKeys := [⟨some "user", none, 1⟩]
  customSecrets := []
  billingSessions := []

def exampleConfig : Config := ⟨"https://proxy", none, true⟩

def exampleGiven : MigrationGiven := ⟨some "user@example.org", none, 0, fun _ => 0⟩

def exampleEdit (model url key : String) : Edit (⟨fun _ => true, fun _ => true⟩ : Checks Unit) where
  given := ⟨true, "generated", fun _ => 0, none⟩
  item :=
    { settings :=
        { language := some "en", agent := none, maxIterations := none, securityAnalyzer := none,
          confirmationMode := none, llmModel := some model, llmApiKey := some key,
          llmBaseUrl := some url, remoteRuntimeResourceFactor := none,
          enableDefaultCondenser := true, enableSoundNotifications := false,
          enableProactiveConversationStarters := true, enableSolvabilityAnalysis := false,
          userConsentsToAnalytics := none, sandboxBaseContainerImage := none,
          sandboxRuntimeContainerImage := none, mcpConfig := none, disabledSkills := none,
          searchApiKey := none, sandboxApiKey := none, maxBudgetPerTask := none,
          condenserMaxSize := none, email := none, emailVerified := none, gitUserName := none,
          gitUserEmail := none, v1Enabled := true, sandboxGroupingStrategy := .noGrouping }
      fieldsSet := ["llm_model", "llm_base_url", "llm_api_key"]
      mcpConfig_valid := rfl
      disabledSkills_valid := rfl
      condenserMaxSize_valid := rfl }

theorem example_consistent : Consistent (exampleDatabase key) := by
  constructor <;> simp [exampleDatabase]

theorem example_unmigrated : Unmigrated (exampleDatabase key) "user" (exampleRow key) := by
  constructor <;> simp [exampleDatabase, exampleRow, Free]

theorem example_migrates : Migrates (exampleDatabase key) "user" exampleGiven := by
  constructor <;> simp [exampleDatabase, exampleGiven]

/-- The row of a user who has moved to another provider keeps the old model and base URL and gets the
new key; and a user without a key cannot be downgraded at all. -/
theorem moved_key_mixed :
    ¬ Carried exampleConfig marking markingNone (exampleDatabase (some "#old")) "user"
        (exampleRow (some "#old")) exampleGiven
        [exampleEdit "other/small" "https://other" "new"] none ⟨fun _ => 0, 2⟩ ∧
      ¬ Restored exampleConfig marking markingNone (exampleDatabase none) "user" (exampleRow none)
        exampleGiven ⟨fun _ => 0, 2⟩ := by
  constructor
  · rw [carried_iff _ _ _ _ _ _ _ (example_consistent _) (example_unmigrated _)]
    intro carried
    have inForce := carried (example_migrates _)
      ⟨by decide +kernel, by decide +kernel⟩ ⟨by decide +kernel, fun none => by cases none⟩
    have model := inForce.model
    revert model
    decide +kernel
  · rw [restored_iff _ _ _ _ _ _ _ (example_consistent _) (example_unmigrated _)]
    intro undoable
    have hasKey := undoable.hasKey
    revert hasKey
    decide +kernel

/-- A user whose key is replaced by another one for the same model and base URL. -/
theorem downgrade_undoes_new_key :
    Restored exampleConfig marking markingNone (exampleDatabase (some "#old")) "user"
        (exampleRow (some "#old")) exampleGiven ⟨fun _ => 0, 2⟩ ∧
      Carried exampleConfig marking markingNone (exampleDatabase (some "#old")) "user"
        (exampleRow (some "#old")) exampleGiven
        [exampleEdit "provider/large" "https://provider" "new"] none ⟨fun _ => 0, 2⟩ := by
  have exact := downgrade_undoes exampleConfig marking markingNone (exampleDatabase (some "#old")) "user"
    (exampleRow (some "#old")) exampleGiven (example_consistent _) (example_unmigrated _)
    [exampleEdit "provider/large" "https://provider" "new"] none ⟨fun _ => 0, 2⟩
  refine ⟨exact.1.mpr ⟨example_migrates _, rfl, ?_, ?_, ?_, ?_, ?_, ?_⟩,
    exact.2.mpr fun _ _ _ => ⟨?_, ?_, ?_⟩⟩
  · simp [exampleDatabase]
  · decide +kernel
  · unfold Regained
    decide +kernel
  · unfold Regained
    decide +kernel
  · unfold Regained
    decide +kernel
  · unfold Regained
    decide +kernel
  · decide +kernel
  · decide +kernel
  · intro key stored
    have same : some "new" = some key := stored
    cases same
    decide +kernel

end ForgePilot.SettingsDowngrade
