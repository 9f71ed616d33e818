import ForgePilot.UserMigration
import Mathlib.Data.List.Nodup

/-!
# A downgrade after a migration

What a migration creates, a downgrade deletes, and what it writes into rows that belonged to no
organisation is taken out again. The settings row itself is changed in three ways: it is
marked, two of its keys are copied from the membership, and all four are decrypted and encrypted on
trial. The tables are as before exactly when nothing is left of that, and when the time of the
migration is not seen at a Stripe customer.
-/

namespace ForgePilot.MigrationRoundTrip

open Ciphers UserTables UserMigration

variable {γ : Type}

/-! ## Databases and users -/

/-- What the constraints of the database guarantee. -/
structure Consistent (database : Database γ) : Prop where
  settingsIds : (database.userSettings.map UserSettings.id).Nodup
  conversationIds :
    (database.conversationMetadata.map ConversationMetadata.conversationId).Nodup
  members : ∀ member ∈ database.orgMembers, ∃ org ∈ database.orgs, org.id = member.orgId
  saas : ∀ row ∈ database.conversationMetadataSaas, ∃ user ∈ database.users, user.id = row.userId
  stripeCustomers : ∀ row ∈ database.stripeCustomers, ∀ orgId, row.orgId = some orgId →
    ∃ org ∈ database.orgs, org.id = orgId
  slackUsers : ∀ row ∈ database.slackUsers, ∀ orgId, row.orgId = some orgId →
    ∃ org ∈ database.orgs, org.id = orgId
  slackConversation : ∀ row ∈ database.slackConversation, ∀ orgId, row.orgId = some orgId →
    ∃ org ∈ database.orgs, org.id = orgId
  apiKeys : ∀ row ∈ database.apiKeys, ∀ orgId, row.orgId = some orgId →
    ∃ org ∈ database.orgs, org.id = orgId
  customSecrets : ∀ row ∈ database.customSecrets, ∀ orgId, row.orgId = some orgId →
    ∃ org ∈ database.orgs, org.id = orgId
  billingSessions : ∀ row ∈ database.billingSessions, ∀ orgId, row.orgId = some orgId →
    ∃ org ∈ database.orgs, org.id = orgId

/-- The rows of a user in a table belong to no organisation. -/
def Free {δ : Type} (userId : String) (table : List (Owned δ)) : Prop :=
  ∀ row ∈ table, row.userId = some userId → row.orgId = none

/-- A user with a settings row who was not migrated, and whose rows belong to no organisation. -/
structure Unmigrated (database : Database γ) (userId : String) (userSettings : UserSettings γ) :
    Prop where
  listed : userSettings ∈ database.userSettings
  named : userSettings.keycloakUserId = some userId
  unmarked : ∀ row ∈ database.userSettings, row.keycloakUserId = some userId →
    row.alreadyMigrated ≠ some true
  noUser : ∀ user ∈ database.users, user.id ≠ userId
  noOrg : ∀ org ∈ database.orgs, org.id ≠ userId
  conversations : ∀ row ∈ database.conversationMetadata, row.userId = some userId →
    ∀ other ∈ database.conversationMetadataSaas, other.conversationId ≠ row.conversationId
  stripeCustomers : Free userId database.stripeCustomers
  slackUsers : Free userId database.slackUsers
  slackConversation : Free userId database.slackConversation
  apiKeys : Free userId database.apiKeys
  customSecrets : Free userId database.customSecrets
  billingSessions : Free userId database.billingSessions

/-! ## Tables -/

section Tables

variable {δ : Type} (userId : String)

/-- What is assigned to an organisation that no row belonged to is released again. -/
theorem release_assign {table : List (Owned δ)} (free : Free userId table)
    (unused : ∀ row ∈ table, row.orgId ≠ some userId) :
    release userId (assign userId table) = table := by
  rw [release, assign, List.map_map]
  refine (List.map_congr_left fun row listed => ?_).trans (List.map_id table)
  by_cases owned : row.userId = some userId
  · obtain ⟨owner, orgId, rest⟩ := row
    have none : orgId = none := free _ listed owned
    have here : owner = some userId := owned
    simp [here, none]
  · simp [owned, unused row listed]

/-- A Stripe customer is left with the time of the migration. -/
def touch (now : Nat) (row : Owned StripeCustomer) : Owned StripeCustomer :=
  if row.userId = some userId then { row with rest := { row.rest with updatedAt := now } } else row

theorem release_assign_migrate (now : Nat) (table : List (Owned StripeCustomer))
    (free : Free userId table) (unused : ∀ row ∈ table, row.orgId ≠ some userId) :
    release userId (assign userId (table.map (migrateRow userId now))) =
      table.map (touch userId now) := by
  rw [release, assign, List.map_map, List.map_map]
  refine List.map_congr_left fun row listed => ?_
  by_cases owned : row.userId = some userId
  · obtain ⟨owner, orgId, rest⟩ := row
    have none : orgId = none := free _ listed owned
    have here : owner = some userId := owned
    simp [migrateRow, touch, here, none]
  · simp [migrateRow, touch, owned, unused row listed]

theorem map_touch_iff (now : Nat) (table : List (Owned StripeCustomer)) :
    table.map (touch userId now) = table ↔
      ∀ row ∈ table, row.userId = some userId → row.rest.updatedAt = now := by
  have pointwise := List.map_inj_left (l := table) (f := touch userId now) (g := id)
  rw [List.map_id] at pointwise
  rw [pointwise]
  refine forall₂_congr fun row _ => ?_
  obtain ⟨owner, orgId, id, customer, updatedAt⟩ := row
  by_cases owned : owner = some userId
  · simp [touch, owned, eq_comm]
  · simp [touch, owned]

/-- A row that is appended under a new key is the only one that is taken out by this key. -/
theorem filter_append_new {α : Type} {key : α → String} {table : List α} {new : α}
    (absent : ∀ row ∈ table, key row ≠ userId) (keyed : key new = userId) :
    (table ++ [new]).filter (fun row => key row = userId) = [new] ∧
      (table ++ [new]).filter (fun row => key row ≠ userId) = table := by
  constructor
  · rw [List.filter_append, List.filter_eq_nil_iff.mpr (by simpa using absent)]
    simp [keyed]
  · rw [List.filter_append, List.filter_eq_self.mpr (by simpa using absent)]
    simp [keyed]

/-- The row that a filter leaves is the first that it accepts. -/
theorem find_of_filter {α : Type} {accepts : α → Bool} {table : List α} {only : α}
    (left : table.filter accepts = [only]) : table.find? accepts = some only := by
  rw [← List.head?_filter, left]
  rfl

variable (saas : List ConversationMetadataSaas) (table : List ConversationMetadata)

/-- Conversations get back the user that they have. -/
theorem restore_conversations (distinct : (table.map ConversationMetadata.conversationId).Nodup)
    (unused : ∀ row ∈ saas, row.userId ≠ userId) :
    restoreConversations userId (saas ++ migratedConversations userId table) table = table := by
  rw [restoreConversations]
  refine (List.map_congr_left fun row listed => ?_).trans (List.map_id table)
  split
  · rename_i found
    obtain ⟨other, member, same⟩ := List.any_eq_true.mp found
    have both : other.userId = userId ∧ other.conversationId = row.conversationId := by
      simpa using same
    rcases List.mem_append.mp member with old | new
    · exact absurd both.1 (unused other old)
    obtain ⟨source, chosen, rfl⟩ := List.mem_map.mp new
    obtain ⟨sourceListed, owned⟩ := List.mem_filter.mp chosen
    have equal : source = row := List.inj_on_of_nodup_map distinct sourceListed listed both.2
    subst equal
    have here : source.userId = some userId := by simpa using owned
    rw [← here]
    rfl
  · rfl

/-- The rows that a migration adds for conversations are taken out again. -/
theorem filter_conversations (unused : ∀ row ∈ saas, row.userId ≠ userId) :
    (saas ++ migratedConversations userId table).filter (fun row => row.userId ≠ userId) = saas := by
  rw [List.filter_append, List.filter_eq_self.mpr (by simpa using unused),
    List.filter_eq_nil_iff.mpr ?_, List.append_nil]
  intro row added
  obtain ⟨source, -, rfl⟩ := List.mem_map.mp added
  simp

end Tables

/-- A row that is written back twice is there once. -/
theorem merge_merge (first second : UserSettings γ) (table : List (UserSettings γ))
    (same : first.id = second.id) : merge second (merge first table) = merge second table := by
  rw [merge, merge, merge, List.map_map]
  refine List.map_congr_left fun row _ => ?_
  by_cases here : row.id = second.id <;> simp [here, same]

/-! ## The settings row -/

section Keys

variable (legacy : Cipher String) (jwe : Cipher (Option String))

/-- A key that is not empty. -/
def nonEmpty (key : Option String) : Option String := key.filter (fun value => value ≠ "")

/-- A stored key stands for what it stood for after another one was copied over it, or after it was
decrypted once. -/
def Regained (copied stored : Option String) : Prop :=
  (copied.or (stored.map legacy.opened)).map legacy.opened = stored.map legacy.opened

variable (salt : Nat) (key : Option String)

@[simp] theorem map_opened_closed :
    (key.map (legacy.closed salt)).map legacy.opened = key.map legacy.opened := by
  cases key <;> simp

theorem map_opened_copyKey (stored copied : Option String) :
    (copyKey legacy salt stored copied).map legacy.opened =
      copied.or (stored.map legacy.opened) := by
  cases copied <;> simp [copyKey]

/-- The settings row of a user who was migrated. -/
def marked (userSettings : UserSettings γ) : UserSettings γ :=
  { userSettings with alreadyMigrated := some true }

/-- What the settings row stands for that a downgrade writes is what it stood for exactly when it was
marked as not migrated and its keys are regained. -/
theorem reencrypt_copied_iff (userSettings : UserSettings γ) (given : DowngradeGiven)
    (key byor : Option String) :
    (reencrypt legacy given (withKeys legacy given key byor (marked userSettings))).decryptLegacyModel
          legacy = userSettings.decryptLegacyModel legacy ↔
      userSettings.alreadyMigrated = some false ∧ Regained legacy key userSettings.llmApiKey ∧
        Regained legacy byor userSettings.llmApiKeyForByor ∧
        Regained legacy none userSettings.searchApiKey ∧
        Regained legacy none userSettings.sandboxApiKey := by
  simp only [reencrypt, withKeys, marked, UserSettings.decryptLegacyModel, UserSettings.mapKeys,
    map_opened_closed, map_opened_copyKey, UserSettings.mk.injEq, true_and, Regained,
    Option.none_or]
  tauto

/-- The key of a membership that was just encrypted is given unless it is empty, and asking for it
raises where there is none. -/
theorem givenKey_encrypt : givenKey jwe (jwe.encrypt salt key) = match key with
      | none => .error .typeError
      | some value => .ok (nonEmpty (some value)) := by
  rw [givenKey, jwe.decrypt_encrypt]
  cases key with
  | none => rfl
  | some value => by_cases empty : value = "" <;> simp [nonEmpty, Option.filter, empty]

theorem columnKey_encryptGiven :
    columnKey jwe (encryptGiven jwe salt key) = .ok (nonEmpty key) := by
  cases key with
  | none => rfl
  | some value =>
    by_cases empty : value = ""
    · simp [encryptGiven, truthy, columnKey, nonEmpty, Option.filter, empty]
    · have column : encryptGiven jwe salt (some value) = some (jwe.encrypt salt (some value)) := by
        simp [encryptGiven, truthy, empty]
      rw [column, columnKey, if_neg (jwe.encrypt_ne_empty salt (some value)), givenKey_encrypt]

/-- A table is unchanged up to a view of its rows exactly when the row that is written back is. -/
theorem map_merge_iff {β : Type} (view : UserSettings γ → β) {written row : UserSettings γ}
    {table : List (UserSettings γ)} (distinct : (table.map UserSettings.id).Nodup)
    (listed : row ∈ table) (same : written.id = row.id) :
    (merge written table).map view = table.map view ↔ view written = view row := by
  rw [merge, List.map_map, List.map_inj_left]
  constructor
  · intro unchanged
    simpa [same] using unchanged row listed
  · intro equal other otherListed
    by_cases here : other.id = written.id
    · have identical : other = row :=
        List.inj_on_of_nodup_map distinct otherListed listed (here.trans same)
      subst identical
      simpa [here] using equal
    · simp [here]

end Keys

/-! ## The rows of a user -/

/-- The rows that a migrated user has alone. -/
structure Personal (database : Database γ) (userId : String) (userSettings : UserSettings γ)
    (user : User γ) (org : Org γ) (member : OrgMember γ) : Prop where
  users : database.users.filter (fun row => row.id = userId) = [user]
  orgs : database.orgs.filter (fun row => row.id = userId) = [org]
  members : database.orgMembers.filter (fun row => row.orgId = userId) = [member]
  current : user.currentOrgId = userId
  owned : member.userId = userId
  settings : findMigrated database userId = some userSettings

namespace Personal

variable {database : Database γ} {userId : String} {userSettings : UserSettings γ} {user : User γ}
  {org : Org γ} {member : OrgMember γ}

section

variable (personal : Personal database userId userSettings user org member)
include personal

theorem user_id : user.id = userId := by
  have listed : user ∈ database.users.filter (fun row => row.id = userId) := by
    rw [personal.users]
    exact .head _
  simpa using (List.mem_filter.mp listed).2

theorem org_id : org.id = userId := by
  have listed : org ∈ database.orgs.filter (fun row => row.id = userId) := by
    rw [personal.orgs]
    exact .head _
  simpa using (List.mem_filter.mp listed).2

theorem member_orgId : member.orgId = userId := by
  have listed : member ∈ database.orgMembers.filter (fun row => row.orgId = userId) := by
    rw [personal.members]
    exact .head _
  simpa using (List.mem_filter.mp listed).2

theorem find_user : database.users.find? (fun row => row.id = userId) = some user :=
  find_of_filter personal.users

theorem find_org : database.orgs.find? (fun row => row.id = userId) = some org :=
  find_of_filter personal.orgs

/-- A downgrade copies the keys of the membership into the settings row. -/
theorem downgradeUser (legacy : Cipher String) (jwe : Cipher (Option String))
    (given : DowngradeGiven) :
    downgradeUser legacy jwe database userId given = (do
      let copied ← copyKeys legacy jwe given member userSettings
      return ({ downgraded database userId with
        userSettings := merge (reencrypt legacy given copied) database.userSettings },
        some (reencrypt legacy given copied))) := by
  rw [UserMigration.downgradeUser, personal.find_user, personal.find_org]
  simp [personal.org_id, personal.members, personal.settings]

end

end Personal

/-! ## The migration -/

section Migration

variable (config : Config) (legacy : Cipher String) (jwe : Cipher (Option String))
  (database : Database γ) (userId : String) (userSettings : UserSettings γ) (given : MigrationGiven)

/-- What a migration of an unmigrated user needs. -/
structure Migrates : Prop where
  email : given.email ≠ none
  named : ∀ org ∈ database.orgs, org.name ≠ personalName userId
  customer : (database.stripeCustomers.filter (fun row => row.userId = some userId)).length ≤ 1
  owner : database.roles.lookup "owner" ≠ none

/-- Whether the settings that are migrated are custom. -/
def isCustom : Bool :=
  hasCustomSettings config (migratedSettings config legacy given.generated userSettings)
    userSettings.userVersion

theorem not_orgTaken (unmigrated : Unmigrated database userId userSettings)
    (named : ∀ org ∈ database.orgs, org.name ≠ personalName userId) :
    orgTaken database userId = false := by
  rw [orgTaken, List.any_eq_false]
  intro org listed
  simpa using ⟨unmigrated.noOrg org listed, named org listed⟩

theorem not_userTaken (unmigrated : Unmigrated database userId userSettings) :
    userTaken database userId = false := by
  rw [userTaken, Bool.or_eq_false_iff, List.any_eq_false, List.any_eq_false]
  constructor
  · intro user listed
    simpa using unmigrated.noUser user listed
  · intro row added
    obtain ⟨source, chosen, rfl⟩ := List.mem_map.mp added
    obtain ⟨sourceListed, owned⟩ := List.mem_filter.mp chosen
    have absent := unmigrated.conversations source sourceListed (by simpa using owned)
    simpa using absent

/-- An unmigrated user is migrated exactly when nothing that is needed is missing. -/
theorem migrateUser_ok_iff (unmigrated : Unmigrated database userId userSettings)
    (middle : Database γ) :
    migrateUser config legacy jwe database userId userSettings given = .ok middle ↔
      Migrates database userId given ∧ ∃ roleId, database.roles.lookup "owner" = some roleId ∧
        middle = migrated config legacy jwe database userId userSettings given roleId
          (database.stripeCustomers.map (migrateRow userId given.now)) := by
  constructor
  · intro done
    rw [migrateUser] at done
    split at done
    · cases done
    rename_i known
    split at done
    · cases done
    rename_i free
    have named : ∀ org ∈ database.orgs, org.name ≠ personalName userId := by
      intro org listed same
      refine free (List.any_eq_true.mpr ⟨org, listed, ?_⟩)
      simp [same]
    rw [migrateCustomer] at done
    by_cases one :
        (database.stripeCustomers.filter (fun row => row.userId = some userId)).length ≤ 1
    · rw [if_pos one] at done
      cases owner : database.roles.lookup "owner" with
      | none => simp [owner] at done
      | some roleId =>
        simp only [owner, not_userTaken _ _ _ unmigrated] at done
        refine ⟨⟨known, named, one, by simp [owner]⟩, roleId, rfl, ?_⟩
        simpa using done.symm
    · rw [if_neg one] at done
      cases done
  · rintro ⟨migrates, roleId, owner, rfl⟩
    rw [migrateUser, if_neg migrates.email,
      not_orgTaken _ _ _ unmigrated migrates.named, migrateCustomer,
      if_pos migrates.customer]
    simp [owner, not_userTaken _ _ _ unmigrated]

/-- Organisations that do not exist are not referred to. -/
theorem unused_of_consistent {δ : Type} (unmigrated : Unmigrated database userId userSettings)
    (table : List (Owned δ))
    (refers : ∀ row ∈ table, ∀ orgId, row.orgId = some orgId →
      ∃ org ∈ database.orgs, org.id = orgId) :
    ∀ row ∈ table, row.orgId ≠ some userId := by
  intro row listed refersHere
  obtain ⟨org, orgListed, same⟩ := refers row listed userId refersHere
  exact unmigrated.noOrg org orgListed same

/-- The settings row of a user who was just migrated is the only one that is marked. -/
theorem find_marked (consistent : Consistent database)
    (unmigrated : Unmigrated database userId userSettings) :
    (merge (marked userSettings) database.userSettings).find? (fun row =>
      row.keycloakUserId = some userId ∧ row.alreadyMigrated = some true) =
        some (marked userSettings) := by
  rw [List.find?_eq_some_iff_append]
  obtain ⟨before, after, split⟩ := List.append_of_mem unmigrated.listed
  have distinct := consistent.settingsIds
  rw [split, List.map_append, List.map_cons] at distinct
  have earlier : ∀ row ∈ before, row.id ≠ userSettings.id := by
    intro row listed same
    have apart := (List.nodup_append.mp distinct).2.2 row.id (List.mem_map_of_mem listed)
    exact apart userSettings.id (.head _) same
  refine ⟨by simp [marked, unmigrated.named], merge (marked userSettings) before,
    merge (marked userSettings) after, ?_, ?_⟩
  · rw [split, merge, List.map_append, List.map_cons]
    simp [merge, marked]
  · intro row listed
    obtain ⟨source, sourceListed, rfl⟩ := List.mem_map.mp listed
    have member : source ∈ database.userSettings := by
      rw [split]
      exact List.mem_append_left _ sourceListed
    have other : ¬ source.id = (marked userSettings).id := earlier source sourceListed
    rw [if_neg other]
    have unmarked := unmigrated.unmarked source member
    simpa [imp_iff_not_or] using unmarked

theorem migrated_personal (consistent : Consistent database)
    (unmigrated : Unmigrated database userId userSettings) (roleId : Nat)
    (customers : List (Owned StripeCustomer)) :
    let settings := migratedSettings config legacy given.generated userSettings
    let custom := isCustom config legacy userSettings given
    let completed := database.billingSessions.any
      (fun row => row.userId = some userId ∧ row.rest.status = .completed)
    Personal (migrated config legacy jwe database userId userSettings given roleId customers) userId
      (marked userSettings) (migratedUser userId settings)
      (migratedOrg config jwe userId completed custom given settings)
      (migratedMember jwe userId roleId custom given settings) where
  users := (filter_append_new _ unmigrated.noUser rfl).1
  orgs := (filter_append_new _ unmigrated.noOrg rfl).1
  members := by
    refine (filter_append_new userId ?_ rfl).1
    intro member listed same
    obtain ⟨org, orgListed, here⟩ := consistent.members member listed
    exact unmigrated.noOrg org orgListed (here.trans same)
  current := rfl
  owned := rfl
  settings := find_marked _ _ _ consistent unmigrated

end Migration

/-! ## The round trip -/

section RoundTrip

variable (config : Config) (legacy : Cipher String) (jwe : Cipher (Option String))
  (database : Database γ) (userId : String) (userSettings : UserSettings γ) (given : MigrationGiven)

/-- A downgrade right after the migration gives back the content of every table, with the keys of the
settings decrypted. -/
def Restored (downgrade : DowngradeGiven) : Prop :=
  ∃ middle after written,
    migrateUser config legacy jwe database userId userSettings given = .ok middle ∧
    downgradeUser legacy jwe middle userId downgrade = .ok (after, some written) ∧
    after.decrypted legacy = database.decrypted legacy

/-- Where a downgrade undoes the migration: the migration succeeds, the row was marked as not migrated,
there is a key, Stripe customers were updated when the migration runs, and all keys are regained. -/
structure Undoable : Prop where
  migrates : Migrates database userId given
  marked : userSettings.alreadyMigrated = some false
  customers : ∀ row ∈ database.stripeCustomers, row.userId = some userId →
    row.rest.updatedAt = given.now
  hasKey : (migratedSettings config legacy given.generated userSettings).llmApiKey ≠ none
  llmApiKey : Regained legacy
    (nonEmpty (migratedSettings config legacy given.generated userSettings).llmApiKey)
    userSettings.llmApiKey
  llmApiKeyForByor : Regained legacy
    (nonEmpty (migratedSettings config legacy given.generated userSettings).llmApiKeyForByor)
    userSettings.llmApiKeyForByor
  searchApiKey : Regained legacy none userSettings.searchApiKey
  sandboxApiKey : Regained legacy none userSettings.sandboxApiKey

/-- The keys of a membership that was just created are copied, unless there is no key. -/
theorem copyKeys_migrated (downgrade : DowngradeGiven) (roleId : Nat) (custom : Bool)
    (settings : UserSettings γ) (row : UserSettings γ) :
    copyKeys legacy jwe downgrade (migratedMember jwe userId roleId custom given settings) row =
      if settings.llmApiKey = none then .error .typeError
      else .ok (withKeys legacy downgrade (nonEmpty settings.llmApiKey)
        (nonEmpty settings.llmApiKeyForByor) row) := by
  rw [copyKeys, migratedMember]
  simp only [givenKey_encrypt, columnKey_encryptGiven]
  cases settings.llmApiKey <;> rfl

variable (consistent : Consistent database) (unmigrated : Unmigrated database userId userSettings)

include consistent unmigrated in
/-- The tables beside the settings are as before, but for the time at Stripe customers. -/
theorem downgraded_migrated (roleId : Nat) (settingsRows : List (UserSettings γ)) :
    { downgraded (migrated config legacy jwe database userId userSettings given roleId
        (database.stripeCustomers.map (migrateRow userId given.now))) userId with
      userSettings := settingsRows } =
    { database with
        userSettings := settingsRows
        stripeCustomers := database.stripeCustomers.map (touch userId given.now) } := by
  have unused : ∀ {δ : Type} (table : List (Owned δ)), (∀ row ∈ table, ∀ orgId,
      row.orgId = some orgId → ∃ org ∈ database.orgs, org.id = orgId) →
      ∀ row ∈ table, row.orgId ≠ some userId :=
    fun table refers => unused_of_consistent _ _ _ unmigrated _ refers
  have saasUnused : ∀ row ∈ database.conversationMetadataSaas, row.userId ≠ userId := by
    intro row listed same
    obtain ⟨user, userListed, here⟩ := consistent.saas row listed
    exact unmigrated.noUser user userListed (here.trans same)
  have membersUnused : ∀ member ∈ database.orgMembers, member.orgId ≠ userId := by
    intro member listed same
    obtain ⟨org, orgListed, here⟩ := consistent.members member listed
    exact unmigrated.noOrg org orgListed (here.trans same)
  simp only [downgraded, migrated]
  rw [(filter_append_new _ unmigrated.noOrg rfl).2,
    (filter_append_new _ unmigrated.noUser rfl).2,
    (filter_append_new _ membersUnused rfl).2,
    restore_conversations _ _ _ consistent.conversationIds saasUnused,
    filter_conversations _ _ _ saasUnused,
    release_assign_migrate _ _ _ unmigrated.stripeCustomers
      (unused _ consistent.stripeCustomers),
    release_assign _ unmigrated.slackUsers (unused _ consistent.slackUsers),
    release_assign _ unmigrated.slackConversation (unused _ consistent.slackConversation),
    release_assign _ unmigrated.apiKeys (unused _ consistent.apiKeys),
    release_assign _ unmigrated.customSecrets (unused _ consistent.customSecrets),
    release_assign _ unmigrated.billingSessions (unused _ consistent.billingSessions)]

/-- The settings row that a downgrade writes right after the migration. -/
def writtenRow (downgrade : DowngradeGiven) : UserSettings γ :=
  let settings := migratedSettings config legacy given.generated userSettings
  reencrypt legacy downgrade (withKeys legacy downgrade (nonEmpty settings.llmApiKey)
    (nonEmpty settings.llmApiKeyForByor) (marked userSettings))

include consistent unmigrated

/-- A downgrade right after the migration raises where there is no key, and else changes no more than
the settings row and the time at Stripe customers. -/
theorem downgrade_migrated (roleId : Nat) (downgrade : DowngradeGiven) :
    downgradeUser legacy jwe (migrated config legacy jwe database userId userSettings given roleId
        (database.stripeCustomers.map (migrateRow userId given.now))) userId downgrade =
      if (migratedSettings config legacy given.generated userSettings).llmApiKey = none then
        .error .typeError
      else
        .ok ({ database with
          userSettings := merge (writtenRow config legacy userSettings given downgrade)
            database.userSettings
          stripeCustomers := database.stripeCustomers.map (touch userId given.now) },
          some (writtenRow config legacy userSettings given downgrade)) := by
  rw [(migrated_personal _ _ jwe _ _ _ _ consistent unmigrated
    _ _).downgradeUser legacy jwe downgrade, copyKeys_migrated]
  split
  · rfl
  have tables := downgraded_migrated config legacy jwe database userId userSettings given consistent
    unmigrated roleId (merge (writtenRow config legacy userSettings given downgrade)
      (merge (marked userSettings) database.userSettings))
  rw [merge_merge (marked userSettings) (writtenRow config legacy userSettings given downgrade) _
    rfl] at tables
  rw [← tables, ← merge_merge (marked userSettings)
    (writtenRow config legacy userSettings given downgrade) _ rfl]
  rfl

/-- The content of the tables is as before exactly when the settings row and the Stripe customers
are. -/
theorem restored_tables_iff (written : UserSettings γ) (same : written.id = userSettings.id) :
    Database.decrypted legacy { database with
        userSettings := merge written database.userSettings
        stripeCustomers := database.stripeCustomers.map (touch userId given.now) } =
      database.decrypted legacy ↔
    written.decryptLegacyModel legacy = userSettings.decryptLegacyModel legacy ∧
      ∀ row ∈ database.stripeCustomers, row.userId = some userId →
        row.rest.updatedAt = given.now := by
  rw [← map_merge_iff _ consistent.settingsIds unmigrated.listed same,
    ← map_touch_iff ..]
  simp [Database.decrypted, Database.mk.injEq]

omit consistent unmigrated

/-- A downgrade undoes a migration of an unmigrated user exactly where it is undoable. -/
theorem restored_iff (consistent : Consistent database)
    (unmigrated : Unmigrated database userId userSettings) (downgrade : DowngradeGiven) :
    Restored config legacy jwe database userId userSettings given downgrade ↔
      Undoable config legacy database userId userSettings given := by
  have downgrades := fun roleId => downgrade_migrated config legacy jwe database userId userSettings
    given consistent unmigrated roleId downgrade
  have tables := restored_tables_iff legacy database userId userSettings given consistent unmigrated
    (writtenRow config legacy userSettings given downgrade) rfl
  have rowIff := reencrypt_copied_iff legacy userSettings downgrade
    (nonEmpty (migratedSettings config legacy given.generated userSettings).llmApiKey)
    (nonEmpty (migratedSettings config legacy given.generated userSettings).llmApiKeyForByor)
  constructor
  · rintro ⟨middle, after, written, migration, downgraded, same⟩
    obtain ⟨migrates, roleId, -, rfl⟩ := (migrateUser_ok_iff config legacy jwe database userId
      userSettings given unmigrated middle).mp migration
    rw [downgrades roleId] at downgraded
    split at downgraded
    · cases downgraded
    rename_i hasKey
    cases downgraded
    obtain ⟨row, customers⟩ := tables.mp same
    obtain ⟨isMarked, llm, byor, search, sandbox⟩ := rowIff.mp row
    exact ⟨migrates, isMarked, customers, hasKey, llm, byor, search, sandbox⟩
  · rintro ⟨migrates, isMarked, customers, hasKey, llm, byor, search, sandbox⟩
    obtain ⟨roleId, owner⟩ := Option.ne_none_iff_exists'.mp migrates.owner
    have migration := (migrateUser_ok_iff config legacy jwe database userId userSettings given
      unmigrated _).mpr ⟨migrates, roleId, owner, rfl⟩
    have downgraded := downgrades roleId
    rw [if_neg hasKey] at downgraded
    exact ⟨_, _, _, migration, downgraded,
      tables.mpr ⟨rowIff.mpr ⟨isMarked, llm, byor, search, sandbox⟩, customers⟩⟩

end RoundTrip

end ForgePilot.MigrationRoundTrip
