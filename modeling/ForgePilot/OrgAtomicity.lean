import ForgePilot.OrgCreation

/-!
# Organisations are created and deleted all or nothing, or not

A deletion clears all that belongs to an organisation in a transaction, deletes the team of
the organisation and commits. The row of the organisation itself is not deleted, because
the session's deletion is a coroutine that nobody awaits; and a team that was deleted is
not made again when the commit fails.

Creating and deleting look the organisation up first, by name or by identifier, and a lookup
writes the current version into a row of an earlier one. That is committed on its own and
stays, whatever becomes of the rest.
-/

namespace ForgePilot.OrgAtomicity

open Attempts OrgLifecycle OrgCreation List

variable {κ : Type} [DecidableEq κ]

/-! ## Deleting: what becomes of the calls -/

section Deleting

variable (config : Config) (text : κ → String) (parseUuid : String → Option κ)
variable (calls : DeleteCalls)

/-- Nothing refers to an organisation: neither a member, nor a row of a table that may belong to an
organisation, nor a row of one of its conversations. -/
structure Unreferred (db after : Database κ) (orgId : κ) : Prop where
  member : ∀ member ∈ after.orgMembers, member.orgId ≠ orgId
  conversation : ∀ row ∈ after.conversationMetadataSaas, row.2 ≠ orgId
  metadata : ∀ conversationId ∈ db.conversationsOf orgId,
    conversationId ∉ after.conversationMetadata ∧
      ∀ task, parseUuid conversationId = some task → task ∉ after.appConversationStartTasks
  owned : ∀ rows ∈ [after.billingSessions, after.customSecrets, after.apiKeys,
    after.slackConversations, after.slackUsers, after.stripeCustomers],
      ∀ row ∈ rows, row.orgId ≠ some orgId

/-- Nothing is left of an organisation. -/
def Cleared (db after : Database κ) (orgId : κ) : Prop :=
  (∀ org ∈ after.orgs, org.id ≠ orgId) ∧ Unreferred parseUuid db after orgId

/-- All or nothing: nothing is left of an organisation and its team, or the rows and the teams stay
as they were. -/
def DeletedOrNot (world : World κ) (orgId : κ) :
    EStateM.Result (OrgError κ) (World κ) (Org κ) → Prop
  | .ok _ after => Cleared parseUuid world.db after.db orgId ∧ after.liteLlm.hasTeam orgId = false
  | .error _ after => after.db = world.db ∧ after.liteLlm = world.liteLlm

/-- The organisation is upgraded when it is looked up. -/
def UpgradesFound (db : Database κ) (orgId : κ) : Prop :=
  match db.findOrg orgId with
  | some org => Upgrades config calls.getOrgById calls.update org
  | none => False

def Owner (db : Database κ) (userId : String) (orgId : κ) : Prop :=
  match parseUuid userId with
  | none => False
  | some userId =>
      calls.getOrgMember.ok = true ∧
        match db.findMember orgId userId with
        | none => False
        | some member =>
            calls.getRoleById.ok = true ∧
              match db.roles.find? (fun role => role.id = member.roleId) with
              | none => False
              | some role => role.name = "owner"

/-- The organisation is found with the current version, and the user is found to be an owner. -/
def Authorised (db : Database κ) (userId : String) (orgId : κ) : Prop :=
  calls.getOrgById.ok = true ∧
    (match db.findOrg orgId with
      | some org => config.orgSettingsVersion ≤ org.orgVersion
      | none => False) ∧
    Owner parseUuid calls db userId orgId

/-- The statements of the transaction can be performed and their calls all return. -/
def GetsThrough (db : Database κ) (orgId : κ) : Prop :=
  calls.select.ok = true ∧ (∀ position < 12, (calls.statements position).ok = true) ∧
    ((db.conversationsOf orgId).mapM parseUuid).isSome = true ∧ db.orphanedUsers orgId = []

/-- What the calls of a deletion have to meet: the organisation is not upgraded; and where the
transaction gets to its end, no team is deleted and nothing is committed. -/
def DeletionCareful (world : World κ) (userId : String) (orgId : κ) : Prop :=
  ¬ UpgradesFound config calls world.db orgId ∧
    (Authorised config parseUuid calls world.db userId orgId →
      GetsThrough parseUuid calls world.db orgId →
      (config.configured = true → calls.deleteTeam.applied = true →
        world.liteLlm.hasTeam orgId = false) ∧
      ((config.configured = true → calls.deleteTeam.ok = true) → calls.commit.applied = false))

/-! ## Deleting: the transaction -/

/-- What the statements make of the rows: everything is cleared but the row of the organisation. -/
def cleared (db : Database κ) (orgId : κ) (conversations : List κ) : Database κ where
  orgs := db.orgs
  users := db.users.map (db.reassign orgId)
  roles := db.roles
  orgMembers := db.orgMembers.filter (fun member => member.orgId ≠ orgId)
  conversationMetadata := db.conversationMetadata.filter (fun conversationId =>
    conversationId ∉ db.conversationsOf orgId)
  conversationMetadataSaas := db.conversationMetadataSaas.filter (fun row => row.2 ≠ orgId)
  appConversationStartTasks := db.appConversationStartTasks.filter (fun conversationId =>
    conversationId ∉ conversations)
  billingSessions := clear orgId db.billingSessions
  customSecrets := clear orgId db.customSecrets
  apiKeys := clear orgId db.apiKeys
  slackConversations := clear orgId db.slackConversations
  slackUsers := clear orgId db.slackUsers
  stripeCustomers := clear orgId db.stripeCustomers

variable (db final : Database κ)

/-- The statement that looks for users who would be left without an organisation. -/
theorem orphans_bind (orgId : κ) (next : Database κ → Except (OrgError κ) (Database κ)) :
    ((if db.orphanedUsers orgId = [] then Except.ok db
        else .error (.orphanedUser (db.orphanedUsers orgId))) >>= next) = .ok final ↔
      db.orphanedUsers orgId = [] ∧ next db = .ok final := by
  split
  · rename_i alone
    exact ⟨fun performed => ⟨alone, performed⟩, fun both => both.2⟩
  rename_i orphaned
  constructor
  · intro performed
    cases performed
  · exact fun both => absurd both.1 orphaned

omit [DecidableEq κ] in
theorem ok_bind (db : Database κ) (next : Database κ → Except (OrgError κ) (Database κ)) :
    (Except.ok db >>= next) = next db := rfl

/-- The statements can be performed where the conversations have identifiers and no user would be
left without an organisation. -/
theorem cascade_ok_iff (orgId : κ) :
    (cascade parseUuid orgId).foldlM (fun db statement => statement db) db = .ok final ↔
      ∃ conversations, (db.conversationsOf orgId).mapM parseUuid = some conversations ∧
        db.orphanedUsers orgId = [] ∧ final = cleared db orgId conversations := by
  have sameConversations : ({ db with
      conversationMetadata := db.conversationMetadata.filter (fun conversationId =>
        conversationId ∉ db.conversationsOf orgId) } : Database κ).conversationsOf orgId =
      db.conversationsOf orgId := rfl
  simp only [cascade, foldlM_cons, foldlM_nil, ok_bind, sameConversations]
  cases converted : (db.conversationsOf orgId).mapM parseUuid with
  | none => simp [bind, Except.bind]
  | some conversations =>
    simp only [Option.some.injEq, exists_eq_left', ok_bind]
    rw [orphans_bind]
    -- users and members are as they were when the users are looked at
    refine and_congr Iff.rfl ?_
    exact ⟨fun same => (Except.ok.inj same).symm, fun same => same ▸ rfl⟩

/-- The transaction gets through exactly where the calls of its statements return and they can be
performed. -/
theorem execute_cascade_iff (orgId : κ) :
    execute (fun position => (calls.statements position).map OrgError.other) 0
        (cascade parseUuid orgId) db = .ok final ↔
      (∀ position < 12, (calls.statements position).ok = true) ∧
        ∃ conversations, (db.conversationsOf orgId).mapM parseUuid = some conversations ∧
          db.orphanedUsers orgId = [] ∧ final = cleared db orgId conversations := by
  rw [execute_ok_iff, cascade_ok_iff]
  simp only [Outcome.ok_map, Nat.zero_add]
  rfl

/-- The team is deleted, or not, and then a failure is noted. -/
theorem delete_team_cases (outcome : Call) (world : World κ) (teamId : κ) :
    ∃ after, after.db = world.db ∧
      after.liteLlm = (if config.configured = true ∧ outcome.applied = true then
        world.liteLlm.removeTeam teamId else world.liteLlm) ∧
      (((config.configured = true → outcome.ok = true) ∧
          deleteTeam config outcome teamId world = .ok () after) ∨
        (¬ (config.configured = true → outcome.ok = true) ∧ ∃ error,
          deleteTeam config outcome teamId world = .error error after)) := by
  unfold deleteTeam
  by_cases configured : config.configured = true
  case neg => exact ⟨world, rfl, by simp [configured], .inl ⟨fun is => absurd is configured,
    by simp [configured]⟩⟩
  simp only [configured, if_true, catch_apply, true_and, true_implies]
  rcases call_teams_cases _ (fun liteLlm => liteLlm.removeTeam teamId) _
    with ⟨returns, applied, ran⟩ | ⟨raises, message, ran⟩
  · refine ⟨setLiteLlm (world.liteLlm.removeTeam teamId) world, rfl, ?_, .inl ⟨returns, ?_⟩⟩
    · simp [applied, setLiteLlm]
    · rw [ran]
  · rw [ran]
    exact ⟨{ setLiteLlm (if outcome.applied = true then world.liteLlm.removeTeam teamId
        else world.liteLlm) world with deletionFailed := true }, rfl, rfl,
      .inr ⟨fun returns => Bool.noConfusion (raises.symm.trans returns), .other message, rfl⟩⟩

/-- The transaction of a deletion: an error before its end leaves everything; at its end the team is
deleted, and then the rows are committed. -/
theorem delete_org_cascade_cases {world : World κ} {orgId : κ} {org : Org κ}
    (found : world.db.findOrg orgId = some org) :
    (¬ GetsThrough parseUuid calls world.db orgId ∧ ∃ error,
      deleteOrgCascade config parseUuid calls orgId world = .error error world) ∨
    (GetsThrough parseUuid calls world.db orgId ∧ ∃ conversations after,
      (world.db.conversationsOf orgId).mapM parseUuid = some conversations ∧
      after.liteLlm = (if config.configured = true ∧ calls.deleteTeam.applied = true then
        world.liteLlm.removeTeam orgId else world.liteLlm) ∧
      ((¬ (config.configured = true → calls.deleteTeam.ok = true) ∧ after.db = world.db ∧
          ∃ error, deleteOrgCascade config parseUuid calls orgId world = .error error after) ∨
        ((config.configured = true → calls.deleteTeam.ok = true) ∧
          ((calls.commit.applied = true ∧ after.db = cleared world.db orgId conversations ∧
              deleteOrgCascade config parseUuid calls orgId world = .ok (some org) after) ∨
            (after.db = (if calls.commit.applied = true then cleared world.db orgId conversations
                else world.db) ∧
              ∃ error, deleteOrgCascade config parseUuid calls orgId world = .error error after)))))
    := by
  -- an error is raised again after the rollback, which may raise one of its own
  have rolledBack : ∀ (error : OrgError κ) (after : World κ), ∃ raised,
      (do query calls.rollback; throw error : Service κ (Option (Org κ))) after =
        .error raised after := by
    intro error after
    simp only [bind_apply]
    rcases query_cases .. with ⟨-, ran⟩ | ⟨-, message, ran⟩
    · exact ⟨error, by rw [ran]; rfl⟩
    · exact ⟨.other message, by rw [ran]⟩
  unfold deleteOrgCascade
  simp only [bind_apply]
  rcases query_cases .. with ⟨selected, ran⟩ | ⟨raises, message, ran⟩
  case inr =>
    refine .inl ⟨fun through => Bool.noConfusion (raises.symm.trans through.1), .other message, ?_⟩
    rw [ran]
  rw [ran]
  simp only [get_apply, found, catch_apply]
  cases executed : execute (fun position => (calls.statements position).map OrgError.other) 0
      (cascade parseUuid orgId) world.db with
  | error error =>
    obtain ⟨raised, ran⟩ := rolledBack error world
    refine .inl ⟨?_, raised, ran⟩
    rintro ⟨-, returns, converts, alone⟩
    obtain ⟨conversations, converted⟩ := Option.isSome_iff_exists.mp converts
    have ends := (execute_cascade_iff ..).mpr
      ⟨returns, conversations, converted, alone, rfl⟩
    rw [executed] at ends
    cases ends
  | ok db =>
    obtain ⟨returns, conversations, converted, alone, rfl⟩ := (execute_cascade_iff ..).mp executed
    refine .inr ⟨⟨selected, returns, by rw [converted]; rfl, alone⟩, conversations, ?_⟩
    simp only [bind_apply]
    obtain ⟨after, sameDb, teams, ends⟩ := delete_team_cases config calls.deleteTeam world orgId
    rcases ends with ⟨deleted, ran⟩ | ⟨failed, error, ran⟩
    case inr =>
      rw [ran]
      exact ⟨after, converted, teams, .inl ⟨failed, sameDb, rolledBack error after⟩⟩
    rw [ran]
    simp only
    rcases call_cases .. with ⟨-, applied, ran⟩ | ⟨-, message, ran⟩
    · rw [ran]
      exact ⟨setDb (sessionDelete org (cleared world.db orgId conversations)) after, converted, teams,
        .inr ⟨deleted, .inl ⟨applied, rfl, rfl⟩⟩⟩
    rw [ran]
    refine ⟨_, converted, ?_, .inr ⟨deleted, .inr ⟨?_, rolledBack (.other message) _⟩⟩⟩
    · split <;> exact teams
    · split
      · rfl
      · exact sameDb

variable (world : World κ) (userId : String) (orgId : κ)

/-- An owner is verified, or an error is raised; nothing changes. -/
theorem verify_owner_cases : (Owner parseUuid calls world.db userId orgId ∧
      verifyOwner parseUuid calls userId orgId world = .ok () world) ∨
    (¬ Owner parseUuid calls world.db userId orgId ∧ ∃ error,
      verifyOwner parseUuid calls userId orgId world = .error error world) := by
  unfold verifyOwner Owner
  cases parseUuid userId with
  | none => exact .inr ⟨id, .other "badly formed hexadecimal UUID string", rfl⟩
  | some user =>
  simp only [bind_apply]
  rcases query_cases .. with ⟨asked, ran⟩ | ⟨raises, message, ran⟩
  case inr =>
    exact .inr ⟨fun owner => Bool.noConfusion (raises.symm.trans owner.1), .other message,
      by rw [ran]⟩
  rw [ran]
  simp only [get_apply, asked, true_and]
  cases world.db.findMember orgId user with
  | none => exact .inr ⟨id, .orgAuthorization "User is not a member of this organization", rfl⟩
  | some member =>
  simp only [bind_apply]
  rcases query_cases .. with ⟨asked, ran⟩ | ⟨raises, message, ran⟩
  case inr =>
    exact .inr ⟨fun owner => Bool.noConfusion (raises.symm.trans owner.1), .other message,
      by rw [ran]⟩
  rw [ran]
  simp only [asked, true_and]
  cases world.db.roles.find? (fun role => role.id = member.roleId) with
  | none =>
    exact .inr ⟨id, .orgAuthorization "Only organization owners can delete organizations", rfl⟩
  | some role =>
    by_cases owns : role.name = "owner"
    · exact .inl ⟨owns, by simp [owns]⟩
    · exact .inr ⟨owns, .orgAuthorization "Only organization owners can delete organizations",
        by simp [owns]⟩

/-- An owner is authorised, or an error is raised and everything stays; or the organisation was
upgraded. -/
theorem verify_authorization_cases : (Authorised config parseUuid calls world.db userId orgId ∧
      verifyOwnerAuthorization config parseUuid calls userId orgId world = .ok () world) ∨
    (¬ Authorised config parseUuid calls world.db userId orgId ∧
      ¬ UpgradesFound config calls world.db orgId ∧ ∃ error,
        verifyOwnerAuthorization config parseUuid calls userId orgId world = .error error world) ∨
    (UpgradesFound config calls world.db orgId ∧ ∃ after, after.db.orgs ≠ world.db.orgs ∧
      (verifyOwnerAuthorization config parseUuid calls userId orgId world = .ok () after ∨
        ∃ error, verifyOwnerAuthorization config parseUuid calls userId orgId world =
          .error error after)) := by
  unfold verifyOwnerAuthorization getOrgById
  simp only [bind_apply]
  rcases query_cases .. with ⟨selected, ran⟩ | ⟨raises, message, ran⟩
  case inr =>
    refine .inr (.inl ⟨fun authorised => Bool.noConfusion (raises.symm.trans authorised.1), ?_,
      .other message, by rw [ran]⟩)
    unfold UpgradesFound
    split
    · exact fun upgrades => Bool.noConfusion (raises.symm.trans upgrades.1)
    · exact id
  rw [ran]
  simp only [get_apply]
  cases found : world.db.findOrg orgId with
  | none =>
    refine .inr (.inl ⟨?_, ?_, .orgNotFound orgId, rfl⟩)
    · intro authorised
      have current := authorised.2.1
      rw [found] at current
      exact current
    · rw [UpgradesFound, found]
      exact id
  | some org =>
  have listed : org ∈ world.db.orgs := mem_of_find?_eq_some found
  have upgradesFound : UpgradesFound config calls world.db orgId ↔
      Upgrades config calls.getOrgById calls.update org := by
    rw [UpgradesFound, found]
  rw [upgradesFound]
  have authorised : Authorised config parseUuid calls world.db userId orgId ↔
      config.orgSettingsVersion ≤ org.orgVersion ∧ Owner parseUuid calls world.db userId orgId := by
    rw [Authorised, found]
    exact ⟨fun authorised => authorised.2, fun both => ⟨selected, both⟩⟩
  rw [authorised]
  rcases validate_org_version_cases _ _ listed selected
    with ⟨current, ran⟩ | ⟨earlier, notUpgraded, message, ran⟩ | ⟨upgraded, db, changed, ends⟩
  · rw [ran]
    simp only
    rcases verify_owner_cases parseUuid calls world userId orgId with ⟨owner, ran⟩ | ⟨other, failed⟩
    · exact .inl ⟨⟨current, owner⟩, ran⟩
    · exact .inr (.inl ⟨fun both => other both.2,
        fun upgrades => Nat.not_lt_of_le current upgrades.2.1, failed⟩)
  · rw [ran]
    exact .inr (.inl ⟨fun both => Nat.not_le_of_lt earlier both.1, notUpgraded,
      .other message, rfl⟩)
  · refine .inr (.inr ⟨upgraded, setDb db world, changed, ?_⟩)
    rcases ends with ⟨validated, ran⟩ | ⟨message, ran⟩
    · rw [ran]
      rcases verify_owner_cases parseUuid calls (setDb db world) userId orgId with ⟨-, ran⟩ | ⟨-, failed⟩
      · exact .inl ran
      · exact .inr failed
    · rw [ran]
      exact .inr ⟨.other message, rfl⟩

/-- A transaction of a deletion leaves the row of the organisation, and all others. -/
theorem delete_org_cascade_orgs :
    (∃ after, deleteOrgCascade config parseUuid calls orgId world = .ok none after ∧
      after.db = world.db) ∨
    (∃ error after, deleteOrgCascade config parseUuid calls orgId world = .error error after ∧
      after.db.orgs = world.db.orgs) ∨
    ∃ org after, deleteOrgCascade config parseUuid calls orgId world = .ok (some org) after ∧
      after.db.orgs = world.db.orgs ∧ world.db.findOrg orgId = some org := by
  cases found : world.db.findOrg orgId with
  | none =>
    unfold deleteOrgCascade
    simp only [bind_apply]
    rcases query_cases .. with ⟨-, ran⟩ | ⟨-, message, ran⟩
    · exact .inl ⟨world, by rw [ran]; simp [found], rfl⟩
    · exact .inr (.inl ⟨.other message, world, by rw [ran], rfl⟩)
  | some org =>
    rcases delete_org_cascade_cases _ _ _ found with
      ⟨-, error, ran⟩ | ⟨-, conversations, after, -, -, ⟨-, same, error, ran⟩ |
        ⟨-, ⟨-, same, ran⟩ | ⟨same, error, ran⟩⟩⟩
    · exact .inr (.inl ⟨error, world, ran, rfl⟩)
    · exact .inr (.inl ⟨error, after, ran, congrArg Database.orgs same⟩)
    · exact .inr (.inr ⟨org, after, ran, by rw [same]; rfl, rfl⟩)
    · refine .inr (.inl ⟨error, after, ran, ?_⟩)
      rw [same]
      split <;> rfl

/-- Removing a team changes the teams where there is one. -/
theorem remove_team_same_iff (liteLlm : LiteLlm κ) (teamId : κ) :
    liteLlm.removeTeam teamId = liteLlm ↔ liteLlm.hasTeam teamId = false := by
  obtain ⟨teams, users⟩ := liteLlm
  simp [LiteLlm.removeTeam, LiteLlm.hasTeam, filter_eq_self]

/-- The membership of an owner is among the rows that are cleared. -/
theorem cleared_changes {db : Database κ} {userId : String} {orgId : κ} (conversations : List κ)
    (owner : Owner parseUuid calls db userId orgId) : cleared db orgId conversations ≠ db := by
  intro same
  unfold Owner at owner
  split at owner
  · exact owner
  rename_i user _
  cases found : db.findMember orgId user with
  | none =>
    rw [found] at owner
    exact owner.2
  | some member =>
    have listed : member ∈ db.orgMembers := mem_of_find?_eq_some found
    have own := find?_some found
    rw [← same] at listed
    have other := (mem_filter.mp listed).2
    simp only [Bool.and_eq_true, decide_eq_true_eq] at own other
    exact other own.1

/-- A deletion deletes everything or nothing exactly where its calls are careful. -/
theorem delete_exact : DeletedOrNot parseUuid world orgId
        (deleteOrgWithCleanup config text parseUuid calls userId orgId world) ↔
      DeletionCareful config parseUuid calls world userId orgId := by
  simp only [deleteOrgWithCleanup, bind_apply, catch_apply]
  rcases verify_authorization_cases config parseUuid calls world userId orgId with
    ⟨authorised, ran⟩ | ⟨not, notUpgraded, error, ran⟩ | ⟨upgraded, before, changed, ends⟩
  · rw [ran]
    simp only
    obtain ⟨org, found, current⟩ : ∃ org, world.db.findOrg orgId = some org ∧
        config.orgSettingsVersion ≤ org.orgVersion := by
      have current := authorised.2.1
      cases found : world.db.findOrg orgId with
      | none =>
        rw [found] at current
        exact current.elim
      | some org =>
        rw [found] at current
        exact ⟨org, rfl, current⟩
    have notUpgraded : ¬ UpgradesFound config calls world.db orgId := by
      rw [UpgradesFound, found]
      exact fun upgrades => Nat.not_lt_of_le current upgrades.2.1
    have careful : GetsThrough parseUuid calls world.db orgId →
        (DeletionCareful config parseUuid calls world userId orgId ↔
          (config.configured = true → calls.deleteTeam.applied = true →
            world.liteLlm.hasTeam orgId = false) ∧
          ((config.configured = true → calls.deleteTeam.ok = true) →
            calls.commit.applied = false)) :=
      fun through => ⟨fun careful => careful.2 authorised through,
        fun careful => ⟨notUpgraded, fun _ _ => careful⟩⟩
    rcases delete_org_cascade_cases _ _ _ found with
      ⟨not, error, ran⟩ | ⟨through, conversations, after, -, teams, ends⟩
    · rw [ran]
      exact iff_of_true ⟨rfl, rfl⟩ ⟨notUpgraded, fun _ through => absurd through not⟩
    rw [careful through]
    have sameTeams : after.liteLlm = world.liteLlm ↔ (config.configured = true →
        calls.deleteTeam.applied = true → world.liteLlm.hasTeam orgId = false) := by
      rw [teams]
      split
      · rename_i both
        rw [remove_team_same_iff]
        exact ⟨fun absent _ _ => absent, fun absent => absent both.1 both.2⟩
      · rename_i not
        exact iff_of_true rfl fun configured applied => absurd ⟨configured, applied⟩ not
    rcases ends with ⟨failed, same, error, ran⟩ |
      ⟨deleted, ⟨committed, same, ran⟩ | ⟨same, error, ran⟩⟩
    · rw [ran]
      exact ⟨fun both => ⟨sameTeams.mp both.2, fun deleted => absurd deleted failed⟩,
        fun careful => ⟨same, sameTeams.mpr careful.1⟩⟩
    · rw [ran]
      constructor
      · rintro ⟨gone, -⟩
        have listed : org ∈ after.db.orgs := by
          rw [same]
          exact mem_of_find?_eq_some found
        exact absurd (by simpa using find?_some found) (gone.1 org listed)
      · exact fun careful => Bool.noConfusion (committed.symm.trans (careful.2 deleted))
    · rw [ran]
      have sameRows : after.db = world.db ↔ calls.commit.applied = false := by
        rw [same]
        by_cases committed : calls.commit.applied = true
        · rw [if_pos committed, committed]
          exact iff_of_false (cleared_changes _ _ _
            authorised.2.2) (Ne.symm Bool.false_ne_true)
        · rw [if_neg committed]
          exact iff_of_true rfl (by simpa using committed)
      exact ⟨fun both => ⟨sameTeams.mp both.2, fun _ => sameRows.mp both.1⟩,
        fun careful => ⟨sameRows.mpr (careful.2 deleted), sameTeams.mpr careful.1⟩⟩
  · rw [ran]
    exact iff_of_true ⟨rfl, rfl⟩ ⟨notUpgraded, fun authorised => absurd authorised not⟩
  · -- an upgraded row of the organisation stays, whatever the deletion does
    refine iff_of_false ?_ fun careful => careful.1 upgraded
    rcases ends with ran | ⟨error, ran⟩
    case inr =>
      rw [ran]
      exact fun both => changed (congrArg Database.orgs both.1)
    rw [ran]
    simp only
    rcases delete_org_cascade_orgs config parseUuid calls before orgId with
      ⟨after, ran, same⟩ | ⟨error, after, ran, same⟩ | ⟨org, after, ran, same, found⟩
    · rw [ran]
      exact fun both => changed (same ▸ congrArg Database.orgs both.1)
    · rw [ran]
      exact fun both => changed (same ▸ congrArg Database.orgs both.1)
    · rw [ran]
      rintro ⟨gone, -⟩
      have listed : org ∈ after.db.orgs := same ▸ mem_of_find?_eq_some found
      exact gone.1 org listed (by simpa using find?_some found)

end Deleting

/-! ## All or nothing -/

/-- Creating an organisation under a new identifier, or deleting one, is all or nothing exactly where
the calls it makes are careful, for all databases, teams and outcomes of the calls. -/
theorem org_all_or_nothing (config : Config) (text : κ → String) (parseUuid : String → Option κ)
    (createCalls : CreateCalls) (deleteCalls : DeleteCalls) (db : Database κ) (liteLlm : LiteLlm κ)
    (orgId : κ) (name contactName contactEmail userId : String) :
    (New ⟨db, liteLlm, false⟩ orgId → (CreatedOrNot parseUuid ⟨db, liteLlm, false⟩ orgId userId
          (createOrgWithOwner config text parseUuid createCalls orgId name contactName contactEmail
            userId ⟨db, liteLlm, false⟩) ↔
        CreationCareful config parseUuid createCalls ⟨db, liteLlm, false⟩ name userId)) ∧
    (DeletedOrNot parseUuid ⟨db, liteLlm, false⟩ orgId
        (deleteOrgWithCleanup config text parseUuid deleteCalls userId orgId ⟨db, liteLlm, false⟩) ↔
      DeletionCareful config parseUuid deleteCalls ⟨db, liteLlm, false⟩ userId orgId) :=
  ⟨fun new => create_exact _ _ _ _ _ _ _ _ _ _ new rfl, delete_exact ..⟩

def deployment : Config := ⟨some "key", some "url", false, some 10, 5, "model"⟩

/-- User 1 is known by one text. -/
def parseUser (userId : String) : Option Nat := if userId = "user" then some 1 else none

/-- User 1 owns a personal organisation and organisation 7, and is in the latter. -/
def twoOrgs : Database Nat where
  orgs := [⟨1, "own", "", "", 5, none, "model", none⟩, ⟨7, "team", "", "", 5, none, "model", none⟩]
  users := [⟨1, 7⟩]
  roles := [⟨1, "owner"⟩]
  orgMembers := [⟨1, 1, 1, "key", "model", none, "active"⟩, ⟨7, 1, 1, "key", "model", none, "active"⟩]
  conversationMetadata := []
  conversationMetadataSaas := []
  appConversationStartTasks := []
  billingSessions := []
  customSecrets := []
  apiKeys := []
  slackConversations := []
  slackUsers := []
  stripeCustomers := []

def twoTeams : LiteLlm Nat := ⟨[⟨1, "user", none, ["user"]⟩, ⟨7, "user", none, ["user"]⟩], ["user"]⟩

def deletionReturns : DeleteCalls where
  getOrgById := .returns
  update := ⟨.returns, .returns, .returns⟩
  getOrgMember := .returns
  getRoleById := .returns
  select := .returns
  statements := fun _ => .returns
  deleteTeam := .returns
  commit := .returns
  rollback := .returns

def entriesReturn : EntryCalls :=
  ⟨.returns, .returns, .returns, .returns, .returns, .returns, .returns, .returns, "key"⟩

def creationReturns : CreateCalls :=
  ⟨.returns, ⟨.returns, .returns, .returns⟩, entriesReturn, .returns, .returns, .returns, .returns⟩

/-- A deletion that returns leaves the row of the organisation, and one whose commit raises has
deleted its team; a creation whose key cannot be made leaves its team, and one whose rows cannot be
read back leaves them. -/
theorem half_done : ¬ DeletedOrNot parseUser ⟨twoOrgs, twoTeams, false⟩ 7
        (deleteOrgWithCleanup deployment toString parseUser deletionReturns "user" 7
          ⟨twoOrgs, twoTeams, false⟩) ∧
    ¬ DeletedOrNot parseUser ⟨twoOrgs, twoTeams, false⟩ 7
        (deleteOrgWithCleanup deployment toString parseUser
          { deletionReturns with commit := .raises "connection lost" false } "user" 7
          ⟨twoOrgs, twoTeams, false⟩) ∧
    ¬ CreatedOrNot parseUser ⟨twoOrgs, twoTeams, false⟩ 8 "user"
        (createOrgWithOwner deployment toString parseUser { creationReturns with
              entries := { entriesReturn with generateKey := .raises "500" false } }
          8 "new" "" "" "user" ⟨twoOrgs, twoTeams, false⟩) ∧
    ¬ CreatedOrNot parseUser ⟨twoOrgs, twoTeams, false⟩ 8 "user"
        (createOrgWithOwner deployment toString parseUser
          { creationReturns with refresh := .raises "connection lost" false }
          8 "new" "" "" "user" ⟨twoOrgs, twoTeams, false⟩) := by
  refine ⟨?_, ?_, ?_, ?_⟩
  · rintro ⟨⟨gone, -⟩, -⟩
    exact gone ⟨7, "team", "", "", 5, none, "model", none⟩ (by decide) rfl
  · rintro ⟨-, teams⟩
    exact absurd (congrArg LiteLlm.teams teams) (by decide)
  · rintro ⟨-, failed | gone⟩
    · cases failed
    · cases gone
  · rintro ⟨rows, -⟩
    exact absurd (congrArg Database.orgs rows) (by decide)

/-- Creating organisation 8 for a user whom the service knows, with calls that all return. -/
theorem org_all_or_nothing_created : CreatedOrNot parseUser ⟨twoOrgs, twoTeams, false⟩ 8 "user"
        (createOrgWithOwner deployment toString parseUser creationReturns 8 "new" "" "" "user"
          ⟨twoOrgs, twoTeams, false⟩) ∧
    DeletedOrNot parseUser ⟨twoOrgs, twoTeams, false⟩ 7
        (deleteOrgWithCleanup deployment toString parseUser deletionReturns "stranger" 7
          ⟨twoOrgs, twoTeams, false⟩) := by
  have both := org_all_or_nothing deployment toString parseUser creationReturns deletionReturns
    twoOrgs twoTeams
  constructor
  · refine ((both 8 "new" "" "" "user").1 ⟨by decide, by decide, rfl⟩).mpr ⟨id, fun _ => ⟨?_, ?_⟩⟩
    · exact fun _ => ⟨rfl, by decide, rfl, rfl, rfl⟩
    · exact fun _ _ => ⟨rfl, rfl, rfl⟩
  · exact (both 7 "" "" "" "stranger").2.mpr
      ⟨fun upgrades => absurd upgrades.2.1 (by decide), fun authorised => authorised.2.2.elim⟩

end ForgePilot.OrgAtomicity
