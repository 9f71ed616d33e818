import ForgePilot.OrgLifecycle

/-!
# Creating an organisation

A creation makes the team of an organisation and adds its rows afterwards; where adding the
rows fails, the team is deleted again. What becomes of it is followed stage by stage: each
stage either goes on in a state that is known, or raises, and then it is said what is left.

Two things are not taken back. A team that was made stays when one of the later calls for
it fails, since the deletion guards the rows only; and rows that were committed stay when
they cannot be read back, while their team is deleted.
-/

namespace ForgePilot.OrgCreation

open Attempts OrgLifecycle List

variable {κ : Type} [DecidableEq κ]

/-! ## Upgrades -/

/-- Looking an organisation up upgrades it: it has an earlier version, and the upgrade is
committed. -/
def Upgrades (config : Config) (select : Call) (calls : UpdateCalls) (org : Org κ) : Prop :=
  select.ok = true ∧ org.orgVersion < config.orgSettingsVersion ∧ calls.select.ok = true ∧
    calls.commit.applied = true

instance (config : Config) (select : Call) (calls : UpdateCalls) (org : Org κ) :
    Decidable (Upgrades config select calls org) := instDecidableAnd

variable {db : Database κ} {org : Org κ}

/-- An upgrade of a row of an earlier version changes the organisations. -/
theorem upgrade_changes {config : Config} (listed : org ∈ db.orgs)
    (earlier : org.orgVersion < config.orgSettingsVersion) :
    (db.upgradeOrg config org.id).orgs ≠ db.orgs := by
  intro rows
  simp only [Database.upgradeOrg] at rows
  nth_rewrite 2 [← map_id db.orgs] at rows
  have upgraded := map_inj_left.mp rows org listed
  simp only [if_true, id] at upgraded
  have versions := congrArg Org.orgVersion upgraded
  simp only at versions
  omega

theorem find_upgraded (config : Config) {orgId : κ} (found : db.findOrg orgId = some org) :
    ∃ upgraded, (db.upgradeOrg config orgId).findOrg orgId = some upgraded := by
  have listed : org ∈ db.orgs := mem_of_find?_eq_some found
  have own : org.id = orgId := by simpa using find?_some found
  apply Option.isSome_iff_exists.mp
  simp only [Database.findOrg, Database.upgradeOrg, find?_isSome, mem_map]
  exact ⟨_, ⟨org, listed, rfl⟩, by simp [own]⟩

/-- A validation of an organisation finds it up to date, or raises before an upgrade, or leaves it
upgraded. -/
theorem validate_org_version_cases (config : Config) {select : Call} (calls : UpdateCalls)
    {world : World κ} (listed : org ∈ world.db.orgs) (selected : select.ok = true) :
    (config.orgSettingsVersion ≤ org.orgVersion ∧
      validateOrgVersion config calls (some org) world = .ok (some org) world) ∨
    (org.orgVersion < config.orgSettingsVersion ∧ ¬ Upgrades config select calls org ∧
      ∃ message, validateOrgVersion config calls (some org) world = .error (.other message) world) ∨
    (Upgrades config select calls org ∧ ∃ db, db.orgs ≠ world.db.orgs ∧
      ((∃ validated, validateOrgVersion config calls (some org) world =
          .ok (some validated) (setDb db world)) ∨
        ∃ message, validateOrgVersion config calls (some org) world =
          .error (.other message) (setDb db world))) := by
  unfold validateOrgVersion
  by_cases earlier : org.orgVersion < config.orgSettingsVersion
  case neg =>
    refine .inl ⟨Nat.le_of_not_lt earlier, ?_⟩
    simp [earlier]
  obtain ⟨other, found⟩ : ∃ other, world.db.findOrg org.id = some other := by
    apply Option.isSome_iff_exists.mp
    simp only [Database.findOrg, find?_isSome]
    exact ⟨org, listed, by simp⟩
  simp only [earlier, if_true, updateOrg, bind_apply]
  rcases query_cases .. with ⟨returns, ran⟩ | ⟨raises, message, ran⟩
  case inr =>
    refine .inr (.inl ⟨trivial, fun upgrades => ?_, message, ?_⟩)
    · exact Bool.noConfusion (raises.symm.trans upgrades.2.2.1)
    · rw [ran]
  simp only [ran, get_apply, found, bind_apply]
  have changed := upgrade_changes listed earlier
  rcases call_cases calls.commit (fun world => setDb (world.db.upgradeOrg config org.id) world) world
    with ⟨-, committed, ran⟩ | ⟨-, message, ran⟩
  case inr =>
    rw [ran]
    by_cases committed : calls.commit.applied = true
    · exact .inr (.inr ⟨⟨selected, earlier, returns, committed⟩, _, changed,
        .inr ⟨message, by simp [committed]⟩⟩)
    · exact .inr (.inl ⟨trivial, fun upgrades => committed upgrades.2.2.2, message,
        by simp [committed]⟩)
  refine .inr (.inr ⟨⟨selected, earlier, returns, committed⟩, _, changed, ?_⟩)
  obtain ⟨upgraded, stored⟩ := find_upgraded config found
  rw [ran]
  simp only
  rcases query_cases ..
    with ⟨-, ran⟩ | ⟨-, message, ran⟩
  · refine .inl ⟨upgraded, ?_⟩
    rw [ran]
    simp [setDb, stored]
  · exact .inr ⟨message, by rw [ran]⟩

/-! ## Creating: what becomes of the calls -/

section Creating

variable (config : Config) (text : κ → String) (parseUuid : String → Option κ)
variable (calls : CreateCalls)

def named (db : Database κ) (name : String) : Option (Org κ) :=
  db.orgs.find? (fun org => org.name = name)

def NameFree (db : Database κ) (name : String) : Prop :=
  calls.getOrgByName.ok = true ∧ named db name = none

/-- The name is taken by an organisation that is upgraded when it is looked up. -/
def UpgradesTaken (db : Database κ) (name : String) : Prop :=
  match named db name with
  | some org => Upgrades config calls.getOrgByName calls.update org
  | none => False

/-- The service makes the team. -/
def TeamMade : Prop :=
  config.configured = true ∧ config.localDeployment = false ∧ calls.entries.getUserInfo.ok = true ∧
    calls.entries.getTeam.ok = true ∧ calls.entries.createTeam.applied = true

/-- A user whom the service knows is added to the team and is given a key. -/
def Joined (liteLlm : LiteLlm κ) (userId : String) : Prop :=
  (calls.entries.userExists.ok && liteLlm.users.contains userId) = true ∧
    calls.entries.addUserToTeam.ok = true ∧ calls.entries.deleteKeyByAlias.ok = true ∧
    calls.entries.generateKey.ok = true

/-- The calls for the team all succeed. -/
def Integrated (liteLlm : LiteLlm κ) (userId : String) : Prop :=
  calls.entries.createTeam.ok = true ∧ Joined calls liteLlm userId

/-- The service gives the settings of the organisation. -/
def SettingsMade (liteLlm : LiteLlm κ) (userId : String) : Prop :=
  (config.configured = true ∧ config.localDeployment = true) ∨
    (TeamMade config calls ∧ Integrated calls liteLlm userId)

/-- The rows are committed: there are a role of owners and the user, and the commit has its
effect. -/
def RowsAdded (db : Database κ) (userId : String) : Prop :=
  calls.getRoleByName.ok = true ∧ db.roles.any (fun role => role.name = "owner") = true ∧
    (match parseUuid userId with
      | some userId => db.users.any (fun user => user.id = userId) = true
      | none => False) ∧
    calls.commit.applied = true

/-- What the calls of a creation have to meet: a taken name is not upgraded; a team that is made
is integrated; and rows that are committed are committed and read back without an error, with a
team. -/
def CreationCareful (world : World κ) (name userId : String) : Prop :=
  ¬ UpgradesTaken config calls world.db name ∧
    (NameFree calls world.db name →
      (TeamMade config calls → Integrated calls world.liteLlm userId) ∧
      (SettingsMade config calls world.liteLlm userId → RowsAdded parseUuid calls world.db userId →
        config.localDeployment = false ∧ calls.commit.ok = true ∧ calls.refresh.ok = true))

/-- An identifier that nothing has yet. -/
structure New (world : World κ) (orgId : κ) : Prop where
  org : ∀ org ∈ world.db.orgs, org.id ≠ orgId
  member : ∀ member ∈ world.db.orgMembers, member.orgId ≠ orgId
  team : world.liteLlm.hasTeam orgId = false

/-- All or nothing: an organisation, its owner and its team are added, or the database stays and
no team is left unless deleting it failed. -/
def CreatedOrNot (world : World κ) (orgId : κ) (userId : String) :
    EStateM.Result (OrgError κ) (World κ) (Org κ) → Prop
  | .ok org after =>
      org.id = orgId ∧ after.liteLlm.hasTeam orgId = true ∧
        ∃ member role, role ∈ world.db.roles ∧ role.name = "owner" ∧ member.orgId = orgId ∧
          parseUuid userId = some member.userId ∧ member.roleId = role.id ∧
          after.db = world.db.addOrg org member
  | .error _ after =>
      after.db = world.db ∧ (after.deletionFailed = true ∨ after.liteLlm.hasTeam orgId = false)

/-! ## Creating: the stages -/

variable (liteLlm : LiteLlm κ) (teamId : κ) (world : World κ)

/-- A name is validated where it is free; otherwise an error is raised, and the database may be
upgraded. -/
theorem validate_name_cases (name : String) : (NameFree calls world.db name ∧
      validateNameUniqueness config calls name world = .ok () world) ∨
    (¬ NameFree calls world.db name ∧ ∃ error db,
      validateNameUniqueness config calls name world = .error error (setDb db world) ∧
        (db = world.db ↔ ¬ UpgradesTaken config calls world.db name)) := by
  unfold validateNameUniqueness getOrgByName
  simp only [bind_apply]
  rcases query_cases calls.getOrgByName world with ⟨selected, ran⟩ | ⟨raises, message, ran⟩
  case inr =>
    refine .inr ⟨fun free => Bool.noConfusion (raises.symm.trans free.1), .other message,
      world.db, ?_, iff_of_true rfl ?_⟩
    · simp only [ran]
      rfl
    · unfold UpgradesTaken
      split
      · exact fun upgrades => Bool.noConfusion (raises.symm.trans upgrades.1)
      · exact id
  simp only [ran, get_apply]
  cases found : named world.db name with
  | none =>
    refine .inl ⟨⟨selected, found⟩, ?_⟩
    unfold named at found
    simp [found, validateOrgVersion, pure_apply]
  | some org =>
    refine .inr ⟨fun free => ?_, ?_⟩
    · rw [free.2] at found
      cases found
    have listed : org ∈ world.db.orgs := mem_of_find?_eq_some found
    have taken : UpgradesTaken config calls world.db name ↔
        Upgrades config calls.getOrgByName calls.update org := by
      rw [UpgradesTaken, found]
    unfold named at found
    rw [found, taken]
    rcases validate_org_version_cases config calls.update listed selected
      with ⟨current, ran⟩ | ⟨-, notUpgraded, message, ran⟩ | ⟨upgraded, db, changed, ends⟩
    · refine ⟨.orgNameExists name, world.db, by rw [ran]; rfl, iff_of_true rfl ?_⟩
      exact fun upgrades => Nat.not_lt_of_le current upgrades.2.1
    · exact ⟨.other message, world.db, by rw [ran]; rfl, iff_of_true rfl notUpgraded⟩
    · have different : db ≠ world.db := fun same => changed (same ▸ rfl)
      have never := iff_of_false different (not_not_intro upgraded)
      rcases ends with ⟨validated, ran⟩ | ⟨message, ran⟩
      · exact ⟨.orgNameExists name, db, by rw [ran]; rfl, never⟩
      · exact ⟨.other message, db, by rw [ran], never⟩

def OnlyTeams (world after : World κ) : Prop :=
  after.db = world.db ∧ after.deletionFailed = world.deletionFailed

omit [DecidableEq κ] in
/-- A call that changes the teams returns, or raises with its effect or without. -/
theorem call_teams_cases (outcome : Call) (effect : LiteLlm κ → LiteLlm κ) (world : World κ) :
    (outcome.ok = true ∧ outcome.applied = true ∧
      callTeams outcome effect world = .ok () (setLiteLlm (effect world.liteLlm) world)) ∨
    (outcome.ok = false ∧ ∃ message, callTeams outcome effect world = .error (.other message)
      (setLiteLlm (if outcome.applied then effect world.liteLlm else world.liteLlm) world)) := by
  rcases call_cases _ (fun world => setLiteLlm (effect world.liteLlm) world) _
    with returns | ⟨raises, message, ran⟩
  · exact .inl returns
  · refine .inr ⟨raises, message, ?_⟩
    rw [callTeams, ran]
    cases outcome.applied <;> rfl

@[simp] theorem has_team_new (teamAlias : String) (teamId : κ) (maxBudget : Option Int) :
    (liteLlm.newTeam teamAlias teamId maxBudget).hasTeam teamId = true := by
  simp [LiteLlm.hasTeam, LiteLlm.newTeam]

theorem has_team_change (change : Team κ → Team κ)
    (keeps : ∀ team, (change team).teamId = team.teamId) :
    (liteLlm.changeTeam teamId change).hasTeam teamId = liteLlm.hasTeam teamId := by
  simp only [LiteLlm.hasTeam, LiteLlm.changeTeam, any_map]
  congr 1
  funext team
  simp only [Function.comp]
  split <;> simp [keeps]

variable (orgId : κ) (userId : String)

theorem has_team_member :
    (liteLlm.addMember teamId userId).hasTeam teamId = liteLlm.hasTeam teamId :=
  has_team_change _ _ _ (fun team => by split <;> rfl)

@[simp] theorem has_team_remove : (liteLlm.removeTeam teamId).hasTeam teamId = false := by
  simp [LiteLlm.hasTeam, LiteLlm.removeTeam]

/-- Without a team of the identifier, creating one is one call. -/
theorem create_team_new (entries : EntryCalls) (teamAlias : String) {teamId : κ}
    (maxBudget : Option Int) {world : World κ} (absent : world.liteLlm.hasTeam teamId = false) :
    createTeam entries teamAlias teamId maxBudget world = callTeams entries.createTeam
      (fun liteLlm => liteLlm.newTeam teamAlias teamId maxBudget) world := by
  simp [createTeam, absent]

/-- A program ends without a result: with nothing, or with an error. -/
def Fails {α : Type} (result : EStateM.Result (OrgError κ) (World κ) (Option α)) (after : World κ) :
    Prop :=
  result = .ok none after ∨ ∃ error, result = .error error after

/-- The team stays when a member and a key are added, or not. -/
theorem add_key_cases : ∃ after, OnlyTeams world after ∧
      after.liteLlm.hasTeam orgId = world.liteLlm.hasTeam orgId ∧
      ((Joined calls world.liteLlm userId ∧
          addKey calls.entries orgId userId world = .ok (some calls.entries.key) after) ∨
        (¬ Joined calls world.liteLlm userId ∧
          Fails (addKey calls.entries orgId userId world) after)) := by
  unfold addKey userExists
  simp only [bind_apply, get_apply, pure_apply]
  by_cases known : (calls.entries.userExists.ok && world.liteLlm.users.contains userId) = true
  case neg =>
    refine ⟨world, ⟨rfl, rfl⟩, rfl, .inr ⟨fun joined => known joined.1, .inl ?_⟩⟩
    simp only [known]
    rfl
  simp only [known, if_true, bind_apply, addUserToTeam]
  rcases call_teams_cases _
      (fun liteLlm => liteLlm.addMember orgId userId) _
    with ⟨added, -, ran⟩ | ⟨raises, message, ran⟩
  case inr =>
    refine ⟨_, ?_, ?_, .inr ⟨fun joined => Bool.noConfusion (raises.symm.trans joined.2.1),
      .inr ⟨.other message, by rw [ran]⟩⟩⟩
    · exact ⟨rfl, rfl⟩
    · cases calls.entries.addUserToTeam.applied
      · rfl
      · exact has_team_member ..
  rw [ran]
  refine ⟨setLiteLlm (world.liteLlm.addMember orgId userId) world, ⟨rfl, rfl⟩,
    has_team_member .., ?_⟩
  simp only
  rcases query_cases ..
    with ⟨deleted, ran⟩ | ⟨raises, message, ran⟩
  case inr =>
    exact .inr ⟨fun joined => Bool.noConfusion (raises.symm.trans joined.2.2.1),
      .inr ⟨.other message, by rw [ran]⟩⟩
  rw [ran]
  simp only
  rcases query_cases ..
    with ⟨generated, ran⟩ | ⟨raises, message, ran⟩
  case inr =>
    exact .inr ⟨fun joined => Bool.noConfusion (raises.symm.trans joined.2.2.2),
      .inr ⟨.other message, by rw [ran]⟩⟩
  exact .inl ⟨⟨known, added, deleted, generated⟩, by rw [ran]; rfl⟩

variable (absent : world.liteLlm.hasTeam orgId = false)
include absent

/-- A new team is made or not; where it is made and not integrated, it is left. -/
theorem add_team_cases (configured : config.configured = true)
    (remote : config.localDeployment = false) :
    ∃ after, OnlyTeams world after ∧ (after.liteLlm.hasTeam orgId = true ↔ TeamMade config calls) ∧
      ((TeamMade config calls ∧ Integrated calls world.liteLlm userId ∧
          addTeam config calls.entries orgId userId world = .ok (some calls.entries.key) after) ∨
        (¬ (TeamMade config calls ∧ Integrated calls world.liteLlm userId) ∧
          Fails (addTeam config calls.entries orgId userId world) after)) := by
  unfold addTeam
  simp only [bind_apply, get_apply]
  have nothing : ¬ TeamMade config calls → OnlyTeams world world ∧
      (world.liteLlm.hasTeam orgId = true ↔ TeamMade config calls) := by
    intro notMade
    rw [absent]
    exact ⟨⟨rfl, rfl⟩, iff_of_false Bool.false_ne_true notMade⟩
  rcases query_cases .. with ⟨informed, ran⟩ | ⟨raises, message, ran⟩
  case inr =>
    have notMade : ¬ TeamMade config calls :=
      fun made => Bool.noConfusion (raises.symm.trans made.2.2.1)
    exact ⟨world, (nothing notMade).1, (nothing notMade).2, .inr ⟨fun made => notMade made.1,
      .inr ⟨.other message, by rw [ran]⟩⟩⟩
  rw [ran]
  simp only
  rcases query_cases .. with ⟨looked, ran⟩ | ⟨raises, message, ran⟩
  case inr =>
    have notMade : ¬ TeamMade config calls :=
      fun made => Bool.noConfusion (raises.symm.trans made.2.2.2.1)
    exact ⟨world, (nothing notMade).1, (nothing notMade).2, .inr ⟨fun made => notMade made.1,
      .inr ⟨.other message, by rw [ran]⟩⟩⟩
  rw [ran]
  simp only
  rw [create_team_new _ _ _ absent]
  rcases call_teams_cases _ (fun liteLlm => liteLlm.newTeam userId orgId
      (teamBudget config world.liteLlm orgId)) _ with ⟨created, applied, ran⟩ | ⟨raises, message, ran⟩
  case inr =>
    refine ⟨_, ?_, ?_, .inr ⟨fun both => Bool.noConfusion (raises.symm.trans both.2.1),
      .inr ⟨.other message, by rw [ran]⟩⟩⟩
    · exact ⟨rfl, rfl⟩
    · have made : TeamMade config calls ↔ calls.entries.createTeam.applied = true :=
        ⟨fun made => made.2.2.2.2, fun applied => ⟨configured, remote, informed, looked, applied⟩⟩
      rw [made]
      cases calls.entries.createTeam.applied <;> simp [setLiteLlm, absent]
  have made : TeamMade config calls := ⟨configured, remote, informed, looked, applied⟩
  rw [ran]
  obtain ⟨after, only, stays, joined⟩ := add_key_cases _ (setLiteLlm (world.liteLlm.newTeam userId
    orgId (teamBudget config world.liteLlm orgId)) world) _ _
  refine ⟨after, only, ?_, ?_⟩
  · rw [stays]
    exact iff_of_true (has_team_new ..) made
  · rcases joined with ⟨joined, ran⟩ | ⟨alone, failed⟩
    · exact .inl ⟨made, ⟨created, joined⟩, ran⟩
    · exact .inr ⟨fun both => alone both.2.2, failed⟩

/-- The entries of a new organisation: settings, or not, and then the team may be left. -/
theorem create_entries_cases :
    ∃ after, OnlyTeams world after ∧ (after.liteLlm.hasTeam orgId = true ↔ TeamMade config calls) ∧
      ((SettingsMade config calls world.liteLlm userId ∧ ∃ settings,
          createEntries config calls.entries orgId userId world = .ok (some settings) after) ∨
        (¬ SettingsMade config calls world.liteLlm userId ∧
          Fails (createEntries config calls.entries orgId userId world) after)) := by
  by_cases configured : config.configured = true
  case neg =>
    have nothing : createEntries config calls.entries orgId userId world = .ok none world := by
      unfold createEntries
      cases hasKey : config.liteLlmApiKey with
      | none => rfl
      | some apiKey =>
        cases hasUrl : config.liteLlmApiUrl with
        | none => rfl
        | some apiUrl => simp [Config.configured, hasKey, hasUrl] at configured
    refine ⟨world, ⟨rfl, rfl⟩, ?_, .inr ⟨?_, .inl nothing⟩⟩
    · rw [absent]
      exact iff_of_false Bool.false_ne_true fun made => configured made.1
    · rintro (localMade | both)
      · exact configured localMade.1
      · exact configured both.1.1
  obtain ⟨⟨apiKey, hasKey⟩, ⟨apiUrl, hasUrl⟩⟩ : (∃ apiKey, config.liteLlmApiKey = some apiKey) ∧
      ∃ apiUrl, config.liteLlmApiUrl = some apiUrl := by
    rw [← Option.isSome_iff_exists, ← Option.isSome_iff_exists]
    exact Bool.and_eq_true _ _ ▸ configured
  simp only [createEntries, hasKey, hasUrl]
  by_cases deployed : config.localDeployment = true
  · refine ⟨world, ⟨rfl, rfl⟩, ?_, .inl ⟨.inl ⟨configured, deployed⟩,
      ⟨"CodeActAgent", config.defaultLlmModel, apiKey, some apiUrl⟩, ?_⟩⟩
    · rw [absent]
      exact iff_of_false Bool.false_ne_true
        fun made => Bool.noConfusion (deployed.symm.trans made.2.1)
    · simp only [deployed, if_true, bind_apply, pure_apply]
      rfl
  have remote : config.localDeployment = false := by simpa using deployed
  obtain ⟨after, only, left, ends⟩ := add_team_cases _ _ _ _ _ absent configured remote
  refine ⟨after, only, left, ?_⟩
  have notLocal : ¬ (TeamMade config calls ∧ Integrated calls world.liteLlm userId) →
      ¬ SettingsMade config calls world.liteLlm userId := by
    rintro notBoth (localMade | both)
    · exact deployed localMade.2
    · exact notBoth both
  simp only [remote, Bool.false_eq_true, if_false, bind_apply]
  rcases ends with ⟨made, integrated, ran⟩ | ⟨notBoth, ran | ⟨error, ran⟩⟩
  · exact .inl ⟨.inr ⟨made, integrated⟩,
      ⟨"CodeActAgent", config.defaultLlmModel, calls.entries.key, some apiUrl⟩, by rw [ran]; rfl⟩
  · exact .inr ⟨notLocal notBoth, .inl (by rw [ran]; rfl)⟩
  · exact .inr ⟨notLocal notBoth, .inr ⟨error, by rw [ran]⟩⟩

/-- The integration gives settings or raises, and then the team may be left. -/
theorem create_integration_cases :
    ∃ after, OnlyTeams world after ∧ (after.liteLlm.hasTeam orgId = true ↔ TeamMade config calls) ∧
      ((SettingsMade config calls world.liteLlm userId ∧ ∃ settings,
          createLitellmIntegration config text calls orgId userId world = .ok settings after) ∨
        (¬ SettingsMade config calls world.liteLlm userId ∧ ∃ error,
          createLitellmIntegration config text calls orgId userId world = .error error after)) := by
  obtain ⟨after, only, left, ends⟩ := create_entries_cases _ _ _ _ _ absent
  refine ⟨after, only, left, ?_⟩
  simp only [createLitellmIntegration, catch_apply, bind_apply]
  rcases ends with ⟨made, settings, ran⟩ | ⟨notMade, ran | ⟨error, ran⟩⟩
  · exact .inl ⟨made, settings, by rw [ran]; rfl⟩
  · exact .inr ⟨notMade, .liteLlmIntegration "Failed to create LiteLLM settings", by rw [ran]; rfl⟩
  · refine .inr ⟨notMade, ?_⟩
    rw [ran]
    cases error <;> exact ⟨_, rfl⟩

omit absent

/-- A failure raises an error of the database, and no team is left unless deleting it failed. -/
theorem handle_failure_cases (error : OrgError κ) (message : String) (α : Type)
    (configured : config.configured = true) :
    ∃ raised after, handleFailureWithCleanup config text calls orgId error message (α := α) world =
        .error (.orgDatabase raised) after ∧ after.db = world.db ∧
      (after.deletionFailed = true ∨ after.liteLlm.hasTeam orgId = false) := by
  simp only [handleFailureWithCleanup, deleteTeam, configured, if_true, bind_apply, catch_apply]
  rcases call_teams_cases _ (fun liteLlm => liteLlm.removeTeam orgId) _
    with ⟨-, -, ran⟩ | ⟨-, text, ran⟩
  · rw [ran]
    exact ⟨_, _, rfl, rfl, .inr (has_team_remove ..)⟩
  · rw [ran]
    exact ⟨_, _, rfl, rfl, .inl rfl⟩

omit [DecidableEq κ] in
theorem add_org_changes (db : Database κ) (org : Org κ) (member : OrgMember κ) :
    db.addOrg org member ≠ db := by
  intro same
  have longer := congrArg (fun db : Database κ => db.orgs.length) same
  simp [Database.addOrg] at longer

/-- The rows are added and read back, or an error of the database is raised, and then they are
left where the commit had its effect. -/
theorem persist_cases (org : Org κ) (member : OrgMember κ) (orgId : κ)
    (configured : config.configured = true) :
    (world.db.admits org member = true ∧ calls.commit.ok = true ∧ calls.commit.applied = true ∧
      calls.refresh.ok = true ∧
      persistWithCompensation config text calls org member orgId world =
        .ok org (setDb (world.db.addOrg org member) world)) ∨
    (¬ (world.db.admits org member = true ∧ calls.commit.ok = true ∧ calls.refresh.ok = true) ∧
      ∃ raised after, persistWithCompensation config text calls org member orgId world =
          .error (.orgDatabase raised) after ∧
        (after.db = world.db ↔
          ¬ (world.db.admits org member = true ∧ calls.commit.applied = true)) ∧
        (after.deletionFailed = true ∨ after.liteLlm.hasTeam orgId = false)) := by
  simp only [persistWithCompensation, persistOrgWithOwner, catch_apply, bind_apply, get_apply]
  by_cases admitted : world.db.admits org member = true
  case neg =>
    obtain ⟨raised, after, handled, same, cleaned⟩ := handle_failure_cases _ text _ _
      _ _ _ _ configured
    refine .inr ⟨fun both => admitted both.1, raised, after, ?_,
      iff_of_true same fun both => admitted both.1, cleaned⟩
    simp only [admitted, Bool.false_eq_true, if_false, throw_apply]
    exact handled
  simp only [admitted, if_true, bind_apply, true_and]
  rcases call_cases _ (fun world => setDb (world.db.addOrg org member) world) _
    with ⟨committed, applied, ran⟩ | ⟨raises, message, ran⟩
  case inr =>
    rw [ran]
    obtain ⟨raised, after, handled, same, cleaned⟩ := handle_failure_cases _ text _ _
      _ _ _ _ configured
    refine .inr ⟨fun both => Bool.noConfusion (raises.symm.trans both.1), raised, after, handled,
      ?_, cleaned⟩
    rw [same]
    by_cases applied : calls.commit.applied = true
    · simpa [applied, setDb] using add_org_changes _ org _
    · simp [applied]
  rw [ran]
  simp only
  rcases query_cases _ _
    with ⟨refreshed, ran⟩ | ⟨raises, message, ran⟩
  · rw [ran]
    exact .inl ⟨committed, applied, refreshed, rfl⟩
  rw [ran]
  obtain ⟨raised, after, handled, same, cleaned⟩ := handle_failure_cases _ text _ _
    _ _ _ _ configured
  refine .inr ⟨fun both => Bool.noConfusion (raises.symm.trans both.2), raised, after, handled,
    ?_, cleaned⟩
  rw [same]
  simpa [applied, setDb] using add_org_changes _ org _

/-- The constraints admit a new organisation under a free name for a user who is registered. -/
theorem admits_iff (db : Database κ) (org : Org κ) (member : OrgMember κ) (orgId : κ)
    (own : org.id = orgId) (of : member.orgId = orgId) (free : named db org.name = none)
    (newOrg : ∀ org ∈ db.orgs, org.id ≠ orgId)
    (newMember : ∀ member ∈ db.orgMembers, member.orgId ≠ orgId) :
    db.admits org member = true ↔ db.users.any (fun user => user.id = member.userId) = true := by
  have noOrg : db.orgs.any (fun other => other.id = org.id || other.name = org.name) = false := by
    rw [any_eq_false]
    intro other listed
    have differs := find?_eq_none.mp free other listed
    simpa [own, newOrg other listed] using differs
  have noMember : db.orgMembers.any (fun other =>
      other.orgId = member.orgId && other.userId = member.userId) = false := by
    rw [any_eq_false]
    intro other listed
    simp [of, newMember other listed]
  simp [Database.admits, noOrg, noMember]

/-- The rows of a new organisation and its owner, in a state in which the service is configured:
they are added and read back, or an error is raised, and then the rows may be left. -/
theorem create_rows_cases (name contactName contactEmail userId : String) (settings : Settings)
    (configured : config.configured = true) (free : named world.db name = none)
    (newOrg : ∀ org ∈ world.db.orgs, org.id ≠ orgId)
    (newMember : ∀ member ∈ world.db.orgMembers, member.orgId ≠ orgId) :
    (RowsAdded parseUuid calls world.db userId ∧ calls.commit.ok = true ∧ calls.refresh.ok = true ∧
      ∃ org member role, createRows config text parseUuid calls orgId name contactName contactEmail
          userId settings world = .ok org (setDb (world.db.addOrg org member) world) ∧
        org.id = orgId ∧ role ∈ world.db.roles ∧ role.name = "owner" ∧ member.orgId = orgId ∧
        parseUuid userId = some member.userId ∧ member.roleId = role.id) ∨
    (¬ (RowsAdded parseUuid calls world.db userId ∧ calls.commit.ok = true ∧
        calls.refresh.ok = true) ∧
      ∃ error after, createRows config text parseUuid calls orgId name contactName contactEmail
          userId settings world = .error error after ∧
        (after.db = world.db ↔ ¬ RowsAdded parseUuid calls world.db userId) ∧
        (after.deletionFailed = true ∨ after.liteLlm.hasTeam orgId = false)) := by
  -- an error before the rows are committed is followed by the cleanup
  have early : ∀ error, ¬ RowsAdded parseUuid calls world.db userId →
      ∃ raised after, handleFailureWithCleanup config text calls orgId error
          "Failed to create organization" (α := Org κ) world = .error (.orgDatabase raised) after ∧
        (after.db = world.db ↔ ¬ RowsAdded parseUuid calls world.db userId) ∧
        (after.deletionFailed = true ∨ after.liteLlm.hasTeam orgId = false) := by
    intro error notAdded
    obtain ⟨raised, after, ran, same, cleaned⟩ := handle_failure_cases _ text _ _ _
      _ _ _ configured
    exact ⟨raised, after, ran, iff_of_true same notAdded, cleaned⟩
  simp only [createRows, getOwnerRole, catch_apply, bind_apply]
  rcases query_cases .. with ⟨asked, ran⟩ | ⟨raises, message, ran⟩
  case inr =>
    have notAdded : ¬ RowsAdded parseUuid calls world.db userId :=
      fun added => Bool.noConfusion (raises.symm.trans added.1)
    obtain ⟨raised, after, handled, rows, cleaned⟩ := early (.other message) notAdded
    refine .inr ⟨fun added => notAdded added.1, .orgDatabase raised, after, ?_, rows, cleaned⟩
    rw [ran]
    exact handled
  rw [ran]
  simp only [get_apply]
  cases owner : world.db.roles.find? (fun role => role.name = "owner") with
  | none =>
    have notAdded : ¬ RowsAdded parseUuid calls world.db userId := by
      intro added
      have some := find?_isSome.mpr (any_eq_true.mp added.2.1)
      rw [owner] at some
      cases some
    obtain ⟨raised, after, handled, rows, cleaned⟩ :=
      early (.other "Owner role not found in database") notAdded
    exact .inr ⟨fun added => notAdded added.1, .orgDatabase raised, after, handled, rows, cleaned⟩
  | some role =>
  have listed : role ∈ world.db.roles := mem_of_find?_eq_some owner
  have owns : role.name = "owner" := by simpa using find?_some owner
  simp only [pure_apply, createOrgMemberEntity]
  cases parsed : parseUuid userId with
  | none =>
    have notAdded : ¬ RowsAdded parseUuid calls world.db userId := by
      intro added
      have user := added.2.2.1
      rw [parsed] at user
      exact user
    obtain ⟨raised, after, handled, rows, cleaned⟩ :=
      early (.other "badly formed hexadecimal UUID string") notAdded
    exact .inr ⟨fun added => notAdded added.1, .orgDatabase raised, after, handled, rows, cleaned⟩
  | some user =>
    simp only [pure_apply]
    have admitted := admits_iff world.db
      (applyLitellmSettingsToOrg (createOrgEntity config orgId name contactName contactEmail) settings)
      ⟨orgId, user, role.id, settings.llmApiKey, settings.llmModel, settings.llmBaseUrl, "active"⟩
      orgId rfl rfl free newOrg newMember
    have added : RowsAdded parseUuid calls world.db userId ↔
        world.db.users.any (fun other => other.id = user) = true ∧ calls.commit.applied = true := by
      have some : world.db.roles.any (fun role => role.name = "owner") = true :=
        any_eq_true.mpr ⟨role, listed, by simpa using owns⟩
      rw [RowsAdded, parsed]
      exact ⟨fun added => added.2.2, fun added => ⟨asked, some, added⟩⟩
    rcases persist_cases _ text _ _ _ _ _ configured with
      ⟨admits, committed, applied, refreshed, ran⟩ | ⟨notAll, raised, after, ran, rows, cleaned⟩
    · rw [ran]
      exact .inl ⟨added.mpr ⟨admitted.mp admits, applied⟩, committed, refreshed, _, _,
        role, rfl, rfl, listed, owns, rfl, rfl, rfl⟩
    · rw [ran]
      refine .inr ⟨fun all => notAll ⟨admitted.mpr (added.mp all.1).1, all.2⟩,
        .orgDatabase raised, after, rfl, ?_, cleaned⟩
      rw [rows, added, admitted]

/-- A creation adds everything or nothing exactly where its calls are careful. -/
theorem create_exact (name contactName contactEmail userId : String) (new : New world orgId)
    (fresh : world.deletionFailed = false) :
    CreatedOrNot parseUuid world orgId userId (createOrgWithOwner config text parseUuid calls orgId
        name contactName contactEmail userId world) ↔
      CreationCareful config parseUuid calls world name userId := by
  simp only [createOrgWithOwner, bind_apply]
  rcases validate_name_cases config calls world name with ⟨free, ran⟩ | ⟨taken, error, db, ran, stays⟩
  case inr =>
    rw [ran]
    refine ⟨fun created => ⟨stays.mp created.1, fun free => absurd free taken⟩,
      fun careful => ⟨stays.mpr careful.1, .inr new.team⟩⟩
  have notUpgraded : ¬ UpgradesTaken config calls world.db name := by
    rw [UpgradesTaken, free.2]
    exact id
  rw [ran]
  simp only
  obtain ⟨after, ⟨sameDb, sameFlag⟩, left, ends⟩ :=
    create_integration_cases config text calls world orgId userId new.team
  rcases ends with ⟨made, settings, ran⟩ | ⟨notMade, error, ran⟩
  case inr =>
    rw [ran]
    constructor
    · rintro ⟨-, cleaned⟩
      refine ⟨notUpgraded, fun _ => ⟨fun team => ?_, fun made => absurd made notMade⟩⟩
      rcases cleaned with failed | gone
      · rw [sameFlag, fresh] at failed
        cases failed
      · rw [left.mpr team] at gone
        cases gone
    · rintro ⟨-, careful⟩
      refine ⟨sameDb, .inr ?_⟩
      by_contra kept
      have team : TeamMade config calls := left.mp (by simpa using kept)
      exact notMade (.inr ⟨team, (careful free).1 team⟩)
  rw [ran]
  simp only
  have configured : config.configured = true := by
    rcases made with localMade | both
    · exact localMade.1
    · exact both.1.1
  have integrated : TeamMade config calls → Integrated calls world.liteLlm userId := by
    intro team
    rcases made with localMade | both
    · exact absurd localMade.2 (by simp [team.2.1])
    · exact both.2
  have rows := create_rows_cases config text parseUuid calls after orgId name contactName contactEmail
    userId settings configured (sameDb.symm ▸ free.2) (sameDb.symm ▸ new.org)
    (sameDb.symm ▸ new.member)
  rw [sameDb] at rows
  rcases rows with
    ⟨added, committed, refreshed, org, member, role, ran, own, listed, owns, of, parsed, sameRole⟩ |
      ⟨notAll, error, final, ran, stays, cleaned⟩
  · rw [ran]
    have team : (after.liteLlm.hasTeam orgId = true) ↔ config.localDeployment = false := by
      rw [left]
      refine ⟨fun team => team.2.1, fun remote => ?_⟩
      rcases made with localMade | both
      · exact absurd localMade.2 (by simp [remote])
      · exact both.1
    constructor
    · rintro ⟨-, kept, -⟩
      exact ⟨notUpgraded, fun _ => ⟨integrated, fun _ _ => ⟨team.mp kept, committed, refreshed⟩⟩⟩
    · rintro ⟨-, careful⟩
      exact ⟨own, team.mpr ((careful free).2 made added).1, member, role, listed, owns, of, parsed,
        sameRole, rfl⟩
  · rw [ran]
    constructor
    · rintro ⟨same, -⟩
      exact ⟨notUpgraded, fun _ => ⟨integrated, fun _ added => absurd added (stays.mp same)⟩⟩
    · rintro ⟨-, careful⟩
      refine ⟨stays.mpr fun added => ?_, cleaned⟩
      obtain ⟨-, both⟩ := (careful free).2 made added
      exact notAll ⟨added, both⟩

end Creating

end ForgePilot.OrgCreation
