import ForgePilot.OrgEffects

/-!
# The current organisation of a user

The pointer to the current organisation is written by a switch, by a removal that found it
at the organisation the user was removed from, and by a deletion. A removal writes the
membership first and the pointer two steps later, so that in between the pointer may be
wrong; what is kept is that each wrong pointer has a removal in progress that will set it.

A switch writes the pointer after it has checked the membership, and a removal sets it to
the personal workspace without a check. Where the user has left the organisation by then,
or has no part in the personal workspace any more, the pointer stays wrong.
-/

namespace ForgePilot.CurrentOrganization

open Runs Processes Organizations OrgRequests List Store
open OrgMembers (Role OrgMember isOwner roleOwner getRoleById getRoleByName performWrite
  removeUserFromOrg updateUserRoleInOrg)

variable {κ : Type} [DecidableEq κ]

/-- The current organisation of a user exists, and the user is a member of it. -/
def Placed (store : Store κ) (user : User κ) : Prop :=
  (store.getOrgById user.currentOrgId).isSome = true ∧ Belongs store user.currentOrgId user.id

/-- Each user has only a personal workspace: it is the user's own and current. -/
structure Personal (roles : List Role) (store : Store κ) : Prop where
  distinct : (store.users.map User.id).Nodup
  current : ∀ user ∈ store.users, user.currentOrgId = user.id
  owned : ∀ user ∈ store.users, (store.getOrgById user.id).isSome = true ∧
    ∃ member, store.members user.id = [member] ∧ member.userId = user.id ∧
      isOwner roles member = true
  only : ∀ orgId, store.members orgId ≠ [] → ∃ user ∈ store.users, orgId = user.id

section Requests

variable {ρ : Type} (requests : ρ → Request κ)

/-- A switch that writes the pointer is made for a member of the organisation. A removal that
looks at the pointer, or sets it, is not stopped by a call that raises, and sets it for a member of
the personal workspace. -/
def Careful (name : ρ) (store : Store κ) (phase : Phase κ) (given : Given κ) : Prop :=
  match requests name, phase with
  | .switchOrg userId orgId, .switching _ => given.raises = none → Belongs store orgId userId
  | .removeOrgMember _ _ _, .rereading => given.raises = none
  | .removeOrgMember _ targetUserId _, .resetting =>
      given.raises = none ∧ Belongs store targetUserId targetUserId
  | _, _ => True

instance (name : ρ) (store : Store κ) (phase : Phase κ) (given : Given κ) :
    Decidable (Careful requests name store phase given) := by
  dsimp [Careful]
  rcases requests name with _ | _ <;> rcases phase with _ | _ <;> infer_instance

instance (world : World (Store κ) ρ (Phase κ)) (label : ρ × Given κ) :
    Decidable (Assuming (Careful requests) world label) := by
  unfold Assuming
  infer_instance

end Requests

/-! ## What is kept -/

/-- No user is listed twice, and only existing organisations have members. -/
structure Common (store : Store κ) : Prop where
  distinct : (store.users.map User.id).Nodup
  existing : ∀ orgId userId, Belongs store orgId userId → (store.getOrgById orgId).isSome = true

/-- A request will set the pointer of a user: a removal of that user that is about to set it, or
to find it at the organisation of the removal. -/
def Repairs (request : Request κ) (phase : Phase κ) (user : User κ) : Prop :=
  ∃ orgId currentUserId, request = .removeOrgMember orgId user.id currentUserId ∧
    (phase = .resetting ∨ (phase = .rereading ∧ orgId = user.currentOrgId))

/-- What a step of a request does for the pointers: each is right afterwards, or the request will
set it, or it was wrong before and the request was not to set it. -/
structure Steps (request : Request κ) (store : Store κ) (phase : Phase κ) (next : Store κ × Phase κ) :
    Prop where
  common : Common next.1
  users : ∀ user ∈ next.1.users, Belongs next.1 user.currentOrgId user.id ∨
    Repairs request next.2 user ∨
    (user ∈ store.users ∧ ¬ Belongs store user.currentOrgId user.id ∧ ¬ Repairs request phase user)

/-- Members are only added, and so are users, who are members of their current organisation. -/
structure Widens (store next : Store κ) : Prop where
  users : ∃ added, next.users = store.users ++ added ∧
    ∀ user ∈ added, Belongs next user.currentOrgId user.id
  members : ∀ orgId userId, Belongs store orgId userId → Belongs next orgId userId

variable {roles : List Role} {text : κ → String} {request : Request κ} {store next : Store κ}

variable {phase : Phase κ}

/-- A step that only adds members, and does not drop a pointer that it was to set. -/
theorem steps_of_widens {phase' : Phase κ} (common : Common next) (widens : Widens store next)
    (repairs : ∀ user ∈ store.users, Repairs request phase user → Repairs request phase' user) :
    Steps request store phase (next, phase') := by
  refine ⟨common, fun user member => ?_⟩
  obtain ⟨added, users, placed⟩ := widens.users
  rw [users] at member
  rcases mem_append.mp member with member | new
  case inr => exact .inl (placed user new)
  by_cases belongs : Belongs store user.currentOrgId user.id
  · exact .inl (widens.members _ _ belongs)
  · by_cases mine : Repairs request phase user
    · exact .inr (.inl (repairs user member mine))
    · exact .inr (.inr ⟨member, belongs, mine⟩)

/-- A request is to set no pointer. -/
def Quiet (request : Request κ) (phase : Phase κ) : Prop := ∀ user, ¬ Repairs request phase user

omit [DecidableEq κ] in
/-- A request sets pointers in two phases only. -/
theorem quiet_of_phase (request : Request κ) (phase : Phase κ) (notRereading : phase ≠ .rereading)
    (notResetting : phase ≠ .resetting) : Quiet request phase := by
  rintro user ⟨orgId, currentUserId, -, resetting | ⟨rereading, -⟩⟩
  · exact notResetting resetting
  · exact notRereading rereading

omit [DecidableEq κ] in
/-- Only a removal sets pointers to a personal workspace. -/
theorem quiet_of_request (phase : Phase κ) (other : ∀ orgId targetUserId currentUserId,
      request ≠ .removeOrgMember orgId targetUserId currentUserId) : Quiet request phase := by
  rintro user ⟨orgId, currentUserId, same, -⟩
  exact other orgId user.id currentUserId same

/-- A step that changes neither users nor members, by a request that was to set no pointer. -/
theorem steps_of_same (phase phase' : Phase κ) (common : Common store)
    (users : next.users = store.users) (members : next.members = store.members)
    (orgs : next.orgs = store.orgs) (quiet : Quiet request phase) :
    Steps request store phase (next, phase') := by
  have belongs : ∀ orgId userId, Belongs next orgId userId ↔ Belongs store orgId userId := by
    intro orgId userId
    rw [Belongs, Belongs, getOrgMember, getOrgMember, members]
  refine steps_of_widens ⟨?_, ?_⟩
    ⟨⟨[], by simpa using users, by simp⟩, fun orgId userId => (belongs orgId userId).mpr⟩
    fun user _ mine => absurd mine (quiet user)
  · rw [users]
    exact common.distinct
  · intro orgId userId belongsNext
    rw [getOrgById, orgs]
    exact common.existing orgId userId ((belongs orgId userId).mp belongsNext)

/-! ## The stores -/

/-- Adding a member keeps what holds, where the organisation exists. -/
theorem append_member (orgId userId : κ) (roleId : Nat) (common : Common store)
    (founded : (store.getOrgById orgId).isSome = true) :
    Common (store.setMembers orgId (store.members orgId ++ [⟨userId, roleId⟩])) ∧
      Widens store (store.setMembers orgId (store.members orgId ++ [⟨userId, roleId⟩])) := by
  constructor
  · refine ⟨common.distinct, fun other otherUser belongs => ?_⟩
    rcases (belongs_append ..).mp belongs with
      before | ⟨rfl, -⟩
    · exact common.existing other otherUser before
    · exact founded
  · exact ⟨⟨[], (append_nil _).symm, by simp⟩, fun other otherUser belongs =>
      (belongs_append ..).mpr (.inl belongs)⟩

variable {userId orgId : κ}

theorem add_user_to_org_widens {roleId : Nat} (common : Common store)
    (added : store.addUserToOrg roles orgId userId roleId = some next) :
    Common next ∧ Widens store next := by
  obtain ⟨founded, -, -, rfl⟩ := add_user_to_org_tables _ _ _ _ _ added
  exact append_member _ _ _ common founded

/-- A new organisation keeps what holds. -/
theorem append_org (org : Org κ) (common : Common store) :
    Common { store with orgs := store.orgs ++ [org] } ∧
      (({ store with orgs := store.orgs ++ [org] } : Store κ).getOrgById org.id).isSome = true := by
  refine ⟨⟨common.distinct, fun orgId userId belongs => ?_⟩, (org_found_iff ..).mpr
    ⟨org, mem_append_right _ (.head _), rfl⟩⟩
  obtain ⟨row, present, named⟩ := (org_found_iff ..).mp (common.existing orgId userId belongs)
  exact (org_found_iff ..).mpr ⟨row, mem_append_left _ present, named⟩

/-- An organisation is created with its owner. -/
theorem persist_widens {org : Org κ} {roleId : Nat} (common : Common store)
    (persisted : store.persistOrgWithOwner org userId roleId = some next) :
    Common next ∧ Widens store next := by
  obtain ⟨-, -, rfl⟩ := persist_org_with_owner_tables persisted
  obtain ⟨wider, founded⟩ := append_org org common
  obtain ⟨kept, widens⟩ := append_member _ _ _ wider founded
  exact ⟨⟨kept.distinct, kept.existing⟩, ⟨widens.users, widens.members⟩⟩

theorem migrate_user_widens {settings : UserSettings κ} {user : User κ} (common : Common store)
    (missing : store.findUser settings.keycloakUserId = none)
    (migrates : store.migrateUser roles text settings = some (next, user)) :
    Common next ∧ Widens store next := by
  obtain ⟨-, rfl, role, -, rfl⟩ := migrate_user_tables _ _ _ _ _ migrates
  obtain ⟨wider, founded⟩ := append_org ⟨settings.keycloakUserId,
    personalName text settings.keycloakUserId⟩ common
  obtain ⟨kept, widens⟩ := append_member _ _ _ wider founded
  refine ⟨⟨?_, kept.existing⟩, ⟨⟨[_], rfl, ?_⟩, widens.members⟩⟩
  · rw [map_append]
    refine nodup_append.mpr ⟨common.distinct, by simp, ?_⟩
    intro id member other same
    obtain ⟨user, present, rfl⟩ := mem_map.mp member
    obtain rfl := mem_singleton.mp same
    exact find_user_none missing _ present
  · intro user new
    obtain rfl := mem_singleton.mp new
    exact (belongs_append ..).mpr (.inr ⟨rfl, rfl⟩)

/-- A user is found where there is one, and may be migrated where there is none. -/
theorem get_user_by_id_widens {known : Bool} {found : Option (User κ)} (common : Common store)
    (got : store.getUserById roles text userId known = some (next, found)) :
    Common next ∧ Widens store next ∧
      ∀ user ∈ store.users, user.id = userId → found = some user := by
  have same : Widens store store := ⟨⟨[], by simp, by simp⟩, fun _ _ belongs => belongs⟩
  cases get_user_by_id_cases _ _ got with
  | present present =>
    refine ⟨common, same, fun other member named => ?_⟩
    obtain ⟨here, same⟩ := find_user_some present
    exact congrArg some (inj_on_of_nodup_map common.distinct here member
      (same.trans named.symm))
  | absent missing =>
    exact ⟨common, same, fun user member named => absurd named (find_user_none missing _ member)⟩
  | migrated settings _ user missing migrates =>
    obtain ⟨kept, widens⟩ := migrate_user_widens common missing migrates
    exact ⟨kept, widens,
      fun user member named => absurd named (find_user_none missing _ member)⟩

/-- The organisations that are alternatives of a user have the user for a member. -/
theorem alternatives_belong {other : κ} (listed : other ∈ store.alternatives orgId userId) :
    other ≠ orgId ∧ Belongs store other userId := by
  obtain ⟨org, present, rfl⟩ := mem_map.mp listed
  simpa [Belongs] using (mem_filter.mp present).2

/-- A user who has an alternative is given one of them. -/
theorem reassign_listed (store : Store κ) (orgId : κ) (choice : κ → κ) (user : User κ)
    (current : user.currentOrgId = orgId) (others : store.alternatives orgId user.id ≠ []) :
    (store.reassign orgId choice user).currentOrgId ∈ store.alternatives orgId user.id := by
  rw [reassign, if_pos current]
  split
  case isTrue listed => exact listed
  case isFalse =>
    cases listed : store.alternatives orgId user.id with
    | nil => exact absurd listed others
    | cons first rest => exact .head _

/-- A deletion of an organisation leaves each pointer right that was right. -/
theorem delete_org_cascade_steps (phase phase' : Phase κ) {choice : κ → κ}
    {deleted : Option (Org κ)} (common : Common store)
    (cascades : store.deleteOrgCascade orgId choice = .ok (next, deleted))
    (quiet : Quiet request phase) : Steps request store phase (next, phase') := by
  rcases delete_org_cascade_tables cascades with
    rfl | ⟨nobody, rfl⟩
  · exact steps_of_same _ _ common rfl rfl rfl quiet
  have belongs : ∀ other userId, Belongs
      { store.setMembers orgId [] with users := store.users.map (store.reassign orgId choice) }
      other userId ↔ other ≠ orgId ∧ Belongs store other userId := by
    intro other userId
    refine (belongs_set_members ..).trans ?_
    by_cases same : other = orgId <;> simp [same]
  have ids : ∀ user, (store.reassign orgId choice user).id = user.id := by
    intro user
    unfold reassign
    split <;> rfl
  refine ⟨⟨?_, fun other userId here => ?_⟩, fun user member => ?_⟩
  · have same : (store.users.map (store.reassign orgId choice)).map User.id =
        store.users.map User.id := by
      rw [map_map]
      exact map_congr_left fun user _ => ids user
    rw [same]
    exact common.distinct
  · exact common.existing other userId ((belongs other userId).mp here).2
  · obtain ⟨before, present, rfl⟩ := mem_map.mp member
    by_cases current : before.currentOrgId = orgId
    · have others : store.alternatives orgId before.id ≠ [] := by
        intro none
        have orphan : before.id ∈ store.orphaned orgId :=
          mem_map_of_mem (mem_filter.mpr ⟨present, by simp [current, none]⟩)
        rw [nobody] at orphan
        cases orphan
      have listed := reassign_listed store orgId choice before current others
      refine .inl ((belongs _ _).mpr ?_)
      rw [ids]
      exact alternatives_belong listed
    · have same : store.reassign orgId choice before = before := if_neg current
      rw [same]
      by_cases right : Belongs store before.currentOrgId before.id
      · exact .inl ((belongs _ _).mpr ⟨current, right⟩)
      · exact .inr (.inr ⟨present, right, quiet before⟩)

/-! ## The steps of the requests -/

theorem steps_of_read (phase phase' : Phase κ) (common : Common store)
    (quiet : Quiet request phase) :
    Steps request store phase (store, phase') :=
  steps_of_same _ _ common rfl rfl rfl quiet

/-- A step that writes the pointer of a user to an organisation the user belongs to. -/
theorem steps_of_pointer (phase phase' : Phase κ) {found : Option (User κ)} (common : Common store)
    (updated : store.updateCurrentOrg userId orgId = some (next, found))
    (belongs : Belongs store orgId userId)
    (mine : ∀ user, Repairs request phase user → user.id = userId) :
    Steps request store phase (next, phase') := by
  obtain ⟨users, members, orgs, -⟩ := update_current_org_tables _ _ _ updated
  have same : ∀ other otherUser, Belongs next other otherUser ↔ Belongs store other otherUser := by
    intro other otherUser
    rw [belongs_iff, belongs_iff, members]
  refine ⟨⟨?_, fun other otherUser here => ?_⟩, fun user member => ?_⟩
  · have ids : next.users.map User.id = store.users.map User.id := by
      rw [users, map_map]
      refine map_congr_left fun user _ => ?_
      dsimp
      split <;> rfl
    rw [ids]
    exact common.distinct
  · rw [getOrgById, orgs]
    exact common.existing other otherUser ((same other otherUser).mp here)
  · dsimp only at member ⊢
    rw [users] at member
    obtain ⟨before, present, rfl⟩ := mem_map.mp member
    by_cases named : before.id = userId
    · rw [if_pos named]
      refine .inl ((same _ _).mpr ?_)
      rw [named]
      exact belongs
    · rw [if_neg named]
      by_cases right : Belongs store before.currentOrgId before.id
      · exact .inl ((same _ _).mpr right)
      · exact .inr (.inr ⟨present, right, fun repairs => named (mine before repairs)⟩)

/-- A removal that has taken a user out of the organisation will look at the pointer of that user
next. -/
theorem remove_member_steps {targetUserId currentUserId : κ} {store next : Store κ}
    (common : Common store)
    (quiet : Quiet (.removeOrgMember orgId targetUserId currentUserId) phase)
    (users : next.users = store.users) (orgs : next.orgs = store.orgs)
    (members : next.members = (store.setMembers orgId
      (removeUserFromOrg (store.members orgId) targetUserId)).members) :
    Steps (.removeOrgMember orgId targetUserId currentUserId) store phase (next, .rereading) := by
  have belongs : ∀ other userId, Belongs next other userId ↔
      Belongs store other userId ∧ ¬ (other = orgId ∧ userId = targetUserId) := by
    intro other userId
    rw [← belongs_remove, belongs_iff, belongs_iff, members]
  refine ⟨⟨?_, fun other userId here => ?_⟩, fun user member => ?_⟩
  · rw [users]
    exact common.distinct
  · rw [getOrgById, orgs]
    exact common.existing other userId ((belongs other userId).mp here).1
  · dsimp only at member ⊢
    rw [users] at member
    by_cases right : Belongs store user.currentOrgId user.id
    · by_cases gone : user.currentOrgId = orgId ∧ user.id = targetUserId
      · obtain ⟨current, named⟩ := gone
        exact .inr (.inl ⟨orgId, currentUserId, by rw [named], .inr ⟨rfl, current.symm⟩⟩)
      · exact .inl ((belongs _ _).mpr ⟨right, gone⟩)
    · exact .inr (.inr ⟨member, right, quiet user⟩)

/-- What a step does for the pointers follows from what it does to the tables, where the request
was to set no pointer. -/
theorem effect_steps {normal : String → String} {text : κ → String} {given : Given κ}
    {next : Store κ × Phase κ} (effect : Effect roles normal text request store given phase next)
    (common : Common store) (quiet : Quiet request phase)
    (switches : ∀ userId orgId org, request = .switchOrg userId orgId → phase = .switching org →
      given.raises = none → Belongs store orgId userId)
    (listed : ∀ orgId targetUserId currentUserId role,
      request ≠ .updateOrgMember orgId targetUserId currentUserId role) :
    Steps request store phase next := by
  have nobody : ∀ user ∈ store.users, Repairs request phase user →
      ∀ phase', Repairs request phase' user := fun user _ mine => absurd mine (quiet user)
  cases effect with
  | kept _ phase' => exact steps_of_read _ _ common quiet
  | switched userId orgId org next found phase' asked silent updated =>
    exact steps_of_pointer _ _ common updated
      (switches userId orgId org asked rfl silent) fun user mine => absurd mine (quiet user)
  | reset orgId targetUserId currentUserId next found phase' asked updated =>
    exact absurd ⟨orgId, currentUserId, asked, .inl rfl⟩
      (quiet ⟨targetUserId, none, targetUserId⟩)
  | migrated settings next user _ phase' missing migrates =>
    obtain ⟨kept, widens⟩ := migrate_user_widens common missing migrates
    exact steps_of_widens kept widens
      fun user member mine => nobody user member mine phase'
  | removed orgId targetUserId currentUserId write member asked present out =>
    rcases asked with rfl | ⟨role, asked⟩
    · exact remove_member_steps common quiet rfl rfl rfl
    · exact absurd asked (listed orgId targetUserId currentUserId role)
  | roleGiven orgId targetUserId currentUserId write member newRole asked present changed =>
    have belongs := belongs_update_role store orgId targetUserId newRole.id
    exact steps_of_widens
      ⟨common.distinct, fun other userId here =>
        common.existing other userId ((belongs other userId).mp here)⟩
      ⟨⟨[], (append_nil _).symm, by simp⟩, fun other userId here =>
        (belongs other userId).mpr here⟩
      fun user member mine => nobody user member mine _
  | deleted userId orgId next org phase' asked cascades =>
    exact delete_org_cascade_steps _ _ common cascades
      quiet
  | issued orgId email roleName inviterId targetRole next invite asked issues =>
    obtain ⟨rfl, -⟩ := create_invitation_tables _ _ _ _ issues
    exact steps_of_same _ _ common rfl rfl rfl quiet
  | stated invite _ phase' status acceptedBy marks silent =>
    rcases update_invitation_status_tables store invite.id status acceptedBy with
      same | ⟨earlier, invitations, written⟩
    · rw [same]
      exact steps_of_read _ _ common quiet
    · rw [written]
      exact steps_of_same _ _ common rfl rfl rfl quiet
  | admitted token userId invite next asked silent adds =>
    obtain ⟨kept, widens⟩ := add_user_to_org_widens common adds
    exact steps_of_widens ⟨kept.distinct, kept.existing⟩
      ⟨widens.users, widens.members⟩ fun user member mine => nobody user member mine _
  | founded name userId orgId ownerRole next asked persists =>
    obtain ⟨kept, widens⟩ := persist_widens common
      persists
    exact steps_of_widens kept widens
      fun user member mine => nobody user member mine _

/-- Looking up a user that is in the table does not raise. -/
theorem get_user_by_id_raises {known : Bool}
    (raised : store.getUserById roles text userId known = none) :
    ∀ user ∈ store.users, user.id ≠ userId := by
  unfold getUserById at raised
  split at raised
  case h_1 => cases raised
  case h_2 missing => exact find_user_none missing

/-- A pointer can be written to an organisation that exists. -/
theorem update_current_org_raises (raised : store.updateCurrentOrg userId orgId = none) :
    (store.getOrgById orgId).isSome = false := by
  unfold updateCurrentOrg at raised
  split at raised
  case h_1 => cases raised
  case h_2 =>
    split at raised
    case isTrue missing => simpa using missing
    case isFalse => cases raised

/-- A removal that looks at the pointer of the user whose membership went. -/
theorem rereading_steps (roles : List Role) (lower : String → String) (text : κ → String)
    (orgId targetUserId currentUserId : κ) (store : Store κ) (given : Given κ)
    (common : Common store) (silent : given.raises = none) :
    Steps (.removeOrgMember orgId targetUserId currentUserId) store .rereading
      (removeOrgMember roles lower text orgId targetUserId currentUserId store .rereading given) := by
  -- only a user at the organisation of the removal has a pointer to be set here
  have waits : ∀ user : User κ, Repairs (.removeOrgMember orgId targetUserId currentUserId)
      .rereading user → user.id = targetUserId ∧ user.currentOrgId = orgId := by
    rintro user ⟨_, _, same, resetting | ⟨-, rfl⟩⟩
    · cases resetting
    · injection same with sameOrg sameTarget
      exact ⟨sameTarget.symm, sameOrg.symm⟩
  rw [removeOrgMember]
  split
  case h_1 message _ raising =>
    rw [silent] at raising
    cases raising
  case h_2 _ raised =>
    refine steps_of_widens common
      ⟨⟨[], by simp, by simp⟩, fun _ _ belongs => belongs⟩ fun user member repairs => ?_
    exact absurd (waits user repairs).1
      (get_user_by_id_raises raised _ member)
  case h_3 next _ got =>
    obtain ⟨kept, widens, found⟩ := get_user_by_id_widens common got
    refine steps_of_widens kept widens fun user member repairs => ?_
    cases found user member (waits user repairs).1
  case h_4 next user _ got =>
    obtain ⟨kept, widens, found⟩ := get_user_by_id_widens common got
    refine steps_of_widens kept widens fun other member repairs => ?_
    obtain ⟨named, current⟩ := waits other repairs
    cases found other member named
    rw [if_pos current]
    exact ⟨orgId, currentUserId, by rw [named], .inl rfl⟩

/-- A removal that sets the pointer of the user whose membership went. -/
theorem resetting_steps (roles : List Role) (lower : String → String) (text : κ → String)
    (orgId targetUserId currentUserId : κ) (store : Store κ) (given : Given κ)
    (common : Common store) (silent : given.raises = none)
    (belongs : Belongs store targetUserId targetUserId) :
    Steps (.removeOrgMember orgId targetUserId currentUserId) store .resetting
      (removeOrgMember roles lower text orgId targetUserId currentUserId store .resetting given) := by
  have mine : ∀ user : User κ, Repairs (.removeOrgMember orgId targetUserId currentUserId)
      .resetting user → user.id = targetUserId := by
    rintro user ⟨_, _, same, -⟩
    injection same with _ sameTarget
    exact sameTarget.symm
  rw [removeOrgMember]
  split
  case h_1 message _ raising =>
    rw [silent] at raising
    cases raising
  case h_2 _ raised =>
    have missing := update_current_org_raises raised
    rw [common.existing targetUserId targetUserId belongs] at missing
    cases missing
  case h_3 next found _ updated =>
    exact steps_of_pointer _ _ common updated belongs
      mine

/-! ## Any interleaving -/

section Runs

variable {ρ : Type} [DecidableEq ρ]
variable (roles : List Role) (lower normal : String → String) (text : κ → String)
variable (requests : ρ → Request κ)

/-- Every request but a change of role. -/
def Listed : Request κ → Prop
  | .updateOrgMember .. => False
  | _ => True

omit [DecidableEq ρ] in
theorem move_steps {name : ρ} {phase : Phase κ} {given : Given κ} (listed : Listed (requests name))
    (common : Common store) (careful : Careful requests name store phase given) :
    Steps (requests name) (store.tick given.elapsed) phase
      (move roles lower normal text requests name store phase given) := by
  have ticked : Common (store.tick given.elapsed) := ⟨common.distinct, common.existing⟩
  have otherwise : Quiet (requests name) phase → Steps (requests name) (store.tick given.elapsed)
      phase (move roles lower normal text requests name store phase given) := by
    intro quiet
    refine effect_steps
      (act_effect ..) ticked quiet ?_ ?_
    · rintro userId orgId org asked rfl
      unfold Careful at careful
      rw [asked] at careful
      exact careful
    · intro orgId targetUserId currentUserId role asked
      rw [asked] at listed
      exact listed
  by_cases rereading : phase = .rereading
  · subst rereading
    cases asked : requests name with
    | removeOrgMember orgId targetUserId currentUserId =>
      unfold Careful at careful
      rw [asked] at careful
      rw [move, asked]
      exact rereading_steps roles lower text orgId targetUserId currentUserId _ given ticked careful
    | _ => exact asked ▸ otherwise (quiet_of_request _ (by rw [asked]; exact nofun))
  · by_cases resetting : phase = .resetting
    · subst resetting
      cases asked : requests name with
      | removeOrgMember orgId targetUserId currentUserId =>
        unfold Careful at careful
        rw [asked] at careful
        rw [move, asked]
        exact resetting_steps roles lower text orgId targetUserId currentUserId _ given ticked
          careful.1 careful.2
      | _ => exact asked ▸ otherwise (quiet_of_request _ (by rw [asked]; exact nofun))
    · exact otherwise (quiet_of_phase _ _ rereading resetting)

/-- Each pointer is right, or a request will set it. -/
structure Settled (world : World (Store κ) ρ (Phase κ)) : Prop where
  common : Common world.shared
  users : ∀ user ∈ world.shared.users, Belongs world.shared user.currentOrgId user.id ∨
    ∃ name, Repairs (requests name) (world.phases name) user

/-- A careful step keeps each pointer right, or leaves a request that will set it. -/
theorem advance_settled {world : World (Store κ) ρ (Phase κ)} {label : ρ × Given κ}
    (listed : ∀ name, Listed (requests name)) (settled : Settled requests world)
    (careful : Assuming (Careful requests) world label) :
    Settled requests (advance (move roles lower normal text requests) world label) := by
  obtain ⟨name, given⟩ := label
  have steps := move_steps roles lower normal text requests (listed name) settled.common careful
  refine ⟨steps.common, fun user member => ?_⟩
  rcases steps.users user member with right | mine | ⟨before, wrong, notMine⟩
  · exact .inl right
  · exact .inr ⟨name, by simpa [advance] using mine⟩
  · rcases settled.users user before with right | ⟨other, theirs⟩
    · exact absurd right wrong
    · by_cases same : other = name
      · subst same
        exact absurd theirs notMine
      · refine .inr ⟨other, ?_⟩
        rwa [advance, put_other _ _ _ _ same]

omit [DecidableEq ρ] in
/-- Before any request each pointer is right. -/
theorem initial_settled (start : Store κ) (personal : Personal roles start) :
    Settled requests (initial start) := by
  refine ⟨⟨personal.distinct, fun orgId userId belongs => ?_⟩, fun user member => .inl ?_⟩
  · obtain ⟨row, present, -⟩ := (belongs_iff ..).mp belongs
    obtain ⟨owner, listed, rfl⟩ := personal.only orgId (ne_nil_of_mem present)
    exact (personal.owned owner listed).1
  · obtain ⟨-, row, only, named, -⟩ := personal.owned user member
    rw [personal.current user member]
    exact (belongs_iff start user.id user.id).mpr ⟨row, by rw [only]; simp, named⟩

/-- When a switch writes the pointer only of a member of the organisation, and a removal that has
taken a user out of the current organisation is able to set the pointer to a personal workspace
the user belongs to, every user's current organisation exists and has the user for a member
whenever no request is in progress. -/
theorem current_org_belongs (start : Store κ) (personal : Personal roles start)
    (listed : ∀ name, Listed (requests name)) (labels : List (ρ × Given κ))
    (careful : Along (advance (move roles lower normal text requests))
      (Assuming (Careful requests)) (initial start) labels)
    (world : World (Store κ) ρ (Phase κ))
    (reached : Reached (advance (move roles lower normal text requests)) (initial start) labels world)
    (idle : ∀ name, ¬ (world.phases name).InProgress) :
    ∀ user ∈ world.shared.users, Placed world.shared user := by
  have settled := invariant_along _ _ _
    (fun world label holds met => advance_settled _ _ _ _ _ listed holds met)
    _ _ (initial_settled _ _ _ personal) careful _ reached
  intro user member
  rcases settled.users user member with right | ⟨name, _, _, -, resetting | ⟨rereading, -⟩⟩
  · exact ⟨settled.common.existing _ _ right, right⟩
  · exact absurd (by rw [resetting]; exact trivial) (idle name)
  · exact absurd (by rw [rereading]; exact trivial) (idle name)

end Runs

/-! ## A team of one user -/

def someRoles : List Role := [⟨1, "owner", 10⟩, ⟨2, "admin", 20⟩, ⟨3, "member", 1000⟩]

/-- One user with a personal workspace. -/
def oneUser : Store Nat where
  clock := 0
  orgs := [⟨1, "user_1_org"⟩]
  users := [⟨1, some "one@example.org", 1⟩]
  settings := []
  members := fun orgId => if orgId = 1 then [⟨1, 1⟩] else []
  invitations := []
  journal := []

/-- The user founds an organisation, switches to it, and deletes it. -/
def oneTeam : Fin 3 → Request Nat
  | 0 => .createOrgWithOwner "Team" 1
  | 1 => .switchOrg 1 3
  | 2 => .deleteOrgWithCleanup 1 3

/-- A step to which nothing happens, with the identifier of the new organisation. -/
def quietly (name : Fin 3) : Fin 3 × Given Nat := (name, ⟨1, none, true, none, 3, "", id⟩)

/-- The user has only the personal workspace. -/
theorem one_user_personal : Personal someRoles oneUser where
  distinct := by decide
  current := by decide
  owned := by
    intro user member
    obtain rfl := mem_singleton.mp member
    exact ⟨by decide, ⟨1, 1⟩, rfl, rfl, by decide⟩
  only := by
    intro orgId some_
    by_cases same : orgId = 1
    · exact ⟨_, .head _, same⟩
    · exact absurd (if_neg same) some_

/-- None of the requests changes a role. -/
theorem one_team_listed : ∀ name, Listed (oneTeam name)
  | 0 => trivial
  | 1 => trivial
  | 2 => trivial

/-- After a switch and a deletion, one after the other, the personal workspace is current again. -/
theorem current_org_belongs_deleted : let labels := [0, 0, 0, 1, 1, 1, 2, 2, 2].map quietly
    let final := run (advance (move someRoles id id toString oneTeam)) (initial oneUser) labels
    final.shared.users = [⟨1, some "one@example.org", 1⟩] ∧
      ∀ user ∈ final.shared.users, Placed final.shared user := by
  intro labels final
  have careful : Along (advance (move someRoles id id toString oneTeam))
      (Assuming (Careful oneTeam)) (initial oneUser) labels := by decide +kernel
  have idle : ∀ name, ¬ (final.phases name).InProgress := by decide +kernel
  exact ⟨by decide +kernel, current_org_belongs _ id id _ _ _
    one_user_personal one_team_listed _ careful _ ⟨labels, [], rfl, rfl⟩ idle⟩

/-- A switch that has checked the membership before a deletion writes the pointer after it. -/
theorem current_org_left :
    ¬ ∀ (roles : List Role) (lower normal : String → String) (text : Nat → String)
      (requests : Fin 3 → Request Nat) (start : Store Nat), Personal roles start →
      (∀ name, Listed (requests name)) → ∀ labels world,
      Reached (advance (move roles lower normal text requests)) (initial start) labels world →
      (∀ name, ¬ (world.phases name).InProgress) →
      ∀ user ∈ world.shared.users, Placed world.shared user := by
  intro always
  let labels := [0, 0, 0, 1, 1, 2, 2, 2, 1].map quietly
  let final := run (advance (move someRoles id id toString oneTeam)) (initial oneUser) labels
  have idle : ∀ name, ¬ (final.phases name).InProgress := by decide +kernel
  have current : (⟨1, some "one@example.org", 3⟩ : User Nat) ∈ final.shared.users := by
    decide +kernel
  have gone : ¬ Belongs final.shared 3 1 := by decide +kernel
  exact gone (always someRoles id id toString oneTeam oneUser one_user_personal one_team_listed
    labels final ⟨labels, [], rfl, rfl⟩ idle _ current).2

end ForgePilot.CurrentOrganization
