import ForgePilot.OrgEffects

/-!
# Calls about organisations

Calls that run to their end one after the other. A call is one request, or, for a batch of
invitations, one request for each mail address; these take turns in any order. No call of a
store fails, so that each call makes its way through the phases of its requests.

Looking up the accepting user by identifier migrates a user who is known only from the
settings of an earlier version: it creates the personal workspace, with its owner, whatever
becomes of the acceptance. Apart from that, a call changes one membership at most.
-/

namespace ForgePilot.OwnerAuthority

open Runs Processes Organizations OrgRequests List
open OrgMembers (Role OrgMember Write isOwner roleOwner roleAdmin getRoleById getRoleByName)

variable {κ : Type} [DecidableEq κ]
variable (roles : List Role) (lower normal : String → String) (text : κ → String)

inductive Call (κ : Type) where
  | createOrgWithOwner (name : String) (userId : κ)
  | createInvitation (orgId : κ) (email roleName : String) (inviterId : κ)
  | createInvitationsBatch (orgId : κ) (emails : List String) (roleName : String) (inviterId : κ)
  | acceptInvitation (token : String) (userId : κ)
  | updateOrgMember (orgId targetUserId currentUserId : κ) (role : Option String)
  | removeOrgMember (orgId targetUserId currentUserId : κ)

def Call.parts : Call κ → List (Request κ)
  | .createOrgWithOwner name userId => [.createOrgWithOwner name userId]
  | .createInvitation orgId email roleName inviterId =>
      [.createInvitation orgId email roleName inviterId]
  | .createInvitationsBatch orgId emails roleName inviterId =>
      emails.map (fun email => .createInvitation orgId email roleName inviterId)
  | .acceptInvitation token userId => [.acceptInvitation token userId]
  | .updateOrgMember orgId targetUserId currentUserId role =>
      [.updateOrgMember orgId targetUserId currentUserId role]
  | .removeOrgMember orgId targetUserId currentUserId =>
      [.removeOrgMember orgId targetUserId currentUserId]

/-- A call, in which order its requests take their steps, and what each step is given. -/
structure Label (κ : Type) where
  call : Call κ
  schedule : List (Fin call.parts.length × Given κ)

/-- What a batch checks before its requests begin. -/
def validate (store : Store κ) (orgId : κ) (roleName : String) (inviterId : κ) : Phase κ :=
  if (store.getOrgById orgId).isNone then
    raise (.valueError ("Organization " ++ text orgId ++ " not found"))
  else if orgId = inviterId then
    raise (.insufficientPermission "Cannot invite users to a personal workspace")
  else checkInviter roles lower roleName (store.getOrgMember orgId inviterId)

/-- What a call raises before its requests begin. -/
def refusal (store : Store κ) : Call κ → Option (Error κ)
  | .createInvitationsBatch orgId _ roleName inviterId =>
      match validate roles lower text store orgId roleName inviterId with
      | .answered (.raised error) => some error
      | _ => none
  | _ => none

/-- The requests of a call, and the store, after its schedule. -/
def perform (store : Store κ) (label : Label κ) :
    World (Store κ) (Fin label.call.parts.length) (Phase κ) :=
  run (advance (move roles lower normal text label.call.parts.get)) (initial store) label.schedule

/-- The store after a call. -/
def next (store : Store κ) (label : Label κ) : Store κ :=
  match refusal roles lower text store label.call with
  | some _ => store
  | none => (perform roles lower normal text store label).shared

/-- A request has its answer. -/
def Done : Phase κ → Prop
  | .answered _ => True
  | _ => False

instance (phase : Phase κ) : Decidable (Done phase) := by
  rcases phase with _ | _ <;> first | exact instDecidableTrue | exact instDecidableFalse

/-- A call runs to its end, and no call of a store fails. -/
def Completes (store : Store κ) (label : Label κ) : Prop :=
  (∀ entry ∈ label.schedule, entry.2.raises = none) ∧
    (refusal roles lower text store label.call = none →
      ∀ part, Done ((perform roles lower normal text store label).phases part))

instance (store : Store κ) (label : Label κ) :
    Decidable (Completes roles lower normal text store label) := by
  unfold Completes
  infer_instance

/-- A request raises, or reports an error. -/
def Unsuccessful : Phase κ → Prop
  | .answered (.raised _) => True
  | .answered (.removal (some _)) => True
  | _ => False

instance (phase : Phase κ) : Decidable (Unsuccessful phase) := by
  rcases phase with _ | _
  case answered answer =>
    rcases answer with _ | _
    case raised => exact instDecidableTrue
    case removal error => rcases error with _ | _ <;> first | exact instDecidableTrue | exact instDecidableFalse
    all_goals exact instDecidableFalse
  all_goals exact instDecidableFalse

/-- A batch collects the errors of some of its requests, and raises those of others. -/
def Collected : Phase κ → Prop
  | .answered (.raised (.userAlreadyMember _)) => True
  | .answered (.raised (.valueError _)) => True
  | _ => False

/-- A call raises, or reports an error. -/
def Fails (store : Store κ) (label : Label κ) : Prop :=
  (refusal roles lower text store label.call).isSome = true ∨
    ∃ part, Unsuccessful ((perform roles lower normal text store label).phases part) ∧
      ((∃ orgId emails roleName inviterId,
          label.call = .createInvitationsBatch orgId emails roleName inviterId) →
        ¬ Collected ((perform roles lower normal text store label).phases part))

/-! ## Authority -/

def OwnerIn (store : Store κ) (orgId userId : κ) : Prop :=
  (store.getOrgMember orgId userId).any (isOwner roles) = true

instance (store : Store κ) (orgId userId : κ) : Decidable (OwnerIn roles store orgId userId) :=
  inferInstanceAs (Decidable (_ = true))

/-- The accepting user was to be migrated. -/
def Migrates (store : Store κ) (call : Call κ) (orgId userId : κ) : Prop :=
  (∃ token, call = .acceptInvitation token userId) ∧ orgId = userId ∧
    store.findUser userId = none ∧ store.getOrgMember orgId userId = none

/-- The membership that a successful call may change: of the user it names in the organisation
it names. An owner's membership, and one that comes to be an owner's, is changed by another
owner. -/
def Names (before after : Store κ) (orgId userId : κ) : Call κ → Prop
  | .createOrgWithOwner _ founderId =>
      userId = founderId ∧ before.getOrgById orgId = none ∧ before.getOrgMember orgId userId = none
  | .acceptInvitation token acceptorId =>
      userId = acceptorId ∧ before.getOrgMember orgId userId = none ∧
        ∃ invitation ∈ before.invitations, invitation.token = token ∧ invitation.orgId = orgId ∧
          invitation.status = .pending ∧
          ∀ member, after.getOrgMember orgId userId = some member →
            member.roleId = invitation.roleId
  | .updateOrgMember namedOrg targetUserId currentUserId _ =>
      orgId = namedOrg ∧ userId = targetUserId ∧ currentUserId ≠ targetUserId ∧
        (OwnerIn roles before orgId userId ∨ OwnerIn roles after orgId userId →
          OwnerIn roles before orgId currentUserId)
  | .removeOrgMember namedOrg targetUserId currentUserId =>
      orgId = namedOrg ∧ userId = targetUserId ∧ currentUserId ≠ targetUserId ∧
        after.getOrgMember orgId userId = none ∧
        (OwnerIn roles before orgId userId → OwnerIn roles before orgId currentUserId)
  | _ => False

def Invites (call : Call κ) (orgId inviterId : κ) : Prop :=
  (∃ email roleName, call = .createInvitation orgId email roleName inviterId) ∨
    ∃ emails roleName, call = .createInvitationsBatch orgId emails roleName inviterId

/-! ## Well-formed tables -/

/-- Members are users, of organisations that exist, and every user has a personal workspace. -/
structure WellFormed (store : Store κ) : Prop where
  rows : ∀ orgId userId, Belongs store orgId userId →
    (store.findUser userId).isSome = true ∧ (store.getOrgById orgId).isSome = true
  homes : ∀ user ∈ store.users, (store.getOrgById user.id).isSome = true

variable {store : Store κ}

variable {later : Store κ}

theorem well_formed_of (formed : WellFormed store) (orgs : ∀ org ∈ store.orgs, org ∈ later.orgs)
    (users : ∀ user ∈ store.users, ∃ other ∈ later.users, other.id = user.id)
    (members : ∀ orgId userId, Belongs later orgId userId → Belongs store orgId userId ∨
      (later.findUser userId).isSome = true ∧ (later.getOrgById orgId).isSome = true)
    (homes : ∀ user ∈ later.users, (∃ other ∈ store.users, other.id = user.id) ∨
      (later.getOrgById user.id).isSome = true) : WellFormed later := by
  have found : ∀ orgId, (store.getOrgById orgId).isSome = true →
      (later.getOrgById orgId).isSome = true := by
    intro orgId before
    obtain ⟨org, present, named⟩ := (org_found_iff ..).mp before
    exact (org_found_iff ..).mpr ⟨org, orgs org present, named⟩
  refine ⟨fun orgId userId belongs => ?_, fun user listed => ?_⟩
  · rcases members orgId userId belongs with before | now
    · obtain ⟨row, org⟩ := formed.rows orgId userId before
      obtain ⟨user, present, rfl⟩ := (user_found_iff ..).mp row
      exact ⟨(user_found_iff ..).mpr (users user present), found orgId org⟩
    · exact now
  · rcases homes user listed with ⟨other, present, same⟩ | now
    · rw [← same]
      exact found other.id (formed.homes other present)
    · exact now

/-- Tables of which only the pointers and the invitations have changed. -/
theorem well_formed_of_ids (formed : WellFormed store) (orgs : later.orgs = store.orgs)
    (change : User κ → User κ) (ids : ∀ user, (change user).id = user.id)
    (users : later.users = store.users.map change)
    (members : ∀ orgId userId, Belongs later orgId userId → Belongs store orgId userId) :
    WellFormed later := by
  refine well_formed_of formed (fun org present => orgs ▸ present)
    (fun user present => ?_) (fun orgId userId here => .inl (members orgId userId here))
    fun user listed => ?_
  · exact ⟨change user, users ▸ mem_map_of_mem present, ids user⟩
  · rw [users] at listed
    obtain ⟨other, present, rfl⟩ := mem_map.mp listed
    exact .inl ⟨other, present, (ids other).symm⟩

variable {request : Request κ}

/-- A step keeps the tables well formed. -/
theorem effect_well_formed (given : Given κ) (phase : Phase κ) {after : Store κ × Phase κ}
    (effect : Effect roles normal text request store given phase after)
    (formed : WellFormed store) :
    WellFormed after.1 := by
  have same : ∀ later : Store κ, later.orgs = store.orgs → later.users = store.users →
      (∀ orgId userId, Belongs later orgId userId → Belongs store orgId userId) →
      WellFormed later := fun later orgs users members =>
    well_formed_of_ids formed orgs id (fun _ => rfl) (by rw [users, map_id]) members
  have pointed : ∀ (later : Store κ) userId orgId found,
      store.updateCurrentOrg userId orgId = some (later, found) → WellFormed later := by
    intro later userId orgId found updated
    obtain ⟨users, members, orgs, -⟩ := update_current_org_tables _ _ _ updated
    refine well_formed_of_ids formed orgs _ (fun user => ?_) users fun org user here => ?_
    · split <;> rfl
    · rw [belongs_iff] at here ⊢
      rwa [members] at here
  cases effect with
  | kept => exact formed
  | switched userId orgId org next found phase' asked silent updated =>
    exact pointed next userId orgId found updated
  | reset orgId targetUserId currentUserId next found phase' asked updated =>
    exact pointed next targetUserId targetUserId found updated
  | migrated settings next user _ phase' missing migrates =>
    obtain ⟨-, rfl, role, -, rfl⟩ := migrate_user_tables _ _ _ _ _ migrates
    have home : (Store.getOrgById { store with orgs := store.orgs ++ [⟨settings.keycloakUserId,
        Store.personalName text settings.keycloakUserId⟩] } settings.keycloakUserId).isSome = true :=
      (org_found_iff _ _).mpr ⟨_, mem_append_right _ (.head _), rfl⟩
    refine well_formed_of formed (fun org present => mem_append_left _ present)
      (fun user present => ⟨user, mem_append_left _ present, rfl⟩)
      (fun orgId userId here => ?_) fun user listed => ?_
    · rcases (belongs_append ..).mp here with before | ⟨rfl, rfl⟩
      · exact .inl before
      · exact .inr ⟨(user_found_iff _ _).mpr
          ⟨_, mem_append_right _ (.head _), rfl⟩, home⟩
    · rcases mem_append.mp listed with before | new
      · exact .inl ⟨user, before, rfl⟩
      · obtain rfl := mem_singleton.mp new
        exact .inr home
  | removed orgId targetUserId currentUserId write member asked present out =>
    exact same _ rfl rfl fun other userId here => ((belongs_remove ..).mp here).1
  | roleGiven orgId targetUserId currentUserId write member newRole asked present changed =>
    exact same _ rfl rfl fun other userId here => (belongs_update_role ..).mp here
  | deleted userId orgId next org phase' asked cascades =>
    rcases delete_org_cascade_tables cascades with rfl | ⟨-, rfl⟩
    · exact formed
    refine well_formed_of_ids formed rfl _
      (fun user => ?_) rfl fun other user here => ?_
    · unfold Store.reassign
      split <;> rfl
    · have before := (belongs_set_members ..).mp here
      split at before
      case isTrue => obtain ⟨member, ⟨⟩, -⟩ := before
      case isFalse => exact before
  | issued orgId email roleName inviterId targetRole next invite asked issues =>
    obtain ⟨rfl, -⟩ := create_invitation_tables _ _ _ _ issues
    exact same _ rfl rfl fun _ _ here => here
  | stated invite _ phase' status acceptedBy =>
    rcases update_invitation_status_tables store invite.id status acceptedBy with
      kept | ⟨earlier, invitations, written⟩
    · rw [kept]
      exact formed
    · rw [written]
      exact same _ rfl rfl fun _ _ here => here
  | admitted token userId invite next asked silent adds =>
    obtain ⟨founded, row, -, rfl⟩ := add_user_to_org_tables _ _ _ _ _ adds
    refine well_formed_of formed (fun org present => present)
      (fun user present => ⟨user, present, rfl⟩) (fun orgId user here => ?_)
      fun user listed => .inl ⟨user, listed, rfl⟩
    rcases (belongs_append ..).mp here with before | ⟨rfl, rfl⟩
    · exact .inl before
    · exact .inr ⟨row, founded⟩
  | founded name userId orgId ownerRole next asked persists =>
    obtain ⟨-, row, rfl⟩ := persist_org_with_owner_tables persists
    refine well_formed_of formed (fun org present => mem_append_left _ present)
      (fun user present => ⟨user, present, rfl⟩) (fun other user here => ?_)
      fun user listed => .inl ⟨user, listed, rfl⟩
    rcases (belongs_append ..).mp here with before | ⟨rfl, rfl⟩
    · exact .inl before
    · exact .inr ⟨row, (org_found_iff _ _).mpr
        ⟨_, mem_append_right _ (.head _), rfl⟩⟩

/-! ## A single request -/

/-- The tables are as before, but for the time and the journal. -/
structure Calm (before store : Store κ) : Prop where
  orgs : store.orgs = before.orgs
  users : store.users = before.users
  settings : store.settings = before.settings
  members : store.members = before.members
  invitations : store.invitations = before.invitations

/-- Membership of one user in one organisation has changed at most, and the one who asks was entitled
to that. -/
structure Rewritten (before store : Store κ) (orgId targetUserId currentUserId : κ)
    (part : OrgMembers.Request κ) : Prop where
  apart : currentUserId ≠ targetUserId
  others : ∀ other userId, ¬ (other = orgId ∧ userId = targetUserId) →
    store.getOrgMember other userId = before.getOrgMember other userId
  entitled : store.getOrgMember orgId targetUserId ≠ before.getOrgMember orgId targetUserId →
    OwnerIn roles before orgId targetUserId ∨ OwnerIn roles store orgId targetUserId →
      OwnerIn roles before orgId currentUserId
  left : part = .removeOrgMember targetUserId currentUserId →
    store.getOrgMember orgId targetUserId ≠ before.getOrgMember orgId targetUserId →
      store.getOrgMember orgId targetUserId = none
  invitations : store.invitations = before.invitations

/-- The one who asks may write: an owner may, and others where no owner is made or unmade. -/
def MayWrite (before : Store κ) (orgId targetUserId currentUserId : κ)
    (part : OrgMembers.Request κ) (write : Write κ) : Prop :=
  (part = .removeOrgMember targetUserId currentUserId → write.newRole = none) ∧
  (OwnerIn roles before orgId targetUserId → OwnerIn roles before orgId currentUserId) ∧
    ∀ newRole, write.newRole = some newRole → getRoleById roles newRole.id = some newRole ∧
      (newRole.name = roleOwner → OwnerIn roles before orgId currentUserId)

/-- What the part of a request that works on the members has checked. -/
inductive Checked (before : Store κ) (orgId targetUserId currentUserId : κ)
    (part : OrgMembers.Request κ) : OrgMembers.Phase κ → Prop
  | admitted (requester : OrgMember κ)
      (found : before.getOrgMember orgId currentUserId = some requester)
      (apart : currentUserId ≠ targetUserId) :
      Checked before orgId targetUserId currentUserId part (.admitted requester)
  | counting (write : Write κ) (apart : currentUserId ≠ targetUserId)
      (may : MayWrite roles before orgId targetUserId currentUserId part write) :
      Checked before orgId targetUserId currentUserId part (.counting write)
  | writing (write : Write κ) (apart : currentUserId ≠ targetUserId)
      (may : MayWrite roles before orgId targetUserId currentUserId part write) :
      Checked before orgId targetUserId currentUserId part (.writing write)
  | refused (message : Option String) :
      Checked before orgId targetUserId currentUserId part (.answered (.removal false message))
  | failed (error : OrgMembers.UpdateError κ) :
      Checked before orgId targetUserId currentUserId part (.answered (.update (.error error)))
  | unchanged (userId : κ) (role : Role) (apart : currentUserId ≠ targetUserId)
      (present : Belongs before orgId targetUserId) :
      Checked before orgId targetUserId currentUserId part (.answered (.update (.ok (userId, role))))

variable (before : Store κ) (orgId targetUserId currentUserId : κ) (part : OrgMembers.Request κ)

/-- A refusal has nothing to check. -/
theorem refusal_checked (message : String) (error : OrgMembers.UpdateError κ) :
    Checked roles before orgId targetUserId currentUserId part (OrgMembers.refusal part message error) := by
  unfold OrgMembers.refusal
  split
  · exact .refused _
  · exact .failed _

theorem read_requester_checked (target : part.target = targetUserId)
    (current : part.current = currentUserId) :
    Checked roles before orgId targetUserId currentUserId part
      (OrgMembers.readRequester part (before.members orgId)) := by
  unfold OrgMembers.readRequester
  split
  case h_1 => exact refusal_checked ..
  case h_2 requester found =>
    split
    case isTrue => exact refusal_checked ..
    case isFalse apart =>
      rw [current] at found apart
      rw [target] at apart
      exact .admitted requester found apart

omit [DecidableEq κ] in
theorem is_owner_iff {member : OrgMember κ} {role : Role}
    (known : getRoleById roles member.roleId = some role) :
    isOwner roles member = true ↔ role.name = roleOwner := by
  simp [isOwner, known]

/-- Going on to the write keeps what was checked. -/
theorem proceed_checked {write : Write κ} (apart : currentUserId ≠ targetUserId)
    (may : MayWrite roles before orgId targetUserId currentUserId part write) :
    Checked roles before orgId targetUserId currentUserId part (OrgMembers.proceed write) := by
  unfold OrgMembers.proceed
  split
  · exact .counting write apart may
  · exact .writing write apart may

theorem can_remove_owner (requesterRoleName : String)
    (can : OrgMembers.canRemoveMember requesterRoleName roleOwner = true) :
    requesterRoleName = roleOwner := by
  unfold OrgMembers.canRemoveMember at can
  by_contra other
  rw [if_neg other] at can
  split at can <;> simp at can

/-- Who may change the role of an owner, or give the role of owners, is an owner. -/
theorem can_update_owner {requesterRoleName targetRoleName newRoleName : String}
    (can : OrgMembers.canUpdateMemberRole requesterRoleName targetRoleName newRoleName = true)
    (owner : targetRoleName = roleOwner ∨ newRoleName = roleOwner) :
    requesterRoleName = roleOwner := by
  unfold OrgMembers.canUpdateMemberRole at can
  by_contra other
  rw [if_neg other] at can
  rcases owner with rfl | rfl <;> split at can <;> simp at can

variable (distinct : (roles.map Role.id).Nodup)
include distinct

theorem check_permission_checked {requester target : OrgMember κ} {requesterRole targetRole : Role}
    (found : before.getOrgMember orgId currentUserId = some requester)
    (apart : currentUserId ≠ targetUserId)
    (present : before.getOrgMember orgId targetUserId = some target)
    (requesterKnown : getRoleById roles requester.roleId = some requesterRole)
    (targetKnown : getRoleById roles target.roleId = some targetRole) :
    Checked roles before orgId targetUserId currentUserId part
      (OrgMembers.checkPermission roles lower part target requesterRole targetRole) := by
  have asks : requesterRole.name = roleOwner → OwnerIn roles before orgId currentUserId := by
    intro owner
    rw [OwnerIn, found, Option.any_some, is_owner_iff _ requesterKnown]
    exact owner
  have owns : OwnerIn roles before orgId targetUserId → targetRole.name = roleOwner := by
    intro owner
    rw [OwnerIn, present, Option.any_some] at owner
    exact (is_owner_iff _ targetKnown).mp owner
  unfold OrgMembers.checkPermission
  split
  case h_1 =>
    split
    case isFalse => exact .refused _
    case isTrue can =>
      refine proceed_checked _ _ _ _ _ _ apart
        ⟨fun _ => rfl, fun owner => asks ?_, fun _ same => absurd same (by simp)⟩
      rw [owns owner] at can
      exact can_remove_owner _ can
  case h_2 => exact .unchanged target.userId targetRole apart (by rw [Belongs, present]; rfl)
  case h_3 newRoleName =>
    split
    case h_1 => exact .failed _
    case h_2 newRole named =>
      split
      case isFalse => exact .failed _
      case isTrue can =>
        refine proceed_checked _ _ _ _ _ _ apart
          ⟨fun same => absurd same (by simp),
            fun owner => asks (can_update_owner can (.inl (owns owner))),
            fun other same => ?_⟩
        cases same
        exact ⟨OrgMembers.role_by_id _ distinct named, fun owner =>
          asks (can_update_owner can (.inr owner))⟩

/-- The part of a request that works on the members, before it writes. -/
theorem membership_step_checked (target : part.target = targetUserId) (phase : OrgMembers.Phase κ)
    (checked : phase = .asked ∨ Checked roles before orgId targetUserId currentUserId part phase)
    (current : part.current = currentUserId) (reads : ∀ write, phase ≠ .writing write) :
    (membershipStep roles lower part (before.members orgId) phase).1 = before.members orgId ∧
      Checked roles before orgId targetUserId currentUserId part
        (membershipStep roles lower part (before.members orgId) phase).2 := by
  rcases checked with rfl | checked
  · exact ⟨rfl, read_requester_checked _ _ _ _ _ _ target
      current⟩
  cases checked with
  | admitted requester found apart =>
    refine ⟨rfl, ?_⟩
    unfold membershipStep OrgMembers.readTarget
    dsimp only
    split
    case h_1 => exact refusal_checked ..
    case h_2 member present =>
      rw [target] at present
      split
      case h_1 requesterRole targetRole requesterKnown targetKnown =>
        exact check_permission_checked _ _ _ _ _ _ _
          distinct found apart present requesterKnown
          targetKnown
      case h_2 => exact refusal_checked ..
      case h_3 => exact refusal_checked ..
  | counting write apart may =>
    refine ⟨rfl, ?_⟩
    unfold membershipStep OrgMembers.countOwners
    dsimp only
    split
    · exact refusal_checked ..
    · exact .writing _ apart may
  | writing write apart may => exact absurd rfl (reads write)
  | refused message => exact ⟨rfl, .refused message⟩
  | failed error => exact ⟨rfl, .failed error⟩
  | unchanged userId role apart present => exact ⟨rfl, .unchanged userId role apart present⟩

omit distinct

/-- How far a removal or a change of role has come. -/
def Handling (store : Store κ) : Phase κ → Prop
  | .idle => Calm before store
  | .membership phase =>
      Calm before store ∧ Checked roles before orgId targetUserId currentUserId part phase
  | .rereading =>
      Rewritten roles before store orgId targetUserId currentUserId part ∧
        (store.findUser targetUserId).isSome = true
  | .resetting =>
      Rewritten roles before store orgId targetUserId currentUserId part ∧
        (store.findUser targetUserId).isSome = true
  | .leavingTeam => Rewritten roles before store orgId targetUserId currentUserId part
  | .reporting _ _ =>
      Rewritten roles before store orgId targetUserId currentUserId part ∧
        (store.findUser targetUserId).isSome = true
  | .answered answer => Calm before store ∨ (¬ Unsuccessful (.answered answer) ∧
      Rewritten roles before store orgId targetUserId currentUserId part)
  | _ => False

theorem calm_member (calm : Calm before store) (other userId : κ) :
    store.getOrgMember other userId = before.getOrgMember other userId := by
  rw [Store.getOrgMember, Store.getOrgMember, calm.members]

/-- What is as before was not rewritten by anyone who was not entitled. -/
theorem calm_rewritten (store : Store κ) (calm : Calm before store)
    (apart : currentUserId ≠ targetUserId) :
    Rewritten roles before store orgId targetUserId currentUserId part :=
  ⟨apart, fun _ _ _ => calm_member _ calm .., fun changed => absurd (calm_member _ calm ..) changed,
    fun _ changed => absurd (calm_member _ calm ..) changed,
    calm.invitations⟩

theorem calm_row (calm : Calm before store) (formed : WellFormed before)
    (belongs : Belongs before orgId targetUserId) :
    (store.findUser targetUserId).isSome = true := by
  rw [Store.findUser, calm.users]
  exact (formed.rows orgId targetUserId belongs).1

/-- What was checked settles into a phase of the request. -/
theorem settle_handling (store : Store κ) (calm : Calm before store) (formed : WellFormed before)
    (phase : OrgMembers.Phase κ)
    (checked : Checked roles before orgId targetUserId currentUserId part phase) :
    Handling roles before orgId targetUserId currentUserId part store (settle phase) := by
  cases checked with
  | admitted requester found apart => exact ⟨calm, .admitted requester found apart⟩
  | counting write apart may => exact ⟨calm, .counting write apart may⟩
  | writing write apart may => exact ⟨calm, .writing write apart may⟩
  | refused message => exact .inl calm
  | failed error => exact .inl calm
  | unchanged userId role apart present =>
    exact ⟨calm_rewritten _ _ _ _ _ _ _ calm apart, calm_row _ _ _ calm formed present⟩

include distinct in
/-- The part of a request that works on the members. -/
theorem work_handling (target : part.target = targetUserId) (current : part.current = currentUserId)
    (store : Store κ) (phase : OrgMembers.Phase κ) (given : Given κ) (silent : given.raises = none)
    (formed : WellFormed before) (calm : Calm before store)
    (checked : phase = .asked ∨ Checked roles before orgId targetUserId currentUserId part phase)
    (after : Store κ × Phase κ)
    (worked : workOnMembers roles lower orgId targetUserId currentUserId part store phase given =
      after) : Handling roles before orgId targetUserId currentUserId part after.1 after.2 := by
  have settles := settle_handling roles before orgId targetUserId currentUserId part store calm
    formed
  unfold workOnMembers at worked
  rw [if_neg (by simp [silent])] at worked
  dsimp only at worked
  by_cases writes : ∃ write, phase = .writing write
  · obtain ⟨write, rfl⟩ := writes
    have may : currentUserId ≠ targetUserId ∧
        MayWrite roles before orgId targetUserId currentUserId part write := by
      cases checked.resolve_left nofun with
      | writing _ apart may => exact ⟨apart, may⟩
    obtain ⟨apart, leaves, entitled, roleKnown⟩ := may
    cases present : OrgMembers.getOrgMember (store.members orgId) targetUserId with
    | none =>
      simp only [Store.getOrgMember, membershipStep, OrgMembers.performWrite, target, present,
        set_members_self] at worked
      rw [← worked]
      exact settles _ (refusal_checked ..)
    | some member =>
      simp only [Store.getOrgMember, membershipStep, OrgMembers.performWrite, target, present,
        writeEvent] at worked
      have same : ∀ other userId, store.getOrgMember other userId =
          before.getOrgMember other userId := calm_member _ calm
      have was : before.getOrgMember orgId targetUserId = some member := by
        rw [← same]
        exact present
      have row := calm_row _ _ _ calm formed (by rw [Belongs, was]; rfl)
      cases changed : write.newRole with
      | none =>
        rw [changed] at worked
        rw [← worked]
        have left := get_member_remove store orgId targetUserId
        refine ⟨⟨apart, fun other userId away => ?_, fun _ owners => ?_,
          fun _ _ => (left orgId targetUserId).trans (if_pos ⟨rfl, rfl⟩), calm.invitations⟩, row⟩
        · rw [← same other userId]
          exact (left other userId).trans (if_neg away)
        · rcases owners with owner | owner
          · exact entitled owner
          · have gone : OwnerIn roles (store.setMembers orgId (OrgMembers.removeUserFromOrg
                (store.members orgId) targetUserId)) orgId targetUserId := owner
            rw [OwnerIn, left, if_pos ⟨rfl, rfl⟩] at gone
            cases gone
      | some newRole =>
        rw [changed] at worked
        rw [← worked]
        obtain ⟨known, gives⟩ := roleKnown newRole changed
        have rewritten := get_member_update_role store orgId targetUserId newRole.id
        refine ⟨⟨apart, fun other userId away => ?_, fun _ owners => ?_, fun removal => ?_,
          calm.invitations⟩, row⟩
        · rw [← same other userId]
          exact (rewritten other userId).trans (if_neg away)
        · rcases owners with owner | owner
          · exact entitled owner
          · have gained : OwnerIn roles (store.setMembers orgId (OrgMembers.updateUserRoleInOrg
                (store.members orgId) targetUserId newRole.id)) orgId targetUserId := owner
            rw [OwnerIn, rewritten, if_pos ⟨rfl, rfl⟩, same, was] at gained
            exact gives ((is_owner_iff _ known).mp
              gained)
        · rw [leaves removal] at changed
          cases changed
  · obtain ⟨kept, next⟩ := membership_step_checked _ _ _ _ _
      _ _ distinct target _ checked current
      fun write same => writes ⟨write, same⟩
    rw [← calm.members] at kept next
    rw [kept, set_members_self] at worked
    have handled := settles _ next
    split at worked
    case h_1 => exact absurd ⟨_, rfl⟩ writes
    case h_2 =>
      rw [← worked]
      exact handled

/-- A user who is in the table is found without anything else. -/
theorem get_user_by_id_row {userId : κ} (known : Bool) (row : (store.findUser userId).isSome = true)
    :
    ∃ user, store.getUserById roles text userId known = some (store, some user) := by
  obtain ⟨user, found⟩ := Option.isSome_iff_exists.mp row
  exact ⟨user, by rw [Store.getUserById, found]⟩

/-- The pointer of a user is set to the personal workspace without an error. -/
theorem update_current_org_row (store : Store κ) (userId : κ) (formed : WellFormed store)
    (row : (store.findUser userId).isSome = true) :
    ∃ next found, store.updateCurrentOrg userId userId = some (next, some found) := by
  obtain ⟨user, found⟩ := Option.isSome_iff_exists.mp row
  obtain ⟨listed, named⟩ := find_user_some found
  have home := formed.homes user listed
  rw [named] at home
  rw [Store.updateCurrentOrg, found]
  dsimp only
  rw [if_neg (by simpa [Option.isSome_iff_ne_none] using home)]
  exact ⟨_, _, rfl⟩

omit [DecidableEq κ] in
/-- Tables that are as before stay so while time passes. -/
theorem calm_tick (store : Store κ) (elapsed : Nat) (calm : Calm before store) :
    Calm before (store.tick elapsed) :=
  ⟨calm.orgs, calm.users, calm.settings, calm.members, calm.invitations⟩

variable {phase : Phase κ}

/-- A removal that is under way stays so while time passes. -/
theorem handling_tick (elapsed : Nat)
    (handling : Handling roles before orgId targetUserId currentUserId part store phase) :
    Handling roles before orgId targetUserId currentUserId part (store.tick elapsed) phase := by
  have calm := calm_tick before store elapsed
  have rewritten : Rewritten roles before store orgId targetUserId currentUserId part →
      Rewritten roles before (store.tick elapsed) orgId targetUserId currentUserId part :=
    fun was => ⟨was.apart, was.others, was.entitled, was.left, was.invitations⟩
  unfold Handling at handling ⊢
  split at handling
  case h_1 => exact calm handling
  case h_2 => exact ⟨calm handling.1, handling.2⟩
  case h_3 => exact ⟨rewritten handling.1, handling.2⟩
  case h_4 => exact ⟨rewritten handling.1, handling.2⟩
  case h_5 => exact rewritten handling
  case h_6 => exact ⟨rewritten handling.1, handling.2⟩
  case h_7 => exact handling.imp calm fun both => ⟨both.1, rewritten both.2⟩
  case h_8 => exact handling.elim

include distinct

theorem remove_handling {given : Given κ} (silent : given.raises = none)
    (formed : WellFormed before) (formedNow : WellFormed store)
    (handling : Handling roles before orgId targetUserId currentUserId
      (.removeOrgMember targetUserId currentUserId) store phase) :
    Handling roles before orgId targetUserId currentUserId
      (.removeOrgMember targetUserId currentUserId)
      (removeOrgMember roles lower text orgId targetUserId currentUserId store phase given).1
      (removeOrgMember roles lower text orgId targetUserId currentUserId store phase given).2 := by
  have works := work_handling roles lower before orgId targetUserId currentUserId
    (.removeOrgMember targetUserId currentUserId) distinct rfl rfl store
  unfold removeOrgMember
  cases phase with
  | idle => exact works .asked given silent formed handling (.inl rfl) _ rfl
  | membership phase => exact works phase given silent formed handling.1 (.inr handling.2) _ rfl
  | rereading =>
    obtain ⟨user, found⟩ := get_user_by_id_row roles text given.known handling.2
    simp only [silent, found]
    split
    · exact handling
    · exact handling.1
  | resetting =>
    obtain ⟨next, user, updated⟩ := update_current_org_row store _ formedNow handling.2
    simp only [silent, updated]
    obtain ⟨-, members, -, invitations, -⟩ := update_current_org_tables _ next _ updated
    have same : ∀ other userId, next.getOrgMember other userId = store.getOrgMember other userId := by
      intro other userId
      rw [Store.getOrgMember, members, Store.getOrgMember]
    refine ⟨handling.1.apart, fun other userId away => ?_, ?_, ?_, ?_⟩
    · rw [same]
      exact handling.1.others other userId away
    · rw [OwnerIn, OwnerIn, same]
      exact handling.1.entitled
    · rw [same]
      exact handling.1.left
    · rw [invitations]
      exact handling.1.invitations
  | leavingTeam => exact .inr ⟨id, handling⟩
  | answered answer => exact handling
  | reporting userId role => exact handling
  | _ => exact handling.elim

theorem update_handling (role : Option String) {given : Given κ} (silent : given.raises = none)
    (formed : WellFormed before) (handling : Handling roles before orgId targetUserId currentUserId
      (.updateOrgMember targetUserId currentUserId role) store phase) :
    Handling roles before orgId targetUserId currentUserId
      (.updateOrgMember targetUserId currentUserId role)
      (updateOrgMember roles lower text orgId targetUserId currentUserId role store phase given).1
      (updateOrgMember roles lower text orgId targetUserId currentUserId role store phase given).2 := by
  have works := work_handling roles lower before orgId targetUserId currentUserId
    (.updateOrgMember targetUserId currentUserId role) distinct rfl rfl store
  unfold updateOrgMember
  cases phase with
  | idle => exact works .asked given silent formed handling (.inl rfl) _ rfl
  | membership phase => exact works phase given silent formed handling.1 (.inr handling.2) _ rfl
  | reporting userId newRole =>
    obtain ⟨user, found⟩ := get_user_by_id_row roles text given.known handling.2
    simp only [silent, found]
    exact .inr ⟨id, handling.1⟩
  | rereading => exact handling
  | resetting => exact handling
  | leavingTeam => exact handling
  | answered answer => exact handling
  | _ => exact handling.elim

omit distinct

/-- How far the creation of an organisation has come. -/
def Founding (founderId : κ) (store : Store κ) : Phase κ → Prop
  | .idle => Calm before store
  | .founding => Calm before store
  | .persisting _ _ => Calm before store
  | .compensating _ => Calm before store
  | .answered (.raised _) => Calm before store
  | .answered (.org org) =>
      store.invitations = before.invitations ∧ before.getOrgById org.id = none ∧
        before.getOrgMember org.id founderId = none ∧
        ∀ other userId, ¬ (other = org.id ∧ userId = founderId) →
          store.getOrgMember other userId = before.getOrgMember other userId
  | _ => False

/-- The steps of the creation of an organisation. -/
theorem found_founding (name : String) (founderId : κ) (store : Store κ) (phase : Phase κ)
    (given : Given κ) (formed : WellFormed before) (founding : Founding before founderId store phase) :
    Founding before founderId (createOrgWithOwner roles name founderId store phase given).1
      (createOrgWithOwner roles name founderId store phase given).2 := by
  unfold createOrgWithOwner
  cases phase with
  | idle =>
    dsimp only
    split
    · exact founding
    · split <;> exact founding
  | founding =>
    dsimp only
    split <;> exact founding
  | persisting orgId ownerRole =>
    dsimp only
    split
    case h_1 => exact founding
    case h_2 => exact founding
    case h_3 next _ persists =>
      obtain ⟨free, -, rfl⟩ := persist_org_with_owner_tables persists
      have same := calm_member _ founding
      have away : before.getOrgById orgId = none := by
        rw [Store.getOrgById, ← founding.orgs]
        exact free
      have nobody : before.getOrgMember orgId founderId = none := by
        cases present : before.getOrgMember orgId founderId with
        | none => rfl
        | some member =>
          have org := (formed.rows orgId founderId (by rw [Belongs, present]; rfl)).2
          rw [away] at org
          cases org
      refine ⟨founding.invitations, away, nobody, fun other userId apart => ?_⟩
      have member := get_member_append store orgId founderId ownerRole.id other userId
      rw [if_neg apart, Option.or_none, same] at member
      exact member
  | compensating message => exact founding
  | answered answer => exact founding
  | _ => exact founding.elim

/-- A membership has changed only by the migration of the accepting user. -/
def Moved (acceptorId : κ) (store : Store κ) : Prop :=
  ∀ other userId, store.getOrgMember other userId ≠ before.getOrgMember other userId →
    other = acceptorId ∧ userId = acceptorId ∧ before.findUser acceptorId = none ∧
      before.getOrgMember acceptorId acceptorId = none

/-- A membership has changed only by the migration of the accepting user, or through an
invitation. -/
def Admitted (acceptorId : κ) (invitation : OrgInvitation κ) (store : Store κ) : Prop :=
  ∀ other userId, store.getOrgMember other userId ≠ before.getOrgMember other userId →
    (other = acceptorId ∧ userId = acceptorId ∧ before.findUser acceptorId = none ∧
      before.getOrgMember acceptorId acceptorId = none) ∨
    (other = invitation.orgId ∧ userId = acceptorId ∧ before.getOrgMember other userId = none ∧
      ∀ member, store.getOrgMember other userId = some member → member.roleId = invitation.roleId)

/-- Invitations that are pending were there before. -/
def Pends (store : Store κ) : Prop :=
  ∀ invitation ∈ store.invitations, invitation.status = .pending → invitation ∈ before.invitations

/-- An invitation was there before. -/
def Read (token : String) (invitation : OrgInvitation κ) : Prop :=
  invitation ∈ before.invitations ∧ invitation.token = token

/-- How far an acceptance has come. -/
def Arriving (token : String) (acceptorId : κ) (store : Store κ) : Phase κ → Prop
  | .idle => Calm before store
  | .examining invitation => Calm before store ∧ Read before token invitation
  | .expiring invitation => Calm before store ∧ Read before token invitation
  | .identifying invitation =>
      Calm before store ∧ Read before token invitation ∧ invitation.status = .pending
  | .fetchingEmail invitation =>
      (Moved before acceptorId store ∧ store.invitations = before.invitations) ∧
        Read before token invitation ∧ invitation.status = .pending
  | .checkingMember invitation =>
      (Moved before acceptorId store ∧ store.invitations = before.invitations) ∧
        Read before token invitation ∧ invitation.status = .pending
  | .integrating invitation =>
      (Moved before acceptorId store ∧ store.invitations = before.invitations) ∧
        Read before token invitation ∧ invitation.status = .pending
  | .loadingOrg invitation =>
      (Moved before acceptorId store ∧ store.invitations = before.invitations) ∧
        Read before token invitation ∧ invitation.status = .pending
  | .adding invitation =>
      (Moved before acceptorId store ∧ store.invitations = before.invitations) ∧
        Read before token invitation ∧ invitation.status = .pending
  | .accepting invitation =>
      (Admitted before acceptorId invitation store ∧ store.invitations = before.invitations) ∧
        Read before token invitation ∧ invitation.status = .pending
  | .answered answer => Pends before store ∧ (Moved before acceptorId store ∨
      ¬ Unsuccessful (.answered answer) ∧ ∃ invitation, Admitted before acceptorId invitation store ∧
        Read before token invitation ∧ invitation.status = .pending)
  | _ => False

/-- Nothing has changed where the tables are as before. -/
theorem calm_moved (acceptorId : κ) (store : Store κ) (calm : Calm before store) :
    Moved before acceptorId store :=
  fun _ _ changed => absurd (calm_member _ calm ..) changed

omit [DecidableEq κ] in
/-- Pending invitations were there before where the invitations are the same. -/
theorem pends_same (same : store.invitations = before.invitations) :
    Pends before store := fun _ listed _ => same ▸ listed

/-- An acceptance that is refused before it has looked up the user. -/
theorem arriving_raise (token : String) (acceptorId : κ) (store : Store κ) (error : Error κ)
    (moved : Moved before acceptorId store) (same : store.invitations = before.invitations) :
    Arriving before token acceptorId store (raise error) :=
  ⟨pends_same _ same, .inl moved⟩

variable {acceptorId : κ}

/-- Looking up the accepting user changes at most the membership of the personal workspace. -/
theorem get_user_by_id_moved (store next : Store κ) {known : Bool} (found : Option (User κ))
    (formed : WellFormed before) (calm : Calm before store)
    (got : store.getUserById roles text acceptorId known = some (next, found)) :
    Moved before acceptorId next ∧ next.invitations = before.invitations := by
  cases get_user_by_id_cases _ _ got with
  | present | absent => exact ⟨calm_moved _ _ _ calm, calm.invitations⟩
  | migrated settings _ user missing migrates =>
    obtain ⟨-, -, role, -, rfl⟩ := migrate_user_tables _ _ _ _ _ migrates
    have away : before.findUser settings.keycloakUserId = none := by
      rw [Store.findUser, ← calm.users]
      exact missing
    refine ⟨fun other userId changed => ?_, calm.invitations⟩
    by_cases mine : other = settings.keycloakUserId ∧ userId = settings.keycloakUserId
    · refine ⟨mine.1, mine.2, away, ?_⟩
      cases present : before.getOrgMember settings.keycloakUserId settings.keycloakUserId with
      | none => rfl
      | some member =>
        have row := (formed.rows _ _ (by rw [Belongs, present]; rfl)).1
        rw [away] at row
        cases row
    · refine absurd ?_ changed
      have member := get_member_append store settings.keycloakUserId settings.keycloakUserId
        role.id other userId
      rw [if_neg mine, Option.or_none, calm_member _ calm] at member
      exact member

omit [DecidableEq κ] in
/-- A status that is not pending leaves no new pending invitation. -/
theorem update_status_pends (store : Store κ) (id : Nat) (status : InvitationStatus)
    (acceptedBy : Option κ) (settled : status ≠ .pending) (pends : Pends before store) :
    Pends before (store.updateInvitationStatus id status acceptedBy).1 := by
  unfold Store.updateInvitationStatus
  split
  · exact pends
  intro invite listed pending
  obtain ⟨row, present, rfl⟩ := mem_map.mp listed
  by_cases here : row.id = id
  · rw [if_pos here] at pending
    split at pending <;> exact absurd pending settled
  · rw [if_neg here] at pending ⊢
    exact pends row present pending

/-- Writing a status changes no member. -/
theorem update_status_members (store : Store κ) (id : Nat) (status : InvitationStatus)
    (acceptedBy : Option κ) (other userId : κ) :
    (store.updateInvitationStatus id status acceptedBy).1.getOrgMember other userId =
      store.getOrgMember other userId := by
  rcases update_invitation_status_tables store id status acceptedBy with same | ⟨_, _, same⟩
  · rw [same]
  · rw [same]
    rfl

variable {token : String}

/-- The comparison of the mail addresses goes on, or refuses. -/
theorem match_email_arriving (store : Store κ) {invite : OrgInvitation κ} (email : Option String)
    (arrived : (Moved before acceptorId store ∧ store.invitations = before.invitations) ∧
      Read before token invite ∧ invite.status = .pending) :
    Arriving before token acceptorId store (matchEmail normal invite email) := by
  unfold matchEmail
  split
  · exact arriving_raise _ _ _ _ _ arrived.1.1 arrived.1.2
  · split
    · exact arriving_raise _ _ _ _ _ arrived.1.1 arrived.1.2
    · exact arrived

theorem accept_arriving (token : String) (acceptorId : κ) (store : Store κ) (phase : Phase κ)
    (given : Given κ) (silent : given.raises = none) (formed : WellFormed before)
    (arriving : Arriving before token acceptorId store phase) :
    Arriving before token acceptorId
      (acceptInvitation roles normal text token acceptorId store phase given).1
      (acceptInvitation roles normal text token acceptorId store phase given).2 := by
  have loud : ¬ given.raises.isSome = true := by simp [silent]
  have refuses := arriving_raise before token acceptorId store
  unfold acceptInvitation
  cases phase with
  | idle =>
    dsimp only
    rw [if_neg loud]
    have moved := calm_moved before acceptorId store arriving
    split
    case h_1 => exact refuses _ moved arriving.invitations
    case h_2 invite found =>
      refine ⟨arriving, ?_, by simpa using find?_some found⟩
      rw [← arriving.invitations]
      exact mem_of_find?_eq_some found
  | examining invite =>
    obtain ⟨calm, read⟩ := arriving
    have moved := calm_moved before acceptorId store calm
    unfold examine
    dsimp only
    split
    case h_4 pending =>
      split
      · exact ⟨calm, read⟩
      · exact ⟨calm, read, pending⟩
    all_goals exact refuses _ moved calm.invitations
  | expiring invite =>
    obtain ⟨calm, read⟩ := arriving
    dsimp only
    rw [if_neg loud]
    refine ⟨update_status_pends _ _ _ _ _ (fun same => by cases same)
      (pends_same _ calm.invitations), .inl fun other userId changed => ?_⟩
    rw [update_status_members] at changed
    exact calm_moved _ _ _ calm other userId changed
  | identifying invite =>
    obtain ⟨calm, read, pending⟩ := arriving
    have moved := calm_moved before acceptorId store calm
    dsimp only
    split
    case h_1 => exact refuses _ moved calm.invitations
    case h_2 => exact refuses _ moved calm.invitations
    case h_3 next _ got =>
      obtain ⟨movedNext, same⟩ := get_user_by_id_moved _ _ _ _ _ _ formed calm got
      exact arriving_raise _ _ _ _ _ movedNext same
    case h_4 next user _ got =>
      have arrived := get_user_by_id_moved _ _ _ _ _ _ formed calm got
      split
      · exact match_email_arriving _ _ _ _
          ⟨arrived, read, pending⟩
      · exact ⟨arrived, read, pending⟩
  | fetchingEmail invite =>
    dsimp only
    rw [if_neg loud]
    exact match_email_arriving _ _ _ _ arriving
  | checkingMember invite =>
    dsimp only
    rw [if_neg loud]
    split
    · exact refuses _ arriving.1.1 arriving.1.2
    · exact arriving
  | integrating invite =>
    dsimp only
    rw [if_neg loud]
    exact arriving
  | loadingOrg invite =>
    dsimp only
    rw [if_neg loud]
    split
    · exact refuses _ arriving.1.1 arriving.1.2
    · exact arriving
  | adding invite =>
    obtain ⟨⟨moved, same⟩, read, pending⟩ := arriving
    dsimp only
    split
    case h_1 => exact refuses _ moved same
    case h_2 => exact refuses _ moved same
    case h_3 next _ adds =>
      obtain ⟨-, -, away, rfl⟩ := add_user_to_org_tables _ _ _ _ _ adds
      refine ⟨⟨fun other userId changed => ?_, same⟩, read, pending⟩
      have member := get_member_append store invite.orgId acceptorId invite.roleId other userId
      by_cases mine : other = invite.orgId ∧ userId = acceptorId
      · obtain ⟨rfl, rfl⟩ := mine
        have nobody : store.getOrgMember invite.orgId userId = none := by
          simpa [Belongs] using away
        rw [if_pos ⟨rfl, rfl⟩, nobody] at member
        by_cases was : before.getOrgMember invite.orgId userId = none
        · refine .inr ⟨rfl, rfl, was, fun added present => ?_⟩
          obtain rfl := Option.some.inj (present.symm.trans member)
          rfl
        · exact .inl (moved _ _ (by rw [nobody]; exact fun same => was same.symm))
      · rw [if_neg mine, Option.or_none] at member
        refine .inl (moved other userId fun same => changed ?_)
        rw [← same]
        exact member
  | accepting invite =>
    obtain ⟨⟨admitted, same⟩, read, pending⟩ := arriving
    have present : (store.getInvitation invite.id).isSome = true := by
      rw [Store.getInvitation, same, find?_isSome]
      exact ⟨invite, read.1, by simp⟩
    have pends := update_status_pends before store invite.id .accepted (some acceptorId) (fun same => by cases same)
      (pends_same _ same)
    have members := update_status_members store invite.id .accepted (some acceptorId)
    have found : ((store.updateInvitationStatus invite.id .accepted (some acceptorId)).2).isSome
        = true := by
      obtain ⟨row, here⟩ := Option.isSome_iff_exists.mp present
      rw [Store.updateInvitationStatus, here]
      rfl
    dsimp only
    rw [if_neg loud]
    split
    case h_1 next wrote =>
      rw [wrote] at found
      cases found
    case h_2 next accepted wrote =>
      rw [wrote] at pends members
      refine ⟨pends, .inr ⟨id, invite, fun other userId changed => ?_, read, pending⟩⟩
      rw [members] at changed ⊢
      exact admitted other userId changed
  | answered answer => exact arriving
  | _ => exact arriving.elim

/-- An acceptance that is under way stays so while time passes. -/
theorem arriving_tick (elapsed : Nat) (arriving : Arriving before token acceptorId store phase) :
    Arriving before token acceptorId (store.tick elapsed) phase := by
  have calm := calm_tick before store elapsed
  unfold Arriving at arriving ⊢
  split at arriving
  case h_1 => exact calm arriving
  case h_2 => exact ⟨calm arriving.1, arriving.2⟩
  case h_3 => exact ⟨calm arriving.1, arriving.2⟩
  case h_4 => exact ⟨calm arriving.1, arriving.2⟩
  all_goals exact arriving

/-- A creation of an organisation that is under way stays so while time passes. -/
theorem founding_tick (founderId : κ) (elapsed : Nat)
    (founding : Founding before founderId store phase) :
    Founding before founderId (store.tick elapsed) phase := by
  have calm := calm_tick before store elapsed
  unfold Founding at founding ⊢
  split at founding
  case h_6 => exact founding
  case h_7 => exact founding.elim
  all_goals exact calm founding

/-! ## Invitations -/

/-- The tables are as before but for invitations; those that are new are of the inviter, who is an
owner where they are for owners. -/
structure Issuing (inviterId : κ) (store : Store κ) : Prop where
  orgs : store.orgs = before.orgs
  users : store.users = before.users
  settings : store.settings = before.settings
  members : store.members = before.members
  invitations : ∀ invitation ∈ store.invitations, invitation ∈ before.invitations ∨
    (invitation.orgId = orgId ∧ invitation.inviterId = inviterId ∧
      ∀ role, getRoleById roles invitation.roleId = some role → role.name = roleOwner →
        OwnerIn roles before orgId inviterId)

def MayInvite (inviterId : κ) (role : Role) : Prop :=
  getRoleById roles role.id = some role ∧
    (role.name = roleOwner → OwnerIn roles before orgId inviterId)

def Inviting (inviterId : κ) : Phase κ → Prop
  | .lookingUpEmail role =>
      Belongs before orgId inviterId ∧ MayInvite roles before orgId inviterId role
  | .checkingInvitee role _ =>
      Belongs before orgId inviterId ∧ MayInvite roles before orgId inviterId role
  | .issuing role => Belongs before orgId inviterId ∧ MayInvite roles before orgId inviterId role
  | .mailing _ => Belongs before orgId inviterId
  | _ => True

include distinct

theorem check_inviter_inviting (roleName : String) (inviterId : κ) :
    Inviting roles before orgId inviterId
      (checkInviter roles lower roleName (before.getOrgMember orgId inviterId)) := by
  unfold checkInviter
  split
  case h_1 => trivial
  case h_2 member present =>
    split
    case h_1 => trivial
    case h_2 inviterRole known =>
      split
      case isTrue => trivial
      case isFalse =>
        split
        case isTrue => trivial
        case isFalse allowed =>
          split
          case h_1 => trivial
          case h_2 targetRole named =>
            refine ⟨by rw [Belongs, present]; rfl,
              OrgMembers.role_by_id _ distinct named, fun owner => ?_⟩
            have asked : targetRole.name = lower roleName := by simpa using find?_some named
            rw [OwnerIn, present, Option.any_some, is_owner_iff _ known]
            by_contra other
            exact allowed ⟨asked.symm.trans owner, other⟩

theorem create_inviting (email roleName : String) (inviterId : κ) (store : Store κ)
    (phase : Phase κ) (given : Given κ) (formed : WellFormed before)
    (issuing : Issuing roles before orgId inviterId store)
    (inviting : Inviting roles before orgId inviterId phase) :
    Issuing roles before orgId inviterId
        (createInvitation roles lower normal text orgId email roleName inviterId store phase given).1 ∧
      Inviting roles before orgId inviterId
        (createInvitation roles lower normal text orgId email roleName inviterId store phase
          given).2 := by
  unfold createInvitation
  cases phase with
  | idle =>
    dsimp only
    split
    · exact ⟨issuing, trivial⟩
    · split
      · exact ⟨issuing, trivial⟩
      · split <;> exact ⟨issuing, trivial⟩
  | checkingInviter =>
    dsimp only
    split
    · exact ⟨issuing, trivial⟩
    · refine ⟨issuing, ?_⟩
      rw [Store.getOrgMember, issuing.members]
      exact check_inviter_inviting _ _ _ _ distinct ..
  | lookingUpEmail targetRole =>
    dsimp only
    split
    · exact ⟨issuing, trivial⟩
    · split <;> exact ⟨issuing, inviting⟩
  | checkingInvitee targetRole existing =>
    dsimp only
    split
    · exact ⟨issuing, trivial⟩
    · split
      · exact ⟨issuing, trivial⟩
      · exact ⟨issuing, inviting⟩
  | issuing targetRole =>
    obtain ⟨belongs, known, owner⟩ := inviting
    dsimp only
    split
    case h_1 => exact ⟨issuing, trivial⟩
    case h_2 => exact ⟨issuing, trivial⟩
    case h_3 next invite _ issues =>
      obtain ⟨rfl, created⟩ := create_invitation_tables _ _ _ _ issues
      refine ⟨⟨issuing.orgs, issuing.users, issuing.settings, issuing.members, ?_⟩, belongs⟩
      intro other listed
      rcases mem_append.mp listed with old | new
      · exact issuing.invitations other old
      obtain rfl := mem_singleton.mp new
      subst created
      refine .inr ⟨rfl, rfl, fun role found => ?_⟩
      obtain rfl := Option.some.inj (known.symm.trans found)
      exact owner
  | mailing invite =>
    have row : (store.findUser inviterId).isSome = true := by
      rw [Store.findUser, issuing.users]
      exact (formed.rows orgId inviterId inviting).1
    obtain ⟨user, found⟩ := get_user_by_id_row _ _ _ row
    dsimp only
    rw [found]
    split
    case h_1 next user' _ same =>
      cases same
      exact ⟨issuing, trivial⟩
    case h_2 => exact ⟨issuing, trivial⟩
  | _ => exact ⟨issuing, inviting⟩

/-! ## Calls -/

omit distinct

/-- Tables that are well formed stay so while time passes. -/
theorem well_formed_tick (store : Store κ) (elapsed : Nat) (formed : WellFormed store) :
    WellFormed (store.tick elapsed) := ⟨formed.rows, formed.homes⟩

/-- A call of one request keeps what each of its steps keeps. -/
theorem perform_single (store : Store κ) (label : Label κ) (single : label.call.parts = [request])
    (reached : Store κ → Phase κ → Prop) (silent : ∀ entry ∈ label.schedule, entry.2.raises = none)
    (formed : WellFormed store) (start : reached store .idle)
    (steps : ∀ shared phase given, given.raises = none → WellFormed shared → reached shared phase →
      reached (act roles lower normal text (Store.tick shared given.elapsed) phase given request).1
        (act roles lower normal text (Store.tick shared given.elapsed) phase given request).2) :
    WellFormed (perform roles lower normal text store label).shared ∧
      ∀ part, reached (perform roles lower normal text store label).shared
        ((perform roles lower normal text store label).phases part) := by
  have alone : ∀ first second : Fin label.call.parts.length, first = second := by
    have one : label.call.parts.length = 1 := by rw [single]; rfl
    intro first second
    omega
  have asked : ∀ part, label.call.parts.get part = request := by
    have every : ∀ other ∈ label.call.parts, other = request := by
      rw [single]
      simp
    exact fun part => every _ (get_mem label.call.parts part)
  have sound := invariant_along (advance (move roles lower normal text label.call.parts.get))
    (Assuming fun _ _ _ given => given.raises = none)
    (Sound WellFormed (fun _ => reached) (fun _ _ => True))
    (fun world entry holds met => advance_sound _ _ (fun _ _ _ => trivial)
      (fun name shared phase given formed held quiet => by
        refine ⟨effect_well_formed roles normal text given phase
          (act_effect ..)
          (well_formed_tick shared given.elapsed formed), ?_⟩
        rw [move, asked]
        exact steps shared phase given quiet formed held)
      (fun name other _ _ _ _ apart => absurd (alone other name) apart) holds met)
    (initial store) label.schedule ⟨formed, fun _ => start, fun _ _ _ => trivial⟩
    (along_of_mem _ _ _ fun entry listed _ => silent entry listed) _ (reached_run _ _ _)
  exact ⟨sound.common, sound.relied⟩

include distinct in
/-- The requests of a call for invitations keep what each of their steps keeps. -/
theorem perform_inviting {label : Label κ} {roleName : String} {inviterId : κ}
    (parts : ∀ request ∈ label.call.parts, ∃ email,
      request = .createInvitation orgId email roleName inviterId) (formed : WellFormed store) :
    Issuing roles store orgId inviterId (perform roles lower normal text store label).shared := by
  have sound := invariant_along (advance (move roles lower normal text label.call.parts.get))
    (Assuming fun _ _ _ _ => True)
    (Sound (Issuing roles store orgId inviterId)
      (fun _ _ => Inviting roles store orgId inviterId) (fun _ _ => True))
    (fun world entry holds met => advance_sound _ _ (fun _ _ _ => trivial)
      (fun name shared phase given issuing inviting _ => by
        obtain ⟨email, asked⟩ := parts _ (get_mem label.call.parts name)
        rw [move, asked]
        exact create_inviting roles lower normal text store orgId distinct email roleName inviterId
          _ phase given formed ⟨issuing.orgs, issuing.users, issuing.settings, issuing.members,
            issuing.invitations⟩ inviting)
      (fun _ _ _ _ _ _ _ _ _ held _ _ => ⟨held, trivial⟩) holds met)
    (initial store) label.schedule
    ⟨⟨rfl, rfl, rfl, rfl, fun _ listed => .inl listed⟩, fun _ => trivial, fun _ _ _ => trivial⟩
    (along_of_forall _ (fun _ _ => trivial) _ _) _ (reached_run _ _ _)
  exact sound.common

end ForgePilot.OwnerAuthority
