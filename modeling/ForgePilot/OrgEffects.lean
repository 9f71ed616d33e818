import ForgePilot.OrgRequests

/-!
# What a step of a request does to the tables

Each step of a request either leaves the tables alone or makes one call of the store that
writes. The relation below has a case for each of these calls, with the phase in which the
request makes it. What is to be kept of the tables follows from its cases.
-/

namespace ForgePilot.OrgRequests

open Organizations
open OrgMembers (Role OrgMember Write removeUserFromOrg updateUserRoleInOrg performWrite)

variable {κ : Type} [DecidableEq κ]
variable (roles : List Role) (lower normal : String → String) (text : κ → String)

/-- A request to remove a member, or to change the role of a member. -/
def AboutMember (request : Request κ) (orgId targetUserId currentUserId : κ) : Prop :=
  request = .removeOrgMember orgId targetUserId currentUserId ∨
    ∃ role, request = .updateOrgMember orgId targetUserId currentUserId role

/-- A request writes the status of an invitation. -/
inductive Marks (request : Request κ) (invitation : OrgInvitation κ) :
    Phase κ → InvitationStatus → Option κ → Prop
  | expiring (token : String) (userId : κ) (asked : request = .acceptInvitation token userId) :
      Marks request invitation (.expiring invitation) .expired none
  | accepting (token : String) (userId : κ) (asked : request = .acceptInvitation token userId) :
      Marks request invitation (.accepting invitation) .accepted (some userId)
  | marking (token : String) (asked : request = .markExpiredIfNeeded token) :
      Marks request invitation (.markingExpired invitation) .expired none

/-- What a step of a request does. -/
inductive Effect (request : Request κ) (store : Store κ) (given : Given κ) :
    Phase κ → Store κ × Phase κ → Prop
  | kept (phase phase' : Phase κ) : Effect request store given phase (store, phase')
  | switched (userId orgId : κ) (org : Org κ) (next : Store κ) (found : Option (User κ))
      (phase' : Phase κ) (asked : request = .switchOrg userId orgId) (silent : given.raises = none)
      (updated : store.updateCurrentOrg userId orgId = some (next, found)) :
      Effect request store given (.switching org) (next, phase')
  | reset (orgId targetUserId currentUserId : κ) (next : Store κ) (found : Option (User κ))
      (phase' : Phase κ) (asked : request = .removeOrgMember orgId targetUserId currentUserId)
      (updated : store.updateCurrentOrg targetUserId targetUserId = some (next, found)) :
      Effect request store given .resetting (next, phase')
  | migrated (settings : UserSettings κ) (next : Store κ) (user : User κ) (phase phase' : Phase κ)
      (missing : store.findUser settings.keycloakUserId = none)
      (migrates : store.migrateUser roles text settings = some (next, user)) :
      Effect request store given phase (next, phase')
  | removed (orgId targetUserId currentUserId : κ) (write : Write κ) (member : OrgMember κ)
      (asked : AboutMember request orgId targetUserId currentUserId)
      (present : store.getOrgMember orgId targetUserId = some member)
      (out : write.newRole = none) :
      Effect request store given (.membership (.writing write))
        ((store.setMembers orgId (removeUserFromOrg (store.members orgId) targetUserId)).note
          (.removed orgId targetUserId), .rereading)
  | roleGiven (orgId targetUserId currentUserId : κ) (write : Write κ) (member : OrgMember κ)
      (newRole : Role) (asked : AboutMember request orgId targetUserId currentUserId)
      (present : store.getOrgMember orgId targetUserId = some member)
      (changed : write.newRole = some newRole) :
      Effect request store given (.membership (.writing write))
        ((store.setMembers orgId
            (updateUserRoleInOrg (store.members orgId) targetUserId newRole.id)).note
          (.roleGiven orgId targetUserId currentUserId newRole.id), .reporting targetUserId newRole)
  | deleted (userId orgId : κ) (next : Store κ) (org : Option (Org κ)) (phase' : Phase κ)
      (asked : request = .deleteOrgWithCleanup userId orgId)
      (cascades : store.deleteOrgCascade orgId given.choice = .ok (next, org)) :
      Effect request store given .deleting (next, phase')
  | issued (orgId : κ) (email roleName : String) (inviterId : κ) (targetRole : Role)
      (next : Store κ) (invitation : OrgInvitation κ)
      (asked : request = .createInvitation orgId email roleName inviterId)
      (issues : store.createInvitation normal orgId (normal email) targetRole.id inviterId
        given.freshToken = some (next, invitation)) :
      Effect request store given (.issuing targetRole) (next, .mailing invitation)
  | stated (invitation : OrgInvitation κ) (phase phase' : Phase κ) (status : InvitationStatus)
      (acceptedBy : Option κ) (marks : Marks request invitation phase status acceptedBy)
      (silent : given.raises = none) :
      Effect request store given phase
        ((store.updateInvitationStatus invitation.id status acceptedBy).1, phase')
  | admitted (token : String) (userId : κ) (invitation : OrgInvitation κ) (next : Store κ)
      (asked : request = .acceptInvitation token userId) (silent : given.raises = none)
      (adds : store.addUserToOrg roles invitation.orgId userId invitation.roleId = some next) :
      Effect request store given (.adding invitation)
        (next.note (.admitted invitation userId), .accepting invitation)
  | founded (name : String) (userId orgId : κ) (ownerRole : Role) (next : Store κ)
      (asked : request = .createOrgWithOwner name userId)
      (persists : store.persistOrgWithOwner ⟨orgId, name⟩ userId ownerRole.id = some next) :
      Effect request store given (.persisting orgId ownerRole) (next, .answered (.org ⟨orgId, name⟩))

/-- Setting the members of an organisation to what they are. -/
theorem set_members_self (store : Store κ) (orgId : κ) :
    store.setMembers orgId (store.members orgId) = store := by
  rw [Store.setMembers, Function.update_eq_self]

/-- What looking up a user by identifier returns, and the tables afterwards. -/
inductive LookedUp (store : Store κ) : κ → Store κ × Option (User κ) → Prop
  | present {userId : κ} {user : User κ} (found : store.findUser userId = some user) :
      LookedUp store userId (store, some user)
  | absent {userId : κ} (missing : store.findUser userId = none) :
      LookedUp store userId (store, none)
  | migrated (settings : UserSettings κ) (next : Store κ) (user : User κ)
      (missing : store.findUser settings.keycloakUserId = none)
      (migrates : store.migrateUser roles text settings = some (next, user)) :
      LookedUp store settings.keycloakUserId (next, some user)

theorem get_user_by_id_cases {store : Store κ} {userId : κ} {known : Bool}
    {result : Store κ × Option (User κ)}
    (got : store.getUserById roles text userId known = some result) :
    LookedUp roles text store userId result := by
  unfold Store.getUserById at got
  split at got
  case h_1 found =>
    cases got
    exact .present found
  case h_2 missing =>
    split at got
    case h_1 =>
      cases got
      exact .absent missing
    case h_2 settings stored =>
      split at got
      case isFalse =>
        cases got
        exact .absent missing
      case isTrue =>
        obtain rfl : settings.keycloakUserId = userId := by simpa using List.find?_some stored
        obtain ⟨migrated, migrates, rfl⟩ := Option.map_eq_some_iff.mp got
        exact .migrated settings _ _ missing migrates

/-- Looking up a user by identifier leaves the tables alone or migrates the user. -/
theorem get_user_by_id_effect (request : Request κ) {store next : Store κ} (given : Given κ)
    (phase phase' : Phase κ) {userId : κ} {known : Bool} {found : Option (User κ)}
    (got : store.getUserById roles text userId known = some (next, found)) :
    Effect roles normal text request store given phase (next, phase') := by
  cases get_user_by_id_cases _ _ got with
  | present | absent => exact .kept phase phase'
  | migrated settings _ user missing migrates =>
    exact .migrated settings next user phase phase' missing migrates

theorem switch_org_effect (userId orgId : κ) (store : Store κ) (phase : Phase κ) (given : Given κ) :
    Effect roles normal text (.switchOrg userId orgId) store given phase
      (switchOrg userId orgId store phase given) := by
  unfold switchOrg
  split
  case h_1 =>
    split
    · exact .kept _ _
    · split <;> exact .kept _ _
  case h_2 => split <;> exact .kept _ _
  case h_3 org =>
    split
    case h_1 => exact .kept _ _
    case h_2 => exact .kept _ _
    case h_3 next silent updated => exact .switched userId orgId org next none _ rfl silent updated
    case h_4 next user silent updated =>
      exact .switched userId orgId org next (some user) _ rfl silent updated
  case h_4 => exact .kept _ _

variable (orgId targetUserId currentUserId : κ)

/-- The steps of the part of a request that works on the members. -/
theorem work_on_members_effect {request : Request κ} {part : OrgMembers.Request κ} (store : Store κ)
    (phase : OrgMembers.Phase κ) (given : Given κ)
    (asked : AboutMember request orgId targetUserId currentUserId)
    (target : part.target = targetUserId) (earlier : Phase κ)
    (writes : ∀ write, phase = .writing write → earlier = .membership phase) :
    Effect roles normal text request store given earlier
      (workOnMembers roles lower orgId targetUserId currentUserId part store phase given) := by
  have unchanged : ∀ phase', Effect roles normal text request store given earlier
      (store.setMembers orgId (store.members orgId), phase') := by
    intro phase'
    rw [set_members_self]
    exact .kept earlier phase'
  unfold workOnMembers
  split
  case isTrue => exact .kept _ _
  case isFalse =>
    cases phase with
    | asked => exact unchanged _
    | admitted requester => exact unchanged _
    | counting write => exact unchanged _
    | answered answer => exact unchanged _
    | writing write =>
      obtain rfl := writes write rfl
      cases present : OrgMembers.getOrgMember (store.members orgId) targetUserId with
      | none =>
        simp only [Store.getOrgMember, membershipStep, performWrite, target, present]
        exact unchanged _
      | some member =>
        simp only [Store.getOrgMember, membershipStep, performWrite, target, present, writeEvent]
        cases changed : write.newRole with
        | none => exact .removed orgId targetUserId currentUserId write member asked present changed
        | some newRole =>
          exact .roleGiven orgId targetUserId currentUserId write member newRole asked present changed

theorem remove_org_member_effect (store : Store κ) (phase : Phase κ) (given : Given κ) :
    Effect roles normal text (.removeOrgMember orgId targetUserId currentUserId) store given phase
      (removeOrgMember roles lower text orgId targetUserId currentUserId store phase given) := by
  unfold removeOrgMember
  split
  case h_1 =>
    exact work_on_members_effect roles lower normal text orgId targetUserId currentUserId store
      .asked given (.inl rfl) rfl .idle nofun
  case h_2 part =>
    exact work_on_members_effect roles lower normal text orgId targetUserId currentUserId store
      part _ (.inl rfl) rfl _ fun _ _ => rfl
  case h_3 =>
    split
    case h_1 => exact .kept _ _
    case h_2 => exact .kept _ _
    case h_3 next _ got => exact get_user_by_id_effect _ _ _ _ _ _ _ got
    case h_4 next user _ got => exact get_user_by_id_effect _ _ _ _ _ _ _ got
  case h_4 =>
    split
    case h_1 => exact .kept _ _
    case h_2 => exact .kept _ _
    case h_3 next found _ updated =>
      exact .reset orgId targetUserId currentUserId next found _ rfl updated
  case h_5 => exact .kept _ _
  case h_6 => exact .kept _ _

theorem update_org_member_effect (role : Option String) (store : Store κ) (phase : Phase κ)
    (given : Given κ) :
    Effect roles normal text (.updateOrgMember orgId targetUserId currentUserId role) store given
      phase (updateOrgMember roles lower text orgId targetUserId currentUserId role store phase
        given) := by
  unfold updateOrgMember
  split
  case h_1 =>
    exact work_on_members_effect roles lower normal text orgId targetUserId currentUserId store
      .asked given (.inr ⟨role, rfl⟩) rfl .idle nofun
  case h_2 part =>
    exact work_on_members_effect roles lower normal text orgId targetUserId currentUserId store
      part _ (.inr ⟨role, rfl⟩) rfl _ fun _ _ => rfl
  case h_3 =>
    split
    case h_1 => exact .kept _ _
    case h_2 => exact .kept _ _
    case h_3 next user _ got => exact get_user_by_id_effect _ _ _ _ _ _ _ got
  case h_4 => exact .kept _ _

theorem delete_org_with_cleanup_effect (userId orgId : κ) (store : Store κ) (phase : Phase κ)
    (given : Given κ) :
    Effect roles normal text (.deleteOrgWithCleanup userId orgId) store given phase
      (deleteOrgWithCleanup roles userId orgId store phase given) := by
  unfold deleteOrgWithCleanup
  split
  case h_1 =>
    split
    · exact .kept _ _
    · split <;> exact .kept _ _
  case h_2 =>
    split
    · exact .kept _ _
    · split
      · exact .kept _ _
      · split <;> exact .kept _ _
  case h_3 =>
    split
    case h_1 => exact .kept _ _
    case h_2 => exact .kept _ _
    case h_3 next _ cascades => exact .deleted userId orgId next none _ rfl cascades
    case h_4 next org _ cascades => exact .deleted userId orgId next (some org) _ rfl cascades
  case h_4 => exact .kept _ _

theorem create_invitation_effect (orgId : κ) (email roleName : String) (inviterId : κ)
    (store : Store κ) (phase : Phase κ) (given : Given κ) :
    Effect roles normal text (.createInvitation orgId email roleName inviterId) store given phase
      (createInvitation roles lower normal text orgId email roleName inviterId store phase given) := by
  unfold createInvitation
  dsimp only
  split
  case h_1 =>
    split
    · exact .kept _ _
    · split
      · exact .kept _ _
      · split <;> exact .kept _ _
  case h_2 => split <;> exact .kept _ _
  case h_3 =>
    split
    · exact .kept _ _
    · split <;> exact .kept _ _
  case h_4 =>
    split
    · exact .kept _ _
    · split <;> exact .kept _ _
  case h_5 targetRole =>
    split
    case h_1 => exact .kept _ _
    case h_2 => exact .kept _ _
    case h_3 next invite _ issues =>
      exact .issued orgId email roleName inviterId targetRole next invite rfl issues
  case h_6 =>
    split
    case h_1 next found _ got => exact get_user_by_id_effect _ _ _ _ _ _ _ got
    case h_2 => exact .kept _ _
  case h_7 => exact .kept _ _

theorem accept_invitation_effect (token : String) (userId : κ) (store : Store κ) (phase : Phase κ)
    (given : Given κ) :
    Effect roles normal text (.acceptInvitation token userId) store given phase
      (acceptInvitation roles normal text token userId store phase given) := by
  unfold acceptInvitation
  split
  case h_1 =>
    split
    · exact .kept _ _
    · split <;> exact .kept _ _
  case h_2 => exact .kept _ _
  case h_3 invite =>
    split
    case isTrue => exact .kept _ _
    case isFalse silent =>
      exact .stated invite _ _ .expired none (.expiring token userId rfl) (by simpa using silent)
  case h_4 =>
    split
    case h_1 => exact .kept _ _
    case h_2 => exact .kept _ _
    case h_3 next _ got => exact get_user_by_id_effect _ _ _ _ _ _ _ got
    case h_4 next user _ got => exact get_user_by_id_effect _ _ _ _ _ _ _ got
  case h_5 => split <;> exact .kept _ _
  case h_6 =>
    split
    · exact .kept _ _
    · split <;> exact .kept _ _
  case h_7 => split <;> exact .kept _ _
  case h_8 =>
    split
    · exact .kept _ _
    · split <;> exact .kept _ _
  case h_9 invite =>
    split
    case h_1 => exact .kept _ _
    case h_2 => exact .kept _ _
    case h_3 next silent adds => exact .admitted token userId invite next rfl silent adds
  case h_10 invite =>
    split
    case isTrue => exact .kept _ _
    case isFalse silent =>
      have states : ∀ phase', Effect roles normal text (.acceptInvitation token userId) store given
          (.accepting invite)
          ((store.updateInvitationStatus invite.id .accepted (some userId)).1, phase') :=
        fun phase' => .stated invite _ phase' .accepted (some userId)
          (.accepting token userId rfl) (by simpa using silent)
      split
      case h_1 next wrote =>
        rw [show next = (next, (none : Option (OrgInvitation κ))).1 from rfl, ← wrote]
        exact states _
      case h_2 next accepted wrote =>
        rw [show next = (next, some accepted).1 from rfl, ← wrote]
        exact states _
  case h_11 => exact .kept _ _

/-- The steps of the creation of an organisation. -/
theorem create_org_with_owner_effect (name : String) (userId : κ) (store : Store κ)
    (phase : Phase κ) (given : Given κ) :
    Effect roles normal text (.createOrgWithOwner name userId) store given phase
      (createOrgWithOwner roles name userId store phase given) := by
  unfold createOrgWithOwner
  split
  case h_1 =>
    split
    · exact .kept _ _
    · split <;> exact .kept _ _
  case h_2 => split <;> exact .kept _ _
  case h_3 orgId ownerRole =>
    split
    case h_1 => exact .kept _ _
    case h_2 => exact .kept _ _
    case h_3 next _ persists => exact .founded name userId orgId ownerRole next rfl persists
  case h_4 => exact .kept _ _
  case h_5 => exact .kept _ _

theorem mark_expired_if_needed_effect (token : String) (store : Store κ) (phase : Phase κ)
    (given : Given κ) :
    Effect roles normal text (.markExpiredIfNeeded token) store given phase
      (markExpiredIfNeeded token store phase given) := by
  unfold markExpiredIfNeeded
  split
  case h_1 =>
    split
    · exact .kept _ _
    · split <;> exact .kept _ _
  case h_2 => exact .kept _ _
  case h_3 invite =>
    split
    case isTrue => exact .kept _ _
    case isFalse silent =>
      exact .stated invite _ _ .expired none (.marking token rfl) (by simpa using silent)
  case h_4 => exact .kept _ _

theorem act_effect (request : Request κ) (store : Store κ) (phase : Phase κ) (given : Given κ) :
    Effect roles normal text request store given phase
      (act roles lower normal text store phase given request) := by
  cases request with
  | switchOrg userId orgId => exact switch_org_effect ..
  | removeOrgMember orgId targetUserId currentUserId => exact remove_org_member_effect ..
  | updateOrgMember orgId targetUserId currentUserId role => exact update_org_member_effect ..
  | deleteOrgWithCleanup userId orgId => exact delete_org_with_cleanup_effect ..
  | createInvitation orgId email roleName inviterId => exact create_invitation_effect ..
  | acceptInvitation token userId => exact accept_invitation_effect ..
  | createOrgWithOwner name userId => exact create_org_with_owner_effect ..
  | markExpiredIfNeeded token => exact mark_expired_if_needed_effect ..

end ForgePilot.OrgRequests
