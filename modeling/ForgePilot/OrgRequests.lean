import ForgePilot.Organizations

/-!
# Requests about organisations

What the services for organisations, their members and their invitations do, as requests
that take one step for each call of a store and one for what they compute between two of
them. Any call may raise. The steps of any number of requests interleave.

Looking up a role is part of the step after it, since the table of roles does not change.
The calls of the gateway to the language models, of the identity provider and of the mail
service change nothing here; they are steps where the request waits for their answer.
-/

namespace ForgePilot.OrgRequests

open OrgMembers Organizations Processes

inductive Request (κ : Type) where
  | switchOrg (userId orgId : κ)
  | removeOrgMember (orgId targetUserId currentUserId : κ)
  | updateOrgMember (orgId targetUserId currentUserId : κ) (role : Option String)
  | deleteOrgWithCleanup (userId orgId : κ)
  | createInvitation (orgId : κ) (email roleName : String) (inviterId : κ)
  | acceptInvitation (token : String) (userId : κ)
  | createOrgWithOwner (name : String) (userId : κ)
  /-- The caller reads the invitation with a token and hands it over. -/
  | markExpiredIfNeeded (token : String)

inductive Error (κ : Type) where
  | orgNotFound (orgId : κ)
  | orgAuthorization (message : String)
  | orgDatabase (message : String)
  | orgNameExists (name : String)
  | liteLlmIntegration (message : String)
  | valueError (message : String)
  | insufficientPermission (message : String)
  | userAlreadyMember (message : String)
  | invitationInvalid (message : String)
  | invitationExpired (message : String)
  | emailMismatch (message : String)
  | memberUpdate (error : UpdateError κ)
  /-- What a store has raised. -/
  | store (message : String)

inductive Answer (κ : Type) where
  | raised (error : Error κ)
  /-- A removal, with the text of what it refuses. -/
  | removal (refused : Option String)
  | member (userId : κ) (role : Role) (email : Option String)
  | org (org : Org κ)
  | invitation (invitation : OrgInvitation κ)
  | marked (expired : Bool)

/-- How far a request is: what it is about to do. -/
inductive Phase (κ : Type) where
  | idle
  -- switch_org
  | checkingMembership (org : Org κ)
  | switching (org : Org κ)
  -- remove_org_member and update_org_member
  | membership (phase : OrgMembers.Phase κ)
  | rereading
  | resetting
  | leavingTeam
  | reporting (userId : κ) (role : Role)
  -- delete_org_with_cleanup
  | authorizing
  | deleting
  -- create_invitation
  | checkingInviter
  | lookingUpEmail (targetRole : Role)
  | checkingInvitee (targetRole : Role) (existing : User κ)
  | issuing (targetRole : Role)
  | mailing (invitation : OrgInvitation κ)
  -- accept_invitation
  | examining (invitation : OrgInvitation κ)
  | expiring (invitation : OrgInvitation κ)
  | identifying (invitation : OrgInvitation κ)
  | fetchingEmail (invitation : OrgInvitation κ)
  | checkingMember (invitation : OrgInvitation κ)
  | integrating (invitation : OrgInvitation κ)
  | loadingOrg (invitation : OrgInvitation κ)
  | adding (invitation : OrgInvitation κ)
  | accepting (invitation : OrgInvitation κ)
  -- create_org_with_owner
  | founding
  | persisting (orgId : κ) (ownerRole : Role)
  | compensating (message : String)
  -- mark_expired_if_needed
  | marking (invitation : OrgInvitation κ)
  | markingExpired (invitation : OrgInvitation κ)
  | answered (answer : Answer κ)

/-- A request is in progress from its first step to its answer. -/
def Phase.InProgress {κ : Type} : Phase κ → Prop
  | .idle => False
  | .answered _ => False
  | _ => True

instance {κ : Type} (phase : Phase κ) : Decidable phase.InProgress := by
  rcases phase with _ | _ <;> first | exact instDecidableTrue | exact instDecidableFalse

/-- What a step is given from outside. -/
structure Given (κ : Type) where
  elapsed : Nat
  /-- The text of what the call raises. -/
  raises : Option String
  /-- The identity provider knows the user, and this mail address of the user. -/
  known : Bool
  email : Option String
  /-- New identifiers and tokens. -/
  freshId : κ
  freshToken : String
  /-- Which other organisation the database picks for a user. -/
  choice : κ → κ

variable {κ : Type} [DecidableEq κ]
variable (roles : List Role) (lower normal : String → String) (text : κ → String)

def raise (error : Error κ) : Phase κ := .answered (.raised error)

def propagate (message : Option String) : Phase κ := raise (.store (message.getD "IntegrityError"))

/-! ## switch_org -/

/-- The next step of a switch. -/
def switchOrg (userId orgId : κ) (store : Store κ) (phase : Phase κ) (given : Given κ) :
    Store κ × Phase κ :=
  match phase with
  | .idle =>
      if given.raises.isSome then (store, propagate given.raises)
      else
        match store.getOrgById orgId with
        | none => (store, raise (.orgNotFound orgId))
        | some org => (store, .checkingMembership org)
  | .checkingMembership org =>
      if given.raises.isSome || (store.getOrgMember orgId userId).isNone then
        (store, raise (.orgAuthorization
          "User must be a member of the organization to switch to it"))
      else (store, .switching org)
  | .switching org =>
      match given.raises, store.updateCurrentOrg userId orgId with
      | some message, _ =>
          (store, raise (.orgDatabase ("Failed to switch organization: " ++ message)))
      | none, none =>
          (store, raise (.orgDatabase "Failed to switch organization: IntegrityError"))
      | none, some (next, none) => (next, raise (.orgDatabase "User not found"))
      | none, some (next, some _) => (next, .answered (.org org))
  | phase => (store, phase)

/-! ## remove_org_member and update_org_member -/

/-- The next phase of the part that works on the members. -/
def membershipStep (request : OrgMembers.Request κ) (members : List (OrgMember κ)) :
    OrgMembers.Phase κ → List (OrgMember κ) × OrgMembers.Phase κ
  | .asked => (members, readRequester request members)
  | .admitted requester => (members, readTarget roles lower request requester members)
  | .counting write => (members, countOwners roles request write members)
  | .writing write => performWrite request write members
  | .answered answer => (members, .answered answer)

/-- Where the part that works on the members leads. -/
def settle : OrgMembers.Phase κ → Phase κ
  | .answered (.removal true _) => .rereading
  | .answered (.removal false refused) => .answered (.removal refused)
  | .answered (.update (.ok (userId, role))) => .reporting userId role
  | .answered (.update (.error error)) => raise (.memberUpdate error)
  | phase => .membership phase

/-- What a write does, for the journal. -/
def writeEvent (orgId targetUserId currentUserId : κ) (write : Write κ) : Event κ :=
  match write.newRole with
  | none => .removed orgId targetUserId
  | some role => .roleGiven orgId targetUserId currentUserId role.id

/-- The part of a request that works on the members of its organisation. -/
def workOnMembers (orgId targetUserId currentUserId : κ) (request : OrgMembers.Request κ)
    (store : Store κ) (phase : OrgMembers.Phase κ) (given : Given κ) : Store κ × Phase κ :=
  if given.raises.isSome then (store, propagate given.raises)
  else
    let worked := membershipStep roles lower request (store.members orgId) phase
    let next := store.setMembers orgId worked.1
    match phase, store.getOrgMember orgId targetUserId with
    | .writing write, some _ =>
        (next.note (writeEvent orgId targetUserId currentUserId write), settle worked.2)
    | _, _ => (next, settle worked.2)

/-- The next step of a removal. -/
def removeOrgMember (orgId targetUserId currentUserId : κ) (store : Store κ) (phase : Phase κ)
    (given : Given κ) : Store κ × Phase κ :=
  let request : OrgMembers.Request κ := .removeOrgMember targetUserId currentUserId
  match phase with
  | .idle => workOnMembers roles lower orgId targetUserId currentUserId request store .asked given
  | .membership phase =>
      workOnMembers roles lower orgId targetUserId currentUserId request store phase given
  | .rereading =>
      match given.raises, store.getUserById roles text targetUserId given.known with
      | some message, _ => (store, propagate (some message))
      | none, none => (store, propagate none)
      | none, some (next, none) => (next, .leavingTeam)
      | none, some (next, some user) =>
          (next, if user.currentOrgId = orgId then .resetting else .leavingTeam)
  | .resetting =>
      match given.raises, store.updateCurrentOrg targetUserId targetUserId with
      | some message, _ => (store, propagate (some message))
      | none, none => (store, propagate none)
      | none, some (next, _) => (next, .leavingTeam)
  | .leavingTeam => (store, .answered (.removal none))
  | phase => (store, phase)

/-- The next step of a change of role. -/
def updateOrgMember (orgId targetUserId currentUserId : κ) (role : Option String) (store : Store κ)
    (phase : Phase κ) (given : Given κ) : Store κ × Phase κ :=
  let request : OrgMembers.Request κ := .updateOrgMember targetUserId currentUserId role
  match phase with
  | .idle => workOnMembers roles lower orgId targetUserId currentUserId request store .asked given
  | .membership phase =>
      workOnMembers roles lower orgId targetUserId currentUserId request store phase given
  | .reporting userId role =>
      match given.raises, store.getUserById roles text targetUserId given.known with
      | some message, _ => (store, propagate (some message))
      | none, none => (store, propagate none)
      | none, some (next, user) => (next, .answered (.member userId role (user.bind User.email)))
  | phase => (store, phase)

/-! ## delete_org_with_cleanup -/

/-- The next step of a deletion. -/
def deleteOrgWithCleanup (userId orgId : κ) (store : Store κ) (phase : Phase κ) (given : Given κ) :
    Store κ × Phase κ :=
  match phase with
  | .idle =>
      if given.raises.isSome then (store, propagate given.raises)
      else if (store.getOrgById orgId).isNone then (store, raise (.orgNotFound orgId))
      else (store, .authorizing)
  | .authorizing =>
      if given.raises.isSome then (store, propagate given.raises)
      else
        match store.getOrgMember orgId userId with
        | none => (store, raise (.orgAuthorization "User is not a member of this organization"))
        | some member =>
            if isOwner roles member then (store, .deleting)
            else (store, raise (.orgAuthorization
              "Only organization owners can delete organizations"))
  | .deleting =>
      match given.raises, store.deleteOrgCascade orgId given.choice with
      | some message, _ =>
          (store, raise (.orgDatabase ("Failed to delete organization: " ++ message)))
      | none, .error message =>
          (store, raise (.orgDatabase ("Failed to delete organization: " ++ message)))
      | none, .ok (next, none) => (next, raise (.orgDatabase
          "Failed to delete organization: Organization not found during deletion"))
      | none, .ok (next, some org) => (next, .answered (.org org))
  | phase => (store, phase)

/-! ## create_invitation -/

def checkInviter (roleName : String) (member : Option (OrgMember κ)) : Phase κ :=
  match member with
  | none => raise (.insufficientPermission "You are not a member of this organization")
  | some member =>
      match getRoleById roles member.roleId with
      | none => raise (.insufficientPermission "Only owners and admins can invite users")
      | some inviterRole =>
          if inviterRole.name ≠ roleOwner ∧ inviterRole.name ≠ roleAdmin then
            raise (.insufficientPermission "Only owners and admins can invite users")
          else if lower roleName = roleOwner ∧ inviterRole.name ≠ roleOwner then
            raise (.insufficientPermission "Only owners can invite with owner role")
          else
            match getRoleByName roles (lower roleName) with
            | none => raise (.valueError ("Invalid role: " ++ roleName))
            | some targetRole => .lookingUpEmail targetRole

/-- The next step of an invitation. -/
def createInvitation (orgId : κ) (email roleName : String) (inviterId : κ) (store : Store κ)
    (phase : Phase κ) (given : Given κ) : Store κ × Phase κ :=
  let email := normal email
  match phase with
  | .idle =>
      if given.raises.isSome then (store, propagate given.raises)
      else if (store.getOrgById orgId).isNone then
        (store, raise (.valueError ("Organization " ++ text orgId ++ " not found")))
      else if orgId = inviterId then
        (store, raise (.insufficientPermission "Cannot invite users to a personal workspace"))
      else (store, .checkingInviter)
  | .checkingInviter =>
      if given.raises.isSome then (store, propagate given.raises)
      else (store, checkInviter roles lower roleName (store.getOrgMember orgId inviterId))
  | .lookingUpEmail targetRole =>
      if given.raises.isSome then (store, propagate given.raises)
      else
        match store.getUserByEmail normal email with
        | none => (store, .issuing targetRole)
        | some existing => (store, .checkingInvitee targetRole existing)
  | .checkingInvitee targetRole existing =>
      if given.raises.isSome then (store, propagate given.raises)
      else if (store.getOrgMember orgId existing.id).isSome then
        (store, raise (.userAlreadyMember "User is already a member of this organization"))
      else (store, .issuing targetRole)
  | .issuing targetRole =>
      match given.raises,
        store.createInvitation normal orgId email targetRole.id inviterId given.freshToken with
      | some message, _ => (store, propagate (some message))
      | none, none => (store, propagate none)
      | none, some (next, invitation) => (next, .mailing invitation)
  | .mailing invitation =>
      -- whatever is raised while the mail is prepared and sent is only logged
      match given.raises, store.getUserById roles text inviterId given.known with
      | none, some (next, _) => (next, .answered (.invitation invitation))
      | _, _ => (store, .answered (.invitation invitation))
  | phase => (store, phase)

/-! ## accept_invitation -/

/-- What the status and the expiry of an invitation allow. -/
def examine (invitation : OrgInvitation κ) (now : Nat) : Phase κ :=
  match invitation.status with
  | .accepted => raise (.invitationInvalid "Invitation has already been accepted")
  | .revoked => raise (.invitationInvalid "Invitation has been revoked")
  | .expired => raise (.invitationInvalid "Invitation is no longer valid")
  | .pending =>
      if invitation.isTokenExpired now then .expiring invitation else .identifying invitation

/-- Compare the mail address of a user with that of the invitation. -/
def matchEmail (invitation : OrgInvitation κ) (email : Option String) : Phase κ :=
  match email.filter (fun address => address ≠ "") with
  | none => raise (.emailMismatch "Your account does not have an email address")
  | some address =>
      if normal address ≠ normal invitation.email then
        raise (.emailMismatch "Your email does not match the invitation")
      else .checkingMember invitation

/-- The next step of an acceptance. -/
def acceptInvitation (token : String) (userId : κ) (store : Store κ) (phase : Phase κ)
    (given : Given κ) : Store κ × Phase κ :=
  match phase with
  | .idle =>
      if given.raises.isSome then (store, propagate given.raises)
      else
        match store.getInvitationByToken token with
        | none => (store, raise (.invitationInvalid "Invalid invitation token"))
        | some invitation => (store, .examining invitation)
  | .examining invitation => (store, examine invitation store.clock)
  | .expiring invitation =>
      if given.raises.isSome then (store, propagate given.raises)
      else
        ((store.updateInvitationStatus invitation.id .expired none).1,
          raise (.invitationExpired "Invitation has expired"))
  | .identifying invitation =>
      match given.raises, store.getUserById roles text userId given.known with
      | some message, _ => (store, propagate (some message))
      | none, none => (store, propagate none)
      | none, some (next, none) => (next, raise (.invitationInvalid "User not found"))
      | none, some (next, some user) =>
          (next, if (user.email.filter (fun address => address ≠ "")).isSome then
            matchEmail normal invitation user.email else .fetchingEmail invitation)
  | .fetchingEmail invitation =>
      if given.raises.isSome then (store, propagate given.raises)
      else (store, matchEmail normal invitation (if given.known then given.email else none))
  | .checkingMember invitation =>
      if given.raises.isSome then (store, propagate given.raises)
      else if (store.getOrgMember invitation.orgId userId).isSome then
        (store, raise (.userAlreadyMember "You are already a member of this organization"))
      else (store, .integrating invitation)
  | .integrating invitation =>
      if given.raises.isSome then (store, raise (.invitationInvalid
        "Failed to set up organization access. Please try again."))
      else (store, .loadingOrg invitation)
  | .loadingOrg invitation =>
      if given.raises.isSome then (store, propagate given.raises)
      else if (store.getOrgById invitation.orgId).isNone then
        (store, raise (.invitationInvalid "Organization not found"))
      else (store, .adding invitation)
  | .adding invitation =>
      match given.raises, store.addUserToOrg roles invitation.orgId userId invitation.roleId with
      | some message, _ => (store, propagate (some message))
      | none, none => (store, propagate none)
      | none, some next => (next.note (.admitted invitation userId), .accepting invitation)
  | .accepting invitation =>
      if given.raises.isSome then (store, propagate given.raises)
      else
        match store.updateInvitationStatus invitation.id .accepted (some userId) with
        | (next, none) =>
            (next, raise (.invitationInvalid "Failed to update invitation status"))
        | (next, some accepted) => (next, .answered (.invitation accepted))
  | phase => (store, phase)

/-! ## create_org_with_owner -/

/-- The next step of the creation of an organisation. -/
def createOrgWithOwner (name : String) (userId : κ) (store : Store κ) (phase : Phase κ)
    (given : Given κ) : Store κ × Phase κ :=
  match phase with
  | .idle =>
      if given.raises.isSome then (store, propagate given.raises)
      else if (store.getOrgByName name).isSome then (store, raise (.orgNameExists name))
      else (store, .founding)
  | .founding =>
      match given.raises, getRoleByName roles roleOwner with
      | some message, _ => (store, raise (.liteLlmIntegration message))
      | none, none => (store, .compensating
          "Failed to create organization: Owner role not found in database")
      | none, some ownerRole => (store, .persisting given.freshId ownerRole)
  | .persisting orgId ownerRole =>
      match given.raises, store.persistOrgWithOwner ⟨orgId, name⟩ userId ownerRole.id with
      | some message, _ => (store, .compensating ("Failed to create organization: " ++ message))
      | none, none => (store, .compensating "Failed to create organization: IntegrityError")
      | none, some next => (next, .answered (.org ⟨orgId, name⟩))
  | .compensating message =>
      (store, raise (.orgDatabase (match given.raises with
        | none => message
        | some failure => message ++ ". Cleanup also failed: " ++ failure)))
  | phase => (store, phase)

/-! ## mark_expired_if_needed -/

/-- The next step of marking an invitation that was read before. -/
def markExpiredIfNeeded (token : String) (store : Store κ) (phase : Phase κ) (given : Given κ) :
    Store κ × Phase κ :=
  match phase with
  | .idle =>
      if given.raises.isSome then (store, propagate given.raises)
      else
        match store.getInvitationByToken token with
        | none => (store, .answered (.marked false))
        | some invitation => (store, .marking invitation)
  | .marking invitation =>
      (store, if invitation.status = .pending && invitation.isTokenExpired store.clock then
        .markingExpired invitation else .answered (.marked false))
  | .markingExpired invitation =>
      if given.raises.isSome then (store, propagate given.raises)
      else ((store.updateInvitationStatus invitation.id .expired none).1, .answered (.marked true))
  | phase => (store, phase)

/-! ## All requests -/

/-- The next step of a request. -/
def act (store : Store κ) (phase : Phase κ) (given : Given κ) : Request κ → Store κ × Phase κ
  | .switchOrg userId orgId => switchOrg userId orgId store phase given
  | .removeOrgMember orgId targetUserId currentUserId =>
      removeOrgMember roles lower text orgId targetUserId currentUserId store phase given
  | .updateOrgMember orgId targetUserId currentUserId role =>
      updateOrgMember roles lower text orgId targetUserId currentUserId role store phase given
  | .deleteOrgWithCleanup userId orgId =>
      deleteOrgWithCleanup roles userId orgId store phase given
  | .createInvitation orgId email roleName inviterId =>
      createInvitation roles lower normal text orgId email roleName inviterId store phase given
  | .acceptInvitation token userId =>
      acceptInvitation roles normal text token userId store phase given
  | .createOrgWithOwner name userId => createOrgWithOwner roles name userId store phase given
  | .markExpiredIfNeeded token => markExpiredIfNeeded token store phase given

variable {ρ : Type} (requests : ρ → Request κ)

/-- Time passes, and a request takes its next step. -/
def move (name : ρ) (store : Store κ) (phase : Phase κ) (given : Given κ) : Store κ × Phase κ :=
  act roles lower normal text (store.tick given.elapsed) phase given (requests name)

/-- Before any request. -/
def initial (store : Store κ) : World (Store κ) ρ (Phase κ) := ⟨store, fun _ => .idle⟩

end ForgePilot.OrgRequests
