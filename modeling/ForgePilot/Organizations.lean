import ForgePilot.OrgMembers
import ForgePilot.Processes

/-!
# Organisations, users and invitations

The tables that the services for organisations work on, and the calls of the stores. A
personal workspace is an organisation with the identifier of its user. A user who is known
only from the settings of an earlier version is migrated when looked up by identifier: the
personal workspace, the user and the membership of its owner are then created together.

A call that a constraint of the database refuses raises, and so has no result here. The rows
of an organisation, a user and a membership carry only what the services ask about them. The table
of roles does not change; the normal form of a mail address, the lower-case form of a text
and the text of an identifier are parameters. Beside its rows the store keeps a journal of
what was done to memberships and invitations.
-/

namespace ForgePilot.Organizations

open OrgMembers List

structure Org (κ : Type) where
  id : κ
  name : String
deriving DecidableEq

structure User (κ : Type) where
  id : κ
  email : Option String
  currentOrgId : κ
deriving DecidableEq

/-- The settings of a user who was not migrated yet. -/
structure UserSettings (κ : Type) where
  keycloakUserId : κ
  email : Option String
deriving DecidableEq

inductive InvitationStatus where
  | pending
  | accepted
  | revoked
  | expired
deriving DecidableEq

structure OrgInvitation (κ : Type) where
  id : Nat
  token : String
  orgId : κ
  email : String
  roleId : Nat
  inviterId : κ
  status : InvitationStatus
  expiresAt : Nat
  acceptedAt : Option Nat
  acceptedByUserId : Option κ
deriving DecidableEq

/-- What was done to a membership or an invitation. -/
inductive Event (κ : Type) where
  | founded (orgId userId : κ)
  | migrated (userId : κ)
  | invited (invitation : OrgInvitation κ)
  | admitted (invitation : OrgInvitation κ) (userId : κ)
  | roleGiven (orgId userId giverId : κ) (roleId : Nat)
  | removed (orgId userId : κ)
  | statusWritten (invitationId : Nat) (earlier later : InvitationStatus)
deriving DecidableEq

/-- The tables, the time, and the journal, latest first. -/
structure Store (κ : Type) where
  clock : Nat
  orgs : List (Org κ)
  users : List (User κ)
  settings : List (UserSettings κ)
  members : κ → List (OrgMember κ)
  invitations : List (OrgInvitation κ)
  journal : List (Event κ)

/-- How long an invitation lasts, in microseconds. -/
def invitationLifetime : Nat := 7 * 24 * 60 * 60 * 1000000

variable {κ : Type} [DecidableEq κ]
variable (roles : List Role) (normal : String → String) (text : κ → String)

namespace Store

/-- Write down what was done. -/
def note (store : Store κ) (event : Event κ) : Store κ :=
  { store with journal := event :: store.journal }

/-- Time passes. -/
def tick (store : Store κ) (elapsed : Nat) : Store κ :=
  { store with clock := store.clock + elapsed }

/-- The members of one organisation become others. -/
def setMembers (store : Store κ) (orgId : κ) (members : List (OrgMember κ)) : Store κ :=
  { store with members := Function.update store.members orgId members }

/-! ## Organisations and users -/

def getOrgById (store : Store κ) (orgId : κ) : Option (Org κ) :=
  store.orgs.find? (fun org => org.id = orgId)

def getOrgByName (store : Store κ) (name : String) : Option (Org κ) :=
  store.orgs.find? (fun org => org.name = name)

def getOrgMember (store : Store κ) (orgId userId : κ) : Option (OrgMember κ) :=
  OrgMembers.getOrgMember (store.members orgId) userId

def findUser (store : Store κ) (userId : κ) : Option (User κ) :=
  store.users.find? (fun user => user.id = userId)

def personalName (userId : κ) : String := "user_" ++ text userId ++ "_org"

/-- Create the personal workspace, the user and the membership of its owner. -/
def migrateUser (store : Store κ) (settings : UserSettings κ) : Option (Store κ × User κ) :=
  let userId := settings.keycloakUserId
  match getRoleByName roles roleOwner with
  | none => none
  | some role =>
      if (store.getOrgById userId).isSome || (store.getOrgByName (personalName text userId)).isSome
      then none
      else
        let user : User κ := ⟨userId, settings.email, userId⟩
        some ({ store.setMembers userId (store.members userId ++ [⟨userId, role.id⟩]) with
          orgs := store.orgs ++ [⟨userId, personalName text userId⟩]
          users := store.users ++ [user]
          settings := store.settings.filter (fun other => other.keycloakUserId ≠ userId)
          journal := .migrated userId :: store.journal }, user)

/-- The user with an identifier, who is migrated where that was not done yet and the identity
provider knows the user. -/
def getUserById (store : Store κ) (userId : κ) (known : Bool) :
    Option (Store κ × Option (User κ)) :=
  match store.findUser userId with
  | some user => some (store, some user)
  | none =>
      match store.settings.find? (fun settings => settings.keycloakUserId = userId) with
      | none => some (store, none)
      | some settings =>
          if known then
            (store.migrateUser roles text settings).map (fun migrated => (migrated.1, some migrated.2))
          else some (store, none)

/-- A user with a mail address. -/
def getUserByEmail (store : Store κ) (email : String) : Option (User κ) :=
  if email = "" then none
  else store.users.find? (fun user => user.email = some (normal email))

def updateCurrentOrg (store : Store κ) (userId orgId : κ) : Option (Store κ × Option (User κ)) :=
  match store.findUser userId with
  | none => some (store, none)
  | some user =>
      if (store.getOrgById orgId).isNone then none
      else some ({ store with
        users := store.users.map (fun other =>
          if other.id = userId then { other with currentOrgId := orgId } else other) },
        some { user with currentOrgId := orgId })

/-- Add a member; the organisation, the user and the role exist, and there is no such member. -/
def addUserToOrg (store : Store κ) (orgId userId : κ) (roleId : Nat) : Option (Store κ) :=
  if (store.getOrgById orgId).isNone || (store.findUser userId).isNone ||
      (getRoleById roles roleId).isNone || (store.getOrgMember orgId userId).isSome then none
  else some (store.setMembers orgId (store.members orgId ++ [⟨userId, roleId⟩]))

def persistOrgWithOwner (store : Store κ) (org : Org κ) (userId : κ) (roleId : Nat) :
    Option (Store κ) :=
  if (store.getOrgById org.id).isSome || (store.getOrgByName org.name).isSome ||
      (store.findUser userId).isNone then none
  else some ({ store.setMembers org.id (store.members org.id ++ [⟨userId, roleId⟩]) with
    orgs := store.orgs ++ [org]
    journal := .founded org.id userId :: store.journal })

/-- The other organisations of a user. -/
def alternatives (store : Store κ) (orgId userId : κ) : List κ :=
  (store.orgs.filter (fun org =>
    decide (org.id ≠ orgId) && (store.getOrgMember org.id userId).isSome)).map Org.id

/-- The current organisation of a user of a deleted organisation: one of the user's others. -/
def reassign (store : Store κ) (orgId : κ) (choice : κ → κ) (user : User κ) : User κ :=
  if user.currentOrgId = orgId then
    { user with currentOrgId :=
        if choice user.id ∈ store.alternatives orgId user.id then choice user.id
        else (store.alternatives orgId user.id).headD user.currentOrgId }
  else user

/-- The users who would be left without an organisation. -/
def orphaned (store : Store κ) (orgId : κ) : List κ :=
  (store.users.filter (fun user =>
    decide (user.currentOrgId = orgId) && (store.alternatives orgId user.id).isEmpty)).map User.id

/-- Delete what belongs to an organisation. The deletion of its own row is not awaited and so
does not happen. -/
def deleteOrgCascade (store : Store κ) (orgId : κ) (choice : κ → κ) :
    Except String (Store κ × Option (Org κ)) :=
  match store.getOrgById orgId with
  | none => .ok (store, none)
  | some org =>
      match store.orphaned orgId with
      | [] => .ok ({ store.setMembers orgId [] with
          users := store.users.map (store.reassign orgId choice) }, some org)
      | userIds => .error ("Cannot delete organization: " ++ toString userIds.length ++
          " user(s) would have no remaining organization")

/-! ## Invitations -/

/-- The identifier of the next invitation, greater than every one that was given. -/
def nextInvitationId (store : Store κ) : Nat :=
  (store.invitations.map OrgInvitation.id).foldr max 0 + 1

/-- Create an invitation; its token is new. -/
def createInvitation (store : Store κ) (orgId : κ) (email : String) (roleId : Nat) (inviterId : κ)
    (token : String) : Option (Store κ × OrgInvitation κ) :=
  if store.invitations.any (fun other => other.token = token) then none
  else
    let invitation : OrgInvitation κ := {
      id := store.nextInvitationId
      token
      orgId
      email := normal email
      roleId
      inviterId
      status := .pending
      expiresAt := store.clock + invitationLifetime
      acceptedAt := none
      acceptedByUserId := none }
    some ({ store with invitations := store.invitations ++ [invitation] }.note
      (.invited invitation), invitation)

def getInvitationByToken (store : Store κ) (token : String) : Option (OrgInvitation κ) :=
  store.invitations.find? (fun invitation => invitation.token = token)

def getInvitation (store : Store κ) (id : Nat) : Option (OrgInvitation κ) :=
  store.invitations.find? (fun invitation => invitation.id = id)

/-- Write the status of an invitation, whatever it was. -/
def updateInvitationStatus (store : Store κ) (id : Nat) (status : InvitationStatus)
    (acceptedByUserId : Option κ) : Store κ × Option (OrgInvitation κ) :=
  match store.getInvitation id with
  | none => (store, none)
  | some invitation =>
      let written : OrgInvitation κ :=
        if status = .accepted && acceptedByUserId.isSome then
          { invitation with status, acceptedAt := some store.clock, acceptedByUserId }
        else { invitation with status }
      ({ store with
          invitations := store.invitations.map (fun (other : OrgInvitation κ) =>
            if other.id = id then written else other) }.note
        (.statusWritten id invitation.status status), some written)

end Store

def OrgInvitation.isTokenExpired (invitation : OrgInvitation κ) (now : Nat) : Bool :=
  invitation.expiresAt < now

/-! ## Memberships -/

variable (store : Store κ)

/-- A membership after the members of one organisation have become others. -/
theorem get_member_set (changed : κ) (members : List (OrgMember κ)) (orgId userId : κ) :
    (store.setMembers changed members).getOrgMember orgId userId =
      if orgId = changed then OrgMembers.getOrgMember members userId
      else store.getOrgMember orgId userId := by
  rw [Store.getOrgMember, Store.setMembers]
  dsimp only
  by_cases same : orgId = changed
  · subst same
    simp
  · rw [Function.update_of_ne same, if_neg same, Store.getOrgMember]

variable (next : Store κ) (orgId userId targetUserId : κ)

/-- A membership after a member has been removed. -/
theorem get_member_remove (other userId : κ) : (store.setMembers orgId
        (removeUserFromOrg (store.members orgId) targetUserId)).getOrgMember other userId =
      if other = orgId ∧ userId = targetUserId then none else store.getOrgMember other userId := by
  rw [get_member_set]
  by_cases here : other = orgId
  · subst here
    rw [if_pos rfl, OrgMembers.getOrgMember, removeUserFromOrg, find?_filter]
    by_cases named : userId = targetUserId
    · subst named
      rw [if_pos ⟨rfl, rfl⟩]
      exact find?_eq_none.mpr fun member _ => by simp
    · rw [if_neg fun both => named both.2, Store.getOrgMember, OrgMembers.getOrgMember]
      congr 1
      funext member
      by_cases same : member.userId = userId <;> simp [same, named]
  · rw [if_neg here, if_neg fun both => here both.1]

/-- A membership after a role has been written. -/
theorem get_member_update_role (roleId : Nat) (other userId : κ) : (store.setMembers orgId
        (updateUserRoleInOrg (store.members orgId) targetUserId roleId)).getOrgMember other userId =
      if other = orgId ∧ userId = targetUserId then
        (store.getOrgMember other userId).map (fun member => { member with roleId })
      else store.getOrgMember other userId := by
  rw [get_member_set]
  by_cases here : other = orgId
  · subst here
    rw [if_pos rfl, OrgMembers.getOrgMember, updateUserRoleInOrg, find?_map]
    have same : (fun member : OrgMember κ => decide (member.userId = userId)) ∘ (fun member =>
        if member.userId = targetUserId then { member with roleId } else member) =
        fun member => decide (member.userId = userId) := by
      funext member
      by_cases named : member.userId = targetUserId <;> simp [named]
    rw [same, Store.getOrgMember, OrgMembers.getOrgMember]
    by_cases named : userId = targetUserId
    · subst named
      rw [if_pos ⟨rfl, rfl⟩]
      refine Option.map_congr fun member found => ?_
      rw [if_pos (by simpa using find?_some found)]
    · rw [if_neg fun both => named both.2]
      refine (Option.map_congr fun member found => ?_).trans Option.map_id'
      have is : member.userId = userId := by simpa using find?_some found
      rw [if_neg (by rw [is]; exact named)]
  · rw [if_neg here, if_neg fun both => here both.1]

/-- A membership after a member has been added. -/
theorem get_member_append (added : κ) (roleId : Nat) (other userId : κ) :
    (store.setMembers orgId (store.members orgId ++ [⟨added, roleId⟩])).getOrgMember other userId =
      (store.getOrgMember other userId).or
        (if other = orgId ∧ userId = added then some ⟨added, roleId⟩ else none) := by
  rw [get_member_set]
  by_cases here : other = orgId
  · subst here
    rw [if_pos rfl, OrgMembers.getOrgMember, find?_append, Store.getOrgMember,
      OrgMembers.getOrgMember]
    congr 1
    by_cases named : userId = added
    · subst named
      simp
    · have apart : ¬ added = userId := fun same => named same.symm
      simp [named, apart]
  · rw [if_neg here, if_neg fun both => here both.1, Option.or_none]

/-! ## Belonging -/

def Belongs (store : Store κ) (orgId userId : κ) : Prop :=
  (store.getOrgMember orgId userId).isSome = true

instance (store : Store κ) (orgId userId : κ) : Decidable (Belongs store orgId userId) :=
  inferInstanceAs (Decidable (_ = true))

/-- Belonging is having a row among the members. -/
theorem belongs_iff :
    Belongs store orgId userId ↔ ∃ member ∈ store.members orgId, member.userId = userId := by
  rw [Belongs, Store.getOrgMember, OrgMembers.getOrgMember, find?_isSome]
  simp

/-- Belonging after the members of one organisation have become others. -/
theorem belongs_set_members (changed : κ) (members : List (OrgMember κ)) (orgId userId : κ) :
    Belongs (store.setMembers changed members) orgId userId ↔
      if orgId = changed then ∃ member ∈ members, member.userId = userId
      else Belongs store orgId userId := by
  rw [belongs_iff, Store.setMembers]
  dsimp only
  by_cases same : orgId = changed
  · subst same
    simp
  · rw [Function.update_of_ne same, if_neg same, belongs_iff]

/-- An organisation that is found by its identifier is in the table. -/
theorem org_found_iff :
    (store.getOrgById orgId).isSome = true ↔ ∃ org ∈ store.orgs, org.id = orgId := by
  rw [Store.getOrgById, find?_isSome]
  simp

/-- A user who is found by an identifier is in the table. -/
theorem user_found_iff :
    (store.findUser userId).isSome = true ↔ ∃ user ∈ store.users, user.id = userId := by
  rw [Store.findUser, find?_isSome]
  simp

/-- A user who is found by an identifier is in the table and has it. -/
theorem find_user_some {store : Store κ} {userId : κ} {user : User κ}
    (found : store.findUser userId = some user) : user ∈ store.users ∧ user.id = userId :=
  ⟨mem_of_find?_eq_some found, by simpa using find?_some found⟩

/-- A user who is not found by an identifier is not in the table. -/
theorem find_user_none {store : Store κ} {userId : κ} (missing : store.findUser userId = none) :
    ∀ user ∈ store.users, user.id ≠ userId := by
  intro user member same
  have apart := find?_eq_none.mp missing user member
  simp [same] at apart

/-- Belonging after a member has been removed. -/
theorem belongs_remove (other userId : κ) :
    Belongs (store.setMembers orgId (removeUserFromOrg (store.members orgId) targetUserId))
        other userId ↔
      Belongs store other userId ∧ ¬ (other = orgId ∧ userId = targetUserId) := by
  rw [Belongs, get_member_remove]
  split
  case isTrue gone => simp [gone]
  case isFalse stays => simp [Belongs, stays]

/-- Belonging after a role has been written. -/
theorem belongs_update_role (roleId : Nat) (other userId : κ) : Belongs (store.setMembers orgId
        (updateUserRoleInOrg (store.members orgId) targetUserId roleId)) other userId ↔
      Belongs store other userId := by
  rw [Belongs, get_member_update_role]
  split <;> simp [Belongs]

/-- Belonging after a member has been added. -/
theorem belongs_append (added : κ) (roleId : Nat) (other userId : κ) :
    Belongs (store.setMembers orgId (store.members orgId ++ [⟨added, roleId⟩])) other userId ↔
      Belongs store other userId ∨ (other = orgId ∧ userId = added) := by
  rw [Belongs, get_member_append, Option.isSome_or, Bool.or_eq_true]
  split
  case isTrue new => simp [Belongs, new]
  case isFalse old => simp [Belongs, old]

/-! ## What the calls write -/

theorem update_current_org_tables {orgId : κ} {found : Option (User κ)}
    (updated : store.updateCurrentOrg userId orgId = some (next, found)) :
    next.users = store.users.map (fun other =>
        if other.id = userId then { other with currentOrgId := orgId } else other) ∧
      next.members = store.members ∧ next.orgs = store.orgs ∧
      next.invitations = store.invitations ∧ next.journal = store.journal ∧
      next.clock = store.clock := by
  unfold Store.updateCurrentOrg at updated
  split at updated
  case h_1 missing =>
    cases updated
    refine ⟨?_, rfl, rfl, rfl, rfl, rfl⟩
    have unchanged : store.users.map (fun other =>
        if other.id = userId then { other with currentOrgId := orgId } else other) =
        store.users.map id :=
      map_congr_left fun user member => if_neg (find_user_none missing _ member)
    rw [unchanged, map_id]
  case h_2 user present =>
    split at updated
    case isTrue => cases updated
    case isFalse =>
      cases updated
      exact ⟨rfl, rfl, rfl, rfl, rfl, rfl⟩

theorem migrate_user_tables {settings : UserSettings κ} (user : User κ)
    (migrates : store.migrateUser roles text settings = some (next, user)) :
    store.getOrgById settings.keycloakUserId = none ∧
      user = ⟨settings.keycloakUserId, settings.email, settings.keycloakUserId⟩ ∧
      ∃ role, getRoleByName roles roleOwner = some role ∧
        next = { store.setMembers settings.keycloakUserId
            (store.members settings.keycloakUserId ++ [⟨settings.keycloakUserId, role.id⟩]) with
          orgs := store.orgs ++
            [⟨settings.keycloakUserId, Store.personalName text settings.keycloakUserId⟩]
          users := store.users ++ [user]
          settings := store.settings.filter
            (fun other => other.keycloakUserId ≠ settings.keycloakUserId)
          journal := .migrated settings.keycloakUserId :: store.journal } := by
  unfold Store.migrateUser at migrates
  split at migrates
  case h_1 => cases migrates
  case h_2 role named =>
    dsimp only at migrates
    split at migrates
    case isTrue => cases migrates
    case isFalse free =>
      cases migrates
      simp only [Bool.or_eq_true, not_or] at free
      exact ⟨by simpa using free.1, rfl, role, named, rfl⟩

theorem add_user_to_org_tables {roleId : Nat}
    (adds : store.addUserToOrg roles orgId userId roleId = some next) :
    (store.getOrgById orgId).isSome = true ∧ (store.findUser userId).isSome = true ∧
      ¬ Belongs store orgId userId ∧
      next = store.setMembers orgId (store.members orgId ++ [⟨userId, roleId⟩]) := by
  unfold Store.addUserToOrg at adds
  split at adds
  case isTrue => cases adds
  case isFalse allowed =>
    cases adds
    simp only [Bool.or_eq_true, not_or] at allowed
    exact ⟨Option.isSome_iff_ne_none.mpr (by simpa using allowed.1.1.1),
      Option.isSome_iff_ne_none.mpr (by simpa using allowed.1.1.2), by
      simpa [Belongs] using allowed.2, rfl⟩

theorem persist_org_with_owner_tables {store next : Store κ} {org : Org κ} {userId : κ}
    {roleId : Nat} (persists : store.persistOrgWithOwner org userId roleId = some next) :
    store.getOrgById org.id = none ∧ (store.findUser userId).isSome = true ∧
      next = { store.setMembers org.id (store.members org.id ++ [⟨userId, roleId⟩]) with
        orgs := store.orgs ++ [org]
        journal := .founded org.id userId :: store.journal } := by
  unfold Store.persistOrgWithOwner at persists
  split at persists
  case isTrue => cases persists
  case isFalse free =>
    cases persists
    simp only [Bool.or_eq_true, not_or] at free
    exact ⟨by simpa using free.1.1, Option.isSome_iff_ne_none.mpr (by simpa using free.2), rfl⟩

theorem create_invitation_tables {email : String} {roleId : Nat} {inviterId : κ} {token : String}
    {invite : OrgInvitation κ}
    (creates : store.createInvitation normal orgId email roleId inviterId token =
      some (next, invite)) :
    next = { store with invitations := store.invitations ++ [invite] }.note (.invited invite) ∧
      invite = ⟨store.nextInvitationId, token, orgId, normal email, roleId, inviterId, .pending,
        store.clock + invitationLifetime, none, none⟩ := by
  unfold Store.createInvitation at creates
  split at creates
  case isTrue => cases creates
  case isFalse =>
    cases creates
    exact ⟨rfl, rfl⟩

theorem update_invitation_status_tables (id : Nat) (status : InvitationStatus)
    (acceptedBy : Option κ) :
    (store.updateInvitationStatus id status acceptedBy).1 = store ∨
      ∃ earlier invitations, (store.updateInvitationStatus id status acceptedBy).1 =
        { store with invitations }.note (.statusWritten id earlier status) := by
  unfold Store.updateInvitationStatus
  split
  · exact .inl rfl
  · exact .inr ⟨_, _, rfl⟩

theorem delete_org_cascade_tables {store next : Store κ} {orgId : κ} {choice : κ → κ}
    {deleted : Option (Org κ)} (cascades : store.deleteOrgCascade orgId choice = .ok (next, deleted)) :
    next = store ∨ (store.orphaned orgId = [] ∧ next = { store.setMembers orgId [] with
        users := store.users.map (store.reassign orgId choice) }) := by
  unfold Store.deleteOrgCascade at cascades
  split at cascades
  case h_1 =>
    cases cascades
    exact .inl rfl
  case h_2 org _ =>
    split at cascades
    case h_2 => cases cascades
    case h_1 nobody =>
      cases cascades
      exact .inr ⟨nobody, rfl⟩

end ForgePilot.Organizations
