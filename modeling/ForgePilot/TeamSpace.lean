import ForgePilot.OrderedDict
import ForgePilot.Runs

/-!
# Team spaces and their owners

The in-memory registry of team spaces, with the permission guard that every
membership operation consults. An operation is a function of the registry that
returns its result or the exception it raises together with the registry it
leaves behind, so that a mutation before a raise would be visible.

Ownership is fixed at creation: the owner is inserted as a member and no later
operation may grant the owner role. Removal and role changes refuse the owner as
a target. Adding a member does not: an administrator who adds the owner again
overwrites the owner's entry with a lesser role. The last section states exactly
which runs of the registry keep every space in its owner's hands.
-/

namespace ForgePilot.TeamSpaces

open Runs OrderedDict

/-- The roles a member of a space can hold. -/
inductive SpaceRole where
  | owner | admin | member | viewer
deriving DecidableEq

/-- The kinds of space a caller can ask for. -/
inductive SpaceType where
  | personal | team | sharedTemplate
deriving DecidableEq

/-- How a role is printed in an error message. -/
def SpaceRole.text : SpaceRole → String
  | .owner => "SpaceRole.OWNER"
  | .admin => "SpaceRole.ADMIN"
  | .member => "SpaceRole.MEMBER"
  | .viewer => "SpaceRole.VIEWER"

/-- The roles that hold each permission. -/
def permissionMatrix : OrderedDict String (List SpaceRole) where
  entries := [
    ("space:read", [.viewer, .member, .admin, .owner]),
    ("space:write", [.member, .admin, .owner]),
    ("space:manage", [.admin, .owner]),
    ("space:delete", [.owner]),
    ("task:create", [.member, .admin, .owner]),
    ("task:read", [.viewer, .member, .admin, .owner]),
    ("task:manage", [.admin, .owner]),
    ("template:read", [.viewer, .member, .admin, .owner]),
    ("template:write", [.admin, .owner]),
    ("audit:read", [.member, .admin, .owner]),
    ("billing:read", [.admin, .owner]),
    ("billing:manage", [.owner])]
  distinct := by decide

/-- One membership; times are readings of the clock. -/
structure SpaceMember where
  userId : String
  role : SpaceRole
  joinedAt : Nat
deriving DecidableEq

/-- A space with its fixed owner and its current members. -/
structure TeamSpace where
  spaceId : String
  name : String
  spaceType : SpaceType
  ownerId : String
  members : OrderedDict String SpaceMember
  createdAt : Nat

/-- The validator run after construction inserts a missing owner as a member. -/
def ensureOwnerIsMember (space : TeamSpace) : TeamSpace :=
  match space.members.get space.ownerId with
  | some _ => space
  | none =>
      { space with
        members := space.members.set space.ownerId
          ⟨space.ownerId, .owner, space.createdAt⟩ }

/-- The exceptions the registry raises, with their messages. -/
inductive SpaceError where
  | valueError (message : String)
  | permissionError (message : String)
deriving DecidableEq

/-- The role a user holds in a space, when the user is a member. -/
def getRole (space : TeamSpace) (userId : String) : Option SpaceRole :=
  (space.members.get userId).map SpaceMember.role

/-- Whether a user's role is among those allowed; unknown permissions allow none. -/
def can (space : TeamSpace) (userId permission : String) : Bool :=
  match getRole space userId with
  | none => false
  | some role => ((permissionMatrix.get permission).getD []).contains role

/-- Raise unless the user holds the permission in the space. -/
def require (space : TeamSpace) (userId permission : String) :
    Except SpaceError Unit :=
  if can space userId permission then .ok ()
  else
    .error (.permissionError
      ("User " ++ userId ++ " (role=" ++ ((getRole space userId).map SpaceRole.text).getD "None" ++
        ") lacks permission " ++ permission ++ " in space " ++ space.spaceId))

/-- The registry maps space ids to spaces. -/
abbrev SpaceRegistry := OrderedDict String TeamSpace

def getSpaceOrRaise (registry : SpaceRegistry) (spaceId : String) : Except SpaceError TeamSpace :=
  match registry.get spaceId with
  | some space => .ok space
  | none => .error (.valueError ("Space " ++ spaceId ++ " not found"))

/-- Create a space under an unused id. -/
def createSpace (registry : SpaceRegistry) (spaceId name ownerId : String)
    (spaceType : SpaceType) (now : Nat) : Except SpaceError TeamSpace × SpaceRegistry :=
  match registry.get spaceId with
  | some _ => (.error (.valueError ("Space " ++ spaceId ++ " already exists")), registry)
  | none =>
      let space := ensureOwnerIsMember ⟨spaceId, name, spaceType, ownerId, .empty, now⟩
      (.ok space, registry.set spaceId space)

/-- Add a member, or replace the membership of a user who already has one. -/
def addMember (registry : SpaceRegistry) (spaceId userId : String) (role : SpaceRole)
    (actorId : String) (now : Nat) : Except SpaceError Unit × SpaceRegistry :=
  match getSpaceOrRaise registry spaceId with
  | .error raised => (.error raised, registry)
  | .ok space =>
    match require space actorId "space:manage" with
    | .error raised => (.error raised, registry)
    | .ok _ =>
      if role = .owner then
        (.error (.permissionError "OWNER role is fixed at space creation and cannot be granted"),
          registry)
      else
        (.ok (), registry.set spaceId
          { space with members := space.members.set userId ⟨userId, role, now⟩ })

/-- Remove a member other than the owner; removing a stranger changes nothing. -/
def removeMember (registry : SpaceRegistry) (spaceId userId actorId : String) :
    Except SpaceError Unit × SpaceRegistry :=
  match getSpaceOrRaise registry spaceId with
  | .error raised => (.error raised, registry)
  | .ok space =>
    match require space actorId "space:manage" with
    | .error raised => (.error raised, registry)
    | .ok _ =>
      if userId = space.ownerId then
        (.error (.permissionError "Cannot remove the space owner"), registry)
      else
        (.ok (), registry.set spaceId { space with members := space.members.erase userId })

/-- Change the role of a member other than the owner. -/
def changeRole (registry : SpaceRegistry) (spaceId userId : String) (newRole : SpaceRole)
    (actorId : String) : Except SpaceError Unit × SpaceRegistry :=
  match getSpaceOrRaise registry spaceId with
  | .error raised => (.error raised, registry)
  | .ok space =>
    match require space actorId "space:manage" with
    | .error raised => (.error raised, registry)
    | .ok _ =>
      match space.members.get userId with
      | none => (.error (.valueError ("User " ++ userId ++ " is not a member")), registry)
      | some found =>
        if userId = space.ownerId then
          (.error (.permissionError "Cannot change the space owner role"), registry)
        else if newRole = .owner then
          (.error (.permissionError
            "OWNER role is fixed at space creation and cannot be granted"), registry)
        else
          (.ok (), registry.set spaceId
            { space with members := space.members.set userId { found with role := newRole } })

/-- One call on the registry with its arguments. -/
inductive Operation where
  | createSpace (spaceId name ownerId : String) (spaceType : SpaceType) (now : Nat)
  | addMember (spaceId userId : String) (role : SpaceRole) (actorId : String) (now : Nat)
  | removeMember (spaceId userId actorId : String)
  | changeRole (spaceId userId : String) (newRole : SpaceRole) (actorId : String)

/-- Perform one call; the returned space of a creation is not kept. -/
def perform (registry : SpaceRegistry) : Operation → Except SpaceError Unit × SpaceRegistry
  | .createSpace spaceId name ownerId spaceType now =>
      let outcome := createSpace registry spaceId name ownerId spaceType now
      (outcome.1.map (fun _ => ()), outcome.2)
  | .addMember spaceId userId role actorId now =>
      addMember registry spaceId userId role actorId now
  | .removeMember spaceId userId actorId => removeMember registry spaceId userId actorId
  | .changeRole spaceId userId newRole actorId =>
      changeRole registry spaceId userId newRole actorId

/-- The registry a call leaves behind. -/
def step (registry : SpaceRegistry) (operation : Operation) : SpaceRegistry :=
  (perform registry operation).2

/-- The space and the actor a membership call names. -/
def Operation.managed : Operation → Option (String × String)
  | .createSpace .. => none
  | .addMember spaceId _ _ actorId _ => some (spaceId, actorId)
  | .removeMember spaceId _ actorId => some (spaceId, actorId)
  | .changeRole spaceId _ _ actorId => some (spaceId, actorId)

/-- Everything a successful call can do: the space id it assigns and the space
it stores there. The guards are those the call has checked before. -/
inductive Succeeds (registry : SpaceRegistry) : Operation → String → TeamSpace → Prop where
  | created {spaceId name ownerId : String} {spaceType : SpaceType} {now : Nat}
      (unused : registry.get spaceId = none) :
      Succeeds registry (.createSpace spaceId name ownerId spaceType now) spaceId
        (ensureOwnerIsMember ⟨spaceId, name, spaceType, ownerId, .empty, now⟩)
  | added {spaceId userId actorId : String} {role : SpaceRole} {now : Nat} {space : TeamSpace}
      (found : registry.get spaceId = some space)
      (allowed : can space actorId "space:manage" = true) (granted : role ≠ .owner) :
      Succeeds registry (.addMember spaceId userId role actorId now) spaceId
        { space with members := space.members.set userId ⟨userId, role, now⟩ }
  | removed {spaceId userId actorId : String} {space : TeamSpace}
      (found : registry.get spaceId = some space)
      (allowed : can space actorId "space:manage" = true) (other : userId ≠ space.ownerId) :
      Succeeds registry (.removeMember spaceId userId actorId) spaceId
        { space with members := space.members.erase userId }
  | changed {spaceId userId actorId : String} {newRole : SpaceRole} {space : TeamSpace}
      {present : SpaceMember} (found : registry.get spaceId = some space)
      (allowed : can space actorId "space:manage" = true)
      (isMember : space.members.get userId = some present)
      (other : userId ≠ space.ownerId) (granted : newRole ≠ .owner) :
      Succeeds registry (.changeRole spaceId userId newRole actorId) spaceId
        { space with members := space.members.set userId { present with role := newRole } }

variable (registry : SpaceRegistry) (op : Operation) (spaceId : String)

variable (name ownerId : String) (spaceType : SpaceType) (now : Nat)

/-- Creating a space raises for a used id and otherwise stores the new space. -/
theorem create_space_cases :
    (∃ raised, perform registry (.createSpace spaceId name ownerId spaceType now) =
        (.error raised, registry)) ∨
      ∃ space, perform registry (.createSpace spaceId name ownerId spaceType now) =
          (.ok (), registry.set spaceId space) ∧
        Succeeds registry (.createSpace spaceId name ownerId spaceType now) spaceId space := by
  cases unused : registry.get spaceId with
  | some space =>
    simp only [perform, createSpace, unused]
    exact .inl ⟨_, rfl⟩
  | none =>
    refine .inr ⟨_, ?_, .created unused⟩
    simp only [perform, createSpace, unused]
    rfl

variable (space : TeamSpace) (userId : String)

/-- Adding a member raises without a space, a permission or a grantable role. -/
theorem add_member_cases (role : SpaceRole) (actorId : String) (now : Nat) :
    (∃ raised, perform registry (.addMember spaceId userId role actorId now) =
        (.error raised, registry)) ∨
      ∃ space, perform registry (.addMember spaceId userId role actorId now) =
          (.ok (), registry.set spaceId space) ∧
        Succeeds registry (.addMember spaceId userId role actorId now) spaceId space := by
  cases found : registry.get spaceId with
  | none =>
    simp only [perform, addMember, getSpaceOrRaise, found]
    exact .inl ⟨_, rfl⟩
  | some space =>
    by_cases allowed : can space actorId "space:manage" = true
    · by_cases granted : role = .owner
      · simp only [perform, addMember, getSpaceOrRaise, found, require, allowed, granted, if_true]
        exact .inl ⟨_, rfl⟩
      · refine .inr ⟨_, ?_, .added found allowed granted⟩
        simp [perform, addMember, getSpaceOrRaise, found, require, allowed, granted]
    · simp only [perform, addMember, getSpaceOrRaise, found, require, allowed]
      exact .inl ⟨_, rfl⟩

/-- Removing a member raises without a space or a permission, and for the owner. -/
theorem remove_member_cases (actorId : String) :
    (∃ raised, perform registry (.removeMember spaceId userId actorId) =
        (.error raised, registry)) ∨
      ∃ space, perform registry (.removeMember spaceId userId actorId) =
          (.ok (), registry.set spaceId space) ∧
        Succeeds registry (.removeMember spaceId userId actorId) spaceId space := by
  cases found : registry.get spaceId with
  | none =>
    simp only [perform, removeMember, getSpaceOrRaise, found]
    exact .inl ⟨_, rfl⟩
  | some space =>
    by_cases allowed : can space actorId "space:manage" = true
    · by_cases other : userId = space.ownerId
      · simp only [perform, removeMember, getSpaceOrRaise, found, require, allowed, other, if_true]
        exact .inl ⟨_, rfl⟩
      · refine .inr ⟨_, ?_, .removed found allowed other⟩
        simp [perform, removeMember, getSpaceOrRaise, found, require, allowed, other]
    · simp only [perform, removeMember, getSpaceOrRaise, found, require, allowed]
      exact .inl ⟨_, rfl⟩

/-- Changing a role raises without a space, a permission or a member, for the
owner as target and for the owner role as grant. -/
theorem change_role_cases (newRole : SpaceRole) (actorId : String) :
    (∃ raised, perform registry (.changeRole spaceId userId newRole actorId) =
        (.error raised, registry)) ∨
      ∃ space, perform registry (.changeRole spaceId userId newRole actorId) =
          (.ok (), registry.set spaceId space) ∧
        Succeeds registry (.changeRole spaceId userId newRole actorId) spaceId space := by
  cases found : registry.get spaceId with
  | none =>
    simp only [perform, changeRole, getSpaceOrRaise, found]
    exact .inl ⟨_, rfl⟩
  | some space =>
    by_cases allowed : can space actorId "space:manage" = true
    · cases isMember : space.members.get userId with
      | none =>
        simp only [perform, changeRole, getSpaceOrRaise, found, require, allowed, isMember, if_true]
        exact .inl ⟨_, rfl⟩
      | some present =>
        by_cases other : userId = space.ownerId
        · subst userId
          simp only [perform, changeRole, getSpaceOrRaise, found, require, allowed,
            isMember, if_true]
          exact .inl ⟨_, rfl⟩
        · by_cases granted : newRole = .owner
          · simp only [perform, changeRole, getSpaceOrRaise, found, require, allowed,
              isMember, other, granted, if_true, if_false]
            exact .inl ⟨_, rfl⟩
          · refine .inr ⟨_, ?_, .changed found allowed isMember other granted⟩
            simp [perform, changeRole, getSpaceOrRaise, found, require, allowed, isMember, other, granted]
    · simp only [perform, changeRole, getSpaceOrRaise, found, require, allowed]
      exact .inl ⟨_, rfl⟩

/-- A call either raises and leaves the registry as it was, or succeeds and
assigns one space. Later proofs use this instead of the four bodies. -/
theorem perform_cases : (∃ raised, perform registry op = (.error raised, registry)) ∨
      ∃ spaceId space, perform registry op = (.ok (), registry.set spaceId space) ∧
        Succeeds registry op spaceId space := by
  cases op with
  | createSpace spaceId name ownerId spaceType now =>
    exact (create_space_cases ..).imp id
      (fun succeeded => ⟨spaceId, succeeded⟩)
  | addMember spaceId userId role actorId now =>
    exact (add_member_cases ..).imp id
      (fun succeeded => ⟨spaceId, succeeded⟩)
  | removeMember spaceId userId actorId =>
    exact (remove_member_cases ..).imp id
      (fun succeeded => ⟨spaceId, succeeded⟩)
  | changeRole spaceId userId newRole actorId =>
    exact (change_role_cases ..).imp id
      (fun succeeded => ⟨spaceId, succeeded⟩)

/-- The owner is a member with the owner role, and nobody else holds that role. -/
def SoleOwner (space : TeamSpace) : Prop :=
  getRole space space.ownerId = some .owner ∧
    ∀ userId, getRole space userId = some .owner → userId = space.ownerId

/-- Every registered space is in the hands of its owner alone. -/
def OwnershipHolds (registry : SpaceRegistry) : Prop :=
  ∀ spaceId space, registry.get spaceId = some space → SoleOwner space

/-- An authorised call that adds the owner of the space again under a lesser role. -/
def OverwritesOwner (registry : SpaceRegistry) : Operation → Prop
  | .addMember spaceId userId role actorId _ =>
      ∃ space, registry.get spaceId = some space ∧
        can space actorId "space:manage" = true ∧ role ≠ .owner ∧ userId = space.ownerId
  | _ => False

/-- Assigning one space keeps ownership exactly when the assigned space has it. -/
theorem ownership_set (holds : OwnershipHolds registry) :
    OwnershipHolds (registry.set spaceId space) ↔ SoleOwner space := by
  constructor
  · intro after
    exact after spaceId space (by simp)
  · intro sole otherId other found
    rw [get_set] at found
    split at found
    · exact Option.some.inj found ▸ sole
    · exact holds otherId other found

/-- A new space belongs to its owner alone: the validator inserts the owner as
its only member. -/
theorem created_sole_owner :
    SoleOwner (ensureOwnerIsMember ⟨spaceId, name, spaceType, ownerId, .empty, now⟩) := by
  constructor
  · simp [ensureOwnerIsMember, getRole]
  · intro userId role
    simp only [ensureOwnerIsMember, getRole, get_empty, get_set] at role ⊢
    by_contra different
    rw [if_neg different] at role
    cases role

/-- Writing a membership without the owner role keeps sole ownership exactly
when the written member is not the owner. -/
theorem member_set_sole_owner {entry : SpaceMember} (sole : SoleOwner space)
    (granted : entry.role ≠ .owner) :
    SoleOwner { space with members := space.members.set userId entry } ↔
      userId ≠ space.ownerId := by
  constructor
  · rintro ⟨ownerRole, _⟩ rfl
    simp only [getRole, get_set, if_true, Option.map_some, Option.some.injEq]
      at ownerRole
    exact granted ownerRole
  · intro other
    constructor
    · simpa [getRole, get_set, Ne.symm other] using sole.1
    · intro candidate role
      by_cases written : candidate = userId
      · subst candidate
        simp only [getRole, get_set, if_true, Option.map_some, Option.some.injEq]
          at role
        exact absurd role granted
      · apply sole.2 candidate
        simpa [getRole, get_set, written] using role

/-- Deleting a membership other than the owner's keeps sole ownership. -/
theorem member_erase_sole_owner (sole : SoleOwner space) (other : userId ≠ space.ownerId) :
    SoleOwner { space with members := space.members.erase userId } := by
  constructor
  · simpa [getRole, get_erase, Ne.symm other] using sole.1
  · intro candidate role
    by_cases deleted : candidate = userId
    · subst candidate
      simp [getRole, get_erase] at role
    · apply sole.2 candidate
      simpa [getRole, get_erase, deleted] using role

/-- Overwriting the owner passes every check of the call, so it succeeds. -/
theorem overwrites_owner_succeeds (overwrites : OverwritesOwner registry op) :
    (perform registry op).1 = .ok () := by
  cases op with
  | addMember spaceId userId role actorId now =>
    obtain ⟨space, found, allowed, granted, _⟩ := overwrites
    simp [perform, addMember, getSpaceOrRaise, found, require, allowed, granted]
  | createSpace | removeMember | changeRole => exact overwrites.elim

/-- One call keeps ownership exactly when it does not overwrite the owner.
Raising calls change nothing; of the successful ones only an added member can
replace the owner's own entry. -/
theorem step_ownership_exact (holds : OwnershipHolds registry) :
    ¬ OverwritesOwner registry op ↔ OwnershipHolds (step registry op) := by
  rcases perform_cases .. with ⟨raised, result⟩ | ⟨spaceId, after, result, succeeds⟩
  · have unchanged : step registry op = registry := congrArg Prod.snd result
    rw [unchanged]
    refine ⟨fun _ => holds, fun _ overwrites => ?_⟩
    have succeeded := overwrites_owner_succeeds _ op overwrites
    rw [result] at succeeded
    cases succeeded
  · have assigned : step registry op = registry.set spaceId after := congrArg Prod.snd result
    rw [assigned, ownership_set _ _ _ holds]
    cases succeeds with
    | created unused =>
      simp only [OverwritesOwner, not_false_eq_true, true_iff]
      exact created_sole_owner ..
    | added found allowed granted =>
      rw [member_set_sole_owner _ _ (holds _ _ found) granted]
      simp [OverwritesOwner, found, allowed, granted]
    | removed found allowed other =>
      simp only [OverwritesOwner, not_false_eq_true, true_iff]
      exact member_erase_sole_owner _ _ (holds _ _ found) other
    | changed found allowed isMember other granted =>
      simp only [OverwritesOwner, not_false_eq_true, true_iff]
      exact (member_set_sole_owner _ _ (holds _ _ found) granted).mpr other

/-- A call is confined when raising changes nothing, and a successful membership
call touches only the space it names, on behalf of an administrator or the owner. -/
def Confined (registry : SpaceRegistry) (operation : Operation) : Prop :=
  (∀ raised, (perform registry operation).1 = .error raised →
    (perform registry operation).2 = registry) ∧
  ∀ spaceId actorId, operation.managed = some (spaceId, actorId) →
    (perform registry operation).1 = .ok () →
      (∃ space, registry.get spaceId = some space ∧
        (getRole space actorId = some .admin ∨ getRole space actorId = some .owner)) ∧
      ∀ otherId, otherId ≠ spaceId →
        (perform registry operation).2.get otherId = registry.get otherId

/-- The management permission is held by administrators and the owner. -/
theorem can_manage (allowed : can space userId "space:manage" = true) :
    getRole space userId = some .admin ∨ getRole space userId = some .owner := by
  rw [can] at allowed
  cases role : getRole space userId with
  | none => simp [role] at allowed
  | some held =>
    rw [role] at allowed
    revert allowed
    cases held <;> decide

/-- A successful membership call assigns the space it names after checking the
actor there. -/
theorem succeeds_managed {registry : SpaceRegistry} {op : Operation}
    {assigned : String} {after : TeamSpace} (succeeds : Succeeds registry op assigned after)
    {spaceId actorId : String} (names : op.managed = some (spaceId, actorId)) :
    assigned = spaceId ∧ ∃ space, registry.get spaceId = some space ∧
      can space actorId "space:manage" = true := by
  cases succeeds with
  | created unused => cases names
  | added found allowed granted =>
    cases names
    exact ⟨rfl, _, found, allowed⟩
  | removed found allowed other =>
    cases names
    exact ⟨rfl, _, found, allowed⟩
  | changed found allowed isMember other granted =>
    cases names
    exact ⟨rfl, _, found, allowed⟩

/-- Every call is confined, in every registry. -/
theorem perform_confined : Confined registry op := by
  rcases perform_cases .. with ⟨raised, result⟩ | ⟨assigned, after, result, succeeds⟩
  · rw [Confined, result]
    refine ⟨fun _ _ => rfl, ?_⟩
    intro spaceId actorId _ succeeded
    cases succeeded
  · rw [Confined, result]
    refine ⟨fun raised impossible => (by cases impossible), ?_⟩
    intro spaceId actorId names _
    obtain ⟨rfl, space, found, allowed⟩ := succeeds_managed succeeds names
    refine ⟨⟨space, found, can_manage _ _ allowed⟩, ?_⟩
    intro otherId different
    rw [get_set, if_neg different]

/-- What the registry owes its users over a whole run: owners keep their spaces
in every state, and every call is confined. -/
def OwnershipContract (operations : List Operation) : Prop :=
  (∀ registry, Reached step .empty operations registry → OwnershipHolds registry) ∧
    Along step Confined .empty operations

/-- A run from the empty registry honours the ownership contract exactly when no
authorised call of it adds the owner of a space again under a lesser role. -/
theorem ownership_contract_exact (operations : List Operation) : OwnershipContract operations ↔
      Along step (fun registry operation => ¬ OverwritesOwner registry operation)
        .empty operations := by
  have initially : OwnershipHolds .empty := by
    intro spaceId space found
    cases found
  have confined := along_of_forall step perform_confined .empty operations
  rw [OwnershipContract, and_iff_left confined]
  exact invariant_exact step _ OwnershipHolds step_ownership_exact .empty operations initially

/-- A user creates a space and then adds the same user to it as a plain member. -/
def ownerDemotion : List Operation :=
  [.createSpace "s" "Space" "alice" .team 0, .addMember "s" "alice" .member "alice" 1]

/-- After that run the owner holds the member role only. -/
theorem owner_demotion_breaks_contract : ¬ OwnershipContract ownerDemotion := by
  rintro ⟨throughout, _⟩
  have sole := throughout (run step .empty ownerDemotion)
    ⟨ownerDemotion, [], (List.append_nil _).symm, rfl⟩ "s" _ rfl
  cases sole.1

/-- The space a call names. -/
def Operation.target : Operation → String
  | .createSpace spaceId _ _ _ _ | .addMember spaceId _ _ _ _ | .removeMember spaceId _ _
  | .changeRole spaceId _ _ _ => spaceId

/-- A call makes of the space it names what that space alone determines, and leaves the others. -/
theorem step_local {registry other : SpaceRegistry} {spaceId : String} (op : Operation)
    (same : registry.get spaceId = other.get spaceId) :
    (step registry op).get spaceId =
      if op.target = spaceId then (step other op).get spaceId else other.get spaceId := by
  split
  · rename_i named
    subst named
    cases op <;> simp only [Operation.target] at same ⊢ <;>
      simp only [step, perform, createSpace, addMember, removeMember, changeRole, getSpaceOrRaise, same]
    all_goals (repeat' split) <;> simp_all
  · rename_i elsewhere
    rw [← same]
    rcases perform_cases registry op with ⟨raised, result⟩ | ⟨assigned, space, result, succeeds⟩
    · rw [step, result]
    · have named : op.target = assigned := by cases succeeds <;> rfl
      rw [step, result, get_set, if_neg (by rw [← named]; exact Ne.symm elsewhere)]

/-- Spaces are isolated: whatever calls are interleaved, a space is what the calls that name it make of it. -/
theorem spaces_isolated (registry : SpaceRegistry) (operations : List Operation) (spaceId : String) :
    (run step registry operations).get spaceId =
      (run step registry (operations.filter (·.target = spaceId))).get spaceId := by
  suffices general : ∀ other, registry.get spaceId = OrderedDict.get other spaceId →
      (run step registry operations).get spaceId =
        (run step other (operations.filter (·.target = spaceId))).get spaceId from general registry rfl
  induction operations generalizing registry with
  | nil => exact fun other same => same
  | cons op operations ih =>
    intro other same
    have stepped := step_local op same
    by_cases named : op.target = spaceId
    · simpa [named] using ih _ _ (by simpa [named] using stepped)
    · simpa [named] using ih _ _ (by simpa [named] using stepped)

/-- Callers who may not manage a space leave it as it is, whatever they try together. -/
theorem outsiders_powerless {registry : SpaceRegistry} {spaceId : String} {space : TeamSpace}
    (operations : List Operation) (found : registry.get spaceId = some space)
    (outside : ∀ op ∈ operations, ∀ actorId, op.managed = some (spaceId, actorId) →
      can space actorId "space:manage" = false) :
    (run step registry operations).get spaceId = some space := by
  induction operations generalizing registry with
  | nil => exact found
  | cons op operations ih =>
    obtain ⟨first, others⟩ := List.forall_mem_cons.mp outside
    refine ih ?_ others
    rcases perform_cases registry op with ⟨raised, result⟩ | ⟨assigned, after, result, succeeds⟩
    · rw [step, result]
      exact found
    · rw [step, result, get_set]
      split
      · cases succeeds <;> simp_all [Operation.managed]
      · exact found

/-- A stranger asks to become an administrator of a new space. -/
theorem stranger_powerless :
    (run step (step .empty (.createSpace "s" "Space" "alice" .team 0))
      [.addMember "s" "eve" .admin "eve" 1]).get "s" =
      some (ensureOwnerIsMember ⟨"s", "Space", .team, "alice", .empty, 0⟩) :=
  outsiders_powerless _ rfl (by simp [Operation.managed]; decide)

end ForgePilot.TeamSpaces
