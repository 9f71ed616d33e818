import ForgePilot.Runs
import Mathlib.Data.List.Nodup

/-!
# The owners of an organisation

A member of an organisation is removed, or given another role, by a request that first
reads the membership of the one who asks and of the one it is about, checks the
permissions, counts the owners where an owner is to go, and then writes. Each call of
the store is one step, and the steps of any number of requests interleave.

The table of roles does not change. The lower-case form of a text is a parameter. What follows the
write (the current organisation of the user, the gateway to the language models, the mail
address of the answer) does not touch the members and is left out.
-/

namespace ForgePilot.OrgMembers

open Runs List

structure Role where
  id : Nat
  name : String
  rank : Int
deriving DecidableEq

/-- The name of the role of owners. -/
def roleOwner : String := "owner"

/-- The name of the role of administrators. -/
def roleAdmin : String := "admin"

structure OrgMember (κ : Type) where
  userId : κ
  roleId : Nat
deriving DecidableEq

inductive Request (κ : Type) where
  | removeOrgMember (targetUserId currentUserId : κ)
  | updateOrgMember (targetUserId currentUserId : κ) (role : Option String)

/-- Whom a request is about. -/
def Request.target {κ : Type} : Request κ → κ
  | .removeOrgMember targetUserId _ => targetUserId
  | .updateOrgMember targetUserId _ _ => targetUserId

/-- Who asks. -/
def Request.current {κ : Type} : Request κ → κ
  | .removeOrgMember _ currentUserId => currentUserId
  | .updateOrgMember _ currentUserId _ => currentUserId

inductive UpdateError (κ : Type) where
  | orgMemberNotFound (userId : κ)
  | cannotModifySelf (action : String)
  | roleNotFound (roleId : Nat)
  | invalidRole (roleName : String)
  | insufficientPermission (message : String)
  | lastOwner (action : String)
  | memberUpdate (message : String)

inductive Answer (κ : Type) where
  | removal (success : Bool) (error : Option String)
  | update (result : Except (UpdateError κ) (κ × Role))

/-- The write a request is about to make: of the member that was read, whose role was read,
to a new role or out of the organisation. -/
structure Write (κ : Type) where
  target : OrgMember κ
  targetRole : Role
  newRole : Option Role
  /-- The owners that were counted, where an owner is to go. -/
  counted : List κ

/-- How far a request is. -/
inductive Phase (κ : Type) where
  | asked
  | admitted (requester : OrgMember κ)
  | counting (write : Write κ)
  | writing (write : Write κ)
  | answered (answer : Answer κ)

/-- The members, and how far each request is. -/
structure State (κ ρ : Type) where
  members : List (OrgMember κ)
  phases : ρ → Phase κ

/-- No request has begun. -/
def initial {κ ρ : Type} (members : List (OrgMember κ)) : State κ ρ := ⟨members, fun _ => .asked⟩

variable {κ ρ : Type} [DecidableEq κ] [DecidableEq ρ]
variable (roles : List Role) (lower : String → String)

/-! ## The store -/

def getRoleById (id : Nat) : Option Role := roles.find? (fun role => role.id = id)

def getRoleByName (name : String) : Option Role := roles.find? (fun role => role.name = name)

def getOrgMember (members : List (OrgMember κ)) (userId : κ) : Option (OrgMember κ) :=
  members.find? (fun member => member.userId = userId)

/-- Give a member another role. -/
def updateUserRoleInOrg (members : List (OrgMember κ)) (userId : κ) (roleId : Nat) :
    List (OrgMember κ) :=
  members.map (fun member => if member.userId = userId then { member with roleId } else member)

def removeUserFromOrg (members : List (OrgMember κ)) (userId : κ) : List (OrgMember κ) :=
  members.filter (fun member => member.userId ≠ userId)

/-! ## The rules -/

/-- Whether one role may change another one into a third. -/
def canUpdateMemberRole (requesterRoleName targetRoleName newRoleName : String) : Bool :=
  if requesterRoleName = roleOwner then true
  else if requesterRoleName = roleAdmin then
    if targetRoleName = roleOwner then false else newRoleName ≠ roleOwner
  else false

/-- Whether one role may remove another one. -/
def canRemoveMember (requesterRoleName targetRoleName : String) : Bool :=
  if requesterRoleName = roleOwner then true
  else if requesterRoleName = roleAdmin then targetRoleName ≠ roleOwner
  else false

def isOwner (member : OrgMember κ) : Bool :=
  match getRoleById roles member.roleId with
  | some role => role.name = roleOwner
  | none => false

def owners (members : List (OrgMember κ)) : List κ :=
  (members.filter (isOwner roles)).map OrgMember.userId

def isLastOwner (owners : List κ) (userId : κ) : Bool := owners = [userId]

/-! ## The requests -/

/-- The answer of a request that does not go on. -/
def refusal (request : Request κ) (message : String) (error : UpdateError κ) : Phase κ :=
  match request with
  | .removeOrgMember _ _ => .answered (.removal false (some message))
  | .updateOrgMember _ _ _ => .answered (.update (.error error))

/-- Read the membership of the one who asks. -/
def readRequester (request : Request κ) (members : List (OrgMember κ)) : Phase κ :=
  match getOrgMember members request.current with
  | none => refusal request "not_a_member" (.orgMemberNotFound request.current)
  | some requester =>
      if request.current = request.target then
        refusal request "cannot_remove_self" (.cannotModifySelf "modify")
      else .admitted requester

/-- Go on to the write, by way of the count where an owner is to go. -/
def proceed (write : Write κ) : Phase κ :=
  if write.targetRole.name = roleOwner ∧ write.newRole.all (fun role => role.name ≠ roleOwner) then
    .counting write
  else .writing write

/-- Check the permissions with both roles known. -/
def checkPermission (request : Request κ) (target : OrgMember κ) (requesterRole targetRole : Role) :
    Phase κ :=
  match request with
  | .removeOrgMember _ _ =>
      if canRemoveMember requesterRole.name targetRole.name then
        proceed ⟨target, targetRole, none, []⟩
      else .answered (.removal false (some "insufficient_permission"))
  | .updateOrgMember _ _ none => .answered (.update (.ok (target.userId, targetRole)))
  | .updateOrgMember _ _ (some newRoleName) =>
      match getRoleByName roles (lower newRoleName) with
      | none => .answered (.update (.error (.invalidRole newRoleName)))
      | some newRole =>
          if canUpdateMemberRole requesterRole.name targetRole.name newRole.name then
            proceed ⟨target, targetRole, some newRole, []⟩
          else .answered (.update (.error (.insufficientPermission
            "You do not have permission to modify this member")))

def readTarget (request : Request κ) (requester : OrgMember κ) (members : List (OrgMember κ)) :
    Phase κ :=
  match getOrgMember members request.target with
  | none => refusal request "member_not_found" (.orgMemberNotFound request.target)
  | some target =>
      match getRoleById roles requester.roleId, getRoleById roles target.roleId with
      | some requesterRole, some targetRole =>
          checkPermission roles lower request target requesterRole targetRole
      | none, _ => refusal request "role_not_found" (.roleNotFound requester.roleId)
      | some _, none => refusal request "role_not_found" (.roleNotFound target.roleId)

def countOwners (request : Request κ) (write : Write κ) (members : List (OrgMember κ)) : Phase κ :=
  if isLastOwner (owners roles members) request.target then
    refusal request "cannot_remove_last_owner" (.lastOwner "demote")
  else .writing { write with counted := owners roles members }

/-- Write, and answer whether there was a member to write. -/
def performWrite (request : Request κ) (write : Write κ) (members : List (OrgMember κ)) :
    List (OrgMember κ) × Phase κ :=
  match getOrgMember members request.target with
  | none => (members, refusal request "removal_failed" (.memberUpdate "Failed to update member"))
  | some _ =>
      match write.newRole with
      | none => (removeUserFromOrg members request.target, .answered (.removal true none))
      | some newRole =>
          (updateUserRoleInOrg members request.target newRole.id,
            .answered (.update (.ok (request.target, newRole))))

variable (requests : ρ → Request κ)

/-- Put a request into its next phase. -/
def State.put (state : State κ ρ) (name : ρ) (phase : Phase κ) : State κ ρ :=
  { state with phases := fun other => if other = name then phase else state.phases other }

/-- The next call of the store for a request. -/
def step (state : State κ ρ) (name : ρ) : State κ ρ :=
  let request := requests name
  match state.phases name with
  | .asked => state.put name (readRequester request state.members)
  | .admitted requester => state.put name (readTarget roles lower request requester state.members)
  | .counting write => state.put name (countOwners roles request write state.members)
  | .writing write =>
      let written := performWrite request write state.members
      { state.put name written.2 with members := written.1 }
  | .answered _ => state

/-! ## What is kept -/

def HasOwner (state : State κ ρ) : Prop := ∃ member ∈ state.members, isOwner roles member = true

/-- A write leaves the one it is about without the role of owners. -/
def Write.Demotes (write : Write κ) : Prop :=
  ∀ role, write.newRole = some role → role.name ≠ roleOwner

/-- When a request demotes, the one it is about has not become an owner since the roles were
read, and where other owners were counted one of them is still an owner. -/
def Undisturbed (state : State κ ρ) (name : ρ) : Prop :=
  ∀ write, state.phases name = .writing write → write.Demotes →
    (write.targetRole.name ≠ roleOwner →
      (requests name).target ∉ owners roles state.members) ∧
    ((∃ owner ∈ write.counted, owner ≠ (requests name).target) →
      ∃ owner ∈ write.counted, owner ≠ (requests name).target ∧
        owner ∈ owners roles state.members)

/-- The new role of a write is in the table. -/
def Known (write : Write κ) : Prop :=
  ∀ role, write.newRole = some role → getRoleById roles role.id = some role

/-- Where an owner is demoted, another owner was counted. -/
def Covered (request : Request κ) (write : Write κ) : Prop :=
  write.targetRole.name = roleOwner → write.Demotes →
    ∃ owner ∈ write.counted, owner ≠ request.target

def PhaseSound (request : Request κ) : Phase κ → Prop
  | .counting write => Known roles write
  | .writing write => Known roles write ∧ Covered request write
  | _ => True

/-- There is an owner, no member is listed twice, and the requests have checked what they rely
on. -/
structure Sound (state : State κ ρ) : Prop where
  owned : HasOwner roles state
  distinct : (state.members.map OrgMember.userId).Nodup
  phases : ∀ name, PhaseSound roles (requests name) (state.phases name)

variable (request : Request κ)

omit [DecidableEq κ] in
/-- A refusal relies on nothing. -/
theorem refusal_sound (other : Request κ) (message : String) (error : UpdateError κ) :
    PhaseSound roles request (refusal other message error) := by
  unfold refusal
  split <;> exact trivial

variable (write : Write κ) (members : List (OrgMember κ))

/-- Reading who asks relies on nothing. -/
theorem read_requester_sound : PhaseSound roles request (readRequester request members) := by
  rw [readRequester]
  split
  · exact refusal_sound ..
  · split
    · exact refusal_sound ..
    · exact trivial

omit [DecidableEq κ] in
/-- Going on is sound when the roles are known. -/
theorem proceed_sound (known : Known roles write) : PhaseSound roles request (proceed write) := by
  rw [proceed]
  split
  case isTrue => exact known
  case isFalse notDemoted =>
    refine ⟨known, fun targetOwner demotes => absurd ⟨targetOwner, ?_⟩ notDemoted⟩
    cases new : write.newRole with
    | none => rfl
    | some role => simpa using demotes role new

variable (distinct : (roles.map Role.id).Nodup)
include distinct

/-- A role that is found by its name is found by its identifier. -/
theorem role_by_id {name : String} {role : Role} (found : getRoleByName roles name = some role) :
    getRoleById roles role.id = some role := by
  have present : role ∈ roles := mem_of_find?_eq_some found
  rw [getRoleById]
  rw [find?_eq_some_iff_append]
  obtain ⟨before, after, rfl⟩ := append_of_mem present
  refine ⟨by simp, before, after, rfl, ?_⟩
  intro other earlier
  rw [map_append, map_cons] at distinct
  obtain ⟨-, -, apart⟩ := nodup_append.mp distinct
  have different := apart other.id (mem_map_of_mem earlier) role.id (.head _)
  simpa using different

omit [DecidableEq κ] in
theorem check_permission_sound (request : Request κ) (target : OrgMember κ)
    (requesterRole targetRole : Role) :
    PhaseSound roles request
      (checkPermission roles lower request target requesterRole targetRole) := by
  cases request with
  | removeOrgMember targetUserId currentUserId =>
    unfold checkPermission
    dsimp only
    split
    · refine proceed_sound _ _ _ ?_
      rintro role ⟨⟩
    · exact trivial
  | updateOrgMember targetUserId currentUserId newRoleName =>
    cases newRoleName with
    | none => exact trivial
    | some newRoleName =>
      unfold checkPermission
      dsimp only
      split
      · exact trivial
      rename_i newRole named
      split
      · refine proceed_sound _ _ _ ?_
        rintro role ⟨⟩
        exact role_by_id _ distinct named
      · exact trivial

theorem read_target_sound (request : Request κ) (requester : OrgMember κ)
    (members : List (OrgMember κ)) :
    PhaseSound roles request (readTarget roles lower request requester members) := by
  rw [readTarget]
  split
  · exact refusal_sound ..
  split
  · exact check_permission_sound _ _ distinct ..
  · exact refusal_sound ..
  · exact refusal_sound ..

omit distinct

/-- Where there is an owner and the target is not the last one, another owner is counted. -/
theorem other_owner {members : List (OrgMember κ)} {target : κ}
    (distinct : (members.map OrgMember.userId).Nodup)
    (owned : ∃ member ∈ members, isOwner roles member = true)
    (notLast : isLastOwner (owners roles members) target = false) :
    ∃ owner ∈ owners roles members, owner ≠ target := by
  by_contra missing
  have none : ∀ owner ∈ owners roles members, owner = target := fun owner counted =>
    not_not.mp (fun other => missing ⟨owner, counted, other⟩)
  have nodup : (owners roles members).Nodup :=
    distinct.sublist (filter_sublist.map OrgMember.userId)
  obtain ⟨member, present, owner⟩ := owned
  have counted : member.userId ∈ owners roles members :=
    mem_map_of_mem (mem_filter.mpr ⟨present, owner⟩)
  have only : owners roles members = [target] := by
    match listed : owners roles members with
    | [] =>
      rw [listed] at counted
      cases counted
    | [first] =>
      rw [listed] at none
      rw [none first (.head _)]
    | first :: second :: rest =>
      rw [listed] at none nodup
      have same : first = second := (none first (by simp)).trans (none second (by simp)).symm
      simp [same] at nodup
  rw [isLastOwner, only] at notLast
  simp at notLast

theorem count_owners_sound (known : Known roles write)
    (distinct : (members.map OrgMember.userId).Nodup)
    (owned : ∃ member ∈ members, isOwner roles member = true) :
    PhaseSound roles request (countOwners roles request write members) := by
  rw [countOwners]
  split
  case isTrue => exact refusal_sound ..
  case isFalse notLast =>
    refine ⟨known, fun _ _ => ?_⟩
    exact other_owner _ distinct owned (by simpa using notLast)

/-- An owner other than the one a request is about outlives its write. -/
theorem other_outlives {request : Request κ} (write : Write κ) {members : List (OrgMember κ)}
    {owner : κ} (counted : owner ∈ owners roles members) (other : owner ≠ request.target) :
    ∃ member ∈ (performWrite request write members).1, isOwner roles member = true := by
  obtain ⟨member, kept, rfl⟩ := mem_map.mp counted
  obtain ⟨present, isTheOwner⟩ := mem_filter.mp kept
  refine ⟨member, ?_, isTheOwner⟩
  rw [performWrite]
  split
  · exact present
  · split
    · exact mem_filter.mpr ⟨present, by simpa using other⟩
    · exact mem_map.mpr ⟨member, present, if_neg other⟩

theorem write_owned (known : Known roles write) (covered : Covered request write)
    (owned : ∃ member ∈ members, isOwner roles member = true) (undisturbed : write.Demotes →
      (write.targetRole.name ≠ roleOwner → request.target ∉ owners roles members) ∧
      ((∃ owner ∈ write.counted, owner ≠ request.target) →
        ∃ owner ∈ write.counted, owner ≠ request.target ∧ owner ∈ owners roles members)) :
    ∃ member ∈ (performWrite request write members).1, isOwner roles member = true := by
  by_cases demotes : write.Demotes
  · obtain ⟨unraised, still⟩ := undisturbed demotes
    by_cases targetOwner : write.targetRole.name = roleOwner
    · obtain ⟨owner, -, other, counted⟩ := still (covered targetOwner demotes)
      exact other_outlives _ _ counted other
    obtain ⟨member, present, owner⟩ := owned
    have counted : member.userId ∈ owners roles members :=
      mem_map_of_mem (mem_filter.mpr ⟨present, owner⟩)
    refine other_outlives _ _ counted fun named => ?_
    rw [named] at counted
    exact unraised targetOwner counted
  · -- the new role is that of owners
    rw [Write.Demotes] at demotes
    push Not at demotes
    obtain ⟨role, new, newOwner⟩ := demotes
    rw [performWrite]
    split
    · exact owned
    rename_i found located
    simp only [new]
    have present := mem_of_find?_eq_some located
    have named : found.userId = request.target := by simpa using find?_some located
    refine ⟨{ found with roleId := role.id }, mem_map.mpr ⟨found, present, if_pos named⟩, ?_⟩
    simp [isOwner, known role new, newOwner]

/-- A write lists no member twice. -/
theorem write_distinct (distinct : (members.map OrgMember.userId).Nodup) :
    ((performWrite request write members).1.map OrgMember.userId).Nodup := by
  rw [performWrite]
  split
  · exact distinct
  split
  · exact distinct.sublist (filter_sublist.map OrgMember.userId)
  have same (roleId : Nat) : (updateUserRoleInOrg members request.target roleId).map
      OrgMember.userId = members.map OrgMember.userId := by
    rw [updateUserRoleInOrg, map_map]
    apply map_congr_left
    intro member _
    simp only [Function.comp]
    split <;> rfl
  rw [same]
  exact distinct

omit [DecidableEq κ] in
/-- The phases after one was replaced. -/
theorem put_phases {state : State κ ρ} {name : ρ} {phase : Phase κ}
    (before : ∀ other, PhaseSound roles (requests other) (state.phases other))
    (replaced : PhaseSound roles (requests name) phase) :
    ∀ other, PhaseSound roles (requests other) ((state.put name phase).phases other) := by
  intro other
  by_cases same : other = name
  · subst same
    simp only [State.put, if_pos]
    exact replaced
  · simp only [State.put, if_neg same]
    exact before other

include distinct in
/-- Every step of an undisturbed request keeps the state sound. -/
theorem step_sound (state : State κ ρ) (name : ρ) (sound : Sound roles requests state)
    (undisturbed : Undisturbed roles requests state name) :
    Sound roles requests (step roles lower requests state name) := by
  have relied := sound.phases name
  rw [step]
  cases phase : state.phases name with
  | asked =>
    exact ⟨sound.owned, sound.distinct, put_phases _ _ sound.phases
      (read_requester_sound ..)⟩
  | admitted requester =>
    exact ⟨sound.owned, sound.distinct, put_phases _ _ sound.phases
      (read_target_sound _ _ distinct _ _ _)⟩
  | counting write =>
    rw [phase] at relied
    exact ⟨sound.owned, sound.distinct, put_phases _ _ sound.phases
      (count_owners_sound _ _ _ _ relied sound.distinct sound.owned)⟩
  | writing write =>
    rw [phase] at relied
    refine ⟨write_owned _ _ _ _ relied.1 relied.2 sound.owned (undisturbed write phase),
      write_distinct _ _ _ sound.distinct,
      put_phases _ _ sound.phases ?_⟩
    rw [performWrite]
    split
    · exact refusal_sound ..
    · split <;> exact trivial
  | answered answer => exact sound

/-- In a run in which every write is undisturbed, an organisation that starts with an owner has
one in every state. -/
theorem owner_remains (distinct : (roles.map Role.id).Nodup) (members : List (OrgMember κ))
    (unique : (members.map OrgMember.userId).Nodup)
    (owned : HasOwner roles (initial members : State κ ρ)) (labels : List ρ)
    (undisturbed : Along (step roles lower requests) (Undisturbed roles requests) (initial members)
      labels)
    (state : State κ ρ)
    (reached : Reached (step roles lower requests) (initial members) labels state) :
    HasOwner roles state :=
  (invariant_along _ _ _
    (step_sound _ _ _ distinct) _ _
    ⟨owned, unique, fun _ => trivial⟩ undisturbed _ reached).owned

def threeRoles : List Role := [⟨1, "owner", 10⟩, ⟨2, "admin", 20⟩, ⟨3, "member", 1000⟩]

def twoOwners : List (OrgMember Nat) := [⟨0, 1⟩, ⟨1, 1⟩]

/-- Each of the two owners removes the other one. -/
def mutualRemoval : Bool → Request Nat
  | true => .removeOrgMember 1 0
  | false => .removeOrgMember 0 1

/-- One removal after the other leaves an owner: the second one is refused. -/
theorem removals_in_turn : HasOwner threeRoles
    (run (step threeRoles id mutualRemoval) (initial twoOwners)
      [true, true, true, true, false, false]) := by
  refine owner_remains _ id _ (by decide) _ (by decide)
    ⟨⟨0, 1⟩, by decide, by decide⟩ _ ?_ _
    ⟨_, [], (List.append_nil _).symm, rfl⟩
  refine ⟨?_, ?_, ?_, ?_, ?_, ?_, trivial⟩
  · rintro write ⟨⟩
  · rintro write ⟨⟩
  · rintro write ⟨⟩
  · rintro write ⟨⟩ _
    exact ⟨by decide, by decide⟩
  · rintro write ⟨⟩
  · rintro write ⟨⟩

/-- Both removals count two owners before either of them writes. -/
theorem owners_remove_each_other : ¬ ∀ labels state,
    Reached (step threeRoles id mutualRemoval) (initial twoOwners) labels state →
      HasOwner threeRoles state := by
  intro always
  obtain ⟨member, present, -⟩ := always
    [true, true, true, false, false, false, true, false] _ ⟨_, [], (List.append_nil _).symm, rfl⟩
  have none : (run (step threeRoles id mutualRemoval) (initial twoOwners)
      [true, true, true, false, false, false, true, false]).members = [] := by decide
  rw [none] at present
  cases present

end ForgePilot.OrgMembers
