import ForgePilot.OrgCalls

/-!
# Who makes and unmakes owners

What a call may do to memberships and invitations is read off the way its requests have come
when they are answered. From that follows, for any sequence of calls, whence each owner came:
an invitation carries the authority of its issuer from the call that issued it to the call
that accepts it.
-/

namespace ForgePilot.OwnerAuthority

open Runs Processes Organizations OrgRequests List
open OrgMembers (Role OrgMember isOwner roleOwner getRoleById)

variable {κ : Type} [DecidableEq κ]
variable (roles : List Role) (lower normal : String → String) (text : κ → String)
variable (before : Store κ) (orgId targetUserId currentUserId : κ) (part : OrgMembers.Request κ)

/-- What a call does: it changes at most the membership it names, or the one that the migration of
the accepting user creates; new invitations are for owners only where the inviter is one. -/
structure Respects (store : Store κ) (label : Label κ) (after : Store κ) : Prop where
  formed : WellFormed after
  members : ∃ namedOrg, ∀ orgId userId,
    after.getOrgMember orgId userId ≠ store.getOrgMember orgId userId →
      Migrates store label.call orgId userId ∨
        (¬ Fails roles lower normal text store label ∧ orgId = namedOrg ∧
          Names roles store after orgId userId label.call)
  invitations : ∀ invitation ∈ after.invitations, invitation.status = .pending →
    invitation ∈ store.invitations ∨
      (Invites label.call invitation.orgId invitation.inviterId ∧
        ∀ role, getRoleById roles invitation.roleId = some role → role.name = roleOwner →
          OwnerIn roles store invitation.orgId invitation.inviterId)

variable {label : Label κ} {store : Store κ}

/-- A call for invitations changes no membership. -/
theorem invites_respects (distinct : (roles.map Role.id).Nodup) {roleName : String} {inviterId : κ}
    (parts : ∀ request ∈ label.call.parts, ∃ email,
      request = .createInvitation orgId email roleName inviterId)
    (invites : Invites label.call orgId inviterId) (formed : WellFormed store) :
    Respects roles lower normal text store label (next roles lower normal text store label) := by
  have issuing : Issuing roles store orgId inviterId (next roles lower normal text store label) := by
    unfold next
    split
    · exact ⟨rfl, rfl, rfl, rfl, fun _ listed => .inl listed⟩
    · exact perform_inviting _ _ _ _ _ distinct
        parts formed
  have same : ∀ other userId, (next roles lower normal text store label).getOrgMember other userId =
      store.getOrgMember other userId := by
    intro other userId
    rw [Store.getOrgMember, issuing.members, Store.getOrgMember]
  refine ⟨?_, ⟨orgId, fun other userId changed => absurd (same other userId) changed⟩,
    fun invite listed pending => (issuing.invitations invite listed).imp_right ?_⟩
  · refine well_formed_of_ids formed issuing.orgs id (fun _ => rfl)
      (by rw [issuing.users, map_id]) fun other userId here => ?_
    rwa [Belongs, same] at here
  · rintro ⟨rfl, rfl, owner⟩
    exact ⟨invites, owner⟩

variable {request : Request κ} (single : label.call.parts = [request])
include single

/-- A call of one request, from what its answer says. -/
theorem single_respects (direct : ∀ orgId emails roleName inviterId,
      label.call ≠ .createInvitationsBatch orgId emails roleName inviterId)
    (completes : Completes roles lower normal text store label)
    (formed : WellFormed (perform roles lower normal text store label).shared)
    (invitations : ∀ answer, (∃ part,
        (perform roles lower normal text store label).phases part = .answered answer) →
      Pends store (perform roles lower normal text store label).shared) (members : ∀ answer,
      (∃ part, (perform roles lower normal text store label).phases part = .answered answer) →
      ∃ namedOrg, ∀ orgId userId,
        (perform roles lower normal text store label).shared.getOrgMember orgId userId ≠
          store.getOrgMember orgId userId →
        Migrates store label.call orgId userId ∨
          (¬ Unsuccessful (.answered answer) ∧ orgId = namedOrg ∧
            Names roles store (perform roles lower normal text store label).shared orgId userId
              label.call)) :
    Respects roles lower normal text store label (next roles lower normal text store label) := by
  have free : refusal roles lower text store label.call = none := by
    unfold refusal
    split
    case h_1 orgId emails roleName inviterId same =>
      exact absurd same (direct orgId emails roleName inviterId)
    case h_2 => rfl
  have is : next roles lower normal text store label =
      (perform roles lower normal text store label).shared := by
    rw [next, free]
  have one : label.call.parts.length = 1 := by rw [single]; rfl
  let part : Fin label.call.parts.length := ⟨0, by omega⟩
  have only : ∀ other : Fin label.call.parts.length, other = part := by
    intro other
    exact Fin.ext (by omega)
  obtain ⟨answer, answered⟩ : ∃ answer,
      (perform roles lower normal text store label).phases part = .answered answer := by
    have done := completes.2 free part
    unfold Done at done
    split at done
    case h_1 answer same => exact ⟨answer, same⟩
    case h_2 => exact done.elim
  rw [is]
  obtain ⟨namedOrg, named⟩ := members answer ⟨part, answered⟩
  refine ⟨formed, ⟨namedOrg, fun orgId userId changed => ?_⟩, fun invite listed pending =>
    .inl (invitations answer ⟨part, answered⟩ invite listed pending)⟩
  refine (named orgId userId changed).imp_right fun named => ⟨?_, named.2⟩
  rintro (refused | ⟨other, failed, -⟩)
  · rw [free] at refused
    cases refused
  · rw [only other, answered] at failed
    exact named.1 failed

/-- A removal and a change of role respect what a call may do. -/
theorem handled_respects (call : (label.call = .removeOrgMember orgId targetUserId currentUserId ∧
        part = .removeOrgMember targetUserId currentUserId) ∨
      ∃ role, label.call = .updateOrgMember orgId targetUserId currentUserId role)
    (completes : Completes roles lower normal text store label)
    (formed : WellFormed (perform roles lower normal text store label).shared)
    (handled : ∀ name, Handling roles store orgId targetUserId currentUserId part
      (perform roles lower normal text store label).shared
      ((perform roles lower normal text store label).phases name)) :
    Respects roles lower normal text store label (next roles lower normal text store label) := by
  refine single_respects _ _ _ _ single ?_ completes formed ?_
    ?_
  · intro other emails roleName inviterId same
    rcases call with ⟨call, -⟩ | ⟨role, call⟩ <;> rw [same] at call <;> cases call
  · rintro answer ⟨name, answered⟩
    have held := handled name
    rw [answered] at held
    rcases held with calm | ⟨-, rewritten⟩
    · exact pends_same _ calm.invitations
    · exact pends_same _ rewritten.invitations
  · rintro answer ⟨name, answered⟩
    refine ⟨orgId, fun other userId changed => ?_⟩
    have held := handled name
    rw [answered] at held
    rcases held with calm | ⟨succeeds, rewritten⟩
    · exact absurd (calm_member _ calm ..) changed
    have mine : other = orgId ∧ userId = targetUserId := by
      by_contra away
      exact changed (rewritten.others other userId away)
    have names : ∀ after : Store κ,
        (OwnerIn roles store orgId targetUserId ∨ OwnerIn roles after orgId targetUserId →
          OwnerIn roles store orgId currentUserId) →
        (part = .removeOrgMember targetUserId currentUserId →
          after.getOrgMember orgId targetUserId = none) →
        Names roles store after orgId targetUserId label.call := by
      intro after entitled left
      rcases call with ⟨call, removal⟩ | ⟨role, call⟩
      · rw [call]
        exact ⟨rfl, rfl, rewritten.apart, left removal, fun owner => entitled (.inl owner)⟩
      · rw [call]
        exact ⟨rfl, rfl, rewritten.apart, entitled⟩
    obtain ⟨rfl, rfl⟩ := mine
    exact .inr ⟨succeeds, rfl, names _ (rewritten.entitled changed)
      fun removal => rewritten.left removal changed⟩

omit single

/-- Every call respects what a call may do. -/
theorem label_respects (distinct : (roles.map Role.id).Nodup) (formed : WellFormed store)
    (completes : Completes roles lower normal text store label) :
    Respects roles lower normal text store label (next roles lower normal text store label) := by
  have calm : Calm store store := ⟨rfl, rfl, rfl, rfl, rfl⟩
  obtain ⟨call, schedule⟩ := label
  cases call with
  | createInvitation orgId email roleName inviterId =>
    exact invites_respects _ _ _ _ _ distinct
      (by rintro request listed; exact ⟨email, mem_singleton.mp listed⟩)
      (.inl ⟨email, roleName, rfl⟩) formed
  | createInvitationsBatch orgId emails roleName inviterId =>
    exact invites_respects _ _ _ _ _ distinct
      (by
        rintro request listed
        obtain ⟨email, -, rfl⟩ := mem_map.mp listed
        exact ⟨email, rfl⟩)
      (.inr ⟨emails, roleName, rfl⟩) formed
  | updateOrgMember orgId targetUserId currentUserId role =>
    let part : OrgMembers.Request κ := .updateOrgMember targetUserId currentUserId role
    obtain ⟨formedNext, handled⟩ := perform_single roles lower normal text store
      ⟨.updateOrgMember orgId targetUserId currentUserId role, schedule⟩ rfl
      (Handling roles store orgId targetUserId currentUserId part) completes.1 formed calm
      fun shared phase given silent _ held => update_handling roles lower text store orgId
        _ _ distinct _ silent formed
        (handling_tick _ _ _ _ _ _ _
          held)
    exact handled_respects _ _ _ _ _ _ _ _ rfl
      (.inr ⟨role, rfl⟩) completes formedNext handled
  | removeOrgMember orgId targetUserId currentUserId =>
    let part : OrgMembers.Request κ := .removeOrgMember targetUserId currentUserId
    obtain ⟨formedNext, handled⟩ := perform_single roles lower normal text store
      ⟨.removeOrgMember orgId targetUserId currentUserId, schedule⟩ rfl
      (Handling roles store orgId targetUserId currentUserId part) completes.1 formed calm
      fun shared phase given silent formedNow held => remove_handling roles lower text store orgId
        _ _ distinct silent formed
        (well_formed_tick _ _ formedNow)
        (handling_tick _ _ _ _ _ _ _
          held)
    exact handled_respects _ _ _ _ _ _ _ _ rfl
      (.inl ⟨rfl, rfl⟩) completes formedNext handled
  | createOrgWithOwner name founderId =>
    obtain ⟨formedNext, founded⟩ := perform_single _ _ _ _ _
      ⟨.createOrgWithOwner name founderId, schedule⟩ rfl (Founding store founderId) completes.1
      formed calm fun shared phase given _ _ held => found_founding roles store name founderId _ phase
        given formed (founding_tick store founderId _ held)
    refine single_respects _ _ _ _ rfl nofun completes formedNext ?_ ?_
    · rintro answer ⟨part, answered⟩
      have held := founded part
      rw [answered] at held
      cases answer with
      | raised error => exact pends_same _ held.invitations
      | org org => exact pends_same _ held.1
      | _ => exact held.elim
    · rintro answer ⟨part, answered⟩
      have held := founded part
      rw [answered] at held
      cases answer with
      | raised error =>
        exact ⟨founderId, fun other userId changed => absurd (calm_member _ held ..) changed⟩
      | org org =>
        obtain ⟨-, free, nobody, others⟩ := held
        refine ⟨org.id, fun other userId changed => ?_⟩
        have mine : other = org.id ∧ userId = founderId := by
          by_contra away
          exact changed (others other userId away)
        obtain ⟨rfl, rfl⟩ := mine
        exact .inr ⟨id, rfl, rfl, free, nobody⟩
      | _ => exact held.elim
  | acceptInvitation token acceptorId =>
    obtain ⟨formedNext, arrived⟩ := perform_single _ _ _ _ _
      ⟨.acceptInvitation token acceptorId, schedule⟩ rfl (Arriving store token acceptorId)
      completes.1 formed calm fun shared phase given silent _ held => accept_arriving roles normal
        text store token acceptorId _ phase given silent formed
        (arriving_tick _ _ held)
    refine single_respects _ _ _ _ rfl nofun completes formedNext ?_ ?_
    · rintro answer ⟨part, answered⟩
      have held := arrived part
      rw [answered] at held
      exact held.1
    · rintro answer ⟨part, answered⟩
      have held := arrived part
      rw [answered] at held
      rcases held.2 with moved | ⟨succeeds, invite, admitted, read, pending⟩
      · refine ⟨acceptorId, fun other userId changed => .inl ?_⟩
        obtain ⟨rfl, rfl, away, nobody⟩ := moved other userId changed
        exact ⟨⟨token, rfl⟩, rfl, away, nobody⟩
      · refine ⟨invite.orgId, fun other userId changed => ?_⟩
        rcases admitted other userId changed with
          ⟨rfl, rfl, away, nobody⟩ | ⟨rfl, rfl, nobody, added⟩
        · exact .inl ⟨⟨token, rfl⟩, rfl, away, nobody⟩
        · exact .inr ⟨succeeds, rfl, rfl, nobody, invite, read.1, read.2, rfl, pending, added⟩

/-! ## Any sequence of calls -/

/-- An invitation was there at the start, or was issued by a call of someone who was an owner of
its organisation at that moment. -/
def IssuedByOwner (start : Store κ) (labels : List (Label κ)) (invitation : OrgInvitation κ) : Prop :=
  invitation ∈ start.invitations ∨ ∃ first label rest, labels = first ++ label :: rest ∧
    Invites label.call invitation.orgId invitation.inviterId ∧
    invitation ∉ (run (next roles lower normal text) start first).invitations ∧
    OwnerIn roles (run (next roles lower normal text) start first) invitation.orgId
      invitation.inviterId

/-- A call after some others gives the role of owners: to the founder of a new organisation, by
the change of a role that another owner asks for, to who accepts an invitation that an owner has
issued, or to the accepting user for the personal workspace, where that user is migrated. -/
def Grants (start : Store κ) (first : List (Label κ)) (orgId userId : κ) : Call κ → Prop
  | .createOrgWithOwner _ founderId =>
      founderId = userId ∧
        (run (next roles lower normal text) start first).getOrgById orgId = none
  | .updateOrgMember namedOrg targetUserId currentUserId _ =>
      namedOrg = orgId ∧ targetUserId = userId ∧ currentUserId ≠ userId ∧
        OwnerIn roles (run (next roles lower normal text) start first) orgId currentUserId
  | .acceptInvitation token acceptorId =>
      acceptorId = userId ∧
        (orgId = userId ∧ (run (next roles lower normal text) start first).findUser userId = none ∨
        ∃ invitation ∈ (run (next roles lower normal text) start first).invitations,
          invitation.token = token ∧ invitation.orgId = orgId ∧
            IssuedByOwner roles lower normal text start first invitation)
  | _ => False

/-- How a user came to be an owner: from the start on, or by a call since which the membership has
not changed. -/
def Source (start : Store κ) (labels : List (Label κ)) (orgId userId : κ) : Prop :=
  (OwnerIn roles start orgId userId ∧
    ∀ state, Reached (next roles lower normal text) start labels state →
      state.getOrgMember orgId userId = start.getOrgMember orgId userId) ∨
  ∃ first label rest, labels = first ++ label :: rest ∧
    Grants roles lower normal text start first orgId userId label.call ∧
    ∀ state, Reached (next roles lower normal text)
        (next roles lower normal text (run (next roles lower normal text) start first) label) rest
        state →
      state.getOrgMember orgId userId = (next roles lower normal text
        (run (next roles lower normal text) start first) label).getOrgMember orgId userId

/-- What a call leaves alone: an owner's membership is changed only by a call of another owner, a
call that raises or reports an error changes none, and any call at most the one it names, but for
the personal workspace of an accepting user who is migrated. -/
structure Accountable (store : Store κ) (label : Label κ) (after : Store κ) : Prop where
  owners : ∀ orgId userId, OwnerIn roles store orgId userId →
    after.getOrgMember orgId userId ≠ store.getOrgMember orgId userId →
      ∃ currentUserId, (label.call = .removeOrgMember orgId userId currentUserId ∨
          ∃ role, label.call = .updateOrgMember orgId userId currentUserId role) ∧
        currentUserId ≠ userId ∧ OwnerIn roles store orgId currentUserId
  failed : Fails roles lower normal text store label → ∀ orgId userId,
    after.getOrgMember orgId userId ≠ store.getOrgMember orgId userId →
      Migrates store label.call orgId userId
  named : ∃ namedOrg, ∀ orgId userId,
    after.getOrgMember orgId userId ≠ store.getOrgMember orgId userId →
      Migrates store label.call orgId userId ∨
        (orgId = namedOrg ∧ Names roles store after orgId userId label.call)

theorem owner_member {orgId userId : κ} (owner : OwnerIn roles store orgId userId)
    (nobody : store.getOrgMember orgId userId = none) : False := by
  rw [OwnerIn, nobody] at owner
  cases owner

/-- What a call leaves alone follows from what it respects. -/
theorem respects_accountable {after : Store κ}
    (respects : Respects roles lower normal text store label after) :
    Accountable roles lower normal text store label after := by
  obtain ⟨namedOrg, members⟩ := respects.members
  refine ⟨fun orgId userId owner changed => ?_, fun failed orgId userId changed => ?_,
    namedOrg, fun orgId userId changed => (members orgId userId changed).imp_right And.right⟩
  · rcases members orgId userId changed with ⟨-, -, -, nobody⟩ | ⟨-, -, names⟩
    · exact (owner_member _ owner nobody).elim
    · cases call : label.call with
      | createOrgWithOwner name founderId =>
        rw [call] at names
        exact (owner_member _ owner names.2.2).elim
      | acceptInvitation token acceptorId =>
        rw [call] at names
        exact (owner_member _ owner names.2.1).elim
      | updateOrgMember namedOrg targetUserId currentUserId role =>
        rw [call] at names
        obtain ⟨rfl, rfl, apart, entitled⟩ := names
        exact ⟨currentUserId, .inr ⟨role, rfl⟩, apart, entitled (.inl owner)⟩
      | removeOrgMember namedOrg targetUserId currentUserId =>
        rw [call] at names
        obtain ⟨rfl, rfl, apart, -, entitled⟩ := names
        exact ⟨currentUserId, .inl rfl, apart, entitled owner⟩
      | createInvitation orgId email roleName inviterId =>
        rw [call] at names
        exact names.elim
      | createInvitationsBatch orgId emails roleName inviterId =>
        rw [call] at names
        exact names.elim
  · exact (members orgId userId changed).resolve_right fun named => named.1 failed

/-- What is known after some calls: the tables are well formed, and whence pending invitations for
owners and owners came. -/
structure History (start : Store κ) (labels : List (Label κ)) (state : Store κ) : Prop where
  formed : WellFormed state
  invitations : ∀ invitation ∈ state.invitations, invitation.status = .pending → ∀ role,
    getRoleById roles invitation.roleId = some role → role.name = roleOwner →
      IssuedByOwner roles lower normal text start labels invitation
  owners : ∀ orgId userId, OwnerIn roles state orgId userId →
    Source roles lower normal text start labels orgId userId

variable {labels : List (Label κ)} {start : Store κ}

/-- What is known of invitations stays so after another call. -/
theorem issued_append (label : Label κ) {invite : OrgInvitation κ}
    (issued : IssuedByOwner roles lower normal text start labels invite) :
    IssuedByOwner roles lower normal text start (labels ++ [label]) invite := by
  rcases issued with there | ⟨first, issuing, rest, rfl, facts⟩
  · exact .inl there
  · exact .inr ⟨first, issuing, rest ++ [label], by simp, facts⟩

/-- Whence an owner came stays so after another call that does not change the membership. -/
theorem source_append {orgId userId : κ}
    (same : (next roles lower normal text (run (next roles lower normal text) start labels)
        label).getOrgMember orgId userId =
      (run (next roles lower normal text) start labels).getOrgMember orgId userId)
    (source : Source roles lower normal text start labels orgId userId) :
    Source roles lower normal text start (labels ++ [label]) orgId userId := by
  rcases source with ⟨owner, stays⟩ | ⟨first, granting, rest, rfl, grants, stays⟩
  · refine .inl ⟨owner, fun state reached => ?_⟩
    rcases reached_last reached with before | rfl
    · exact stays state before
    · rw [same]
      exact stays _ (reached_run _ _ _)
  · refine .inr ⟨first, granting, rest ++ [label], by simp, grants, fun state reached => ?_⟩
    rw [run_append, run_cons] at same
    rcases reached_last reached with before | rfl
    · exact stays state before
    · rw [same]
      exact stays _ (reached_run _ _ _)

/-- An owner after a call came to be one by that call, or earlier. -/
theorem source_next (history : History roles lower normal text start labels
      (run (next roles lower normal text) start labels))
    (respects : Respects roles lower normal text (run (next roles lower normal text) start labels)
      label (next roles lower normal text (run (next roles lower normal text) start labels) label))
    (orgId userId : κ) (owner : OwnerIn roles (next roles lower normal text
      (run (next roles lower normal text) start labels) label) orgId userId) :
    Source roles lower normal text start (labels ++ [label]) orgId userId := by
  by_cases same : (next roles lower normal text (run (next roles lower normal text) start labels)
      label).getOrgMember orgId userId =
    (run (next roles lower normal text) start labels).getOrgMember orgId userId
  · refine source_append _ _ _ _ same
      (history.owners orgId userId ?_)
    rwa [OwnerIn, ← same]
  refine .inr ⟨labels, label, [], rfl, ?_, fun state reached => by
    rw [(reached_nil ..).mp reached]⟩
  obtain ⟨namedOrg, members⟩ := respects.members
  rcases members orgId userId same with ⟨⟨token, call⟩, rfl, away, -⟩ | ⟨-, -, names⟩
  · rw [call]
    exact ⟨rfl, .inl ⟨rfl, away⟩⟩
  cases call : label.call with
  | createOrgWithOwner name founderId =>
    rw [call] at names
    exact ⟨names.1.symm, names.2.1⟩
  | acceptInvitation token acceptorId =>
    rw [call] at names
    obtain ⟨rfl, -, invite, listed, named, here, pending, added⟩ := names
    refine ⟨rfl, .inr ⟨invite, listed, named, here, ?_⟩⟩
    obtain ⟨member, present, owns⟩ := (Option.any_eq_true _ _).mp owner
    have given := added member present
    cases known : getRoleById roles member.roleId with
    | none => simp [isOwner, known] at owns
    | some role =>
      exact history.invitations invite listed pending role (given ▸ known)
        ((is_owner_iff _ known).mp owns)
  | updateOrgMember named targetUserId currentUserId role =>
    rw [call] at names
    obtain ⟨rfl, rfl, apart, entitled⟩ := names
    exact ⟨rfl, rfl, apart, entitled (.inr owner)⟩
  | removeOrgMember named targetUserId currentUserId =>
    rw [call] at names
    exact (owner_member _ owner names.2.2.2.1).elim
  | createInvitation orgId email roleName inviterId =>
    rw [call] at names
    exact names.elim
  | createInvitationsBatch orgId emails roleName inviterId =>
    rw [call] at names
    exact names.elim

/-- What is known after some calls that each run to their end. -/
theorem run_history (distinct : (roles.map Role.id).Nodup) (formed : WellFormed start)
    (complete : Along (next roles lower normal text) (Completes roles lower normal text) start
      labels) :
    History roles lower normal text start labels (run (next roles lower normal text) start labels) := by
  induction labels using reverseRecOn with
  | nil =>
    refine ⟨formed, fun invite listed _ _ _ _ => .inl listed, fun orgId userId owner =>
      .inl ⟨owner, fun state reached => ?_⟩⟩
    rw [(reached_nil ..).mp reached]
  | append_singleton labels label ih =>
    obtain ⟨earlier, last⟩ := (along_append ..).mp complete
    have history := ih earlier
    have respects := label_respects _ _ _ _ distinct history.formed last.1
    rw [run_append, run_cons, run_nil]
    refine ⟨respects.formed, fun invite listed pending role known owner => ?_,
      source_next _ _ _ _ history respects⟩
    by_cases before : invite ∈ (run (next roles lower normal text) start labels).invitations
    · exact issued_append _ _ _ _ _
        (history.invitations invite before pending role known owner)
    · obtain ⟨invites, owns⟩ := (respects.invitations invite listed pending).resolve_left before
      exact .inr ⟨labels, label, [], rfl, invites, before, owns role known owner⟩

def someRoles : List Role := [⟨1, "owner", 10⟩, ⟨2, "admin", 20⟩, ⟨3, "member", 1000⟩]

/-- A user with a personal workspace, and one who was not migrated yet. -/
def twoUsers : Store Nat where
  clock := 0
  orgs := [⟨1, "user_1_org"⟩]
  users := [⟨1, some "one@example.org", 1⟩]
  settings := [⟨2, some "two@example.org"⟩]
  members := fun orgId => if orgId = 1 then [⟨1, 1⟩] else []
  invitations := []
  journal := []

/-- A call of one request that takes some steps. -/
def alone (call : Call Nat) (steps : Nat) (one : 0 < call.parts.length) : Label Nat :=
  ⟨call, List.replicate steps (⟨0, one⟩, ⟨1, none, true, none, 3, "token", id⟩)⟩

/-- The first user founds an organisation and invites someone as an owner. -/
def foundAndInvite (email : String) : List (Label Nat) :=
  [alone (.createOrgWithOwner "Team" 1) 3 (by decide),
    alone (.createInvitation 3 email "owner" 1) 5 Nat.one_pos]

/-- The second user accepts the invitation. -/
def accept : Label Nat := alone (.acceptInvitation "token" 2) 8 (by decide)

theorem two_users_formed : WellFormed twoUsers := by
  refine ⟨fun orgId userId belongs => ?_, fun user listed => ?_⟩
  · obtain ⟨member, present, named⟩ := (belongs_iff _ _ _).mp belongs
    dsimp only [twoUsers] at present
    split at present
    case isTrue here =>
      obtain rfl := mem_singleton.mp present
      subst here named
      exact ⟨rfl, rfl⟩
    case isFalse => cases present
  · obtain rfl := mem_singleton.mp listed
    rfl

end ForgePilot.OwnerAuthority
