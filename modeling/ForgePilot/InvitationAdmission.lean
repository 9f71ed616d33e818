import ForgePilot.OrgEffects
import Mathlib.Data.Fintype.Basic

/-!
# What an invitation admits

An acceptance reads the invitation once, and examines its status and its expiry there. It
adds the membership and writes the status some steps later, without looking again. What was
pending may have been accepted or have expired in between, and the person may have been
removed from the organisation. The steps at which nothing of that has happened are the ones
the statements below are about.
-/

namespace ForgePilot.InvitationAdmission

open Runs Processes Organizations OrgRequests List Option Store
open OrgMembers (Role OrgMember Write)

variable {κ : Type} [DecidableEq κ]

def statusOf (store : Store κ) (id : Nat) : Option InvitationStatus :=
  (store.getInvitation id).map OrgInvitation.status

/-- What was done since an invitation was created, latest first. -/
def sinceInvited (id : Nat) (journal : List (Event κ)) : List (Event κ) :=
  journal.takeWhile (fun event => match event with
    | .invited invitation => invitation.id ≠ id
    | _ => true)

/-- What was done since a user was last admitted to an organisation, latest first. -/
def sinceAdmitted (orgId userId : κ) (journal : List (Event κ)) : List (Event κ) :=
  journal.takeWhile (fun event => match event with
    | .admitted invitation admittedId => ¬ (invitation.orgId = orgId ∧ admittedId = userId)
    | _ => true)

/-- A request is about to mark an invitation as accepted. -/
def Accepting (id : Nat) : Phase κ → Prop
  | .accepting invitation => invitation.id = id
  | _ => False

instance (id : Nat) (phase : Phase κ) : Decidable (Accepting id phase) := by
  rcases phase with _ | _
  case accepting invitation => exact inferInstanceAs (Decidable (invitation.id = id))
  all_goals exact instDecidableFalse

/-- The write of a status finds the invitation pending, or with that status. -/
def Finds (store : Store κ) (id : Nat) (status : InvitationStatus) : Prop :=
  statusOf store id = some .pending ∨ statusOf store id = some status

instance (store : Store κ) (id : Nat) (status : InvitationStatus) :
    Decidable (Finds store id status) :=
  inferInstanceAs (Decidable (_ ∨ _))

/-- The requests about invitations, and removals. -/
def Listed : Request κ → Prop
  | .createInvitation .. => True
  | .acceptInvitation .. => True
  | .removeOrgMember .. => True
  | .markExpiredIfNeeded .. => True
  | _ => False

section Requests

variable {ρ : Type} (requests : ρ → Request κ)

/-- A status is written over that of a pending invitation, an acceptance that has added a
membership writes its status, and it adds one where the invitation is pending, no other acceptance
of it is between these two steps, and the user was not removed since the invitation was created. -/
def Careful (world : World (Store κ) ρ (Phase κ)) (label : ρ × Given κ) : Prop :=
  match requests label.1, world.phases label.1 with
  | .acceptInvitation _ _, .expiring invitation =>
      label.2.raises = none → Finds world.shared invitation.id .expired
  | .acceptInvitation _ userId, .adding invitation =>
      label.2.raises = none →
        statusOf world.shared invitation.id = some .pending ∧
        (∀ other, ¬ Accepting invitation.id (world.phases other)) ∧
        .removed invitation.orgId userId ∉ sinceInvited invitation.id world.shared.journal
  | .acceptInvitation _ _, .accepting invitation =>
      label.2.raises = none ∧ Finds world.shared invitation.id .accepted
  | .markExpiredIfNeeded _, .markingExpired invitation =>
      label.2.raises = none → Finds world.shared invitation.id .expired
  | _, _ => True

instance [Fintype ρ] (world : World (Store κ) ρ (Phase κ)) (label : ρ × Given κ) :
    Decidable (Careful requests world label) := by
  unfold Careful
  split <;> infer_instance

end Requests

/-- Two admissions are through different invitations. -/
def Apart (later earlier : Event κ) : Prop :=
  ∀ first firstUser second secondUser, later = .admitted first firstUser →
    earlier = .admitted second secondUser → first.id ≠ second.id

/-! ## The journal -/

variable {newer older : List (Event κ)}

omit [DecidableEq κ] in
/-- What is not among the latest events is behind one that ends them. -/
theorem behind_of_not_since {stays : Event κ → Bool} {event : Event κ} (kept : stays event = true)
    (behind : event ∉ (newer ++ event :: older).takeWhile stays) :
    ∃ first last second, newer = first ++ last :: second ∧ stays last = false := by
  induction newer with
  | nil => simp [kept] at behind
  | cons latest newer ih =>
    cases ends : stays latest with
    | false => exact ⟨[], latest, newer, rfl, ends⟩
    | true =>
      rw [cons_append, takeWhile_cons_of_pos ends, mem_cons, not_or] at behind
      obtain ⟨first, last, second, split, ended⟩ := ih behind.2
      exact ⟨latest :: first, last, second, by rw [split]; rfl, ended⟩

omit [DecidableEq κ] in
/-- What is among the latest events, and not the last of all, was so before that one. -/
theorem since_of_cons {stays : Event κ → Bool} {latest event : Event κ} {journal : List (Event κ)}
    (since : event ∈ (latest :: journal).takeWhile stays) (other : event ≠ latest) :
    event ∈ journal.takeWhile stays := by
  cases ends : stays latest with
  | false => simp [ends] at since
  | true => simpa [takeWhile_cons, ends, other] using since

omit [DecidableEq κ] in
/-- A removal that is not among what was done since an invitation was created came before that. -/
theorem invited_since {id : Nat} {orgId userId : κ}
    (behind : .removed orgId userId ∉ sinceInvited id (newer ++ .removed orgId userId :: older)) :
    ∃ invite, .invited invite ∈ newer ∧ invite.id = id := by
  obtain ⟨first, last, second, split, ended⟩ := behind_of_not_since rfl behind
  cases last with
  | invited invite => exact ⟨invite, by rw [split]; simp, by simpa using ended⟩
  | _ => cases ended

/-- A removal that is not among what was done since a user was admitted came before that. -/
theorem admitted_since {orgId userId : κ} (behind : .removed orgId userId ∉
      sinceAdmitted orgId userId (newer ++ .removed orgId userId :: older)) :
    ∃ invite first second, newer = first ++ .admitted invite userId :: second ∧
      invite.orgId = orgId := by
  obtain ⟨first, last, second, split, ended⟩ := behind_of_not_since rfl behind
  cases last with
  | admitted invite admittedId =>
    have same : invite.orgId = orgId ∧ admittedId = userId := by simpa using ended
    obtain ⟨here, rfl⟩ := same
    exact ⟨invite, first, second, split, here⟩
  | _ => cases ended

/-! ## The store -/

omit [DecidableEq κ] in
/-- The status after a status has been written. -/
theorem status_of_update (store : Store κ) (id other : Nat) (status : InvitationStatus)
    (acceptedBy : Option κ) :
    statusOf (store.updateInvitationStatus id status acceptedBy).1 other =
      if other = id then (statusOf store id).map (fun _ => status) else statusOf store other := by
  unfold updateInvitationStatus
  split
  case h_1 missing =>
    split
    case isTrue same =>
      subst same
      rw [statusOf, missing]
      rfl
    case isFalse => rfl
  case h_2 invite found =>
    have named : invite.id = id := by simpa using find?_some found
    -- the row that is written keeps its identifier, so rows are found as before
    have rows : ∀ written : OrgInvitation κ, written.id = id → written.status = status →
        ((store.invitations.map (fun row => if row.id = id then written else row)).find?
            (fun row => row.id = other)).map OrgInvitation.status =
          if other = id then (statusOf store id).map (fun _ => status) else statusOf store other := by
      intro written sameId sameStatus
      have before : (fun row : OrgInvitation κ => decide (row.id = other)) ∘
          (fun row => if row.id = id then written else row) = fun row => decide (row.id = other) := by
        funext row
        by_cases here : row.id = id <;> simp [here, sameId]
      rw [find?_map, before, Option.map_map]
      split
      case isTrue same =>
        subst same
        rw [getInvitation] at found
        rw [statusOf, getInvitation, found]
        simp [named, sameStatus]
      case isFalse apart =>
        refine map_congr fun row present => ?_
        have named : row.id = other := by simpa using find?_some present
        rw [Function.comp, named, if_neg apart]
    refine rows _ ?_ ?_ <;> split <;> first | exact named | rfl

variable {invite : OrgInvitation κ} {status : InvitationStatus}

/-- An invitation that is there keeps its status when another is created. -/
theorem status_of_create {normal : String → String} {store next : Store κ} {orgId : κ}
    {email : String} {roleId : Nat} {inviterId : κ} {token : String}
    (creates : store.createInvitation normal orgId email roleId inviterId token =
      some (next, invite)) {id : Nat} (was : statusOf store id = some status) :
    statusOf next id = some status := by
  obtain ⟨rfl, -⟩ := create_invitation_tables _ _ _ _ creates
  obtain ⟨found, present, same⟩ := map_eq_some_iff.mp was
  rw [getInvitation] at present
  rw [statusOf, getInvitation, note, find?_append, present]
  exact congrArg some same

/-! ## What is kept -/

/-- Only existing organisations have members, and had members that were removed; who was removed
last is not a member; admissions are through different invitations, each created after every
removal of the person from the organisation. -/
structure Recorded (store : Store κ) : Prop where
  existing : ∀ orgId userId, Belongs store orgId userId → (store.getOrgById orgId).isSome = true
  founded : ∀ orgId userId, .removed orgId userId ∈ store.journal →
    (store.getOrgById orgId).isSome = true
  out : ∀ orgId userId, .removed orgId userId ∈ sinceAdmitted orgId userId store.journal →
    ¬ Belongs store orgId userId
  once : store.journal.Pairwise Apart
  invited : ∀ invitation userId older, (.admitted invitation userId :: older) <:+ store.journal →
    .removed invitation.orgId userId ∉ sinceInvited invitation.id older

/-- Neither a removal nor an admission. -/
def Inert : Event κ → Prop
  | .removed _ _ => False
  | .admitted _ _ => False
  | _ => True

omit [DecidableEq κ] in
/-- An event that is no admission is apart from all others. -/
theorem apart_of_inert (event other : Event κ) (inert : Inert event) : Apart event other := by
  rintro first firstUser second secondUser rfl -
  exact inert.elim

/-- What is kept after an event that is neither a removal nor an admission. -/
theorem recorded_of_inert (store next : Store κ) (event : Event κ) (recorded : Recorded store)
    (inert : Inert event) (journal : next.journal = event :: store.journal)
    (existing : ∀ orgId userId, Belongs next orgId userId → (next.getOrgById orgId).isSome = true)
    (orgs : ∀ orgId, (store.getOrgById orgId).isSome = true → (next.getOrgById orgId).isSome = true)
    (out : ∀ orgId userId, .removed orgId userId ∈ store.journal →
      ¬ Belongs store orgId userId → ¬ Belongs next orgId userId) : Recorded next := by
  have passes : ∀ orgId userId, .removed orgId userId ∈ next.journal →
      .removed orgId userId ∈ store.journal := by
    intro orgId userId listed
    rw [journal] at listed
    rcases listed with _ | ⟨_, before⟩
    · exact inert.elim
    · exact before
  refine ⟨existing, fun orgId userId listed =>
      orgs orgId (recorded.founded orgId userId (passes orgId userId listed)), ?_, ?_, ?_⟩
  · intro orgId userId since
    have before := passes orgId userId ((takeWhile_sublist _).mem since)
    refine out orgId userId before (recorded.out orgId userId ?_)
    rw [journal] at since
    exact since_of_cons since (by rintro rfl; exact inert)
  · rw [journal]
    exact pairwise_cons.mpr ⟨fun other _ => apart_of_inert _ _ inert, recorded.once⟩
  · intro invite userId older suffix
    rw [journal] at suffix
    rcases suffix_cons_iff.mp suffix with same | before
    · obtain ⟨rfl, rfl⟩ := cons.inj same
      exact inert.elim
    · exact recorded.invited invite userId older before

/-- What is kept after an event that changes neither organisations nor members. -/
theorem recorded_of_note (store next : Store κ) (event : Event κ) (recorded : Recorded store)
    (inert : Inert event) (journal : next.journal = event :: store.journal)
    (orgs : next.orgs = store.orgs)
    (members : ∀ orgId userId, Belongs next orgId userId ↔ Belongs store orgId userId) :
    Recorded next := by
  have found : ∀ orgId, next.getOrgById orgId = store.getOrgById orgId := by
    intro orgId
    rw [getOrgById, orgs, getOrgById]
  refine recorded_of_inert _ _ _ recorded inert journal (fun orgId userId belongs => ?_)
    (fun orgId founded => ?_) fun orgId userId _ out belongs => out ((members _ _).mp belongs)
  · rw [found]
    exact recorded.existing orgId userId ((members _ _).mp belongs)
  · rw [found]
    exact founded

/-- What is kept where organisations, members and the journal stay. -/
theorem recorded_of_same (store next : Store κ) (recorded : Recorded store)
    (journal : next.journal = store.journal) (orgs : next.orgs = store.orgs)
    (members : next.members = store.members) : Recorded next := by
  have belongs : ∀ orgId userId, Belongs next orgId userId ↔ Belongs store orgId userId := by
    intro orgId userId
    rw [belongs_iff, belongs_iff, members]
  have found : ∀ orgId, next.getOrgById orgId = store.getOrgById orgId := by
    intro orgId
    rw [getOrgById, orgs, getOrgById]
  refine ⟨fun orgId userId here => ?_, fun orgId userId listed => ?_, fun orgId userId since => ?_,
    ?_, ?_⟩
  · rw [found]
    exact recorded.existing orgId userId ((belongs _ _).mp here)
  · rw [found]
    exact recorded.founded orgId userId (journal ▸ listed)
  · rw [belongs]
    exact recorded.out orgId userId (journal ▸ since)
  · rw [journal]
    exact recorded.once
  · rw [journal]
    exact recorded.invited

variable {store : Store κ}

/-- What is kept when a member is removed. -/
theorem recorded_removed {orgId targetUserId : κ} (recorded : Recorded store)
    (present : Belongs store orgId targetUserId) :
    Recorded ((store.setMembers orgId
      (OrgMembers.removeUserFromOrg (store.members orgId) targetUserId)).note
        (.removed orgId targetUserId)) := by
  have belongs := belongs_remove store orgId targetUserId
  refine ⟨fun other userId here => recorded.existing other userId ((belongs _ _).mp here).1,
    fun other userId listed => ?_, fun other userId since here => ?_, ?_, ?_⟩
  · rcases mem_cons.mp listed with same | before
    · obtain ⟨rfl, rfl⟩ := Event.removed.inj same
      exact recorded.existing _ _ present
    · exact recorded.founded other userId before
  · obtain ⟨before, apart⟩ := (belongs other userId).mp here
    rcases mem_cons.mp since with same | since
    · exact apart ⟨(Event.removed.inj same).1, (Event.removed.inj same).2⟩
    · exact recorded.out other userId since before
  · refine pairwise_cons.mpr ⟨?_, recorded.once⟩
    rintro other _ _ _ _ _ ⟨⟩
  · intro invite userId older suffix
    rcases suffix_cons_iff.mp suffix with same | before
    · cases same
    · exact recorded.invited invite userId older before

/-- What is kept when a user is admitted, through an invitation that has admitted nobody and was
created after every removal of that user. -/
theorem recorded_admitted {userId : κ} (roleId : Nat) (recorded : Recorded store)
    (founded : (store.getOrgById invite.orgId).isSome = true)
    (first : ∀ prior user, .admitted prior user ∈ store.journal → invite.id ≠ prior.id)
    (invited : .removed invite.orgId userId ∉ sinceInvited invite.id store.journal) :
    Recorded ((store.setMembers invite.orgId
      (store.members invite.orgId ++ [⟨userId, roleId⟩])).note (.admitted invite userId)) := by
  have belongs := belongs_append store invite.orgId userId roleId
  refine ⟨fun other user here => ?_, fun other user listed => ?_, fun other user since here => ?_,
    ?_, ?_⟩
  · rcases (belongs other user).mp here with before | ⟨rfl, -⟩
    · exact recorded.existing other user before
    · exact founded
  · rcases listed with _ | ⟨_, before⟩
    exact recorded.founded other user before
  · rcases (belongs other user).mp here with before | ⟨rfl, rfl⟩
    · refine recorded.out other user ?_ before
      exact since_of_cons since nofun
    · simp [sinceAdmitted, note] at since
  · refine pairwise_cons.mpr ⟨?_, recorded.once⟩
    rintro other listed one oneUser another anotherUser same rfl
    obtain ⟨rfl, rfl⟩ := Event.admitted.inj same
    exact first another anotherUser listed
  · intro other user older suffix
    rcases suffix_cons_iff.mp suffix with same | before
    · obtain ⟨head, rfl⟩ := cons.inj same
      obtain ⟨rfl, rfl⟩ := Event.admitted.inj head
      exact invited
    · exact recorded.invited other user older before

variable (roles : List Role) (lower normal : String → String) (text : κ → String)

variable {request : Request κ} {given : Given κ} {phase : Phase κ} {next : Store κ × Phase κ}
  (effect : Effect roles normal text request store given phase next)
include effect

/-- What a step keeps, where an admission is through an invitation that has admitted nobody and
was created after every removal of the user. -/
theorem effect_recorded (recorded : Recorded store) (listed : Listed request)
    (admits : ∀ token userId invite, request = .acceptInvitation token userId →
      phase = .adding invite → given.raises = none →
      (∀ prior user, .admitted prior user ∈ store.journal → invite.id ≠ prior.id) ∧
        .removed invite.orgId userId ∉ sinceInvited invite.id store.journal) : Recorded next.1 := by
  cases effect with
  | kept => exact recorded
  | switched userId orgId org next found phase' asked =>
    rw [asked] at listed
    exact listed.elim
  | reset orgId targetUserId currentUserId next found phase' asked updated =>
    obtain ⟨-, members, orgs, -, journal, -⟩ := update_current_org_tables _ _ _ updated
    exact recorded_of_same _ _ recorded journal orgs members
  | migrated settings next user _ phase' missing migrates =>
    obtain ⟨free, -, role, -, rfl⟩ := migrate_user_tables _ _ _ _ _ migrates
    have belongs := belongs_append store settings.keycloakUserId settings.keycloakUserId role.id
    have orgs : ∀ orgId, (store.getOrgById orgId).isSome = true → (getOrgById
        { store with orgs := store.orgs ++ [⟨settings.keycloakUserId,
          personalName text settings.keycloakUserId⟩] } orgId).isSome = true := by
      intro orgId founded
      rw [org_found_iff] at founded ⊢
      obtain ⟨org, present, named⟩ := founded
      exact ⟨org, mem_append_left _ present, named⟩
    refine recorded_of_inert store _ (.migrated settings.keycloakUserId) recorded trivial rfl
      (fun orgId userId here => ?_) orgs fun orgId userId before out here => ?_
    · rcases (belongs orgId userId).mp here with before | ⟨rfl, -⟩
      · exact orgs orgId (recorded.existing orgId userId before)
      · exact (org_found_iff _ _).mpr
          ⟨_, mem_append_right _ (.head _), rfl⟩
    · rcases (belongs orgId userId).mp here with here | ⟨rfl, rfl⟩
      · exact out here
      · have founded := recorded.founded _ _ before
        rw [free] at founded
        cases founded
  | removed orgId targetUserId currentUserId write member asked present out =>
    exact recorded_removed recorded
      (by rw [Belongs, present]; rfl)
  | roleGiven orgId targetUserId currentUserId write member newRole asked present changed =>
    exact recorded_of_note _ _ (.roleGiven orgId targetUserId currentUserId newRole.id) recorded
      trivial rfl rfl (belongs_update_role store orgId targetUserId newRole.id)
  | deleted userId orgId next org phase' asked =>
    rw [asked] at listed
    exact listed.elim
  | issued orgId email roleName inviterId targetRole next invite asked issues =>
    obtain ⟨rfl, -⟩ := create_invitation_tables _ _ _ _ issues
    exact recorded_of_note store _ (.invited invite) recorded trivial rfl rfl
      fun _ _ => Iff.rfl
  | stated invite _ phase' status acceptedBy =>
    rcases update_invitation_status_tables store invite.id status acceptedBy with
      same | ⟨prior, invitations, written⟩
    · rw [same]
      exact recorded
    · rw [written]
      exact recorded_of_note _ _ (.statusWritten invite.id prior status) recorded
        trivial rfl rfl fun _ _ => Iff.rfl
  | admitted token userId invite next asked silent adds =>
    obtain ⟨founded, -, -, rfl⟩ := add_user_to_org_tables _ _ _ _ _ adds
    obtain ⟨first, invited⟩ := admits token userId invite asked rfl silent
    exact recorded_admitted _ recorded founded first invited
  | founded name userId orgId ownerRole next asked =>
    rw [asked] at listed
    exact listed.elim

/-- An admission that is in the journal after a step was there before, or is the step. -/
theorem effect_admitted {userId : κ} (listed : .admitted invite userId ∈ next.1.journal) :
    .admitted invite userId ∈ store.journal ∨
      (∃ token, request = .acceptInvitation token userId) ∧ phase = .adding invite ∧
        given.raises = none ∧ next.2 = .accepting invite := by
  have later : ∀ event, .admitted invite userId ∈ event :: store.journal →
      event ≠ .admitted invite userId → .admitted invite userId ∈ store.journal := by
    intro event member other
    rcases mem_cons.mp member with same | before
    · exact absurd same.symm other
    · exact before
  cases effect with
  | kept => exact .inl listed
  | switched user orgId org next found phase' asked silent updated =>
    obtain ⟨-, -, -, -, journal, -⟩ := update_current_org_tables _ _ _ updated
    exact .inl (journal ▸ listed)
  | reset orgId target current next found phase' asked updated =>
    obtain ⟨-, -, -, -, journal, -⟩ := update_current_org_tables _ _ _ updated
    exact .inl (journal ▸ listed)
  | migrated settings next user _ phase' missing migrates =>
    obtain ⟨-, -, role, -, rfl⟩ := migrate_user_tables _ _ _ _ _ migrates
    exact .inl (later _ listed nofun)
  | removed => exact .inl (later _ listed nofun)
  | roleGiven => exact .inl (later _ listed nofun)
  | deleted user orgId next org phase' asked cascades =>
    rcases delete_org_cascade_tables cascades with rfl | ⟨-, rfl⟩
    · exact .inl listed
    · exact .inl listed
  | issued orgId email roleName inviterId targetRole next created asked issues =>
    obtain ⟨rfl, -⟩ := create_invitation_tables _ _ _ _ issues
    exact .inl (later _ listed nofun)
  | stated written _ phase' status acceptedBy =>
    rcases update_invitation_status_tables store written.id status acceptedBy with
      same | ⟨prior, invitations, same⟩
    · rw [same] at listed
      exact .inl listed
    · rw [same] at listed
      exact .inl (later _ listed nofun)
  | admitted token user admitted next asked silent adds =>
    obtain ⟨-, -, -, rfl⟩ := add_user_to_org_tables _ _ _ _ _ adds
    rcases mem_cons.mp listed with same | before
    · obtain ⟨rfl, rfl⟩ := Event.admitted.inj same
      exact .inr ⟨⟨token, asked⟩, rfl, silent, rfl⟩
    · exact .inl before
  | founded name user orgId ownerRole next asked persists =>
    obtain ⟨-, -, rfl⟩ := persist_org_with_owner_tables
      persists
    exact .inl (later _ listed nofun)

/-- An invitation that a step finds is there afterwards, with its status unless it was pending. -/
theorem effect_status
    (finds : ∀ invite status acceptedBy, Marks request invite phase status acceptedBy →
      given.raises = none → Finds store invite.id status) {id : Nat}
    (was : statusOf store id = some status) :
    ∃ later, statusOf next.1 id = some later ∧ (status ≠ .pending → later = status) := by
  have same : ∀ next : Store κ, next.invitations = store.invitations →
      ∃ later, statusOf next id = some later ∧ (status ≠ .pending → later = status) := by
    intro next invitations
    refine ⟨status, ?_, fun _ => rfl⟩
    rw [statusOf, getInvitation, invitations]
    exact was
  cases effect with
  | kept => exact same store rfl
  | switched user orgId org next found phase' asked silent updated =>
    exact same next (update_current_org_tables _ _ _ updated).2.2.2.1
  | reset orgId target current next found phase' asked updated =>
    exact same next (update_current_org_tables _ _ _ updated).2.2.2.1
  | migrated settings next user _ phase' missing migrates =>
    obtain ⟨-, -, role, -, rfl⟩ := migrate_user_tables _ _ _ _ _ migrates
    exact same _ rfl
  | removed => exact same _ rfl
  | roleGiven => exact same _ rfl
  | deleted user orgId next org phase' asked cascades =>
    rcases delete_org_cascade_tables cascades with rfl | ⟨-, rfl⟩
    · exact same next rfl
    · exact same _ rfl
  | issued orgId email roleName inviterId targetRole next created asked issues =>
    exact ⟨status, status_of_create issues was, fun _ => rfl⟩
  | stated invite _ phase' written acceptedBy marks silent =>
    have found := finds invite written acceptedBy marks silent
    rw [status_of_update]
    split
    case isFalse => exact ⟨status, was, fun _ => rfl⟩
    case isTrue here =>
      subst here
      rw [was]
      refine ⟨written, rfl, fun settled => ?_⟩
      rcases found with pending | already
      · rw [was] at pending
        exact absurd (some.inj pending) settled
      · rw [was] at already
        exact (some.inj already).symm
  | admitted token user admitted next asked silent adds =>
    obtain ⟨-, -, -, rfl⟩ := add_user_to_org_tables _ _ _ _ _ adds
    exact same _ rfl
  | founded name user orgId ownerRole next asked persists =>
    obtain ⟨-, -, rfl⟩ := persist_org_with_owner_tables
      persists
    exact same _ rfl

/-- Only the passing of time changes the clock. -/
theorem effect_clock : next.1.clock = store.clock := by
  cases effect with
  | kept => rfl
  | switched user orgId org next found phase' asked silent updated =>
    exact (update_current_org_tables _ _ _ updated).2.2.2.2.2
  | reset orgId target current next found phase' asked updated =>
    exact (update_current_org_tables _ _ _ updated).2.2.2.2.2
  | migrated settings next user _ phase' missing migrates =>
    obtain ⟨-, -, role, -, rfl⟩ := migrate_user_tables _ _ _ _ _ migrates
    rfl
  | removed => rfl
  | roleGiven => rfl
  | deleted user orgId next org phase' asked cascades =>
    rcases delete_org_cascade_tables cascades with rfl | ⟨-, rfl⟩
    · rfl
    · rfl
  | issued orgId email roleName inviterId targetRole next created asked issues =>
    obtain ⟨rfl, -⟩ := create_invitation_tables _ _ _ _ issues
    rfl
  | stated invite _ phase' status acceptedBy =>
    rcases update_invitation_status_tables store invite.id status acceptedBy with
      same | ⟨prior, invitations, same⟩
    · rw [same]
    · rw [same]
      rfl
  | admitted token user admitted next asked silent adds =>
    obtain ⟨-, -, -, rfl⟩ := add_user_to_org_tables _ _ _ _ _ adds
    rfl
  | founded name user orgId ownerRole next asked persists =>
    obtain ⟨-, -, rfl⟩ := persist_org_with_owner_tables
      persists
    rfl

omit effect

section Runs

variable {ρ : Type} [DecidableEq ρ] (requests : ρ → Request κ)

/-- What is kept, and each invitation that has admitted a user is no longer pending, or an
acceptance of it is about to mark it. -/
structure Admitting (world : World (Store κ) ρ (Phase κ)) : Prop where
  recorded : Recorded world.shared
  marked : ∀ invitation userId, .admitted invitation userId ∈ world.shared.journal →
    ∃ status, statusOf world.shared invitation.id = some status ∧ (status = .pending →
      ∃ name token acceptor, requests name = .acceptInvitation token acceptor ∧
        Accepting invitation.id (world.phases name))

variable {world : World (Store κ) ρ (Phase κ)}

omit [DecidableEq κ] [DecidableEq ρ] in
/-- A careful step writes a status only over that of a pending invitation, or over the same. -/
theorem careful_finds {name : ρ} (careful : Careful requests world (name, given))
    (invite : OrgInvitation κ) (status : InvitationStatus) (acceptedBy : Option κ)
    (marks : Marks (requests name) invite (world.phases name) status acceptedBy)
    (silent : given.raises = none) : Finds world.shared invite.id status := by
  unfold Careful at careful
  generalize here : world.phases name = phase at marks
  rw [here] at careful
  cases marks with
  | expiring token userId asked =>
    rw [asked] at careful
    exact careful silent
  | accepting token userId asked =>
    rw [asked] at careful
    exact careful.2
  | marking token asked =>
    rw [asked] at careful
    exact careful silent

/-- A careful step keeps the status of an invitation that is no longer pending. -/
theorem advance_status {label : ρ × Given κ} (careful : Careful requests world label) {id : Nat}
    (was : statusOf world.shared id = some status) :
    ∃ later, statusOf (advance (move roles lower normal text requests) world label).shared id =
      some later ∧ (status ≠ .pending → later = status) :=
  effect_status roles normal text
    (act_effect roles lower normal text (requests label.1) (world.shared.tick label.2.elapsed)
      _ _)
    (careful_finds _ careful) was

/-- An acceptance that has added a membership marks its invitation. -/
theorem accepting_marks {name : ρ} {token : String} {acceptor : κ} {id : Nat}
    (asked : requests name = .acceptInvitation token acceptor)
    (accepting : Accepting id (world.phases name)) (careful : Careful requests world (name, given))
    (was : statusOf world.shared id = some status) :
    statusOf (advance (move roles lower normal text requests) world (name, given)).shared id =
      some .accepted := by
  unfold Careful at careful
  rw [advance, put_shared]
  dsimp only at careful ⊢
  rw [asked] at careful
  cases here : world.phases name with
  | accepting invite =>
    rw [here] at accepting careful
    obtain rfl : invite.id = id := accepting
    rw [move, asked]
    dsimp [act, acceptInvitation]
    rw [if_neg (by simp [careful.1])]
    have marked := status_of_update (world.shared.tick given.elapsed) invite.id invite.id
      .accepted (some acceptor)
    rw [if_pos rfl] at marked
    have found : statusOf (world.shared.tick given.elapsed) invite.id = some status := was
    rw [found] at marked
    split
    case h_1 wrote =>
      rw [wrote] at marked
      exact marked
    case h_2 wrote =>
      rw [wrote] at marked
      exact marked
  | _ =>
    rw [here] at accepting
    exact accepting.elim

/-- A careful step keeps what is known of admissions. -/
theorem advance_admitting {world : World (Store κ) ρ (Phase κ)} {label : ρ × Given κ}
    (listed : ∀ name, Listed (requests name)) (admitting : Admitting requests world)
    (careful : Careful requests world label) :
    Admitting requests (advance (move roles lower normal text requests) world label) := by
  obtain ⟨name, given⟩ := label
  have effect := act_effect roles lower normal text (requests name)
    (world.shared.tick given.elapsed) (world.phases name) given
  have recorded : Recorded (world.shared.tick given.elapsed) :=
    ⟨admitting.recorded.existing, admitting.recorded.founded, admitting.recorded.out,
      admitting.recorded.once, admitting.recorded.invited⟩
  have adding : ∀ token userId invite, requests name = .acceptInvitation token userId →
      world.phases name = .adding invite → given.raises = none →
      statusOf world.shared invite.id = some .pending ∧
        (∀ other, ¬ Accepting invite.id (world.phases other)) ∧
        .removed invite.orgId userId ∉ sinceInvited invite.id world.shared.journal := by
    intro token userId invite asked here
    unfold Careful at careful
    rw [asked, here] at careful
    exact careful
  refine ⟨?_, fun invite userId member => ?_⟩
  · refine effect_recorded _ _ _ effect recorded (listed name)
      fun token userId invite asked here silent => ?_
    obtain ⟨pending, nobody, invited⟩ := adding token userId invite asked here silent
    refine ⟨fun prior user admitted same => ?_, invited⟩
    obtain ⟨status, was, marking⟩ := admitting.marked prior user admitted
    rw [← same, pending] at was
    obtain ⟨other, -, -, -, accepting⟩ := marking (some.inj was).symm
    exact nobody other (same ▸ accepting)
  · rcases effect_admitted _ _ _ effect
      member with before | ⟨⟨token, asked⟩, here, silent, next⟩
    · obtain ⟨status, was, marking⟩ := admitting.marked invite userId before
      obtain ⟨later, is, settled⟩ := advance_status _ _ _ _ _
        careful was
      refine ⟨later, is, ?_⟩
      rintro rfl
      by_cases pending : status = .pending
      · obtain ⟨other, token, acceptor, asked, accepting⟩ := marking pending
        by_cases mine : other = name
        · subst mine
          rw [accepting_marks _ _ _ _ _ asked accepting careful was] at is
          cases is
        · refine ⟨other, token, acceptor, asked, ?_⟩
          rwa [advance, put_other _ _ _ _ mine]
      · exact absurd (settled pending).symm pending
    · obtain ⟨pending, -, -⟩ := adding token userId invite asked here silent
      obtain ⟨later, is, -⟩ := advance_status _ _ _ _ _
        careful pending
      refine ⟨later, is, fun _ => ⟨name, token, userId, asked, ?_⟩⟩
      rw [advance, put_same]
      exact (congrArg (Accepting invite.id) next).mpr rfl

/-! ## What was read -/

/-- In some state of the run the invitation was there, pending and not expired. -/
def Seen (start : Store κ) (labels : List (ρ × Given κ)) (token : String)
    (invitation : OrgInvitation κ) : Prop :=
  ∃ world, Reached (advance (move roles lower normal text requests)) (initial start) labels world ∧
    world.shared.getInvitationByToken token = some invitation ∧ invitation.status = .pending ∧
    invitation.isTokenExpired world.shared.clock = false

/-- The mail address of the invitation is that of the user, in the table of users in some state of
the run or as the identity provider gives it, up to the normal form. -/
def Addressed (start : Store κ) (labels : List (ρ × Given κ)) (name : ρ) (userId : κ)
    (invitation : OrgInvitation κ) : Prop :=
  ∃ address, normal address = normal invitation.email ∧
    ((∃ world, Reached (advance (move roles lower normal text requests)) (initial start) labels
        world ∧ ∃ user ∈ world.shared.users, user.id = userId ∧ user.email = some address) ∨
      ∃ given, (name, given) ∈ labels ∧ given.known = true ∧ given.email = some address)

/-- What an acceptance has seen of its invitation. -/
def Past (start : Store κ) (labels : List (ρ × Given κ)) (name : ρ) (token : String) (userId : κ)
    (clock : Nat) : Phase κ → Prop
  | .examining invitation =>
      ∃ world, Reached (advance (move roles lower normal text requests)) (initial start) labels
        world ∧ world.shared.getInvitationByToken token = some invitation ∧
        world.shared.clock ≤ clock
  | .identifying invitation => Seen roles lower normal text requests start labels token invitation
  | .fetchingEmail invitation => Seen roles lower normal text requests start labels token invitation
  | .checkingMember invitation =>
      Seen roles lower normal text requests start labels token invitation ∧
        Addressed roles lower normal text requests start labels name userId invitation
  | .integrating invitation =>
      Seen roles lower normal text requests start labels token invitation ∧
        Addressed roles lower normal text requests start labels name userId invitation
  | .loadingOrg invitation =>
      Seen roles lower normal text requests start labels token invitation ∧
        Addressed roles lower normal text requests start labels name userId invitation
  | .adding invitation =>
      Seen roles lower normal text requests start labels token invitation ∧
        Addressed roles lower normal text requests start labels name userId invitation
  | _ => True

variable (start : Store κ)

variable (labels more : List (ρ × Given κ))

/-- What was seen of an invitation stays so when the run goes on. -/
theorem seen_append (token : String) (invite : OrgInvitation κ)
    (seen : Seen roles lower normal text requests start labels token invite) :
    Seen roles lower normal text requests start (labels ++ more) token invite := by
  obtain ⟨world, reached, facts⟩ := seen
  exact ⟨world, reached_append _ _ _ _ _ reached, facts⟩

/-- Where the mail addresses agree, they do so when the run goes on. -/
theorem addressed_append (name : ρ) (userId : κ) (invite : OrgInvitation κ)
    (addressed : Addressed roles lower normal text requests start labels name userId invite) :
    Addressed roles lower normal text requests start (labels ++ more) name userId invite := by
  obtain ⟨address, same, ⟨world, reached, facts⟩ | ⟨given, listed, facts⟩⟩ := addressed
  · exact ⟨address, same, .inl ⟨world, reached_append _ _ _ _ _ reached, facts⟩⟩
  · exact ⟨address, same, .inr ⟨given, mem_append_left _ listed, facts⟩⟩

/-- What an acceptance has seen stays so when the run goes on, and time passes. -/
theorem past_append (name : ρ) (token : String) (userId : κ) (clock later : Nat) (phase : Phase κ)
    (passes : clock ≤ later)
    (past : Past roles lower normal text requests start labels name token userId clock phase) :
    Past roles lower normal text requests start (labels ++ more) name token userId later phase := by
  have seen := seen_append roles lower normal text requests start labels more token
  have addressed := addressed_append roles lower normal text requests start labels more name userId
  unfold Past at past ⊢
  split at past
  case h_1 =>
    obtain ⟨world, reached, found, before⟩ := past
    exact ⟨world, reached_append _ _ _ _ _ reached, found, Nat.le_trans before passes⟩
  case h_2 => exact seen _ past
  case h_3 => exact seen _ past
  case h_8 => trivial
  all_goals exact ⟨seen _ past.1, addressed _ past.2⟩

/-- A user that is looked up by identifier and found is in the table afterwards. -/
theorem get_user_by_id_found (store next : Store κ) (userId : κ) (known : Bool) (user : User κ)
    (got : store.getUserById roles text userId known = some (next, some user)) :
    user ∈ next.users ∧ user.id = userId := by
  cases get_user_by_id_cases _ _ got with
  | present present => exact find_user_some present
  | migrated settings _ _ _ migrates =>
    obtain ⟨-, rfl, role, -, rfl⟩ := migrate_user_tables _ _ _ _ _ migrates
    exact ⟨mem_append_right _ (.head _), rfl⟩

omit [DecidableEq κ] in
/-- An acceptance goes on from the comparison of the mail addresses where they agree. -/
theorem match_email_past (invite : OrgInvitation κ) (email : Option String) :
    (∃ error, matchEmail normal invite email = raise error) ∨
      matchEmail normal invite email = .checkingMember invite ∧
        ∃ address, email = some address ∧ normal address = normal invite.email := by
  unfold matchEmail
  split
  case h_1 => exact .inl ⟨_, rfl⟩
  case h_2 address filtered =>
    split
    case isTrue => exact .inl ⟨_, rfl⟩
    case isFalse same =>
      exact .inr ⟨rfl, address, (filter_eq_some_iff.mp filtered).1, not_not.mp same⟩

/-- What an acceptance has seen after a step of its own. -/
theorem accept_past (labels : List (ρ × Given κ)) (name : ρ) (token : String) (userId : κ)
    (store shared : Store κ) (phase phase' : Phase κ) (given : Given κ)
    (next : World (Store κ) ρ (Phase κ))
    (after : Reached (advance (move roles lower normal text requests)) (initial start)
      (labels ++ [(name, given)]) next) (is : next.shared = shared)
    (acted : acceptInvitation roles normal text token userId store phase given = (shared, phase'))
    (past : Past roles lower normal text requests start labels name token userId store.clock phase)
    :
    Past roles lower normal text requests start (labels ++ [(name, given)]) name token userId
      shared.clock phase' := by
  have seen := seen_append roles lower normal text requests start labels [(name, given)] token
  have addressed :=
    addressed_append roles lower normal text requests start labels [(name, given)] name userId
  -- where the mail addresses are compared, the invitation has been seen and the address is known
  have compared : ∀ invite email clock,
      Seen roles lower normal text requests start labels token invite →
      (∀ address, email = some address → normal address = normal invite.email →
        Addressed roles lower normal text requests start (labels ++ [(name, given)]) name userId
          invite) →
      Past roles lower normal text requests start (labels ++ [(name, given)]) name token userId
        clock (matchEmail normal invite email) := by
    intro invite email clock known address
    rcases match_email_past .. with ⟨error, same⟩ | ⟨same, found, named, agrees⟩
    · rw [same]
      trivial
    · rw [same]
      exact ⟨seen _ known, address found named agrees⟩
  unfold acceptInvitation at acted
  split at acted
  case h_1 =>
    split at acted
    case isTrue =>
      cases acted
      trivial
    case isFalse =>
      split at acted
      case h_1 =>
        cases acted
        trivial
      case h_2 invite found =>
        cases acted
        exact ⟨next, after, by rw [is]; exact found, Nat.le_of_eq (by rw [is])⟩
  case h_2 invite =>
    cases acted
    obtain ⟨world, reached, found, before⟩ := past
    unfold examine
    split
    case h_4 pending =>
      split
      case isTrue => trivial
      case isFalse unexpired =>
        refine ⟨world, reached_append _ _ _ _ _ reached, found, pending, ?_⟩
        simp only [OrgInvitation.isTokenExpired, decide_eq_true_eq, decide_eq_false_iff_not] at *
        omega
    all_goals trivial
  case h_3 => split at acted <;> (cases acted; trivial)
  case h_4 invite =>
    split at acted
    case h_4 user _ got =>
      cases acted
      obtain ⟨listed, named⟩ := get_user_by_id_found _ _ _ _ _ _ _ got
      split
      case isTrue =>
        exact compared invite user.email shared.clock past fun address email agrees =>
          ⟨address, agrees, .inl ⟨next, after, user, is ▸ listed, named, email⟩⟩
      case isFalse => exact seen _ past
    all_goals
      cases acted
      trivial
  case h_5 invite =>
    split at acted
    case isTrue =>
      cases acted
      trivial
    case isFalse =>
      cases acted
      refine compared invite _ store.clock past fun address email agrees => ?_
      split at email
      case isTrue known =>
        exact ⟨address, agrees, .inr ⟨given, mem_append_right _ (.head _), known, email⟩⟩
      case isFalse => cases email
  case h_6 invite =>
    split at acted
    case isTrue =>
      cases acted
      trivial
    case isFalse =>
      split at acted
      case isTrue =>
        cases acted
        trivial
      case isFalse =>
        cases acted
        exact ⟨seen _ past.1, addressed _ past.2⟩
  case h_7 invite =>
    split at acted
    case isTrue =>
      cases acted
      trivial
    case isFalse =>
      cases acted
      exact ⟨seen _ past.1, addressed _ past.2⟩
  case h_8 invite =>
    split at acted
    case isTrue =>
      cases acted
      trivial
    case isFalse =>
      split at acted
      case isTrue =>
        cases acted
        trivial
      case isFalse =>
        cases acted
        exact ⟨seen _ past.1, addressed _ past.2⟩
  case h_9 => split at acted <;> (cases acted; trivial)
  case h_10 =>
    split at acted
    case isTrue =>
      cases acted
      trivial
    case isFalse => split at acted <;> (cases acted; trivial)
  case h_11 =>
    cases acted
    exact past_append _ _ _ _ _ _ _ _ _ _ _
      _ _ _ le_rfl past

/-- What the acceptances have seen, and what was seen before each admission. -/
structure History (start : Store κ) (labels : List (ρ × Given κ))
    (world : World (Store κ) ρ (Phase κ)) : Prop where
  past : ∀ name token userId, requests name = .acceptInvitation token userId →
    Past roles lower normal text requests start labels name token userId world.shared.clock
      (world.phases name)
  admitted : ∀ invitation userId, .admitted invitation userId ∈ world.shared.journal →
    ∃ name token, requests name = .acceptInvitation token userId ∧
      Seen roles lower normal text requests start labels token invitation ∧
      Addressed roles lower normal text requests start labels name userId invitation

/-- Every run has such a history. -/
theorem run_history (fresh : start.journal = []) (labels : List (ρ × Given κ)) :
    History roles lower normal text requests start labels
      (run (advance (move roles lower normal text requests)) (initial start) labels) := by
  induction labels using reverseRecOn with
  | nil =>
    refine ⟨fun _ _ _ _ => trivial, fun invite userId listed => ?_⟩
    rw [run_nil, initial, fresh] at listed
    cases listed
  | append_singleton labels label ih =>
    obtain ⟨name, given⟩ := label
    have after := reached_run (advance (move roles lower normal text requests)) (initial start)
      (labels ++ [(name, given)])
    rw [run_append, run_cons, run_nil] at after ⊢
    generalize run (advance (move roles lower normal text requests)) (initial start) labels = world
      at ih after
    have effect := act_effect roles lower normal text (requests name)
      (world.shared.tick given.elapsed) (world.phases name) given
    have clock := effect_clock _ _ _ effect
    refine ⟨fun other token userId asked => ?_, fun invite userId listed => ?_⟩
    · have before := ih.past other token userId asked
      by_cases mine : other = name
      · subst mine
        have ticked := past_append roles lower normal text requests start labels [] other token
          userId _ (world.shared.tick given.elapsed).clock _ (Nat.le_add_right _ _) before
        rw [append_nil] at ticked
        rw [advance, put_same, put_shared, move, asked]
        refine accept_past _ _ _ _ _ _ _ _ _ _ _ _ _ _ _ _ after ?_ rfl ticked
        rw [advance, put_shared, move, asked]
      · rw [advance, put_other _ _ _ _ mine, put_shared]
        refine past_append _ _ _ _ _ _ _ _ _ _ _ _ _ _ ?_ before
        exact Nat.le_trans (Nat.le_add_right _ _) (Nat.le_of_eq clock.symm)
    · rcases effect_admitted _ _ _ effect listed with
        before | ⟨⟨token, asked⟩, adding, -, -⟩
      · obtain ⟨other, token, asked, seen, addressed⟩ := ih.admitted invite userId before
        exact ⟨other, token, asked, seen_append _ _ _ _ _ _ _ _ _
          _ seen, addressed_append _ _ _ _ _ _ _ _ _ _ _ addressed⟩
      · have before := ih.past name token userId asked
        rw [adding] at before
        exact ⟨name, token, asked, seen_append _ _ _ _ _ _ _ _ _
          _ before.1, addressed_append _ _ _ _ _ _ _ _ _ _ _ before.2⟩

/-! ## Any interleaving -/

/-- When a status is written only over that of a pending invitation, an acceptance that has added
a membership marks its invitation, and adds one only for a pending invitation that no other
acceptance has just used and for a user who was not removed since it was created: an invitation
that is no longer pending keeps its status; each admission is through an invitation that was
pending, not expired and for the mail address of the user; no invitation admits twice; and who
was removed and is a member again was admitted through an invitation that was created since. -/
theorem invitation_admits_once (start : Store κ) (fresh : start.journal = [])
    (existing : ∀ orgId userId, Belongs start orgId userId → (start.getOrgById orgId).isSome = true)
    (listed : ∀ name, Listed (requests name)) (labels : List (ρ × Given κ))
    (careful : Along (advance (move roles lower normal text requests)) (Careful requests)
      (initial start) labels) :
    let final := run (advance (move roles lower normal text requests)) (initial start) labels
    (∀ first second, labels = first ++ second → ∀ id status, status ≠ .pending →
      statusOf (run (advance (move roles lower normal text requests)) (initial start) first).shared id
        = some status → statusOf final.shared id = some status) ∧
    (∀ invitation userId, .admitted invitation userId ∈ final.shared.journal →
      ∃ name token, requests name = .acceptInvitation token userId ∧
        Seen roles lower normal text requests start labels token invitation ∧
        Addressed roles lower normal text requests start labels name userId invitation) ∧
    final.shared.journal.Pairwise Apart ∧
    (∀ orgId userId newer older, final.shared.journal = newer ++ .removed orgId userId :: older →
      Belongs final.shared orgId userId →
        ∃ invitation between later, newer = later ++ .admitted invitation userId :: between ∧
          invitation.orgId = orgId ∧ ∃ created, .invited created ∈ between ∧
            created.id = invitation.id) := by
  intro final
  have admitting : Admitting requests final := by
    refine invariant_along _ _ _ (fun world label holds met =>
        advance_admitting _ _ _ _ _ listed holds met)
      _ _ ⟨?_, ?_⟩ careful _ (reached_run _ _ _)
    · refine ⟨existing, ?_, ?_, ?_, ?_⟩ <;> simp [initial, fresh, sinceAdmitted]
    · simp [initial, fresh]
  refine ⟨?_, (run_history _ _ _ _ _ _ fresh ..).admitted, admitting.recorded.once, ?_⟩
  · rintro first second rfl id status settled was
    obtain ⟨-, continued⟩ := (along_append ..).mp careful
    have kept := invariant_along _ _ (fun world => statusOf world.shared id = some status)
      (fun world label was met => by
        obtain ⟨later, is, same⟩ := advance_status _ _ _ _ _ met was
        rw [is, same settled])
      _ _ was continued _ (reached_run _ _ _)
    rw [← run_append] at kept
    exact kept
  · intro orgId userId newer older split belongs
    have behind : .removed orgId userId ∉ sinceAdmitted orgId userId final.shared.journal :=
      fun since => admitting.recorded.out orgId userId since belongs
    rw [split] at behind
    obtain ⟨invitation, later, between, rfl, here⟩ := admitted_since behind
    have invited := admitting.recorded.invited invitation userId
      (between ++ .removed orgId userId :: older) ⟨later, by rw [split]; simp⟩
    rw [here] at invited
    obtain ⟨created, listed, same⟩ := invited_since invited
    exact ⟨invitation, between, later, rfl, here, created, listed, same⟩

end Runs

/-! ## An invitation to a team -/

def someRoles : List Role := [⟨1, "owner", 10⟩, ⟨2, "admin", 20⟩, ⟨3, "member", 1000⟩]

/-- An organisation of the second of two users. -/
def twoUsers : Store Nat where
  clock := 0
  orgs := [⟨1, "user_1_org"⟩, ⟨2, "user_2_org"⟩, ⟨3, "Team"⟩]
  users := [⟨1, some "one@example.org", 1⟩, ⟨2, some "two@example.org", 3⟩]
  settings := []
  members := fun orgId =>
    if orgId = 1 then [⟨1, 1⟩] else if orgId = 2 ∨ orgId = 3 then [⟨2, 1⟩] else []
  invitations := []
  journal := []

/-- The first user is invited and accepts; the invitation is marked where it has expired. -/
def oneInvitation : Fin 3 → Request Nat
  | 0 => .createInvitation 3 "one@example.org" "member" 2
  | 1 => .acceptInvitation "token" 1
  | 2 => .markExpiredIfNeeded "token"

/-- A step some time after the one before. -/
def after (elapsed : Nat) (name : Fin 3) : Fin 3 × Given Nat :=
  (name, ⟨elapsed, none, true, none, 0, "token", id⟩)

/-- An invitation that is accepted before it expires. -/
theorem invitation_admits_once_accepted :
    let labels := [0, 0, 0, 0, 0, 0, 1, 1, 1, 1, 1, 1, 1, 1, 2, 2].map (after 1)
    let final :=
      run (advance (move someRoles id id toString oneInvitation)) (initial twoUsers) labels
    statusOf final.shared 1 = some .accepted ∧ Belongs final.shared 3 1 ∧
      final.shared.journal.Pairwise Apart := by
  intro labels final
  have careful : Along (advance (move someRoles id id toString oneInvitation))
      (Careful oneInvitation) (initial twoUsers) labels := by decide +kernel
  have listed : ∀ name, Listed (oneInvitation name)
    | 0 => trivial
    | 1 => trivial
    | 2 => trivial
  have existing : ∀ orgId userId, Belongs twoUsers orgId userId →
      (twoUsers.getOrgById orgId).isSome = true := by
    intro orgId userId belongs
    obtain ⟨member, present, -⟩ := (belongs_iff _ _ _).mp belongs
    dsimp only [twoUsers] at present
    split at present
    case isTrue here =>
      subst here
      rfl
    case isFalse =>
      split at present
      case isTrue here => rcases here with rfl | rfl <;> rfl
      case isFalse => cases present
  exact ⟨by decide +kernel, by decide +kernel, (invitation_admits_once _ id id _
    _ _ rfl existing listed _ careful).2.2.1⟩

/-- An invitation that expires after the membership was added and is marked so before the
acceptance writes its status is accepted after it has expired. -/
theorem expired_invitation_accepted :
    let before := [0, 0, 0, 0, 0, 0, 1, 1, 1, 1, 1, 1, 1].map (after 1) ++
      [2, 2, 2].map (after invitationLifetime)
    ¬ (∀ number status, status ≠ .pending →
        statusOf (run (advance (move someRoles id id toString oneInvitation))
          (initial twoUsers) before).shared number = some status →
        statusOf (run (advance (move someRoles id id toString oneInvitation))
          (initial twoUsers) (before ++ [after 1 1])).shared number = some status) := by
  intro before kept
  have is := kept 1 .expired nofun (by decide +kernel)
  revert is
  decide +kernel

end ForgePilot.InvitationAdmission
