import ForgePilot.Billing
import ForgePilot.Runs
import Mathlib.Algebra.BigOperators.Group.List.Basic

/-!
# Credits along runs

Each paid session should be credited to its organisation exactly once. In runs
whose budget updates are careful this holds in every state: at each update the
proxy is configured, the budget is still the one that was read, the organisation is
the one of the session, the session is still in progress, and no other callback for
it stands between its update and its commit; no update raises after its effect, and
no commit after an update raises before its effect.

The invariant says what a success callback has found out at each of its points, and
that a credited session is settled or about to be.
-/

namespace ForgePilot.Billing

open Runs List Option

variable {κ ι : Type} [DecidableEq κ] [DecidableEq ι]

/-- A world before any checkout. -/
def World.start (configured : Bool) (users : ι → Option ι) (orgs : ι → Option Bool)
    (teams : ι → Option (Team ι)) : World κ ι where
  configured
  users
  orgs
  teams

def World.creditedSessions (world : World κ ι) : List κ := world.credits.map Credit.session

/-- What has been credited to an organisation. -/
def World.creditedTo (world : World κ ι) (orgId : ι) : Int :=
  ((world.credits.filter (fun credit => credit.orgId = orgId)).map (fun credit =>
    world.amountOf credit.session)).sum

/-- A credit raised the budget of the organisation of its session by the amount paid. -/
def Justified (world : World κ ι) (credit : Credit κ ι) : Prop :=
  ∃ row checkout before, world.sessions credit.session = some row ∧ row.orgId = credit.orgId ∧
    world.checkouts credit.session = some checkout ∧ checkout.status = .complete ∧
    credit.before = some before ∧ credit.after = before + checkout.amountSubtotal

/-- Every paid session is credited to its organisation at most once, and exactly once
when a success callback for it has returned; budgets change by credits only; and a
session that was cancelled first is not credited. -/
structure Credited (start world : World κ ι) : Prop where
  once : world.creditedSessions.Nodup
  justified : ∀ credit ∈ world.credits, Justified world credit
  returned : ∀ id session, world.requests id = some (.success session .returned) →
    session ∈ world.creditedSessions
  total : ∀ orgId, world.budget orgId =
    (start.budget orgId).map (fun budget => budget + world.creditedTo orgId)
  cancelled : ∀ session ∈ world.cancelledFirst, session ∉ world.creditedSessions

/-- What a budget update for a session relies on. -/
structure Ready (world : World κ ι) (session : κ) (orgId : ι) (maxBudget : Int) : Prop where
  configured : world.configured = true
  unchanged : world.budget orgId = some maxBudget
  owned : ∃ row, world.sessions session = some row ∧ row.orgId = orgId ∧
    row.status = .inProgress
  alone : ∀ other amount otherOrg orgFound,
    world.requests other ≠ some (.success session (.updated amount otherOrg orgFound))

/-- A step that updates a budget only when that is safe, and does not raise between
the update and the commit. -/
def Careful (world : World κ ι) : Label κ ι → Prop
  | .advance id outcome =>
      match world.requests id with
      | some (.success session (.loaded _ orgId (some maxBudget) _)) =>
          outcome = .raises ∨ outcome = .done ∧ Ready world session orgId maxBudget
      | some (.success _ (.updated _ _ _)) => outcome ≠ .raises
      | _ => True
  | _ => True

/-! ## The invariant -/

/-- A session is no longer in progress. -/
def Settled (world : World κ ι) (session : κ) : Prop :=
  ∃ row, world.sessions session = some row ∧ row.status ≠ .inProgress

def Paid (world : World κ ι) (session : κ) (amount : Int) : Prop :=
  ∃ checkout, world.checkouts session = some checkout ∧ checkout.status = .complete ∧
    checkout.amountSubtotal = amount

/-- What a success callback has found out. -/
def PointHolds (world : World κ ι) (session : κ) : SuccessPoint ι → Prop
  | .start => True
  | .found _ => session ∉ world.cancelledFirst
  | .paid _ amount => session ∉ world.cancelledFirst ∧ Paid world session amount
  | .located _ amount _ => session ∉ world.cancelledFirst ∧ Paid world session amount
  | .budgeted amount _ _ => session ∉ world.cancelledFirst ∧ Paid world session amount
  | .loaded amount _ _ _ => session ∉ world.cancelledFirst ∧ Paid world session amount
  | .updated _ _ _ => session ∈ world.creditedSessions
  | .returned => session ∈ world.creditedSessions
  | .raised => True

/-- The invariant of careful runs. -/
structure Kept (start world : World κ ι) : Prop extends Credited start world where
  points : ∀ id session point, world.requests id = some (.success session point) →
    session ∈ world.arrived ∧ PointHolds world session point
  settled : ∀ session ∈ world.cancelledFirst, Settled world session
  pending : ∀ session ∈ world.creditedSessions, session ∈ world.arrived ∧
    (Settled world session ∨ ∃ id amount orgId orgFound,
      world.requests id = some (.success session (.updated amount orgId orgFound)))

/-- A change that sets no budget: sessions and paid checkouts stay, and a session is
cancelled first only when no callback for it has arrived. -/
structure Frame (world next : World κ ι) : Prop where
  teams : next.teams = world.teams
  credits : next.credits = world.credits
  arrived : world.arrived ⊆ next.arrived
  rows : ∀ session row, world.sessions session = some row → ∃ later,
    next.sessions session = some later ∧ later.orgId = row.orgId ∧
      (row.status ≠ .inProgress → later.status ≠ .inProgress)
  paid : ∀ session checkout, world.checkouts session = some checkout →
    checkout.status = .complete → next.checkouts session = some checkout
  cancelled : ∀ session ∈ next.cancelledFirst, session ∈ world.cancelledFirst ∨
    session ∉ world.arrived ∧ Settled next session

/-- A step that sets no budget and moves callbacks to points they have found out about. -/
structure Quiet (world next : World κ ι) : Prop extends Frame world next where
  requests : ∀ id session point, next.requests id = some (.success session point) →
    world.requests id = some (.success session point) ∨
    (session ∈ world.arrived ∧ PointHolds world session point) ∨
    (session ∈ next.arrived ∧ point = .start)
  updates : ∀ id session amount orgId orgFound,
    world.requests id = some (.success session (.updated amount orgId orgFound)) →
    next.requests id = some (.success session (.updated amount orgId orgFound)) ∨
      Settled next session

variable {next : World κ ι}

variable {point : SuccessPoint ι}

omit [DecidableEq κ] [DecidableEq ι] in
/-- What a callback has found out stays true. -/
theorem point_holds_quiet {world : World κ ι} (quiet : Quiet world next) {session : κ}
    (arrived : session ∈ world.arrived) (holds : PointHolds world session point) :
    PointHolds next session point := by
  have open_ (live : session ∉ world.cancelledFirst) : session ∉ next.cancelledFirst := by
    intro member
    rcases quiet.cancelled session member with before | ⟨absent, _⟩
    · exact live before
    · exact absent arrived
  have paid (amount : Int) (here : Paid world session amount) : Paid next session amount := by
    obtain ⟨checkout, found, complete, same⟩ := here
    exact ⟨checkout, quiet.paid session checkout found complete, complete, same⟩
  have credited (here : session ∈ world.creditedSessions) : session ∈ next.creditedSessions := by
    rw [World.creditedSessions, quiet.credits]
    exact here
  cases point with
  | start => exact trivial
  | found userId => exact open_ holds
  | paid userId amount => exact ⟨open_ holds.1, paid amount holds.2⟩
  | located userId amount orgId => exact ⟨open_ holds.1, paid amount holds.2⟩
  | budgeted amount orgId maxBudget => exact ⟨open_ holds.1, paid amount holds.2⟩
  | loaded amount orgId maxBudget orgFound => exact ⟨open_ holds.1, paid amount holds.2⟩
  | updated amount orgId orgFound => exact credited holds
  | returned => exact credited holds
  | raised => exact trivial

omit [DecidableEq κ] in
/-- A quiet step keeps the invariant. -/
theorem kept_of_quiet {start world : World κ ι} (kept : Kept start world)
    (quiet : Quiet world next) :
    Kept start next := by
  have sessions : next.creditedSessions = world.creditedSessions := by
    rw [World.creditedSessions, quiet.credits, World.creditedSessions]
  have stays (session : κ) (settled : Settled world session) : Settled next session := by
    obtain ⟨row, found, closed⟩ := settled
    obtain ⟨later, stored, _, still⟩ := quiet.rows session row found
    exact ⟨later, stored, still closed⟩
  have points (id : Nat) (session : κ) (point : SuccessPoint ι)
      (found : next.requests id = some (.success session point)) :
      session ∈ next.arrived ∧ PointHolds next session point := by
    rcases quiet.requests id session point found with before | ⟨arrived, holds⟩ | ⟨arrived, rfl⟩
    · obtain ⟨arrived, holds⟩ := kept.points id session point before
      exact ⟨quiet.arrived arrived, point_holds_quiet quiet arrived holds⟩
    · exact ⟨quiet.arrived arrived, point_holds_quiet quiet arrived holds⟩
    · exact ⟨arrived, trivial⟩
  constructor
  · constructor
    · rw [sessions]
      exact kept.once
    · intro credit member
      rw [quiet.credits] at member
      obtain ⟨row, checkout, before, found, owned, opened, complete, rest⟩ :=
        kept.justified credit member
      obtain ⟨later, stored, same, _⟩ := quiet.rows credit.session row found
      exact ⟨later, checkout, before, stored, same.trans owned,
        quiet.paid credit.session checkout opened complete, complete, rest⟩
    · intro id session found
      exact (points id session .returned found).2
    · intro orgId
      have budgets : next.budget orgId = world.budget orgId := by
        rw [World.budget, quiet.teams, World.budget]
      have amounts : next.creditedTo orgId = world.creditedTo orgId := by
        rw [World.creditedTo, World.creditedTo, quiet.credits]
        congr 1
        apply map_congr_left
        intro credit member
        obtain ⟨_, checkout, _, _, _, opened, complete, _⟩ :=
          kept.justified credit (mem_of_mem_filter member)
        rw [World.amountOf, World.amountOf, opened,
          quiet.paid credit.session checkout opened complete]
      rw [budgets, amounts]
      exact kept.total orgId
    · intro session member
      rw [sessions]
      rcases quiet.cancelled session member with before | ⟨absent, _⟩
      · exact kept.cancelled session before
      · exact fun credited => absent (kept.pending session credited).1
  · exact points
  · intro session member
    rcases quiet.cancelled session member with before | ⟨_, settled⟩
    · exact stays session (kept.settled session before)
    · exact settled
  · intro session member
    rw [sessions] at member
    obtain ⟨arrived, settled | ⟨id, amount, orgId, orgFound, updated⟩⟩ := kept.pending session member
    · exact ⟨quiet.arrived arrived, .inl (stays session settled)⟩
    refine ⟨quiet.arrived arrived, ?_⟩
    rcases quiet.updates id session amount orgId orgFound updated with still | settled
    · exact .inr ⟨id, amount, orgId, orgFound, still⟩
    · exact .inl settled

/-! ## Steps that set no budget -/

variable (start world : World κ ι)

omit [DecidableEq κ] [DecidableEq ι] in
/-- Nothing changes. -/
theorem frame_refl : Frame world world where
  teams := rfl
  credits := rfl
  arrived := List.Subset.refl _
  rows _ row found := ⟨row, found, rfl, id⟩
  paid _ _ found _ := found
  cancelled _ member := .inl member

omit [DecidableEq κ] [DecidableEq ι] in
/-- A change without a move of a callback. -/
theorem quiet_of_frame {world : World κ ι} (frame : Frame world next)
    (same : next.requests = world.requests) : Quiet world next where
  toFrame := frame
  requests _ _ _ found := .inl (same ▸ found)
  updates _ _ _ _ _ found := .inl (same ▸ found)

variable {id : Nat}

omit [DecidableEq κ] [DecidableEq ι] in
theorem quiet_of_move {world written : World κ ι} {request : Request κ ι}
    (frame : Frame world written) (same : written.requests = world.requests)
    (known : ∀ session point, request = .success session point →
      session ∈ world.arrived ∧ PointHolds world session point)
    (steady : ∀ session amount orgId orgFound,
      world.requests id = some (.success session (.updated amount orgId orgFound)) →
        Settled written session) :
    Quiet world (written.moveTo id request) where
  teams := frame.teams
  credits := frame.credits
  arrived := frame.arrived
  rows := frame.rows
  paid := frame.paid
  cancelled := frame.cancelled
  requests other session point found := by
    simp only [World.moveTo, assign] at found
    split at found
    · exact .inr (.inl (known session point (some.inj found)))
    · exact .inl (same ▸ found)
  updates other session amount orgId orgFound found := by
    simp only [World.moveTo, assign]
    split
    · rename_i moved
      exact .inr (steady session amount orgId orgFound (moved ▸ found))
    · exact .inl (same ▸ found)

omit [DecidableEq ι] in
/-- A session that is written again keeps its organisation and stays settled. -/
theorem frame_rewrite (next : World κ ι) (session : κ) (row later : BillingSession ι)
    (found : world.sessions session = some row)
    (sessions : next.sessions = assign world.sessions session later)
    (owned : later.orgId = row.orgId) (closed : later.status ≠ .inProgress)
    (teams : next.teams = world.teams) (credits : next.credits = world.credits)
    (arrived : next.arrived = world.arrived) (checkouts : next.checkouts = world.checkouts)
    (cancelled : ∀ other ∈ next.cancelledFirst, other ∈ world.cancelledFirst ∨
      other ∉ world.arrived ∧ other = session) : Frame world next ∧ Settled next session := by
  have settled : Settled next session := ⟨later, by simp [sessions, assign], closed⟩
  refine ⟨⟨teams, credits, by rw [arrived]; exact List.Subset.refl _, ?_, ?_, ?_⟩, settled⟩
  · intro other stored here
    by_cases same : other = session
    · subst same
      obtain rfl := some.inj (found.symm.trans here)
      exact ⟨later, by simp [sessions, assign], owned, fun _ => closed⟩
    · exact ⟨stored, by simp [sessions, assign, same, here], rfl, id⟩
  · intro other checkout here _
    rw [checkouts]
    exact here
  · intro other member
    rcases cancelled other member with before | ⟨absent, rfl⟩
    · exact .inl before
    · exact .inr ⟨absent, settled⟩

variable (session : κ)

/-- Completing a session sets no budget. -/
theorem frame_complete (row : BillingSession ι) (found : world.sessions session = some row)
    (amount : Int) (orgId : ι) (orgFound : Bool) :
    Frame world (world.complete session amount orgId orgFound) ∧
      Settled (world.complete session amount orgId orgFound) session := by
  apply frame_rewrite world (world.complete session amount orgId orgFound) session row
    { row with status := .completed, price := amount } found
  all_goals simp [World.complete, found]
  exact fun other member => .inl member

omit [DecidableEq ι] in
/-- Cancelling a session sets no budget. -/
theorem frame_cancel : Frame world (world.cancelSession session) := by
  cases found : world.sessions session with
  | none => simpa [World.cancelSession, found] using frame_refl world
  | some row =>
    have cancelled : ∀ other ∈ (world.cancelSession session).cancelledFirst,
        other ∈ world.cancelledFirst ∨ other ∉ world.arrived ∧ other = session := by
      intro other member
      simp only [World.cancelSession, found] at member
      split at member
      · exact .inl member
      rename_i absent
      rcases mem_append.mp member with before | now
      · exact .inl before
      · obtain rfl := mem_singleton.mp now
        exact .inr ⟨absent, rfl⟩
    refine (frame_rewrite world (world.cancelSession session) session row
      { row with status := .cancelled } found ?_ rfl (by simp) ?_ ?_ ?_ ?_ cancelled).1
    all_goals simp [World.cancelSession, found]

omit [DecidableEq ι] in
/-- Adding a session sets no budget. -/
theorem frame_add (userId orgId : ι) (amount : Int) (absent : world.sessions session = none) :
    Frame world (world.addSession session userId orgId amount) where
  teams := rfl
  credits := rfl
  arrived := List.Subset.refl _
  rows other row found := by
    have differs : other ≠ session := by
      rintro rfl
      exact absurd (found.symm.trans absent) (by simp)
    exact ⟨row, by simp [World.addSession, assign, differs, found], rfl, id⟩
  paid _ _ found _ := found
  cancelled _ member := .inl member

omit [DecidableEq ι] in
/-- A checkout that is not complete may change. -/
theorem frame_checkout {world : World κ ι} {session : κ} (later : CheckoutSession)
    (unpaid : ∀ checkout, world.checkouts session = some checkout → checkout.status ≠ .complete) :
    Frame world { world with checkouts := assign world.checkouts session later } where
  teams := rfl
  credits := rfl
  arrived := List.Subset.refl _
  rows _ row found := ⟨row, found, rfl, id⟩
  paid other checkout found complete := by
    have differs : other ≠ session := by
      rintro rfl
      exact unpaid checkout found complete
    simp [assign, differs, found]
  cancelled _ member := .inl member

omit [DecidableEq κ] in
/-- A callback moves on without a change. -/
theorem quiet_success (kept : Kept start world) (id : Nat) (session : κ)
    (point next : SuccessPoint ι) (found : world.requests id = some (.success session point))
    (early : ∀ amount orgId orgFound, point ≠ .updated amount orgId orgFound)
    (holds : PointHolds world session next) :
    Quiet world (world.moveTo id (.success session next)) := by
  apply quiet_of_move (frame_refl _) rfl
  · intro other later same
    cases same
    exact ⟨(kept.points id session point found).1, holds⟩
  · intro other amount orgId orgFound updated
    rw [found] at updated
    cases updated
    exact absurd rfl (early amount orgId orgFound)

variable {amount : Int} {orgId : ι}

/-- A callback commits after its update. -/
theorem quiet_commit {start world : World κ ι} (kept : Kept start world) (id : Nat) {session : κ}
    {orgFound : Bool}
    (found : world.requests id = some (.success session (.updated amount orgId orgFound)))
    {next : SuccessPoint ι} (last : next = .returned ∨ next = .raised) :
    Quiet world ((world.complete session amount orgId orgFound).moveTo id
      (.success session next)) := by
  obtain ⟨arrived, credited⟩ := kept.points id session _ found
  obtain ⟨credit, member, rfl⟩ := mem_map.mp credited
  obtain ⟨row, _, _, stored, _⟩ := kept.justified credit member
  obtain ⟨frame, settled⟩ := frame_complete _ _ row stored ..
  apply quiet_of_move frame
  · simp [World.complete, stored]
  · intro other later same
    cases same
    rcases last with rfl | rfl
    · exact ⟨arrived, credited⟩
    · exact ⟨arrived, trivial⟩
  · intro other otherAmount otherOrg otherFound updated
    rw [found] at updated
    cases updated
    exact settled

/-- A step of a success callback sets no budget, other than the update. -/
theorem quiet_success_callback (kept : Kept start world) (id : Nat) {session : κ}
    {outcome : Outcome} (found : world.requests id = some (.success session point))
    (careful : Careful world (.advance id outcome))
    (reading : ∀ amount orgId maxBudget orgFound, outcome = .done →
      point ≠ .loaded amount orgId (some maxBudget) orgFound) :
    Quiet world (successCallback world id session point outcome) := by
  have holds := (kept.points id session point found).2
  have moved (next : SuccessPoint ι) := quiet_success _ _ kept id _ _ next found
  simp only [Careful, found] at careful
  cases point with
  | start =>
    cases outcome with
    | done =>
      simp only [successCallback]
      cases stored : world.sessions session with
      | none => exact moved .raised (by simp) trivial
      | some row =>
        by_cases open_ : row.status = .inProgress
        · have live : session ∉ world.cancelledFirst := by
            intro member
            obtain ⟨other, here, closed⟩ := kept.settled session member
            obtain rfl := some.inj (stored.symm.trans here)
            exact closed open_
          simpa [open_] using moved (.found row.userId) (by simp) live
        · simpa [open_] using moved .raised (by simp) trivial
    | raises => exact moved .raised (by simp) trivial
    | raisesLate => exact moved .raised (by simp) trivial
  | found userId =>
    cases outcome with
    | done =>
      simp only [successCallback]
      cases opened : world.checkouts session with
      | none => exact moved .raised (by simp) trivial
      | some checkout =>
        by_cases complete : checkout.status = .complete
        · simpa [complete] using moved (.paid userId checkout.amountSubtotal) (by simp)
            ⟨holds, checkout, opened, complete, rfl⟩
        · simpa [complete] using moved .raised (by simp) trivial
    | raises => exact moved .raised (by simp) trivial
    | raisesLate => exact moved .raised (by simp) trivial
  | paid userId amount =>
    cases outcome with
    | done =>
      simp only [successCallback]
      cases world.users userId with
      | none => exact moved .raised (by simp) trivial
      | some orgId => exact moved (.located userId amount orgId) (by simp) holds
    | raises => exact moved .raised (by simp) trivial
    | raisesLate => exact moved .raised (by simp) trivial
  | located userId amount orgId =>
    cases outcome with
    | done =>
      simp only [successCallback]
      cases getUserTeamInfo world userId orgId with
      | none => exact moved .raised (by simp) trivial
      | some info =>
        exact moved (.budgeted amount orgId (getBudgetFromTeamInfo info userId orgId)) (by simp)
          holds
    | raises => exact moved .raised (by simp) trivial
    | raisesLate => exact moved .raised (by simp) trivial
  | budgeted amount orgId maxBudget =>
    cases outcome with
    | done => exact moved (.loaded amount orgId maxBudget (world.orgs orgId).isSome) (by simp) holds
    | raises => exact moved .raised (by simp) trivial
    | raisesLate => exact moved .raised (by simp) trivial
  | loaded amount orgId maxBudget orgFound =>
    cases maxBudget with
    | none => cases outcome <;> exact moved .raised (by simp) trivial
    | some budget =>
      rcases careful with rfl | ⟨rfl, _⟩
      · exact moved .raised (by simp) trivial
      · exact absurd rfl (reading amount orgId budget orgFound rfl)
  | updated amount orgId orgFound =>
    cases outcome with
    | done => exact quiet_commit kept id found (.inl rfl)
    | raises => exact absurd rfl careful
    | raisesLate => exact quiet_commit kept id found (.inr rfl)
  | returned => simpa [successCallback] using quiet_of_frame (frame_refl _) rfl
  | raised => simpa [successCallback] using quiet_of_frame (frame_refl _) rfl

omit [DecidableEq κ] [DecidableEq ι] in
/-- A request that is no success callback moves on after a change. -/
theorem quiet_other {world written : World κ ι} {old request : Request κ ι}
    (found : world.requests id = some old) (frame : Frame world written)
    (same : written.requests = world.requests)
    (before : ∀ session point, old ≠ .success session point)
    (after : ∀ session point, request ≠ .success session point) :
    Quiet world (written.moveTo id request) := by
  apply quiet_of_move frame same
  · exact fun session point equal => absurd equal (after session point)
  · intro session amount orgId orgFound updated
    rw [found] at updated
    exact absurd (some.inj updated) (before session _)

omit [DecidableEq ι] in
/-- A step of a cancel callback sets no budget. -/
theorem quiet_cancel_callback {world : World κ ι} {session : κ} {point : CancelPoint}
    (outcome : Outcome) (found : world.requests id = some (.cancel session point)) :
    Quiet world (cancelCallback world id session point outcome) := by
  have moved (next : CancelPoint) : Quiet world (world.moveTo id (.cancel session next)) :=
    quiet_other found (frame_refl world) rfl (by simp) (by simp)
  have cancelled (next : CancelPoint) :
      Quiet world ((world.cancelSession session).moveTo id (.cancel session next)) := by
    apply quiet_other found (frame_cancel ..)
    · rw [World.cancelSession]
      split <;> rfl
    · simp
    · simp
  have idle := quiet_of_frame (frame_refl world) rfl
  cases point with
  | start =>
    cases outcome with
    | done =>
      simp only [cancelCallback]
      cases world.sessions session with
      | none => exact moved .returned
      | some row =>
        by_cases open_ : row.status = .inProgress
        · simpa [open_] using moved .found
        · simpa [open_] using moved .returned
    | raises => exact moved .raised
    | raisesLate => exact moved .raised
  | found =>
    cases outcome with
    | done => exact cancelled .returned
    | raises => exact moved .raised
    | raisesLate => exact cancelled .raised
  | returned => simpa [cancelCallback] using idle
  | raised => simpa [cancelCallback] using idle

omit [DecidableEq ι] in
/-- A step of a checkout request sets no budget. -/
theorem quiet_create_checkout {world : World κ ι} {userId : ι} {point : CheckoutPoint κ ι}
    (outcome : Outcome) (found : world.requests id = some (.checkout userId amount point)) :
    Quiet world (createCheckoutSession world id userId amount point outcome) := by
  have moved (next : CheckoutPoint κ ι) :
      Quiet world (world.moveTo id (.checkout userId amount next)) :=
    quiet_other found (frame_refl world) rfl (by simp) (by simp)
  have added (orgId : ι) (session : κ) (next : CheckoutPoint κ ι)
      (absent : world.sessions session = none) :
      Quiet world ((world.addSession session userId orgId amount).moveTo id
        (.checkout userId amount next)) :=
    quiet_other found (frame_add _ _ _ _ _ absent) rfl
      (by simp) (by simp)
  have idle := quiet_of_frame (frame_refl world) rfl
  cases point with
  | start =>
    cases outcome with
    | done =>
      simp only [createCheckoutSession]
      cases world.users userId with
      | none => exact moved .raised
      | some orgId => exact moved (.customer orgId)
    | raises => exact moved .raised
    | raisesLate => exact moved .raised
  | customer orgId =>
    cases outcome with
    | done => exact idle
    | raises => exact moved .raised
    | raisesLate => exact moved .raised
  | opened orgId session =>
    cases outcome with
    | done =>
      by_cases absent : world.sessions session = none
      · simpa [createCheckoutSession, absent] using added orgId session .returned absent
      · simpa [createCheckoutSession, absent] using moved .raised
    | raises => exact moved .raised
    | raisesLate =>
      by_cases absent : world.sessions session = none
      · simpa [createCheckoutSession, absent] using added orgId session .raised absent
      · simpa [createCheckoutSession, absent] using moved .raised
  | returned => simpa [createCheckoutSession] using idle
  | raised => simpa [createCheckoutSession] using idle

omit [DecidableEq ι] in
/-- Opening a checkout sets no budget. -/
theorem quiet_open_checkout (id : Nat) (session : κ) :
    Quiet world (openCheckout world id session) := by
  have idle := quiet_of_frame (frame_refl world) rfl
  rw [openCheckout]
  split
  · rename_i userId amount orgId found
    split
    · rename_i fresh
      apply quiet_other found
      · apply frame_checkout
        intro checkout here
        exact absurd (here.symm.trans fresh) (by simp)
      · rfl
      · simp
      · simp
    · exact idle
  · exact idle

omit [DecidableEq ι] in
/-- The end of a checkout sets no budget. -/
theorem quiet_end_checkout (status : CheckoutStatus) :
    Quiet world (endCheckout world session status) := by
  have idle := quiet_of_frame (frame_refl world) rfl
  rw [endCheckout]
  cases found : world.checkouts session with
  | none => exact idle
  | some checkout =>
    by_cases opened : checkout.status = .opened
    · simp only [opened, if_true]
      refine quiet_of_frame (frame_checkout _ ?_) rfl
      intro other here
      obtain rfl := some.inj (found.symm.trans here)
      simp [opened]
    · simpa [opened] using idle

omit [DecidableEq κ] [DecidableEq ι] in
/-- The arrival of a request sets no budget. -/
theorem quiet_arrive (id : Nat) (call : Call κ ι) : Quiet world (arrive world id call) := by
  rw [arrive]
  cases found : world.requests id with
  | some request => exact quiet_of_frame (frame_refl _) rfl
  | none =>
    have steady (session : κ) (amount : Int) (orgId : ι) (orgFound : Bool)
        (updated : world.requests id =
          some (.success session (.updated amount orgId orgFound))) : Settled world session := by
      rw [found] at updated
      cases updated
    cases call with
    | success session =>
      have base := frame_refl world
      refine ⟨⟨base.teams, base.credits, subset_cons_self session _, base.rows, base.paid,
        base.cancelled⟩, ?_, ?_⟩
      · intro other otherSession point here
        simp only [World.moveTo, assign, Call.request] at here
        split at here
        · cases here
          exact .inr (.inr ⟨.head _, rfl⟩)
        · exact .inl here
      · intro other otherSession amount orgId orgFound updated
        have differs : other ≠ id := by
          rintro rfl
          rw [found] at updated
          cases updated
        left
        simpa [World.moveTo, assign, differs] using updated
    | cancel session => exact quiet_of_move (frame_refl _) rfl (by simp [Call.request]) steady
    | checkout userId amount =>
      exact quiet_of_move (frame_refl _) rfl (by simp [Call.request]) steady

/-! ## The budget update -/

variable {maxBudget : Int}

omit [DecidableEq κ] in
/-- A careful update credits a session that was not credited before. -/
theorem uncredited_of_ready {start world : World κ ι} (kept : Kept start world) {session : κ}
    (ready : Ready world session orgId maxBudget) : session ∉ world.creditedSessions := by
  intro member
  obtain ⟨row, stored, _, open_⟩ := ready.owned
  obtain ⟨_, ⟨other, here, closed⟩ | ⟨id, amount, otherOrg, orgFound, updated⟩⟩ :=
    kept.pending session member
  · obtain rfl := some.inj (stored.symm.trans here)
    exact closed open_
  · exact ready.alone id amount otherOrg orgFound updated

omit [DecidableEq κ] in
/-- A careful update raises the total of its organisation by the amount paid. -/
theorem total_credit {start world : World κ ι} (kept : Kept start world) {session : κ}
    {team : Team ι} (paid : Paid world session amount) (found : world.teams orgId = some team)
    (budget : team.maxBudget = some maxBudget) (other : ι) :
    (world.credit session orgId team (team.withBudget (maxBudget + amount))
        (maxBudget + amount)).budget other =
      (start.budget other).map (fun budget => budget +
        (world.credit session orgId team (team.withBudget (maxBudget + amount))
          (maxBudget + amount)).creditedTo other) := by
  have before := kept.total other
  obtain ⟨checkout, opened, _, same⟩ := paid
  by_cases here : other = orgId
  · subst here
    have credited : (world.credit session other team (team.withBudget (maxBudget + amount))
        (maxBudget + amount)).creditedTo other = world.creditedTo other + amount := by
      simp only [World.creditedTo, World.credit, filter_append, map_append,
        sum_append]
      simp [World.amountOf, opened, same]
    have now : world.budget other = some maxBudget := by simp [World.budget, found, budget]
    rw [now] at before
    obtain ⟨initial, began, sum⟩ := map_eq_some_iff.mp before.symm
    rw [credited, began]
    simp only [World.budget, World.credit, assign, if_true, bind_some, Team.withBudget,
      map_some, some.injEq]
    omega
  · have credited : (world.credit session orgId team (team.withBudget (maxBudget + amount))
        (maxBudget + amount)).creditedTo other = world.creditedTo other := by
      have differs : orgId ≠ other := fun same => here same.symm
      simp only [World.creditedTo, World.credit, filter_append]
      simp [differs, World.amountOf]
    rw [credited, ← before]
    simp [World.budget, World.credit, assign, here]

omit [DecidableEq κ] in
/-- A careful update keeps the invariant. -/
theorem kept_credit {start world : World κ ι} (kept : Kept start world) {session : κ}
    {orgFound : Bool} {team : Team ι} (found : world.requests id =
      some (.success session (.loaded amount orgId (some maxBudget) orgFound)))
    (ready : Ready world session orgId maxBudget) (stored : world.teams orgId = some team)
    (budget : team.maxBudget = some maxBudget) :
    Kept start ((world.credit session orgId team (team.withBudget (maxBudget + amount))
      (maxBudget + amount)).moveTo id (.success session (.updated amount orgId orgFound))) := by
  obtain ⟨arrived, live, paid⟩ := kept.points id session _ found
  have fresh := uncredited_of_ready kept ready
  have sessions : ((world.credit session orgId team (team.withBudget (maxBudget + amount))
      (maxBudget + amount)).moveTo id
        (.success session (.updated amount orgId orgFound))).creditedSessions =
      world.creditedSessions ++ [session] := by
    simp [World.creditedSessions, World.credit, World.moveTo]
  have moved (other : Nat) (request : Request κ ι)
      (here : assign world.requests id (.success session (.updated amount orgId orgFound)) other =
        some request) :
      (other = id ∧ request = .success session (.updated amount orgId orgFound)) ∨
        world.requests other = some request := by
    by_cases same : other = id
    · left
      exact ⟨same, by simpa [assign, same] using here.symm⟩
    · simpa [assign, same] using here
  have points (other : κ) (point : SuccessPoint ι) (holds : PointHolds world other point) :
      PointHolds ((world.credit session orgId team (team.withBudget (maxBudget + amount))
        (maxBudget + amount)).moveTo id (.success session (.updated amount orgId orgFound)))
        other point := by
    cases point with
    | updated otherAmount otherOrg otherFound =>
      rw [PointHolds, sessions]
      exact mem_append_left [session] holds
    | returned =>
      rw [PointHolds, sessions]
      exact mem_append_left [session] holds
    | _ => exact holds
  constructor
  · constructor
    · rw [sessions]
      exact nodup_append.mpr ⟨kept.once, by simp, by
        intro first before second last same
        exact fresh (mem_singleton.mp last ▸ same ▸ before)⟩
    · intro credit member
      rcases mem_append.mp member with before | now
      · exact kept.justified credit before
      obtain rfl := mem_singleton.mp now
      obtain ⟨row, rowFound, owned, _⟩ := ready.owned
      obtain ⟨checkout, opened, complete, rfl⟩ := paid
      exact ⟨row, checkout, maxBudget, rowFound, owned, opened, complete, budget, rfl⟩
    · intro other otherSession here
      rw [sessions]
      rcases moved other _ here with ⟨_, same⟩ | before
      · cases same
      · exact mem_append_left [session] (kept.returned other otherSession before)
    · exact total_credit kept paid stored budget
    · intro other member credited
      rw [sessions] at credited
      rcases mem_append.mp credited with before | now
      · exact kept.cancelled other member before
      · exact live (mem_singleton.mp now ▸ member)
  · intro other otherSession point here
    rcases moved other _ here with ⟨_, same⟩ | before
    · cases same
      rw [PointHolds, sessions]
      exact ⟨arrived, mem_append_right _ (.head _)⟩
    · obtain ⟨otherArrived, holds⟩ := kept.points other otherSession point before
      exact ⟨otherArrived, points otherSession point holds⟩
  · exact kept.settled
  · intro other member
    rw [sessions] at member
    rcases mem_append.mp member with before | now
    · obtain ⟨otherArrived, settled | ⟨index, otherAmount, otherOrg, otherFound, updated⟩⟩ :=
        kept.pending other before
      · exact ⟨otherArrived, .inl settled⟩
      · refine ⟨otherArrived, .inr ⟨index, otherAmount, otherOrg, otherFound, ?_⟩⟩
        have differs : index ≠ id := by
          rintro rfl
          rw [found] at updated
          cases updated
        simpa [World.moveTo, World.credit, assign, differs] using updated
    · obtain rfl := mem_singleton.mp now
      exact ⟨arrived, .inr ⟨id, amount, orgId, orgFound, by simp [World.moveTo, assign]⟩⟩

/-! ## Runs -/

/-- A step of a success callback keeps the invariant. -/
theorem kept_success_callback {start world : World κ ι} (kept : Kept start world) {id : Nat}
    {session : κ} {outcome : Outcome} (found : world.requests id = some (.success session point))
    (careful : Careful world (.advance id outcome)) :
    Kept start (successCallback world id session point outcome) := by
  by_cases updating : outcome = .done ∧ ∃ amount orgId maxBudget orgFound,
      point = .loaded amount orgId (some maxBudget) orgFound
  · obtain ⟨rfl, amount, orgId, maxBudget, orgFound, rfl⟩ := updating
    have ready : Ready world session orgId maxBudget := by
      simpa [Careful, found] using careful
    obtain ⟨team, stored, budget⟩ := bind_eq_some_iff.mp ready.unchanged
    have credited := kept_credit kept
      found ready stored budget
    simpa [successCallback, ready.configured, stored] using credited
  · apply kept_of_quiet kept
    apply quiet_success_callback _ _ kept id found careful
    intro amount orgId maxBudget orgFound done same
    exact updating ⟨done, amount, orgId, maxBudget, orgFound, same⟩

/-- A careful step keeps the invariant. -/
theorem kept_step (label : Label κ ι) (kept : Kept start world) (careful : Careful world label) :
    Kept start (step world label) := by
  have idle := kept_of_quiet kept
    (quiet_of_frame (frame_refl _) rfl)
  cases label with
  | arrive id call => exact kept_of_quiet kept (quiet_arrive ..)
  | advance id outcome =>
    simp only [step]
    cases found : world.requests id with
    | none => exact idle
    | some request =>
      cases request with
      | success session point => exact kept_success_callback kept found careful
      | cancel session point =>
        exact kept_of_quiet kept
          (quiet_cancel_callback _ found)
      | checkout userId amount point =>
        exact kept_of_quiet kept
          (quiet_create_checkout _ found)
  | openCheckout id session => exact kept_of_quiet kept (quiet_open_checkout ..)
  | switchOrg userId orgId =>
    simp only [step]
    cases world.users userId with
    | none => exact idle
    | some current =>
      have base := frame_refl world
      exact kept_of_quiet kept (quiet_of_frame
        ⟨base.teams, base.credits, base.arrived, base.rows, base.paid, base.cancelled⟩ rfl)
  | pay session => exact kept_of_quiet kept (quiet_end_checkout ..)
  | expire session => exact kept_of_quiet kept (quiet_end_checkout ..)

omit [DecidableEq κ] in
/-- Before any checkout the invariant holds. -/
theorem kept_start (configured : Bool) (users : ι → Option ι) (orgs : ι → Option Bool)
    (teams : ι → Option (Team ι)) :
    Kept (World.start configured users orgs teams : World κ ι)
      (World.start configured users orgs teams) := by
  constructor
  · constructor
    · exact nodup_nil
    · intro credit member
      cases member
    · intro id session found
      cases found
    · intro orgId
      simp [World.creditedTo, World.start]
    · intro session member
      cases member
  · intro id session point found
    cases found
  · intro session member
    cases member
  · intro session member
    cases member

/-- In every state of a careful run, each paid session has been credited to its
organisation at most once, and exactly once when a success callback has returned. -/
theorem credited_along_careful_runs (configured : Bool) (users : ι → Option ι)
    (orgs : ι → Option Bool) (teams : ι → Option (Team ι)) (labels : List (Label κ ι))
    (careful : Along step Careful (World.start configured users orgs teams) labels)
    (world : World κ ι)
    (reached : Reached step (World.start configured users orgs teams) labels world) :
    Credited (World.start configured users orgs teams) world :=
  (invariant_along step _ _
    (fun _ _ kept met => kept_step _ _ _ kept met) _ _
    (kept_start ..) careful _ reached).toCredited

/-- A user in a team with a budget of ten dollars. -/
def teamWorld : World Nat String :=
  World.start true (fun userId => if userId = "alice" then some "team" else none)
    (fun orgId => if orgId = "team" then some false else none)
    (fun orgId => if orgId = "team" then some ⟨some 1000, [⟨"alice", none⟩]⟩ else none)

/-- The user pays twenty-five dollars. -/
def paidCheckout : List (Label Nat String) :=
  [.arrive 0 (.checkout "alice" 25), .advance 0 .done, .openCheckout 0 7, .advance 0 .done,
    .pay 7]

/-- A success callback from its first read to its redirect. -/
def wholeCallback (id session : Nat) : List (Label Nat String) :=
  .arrive id (.success session) :: List.replicate 7 (.advance id .done)

/-- A paid checkout with one callback is credited. -/
theorem single_callback_credits :
    (run step teamWorld (paidCheckout ++ wholeCallback 1 7)).budget "team" = some 3500 ∧
      Credited teamWorld (run step teamWorld (paidCheckout ++ wholeCallback 1 7)) := by
  have careful : Along step Careful teamWorld (paidCheckout ++ wholeCallback 1 7) := by
    refine ⟨trivial, trivial, trivial, trivial, trivial, trivial, trivial,
      trivial, trivial, trivial, trivial, .inr ⟨rfl, ?_⟩,
      (by decide : Outcome.done ≠ .raises), trivial⟩
    refine ⟨rfl, by decide, ⟨⟨"alice", "team", .inProgress, 2500⟩, by decide, rfl, rfl⟩, ?_⟩
    intro other amount otherOrg orgFound updated
    match other with
    | 0 => cases updated
    | 1 => cases updated
    | later + 2 => cases updated
  exact ⟨by decide, credited_along_careful_runs _ _ _ _ _ careful _
    ⟨_, [], (List.append_nil _).symm, rfl⟩⟩

/-- Two callbacks for one paid checkout: the second reads the session before the
first one commits. -/
def overlappingCallbacks : List (Label Nat String) :=
  paidCheckout ++ [.arrive 1 (.success 7), .arrive 2 (.success 7), .advance 2 .done] ++
    List.replicate 7 (.advance 1 .done) ++ List.replicate 6 (.advance 2 .done)

/-- One payment is credited twice. -/
theorem overlapping_callbacks_credit_twice :
    (run step teamWorld overlappingCallbacks).budget "team" = some 6000 ∧
      ¬∀ world, Reached step teamWorld overlappingCallbacks world → Credited teamWorld world := by
  refine ⟨by decide, ?_⟩
  intro credited
  have once := (credited _ ⟨overlappingCallbacks, [], (List.append_nil _).symm, rfl⟩).once
  revert once
  decide

end ForgePilot.Billing
