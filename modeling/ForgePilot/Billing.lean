import Mathlib.Algebra.Ring.Int.Defs
import Mathlib.Data.List.Basic

/-!
# Paid checkouts

A user opens a checkout, pays, and is sent back to a callback that adds the paid
amount to the budget of an organisation: it reads the session, the payment, the
user and the budget, writes the new budget to the language model proxy, and commits
the session as completed. The budget is read and written through a service outside
the database, and the organisation is the current one of the user.

Every read, write and commit is a step of its own that may raise, and requests take
their steps in any order. A write may also raise after it took effect; a budget
update does so when one of its later requests fails. Amounts are cents. Three fields
record what happened: the budget updates, the sessions whose success callback has
arrived, and those that were cancelled before. Users that are migrated on their
first lookup are not modelled.
-/

namespace ForgePilot.Billing

variable {κ ι : Type}

/-- Set one entry of a table. -/
def assign {α β : Type} [DecidableEq α] (table : α → Option β) (key : α) (value : β) :
    α → Option β :=
  fun other => if other = key then some value else table other

/-- Where a billing session stands. -/
inductive BillingStatus where
  | inProgress | completed | cancelled | error
deriving DecidableEq

structure BillingSession (ι : Type) where
  userId : ι
  orgId : ι
  status : BillingStatus := .inProgress
  price : Int
deriving DecidableEq

/-- Where a checkout stands at the payment provider. -/
inductive CheckoutStatus where
  | opened | complete | expired
deriving DecidableEq

/-- A checkout at the payment provider. -/
structure CheckoutSession where
  status : CheckoutStatus
  amountSubtotal : Int
deriving DecidableEq

/-- A member of a team; its budget table may be missing, and so may the budget in it. -/
structure Membership (ι : Type) where
  userId : ι
  budgetTable : Option (Option Int)
deriving DecidableEq

/-- The team of an organisation at the language model proxy. -/
structure Team (ι : Type) where
  maxBudget : Option Int
  memberships : List (Membership ι)
deriving DecidableEq

/-- What a success callback knows after each of its steps. -/
inductive SuccessPoint (ι : Type) where
  | start
  | found (userId : ι)
  | paid (userId : ι) (amount : Int)
  | located (userId : ι) (amount : Int) (orgId : ι)
  | budgeted (amount : Int) (orgId : ι) (maxBudget : Option Int)
  | loaded (amount : Int) (orgId : ι) (maxBudget : Option Int) (orgFound : Bool)
  | updated (amount : Int) (orgId : ι) (orgFound : Bool)
  | returned
  | raised
deriving DecidableEq

/-- What a cancel callback knows after each of its steps. -/
inductive CancelPoint where
  | start | found | returned | raised
deriving DecidableEq

/-- What a checkout request knows after each of its steps. -/
inductive CheckoutPoint (κ ι : Type) where
  | start
  | customer (orgId : ι)
  | opened (orgId : ι) (session : κ)
  | returned
  | raised
deriving DecidableEq

/-- A request under way. -/
inductive Request (κ ι : Type) where
  | success (session : κ) (point : SuccessPoint ι)
  | cancel (session : κ) (point : CancelPoint)
  | checkout (userId : ι) (amount : Int) (point : CheckoutPoint κ ι)
deriving DecidableEq

/-- A request as it arrives. -/
inductive Call (κ ι : Type) where
  | success (session : κ)
  | cancel (session : κ)
  | checkout (userId : ι) (amount : Int)

/-- The request of a call before its first step. -/
def Call.request : Call κ ι → Request κ ι
  | .success session => .success session .start
  | .cancel session => .cancel session .start
  | .checkout userId amount => .checkout userId amount .start

/-- A budget update on behalf of a session. -/
structure Credit (κ ι : Type) where
  session : κ
  orgId : ι
  before : Option Int
  after : Int
deriving DecidableEq

/-- The database, the services and the requests, with a record of what happened. -/
structure World (κ ι : Type) where
  configured : Bool
  users : ι → Option ι
  orgs : ι → Option Bool
  teams : ι → Option (Team ι)
  sessions : κ → Option (BillingSession ι) := fun _ => none
  checkouts : κ → Option CheckoutSession := fun _ => none
  requests : Nat → Option (Request κ ι) := fun _ => none
  credits : List (Credit κ ι) := []
  arrived : List κ := []
  cancelledFirst : List κ := []

/-- How a step ends: it succeeds, it raises, or it raises after its effect. -/
inductive Outcome where
  | done | raises | raisesLate
deriving DecidableEq

/-- What can happen. -/
inductive Label (κ ι : Type) where
  | arrive (id : Nat) (call : Call κ ι)
  | advance (id : Nat) (outcome : Outcome)
  | openCheckout (id : Nat) (session : κ)
  | switchOrg (userId orgId : ι)
  | pay (session : κ)
  | expire (session : κ)

variable [DecidableEq κ] [DecidableEq ι]

/-! ## The language model proxy -/

/-- The membership of a user in a team, when the proxy is configured. The outer
`none` is an exception, the inner one the absence of a membership. -/
def getUserTeamInfo (world : World κ ι) (userId orgId : ι) :
    Option (Option (Membership ι × Option Int)) :=
  if world.configured then
    (world.teams orgId).map (fun team =>
      (team.memberships.find? (fun membership => membership.userId = userId)).map
        (fun membership => (membership, team.maxBudget)))
  else some none

/-- The budget in a team info: for personal organisations the one of the membership,
for teams the one of the team. -/
def getBudgetFromTeamInfo (info : Option (Membership ι × Option Int)) (userId orgId : ι) :
    Option Int :=
  match info with
  | none => some 0
  | some (membership, teamBudget) =>
      if userId = orgId then
        match membership.budgetTable with
        | none => some 0
        | some maxBudget => maxBudget
      else some (teamBudget.getD 0)

/-- Set the budget of a team and of its members. -/
def Team.withBudget (team : Team ι) (maxBudget : Int) : Team ι where
  maxBudget := some maxBudget
  memberships := team.memberships.map (fun membership =>
    { membership with budgetTable := some (some maxBudget) })

/-! ## Steps -/

/-- Replace what a request knows. -/
def World.moveTo (world : World κ ι) (id : Nat) (request : Request κ ι) : World κ ι :=
  { world with requests := assign world.requests id request }

/-- Set a budget on behalf of a session and record it. -/
def World.credit (world : World κ ι) (session : κ) (orgId : ι) (team updated : Team ι)
    (maxBudget : Int) : World κ ι :=
  { world with
    teams := assign world.teams orgId updated
    credits := world.credits ++ [⟨session, orgId, team.maxBudget, maxBudget⟩] }

/-- Commit a session as completed, and the organisation as entitled to exports. -/
def World.complete (world : World κ ι) (session : κ) (amount : Int) (orgId : ι)
    (orgFound : Bool) : World κ ι :=
  match world.sessions session with
  | none => world
  | some row =>
      { world with
        sessions := assign world.sessions session
          { row with status := .completed, price := amount }
        orgs := if orgFound then assign world.orgs orgId true else world.orgs }

def World.cancelSession (world : World κ ι) (session : κ) : World κ ι :=
  match world.sessions session with
  | none => world
  | some row =>
      { world with
        sessions := assign world.sessions session { row with status := .cancelled }
        cancelledFirst :=
          if session ∈ world.arrived then world.cancelledFirst
          else world.cancelledFirst ++ [session] }

/-- Commit a new session. -/
def World.addSession (world : World κ ι) (session : κ) (userId orgId : ι) (amount : Int) :
    World κ ι :=
  let row : BillingSession ι := { userId, orgId, price := amount * 100 }
  { world with sessions := assign world.sessions session row }

def successCallback (world : World κ ι) (id : Nat) (session : κ) (point : SuccessPoint ι)
    (outcome : Outcome) : World κ ι :=
  let raised := world.moveTo id (.success session .raised)
  let move (next : SuccessPoint ι) := world.moveTo id (.success session next)
  match point, outcome with
  | .start, .done =>
      match world.sessions session with
      | none => raised
      | some row => if row.status = .inProgress then move (.found row.userId) else raised
  | .found userId, .done =>
      match world.checkouts session with
      | none => raised
      | some checkout =>
          if checkout.status = .complete then move (.paid userId checkout.amountSubtotal)
          else raised
  | .paid userId amount, .done =>
      match world.users userId with
      | none => raised
      | some orgId => move (.located userId amount orgId)
  | .located userId amount orgId, .done =>
      match getUserTeamInfo world userId orgId with
      | none => raised
      | some info => move (.budgeted amount orgId (getBudgetFromTeamInfo info userId orgId))
  | .budgeted amount orgId maxBudget, .done =>
      move (.loaded amount orgId maxBudget (world.orgs orgId).isSome)
  | .loaded amount orgId (some maxBudget) orgFound, .done =>
      if world.configured then
        match world.teams orgId with
        | none => raised
        | some team =>
            (world.credit session orgId team (team.withBudget (maxBudget + amount))
              (maxBudget + amount)).moveTo id (.success session (.updated amount orgId orgFound))
      else move (.updated amount orgId orgFound)
  | .loaded amount orgId (some maxBudget) _, .raisesLate =>
      match world.configured, world.teams orgId with
      | true, some team =>
          (world.credit session orgId team { team with maxBudget := some (maxBudget + amount) }
            (maxBudget + amount)).moveTo id (.success session .raised)
      | _, _ => raised
  | .updated amount orgId orgFound, .done =>
      (world.complete session amount orgId orgFound).moveTo id (.success session .returned)
  | .updated amount orgId orgFound, .raisesLate =>
      (world.complete session amount orgId orgFound).moveTo id (.success session .raised)
  | .returned, _ => world
  | .raised, _ => world
  | _, _ => raised

def cancelCallback (world : World κ ι) (id : Nat) (session : κ) (point : CancelPoint)
    (outcome : Outcome) : World κ ι :=
  let move (next : CancelPoint) := world.moveTo id (.cancel session next)
  match point, outcome with
  | .start, .done =>
      match world.sessions session with
      | none => move .returned
      | some row => if row.status = .inProgress then move .found else move .returned
  | .found, .done => (world.cancelSession session).moveTo id (.cancel session .returned)
  | .found, .raisesLate => (world.cancelSession session).moveTo id (.cancel session .raised)
  | .returned, _ => world
  | .raised, _ => world
  | _, _ => move .raised

/-- A step of a checkout request, other than opening the checkout. A second session
with the same key is refused by the database. -/
def createCheckoutSession (world : World κ ι) (id : Nat) (userId : ι) (amount : Int)
    (point : CheckoutPoint κ ι) (outcome : Outcome) : World κ ι :=
  let move (next : CheckoutPoint κ ι) := world.moveTo id (.checkout userId amount next)
  match point, outcome with
  | .start, .done =>
      match world.users userId with
      | none => move .raised
      | some orgId => move (.customer orgId)
  | .customer _, .done => world
  | .opened orgId session, .done =>
      if world.sessions session = none then
        (world.addSession session userId orgId amount).moveTo id
          (.checkout userId amount .returned)
      else move .raised
  | .opened orgId session, .raisesLate =>
      if world.sessions session = none then
        (world.addSession session userId orgId amount).moveTo id
          (.checkout userId amount .raised)
      else move .raised
  | .returned, _ => world
  | .raised, _ => world
  | _, _ => move .raised

/-- The payment provider opens a checkout under a fresh identifier. -/
def openCheckout (world : World κ ι) (id : Nat) (session : κ) : World κ ι :=
  match world.requests id with
  | some (.checkout userId amount (.customer orgId)) =>
      if world.checkouts session = none then
        { world with checkouts := assign world.checkouts session ⟨.opened, amount * 100⟩ }.moveTo
          id (.checkout userId amount (.opened orgId session))
      else world
  | _ => world

def endCheckout (world : World κ ι) (session : κ) (status : CheckoutStatus) : World κ ι :=
  match world.checkouts session with
  | none => world
  | some checkout =>
      if checkout.status = .opened then
        { world with checkouts := assign world.checkouts session { checkout with status } }
      else world

/-- A request arrives under a new number. -/
def arrive (world : World κ ι) (id : Nat) (call : Call κ ι) : World κ ι :=
  match world.requests id with
  | some _ => world
  | none =>
      let next := world.moveTo id call.request
      match call with
      | .success session => { next with arrived := session :: world.arrived }
      | _ => next

def step (world : World κ ι) : Label κ ι → World κ ι
  | .arrive id call => arrive world id call
  | .advance id outcome =>
      match world.requests id with
      | none => world
      | some (.success session point) => successCallback world id session point outcome
      | some (.cancel session point) => cancelCallback world id session point outcome
      | some (.checkout userId amount point) =>
          createCheckoutSession world id userId amount point outcome
  | .openCheckout id session => openCheckout world id session
  | .switchOrg userId orgId =>
      match world.users userId with
      | none => world
      | some _ => { world with users := assign world.users userId orgId }
  | .pay session => endCheckout world session .complete
  | .expire session => endCheckout world session .expired

def World.budget (world : World κ ι) (orgId : ι) : Option Int :=
  (world.teams orgId).bind Team.maxBudget

def World.amountOf (world : World κ ι) (session : κ) : Int :=
  match world.checkouts session with
  | none => 0
  | some checkout => checkout.amountSubtotal

end ForgePilot.Billing
