import ForgePilot.OrderedDict
import ForgePilot.Processes

/-!
# Proactive conversations

Workflow runs of a commit are reported one by one. Each report is a transaction on the rows that the
database has for this repository, pull request and commit: it selects them for update, merges the
run that is reported into the runs of the first row, or into all runs that are known if there
is no row, and writes the result back. A report returns the runs once none is pending and one has
failed.

Selecting rows locks those that exist, and waits while another transaction has them locked.
Where there is none, nothing is locked. The table below has the rows of one commit; the journal of the
reports that have ended is kept beside it, latest first, and so are the transactions that
have found no row.
-/

namespace ForgePilot.ProactiveConversations

open Processes

/-! ## Rows -/

inductive WorkflowRunStatus where
  | failure
  | completed
  | pending
deriving DecidableEq

structure WorkflowRun where
  id : String
  name : String
  status : WorkflowRunStatus
deriving DecidableEq

/-- The runs of a commit by their ids. -/
abbrev WorkflowRunGroup := OrderedDict String WorkflowRun

structure ProactiveConversation where
  workflowRuns : WorkflowRunGroup
  conversationStarterSent : Bool

/-- A report that has ended, with the group that it returned. -/
structure Ended where
  workflow : WorkflowRun
  returned : Option WorkflowRunGroup

/-- The rows of a commit, the transaction that has them locked, and those that have found none. -/
structure Table (ρ : Type) where
  rows : List ProactiveConversation
  lockedBy : Option ρ
  unlocked : List ρ
  journal : List Ended

variable {ρ : Type} [DecidableEq ρ]

/-! ## Reports -/

def isNonePending (group : WorkflowRunGroup) : Bool :=
  group.values.all fun run => run.status ≠ .pending

/-- None is pending, and one has failed. -/
def shouldSend (group : WorkflowRunGroup) : Bool :=
  isNonePending group && group.values.any fun run => run.status = .failure

/-- How far a report is. -/
inductive Phase where
  | idle
  /-- The rows are about to be selected. -/
  | selecting (workflow : WorkflowRun)
  /-- There is no row; all known runs are about to be asked for. -/
  | fetching (workflow : WorkflowRun)
  /-- A row is about to be added. -/
  | adding (workflow : WorkflowRun) (group : WorkflowRunGroup)
  /-- The rows are locked, and about to be written. -/
  | updating (workflow : WorkflowRun) (group : WorkflowRunGroup)
  | ended

/-- What a step is given from outside: the report, and the runs that are known. -/
structure Given where
  request : Option WorkflowRun := none
  known : WorkflowRunGroup := .empty

/-- The row of a merged group, and what the report returns. -/
def merged (workflow : WorkflowRun) (group : WorkflowRunGroup) : ProactiveConversation × Ended :=
  let updated := group.set workflow.id workflow
  (⟨updated, shouldSend updated⟩, ⟨workflow, if shouldSend updated then some updated else none⟩)

/-- Select the rows for update. -/
def select (name : ρ) (table : Table ρ) (workflow : WorkflowRun) : Table ρ × Phase :=
  match table.rows with
  | [] => ({ table with unlocked := name :: table.unlocked }, .fetching workflow)
  | row :: _ =>
      if table.lockedBy.isSome then (table, .selecting workflow)
      else if row.conversationStarterSent then
        ({ table with journal := ⟨workflow, none⟩ :: table.journal }, .ended)
      else ({ table with lockedBy := some name }, .updating workflow row.workflowRuns)

/-- One step of a report. -/
def storeWorkflowInformation (name : ρ) (table : Table ρ) (phase : Phase) (given : Given) :
    Table ρ × Phase :=
  match phase with
  | .idle =>
      match given.request with
      | none => (table, .idle)
      | some workflow => (table, .selecting workflow)
  | .selecting workflow => select name table workflow
  | .fetching workflow => (table, .adding workflow given.known)
  | .adding workflow group =>
      ({ table with
          rows := table.rows ++ [(merged workflow group).1]
          unlocked := table.unlocked.erase name
          journal := (merged workflow group).2 :: table.journal }, .ended)
  | .updating workflow group =>
      ({ table with
          rows := table.rows.map fun _ => (merged workflow group).1
          lockedBy := none
          journal := (merged workflow group).2 :: table.journal }, .ended)
  | .ended => (table, .ended)

/-- A commit that was not reported yet. -/
def initial : World (Table ρ) ρ Phase := ⟨⟨[], none, [], []⟩, fun _ => .idle⟩

abbrev step : World (Table ρ) ρ Phase → ρ × Given → World (Table ρ) ρ Phase :=
  advance storeWorkflowInformation

end ForgePilot.ProactiveConversations
