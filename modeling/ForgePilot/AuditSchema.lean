import ForgePilot.Values
import Mathlib.Data.List.Sort

/-!
# Audit events in chronological order

The event record shared by the harness, the timeline and the exports. A
timestamp is a naive or a timezone-aware datetime, counted in microseconds; the
language refuses to compare one kind with the other. Every comparison sort must
compare some pair across the two kinds when both occur, so sorting a mixed list
raises, and a list of one kind is sorted stably.
-/

namespace ForgePilot

inductive AuditEventType where
  | taskCreated | userMessage | modelResponse | commandRun | testResult | approvalRequested
  | approvalDecision | model | command | fileChange | toolCall | verification | report
deriving DecidableEq

/-- The exported spelling of an event type. -/
def AuditEventType.value : AuditEventType → String
  | .taskCreated => "task_created"
  | .userMessage => "user_message"
  | .modelResponse => "model_response"
  | .commandRun => "command_run"
  | .testResult => "test_result"
  | .approvalRequested => "approval_requested"
  | .approvalDecision => "approval_decision"
  | .model => "model"
  | .command => "command"
  | .fileChange => "file_change"
  | .toolCall => "tool_call"
  | .verification => "verification"
  | .report => "report"

/-- A datetime without or with a timezone, in microseconds. -/
inductive Timestamp where
  | naive (microseconds : Int)
  | aware (microseconds : Int)
deriving DecidableEq

/-- The reading of a timestamp within its kind. -/
def Timestamp.microseconds : Timestamp → Int
  | .naive reading => reading
  | .aware reading => reading

/-- Whether a timestamp carries a timezone. -/
def Timestamp.isAware : Timestamp → Bool
  | .naive _ => false
  | .aware _ => true

/-- One audit event; costs are exact rationals. -/
structure AuditEvent where
  traceId : String
  taskId : Option String := none
  eventType : AuditEventType
  phase : Option String := none
  timestamp : Timestamp
  summary : String
  payload : List (String × Value) := []
  durationMs : Option Int := none
  costUsd : Option Rat := none

/-- What the audit functions raise. -/
inductive AuditError where
  | typeError (message : String)
deriving DecidableEq

/-- All timestamps of a list are of one kind, so that they can be compared. -/
def Comparable (events : List AuditEvent) : Prop :=
  (∀ event ∈ events, event.timestamp.isAware = true) ∨
    ∀ event ∈ events, event.timestamp.isAware = false

instance (events : List AuditEvent) : Decidable (Comparable events) :=
  inferInstanceAs (Decidable (_ ∨ _))

/-- Chronological order of two comparable events. -/
def notAfter (first second : AuditEvent) : Prop :=
  first.timestamp.microseconds ≤ second.timestamp.microseconds

instance : DecidableRel notAfter := fun first second =>
  inferInstanceAs (Decidable (first.timestamp.microseconds ≤ second.timestamp.microseconds))

/-- Events sorted by timestamp, ties in their given order. -/
def orderedTimeline (events : List AuditEvent) : Except AuditError (List AuditEvent) :=
  if Comparable events then .ok (events.insertionSort notAfter)
  else .error (.typeError "can't compare offset-naive and offset-aware datetimes")

/-- Sorting keeps every event, with its multiplicity. -/
theorem ordered_timeline_perm {events sorted : List AuditEvent}
    (ordered : orderedTimeline events = .ok sorted) : sorted.Perm events := by
  rw [orderedTimeline] at ordered
  split at ordered
  · exact Except.ok.inj ordered ▸ List.perm_insertionSort notAfter events
  · cases ordered

/-- Sorting succeeds exactly on lists of one kind of timestamp. -/
theorem ordered_timeline_ok_iff (events : List AuditEvent) :
    (∃ sorted, orderedTimeline events = .ok sorted) ↔ Comparable events := by
  rw [orderedTimeline]
  split <;> simp_all

end ForgePilot
