import ForgePilot.AuditTimeline
import ForgePilot.Redaction

/-!
# Audit replay

A replay summarises the events of a task and lists the events that need a second
look in risk queues. A test or verification event is failed when it carries a
failed status, as the harness writes it, or an exit code other than zero, as the
event stream reports it.

The exported event log is not part of the summary here; the rendered page is not
modelled.
-/

namespace ForgePilot.AuditReplay

open AuditTimelines List

/-- The text a value prints as. A container prints with its brackets, which no word
that the replay looks for has. -/
def scalarText : Value → Option String
  | .none => some "None"
  | .bool true => some "True"
  | .bool false => some "False"
  | .int value => some (toString value)
  | .float printed => some printed
  | .str text => some text
  | .object _ printed => some printed
  | .list _ | .tuple _ | .mapping _ => none

/-- Lower case, as far as the words that the replay looks for can notice. -/
def lower (text : String) : String := String.ofList (text.toList.flatMap Harness.lowerCharacter)

/-- The words that report a failure. -/
def failedStatuses : List String := ["failed", "fail", "error"]

/-- Whether a verification failed, for both kinds of producers. -/
def isFailedVerification (event : AuditEvent) : Bool :=
  if (scalarText ((event.payload.lookup "status").getD (.str ""))).any
      (fun text => lower text ∈ failedStatuses) then true
  else
    match event.payload.lookup "exit_code" with
    | none | some .none => false
    | some exitCode => scalarText exitCode ≠ some "0"

/-- Whether a command was marked as a high risk. -/
def isHighRiskCommandEvent (event : AuditEvent) : Bool :=
  let risk := (event.payload.lookup "security_risk").getD
    ((event.payload.lookup "risk").getD (.str ""))
  (scalarText risk).any (fun text => lower text = "high")

/-- Events that need a second look, and why. -/
structure ReplayRiskQueue where
  name : String
  eventIds : List String
  reason : String

/-- A queue of the selected events, unless there are none. -/
def riskQueue (name reason : String) (select : AuditEvent → Bool)
    (identified : List (String × AuditEvent)) : List ReplayRiskQueue :=
  let eventIds := (identified.filter (fun pair => select pair.2)).map Prod.fst
  if eventIds = [] then [] else [{ name, eventIds, reason }]

def riskQueues (events : List AuditEvent) : Except AuditError (List ReplayRiskQueue) := do
  let identified ← assignUniqueNodeIds events
  return riskQueue "approval_required" "Task requested human approval before continuing."
      (fun event => event.eventType = .approvalRequested) identified ++
    riskQueue "failed_verification" "Verification or test events reported failure."
      (fun event => AuditEventType.isVerification event.eventType && isFailedVerification event)
      identified ++
    riskQueue "high_risk_command" "Command events were marked high risk by policy."
      (fun event => AuditEventType.isCommand event.eventType && isHighRiskCommandEvent event)
      identified

structure AuditReplaySummary where
  taskId : String
  eventCount : Nat
  chainCount : Nat
  totalCostUsd : Rat
  totalDurationMs : Int
  eventTypes : List String
  riskQueues : List ReplayRiskQueue
  timeline : AuditTimeline

/-- Summarise the events of a task, or raise what sorting them raises. -/
def buildAuditReplaySummary (events : List AuditEvent) :
    Except AuditError AuditReplaySummary := do
  let sorted ← orderedTimeline events
  let timeline ← buildTimeline events
  let queues ← riskQueues events
  return {
    taskId := ((sorted.filterMap AuditEvent.taskId).filter (· ≠ "")).head?.getD ""
    eventCount := sorted.length
    chainCount := timeline.chains.length
    totalCostUsd := timeline.totalCostUsd
    totalDurationMs := timeline.totalDurationMs
    eventTypes :=
      ((sorted.map (fun event => event.eventType.value)).dedup).insertionSort (· ≤ ·)
    riskQueues := queues
    timeline }

/-- A risk queue appears exactly when it has an event. -/
theorem risk_queue_named (name reason : String) (select : AuditEvent → Bool)
    (identified : List (String × AuditEvent)) (other : String) :
    (∃ queue ∈ riskQueue name reason select identified, queue.name = other) ↔
      name = other ∧ ∃ pair ∈ identified, select pair.2 = true := by
  unfold riskQueue
  simp only
  split
  · rename_i nothing
    simp only [not_mem_nil, false_and, exists_false, false_iff, not_and]
    rintro _ ⟨pair, member, selected⟩
    rw [map_eq_nil_iff, filter_eq_nil_iff] at nothing
    exact nothing pair member selected
  · rename_i something
    simp only [mem_singleton, exists_eq_left]
    constructor
    · intro named
      refine ⟨named, ?_⟩
      obtain ⟨nodeId, member⟩ := exists_mem_of_ne_nil _ something
      obtain ⟨pair, inside, _⟩ := mem_map.mp member
      exact ⟨pair, (mem_filter.mp inside).1, (mem_filter.mp inside).2⟩
    · exact fun both => both.1

/-- The replay lists failed verifications exactly when a test or verification event
failed. -/
theorem failed_queue_iff (events : List AuditEvent) (summary : AuditReplaySummary)
    (built : buildAuditReplaySummary events = .ok summary) :
    (∃ queue ∈ summary.riskQueues, queue.name = "failed_verification") ↔
      ∃ event ∈ events, AuditEventType.isVerification event.eventType = true ∧
        isFailedVerification event = true := by
  rw [buildAuditReplaySummary] at built
  cases ordered : orderedTimeline events with
  | error raised =>
    rw [ordered] at built
    cases built
  | ok sorted =>
    have identified : assignUniqueNodeIds events = .ok (identify .empty sorted) := by
      rw [assignUniqueNodeIds, ordered]
      rfl
    rw [ordered, riskQueues, buildTimeline, identified] at built
    cases built
    simp only [mem_append, or_and_right, exists_or, risk_queue_named]
    have different : ("approval_required" : String) ≠ "failed_verification" ∧
        ("high_risk_command" : String) ≠ "failed_verification" := by decide
    simp only [different.1, different.2, false_and, false_or, or_false, true_and]
    have events_eq := identify_events .empty sorted
    have perm := ordered_timeline_perm ordered
    constructor
    · rintro ⟨pair, member, selected⟩
      rw [Bool.and_eq_true] at selected
      have inside : pair.2 ∈ sorted := events_eq ▸ mem_map_of_mem member
      exact ⟨pair.2, perm.mem_iff.mp inside, selected⟩
    · rintro ⟨event, member, verification, failed⟩
      have inside : event ∈ (identify .empty sorted).map Prod.snd := by
        rw [events_eq]
        exact perm.mem_iff.mpr member
      obtain ⟨pair, listed, rfl⟩ := mem_map.mp inside
      exact ⟨pair, listed, by rw [verification, failed]; rfl⟩

end ForgePilot.AuditReplay
