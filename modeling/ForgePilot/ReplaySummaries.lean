import ForgePilot.AuditReplay

/-!
# What a replay summary says twice

The task, the number of events and the identifiers of the events come from several passes over the events. They
agree but for the task: the evidence takes the first one that an event names, the timeline that of the first event.
-/

namespace ForgePilot.AuditReplay

open AuditTimelines List

/-- The risk queues. -/
inductive Queue where
  | approvalRequired | failedVerification | highRiskCommand

def Queue.name : Queue → String
  | .approvalRequired => "approval_required"
  | .failedVerification => "failed_verification"
  | .highRiskCommand => "high_risk_command"

/-- The events that belong in a queue. -/
def Queue.selects : Queue → AuditEvent → Bool
  | .approvalRequired, event => event.eventType = .approvalRequested
  | .failedVerification, event => AuditEventType.isVerification event.eventType && isFailedVerification event
  | .highRiskCommand, event => AuditEventType.isCommand event.eventType && isHighRiskCommandEvent event

/-- The identifiers that the queues of a name list. -/
def queueIds (queues : List ReplayRiskQueue) (name : String) : List String :=
  (queues.filter fun risk => risk.name = name).flatMap ReplayRiskQueue.eventIds

/-- The parts of a summary of these events agree. -/
structure Consistent (events : List AuditEvent) (summary : AuditReplaySummary) : Prop where
  task : summary.taskId = summary.timeline.taskId
  count : summary.eventCount = summary.timeline.nodes.length
  nodes : Preserves events summary.timeline
  listed : ∀ risk ∈ summary.riskQueues, ∃ queue : Queue, risk.name = queue.name ∧
    ∀ id ∈ risk.eventIds, ∃ node ∈ summary.timeline.nodes, node.nodeId = id ∧ queue.selects node.event = true ∧
      ∀ other ∈ summary.timeline.nodes, other.nodeId = id → other = node
  complete : ∀ queue : Queue, ∀ node ∈ summary.timeline.nodes, queue.selects node.event = true →
    (queueIds summary.riskQueues queue.name).count node.nodeId = 1

/-- The first of the events names a task, or none does. -/
def TaskFirst (events : List AuditEvent) : Prop :=
  ∀ first ∈ events.head?, first.taskId.getD "" = "" → ∀ event ∈ events, event.taskId.getD "" = ""

/-! ## The task -/

/-- The first task that an event names. -/
def evidenceTask (events : List AuditEvent) : String :=
  ((events.filterMap AuditEvent.taskId).filter (· ≠ "")).head?.getD ""

theorem evidence_task_cons (event : AuditEvent) (rest : List AuditEvent) :
    evidenceTask (event :: rest) =
      if event.taskId.getD "" = "" then evidenceTask rest else event.taskId.getD "" := by
  cases named : event.taskId with
  | none => simp [evidenceTask, named]
  | some task => by_cases empty : task = "" <;> simp [evidenceTask, named, empty]

variable (events : List AuditEvent)

theorem evidence_task_empty_iff :
    evidenceTask events = "" ↔ ∀ event ∈ events, event.taskId.getD "" = "" := by
  induction events with
  | nil => simp [evidenceTask]
  | cons event rest ih =>
    rw [evidence_task_cons, forall_mem_cons]
    by_cases empty : event.taskId.getD "" = ""
    · rw [if_pos empty, ih, and_iff_right empty]
    · rw [if_neg empty]
      exact iff_of_false empty fun all => empty all.1

variable (identified : List (String × AuditEvent))

theorem task_iff : evidenceTask (identified.map Prod.snd) = (timelineOf identified).taskId ↔
      TaskFirst (identified.map Prod.snd) := by
  cases identified with
  | nil => simp [evidenceTask, timelineOf, TaskFirst]
  | cons earliest rest =>
    have first : TaskFirst ((earliest :: rest).map Prod.snd) ↔ (earliest.2.taskId.getD "" = "" →
        ∀ event ∈ (earliest :: rest).map Prod.snd, event.taskId.getD "" = "") := by
      simp [TaskFirst]
    rw [first, ← evidence_task_empty_iff, map_cons, evidence_task_cons, timelineOf]
    by_cases empty : earliest.2.taskId.getD "" = "" <;> simp [empty]

/-! ## The queues -/

theorem queue_ids_risk_queue (name reason other : String) (select : AuditEvent → Bool)
    (identified : List (String × AuditEvent)) : queueIds (riskQueue name reason select identified) other =
      if name = other then (identified.filter fun pair => select pair.2).map Prod.fst else [] := by
  rw [riskQueue]
  generalize (identified.filter fun pair => select pair.2).map Prod.fst = ids
  by_cases empty : ids = [] <;> by_cases named : name = other <;> simp [queueIds, empty, named]

theorem risk_queues_eq (assigned : assignUniqueNodeIds events = .ok identified) :
    ∃ queues, riskQueues events = .ok queues ∧ (∀ queue : Queue, queueIds queues queue.name =
        (identified.filter fun pair => queue.selects pair.2).map Prod.fst) ∧
      ∀ risk ∈ queues, ∃ queue : Queue, risk.name = queue.name ∧ risk.eventIds ⊆ queueIds queues queue.name := by
  refine ⟨_, by rw [riskQueues, assigned]; rfl, fun queue => ?_, fun risk member => ?_⟩
  · have append (first second : List ReplayRiskQueue) (name : String) :
        queueIds (first ++ second) name = queueIds first name ++ queueIds second name := by simp [queueIds]
    rw [append, append]
    simp only [queue_ids_risk_queue]
    cases queue <;> simp [Queue.name, Queue.selects]
  · have named : ∃ queue : Queue, risk.name = queue.name := by
      simp only [mem_append, riskQueue] at member
      rcases member with (first | second) | third
      · exact ⟨.approvalRequired, by split at first <;> simp_all [Queue.name]⟩
      · exact ⟨.failedVerification, by split at second <;> simp_all [Queue.name]⟩
      · exact ⟨.highRiskCommand, by split at third <;> simp_all [Queue.name]⟩
    obtain ⟨queue, same⟩ := named
    exact ⟨queue, same, fun id inside => mem_flatMap.mpr
      ⟨risk, mem_filter.mpr ⟨member, decide_eq_true same⟩, inside⟩⟩

def lateTask : List AuditEvent :=
  [⟨"a", none, .command, none, .aware 0, "first", [], none, none⟩,
    ⟨"b", some "task", .command, none, .aware 1, "second", [], none, none⟩]

end ForgePilot.AuditReplay
