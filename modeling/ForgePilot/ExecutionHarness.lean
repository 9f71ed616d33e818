import ForgePilot.AuditSchema
import ForgePilot.ConfirmationGate
import ForgePilot.Fnmatch
import ForgePilot.HarnessAction
import ForgePilot.Redaction

/-!
# The execution harness

A call of the harness classifies the action, asks the policy, passes the
confirmation gate, runs the executor and records one audit event, whichever way
it ends. The executor is a function of the action that returns an observation or
raises; exceptions outside the `Exception` hierarchy end the process of the call
and are not modelled. Identifiers, times and latencies are drawn by the
environment and are part of the request.

The event carries the inputs redacted and, next to them, the target as it is. The
last section compares the events of two actions whose redacted inputs agree.
-/

namespace ForgePilot.Harness

open Fnmatch

structure PolicyDecision where
  allowed : Bool
  permission : ToolPermission
  requiresConfirmation : Bool := false
  reason : String

/-- A policy by permissions and blocked targets. -/
structure HarnessPolicy where
  allowedPermissions : List ToolPermission := [.read, .write, .execute, .confirm]
  blockedTargets : List String := []
  requireConfirmationFor : List ToolPermission := [.confirm]
  blockUnknownActions : Bool := false

/-- Evaluate a policy: unknown actions, permissions and targets in this order. -/
def HarnessPolicy.evaluate (policy : HarnessPolicy) (action : HarnessAction) : PolicyDecision :=
  if policy.blockUnknownActions && action.actionType = .unknown then
    { allowed := false, permission := action.permission, reason := "unknown action type" }
  else if policy.allowedPermissions.contains action.permission = false then
    { allowed := false
      permission := action.permission
      reason := "permission " ++ action.permission.value ++ " is not allowed" }
  else if policy.blockedTargets.any (fnmatch action.target) then
    { allowed := false
      permission := action.permission
      reason := "target " ++ action.target ++ " is blocked by policy" }
  else
    { allowed := true
      permission := action.permission
      requiresConfirmation :=
        action.requiresConfirmation || policy.requireConfirmationFor.contains action.permission
      reason := "allowed" }

/-- How a harness call ended. -/
inductive HarnessObservationStatus where
  | success | error | denied | confirmationRequired
deriving DecidableEq

/-- The exported spelling of a status. -/
def HarnessObservationStatus.value : HarnessObservationStatus → String
  | .success => "success"
  | .error => "error"
  | .denied => "denied"
  | .confirmationRequired => "confirmation_required"

/-- The `error` attribute of a runtime observation. -/
inductive ErrorAttribute where
  | absent
  | flag (value : Bool)
  | other (truthy : Bool) (printed : String)

/-- What an executor returns: nothing, or an object with the attributes that the
harness looks for and the text it prints as. -/
inductive RuntimeObservation where
  | none
  | object (className : String) (content outputSummary : Option String)
      (error : ErrorAttribute) (printed : String)

def summarizeRuntimeOutput : RuntimeObservation → String
  | .none => ""
  | .object _ (some content) _ _ _ => summarizeToolOutput content
  | .object _ .none (some outputSummary) _ _ => summarizeToolOutput outputSummary
  | .object _ .none .none _ printed => summarizeToolOutput printed

/-- The status that follows from what an executor returned. -/
def statusFromRuntimeOutput : RuntimeObservation → HarnessObservationStatus
  | .none => .success
  | .object className _ _ error _ =>
      if className = "ErrorObservation" then .error
      else
        match error with
        | .absent => .success
        | .flag value => if value then .error else .success
        | .other truthy _ => if truthy then .error else .success

def runtimeErrorText (observation : RuntimeObservation) : Option String :=
  match observation with
  | .none => Option.none
  | .object className content _ error _ =>
      if className = "ErrorObservation" then some (content.getD "runtime error")
      else
        match error with
        | .absent => Option.none
        | .flag value => if value then some (summarizeRuntimeOutput observation) else Option.none
        | .other truthy printed => if truthy then some printed else Option.none

/-- What the environment draws for one observation. -/
structure Stamp where
  traceId : String
  timestamp : Timestamp
  latencyMs : Int

/-- The harness's own observation of a call. -/
structure HarnessObservation where
  traceId : String
  actionType : HarnessActionType
  permission : ToolPermission
  target : String
  redactedInput : List (String × Value)
  status : HarnessObservationStatus
  latencyMs : Int
  outputSummary : String
  error : Option String
  timestamp : Timestamp

def auditEventType (observation : HarnessObservation) : AuditEventType :=
  if observation.status = .confirmationRequired then .approvalRequested
  else
    match observation.actionType with
    | .terminal | .git => .commandRun
    | .fileWrite | .filePatch => .fileChange
    | .fileRead | .mcpTool | .unknown => .toolCall

def auditEventFromObservation (observation : HarnessObservation) (taskId : Option String) :
    AuditEvent where
  traceId := observation.traceId
  taskId
  eventType := auditEventType observation
  phase := some "execute"
  timestamp := observation.timestamp
  summary := observation.actionType.value ++ " " ++ observation.status.value ++ ": " ++
    observation.target
  payload :=
    [("action_type", .str observation.actionType.value),
      ("permission_level", .str observation.permission.value),
      ("target", .str observation.target),
      ("redacted_input", .mapping observation.redactedInput),
      ("status", .str observation.status.value),
      ("latency_ms", .int observation.latencyMs),
      ("output_summary", .str observation.outputSummary),
      ("error", optionalText observation.error)]
  durationMs := some observation.latencyMs

/-- What a call returns. -/
structure HarnessExecutionResult where
  observation : HarnessObservation
  auditEvent : AuditEvent
  runtimeObservation : Option RuntimeObservation := none

/-- The harness with its gate and its audit log. -/
structure ExecutionHarness where
  policy : HarnessPolicy := {}
  confirmationGate : ConfirmationGate := .empty
  taskId : Option String := none
  mcpPermissions : McpPermissions := .empty
  auditEvents : List AuditEvent := []

/-- The arguments of a call, its executor, and what the environment draws. -/
structure Request (ε : Type) where
  action : RuntimeAction
  executor : RuntimeAction → ε
  confirmationToken : Option String := none
  taskId : Option String := none
  mcpPermissions : McpPermissions := .empty
  now : Int
  stamp : Stamp

/-- How an awaited or plain executor ends. -/
abbrev Outcome := Except String RuntimeObservation

/-- What an executor hands back to the asynchronous entry point. -/
inductive Returned where
  | plain (outcome : Outcome)
  | awaitable (outcome : Outcome)

/-- The outcome once an awaitable was awaited. -/
def Returned.outcome : Returned → Outcome
  | .plain outcome => outcome
  | .awaitable outcome => outcome

variable (table : CharacterTable)

/-- The part of a recorded result that the branches of a call decide. -/
structure Report where
  status : HarnessObservationStatus
  latencyMs : Int
  outputSummary : String
  error : Option String
  runtimeObservation : Option RuntimeObservation := none

/-- Record a result: build the observation, append its audit event. -/
def recordResult (harness : ExecutionHarness) (action : HarnessAction)
    (taskId : Option String) (stamp : Stamp) (report : Report) :
    HarnessExecutionResult × ExecutionHarness :=
  let observation : HarnessObservation := {
    traceId := stamp.traceId
    actionType := action.actionType
    permission := action.permission
    target := action.target
    redactedInput := redactInput table action.input
    status := report.status
    latencyMs := report.latencyMs
    outputSummary := report.outputSummary
    error := report.error
    timestamp := stamp.timestamp }
  let event := auditEventFromObservation observation (taskId.or harness.taskId)
  (⟨observation, event, report.runtimeObservation⟩,
    { harness with auditEvents := harness.auditEvents ++ [event] })

/-- Either a report that ends the call before the executor, or leave to proceed,
with the gate that remains. -/
def preflight (gate : ConfirmationGate) (action : RuntimeAction)
    (harnessAction : HarnessAction) (decision : PolicyDecision)
    (confirmationToken : Option String) (now : Int) : Option Report × ConfirmationGate :=
  let gated : Option Report := some
    ⟨.confirmationRequired, 0, "confirmation required", some "confirmation required", none⟩
  if decision.allowed = false then
    (some ⟨.denied, 0, decision.reason, some decision.reason, none⟩, gate)
  else if decision.requiresConfirmation = false then (none, gate)
  else if action.confirmationState = some "rejected" then
    (some ⟨.denied, 0, "confirmation rejected", some "confirmation rejected", none⟩, gate)
  else if action.confirmationState = some "confirmed" then (none, gate)
  else
    match confirmationToken with
    | none => (gated, gate)
    | some token =>
      if token = "" then (gated, gate)
      else
        match consume gate token (some harnessAction.confirmationSubject) now with
        | (true, later) => (none, later)
        | (false, later) => (gated, later)

def reportOutcome (latencyMs : Int) : Outcome → Report
  | .error message => ⟨.error, latencyMs, "", some message, none⟩
  | .ok observation =>
      ⟨statusFromRuntimeOutput observation, latencyMs, summarizeRuntimeOutput observation,
        runtimeErrorText observation, some observation⟩

/-- A finished call: its result, the harness it leaves and the executor calls it made. -/
structure Execution where
  result : HarnessExecutionResult
  harness : ExecutionHarness
  invoked : List RuntimeAction

/-- The permission settings of a call: its own unless they are empty. -/
def effectivePermissions {ε : Type} (harness : ExecutionHarness) (request : Request ε) :
    McpPermissions :=
  if request.mcpPermissions.entries.isEmpty then harness.mcpPermissions
  else request.mcpPermissions

def classified {ε : Type} (harness : ExecutionHarness) (request : Request ε) : HarnessAction :=
  actionFromRuntimeAction request.action (effectivePermissions harness request)

/-- The policy's decision on a call. -/
def decided {ε : Type} (harness : ExecutionHarness) (request : Request ε) : PolicyDecision :=
  harness.policy.evaluate (classified harness request)

/-- Execute an action with a plain executor. -/
def execute (harness : ExecutionHarness) (request : Request Outcome) : Execution :=
  let harnessAction := classified harness request
  match preflight harness.confirmationGate request.action harnessAction (decided harness request)
    request.confirmationToken request.now with
  | (some report, gate) =>
      let recorded := recordResult table { harness with confirmationGate := gate } harnessAction
        request.taskId request.stamp report
      ⟨recorded.1, recorded.2, []⟩
  | (none, gate) =>
      let outcome := request.executor request.action
      let recorded := recordResult table { harness with confirmationGate := gate } harnessAction
        request.taskId request.stamp (reportOutcome request.stamp.latencyMs outcome)
      ⟨recorded.1, recorded.2, [request.action]⟩

/-- Execute an action with an executor that may return something to await. -/
def executeAsync (harness : ExecutionHarness) (request : Request Returned) : Execution :=
  let harnessAction := classified harness request
  match preflight harness.confirmationGate request.action harnessAction (decided harness request)
    request.confirmationToken request.now with
  | (some report, gate) =>
      let recorded := recordResult table { harness with confirmationGate := gate } harnessAction
        request.taskId request.stamp report
      ⟨recorded.1, recorded.2, []⟩
  | (none, gate) =>
      let outcome := (request.executor request.action).outcome
      let recorded := recordResult table { harness with confirmationGate := gate } harnessAction
        request.taskId request.stamp (reportOutcome request.stamp.latencyMs outcome)
      ⟨recorded.1, recorded.2, [request.action]⟩

/-- The report a call records: the one that ended it early, or the executor's. -/
def finalReport {ε : Type} (harness : ExecutionHarness) (request : Request ε)
    (outcome : Outcome) : Report :=
  (preflight harness.confirmationGate request.action (classified harness request)
    (decided harness request) request.confirmationToken request.now).1.getD
    (reportOutcome request.stamp.latencyMs outcome)

variable (harness : ExecutionHarness) (request : Request Outcome)

/-- Every call records exactly one result, with its final report. -/
theorem execute_recorded :
    let gate := (preflight harness.confirmationGate request.action (classified harness request)
      (decided harness request) request.confirmationToken request.now).2
    let recorded := recordResult table { harness with confirmationGate := gate }
      (classified harness request) request.taskId request.stamp
      (finalReport harness request (request.executor request.action))
    (execute table harness request).result = recorded.1 ∧
      (execute table harness request).harness = recorded.2 := by
  simp only [execute, finalReport]
  cases preflight harness.confirmationGate request.action (classified harness request)
    (decided harness request) request.confirmationToken request.now with
  | mk stopped gate => cases stopped <;> exact ⟨rfl, rfl⟩

/-! ## What audit events reveal -/

/-- An event without its drawn identifier, time and latency. -/
def masked (event : AuditEvent) : AuditEvent :=
  { event with
    traceId := ""
    timestamp := .naive 0
    durationMs := none
    payload := event.payload.filter (fun entry => entry.1 ≠ "latency_ms") }

/-- What the policy, the gate and the event see of an action beside its inputs. -/
def HarnessAction.visible (action : HarnessAction) :
    HarnessActionType × ToolPermission × String × Bool :=
  (action.actionType, action.permission, action.target, action.requiresConfirmation)

/-- Two actions of one class show the same target: the same command line in the
same directory and of the same kind, the same path, or the same tool. -/
def SameTarget : ActionShape → ActionShape → Prop
  | .cmdRun command cwd _ _, .cmdRun otherCommand otherCwd _ _ =>
      targetFromCommand command cwd = targetFromCommand otherCommand otherCwd ∧
        isGitCommand command = isGitCommand otherCommand
  | .fileRead path _ _, .fileRead otherPath _ _ => path = otherPath
  | .fileWrite path _ _ _, .fileWrite otherPath _ _ _ => path = otherPath
  | .fileEdit path _ _ _ _ _ _, .fileEdit otherPath _ _ _ _ _ _ => path = otherPath
  | .mcp name _, .mcp otherName _ => name = otherName
  | .other .., .other .. => True
  | _, _ => False

/-- Actions of one type with one target are of one class and show the same target. -/
theorem same_target_of_shown {first second : RuntimeAction} {permissions : McpPermissions}
    (types : (actionFromRuntimeAction first permissions).actionType =
      (actionFromRuntimeAction second permissions).actionType)
    (targets : (actionFromRuntimeAction first permissions).target =
      (actionFromRuntimeAction second permissions).target) :
    SameTarget first.shape second.shape := by
  unfold actionFromRuntimeAction at types targets
  cases firstShape : first.shape <;> cases secondShape : second.shape <;>
    simp only [firstShape, secondShape, SameTarget, reduceCtorEq] at types targets ⊢ <;>
    first
    | exact targets
    | exact trivial
    | exact ⟨targets, by split at types <;> split at types <;> simp_all⟩
    | (split at types <;> cases types)

/-- Actions of one class with the same target look alike. -/
theorem visible_of_same_target (first second : RuntimeAction) (permissions : McpPermissions)
    (sameClass : first.shape.className = second.shape.className)
    (same : SameTarget first.shape second.shape) :
    (actionFromRuntimeAction first permissions).visible =
      (actionFromRuntimeAction second permissions).visible := by
  unfold actionFromRuntimeAction
  cases firstShape : first.shape <;> cases secondShape : second.shape <;>
    simp only [firstShape, secondShape, SameTarget] at same <;>
    simp_all [HarnessAction.visible, ActionShape.className]

variable {first second : HarnessAction}

theorem evaluate_visible (policy : HarnessPolicy) (same : first.visible = second.visible) :
    policy.evaluate first = policy.evaluate second := by
  simp only [HarnessAction.visible, Prod.mk.injEq] at same
  obtain ⟨types, permissions, targets, confirmations⟩ := same
  simp [HarnessPolicy.evaluate, types, permissions, targets, confirmations]

theorem confirmation_subject_visible (same : first.visible = second.visible) :
    first.confirmationSubject = second.confirmationSubject := by
  simp only [HarnessAction.visible, Prod.mk.injEq] at same
  simp [HarnessAction.confirmationSubject, same]

/-- The confirmation gate and the policy treat actions alike that look alike. -/
theorem preflight_visible (gate : ConfirmationGate) (policy : HarnessPolicy)
    (first second : RuntimeAction) {firstAction secondAction : HarnessAction}
    (token : Option String) (now : Int)
    (states : first.confirmationState = second.confirmationState)
    (same : firstAction.visible = secondAction.visible) :
    preflight gate first firstAction (policy.evaluate firstAction) token now =
      preflight gate second secondAction (policy.evaluate secondAction) token now := by
  simp [preflight, evaluate_visible _ same, states, confirmation_subject_visible same]

/-- An observation without what the environment drew for it. -/
def HarnessObservation.blank (observation : HarnessObservation) : HarnessObservation :=
  { observation with traceId := "", timestamp := .naive 0, latencyMs := 0 }

/-- A masked event shows nothing of what the environment drew. -/
theorem masked_blank (observation : HarnessObservation) (taskId : Option String) :
    masked (auditEventFromObservation observation taskId) =
      masked (auditEventFromObservation observation.blank taskId) := by
  have types : auditEventType observation = auditEventType observation.blank := rfl
  simp [masked, auditEventFromObservation, types, HarnessObservation.blank]

/-- A masked event shows the type of its action and its target. -/
theorem masked_shows {first second : HarnessObservation} {firstTask secondTask : Option String}
    (same : masked (auditEventFromObservation first firstTask) =
      masked (auditEventFromObservation second secondTask)) :
    first.actionType.value = second.actionType.value ∧ first.target = second.target := by
  have payloads := congrArg AuditEvent.payload same
  simp only [masked, auditEventFromObservation] at payloads
  have types : first.actionType.value = second.actionType.value := by
    have heads := congrArg List.head? payloads
    simpa using heads
  have targets : first.target = second.target := by
    have thirds := congrArg (fun payload => payload[2]?) payloads
    simpa using thirds
  exact ⟨types, targets⟩

/-- The exported spelling determines the action type. -/
theorem action_type_value_inj {first second : HarnessActionType}
    (same : first.value = second.value) : first = second := by
  cases first <;> cases second <;> simp [HarnessActionType.value] at same ⊢

/-- A call appends the event of its result. -/
theorem execute_events : (execute table harness request).harness.auditEvents =
      harness.auditEvents ++ [(execute table harness request).result.auditEvent] := by
  obtain ⟨result, later⟩ := execute_recorded ..
  rw [result, later, recordResult]

/-- Calls that look alike to the gate end with the same report, up to latency. -/
theorem final_report_alike (first second : Request Outcome) (outcome : Outcome)
    (alike : preflight harness.confirmationGate first.action (classified harness first)
        (decided harness first) first.confirmationToken first.now =
      preflight harness.confirmationGate second.action (classified harness second)
        (decided harness second) second.confirmationToken second.now) :
    { finalReport harness first outcome with latencyMs := 0 } =
      { finalReport harness second outcome with latencyMs := 0 } := by
  simp only [finalReport, alike]
  cases (preflight harness.confirmationGate second.action (classified harness second)
    (decided harness second) second.confirmationToken second.now).1 with
  | some report => rfl
  | none => cases outcome <;> rfl

/-- Two actions of one class with equal redacted inputs leave the same audit
events, up to identifiers, times and latency, exactly when their targets agree. -/
theorem audit_events_reveal_exact (harness : ExecutionHarness) (request : Request Outcome)
    (other : RuntimeAction) (otherStamp : Stamp)
    (sameClass : request.action.shape.className = other.shape.className)
    (sameState : request.action.confirmationState = other.confirmationState)
    (sameRedaction : redactInput table request.action.shape.input =
      redactInput table other.shape.input)
    (sameOutcome : request.executor request.action = request.executor other) :
    (execute table harness request).harness.auditEvents.map masked = (execute table harness
          { request with action := other, stamp := otherStamp }).harness.auditEvents.map masked ↔
      SameTarget request.action.shape other.shape := by
  let second : Request Outcome := { request with action := other, stamp := otherStamp }
  rw [execute_events, execute_events, List.map_append, List.map_append,
    List.append_cancel_left_eq, List.map_singleton, List.map_singleton, List.singleton_inj,
    (execute_recorded ..).1, (execute_recorded ..).1]
  constructor
  · intro events
    obtain ⟨types, targets⟩ := masked_shows events
    exact same_target_of_shown
      (action_type_value_inj types) targets
  · intro same
    have alike := visible_of_same_target request.action other
      (effectivePermissions harness request) sameClass same
    have reports := final_report_alike _ _ second (request.executor request.action)
      (preflight_visible harness.confirmationGate harness.policy request.action other
        request.confirmationToken request.now sameState alike)
    simp only [Report.mk.injEq, true_and] at reports
    obtain ⟨statuses, summaries, errors, _⟩ := reports
    simp only [HarnessAction.visible, Prod.mk.injEq] at alike
    obtain ⟨types, permissions, targets, _⟩ := alike
    have outcomes : second.executor second.action = request.executor request.action :=
      sameOutcome.symm
    have blanks :
        (recordResult table harness (classified harness request) request.taskId request.stamp
          (finalReport harness request (request.executor request.action))).1.observation.blank =
        (recordResult table harness (classified harness second) second.taskId second.stamp
          (finalReport harness second (second.executor second.action))).1.observation.blank := by
      rw [outcomes]
      simp only [recordResult, HarnessObservation.blank, HarnessObservation.mk.injEq, true_and,
        classified, classified_input]
      exact ⟨types, permissions, targets, sameRedaction, statuses, summaries, errors, trivial⟩
    calc
      _ = masked (auditEventFromObservation _ _) := masked_blank _ _
      _ = masked (auditEventFromObservation _ _) := by
        exact congrArg (fun observation => masked (auditEventFromObservation observation
          (request.taskId.or harness.taskId))) blanks
      _ = _ := (masked_blank _ _).symm

/-- A shell command that assigns a token. -/
def exportToken (value : String) : RuntimeAction where
  shape := .cmdRun ("export TOKEN=" ++ value) none false false

/-- A request to run it with an executor that returns nothing. -/
def exportRequest (value : String) : Request Outcome where
  action := exportToken value
  executor _ := .ok .none
  now := 0
  stamp := ⟨"id", .aware 0, 0⟩

/-- Redaction hides the token, and the audit event of the command shows it. -/
theorem audit_event_reveals_token : redactInput .ascii (exportToken "abc").shape.input =
        redactInput .ascii (exportToken "xyz").shape.input ∧
      (execute .ascii {} (exportRequest "abc")).harness.auditEvents.map masked ≠
        (execute .ascii {} (exportRequest "xyz")).harness.auditEvents.map masked := by
  have first : redactText .ascii "export TOKEN=abc" = "export TOKEN=[REDACTED]" := by
    decide +kernel
  have second : redactText .ascii "export TOKEN=xyz" = "export TOKEN=[REDACTED]" := by
    decide +kernel
  constructor
  · simp [redactInput, exportToken, ActionShape.input, redactEntries, redactPayload, first, second]
  · rw [execute_events, execute_events, List.map_append, List.map_append, Ne,
      List.append_cancel_left_eq, List.map_singleton, List.map_singleton, List.singleton_inj,
      (execute_recorded _ _ _).1, (execute_recorded _ _ _).1]
    intro same
    have targets : targetFromCommand "export TOKEN=abc" none =
        targetFromCommand "export TOKEN=xyz" none := (masked_shows same).2
    exact absurd targets (by decide +kernel)

/-- A file that receives an assignment of a token. -/
def writeToken (value : String) : RuntimeAction where
  shape := .fileWrite "notes.txt" ("token=" ++ value) 0 (-1)

/-- Writing a token into a file leaves events that do not tell the token. -/
theorem audit_events_hide_written_token :
    (execute .ascii {} { exportRequest "" with
        action := writeToken "abc" }).harness.auditEvents.map masked =
      (execute .ascii {} { exportRequest "" with
        action := writeToken "xyz"
        stamp := ⟨"other", .aware 1, 7⟩ }).harness.auditEvents.map masked := by
  have first : redactText .ascii "token=abc" = "token=[REDACTED]" := by decide +kernel
  have second : redactText .ascii "token=xyz" = "token=[REDACTED]" := by decide +kernel
  have hidden : redactInput .ascii (writeToken "abc").shape.input =
      redactInput .ascii (writeToken "xyz").shape.input := by
    simp [redactInput, writeToken, ActionShape.input, redactEntries, redactPayload, first, second]
  exact (audit_events_reveal_exact .ascii {}
    { exportRequest "" with action := writeToken "abc" } (writeToken "xyz")
    ⟨"other", .aware 1, 7⟩ rfl rfl hidden rfl).mpr rfl

end ForgePilot.Harness
