import ForgePilot.ToolRegistry

/-!
# The record every call leaves

A call through the registry ends in one of seven ways, and each of them goes
through `recordCall`. Recording writes the parameters as JSON, after the executor
has run; a failed executor is recorded with the text its exception prints as.
Both can raise, and then the call leaves no record although the executor ran.
This module says for which calls exactly one record is left, and when that record
is the same with and without a limit.
-/

namespace ForgePilot.ToolRegistries

/-- The parameters have a text that can be put into a record. -/
def Parameters.serialisable : Parameters → Bool
  | .mapping entries => (Value.mapping entries).serialisable
  | .otherMapping _ _ => false
  | .text _ => true

/-- The text of the parameters exists exactly when they are serialisable. -/
theorem parameters_text_is_ok (parameters : Parameters) :
    (parametersText parameters).isOk = parameters.serialisable := by
  cases parameters with
  | text text => rfl
  | otherMapping className entries => rfl
  | mapping entries =>
    rw [parametersText, Parameters.serialisable, ← Value.json_dumps_is_ok]
    cases (Value.mapping entries).jsonDumps <;> rfl

/-- A call returned normally, and the records before it gained one at the end,
for this tool. -/
def Recorded (before : ToolRegistry) (toolId : String)
    (result : Except ToolError ToolCallRecord) (after : ToolRegistry) : Prop :=
  ∃ record, result = .ok record ∧ record.toolId = toolId ∧
    after.callRecords = before.callRecords ++ [record]

theorem not_recorded_error (before after : ToolRegistry) (toolId : String) (raised : ToolError) :
    ¬Recorded before toolId (.error raised) after := by
  rintro ⟨record, returned, _⟩
  cases returned

variable (registry : ToolRegistry)

/-- Recording a call succeeds exactly when its parameters are serialisable. -/
theorem record_call_recorded_iff (toolId : String) (parameters : Parameters) (output : String)
    (durationMs : Int) (error traceId : Option String) (stamp : Stamp) :
    Recorded registry toolId
        (recordCall registry toolId parameters output durationMs error traceId stamp).1
        (recordCall registry toolId parameters output durationMs error traceId stamp).2 ↔
      parameters.serialisable = true := by
  rw [← parameters_text_is_ok, recordCall]
  cases parametersText parameters with
  | error raised =>
    have failed : (Except.error raised : Except ToolError String).isOk = false := rfl
    simpa [failed] using not_recorded_error _ _ _ _
  | ok text =>
    have succeeded : (Except.ok text : Except ToolError String).isOk = true := rfl
    simp only [succeeded, iff_true]
    exact ⟨_, rfl, rfl, rfl⟩

/-- The outcomes of an executor that returns a text or raises an `Exception`;
the limit of a timed call may pass before either happens. -/
def ExecutorOutcome.conforms : ExecutorOutcome → Bool
  | .interrupted _ _ => false
  | _ => true

/-- A limit is in force when it is given and positive. -/
def timed (timeout : Option Timeout) : Bool :=
  timeout.any Timeout.positive

/-- The outcome has to be recorded by the text of an exception that cannot be
printed. A timed call words its own text for timeout errors. -/
def ExecutorOutcome.unprintable (timeout : Option Timeout) : ExecutorOutcome → Bool
  | .raised _ (.error _) isTimeoutError => !(timed timeout && isTimeoutError)
  | _ => false

variable (request : Request)

/-- Without a limit the outcome is recorded unless its exception cannot be
printed. -/
theorem record_outcome_recorded_iff {timeout : Option Timeout} (untimed : timed timeout = false)
    {outcome : ExecutorOutcome} (conforming : outcome.conforms = true) :
    Recorded registry request.toolId (recordOutcome registry request outcome).1
        (recordOutcome registry request outcome).2 ↔
      request.parameters.serialisable = true ∧ outcome.unprintable timeout = false := by
  cases outcome with
  | returned output => simp [recordOutcome, record_call_recorded_iff, ExecutorOutcome.unprintable]
  | timedOut => simp [recordOutcome, record_call_recorded_iff, ExecutorOutcome.unprintable]
  | interrupted typeName message => simp [ExecutorOutcome.conforms] at conforming
  | raised typeName message isTimeoutError =>
    cases message with
    | ok text => simp [recordOutcome, record_call_recorded_iff, ExecutorOutcome.unprintable]
    | error printing =>
      simp [recordOutcome, ExecutorOutcome.unprintable, untimed, not_recorded_error]

/-- With a limit, timeout errors need no text of their own. -/
theorem record_timed_recorded_iff {limit : Timeout} (positive : limit.positive = true)
    {outcome : ExecutorOutcome} (conforming : outcome.conforms = true) :
    Recorded registry request.toolId (recordTimed registry request limit outcome).1
        (recordTimed registry request limit outcome).2 ↔
      request.parameters.serialisable = true ∧ outcome.unprintable (some limit) = false := by
  have inForce : timed (some limit) = true := positive
  cases outcome with
  | returned output =>
    simp [recordTimed, recordOutcome, record_call_recorded_iff, ExecutorOutcome.unprintable]
  | timedOut => simp [recordTimed, record_call_recorded_iff, ExecutorOutcome.unprintable]
  | interrupted typeName message => simp [ExecutorOutcome.conforms] at conforming
  | raised typeName message isTimeoutError =>
    cases isTimeoutError with
    | true =>
      cases message <;>
        simp [recordTimed, record_call_recorded_iff, ExecutorOutcome.unprintable, inForce]
    | false =>
      cases message with
      | ok text =>
        simp [recordTimed, recordOutcome, record_call_recorded_iff, ExecutorOutcome.unprintable]
      | error printing =>
        simp [recordTimed, recordOutcome, ExecutorOutcome.unprintable, not_recorded_error]

/-- The calls whose record can be written: the parameters are serialisable, and
where an executor runs, an exception it raises can be printed. -/
def Recordable (registry : ToolRegistry) (request : Request) (timeout : Option Timeout)
    (entry : ToolRegistryEntry) : Prop :=
  request.parameters.serialisable = true ∧
    (AnsweredDirectly registry request entry ∨
      ∀ outcome ∈ request.executor, outcome.unprintable timeout = false)

/-- A direct answer is recorded exactly when the parameters are serialisable. -/
theorem recordable_of_direct (timeout : Option Timeout) {entry : ToolRegistryEntry}
    (direct : AnsweredDirectly registry request entry) :
    Recordable registry request timeout entry ↔ request.parameters.serialisable = true := by
  simp [Recordable, direct]

def liveRegistry : ToolRegistry :=
  register ⟨.empty, [], .empty⟩
    { toolId := "deploy", displayName := "Deploy", provider := "ci", permission := .execute }

/-- A call whose parameters hold a list of plain values. -/
def plainRequest : Request :=
  ⟨"deploy", .mapping [("targets", .list [.str "eu", .int 2])],
    some (.raised "RuntimeError" (.ok "unreachable") false), none, true, ⟨"t1", 7, 12⟩⟩

/-- The same call with bytes among its parameters. -/
def bytesRequest : Request :=
  { plainRequest with
    parameters := .mapping [("payload", .object "bytes" "b'x'")]
    executor := some (.returned "deployed") }

/-- The text of a record that reports the limit. -/
def expiredText (limit : Timeout) : String := "executor timed out after " ++ limit.printed ++ "s"

/-- The executor raised the exception by which the wait reports its own limit. -/
def ExecutorOutcome.raisesTimeout : ExecutorOutcome → Bool
  | .raised _ _ isTimeoutError => isTimeoutError
  | _ => false

/-- Under one drawn id and the same clock readings a limited call leaves the records
of the unlimited one, and no executor it started is reported as timed out. -/
def LimitUnnoticed (registry : ToolRegistry) (request : Request) (limit : Timeout) : Prop :=
  (invoke registry request (some limit)).registry.callRecords =
      (invoke registry request none).registry.callRecords ∧
    ((invoke registry request (some limit)).starts ≠ [] → ∀ record,
      (invoke registry request (some limit)).result = .ok record →
        record.error ≠ some (expiredText limit))

variable {outcome : ExecutorOutcome} {registry : ToolRegistry} {request : Request}
  {entry : ToolRegistryEntry}

variable (found : registry.entries.get request.toolId = some entry)
include found

/-- A registered tool that answers directly does so under any limit. -/
theorem invoke_direct (direct : AnsweredDirectly registry request entry) (timeout : Option Timeout)
    :
    invoke registry request timeout = invoke registry request none := by
  simp only [invoke, getEntry, found]
  by_cases unconfirmed : entry.permission = .confirm ∧ request.confirmed = false
  · rw [if_pos unconfirmed, if_pos unconfirmed]
  by_cases mocked : entry.mode = .mock ∨ (registry.mockSpecs.get request.toolId).isSome
  · rw [if_neg unconfirmed, if_neg unconfirmed, if_pos mocked, if_pos mocked]
  rcases direct with refused | mock | prepared | missing
  · exact absurd refused unconfirmed
  · exact absurd (Or.inl mock) mocked
  · exact absurd (Or.inr prepared) mocked
  · rw [Option.isNone_iff_eq_none.mp missing]

/-- A live call starts its executor and records how it ended. -/
theorem invoke_live (live : ¬AnsweredDirectly registry request entry) :
    ∃ outcome, request.executor = some outcome ∧ (∀ limit, limit.positive = true →
        (invoke registry request (some limit)).result =
            (recordTimed registry request limit outcome).1 ∧
          (invoke registry request (some limit)).registry =
            (recordTimed registry request limit outcome).2) ∧
      (invoke registry request none).registry = (recordOutcome registry request outcome).2 := by
  simp only [AnsweredDirectly, not_or] at live
  obtain ⟨unconfirmed, mock, prepared, supplied⟩ := live
  rw [Unconfirmed] at unconfirmed
  obtain ⟨outcome, executor⟩ :=
    Option.ne_none_iff_exists'.mp (mt Option.isNone_iff_eq_none.mpr supplied)
  have mocked : ¬(entry.mode = .mock ∨ (registry.mockSpecs.get request.toolId).isSome) :=
    not_or.mpr ⟨mock, prepared⟩
  refine ⟨outcome, executor, fun limit positive => ?_, ?_⟩
  · simp only [invoke, getEntry, found, executor, positive, if_true]
    rw [if_neg unconfirmed, if_neg mocked]
    exact ⟨rfl, rfl⟩
  · simp only [invoke, getEntry, found, executor]
    rw [if_neg unconfirmed, if_neg mocked]

omit found

variable {parameters : Parameters} {record : ToolCallRecord}

theorem record_call_error {toolId output : String} {durationMs : Int}
    {error traceId : Option String} {stamp : Stamp}
    (recorded : (recordCall registry toolId parameters output durationMs error traceId stamp).1 =
      .ok record) : record.error = error := by
  rw [recordCall] at recorded
  cases written : parametersText parameters <;> rw [written] at recorded <;> cases recorded
  rfl

/-- Parameters without a text leave the registry as it was. -/
theorem record_call_unwritten (unwritten : parameters.serialisable = false)
    (registry : ToolRegistry) (toolId output : String) (durationMs : Int)
    (error traceId : Option String) (stamp : Stamp) :
    ∃ raised, recordCall registry toolId parameters output durationMs error traceId stamp =
      (.error raised, registry) := by
  rw [← parameters_text_is_ok] at unwritten
  rw [recordCall]
  cases written : parametersText parameters with
  | error raised => exact ⟨raised, rfl⟩
  | ok => rw [written] at unwritten; cases unwritten

/-- An outcome that cannot be recorded leaves the registry as it was. -/
theorem record_outcome_unwritten (unwritten : request.parameters.serialisable = false)
    (outcome : ExecutorOutcome) : (recordOutcome registry request outcome).2 = registry := by
  have refused : ∀ output error, (recordCall registry request.toolId request.parameters output
      request.stamp.elapsedMs error request.traceId request.stamp).2 = registry := by
    intro output error
    obtain ⟨_, raised⟩ := record_call_unwritten unwritten ..
    exact congrArg Prod.snd raised
  cases outcome with
  | raised typeName message =>
    cases message with
    | ok => exact refused "" _
    | error => rfl
  | interrupted => rfl
  | _ => exact refused _ _

/-- Any other outcome is recorded as it is without a limit. -/
theorem record_timed_own (finished : outcome ≠ .timedOut) (silent : outcome.raisesTimeout = false)
    (registry : ToolRegistry) (request : Request) (limit : Timeout) :
    recordTimed registry request limit outcome = recordOutcome registry request outcome := by
  cases outcome with
  | timedOut => exact absurd rfl finished
  | raised => cases silent; rfl
  | _ => rfl

theorem record_timed_expired (own : outcome.raisesTimeout = true) (registry : ToolRegistry)
    (request : Request) (limit : Timeout) :
    recordTimed registry request limit outcome =
      recordCall registry request.toolId request.parameters "" request.stamp.elapsedMs
        (some (expiredText limit)) request.traceId request.stamp := by
  cases outcome with
  | raised => cases own; rfl
  | _ => cases own

/-- What no executor's own record says: the text has no colon after a type name. -/
theorem record_outcome_unexpired {limit : Timeout} (number : ':' ∉ limit.printed.toList)
    {outcome : ExecutorOutcome} (finished : outcome ≠ .timedOut)
    (recorded : (recordOutcome registry request outcome).1 = .ok record) :
    record.error ≠ some (expiredText limit) := by
  cases outcome with
  | timedOut => exact absurd rfl finished
  | interrupted => cases recorded
  | returned output => rw [record_call_error recorded]; nofun
  | raised typeName message =>
    cases message with
    | error printing => cases recorded
    | ok message =>
      rw [recordOutcome] at recorded
      rw [record_call_error recorded]
      intro same
      have named : ':' ∈ (expiredText limit).toList := by simp [← Option.some.inj same]
      unfold expiredText at named
      simp [number] at named

/-- A call whose executor gives up on a connection well within the limit. -/
def refusedRequest : Request :=
  { plainRequest with executor := some (.raised "TimeoutError" (.ok "no answer") true) }

end ForgePilot.ToolRegistries
