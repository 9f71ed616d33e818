import ForgePilot.Fnmatch
import ForgePilot.OrderedDict
import ForgePilot.PosixPath
import ForgePilot.Runs
import ForgePilot.ShellWords
import ForgePilot.ToolSchema
import ForgePilot.Values
import Mathlib.Logic.Function.Basic

/-!
# The tool registry and its three entry points

A registry holds tool entries, prepared responses and the records of calls. A
tool is reached through the registry itself, through an access guard, or through
the shell runner, which takes a registry and optionally a guard. A guard keeps a
reference to the registry it was built with, so several registries and guards
live side by side in one world.

Whatever a call starts, an executor or a subprocess, is logged with the registry
it was started from at that moment. Readings of clocks, drawn identifiers and the
behaviour of executors and subprocesses are part of a call's label. Schema
references, health checks, costs and connector templates are not modelled.
-/

namespace ForgePilot.ToolRegistries

open Runs Fnmatch

/-- The part of a registry entry that calls look at. -/
structure ToolRegistryEntry where
  toolId : String
  displayName : String
  provider : String
  enabled : Bool := true
  permission : ToolPermission := .read
  permissionScopes : List String := []
  mode : ToolExecutionMode := .live

structure ToolCallRecord where
  traceId : String
  toolId : String
  startedAt : Nat
  durationMs : Int
  parametersSummary : String
  outputSummary : String
  error : Option String
  mode : ToolExecutionMode

/-- A prepared response. -/
structure ToolMockSpec where
  output : String := "mock response"
  error : Option String := none
  durationMs : Int := 20

/-- Entries, records of calls and prepared responses. -/
structure ToolRegistry where
  entries : OrderedDict String ToolRegistryEntry
  callRecords : List ToolCallRecord
  mockSpecs : OrderedDict String ToolMockSpec

/-- What a call raises; exceptions of executors that are no `Exception` and
those of a subprocess that cannot be started pass through by name. -/
inductive ToolError where
  | keyError (toolId : String)
  | permissionError (message : String)
  | typeError (message : String)
  | propagated (typeName message : String)
deriving DecidableEq

/-- The parameters of a call: a dictionary, a mapping of another class, or a
text. -/
inductive Parameters where
  | mapping (entries : List (String × Value))
  | otherMapping (className : String) (entries : List (String × Value))
  | text (text : String)

/-- What the environment supplies to the record of a call. -/
structure Stamp where
  drawnTraceId : String
  now : Nat
  elapsedMs : Int

/-- Fetch an entry or raise. -/
def getEntry (registry : ToolRegistry) (toolId : String) : Except ToolError ToolRegistryEntry :=
  match registry.entries.get toolId with
  | some entry => .ok entry
  | none => .error (.keyError toolId)

/-- Store an entry under its own id. -/
def register (registry : ToolRegistry) (entry : ToolRegistryEntry) : ToolRegistry :=
  { registry with entries := registry.entries.set entry.toolId entry }

/-- Change one entry in place, or raise when there is none. -/
def modify (registry : ToolRegistry) (toolId : String)
    (change : ToolRegistryEntry → ToolRegistryEntry) : Except ToolError Unit × ToolRegistry :=
  match getEntry registry toolId with
  | .error raised => (.error raised, registry)
  | .ok entry => (.ok (), { registry with entries := registry.entries.set toolId (change entry) })

def setEnabled (registry : ToolRegistry) (toolId : String) (enabled : Bool) :
    Except ToolError Unit × ToolRegistry :=
  modify registry toolId (fun entry => { entry with enabled })

def setPermission (registry : ToolRegistry) (toolId : String) (permission : ToolPermission) :
    Except ToolError Unit × ToolRegistry :=
  modify registry toolId (fun entry => { entry with permission })

def setMode (registry : ToolRegistry) (toolId : String) (mode : ToolExecutionMode) :
    Except ToolError Unit × ToolRegistry :=
  modify registry toolId (fun entry => { entry with mode })

def setMockResponse (registry : ToolRegistry) (toolId : String) (spec : ToolMockSpec) :
    Except ToolError Unit × ToolRegistry :=
  match getEntry registry toolId with
  | .error raised => (.error raised, registry)
  | .ok _ => (.ok (), { registry with mockSpecs := registry.mockSpecs.set toolId spec })

/-- Forget a prepared response. -/
def clearMockResponse (registry : ToolRegistry) (toolId : String) : ToolRegistry :=
  { registry with mockSpecs := registry.mockSpecs.erase toolId }

/-- The text of the parameters, or the exception of writing them as JSON. -/
def parametersText : Parameters → Except ToolError String
  | .mapping entries =>
      match (Value.mapping entries).jsonDumps with
      | .ok text => .ok text
      | .error message => .error (.typeError message)
  | .otherMapping className _ =>
      .error (.typeError ("Object of type " ++ className ++ " is not JSON serializable"))
  | .text text => .ok text

/-- Record a call; unknown tools leave a record too. -/
def recordCall (registry : ToolRegistry) (toolId : String) (parameters : Parameters)
    (output : String) (durationMs : Int) (error : Option String) (traceId : Option String)
    (stamp : Stamp) : Except ToolError ToolCallRecord × ToolRegistry :=
  match parametersText parameters with
  | .error raised => (.error raised, registry)
  | .ok text =>
      let record : ToolCallRecord := {
        traceId := if traceId.getD "" = "" then stamp.drawnTraceId else traceId.getD ""
        toolId
        startedAt := stamp.now
        durationMs
        parametersSummary := summarizeToolOutput text 300
        outputSummary := summarizeToolOutput output 800
        error
        mode := ((registry.entries.get toolId).map ToolRegistryEntry.mode).getD .live }
      (.ok record, { registry with callRecords := registry.callRecords ++ [record] })

/-- How an executor ends. An exception comes with the text it prints as, or with
what printing it raises. Only a timed call can report `timedOut`. -/
inductive ExecutorOutcome where
  | returned (output : String)
  | raised (typeName : String) (message : Except (String × String) String)
      (isTimeoutError : Bool)
  | interrupted (typeName message : String)
  | timedOut

/-- A wall-clock limit with the text it prints as. -/
structure Timeout where
  printed : String
  positive : Bool

/-- What a call can start. -/
inductive Started where
  | executor (parameters : Parameters)
  | subprocess (command : List String) (cwd : String)

/-- An executor or subprocess that was started, with the registry of that moment
and the confirmation passed to the call. -/
structure Start where
  registry : ToolRegistry
  toolId : String
  confirmed : Bool
  started : Started

/-- The result of a call, what it started, and the registry it leaves. -/
structure Invocation where
  result : Except ToolError ToolCallRecord
  registry : ToolRegistry
  starts : List Start

/-- An invocation that starts nothing. -/
def Invocation.refused (recorded : Except ToolError ToolCallRecord × ToolRegistry) :
    Invocation := ⟨recorded.1, recorded.2, []⟩

/-- The arguments of an invocation that are passed on unchanged. -/
structure Request where
  toolId : String
  parameters : Parameters
  executor : Option ExecutorOutcome
  traceId : Option String
  confirmed : Bool
  stamp : Stamp

/-- Record how an executor without a limit ended. -/
def recordOutcome (registry : ToolRegistry) (request : Request) :
    ExecutorOutcome → Except ToolError ToolCallRecord × ToolRegistry
  | .returned output =>
      recordCall registry request.toolId request.parameters output request.stamp.elapsedMs none
        request.traceId request.stamp
  | .raised typeName (.ok message) _ =>
      recordCall registry request.toolId request.parameters "" request.stamp.elapsedMs
        (some (typeName ++ ": " ++ message)) request.traceId request.stamp
  | .raised _ (.error (name, text)) _ => (.error (.propagated name text), registry)
  | .interrupted typeName message => (.error (.propagated typeName message), registry)
  | .timedOut =>
      recordCall registry request.toolId request.parameters "" request.stamp.elapsedMs
        (some "TimeoutError: ") request.traceId request.stamp

/-- Record how an executor with a limit ended; its own timeout errors are taken
for the limit. -/
def recordTimed (registry : ToolRegistry) (request : Request) (timeout : Timeout)
    (outcome : ExecutorOutcome) : Except ToolError ToolCallRecord × ToolRegistry :=
  let expired := recordCall registry request.toolId request.parameters ""
    request.stamp.elapsedMs (some ("executor timed out after " ++ timeout.printed ++ "s"))
    request.traceId request.stamp
  match outcome with
  | .timedOut => expired
  | .raised _ _ true => expired
  | other => recordOutcome registry request other

/-- Call a tool through the registry. Confirmation and prepared responses are
checked here; whether the tool is enabled is not. -/
def invoke (registry : ToolRegistry) (request : Request) (timeout : Option Timeout) :
    Invocation :=
  match getEntry registry request.toolId with
  | .error raised => ⟨.error raised, registry, []⟩
  | .ok entry =>
    let record := recordCall registry request.toolId request.parameters
    if entry.permission = .confirm ∧ request.confirmed = false then
      .refused (record "" 0 (some "confirmation required for CONFIRM tools")
        request.traceId request.stamp)
    else if entry.mode = .mock ∨ (registry.mockSpecs.get request.toolId).isSome then
      let active := (registry.mockSpecs.get request.toolId).getD {}
      .refused (record active.output active.durationMs active.error
        request.traceId request.stamp)
    else
      match request.executor with
      | none =>
          .refused (record "" 0 (some "live executor is required when mock mode is disabled")
            request.traceId request.stamp)
      | some outcome =>
          let recorded :=
            match timeout with
            | some limit =>
                if limit.positive then recordTimed registry request limit outcome
                else recordOutcome registry request outcome
            | none => recordOutcome registry request outcome
          ⟨recorded.1, recorded.2,
            [⟨registry, request.toolId, request.confirmed, .executor request.parameters⟩]⟩

/-- What the operating system and the language's printing supply. -/
structure Host where
  resolve : PosixPath → Except (String × String) PosixPath
  currentDirectory : String
  str : Value → String
  str_text : ∀ text, str (.str text) = text
  repr : String → String

/-- A refusal of the guard. -/
structure PermissionViolation where
  toolId : String
  requiredPermission : ToolPermission
  actualPermission : ToolPermission
  detail : String
deriving DecidableEq

structure ToolAccessGuard where
  registry : Nat
  workspaceRoot : Option PosixPath := none
  pathAllowlist : List String := []
  pathBlocklist : List String := []
  violations : List PermissionViolation := []
  blockOnViolation : Bool := true

/-- Permission levels; confirmation is a gate of its own. -/
def ToolPermission.level : ToolPermission → Nat
  | .read => 0
  | .write => 1
  | .execute => 2
  | .confirm => 2

def meetsPermission (actual required : ToolPermission) : Bool :=
  ToolPermission.level required ≤ ToolPermission.level actual

/-- The path of a target for the path rules, or why it is refused. -/
def resolveTargetPath (host : Host) (guard : ToolAccessGuard) (rawPath : String) :
    Except ToolError (Except String String) :=
  match guard.workspaceRoot with
  | none => .ok (.ok (PosixPath.ofText rawPath).text)
  | some root =>
      let normalisedInput := Characters.replace rawPath "\\" "/"
      match host.resolve (root.join (.ofText normalisedInput)) with
      | .error (typeName, message) => .error (.propagated typeName message)
      | .ok candidate =>
        match candidate.relativeTo root with
        | none =>
            .ok (.error ("path " ++ host.repr rawPath ++ " escapes workspace (resolved to " ++
              candidate.text ++ ")"))
        | some parts => .ok (.ok (PosixPath.mk "" parts).text)

/-- Apply the blocklist and then the allowlist to a resolved path. -/
def pathRefusal (guard : ToolAccessGuard) (resolvedPath : String) : Option String :=
  if guard.pathBlocklist.any (fnmatch resolvedPath) then
    some ("path " ++ resolvedPath ++ " is blocked")
  else if guard.pathAllowlist ≠ [] ∧ guard.pathAllowlist.any (fnmatch resolvedPath) = false then
    some ("path " ++ resolvedPath ++ " is not in allowlist")
  else none

/-- Why a target path is refused, if it is. -/
def targetRefusal (host : Host) (guard : ToolAccessGuard) (targetPath : Option String) :
    Except ToolError (Option String) :=
  match targetPath with
  | none => .ok none
  | some rawPath =>
      match resolveTargetPath host guard rawPath with
      | .error raised => .error raised
      | .ok (.error detail) => .ok (some detail)
      | .ok (.ok resolvedPath) => .ok (pathRefusal guard resolvedPath)

/-- Check a call against the guard's own registry: a refusal is the permission
the tool has and the detail of the violation. -/
def refusal (host : Host) (registry : ToolRegistry) (guard : ToolAccessGuard) (toolId : String)
    (required : ToolPermission) (targetPath : Option String) :
    Except ToolError (Option (ToolPermission × String)) :=
  match registry.entries.get toolId with
  | none => .ok (some (.read, "unknown tool: " ++ toolId))
  | some entry =>
    if entry.enabled = false then .ok (some (entry.permission, "tool is disabled"))
    else if meetsPermission entry.permission required = false then
      .ok (some (entry.permission, "insufficient permission: need " ++ required.value ++
        ", have " ++ entry.permission.value))
    else (targetRefusal host guard targetPath).map (Option.map (fun detail =>
      (entry.permission, detail)))

/-- Whether a call is allowed; a refusal is kept as a violation. -/
def check (host : Host) (registry : ToolRegistry) (guard : ToolAccessGuard) (toolId : String)
    (required : ToolPermission) (targetPath : Option String) :
    Except ToolError Bool × ToolAccessGuard :=
  match refusal host registry guard toolId required targetPath with
  | .error raised => (.error raised, guard)
  | .ok none => (.ok true, guard)
  | .ok (some (actual, detail)) =>
      (.ok false,
        { guard with violations := guard.violations ++ [⟨toolId, required, actual, detail⟩] })

/-- The detail of the latest violation, with the text used when there is none. -/
def latestDetail (guard : ToolAccessGuard) (otherwise : String) : String :=
  (guard.violations.getLast?.map PermissionViolation.detail).getD otherwise

/-- The result of a guarded call, with the guard it leaves. -/
structure GuardedInvocation extends Invocation where
  guard : ToolAccessGuard

/-- Call a tool through the guard. -/
def guardInvoke (host : Host) (registry : ToolRegistry) (guard : ToolAccessGuard)
    (request : Request) (required : ToolPermission) (targetPath : Option String) :
    GuardedInvocation :=
  let record := recordCall registry request.toolId request.parameters "" 0
  match check host registry guard request.toolId required targetPath with
  | (.error raised, guard) => ⟨⟨.error raised, registry, []⟩, guard⟩
  | (.ok false, guard) =>
      let detail := latestDetail guard ""
      if guard.blockOnViolation then
        ⟨⟨.error (.permissionError ("Tool access denied: " ++ request.toolId ++ " — " ++ detail)),
          registry, []⟩, guard⟩
      else
        ⟨.refused (record (some ("permission denied: " ++ detail)) request.traceId
          request.stamp), guard⟩
  | (.ok true, guard) =>
    match getEntry registry request.toolId with
    | .error raised => ⟨⟨.error raised, registry, []⟩, guard⟩
    | .ok entry =>
      if entry.permission = .confirm ∧ request.confirmed = false then
        let guard := { guard with violations := guard.violations ++
          [⟨request.toolId, required, entry.permission,
            "confirmation required for CONFIRM tools"⟩] }
        if guard.blockOnViolation then
          ⟨⟨.error (.permissionError
            ("Tool access denied: " ++ request.toolId ++ " — confirmation required")),
            registry, []⟩, guard⟩
        else
          ⟨.refused (record (some "confirmation required for CONFIRM tools") request.traceId
            request.stamp), guard⟩
      else ⟨invoke registry request none, guard⟩

structure ShellToolSpec where
  toolId : String
  displayName : String
  command : String
  args : List String := []
  cwd : Option String := none
  timeoutSeconds : Nat := 120

structure ShellToolResult where
  exitCode : Int
  stdout : String
  stderr : String
  commandLine : String

/-- How a subprocess ends: it completes, exceeds its limit with the text output
captured so far, or cannot be run. -/
inductive SubprocessOutcome where
  | completed (returncode : Int) (stdout stderr : String)
  | timeoutExpired (stdout stderr : Option String)
  | failed (typeName message : String)

/-- The arguments of a shell tool call, with what its environment supplies. -/
structure ShellRequest where
  spec : ShellToolSpec
  parameters : List (String × Value)
  traceId : Option String
  workspaceRoot : Option String
  confirmed : Bool
  outcome : SubprocessOutcome
  stamp : Stamp

/-- Replace the placeholder of every parameter in an argument. -/
def renderArgument (host : Host) (parameters : List (String × Value)) (argument : String) :
    String :=
  parameters.foldl (fun rendered parameter =>
    Characters.replace rendered ("\x7b\x7b" ++ parameter.1 ++ "\x7d\x7d") (host.str parameter.2))
    argument

/-- The command with its rendered arguments. -/
def buildCommand (host : Host) (request : ShellRequest) : List String :=
  request.spec.command :: request.spec.args.map (renderArgument host request.parameters)

/-- The text of a result that is recorded as output. -/
def summarizeResult (result : ShellToolResult) : String :=
  "\n".intercalate (
    ["command: " ++ result.commandLine, "exit_code: " ++ toString result.exitCode] ++
    (if result.stdout = "" then []
      else ["stdout: " ++ String.ofList (Characters.strip result.stdout.toList)]) ++
    (if result.stderr = "" then []
      else ["stderr: " ++ String.ofList (Characters.strip result.stderr.toList)]))

/-- The result of a shell tool call, what it started, and the registry it leaves. -/
structure ShellInvocation where
  result : Except ToolError (ShellToolResult × ToolCallRecord)
  registry : ToolRegistry
  starts : List Start

/-- Record a shell result. -/
def reportShell (registry : ToolRegistry) (request : ShellRequest) (starts : List Start)
    (result : ShellToolResult) (durationMs : Int) (error : Option String) : ShellInvocation :=
  let recorded := recordCall registry request.spec.toolId (.mapping request.parameters)
    (summarizeResult result) durationMs error request.traceId request.stamp
  ⟨recorded.1.map (fun record => (result, record)), recorded.2, starts⟩

/-- Refuse a shell call with a text on the error stream. -/
def refuseShell (host : Host) (registry : ToolRegistry) (request : ShellRequest)
    (stderr error : String) : ShellInvocation :=
  reportShell registry request []
    ⟨126, "", stderr, ShellWords.join (buildCommand host request)⟩ 0 (some error)

/-- The directory a subprocess runs in. -/
def shellDirectory (host : Host) (request : ShellRequest) : String :=
  if request.spec.cwd.getD "" ≠ "" then (PosixPath.ofText (request.spec.cwd.getD "")).text
  else request.workspaceRoot.getD host.currentDirectory

/-- Run the subprocess and record how it ended. -/
def runShell (host : Host) (registry : ToolRegistry) (request : ShellRequest) :
    ShellInvocation :=
  let command := buildCommand host request
  let commandLine := ShellWords.join command
  let starts := [⟨registry, request.spec.toolId, request.confirmed,
    .subprocess command (shellDirectory host request)⟩]
  match request.outcome with
  | .failed typeName message => ⟨.error (.propagated typeName message), registry, starts⟩
  | .timeoutExpired stdout stderr =>
      let detail := "timed out after " ++ toString request.spec.timeoutSeconds ++ "s"
      let text := if stderr.getD detail = "" then detail else stderr.getD detail
      reportShell registry request starts ⟨124, stdout.getD "", text, commandLine⟩
        request.stamp.elapsedMs (some detail)
  | .completed returncode stdout stderr =>
      reportShell registry request starts ⟨returncode, stdout, stderr, commandLine⟩
        request.stamp.elapsedMs
        (if returncode = 0 then none else some ("exit code " ++ toString returncode))

/-- The confirmation gate and the run, once the entry has been admitted. -/
def confirmAndRun (host : Host) (registry : ToolRegistry) (request : ShellRequest)
    (entry : ToolRegistryEntry) : ShellInvocation :=
  if entry.permission = .confirm ∧ request.confirmed = false then
    refuseShell host registry request "confirmation is required for this tool"
      "confirmation required"
  else runShell host registry request

/-- Run a shell tool without a guard. -/
def executeShellTool (host : Host) (registry : ToolRegistry) (request : ShellRequest) :
    ShellInvocation :=
  match getEntry registry request.spec.toolId with
  | .error _ =>
      refuseShell host registry request ("unknown tool: " ++ request.spec.toolId)
        ("unknown tool: " ++ request.spec.toolId)
  | .ok entry =>
    if entry.enabled = false then
      refuseShell host registry request "tool is disabled" "tool is disabled"
    else if entry.permission ≠ .execute ∧ entry.permission ≠ .confirm then
      refuseShell host registry request
        ("permission " ++ entry.permission.value ++ " does not allow shell execution")
        "permission denied"
    else confirmAndRun host registry request entry

/-- The target path the shell runner hands to the guard. -/
def shellTarget (request : ShellRequest) : Option String :=
  if request.spec.cwd.getD "" = "" then none else request.spec.cwd

/-- Run a shell tool with a guard. The guard consults its own registry; the entry
that decides about confirmation comes from the registry of the call. -/
def executeGuardedShellTool (host : Host) (registry : ToolRegistry) (guard : ToolAccessGuard)
    (guarded : ToolRegistry) (request : ShellRequest) : ShellInvocation × ToolAccessGuard :=
  match check host guarded guard request.spec.toolId .execute (shellTarget request) with
  | (.error raised, guard) => (⟨.error raised, registry, []⟩, guard)
  | (.ok false, guard) =>
      let detail := latestDetail guard "denied"
      (refuseShell host registry request detail detail, guard)
  | (.ok true, guard) =>
    match getEntry registry request.spec.toolId with
    | .error raised => (⟨.error raised, registry, []⟩, guard)
    | .ok entry => (confirmAndRun host registry request entry, guard)

/-- Registries and guards by reference, with the log of everything started. -/
structure World where
  registries : Nat → ToolRegistry
  guards : Nat → ToolAccessGuard
  log : List Start

/-- One call, on the registry or guard it names. -/
inductive Call where
  | register (registry : Nat) (entry : ToolRegistryEntry)
  | setEnabled (registry : Nat) (toolId : String) (enabled : Bool)
  | setPermission (registry : Nat) (toolId : String) (permission : ToolPermission)
  | setMode (registry : Nat) (toolId : String) (mode : ToolExecutionMode)
  | setMockResponse (registry : Nat) (toolId : String) (spec : ToolMockSpec)
  | clearMockResponse (registry : Nat) (toolId : String)
  | invoke (registry : Nat) (request : Request) (timeout : Option Timeout)
  | guardInvoke (guard : Nat) (request : Request) (required : ToolPermission)
      (targetPath : Option String)
  | executeShellTool (registry : Nat) (guard : Option Nat) (request : ShellRequest)

/-- Put a registry back and extend the log. -/
def World.leave (world : World) (name : Nat) (registry : ToolRegistry) (starts : List Start) :
    World :=
  { world with
    registries := Function.update world.registries name registry
    log := world.log ++ starts }

def step (host : Host) (world : World) : Call → World
  | .register name entry => world.leave name (register (world.registries name) entry) []
  | .setEnabled name toolId enabled =>
      world.leave name (setEnabled (world.registries name) toolId enabled).2 []
  | .setPermission name toolId permission =>
      world.leave name (setPermission (world.registries name) toolId permission).2 []
  | .setMode name toolId mode =>
      world.leave name (setMode (world.registries name) toolId mode).2 []
  | .setMockResponse name toolId spec =>
      world.leave name (setMockResponse (world.registries name) toolId spec).2 []
  | .clearMockResponse name toolId =>
      world.leave name (clearMockResponse (world.registries name) toolId) []
  | .invoke name request timeout =>
      let outcome := invoke (world.registries name) request timeout
      world.leave name outcome.registry outcome.starts
  | .guardInvoke guardName request required targetPath =>
      let guard := world.guards guardName
      let outcome := guardInvoke host (world.registries guard.registry) guard request required
        targetPath
      { world.leave guard.registry outcome.registry outcome.starts with
        guards := Function.update world.guards guardName outcome.guard }
  | .executeShellTool name none request =>
      let outcome := executeShellTool host (world.registries name) request
      world.leave name outcome.registry outcome.starts
  | .executeShellTool name (some guardName) request =>
      let guard := world.guards guardName
      let outcome := executeGuardedShellTool host (world.registries name) guard
        (world.registries guard.registry) request
      { world.leave name outcome.1.registry outcome.1.starts with
        guards := Function.update world.guards guardName outcome.2 }

/-! ## What is started, and when that is lawful -/

def startsOf (host : Host) (world : World) : Call → List Start
  | .invoke name request timeout => (invoke (world.registries name) request timeout).starts
  | .guardInvoke guardName request required targetPath =>
      (guardInvoke host (world.registries (world.guards guardName).registry)
        (world.guards guardName) request required targetPath).starts
  | .executeShellTool name none request =>
      (executeShellTool host (world.registries name) request).starts
  | .executeShellTool name (some guardName) request =>
      (executeGuardedShellTool host (world.registries name) (world.guards guardName)
        (world.registries (world.guards guardName).registry) request).1.starts
  | _ => []

variable (host : Host) (registry : ToolRegistry) (guard : ToolAccessGuard) (request : Request)
  (timeout : Option Timeout) (required : ToolPermission) (targetPath : Option String)
  (world : World)

theorem step_log (call : Call) :
    (step host world call).log = world.log ++ startsOf host world call := by
  cases call with
  | executeShellTool name guard request => cases guard <;> rfl
  | _ => rfl

/-- The tool was registered and enabled, and confirmed where that is needed. -/
def Lawful (start : Start) : Prop :=
  ∃ entry, start.registry.entries.get start.toolId = some entry ∧ entry.enabled = true ∧
    (entry.permission = .confirm → start.confirmed = true)

variable {entry : ToolRegistryEntry}

/-- With the entry at hand, only the flag of the entry is left of lawfulness. -/
theorem lawful_iff {start : Start} (found : start.registry.entries.get start.toolId = some entry)
    (confirmed : entry.permission = .confirm → start.confirmed = true) :
    Lawful start ↔ entry.enabled = true := by
  constructor
  · rintro ⟨other, same, enabled, _⟩
    obtain rfl := Option.some.inj (found.symm.trans same)
    exact enabled
  · intro enabled
    exact ⟨entry, found, enabled, confirmed⟩

/-- The entry demands a confirmation that was not given. -/
def Unconfirmed (entry : ToolRegistryEntry) (confirmed : Bool) : Prop :=
  entry.permission = .confirm ∧ confirmed = false

instance (entry : ToolRegistryEntry) (confirmed : Bool) :
    Decidable (Unconfirmed entry confirmed) := inferInstanceAs (Decidable (_ ∧ _))

/-- A call through the registry that is answered without an executor. -/
def AnsweredDirectly (registry : ToolRegistry) (request : Request)
    (entry : ToolRegistryEntry) : Prop :=
  Unconfirmed entry request.confirmed ∨ entry.mode = .mock ∨
    (registry.mockSpecs.get request.toolId).isSome ∨ request.executor.isNone

instance (registry : ToolRegistry) (request : Request) (entry : ToolRegistryEntry) :
    Decidable (AnsweredDirectly registry request entry) :=
  inferInstanceAs (Decidable (_ ∨ _ ∨ _ ∨ _))

/-- The registry starts the executor of a registered tool unless it answers directly. -/
theorem invoke_starts {registry : ToolRegistry} {request : Request} (timeout : Option Timeout)
    (found : registry.entries.get request.toolId = some entry) :
    (invoke registry request timeout).starts = if AnsweredDirectly registry request entry then []
      else [⟨registry, request.toolId, request.confirmed, .executor request.parameters⟩] := by
  have fetched : getEntry registry request.toolId = .ok entry := by simp [getEntry, found]
  simp only [invoke, fetched]
  by_cases unconfirmed : entry.permission = .confirm ∧ request.confirmed = false
  · have direct : AnsweredDirectly registry request entry := .inl unconfirmed
    rw [if_pos direct, if_pos unconfirmed, Invocation.refused]
  by_cases mocked : entry.mode = .mock ∨ (registry.mockSpecs.get request.toolId).isSome
  · have direct : AnsweredDirectly registry request entry := .inr (or_assoc.mp (.inl mocked))
    rw [if_pos direct, if_neg unconfirmed, if_pos mocked, Invocation.refused]
  rw [if_neg unconfirmed, if_neg mocked]
  cases supplied : request.executor with
  | none =>
    have direct : AnsweredDirectly registry request entry := by simp [AnsweredDirectly, supplied]
    rw [if_pos direct, Invocation.refused]
  | some outcome =>
    have live : ¬AnsweredDirectly registry request entry := by
      rw [not_or] at mocked
      simpa [AnsweredDirectly, Unconfirmed, supplied, unconfirmed] using mocked
    rw [if_neg live]

/-- An unregistered tool starts nothing through the registry. -/
theorem invoke_starts_unknown (missing : registry.entries.get request.toolId = none) :
    (invoke registry request timeout).starts = [] := by
  simp [invoke, getEntry, missing]

/-- Whether every start of a list is lawful when it has at most one member. -/
theorem forall_mem_ite (condition : Prop) [Decidable condition] (start : Start)
    (holds : Start → Prop) :
    (∀ member ∈ (if condition then [] else [start]), holds member) ↔
      (¬condition → holds start) := by
  by_cases met : condition <;> simp [met]

/-- What the registry starts is lawful exactly when no disabled tool gets past
its direct answers. -/
theorem invoke_lawful_iff : (∀ start ∈ (invoke registry request timeout).starts, Lawful start) ↔
      ∀ entry, registry.entries.get request.toolId = some entry → entry.enabled = false →
        AnsweredDirectly registry request entry := by
  cases found : registry.entries.get request.toolId with
  | none => simp [invoke_starts_unknown _ _ _ found]
  | some entry =>
    rw [invoke_starts _ found, forall_mem_ite]
    constructor
    · intro lawful other same disabled
      cases same
      by_contra reaches
      have confirmed : entry.permission = .confirm → request.confirmed = true := by
        intro needed
        by_contra absent
        exact reaches (.inl ⟨needed, by simpa using absent⟩)
      have enabled := (lawful_iff found confirmed).mp (lawful reaches)
      exact Bool.false_ne_true (disabled.symm.trans enabled)
    · intro answered reaches
      refine ⟨entry, found, ?_, ?_⟩
      · by_contra disabled
        exact reaches (answered entry rfl (by simpa using disabled))
      · intro needed
        by_contra absent
        exact reaches (.inl ⟨needed, by simpa using absent⟩)

/-- The guard admits enabled tools only. -/
theorem admitted_enabled {host : Host} {registry : ToolRegistry} {guard : ToolAccessGuard}
    {toolId : String} {required : ToolPermission} {targetPath : Option String}
    (admitted : refusal host registry guard toolId required targetPath = .ok none) :
    ∃ entry, registry.entries.get toolId = some entry ∧ entry.enabled = true := by
  rw [refusal] at admitted
  cases found : registry.entries.get toolId with
  | none => simp [found] at admitted
  | some entry =>
    refine ⟨entry, rfl, ?_⟩
    by_contra disabled
    have off : entry.enabled = false := by simpa using disabled
    simp [found, off] at admitted

/-- The guard answers yes exactly when it has no refusal. -/
theorem check_true_iff (toolId : String) (required : ToolPermission) (targetPath : Option String) :
    (check host registry guard toolId required targetPath).1 = .ok true ↔
      refusal host registry guard toolId required targetPath = .ok none := by
  rw [check]
  split <;> simp_all

/-- A guarded call starts what the registry starts, after an admission. -/
theorem guard_invoke_starts :
    (guardInvoke host registry guard request required targetPath).starts = [] ∨
      (refusal host registry guard request.toolId required targetPath = .ok none ∧
        (guardInvoke host registry guard request required targetPath).starts =
          (invoke registry request none).starts) := by
  have answer := check_true_iff host registry guard request.toolId required targetPath
  rw [guardInvoke]
  split
  · exact .inl rfl
  · left
    split <;> rfl
  · rename_i later admitted
    rw [admitted] at answer
    split
    · exact .inl rfl
    split
    · left
      dsimp only
      split <;> rfl
    · exact .inr ⟨answer.mp rfl, rfl⟩

/-- Whatever a guarded call starts is lawful. -/
theorem guard_invoke_lawful :
    ∀ start ∈ (guardInvoke host registry guard request required targetPath).starts,
      Lawful start := by
  rcases guard_invoke_starts host registry guard request required targetPath with
    nothing | ⟨admitted, passed⟩
  · simp [nothing]
  rw [passed, invoke_lawful_iff]
  intro entry found disabled
  obtain ⟨other, same, enabled⟩ := admitted_enabled admitted
  obtain rfl := Option.some.inj (found.symm.trans same)
  exact absurd (disabled.symm.trans enabled) Bool.false_ne_true

/-- The subprocess of a shell tool as it is logged. -/
def shellStart (host : Host) (registry : ToolRegistry) (request : ShellRequest) : Start :=
  ⟨registry, request.spec.toolId, request.confirmed,
    .subprocess (buildCommand host request) (shellDirectory host request)⟩

/-- An admitted shell tool is started unless its confirmation is missing. -/
theorem confirm_and_run_starts (request : ShellRequest) (entry : ToolRegistryEntry) :
    (confirmAndRun host registry request entry).starts =
      if Unconfirmed entry request.confirmed then [] else [shellStart host registry request] := by
  rw [confirmAndRun]
  by_cases unconfirmed : Unconfirmed entry request.confirmed
  · have gated : entry.permission = .confirm ∧ request.confirmed = false := unconfirmed
    rw [if_pos unconfirmed, if_pos gated]
    rfl
  · have passed : ¬(entry.permission = .confirm ∧ request.confirmed = false) := unconfirmed
    rw [if_neg unconfirmed, if_neg passed]
    rw [runShell]
    cases request.outcome <;> rfl

/-- What follows admission is lawful exactly when the entry is enabled or its
confirmation is missing. -/
theorem confirm_and_run_lawful_iff {registry : ToolRegistry} {request : ShellRequest}
    (found : registry.entries.get request.spec.toolId = some entry) :
    (∀ start ∈ (confirmAndRun host registry request entry).starts, Lawful start) ↔
      (entry.enabled = false → Unconfirmed entry request.confirmed) := by
  rw [confirm_and_run_starts, forall_mem_ite]
  by_cases unconfirmed : Unconfirmed entry request.confirmed
  · simp [unconfirmed]
  have confirmed : entry.permission = .confirm → request.confirmed = true := by
    intro needed
    by_contra absent
    exact unconfirmed ⟨needed, by simpa using absent⟩
  rw [lawful_iff found confirmed]
  simp [unconfirmed]

/-- Whatever the shell runner starts without a guard is lawful. -/
theorem execute_shell_tool_lawful (request : ShellRequest) :
    ∀ start ∈ (executeShellTool host registry request).starts, Lawful start := by
  rw [executeShellTool]
  cases found : registry.entries.get request.spec.toolId with
  | none => simp [getEntry, found, refuseShell, reportShell]
  | some entry =>
    simp only [getEntry, found]
    split
    · simp [refuseShell, reportShell]
    rename_i enabled
    split
    · simp [refuseShell, reportShell]
    · rw [confirm_and_run_lawful_iff _ found]
      exact fun disabled => absurd disabled enabled

/-- With a guard the shell runner starts its subprocess after an admission, unless its confirmation is missing. -/
theorem guarded_shell_starts (guarded : ToolRegistry) (request : ShellRequest) (start : Start) :
    start ∈ (executeGuardedShellTool host registry guard guarded request).1.starts ↔
      start = shellStart host registry request ∧
        refusal host guarded guard request.spec.toolId .execute (shellTarget request) = .ok none ∧
        ∃ entry, registry.entries.get request.spec.toolId = some entry ∧ ¬ Unconfirmed entry request.confirmed := by
  have answer := check_true_iff host guarded guard request.spec.toolId .execute (shellTarget request)
  rw [executeGuardedShellTool, ← answer]
  split
  case h_1 refused => simp [refused]
  case h_2 refused => simp [refused, refuseShell, reportShell]
  case h_3 admitted =>
    rw [admitted]
    cases found : registry.entries.get request.spec.toolId with
    | none => simp [getEntry, found]
    | some entry =>
      simp only [getEntry, found]
      rw [confirm_and_run_starts]
      by_cases unconfirmed : Unconfirmed entry request.confirmed <;> simp [unconfirmed]

/-- With a guard the shell runner is lawful exactly when the guard's registry
admits no tool that is disabled in the registry of the call. -/
theorem guarded_shell_lawful_iff (guarded : ToolRegistry) (request : ShellRequest) :
    (∀ start ∈ (executeGuardedShellTool host registry guard guarded request).1.starts,
        Lawful start) ↔
      ∀ entry, registry.entries.get request.spec.toolId = some entry → entry.enabled = false →
        Unconfirmed entry request.confirmed ∨
          refusal host guarded guard request.spec.toolId .execute (shellTarget request) ≠
            .ok none := by
  simp only [guarded_shell_starts]
  constructor
  · intro lawful entry found disabled
    by_contra neither
    obtain ⟨confirmed, admitted⟩ := not_or.mp neither
    obtain ⟨other, same, enabled, -⟩ := lawful _ ⟨rfl, not_not.mp admitted, entry, found, confirmed⟩
    obtain rfl := Option.some.inj (found.symm.trans same)
    exact absurd (disabled.symm.trans enabled) Bool.false_ne_true
  · rintro lawful _ ⟨rfl, admitted, entry, found, confirmed⟩
    refine ⟨entry, found, ?_, fun needed => ?_⟩
    · by_contra disabled
      exact (lawful entry found (by simpa using disabled)).elim confirmed (· admitted)
    · by_contra absent
      exact confirmed ⟨needed, Bool.eq_false_iff.mpr absent⟩

/-- The calls whose own checks cover everything they start. A call through the
registry must not reach an executor of a disabled tool, and a guard handed to the
shell runner must not admit a tool that is disabled in the registry of the call. -/
def Enforced (host : Host) (world : World) : Call → Prop
  | .invoke name request _ =>
      ∀ entry, (world.registries name).entries.get request.toolId = some entry →
        entry.enabled = false → AnsweredDirectly (world.registries name) request entry
  | .executeShellTool name (some guardName) request =>
      ∀ entry, (world.registries name).entries.get request.spec.toolId = some entry →
        entry.enabled = false → Unconfirmed entry request.confirmed ∨
          refusal host (world.registries (world.guards guardName).registry)
            (world.guards guardName) request.spec.toolId .execute (shellTarget request) ≠ .ok none
  | _ => True

/-- One call starts only what is lawful exactly when it is enforced. -/
theorem starts_lawful_iff (call : Call) :
    (∀ start ∈ startsOf host world call, Lawful start) ↔ Enforced host world call := by
  cases call with
  | invoke name request timeout => exact invoke_lawful_iff _ _ _
  | guardInvoke guardName request required targetPath =>
    exact iff_of_true (guard_invoke_lawful _ _ _ _ _ _) trivial
  | executeShellTool name guard request =>
    cases guard with
    | none => exact iff_of_true (execute_shell_tool_lawful _ _ _) trivial
    | some guardName => exact guarded_shell_lawful_iff ..
  | _ => simp [startsOf, Enforced]

/-- A run starts only enabled, registered and, where needed, confirmed tools
exactly when every one of its calls is enforced. -/
theorem tool_enforcement_exact (host : Host) (registries : Nat → ToolRegistry)
    (guards : Nat → ToolAccessGuard) (calls : List Call) :
    (∀ world, Reached (step host) ⟨registries, guards, []⟩ calls world →
        ∀ start ∈ world.log, Lawful start) ↔
      Along (step host) (Enforced host) ⟨registries, guards, []⟩ calls := by
  apply invariant_exact (step host) (Enforced host)
    (fun world => ∀ start ∈ world.log, Lawful start)
  · intro world call lawful
    rw [← starts_lawful_iff, step_log]
    simp only [List.mem_append]
    constructor
    · rintro started start (earlier | new)
      · exact lawful start earlier
      · exact started start new
    · intro throughout start new
      exact throughout start (.inr new)
  · simp

/-- A host without symbolic links that prints texts as they are. -/
def plainHost : Host where
  resolve := .ok
  currentDirectory := "/"
  str
    | .str text => text
    | _ => ""
  str_text _ := rfl
  repr text := "'" ++ text ++ "'"

def disabledTool : ToolRegistryEntry where
  toolId := "t"
  displayName := "Tool"
  provider := "p"
  enabled := false

/-- Registering a disabled tool and calling it through the registry. -/
def disabledToolCalls : List Call :=
  [.register 0 disabledTool,
    .invoke 0 ⟨"t", .text "x", some (.returned "done"), none, false, ⟨"id", 0, 0⟩⟩ none]

/-- The registry runs the executor of a tool that was registered as disabled. -/
theorem disabled_tool_started : ¬∀ world, Reached (step plainHost)
        ⟨fun _ => ⟨.empty, [], .empty⟩, fun _ => { registry := 0 }, []⟩ disabledToolCalls world →
      ∀ start ∈ world.log, Lawful start := by
  intro enforced
  have lawful := enforced _ ⟨disabledToolCalls, [], rfl, rfl⟩
    ⟨register ⟨.empty, [], .empty⟩ disabledTool, "t", false, .executor (.text "x")⟩
    (.head _)
  obtain ⟨entry, found, enabled, _⟩ := lawful
  have entryIs : disabledTool = entry := Option.some.inj found
  rw [← entryIs] at enabled
  cases enabled

end ForgePilot.ToolRegistries
