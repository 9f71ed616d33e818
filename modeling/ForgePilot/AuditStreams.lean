import ForgePilot.AuditCsv
import ForgePilot.DeliveryArtifact
import ForgePilot.ExecutionHarness

/-!
# Audit events of a runtime stream

The translation of runtime events into audit events, and the merge of its result
with the events a harness recorded. A runtime event keeps the text of its stored
timestamp; without one the translation reads the clock in UTC, as the harness
does. Reading an ISO text is a parameter: all that matters here is whether it
gives an offset.
-/

namespace ForgePilot.AuditStreams

/-- The classes of runtime events the translation tells apart, with the attributes
it reads of each; an attribute that is missing has its default. -/
inductive Body where
  | messageAction (content : String)
  | cmdRunAction (command : String) (cwd blocking securityRisk confirmationState : Value)
  | cmdOutputObservation (command content : String) (exitCode workingDir : Value)
  | fileAction (path : String) (action securityRisk : Value)
  | fileObservation (path content : String) (diff : Value)
  | mcpAction (name : String) (arguments : Value)
  | mcpObservation (name content : String) (arguments : Value)
  | userRejectObservation (content : Value)
  | other

structure RuntimeEvent where
  id : Int := -1
  responseId : Option String := none
  source : Option String := none
  timestamp : Option String := none
  body : Body

/-- What the environment supplies at the turn of an event: the clock, and the
identity of the object. -/
structure Reading where
  now : Int
  identity : Nat

def eventTraceId (event : RuntimeEvent) (identity : Nat) : String :=
  if event.responseId.getD "" ≠ "" then event.responseId.getD ""
  else if event.id ≠ -1 then "event-" ++ toString event.id
  else "event-" ++ toString identity

/-- The audit events of one runtime event, up to what they share. -/
structure Entry where
  suffix : String := ""
  eventType : AuditEventType
  phase : String
  summary : String
  payload : List (String × Value)

def truncate (value : String) (maxChars : Nat) : String :=
  if value.length ≤ maxChars then value
  else
    let keep := maxChars / 2
    String.ofList (value.toList.take keep) ++ "\n...\n" ++
      String.ofList (value.toList.drop (value.length - keep))

def testCommandMarkers : List String :=
  ["pytest", "pre-commit", "npm test", "npm run test", "npm run build", "mvn test",
    "gradle test", "go test", "cargo test"]

def looksLikeTestCommand (command : String) : Bool :=
  testCommandMarkers.any fun marker => marker.toList <:+: (AuditReplay.lower command).toList

/-- What is recorded of an event, given whether a user message came before it. -/
def entries (seen : Bool) (event : RuntimeEvent) : List Entry :=
  match event.body with
  | .messageAction content =>
    if event.source = some "user" then
      let entry := fun eventType => (⟨"", eventType, "plan", truncate content 300,
        [("source", .str "user")]⟩ : Entry)
      if seen then [entry .userMessage] else [entry .taskCreated, entry .userMessage]
    else if event.source = some "agent" then
      [⟨"", .modelResponse, "execute", truncate content 300, [("source", .str "agent")]⟩]
    else []
  | .cmdRunAction command cwd blocking securityRisk confirmationState =>
    ⟨"", .commandRun, "execute", command,
      [("command", .str command), ("cwd", cwd), ("blocking", blocking),
        ("security_risk", securityRisk), ("confirmation_state", confirmationState)]⟩ ::
      (if confirmationState matches .str "awaiting_confirmation" then
        [⟨":approval", .approvalRequested, "execute",
          "Approval requested for command: " ++ command,
          [("subject_type", .str "command"), ("command", .str command),
            ("security_risk", securityRisk)]⟩]
      else [])
  | .cmdOutputObservation command content exitCode workingDir =>
    let isTest := looksLikeTestCommand command
    [⟨"", if isTest then .testResult else .commandRun, if isTest then "verify" else "execute",
      command,
      [("command", .str command), ("exit_code", exitCode), ("working_dir", workingDir),
        ("output", .str (truncate content 1200))]⟩]
  | .fileAction path action securityRisk =>
    [⟨"", .fileChange, "execute", "Change requested for " ++ path,
      [("path", .str path), ("action", action), ("security_risk", securityRisk)]⟩]
  | .fileObservation path content diff =>
    [⟨"", .fileChange, "execute", "Changed " ++ path,
      [("path", .str path), ("diff", diff), ("content", .str (truncate content 1200))]⟩]
  | .mcpAction name arguments =>
    [⟨"", .toolCall, "execute", "MCP tool call: " ++ name,
      [("tool", .str name), ("arguments", arguments)]⟩]
  | .mcpObservation name content arguments =>
    [⟨"", .toolCall, "execute", "MCP tool result: " ++ name,
      [("tool", .str name), ("arguments", arguments),
        ("output", .str (truncate content 1200))]⟩]
  | .userRejectObservation content =>
    [⟨"", .approvalDecision, "execute", "Approval rejected by user",
      [("decision", .str "rejected"), ("message", content)]⟩]
  | .other => []

/-- A message of the user, after which no further task is created. -/
def RuntimeEvent.fromUser (event : RuntimeEvent) : Bool :=
  (event.body matches .messageAction _) && event.source = some "user"

section Translation

variable (fromisoformat : String → Except String Timestamp)

/-- The stored timestamp where there is one, else the clock in UTC. -/
def eventTimestamp (event : RuntimeEvent) (now : Int) : Except String Timestamp :=
  match event.timestamp with
  | none => .ok (.aware now)
  | some text => if text = "" then .ok (.aware now) else fromisoformat text

def auditEventsFromEventStream (taskId : Option String) :
    Bool → List (RuntimeEvent × Reading) → Except String (List AuditEvent)
  | _, [] => .ok []
  | seen, (event, reading) :: events => do
    let timestamp ← eventTimestamp fromisoformat event reading.now
    let traceId := eventTraceId event reading.identity
    let audited := (entries seen event).map fun entry => {
      traceId := traceId ++ entry.suffix, taskId, eventType := entry.eventType,
      phase := some entry.phase, timestamp, summary := entry.summary, payload := entry.payload }
    let later ← auditEventsFromEventStream taskId (seen || event.fromUser) events
    .ok (audited ++ later)

/-- Whether the timestamp an event gets carries an offset. -/
def withOffset (event : RuntimeEvent) : Bool :=
  match eventTimestamp fromisoformat event 0 with
  | .ok timestamp => timestamp.isAware
  | .error _ => false

/-- The events the translation keeps. -/
def RuntimeEvent.audited (event : RuntimeEvent) : Bool :=
  match event.body with
  | .messageAction _ => event.source = some "user" ∨ event.source = some "agent"
  | .other => false
  | _ => true

theorem entries_nil_iff (seen : Bool) (event : RuntimeEvent) :
    entries seen event = [] ↔ event.audited = false := by
  rcases event with ⟨id, responseId, source, timestamp, body⟩
  cases body <;> simp [entries, RuntimeEvent.audited]
  split <;> split <;> simp_all

variable {fromisoformat}

/-- The kind of a timestamp does not depend on the clock. -/
theorem event_timestamp_kind {event : RuntimeEvent} {now : Int} {timestamp : Timestamp}
    (read : eventTimestamp fromisoformat event now = .ok timestamp) :
    withOffset fromisoformat event = timestamp.isAware := by
  cases stored : event.timestamp with
  | none =>
    simp only [withOffset, eventTimestamp, stored] at read ⊢
    cases read
    rfl
  | some text =>
    simp only [withOffset, eventTimestamp, stored] at read ⊢
    by_cases empty : text = ""
    · rw [if_pos empty] at read ⊢
      cases read
      rfl
    · rw [if_neg empty] at read ⊢
      rw [read]

/-- The audit events are of one kind when the runtime events they stand for are;
the induction is on the stream, whatever was seen before it. -/
theorem audited_kind {taskId : Option String} (kind : Bool) {seen : Bool}
    {events : List (RuntimeEvent × Reading)} {audited : List AuditEvent}
    (accepted : auditEventsFromEventStream fromisoformat taskId seen events = .ok audited) :
    (∀ event ∈ audited, event.timestamp.isAware = kind) ↔
      ∀ given ∈ events, given.1.audited → withOffset fromisoformat given.1 = kind := by
  induction events generalizing seen audited with
  | nil => cases accepted; simp
  | cons given events ih =>
    obtain ⟨event, reading⟩ := given
    rw [auditEventsFromEventStream] at accepted
    cases read : eventTimestamp fromisoformat event reading.now with
    | error message => rw [read] at accepted; cases accepted
    | ok timestamp =>
      cases rest : auditEventsFromEventStream fromisoformat taskId (seen || event.fromUser) events with
      | error message => rw [read, rest] at accepted; cases accepted
      | ok later =>
        rw [read, rest] at accepted
        cases accepted
        rw [List.forall_mem_append, List.forall_mem_cons, ih rest, List.forall_mem_map,
          event_timestamp_kind read]
        refine and_congr_left' ?_
        cases kept : event.audited with
        | false => simp [(entries_nil_iff seen event).mpr kept]
        | true =>
          have filled : entries seen event ≠ [] := fun none =>
            nomatch kept.symm.trans ((entries_nil_iff seen event).mp none)
          obtain ⟨entry, listed⟩ := List.exists_mem_of_ne_nil _ filled
          exact ⟨fun all _ => all entry listed, fun one _ _ => one rfl⟩

end Translation

/-- What a harness records: events made from its observations, which are stamped
by the clock in UTC. -/
def HarnessRecorded (recorded : List AuditEvent) : Prop :=
  ∀ event ∈ recorded, ∃ observation taskId, observation.timestamp.isAware = true ∧
    event = Harness.auditEventFromObservation observation taskId

theorem recorded_aware {recorded : List AuditEvent} (harness : HarnessRecorded recorded) :
    ∀ event ∈ recorded, event.timestamp.isAware = true := by
  intro event listed
  obtain ⟨observation, taskId, aware, rfl⟩ := harness event listed
  exact aware

/-- Every audited event has an offset, or none has and the harness recorded nothing. -/
def Mergeable (fromisoformat : String → Except String Timestamp)
    (events : List (RuntimeEvent × Reading)) (recorded : List AuditEvent) : Prop :=
  (∀ given ∈ events, given.1.audited → withOffset fromisoformat given.1 = true) ∨
    (recorded = [] ∧
      ∀ given ∈ events, given.1.audited → withOffset fromisoformat given.1 = false)

instance : Std.Total notAfter :=
  ⟨fun first second => le_total first.timestamp.microseconds second.timestamp.microseconds⟩

instance : IsTrans AuditEvent notAfter := ⟨fun _ _ _ => le_trans⟩

/-- The merged log of a stream and a harness can be ordered exactly where no
naive timestamp meets one with an offset. -/
theorem merge_ordered_iff {fromisoformat : String → Except String Timestamp}
    {taskId : Option String} {events : List (RuntimeEvent × Reading)}
    {audited recorded : List AuditEvent}
    (accepted : auditEventsFromEventStream fromisoformat taskId false events = .ok audited)
    (harness : HarnessRecorded recorded) :
    (∃ sorted, orderedTimeline (audited ++ recorded) = .ok sorted ∧
      sorted.Perm (audited ++ recorded) ∧ sorted.Pairwise notAfter) ↔
      Mergeable fromisoformat events recorded := by
  have aware := recorded_aware harness
  have comparable : Comparable (audited ++ recorded) ↔ Mergeable fromisoformat events recorded := by
    rw [Comparable, Mergeable, List.forall_mem_append, List.forall_mem_append,
      audited_kind true accepted, audited_kind false accepted]
    refine or_congr (and_iff_left aware) ?_
    rw [and_comm]
    refine and_congr_left' ⟨fun naive => ?_, fun none event listed => by simp [none] at listed⟩
    refine List.eq_nil_iff_forall_not_mem.mpr fun event listed => ?_
    exact Bool.false_ne_true ((naive event listed).symm.trans (aware event listed))
  rw [← comparable, ← ordered_timeline_ok_iff]
  constructor
  · rintro ⟨sorted, ordered, -⟩
    exact ⟨sorted, ordered⟩
  · rintro ⟨sorted, ordered⟩
    refine ⟨sorted, ordered, ordered_timeline_perm ordered, ?_⟩
    rw [orderedTimeline] at ordered
    split at ordered
    · exact Except.ok.inj ordered ▸ List.pairwise_insertionSort notAfter _
    · cases ordered

/-- The reading of one stored text, as the stream writes it: local time, no offset. -/
def readStored (text : String) : Except String Timestamp :=
  if text = "2026-05-01T10:00:00" then .ok (.naive 1777629600000000)
  else .error ("Invalid isoformat string: '" ++ text ++ "'")

def message (timestamp : Option String) : RuntimeEvent × Reading :=
  ⟨{ id := 0, source := some "user", timestamp, body := .messageAction "fix it" },
    1777629600000000, 0⟩

def listed : AuditEvent :=
  Harness.auditEventFromObservation
    ⟨"t1", .terminal, .read, "ls", [], .success, 12, "", none, .aware 1777629601000000⟩ none

theorem listed_recorded : HarnessRecorded [listed] := by
  intro event only
  exact ⟨_, none, rfl, List.mem_singleton.mp only⟩

theorem unstored_merged :
    ∃ audited, auditEventsFromEventStream readStored none false [message none] = .ok audited ∧
      ∃ sorted, orderedTimeline (audited ++ [listed]) = .ok sorted ∧
        sorted.Perm (audited ++ [listed]) ∧ sorted.Pairwise notAfter :=
  ⟨_, rfl, (@merge_ordered_iff readStored none [message none] _ _ rfl listed_recorded).mpr
    (Or.inl (by simp [message, withOffset, eventTimestamp, Timestamp.isAware]))⟩

/-- A message the stream has stored cannot be merged with what the harness recorded. -/
theorem stored_unmerged :
    ∃ audited, auditEventsFromEventStream readStored none false
        [message (some "2026-05-01T10:00:00")] = .ok audited ∧ HarnessRecorded [listed] ∧
      ¬ ∃ sorted, orderedTimeline (audited ++ [listed]) = .ok sorted := by
  refine ⟨_, rfl, listed_recorded, ?_⟩
  rw [ordered_timeline_ok_iff]
  decide

open List AuditTimelines AuditReplay Delivery

section

variable {events others : List AuditEvent} (shuffled : others.Perm events)
  (apart : (events.map (·.timestamp.microseconds)).Nodup)
include shuffled apart

/-- Events at distinct times are ordered alike, however they were collected. -/
theorem ordered_timeline_shuffled : orderedTimeline others = orderedTimeline events := by
  have kinds : Comparable others ↔ Comparable events := by simp only [Comparable, shuffled.mem_iff]
  have arranged : others.insertionSort notAfter = events.insertionSort notAfter := by
    refine Perm.eq_of_pairwise (fun first second mine yours before after => ?_)
      (pairwise_insertionSort ..) (pairwise_insertionSort ..)
      (((perm_insertionSort ..).trans shuffled).trans (perm_insertionSort ..).symm)
    rw [mem_insertionSort] at mine yours
    exact inj_on_of_nodup_map apart (shuffled.mem_iff.mp mine) yours (le_antisymm before after)
  exact if_congr kinds (congrArg _ arranged) rfl

/-- Whatever is reported about them does not depend on that order either. -/
theorem reports_order_free : buildTimeline others = buildTimeline events ∧
    buildAuditReplaySummary others = buildAuditReplaySummary events ∧
    (∀ validation formats request, generateDeliveryArtifact validation formats request others =
      generateDeliveryArtifact validation formats request events) ∧
    ∀ printing, exportAuditEventsCsv printing others = exportAuditEventsCsv printing events := by
  have same := ordered_timeline_shuffled shuffled apart
  have named : assignUniqueNodeIds others = assignUniqueNodeIds events := by
    rw [assignUniqueNodeIds, same, ← assignUniqueNodeIds]
  have timelines : buildTimeline others = buildTimeline events := by
    rw [buildTimeline, named, ← buildTimeline]
  refine ⟨timelines, ?_, fun _ _ _ => ?_, fun _ => ?_⟩
  · simp only [buildAuditReplaySummary, riskQueues, same, timelines, named]
  · simp only [generateDeliveryArtifact, same]
  · simp only [exportAuditEventsCsv, same]

end

theorem reports_swapped : buildTimeline [{ listed with timestamp := .aware 0 }, listed] =
    buildTimeline [listed, { listed with timestamp := .aware 0 }] :=
  (reports_order_free (.swap ..) (by decide)).1

end ForgePilot.AuditStreams
