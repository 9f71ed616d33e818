import ForgePilot.AuditReplay

/-!
# Delivery artifacts

A delivery artifact is assembled from the audit events of a task: the description
of a pull request, a test report and a link to the replay. The test report reads
verification events only and in them only the listed tests. The replay also looks
at test results, and at statuses and exit codes.

The two agree exactly when the replay has nothing to report or when a listed test
failed. A failed test run of the event stream is in the replay, but the pull
request says that verification ran successfully.

Records are checked by a validation library when they are built, which also turns
values of other kinds into the declared ones; what it accepts is a parameter. So
are the formats of percentages and amounts, which are floating-point numbers. The
time of generation is left out, and so are counts of changed lines, apart from
their being numbers.
-/

namespace ForgePilot.Delivery

open AuditTimelines AuditReplay List

/-- What the validation of a field accepts, and as what. -/
structure Validation where
  text : Value → Except String String
  flag : Value → Except String Bool
  number : Value → Except String Int

/-- How numbers are shown: a rate of two counts, and an amount. -/
structure Formats where
  percent : Nat → Nat → String
  dollars : Rat → String

structure FileChangeSummary where
  path : String
  action : String
  description : String := ""

structure TestResult where
  name : String
  passed : Bool
  durationMs : Int := 0
  output : String := ""
  error : String := ""

/-- The results of all tests. -/
structure TestReport where
  total : Nat := 0
  passed : Nat := 0
  failed : Nat := 0
  skipped : Nat := 0
  durationMs : Int := 0
  results : List TestResult := []

/-- The share of tests that passed; all of none. -/
def TestReport.passRate (report : TestReport) : Rat :=
  if report.total = 0 then 1 else report.passed / report.total

/-- A value that counts as nothing. -/
def falsy : Value → Bool
  | .none | .bool false | .int 0 | .str "" | .list [] | .tuple [] | .mapping [] => true
  | .float printed => printed = "0.0" || printed = "-0.0"
  | _ => false

/-- Whether a value can be added to a count. -/
def isNumber : Value → Bool
  | .bool _ | .int _ | .float _ => true
  | _ => false

/-- Take the change of a file into account. -/
def addFileChange (validation : Validation) (changes : OrderedDict String FileChangeSummary)
    (event : AuditEvent) : Except String (OrderedDict String FileChangeSummary) :=
  if event.eventType ≠ .fileChange then .ok changes
  else
    match (event.payload.lookup "path").getD (.str "") with
    | .str path =>
        if path = "" then .ok changes
        else do
          let recorded ←
            match changes.get path with
            | some _ => pure changes
            | none => do
                let action ←
                  validation.text ((event.payload.lookup "action").getD (.str "modified"))
                pure (changes.set path { path, action, description := event.summary })
          if isNumber ((event.payload.lookup "lines_added").getD (.int 0)) ∧
              isNumber ((event.payload.lookup "lines_removed").getD (.int 0)) then
            return recorded
          else .error "unsupported operand type(s) for +="
    | other =>
        if falsy other then .ok changes else .error "Input should be a valid string"

/-- The changed files, in the order of their first change. -/
def extractFileChanges (validation : Validation) (events : List AuditEvent) :
    Except String (List FileChangeSummary) := do
  let changes ← events.foldlM (addFileChange validation) .empty
  return changes.values

def readTest (validation : Validation) (test : Value) : Except String TestResult :=
  match test with
  | .mapping fields => do
      let name ← validation.text ((fields.lookup "name").getD (.str "unnamed"))
      let passed ← validation.flag ((fields.lookup "passed").getD (.bool true))
      let durationMs ← validation.number ((fields.lookup "duration_ms").getD (.int 0))
      let output ← validation.text ((fields.lookup "output").getD (.str ""))
      let error ← validation.text ((fields.lookup "error").getD (.str ""))
      return { name, passed, durationMs, output, error }
  | _ => .error "object has no attribute 'get'"

def addTest (validation : Validation) (report : TestReport) (test : Value) :
    Except String TestReport := do
  let result ← readTest validation test
  return { report with
    results := report.results ++ [result]
    total := report.total + 1
    passed := if result.passed then report.passed + 1 else report.passed
    failed := if result.passed then report.failed else report.failed + 1 }

def listedTests (event : AuditEvent) : List Value :=
  if event.eventType = .verification then
    match (event.payload.lookup "tests").getD (.list []) with
    | .list tests => tests
    | _ => []
  else []

def addEventTests (validation : Validation) (report : TestReport) (event : AuditEvent) :
    Except String TestReport := do
  let counted ← (listedTests event).foldlM (addTest validation) report
  return { counted with
    durationMs :=
      if event.eventType = .verification then counted.durationMs + event.durationMs.getD 0
      else counted.durationMs }

def extractTestResults (validation : Validation) (events : List AuditEvent) :
    Except String TestReport :=
  events.foldlM (addEventTests validation) {}

def generateCommitMessage (taskTitle : String) (changes : List FileChangeSummary) : String :=
  let scope := ", ".intercalate ((changes.take 3).map FileChangeSummary.path)
  let more :=
    if 3 < changes.length then " (+" ++ toString (changes.length - 3) ++ " more)" else ""
  "forgepilot: " ++ taskTitle ++ "\n\nAffected: " ++ scope ++ more

def summaryLines (taskObjective : String) : List String :=
  ["## Summary", "", taskObjective, "", "## Changes", ""]

def changeSign (action : String) : String :=
  if action = "added" then "+"
  else if action = "modified" then "~"
  else if action = "deleted" then "-"
  else if action = "renamed" then "→"
  else "?"

def changeLines (changes : List FileChangeSummary) : List String :=
  changes.map (fun change =>
    "- `" ++ changeSign change.action ++ "` `" ++ change.path ++ "` - " ++ change.description)

/-- The line that says that verification succeeded. -/
def successLine : String := "Verification commands ran successfully (see audit replay)."

def verificationLines (formats : Formats) (report : TestReport) : List String :=
  ["", "## Verification", ""] ++
    (if 0 < report.total then
      ("**" ++ toString report.passed ++ "/" ++ toString report.total ++ " tests passed** (" ++
        formats.percent report.passed report.total ++ " pass rate)") ::
        (report.results.filter (fun result => !result.passed)).map
          (fun result => "- FAIL: `" ++ result.name ++ "` — " ++ result.error)
    else [successLine])

def replayLines (formats : Formats) (timeline : AuditTimeline) : List String :=
  ["", "## Audit Replay", "", "Full execution trace: " ++ timeline.summary,
    "Cost: $" ++ formats.dollars timeline.totalCostUsd ++ " | Duration: " ++
      toString timeline.totalDurationMs ++ "ms",
    "", "---", "Generated by ForgePilot Studio"]

/-- The body of the pull request. -/
def generatePrBody (formats : Formats) (taskObjective : String)
    (changes : List FileChangeSummary) (report : TestReport) (timeline : AuditTimeline) :
    String :=
  "\n".intercalate (summaryLines taskObjective ++ changeLines changes ++
    verificationLines formats report ++ replayLines formats timeline)

/-- The description of a pull request. -/
structure PRDescription where
  title : String
  body : String
  labels : List String
  reviewers : List String

structure ReplayLink where
  url : String
  taskId : String

/-- What is delivered for a completed task. -/
structure DeliveryArtifact where
  taskId : String
  taskTitle : String
  prDescription : PRDescription
  testReport : TestReport
  replayLink : ReplayLink
  fileChanges : List FileChangeSummary
  commitMessage : String
  summary : String

/-- The task that an artifact is made for, and how it is labelled. -/
structure Request where
  taskId : String
  taskTitle : String
  taskObjective : String
  replayBaseUrl : String := "https://forgepilot.studio/audit"
  gitPrLabels : List String := []
  gitReviewers : List String := []

/-- Carry an error of the audit functions over. -/
def fromAudit {α : Type} : Except AuditError α → Except String α
  | .ok value => .ok value
  | .error (.typeError message) => .error message

/-- Produce the delivery artifact of a task. -/
def generateDeliveryArtifact (validation : Validation) (formats : Formats) (request : Request)
    (events : List AuditEvent) : Except String DeliveryArtifact := do
  let sorted ← fromAudit (orderedTimeline events)
  let timeline ← fromAudit (buildTimeline sorted)
  let fileChanges ← extractFileChanges validation sorted
  let testReport ← extractTestResults validation sorted
  return {
    taskId := request.taskId
    taskTitle := request.taskTitle
    prDescription := {
      title := "forgepilot: " ++ request.taskTitle
      body := generatePrBody formats request.taskObjective fileChanges testReport timeline
      labels := request.gitPrLabels
      reviewers := request.gitReviewers }
    testReport
    replayLink := { url := request.replayBaseUrl ++ "/" ++ request.taskId, taskId := request.taskId }
    fileChanges
    commitMessage := generateCommitMessage request.taskTitle fileChanges
    summary := timeline.summary }

/-- A listed test that is reported as failed. -/
def failedTest (validation : Validation) (test : Value) : Prop :=
  ∃ fields, test = .mapping fields ∧
    validation.flag ((fields.lookup "passed").getD (.bool true)) = .ok false

theorem read_test_passed {validation : Validation} {test : Value} {result : TestResult}
    (read : readTest validation test = .ok result) :
    result.passed = false ↔ failedTest validation test := by
  unfold readTest at read
  split at read
  · rename_i fields
    obtain ⟨name, _, afterName⟩ := bind_eq_ok _ _ read
    obtain ⟨passed, flag, afterFlag⟩ := bind_eq_ok _ _ afterName
    obtain ⟨durationMs, _, afterDuration⟩ := bind_eq_ok _ _ afterFlag
    obtain ⟨output, _, afterOutput⟩ := bind_eq_ok _ _ afterDuration
    obtain ⟨error, _, done⟩ := bind_eq_ok _ _ afterOutput
    cases done
    constructor
    · intro failed
      exact ⟨fields, rfl, flag.trans (congrArg Except.ok failed)⟩
    · rintro ⟨same, equal, flagged⟩
      cases equal
      exact Except.ok.inj (flag.symm.trans flagged)
  · cases read

/-- The counts of a report belong together, and tests failed exactly when one of
those read so far did. -/
structure Counts (read : Prop) (report : TestReport) : Prop where
  total : report.total = report.passed + report.failed
  failed : 0 < report.failed ↔ read

variable (validation : Validation)

theorem add_test_counts (report counted : TestReport) (test : Value) (before : Prop)
    (counts : Counts before report) (added : addTest validation report test = .ok counted) :
    Counts (before ∨ failedTest validation test) counted := by
  obtain ⟨result, read, done⟩ := bind_eq_ok _ _ added
  cases done
  have outcome := read_test_passed read
  have total := counts.total
  have failed := counts.failed
  cases passed : result.passed with
  | true =>
    have notFailed : ¬failedTest validation test := by
      rw [← outcome, passed]
      exact Bool.noConfusion
    refine ⟨?_, ?_⟩
    · simp only [if_true]
      omega
    · simp [failed, notFailed]
  | false =>
    have isFailed : failedTest validation test := outcome.mp passed
    refine ⟨?_, ?_⟩
    · simp only [Bool.false_eq_true, if_false]
      omega
    · simp only [Bool.false_eq_true, if_false, isFailed, or_true, iff_true]
      omega

theorem add_tests_counts {tests : List Value} (report counted : TestReport) (before : Prop)
    (counts : Counts before report) (added : tests.foldlM (addTest validation) report = .ok counted)
    :
    Counts (before ∨ ∃ test ∈ tests, failedTest validation test) counted := by
  induction tests generalizing report before with
  | nil =>
    cases added
    simpa using counts
  | cons test rest ih =>
    rw [foldlM_cons] at added
    obtain ⟨next, first, later⟩ := bind_eq_ok _ _ added
    have step := add_test_counts _ _ _ _ _ counts first
    have run := ih next _ step later
    simpa [or_assoc] using run

/-- Counting the tests of all events. -/
theorem extract_counts (events : List AuditEvent) (report counted : TestReport) (before : Prop)
    (counts : Counts before report)
    (added : events.foldlM (addEventTests validation) report = .ok counted) :
    Counts (before ∨ ∃ event ∈ events, ∃ test ∈ listedTests event, failedTest validation test)
      counted := by
  induction events generalizing report before with
  | nil =>
    cases added
    simpa using counts
  | cons event rest ih =>
    rw [foldlM_cons] at added
    obtain ⟨next, first, later⟩ := bind_eq_ok _ _ added
    obtain ⟨tested, tests, done⟩ := bind_eq_ok _ _ first
    cases done
    obtain ⟨total, failed⟩ := add_tests_counts _ _ _ _ counts tests
    have run := ih _ _ ⟨by exact total, by exact failed⟩ later
    simpa [or_assoc] using run

/-- The verification section says that verification succeeded exactly when no test
was counted. -/
theorem success_line_iff (formats : Formats) (report : TestReport) :
    successLine ∈ verificationLines formats report ↔ report.total = 0 := by
  rw [verificationLines]
  constructor
  · intro said
    by_contra counted
    rw [if_pos (by omega)] at said
    simp only [cons_append, nil_append, mem_cons, mem_map] at said
    rcases said with same | same | same | same | ⟨result, _, same⟩
    · exact absurd same (by decide)
    · exact absurd same (by decide)
    · exact absurd same (by decide)
    · have letters := congrArg (fun text => text.toList.head?) same
      simp [successLine, String.toList_append] at letters
    · have letters := congrArg (fun text => text.toList.head?) same
      simp [successLine, String.toList_append] at letters
  · intro none
    rw [none]
    simp

/-- The pull request has its verification section from the test report, and the
artifact agrees with the replay exactly when the replay has no failed verification
or a listed test failed. -/
theorem delivery_agrees_exact (validation : Validation) (formats : Formats) (request : Request)
    (events : List AuditEvent) (artifact : DeliveryArtifact) (summary : AuditReplaySummary)
    (delivered : generateDeliveryArtifact validation formats request events = .ok artifact)
    (replayed : buildAuditReplaySummary events = .ok summary) :
    (∃ before after, artifact.prDescription.body =
        "\n".intercalate (before ++ verificationLines formats artifact.testReport ++ after)) ∧
      (((∃ queue ∈ summary.riskQueues, queue.name = "failed_verification") →
          successLine ∉ verificationLines formats artifact.testReport ∧
            ¬(artifact.testReport.failed = 0 ∧ artifact.testReport.passRate = 1)) ↔
        (∀ event ∈ events, AuditEventType.isVerification event.eventType = true →
            isFailedVerification event = false) ∨
          ∃ event ∈ events, ∃ test ∈ listedTests event, failedTest validation test) := by
  obtain ⟨sorted, ordered, afterOrder⟩ := bind_eq_ok _ _ delivered
  obtain ⟨timeline, _, afterTimeline⟩ := bind_eq_ok _ _ afterOrder
  obtain ⟨fileChanges, _, afterChanges⟩ := bind_eq_ok _ _ afterTimeline
  obtain ⟨report, extracted, done⟩ := bind_eq_ok _ _ afterChanges
  cases done
  refine ⟨⟨summaryLines request.taskObjective ++ changeLines fileChanges,
    replayLines formats timeline, rfl⟩, ?_⟩
  obtain ⟨total, failed⟩ := extract_counts validation sorted {} report False
    ⟨rfl, by simp⟩ extracted
  have perm : sorted.Perm events := by
    cases source : orderedTimeline events with
    | error raised =>
      rw [source] at ordered
      cases raised
      cases ordered
    | ok others =>
      rw [source] at ordered
      cases ordered
      exact ordered_timeline_perm source
  have failedHere : 0 < report.failed ↔
      ∃ event ∈ events, ∃ test ∈ listedTests event, failedTest validation test := by
    rw [failed]
    simp [perm.mem_iff]
  have agrees : (successLine ∉ verificationLines formats report ∧
      ¬(report.failed = 0 ∧ report.passRate = 1)) ↔ 0 < report.failed := by
    rw [success_line_iff]
    constructor
    · rintro ⟨counted, notAll⟩
      by_contra none
      have zero : report.failed = 0 := by omega
      refine notAll ⟨zero, ?_⟩
      have all : report.passed = report.total := by omega
      rw [TestReport.passRate, if_neg counted, all]
      exact div_self (Nat.cast_ne_zero.mpr counted)
    · intro some
      exact ⟨by omega, fun both => by omega⟩
  rw [failed_queue_iff events summary replayed, agrees, ← failedHere]
  constructor
  · intro implied
    by_cases reported : ∃ event ∈ events, AuditEventType.isVerification event.eventType = true ∧
        isFailedVerification event = true
    · exact .inr (implied reported)
    left
    intro event member verification
    rw [← Bool.not_eq_true]
    exact fun failing => reported ⟨event, member, verification, failing⟩
  · rintro either ⟨event, member, verification, failing⟩
    cases either with
    | inl none =>
      rw [none event member verification] at failing
      cases failing
    | inr some => exact some

/-- A validation that accepts values of the declared kind only. -/
def strictValidation : Validation where
  text
    | .str text => .ok text
    | _ => .error "Input should be a valid string"
  flag
    | .bool flag => .ok flag
    | _ => .error "Input should be a valid boolean"
  number
    | .int number => .ok number
    | _ => .error "Input should be a valid integer"

def wholeFormats : Formats where
  percent := fun passed total => toString (passed * 100 / total) ++ "%"
  dollars := fun amount => toString amount.floor ++ ".0000"

def fixTask : Request where
  taskId := "task-1"
  taskTitle := "Fix the parser"
  taskObjective := "Repair it"

def failedVerification : AuditEvent where
  traceId := "verify-1"
  taskId := some "task-1"
  eventType := .verification
  timestamp := .aware 0
  summary := "verify"
  payload := [("status", .str "failed"),
    ("tests", .list [.mapping [("name", .str "parses"), ("passed", .bool false)]])]

/-- A test command of the event stream that exited with an error. -/
def failedTestRun : AuditEvent where
  traceId := "event-7"
  taskId := some "task-1"
  eventType := .testResult
  phase := some "verify"
  timestamp := .aware 0
  summary := "pytest"
  payload := [("command", .str "pytest"), ("exit_code", .int 1), ("working_dir", .str "/repo"),
    ("output", .str "1 failed")]

/-- A failed test that is listed is reported on both sides. -/
theorem failed_test_reported : ∃ artifact summary,
      generateDeliveryArtifact strictValidation wholeFormats fixTask [failedVerification] =
          .ok artifact ∧
        buildAuditReplaySummary [failedVerification] = .ok summary ∧
        (∃ queue ∈ summary.riskQueues, queue.name = "failed_verification") ∧
        successLine ∉ verificationLines wholeFormats artifact.testReport ∧
        ¬(artifact.testReport.failed = 0 ∧ artifact.testReport.passRate = 1) := by
  obtain ⟨artifact, delivered⟩ : ∃ artifact, generateDeliveryArtifact strictValidation
      wholeFormats fixTask [failedVerification] = .ok artifact := ⟨_, rfl⟩
  obtain ⟨summary, replayed⟩ : ∃ summary,
      buildAuditReplaySummary [failedVerification] = .ok summary := ⟨_, rfl⟩
  have queued : ∃ queue ∈ summary.riskQueues, queue.name = "failed_verification" :=
    (failed_queue_iff _ _ replayed).mpr ⟨failedVerification, by simp, rfl, by decide⟩
  have agrees := (delivery_agrees_exact _ _ _ _ _ _ delivered replayed).2.mpr
    (.inr ⟨failedVerification, by simp, _, .head _, _, rfl, rfl⟩) queued
  exact ⟨artifact, summary, delivered, replayed, queued, agrees⟩

/-- A failed test run is in the replay, and the pull request says that verification
ran successfully. -/
theorem failed_run_delivered_as_success : ∃ artifact summary,
      generateDeliveryArtifact strictValidation wholeFormats fixTask [failedTestRun] =
          .ok artifact ∧
        buildAuditReplaySummary [failedTestRun] = .ok summary ∧
        (∃ queue ∈ summary.riskQueues, queue.name = "failed_verification") ∧
        Characters.occursIn successLine.toList artifact.prDescription.body.toList = true ∧
        artifact.testReport.failed = 0 ∧ artifact.testReport.passRate = 1 := by
  refine ⟨_, _, rfl, rfl, ?_, by decide +kernel, by decide, by decide⟩
  exact (failed_queue_iff [failedTestRun] _ rfl).mpr ⟨failedTestRun, by simp, rfl, by decide⟩

end ForgePilot.Delivery
