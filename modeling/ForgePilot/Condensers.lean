import ForgePilot.Views
import Mathlib.Data.List.Sort

/-!
# Condensers

A condenser turns a view into a smaller view or into a condensation that is to be
added to the history. Rolling condensers return the view they are given unless
it has grown too long or a request is open; the others build a new view from the
events they keep or mask. A pipeline runs condensers one after another until one
returns a condensation.

Answers of a model are drawn from an oracle. Prompts, metrics and metadata are
not modelled, since nothing but the model reads them.
-/

namespace ForgePilot.Condensers

open Events Sequences Views

inductive Condensed where
  | view (view : View)
  | condensation (action : CondensationAction)

/-- The sizes that the rolling condensers accept. -/
structure Sizes where
  maxSize : Nat
  keepFirst : Nat
  accepted : keepFirst < maxSize / 2

/-- The check of the sizes in a constructor. The text of the last refusal names
one of the two sizes; which one differs between the condensers. -/
def Sizes.check (maxSize keepFirst named : Int) : Except String Sizes :=
  if half : keepFirst ≥ maxSize / 2 then
    .error ("keep_first (" ++ toString keepFirst ++ ") must be less than half of max_size (" ++
      toString maxSize ++ ")")
  else if negative : keepFirst < 0 then
    .error ("keep_first (" ++ toString keepFirst ++ ") cannot be negative")
  else if maxSize < 1 then
    .error ("max_size (" ++ toString named ++ ") cannot be non-positive")
  else .ok ⟨maxSize.toNat, keepFirst.toNat, by omega⟩

/-- All accepted sizes pass the check. -/
theorem check_accepted (sizes : Sizes) (named : Int) :
    Sizes.check sizes.maxSize sizes.keepFirst named = .ok sizes := by
  have accepted := sizes.accepted
  rw [Sizes.check]
  rw [dif_neg (by omega), dif_neg (by omega), if_neg (by omega)]
  rfl

/-- The constructor of the condenser that summarises in free text. -/
def createLlmSummarizing (maxSize keepFirst : Int) : Except String Sizes :=
  Sizes.check maxSize keepFirst maxSize

/-- The constructor of the condenser that summarises in a fixed form. -/
def createStructuredSummary (maxSize keepFirst : Int) (functionCallingActive : Bool) :
    Except String Sizes := do
  let sizes ← Sizes.check maxSize keepFirst maxSize
  if functionCallingActive then return sizes
  else .error "LLM must support function calling to use StructuredSummaryCondenser"

/-- The constructor of the condenser that forgets without a summary. -/
def createAmortizedForgetting (maxSize keepFirst : Int) : Except String Sizes :=
  Sizes.check maxSize keepFirst keepFirst

/-- The constructor of the condenser that asks which events matter. -/
def createLlmAttention (maxSize keepFirst : Int) (supportsResponseSchema : Bool) :
    Except String Sizes := do
  let sizes ← Sizes.check maxSize keepFirst keepFirst
  if supportsResponseSchema then return sizes
  else
    .error ("The LLM model must support the 'response_schema' parameter to use the " ++
      "LLMAttentionCondenser.")

/-- The rolling condensers with sizes condense long views and open requests. -/
def shouldCondense (sizes : Sizes) (view : View) : Bool :=
  sizes.maxSize < view.events.length || view.unhandledCondensationRequest

/-- Forget a range of identifiers, given the identifiers it has to span. -/
def forgetSpan (ids : List Int) (summary : Option String) (summaryOffset : Option Int) :
    Except String CondensationAction :=
  match ids.min?, ids.max? with
  | some first, some last =>
      CondensationAction.create {
        forgottenEventsStartId := some first
        forgottenEventsEndId := some last
        summary, summaryOffset }
  | _, _ => .error "min() iterable argument is empty"

/-- Identifiers with a least and a greatest one are forgotten by the range between
them, with the summary as given. -/
theorem forget_span_ok (ids : List Int) (summary : String) (offset first last : Int)
    (least : ids.min? = some first) (greatest : ids.max? = some last) :
    ∃ action, forgetSpan ids (some summary) (some offset) = .ok action ∧
      action.forgotten = idRange first last ∧ action.summary = some summary ∧
      action.summaryOffset = some offset := by
  let fields : CondensationFields := {
    forgottenEventsStartId := some first
    forgottenEventsEndId := some last
    summary := some summary
    summaryOffset := some offset }
  refine ⟨⟨fields, rfl⟩, ?_, rfl, rfl, rfl⟩
  simp only [forgetSpan, least, greatest]
  rfl

/-- The condensation of both summarising condensers, given the text of the
summary or how asking for it fails. The number of events to keep from the tail is
negated to count from the end. -/
def summaryCondensation (sizes : Sizes) (answer : Except String String) (view : View) :
    Except String CondensationAction :=
  let head := slice view.events none (some sizes.keepFirst)
  let eventsFromTail : Int := (sizes.maxSize / 2 : Nat) - head.length - 1
  match view.events[sizes.keepFirst]? with
  | none => .error "list index out of range"
  | some _ => do
      let forgottenEvents :=
        (slice view.events (some sizes.keepFirst) (some (-eventsFromTail))).filter
          (fun event => !event.isAgentCondensation)
      let summary ← answer
      forgetSpan (forgottenEvents.map Event.id) (some summary) (some sizes.keepFirst)

/-- The summary of a state in a fixed form; every field is empty by default. -/
structure StateSummary where
  userContext : String := ""
  completedTasks : String := ""
  pendingTasks : String := ""
  currentState : String := ""
  filesModified : String := ""
  functionChanges : String := ""
  dataStructures : String := ""
  testsWritten : String := ""
  testsPassing : String := ""
  failingTests : String := ""
  errorMessages : String := ""
  branchCreated : String := ""
  branchName : String := ""
  commitsMade : String := ""
  prCreated : String := ""
  prStatus : String := ""
  dependencies : String := ""
  otherRelevantContext : String := ""

/-- The text of a summary in a fixed form. -/
def StateSummary.text (summary : StateSummary) : String :=
  "\n\n".intercalate [
    "# State Summary",
    "## Core Information",
    "**User Context**: " ++ summary.userContext,
    "**Completed Tasks**: " ++ summary.completedTasks,
    "**Pending Tasks**: " ++ summary.pendingTasks,
    "**Current State**: " ++ summary.currentState,
    "## Code Changes",
    "**Files Modified**: " ++ summary.filesModified,
    "**Function Changes**: " ++ summary.functionChanges,
    "**Data Structures**: " ++ summary.dataStructures,
    "**Dependencies**: " ++ summary.dependencies,
    "## Testing Status",
    "**Tests Written**: " ++ summary.testsWritten,
    "**Tests Passing**: " ++ summary.testsPassing,
    "**Failing Tests**: " ++ summary.failingTests,
    "**Error Messages**: " ++ summary.errorMessages,
    "## Version Control",
    "**Branch Created**: " ++ summary.branchCreated,
    "**Branch Name**: " ++ summary.branchName,
    "**Commits Made**: " ++ summary.commitsMade,
    "**PR Created**: " ++ summary.prCreated,
    "**PR Status**: " ++ summary.prStatus,
    "## Additional Context",
    "**Other Relevant Context**: " ++ summary.otherRelevantContext]

/-- Condense into a summary in free text. -/
def llmSummarizingCondensation (sizes : Sizes) (answer : Except String String) (view : View) :
    Except String CondensationAction :=
  summaryCondensation sizes answer view

/-- Condense into a summary in a fixed form; an answer that cannot be read counts
as the empty one. -/
def structuredSummaryCondensation (sizes : Sizes) (answer : Except String (Option StateSummary))
    (view : View) : Except String CondensationAction :=
  summaryCondensation sizes (answer.map (fun summary => (summary.getD {}).text)) view

/-- Forget the middle of a view without a summary. -/
def amortizedForgettingCondensation (sizes : Sizes) (view : View) :
    Except String CondensationAction :=
  let head := slice view.events none (some sizes.keepFirst)
  let eventsFromTail : Int := (sizes.maxSize / 2 : Nat) - head.length
  let tail := slice view.events (some (-eventsFromTail)) none
  let idsToKeep := (head ++ tail).map Event.id
  forgetSpan ((view.events.map Event.id).filter (fun id => id ∉ idsToKeep)) none none

/-- Add identifiers from the end of a view until the quota is met. -/
def fillFromEnd (quota : Int) : List Int → List Event → List Int
  | chosen, [] => chosen
  | chosen, event :: earlier =>
      if quota ≤ chosen.length then chosen
      else if event.id ∈ chosen then fillFromEnd quota chosen earlier
      else fillFromEnd quota (chosen ++ [event.id]) earlier

/-- Keep the head and the events that the model found important. -/
def llmAttentionCondensation (sizes : Sizes) (answer : List Int) (view : View) :
    Except String CondensationAction :=
  let headIds := (slice view.events none (some sizes.keepFirst)).map Event.id
  let eventsFromTail : Int := (sizes.maxSize / 2 : Nat) - headIds.length
  let responseIds := slice (answer.filter (fun id => id ∉ headIds)) none (some eventsFromTail)
  let chosen := fillFromEnd eventsFromTail responseIds view.events.reverse
  CondensationAction.create {
    forgottenEventIds := some ((view.events.map Event.id).filter
      (fun id => id ∉ chosen ∧ id ∉ headIds)) }

def recallQuery (event : Event) : Option String :=
  match event.body with
  | .action (.recall _ query _) => some query
  | _ => none

def messageContent (event : Event) : String :=
  match event.body with
  | .action (.message content _ _) => content
  | _ => ""

/-- The recall for a message among the later events, and the observation it
caused. -/
def recallFor (query : String) : List Event → List Int
  | [] => []
  | event :: later =>
      if recallQuery event = some query then
        event.id :: (later.find? (fun other => other.isObservation ∧
          other.cause = some event.id)).elim [] (fun observed => [observed.id])
      else recallFor query later

/-- The identifiers that a conversation window never forgets, if there is a user
message. -/
def essentialEvents (events : List Event) : Option (List Int) :=
  match events.find? Event.isUserMessage with
  | none => none
  | some first =>
      let after := (events.dropWhile (fun event => !event.isUserMessage)).drop 1
      some ((events.find? Event.isSystemMessage).elim [] (fun event => [event.id]) ++ [first.id] ++
        recallFor (messageContent first) after)

/-- Forget sorted identifiers as a range when there are at least two and they
have no gap. -/
def forgetIds (ids : List Int) : Except String CondensationAction :=
  match ids.head?, ids.getLast? with
  | some first, some last =>
      if 1 < ids.length ∧ last - first = (ids.length : Int) - 1 then
        CondensationAction.create {
          forgottenEventsStartId := some first, forgottenEventsEndId := some last }
      else CondensationAction.create { forgottenEventIds := some ids }
  | _, _ => CondensationAction.create { forgottenEventIds := some [] }

/-- Keep the essential events and about half of the others, without observations
whose action is gone. -/
def conversationWindowCondensation (view : View) : Except String CondensationAction :=
  match essentialEvents view.events with
  | none => CondensationAction.create { forgottenEventIds := some [] }
  | some essential =>
      let events := view.events
      let recent : Int := max 1 (((events.length : Int) - essential.length) / 2)
      let start := (max 0 ((events.length : Int) - recent)).toNat
      let kept := (events.drop start).dropWhile Event.isObservation
      let toKeep := essential ++ kept.map Event.id
      forgetIds (((events.map Event.id).dedup.filter (fun id => id ∉ toKeep)).insertionSort
        (fun first second => first ≤ second))

/-- Mask the browser outputs before the latest ones, reading from the end. -/
def maskBrowser (attentionWindow : Int) : Nat → List Event → List Event
  | _, [] => []
  | seen, event :: earlier =>
      match event.browserUrl with
      | some url =>
          if attentionWindow ≤ seen then
            condensationObservation ("Visited URL " ++ url ++ "\nContent omitted") ::
              maskBrowser attentionWindow seen earlier
          else event :: maskBrowser attentionWindow (seen + 1) earlier
      | none => event :: maskBrowser attentionWindow seen earlier

/-- Mask browser outputs outside the attention window. -/
def browserOutputCondense (attentionWindow : Int) (view : View) : View :=
  { events := (maskBrowser attentionWindow 0 view.events.reverse).reverse }

/-- Mask observations outside the attention window. -/
def observationMaskingCondense (attentionWindow : Int) (view : View) : View :=
  { events := view.events.mapIdx (fun index event =>
      if event.isObservation ∧ (index : Int) < view.events.length - attentionWindow then
        condensationObservation "<MASKED>"
      else event) }

def recentEventsCondense (keepFirst maxEvents : Int) (view : View) : View :=
  let head := slice view.events none (some keepFirst)
  let tailLength := max 0 (maxEvents - head.length)
  { events := head ++ slice view.events (some (-tailLength)) none }

inductive Condenser where
  | noOp
  | recentEvents (keepFirst maxEvents : Int)
  | observationMasking (attentionWindow : Int)
  | browserOutput (attentionWindow : Int)
  | amortizedForgetting (sizes : Sizes)
  | conversationWindow
  | llmAttention (sizes : Sizes)
  | llmSummarizing (sizes : Sizes)
  | structuredSummary (sizes : Sizes)
  | pipeline (condensers : List Condenser)

/-- What the model answers to the condensers, or how asking it fails. -/
structure Model where
  summary : View → Except String String
  stateSummary : View → Except String (Option StateSummary)
  importantIds : View → Except String (List Int)

/-- A rolling condenser returns its view unless it has to condense. -/
def roll (needed : Bool) (condensation : Except String CondensationAction) (view : View) :
    Except String Condensed :=
  if needed then condensation.map Condensed.condensation else .ok (.view view)

mutual

def condense (model : Model) : Condenser → View → Except String Condensed
  | .noOp, view => .ok (.view view)
  | .recentEvents keepFirst maxEvents, view =>
      .ok (.view (recentEventsCondense keepFirst maxEvents view))
  | .observationMasking attentionWindow, view =>
      .ok (.view (observationMaskingCondense attentionWindow view))
  | .browserOutput attentionWindow, view =>
      .ok (.view (browserOutputCondense attentionWindow view))
  | .amortizedForgetting sizes, view =>
      roll (shouldCondense sizes view) (amortizedForgettingCondensation sizes view) view
  | .conversationWindow, view =>
      roll view.unhandledCondensationRequest (conversationWindowCondensation view) view
  | .llmAttention sizes, view =>
      roll (shouldCondense sizes view)
        (do llmAttentionCondensation sizes (← model.importantIds view) view) view
  | .llmSummarizing sizes, view =>
      roll (shouldCondense sizes view)
        (llmSummarizingCondensation sizes (model.summary view) view) view
  | .structuredSummary sizes, view =>
      roll (shouldCondense sizes view)
        (structuredSummaryCondensation sizes (model.stateSummary view) view) view
  | .pipeline condensers, view => condenseThrough model condensers view

/-- Run condensers in sequence until one returns a condensation. -/
def condenseThrough (model : Model) : List Condenser → View → Except String Condensed
  | [], view => .ok (.view view)
  | condenser :: rest, view =>
      match condense model condenser view with
      | .ok (.view next) => condenseThrough model rest next
      | .ok (.condensation action) => .ok (.condensation action)
      | .error raised => .error raised

end

end ForgePilot.Condensers
