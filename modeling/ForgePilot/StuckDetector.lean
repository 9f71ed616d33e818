import ForgePilot.Characters
import ForgePilot.Events
import ForgePilot.Spans

/-!
# Agents that are stuck

The detector looks at the end of a history. Messages of the user and empty events do not count. Five kinds of
repetition are told apart, and the first kind that applies is reported together with the place where it
begins.

Events are compared by their class and fields; their source and identifier do not take part. Fields that
nothing here reads are kept as one value.
-/

namespace ForgePilot.StuckDetector

open List

open Characters (occursIn strip)
open Events (EventSource)
open Spans (part)

abbrev Text := List Char

/-- The class of an event and its fields. -/
inductive Body (ρ : Type) where
  | message (fields : ρ)
  | nullAction (fields : ρ)
  | ipythonRunCell (code : Text) (fields : ρ)
  | otherAction (fields : ρ)
  | nullObservation (fields : ρ)
  | error (fields : ρ)
  | ipythonOutput (content : Text) (fields : ρ)
  | cmdOutput (command : Text) (exitCode : Int) (fields : ρ)
  | agentCondensation (fields : ρ)
  | otherObservation (fields : ρ)
deriving DecidableEq

namespace Body

variable {ρ : Type}

def isAction : Body ρ → Bool
  | .message _ | .nullAction _ | .ipythonRunCell _ _ | .otherAction _ => true
  | _ => false

def isObservation (body : Body ρ) : Bool := !body.isAction

def isNull : Body ρ → Bool
  | .nullAction _ | .nullObservation _ => true
  | _ => false

def isMessage : Body ρ → Bool
  | .message _ => true
  | _ => false

def isError : Body ρ → Bool
  | .error _ => true
  | _ => false

def isCondensation : Body ρ → Bool
  | .agentCondensation _ => true
  | _ => false

def cellContent : Body ρ → Option Text
  | .ipythonOutput content _ => some content
  | _ => none

end Body

structure Event (ρ : Type) where
  source : Option EventSource
  body : Body ρ
deriving DecidableEq

inductive LoopType where
  | repeatingActionObservation
  | repeatingActionError
  | monologue
  | repeatingActionObservationPattern
  | contextWindowError
deriving DecidableEq

structure StuckAnalysis where
  loopType : LoopType
  loopRepeatTimes : Nat
  loopStartIdx : Nat
deriving DecidableEq

section
variable {ρ : Type}

def isUserMessage (event : Event ρ) : Bool := event.body.isMessage && event.source == some .user

def isAgentMessage (event : Event ρ) : Bool := event.body.isMessage && event.source == some .agent

/-- What counts: neither a message of the user nor an empty event. -/
def counts (event : Event ρ) : Bool := !(isUserMessage event || event.body.isNull)

/-- Where the checked part of a history begins. -/
def filteredHistoryOffset (history : List (Event ρ)) (headlessMode : Bool) : Nat :=
  if headlessMode then 0
  else
    match history.reverse.findIdx? isUserMessage with
    | some index => history.length - index - 1 + 1
    | none => 0

def historyToCheck (history : List (Event ρ)) (headlessMode : Bool) : List (Event ρ) :=
  history.drop (filteredHistoryOffset history headlessMode)

def filteredHistory (history : List (Event ρ)) (headlessMode : Bool) : List (Event ρ) :=
  (historyToCheck history headlessMode).filter counts

/-- The loop that collects actions and observations, up to a number of each. -/
def collect (count : Nat) (actions observations : List (Event ρ)) :
    List (Event ρ) → List (Event ρ) × List (Event ρ)
  | [] => (actions, observations)
  | event :: rest =>
      if event.body.isAction then
        let actions := if actions.length < count then actions ++ [event] else actions
        if actions.length = count ∧ observations.length = count then (actions, observations)
        else collect count actions observations rest
      else
        let observations :=
          if observations.length < count then observations ++ [event] else observations
        if actions.length = count ∧ observations.length = count then (actions, observations)
        else collect count actions observations rest

/-- Another event is collected as long as there is room for it. -/
theorem collected_more {count : Nat} (collected rest : List (Event ρ)) (event : Event ρ)
    (few : collected.length ≤ count) :
    (if collected.length < count then collected ++ [event] else collected).length ≤ count ∧
      (if collected.length < count then collected ++ [event] else collected) ++ rest.take (count -
          (if collected.length < count then collected ++ [event] else collected).length) =
        collected ++ (event :: rest).take (count - collected.length) := by
  split
  · rename_i room
    obtain ⟨places, spare⟩ : ∃ places, count - collected.length = places + 1 :=
      ⟨count - collected.length - 1, by omega⟩
    have less : count - (collected ++ [event]).length = places := by
      rw [length_append, length_singleton]
      omega
    refine ⟨by rw [length_append, length_singleton]; omega, ?_⟩
    rw [less, spare, take_succ_cons, append_assoc, singleton_append]
  · have none : count - collected.length = 0 := by omega
    rw [none, take_zero, take_zero]
    exact ⟨few, rfl⟩

/-- The loop collects the first actions and the first observations. -/
theorem collect_spec (count : Nat) (actions observations events : List (Event ρ))
    (fewActions : actions.length ≤ count) (fewObservations : observations.length ≤ count) :
    collect count actions observations events =
      (actions ++ (events.filter (·.body.isAction)).take (count - actions.length),
        observations ++ (events.filter (·.body.isObservation)).take (count - observations.length)) := by
  induction events generalizing actions observations with
  | nil => simp [collect]
  | cons event rest ih =>
    rw [collect]
    cases kind : event.body.isAction with
    | true =>
      have other : event.body.isObservation = false := by rw [Body.isObservation, kind]; rfl
      obtain ⟨few, more⟩ := collected_more _ _ _ fewActions
      simp only [filter_cons, kind, other, if_true, Bool.false_eq_true, if_false]
      rw [← more]
      generalize (if actions.length < count then actions ++ [event] else actions) = collected at few ⊢
      split
      · rename_i full
        rw [full.1, full.2, Nat.sub_self, take_zero, take_zero, append_nil, append_nil]
      · exact ih _ _ few fewObservations
    | false =>
      have other : event.body.isObservation = true := by rw [Body.isObservation, kind]; rfl
      obtain ⟨few, more⟩ := collected_more _ _ _ fewObservations
      simp only [filter_cons, kind, other, if_true, Bool.false_eq_true, if_false]
      rw [← more]
      generalize (if observations.length < count then observations ++ [event] else observations) =
        collected at few ⊢
      split
      · rename_i full
        rw [full.1, full.2, Nat.sub_self, take_zero, take_zero, append_nil, append_nil]
      · exact ih _ _ fewActions few

theorem collect_reverse (count : Nat) (filtered : List (Event ρ)) :
    collect count [] [] filtered.reverse = ((filtered.filter (·.body.isAction)).reverse.take count,
        (filtered.filter (·.body.isObservation)).reverse.take count) := by
  rw [collect_spec _ [] [] _ (Nat.zero_le _) (Nat.zero_le _), filter_reverse, filter_reverse]
  rfl

def lines (text : Text) : List Text := text.splitOn '\n'

/-- An element counted from the end, beginning with one. -/
def fromEnd (texts : List Text) (place : Nat) : Text := (texts.reverse[place - 1]?).getD []

def startsWith (text : Text) (front : String) : Bool := front.toList.isPrefixOf text

/-! ## Errors of cells -/

def checkForConsistentInvalidSyntax (contents : List Text) (errorMessage : Text) : Bool :=
  let contentLines := contents.map fun content => lines (strip content)
  if contentLines.any fun texts =>
      texts.length < 6 || !startsWith (strip (texts.headD [])) "Cell In[1], line" then false
  else
    let firstLines := contentLines.map fun texts => strip (texts.headD [])
    let valid := contentLines.filter fun texts =>
      startsWith (fromEnd texts 1) "[Jupyter Python interpreter:" &&
        startsWith (fromEnd texts 2) "[Jupyter current working directory:" &&
        occursIn errorMessage (fromEnd texts 3)
    firstLines.eraseDups.length == 1 && valid.length == 3 &&
      (valid.map (fromEnd · 3)).eraseDups.length == 1

def checkForConsistentLineError (contents : List Text) (errorMessage : Text) : Bool :=
  let contentLines := contents.map fun content => lines (strip content)
  if contentLines.any fun texts => texts.length < 3 ||
      !(startsWith (fromEnd texts 2) "[Jupyter current working directory:" &&
        startsWith (fromEnd texts 1) "[Jupyter Python interpreter:") then false
  else
    let errorLines := (contentLines.map (fromEnd · 3)).filter (occursIn errorMessage)
    errorLines.length == 3 && errorLines.eraseDups.length == 1

def unterminated : String := "SyntaxError: unterminated string literal (detected at line"

def otherSyntaxErrors : List String :=
  ["SyntaxError: invalid syntax. Perhaps you forgot a comma?", "SyntaxError: incomplete input"]

def consistentSyntaxError (contents : List Text) : Bool :=
  (unterminated :: otherSyntaxErrors).any fun errorMessage =>
    if startsWith errorMessage.toList unterminated then
      checkForConsistentLineError contents errorMessage.toList
    else otherSyntaxErrors.contains errorMessage &&
      checkForConsistentInvalidSyntax contents errorMessage.toList

end

section
variable {ρ : Type} [DecidableEq ρ]

def editCall : Text := "edit_file_by_replace(".toList

/-- Edits of files are compared by their first three lines, outputs of commands without the process. -/
def eqNoPid (first second : Event ρ) : Bool :=
  match first.body, second.body with
  | .ipythonRunCell code _, .ipythonRunCell other _ =>
      if occursIn editCall code && occursIn editCall other then
        decide (2 < (lines code).length) && (lines code).take 3 == (lines other).take 3
      else first.body == second.body
  | .cmdOutput command exitCode _, .cmdOutput other otherCode _ =>
      command == other && exitCode == otherCode
  | _, _ => first.body == second.body

/-- All events are like the first one. -/
def agree : List (Event ρ) → Bool
  | [] => true
  | first :: rest => (first :: rest).all (eqNoPid first)

/-- The position of the first event that is equal. -/
def index (filtered : List (Event ρ)) (event : Event ρ) : Nat :=
  filtered.findIdx fun other => other.body == event.body

def lastIndex (filtered events : List (Event ρ)) : Nat :=
  (events.getLast?.map (index filtered)).getD 0

/-! ## Scenarios -/

def isStuckRepeatingActionObservation (lastActions lastObservations filtered : List (Event ρ))
    (offset : Nat) : Option StuckAnalysis :=
  if lastActions.length = 4 ∧ lastObservations.length = 4 then
    if agree lastActions && agree lastObservations then
      some ⟨.repeatingActionObservation, 4, lastIndex filtered lastActions + offset⟩
    else none
  else none

def isStuckRepeatingActionError (lastActions lastObservations filtered : List (Event ρ))
    (offset : Nat) : Option StuckAnalysis :=
  if lastActions.length < 3 ∨ lastObservations.length < 3 then none
  else if agree (lastActions.take 3) then
    let observations := lastObservations.take 3
    if observations.all (·.body.isError) then
      some ⟨.repeatingActionError, 3, lastIndex filtered lastActions + offset⟩
    else if observations.all (·.body.cellContent.isSome) then
      if consistentSyntaxError (observations.filterMap (·.body.cellContent)) then
        some ⟨.repeatingActionError, 3, lastIndex filtered lastActions + offset⟩
      else none
    else none
  else none

def isStuckMonologue (filtered : List (Event ρ)) (offset : Nat) : Option StuckAnalysis :=
  let agentMessageActions := filtered.findIdxsValues isAgentMessage
  match agentMessageActions.drop (agentMessageActions.length - 3) with
  | [(startIndex, first), (_, second), (endIndex, third)] =>
      if first.body == second.body && first.body == third.body then
        if (part filtered (startIndex + 1) endIndex).any (·.body.isObservation) then none
        else some ⟨.monologue, 3, startIndex + offset⟩
      else none
  | _ => none

def isStuckActionObservationPattern (filtered : List (Event ρ)) (offset : Nat) :
    Option StuckAnalysis :=
  match collect 6 [] [] filtered.reverse with
  | ([action0, action1, action2, action3, action4, action5],
      [observation0, observation1, observation2, observation3, observation4, observation5]) =>
      if eqNoPid action0 action2 && eqNoPid action0 action4 &&
          (eqNoPid action1 action3 && eqNoPid action1 action5) &&
          (eqNoPid observation0 observation2 && eqNoPid observation0 observation4 &&
            (eqNoPid observation1 observation3 && eqNoPid observation1 observation5)) then
        some ⟨.repeatingActionObservationPattern, 3, index filtered action5 + offset⟩
      else none
  | _ => none

/-- The first two neighbours among the last ten condensations that nothing else stands between. -/
def isStuckContextWindowError (filtered : List (Event ρ)) (offset : Nat) : Option StuckAnalysis :=
  let condensationEvents := filtered.findIdxs (·.body.isCondensation)
  if condensationEvents.length < 10 then none
  else
    let lastCondensationEvents := condensationEvents.drop (condensationEvents.length - 10)
    (lastCondensationEvents.zip lastCondensationEvents.tail).findSome? fun (startIdx, endIdx) =>
      if (part filtered (startIdx + 1) endIdx).any (!·.body.isCondensation) then none
      else some ⟨.contextWindowError, 2, startIdx + offset⟩

/-- The scenarios that look at repeated steps and messages. -/
def repeatedSteps (filtered : List (Event ρ)) (offset : Nat) : Option StuckAnalysis :=
  let (lastActions, lastObservations) := collect 4 [] [] filtered.reverse
  (isStuckRepeatingActionObservation lastActions lastObservations filtered offset).or <|
    (isStuckRepeatingActionError lastActions lastObservations filtered offset).or <|
      (isStuckMonologue filtered offset).or <|
        if 6 ≤ filtered.length then isStuckActionObservationPattern filtered offset else none

/-- Whether the agent is stuck, and the analysis that the detector keeps. -/
def isStuck (history : List (Event ρ)) (headlessMode : Bool) (stuckAnalysis : Option StuckAnalysis) :
    Bool × Option StuckAnalysis :=
  let offset := filteredHistoryOffset history headlessMode
  let filtered := filteredHistory history headlessMode
  if filtered.length < 3 then (false, stuckAnalysis)
  else
    match (repeatedSteps filtered offset).or
      (if 10 ≤ filtered.length then isStuckContextWindowError filtered offset else none) with
    | some analysis => (true, some analysis)
    | none => (false, none)

/-- The agent is stuck where there are three events and a scenario applies. -/
theorem stuck_iff (history : List (Event ρ)) (headlessMode : Bool) (stuckAnalysis : Option StuckAnalysis) :
    (isStuck history headlessMode stuckAnalysis).1 = true ↔
      3 ≤ (filteredHistory history headlessMode).length ∧
        ((repeatedSteps (filteredHistory history headlessMode)
              (filteredHistoryOffset history headlessMode)).isSome = true ∨
          10 ≤ (filteredHistory history headlessMode).length ∧
            (isStuckContextWindowError (filteredHistory history headlessMode)
              (filteredHistoryOffset history headlessMode)).isSome = true) := by
  simp only [isStuck]
  split
  · rename_i short
    constructor
    · intro stuck
      cases stuck
    · rintro ⟨long, -⟩
      omega
  · rename_i long
    cases repeatedSteps (filteredHistory history headlessMode)
        (filteredHistoryOffset history headlessMode) with
    | some analysis => simpa using Nat.le_of_not_lt long
    | none =>
      rw [Option.none_or]
      by_cases many : 10 ≤ (filteredHistory history headlessMode).length
      · rw [if_pos many]
        cases isStuckContextWindowError (filteredHistory history headlessMode)
            (filteredHistoryOffset history headlessMode) with
        | some analysis => simpa using ⟨by omega, many⟩
        | none => simp
      · rw [if_neg many]
        simp [many]

end

end ForgePilot.StuckDetector
