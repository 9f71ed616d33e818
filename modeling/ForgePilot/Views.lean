import ForgePilot.Events
import ForgePilot.Sequences

/-!
# Views of a history

A view is what the model gets to see of a history: the events no condensation
has forgotten, with the latest summary at its offset. It also remembers which
identifiers were forgotten and whether a request for a condensation is still
open. A view is always rebuilt from the whole history.
-/

namespace ForgePilot.Views

open Events Sequences List

/-- The events a model sees, with the bookkeeping of condensations. The forgotten
identifiers are a set; only membership matters. -/
structure View where
  events : List Event
  unhandledCondensationRequest : Bool := false
  forgottenEventIds : List Int := []

/-- The identifiers that one event of the history adds to the forgotten ones. -/
def forgottenBy (event : Event) : List Int :=
  match event.body with
  | .action (.condensation action) => action.forgotten ++ [event.id]
  | .action .condensationRequest => [event.id]
  | _ => []

/-- The identifiers forgotten in a history. -/
def forgottenIn (events : List Event) : List Int := events.flatMap forgottenBy

/-- The events of a history that are not forgotten. -/
def keptIn (events : List Event) : List Event :=
  events.filter (fun event => event.id ∉ forgottenIn events)

/-- The summary an event of the history brings, with its offset. -/
def summaryOf (event : Event) : Option (String × Int) :=
  match event.condensation with
  | some action =>
      match action.summary, action.summaryOffset with
      | some summary, some offset => some (summary, offset)
      | _, _ => none
  | none => none

def latestSummary (events : List Event) : Option (String × Int) :=
  events.reverse.findSome? summaryOf

/-- An observation that was put in place of condensed events; it never entered a
stream. -/
def condensationObservation (content : String) : Event :=
  { body := .observation content .agentCondensation }

/-- Whether the latest condensation or request, read from the end, is a request. -/
def requestOpen : List Event → Bool
  | [] => false
  | event :: earlier =>
      if event.condensation.isSome then false
      else if event.isCondensationRequest then true
      else requestOpen earlier

/-- Put the latest summary at its offset. -/
def withSummary (kept : List Event) : Option (String × Int) → List Event
  | some (summary, offset) => insertAt kept offset (condensationObservation summary)
  | none => kept

def fromEvents (events : List Event) : View where
  events := withSummary (keptIn events) (latestSummary events)
  unhandledCondensationRequest := requestOpen events.reverse
  forgottenEventIds := forgottenIn events

theorem forgotten_in_append (earlier later : List Event) :
    forgottenIn (earlier ++ later) = forgottenIn earlier ++ forgottenIn later := by
  simp [forgottenIn]

variable (events : List Event) (event : Event)

theorem kept_in_append :
    keptIn (events ++ [event]) =
      (keptIn events).filter (fun earlier => earlier.id ∉ forgottenBy event) ++
        if event.id ∈ forgottenIn events ∨ event.id ∈ forgottenBy event then [] else [event] := by
  have one : forgottenIn [event] = forgottenBy event := by simp [forgottenIn]
  simp only [keptIn, forgotten_in_append, one, filter_append, filter_filter,
    mem_append, not_or, Bool.decide_and]
  congr 1
  · simp only [Bool.and_comm]
  · by_cases forgotten : event.id ∈ forgottenIn events ∨ event.id ∈ forgottenBy event
    · rw [if_pos forgotten, filter_cons_of_neg, filter_nil]
      simpa using fun kept => forgotten.resolve_left kept
    · rw [if_neg forgotten, filter_cons_of_pos, filter_nil]
      simpa using forgotten

/-- The summary after one more event is its own or the earlier one. -/
theorem latest_summary_append :
    latestSummary (events ++ [event]) = (summaryOf event).or (latestSummary events) := by
  rw [latestSummary, reverse_append, reverse_singleton, singleton_append,
    findSome?_cons, latestSummary]
  cases summaryOf event <;> rfl

end ForgePilot.Views
