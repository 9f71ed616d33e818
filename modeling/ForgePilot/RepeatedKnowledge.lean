import ForgePilot.ConversationMemory

/-!
# Knowledge that is recalled again

A recall of knowledge leaves out what an earlier recall brought up, so that the messages are those of the history
without it.
-/

namespace ForgePilot.ConversationMemory

open Events

/-- An event without the knowledge that earlier recalls brought up. -/
def withoutRepeated (earlier : List Event) (event : Event) : Event :=
  match event.body with
  | .observation content (.recall findings) =>
      if findings.recallType = .knowledge then
        { event with
          body := .observation content (.recall { findings with
            microagentKnowledge := findings.microagentKnowledge.filter
              (fun agent => !hasAgentInEarlierEvents agent.name earlier) }) }
      else event
  | _ => event

def withoutRepeats : List Event → List Event → List Event
  | _, [] => []
  | earlier, event :: rest => withoutRepeated earlier event :: withoutRepeats (earlier ++ [event]) rest

variable {setup : Setup} {earlier others : List Event} {progress : Progress}

/-- The same knowledge has come up in two histories. -/
def SameKnowledge (first second : List Event) : Prop :=
  ∀ name, hasAgentInEarlierEvents name first = hasAgentInEarlierEvents name second

/-- What is left out had come up before. -/
theorem sameKnowledge_step (event : Event) (same : SameKnowledge others earlier) :
    SameKnowledge (others ++ [withoutRepeated earlier event]) (earlier ++ [event]) := by
  intro name
  have before := same name
  have appended (first second : List Event) : hasAgentInEarlierEvents name (first ++ second) =
      (hasAgentInEarlierEvents name first || hasAgentInEarlierEvents name second) := List.any_append
  rw [appended, appended, before]
  rw [withoutRepeated]
  split
  · rename_i content findings body
    split
    · cases known : hasAgentInEarlierEvents name earlier
      · have filtered : (findings.microagentKnowledge.filter
            (fun agent => !hasAgentInEarlierEvents agent.name earlier)).any (·.name = name) =
            findings.microagentKnowledge.any (·.name = name) := by
          rw [List.any_filter]
          congr 1
          funext agent
          by_cases named : agent.name = name <;> simp [named, known]
        simpa [hasAgentInEarlierEvents, body] using filtered
      · rfl
    · rfl
  · rfl

/-- An event is processed as if it repeated nothing. -/
theorem processEvent_withoutRepeated (event : Event) (same : SameKnowledge others earlier) :
    processEvent setup others (withoutRepeated earlier event) progress =
      processEvent setup earlier event progress := by
  have received : receive setup others (withoutRepeated earlier event) progress =
      receive setup earlier event progress := by
    obtain ⟨_, _, _, metadata, _, _, body⟩ := event
    cases body with
    | action | bare => rfl
    | observation content observed =>
      cases observed <;> try rfl
      rename_i findings
      cases kind : findings.recallType <;>
        simp [withoutRepeated, kind, receive, processObservation, observationContent, same _]
  rw [processEvent, processEvent, received]

theorem processAll_repeats (events : List Event) (same : SameKnowledge others earlier) :
    processAll setup others (withoutRepeats earlier events) progress =
      processAll setup earlier events progress := by
  induction events generalizing others earlier progress with
  | nil => rfl
  | cons event events ih =>
    rw [withoutRepeats, processAll, processAll, processEvent_withoutRepeated event same]
    cases processEvent setup earlier event progress with
    | error raised => rfl
    | ok next => exact ih (sameKnowledge_step event same)

/-- Knowledge that is recalled again never reaches the model again. -/
theorem repeated_knowledge_unseen (events : List Event) :
    processAll setup [] (withoutRepeats [] events) progress = processAll setup [] events progress :=
  processAll_repeats events fun _ => rfl

end ForgePilot.ConversationMemory
