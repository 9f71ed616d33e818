import ForgePilot.ConversationMemory
import ForgePilot.LoopRecovery
import ForgePilot.Views

/-!
# The view that a state keeps

A state keeps the view of its history together with the length of the history that the view was made from, and
makes a new one when the length has changed. The list of the view is handed out, and building messages puts
events into it that the history does not have.
-/

namespace ForgePilot.CachedViews

open ConversationMemory Events LoopRecovery Runs StateTrackers Views

/-- A view with the length it was made for. The history it was made from is remembered for the proofs; nothing
reads it. -/
structure Kept where
  historyChecksum : Nat
  view : View
  viewed : List Event

structure Holder where
  state : State
  kept : Option Kept := none

/-- Make the view of the history and keep it. -/
def renewed (holder : Holder) : Holder where
  state := holder.state
  kept := some
    { historyChecksum := holder.state.history.length
      view := fromEvents holder.state.history
      viewed := holder.state.history }

def view (holder : Holder) : View × Holder :=
  match holder.kept with
  | some kept =>
      if holder.state.history.length ≠ kept.historyChecksum then
        (fromEvents holder.state.history, renewed holder)
      else (kept.view, holder)
  | none => (fromEvents holder.state.history, renewed holder)

inductive Operation where
  | addHistory (event : Event)
  | truncateMemoryToPoint (recoveryPoint : Nat)
  | initHistory (stream : EventStream)
  | close (stream : EventStream)
  | view
  | processEvents (setup : Setup) (initialUserAction : Event) (forgottenEventIds : List Int)

/-- Building messages from a view puts what is missing into the list of the view. -/
def ensureView (setup : Setup) (initialUserAction : Event) (forgottenEventIds : List Int) (kept : Kept) : Kept :=
  { kept with
    view :=
      { kept.view with
        events := ensuredEvents setup kept.view.events initialUserAction forgottenEventIds } }

def perform (holder : Holder) : Operation → Holder
  | .addHistory event => { holder with state := addHistory holder.state event }
  | .truncateMemoryToPoint recoveryPoint =>
      { holder with state := truncateMemoryToPoint holder.state recoveryPoint }
  | .initHistory stream => { holder with state := initHistory stream holder.state }
  | .close stream => { holder with state := close stream holder.state }
  | .view => (view holder).2
  | .processEvents setup initialUserAction forgottenEventIds =>
      { holder with kept := holder.kept.map (ensureView setup initialUserAction forgottenEventIds) }

/-- Nothing is missing in a list of events: it has a system message, unless there is none to add, and its
second event is a message of the user, unless the first message was forgotten. -/
def NothingMissing (setup : Setup) (events : List Event) (initialUserAction : Event)
    (forgottenEventIds : List Int) : Prop :=
  (events.any Event.isSystemMessage = true ∨ setup.prompts.getSystemMessage setup.cliMode = "") ∧
    (events = [] ∨ initialUserAction.id ∈ forgottenEventIds ∨
      ∃ first second rest, events = first :: second :: rest ∧ second.isUserMessage = true)

/-- An operation that keeps the view fresh: it leaves no other history of the length that was viewed, and puts
nothing into the list of the view. -/
def Harmless (holder : Holder) : Operation → Prop
  | .view => True
  | .processEvents setup initialUserAction forgottenEventIds =>
      ∀ kept ∈ holder.kept,
        NothingMissing setup kept.view.events initialUserAction forgottenEventIds
  | operation =>
      ∀ kept ∈ holder.kept,
        (perform holder operation).state.history.length = kept.historyChecksum →
          (perform holder operation).state.history = kept.viewed

/-- The view that is kept is the view of a history, and no other history of its length is at hand. -/
structure Fresh (holder : Holder) (kept : Kept) : Prop where
  made : kept.view = fromEvents kept.viewed
  length : kept.historyChecksum = kept.viewed.length
  only : holder.state.history.length = kept.historyChecksum → holder.state.history = kept.viewed

/-! ## What is missing -/

theorem ensureInitial_unchanged (events : List Event) (initialUserAction : Event)
    (forgottenEventIds : List Int) :
    ensureInitialUserMessage events initialUserAction forgottenEventIds = events ↔
      events = [] ∨ initialUserAction.id ∈ forgottenEventIds ∨
        ∃ first second rest, events = first :: second :: rest ∧ second.isUserMessage = true := by
  cases events with
  | nil => simp [ensureInitialUserMessage]
  | cons first rest =>
    by_cases forgotten : initialUserAction.id ∈ forgottenEventIds
    · simp [ensureInitialUserMessage, forgotten]
    cases rest with
    | nil => simp [ensureInitialUserMessage, forgotten]
    | cons second others =>
      cases user : second.isUserMessage with
      | true => simp [ensureInitialUserMessage, user]
      | false =>
        refine iff_of_false ?_ ?_
        · intro unchanged
          have lengths := congrArg List.length unchanged
          simp [ensureInitialUserMessage, forgotten, user] at lengths
        · simp [forgotten, user]

theorem ensured_unchanged {setup : Setup} {events : List Event} {initialUserAction : Event}
    {forgottenEventIds : List Int}
    (nothing : NothingMissing setup events initialUserAction forgottenEventIds) :
    ensuredEvents setup events initialUserAction forgottenEventIds = events := by
  obtain ⟨system, initial⟩ := nothing
  rw [ensuredEvents, ensureSystemMessage, if_pos system]
  exact (ensureInitial_unchanged ..).mpr initial

/-! ## One operation -/

theorem renewed_fresh (holder : Holder) : ∀ kept ∈ (renewed holder).kept, Fresh (renewed holder) kept := by
  intro kept present
  cases present
  exact ⟨rfl, rfl, fun _ => rfl⟩

theorem perform_fresh (holder : Holder) (op : Operation) (fresh : ∀ kept ∈ holder.kept, Fresh holder kept)
    (harmless : Harmless holder op) :
    ∀ kept ∈ (perform holder op).kept, Fresh (perform holder op) kept := by
  cases op with
  | addHistory event =>
    intro kept present
    exact ⟨(fresh kept present).made, (fresh kept present).length, harmless kept present⟩
  | truncateMemoryToPoint recoveryPoint =>
    intro kept present
    exact ⟨(fresh kept present).made, (fresh kept present).length, harmless kept present⟩
  | initHistory stream =>
    intro kept present
    exact ⟨(fresh kept present).made, (fresh kept present).length, harmless kept present⟩
  | close stream =>
    intro kept present
    exact ⟨(fresh kept present).made, (fresh kept present).length, harmless kept present⟩
  | view =>
    rw [perform, view]
    cases present : holder.kept with
    | none => exact renewed_fresh _
    | some before =>
      simp only
      split
      · exact renewed_fresh _
      · exact fresh
  | processEvents setup initialUserAction forgottenEventIds =>
    intro kept present
    obtain ⟨before, wasPresent, rfl⟩ := Option.map_eq_some_iff.mp present
    obtain ⟨made, length, only⟩ := fresh before wasPresent
    have same := ensured_unchanged
      (harmless before wasPresent)
    refine ⟨?_, length, only⟩
    simp only [ensureView, same]
    exact made

theorem view_fresh (holder : Holder) (fresh : ∀ kept ∈ holder.kept, Fresh holder kept) :
    (view holder).1 = fromEvents holder.state.history := by
  cases present : holder.kept with
  | none => rw [view, present]
  | some kept =>
    obtain ⟨made, -, only⟩ := fresh kept present
    rw [view, present]
    simp only
    split
    · rfl
    · rename_i same
      rw [only (Decidable.not_not.mp same)]
      exact made

/-! ## All runs -/

/-- In every run of harmless operations, the view that is read is the view of the history. -/
theorem view_of_history (start : Holder) (nothing : start.kept = none) (operations : List Operation)
    (harmless : Along perform Harmless start operations) (holder : Holder)
    (reached : Reached perform start operations holder) :
    (view holder).1 = fromEvents holder.state.history := by
  refine view_fresh _ (invariant_along _ _ (fun holder => ∀ kept ∈ holder.kept, Fresh holder kept)
    perform_fresh _ _ ?_ harmless _ reached)
  intro kept present
  rw [nothing] at present
  cases present

/-! ## A history that grows back to its length -/

def command (id : Int) : Event where
  id
  body := .action (.cmdRun "ls" "" false)

def worked : Holder where
  state := { history := [command 0, command 1] }

theorem worked_view : (view (run perform worked [.view, .addHistory (command 2)])).1 =
    fromEvents (run perform worked [.view, .addHistory (command 2)]).state.history := by
  refine view_of_history worked rfl [.view, .addHistory (command 2)] ⟨trivial, ?_, trivial⟩ _
    (reached_run ..)
  intro kept present longer
  cases present
  cases longer

/-- After the history was cut and went on, the view is that of the events that were cut. -/
theorem cut_view_stale :
    ¬ ∀ (start : Holder) (operations : List Operation) (holder : Holder), start.kept = none →
      Reached perform start operations holder → (view holder).1 = fromEvents holder.state.history := by
  intro claimed
  have read := claimed worked [.view, .truncateMemoryToPoint 1, .addHistory (command 2)] _ rfl
    (reached_run ..)
  have ids := congrArg (fun view : View => view.events.map Event.id) read
  cases ids

end ForgePilot.CachedViews
