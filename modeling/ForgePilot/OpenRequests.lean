import ForgePilot.RollingSummaries

/-!
# Open condensation requests

A request opens the way into `get_condensation` for a view of any length. What a
short view has between the kept head and the kept tail may be nothing at all, and
then there is no least identifier to forget, or not even an event behind the head.
-/

namespace ForgePilot.RollingSummaries

open Events Sequences Views Condensers List

/-- The condensers that keep a head of the view and a tail. -/
inductive Rolling where
  | amortizedForgetting
  | llmSummarizing
  | structuredSummary

def Rolling.condenser (kind : Rolling) (sizes : Sizes) : Condenser :=
  match kind with
  | .amortizedForgetting => .amortizedForgetting sizes
  | .llmSummarizing => .llmSummarizing sizes
  | .structuredSummary => .structuredSummary sizes

/-- Something can be forgotten: for the plain condenser an event with an identifier
of its own between head and tail, for the others an event there that is no summary,
and room for a tail. -/
def Rolling.Servable (kind : Rolling) (sizes : Sizes) (events : List Event) : Prop :=
  match kind with
  | .amortizedForgetting =>
    let tail := sizes.maxSize / 2 - sizes.keepFirst
    ∃ event ∈ between sizes.keepFirst tail events,
      ∀ kept ∈ events.take sizes.keepFirst ++ events.drop (events.length - tail),
        kept.id ≠ event.id
  | _ =>
    0 < tailSize sizes ∧
      ∃ event ∈ between sizes.keepFirst (tailSize sizes) events, event.isAgentCondensation = false

theorem request_closed (history : List Event) (action : CondensationAction) (id : Int) :
    (fromEvents (history ++ [condensationEvent action id])).unhandledCondensationRequest =
      false := by
  simp [fromEvents, requestOpen, condensationEvent, Event.condensation]

/-- A span can be forgotten as soon as there is an identifier in it. -/
theorem forget_span_iff (ids : List Int) {summary : Option String} {summaryOffset : Option Int}
    (paired : summary.isSome = summaryOffset.isSome) :
    (∃ action, forgetSpan ids summary summaryOffset = .ok action) ↔ ids ≠ [] := by
  cases ids with
  | nil => exact iff_of_false (fun ⟨_, forgotten⟩ => nomatch forgotten) (not_not_intro rfl)
  | cons id ids =>
    refine iff_of_true ?_ (cons_ne_nil _ _)
    rw [forgetSpan, min?_cons', max?_cons']
    exact ⟨_, dif_pos (by simp [CondensationFields.validateFieldPolymorphism, paired])⟩

section Parts

variable {events : List Event} {sizes : Sizes}

/-- A slice that starts a positive number of events before the end is a tail. -/
theorem slice_tail (events : List Event) {back : Nat} (positive : 0 < back) :
    slice events (some (-(back : Int))) none = events.drop (events.length - back) := by
  simp only [slice, Option.elim_some, Option.elim_none, take_length]
  rw [place_negative _ _ positive]

variable {head tail : Nat} {event : Event} (listed : event ∈ between head tail events)
include listed

theorem between_long : head + tail < events.length := by
  have filled := length_pos_of_mem listed
  rw [between, length_drop, length_take] at filled
  omega

theorem mem_between : event ∈ events :=
  mem_of_mem_take (mem_of_mem_drop listed)

omit listed

/-- An event is in the head, in the tail or between them. -/
theorem mem_parts (head tail : Nat) (listed : event ∈ events) :
    event ∈ events.take head ++ events.drop (events.length - tail) ∨
      event ∈ between head tail events := by
  rw [← take_append_drop (events.length - tail) events, mem_append] at listed
  rcases listed with front | back
  · rw [← take_append_drop head (events.take _), mem_append, take_take] at front
    rcases front with first | middle
    · exact Or.inl (mem_append_left _ (take_subset_take_left _ (Nat.min_le_left _ _) first))
    · exact Or.inr middle
  · exact Or.inl (mem_append_right _ back)

/-- Identifiers are left to forget where an event shares its own with none kept. -/
theorem ids_left_iff (kept : List Event) :
    (events.map Event.id).filter (fun id => id ∉ kept.map Event.id) ≠ [] ↔
      ∃ event ∈ events, ∀ other ∈ kept, other.id ≠ event.id := by
  simp [filter_eq_nil_iff]

/-- The plain condenser answers exactly when some event has an identifier that is
not kept. -/
theorem amortized_iff (view : View) :
    (∃ action, amortizedForgettingCondensation sizes view = .ok action) ↔
      Rolling.amortizedForgetting.Servable sizes view.events := by
  have accepted := sizes.accepted
  simp only [amortizedForgettingCondensation, slice_front, length_take, Rolling.Servable]
  rw [forget_span_iff _ rfl, ids_left_iff]
  by_cases short : view.events.length ≤ sizes.keepFirst
  · rw [take_of_length_le short]
    refine iff_of_false ?_ ?_
    · rintro ⟨event, listed, apart⟩
      exact apart event (mem_append_left _ listed) rfl
    · rintro ⟨event, listed, -⟩
      have long := between_long listed
      omega
  · have back : ((sizes.maxSize / 2 : Nat) : Int) - (min sizes.keepFirst view.events.length : Nat) =
        (sizes.maxSize / 2 - sizes.keepFirst : Nat) := by omega
    rw [back, slice_tail _ (by omega)]
    constructor
    · rintro ⟨event, listed, apart⟩
      refine ⟨event, (mem_parts _ _ listed).resolve_left fun kept => ?_, apart⟩
      exact apart event kept rfl
    · rintro ⟨event, listed, apart⟩
      exact ⟨event, mem_between listed, apart⟩

/-- The summarising condensers answer exactly when there is an event to summarise. -/
theorem summary_iff (answer : String) (view : View) :
    (∃ action, summaryCondensation sizes (.ok answer) view = .ok action) ↔
      Rolling.llmSummarizing.Servable sizes view.events := by
  have accepted := sizes.accepted
  simp only [summaryCondensation, slice_front, length_take, Rolling.Servable]
  by_cases short : view.events.length ≤ sizes.keepFirst
  · rw [getElem?_eq_none short]
    refine iff_of_false (by rintro ⟨_, ⟨⟩⟩) ?_
    rintro ⟨-, event, listed, -⟩
    have long := between_long listed
    omega
  · have back : ((sizes.maxSize / 2 : Nat) : Int) - (min sizes.keepFirst view.events.length : Nat) - 1 =
        tailSize sizes := by rw [tailSize]; omega
    rw [getElem?_eq_getElem (not_le.mp short), back]
    refine (forget_span_iff _ rfl).trans ?_
    rw [ne_eq, map_eq_nil_iff]
    rcases Nat.eq_zero_or_pos (tailSize sizes) with none | some
    · rw [none, Int.natCast_zero, Int.neg_zero, slice_to_zero]
      exact iff_of_false (not_not_intro rfl) fun servable => absurd servable.1 (lt_irrefl 0)
    · rw [slice_middle _ (Nat.le_of_not_le short) some, ← between]
      simp [filter_eq_nil_iff, some]

end Parts

theorem rolls_iff {condensation : Except String CondensationAction} {view : View} :
    (∃ action, roll true condensation view = .ok (.condensation action)) ↔
      ∃ action, condensation = .ok action := by
  cases condensation with
  | error message => exact iff_of_false (by rintro ⟨_, ⟨⟩⟩) (by rintro ⟨_, ⟨⟩⟩)
  | ok action => exact iff_of_true ⟨action, rfl⟩ ⟨action, rfl⟩

def requestEvent (id : Int) : Event :=
  { id, source := some .agent, body := .action .condensationRequest }

def answering : Model := ⟨fun _ => .ok "so far", fun _ => .ok none, fun _ => .ok []⟩

/-- A view with one message, in which a condensation is requested. -/
def earlyRequest : List Event := [plainMessage 0, requestEvent 1]

def usualSizes : Sizes := ⟨100, 1, by decide⟩

end ForgePilot.RollingSummaries
