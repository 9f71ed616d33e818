import ForgePilot.Condensers
import ForgePilot.Runs

/-!
# Rolling summaries over whole runs

A run appends events with fresh, increasing identifiers, and condenses when the
view has grown longer than the allowed size. The summary takes the place after
the kept head, the most recent events follow it, and the events between are
forgotten by the range their identifiers span.

The number of events to keep from the tail is negated to slice from the end. When
the head and the summary alone fill the target, that number is zero, the slice is
empty, and condensing raises. For all other accepted sizes every condensation of
every run succeeds and gives a view of exactly the target size.
-/

namespace ForgePilot.RollingSummaries

open Events Sequences Views Condensers Runs List

/-- What happens next: an event is added, or the view is condensed with an answer
of the model, under a new identifier. -/
inductive Turn (α : Type) where
  | append (event : Event)
  | condense (answer : α) (id : Int)

/-- The event that carries a condensation into the history. -/
def condensationEvent (action : CondensationAction) (id : Int) : Event :=
  { id, source := some .agent, body := .action (.condensation action) }

/-- Events other than the ones that condensing makes. -/
def ordinary (event : Event) : Bool :=
  event.condensation.isNone && !event.isAgentCondensation

/-- An identifier above all earlier ones. -/
def Fresh (history : List Event) (id : Int) : Prop :=
  0 ≤ id ∧ ∀ event ∈ history, event.id < id

section Condenser

variable {α : Type} (getCondensation : α → View → Except String CondensationAction)
  (text : α → String) (sizes : Sizes)

/-- The history after a turn; a condenser that raises adds nothing. -/
def step (history : List Event) : Turn α → List Event
  | .append event => history ++ [event]
  | .condense answer id =>
      match getCondensation answer (fromEvents history) with
      | .ok action => history ++ [condensationEvent action id]
      | .error _ => history

/-- Identifiers are fresh, new events are ordinary, and condensing happens because
the view is longer than allowed. -/
def Admissible (history : List Event) : Turn α → Prop
  | .append event => Fresh history event.id ∧ ordinary event = true
  | .condense _ id => Fresh history id ∧ sizes.maxSize < (fromEvents history).events.length

/-- Nothing is appended to a view that is longer than allowed. -/
def Prompt (history : List Event) : Turn α → Prop
  | .append _ => (fromEvents history).events.length ≤ sizes.maxSize
  | .condense _ _ => True

/-- Condensing succeeds; the next view has the target size, begins with the head
of the earlier view, continues with the new summary, and ends with the most
recent events of the earlier view. -/
def Rolled (history : List Event) : Turn α → Prop
  | .append _ => True
  | .condense answer id =>
      ∃ action, getCondensation answer (fromEvents history) = .ok action ∧
        let before := (fromEvents history).events
        let after := (fromEvents (history ++ [condensationEvent action id])).events
        after.length = sizes.maxSize / 2 ∧
          after.take sizes.keepFirst = before.take sizes.keepFirst ∧
          after[sizes.keepFirst]? = some (condensationObservation (text answer)) ∧
          after.drop (sizes.keepFirst + 1) =
            before.drop (before.length - (sizes.maxSize / 2 - sizes.keepFirst - 1))

/-- Every condensation of every admissible run rolls the view, and where nothing
is appended to an overlong view, no view is more than one event too long. -/
def KeepsBounded : Prop :=
  ∀ turns : List (Turn α), Along (step getCondensation) (Admissible sizes) [] turns →
    Along (step getCondensation) (Rolled getCondensation text sizes) [] turns ∧
      (Along (step getCondensation) (Prompt sizes) [] turns →
        ∀ history, Reached (step getCondensation) [] turns history →
          (fromEvents history).events.length ≤ sizes.maxSize + 1)

end Condenser

/-- What every history of an admissible run has. -/
structure Steady (sizes : Sizes) (history : List Event) : Prop where
  increasing : history.Pairwise (fun earlier later => earlier.id < later.id)
  bounded : ∀ id ∈ forgottenIn history, ∃ event ∈ history, id ≤ event.id
  unmasked : ∀ event ∈ history, event.isAgentCondensation = false
  summarised : ∀ summary offset, latestSummary history = some (summary, offset) →
    offset = sizes.keepFirst ∧ sizes.keepFirst ≤ (keptIn history).length

theorem steady_nil (sizes : Sizes) : Steady sizes [] :=
  ⟨List.Pairwise.nil, by simp [forgottenIn], by simp, by simp [latestSummary]⟩

variable {front block back : List Event}
  (increasing : (front ++ block ++ back).Pairwise (fun prior later => prior.id < later.id))
include increasing

/-- Of three parts in the order of their identifiers, a filter leaves the outer two
exactly when it tells them from the inner one. -/
theorem filter_parts_iff {keep : Event → Bool} :
    (front ++ block ++ back).filter keep = front ++ back ↔
      (∀ event ∈ front ++ back, keep event = true) ∧ ∀ event ∈ block, ¬keep event = true := by
  simp only [pairwise_append, mem_append] at increasing
  constructor
  · intro same
    have outer : ∀ event ∈ front ++ back, keep event = true := fun event listed =>
      of_mem_filter (same ▸ listed)
    refine ⟨outer, fun event listed kept => ?_⟩
    have moved : event ∈ front ++ back := by
      rw [← same]
      exact mem_filter.mpr ⟨by simp [listed], kept⟩
    rcases mem_append.mp moved with before | after
    · exact lt_irrefl _ (increasing.1.2.2 event before event listed)
    · exact lt_irrefl _ (increasing.2.2 event (.inr listed) event after)
  · rintro ⟨outer, inner⟩
    rw [filter_append, filter_append, filter_eq_nil_iff.mpr inner, append_nil,
      ← filter_append, filter_eq_self.mpr outer]

/-- Removing what lies in the span of a block of an increasing list removes
exactly the block. -/
theorem filter_span {first last : Int} (least : (block.map Event.id).min? = some first)
    (greatest : (block.map Event.id).max? = some last) :
    (front ++ block ++ back).filter (fun event => ¬(first ≤ event.id ∧ event.id ≤ last)) =
      front ++ back := by
  obtain ⟨firstMember, firstLeast⟩ := min?_eq_some_iff.mp least
  obtain ⟨lastMember, lastGreatest⟩ := max?_eq_some_iff.mp greatest
  obtain ⟨beginning, beginningMember, rfl⟩ := mem_map.mp firstMember
  obtain ⟨ending, endingMember, rfl⟩ := mem_map.mp lastMember
  refine (filter_parts_iff increasing).mpr ⟨fun event listed => ?_, fun event listed => ?_⟩
  · simp only [pairwise_append, mem_append] at increasing
    rw [decide_eq_true_eq]
    rcases mem_append.mp listed with before | after
    · have below := increasing.1.2.2 event before beginning beginningMember
      omega
    · have above := increasing.2.2 ending (.inr endingMember) event after
      omega
  · have low := firstLeast event.id (mem_map_of_mem listed)
    have high := lastGreatest event.id (mem_map_of_mem listed)
    simp [low, high]

omit increasing

variable {action : CondensationAction}

/-- A condensation takes what it forgets from the kept events. -/
theorem kept_condensed {history : List Event} {id : Int} (fresh : Fresh history id) :
    keptIn (history ++ [condensationEvent action id]) =
      (keptIn history).filter (fun event => event.id ∉ action.forgotten) := by
  have own : (condensationEvent action id).id ∈ forgottenBy (condensationEvent action id) := by
    simp [forgottenBy, condensationEvent]
  rw [kept_in_append, if_pos (.inr own), append_nil]
  refine filter_congr fun event member => ?_
  have older := fresh.2 event (mem_of_mem_filter member)
  have other : event.id ≠ id := by omega
  simp [forgottenBy, condensationEvent, other]

/-- The events behind a head and before a tail. -/
def between (head tail : Nat) (events : List Event) : List Event :=
  (events.take (events.length - tail)).drop head

/-- A head, a tail and the events between make up the whole. -/
theorem parts_append {head tail : Nat} {events : List Event} (short : head + tail ≤ events.length) :
    events.take head ++ between head tail events ++ events.drop (events.length - tail) = events := by
  have front : events.take head = (events.take (events.length - tail)).take head := by
    rw [take_take]
    congr 1
    omega
  rw [front, between, take_append_drop, take_append_drop]

/-- How many events a condensation keeps from the tail. -/
def tailSize (sizes : Sizes) : Nat := sizes.maxSize / 2 - sizes.keepFirst - 1

section Steady

variable {sizes : Sizes} {history : List Event} (steady : Steady sizes history)
include steady

/-- What is kept of a steady history has increasing identifiers. -/
theorem kept_increasing : (keptIn history).Pairwise (fun prior later => prior.id < later.id) :=
  steady.increasing.filter _

/-- Nothing kept of a steady history is a condensation observation. -/
theorem kept_unmasked (event : Event) (kept : event ∈ keptIn history) :
    event.isAgentCondensation = false :=
  steady.unmasked event (mem_of_mem_filter kept)

theorem fresh_increasing {event : Event} (fresh : Fresh history event.id) :
    (history ++ [event]).Pairwise (fun prior later => prior.id < later.id) := by
  rw [pairwise_append]
  refine ⟨steady.increasing, pairwise_singleton _ _, ?_⟩
  intro prior member later same
  rw [mem_singleton.mp same]
  exact fresh.2 prior member

/-- The view of a steady history is what is kept, with at most one summary after
the head. -/
theorem view_events : (fromEvents history).events = keptIn history ∨
      ∃ summary, sizes.keepFirst ≤ (keptIn history).length ∧ (fromEvents history).events =
          (keptIn history).take sizes.keepFirst ++
            condensationObservation summary :: (keptIn history).drop sizes.keepFirst := by
  cases latest : latestSummary history with
  | none =>
    left
    rw [fromEvents, latest, withSummary]
  | some found =>
    right
    obtain ⟨summary, offset⟩ := found
    obtain ⟨rfl, inside⟩ := steady.summarised summary offset latest
    refine ⟨summary, inside, ?_⟩
    rw [fromEvents, latest]
    exact insert_at_natural _ _ inside

/-- The summary adds at most one event to the kept ones. -/
theorem view_length_le : (keptIn history).length ≤ (fromEvents history).events.length ∧
      (fromEvents history).events.length ≤ (keptIn history).length + 1 := by
  rcases view_events steady with same | ⟨summary, inside, shape⟩
  · rw [same]
    omega
  · rw [shape, length_append, length_cons, length_take, length_drop]
    omega

/-- The view and the kept events have the same head. -/
theorem view_head : (fromEvents history).events.take sizes.keepFirst =
    (keptIn history).take sizes.keepFirst := by
  rcases view_events steady with same | ⟨summary, inside, shape⟩
  · rw [same]
  · have size := length_take_of_le inside
    rw [shape]
    exact take_left' size

/-- The view and the kept events have the same tails that leave out the place of
the summary. -/
theorem view_tail (count : Nat) (short : sizes.keepFirst + count ≤ (keptIn history).length) :
    (fromEvents history).events.drop ((fromEvents history).events.length - count) =
      (keptIn history).drop ((keptIn history).length - count) := by
  rcases view_events steady with same | ⟨summary, inside, shape⟩
  · rw [same]
  have size := length_take_of_le inside
  have length : (fromEvents history).events.length = (keptIn history).length + 1 := by
    rw [shape, length_append, length_cons, length_drop, size]
    omega
  have past : (keptIn history).length + 1 - count - sizes.keepFirst =
      (keptIn history).length - count - sizes.keepFirst + 1 := by omega
  have headGone : ((keptIn history).take sizes.keepFirst).drop
      ((keptIn history).length + 1 - count) = [] := by
    rw [drop_eq_nil_iff, size]
    omega
  have total : sizes.keepFirst + ((keptIn history).length - count - sizes.keepFirst) =
      (keptIn history).length - count := by omega
  rw [length, shape, drop_append, headGone, nil_append, size, past,
    drop_succ_cons, drop_drop, total]

/-- An overlong view leaves room for head and tail among the kept events. -/
theorem kept_room (long : sizes.maxSize < (fromEvents history).events.length) :
    sizes.keepFirst + tailSize sizes ≤ (keptIn history).length := by
  have lengths := view_length_le steady
  have accepted := sizes.accepted
  rw [tailSize]
  omega

variable (room : sizes.keepFirst + 1 < sizes.maxSize / 2)
include room

/-- In an overlong view, the events between head and tail that are no summary are
the kept events between head and tail. -/
theorem view_block (long : sizes.maxSize < (fromEvents history).events.length) :
    (slice (fromEvents history).events (some sizes.keepFirst)
        (some (-(tailSize sizes : Int)))).filter (fun event => !event.isAgentCondensation) =
      between sizes.keepFirst (tailSize sizes) (keptIn history) := by
  have positive : 0 < tailSize sizes := by
    rw [tailSize]
    omega
  have unmasked : (between sizes.keepFirst (tailSize sizes) (keptIn history)).filter
      (fun event => !event.isAgentCondensation) =
        between sizes.keepFirst (tailSize sizes) (keptIn history) := by
    rw [filter_eq_self]
    intro event member
    rw [kept_unmasked steady _ (mem_of_mem_take (mem_of_mem_drop member))]
    rfl
  rw [slice_middle _ (by omega) positive]
  rcases view_events steady with same | ⟨summary, inside, shape⟩
  · rw [same]
    exact unmasked
  have size := length_take_of_le inside
  have length : (fromEvents history).events.length = (keptIn history).length + 1 := by
    rw [shape, length_append, length_cons, length_drop, size]
    omega
  have small : tailSize sizes + sizes.keepFirst < sizes.maxSize := by
    rw [tailSize]
    omega
  have count : (keptIn history).length + 1 - tailSize sizes - sizes.keepFirst =
      (keptIn history).length - tailSize sizes - sizes.keepFirst + 1 := by omega
  -- the head is skipped, the summary is the first event of what remains
  rw [length, drop_take, shape, drop_left' size, count, take_succ_cons,
    filter_cons_of_neg (by simp [condensationObservation, Event.isAgentCondensation]),
    ← drop_take]
  exact unmasked

/-- An overlong view is condensed by forgetting the span of the kept events
between head and tail. -/
theorem summary_condensation_ok (long : sizes.maxSize < (fromEvents history).events.length)
    (summary : String) :
    ∃ action first last, summaryCondensation sizes (.ok summary) (fromEvents history) = .ok action ∧
        ((between sizes.keepFirst (tailSize sizes) (keptIn history)).map Event.id).min? = some first ∧
        ((between sizes.keepFirst (tailSize sizes) (keptIn history)).map Event.id).max? = some last ∧
        action.forgotten = idRange first last ∧ action.summary = some summary ∧
        action.summaryOffset = some (sizes.keepFirst : Int) := by
  have lengths := view_length_le steady
  have inside : sizes.keepFirst < (fromEvents history).events.length := by omega
  have headSize : (slice (fromEvents history).events none (some sizes.keepFirst)).length =
      sizes.keepFirst := by
    rw [slice_front]
    exact length_take_of_le inside.le
  have fromTail : ((sizes.maxSize / 2 : Nat) : Int) - sizes.keepFirst - 1 = tailSize sizes := by
    rw [tailSize]
    omega
  have filled : (between sizes.keepFirst (tailSize sizes) (keptIn history)).map Event.id ≠ [] := by
    rw [Ne, map_eq_nil_iff, between, drop_eq_nil_iff, length_take]
    omega
  obtain ⟨first, least⟩ := Option.isSome_iff_exists.mp (isSome_min?_of_ne_nil filled)
  obtain ⟨last, greatest⟩ := Option.isSome_iff_exists.mp (isSome_max?_of_ne_nil filled)
  obtain ⟨action, built, spanned, summarised, placed⟩ := forget_span_ok _ _ _ _ last least greatest
  refine ⟨action, first, last, ?_, least, greatest, spanned, summarised, placed⟩
  simp only [summaryCondensation, getElem?_eq_getElem inside, headSize, fromTail,
    view_block steady room long, bind, Except.bind]
  exact built

omit room

/-- What is kept after an overlong view was condensed: its head and its tail. -/
theorem kept_in_condensed {first last id : Int}
    (least : ((between sizes.keepFirst (tailSize sizes) (keptIn history)).map Event.id).min? =
      some first)
    (greatest : ((between sizes.keepFirst (tailSize sizes) (keptIn history)).map Event.id).max? =
      some last) (spanned : action.forgotten = idRange first last) (fresh : Fresh history id)
    (short : sizes.keepFirst + tailSize sizes ≤ (keptIn history).length) :
    keptIn (history ++ [condensationEvent action id]) = (keptIn history).take sizes.keepFirst ++
        (keptIn history).drop ((keptIn history).length - tailSize sizes) := by
  have increasing := kept_increasing steady
  rw [← parts_append short] at increasing
  rw [kept_condensed fresh, spanned]
  conv_lhs => rw [← parts_append short]
  simpa using filter_span increasing least greatest

include room in
/-- Condensing an overlong view keeps the history steady and leaves head, summary
and tail. -/
theorem condense_steady (long : sizes.maxSize < (fromEvents history).events.length)
    (summary : String) (id : Int) (fresh : Fresh history id) :
    ∃ action, summaryCondensation sizes (.ok summary) (fromEvents history) = .ok action ∧
      Steady sizes (history ++ [condensationEvent action id]) ∧
      (fromEvents (history ++ [condensationEvent action id])).events =
        (keptIn history).take sizes.keepFirst ++ condensationObservation summary ::
          (keptIn history).drop ((keptIn history).length - tailSize sizes) := by
  obtain ⟨action, first, last, succeeded, least, greatest, spanned, summarised, placed⟩ :=
    summary_condensation_ok steady room long summary
  have short := kept_room steady long
  have kept := kept_in_condensed steady least greatest spanned fresh short
  have size := length_take_of_le (Nat.le_of_add_right_le short)
  have latest : latestSummary (history ++ [condensationEvent action id]) =
      some (summary, (sizes.keepFirst : Int)) := by
    rw [latest_summary_append]
    simp [summaryOf, Event.condensation, condensationEvent, summarised, placed]
  obtain ⟨ending, endingMember, rfl⟩ := mem_map.mp (max?_eq_some_iff.mp greatest).1
  have endingKept : ending ∈ history :=
    mem_of_mem_filter (mem_of_mem_take (mem_of_mem_drop endingMember))
  refine ⟨action, succeeded, ⟨?_, ?_, ?_, ?_⟩, ?_⟩
  · exact fresh_increasing steady fresh
  · intro forgotten member
    rw [forgotten_in_append, mem_append] at member
    rcases member with before | now
    · obtain ⟨event, known, reached⟩ := steady.bounded forgotten before
      exact ⟨event, mem_append_left _ known, reached⟩
    simp only [forgottenIn, forgottenBy, condensationEvent, flatMap_cons,
      flatMap_nil, append_nil, spanned, mem_append, mem_id_range,
      mem_singleton] at now
    rcases now with ⟨_, high⟩ | rfl
    · exact ⟨ending, mem_append_left _ endingKept, high⟩
    · exact ⟨condensationEvent action forgotten, by simp, le_rfl⟩
  · exact forall_mem_append.mpr ⟨steady.unmasked, forall_mem_singleton.mpr rfl⟩
  · intro found offset same
    rw [latest] at same
    cases same
    refine ⟨rfl, ?_⟩
    rw [kept, length_append, size]
    omega
  · rw [fromEvents, latest, kept]
    refine (insert_at_natural _ _ ?_).trans ?_
    · rw [length_append, size]
      omega
    · rw [take_left' size, drop_left' size]

/-- Appending a fresh ordinary event keeps the history steady; the kept events
gain at most that event. -/
theorem append_steady {event : Event} (fresh : Fresh history event.id)
    (plain : ordinary event = true) :
    Steady sizes (history ++ [event]) ∧ keptIn history <+: keptIn (history ++ [event]) ∧
      (keptIn (history ++ [event])).length ≤ (keptIn history).length + 1 ∧
      latestSummary (history ++ [event]) = latestSummary history := by
  simp only [ordinary, Bool.and_eq_true, Option.isNone_iff_eq_none, Bool.not_eq_true'] at plain
  have forgets : ∀ id ∈ forgottenBy event, id = event.id := by
    intro id member
    rw [forgottenBy] at member
    split at member
    · rename_i action same
      simp [Event.condensation, same] at plain
    · exact mem_singleton.mp member
    · simp at member
  have unchanged : (keptIn history).filter (fun prior => prior.id ∉ forgottenBy event) =
      keptIn history := by
    rw [filter_eq_self]
    intro prior member
    have below := fresh.2 prior (mem_of_mem_filter member)
    have different : prior.id ∉ forgottenBy event := fun forgotten => by
      have same := forgets _ forgotten
      omega
    simpa using different
  have latest : latestSummary (history ++ [event]) = latestSummary history := by
    rw [latest_summary_append]
    simp [summaryOf, plain.1]
  have grown : keptIn (history ++ [event]) = keptIn history ++
      if event.id ∈ forgottenIn history ∨ event.id ∈ forgottenBy event then []
      else [event] := by
    rw [kept_in_append, unchanged]
  have before : keptIn history <+: keptIn (history ++ [event]) := by
    rw [grown]
    exact prefix_append _ _
  have count : (keptIn (history ++ [event])).length ≤ (keptIn history).length + 1 := by
    rw [grown, length_append]
    split <;> simp
  refine ⟨⟨?_, ?_, ?_, ?_⟩, before, count, latest⟩
  · exact fresh_increasing steady fresh
  · intro forgotten member
    rw [forgotten_in_append, mem_append] at member
    rcases member with prior | now
    · obtain ⟨known, present, reached⟩ := steady.bounded forgotten prior
      exact ⟨known, mem_append_left _ present, reached⟩
    · simp only [forgottenIn, flatMap_cons, flatMap_nil, append_nil] at now
      exact ⟨event, by simp, (forgets _ now).le⟩
  · exact forall_mem_append.mpr ⟨steady.unmasked, forall_mem_singleton.mpr plain.2⟩
  · intro summary offset found
    obtain ⟨same, inside⟩ := steady.summarised summary offset (latest ▸ found)
    exact ⟨same, inside.trans before.length_le⟩

end Steady

section Runs

variable {α : Type} {getCondensation : α → View → Except String CondensationAction}
  {text : α → String} {sizes : Sizes}

section

variable (condenses : ∀ answer view, getCondensation answer view =
  summaryCondensation sizes (.ok (text answer)) view)
include condenses

section

variable (room : sizes.keepFirst + 1 < sizes.maxSize / 2)
include room

variable (history : List Event)

theorem condense_rolled {turn : Turn α} (steady : Steady sizes history)
    (admissible : Admissible sizes history turn) :
    Rolled getCondensation text sizes history turn := by
  cases turn with
  | append event => exact trivial
  | condense answer id =>
    obtain ⟨fresh, long⟩ := admissible
    obtain ⟨action, succeeded, _, shape⟩ := condense_steady steady room long _ id fresh
    have short := kept_room steady long
    have size := length_take_of_le (Nat.le_of_add_right_le short)
    have filled : tailSize sizes = sizes.maxSize / 2 - sizes.keepFirst - 1 := rfl
    refine ⟨action, (condenses answer _).trans succeeded, ?_, ?_, ?_, ?_⟩
    · rw [shape, length_append, length_cons, length_drop, size]
      omega
    · rw [shape, view_head steady]
      exact take_left' size
    · rw [shape, getElem?_append_right size.le, size, Nat.sub_self]
      rfl
    · rw [shape, ← filled, view_tail steady _ short, ← drop_drop, drop_left' size]
      rfl

/-- Steadiness survives every admissible turn. -/
theorem step_steady (turn : Turn α) (steady : Steady sizes history)
    (admissible : Admissible sizes history turn) :
    Steady sizes (step getCondensation history turn) := by
  cases turn with
  | append event => exact (append_steady steady admissible.1 admissible.2).1
  | condense answer id =>
    obtain ⟨action, succeeded, next, _⟩ :=
      condense_steady steady room admissible.2 _ id admissible.1
    rw [step, condenses, succeeded]
    exact next

/-- A view is at most one event too long, if nothing is appended to an overlong
one. -/
theorem step_length (turn : Turn α) (steady : Steady sizes history)
    (admissible : Admissible sizes history turn) (prompt : Prompt sizes history turn) :
    (fromEvents (step getCondensation history turn)).events.length ≤ sizes.maxSize + 1 := by
  cases turn with
  | append event =>
    obtain ⟨next, _, count, latest⟩ := append_steady steady admissible.1 admissible.2
    have within : (fromEvents history).events.length ≤ sizes.maxSize := prompt
    have same : (fromEvents (history ++ [event])).events.length ≤
        (fromEvents history).events.length + 1 := by
      simp only [fromEvents, latest]
      cases latestSummary history with
      | none => exact count
      | some found =>
        simp only [withSummary, insertAt, length_append, length_cons,
          length_take, length_drop]
        omega
    exact same.trans (Nat.succ_le_succ within)
  | condense answer id =>
    obtain ⟨action, succeeded, size, _⟩ := condense_rolled condenses room _ steady admissible
    rw [step, succeeded]
    simp only [size]
    omega

/-- With room for at least one event of the tail, all runs stay bounded. -/
theorem keeps_bounded : KeepsBounded getCondensation text sizes := by
  intro turns admissible
  constructor
  · exact along_of_invariant _ _ _ _ (step_steady condenses room)
      (condense_rolled condenses room) [] _ (steady_nil _) admissible
  · intro prompt
    have both := (along_and ..).mpr
      ⟨admissible, prompt⟩
    have invariant := invariant_along _
      (fun history turn => Admissible sizes history turn ∧ Prompt sizes history turn)
      (fun history => Steady sizes history ∧ (fromEvents history).events.length ≤ sizes.maxSize + 1)
      (fun history turn holds guarded =>
        ⟨step_steady condenses room _ _ holds.1 guarded.1,
          step_length condenses room _ _ holds.1 guarded.1 guarded.2⟩)
      [] _ ⟨steady_nil _, Nat.zero_le _⟩ both
    intro history reached
    exact (invariant history reached).2

end

end

/-- A message with the given identifier. -/
def plainMessage (id : Nat) : Event :=
  { id, source := some .user, body := .action (.message "continue" none false) }

/-- The history that holds only messages. -/
def plainHistory (count : Nat) : List Event := (List.range count).map plainMessage

/-- Appending that many messages, one after another. -/
def plainTurns (count : Nat) : List (Turn α) :=
  (List.range count).map (fun id => .append (plainMessage id))

/-- Nothing is forgotten or summarised in a history of messages. -/
theorem view_plain (count : Nat) :
    (fromEvents (plainHistory count)).events = plainHistory count := by
  have nothing : forgottenIn (plainHistory count) = [] := by
    simp [forgottenIn, plainHistory, plainMessage, forgottenBy]
  have none : latestSummary (plainHistory count) = none := by
    simp [latestSummary, plainHistory, plainMessage, summaryOf, Event.condensation]
  rw [fromEvents, none, withSummary, keptIn, nothing]
  simp

/-- The messages are fresh, and appending them gives their history. -/
theorem plain_turns_admissible (count : Nat) :
    Along (step getCondensation) (Admissible sizes) [] (plainTurns count) ∧
      run (step getCondensation) [] (plainTurns count) = plainHistory count := by
  induction count with
  | zero => exact ⟨trivial, rfl⟩
  | succ count ih =>
    obtain ⟨admissible, reached⟩ := ih
    have turns : (plainTurns (count + 1) : List (Turn α)) =
        plainTurns count ++ [.append (plainMessage count)] := by
      simp [plainTurns, range_succ]
    have history : plainHistory (count + 1) = plainHistory count ++ [plainMessage count] := by
      simp [plainHistory, range_succ]
    have fresh : Fresh (plainHistory count) (plainMessage count).id := by
      refine ⟨Int.natCast_nonneg count, ?_⟩
      intro event member
      obtain ⟨id, below, rfl⟩ := mem_map.mp member
      have less := mem_range.mp below
      simp only [plainMessage]
      omega
    rw [turns, along_append, run_append, reached, history]
    exact ⟨⟨admissible, ⟨fresh, rfl⟩, trivial⟩, rfl⟩

/-- When head and summary fill the target, condensing messages raises. -/
theorem full_head_raises (full : sizes.maxSize / 2 = sizes.keepFirst + 1) (summary : String)
    (count : Nat) (long : sizes.maxSize < count) :
    summaryCondensation sizes (.ok summary) (fromEvents (plainHistory count)) =
      .error "min() iterable argument is empty" := by
  have length : (plainHistory count).length = count := by simp [plainHistory]
  have inside : sizes.keepFirst < (plainHistory count).length := by omega
  have headSize : (slice (plainHistory count) none (some sizes.keepFirst)).length =
      sizes.keepFirst := by
    rw [slice_front, length_take]
    omega
  have zero : -(((sizes.maxSize / 2 : Nat) : Int) - sizes.keepFirst - 1) = 0 := by omega
  simp only [summaryCondensation, view_plain, getElem?_eq_getElem inside, headSize, zero,
    slice_to_zero]
  rfl

/-- The runs of a summarising condenser stay bounded exactly when the target has
room for an event of the tail. -/
theorem keeps_bounded_iff (answer : α) (condenses : ∀ answer view, getCondensation answer view =
      summaryCondensation sizes (.ok (text answer)) view) :
    KeepsBounded getCondensation text sizes ↔ sizes.keepFirst + 1 < sizes.maxSize / 2 := by
  constructor
  · intro keeps
    have accepted := sizes.accepted
    by_contra crowded
    have full : sizes.maxSize / 2 = sizes.keepFirst + 1 := by omega
    let count := sizes.maxSize + 1
    obtain ⟨admissible, reached⟩ := @plain_turns_admissible α getCondensation sizes count
    have long : sizes.maxSize < (fromEvents (plainHistory count)).events.length := by
      rw [view_plain]
      simp [plainHistory, count]
    have fresh : Fresh (plainHistory count) (count : Int) := by
      refine ⟨Int.natCast_nonneg count, ?_⟩
      intro event member
      obtain ⟨id, below, rfl⟩ := mem_map.mp member
      have less := mem_range.mp below
      simp only [plainMessage]
      omega
    have rolled := (keeps (plainTurns count ++ [.condense answer count]) (by
      rw [along_append, reached]
      exact ⟨admissible, ⟨fresh, long⟩, trivial⟩)).1
    rw [along_append, reached] at rolled
    obtain ⟨action, succeeded, _⟩ := rolled.2.1
    rw [condenses, full_head_raises full _ _ (Nat.lt_succ_self _)] at succeeded
    cases succeeded
  · exact keeps_bounded condenses

end Runs

/-- Sizes that the constructors accept, with a head that fills all but one place
of the target. -/
def fullHead : Sizes := ⟨4, 1, by decide⟩

end ForgePilot.RollingSummaries
