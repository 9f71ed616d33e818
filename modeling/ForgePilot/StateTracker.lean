import ForgePilot.Brackets
import ForgePilot.Events
import Mathlib.Data.List.Sort

/-!
# History of an agent, read from the event stream

A state keeps the range of its events and the history itself. When a session is
restored, the history is read from the stream again: the events of the range that
pass the filter, without what lies between a delegate action and its observation.
When a session is closed, the history is read once more, with delegates.

Restoring goes wrong when delegations were completed. The loop over the ranges of
delegations uses the names of the bounds of the whole range, so the start of the
last delegation is written back as the start of the history. And a delegation
inside another one is replayed after it.

Events are stored one by one with increasing identifiers; how a stream reads them
from pages is the subject of `EventPages`.
-/

namespace ForgePilot.StateTrackers

open Events Brackets List

/-- Events in the order of their identifiers. -/
def Increasing (events : List Event) : Prop :=
  events.Pairwise (fun first second => first.id < second.id)

/-- The events of a conversation and the identifier of the next one. -/
structure EventStream where
  events : List Event
  curId : Int
  natural : 0 ≤ curId
  increasing : Increasing events
  inside : ∀ event ∈ events, 0 ≤ event.id ∧ event.id < curId

def EventStream.getLatestEventId (stream : EventStream) : Int := stream.curId - 1

def agentHistoryFilter (event : Event) : Bool :=
  match event.body with
  | .action .null | .observation _ .null | .action (.changeAgentState _)
  | .observation _ (.agentStateChanged _ _) => false
  | _ => !event.hidden

/-- The events of a range that belong to the history. -/
def EventStream.searchEvents (stream : EventStream) (startId endId : Int) : List Event :=
  stream.events.filter (fun event =>
    startId ≤ event.id ∧ event.id ≤ endId ∧ agentHistoryFilter event)

/-- The part of an agent's state that concerns its history. -/
structure State where
  startId : Int := -1
  endId : Int := -1
  history : List Event := []

/-- Where the range of a state starts. -/
def State.first (state : State) : Int := if 0 ≤ state.startId then state.startId else 0

/-- Where the range of a state ends. -/
def State.last (state : State) (stream : EventStream) : Int :=
  if 0 ≤ state.endId then state.endId else stream.getLatestEventId

/-- Delegate actions open a delegation, delegate observations close it. -/
def delegateKind (event : Event) : Kind :=
  match event.body with
  | .action (.agentDelegate _ _ _) => .opening
  | .observation _ (.agentDelegate _) => .closing
  | _ => .neither

/-- The ranges of completed delegations. -/
def delegateRanges (events : List Event) : List (Int × Int) :=
  (matchedPairs delegateKind events).map (fun pair => (pair.1.id, pair.2.id))

def rangeLe (first second : Int × Int) : Prop :=
  first.1 < second.1 ∨ first.1 = second.1 ∧ first.2 ≤ second.2

instance : DecidableRel rangeLe := fun first second =>
  inferInstanceAs (Decidable (first.1 < second.1 ∨ first.1 = second.1 ∧ first.2 ≤ second.2))

instance : Std.Total rangeLe := ⟨fun first second => by
  unfold rangeLe
  omega⟩

instance : IsTrans (Int × Int) rangeLe := ⟨fun first second third => by
  unfold rangeLe
  omega⟩

/-- Replay the ranges in order: what comes before a range from the current index
on, the action and the observation of the range, and at last what is left. -/
def replayRanges (events : List Event) : Nat → List (Int × Int) → List Event
  | currentIdx, [] => events.drop currentIdx
  | currentIdx, (startId, endId) :: rest =>
      (events.drop currentIdx).filter (fun event => event.id < startId) ++
        events.filter (fun event => event.id = startId ∨ event.id = endId) ++
        replayRanges events (events.findIdx (fun event => endId < event.id)) rest

def initHistory (stream : EventStream) (state : State) : State :=
  let startId := state.first
  let endId := state.last stream
  if endId + 1 < startId then { state with history := [] }
  else
    let events := stream.searchEvents startId endId
    let ranges := (delegateRanges events).insertionSort rangeLe
    if ranges = [] then { state with startId, history := events }
    else
      -- the loop variable of the ranges has taken the name of the start
      { state with
        startId := (ranges.getLast?.map Prod.fst).getD startId
        history := replayRanges events 0 ranges }

/-- Read the history once more, with the events of delegates. -/
def close (stream : EventStream) (state : State) : State :=
  { state with history := stream.searchEvents state.first (state.last stream) }

/-- Add an event to the history, unless it is filtered out. -/
def addHistory (state : State) (event : Event) : State :=
  if agentHistoryFilter event then { state with history := state.history ++ [event] } else state

def rangeEvents (stream : EventStream) (state : State) : List Event :=
  stream.searchEvents state.first (state.last stream)

/-- The history that restoring is meant to give: the events of the range that lie
strictly inside no completed delegation. -/
def IsRestored (stream : EventStream) (state : State) (history : List Event) : Prop :=
  history.Sublist (rangeEvents stream state) ∧
    ∀ event ∈ rangeEvents stream state, event ∈ history ↔
      ¬∃ action observation, Partners delegateKind (rangeEvents stream state) action observation ∧
        action.id < event.id ∧ event.id < observation.id

section Ordered

variable {events : List Event} (increasing : Increasing events)
include increasing

theorem filter_cut (select : Event → Bool) (cut : Int) : events.filter select =
      events.filter (fun event => select event && decide (event.id < cut)) ++
        events.filter (fun event => select event && decide (cut ≤ event.id)) := by
  induction events with
  | nil => rfl
  | cons event rest ih =>
    have ordered := pairwise_cons.mp increasing
    have later := ih ordered.2
    by_cases before : event.id < cut
    · have notAfter : ¬cut ≤ event.id := by omega
      cases selected : select event <;> simp [selected, before, notAfter]
      · exact later
      · rw [← later]
    · have none : rest.filter (fun event => select event && decide (event.id < cut)) = [] := by
        rw [filter_eq_nil_iff]
        intro other member
        have beyond := ordered.1 other member
        have outside : ¬other.id < cut := by omega
        simp [outside]
      have after : cut ≤ event.id := by omega
      rw [none, nil_append] at later
      cases selected : select event <;> simp [selected, before, after, none]
      · exact later
      · rw [← later]

/-- Dropping ordered events up to the first one beyond an identifier. -/
theorem drop_beyond (cut : Int) : events.drop (events.findIdx (fun event => cut < event.id)) =
      events.filter (fun event => cut < event.id) := by
  induction events with
  | nil => rfl
  | cons event rest ih =>
    have ordered := pairwise_cons.mp increasing
    rw [findIdx_cons]
    by_cases beyond : cut < event.id
    · have all : rest.filter (fun event => cut < event.id) = rest := by
        rw [filter_eq_self]
        intro other member
        have further := ordered.1 other member
        simp only [decide_eq_true_eq]
        omega
      simp [beyond, cond_true, all]
    · simp only [beyond, decide_false, cond_false, drop_succ_cons, filter_cons,
        Bool.false_eq_true, if_false]
      exact ih ordered.2

variable (ranges : List (Int × Int))

/-- Replaying ranges that lie apart leaves out what is inside them. -/
theorem replay_apart (bound : Int) (currentIdx : Nat)
    (current : events.drop currentIdx = events.filter (fun event => bound < event.id))
    (apart : ranges.Pairwise (fun first second => first.2 < second.1))
    (proper : ∀ range ∈ ranges, bound < range.1 ∧ range.1 < range.2) :
    replayRanges events currentIdx ranges = events.filter (fun event => decide (bound < event.id) &&
        decide (∀ range ∈ ranges, ¬(range.1 < event.id ∧ event.id < range.2))) := by
  induction ranges generalizing bound currentIdx with
  | nil => simpa [replayRanges] using current
  | cons range rest ih =>
    obtain ⟨startId, endId⟩ := range
    obtain ⟨beyond, later⟩ := pairwise_cons.mp apart
    obtain ⟨bounded, ordered⟩ := proper (startId, endId) (.head _)
    have laterProper : ∀ range ∈ rest, endId < range.1 ∧ range.1 < range.2 := fun range member =>
      ⟨beyond range member, (proper range (.tail _ member)).2⟩
    rw [replayRanges, ih endId _ (drop_beyond increasing endId) later laterProper,
      current, filter_filter, filter_cut increasing (fun event => decide (bound < event.id) &&
        decide (∀ range ∈ (startId, endId) :: rest,
          ¬(range.1 < event.id ∧ event.id < range.2))) startId]
    rw [filter_cut increasing (fun event => (decide (bound < event.id) &&
        decide (∀ range ∈ (startId, endId) :: rest,
          ¬(range.1 < event.id ∧ event.id < range.2))) && decide (startId ≤ event.id))
      (endId + 1), append_assoc]
    congr 1
    · apply filter_congr
      intro event member
      rw [Bool.eq_iff_iff]
      simp only [Bool.and_eq_true, decide_eq_true_eq]
      constructor
      · rintro ⟨small, high⟩
        refine ⟨⟨high, ?_⟩, small⟩
        intro range inside
        cases mem_cons.mp inside with
        | inl same => rw [same]; omega
        | inr further => have := beyond range further; omega
      · rintro ⟨⟨high, _⟩, small⟩
        exact ⟨small, high⟩
    · congr 1
      · apply filter_congr
        intro event member
        rw [Bool.eq_iff_iff]
        simp only [Bool.and_eq_true, decide_eq_true_eq]
        constructor
        · intro ends
          refine ⟨⟨⟨by omega, ?_⟩, by omega⟩, by omega⟩
          intro range inside
          cases mem_cons.mp inside with
          | inl same => rw [same]; omega
          | inr further => have := beyond range further; omega
        · rintro ⟨⟨⟨_, outside⟩, low⟩, high⟩
          have here := outside (startId, endId) (.head _)
          omega
      · apply filter_congr
        intro event member
        rw [Bool.eq_iff_iff]
        simp only [Bool.and_eq_true, decide_eq_true_eq]
        constructor
        · rintro ⟨high, outside⟩
          refine ⟨⟨⟨by omega, ?_⟩, by omega⟩, by omega⟩
          intro range inside
          cases mem_cons.mp inside with
          | inl same => rw [same]; omega
          | inr further => exact outside range further
        · rintro ⟨⟨⟨_, outside⟩, _⟩, high⟩
          exact ⟨by omega, fun range inside => outside range (.tail _ inside)⟩

omit increasing in
/-- The action and the observation of every range are replayed. -/
theorem replay_ends (currentIdx : Nat) {range : Int × Int} (member : range ∈ ranges) {event : Event}
    (present : event ∈ events) (starts : event.id = range.1) :
    event ∈ replayRanges events currentIdx ranges := by
  induction ranges generalizing currentIdx with
  | nil => cases member
  | cons head rest ih =>
    rw [replayRanges, append_assoc, mem_append, mem_append]
    cases mem_cons.mp member with
    | inl same =>
      subst same
      exact .inr (.inl (mem_filter.mpr ⟨present, by simpa using .inl starts⟩))
    | inr further => exact .inr (.inr (ih _ further))

/-- Events after all ranges are replayed. -/
theorem replay_later (filled : ranges ≠ []) (currentIdx : Nat) (event : Event)
    (present : event ∈ events) (later : ∀ range ∈ ranges, range.2 < event.id) :
    event ∈ replayRanges events currentIdx ranges := by
  induction ranges generalizing currentIdx with
  | nil => exact absurd rfl filled
  | cons range rest ih =>
    obtain ⟨startId, endId⟩ := range
    rw [replayRanges, append_assoc, mem_append, mem_append]
    right
    right
    cases rest with
    | nil =>
      rw [replayRanges, drop_beyond increasing, mem_filter]
      exact ⟨present, by simpa using later (startId, endId) (.head _)⟩
    | cons next others =>
      apply ih
      · exact cons_ne_nil _ _
      · exact fun range inside => later range (.tail _ inside)

omit increasing in
/-- Only the given events are replayed. -/
theorem replay_subset (currentIdx : Nat) (event : Event)
    (replayed : event ∈ replayRanges events currentIdx ranges) : event ∈ events := by
  induction ranges generalizing currentIdx with
  | nil => exact mem_of_mem_drop replayed
  | cons range rest ih =>
    obtain ⟨startId, endId⟩ := range
    rw [replayRanges, append_assoc, mem_append, mem_append] at replayed
    rcases replayed with before | ends | further
    · exact mem_of_mem_drop (mem_filter.mp before).1
    · exact (mem_filter.mp ends).1
    · exact ih _ further

end Ordered

section Restored

variable (stream : EventStream) (state : State)

/-- The events of a range are in order, and their identifiers lie in the range. -/
theorem range_events_spec : Increasing (rangeEvents stream state) ∧
      ∀ event ∈ rangeEvents stream state,
        state.first ≤ event.id ∧ event.id ≤ state.last stream ∧ 0 ≤ event.id := by
  refine ⟨List.Pairwise.filter _ stream.increasing, ?_⟩
  intro event member
  obtain ⟨present, selected⟩ := mem_filter.mp member
  simp only [decide_eq_true_eq] at selected
  exact ⟨selected.1, selected.2.1, (stream.inside event present).1⟩

def sortedRanges : List (Int × Int) :=
  (delegateRanges (rangeEvents stream state)).insertionSort rangeLe

/-- The ranges are those of completed delegations. -/
theorem mem_sorted_ranges (range : Int × Int) : range ∈ sortedRanges stream state ↔
      ∃ action observation, Partners delegateKind (rangeEvents stream state) action observation ∧
        action.id = range.1 ∧ observation.id = range.2 := by
  rw [sortedRanges, (perm_insertionSort rangeLe _).mem_iff, delegateRanges, mem_map]
  constructor
  · rintro ⟨⟨action, observation⟩, matched, rfl⟩
    exact ⟨action, observation, (matched_iff_partners _ _ _).mp matched, rfl, rfl⟩
  · rintro ⟨action, observation, partners, starts, ends⟩
    exact ⟨(action, observation), (matched_iff_partners _ _ _).mpr partners, Prod.ext starts ends⟩

/-- Partners are events of the range, the action first. -/
theorem partners_spec {action observation : Event}
    (partners : Partners delegateKind (rangeEvents stream state) action observation) :
    action ∈ rangeEvents stream state ∧ observation ∈ rangeEvents stream state ∧
      action.id < observation.id :=
  (matched_pairs_apart _
    (range_events_spec ..).1).1 _ ((matched_iff_partners _ _ _).mpr partners)

/-- No completed delegation lies inside another one. -/
def Unnested : Prop :=
  ∀ action observation inner innerObservation,
    Partners delegateKind (rangeEvents stream state) action observation →
    Partners delegateKind (rangeEvents stream state) inner innerObservation →
    ¬(action.id < inner.id ∧ innerObservation.id < observation.id)

/-- Ranges that are not nested lie one after the other when they are sorted. -/
theorem sorted_ranges_apart (unnested : Unnested stream state) :
    (sortedRanges stream state).Pairwise (fun first second => first.2 < second.1) := by
  have increasing := (range_events_spec stream state).1
  obtain ⟨inside, apart⟩ := @matched_pairs_apart _ delegateKind Event.id _ increasing
  have disjoint : (delegateRanges (rangeEvents stream state)).Pairwise
      (fun first second => first.2 < second.1 ∨ second.2 < first.1) := by
    rw [delegateRanges, pairwise_map]
    refine apart.imp_of_mem ?_
    intro first second isFirst isSecond either
    cases either with
    | inr before => exact .inl before
    | inl encloses =>
      exact absurd encloses (unnested _ _ _ _ ((matched_iff_partners _ _ _).mp isSecond)
        ((matched_iff_partners _ _ _).mp isFirst))
  have sortedDisjoint : (sortedRanges stream state).Pairwise
      (fun first second => first.2 < second.1 ∨ second.2 < first.1) :=
    ((perm_insertionSort rangeLe _).pairwise_iff (fun either => either.symm)).mpr disjoint
  have sorted : (sortedRanges stream state).Pairwise rangeLe :=
    pairwise_insertionSort rangeLe _
  refine (sorted.and sortedDisjoint).imp_of_mem ?_
  rintro first second isFirst isSecond ⟨ordered, either⟩
  obtain ⟨action, observation, partners, starts, ends⟩ := (mem_sorted_ranges ..).mp isSecond
  have proper := (partners_spec _ _ partners).2.2
  rw [rangeLe] at ordered
  omega

/-- The start of the last range is at least the start of every range. -/
theorem last_range_start (last : Int × Int)
    (ends : (sortedRanges stream state).getLast? = some last) (range : Int × Int)
    (member : range ∈ sortedRanges stream state) : range.1 ≤ last.1 := by
  have sorted : (sortedRanges stream state).Pairwise rangeLe :=
    pairwise_insertionSort rangeLe _
  obtain ⟨front, whole⟩ := getLast?_eq_some_iff.mp ends
  rw [whole, pairwise_append] at sorted
  rw [whole] at member
  cases mem_append.mp member with
  | inl earlier =>
    have ordered := sorted.2.2 range earlier last (.head _)
    rw [rangeLe] at ordered
    omega
  | inr final => rw [mem_singleton.mp final]

/-- A range that ends before it starts has no events. -/
theorem range_events_none (reversed : state.last stream + 1 < state.first) :
    rangeEvents stream state = [] := by
  rw [eq_nil_iff_forall_not_mem]
  intro event member
  have bounds := (range_events_spec ..).2 event member
  omega

/-- What restoring gives: nothing for a reversed range, the whole range without
completed delegations, and the replayed ranges otherwise. -/
theorem init_history_cases : (sortedRanges stream state = [] ∧
        (initHistory stream state).history = rangeEvents stream state ∧
        (0 ≤ state.startId → (initHistory stream state).startId = state.startId)) ∨
      ∃ last, (sortedRanges stream state).getLast? = some last ∧
        (initHistory stream state).history =
          replayRanges (rangeEvents stream state) 0 (sortedRanges stream state) ∧
        (initHistory stream state).startId = last.1 := by
  by_cases reversed : state.last stream + 1 < state.first
  · left
    have none := range_events_none _ _ reversed
    refine ⟨by rw [sortedRanges, none]; rfl, ?_, ?_⟩
    · rw [initHistory, if_pos reversed, none]
    · intro _
      rw [initHistory, if_pos reversed]
  · cases ends : (sortedRanges stream state).getLast? with
    | none =>
      have empty : sortedRanges stream state = [] := getLast?_eq_none_iff.mp ends
      left
      have result : initHistory stream state =
          { state with startId := state.first, history := rangeEvents stream state } := by
        rw [initHistory]
        rw [if_neg reversed]
        exact if_pos empty
      refine ⟨empty, by rw [result], ?_⟩
      intro natural
      rw [result]
      exact if_pos natural
    | some last =>
      right
      have filled : sortedRanges stream state ≠ [] := by
        intro empty
        rw [empty] at ends
        cases ends
      have result : initHistory stream state = { state with
            startId := ((sortedRanges stream state).getLast?.map Prod.fst).getD state.first
            history := replayRanges (rangeEvents stream state) 0 (sortedRanges stream state) } := by
        rw [initHistory]
        rw [if_neg reversed]
        exact if_neg filled
      exact ⟨last, rfl, by rw [result], by rw [result, ends]; rfl⟩

/-- Restoring takes events of the range only, and all that come after the completed
delegations. -/
theorem init_history_members (event : Event) :
    (event ∈ (initHistory stream state).history → event ∈ rangeEvents stream state) ∧
      (event ∈ rangeEvents stream state → (∀ action observation,
          Partners delegateKind (rangeEvents stream state) action observation →
          observation.id < event.id) →
        event ∈ (initHistory stream state).history) := by
  cases init_history_cases .. with
  | inl plain =>
    rw [plain.2.1]
    exact ⟨fun member => member, fun member _ => member⟩
  | inr delegated =>
    obtain ⟨last, ends, history, _⟩ := delegated
    rw [history]
    refine ⟨replay_subset _ 0 _, fun member later => ?_⟩
    apply replay_later (range_events_spec ..).1
    · intro empty
      rw [empty] at ends
      cases ends
    · exact member
    · intro range inside
      obtain ⟨action, observation, partners, _, stops⟩ := (mem_sorted_ranges ..).mp inside
      rw [← stops]
      exact later action observation partners

/-- Restoring keeps the end of the range. -/
theorem init_history_end : (initHistory stream state).endId = state.endId := by
  rw [initHistory]
  simp only
  split
  · rfl
  · split <;> rfl

/-- What a restored session promises: the history of the range without delegated
work, and a start that a second restoring and closing begin at as well. -/
structure Restores : Prop where
  history : IsRestored stream state (initHistory stream state).history
  start : 0 ≤ state.startId → (initHistory stream state).startId = state.startId
  again : 0 ≤ state.startId →
    initHistory stream (initHistory stream state) = initHistory stream state
  closes : 0 ≤ state.startId →
    (close stream (initHistory stream state)).history = rangeEvents stream state

omit state in
/-- Restoring depends on the range only. -/
theorem init_history_congr {first second : State} (sameStart : first.startId = second.startId)
    (sameEnd : first.endId = second.endId) :
    initHistory stream first = initHistory stream second := by
  obtain ⟨firstStart, firstEnd, firstHistory⟩ := first
  cases sameStart
  cases sameEnd
  rfl

/-- A start that was kept is kept by the next restoring, and closing reads the same
range. -/
theorem kept_start (sameStart : (initHistory stream state).startId = state.startId) :
    initHistory stream (initHistory stream state) = initHistory stream state ∧
      (close stream (initHistory stream state)).history = rangeEvents stream state := by
  have sameEnd := init_history_end stream state
  refine ⟨init_history_congr _ sameStart sameEnd, ?_⟩
  have first : (initHistory stream state).first = state.first := by
    rw [State.first, State.first, sameStart]
  have last : (initHistory stream state).last stream = state.last stream := by
    rw [State.last, State.last, sameEnd]
  rw [close, first, last, rangeEvents]

theorem unnested_restored (unnested : Unnested stream state) :
    IsRestored stream state (initHistory stream state).history := by
  obtain ⟨increasing, bounds⟩ := range_events_spec ..
  have replayed : (initHistory stream state).history =
      (rangeEvents stream state).filter (fun event => decide (-1 < event.id) &&
        decide (∀ range ∈ sortedRanges stream state,
          ¬(range.1 < event.id ∧ event.id < range.2))) := by
    have natural : ∀ event ∈ rangeEvents stream state, -1 < event.id := by
      intro event member
      have := (bounds event member).2.2
      omega
    cases init_history_cases .. with
    | inl plain =>
      obtain ⟨none, history, _⟩ := plain
      rw [history, none, eq_comm, filter_eq_self]
      intro event member
      simp [natural event member]
    | inr delegated =>
      obtain ⟨last, _, history, _⟩ := delegated
      rw [history]
      apply replay_apart increasing
      · rw [drop_zero, eq_comm, filter_eq_self]
        intro event member
        simp [natural event member]
      · exact sorted_ranges_apart _ _ unnested
      · intro range member
        obtain ⟨action, observation, partners, starts, ends⟩ := (mem_sorted_ranges ..).mp member
        obtain ⟨present, _, ordered⟩ := partners_spec _ _ partners
        have := natural action present
        omega
  rw [replayed]
  refine ⟨filter_sublist, ?_⟩
  intro event member
  have natural := (bounds event member).2.2
  rw [mem_filter, Bool.and_eq_true, decide_eq_true_eq, decide_eq_true_eq]
  constructor
  · rintro ⟨_, _, outside⟩ ⟨action, observation, partners, after, before⟩
    exact outside (action.id, observation.id)
      ((mem_sorted_ranges ..).mpr ⟨action, observation, partners, rfl, rfl⟩)
      ⟨after, before⟩
  · intro outside
    refine ⟨member, by omega, ?_⟩
    rintro range inside ⟨after, before⟩
    obtain ⟨action, observation, partners, starts, ends⟩ := (mem_sorted_ranges ..).mp inside
    exact outside ⟨action, observation, partners, by omega, by omega⟩

/-- A session is restored exactly when no completed delegation lies inside another
one and, for a range with a given start, every completed delegation begins at that
start. -/
theorem restores_exact : Restores stream state ↔ Unnested stream state ∧
        (0 ≤ state.startId → ∀ action observation,
          Partners delegateKind (rangeEvents stream state) action observation →
          action.id = state.startId) := by
  constructor
  · rintro ⟨history, start, _, _⟩
    constructor
    · -- a nested action is replayed, although it lies inside a delegation
      rintro action observation inner innerObservation outer partners ⟨after, before⟩
      obtain ⟨present, _, ordered⟩ := partners_spec _ _ partners
      have range := (mem_sorted_ranges _ _ (inner.id, innerObservation.id)).mpr
        ⟨inner, innerObservation, partners, rfl, rfl⟩
      have replayed : inner ∈ (initHistory stream state).history := by
        cases init_history_cases .. with
        | inl plain =>
          rw [plain.1] at range
          cases range
        | inr delegated =>
          obtain ⟨last, _, replays, _⟩ := delegated
          rw [replays]
          exact replay_ends _ 0 range present rfl
      exact (history.2 inner present).mp replayed
        ⟨action, observation, outer, after, by omega⟩
    · -- the start of the last range is written back
      intro natural action observation partners
      have range := (mem_sorted_ranges _ _ (action.id, observation.id)).mpr
        ⟨action, observation, partners, rfl, rfl⟩
      have low := ((range_events_spec stream _).2 action
        (partners_spec _ _ partners).1).1
      rw [State.first, if_pos natural] at low
      cases init_history_cases .. with
      | inl plain =>
        rw [plain.1] at range
        cases range
      | inr delegated =>
        obtain ⟨last, ends, _, written⟩ := delegated
        have high := last_range_start _ _ _ ends _ range
        omega
  · rintro ⟨unnested, begins⟩
    have start : 0 ≤ state.startId → (initHistory stream state).startId = state.startId := by
      intro natural
      cases init_history_cases .. with
      | inl plain => exact plain.2.2 natural
      | inr delegated =>
        obtain ⟨last, ends, _, written⟩ := delegated
        obtain ⟨action, observation, partners, starts, _⟩ :=
          (mem_sorted_ranges ..).mp (List.mem_of_getLast? ends)
        rw [written, ← starts]
        exact begins natural action observation partners
    exact ⟨unnested_restored _ _ unnested, start, fun natural => (kept_start _ _ (start natural)).1,
      fun natural => (kept_start _ _ (start natural)).2⟩

end Restored

def messageEvent (id : Int) : Event where
  id
  source := some .agent
  body := .action (.message "working" none false)

/-- The start of a delegation. -/
def delegateEvent (id : Int) : Event where
  id
  source := some .agent
  body := .action (.agentDelegate "BrowsingAgent" [] "")

/-- The end of a delegation. -/
def delegatedEvent (id : Int) : Event where
  id
  source := some .agent
  body := .observation "done" (.agentDelegate [])

def delegationStream : EventStream where
  events := [messageEvent 0, delegateEvent 1, messageEvent 2, delegatedEvent 3, messageEvent 4]
  curId := 5
  natural := by decide
  increasing := by simp [Increasing, messageEvent, delegateEvent, delegatedEvent]
  inside := by simp [messageEvent, delegateEvent, delegatedEvent]

/-- A stream with a delegation inside another one. -/
def nestedStream : EventStream where
  events := [messageEvent 0, delegateEvent 1, delegateEvent 2, delegatedEvent 3,
    delegatedEvent 4, messageEvent 5]
  curId := 6
  natural := by decide
  increasing := by simp [Increasing, messageEvent, delegateEvent, delegatedEvent]
  inside := by simp [messageEvent, delegateEvent, delegatedEvent]

/-- After one delegation the history starts at the delegation, so closing loses the
event before it; a nested delegation is replayed after the one around it, and the
end of that one twice. -/
theorem delegations_break_restoring : (initHistory delegationStream { startId := 0 }).startId = 1 ∧
      (close delegationStream (initHistory delegationStream { startId := 0 })).history.map
        Event.id = [1, 2, 3, 4] ∧
      ¬Restores delegationStream { startId := 0 } ∧
      (initHistory nestedStream { startId := 0 }).history.map Event.id = [0, 1, 4, 2, 3, 4, 5] ∧
      ¬Restores nestedStream { startId := 0 } := by
  refine ⟨by decide, by decide, ?_, by decide, ?_⟩
  · intro restores
    exact absurd (restores.start (by decide)) (by decide)
  · intro restores
    exact absurd (restores.start (by decide)) (by decide)

end ForgePilot.StateTrackers
