import ForgePilot.CondensationLoops

/-!
# Where a loop begins

The analysis of a loop says where it begins, and the history is cut back to there. The place is looked up by
value in the filtered history and counted from the beginning of the part that was checked, so it is right only
where nothing was filtered out before it and no equal event stands before it.
-/

namespace ForgePilot.LoopStarts

open CondensationLoops Places StuckDetector List Option
open Events (EventSource)
open Spans (part)

variable {ρ : Type} [DecidableEq ρ]

/-- The scenarios in the order in which they are looked at. -/
def scenarios : List LoopType :=
  [.repeatingActionObservation, .repeatingActionError, .monologue, .repeatingActionObservationPattern,
    .contextWindowError]

/-- What the check of a scenario finds. -/
def check (filtered : List (Event ρ)) (offset : Nat) : LoopType → Option StuckAnalysis
  | .repeatingActionObservation =>
      isStuckRepeatingActionObservation (collect 4 [] [] filtered.reverse).1
        (collect 4 [] [] filtered.reverse).2 filtered offset
  | .repeatingActionError =>
      isStuckRepeatingActionError (collect 4 [] [] filtered.reverse).1
        (collect 4 [] [] filtered.reverse).2 filtered offset
  | .monologue => isStuckMonologue filtered offset
  | .repeatingActionObservationPattern =>
      if 6 ≤ filtered.length then isStuckActionObservationPattern filtered offset else none
  | .contextWindowError =>
      if 10 ≤ filtered.length then isStuckContextWindowError filtered offset else none

def FirstToApply (filtered : List (Event ρ)) (offset : Nat) (loopType : LoopType) : Prop :=
  ∃ before after, scenarios = before ++ loopType :: after ∧
    (check filtered offset loopType).isSome = true ∧
    ∀ other ∈ before, check filtered offset other = none

/-- Where the first action, message or condensation of the repetition stands in the filtered history. -/
def repetitionStart (filtered : List (Event ρ)) : LoopType → Option Nat
  | .repeatingActionObservation => nthLast 4 (filtered.findIdxs (·.body.isAction))
  | .repeatingActionError => nthLast 3 (filtered.findIdxs (·.body.isAction))
  | .monologue => nthLast 3 (filtered.findIdxs isAgentMessage)
  | .repeatingActionObservationPattern => nthLast 6 (filtered.findIdxs (·.body.isAction))
  | .contextWindowError =>
      ((neighbours (lastTen filtered)).find? fun pair => pair.2 == pair.1 + 1).map Prod.fst

/-- Where it stands in the history. -/
def startPosition (history : List (Event ρ)) (headlessMode : Bool) (loopType : LoopType) : Option Nat := do
  let place ← repetitionStart (filteredHistory history headlessMode) loopType
  let position ← ((historyToCheck history headlessMode).findIdxs counts)[place]?
  return filteredHistoryOffset history headlessMode + position

def truncateMemoryToPoint (history : List (Event ρ)) (recoveryPoint : Nat) : List (Event ρ) :=
  if history.length ≤ recoveryPoint then history else history.take recoveryPoint

/-- The analysis points at the start of the repetition, and cutting the history there keeps exactly what stands
before it. -/
def PointsAtStart (history : List (Event ρ)) (headlessMode : Bool) (analysis : StuckAnalysis) : Prop :=
  ∃ position, startPosition history headlessMode analysis.loopType = some position ∧
    analysis.loopStartIdx = position ∧
    truncateMemoryToPoint history analysis.loopStartIdx = history.take position

/-- What the detector promises about its analysis. -/
def Promise (history : List (Event ρ)) (headlessMode : Bool) (stuckAnalysis : Option StuckAnalysis) : Prop :=
  ((isStuck history headlessMode stuckAnalysis).1 = true →
      ∃ analysis, (isStuck history headlessMode stuckAnalysis).2 = some analysis ∧
        PointsAtStart history headlessMode analysis) ∧
    ((isStuck history headlessMode stuckAnalysis).1 = false →
      (isStuck history headlessMode stuckAnalysis).2 = none)

/-- No event before a place is equal to the one that stands there. -/
def NothingEqual (filtered : List (Event ρ)) (place : Nat) : Prop :=
  ∀ item ∈ filtered[place]?, ∀ earlier ∈ filtered.take place, earlier.body ≠ item.body

/-- The first event of the repetition is what is looked up. -/
def FoundByValue (filtered : List (Event ρ)) (place : Nat) : LoopType → Prop
  | .monologue | .contextWindowError => True
  | .repeatingActionError => (filtered.filter (·.body.isAction)).length = 3 ∧ NothingEqual filtered place
  | _ => NothingEqual filtered place

/-- The histories for which the promise is kept. -/
structure Placed (history : List (Event ρ)) (headlessMode : Bool) (stuckAnalysis : Option StuckAnalysis) :
    Prop where
  short : (filteredHistory history headlessMode).length < 3 → stuckAnalysis = none
  start : 3 ≤ (filteredHistory history headlessMode).length → ∀ loopType,
    FirstToApply (filteredHistory history headlessMode) (filteredHistoryOffset history headlessMode) loopType →
      ∀ place ∈ repetitionStart (filteredHistory history headlessMode) loopType,
        ((historyToCheck history headlessMode).take (place + 1)).all counts = true ∧
          FoundByValue (filteredHistory history headlessMode) place loopType

/-! ## The first scenario that applies -/

variable {α β : Type} (find : α → Option β)

theorem findSome_cons (first : α) (rest : List α) :
    (first :: rest).findSome? find = (find first).or (rest.findSome? find) := by
  rw [findSome?_cons]
  cases find first <;> rfl

variable (filtered : List (Event ρ)) {history : List (Event ρ)}

theorem isStuck_scenarios {headlessMode : Bool} (stuckAnalysis : Option StuckAnalysis)
    (long : 3 ≤ (filteredHistory history headlessMode).length) :
    isStuck history headlessMode stuckAnalysis =
      ((scenarios.findSome? (check (filteredHistory history headlessMode)
          (filteredHistoryOffset history headlessMode))).isSome,
        scenarios.findSome? (check (filteredHistory history headlessMode)
          (filteredHistoryOffset history headlessMode))) := by
  simp only [isStuck, scenarios, findSome_cons, findSome?_nil, Option.or_none, check, repeatedSteps,
    Option.or_assoc]
  rw [if_neg (by omega)]
  split <;> rename_i found <;> rw [found] <;> rfl

/-- The detector says yes with what the first scenario that applies found, and no where none applies. -/
theorem findSome_first (offset : Nat) (analysis : StuckAnalysis) :
    scenarios.findSome? (check filtered offset) = some analysis ↔
      ∃ loopType, FirstToApply filtered offset loopType ∧ check filtered offset loopType = some analysis := by
  rw [findSome?_eq_some_iff]
  constructor
  · rintro ⟨before, loopType, after, whole, found, silent⟩
    exact ⟨loopType, ⟨before, after, whole, by rw [found]; rfl, silent⟩, found⟩
  · rintro ⟨loopType, ⟨before, after, whole, -, silent⟩, found⟩
    exact ⟨before, loopType, after, whole, found, silent⟩

/-! ## The place that is reported -/

theorem index_spec (place : Nat) (item : Event ρ) (here : filtered[place]? = some item) :
    index filtered item ≤ place ∧ (index filtered item = place ↔ NothingEqual filtered place) := by
  obtain ⟨inside, rfl⟩ := List.getElem?_eq_some_iff.mp here
  constructor
  · by_contra later
    have missed := List.not_of_lt_findIdx (Nat.lt_of_not_le later)
    simp at missed
  · rw [index, List.findIdx_eq inside, NothingEqual, here]
    simp only [mem_some_iff, forall_eq', beq_self_eq_true, true_and]
    constructor
    · intro other earlier listed equal
      obtain ⟨position, before, rfl⟩ := List.mem_take_iff_getElem.mp listed
      have different := other position (by omega)
      simp [equal] at different
    · intro other position before
      have listed : filtered[position] ∈ filtered.take place :=
        List.mem_take_iff_getElem.mpr ⟨position, by omega, rfl⟩
      simpa using other _ listed

/-- What a check reports, with the place of the first event of the repetition. -/
structure Reported (filtered : List (Event ρ)) (offset : Nat) (kind : LoopType)
    (analysis : StuckAnalysis) (place reported : Nat) : Prop where
  loopType : analysis.loopType = kind
  start : repetitionStart filtered kind = some place
  inside : place < filtered.length
  index : analysis.loopStartIdx = reported + offset
  early : reported ≤ place
  found_iff : reported = place ↔ FoundByValue filtered place kind

/-- The last of the events that were collected from the end. -/
theorem lastIndex_spec (holds : Event ρ → Bool) (count : Nat) (positive : 0 < count)
    (full : ((filtered.filter holds).reverse.take count).length = count) :
    ∃ place item, nthLast count (filtered.findIdxs holds) = some place ∧ filtered[place]? = some item ∧
      lastIndex filtered ((filtered.filter holds).reverse.take count) = index filtered item := by
  have enough : count - 1 < (filtered.filter holds).reverse.length := by
    rw [length_take] at full
    omega
  obtain ⟨place, atPlace, here⟩ := nthLast_places (List.getElem?_eq_getElem enough)
  refine ⟨place, _, atPlace, here, ?_⟩
  rw [lastIndex, getLast?_take, if_neg (by omega), List.getElem?_eq_getElem enough]
  rfl

variable {kind : LoopType}

/-- A lookup by value reports the right place where nothing equal stands before it. -/
theorem reported_by_value (offset place : Nat) (item : Event ρ) (times : Nat)
    (start : repetitionStart filtered kind = some place) (here : filtered[place]? = some item)
    (found : FoundByValue filtered place kind ↔ NothingEqual filtered place) :
    Reported filtered offset kind ⟨kind, times, index filtered item + offset⟩ place (index filtered item) := by
  obtain ⟨early, same⟩ := index_spec _ _ _ here
  exact ⟨rfl, start, (List.getElem?_eq_some_iff.mp here).1, rfl, early, same.trans found.symm⟩

variable {analysis : StuckAnalysis} {offset : Nat}

theorem observation_reported {filtered : List (Event ρ)}
    (found : check filtered offset .repeatingActionObservation = some analysis) :
    ∃ place reported, Reported filtered offset .repeatingActionObservation analysis place reported := by
  rw [check, collect_reverse, isStuckRepeatingActionObservation] at found
  split at found
  · rename_i full
    split at found
    · obtain ⟨place, item, start, here, last⟩ := lastIndex_spec _ _ 4 (by decide) full.1
      cases found
      rw [last]
      exact ⟨place, _, reported_by_value _ _ _ _ 4 start here Iff.rfl⟩
    · cases found
  · cases found

theorem pattern_reported {filtered : List (Event ρ)}
    (found : check filtered offset .repeatingActionObservationPattern = some analysis) :
    ∃ place reported, Reported filtered offset .repeatingActionObservationPattern analysis place reported := by
  rw [check] at found
  split at found
  · rw [isStuckActionObservationPattern, collect_reverse] at found
    split at found
    · rename_i earliest _ _ _ _ _ _ collected
      obtain ⟨actions, -⟩ := Prod.mk.inj collected
      split at found
      · obtain ⟨place, item, start, here, last⟩ :=
          lastIndex_spec _ _ 6 (by decide) (by rw [actions]; rfl)
        rw [actions] at last
        cases found
        rw [show index filtered earliest = index filtered item from last]
        exact ⟨place, _, reported_by_value _ _ _ _ 3 start here Iff.rfl⟩
      · cases found
    · cases found
  · cases found

theorem monologue_reported {filtered : List (Event ρ)}
    (found : check filtered offset .monologue = some analysis) :
    ∃ place reported, Reported filtered offset .monologue analysis place reported := by
  rw [check, isStuckMonologue] at found
  split at found
  · rename_i startIndex first _ second endIndex third last
    have start := congrArg (Option.map Prod.fst) (nthLast_three last)
    rw [nthLast, ← List.getElem?_map, map_reverse, findIdxsValues_eq_zip_filter_findIdxs,
      map_fst_zip (by rw [length_findIdxs, countP_eq_length_filter])] at start
    have listed := mem_reverse.mp (mem_of_getElem? start)
    obtain ⟨item, here, -⟩ := (mem_places_iff ..).mp listed
    split at found
    · split at found
      · cases found
      · cases found
        exact ⟨startIndex, startIndex, rfl, start, (List.getElem?_eq_some_iff.mp here).1, rfl,
          le_rfl, iff_of_true rfl trivial⟩
    · cases found
  · cases found

theorem findSome_of_find (holds : α → Bool) (value : α → β) (items : List α)
    (same : ∀ item ∈ items, find item = if holds item then some (value item) else none) :
    items.findSome? find = (items.find? holds).map value := by
  induction items with
  | nil => rfl
  | cons item rest ih =>
    have later := ih fun other member => same other (.tail _ member)
    rw [findSome_cons, same item (.head _), later, find?_cons]
    cases holds item <;> rfl

theorem context_reported {filtered : List (Event ρ)}
    (found : check filtered offset .contextWindowError = some analysis) :
    ∃ place reported, Reported filtered offset .contextWindowError analysis place reported := by
  rw [check] at found
  split at found
  · simp only [isStuckContextWindowError] at found
    split at found
    · cases found
    rw [show filtered.findIdxs (·.body.isCondensation) = condensations filtered from rfl] at found
    change (neighbours (lastTen filtered)).findSome? _ = _ at found
    rw [findSome_of_find _ (fun pair => pair.2 == pair.1 + 1)
      (fun pair => ⟨.contextWindowError, 2, pair.1 + offset⟩)] at found
    · obtain ⟨pair, first, rfl⟩ := map_eq_some_iff.mp found
      have side := last_ten_neighbours (mem_of_find?_eq_some first)
      obtain ⟨item, here, -⟩ := (mem_places_iff ..).mp (of_mem_zip side).1
      refine ⟨pair.1, pair.1, rfl, ?_, (List.getElem?_eq_some_iff.mp here).1, rfl, le_rfl,
        iff_of_true rfl trivial⟩
      rw [repetitionStart, first]
      rfl
    · rintro ⟨first, second⟩ side
      have adjacent := neighbours_side_iff (last_ten_neighbours side)
      simp only [any_eq_not_all_not, Bool.not_not, beq_iff_eq]
      by_cases together : second = first + 1
      · rw [if_pos together, adjacent.mpr together]
        rfl
      · have apart := Bool.eq_false_iff.mpr (mt adjacent.mp together)
        rw [if_neg together, apart]
        rfl
  · cases found

theorem error_analysis {lastActions lastObservations filtered : List (Event ρ)}
    (found : isStuckRepeatingActionError lastActions lastObservations filtered offset = some analysis)
    :
    3 ≤ lastActions.length ∧
      analysis = ⟨.repeatingActionError, 3, lastIndex filtered lastActions + offset⟩ := by
  rw [isStuckRepeatingActionError] at found
  split at found
  · cases found
  refine ⟨by omega, ?_⟩
  split at found
  · simp only at found
    split at found
    · exact (some.inj found).symm
    split at found
    · split at found
      · exact (some.inj found).symm
      · cases found
    · cases found
  · cases found

/-- The action that is looked up is the fourth from the end, where there is one. -/
theorem error_reported (found : check filtered offset .repeatingActionError = some analysis) :
    ∃ place reported, Reported filtered offset .repeatingActionError analysis place reported := by
  rw [check, collect_reverse] at found
  obtain ⟨many, rfl⟩ := error_analysis found
  simp only [length_take, length_reverse] at many
  obtain ⟨place, item, start, here, last⟩ := lastIndex_spec filtered (·.body.isAction) 3 (by decide)
    (by rw [length_take, length_reverse]; omega)
  by_cases three : (filtered.filter (·.body.isAction)).length = 3
  · have whole : (filtered.filter (·.body.isAction)).reverse.take 4 =
        (filtered.filter (·.body.isAction)).reverse.take 3 := by
      rw [take_of_length_le (by rw [length_reverse]; omega),
        take_of_length_le (by rw [length_reverse]; omega)]
    simp only [whole, last]
    exact ⟨place, _, reported_by_value _ _ _ _ 3 start here (and_iff_right three)⟩
  · obtain ⟨earlier, other, atEarlier, alsoHere, lookedUp⟩ := lastIndex_spec filtered (·.body.isAction) 4
      (by decide) (by rw [length_take, length_reverse]; omega)
    have before := nthLast_before _ pairwise_findIdxs 3 4 earlier place (by decide) atEarlier start
    obtain ⟨early, -⟩ := index_spec filtered earlier other alsoHere
    simp only [lookedUp]
    exact ⟨place, _, rfl, start, (List.getElem?_eq_some_iff.mp here).1, rfl, by omega,
      iff_of_false (by omega) fun known => three known.1⟩

theorem check_reported {filtered : List (Event ρ)}
    (found : check filtered offset kind = some analysis) :
    ∃ place reported, Reported filtered offset kind analysis place reported := by
  cases kind with
  | repeatingActionObservation => exact observation_reported found
  | repeatingActionError => exact error_reported _ found
  | monologue => exact monologue_reported found
  | repeatingActionObservationPattern => exact pattern_reported found
  | contextWindowError => exact context_reported found

/-! ## The place in the history -/

omit [DecidableEq ρ] in
/-- The analysis points at the start where nothing was filtered out before it and the lookup found it. -/
theorem points_iff {headlessMode : Bool} {place reported : Nat}
    (shown : Reported (filteredHistory history headlessMode) (filteredHistoryOffset history headlessMode)
      kind analysis place reported) :
    PointsAtStart history headlessMode analysis ↔
      ((historyToCheck history headlessMode).take (place + 1)).all counts = true ∧
        FoundByValue (filteredHistory history headlessMode) place kind := by
  have inside := shown.inside
  rw [filteredHistory, ← countP_eq_length_filter, ← length_findIdxs (s := 0)] at inside
  have here := List.getElem?_eq_getElem inside
  obtain ⟨behind, whole⟩ := place_number _ 0 _ _ here
  have atStart : startPosition history headlessMode analysis.loopType =
      some (filteredHistoryOffset history headlessMode +
        ((historyToCheck history headlessMode).findIdxs counts)[place]) := by
    rw [startPosition, shown.loopType, shown.start, bind_eq_bind, bind_some, here]
    rfl
  have early := shown.early
  have bound : ((historyToCheck history headlessMode).findIdxs counts)[place] <
      (historyToCheck history headlessMode).length + 0 :=
    getElem_findIdxs_lt inside
  have length : (historyToCheck history headlessMode).length =
      history.length - filteredHistoryOffset history headlessMode := by
    rw [historyToCheck, length_drop]
  rw [PointsAtStart, atStart, ← whole, ← shown.found_iff, shown.index]
  constructor
  · rintro ⟨position, same, pointed, -⟩
    have := some.inj same
    omega
  · rintro ⟨atPlace, rfl⟩
    refine ⟨reported + filteredHistoryOffset history headlessMode, by rw [atPlace, Nat.zero_add, Nat.add_comm],
      rfl, ?_⟩
    rw [truncateMemoryToPoint, if_neg (by omega)]

/-- The promise is kept exactly for the histories in which nothing was filtered out before the repetition and
its first event is what a lookup by value finds. -/
theorem loop_start_iff (history : List (Event ρ)) (headlessMode : Bool)
    (stuckAnalysis : Option StuckAnalysis) :
    Promise history headlessMode stuckAnalysis ↔ Placed history headlessMode stuckAnalysis := by
  by_cases short : (filteredHistory history headlessMode).length < 3
  · have answer : isStuck history headlessMode stuckAnalysis = (false, stuckAnalysis) := by
      simp only [isStuck]
      rw [if_pos short]
    rw [Promise, answer]
    constructor
    · intro promise
      exact ⟨fun _ => promise.2 rfl, fun long => absurd short (Nat.not_lt.mpr long)⟩
    · intro placed
      exact ⟨fun stuck => Bool.noConfusion stuck, fun _ => placed.short short⟩
  · have long := Nat.not_lt.mp short
    rw [Promise, isStuck_scenarios _ long]
    cases answer : scenarios.findSome? (check (filteredHistory history headlessMode)
        (filteredHistoryOffset history headlessMode)) with
    | none =>
      refine iff_of_true ⟨fun stuck => Bool.noConfusion stuck, fun _ => rfl⟩
        ⟨fun few => absurd few short, ?_⟩
      rintro _ loopType ⟨before, after, whole, applies, _⟩
      have silent := List.findSome?_eq_none_iff.mp answer loopType (by simp [whole])
      rw [silent] at applies
      cases applies
    | some analysis =>
      obtain ⟨kind, first, found⟩ := (findSome_first ..).mp answer
      obtain ⟨place, reported, shown⟩ := check_reported found
      have points := points_iff shown
      constructor
      · intro promise
        obtain ⟨other, same, atStart⟩ := promise.1 rfl
        cases same
        refine ⟨fun few => absurd few short, ?_⟩
        rintro _ loopType ⟨before, after, whole, applies, silent⟩ otherPlace start
        obtain ⟨alsoAnalysis, alsoFound⟩ := Option.isSome_iff_exists.mp applies
        have equal := answer.symm.trans ((findSome_first ..).mpr
          ⟨loopType, ⟨before, after, whole, applies, silent⟩, alsoFound⟩)
        obtain ⟨_, _, alsoShown⟩ := check_reported alsoFound
        cases equal
        cases shown.loopType.symm.trans alsoShown.loopType
        cases shown.start.symm.trans start
        exact points.mp atStart
      · intro placed
        exact ⟨fun _ => ⟨analysis, rfl, points.mpr (placed.start long kind first place shown.start)⟩,
          fun free => Bool.noConfusion free⟩

/-! ## A question before the loop -/

def command : Event Nat where
  source := some .agent
  body := .otherAction 0

def output : Event Nat where
  source := some .environment
  body := .otherObservation 0

def question : Event Nat where
  source := some .user
  body := .message 0

def loop : List (Event Nat) :=
  [question, command, output, command, output, command, output, command, output]

/-- The analysis points at the question. -/
theorem loop_misplaced :
    ¬ ∀ (history : List (Event Nat)) (headlessMode : Bool) (stuckAnalysis : Option StuckAnalysis),
      Promise history headlessMode stuckAnalysis := by
  intro promise
  obtain ⟨analysis, found, position, start, pointed, -⟩ := (promise loop true none).1 (by decide)
  have answer : (isStuck loop true none).2 = some ⟨.repeatingActionObservation, 4, 0⟩ := by decide
  rw [answer] at found
  cases found
  have atOne : startPosition loop true .repeatingActionObservation = some 1 := by decide
  rw [atOne] at start
  cases start
  cases pointed

end ForgePilot.LoopStarts
