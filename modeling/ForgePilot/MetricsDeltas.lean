import ForgePilot.LlmMetrics
import ForgePilot.Runs

/-!
# Differences of metrics

Objects are named by their places in a list, so that one can be merged into several others and a copy is
an object of its own. What a step adds to an object is written down beside the run, and the difference
between an object and an earlier copy is compared with that.

Latencies, usages and all sums are exact. The costs are exact when the last cost of the copy is the latest
one it has and everything added afterwards is later still: costs at the same time, and merged costs from
earlier, fall through.
-/

namespace ForgePilot.MetricsDeltas

open Runs Sequences LlmMetrics List Metrics

/-- A step on the objects; a cost carries the time of the clock. -/
inductive Step where
  | new (modelName : String)
  | add (object : Nat) (addition : Addition)
  | merge (object other : Nat)
  | copy (object : Nat)

/-- The objects after a step. -/
def step (objects : List Metrics) : Step → List Metrics
  | .new modelName => objects ++ [Metrics.new modelName]
  | .add object addition => objects.modify object addition.apply
  | .merge object other =>
      match objects[other]? with
      | some source => objects.modify object fun metrics => metrics.merge source
      | none => objects
  | .copy object =>
      match objects[object]? with
      | some metrics => objects ++ [metrics.copy]
      | none => objects

def recordsOf (metrics : Metrics) : Records :=
  ⟨metrics.costs, metrics.responseLatencies, metrics.tokenUsages⟩

/-- The sums of an object are those of its records. -/
def Consistent (metrics : Metrics) : Prop := metrics.Holds (recordsOf metrics)

def addedTo (objects : List Metrics) (metrics : Metrics) (object : Nat) : Step → Records
  | .new _ => .none
  | .add target addition =>
      if target = object then addition.records metrics.modelName else .none
  | .merge target other =>
      if target = object then (objects[other]?).elim .none recordsOf else .none
  | .copy _ => .none

def addedBy (object : Nat) : List Metrics → List Step → Records
  | _, [] => .none
  | objects, label :: rest =>
      ((objects[object]?).elim .none fun metrics => addedTo objects metrics object label).append
        (addedBy object (step objects label) rest)

/-- Costs in which the last one is the latest, and others that are later than it. -/
def Later (costs added : List Cost) : Prop :=
  ∀ last, costs.getLast? = some last →
    (∀ cost ∈ costs, cost.timestamp ≤ last.timestamp) ∧
      ∀ cost ∈ added, last.timestamp < cost.timestamp

/-! ## Sums -/

variable {metrics : Metrics}

theorem consistent_of_holds {records : Records} (holds : metrics.Holds records) :
    Consistent metrics := by
  have same : recordsOf metrics = records := by
    cases records
    simp only [recordsOf, Records.mk.injEq]
    exact ⟨holds.costs, holds.responseLatencies, holds.tokenUsages⟩
  rw [Consistent, same]
  exact holds

/-- An object after a step on a list holds its records and what the step adds. -/
theorem modified_holds {objects : List Metrics} (target object : Nat) {change : Metrics → Metrics}
    {added : Records} (found : objects[object]? = some metrics) (consistent : Consistent metrics)
    (changed : (change metrics).Holds ((recordsOf metrics).append added)) :
    ∃ after, (objects.modify target change)[object]? = some after ∧
      after.Holds ((recordsOf metrics).append (if target = object then added else .none)) := by
  rw [List.getElem?_modify, found]
  by_cases same : target = object
  · exact ⟨change metrics, by simp [same], by rwa [if_pos same]⟩
  · exact ⟨metrics, by simp [same], by rwa [if_neg same, Records.append_none]⟩

/-- Every step adds to every object what is written down for it. -/
theorem step_holds {objects : List Metrics} (consistent : ∀ metrics ∈ objects, Consistent metrics)
    (label : Step) {object : Nat} (found : objects[object]? = some metrics) :
    ∃ after, (step objects label)[object]? = some after ∧
      after.Holds ((recordsOf metrics).append (addedTo objects metrics object label)) := by
  have own := consistent metrics (mem_of_getElem? found)
  have inside : object < objects.length := (List.getElem?_eq_some_iff.mp found).1
  have kept (more : List Metrics) : (objects ++ more)[object]? = some metrics := by
    rw [List.getElem?_append_left inside, found]
  have unchanged : metrics.Holds ((recordsOf metrics).append .none) := by
    rwa [Records.append_none]
  cases label with
  | new modelName => exact ⟨metrics, kept _, unchanged⟩
  | add target addition =>
    exact modified_holds _ _ found own
      (holds_apply _ own)
  | merge target other =>
    simp only [step, addedTo]
    cases source : objects[other]? with
    | none =>
      refine ⟨metrics, found, ?_⟩
      simpa using unchanged
    | some merged =>
      exact modified_holds _ _ found own
        (holds_merge own (consistent merged (mem_of_getElem? source)))
  | copy target =>
    simp only [step, addedTo]
    cases objects[target]? with
    | none => exact ⟨metrics, found, unchanged⟩
    | some original => exact ⟨metrics, kept _, unchanged⟩

variable (objects : List Metrics)

/-- A step makes an object of its own at most at the end. -/
theorem step_length {label : Step} {object : Nat} {after : Metrics}
    (found : (step objects label)[object]? = some after) :
    object < objects.length ∨ after ∈ objects ∨ ∃ modelName, after = Metrics.new modelName := by
  have appended (more : Metrics) (there : (objects ++ [more])[object]? = some after) :
      object < objects.length ∨ after = more := by
    rcases mem_append.mp (mem_of_getElem? there) with old | new
    · by_cases inside : object < objects.length
      · exact .inl inside
      · rw [List.getElem?_append_right (Nat.le_of_not_lt inside)] at there
        exact .inr (mem_singleton.mp (mem_of_getElem? there))
    · exact .inr (mem_singleton.mp new)
  have modified (target : Nat) (change : Metrics → Metrics)
      (there : (objects.modify target change)[object]? = some after) : object < objects.length := by
    have inside := (List.getElem?_eq_some_iff.mp there).1
    simpa using inside
  cases label with
  | new modelName => exact (appended _ found).imp_right fun same => .inr ⟨modelName, same⟩
  | add target addition => exact .inl (modified _ _ found)
  | merge target other =>
    simp only [step] at found
    cases source : objects[other]? with
    | none =>
      rw [source] at found
      exact .inl (List.getElem?_eq_some_iff.mp found).1
    | some merged =>
      rw [source] at found
      exact .inl (modified _ _ found)
  | copy target =>
    simp only [step] at found
    cases source : objects[target]? with
    | none =>
      rw [source] at found
      exact .inl (List.getElem?_eq_some_iff.mp found).1
    | some original =>
      rw [source] at found
      refine (appended _ found).imp_right fun same => .inl ?_
      rw [same, copy]
      exact mem_of_getElem? source

section

variable (consistent : ∀ metrics ∈ objects, Consistent metrics)
include consistent

/-- Every step keeps all objects consistent. -/
theorem step_consistent (label : Step) : ∀ metrics ∈ step objects label, Consistent metrics := by
  intro after member
  obtain ⟨object, found⟩ := mem_iff_getElem?.mp member
  rcases step_length _ found with inside | old | ⟨modelName, rfl⟩
  · obtain ⟨result, there, holds⟩ := step_holds consistent _ (List.getElem?_eq_getElem inside)
    obtain rfl := Option.some.inj (found.symm.trans there)
    exact consistent_of_holds holds
  · exact consistent after old
  · exact consistent_of_holds (holds_new ..)

theorem run_consistent (labels : List Step) :
    ∀ metrics ∈ run step objects labels, Consistent metrics := by
  induction labels generalizing objects with
  | nil => exact consistent
  | cons label rest ih => exact ih (step objects label) (step_consistent _ consistent _)

/-- A run adds to every object what is written down for it. -/
theorem run_holds (labels : List Step) (object : Nat) (metrics : Metrics)
    (found : objects[object]? = some metrics) :
    ∃ after, (run step objects labels)[object]? = some after ∧
      after.Holds ((recordsOf metrics).append (addedBy object objects labels)) := by
  induction labels generalizing objects metrics with
  | nil =>
    refine ⟨metrics, found, ?_⟩
    rw [addedBy, Records.append_none]
    exact consistent metrics (mem_of_getElem? found)
  | cons label rest ih =>
    obtain ⟨next, there, holds⟩ := step_holds consistent _ found
    obtain ⟨after, reached, total⟩ := ih (step objects label)
      (step_consistent _ consistent _) next there
    refine ⟨after, reached, ?_⟩
    have same : recordsOf next =
        (recordsOf metrics).append (addedTo objects metrics object label) :=
      (consistent_of_holds holds).unique holds
    rw [same, Records.append_assoc] at total
    simpa [addedBy, found] using total

end

/-! ## Differences -/

/-- Of costs followed by others, the later ones are the others exactly if the last cost is the latest and the
others are later. -/
theorem later_costs_iff {costs added : List Cost} {baseline : Metrics}
    (whole : metrics.costs = costs ++ added) (earlier : baseline.costs = costs) :
    metrics.costsSince baseline = added ↔ Later costs added := by
  rw [costsSince, whole, earlier, Later]
  cases ends : costs.getLast? with
  | none =>
    rw [getLast?_eq_none_iff] at ends
    simp [ends]
  | some last =>
    simp only [filter_append, Option.some.injEq, forall_eq']
    constructor
    · intro same
      -- everything that is kept is later, so all that was added is, and nothing else is kept
      have addedLater : ∀ cost ∈ added, last.timestamp < cost.timestamp := by
        intro cost member
        rw [← same] at member
        rcases mem_append.mp member with old | new
        · simpa using (mem_filter.mp old).2
        · simpa using (mem_filter.mp new).2
      have all : added.filter (fun cost => last.timestamp < cost.timestamp) = added := by
        rw [filter_eq_self]
        intro cost member
        simpa using addedLater cost member
      rw [all] at same
      have noneOld : costs.filter (fun cost => last.timestamp < cost.timestamp) = [] := by
        simpa using same
      rw [filter_eq_nil_iff] at noneOld
      exact ⟨fun cost member => by simpa using noneOld cost member, addedLater⟩
    · rintro ⟨latest, addedLater⟩
      have noneOld : costs.filter (fun cost => last.timestamp < cost.timestamp) = [] := by
        rw [filter_eq_nil_iff]
        intro cost member
        simpa using latest cost member
      have all : added.filter (fun cost => last.timestamp < cost.timestamp) = added := by
        rw [filter_eq_self]
        intro cost member
        simpa using addedLater cost member
      rw [noneOld, all, nil_append]

theorem counts_diff (metrics baseline : Metrics) :
    (metrics.diff baseline).accumulatedTokenUsage.counts =
      metrics.accumulatedTokenUsage.counts - baseline.accumulatedTokenUsage.counts := rfl

/-- A difference is exact when its costs are. -/
theorem diff_holds_iff {baseline : Metrics} {records added : Records}
    (earlier : baseline.Holds records) (later : metrics.Holds (records.append added)) :
    (metrics.diff baseline).Holds added ↔ Later records.costs added.costs := by
  have costs := later_costs_iff later.costs earlier.costs
  have rest {α : Type} (front back : List α) : slice (front ++ back) (some front.length) none = back := by
    rw [slice_rest, drop_left]
  constructor
  · intro holds
    exact costs.mp holds.costs
  · intro ordered
    constructor
    · exact costs.mpr ordered
    · simp only [diff, later.responseLatencies, earlier.responseLatencies, Records.append]
      exact rest _ _
    · simp only [diff, later.tokenUsages, earlier.tokenUsages, Records.append]
      exact rest _ _
    · simp [diff, later.accumulatedCost, earlier.accumulatedCost]
    · rw [counts_diff, later.accumulatedTokens, earlier.accumulatedTokens, Records.tokens_append]
      abel

/-- Of every object that is built, the sums are those of its records; and its difference to an earlier copy
holds exactly what was added since, with the sums, if and only if the costs of the copy end with the
latest one and those added since are later. -/
theorem deltas_exact (labels : List Step) : (∀ metrics ∈ run step [] labels, Consistent metrics) ∧
    ∀ object metrics, (run step [] labels)[object]? = some metrics →
      ∀ later, ∃ after, (run step (run step [] labels) later)[object]? = some after ∧
        ((after.diff metrics.copy).Holds (addedBy object (run step [] labels) later) ↔
          Later metrics.costs (addedBy object (run step [] labels) later).costs) := by
  have consistent := run_consistent [] (by simp) labels
  refine ⟨consistent, fun object metrics found later => ?_⟩
  obtain ⟨after, there, holds⟩ := run_holds _ consistent _ _ _ found
  exact ⟨after, there, diff_holds_iff
    (consistent metrics (List.mem_of_getElem? found)) holds⟩

/-- A cost that is added at the time of the last one before the copy is in the sum of the difference, and
not among its costs. -/
theorem simultaneous_cost_missing :
    ¬ ∀ (labels later : List Step) (object : Nat) (metrics after : Metrics),
      (run step [] labels)[object]? = some metrics →
        (run step (run step [] labels) later)[object]? = some after →
          (after.diff metrics.copy).Holds (addedBy object (run step [] labels) later) := by
  intro all
  have delta := all [.new "model", .add 0 (.cost 1 5)] [.add 0 (.cost 2 5)] 0 _ _ rfl rfl
  have missing := delta.costs
  revert missing
  decide +kernel

/-- A copy without costs. -/
theorem deltas_exact_first :
    ∃ after, (run step (run step [] [.new "model"]) [.add 0 (.cost 2 5)])[0]? = some after ∧
      (after.diff (Metrics.new "model").copy).Holds
        (addedBy 0 (run step [] [.new "model"]) [.add 0 (.cost 2 5)]) := by
  obtain ⟨after, there, holds⟩ := (deltas_exact [.new "model"]).2 0 (Metrics.new "model") rfl
    [.add 0 (.cost 2 5)]
  refine ⟨after, there, holds.mpr ?_⟩
  intro last ends
  cases ends

end ForgePilot.MetricsDeltas
