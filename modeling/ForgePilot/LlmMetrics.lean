import ForgePilot.Sequences
import Mathlib.Algebra.BigOperators.Group.List.Basic
import Mathlib.Algebra.Group.Prod
import Mathlib.Algebra.Order.Ring.Rat
import Mathlib.Tactic.Abel

/-!
# Metrics of a language model

Costs, latencies and token usages are collected one by one, together with their sums. Metrics can be merged
into others and copied, and the difference to an earlier copy is made up from the parts: costs are told
apart by their timestamps, latencies and usages by their number.

Amounts and times are exact numbers. The second half of the module says which records an object holds
after each operation.
-/

namespace ForgePilot.LlmMetrics

open Sequences

structure Cost where
  model : String
  cost : Rat
  timestamp : Rat
deriving DecidableEq

structure ResponseLatency where
  model : String
  latency : Rat
  responseId : String
deriving DecidableEq

structure TokenUsage where
  model : String := ""
  promptTokens : Int := 0
  completionTokens : Int := 0
  cacheReadTokens : Int := 0
  cacheWriteTokens : Int := 0
  contextWindow : Int := 0
  perTurnToken : Int := 0
  responseId : String := ""
deriving DecidableEq

/-- Token counts are added, of context windows the greater one stays, and the last turn counts. -/
def TokenUsage.add (usage other : TokenUsage) : TokenUsage where
  model := usage.model
  promptTokens := usage.promptTokens + other.promptTokens
  completionTokens := usage.completionTokens + other.completionTokens
  cacheReadTokens := usage.cacheReadTokens + other.cacheReadTokens
  cacheWriteTokens := usage.cacheWriteTokens + other.cacheWriteTokens
  contextWindow := max usage.contextWindow other.contextWindow
  perTurnToken := other.perTurnToken
  responseId := usage.responseId

structure Metrics where
  modelName : String
  accumulatedCost : Rat
  maxBudgetPerTask : Option Rat
  costs : List Cost
  responseLatencies : List ResponseLatency
  tokenUsages : List TokenUsage
  accumulatedTokenUsage : TokenUsage

namespace Metrics

/-- Metrics without records. -/
def new (modelName : String) : Metrics where
  modelName := modelName
  accumulatedCost := 0
  maxBudgetPerTask := none
  costs := []
  responseLatencies := []
  tokenUsages := []
  accumulatedTokenUsage := { model := modelName }

def addCost (metrics : Metrics) (value now : Rat) : Except String Metrics :=
  if value < 0 then .error "Added cost cannot be negative."
  else .ok { metrics with
    accumulatedCost := metrics.accumulatedCost + value
    costs := metrics.costs ++ [⟨metrics.modelName, value, now⟩] }

def addResponseLatency (metrics : Metrics) (value : Rat) (responseId : String) : Metrics :=
  { metrics with
    responseLatencies := metrics.responseLatencies ++ [⟨metrics.modelName, max 0 value, responseId⟩] }

/-- The usage of one call; a turn is its prompt and its completion. -/
def usageOf (metrics : Metrics) (promptTokens completionTokens cacheReadTokens cacheWriteTokens
    contextWindow : Int) (responseId : String) : TokenUsage where
  model := metrics.modelName
  promptTokens := promptTokens
  completionTokens := completionTokens
  cacheReadTokens := cacheReadTokens
  cacheWriteTokens := cacheWriteTokens
  contextWindow := contextWindow
  perTurnToken := promptTokens + completionTokens
  responseId := responseId

/-- Add a usage; the accumulated one does not keep its response. -/
def addTokenUsage (metrics : Metrics) (promptTokens completionTokens cacheReadTokens cacheWriteTokens
    contextWindow : Int) (responseId : String) : Metrics :=
  { metrics with
    tokenUsages := metrics.tokenUsages ++ [metrics.usageOf promptTokens completionTokens
      cacheReadTokens cacheWriteTokens contextWindow responseId]
    accumulatedTokenUsage := metrics.accumulatedTokenUsage.add (metrics.usageOf promptTokens
      completionTokens cacheReadTokens cacheWriteTokens contextWindow "") }

/-- Take the records of other metrics over; a budget is taken over where there is none. -/
def merge (metrics other : Metrics) : Metrics :=
  { metrics with
    accumulatedCost := metrics.accumulatedCost + other.accumulatedCost
    maxBudgetPerTask := metrics.maxBudgetPerTask.or other.maxBudgetPerTask
    costs := metrics.costs ++ other.costs
    tokenUsages := metrics.tokenUsages ++ other.tokenUsages
    responseLatencies := metrics.responseLatencies ++ other.responseLatencies
    accumulatedTokenUsage := metrics.accumulatedTokenUsage.add other.accumulatedTokenUsage }

/-- A deep copy shares nothing with the original. -/
def copy (metrics : Metrics) : Metrics := metrics

/-- The costs that are later than the last one of a baseline, or all where it has none. -/
def costsSince (metrics baseline : Metrics) : List Cost :=
  match baseline.costs.getLast? with
  | some last => metrics.costs.filter (fun cost => last.timestamp < cost.timestamp)
  | none => metrics.costs

def diff (metrics baseline : Metrics) : Metrics where
  modelName := metrics.modelName
  accumulatedCost := metrics.accumulatedCost - baseline.accumulatedCost
  maxBudgetPerTask := none
  costs := metrics.costsSince baseline
  responseLatencies := slice metrics.responseLatencies (some baseline.responseLatencies.length) none
  tokenUsages := slice metrics.tokenUsages (some baseline.tokenUsages.length) none
  accumulatedTokenUsage :=
    let base := baseline.accumulatedTokenUsage
    let current := metrics.accumulatedTokenUsage
    { model := metrics.modelName
      promptTokens := current.promptTokens - base.promptTokens
      completionTokens := current.completionTokens - base.completionTokens
      cacheReadTokens := current.cacheReadTokens - base.cacheReadTokens
      cacheWriteTokens := current.cacheWriteTokens - base.cacheWriteTokens
      contextWindow := current.contextWindow
      perTurnToken := 0
      responseId := "" }

end Metrics

/-- What is added to metrics by a call. -/
inductive Addition where
  | cost (value now : Rat)
  | responseLatency (value : Rat) (responseId : String)
  | tokenUsage (promptTokens completionTokens cacheReadTokens cacheWriteTokens contextWindow : Int)
      (responseId : String)

/-- The metrics after an addition; a cost that is refused changes nothing. -/
def Addition.apply (metrics : Metrics) : Addition → Metrics
  | .cost value now =>
      match metrics.addCost value now with
      | .ok after => after
      | .error _ => metrics
  | .responseLatency value responseId => metrics.addResponseLatency value responseId
  | .tokenUsage promptTokens completionTokens cacheReadTokens cacheWriteTokens contextWindow responseId =>
      metrics.addTokenUsage promptTokens completionTokens cacheReadTokens cacheWriteTokens contextWindow
        responseId

/-! ## Records and their sums -/

/-- The counts of a usage that are added up. -/
def TokenUsage.counts (usage : TokenUsage) : Int × Int × Int × Int :=
  (usage.promptTokens, usage.completionTokens, usage.cacheReadTokens, usage.cacheWriteTokens)

/-- Costs, latencies and usages in the order in which they were added. -/
structure Records where
  costs : List Cost
  responseLatencies : List ResponseLatency
  tokenUsages : List TokenUsage
deriving DecidableEq

namespace Records

def none : Records := ⟨[], [], []⟩

def append (records more : Records) : Records where
  costs := records.costs ++ more.costs
  responseLatencies := records.responseLatencies ++ more.responseLatencies
  tokenUsages := records.tokenUsages ++ more.tokenUsages

def spent (records : Records) : Rat := (records.costs.map Cost.cost).sum

/-- The sums of the token counts. -/
def tokens (records : Records) : Int × Int × Int × Int :=
  (records.tokenUsages.map TokenUsage.counts).sum

@[simp] theorem none_append (records : Records) : none.append records = records := rfl

@[simp] theorem append_none (records : Records) : records.append none = records := by
  simp [append, none]

theorem append_assoc (first second third : Records) :
    (first.append second).append third = first.append (second.append third) := by
  simp [append]

@[simp] theorem spent_none : none.spent = 0 := rfl

@[simp] theorem spent_append (records more : Records) :
    (records.append more).spent = records.spent + more.spent := by
  simp [spent, append]

@[simp] theorem tokens_append (records more : Records) :
    (records.append more).tokens = records.tokens + more.tokens := by
  simp [tokens, append]

end Records

/-- Metrics hold records, in order, and their sums. -/
structure Metrics.Holds (metrics : Metrics) (records : Records) : Prop where
  costs : metrics.costs = records.costs
  responseLatencies : metrics.responseLatencies = records.responseLatencies
  tokenUsages : metrics.tokenUsages = records.tokenUsages
  accumulatedCost : metrics.accumulatedCost = records.spent
  accumulatedTokens : metrics.accumulatedTokenUsage.counts = records.tokens

theorem counts_add (usage other : TokenUsage) :
    (usage.add other).counts = usage.counts + other.counts := rfl

theorem holds_new (modelName : String) : (Metrics.new modelName).Holds .none :=
  ⟨rfl, rfl, rfl, rfl, rfl⟩

/-- The records of a cost that may be refused. -/
def costRecords (modelName : String) (value now : Rat) : Records :=
  if value < 0 then .none else ⟨[⟨modelName, value, now⟩], [], []⟩

theorem holds_addCost {metrics after : Metrics} {records : Records} {value now : Rat}
    (holds : metrics.Holds records) (added : metrics.addCost value now = .ok after) :
    after.Holds (records.append (costRecords metrics.modelName value now)) := by
  unfold Metrics.addCost at added
  split at added
  · cases added
  rename_i counted
  cases added
  rw [costRecords, if_neg counted]
  constructor
  · simp [Records.append, holds.costs]
  · simp [Records.append, holds.responseLatencies]
  · simp [Records.append, holds.tokenUsages]
  · simp [Records.spent, Records.append, holds.accumulatedCost]
  · simp [Records.tokens, Records.append, holds.accumulatedTokens]

def latencyRecords (modelName : String) (value : Rat) (responseId : String) : Records :=
  ⟨[], [⟨modelName, max 0 value, responseId⟩], []⟩

theorem holds_addResponseLatency {metrics : Metrics} {records : Records} (value : Rat)
    (responseId : String) (holds : metrics.Holds records) :
    (metrics.addResponseLatency value responseId).Holds
      (records.append (latencyRecords metrics.modelName value responseId)) := by
  constructor
  · simp [Metrics.addResponseLatency, latencyRecords, Records.append, holds.costs]
  · simp [Metrics.addResponseLatency, latencyRecords, Records.append, holds.responseLatencies]
  · simp [Metrics.addResponseLatency, latencyRecords, Records.append, holds.tokenUsages]
  · simp [Metrics.addResponseLatency, latencyRecords, Records.spent, Records.append,
      holds.accumulatedCost]
  · simp [Metrics.addResponseLatency, latencyRecords, Records.tokens, Records.append,
      holds.accumulatedTokens]

theorem holds_addTokenUsage {metrics : Metrics} {records : Records} (promptTokens completionTokens
    cacheReadTokens cacheWriteTokens contextWindow : Int) (responseId : String)
    (holds : metrics.Holds records) :
    (metrics.addTokenUsage promptTokens completionTokens cacheReadTokens cacheWriteTokens contextWindow
      responseId).Holds (records.append ⟨[], [], [metrics.usageOf promptTokens completionTokens
        cacheReadTokens cacheWriteTokens contextWindow responseId]⟩) := by
  constructor
  · simp [Metrics.addTokenUsage, Records.append, holds.costs]
  · simp [Metrics.addTokenUsage, Records.append, holds.responseLatencies]
  · simp [Metrics.addTokenUsage, Records.append, holds.tokenUsages]
  · simp [Metrics.addTokenUsage, Records.spent, Records.append, holds.accumulatedCost]
  · have split := Records.tokens_append records ⟨[], [], [metrics.usageOf promptTokens
      completionTokens cacheReadTokens cacheWriteTokens contextWindow responseId]⟩
    simp only [Metrics.addTokenUsage, counts_add, holds.accumulatedTokens, split]
    simp [Records.tokens, Metrics.usageOf, TokenUsage.counts]

theorem holds_merge {metrics other : Metrics} {records more : Records} (holds : metrics.Holds records)
    (otherHolds : other.Holds more) : (metrics.merge other).Holds (records.append more) := by
  constructor
  · simp [Metrics.merge, Records.append, holds.costs, otherHolds.costs]
  · simp [Metrics.merge, Records.append, holds.responseLatencies, otherHolds.responseLatencies]
  · simp [Metrics.merge, Records.append, holds.tokenUsages, otherHolds.tokenUsages]
  · simp [Metrics.merge, holds.accumulatedCost, otherHolds.accumulatedCost]
  · simp [Metrics.merge, counts_add, holds.accumulatedTokens, otherHolds.accumulatedTokens]

def Addition.records (modelName : String) : Addition → Records
  | .cost value now => costRecords modelName value now
  | .responseLatency value responseId => latencyRecords modelName value responseId
  | .tokenUsage promptTokens completionTokens cacheReadTokens cacheWriteTokens contextWindow responseId =>
      ⟨[], [], [(Metrics.new modelName).usageOf promptTokens completionTokens cacheReadTokens
        cacheWriteTokens contextWindow responseId]⟩

theorem holds_apply {metrics : Metrics} {records : Records} (addition : Addition)
    (holds : metrics.Holds records) :
    (addition.apply metrics).Holds (records.append (addition.records metrics.modelName)) := by
  cases addition with
  | cost value now =>
    rw [Addition.apply, Addition.records]
    cases added : metrics.addCost value now with
    | ok after => exact holds_addCost holds added
    | error message =>
      have refused : value < 0 := by
        by_contra counted
        rw [Metrics.addCost, if_neg counted] at added
        cases added
      rwa [costRecords, if_pos refused, Records.append_none]
  | responseLatency value responseId =>
    exact holds_addResponseLatency _ _ holds
  | tokenUsage promptTokens completionTokens cacheReadTokens cacheWriteTokens contextWindow responseId =>
    exact holds_addTokenUsage _ _ _ _ _ _ holds

/-- What is added costs nothing or more. -/
theorem addition_spent (modelName : String) (addition : Addition) :
    0 ≤ (addition.records modelName).spent := by
  cases addition with
  | cost value now =>
    rw [Addition.records, costRecords]
    split
    · exact le_rfl
    · rename_i counted
      simpa [Records.spent] using not_lt.mp counted
  | responseLatency value responseId => exact le_rfl
  | tokenUsage => exact le_rfl

/-- Metrics that hold records hold no others. -/
theorem Metrics.Holds.unique {metrics : Metrics} {records others : Records}
    (holds : metrics.Holds records) (again : metrics.Holds others) : records = others := by
  cases records
  cases others
  simp only [Records.mk.injEq]
  exact ⟨holds.costs.symm.trans again.costs, holds.responseLatencies.symm.trans
    again.responseLatencies, holds.tokenUsages.symm.trans again.tokenUsages⟩

end ForgePilot.LlmMetrics
