import ForgePilot.OrderedDict
import ForgePilot.Runs
import Mathlib.Algebra.BigOperators.Group.Finset.Piecewise
import Mathlib.Algebra.Order.BigOperators.Group.Finset
import Mathlib.Algebra.Order.Group.Int
import Mathlib.Algebra.Ring.Int.Defs

/-!
# The recorded cost of a conversation

The agent server reports what each of its uses of a language model has cost so far. A
report reaches the metric columns of a conversation on one of three ways: the webhook of
the conversation and the poll save the combined metrics, an event with statistics updates
the columns from the use by the agent.

Amounts are exact and belong to any ordered group of numbers. Combining metrics is done by
the software development kit and is a parameter; it is assumed to add up the uses. Saving
fills every column, so the columns of a stored conversation hold values.
-/

namespace ForgePilot.ConversationCosts

open Runs List OrderedDict

structure TokenUsage where
  promptTokens : Int := 0
  completionTokens : Int := 0
  cacheReadTokens : Int := 0
  cacheWriteTokens : Int := 0
  reasoningTokens : Int := 0
  contextWindow : Int := 0
  perTurnToken : Int := 0

/-- Accumulated cost and tokens of one use of a model, or of several together. -/
structure Metrics (α : Type) where
  accumulatedCost : α
  maxBudgetPerTask : Option α := none
  accumulatedTokenUsage : Option TokenUsage := none

/-- The metrics of each use of a model. -/
structure ConversationStats (α : Type) where
  usageToMetrics : OrderedDict String (Metrics α)

structure StoredMetrics (α : Type) where
  accumulatedCost : α
  promptTokens : Int
  completionTokens : Int
  totalTokens : Int
  maxBudgetPerTask : Option α
  cacheReadTokens : Int
  cacheWriteTokens : Int
  reasoningTokens : Int
  contextWindow : Int
  perTurnToken : Int

/-- A report of the agent server, by the way it takes. -/
inductive Report (α : Type) where
  | webhook (deleting : Bool) (stats : ConversationStats α)
  | statsEvent (stats : ConversationStats α)
  | refresh (stats : ConversationStats α)

def Report.stats {α : Type} : Report α → ConversationStats α
  | .webhook _ stats => stats
  | .statsEvent stats => stats
  | .refresh stats => stats

section Columns

variable {α : Type}

/-- Statistics update the columns from the use by the agent, where there is one. -/
def updateConversationStatistics (stats : ConversationStats α) (stored : StoredMetrics α) :
    StoredMetrics α :=
  match stats.usageToMetrics.get "agent" with
  | none => stored
  | some agentMetrics =>
      let written :=
        { stored with
          accumulatedCost := agentMetrics.accumulatedCost
          maxBudgetPerTask := agentMetrics.maxBudgetPerTask.or stored.maxBudgetPerTask }
      match agentMetrics.accumulatedTokenUsage with
      | none => written
      | some usage =>
          { written with
            promptTokens := usage.promptTokens
            completionTokens := usage.completionTokens
            cacheReadTokens := usage.cacheReadTokens
            cacheWriteTokens := usage.cacheWriteTokens
            reasoningTokens := usage.reasoningTokens
            contextWindow := usage.contextWindow
            perTurnToken := usage.perTurnToken }

/-- An event with statistics is passed on unless there are none. -/
def processStatsEvent (stats : ConversationStats α) (stored : StoredMetrics α) :
    StoredMetrics α :=
  if stats.usageToMetrics.entries = [] then stored else updateConversationStatistics stats stored

variable [Zero α]

/-- Saving a conversation writes all metric columns but the reasoning tokens. -/
def saveAppConversationInfo (metrics : Option (Metrics α)) (stored : StoredMetrics α) :
    StoredMetrics α :=
  let metrics := metrics.getD { accumulatedCost := 0 }
  let usage := metrics.accumulatedTokenUsage.getD {}
  { accumulatedCost := metrics.accumulatedCost
    promptTokens := usage.promptTokens
    completionTokens := usage.completionTokens
    totalTokens := 0
    maxBudgetPerTask := metrics.maxBudgetPerTask
    cacheReadTokens := usage.cacheReadTokens
    cacheWriteTokens := usage.cacheWriteTokens
    reasoningTokens := stored.reasoningTokens
    contextWindow := usage.contextWindow
    perTurnToken := usage.perTurnToken }

variable (getCombinedMetrics : ConversationStats α → Metrics α)

/-- The columns after a report. The report of a deletion is not saved. -/
def receive (stored : StoredMetrics α) : Report α → StoredMetrics α
  | .webhook deleting stats =>
      if deleting then stored else saveAppConversationInfo (some (getCombinedMetrics stats)) stored
  | .statsEvent stats => processStatsEvent stats stored
  | .refresh stats => saveAppConversationInfo (some (getCombinedMetrics stats)) stored

/-- The columns after each report. -/
def recorded (stored : StoredMetrics α) : List (Report α) → List (StoredMetrics α)
  | [] => []
  | report :: rest =>
      receive getCombinedMetrics stored report ::
        recorded (receive getCombinedMetrics stored report) rest

end Columns

/-! ## Combined totals -/

inductive TokenCount where
  | prompt | completion | cacheRead | cacheWrite | reasoning

def TokenUsage.count (usage : TokenUsage) : TokenCount → Int
  | .prompt => usage.promptTokens
  | .completion => usage.completionTokens
  | .cacheRead => usage.cacheReadTokens
  | .cacheWrite => usage.cacheWriteTokens
  | .reasoning => usage.reasoningTokens

section Totals

variable {α : Type}

def Metrics.count (metrics : Metrics α) (kind : TokenCount) : Int :=
  (metrics.accumulatedTokenUsage.getD {}).count kind

/-- The tokens of a kind in the columns. -/
def StoredMetrics.count (stored : StoredMetrics α) : TokenCount → Int
  | .prompt => stored.promptTokens
  | .completion => stored.completionTokens
  | .cacheRead => stored.cacheReadTokens
  | .cacheWrite => stored.cacheWriteTokens
  | .reasoning => stored.reasoningTokens

/-- What one use contributes; nothing when it is not reported. -/
def ConversationStats.of {β : Type} [Zero β] (stats : ConversationStats α) (usageId : String)
    (measure : Metrics α → β) : β :=
  ((stats.usageToMetrics.get usageId).map measure).getD 0

/-- What all uses contribute together. -/
def ConversationStats.total {β : Type} [Add β] [Zero β] (stats : ConversationStats α)
    (measure : Metrics α → β) : β :=
  (stats.usageToMetrics.values.map measure).sum

/-- No use has gone back. -/
def NoLess [Zero α] [LE α] (earlier later : ConversationStats α) : Prop :=
  ∀ usageId, earlier.of usageId Metrics.accumulatedCost ≤ later.of usageId Metrics.accumulatedCost ∧
    ∀ kind, earlier.of usageId (fun metrics => metrics.count kind) ≤
      later.of usageId (fun metrics => metrics.count kind)

/-- Combined metrics add up the uses. -/
structure SumsOver [Add α] [Zero α] (getCombinedMetrics : ConversationStats α → Metrics α) :
    Prop where
  cost : ∀ stats, (getCombinedMetrics stats).accumulatedCost = stats.total Metrics.accumulatedCost
  tokens : ∀ stats kind, (getCombinedMetrics stats).count kind =
    stats.total (fun metrics => metrics.count kind)

/-- The columns hold the combined totals. -/
def Recorded [Add α] [Zero α] (stored : StoredMetrics α) (stats : ConversationStats α) : Prop :=
  stored.accumulatedCost = stats.total Metrics.accumulatedCost ∧
    ∀ kind, stored.count kind = stats.total (fun metrics => metrics.count kind)

/-- The recorded amounts have not gone back. -/
def Kept [LE α] (earlier later : StoredMetrics α) : Prop :=
  earlier.accumulatedCost ≤ later.accumulatedCost ∧
    ∀ kind, earlier.count kind ≤ later.count kind

/-- The use by the agent is all there is: its cost and its tokens are those of all uses. -/
def AgentAlone [Add α] [Zero α] (stats : ConversationStats α) (agentMetrics : Metrics α)
    (stored : StoredMetrics α) : Prop :=
  agentMetrics.accumulatedCost = stats.total Metrics.accumulatedCost ∧
    match agentMetrics.accumulatedTokenUsage with
    | none => ∀ kind, stored.count kind = stats.total (fun metrics => metrics.count kind)
    | some usage => ∀ kind, usage.count kind = stats.total (fun metrics => metrics.count kind)

/-- A report that is saved finds the reasoning tokens up to date, an event with statistics is
about the agent alone, and where nothing is written the columns hold the totals already. -/
def Complete [Add α] [Zero α] (stored : StoredMetrics α) : Report α → Prop
  | .webhook deleting stats =>
      if deleting then Recorded stored stats
      else stored.reasoningTokens = stats.total (fun metrics => metrics.count .reasoning)
  | .statsEvent stats =>
      match stats.usageToMetrics.get "agent" with
      | none => Recorded stored stats
      | some agentMetrics => AgentAlone stats agentMetrics stored
  | .refresh stats => stored.reasoningTokens = stats.total (fun metrics => metrics.count .reasoning)

/-- After each report the columns hold the combined totals, and they never go back. -/
def Follows [Add α] [Zero α] [LE α] (getCombinedMetrics : ConversationStats α → Metrics α)
    (stored : StoredMetrics α) (reports : List (Report α)) : Prop :=
  Along (receive getCombinedMetrics)
      (fun before report => Recorded (receive getCombinedMetrics before report) report.stats)
      stored reports ∧
    (recorded getCombinedMetrics stored reports).Pairwise Kept

end Totals

section Dictionaries

variable {κ : Type} {ν : Type} [DecidableEq κ]

/-- A key that is not among the keys has no entry. -/
theorem find_none {key : κ} {entries : List (κ × ν)} (absent : key ∉ entries.map Prod.fst) :
    OrderedDict.find key entries = none := by
  induction entries with
  | nil => rfl
  | cons entry rest ih =>
    rw [map_cons, mem_cons, not_or] at absent
    rw [find, if_neg absent.1, ih absent.2]

/-- The values of a dictionary are added up over any keys that include its own. -/
theorem sum_values {β : Type} [AddCommMonoid β] {dict : OrderedDict κ ν} (measure : ν → β)
    {keys : Finset κ} (covered : ∀ key ∈ dict.keys, key ∈ keys) :
    (dict.values.map measure).sum = ∑ key ∈ keys, ((dict.get key).map measure).getD 0 := by
  obtain ⟨entries, distinct⟩ := dict
  change ((entries.map Prod.snd).map measure).sum =
    ∑ key ∈ keys, ((find key entries).map measure).getD 0
  replace covered : ∀ key ∈ entries.map Prod.fst, key ∈ keys := covered
  induction entries with
  | nil => simp [find]
  | cons entry rest ih =>
    obtain ⟨first, value⟩ := entry
    rw [map_cons, nodup_cons] at distinct
    obtain ⟨absent, restDistinct⟩ := distinct
    have missing : find first rest = none := find_none absent
    have apart (key : κ) : ((find key ((first, value) :: rest)).map measure).getD 0 =
        (if key = first then measure value else 0) +
          ((find key rest).map measure).getD 0 := by
      by_cases same : key = first
      · subst same
        simp [find, missing]
      · simp [find, same]
    simp only [apart, Finset.sum_add_distrib, Finset.sum_ite_eq', covered first (by simp), if_true,
      map_cons, sum_cons]
    rw [ih restDistinct (fun key present => covered key (by simp [present]))]

end Dictionaries

section Reports

variable {α : Type}

variable {prior later : ConversationStats α}

/-- Where no use contributes less, all uses together do not either. -/
theorem total_le {β : Type} [AddCommMonoid β] [PartialOrder β] [IsOrderedAddMonoid β]
    {measure : Metrics α → β}
    (uses : ∀ usageId, prior.of usageId measure ≤ later.of usageId measure) :
    prior.total measure ≤ later.total measure := by
  let usageIds := prior.usageToMetrics.keys.toFinset ∪ later.usageToMetrics.keys.toFinset
  have before : prior.total measure = ∑ usageId ∈ usageIds, prior.of usageId measure :=
    sum_values _ (fun usageId present => by
      simp [usageIds, present])
  have after : later.total measure = ∑ usageId ∈ usageIds, later.of usageId measure :=
    sum_values _ (fun usageId present => by
      simp [usageIds, present])
  rw [before, after]
  exact Finset.sum_le_sum (fun usageId _ => uses usageId)

/-- Statistics without a use by the agent change nothing. -/
theorem statistics_without_agent (stats : ConversationStats α) (stored : StoredMetrics α)
    (missing : stats.usageToMetrics.get "agent" = none) :
    processStatsEvent stats stored = stored := by
  rw [processStatsEvent]
  split
  · rfl
  · rw [updateConversationStatistics, missing]

variable [AddCommMonoid α]

variable (getCombinedMetrics : ConversationStats α → Metrics α)

/-- Saving records the totals just when the reasoning tokens are those already. -/
theorem saved_recorded (sums : SumsOver getCombinedMetrics) (stats : ConversationStats α)
    (stored : StoredMetrics α) :
    Recorded (saveAppConversationInfo (some (getCombinedMetrics stats)) stored) stats ↔
      stored.reasoningTokens = stats.total (fun metrics => metrics.count .reasoning) := by
  constructor
  · rintro ⟨-, tokens⟩
    exact tokens .reasoning
  · intro upToDate
    refine ⟨sums.cost stats, fun kind => ?_⟩
    cases kind with
    | prompt => exact sums.tokens stats .prompt
    | completion => exact sums.tokens stats .completion
    | cacheRead => exact sums.tokens stats .cacheRead
    | cacheWrite => exact sums.tokens stats .cacheWrite
    | reasoning => exact upToDate

variable (stored : StoredMetrics α)

/-- Statistics with a use by the agent write that use. -/
theorem statistics_with_agent {stats : ConversationStats α} {agentMetrics : Metrics α}
    (present : stats.usageToMetrics.get "agent" = some agentMetrics) :
    Recorded (processStatsEvent stats stored) stats ↔ AgentAlone stats agentMetrics stored := by
  have filled : stats.usageToMetrics.entries ≠ [] := by
    intro nothing
    rw [OrderedDict.get, nothing] at present
    cases present
  rw [processStatsEvent, if_neg filled, updateConversationStatistics, present]
  cases usage : agentMetrics.accumulatedTokenUsage with
  | none =>
    simp only [Recorded, AgentAlone, usage]
    refine and_congr Iff.rfl (forall_congr' fun kind => ?_)
    cases kind <;> rfl
  | some usage' =>
    simp only [Recorded, AgentAlone, usage]
    refine and_congr Iff.rfl (forall_congr' fun kind => ?_)
    cases kind <;> rfl

/-- A report leaves the totals in the columns just when it is complete. -/
theorem receive_recorded (sums : SumsOver getCombinedMetrics) (stored : StoredMetrics α)
    (report : Report α) :
    Recorded (receive getCombinedMetrics stored report) report.stats ↔ Complete stored report := by
  cases report with
  | webhook deleting stats =>
    cases deleting with
    | false => exact saved_recorded _ sums ..
    | true => exact Iff.rfl
  | statsEvent stats =>
    change Recorded (processStatsEvent stats stored) stats ↔ _
    simp only [Complete]
    cases present : stats.usageToMetrics.get "agent" with
    | none => rw [statistics_without_agent _ _ present]
    | some agentMetrics => exact statistics_with_agent _ present
  | refresh stats => exact saved_recorded _ sums ..

variable (reports : List (Report α))

/-- When all reports leave the totals, each later column holds those of a later report. -/
theorem later_recorded (always : Along (receive getCombinedMetrics)
      (fun before report => Recorded (receive getCombinedMetrics before report) report.stats)
      stored reports) (after : StoredMetrics α)
    (later : after ∈ recorded getCombinedMetrics stored reports) :
    ∃ report ∈ reports, Recorded after report.stats := by
  induction reports generalizing stored with
  | nil => cases later
  | cons report rest ih =>
    rcases later with _ | ⟨_, following⟩
    · exact ⟨report, .head _, always.1⟩
    · obtain ⟨other, present, holds⟩ := ih _ always.2 following
      exact ⟨other, .tail report present, holds⟩

variable [PartialOrder α] [IsOrderedAddMonoid α]

/-- Columns that hold the totals of later statistics have not gone back. -/
theorem recorded_kept {before after : StoredMetrics α} (growing : NoLess prior later)
    (first : Recorded before prior) (second : Recorded after later) : Kept before after := by
  constructor
  · rw [first.1, second.1]
    exact total_le (fun usageId => (growing usageId).1)
  · intro kind
    rw [first.2 kind, second.2 kind]
    exact total_le (fun usageId => (growing usageId).2 kind)

/-- When no use goes back and all reports leave the totals, the columns never go back. -/
theorem never_back (growing : reports.Pairwise (fun prior later => NoLess prior.stats later.stats))
    (always : Along (receive getCombinedMetrics)
      (fun before report => Recorded (receive getCombinedMetrics before report) report.stats)
      stored reports) : (recorded getCombinedMetrics stored reports).Pairwise Kept := by
  induction reports generalizing stored with
  | nil => exact List.Pairwise.nil
  | cons report rest ih =>
    obtain ⟨first, others⟩ := pairwise_cons.mp growing
    refine pairwise_cons.mpr ⟨fun after later => ?_, ih _ others always.2⟩
    obtain ⟨other, present, holds⟩ := later_recorded _ _ _ always.2 _ later
    exact recorded_kept (first other present) always.1 holds

/-- The columns follow the combined totals of the reports just when every report is complete. -/
theorem costs_exact (sums : SumsOver getCombinedMetrics) (stored : StoredMetrics α)
    (reports : List (Report α))
    (growing : reports.Pairwise (fun earlier later => NoLess earlier.stats later.stats)) :
    Follows getCombinedMetrics stored reports ↔
      Along (receive getCombinedMetrics) Complete stored reports := by
  have guards : (fun before report =>
      Recorded (receive getCombinedMetrics before report) report.stats) =
      (Complete : StoredMetrics α → Report α → Prop) :=
    funext fun before => funext fun report => propext (receive_recorded _ sums ..)
  rw [Follows]
  constructor
  · rintro ⟨always, -⟩
    exact guards ▸ always
  · intro complete
    have always := guards ▸ complete
    exact ⟨always, never_back _ _ _ growing always⟩

end Reports

section Combination

variable {α : Type}

/-- Two metrics together, as the display adds them up. -/
def combine [Add α] (combined metrics : Metrics α) : Metrics α where
  accumulatedCost := combined.accumulatedCost + metrics.accumulatedCost
  maxBudgetPerTask := combined.maxBudgetPerTask.or metrics.maxBudgetPerTask
  accumulatedTokenUsage :=
    match combined.accumulatedTokenUsage, metrics.accumulatedTokenUsage with
    | some sum, some usage => some
        { promptTokens := sum.promptTokens + usage.promptTokens
          completionTokens := sum.completionTokens + usage.completionTokens
          cacheReadTokens := sum.cacheReadTokens + usage.cacheReadTokens
          cacheWriteTokens := sum.cacheWriteTokens + usage.cacheWriteTokens
          reasoningTokens := sum.reasoningTokens + usage.reasoningTokens
          contextWindow := max sum.contextWindow usage.contextWindow
          perTurnToken := usage.perTurnToken }
    | some sum, none => some sum
    | none, usage => usage

/-- The metrics of all uses, added up one after the other. -/
def combinedMetrics [Add α] [Zero α] (stats : ConversationStats α) : Metrics α :=
  stats.usageToMetrics.values.foldl combine { accumulatedCost := 0 }

theorem combine_count [Add α] (combined metrics : Metrics α) (kind : TokenCount) :
    (combine combined metrics).count kind = combined.count kind + metrics.count kind := by
  obtain ⟨cost, budget, usage⟩ := combined
  obtain ⟨cost', budget', usage'⟩ := metrics
  cases usage <;> cases usage' <;> cases kind <;> simp [combine, Metrics.count, TokenUsage.count]

theorem combined_sums [AddCommMonoid α] : SumsOver (combinedMetrics : ConversationStats α → _) := by
  have costs (metrics : List (Metrics α)) (start : Metrics α) :
      (metrics.foldl combine start).accumulatedCost =
        start.accumulatedCost + (metrics.map Metrics.accumulatedCost).sum := by
    induction metrics generalizing start with
    | nil => simp
    | cons first rest ih =>
      rw [foldl_cons, ih, map_cons, sum_cons, ← add_assoc]
      rfl
  have tokens (metrics : List (Metrics α)) (kind : TokenCount) (start : Metrics α) :
      (metrics.foldl combine start).count kind =
        start.count kind + (metrics.map (fun metrics => metrics.count kind)).sum := by
    induction metrics generalizing start with
    | nil => simp
    | cons first rest ih =>
      rw [foldl_cons, ih, combine_count, map_cons, sum_cons, add_assoc]
  refine ⟨fun stats => ?_, fun stats kind => ?_⟩
  · rw [combinedMetrics, costs, zero_add]
    rfl
  · rw [combinedMetrics, tokens]
    cases kind <;> exact zero_add _

end Combination

/-- Nothing has been recorded. -/
def unused : StoredMetrics Int := ⟨0, 0, 0, 0, none, 0, 0, 0, 0, 0⟩

/-- The agent alone has cost ten. -/
def agentOnly : ConversationStats Int :=
  ⟨⟨[("agent", { accumulatedCost := 10, accumulatedTokenUsage := some { promptTokens := 100 } })],
    by decide⟩⟩

/-- The agent has cost ten, and condensing five. -/
def agentAndCondenser : ConversationStats Int :=
  ⟨⟨[("agent", { accumulatedCost := 10, accumulatedTokenUsage := some { promptTokens := 100 } }),
    ("condenser", { accumulatedCost := 5, accumulatedTokenUsage := some { promptTokens := 40 } })],
    by decide⟩⟩

/-- Statistics have not gone back when they are the same. -/
theorem no_less_self (stats : ConversationStats Int) : NoLess stats stats :=
  fun _ => ⟨le_rfl, fun _ => le_rfl⟩

/-- Reports about the agent alone are followed on all three ways. -/
theorem agent_followed : Follows combinedMetrics unused
    [.webhook false agentOnly, .statsEvent agentOnly, .refresh agentOnly] := by
  refine (costs_exact _ combined_sums _ _ ?_).mpr ⟨?_, ?_, ?_, trivial⟩
  · simp [Report.stats, no_less_self]
  · rfl
  · refine ⟨rfl, fun kind => ?_⟩
    cases kind <;> rfl
  · rfl

/-- An event with the statistics of a webhook takes the recorded cost from fifteen back to ten. -/
theorem condenser_forgotten :
    [Report.webhook false agentAndCondenser, .statsEvent agentAndCondenser].Pairwise
      (fun earlier later => NoLess earlier.stats later.stats) ∧
    (recorded combinedMetrics unused
      [.webhook false agentAndCondenser, .statsEvent agentAndCondenser]).map
        StoredMetrics.accumulatedCost = [15, 10] ∧
    ¬ Follows combinedMetrics unused
      [.webhook false agentAndCondenser, .statsEvent agentAndCondenser] := by
  refine ⟨by simp [Report.stats, no_less_self], by decide, ?_⟩
  rintro ⟨⟨-, ⟨cost, -⟩, -⟩, -⟩
  cases cost

end ForgePilot.ConversationCosts
