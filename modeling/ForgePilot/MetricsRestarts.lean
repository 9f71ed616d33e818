import ForgePilot.ConversationCosts
import ForgePilot.LlmMetrics

/-!
# Metrics of a conversation over restarts

Each service of a conversation has metrics of its own. They are saved together in one file, and a new
process keeps what it reads there aside until the services are registered again.

What is saved is complete whatever is registered, since both maps are written. The combined metrics, and with
them the budget, count the registered services only: after a restart they are the total again once every
service that had costs is registered.
-/

namespace ForgePilot.MetricsRestarts

open Runs LlmMetrics List OrderedDict

/-- The metrics of the registered services and those that were read and not asked for yet. -/
structure ConversationStats where
  conversationId : String
  serviceToMetrics : OrderedDict String Metrics
  restoredMetrics : OrderedDict String Metrics

/-- Assign all entries of another dictionary. -/
def update (dict other : OrderedDict String Metrics) : OrderedDict String Metrics :=
  other.entries.foldl (fun dict entry => dict.set entry.1 entry.2) dict

namespace ConversationStats

/-- What is read from the file, if there is one. -/
def maybeRestoreMetrics (conversationId : String) (file : Option (OrderedDict String Metrics)) :
    OrderedDict String Metrics :=
  if conversationId = "" then .empty else file.getD .empty

/-- The statistics of a new process. -/
def new (conversationId : String) (file : Option (OrderedDict String Metrics)) : ConversationStats where
  conversationId := conversationId
  serviceToMetrics := .empty
  restoredMetrics := maybeRestoreMetrics conversationId file

/-- What is written to the file. -/
def saveMetrics (stats : ConversationStats) : OrderedDict String Metrics :=
  update stats.restoredMetrics stats.serviceToMetrics

def getCombinedMetrics (stats : ConversationStats) : Metrics :=
  stats.serviceToMetrics.values.foldl Metrics.merge (Metrics.new "default")

/-- A service takes over its metrics from before, and starts with those of its model otherwise. -/
def registerLlm (stats : ConversationStats) (serviceId : String) (llmMetrics : Metrics) :
    ConversationStats :=
  match stats.restoredMetrics.get serviceId with
  | some metrics => { stats with
      serviceToMetrics := stats.serviceToMetrics.set serviceId metrics.copy
      restoredMetrics := stats.restoredMetrics.erase serviceId }
  | none => { stats with serviceToMetrics := stats.serviceToMetrics.set serviceId llmMetrics }

def modify (stats : ConversationStats) (serviceId : String) (change : Metrics → Metrics) :
    ConversationStats :=
  match stats.serviceToMetrics.get serviceId with
  | some metrics =>
      { stats with serviceToMetrics := stats.serviceToMetrics.set serviceId (change metrics) }
  | none => stats

end ConversationStats

structure BudgetControlFlag where
  limitIncreaseAmount : Rat
  currentValue : Rat
  maxValue : Rat
  hitLimit : Bool := false

/-- The value of the flag is what all services have cost. -/
def syncBudgetFlagWithMetrics (budgetFlag : Option BudgetControlFlag)
    (conversationStats : Option ConversationStats) : Option BudgetControlFlag :=
  match budgetFlag, conversationStats with
  | some flag, some stats =>
      some { flag with currentValue := stats.getCombinedMetrics.accumulatedCost }
  | flag, _ => flag

/-! ## Runs -/

inductive Step where
  | registerLlm (serviceId modelName : String)
  | add (serviceId : String) (addition : Addition)
  | saveMetrics
  | restart

/-- A process and the file. -/
structure System where
  stats : ConversationStats
  file : Option (OrderedDict String Metrics)

/-- The first process of a conversation. -/
def initial (conversationId : String) : System := ⟨.new conversationId none, none⟩

def step (system : System) : Step → System
  | .registerLlm serviceId modelName =>
      { system with stats := system.stats.registerLlm serviceId (Metrics.new modelName) }
  | .add serviceId addition =>
      { system with stats := system.stats.modify serviceId addition.apply }
  | .saveMetrics => { system with file := some system.stats.saveMetrics }
  | .restart => { system with stats := .new system.stats.conversationId system.file }

/-! ## What was added -/

def addedTo (serviceId : String) : List (String × Records) → Records
  | [] => .none
  | (other, added) :: rest =>
      if other = serviceId then added.append (addedTo serviceId rest) else addedTo serviceId rest

/-- All costs that were added. -/
def spentOn (log : List (String × Records)) : Rat := (log.map fun entry => entry.2.spent).sum

/-- The additions so far and those before the last restart, the services that this process has registered,
and whether something was added since the last time the metrics were saved. -/
structure History where
  log : List (String × Records) := []
  before : List (String × Records) := []
  registered : List String := []
  unsaved : Bool := false

/-- What a step adds to the history; what has no service is not added. -/
def History.next (history : History) (system : System) : Step → History
  | .registerLlm serviceId _ => { history with registered := serviceId :: history.registered }
  | .add serviceId addition =>
      let added := (system.stats.serviceToMetrics.get serviceId).elim .none
        fun metrics => addition.records metrics.modelName
      { history with
        log := history.log ++ [(serviceId, added)]
        unsaved := history.unsaved || decide (added ≠ .none) }
  | .saveMetrics => { history with unsaved := false }
  | .restart => { history with before := history.log, registered := [] }

def both (state : System × History) (label : Step) : System × History :=
  (step state.1 label, state.2.next state.1 label)

/-- Services are registered once in each process, and additions are saved before a restart. -/
def Protocol (state : System × History) : Step → Prop
  | .registerLlm serviceId _ => serviceId ∉ state.2.registered
  | .restart => state.2.unsaved = false
  | _ => True

instance (state : System × History) : DecidablePred (Protocol state)
  | .registerLlm serviceId _ => inferInstanceAs (Decidable (serviceId ∉ state.2.registered))
  | .add _ _ => inferInstanceAs (Decidable True)
  | .saveMetrics => inferInstanceAs (Decidable True)
  | .restart => inferInstanceAs (Decidable (state.2.unsaved = false))

/-- An entry of a map holds records; without an entry there are none. -/
def Holding (entry : Option Metrics) (records : Records) : Prop :=
  entry.elim (records = .none) fun metrics => metrics.Holds records

/-- Both maps together hold what was added, each service in one of them, and what is saved is complete. -/
structure Sound (state : System × History) : Prop where
  named : state.1.stats.conversationId ≠ ""
  counted : ∀ entry ∈ state.2.log, 0 ≤ entry.2.spent
  registered (serviceId : String) : serviceId ∈ state.2.registered ↔
    (state.1.stats.serviceToMetrics.get serviceId).isSome
  apart (serviceId : String) : serviceId ∈ state.2.registered →
    state.1.stats.restoredMetrics.get serviceId = none
  held (serviceId : String) : Holding ((state.1.stats.serviceToMetrics.get serviceId).or
    (state.1.stats.restoredMetrics.get serviceId)) (addedTo serviceId state.2.log)
  before (serviceId : String) : serviceId ∉ state.2.registered →
    addedTo serviceId state.2.log = addedTo serviceId state.2.before
  saved : state.2.unsaved = false → ∀ serviceId,
    Holding (state.1.file.bind fun map => map.get serviceId) (addedTo serviceId state.2.log)

/-! ## Dictionaries -/

/-- Entries of the other dictionary come first. -/
theorem get_update (dict other : OrderedDict String Metrics) (key : String) :
    (update dict other).get key = (other.get key).or (dict.get key) := by
  obtain ⟨entries, distinct⟩ := other
  change (entries.foldl _ dict).get key = (find key entries).or (dict.get key)
  induction entries generalizing dict with
  | nil => rfl
  | cons entry rest ih =>
    obtain ⟨first, value⟩ := entry
    rw [map_cons, nodup_cons] at distinct
    rw [foldl_cons, ih _ distinct.2, get_set, find]
    by_cases same : key = first
    · subst same
      rw [if_pos rfl, if_pos rfl, ConversationCosts.find_none distinct.1]
      rfl
    · rw [if_neg same, if_neg same]

/-! ## Logs -/

variable (state : System × History) (stats : ConversationStats) (serviceId : String)

theorem added_append (log more : List (String × Records)) :
    addedTo serviceId (log ++ more) = (addedTo serviceId log).append (addedTo serviceId more) := by
  induction log with
  | nil => rfl
  | cons entry rest ih =>
    rw [cons_append, addedTo, addedTo, ih]
    split
    · rw [Records.append_assoc]
    · rfl

variable (other : String)

/-- What was added to one service after one more addition. -/
theorem added_last (log : List (String × Records)) (added : Records) :
    addedTo serviceId (log ++ [(other, added)]) =
      if other = serviceId then (addedTo serviceId log).append added else addedTo serviceId log := by
  rw [added_append, addedTo, addedTo]
  split
  · rw [Records.append_none]
  · rw [Records.append_none]

variable {log : List (String × Records)}

/-- The costs of all services are all costs. -/
theorem spent_services {services : Finset String} (covered : ∀ entry ∈ log, entry.1 ∈ services) :
    spentOn log = ∑ serviceId ∈ services, (addedTo serviceId log).spent := by
  induction log with
  | nil => simp [spentOn, addedTo]
  | cons entry rest ih =>
    have first := covered entry (by simp)
    have apart (serviceId : String) : (addedTo serviceId (entry :: rest)).spent =
        (if serviceId = entry.1 then entry.2.spent else 0) + (addedTo serviceId rest).spent := by
      rw [addedTo]
      by_cases same : entry.1 = serviceId
      · rw [if_pos same, if_pos same.symm, Records.spent_append]
      · rw [if_neg same, if_neg (Ne.symm same), zero_add]
    simp only [apart, Finset.sum_add_distrib, Finset.sum_ite_eq', first, if_true]
    rw [← ih fun other member => covered other (by simp [member]), spentOn, map_cons,
      sum_cons]
    rfl

/-! ## Every step keeps the maps sound -/

theorem sound_initial (conversationId : String) (named : conversationId ≠ "") :
    Sound (initial conversationId, {}) := by
  constructor
  · exact named
  · simp
  · simp [initial, ConversationStats.new]
  · simp [initial, ConversationStats.new, ConversationStats.maybeRestoreMetrics]
  · intro serviceId
    simp [initial, ConversationStats.new, ConversationStats.maybeRestoreMetrics, Holding, addedTo]
  · simp
  · intro _ serviceId
    simp [initial, Holding, addedTo]

/-- A service that is registered has the metrics that were kept for it, or new ones. -/
theorem register_entry (modelName : String) :
    (stats.registerLlm serviceId (Metrics.new modelName)).serviceToMetrics = stats.serviceToMetrics.set
      serviceId ((stats.restoredMetrics.get serviceId).getD (Metrics.new modelName)) := by
  rw [ConversationStats.registerLlm]
  cases stats.restoredMetrics.get serviceId with
  | some metrics => rfl
  | none => rfl

variable (metrics : Metrics)

theorem register_restored : (stats.registerLlm serviceId metrics).restoredMetrics.get other =
      if other = serviceId then none else stats.restoredMetrics.get other := by
  rw [ConversationStats.registerLlm]
  cases kept : stats.restoredMetrics.get serviceId with
  | some metrics => rw [get_erase]
  | none =>
    by_cases same : other = serviceId
    · rw [if_pos same, same, kept]
    · rw [if_neg same]

theorem register_named :
    (stats.registerLlm serviceId metrics).conversationId = stats.conversationId := by
  rw [ConversationStats.registerLlm]
  split
  · rfl
  · rfl

variable (sound : Sound state)

include sound in
theorem sound_register (serviceId modelName : String) (first : serviceId ∉ state.2.registered) :
    Sound (both state (.registerLlm serviceId modelName)) := by
  obtain ⟨system, history⟩ := state
  have absent : system.stats.serviceToMetrics.get serviceId = none := by
    simpa using (sound.registered serviceId).not.mp first
  have own := sound.held serviceId
  simp only [absent, Option.none_or] at own
  constructor
  · simpa [both, step, register_named] using sound.named
  · exact sound.counted
  · intro other
    simp only [both, step, History.next, register_entry, get_set, mem_cons]
    by_cases same : other = serviceId
    · simp [same]
    · simpa [same] using sound.registered other
  · intro other member
    simp only [both, step, register_restored]
    by_cases same : other = serviceId
    · simp [same]
    · rw [if_neg same]
      exact sound.apart other ((mem_cons.mp member).resolve_left same)
  · intro other
    simp only [both, step, History.next, register_entry, register_restored, get_set]
    by_cases same : other = serviceId
    · subst same
      rw [if_pos rfl, if_pos rfl]
      cases kept : system.stats.restoredMetrics.get other with
      | some metrics =>
        rw [kept] at own
        exact own
      | none =>
        -- nothing was added to a service without metrics
        rw [kept] at own
        rw [show addedTo other history.log = .none from own]
        exact holds_new ..
    · rw [if_neg same, if_neg same]
      exact sound.held other
  · intro other member
    exact sound.before other fun listed => member (.tail _ listed)
  · exact sound.saved

variable (change : Metrics → Metrics)

/-- An addition is made to the metrics of its service, and to no others. -/
theorem modify_entry : (stats.modify serviceId change).serviceToMetrics.get other =
      if other = serviceId then (stats.serviceToMetrics.get serviceId).map change
      else stats.serviceToMetrics.get other := by
  rw [ConversationStats.modify]
  cases found : stats.serviceToMetrics.get serviceId with
  | some metrics => rw [get_set, Option.map_some]
  | none =>
    by_cases same : other = serviceId
    · rw [if_pos same, same, found, Option.map_none]
    · rw [if_neg same]

theorem modify_restored : (stats.modify serviceId change).restoredMetrics = stats.restoredMetrics ∧
      (stats.modify serviceId change).conversationId = stats.conversationId := by
  rw [ConversationStats.modify]
  split
  · exact ⟨rfl, rfl⟩
  · exact ⟨rfl, rfl⟩

include sound

theorem sound_add (serviceId : String) (addition : Addition) :
    Sound (both state (.add serviceId addition)) := by
  obtain ⟨system, history⟩ := state
  obtain ⟨restored, named⟩ := modify_restored system.stats serviceId addition.apply
  -- a service that is not registered gets nothing
  have nothingAdded (absent : serviceId ∉ history.registered) :
      (system.stats.serviceToMetrics.get serviceId).elim Records.none
        (fun metrics => addition.records metrics.modelName) = .none := by
    have missing : system.stats.serviceToMetrics.get serviceId = none := by
      simpa using (sound.registered serviceId).not.mp absent
    rw [missing, Option.elim_none]
  constructor
  · simpa [both, step, named] using sound.named
  · intro entry member
    rcases mem_append.mp member with old | new
    · exact sound.counted entry old
    rw [mem_singleton.mp new]
    cases system.stats.serviceToMetrics.get serviceId with
    | some metrics => exact addition_spent metrics.modelName addition
    | none => exact le_rfl
  · intro other
    simp only [both, step, History.next, modify_entry]
    by_cases same : other = serviceId
    · rw [if_pos same, Option.isSome_map, same]
      exact sound.registered serviceId
    · rw [if_neg same]
      exact sound.registered other
  · intro other member
    simp only [both, step, restored]
    exact sound.apart other member
  · intro other
    have own := sound.held other
    simp only [both, step, History.next, modify_entry, restored, added_last] at own ⊢
    by_cases same : other = serviceId
    · subst same
      rw [if_pos rfl, if_pos rfl]
      cases found : system.stats.serviceToMetrics.get other with
      | some metrics =>
        rw [found] at own
        exact holds_apply addition own
      | none =>
        rw [found] at own
        rw [Option.map_none, Option.elim_none, Records.append_none]
        exact own
    · rw [if_neg same, if_neg (Ne.symm same)]
      exact own
  · intro other member
    have own := sound.before other member
    simp only [both, History.next, added_last] at own ⊢
    split
    · rename_i same
      rw [nothingAdded (same ▸ member), Records.append_none, own]
    · exact own
  · intro clean other
    simp only [both, History.next, Bool.or_eq_false_iff, decide_eq_false_iff_not, not_not] at clean
    have own := sound.saved clean.1 other
    simp only [both, step, History.next, clean.2, added_last, Records.append_none, ite_self]
    exact own

theorem sound_save : Sound (both state .saveMetrics) := by
  constructor
  · exact sound.named
  · exact sound.counted
  · exact sound.registered
  · exact sound.apart
  · exact sound.held
  · exact sound.before
  · intro _ other
    simp only [both, step, Option.bind_some, ConversationStats.saveMetrics, get_update]
    exact sound.held other

theorem sound_restart (saved : state.2.unsaved = false) : Sound (both state .restart) := by
  obtain ⟨system, history⟩ := state
  have restored (serviceId : String) : (ConversationStats.maybeRestoreMetrics system.stats.conversationId
      system.file).get serviceId = system.file.bind fun map => map.get serviceId := by
    rw [ConversationStats.maybeRestoreMetrics, if_neg sound.named]
    cases system.file with
    | some map => rfl
    | none => rfl
  constructor
  · exact sound.named
  · exact sound.counted
  · intro other
    simp [both, step, History.next, ConversationStats.new]
  · intro other member
    simp [both, History.next] at member
  · intro other
    simp only [both, step, ConversationStats.new, get_empty, Option.none_or, restored]
    exact sound.saved saved other
  · intro other _
    rfl
  · exact sound.saved

omit sound

/-- Every step that follows the protocol keeps the maps sound. -/
theorem sound_step (label : Step) (sound : Sound state) (follows : Protocol state label) :
    Sound (both state label) := by
  cases label with
  | registerLlm serviceId modelName => exact sound_register _ sound _ _ follows
  | add serviceId addition => exact sound_add _ sound ..
  | saveMetrics => exact sound_save _ sound
  | restart => exact sound_restart _ sound follows

/-! ## The combined cost -/

theorem merged_cost (total : Metrics) (services : List Metrics) :
    (services.foldl Metrics.merge total).accumulatedCost =
      total.accumulatedCost + (services.map Metrics.accumulatedCost).sum := by
  induction services generalizing total with
  | nil => simp
  | cons metrics rest ih =>
    rw [foldl_cons, ih, Metrics.merge, map_cons, sum_cons, add_assoc]

/-- No service has negative costs. -/
theorem added_spent (log : List (String × Records)) (counted : ∀ entry ∈ log, 0 ≤ entry.2.spent) :
    0 ≤ (addedTo serviceId log).spent := by
  induction log with
  | nil => exact le_rfl
  | cons entry rest ih =>
    have later := ih fun other member => counted other (by simp [member])
    rw [addedTo]
    split
    · rw [Records.spent_append]
      exact add_nonneg (counted entry (by simp)) later
    · exact later

/-- To a service that is not in the log nothing was added. -/
theorem added_absent {serviceId : String} (absent : serviceId ∉ log.map Prod.fst) :
    addedTo serviceId log = .none := by
  induction log with
  | nil => rfl
  | cons entry rest ih =>
    rw [map_cons, mem_cons, not_or] at absent
    rw [addedTo, if_neg (Ne.symm absent.1), ih absent.2]

variable (services : Finset String)
  (covered : ∀ serviceId ∈ state.1.stats.serviceToMetrics.keys, serviceId ∈ services)
include sound covered

/-- The combined cost, over any services that include the registered ones. -/
theorem combined_services :
    state.1.stats.getCombinedMetrics.accumulatedCost = ∑ serviceId ∈ services,
      if serviceId ∈ state.2.registered then (addedTo serviceId state.2.log).spent else 0 := by
  rw [ConversationStats.getCombinedMetrics, merged_cost, ConversationCosts.sum_values _ covered]
  change 0 + _ = _
  rw [zero_add]
  apply Finset.sum_congr rfl
  intro serviceId _
  have own := sound.held serviceId
  have here := sound.registered serviceId
  cases found : state.1.stats.serviceToMetrics.get serviceId with
  | some metrics =>
    simp only [found, Option.some_or, Option.isSome_some, iff_true] at own here
    rw [if_pos here]
    exact own.accumulatedCost
  | none =>
    simp only [found, Option.isSome_none, Bool.false_eq_true, iff_false] at here
    rw [if_neg here, Option.map_none, Option.getD_none]

/-- What the combined metrics leave out are the costs of the services that are not registered. -/
theorem missing_cost (logged : ∀ entry ∈ state.2.log, entry.1 ∈ services) :
    spentOn state.2.log - state.1.stats.getCombinedMetrics.accumulatedCost = ∑ serviceId ∈ services,
      if serviceId ∈ state.2.registered then 0 else (addedTo serviceId state.2.log).spent := by
  rw [combined_services _ sound _ covered, spent_services logged, ← Finset.sum_sub_distrib]
  apply Finset.sum_congr rfl
  intro serviceId _
  split
  · rw [sub_self]
  · rw [sub_zero]

omit covered

/-- The combined cost is the total when no service that had costs before the restart is missing. -/
theorem combined_cost : state.1.stats.getCombinedMetrics.accumulatedCost = spentOn state.2.log ↔
      ∀ serviceId, (addedTo serviceId state.2.before).spent ≠ 0 → serviceId ∈ state.2.registered := by
  let services : Finset String :=
    state.1.stats.serviceToMetrics.keys.toFinset ∪ (state.2.log.map Prod.fst).toFinset
  have missing := missing_cost state sound services (fun serviceId present => by
    simp [services, present]) (fun entry member => by
    simpa [services] using .inr ⟨entry.2, member⟩)
  -- no summand is negative, so that nothing is left out when each of them is zero
  have nonnegative : ∀ serviceId ∈ services, 0 ≤
      if serviceId ∈ state.2.registered then 0 else (addedTo serviceId state.2.log).spent := by
    intro serviceId _
    split
    · exact le_rfl
    · exact added_spent _ _ sound.counted
  rw [eq_comm, ← sub_eq_zero, missing, Finset.sum_eq_zero_iff_of_nonneg nonnegative]
  constructor
  · intro nothing serviceId spent
    by_contra absent
    rw [← sound.before serviceId absent] at spent
    by_cases listed : serviceId ∈ services
    · have zero := nothing serviceId listed
      rw [if_neg absent] at zero
      exact spent zero
    have away : serviceId ∉ state.2.log.map Prod.fst := by
      intro logged
      apply listed
      simp only [services, Finset.mem_union, mem_toFinset]
      exact .inr logged
    rw [added_absent away] at spent
    exact spent Records.spent_none
  · intro all serviceId _
    by_cases here : serviceId ∈ state.2.registered
    · rw [if_pos here]
    · rw [if_neg here, sound.before serviceId here]
      by_contra spent
      exact here (all serviceId spent)

omit sound

/-- In every state of a run in which services are registered once in each process and additions are saved
before a restart: when all is saved, the file holds of each service exactly what was added to it, and the combined
cost, to which the budget is set, is the total exactly when every service that had costs before the last
restart is registered again. -/
theorem spend_survives (conversationId : String) (named : conversationId ≠ "") (labels : List Step)
    (follows : Along both Protocol (initial conversationId, {}) labels) (state : System × History)
    (reached : Reached both (initial conversationId, {}) labels state) :
    (state.2.unsaved = false → ∀ serviceId,
      Holding (state.1.file.bind fun map => map.get serviceId) (addedTo serviceId state.2.log)) ∧
    ∀ flag : BudgetControlFlag,
      ((syncBudgetFlagWithMetrics (some flag) (some state.1.stats)).map BudgetControlFlag.currentValue =
        some (spentOn state.2.log) ↔ ∀ serviceId, (addedTo serviceId state.2.before).spent ≠ 0 →
            serviceId ∈ state.2.registered) := by
  have sound := invariant_along _ _ _
    (fun state label sound follows => sound_step _ _ sound follows) _ _
    (sound_initial _ named) follows _ reached
  refine ⟨sound.saved, fun flag => ?_⟩
  rw [← combined_cost _ sound, syncBudgetFlagWithMetrics, Option.map_some, Option.some.injEq]

/-- After a restart. -/
theorem spend_survives_restart :
    Holding ((run both (initial "c", {}) [.registerLlm "agent" "m", .add "agent" (.cost 1 0), .saveMetrics,
        .restart, .registerLlm "agent" "m"]).1.file.bind fun map => map.get "agent")
      ⟨[⟨"m", 1, 0⟩], [], []⟩ := by
  have survives := spend_survives "c" (by decide) [.registerLlm "agent" "m", .add "agent" (.cost 1 0),
    .saveMetrics, .restart, .registerLlm "agent" "m"] (by decide +kernel) _ (reached_run _ _ _)
  exact survives.1 (by decide +kernel) "agent"

/-- A conversation costs one, is saved and restarted, and its combined cost is nothing. -/
theorem spend_forgotten :
    ¬ ∀ (conversationId : String) (labels : List Step) (state : System × History),
      conversationId ≠ "" → Along both Protocol (initial conversationId, {}) labels →
        Reached both (initial conversationId, {}) labels state →
          state.1.stats.getCombinedMetrics.accumulatedCost = spentOn state.2.log := by
  intro all
  have same := all "c" [.registerLlm "agent" "m", .add "agent" (.cost 1 0), .saveMetrics, .restart] _
    (by decide) (by decide +kernel) (reached_run _ _ _)
  revert same
  decide +kernel

end ForgePilot.MetricsRestarts
