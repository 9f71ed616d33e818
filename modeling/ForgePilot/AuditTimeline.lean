import ForgePilot.AuditSchema
import ForgePilot.OrderedDict
import ForgePilot.StackWalk
import ForgePilot.Texts

/-!
# The unified audit timeline

Audit events are sorted, given node identifiers, linked to the most recent
possible cause within a time window, and collected into chains that start at
nodes without parents. Nodes are kept in a dictionary keyed by identifier, and
chains are collected by a stack walk whose visited set all chains share; what no
walk reaches is listed as an orphan.

The identifier of a repeated trace id is the trace id followed by a number sign
and the occurrence. Trace ids are supplied by callers and may have that very
form, in which case two events receive one identifier and the dictionary keeps
only the later one. The last section states exactly when every event survives.
Node depths and self-healing rounds are never assigned and are left out.
-/

namespace ForgePilot.AuditTimelines

open StackWalk List OrderedDict

/-- The time window in which one event may have caused another: five seconds. -/
def correlationWindow : Int := 5000000

def AuditEventType.isModel : AuditEventType → Bool
  | .model | .modelResponse => true
  | _ => false

def AuditEventType.isCommand : AuditEventType → Bool
  | .command | .commandRun => true
  | _ => false

def AuditEventType.isVerification : AuditEventType → Bool
  | .verification | .testResult => true
  | _ => false

/-- A node of the timeline with its causal links. -/
structure TimelineNode where
  event : AuditEvent
  nodeId : String
  parentIds : List String
  childIds : List String := []
  chainLabel : String

/-- Construction replaces an empty identifier by the event's trace id. -/
def TimelineNode.create (event : AuditEvent) (nodeId : String) (parentIds : List String)
    (chainLabel : String) : TimelineNode where
  event
  nodeId := if nodeId = "" then event.traceId else nodeId
  parentIds
  chainLabel

/-- Nodes reached from one root, in the order of the walk. -/
structure TimelineChain where
  chainId : String
  nodes : List TimelineNode
  startedAt : Option Timestamp
  completedAt : Option Timestamp

/-- The complete timeline of a task. -/
structure AuditTimeline where
  taskId : String
  chains : List TimelineChain
  orphanNodes : List TimelineNode := []
  totalCostUsd : Rat := 0
  totalDurationMs : Int := 0
  summary : String

/-- The identifier of the given occurrence of a trace id. -/
def nodeName (traceId : String) (count : Nat) : String :=
  if count = 1 then traceId else traceId ++ "#" ++ count.repr

/-- The loop that numbers the occurrences of each trace id. -/
def identify (occurrences : OrderedDict String Nat) : List AuditEvent → List (String × AuditEvent)
  | [] => []
  | event :: rest =>
      let count := (occurrences.get event.traceId).getD 0 + 1
      (nodeName event.traceId count, event) :: identify (occurrences.set event.traceId count) rest

/-- Pair each event, in chronological order, with its node identifier. -/
def assignUniqueNodeIds (events : List AuditEvent) :
    Except AuditError (List (String × AuditEvent)) :=
  (orderedTimeline events).map (identify .empty)

/-- Recent nodes with their times, oldest first. -/
abbrev RecentEvents := List (String × Timestamp)

/-- Drop leading entries that lie further back than the window. -/
def RecentEvents.prune (entries : RecentEvents) (now : Timestamp) : RecentEvents :=
  entries.dropWhile (fun entry =>
    correlationWindow < now.microseconds - entry.2.microseconds)

/-- Prune and append a new entry. -/
def RecentEvents.push (entries : RecentEvents) (nodeId : String) (timestamp : Timestamp) :
    RecentEvents :=
  entries.prune timestamp ++ [(nodeId, timestamp)]

/-- The most recent entry left after pruning, if any. -/
def RecentEvents.latestWithinWindow (entries : RecentEvents) (timestamp : Timestamp) :
    Option String × RecentEvents :=
  let pruned := entries.prune timestamp
  (pruned.getLast?.map Prod.fst, pruned)

/-- The loop state while nodes are built. -/
structure Builder where
  nodesById : OrderedDict String TimelineNode
  recentCommand : RecentEvents
  recentModel : RecentEvents

/-- Store the node of one event, with the parent its type looks for. -/
def addNode (builder : Builder) (identified : String × AuditEvent) : Builder :=
  let nodeId := identified.1
  let event := identified.2
  let store (parent : Option String) (chainLabel : String) :=
    builder.nodesById.set nodeId (.create event nodeId parent.toList chainLabel)
  if AuditEventType.isCommand event.eventType then
    let (parent, recentModel) := builder.recentModel.latestWithinWindow event.timestamp
    ⟨store parent "", builder.recentCommand.push nodeId event.timestamp, recentModel⟩
  else if event.eventType = .fileChange then
    let (parent, recentCommand) := builder.recentCommand.latestWithinWindow event.timestamp
    ⟨store parent "", recentCommand, builder.recentModel⟩
  else if AuditEventType.isVerification event.eventType then
    let (parent, recentCommand) := builder.recentCommand.latestWithinWindow event.timestamp
    ⟨store parent (if parent.isSome then "verify" else ""), recentCommand, builder.recentModel⟩
  else if AuditEventType.isModel event.eventType then
    ⟨store none "", builder.recentCommand, builder.recentModel.push nodeId event.timestamp⟩
  else if event.eventType = .toolCall then
    let (parent, recentModel) := builder.recentModel.latestWithinWindow event.timestamp
    ⟨store parent "", builder.recentCommand, recentModel⟩
  else ⟨store none "", builder.recentCommand, builder.recentModel⟩

/-- The nodes of all identified events, before children are recorded. -/
def buildNodes (identified : List (String × AuditEvent)) : OrderedDict String TimelineNode :=
  (identified.foldl addNode ⟨.empty, [], []⟩).nodesById

/-- Append a child to the node with the given identifier, if there is one. -/
def appendChild (childId : String) (nodes : OrderedDict String TimelineNode) (parentId : String) :
    OrderedDict String TimelineNode :=
  match nodes.get parentId with
  | some parent => nodes.set parentId { parent with childIds := parent.childIds ++ [childId] }
  | none => nodes

/-- Record every node as a child of its parents. -/
def wireChildren (nodes : OrderedDict String TimelineNode) : OrderedDict String TimelineNode :=
  nodes.values.foldl
    (fun wired node => node.parentIds.foldl (appendChild node.nodeId) wired) nodes

/-- Collect what a start node reaches outside the visited set. The number of
iterations is the weight of the initial frontier, which always empties the stack. -/
def walkChain (nodes : OrderedDict String TimelineNode) (visited : List String)
    (startId : String) : Frontier String TimelineNode :=
  let start : Frontier String TimelineNode := ⟨[startId], visited, []⟩
  (visit nodes.get TimelineNode.childIds)^[
    weight nodes.get TimelineNode.childIds nodes.keys start] start

/-- A chain number padded to three digits. -/
def chainName (index : Nat) : String :=
  "chain-" ++ String.ofList (List.replicate (3 - index.repr.length) '0') ++ index.repr

/-- Start a chain at a node without parents that no earlier chain has visited. -/
def addChain (nodes : OrderedDict String TimelineNode)
    (state : List String × List TimelineChain) (node : TimelineNode) :
    List String × List TimelineChain :=
  if node.parentIds = [] ∧ node.nodeId ∉ state.1 then
    let walked := walkChain nodes state.1 node.nodeId
    match walked.collected with
    | [] => (walked.visited, state.2)
    | first :: others =>
        (walked.visited, state.2 ++ [{
          chainId := chainName (state.2.length + 1)
          nodes := first :: others
          startedAt := some first.event.timestamp
          completedAt := ((first :: others).getLast?).map (fun node => node.event.timestamp) }])
  else state

/-- All chains, with the final visited set. -/
def collectChains (nodes : OrderedDict String TimelineNode) : List String × List TimelineChain :=
  nodes.values.foldl (addChain nodes) ([], [])

/-- How often each event type occurs, in order of first occurrence. -/
def eventCounts (events : List AuditEvent) : OrderedDict String Nat :=
  events.foldl (fun counts event =>
    counts.set event.eventType.value ((counts.get event.eventType.value).getD 0 + 1)) .empty

def summarize (chains : List TimelineChain) (events : List AuditEvent) : String :=
  chains.length.repr ++ " chains: " ++ String.intercalate ", "
    ((eventCounts events).entries.map (fun entry => entry.2.repr ++ " " ++ entry.1))

/-- The timeline of identified events in chronological order. -/
def timelineOf (identified : List (String × AuditEvent)) : AuditTimeline :=
  match identified with
  | [] => { taskId := "", chains := [], summary := "No events recorded." }
  | (_, earliest) :: _ =>
      let nodes := wireChildren (buildNodes identified)
      let (visited, chains) := collectChains nodes
      let sorted := identified.map Prod.snd
      { taskId := earliest.taskId.getD ""
        chains
        orphanNodes := nodes.values.filter (fun node => node.nodeId ∉ visited)
        totalCostUsd := (sorted.filterMap AuditEvent.costUsd).sum
        totalDurationMs := (sorted.filterMap AuditEvent.durationMs).sum
        summary := summarize chains sorted }

/-- Build the timeline of a list of events, or raise what sorting them raises. -/
def buildTimeline (events : List AuditEvent) : Except AuditError AuditTimeline :=
  (assignUniqueNodeIds events).map timelineOf

/-- Every node of a timeline: those of the chains, then the orphans. -/
def AuditTimeline.nodes (timeline : AuditTimeline) : List TimelineNode :=
  timeline.chains.flatMap TimelineChain.nodes ++ timeline.orphanNodes

def counted (occurrences : OrderedDict String Nat) (traceId : String) : Nat :=
  (occurrences.get traceId).getD 0

/-- The trace id and occurrence from which each identifier is made. -/
def occurrencePairs (occurrences : OrderedDict String Nat) : List AuditEvent → List (String × Nat)
  | [] => []
  | event :: rest =>
      let count := counted occurrences event.traceId + 1
      (event.traceId, count) :: occurrencePairs (occurrences.set event.traceId count) rest

variable (identified : List (String × AuditEvent)) (builder : Builder)
  (nodes : OrderedDict String TimelineNode) (occurrences : OrderedDict String Nat)
  (events sorted : List AuditEvent) (traceId : String)

/-- Counting one occurrence raises that trace id's count only. -/
theorem counted_set (other : String) (count : Nat) : counted (occurrences.set traceId count) other =
      if other = traceId then count else counted occurrences other := by
  rw [counted]
  rw [get_set]
  split <;> rfl

/-- Identifiers are the names of the occurrence pairs, in order. -/
theorem identify_names : (identify occurrences events).map Prod.fst =
      (occurrencePairs occurrences events).map (fun pair => nodeName pair.1 pair.2) := by
  induction events generalizing occurrences with
  | nil => rfl
  | cons event rest ih => simp [identify, occurrencePairs, ih, counted]

/-- Identification keeps the events and their order. -/
theorem identify_events : (identify occurrences events).map Prod.snd = events := by
  induction events generalizing occurrences with
  | nil => rfl
  | cons event rest ih => simp [identify, ih]

/-- Each trace id is paired with the consecutive occurrences after those
already counted. -/
theorem mem_occurrence_pairs (count : Nat) : (traceId, count) ∈ occurrencePairs occurrences events ↔
      counted occurrences traceId < count ∧
        count ≤ counted occurrences traceId + (events.map AuditEvent.traceId).count traceId := by
  induction events generalizing occurrences with
  | nil =>
    simp only [occurrencePairs, not_mem_nil, map_nil, count_nil, Nat.add_zero,
      false_iff]
    omega
  | cons event rest ih =>
    simp only [occurrencePairs, mem_cons, Prod.mk.injEq, ih, counted_set,
      map_cons, count_cons, beq_iff_eq]
    by_cases same : traceId = event.traceId
    · subst traceId
      simp only [true_and, if_true]
      omega
    · simp [same, Ne.symm same]

/-- No pair of trace id and occurrence is produced twice. -/
theorem occurrence_pairs_nodup : (occurrencePairs occurrences events).Nodup := by
  induction events generalizing occurrences with
  | nil => exact nodup_nil
  | cons event rest ih =>
    refine nodup_cons.mpr ⟨?_, ih _⟩
    rw [mem_occurrence_pairs, counted_set, if_pos rfl]
    omega

/-- Some trace id of the list has the form that names a repeated occurrence of
another one that really is repeated that often. -/
def NameClash (events : List AuditEvent) : Prop :=
  ∃ traceId count, 2 ≤ count ∧ count ≤ (events.map AuditEvent.traceId).count traceId ∧
    traceId ++ "#" ++ count.repr ∈ events.map AuditEvent.traceId

/-- Equal names of different pairs arise only from a first occurrence whose
trace id spells a later occurrence of another. -/
theorem node_name_eq_cases {first second : String} {firstCount secondCount : Nat}
    (same : nodeName first firstCount = nodeName second secondCount) :
    (first = second ∧ firstCount = secondCount) ∨
      (firstCount = 1 ∧ secondCount ≠ 1 ∧ first = second ++ "#" ++ secondCount.repr) ∨
      (secondCount = 1 ∧ firstCount ≠ 1 ∧ second = first ++ "#" ++ firstCount.repr) := by
  unfold nodeName at same
  by_cases firstOne : firstCount = 1 <;> by_cases secondOne : secondCount = 1
  · rw [if_pos firstOne, if_pos secondOne] at same
    exact .inl ⟨same, firstOne.trans secondOne.symm⟩
  · rw [if_pos firstOne, if_neg secondOne] at same
    exact .inr (.inl ⟨firstOne, secondOne, same⟩)
  · rw [if_neg firstOne, if_pos secondOne] at same
    exact .inr (.inr ⟨secondOne, firstOne, same.symm⟩)
  · rw [if_neg firstOne, if_neg secondOne] at same
    exact .inl (Texts.hash_suffix_inj same)

/-- A pair occurs in a fresh count exactly up to the number of occurrences. -/
theorem mem_fresh_pairs (count : Nat) : (traceId, count) ∈ occurrencePairs .empty events ↔
      1 ≤ count ∧ count ≤ (events.map AuditEvent.traceId).count traceId := by
  have none_counted : counted .empty traceId = 0 := rfl
  rw [mem_occurrence_pairs, none_counted]
  omega

/-- Identifiers are distinct exactly when no trace id spells the identifier of a
repeated occurrence. Pairs are always distinct, so only their names can clash. -/
theorem identify_nodup_iff :
    ((identify .empty events).map Prod.fst).Nodup ↔ ¬ NameClash events := by
  rw [identify_names, nodup_map_iff_inj_on (occurrence_pairs_nodup ..)]
  constructor
  · rintro injective ⟨traceId, count, repeated, occurs, spelled⟩
    have later : (traceId, count) ∈ occurrencePairs .empty events :=
      (mem_fresh_pairs ..).mpr ⟨by omega, occurs⟩
    have single : (traceId ++ "#" ++ count.repr, 1) ∈ occurrencePairs .empty events :=
      (mem_fresh_pairs ..).mpr ⟨le_refl 1, one_le_count_iff.mpr spelled⟩
    have notFirst : count ≠ 1 := by omega
    have sameName : nodeName (traceId ++ "#" ++ count.repr) 1 = nodeName traceId count := by
      simp [nodeName, notFirst]
    have samePair := injective _ single _ later sameName
    exact notFirst (congrArg Prod.snd samePair).symm
  · intro noClash first firstMember second secondMember sameName
    obtain ⟨firstTrace, firstCount⟩ := first
    obtain ⟨secondTrace, secondCount⟩ := second
    obtain ⟨firstLow, firstHigh⟩ := (mem_fresh_pairs ..).mp firstMember
    obtain ⟨secondLow, secondHigh⟩ := (mem_fresh_pairs ..).mp secondMember
    rcases node_name_eq_cases sameName with
      ⟨sameTrace, sameCount⟩ | ⟨firstOne, secondLater, spelled⟩ | ⟨secondOne, firstLater, spelled⟩
    · exact Prod.ext sameTrace sameCount
    · have present : firstTrace ∈ events.map AuditEvent.traceId :=
        one_le_count_iff.mp (firstLow.trans firstHigh)
      exact absurd ⟨secondTrace, secondCount, by omega, secondHigh, spelled ▸ present⟩ noClash
    · have present : secondTrace ∈ events.map AuditEvent.traceId :=
        one_le_count_iff.mp (secondLow.trans secondHigh)
      exact absurd ⟨firstTrace, firstCount, by omega, firstHigh, spelled ▸ present⟩ noClash

/-- A clash of names depends on the events only, not on their order. -/
theorem name_clash_perm (permuted : sorted.Perm events) : NameClash sorted ↔ NameClash events := by
  have traces := permuted.map AuditEvent.traceId
  unfold NameClash
  simp [traces.count_eq, traces.mem_iff]

/-- Whatever an event's type, its node is stored under its identifier. -/
theorem add_node_stores (nodeId : String) (event : AuditEvent) :
    ∃ parentIds chainLabel, (addNode builder (nodeId, event)).nodesById =
      builder.nodesById.set nodeId (.create event nodeId parentIds chainLabel) := by
  simp only [addNode]
  split_ifs <;> exact ⟨_, _, rfl⟩

/-- A pair may only have an empty identifier if its event has an empty trace id;
the identifiers that are assigned have this property. -/
def Labelled (identified : List (String × AuditEvent)) : Prop :=
  ∀ pair ∈ identified, pair.1 = "" → pair.2.traceId = ""

/-- Assigned identifiers are labels of their nodes. -/
theorem identify_labelled : Labelled (identify occurrences events) := by
  induction events generalizing occurrences with
  | nil => intro pair member; cases member
  | cons event rest ih =>
    intro pair member
    rcases member with _ | ⟨_, member⟩
    · intro emptyName
      simp only [nodeName] at emptyName
      split at emptyName
      · exact emptyName
      · have noCharacters := congrArg String.toList emptyName
        simp at noCharacters
    · exact ih _ pair member

/-- Every node is stored under its own identifier. -/
def Keyed (nodes : OrderedDict String TimelineNode) : Prop :=
  ∀ key node, nodes.get key = some node → node.nodeId = key

theorem create_node_id (event : AuditEvent) (nodeId : String) (parentIds : List String) (chainLabel : String)
    (labelled : nodeId = "" → event.traceId = "") :
    (TimelineNode.create event nodeId parentIds chainLabel).nodeId = nodeId := by
  simp only [TimelineNode.create]
  split
  · rename_i unnamed
    rw [labelled unnamed, unnamed]
  · rfl

/-- Storing the node of a labelled pair keeps nodes under their identifiers. -/
theorem set_keyed {nodeId : String} {event : AuditEvent} (parentIds : List String)
    (chainLabel : String) (keyed : Keyed nodes) (labelled : nodeId = "" → event.traceId = "") :
    Keyed (nodes.set nodeId (.create event nodeId parentIds chainLabel)) := by
  intro key node found
  rw [get_set] at found
  split at found
  · have created := Option.some.inj found
    subst node key
    exact create_node_id _ _ _ _ labelled
  · exact keyed key node found

variable (labelled : Labelled identified)

include labelled in
/-- What the node-building loop establishes: nodes under their identifiers, keys
among the identifiers given so far, and no identifier without a key. -/
theorem build_loop (keyed : Keyed builder.nodesById) :
    Keyed (identified.foldl addNode builder).nodesById ∧
      ∀ key, key ∈ (identified.foldl addNode builder).nodesById.keys ↔
        key ∈ builder.nodesById.keys ∨ key ∈ identified.map Prod.fst := by
  induction identified generalizing builder with
  | nil => exact ⟨keyed, by simp⟩
  | cons pair rest ih =>
    obtain ⟨nodeId, event⟩ := pair
    obtain ⟨parentIds, chainLabel, stored⟩ := add_node_stores ..
    have keyedNext : Keyed (addNode builder (nodeId, event)).nodesById := by
      rw [stored]
      exact set_keyed _ _ _ keyed (labelled (nodeId, event) (.head _))
    obtain ⟨keyedEnd, keys⟩ := ih (addNode builder (nodeId, event))
      (fun other member => labelled other (.tail _ member)) keyedNext
    refine ⟨keyedEnd, fun key => ?_⟩
    have nextKeys : key ∈ (addNode builder (nodeId, event)).nodesById.keys ↔
        key ∈ builder.nodesById.keys ∨ key = nodeId := by
      rw [stored, keys_set]
      split <;> simp_all
    rw [foldl_cons, keys key, nextKeys]
    simp [or_assoc]

/-- What recording children leaves alone: keys, identifiers and events. -/
def view (entry : String × TimelineNode) : String × String × AuditEvent :=
  (entry.1, entry.2.nodeId, entry.2.event)

include labelled in
/-- With distinct identifiers the loop stores one node for each event, in order. -/
theorem build_loop_view (fresh : ∀ pair ∈ identified, pair.1 ∉ builder.nodesById.keys)
    (distinct : (identified.map Prod.fst).Nodup) :
    (identified.foldl addNode builder).nodesById.entries.map view =
      builder.nodesById.entries.map view ++ identified.map fun pair => (pair.1, pair) := by
  induction identified generalizing builder with
  | nil => simp
  | cons pair rest ih =>
    obtain ⟨nodeId, event⟩ := pair
    obtain ⟨parentIds, chainLabel, stored⟩ := add_node_stores ..
    obtain ⟨absent, distinctRest⟩ := nodup_cons.mp distinct
    have freshHere : nodeId ∉ builder.nodesById.keys := fresh (nodeId, event) (.head _)
    have freshRest : ∀ other ∈ rest, other.1 ∉ (addNode builder (nodeId, event)).nodesById.keys := by
      intro other member
      rw [stored, keys_set, if_neg freshHere, mem_append, mem_singleton]
      rintro (earlier | same)
      · exact fresh other (.tail _ member) earlier
      · exact absent (mem_map.mpr ⟨other, member, same⟩)
    have named := create_node_id event nodeId parentIds chainLabel (labelled (nodeId, event) (.head _))
    rw [foldl_cons, ih _ (fun other member => labelled other (.tail _ member)) freshRest distinctRest, stored]
    simp [entries_set_of_absent _ _ _ freshHere, view, named]
    rfl

/-- Appending one child changes nothing else. -/
theorem append_child_view (childId parentId : String) (nodes : OrderedDict String TimelineNode) :
    (appendChild childId nodes parentId).entries.map view = nodes.entries.map view := by
  rw [appendChild]
  split
  · rename_i parent present
    exact map_set_of_eq present rfl
  · rfl

/-- Recording one node with all its parents changes nothing else. -/
theorem append_children_view (childId : String) (parentIds : List String)
    (nodes : OrderedDict String TimelineNode) :
    (parentIds.foldl (appendChild childId) nodes).entries.map view = nodes.entries.map view := by
  induction parentIds generalizing nodes with
  | nil => rfl
  | cons parentId rest ih => rw [foldl_cons, ih, append_child_view]

/-- Recording all children changes nothing else. -/
theorem wire_children_view : (wireChildren nodes).entries.map view = nodes.entries.map view := by
  have loop : ∀ (pending : List TimelineNode) (wired : OrderedDict String TimelineNode),
      (pending.foldl (fun wired node => node.parentIds.foldl (appendChild node.nodeId) wired)
        wired).entries.map view = wired.entries.map view := by
    intro pending
    induction pending with
    | nil => exact fun _ => rfl
    | cons node rest ih =>
      intro wired
      rw [foldl_cons, ih, append_children_view]
  exact loop nodes.values nodes

variable {second first : OrderedDict String TimelineNode}

variable (same : first.entries.map view = second.entries.map view)
include same

/-- A common view gives common keys. -/
theorem keys_of_view : first.keys = second.keys := by
  have keys := congrArg (map Prod.fst) same
  simpa [OrderedDict.keys, view, Function.comp_def] using keys

/-- A common view keeps nodes under their identifiers. -/
theorem keyed_of_view (keyed : Keyed second) : Keyed first := by
  intro key node found
  have member : view (key, node) ∈ second.entries.map view :=
    same ▸ mem_map.mpr ⟨(key, node), (first.get_eq_some_iff key node).mp found, rfl⟩
  obtain ⟨⟨otherKey, other⟩, present, sameView⟩ := mem_map.mp member
  have sameKey : otherKey = key := congrArg Prod.fst sameView
  have sameId : other.nodeId = node.nodeId := congrArg (fun seen => seen.2.1) sameView
  rw [← sameId, keyed otherKey other ((second.get_eq_some_iff otherKey other).mpr present), sameKey]

omit same

/-- The walk from a start node leaves nothing on its stack: the iteration bound
of `walkChain` never cuts a chain off. -/
theorem walk_chain_finishes (visited : List String) (startId : String) :
    (walkChain nodes visited startId).stack = [] :=
  walk_finishes _ _ nodes.distinct
    (fun key node found => (nodes.mem_keys_iff key).mpr ⟨node, found⟩) le_rfl

/-- The nodes of all chains built so far are exactly the visited ones, each once. -/
def ChainsAccount (nodes : OrderedDict String TimelineNode)
    (state : List String × List TimelineChain) : Prop :=
  Accounts nodes.get TimelineNode.nodeId state.1 (state.2.flatMap TimelineChain.nodes)

variable (keyed : Keyed nodes)
include keyed

/-- Starting one more chain keeps the account. -/
theorem add_chain_accounts (state : List String × List TimelineChain) (node : TimelineNode)
    (account : ChainsAccount nodes state) : ChainsAccount nodes (addChain nodes state node) := by
  by_cases root : node.parentIds = [] ∧ node.nodeId ∉ state.1
  · have walked : Accounts nodes.get TimelineNode.nodeId
        (walkChain nodes state.1 node.nodeId).visited
        (state.2.flatMap TimelineChain.nodes ++ (walkChain nodes state.1 node.nodeId).collected) := by
      apply walk_accounts _ _ keyed
      simpa [ChainsAccount] using account
    simp only [ChainsAccount, addChain, if_pos root]
    split
    · rename_i nothing
      simpa [nothing] using walked
    · rename_i first others collected
      simpa [collected] using walked
  · simpa [addChain, if_neg root] using account

/-- All chains together account for the visited nodes. -/
theorem collect_chains_accounts : ChainsAccount nodes (collectChains nodes) := by
  have loop : ∀ (pending : List TimelineNode) (state : List String × List TimelineChain),
      ChainsAccount nodes state → ChainsAccount nodes (pending.foldl (addChain nodes) state) := by
    intro pending
    induction pending with
    | nil => exact fun _ account => account
    | cons node rest ih =>
      intro state account
      exact ih _ (add_chain_accounts _ keyed _ _ account)
  apply loop
  exact ⟨by simp, by simp, by simp, by simp⟩

/-- Identifiers of nodes stored under them are distinct. -/
theorem values_ids_nodup : (nodes.values.map TimelineNode.nodeId).Nodup := by
  have ids : nodes.values.map TimelineNode.nodeId = nodes.keys := by
    unfold values OrderedDict.keys
    rw [map_map]
    apply map_congr_left
    intro entry member
    exact keyed entry.1 entry.2 ((nodes.get_eq_some_iff entry.1 entry.2).mpr member)
  exact ids ▸ nodes.distinct

/-- Chains and orphans together hold every stored node exactly once. Chains hold
the visited nodes, orphans the others. -/
theorem chains_and_orphans_perm :
    ((collectChains nodes).2.flatMap TimelineChain.nodes ++
      nodes.values.filter (fun node => node.nodeId ∉ (collectChains nodes).1)).Perm
        nodes.values := by
  have account := collect_chains_accounts _ keyed
  have valuesNodup : nodes.values.Nodup := (values_ids_nodup _ keyed).of_map
  have mem_values : ∀ node, node ∈ nodes.values ↔ nodes.get node.nodeId = some node := by
    intro node
    constructor
    · intro member
      obtain ⟨⟨key, stored⟩, present, rfl⟩ := mem_map.mp member
      have found := (nodes.get_eq_some_iff key stored).mpr present
      rwa [keyed key stored found]
    · intro found
      exact mem_map.mpr ⟨(node.nodeId, node), (nodes.get_eq_some_iff _ _).mp found, rfl⟩
  have together : ((collectChains nodes).2.flatMap TimelineChain.nodes ++
      nodes.values.filter (fun node => node.nodeId ∉ (collectChains nodes).1)).Nodup := by
    refine nodup_append.mpr ⟨account.once.of_map, valuesNodup.filter _, ?_⟩
    rintro node collected _ orphan rfl
    have unseen := (mem_filter.mp orphan).2
    simp only [decide_eq_true_eq] at unseen
    exact unseen (account.seen node collected)
  rw [perm_ext_iff_of_nodup together valuesNodup]
  intro node
  rw [mem_append, mem_filter, mem_values]
  constructor
  · rintro (collected | ⟨found, _⟩)
    · exact account.stored node collected
    · exact found
  · intro found
    by_cases seen : node.nodeId ∈ (collectChains nodes).1
    · exact .inl (account.complete node.nodeId node seen found)
    · exact .inr ⟨found, by simpa using seen⟩

omit keyed

/-- A timeline that loses nothing: every event is the event of exactly one node,
with its multiplicity, and node identifiers are distinct. -/
def Preserves (events : List AuditEvent) (timeline : AuditTimeline) : Prop :=
  (timeline.nodes.map TimelineNode.event).Perm events ∧
    (timeline.nodes.map TimelineNode.nodeId).Nodup

/-- Nodes of labelled pairs are stored under their identifiers, children included. -/
theorem built_keyed {identified : List (String × AuditEvent)} (labelled : Labelled identified) :
    Keyed (wireChildren (buildNodes identified)) := by
  have initially : Keyed .empty := by
    intro key node found
    cases found
  have built := (build_loop identified ⟨.empty, [], []⟩ labelled initially).1
  exact keyed_of_view (wire_children_view _) built

theorem timeline_of_nodes {identified : List (String × AuditEvent)}
    (labelled : Labelled identified) :
    (timelineOf identified).nodes.Perm (wireChildren (buildNodes identified)).values := by
  have keyed := built_keyed labelled
  cases identified with
  | nil => exact List.Perm.refl _
  | cons earliest rest => exact chains_and_orphans_perm _ keyed

include labelled

theorem mem_built_keys (key : String) :
    key ∈ (buildNodes identified).keys ↔ key ∈ identified.map Prod.fst := by
  have initially : Keyed .empty := by
    intro key node found
    cases found
  have keys := (build_loop identified ⟨.empty, [], []⟩ labelled initially).2 key
  simpa [buildNodes, OrderedDict.keys, OrderedDict.empty] using keys

/-- Distinct identifiers keep every event with its identifier, in order. -/
theorem built_pairs (distinct : (identified.map Prod.fst).Nodup) :
    (wireChildren (buildNodes identified)).values.map (fun node => (node.nodeId, node.event)) = identified := by
  have stored := build_loop_view identified ⟨.empty, [], []⟩ labelled
    (fun pair _ => by simp [OrderedDict.keys, empty]) distinct
  have wired := congrArg (map Prod.snd) ((wire_children_view (buildNodes identified)).trans stored)
  simpa [view, values, empty, Function.comp_def] using wired

/-- A dictionary with as many keys as identifiers were given means that the
identifiers were distinct. -/
theorem nodup_of_built_length
    (sizes : (buildNodes identified).keys.length = (identified.map Prod.fst).length) :
    (identified.map Prod.fst).Nodup := by
  have subset : (buildNodes identified).keys ⊆ identified.map Prod.fst :=
    fun key member => (mem_built_keys _ labelled key).mp member
  have subperm := subperm_of_subset (buildNodes identified).distinct subset
  have permuted := subperm.perm_of_length_le sizes.ge
  exact permuted.nodup_iff.mp (buildNodes identified).distinct

omit labelled

/-- When identifiers are distinct the timeline loses nothing; otherwise the
dictionary has fewer nodes than there are events. -/
theorem timeline_of_preserves_iff : Preserves sorted (timelineOf (identify .empty sorted)) ↔
      ((identify .empty sorted).map Prod.fst).Nodup := by
  have labelled := identify_labelled .empty sorted
  have nodes := timeline_of_nodes labelled
  constructor
  · rintro ⟨eventsPerm, _⟩
    apply nodup_of_built_length _ labelled
    have sameKeys := keys_of_view (wire_children_view (buildNodes (identify .empty sorted)))
    have eventCount := eventsPerm.length_eq
    have nodeCount := nodes.length_eq
    have identifiedCount := congrArg length (identify_events .empty sorted)
    rw [← sameKeys]
    simp only [length_map, values, OrderedDict.keys] at *
    omega
  · intro distinct
    have kept := congrArg (map Prod.snd) (built_pairs _ labelled distinct)
    rw [map_map, identify_events] at kept
    have keyed := built_keyed labelled
    exact ⟨(nodes.map TimelineNode.event).trans (List.Perm.of_eq kept),
      (nodes.map TimelineNode.nodeId).nodup_iff.mpr (values_ids_nodup _ keyed)⟩

/-- The timeline keeps every event as the event of exactly one of its nodes, with
distinct identifiers, exactly when the timestamps can be compared and no trace id
spells the identifier of a repeated occurrence of another. -/
theorem build_timeline_preserves_exact (events : List AuditEvent) :
    (∃ timeline, buildTimeline events = .ok timeline ∧ Preserves events timeline) ↔
      Comparable events ∧ ¬ NameClash events := by
  by_cases comparable : Comparable events
  · obtain ⟨sorted, ordered⟩ := (ordered_timeline_ok_iff ..).mpr comparable
    have permuted := ordered_timeline_perm ordered
    have built : buildTimeline events = .ok (timelineOf (identify .empty sorted)) := by
      simp only [buildTimeline, assignUniqueNodeIds, ordered, Except.map]
    have sameEvents : ∀ timeline, Preserves events timeline ↔ Preserves sorted timeline := by
      intro timeline
      exact and_congr_left fun _ => ⟨fun perm => perm.trans permuted.symm,
        fun perm => perm.trans permuted⟩
    rw [← name_clash_perm _ _ permuted, ← identify_nodup_iff, ← timeline_of_preserves_iff, built]
    simp [comparable, sameEvents]
  · simp only [comparable, false_and, iff_false]
    rintro ⟨timeline, built, _⟩
    simp only [buildTimeline, assignUniqueNodeIds, orderedTimeline, if_neg comparable,
      Except.map] at built
    cases built

/-- Three commands whose third trace id spells the second one's identifier. -/
def clashingEvents : List AuditEvent :=
  [⟨"a", none, .command, none, .aware 0, "first", [], none, none⟩,
    ⟨"a", none, .command, none, .aware 1, "second", [], none, none⟩,
    ⟨"a#2", none, .command, none, .aware 2, "third", [], none, none⟩]

/-- Their timeline has only two nodes: the second event is lost. -/
theorem clashing_events_lost : ¬ ∃ timeline, buildTimeline clashingEvents = .ok timeline ∧
      Preserves clashingEvents timeline := by
  rintro ⟨timeline, built, eventsPerm, _⟩
  have two : (buildTimeline clashingEvents).map (fun built => built.nodes.length) = .ok 2 := by
    decide
  rw [built] at two
  have nodeCount : timeline.nodes.length = 2 := Except.ok.inj two
  have eventCount := eventsPerm.length_eq
  rw [List.length_map, nodeCount] at eventCount
  cases eventCount

end ForgePilot.AuditTimelines
