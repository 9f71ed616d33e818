import ForgePilot.EventPages
import ForgePilot.RunningIntervals

/-!
# Working time of a conversation

The events of a conversation arrive in any order and are stored under their ids. Whenever a change of
the agent's state to another state than running arrives, the time spent running is counted again from
the events that are stored by then, in the order of their ids. An event that arrives after all such
changes is therefore not counted.

Times are whole microseconds and differences of them are exact. Callbacks do not change what is
stored or counted.
-/

namespace ForgePilot.WorkingTime

open EventPages RunningIntervals List

/-! ## Counting -/

/-- What is read of an event: when it happened, and the new state of the agent if it has changed. -/
structure WorkEvent where
  timestamp : Option Int
  agentState : Option String

def agentStateRunning : String := "running"

/-- When the agent has started to run, and the time that was counted so far. -/
structure Counting where
  runningStartTime : Option Int := none
  totalRunningSeconds : Int := 0

def Counting.count (counting : Counting) (event : WorkEvent) : Counting :=
  match event.agentState, event.timestamp with
  | some state, some eventTimestamp =>
      if state = agentStateRunning then
        match counting.runningStartTime with
        | none => { counting with runningStartTime := some eventTimestamp }
        | some _ => counting
      else
        match counting.runningStartTime with
        | none => counting
        | some start =>
            { runningStartTime := none
              totalRunningSeconds := counting.totalRunningSeconds + (eventTimestamp - start) }
  | _, _ => counting

/-- The time that some events count; an agent that is still running is not counted yet. -/
def activeWorkingTime (events : List WorkEvent) : Int :=
  (events.foldl Counting.count {}).totalRunningSeconds

/-! ## Events that arrive -/

variable {τ δ : Type} (codec : Codec τ δ WorkEvent)

/-- What is stored of a conversation, and the time in its record of work, if there is one. -/
structure Server (τ : Type) where
  fileStore : FileStore τ
  seconds : Option Int

/-- Count again; when the events cannot be read nothing changes. -/
def updateActiveWorkingSeconds (server : Server τ) : Server τ :=
  match searchEvents codec (.opened server.fileStore) {} with
  | (events, none) => { server with seconds := some (activeWorkingTime events) }
  | (_, some _) => server

/-- Store an event that has arrived, and count again if the agent has changed to another state than
running. -/
def processEvent (server : Server τ) (id : Int) (content : δ) : Server τ × Option String :=
  let server := { server with fileStore := server.fileStore.writeEvent id (codec.dumpEvent content) }
  match codec.eventFromDict content with
  | .error raised => (server, some raised)
  | .ok event =>
      match event.agentState with
      | none => (server, none)
      | some state =>
          if state ≠ agentStateRunning then (updateActiveWorkingSeconds codec server, none)
          else (server, none)

/-! ## Conversations -/

/-- An event of a conversation: its id and content, and what is read of it. -/
structure Entry where
  id : Nat
  content : δ
  event : WorkEvent
  time : Int
  converts : codec.eventFromDict content = .ok event
  timed : event.timestamp = some time

variable {codec}

def Entry.changes (entry : Entry codec) : Bool := entry.event.agentState.isSome

def Entry.runs (entry : Entry codec) : Bool :=
  entry.event.agentState.any fun state => state = agentStateRunning

/-- The entry is a change to another state than running. -/
def Entry.stops (entry : Entry codec) : Bool :=
  entry.event.agentState.any fun state => state ≠ agentStateRunning

/-- The time that the events of a conversation have spent running. -/
def workingTime (entries : List (Entry codec)) : Int :=
  totalLength (runningIntervals Entry.time Entry.runs none (entries.filter Entry.changes))

variable (store : FileStore τ) (entries : List (Entry codec))

theorem count_entries (counting : Counting) :
    ((entries.map Entry.event).foldl Counting.count counting).totalRunningSeconds =
      counting.totalRunningSeconds + totalLength (runningIntervals Entry.time Entry.runs
        counting.runningStartTime (entries.filter Entry.changes)) := by
  induction entries generalizing counting with
  | nil => cases counting.runningStartTime <;> exact (Int.add_zero _).symm
  | cons entry rest ih =>
    rw [map_cons, foldl_cons, ih]
    cases state : entry.event.agentState with
    | none =>
      have skipped : ¬ entry.changes = true := by simp [Entry.changes, state]
      rw [filter_cons_of_neg skipped, Counting.count, state]
    | some name =>
      have kept : entry.changes = true := by simp [Entry.changes, state]
      rw [filter_cons_of_pos kept]
      obtain ⟨start, total⟩ := counting
      by_cases running : name = agentStateRunning
      · have runs : entry.runs = true := by simp [Entry.runs, state, running]
        cases start with
        | none => simp [Counting.count, state, entry.timed, running, runningIntervals, runs]
        | some start => simp [Counting.count, state, entry.timed, running, runningIntervals, runs]
      · have stops : entry.runs = false := by simp [Entry.runs, state, running]
        cases start with
        | none => simp [Counting.count, state, entry.timed, running, runningIntervals, stops]
        | some start =>
          simp only [Counting.count, state, entry.timed, running, if_false, runningIntervals, stops,
            Bool.false_eq_true, totalLength_cons]
          omega

theorem activeWorkingTime_eq :
    activeWorkingTime (entries.map Entry.event) = workingTime entries := by
  rw [activeWorkingTime, count_entries]
  exact Int.zero_add _

/-! ## What is stored -/

/-- The files of a store are those of some entries. -/
structure Holds (store : FileStore τ) (entries : List (Entry codec)) : Prop where
  pages : store.pages = .empty
  files : ∀ id text, store.events.get id = some text ↔
    ∃ entry ∈ entries, (entry.id : Int) = id ∧ codec.dumpEvent entry.content = text

theorem Holds.of_perm {store : FileStore τ} {first second : List (Entry codec)}
    (holds : Holds store first) (same : ∀ entry, entry ∈ first ↔ entry ∈ second) :
    Holds store second := by
  refine ⟨holds.pages, fun id text => ?_⟩
  rw [holds.files]
  simp [same]

/-- The ids of a conversation are in order. -/
def Ascending (entries : List (Entry codec)) : Prop :=
  entries.Pairwise fun first second => first.id < second.id

/-- The entry with an id is the next one after those below it. -/
theorem filter_succ (ascending : Ascending entries) (bound : Nat) :
    (entries.filter fun entry => entry.id < bound) ++
        (entries.find? fun entry => entry.id = bound).toList =
      entries.filter fun entry => entry.id < bound + 1 := by
  induction entries with
  | nil => rfl
  | cons entry rest ih =>
    obtain ⟨after, ascending⟩ := pairwise_cons.mp ascending
    by_cases below : entry.id < bound
    · rw [filter_cons_of_pos (by simpa using below),
        filter_cons_of_pos (by simpa using Nat.lt_succ_of_lt below),
        find?_cons_of_neg (by simpa using Nat.ne_of_lt below), ← ih ascending]
      rfl
    · -- Nothing after this entry is below the next bound.
      have nothing (limit : Nat) (small : limit ≤ entry.id + 1) :
          (rest.filter fun entry => entry.id < limit) = [] := by
        refine filter_eq_nil_iff.mpr fun other listed => ?_
        have larger := after other listed
        simp only [decide_eq_true_eq]
        omega
      rw [filter_cons_of_neg (by simpa using below), nothing bound (by omega)]
      by_cases here : entry.id = bound
      · rw [filter_cons_of_pos (by simp [here]), nothing (bound + 1) (by omega),
          find?_cons_of_pos (by simpa using here)]
        rfl
      have absent : rest.find? (fun entry => entry.id = bound) = none := by
        refine find?_eq_none.mpr fun other listed => ?_
        have larger := after other listed
        simp only [decide_eq_true_eq]
        omega
      rw [filter_cons_of_neg (by simp only [decide_eq_true_eq]; omega),
        nothing (bound + 1) (by omega), find?_cons_of_neg (by simpa using here), absent]
      rfl

/-- Looking up every number up to a bound finds the entries below it, in order. -/
theorem find_below (ascending : Ascending entries) (bound : Nat) :
    (List.range bound).filterMap (fun id => entries.find? fun entry => entry.id = id) =
      entries.filter fun entry => entry.id < bound := by
  induction bound with
  | zero => simp
  | succ bound ih =>
    rw [range_succ, filterMap_append, ih, ← filter_succ _ ascending]
    refine congrArg _ ?_
    cases found : entries.find? fun entry => entry.id = bound with
    | none => simp [found]
    | some entry => simp [found]

/-- A search that does not filter yields what is found for each number. -/
theorem readIndividually_all (lookup : Int → Option WorkEvent)
    (found : ∀ id, getEvent codec store id = .ok (lookup id)) (results visited : Nat)
    (indices : List Int) :
    readIndividually codec store {} results visited indices = (indices.filterMap lookup, none) := by
  induction indices generalizing results visited with
  | nil => rfl
  | cons index rest ih =>
    rw [readIndividually, found index]
    cases value : lookup index with
    | none => simpa [value] using ih results (visited + 1)
    | some event => simp [value, Search.cuts, Yielded.after, ih (results + 1) (visited + 1)]

/-- The search for all events yields those that are stored, in the order of their ids. -/
theorem search_holds (holds : Holds store entries) (ascending : Ascending entries) :
    searchEvents codec (.opened store) {} = (entries.map Entry.event, none) := by
  have faithful : Faithful codec store := by
    intro start text _ found
    rw [holds.pages] at found
    cases found
  have found : ∀ id, getEvent codec store id =
      .ok ((entries.find? fun entry => (entry.id : Int) = id).map Entry.event) := by
    intro id
    rw [getEvent]
    cases sought : entries.find? fun entry => (entry.id : Int) = id with
    | none =>
      have absent : store.events.get id = none := by
        refine Option.eq_none_iff_forall_ne_some.mpr fun text stored => ?_
        obtain ⟨entry, listed, same, -⟩ := (holds.files _ _).mp stored
        have other := find?_eq_none.mp sought entry listed
        simp only [decide_eq_true_eq] at other
        exact other same
      rw [absent]
      rfl
    | some entry =>
      have here : (entry.id : Int) = id := by simpa using find?_some sought
      have stored := (holds.files id _).mpr ⟨entry, mem_of_find?_eq_some sought, here, rfl⟩
      simp only [stored, codec.load_dump_event, entry.converts]
      rfl
  have bounded : ∀ entry ∈ entries, (entry.id : Int) < calculateCurId store := by
    intro entry listed
    refine lt_calculate_cur_id ((OrderedDict.mem_keys_iff _ _).mpr ?_)
    exact ⟨_, (holds.files _ _).mpr ⟨entry, listed, rfl, rfl⟩⟩
  have all : (entries.filter fun entry => entry.id < (calculateCurId store).toNat) = entries := by
    refine filter_eq_self.mpr fun entry listed => ?_
    have below := bounded entry listed
    simp only [decide_eq_true_eq]
    omega
  have looked := find_below entries ascending (calculateCurId store).toNat
  rw [all] at looked
  have counted : ∀ limit, ({} : Search WorkEvent).limit = some limit → 0 ≤ limit :=
    fun limit given => by cases given
  refine (search_events_eq codec faithful counted).trans
    ((readIndividually_all store _ found 0 0 _).trans ?_)
  have numbers (last : Int) : ({} : Search WorkEvent).indices last =
      (range last.toNat).map fun id : Nat => (id : Int) := by
    rw [map_eq_flatMap]
    simp [Search.indices]
  refine congrArg (·, none) ?_
  rw [← congrArg (map Entry.event) looked, map_filterMap, numbers, filterMap_map]
  simp [Stream.currentId, Stream.opened]
end ForgePilot.WorkingTime
