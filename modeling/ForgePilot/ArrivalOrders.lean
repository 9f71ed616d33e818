import ForgePilot.WorkingTime

/-!
# Orders of arrival

Whatever order the events of a conversation arrive in, what is counted in the end is the time of those
events that arrive no later than the last change to another state than running. All such changes are
among them, and the record is right just when the changes to running that are missing do not move the
beginning of an interval.
-/

namespace ForgePilot.ArrivalOrders

open EventPages RunningIntervals WorkingTime List

variable {τ δ : Type} {codec : Codec τ δ WorkEvent}

/-! ## Arrivals -/

/-- What a server holds after some entries have arrived one after the other. -/
def arrive (server : Server τ) (arrivals : List (Entry codec)) : Server τ :=
  arrivals.foldl (fun server entry => (processEvent codec server entry.id entry.content).1) server

variable {entries : List (Entry codec)} (server : Server τ)

theorem arrive_append (first second : List (Entry codec)) :
    arrive server (first ++ second) = arrive (arrive server first) second :=
  foldl_append

theorem update_fileStore :
    (updateActiveWorkingSeconds codec server).fileStore = server.fileStore := by
  rw [updateActiveWorkingSeconds]
  split <;> rfl

variable (entry : Entry codec)

theorem process_fileStore : (processEvent codec server entry.id entry.content).1.fileStore =
      server.fileStore.writeEvent entry.id (codec.dumpEvent entry.content) := by
  simp only [processEvent, entry.converts]
  split
  · rfl
  · split
    · exact update_fileStore _
    · rfl

theorem process_seconds (goes : entry.stops = false) :
    (processEvent codec server entry.id entry.content).1.seconds = server.seconds := by
  simp only [processEvent, entry.converts]
  split
  · rfl
  · rename_i state isState
    rw [if_neg]
    simpa [Entry.stops, isState] using goes

/-- Arrivals that are no changes to another state than running do not count anything. -/
theorem arrive_seconds (arrivals : List (Entry codec))
    (go : ∀ entry ∈ arrivals, entry.stops = false) :
    (arrive server arrivals).seconds = server.seconds := by
  induction arrivals generalizing server with
  | nil => rfl
  | cons entry rest ih =>
    have later := ih (processEvent codec server entry.id entry.content).1
      fun other listed => go other (.tail _ listed)
    exact later.trans (process_seconds _ _ (go entry (.head _)))

/-- A new entry is stored with the others. -/
theorem holds_process {server : Server τ} {entries : List (Entry codec)} {entry : Entry codec}
    (holds : Holds server.fileStore entries) (fresh : ∀ other ∈ entries, other.id ≠ entry.id) :
    Holds (processEvent codec server entry.id entry.content).1.fileStore (entries ++ [entry]) := by
  rw [process_fileStore]
  refine ⟨holds.pages, fun id text => ?_⟩
  rw [FileStore.writeEvent, OrderedDict.get_set]
  split
  · rename_i same
    constructor
    · intro stored
      exact ⟨entry, by simp, same.symm, Option.some.inj stored⟩
    · rintro ⟨other, listed, otherId, written⟩
      rcases mem_append.mp listed with before | here
      · have equal : other.id = entry.id := by
          rw [same] at otherId
          exact_mod_cast otherId
        exact absurd equal (fresh other before)
      · obtain rfl := mem_singleton.mp here
        exact congrArg some written
  · rename_i other
    rw [holds.files]
    constructor
    · rintro ⟨found, listed, rest⟩
      exact ⟨found, mem_append_left _ listed, rest⟩
    · rintro ⟨found, listed, same, written⟩
      rcases mem_append.mp listed with before | here
      · exact ⟨found, before, same, written⟩
      · obtain rfl := mem_singleton.mp here
        exact absurd same.symm other

theorem holds_arrive (entries arrivals : List (Entry codec))
    (holds : Holds server.fileStore entries) (distinct : ((entries ++ arrivals).map Entry.id).Nodup)
    :
    Holds (arrive server arrivals).fileStore (entries ++ arrivals) := by
  induction arrivals generalizing server entries with
  | nil => rwa [append_nil]
  | cons entry rest ih =>
    have regrouped : entries ++ entry :: rest = (entries ++ [entry]) ++ rest := by simp
    rw [regrouped] at distinct ⊢
    refine ih _ _
      (holds_process holds fun other listed same => ?_) distinct
    rw [map_append, map_append] at distinct
    have apart := (nodup_append.mp (nodup_append.mp distinct).1).2.2
    exact apart other.id (mem_map_of_mem listed) entry.id (by simp) same

/-- A change to another state than running counts all that has arrived by then. -/
theorem process_counts {before entries : List (Entry codec)} (entry : Entry codec)
    (holds : Holds server.fileStore before) (fresh : ∀ other ∈ before, other.id ≠ entry.id)
    (stops : entry.stops = true) (ascending : Ascending entries)
    (same : ∀ other, other ∈ before ++ [entry] ↔ other ∈ entries) :
    (processEvent codec server entry.id entry.content).1.seconds = some (workingTime entries) := by
  have stored := holds_process holds fresh
  rw [process_fileStore] at stored
  have found := search_holds _ _ (stored.of_perm same) ascending
  simp only [processEvent, entry.converts]
  cases state : entry.event.agentState with
  | none =>
    rw [Entry.stops, state] at stops
    cases stops
  | some name =>
    have other : name ≠ agentStateRunning := by simpa [Entry.stops, state] using stops
    simp [if_pos other, updateActiveWorkingSeconds, found, activeWorkingTime_eq]

/-! ## The order of arrival -/

/-- The entry arrives after all changes to another state than running have arrived. -/
def isLate (arrivals : List (Entry codec)) (entry : Entry codec) : Bool :=
  (arrivals.rtakeWhile fun other => !other.stops).any fun other => other.id = entry.id

/-- The record of work holds the working time, which is no longer than the conversation. -/
structure Recorded (entries : List (Entry codec)) (seconds : Option Int) : Prop where
  exact : seconds = some (workingTime entries)
  bounded : ∀ first ∈ entries.head?, ∀ last ∈ entries.getLast?,
    workingTime entries ≤ last.time - first.time

theorem runs_of_changes (changes : entry.changes = true) : entry.runs = !entry.stops := by
  cases state : entry.event.agentState with
  | none =>
    rw [Entry.changes, state] at changes
    cases changes
  | some name => simp [Entry.runs, Entry.stops, state]

/-- The entries of a conversation have their ids alone, and their times in order. -/
def InOrder (entries : List (Entry codec)) : Prop :=
  entries.Pairwise fun first second => first.id < second.id ∧ first.time ≤ second.time

theorem InOrder.ascending (ordered : InOrder entries) : Ascending entries := ordered.imp And.left

theorem InOrder.same_of_id (ordered : InOrder entries) {first second : Entry codec}
    (isFirst : first ∈ entries) (isSecond : second ∈ entries) (same : first.id = second.id) :
    first = second := by
  have distinct : (entries.map Entry.id).Nodup :=
    pairwise_map.mpr (ordered.imp fun both => Nat.ne_of_lt both.1)
  exact inj_on_of_nodup_map distinct isFirst isSecond same

theorem workingTime_le (entries : List (Entry codec)) (ordered : InOrder entries)
    (first last : Entry codec) (isFirst : first ∈ entries.head?) (isLast : last ∈ entries.getLast?) :
    workingTime entries ≤ last.time - first.time := by
  have times : (entries.filter Entry.changes).Pairwise fun first second => first.time ≤ second.time :=
    (ordered.imp And.right).sublist filter_sublist
  obtain ⟨rest, rfl⟩ := head?_eq_some_iff.mp isFirst
  obtain ⟨front, split⟩ := getLast?_eq_some_iff.mp isLast
  have after : ∀ entry ∈ first :: rest, first.time ≤ entry.time := by
    intro entry listed
    rcases listed with _ | ⟨_, later⟩
    · exact Int.le_refl _
    · exact ((pairwise_cons.mp ordered).1 entry later).2
  have before : ∀ entry ∈ first :: rest, entry.time ≤ last.time := by
    intro entry listed
    rw [split] at listed
    rcases mem_append.mp listed with earlier | here
    · rw [InOrder, split] at ordered
      exact ((pairwise_append.mp ordered).2.2 entry earlier last (.head _)).2
    · obtain rfl := mem_singleton.mp here
      exact Int.le_refl _
  exact (totalLength_le _ _ times
    fun entry listed => before entry (mem_of_mem_filter listed)).1 first.time
      (before first (.head _)) fun entry listed => after entry (mem_of_mem_filter listed)

/-- What is counted in the end are the entries that are not late. -/
theorem arrive_counts (entries arrivals : List (Entry codec)) (ordered : InOrder entries)
    (arrives : arrivals.Perm entries) (stopping : ∃ entry ∈ entries, entry.stops = true)
    (before : Option Int) :
    (arrive (⟨⟨.empty, [], .empty⟩, before⟩ : Server τ) arrivals).seconds =
      some (workingTime (entries.filter fun entry => !isLate arrivals entry)) := by
  have distinct : (arrivals.map Entry.id).Nodup := (arrives.map Entry.id).nodup_iff.mpr
      (pairwise_map.mpr (ordered.imp fun both => Nat.ne_of_lt both.1))
  have split := rdropWhile_append_rtakeWhile (p := fun other : Entry codec => !other.stops)
    (l := arrivals)
  have filled : arrivals.rdropWhile (fun other => !other.stops) ≠ [] := by
    intro empty
    obtain ⟨entry, listed, stops⟩ := stopping
    have goes := rdropWhile_eq_nil_iff.mp empty entry (arrives.mem_iff.mpr listed)
    rw [stops] at goes
    cases goes
  have stops := rdropWhile_last_not _ _ filled
  obtain ⟨early, last, isEarly⟩ : ∃ early last,
      arrivals.rdropWhile (fun other => !other.stops) = early ++ [last] :=
    ⟨_, _, (dropLast_append_getLast filled).symm⟩
  have lastStops : last.stops = true := by
    simp only [isEarly, getLast_append_singleton, Bool.not_eq_true', Bool.not_eq_false] at stops
    exact stops
  rw [isEarly] at split
  have goes : ∀ entry ∈ arrivals.rtakeWhile (fun other => !other.stops), entry.stops = false :=
    fun entry listed => by simpa using mem_rtakeWhile_imp listed
  have ids := distinct
  rw [← split, map_append] at ids
  obtain ⟨earlyIds, -, apart⟩ := nodup_append.mp ids
  have counted : ∀ entry, entry ∈ early ++ [last] ↔
      entry ∈ entries.filter fun entry => !isLate arrivals entry := by
    intro entry
    rw [mem_filter, ← arrives.mem_iff]
    constructor
    · intro listed
      refine ⟨split ▸ mem_append_left _ listed, ?_⟩
      rw [Bool.not_eq_true', isLate, any_eq_false]
      intro other later same
      exact apart entry.id (mem_map_of_mem listed) other.id (mem_map_of_mem later)
        (by simpa using (of_decide_eq_true same).symm)
    · rintro ⟨listed, onTime⟩
      rw [← split] at listed
      rcases mem_append.mp listed with early | late
      · exact early
      · have isLate : isLate arrivals entry = true := any_eq_true.mpr ⟨entry, late, by simp⟩
        rw [isLate] at onTime
        cases onTime
  have twoParts (server : Server τ) : arrive server arrivals = arrive (arrive server (early ++ [last]))
      (arrivals.rtakeWhile fun other => !other.stops) := by
    rw [← arrive_append, split]
  rw [twoParts, arrive_seconds _ _ goes, arrive_append]
  rw [map_append] at earlyIds
  have stored : Holds (arrive (⟨⟨.empty, [], .empty⟩, before⟩ : Server τ) early).fileStore early := by
    have start : @Holds τ δ codec ⟨.empty, [], .empty⟩ [] := ⟨rfl, fun id text => by simp⟩
    exact holds_arrive _ [] _ start (nodup_append.mp earlyIds).1
  exact process_counts _ _ stored
    (fun other listed same => (nodup_append.mp earlyIds).2.2 other.id (mem_map_of_mem listed)
      last.id (by simp) same)
    lastStops (ordered.ascending.sublist filter_sublist) counted

/-- Whatever the order of arrival, the record holds the working time just when every change to running
that begins an interval arrives before the last change to another state does, or has the time of the
next change that so arrives. -/
theorem working_time_recorded (entries arrivals : List (Entry codec)) (ordered : InOrder entries)
    (arrives : arrivals.Perm entries)
    (settled : ∃ last, (entries.filter Entry.changes).getLast? = some last ∧ last.stops = true)
    (before : Option Int) :
    Recorded entries (arrive (⟨⟨.empty, [], .empty⟩, before⟩ : Server τ) arrivals).seconds ↔
      Timely Entry.time Entry.runs (isLate arrivals) false (entries.filter Entry.changes) := by
  obtain ⟨last, isLast, stops⟩ := settled
  have lastListed := List.mem_filter.mp (List.mem_of_getLast? isLast)
  have ends : Ends Entry.runs false (entries.filter Entry.changes) := by
    rw [Ends, isLast]
    change last.runs = false
    rw [runs_of_changes last lastListed.2, stops]
    rfl
  have only : ∀ entry ∈ entries.filter Entry.changes, isLate arrivals entry = true →
      entry.runs = true := by
    intro entry listed late
    obtain ⟨listed, changes⟩ := List.mem_filter.mp listed
    obtain ⟨other, among, same⟩ := List.any_eq_true.mp late
    have otherListed : other ∈ entries := arrives.mem_iff.mp
      ((List.rtakeWhile_suffix _ _).subset among)
    obtain rfl := ordered.same_of_id otherListed listed (of_decide_eq_true same)
    rw [runs_of_changes other changes]
    exact List.mem_rtakeWhile_imp (p := fun other : Entry codec => !other.stops) among
  have times : (entries.filter Entry.changes).Pairwise fun first second => first.time ≤ second.time :=
    (ordered.imp And.right).sublist List.filter_sublist
  have swapped : (entries.filter fun entry => !isLate arrivals entry).filter Entry.changes =
      (entries.filter Entry.changes).filter fun entry => !isLate arrivals entry := by
    rw [List.filter_filter, List.filter_filter]
    exact List.filter_congr fun entry _ => Bool.and_comm _ _
  have difference := (totalLength_lost Entry.time Entry.runs (isLate arrivals) _ only).1 ends
  rw [← (lost_eq_zero Entry.time Entry.runs (isLate arrivals) _ only times).1 ends |>.2]
  have counts := arrive_counts entries arrivals ordered arrives ⟨last, lastListed.1, stops⟩ before
  rw [counts]
  constructor
  · intro recorded
    have same := Option.some.inj recorded.exact
    rw [workingTime, workingTime, swapped] at same
    omega
  · intro nothing
    refine ⟨congrArg some ?_, fun first isFirst last isLast =>
      workingTime_le entries ordered first last isFirst isLast⟩
    rw [workingTime, workingTime, swapped]
    omega

/-! ## Two changes and a message -/

/-- Documents that consist of an id and an event, and texts that hold one or a list of them. -/
def workCodec : Codec ((Int × WorkEvent) ⊕ List (Int × WorkEvent)) (Int × WorkEvent) WorkEvent where
  loadEvent
    | .inl document => .ok document.2
    | .inr _ => .error "not an event"
  loadPage
    | .inl _ => .ok (.unusable "not a list")
    | .inr documents => .ok (.entries documents)
  eventFromDict document := .ok document.2
  documentId document := document.1
  dumpEvent := .inl
  dumpPage := .inr
  load_dump_event _ := rfl
  load_dump_page _ _ := rfl

def workEntry (id : Nat) (time : Int) (agentState : Option String) : Entry workCodec where
  id := id
  content := (id, ⟨some time, agentState⟩)
  event := ⟨some time, agentState⟩
  time := time
  converts := rfl
  timed := rfl

def startedEntry : Entry workCodec := workEntry 0 0 (some "running")

def messageEntry : Entry workCodec := workEntry 1 4 none

def finishedEntry : Entry workCodec := workEntry 2 10 (some "finished")

/-- A message may be late. -/
theorem working_time_recorded_message : Recorded [startedEntry, messageEntry, finishedEntry]
      (arrive ⟨⟨.empty, [], .empty⟩, none⟩ [startedEntry, finishedEntry, messageEntry]).seconds := by
  refine (working_time_recorded _ _ ?_ ?_ ⟨finishedEntry, rfl, rfl⟩ _).mpr ?_
  · simp [InOrder, startedEntry, messageEntry, finishedEntry, workEntry]
  · exact (List.Perm.swap _ _ []).cons _
  · intro front start back same running late _
    have listed : start ∈ [startedEntry, messageEntry, finishedEntry].filter Entry.changes := by
      rw [same]
      simp
    have among : start = startedEntry ∨ start = finishedEntry := List.mem_pair.mp listed
    rcases among with rfl | rfl
    · cases late
    · cases late

/-- When the change to running arrives last, its interval is not counted. -/
theorem late_start_lost : ¬ Recorded [startedEntry, finishedEntry]
      (arrive ⟨⟨.empty, [], .empty⟩, none⟩ [finishedEntry, startedEntry]).seconds := by
  intro recorded
  have counted : (arrive ⟨⟨.empty, [], .empty⟩, none⟩ [finishedEntry, startedEntry]).seconds =
      some 0 := by
    decide
  have same := recorded.exact
  rw [counted] at same
  cases same
end ForgePilot.ArrivalOrders
