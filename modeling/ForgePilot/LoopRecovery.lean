import ForgePilot.Runs
import ForgePilot.StateTracker

/-!
# Loop recovery and the history of a session

When an agent is stuck in a loop, its history can be cut back to a point before the
loop. The cut also sets the end of the history's range, and nothing sets it back:
closing a session and restoring one read the stream up to that end only. Events
that come later are in the history of the running agent, but in no history that is
read from the stream again. When the cut leaves nothing, the range has no end, and
the events that were cut come back.

A session is a stream, the state of the agent, and the events that were added to
the stream and not yet delivered to the agent. While a delegate is active, events
are delivered to the delegate. Events that the recovery itself announces belong to
the recovery.
-/

namespace ForgePilot.LoopRecovery

open Events StateTrackers Brackets Runs List

def stored (stream : EventStream) (event : Event) : Event := { event with id := stream.curId }

def addEvent (stream : EventStream) (event : Event) : EventStream where
  events := stream.events ++ [stored stream event]
  curId := stream.curId + 1
  natural := by
    have := stream.natural
    omega
  increasing := by
    refine List.pairwise_append.mpr ⟨stream.increasing, List.pairwise_singleton _ _, ?_⟩
    intro earlier member later now
    rw [List.mem_singleton.mp now]
    exact (stream.inside earlier member).2
  inside := by
    intro other member
    have natural := stream.natural
    cases List.mem_append.mp member with
    | inl before =>
      have := stream.inside other before
      omega
    | inr now =>
      rw [List.mem_singleton.mp now]
      simp only [stored]
      omega

/-- Cut the history back to a point, and set the end of its range. -/
def truncateMemoryToPoint (state : State) (recoveryPoint : Nat) : State :=
  if state.history.length ≤ recoveryPoint then state
  else
    let eventsToKeep := state.history.take recoveryPoint
    { state with
      history := eventsToKeep
      endId := (eventsToKeep.getLast?.map Event.id).getD (-1) }

/-- A session: what is delivered next, what was added since the last recovery, and
what recoveries removed. -/
structure Session where
  stream : EventStream
  state : State
  queue : List Event := []
  after : List Event := []
  removed : List Event := []

/-- What can happen in a session. -/
inductive Label where
  | add (event : Event)
  | deliver (own : Bool)
  | recover (recoveryPoint : Nat) (announced : List Event)

/-- Add an event to the stream, to be delivered later. -/
def announce (session : Session) (event : Event) : Session :=
  { session with
    stream := addEvent session.stream event
    queue := session.queue ++ [stored session.stream event] }

def step (session : Session) : Label → Session
  | .add event =>
      { announce session event with after := session.after ++ [stored session.stream event] }
  | .deliver own =>
      match session.queue with
      | [] => session
      | event :: rest =>
          { session with
            queue := rest
            state := if own then addHistory session.state event else session.state }
  | .recover recoveryPoint announced =>
      let cut :=
        { session with
          state := truncateMemoryToPoint session.state recoveryPoint
          removed := session.removed ++ session.state.history.drop recoveryPoint }
      { announced.foldl announce cut with after := [] }

/-- The state of a session that was saved and is restored. -/
def restore (state : State) : State :=
  { startId := if state.startId ≤ -1 then 0 else state.startId, endId := state.endId }

def restoredHistory (session : Session) : List Event :=
  (initHistory session.stream (restore session.state)).history

/-- Closing and restoring find all events since the last recovery, and restoring
finds none that was removed. -/
structure NothingLost (session : Session) : Prop where
  closed : ∀ event ∈ session.after, agentHistoryFilter event = true →
    event ∈ (close session.stream session.state).history
  restored : ∀ event ∈ session.after, agentHistoryFilter event = true →
    event ∈ restoredHistory session
  gone : ∀ event ∈ session.removed, event ∉ restoredHistory session

/-- A session at its beginning: its range has no end, what was read or is to be
delivered is in order, and no recovery has happened. -/
structure Opened (session : Session) : Prop where
  endless : session.state.endId < 0
  start : session.state.startId ≤ session.stream.curId
  ordered : Increasing (session.state.history ++ session.queue)
  inside : ∀ event ∈ session.state.history ++ session.queue,
    0 ≤ event.id ∧ event.id < session.stream.curId
  nothingAfter : session.after = []
  nothingRemoved : session.removed = []

/-- Steps that lose nothing: events of the history are added while the range has no
end, no delegation is completed, and a recovery removes nothing or keeps an event
that is in the range. -/
def Harmless (session : Session) : Label → Prop
  | .add event =>
      (session.state.endId < 0 ∨ agentHistoryFilter event = false) ∧
        delegateKind event ≠ .closing
  | .deliver _ => True
  | .recover recoveryPoint _ =>
      session.state.history.length ≤ recoveryPoint ∨
        ∃ last, (session.state.history.take recoveryPoint).getLast? = some last ∧
          (session.state.endId < 0 ∨ last.id ≤ session.state.endId)

/-- What holds in every session whose steps are harmless. -/
structure Sound (session : Session) : Prop where
  start : session.state.startId ≤ session.stream.curId
  ordered : Increasing (session.state.history ++ session.queue)
  inside : ∀ event ∈ session.state.history ++ session.queue,
    0 ≤ event.id ∧ event.id < session.stream.curId
  after : ∀ event ∈ session.after, event ∈ session.stream.events ∧
    session.state.first ≤ event.id ∧
    ∀ other ∈ session.stream.events, delegateKind other = .closing → other.id < event.id
  range : session.state.endId < 0 ∧ session.removed = [] ∨
    0 ≤ session.state.endId ∧
      (∀ event ∈ session.after, agentHistoryFilter event = false) ∧
      ∀ event ∈ session.removed, session.state.endId < event.id

variable (session : Session)

theorem opened_sound (opened : Opened session) : Sound session := by
  refine ⟨opened.start, opened.ordered, opened.inside, ?_, .inl ⟨opened.endless,
    opened.nothingRemoved⟩⟩
  rw [opened.nothingAfter]
  exact fun event member => nomatch member

/-- A range starts no later than the next event. -/
theorem first_le (start : session.state.startId ≤ session.stream.curId) :
    session.state.first ≤ session.stream.curId := by
  have natural := session.stream.natural
  rw [State.first]
  split
  · exact start
  · exact natural

variable (event : Event)

/-- Announcing an event keeps everything but what was added since the last
recovery. -/
theorem announce_ordered (ordered : Increasing (session.state.history ++ session.queue))
    (inside : ∀ event ∈ session.state.history ++ session.queue,
      0 ≤ event.id ∧ event.id < session.stream.curId) :
    Increasing ((announce session event).state.history ++ (announce session event).queue) ∧
      ∀ other ∈ (announce session event).state.history ++ (announce session event).queue,
        0 ≤ other.id ∧ other.id < (announce session event).stream.curId := by
  simp only [announce, addEvent]
  rw [← append_assoc]
  constructor
  · refine pairwise_append.mpr ⟨ordered, pairwise_singleton _ _, ?_⟩
    intro earlier member later now
    rw [mem_singleton.mp now]
    exact (inside earlier member).2
  · intro other member
    have natural := session.stream.natural
    cases mem_append.mp member with
    | inl before =>
      have := inside other before
      omega
    | inr now =>
      rw [mem_singleton.mp now]
      simp only [stored]
      omega

/-- Announcing a session without later events keeps it sound. -/
theorem announce_sound {session : Session} (sound : Sound session) (none : session.after = []) :
    Sound (announce session event) := by
  obtain ⟨ordered, inside⟩ := announce_ordered _ _ sound.ordered sound.inside
  refine ⟨?_, ordered, inside, ?_, sound.range⟩
  · have start := sound.start
    simp only [announce, addEvent]
    omega
  · intro other member
    have same : (announce session event).after = session.after := rfl
    rw [same, none] at member
    cases member

theorem add_sound (sound : Sound session) (harmless : Harmless session (.add event)) :
    Sound (step session (.add event)) := by
  obtain ⟨counted, notClosing⟩ := harmless
  obtain ⟨ordered, inside⟩ := announce_ordered _ _ sound.ordered sound.inside
  have first := first_le _ sound.start
  refine ⟨?_, ordered, inside, ?_, ?_⟩
  · have start := sound.start
    simp only [step, announce, addEvent]
    omega
  · intro other member
    have closings : ∀ late, late ∈ (step session (.add event)).stream.events →
        delegateKind late = .closing → late ∈ session.stream.events := by
      intro late within closes
      cases mem_append.mp within with
      | inl before => exact before
      | inr now =>
        rw [mem_singleton.mp now] at closes
        exact absurd closes notClosing
    cases mem_append.mp member with
    | inl before =>
      obtain ⟨present, low, precede⟩ := sound.after other before
      exact ⟨mem_append_left _ present, low,
        fun late within closes => precede late (closings late within closes) closes⟩
    | inr now =>
      rw [mem_singleton.mp now]
      refine ⟨mem_append_right _ (.head _), first, ?_⟩
      intro late within closes
      exact (session.stream.inside late (closings late within closes)).2
  · cases sound.range with
    | inl endless => exact .inl endless
    | inr bounded =>
      obtain ⟨limit, filtered, gone⟩ := bounded
      refine .inr ⟨limit, ?_, gone⟩
      intro other member
      cases mem_append.mp member with
      | inl before => exact filtered other before
      | inr now =>
        rw [mem_singleton.mp now]
        have endless : ¬session.state.endId < 0 := by omega
        exact counted.resolve_left endless

/-- Delivering an event keeps a session sound. -/
theorem deliver_sound (own : Bool) (sound : Sound session) :
    Sound (step session (.deliver own)) := by
  cases waiting : session.queue with
  | nil =>
    have same : step session (.deliver own) = session := by
      simp [step, waiting]
    rw [same]
    exact sound
  | cons event rest =>
    have result : step session (.deliver own) = { session with
          queue := rest
          state := if own then addHistory session.state event else session.state } := by
      simp [step, waiting]
    obtain ⟨start, ordered, inside, after, range⟩ := sound
    rw [waiting] at ordered inside
    have sublist : (session.state.history ++ rest).Sublist
        (session.state.history ++ event :: rest) :=
      (List.Sublist.refl _).append (sublist_cons_self _ _)
    rw [result]
    cases own with
    | false =>
      exact ⟨start, ordered.sublist sublist,
        fun other member => inside other (sublist.subset member), after, range⟩
    | true =>
      simp only [addHistory, if_true]
      split
      · refine ⟨start, ?_, ?_, after, range⟩
        · simpa using ordered
        · intro other member
          exact inside other (by simpa using member)
      · exact ⟨start, ordered.sublist sublist,
          fun other member => inside other (sublist.subset member), after, range⟩

/-- What is cut off comes after the last event that is kept. -/
theorem kept_before_removed {history : List Event} (increasing : Increasing history)
    {recoveryPoint : Nat} {last : Event}
    (kept : (history.take recoveryPoint).getLast? = some last) {event : Event}
    (removed : event ∈ history.drop recoveryPoint) : last.id < event.id := by
  have parts := take_append_drop recoveryPoint history
  rw [← parts] at increasing
  exact (pairwise_append.mp increasing).2.2 last (mem_of_getLast? kept) event removed

theorem recover_sound {session : Session} {recoveryPoint : Nat} {announced : List Event}
    (sound : Sound session) (harmless : Harmless session (.recover recoveryPoint announced)) :
    Sound (step session (.recover recoveryPoint announced)) := by
  -- announcements change neither the state nor what was removed
  have announcedSound : ∀ (events : List Event) (cut : Session), Sound { cut with after := [] } →
      Sound { events.foldl announce cut with after := [] } := by
    intro events
    induction events with
    | nil => exact fun cut holds => holds
    | cons event rest ih =>
      intro cut holds
      exact ih (announce cut event)
        (announce_sound _ holds rfl)
  apply announcedSound
  obtain ⟨start, ordered, inside, _, range⟩ := sound
  by_cases whole : session.state.history.length ≤ recoveryPoint
  · rw [truncateMemoryToPoint, if_pos whole, drop_eq_nil_of_le whole, append_nil]
    refine ⟨start, ordered, inside, fun event member => (nomatch member), ?_⟩
    cases range with
    | inl endless => exact .inl endless
    | inr bounded => exact .inr ⟨bounded.1, fun event member => (nomatch member), bounded.2.2⟩
  · obtain ⟨last, kept, limit⟩ := harmless.resolve_left whole
    have increasing : Increasing session.state.history :=
      ordered.sublist (sublist_append_left _ _)
    have sublist : (session.state.history.take recoveryPoint ++ session.queue).Sublist
        (session.state.history ++ session.queue) :=
      (take_sublist _ _).append (List.Sublist.refl _)
    have lastInside : last ∈ session.state.history :=
      mem_of_mem_take (mem_of_getLast? kept)
    rw [truncateMemoryToPoint, if_neg whole]
    simp only [kept, Option.map_some, Option.getD_some]
    refine ⟨start, ordered.sublist sublist, fun event member => inside event (sublist.subset member),
      fun event member => (nomatch member), .inr ⟨?_, fun event member => (nomatch member), ?_⟩⟩
    · exact (inside last (mem_append_left _ lastInside)).1
    · intro event member
      cases mem_append.mp member with
      | inr now => exact kept_before_removed increasing kept now
      | inl before =>
        cases range with
        | inl endless =>
          rw [endless.2] at before
          cases before
        | inr bounded =>
          have beyond := bounded.2.2 event before
          simp only
          omega

theorem step_sound (label : Label) (sound : Sound session) (harmless : Harmless session label) :
    Sound (step session label) := by
  cases label with
  | add event => exact add_sound _ _ sound harmless
  | deliver own => exact deliver_sound _ own sound
  | recover recoveryPoint announced => exact recover_sound sound harmless

/-- Restoring reads the same range. -/
theorem restore_range : rangeEvents session.stream (restore session.state) =
      rangeEvents session.stream session.state := by
  have first : (restore session.state).first = session.state.first := by
    unfold State.first restore
    simp only
    split <;> split <;> omega
  rw [rangeEvents, rangeEvents, first]
  rfl

theorem sound_nothing_lost (sound : Sound session) : NothingLost session := by
  -- what was added since the last recovery lies in the range
  have counted : ∀ event ∈ session.after, agentHistoryFilter event = true →
      event ∈ rangeEvents session.stream session.state := by
    intro event member passes
    obtain ⟨present, low, _⟩ := sound.after event member
    have bound := (session.stream.inside event present).2
    rw [rangeEvents, EventStream.searchEvents, mem_filter]
    refine ⟨present, ?_⟩
    cases sound.range with
    | inl endless =>
      have last : session.state.last session.stream = session.stream.curId - 1 := by
        rw [State.last, if_neg (by omega)]
        rfl
      rw [last]
      simp only [decide_eq_true_eq]
      exact ⟨low, by omega, passes⟩
    | inr bounded =>
      rw [bounded.2.1 event member] at passes
      cases passes
  refine ⟨counted, ?_, ?_⟩
  · intro event member passes
    have inside := counted event member passes
    rw [← restore_range] at inside
    apply (init_history_members ..).2 inside
    intro action observation partners
    have closing := partners.2.1
    have present := (partners_spec _ _
      partners).2.1
    exact (sound.after event member).2.2 observation (mem_filter.mp present).1 closing
  · intro event member found
    have inside := (init_history_members ..).1 found
    rw [restore_range] at inside
    have bounds := (range_events_spec ..).2 event inside
    cases sound.range with
    | inl endless =>
      rw [endless.2] at member
      cases member
    | inr bounded =>
      have beyond := bounded.2.2 event member
      have last : session.state.last session.stream = session.state.endId := by
        rw [State.last, if_pos bounded.1]
      omega

/-- In every run of harmless steps, nothing is lost in any state that is reached. -/
theorem recoveries_lose_nothing (start : Session) (labels : List Label) (opened : Opened start)
    (harmless : Along step Harmless start labels) (session : Session)
    (reached : Reached step start labels session) : NothingLost session :=
  sound_nothing_lost _
    (invariant_along _ _ _ step_sound _ _ (opened_sound _ opened)
      harmless _ reached)

/-- A session without events. -/
def freshSession : Session where
  stream := ⟨[], 0, by decide, .nil, fun event member => nomatch member⟩
  state := { startId := 0 }

/-- Four messages that were added and delivered. -/
def fourMessages : List Label :=
  [.add (messageEvent 0), .add (messageEvent 0), .add (messageEvent 0), .add (messageEvent 0),
    .deliver true, .deliver true, .deliver true, .deliver true]

def loopDetection : Event where
  source := some .environment
  body := .observation "Loop recovery completed." .loopDetection

theorem fresh_session_opened : Opened freshSession :=
  ⟨by decide, by decide, .nil, fun event member => (nomatch member), rfl, rfl⟩

/-- A recovery that cuts the loop off loses nothing as long as nothing follows. -/
theorem recovery_at_end_loses_nothing :
    NothingLost (run step freshSession (fourMessages ++ [.recover 2 [loopDetection]])) := by
  have labels : fourMessages ++ [.recover 2 [loopDetection]] =
      (fourMessages ++ [.recover 2 [loopDetection]]) ++ [] := (List.append_nil _).symm
  refine recoveries_lose_nothing _ _
    fresh_session_opened ?_ _ ⟨_, [], labels, rfl⟩
  rw [along_append]
  constructor
  · simp [fourMessages, Along, Harmless, step, announce, freshSession, messageEvent, delegateKind]
  · refine ⟨.inr ⟨stored (run step freshSession [.add (messageEvent 0)]).stream
      (messageEvent 0), rfl, .inl (by decide)⟩, trivial⟩

/-- A message is added after a recovery. -/
def continuedSession : Session :=
  run step freshSession (fourMessages ++ [.recover 2 [loopDetection], .add (messageEvent 0)])

/-- A recovery removes everything. -/
def emptiedSession : Session :=
  run step freshSession (fourMessages ++ [.recover 0 [loopDetection]])

/-- A message that is added after a recovery is found neither by closing nor by
restoring; and when a recovery removes everything, restoring brings it back. -/
theorem recovery_loses_later_events : continuedSession.after.map Event.id = [5] ∧
      (close continuedSession.stream continuedSession.state).history.map Event.id = [0, 1] ∧
      (restoredHistory continuedSession).map Event.id = [0, 1] ∧
      ¬NothingLost continuedSession ∧
      emptiedSession.removed.map Event.id = [0, 1, 2, 3] ∧
      (restoredHistory emptiedSession).map Event.id = [0, 1, 2, 3, 4] ∧
      ¬NothingLost emptiedSession := by
  refine ⟨by decide, by decide, by decide, ?_, by decide, by decide, ?_⟩
  · intro lost
    have found := lost.closed _ (.head _) rfl
    have identified : (5 : Int) ∈
        (close continuedSession.stream continuedSession.state).history.map Event.id :=
      List.mem_map.mpr ⟨_, found, rfl⟩
    revert identified
    decide
  · intro lost
    exact lost.gone _ (.head _) (.head _)

end ForgePilot.LoopRecovery
