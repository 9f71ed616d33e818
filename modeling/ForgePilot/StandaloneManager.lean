import ForgePilot.Events
import ForgePilot.OrderedDict
import ForgePilot.Processes
import Mathlib.Data.List.Sort

/-!
# The conversation manager of a single server

The manager registers the session of each conversation under its id and keeps what is
attached to a conversation in two tables: those in use, with a count, and those that were
let go and wait for the cleanup. Starts, closings, attachments, detachments and the
cleanup are coroutines of one event loop. Each runs undisturbed up to the next call that
suspends it; only the two tables of attachments are under a lock.

A start looks for a registered session first. Where the user is below the limit, it
registers a new one in the same step; where the limit is reached it has to close the
oldest conversations, each of which suspends it, and registers without a second look.

Beside its tables the manager notes which sessions were created and which of them are
being closed, and which conversations were attached, detached and disconnected.
-/

namespace ForgePilot.StandaloneManager

open Runs Processes Events OrderedDict

/-! ## Sessions -/

structure Session where
  id : Nat
  sid : String
  userId : Option String
deriving DecidableEq

/-- What the manager knows of agent loops and of who is connected to them. -/
structure AgentLoops where
  localAgentLoopsBySid : OrderedDict String Session
  localConnectionIdToSessionId : OrderedDict String String
  created : List Session
  closing : List Session

/-- A text that is not empty. -/
def given : Option String → Bool
  | none => false
  | some text => text ≠ ""

/-- The conversations of a user that have a session; those of all users without one. -/
def AgentLoops.getRunningAgentLoops (loops : AgentLoops) (userId : Option String) : List String :=
  (loops.localAgentLoopsBySid.entries.filter
    (fun entry => !given userId || entry.2.userId = userId)).map Prod.fst

/-- Create a session and register it, over whatever is registered. -/
def AgentLoops.create (loops : AgentLoops) (sid : String) (userId : Option String) :
    AgentLoops × Session :=
  let session : Session := ⟨loops.created.length, sid, userId⟩
  ({ loops with
      localAgentLoopsBySid := loops.localAgentLoopsBySid.set sid session
      created := session :: loops.created }, session)

/-- How far the closing of a conversation is. -/
inductive Closing where
  /-- A task that has not begun. -/
  | starting (sid : String)
  | disconnecting (sid connectionId : String) (rest : List String)
  | closing (session : Session)
  | closed
  | failed
deriving DecidableEq

/-- Nothing is left to do. -/
def Closing.finished : Closing → Bool
  | .closed => true
  | .failed => true
  | _ => false

/-- Disconnect the remaining connections; without any, take the session and close it. -/
def AgentLoops.shut (loops : AgentLoops) (sid : String) : List String → AgentLoops × Closing
  | connectionId :: rest => (loops, .disconnecting sid connectionId rest)
  | [] =>
      match loops.localAgentLoopsBySid.get sid with
      | none => (loops, .closed)
      | some session =>
          ({ loops with
              localAgentLoopsBySid := loops.localAgentLoopsBySid.erase sid
              closing := session :: loops.closing }, .closing session)

/-- Close a conversation, whether it has a session or not. -/
def AgentLoops.closeSessionTask (loops : AgentLoops) (sid : String) : AgentLoops × Closing :=
  loops.shut sid
    ((loops.localConnectionIdToSessionId.entries.filter (fun entry => entry.2 = sid)).map Prod.fst)

def AgentLoops.closeSession (loops : AgentLoops) (sid : String) : AgentLoops × Closing :=
  match loops.localAgentLoopsBySid.get sid with
  | none => (loops, .closed)
  | some _ => loops.closeSessionTask sid

/-- Go on after the call that a closing waits for. -/
def AgentLoops.goOn (loops : AgentLoops) (raised : Bool) : Closing → AgentLoops × Closing
  | .starting sid => loops.closeSessionTask sid
  | .disconnecting sid connectionId rest =>
      if raised then (loops, .failed)
      else
        { loops with
            localConnectionIdToSessionId :=
              loops.localConnectionIdToSessionId.erase connectionId }.shut sid rest
  | .closing _ => (loops, if raised then .failed else .closed)
  | .closed => (loops, .closed)
  | .failed => (loops, .failed)

/-! ## Attachments -/

structure ServerConversation where
  id : Nat
  sid : String
  userId : Option String
  /-- The session whose event stream and runtime it uses. -/
  session : Option Session
deriving DecidableEq

inductive Note where
  | attached (conversation : ServerConversation)
  | detached (conversation : ServerConversation)
  | disconnected (conversation : ServerConversation)
deriving DecidableEq

/-- The tables of attachments, their lock, and what has happened, the latest first. -/
structure Attachments where
  activeConversations : OrderedDict String (ServerConversation × Nat)
  detachedConversations : OrderedDict String (ServerConversation × Int)
  locked : Bool
  constructed : Nat
  journal : List Note

/-- A conversation is attached and counted. -/
def Attachments.activate (attachments : Attachments) (sid : String)
    (conversation : ServerConversation) (count : Nat) : Attachments :=
  { attachments with
      activeConversations := attachments.activeConversations.set sid (conversation, count)
      journal := .attached conversation :: attachments.journal }

def Attachments.disconnect (attachments : Attachments) (conversation : ServerConversation) :
    Attachments :=
  { attachments with journal := .disconnected conversation :: attachments.journal }

def Attachments.lock (attachments : Attachments) : Attachments :=
  { attachments with locked := true }

def Attachments.unlock (attachments : Attachments) : Attachments :=
  { attachments with locked := false }

/-- Detach a conversation: the last detachment moves what was passed to the other table. -/
def Attachments.detach (attachments : Attachments) (conversation : ServerConversation)
    (now : Int) : Attachments :=
  let noted := { attachments with journal := .detached conversation :: attachments.journal }
  match attachments.activeConversations.get conversation.sid with
  | none => noted
  | some (active, count) =>
      if 1 < count then
        { noted with
            activeConversations :=
              attachments.activeConversations.set conversation.sid (active, count - 1) }
      else
        { noted with
            activeConversations := attachments.activeConversations.erase conversation.sid
            detachedConversations :=
              attachments.detachedConversations.set conversation.sid (conversation, now) }

/-! ## Coroutines -/

structure ConversationMetadata where
  conversationId : String
  lastUpdatedAt : Option Int

def lastUpdatedAtKey (conversation : ConversationMetadata) : Int := conversation.lastUpdatedAt.getD 0

structure Config where
  maxConcurrentConversations : Nat
  closeDelay : Int

structure Manager where
  loops : AgentLoops
  attachments : Attachments

inductive Request where
  | maybeStartAgentLoop (sid : String) (userId : Option String)
  | joinConversation (sid connectionId : String) (userId : Option String)
  | disconnectFromSession (connectionId : String)
  | closeSession (sid : String)
  | attachToConversation (sid : String) (userId : Option String)
  | detachFromConversation (conversation : ServerConversation)
  | cleanupStale

inductive Answer where
  | agentLoop (session : Session)
  | conversation (found : Option ServerConversation)
  | done
  | raised

/-- How far a coroutine is: the call that suspends it and what it keeps. -/
inductive Phase where
  | idle
  | entering (sid connectionId : String) (userId : Option String)
  /-- The store is asked for the running conversations. -/
  | listing (sid : String) (userId : Option String) (responseIds : List String)
  /-- The client of the oldest conversation is told. -/
  | notifying (sid : String) (userId : Option String) (oldest : String)
      (rest : List ConversationMetadata)
  | evicting (sid : String) (userId : Option String) (rest : List ConversationMetadata)
      (closing : Closing)
  | closing (closing : Closing)
  | finding (sid : String) (userId : Option String)
  /-- An attachment waits for the lock. -/
  | admitting (sid : String) (userId : Option String)
  /-- An attachment holds the lock. -/
  | connecting (conversation : ServerConversation)
  /-- A detachment waits for the lock. -/
  | releasing (conversation : ServerConversation)
  /-- The cleanup waits for the lock. -/
  | waking
  /-- The cleanup holds the lock. -/
  | sweeping (sid : String) (conversation : ServerConversation) (detachTime : Int)
      (rest : List (String × ServerConversation × Int))
  | closingAll (tasks : List Closing)
  | sleeping
  | answered (answer : Answer)

/-- What a step is given from outside. -/
structure Given where
  request : Option Request := none
  /-- The call that suspends the coroutine raises. -/
  raised : Bool := false
  /-- It raises that the runtime is unavailable. -/
  unavailable : Bool := false
  /-- The objects that the step constructs can be constructed. -/
  constructs : Bool := true
  sessionExists : Bool := true
  metadata : List ConversationMetadata := []
  /-- The task of the cleanup that goes on. -/
  task : Nat := 0
  timedOut : Bool := false
  shouldContinue : Bool := true
  now : Int := 0
  lastActiveTs : Nat → Int := fun _ => 0
  state : Nat → Option AgentState := fun _ => none

/-- The call that suspends the coroutine returns. -/
def Given.returned : Given := {}

/-- Where a step of a coroutine ends: at a call that suspends it, or at the creation of a
session. -/
inductive Turn where
  | suspended (phase : Phase)
  | creating (sid : String) (userId : Option String)

/-- Close the oldest conversations while there are too many, and then create a session. -/
def evict (config : Config) (sid : String) (userId : Option String)
    (conversations : List ConversationMetadata) : Turn :=
  if config.maxConcurrentConversations ≤ conversations.length then
    match conversations.getLast? with
    | some oldest =>
        .suspended (.notifying sid userId oldest.conversationId conversations.dropLast)
    | none => .suspended (.answered .raised)
  else .creating sid userId

/-- Go on with the remaining conversations once one is closed. -/
def evicted (config : Config) (sid : String) (userId : Option String)
    (rest : List ConversationMetadata) : Closing → Turn
  | .closed => evict config sid userId rest
  | .failed => .suspended (.answered .raised)
  | closing => .suspended (.evicting sid userId rest closing)

/-- Start an agent loop where none is registered. -/
def maybeStartAgentLoop (config : Config) (loops : AgentLoops) (sid : String)
    (userId : Option String) : Turn :=
  match loops.localAgentLoopsBySid.get sid with
  | some session => .suspended (.answered (.agentLoop session))
  | none =>
      if config.maxConcurrentConversations ≤ (loops.getRunningAgentLoops userId).length then
        .suspended (.listing sid userId (loops.getRunningAgentLoops userId))
      else .creating sid userId

/-- The conversations by their last update, the latest first. -/
def latestFirst (conversations : List ConversationMetadata) : List ConversationMetadata :=
  conversations.insertionSort (fun first second => lastUpdatedAtKey second ≤ lastUpdatedAtKey first)

/-- A closing on its own ends with an answer. -/
def closed : Closing → Phase
  | .closed => .answered .done
  | .failed => .answered .raised
  | closing => .closing closing

/-- Attach under the lock: a conversation in use, one that was let go, or a new one that has
to connect first. -/
def Manager.attach (manager : Manager) (sid : String) (userId : Option String)
    (constructs : Bool) : Attachments × Phase :=
  let attachments := manager.attachments
  match attachments.activeConversations.get sid with
  | some (conversation, count) =>
      (attachments.activate sid conversation (count + 1),
        .answered (.conversation (some conversation)))
  | none =>
      match attachments.detachedConversations.get sid with
      | some (conversation, _) =>
          ({ attachments with
              detachedConversations := attachments.detachedConversations.erase sid }.activate sid
              conversation 1,
            .answered (.conversation (some conversation)))
      | none =>
          if constructs then
            ({ attachments with constructed := attachments.constructed + 1 }.lock,
              .connecting ⟨attachments.constructed, sid, userId,
                manager.loops.localAgentLoopsBySid.get sid⟩)
          else (attachments, .answered .raised)

/-- A new conversation has tried to connect. -/
def Attachments.connected (attachments : Attachments) (conversation : ServerConversation)
    (given : Given) : Attachments × Phase :=
  if given.unavailable then
    ((attachments.disconnect conversation).unlock,
      .answered (if given.raised then .raised else .conversation none))
  else if given.raised then (attachments.unlock, .answered .raised)
  else
    ((attachments.activate conversation.sid conversation 1).unlock,
      .answered (.conversation (some conversation)))

/-- The conversations that the cleanup closes: idle for longer than the delay, in a state
that allows it, and without a connection. -/
def AgentLoops.sidToClose (loops : AgentLoops) (config : Config) (given : Given) : List String :=
  let runningLoops := loops.localAgentLoopsBySid.entries.insertionSort
    (fun first second => given.lastActiveTs first.2.id ≤ given.lastActiveTs second.2.id)
  let stale := runningLoops.filter (fun entry =>
    given.lastActiveTs entry.2.id < given.now - config.closeDelay ∧
      given.state entry.2.id ≠ some .running ∧ given.state entry.2.id ≠ none)
  (stale.map Prod.fst).filter (fun sid => sid ∉ loops.localConnectionIdToSessionId.values)

/-- The cleanup has let go of the lock. -/
def AgentLoops.prune (loops : AgentLoops) (config : Config) (given : Given) : Phase :=
  if config.closeDelay = 0 then .answered .done
  else if (loops.sidToClose config given).isEmpty then .sleeping
  else .closingAll ((loops.sidToClose config given).map .starting)

/-- Disconnect the remaining conversations that were let go; without any, release the lock. -/
def Manager.sweep (manager : Manager) (config : Config) (given : Given) :
    List (String × ServerConversation × Int) → Manager × Phase
  | (sid, conversation, detachTime) :: rest =>
      (manager, .sweeping sid conversation detachTime rest)
  | [] =>
      ({ manager with attachments := manager.attachments.unlock },
        manager.loops.prune config given)

/-- A conversation that was let go is disconnected and dropped. -/
def Manager.swept (manager : Manager) (config : Config) (given : Given) (sid : String)
    (conversation : ServerConversation) (rest : List (String × ServerConversation × Int)) :
    Manager × Phase :=
  let disconnected := manager.attachments.disconnect conversation
  if given.raised then ({ manager with attachments := disconnected.unlock }, .sleeping)
  else
    { manager with attachments :=
        { disconnected with
            detachedConversations := disconnected.detachedConversations.erase sid } }.sweep
      config given rest

/-- One task of the cleanup goes on, or the time of all has run out. -/
def AgentLoops.closeAll (loops : AgentLoops) (given : Given) (tasks : List Closing) :
    AgentLoops × Phase :=
  if given.timedOut then (loops, .sleeping)
  else
    match tasks[given.task]? with
    | none => (loops, .closingAll tasks)
    | some task =>
        let next := loops.goOn given.raised task
        let tasks := tasks.set given.task next.2
        (next.1, if tasks.all Closing.finished then .sleeping else .closingAll tasks)

def Manager.begin (manager : Manager) (config : Config) : Request → Manager × Turn
  | .maybeStartAgentLoop sid userId => (manager, maybeStartAgentLoop config manager.loops sid userId)
  | .joinConversation sid connectionId userId =>
      (manager, .suspended (.entering sid connectionId userId))
  | .disconnectFromSession connectionId =>
      ({ manager with loops :=
          { manager.loops with
              localConnectionIdToSessionId :=
                manager.loops.localConnectionIdToSessionId.erase connectionId } },
        .suspended (.answered .done))
  | .closeSession sid =>
      ({ manager with loops := (manager.loops.closeSession sid).1 },
        .suspended (closed (manager.loops.closeSession sid).2))
  | .attachToConversation sid userId => (manager, .suspended (.finding sid userId))
  | .detachFromConversation conversation => (manager, .suspended (.releasing conversation))
  | .cleanupStale => (manager, .suspended .waking)

/-- Run a coroutine up to the next call that suspends it, or to the creation of a session. -/
def Manager.resume (manager : Manager) (config : Config) (given : Given) : Phase → Manager × Turn
  | .idle =>
      match given.request with
      | none => (manager, .suspended .idle)
      | some request => manager.begin config request
  | .entering sid connectionId userId =>
      if given.raised then (manager, .suspended (.answered .raised))
      else
        ({ manager with loops :=
            { manager.loops with
                localConnectionIdToSessionId :=
                  manager.loops.localConnectionIdToSessionId.set connectionId sid } },
          maybeStartAgentLoop config manager.loops sid userId)
  | .listing sid userId _ =>
      if given.raised then (manager, .suspended (.answered .raised))
      else (manager, evict config sid userId (latestFirst given.metadata))
  | .notifying sid userId oldest rest =>
      if given.raised then (manager, .suspended (.answered .raised))
      else
        ({ manager with loops := (manager.loops.closeSession oldest).1 },
          evicted config sid userId rest (manager.loops.closeSession oldest).2)
  | .evicting sid userId rest closing =>
      ({ manager with loops := (manager.loops.goOn given.raised closing).1 },
        evicted config sid userId rest (manager.loops.goOn given.raised closing).2)
  | .closing closing =>
      ({ manager with loops := (manager.loops.goOn given.raised closing).1 },
        .suspended (closed (manager.loops.goOn given.raised closing).2))
  | .finding sid userId =>
      if given.raised then (manager, .suspended (.answered .raised))
      else if given.sessionExists then (manager, .suspended (.admitting sid userId))
      else (manager, .suspended (.answered (.conversation none)))
  | .admitting sid userId =>
      if manager.attachments.locked then (manager, .suspended (.admitting sid userId))
      else
        ({ manager with attachments := (manager.attach sid userId given.constructs).1 },
          .suspended (manager.attach sid userId given.constructs).2)
  | .connecting conversation =>
      ({ manager with attachments := (manager.attachments.connected conversation given).1 },
        .suspended (manager.attachments.connected conversation given).2)
  | .releasing conversation =>
      if manager.attachments.locked then (manager, .suspended (.releasing conversation))
      else
        ({ manager with attachments := manager.attachments.detach conversation given.now },
          .suspended (.answered .done))
  | .waking =>
      if manager.attachments.locked then (manager, .suspended .waking)
      else
        let swept := { manager with attachments := manager.attachments.lock }.sweep config given
          manager.attachments.detachedConversations.entries
        (swept.1, .suspended swept.2)
  | .sweeping sid conversation _ rest =>
      ((manager.swept config given sid conversation rest).1,
        .suspended (manager.swept config given sid conversation rest).2)
  | .closingAll tasks =>
      ({ manager with loops := (manager.loops.closeAll given tasks).1 },
        .suspended (manager.loops.closeAll given tasks).2)
  | .sleeping =>
      (manager, .suspended (if given.shouldContinue then .waking else .answered .done))
  | .answered answer => (manager, .suspended (.answered answer))

/-- Create a session where a step has come to that. -/
def Manager.settle (manager : Manager) (constructs : Bool) : Turn → Manager × Phase
  | .suspended phase => (manager, phase)
  | .creating sid userId =>
      if constructs then
        ({ manager with loops := (manager.loops.create sid userId).1 },
          .answered (.agentLoop (manager.loops.create sid userId).2))
      else (manager, .answered .raised)

variable {ρ : Type}

/-- One step of a coroutine. -/
def move (config : Config) (_name : ρ) (manager : Manager) (phase : Phase) (given : Given) :
    Manager × Phase :=
  (manager.resume config given phase).1.settle given.constructs
    (manager.resume config given phase).2

/-- A manager without sessions and attachments. -/
def Manager.new : Manager where
  loops := ⟨.empty, .empty, [], []⟩
  attachments := ⟨.empty, .empty, false, 0, []⟩

/-- Nothing has been asked. -/
def initial : World Manager ρ Phase := ⟨.new, fun _ => .idle⟩

abbrev step [DecidableEq ρ] (config : Config) :
    World Manager ρ Phase → ρ × Given → World Manager ρ Phase :=
  advance (move config)

/-! ## Sessions that are registered -/

/-- Every session that was created and is not being closed is the one registered under its
conversation. -/
def AgentLoops.Registered (loops : AgentLoops) : Prop :=
  ∀ session ∈ loops.created, session ∉ loops.closing →
    loops.localAgentLoopsBySid.get session.sid = some session

/-- No conversation has two sessions that are not being closed. -/
def AgentLoops.SingleLoop (loops : AgentLoops) : Prop :=
  ∀ first ∈ loops.created, ∀ second ∈ loops.created, first ∉ loops.closing →
    second ∉ loops.closing → first.sid = second.sid → first = second

variable (manager : Manager) (config : Config) (loops : AgentLoops)

/-- Registered sessions leave no room for a second one. -/
theorem registered_single (registered : loops.Registered) : loops.SingleLoop := by
  intro first firstCreated second secondCreated firstOpen secondOpen same
  have found := registered first firstCreated firstOpen
  rw [same, registered second secondCreated secondOpen] at found
  exact (Option.some.inj found).symm

/-- What is registered was created, is not being closed, and stands under its own
conversation; sessions are numbered as they are created. -/
structure AgentLoops.Kept (loops : AgentLoops) : Prop where
  created : ∀ sid session, loops.localAgentLoopsBySid.get sid = some session →
    session.sid = sid ∧ session ∈ loops.created ∧ session ∉ loops.closing
  numbered : ∀ session ∈ loops.created, session.id < loops.created.length
  closing : ∀ session ∈ loops.closing, session ∈ loops.created

/-- The session that would be created next is not yet known. -/
theorem kept_fresh (kept : loops.Kept) (sid : String) (userId : Option String) :
    (loops.create sid userId).2 ∉ loops.created := by
  intro created
  have below := kept.numbered _ created
  simp [AgentLoops.create] at below

/-- A step of a closing keeps both. -/
structure AgentLoops.Preserves (before after : AgentLoops) : Prop where
  kept : before.Kept → after.Kept
  registered : before.Registered → after.Registered

theorem preserves_refl : loops.Preserves loops := ⟨id, id⟩

/-- Connections are of no concern. -/
theorem preserves_connections (connections : OrderedDict String String) :
    loops.Preserves { loops with localConnectionIdToSessionId := connections } :=
  ⟨fun kept => ⟨kept.created, kept.numbered, kept.closing⟩, id⟩

theorem preserves_trans {first second third : AgentLoops} (left : first.Preserves second)
    (right : second.Preserves third) : first.Preserves third :=
  ⟨fun kept => right.kept (left.kept kept),
    fun registered => right.registered (left.registered registered)⟩

variable (given : Given) (sid : String)

/-- A session is being closed once it is no longer registered. -/
theorem shut_preserves (connectionIds : List String) :
    loops.Preserves (loops.shut sid connectionIds).1 := by
  cases connectionIds with
  | cons connectionId rest => exact preserves_refl _
  | nil =>
    unfold AgentLoops.shut
    cases found : loops.localAgentLoopsBySid.get sid with
    | none => exact preserves_refl _
    | some session =>
      constructor
      · intro kept
        obtain ⟨own, sessionCreated, sessionOpen⟩ := kept.created sid session found
        constructor
        · intro other known registered
          rw [get_erase] at registered
          split at registered
          · cases registered
          rename_i different
          obtain ⟨otherOwn, otherCreated, otherOpen⟩ := kept.created other known registered
          refine ⟨otherOwn, otherCreated, ?_⟩
          rw [List.mem_cons, not_or]
          exact ⟨fun same => different (by rw [← otherOwn, same, own]), otherOpen⟩
        · exact kept.numbered
        · intro known closing
          rcases closing with _ | ⟨_, closing⟩
          · exact sessionCreated
          · exact kept.closing known closing
      · intro registered known knownCreated knownOpen
        rw [List.mem_cons, not_or] at knownOpen
        have before := registered known knownCreated knownOpen.2
        rw [get_erase, if_neg]
        · exact before
        · intro same
          rw [same, found] at before
          exact knownOpen.1 (Option.some.inj before).symm

theorem close_session_preserves : loops.Preserves (loops.closeSession sid).1 := by
  unfold AgentLoops.closeSession
  split
  · exact preserves_refl _
  · exact shut_preserves ..

theorem go_on_preserves (raised : Bool) (closing : Closing) :
    loops.Preserves (loops.goOn raised closing).1 := by
  cases closing with
  | starting sid => exact shut_preserves ..
  | disconnecting sid connectionId rest =>
    simp only [AgentLoops.goOn]
    split
    · exact preserves_refl _
    · exact preserves_trans (preserves_connections ..) (shut_preserves ..)
  | closing session => exact preserves_refl _
  | closed => exact preserves_refl _
  | failed => exact preserves_refl _

theorem close_all_preserves (tasks : List Closing) :
    loops.Preserves (loops.closeAll given tasks).1 := by
  unfold AgentLoops.closeAll
  split
  · exact preserves_refl _
  · split
    · exact preserves_refl _
    · exact go_on_preserves ..

@[simp] theorem sweep_loops (items : List (String × ServerConversation × Int)) :
    (manager.sweep config given items).1.loops = manager.loops := by
  cases items <;> rfl

@[simp] theorem swept_loops (conversation : ServerConversation)
    (rest : List (String × ServerConversation × Int)) :
    (manager.swept config given sid conversation rest).1.loops = manager.loops := by
  unfold Manager.swept
  split
  · rfl
  · rw [sweep_loops]

theorem begin_preserves (request : Request) :
    manager.loops.Preserves (manager.begin config request).1.loops := by
  cases request with
  | disconnectFromSession connectionId => exact preserves_connections ..
  | closeSession sid => exact close_session_preserves ..
  | _ => exact preserves_refl ..

/-- Up to the creation of a session, a step only closes. -/
theorem resume_preserves (phase : Phase) :
    manager.loops.Preserves (manager.resume config given phase).1.loops := by
  have same := preserves_refl manager.loops
  cases phase with
  | idle =>
    simp only [Manager.resume]
    split
    · exact same
    · exact begin_preserves ..
  | entering sid connectionId userId =>
    simp only [Manager.resume]
    split
    · exact same
    · exact preserves_connections ..
  | notifying sid userId oldest rest =>
    simp only [Manager.resume]
    split
    · exact same
    · exact close_session_preserves ..
  | evicting sid userId rest closing => exact go_on_preserves ..
  | closing closing => exact go_on_preserves ..
  | closingAll tasks => exact close_all_preserves ..
  | listing sid userId responseIds =>
    simp only [Manager.resume]
    split <;> exact same
  | finding sid userId =>
    simp only [Manager.resume]
    split
    · exact same
    · split <;> exact same
  | admitting sid userId =>
    simp only [Manager.resume]
    split <;> exact same
  | connecting conversation => exact same
  | releasing conversation =>
    simp only [Manager.resume]
    split <;> exact same
  | waking =>
    simp only [Manager.resume]
    split
    · exact same
    · rw [sweep_loops]
      exact same
  | sweeping sid conversation detachTime rest =>
    simp only [Manager.resume]
    rw [swept_loops]
    exact same
  | sleeping => exact same
  | answered answer => exact same

theorem create_kept (userId : Option String) (kept : loops.Kept) :
    (loops.create sid userId).1.Kept := by
  have fresh := kept_fresh loops kept sid userId
  constructor
  · intro other session registered
    simp only [AgentLoops.create, get_set] at registered
    split at registered
    · rename_i same
      cases registered
      exact ⟨same.symm, .head _, fun closing => fresh (kept.closing _ closing)⟩
    · obtain ⟨own, created, notClosing⟩ := kept.created other session registered
      exact ⟨own, .tail _ created, notClosing⟩
  · intro session created
    simp only [AgentLoops.create, List.mem_cons, List.length_cons] at created ⊢
    rcases created with rfl | created
    · exact Nat.lt_succ_self _
    · exact Nat.lt_succ_of_lt (kept.numbered session created)
  · intro session closing
    exact .tail _ (kept.closing session closing)

/-- Where no session is lost yet, a creation loses none exactly where none is registered. -/
theorem create_registered_iff (userId : Option String) (kept : loops.Kept)
    (registered : loops.Registered) :
    (loops.create sid userId).1.Registered ↔ loops.localAgentLoopsBySid.get sid = none := by
  have fresh := kept_fresh loops kept sid userId
  constructor
  · intro after
    cases found : loops.localAgentLoopsBySid.get sid with
    | none => rfl
    | some session =>
      obtain ⟨own, created, notClosing⟩ := kept.created sid session found
      have still := after session (.tail _ created) notClosing
      simp only [AgentLoops.create, get_set, own, if_true, Option.some.injEq] at still
      exact absurd created (still ▸ fresh)
  · intro absent session created notClosing
    simp only [AgentLoops.create, get_set]
    rcases created with _ | ⟨_, created⟩
    · exact if_pos rfl
    have before := registered session created notClosing
    rw [if_neg]
    · exact before
    · intro same
      rw [same, absent] at before
      cases before

/-- A session is created only where none is registered under its conversation. -/
def CreatesUnregistered (config : Config) (_name : ρ) (manager : Manager) (phase : Phase)
    (given : Given) : Prop :=
  match (manager.resume config given phase).2 with
  | .suspended _ => True
  | .creating sid _ => given.constructs = true →
      (manager.resume config given phase).1.loops.localAgentLoopsBySid.get sid = none

instance (config : Config) (name : ρ) (manager : Manager) (phase : Phase) (given : Given) :
    Decidable (CreatesUnregistered config name manager phase given) := by
  unfold CreatesUnregistered
  split <;> infer_instance

theorem move_kept (name : ρ) (manager : Manager) (phase : Phase) (given : Given)
    (kept : manager.loops.Kept) : (move config name manager phase given).1.loops.Kept := by
  have resumed := (resume_preserves manager config given phase).kept kept
  unfold move
  cases (manager.resume config given phase).2 with
  | suspended next => exact resumed
  | creating sid userId =>
    simp only [Manager.settle]
    split
    · exact create_kept _ sid _ resumed
    · exact resumed

/-- A step loses no session exactly where it creates none over another. -/
theorem move_registered_iff (name : ρ) {manager : Manager} (phase : Phase) (given : Given)
    (kept : manager.loops.Kept) (registered : manager.loops.Registered) :
    (move config name manager phase given).1.loops.Registered ↔
      CreatesUnregistered config name manager phase given := by
  have resumed := resume_preserves manager config given phase
  unfold move CreatesUnregistered
  cases (manager.resume config given phase).2 with
  | suspended next => exact iff_of_true (resumed.registered registered) trivial
  | creating sid userId =>
    simp only [Manager.settle]
    split
    · rename_i constructs
      have exactly := create_registered_iff _ sid userId (resumed.kept kept)
        (resumed.registered registered)
      exact ⟨fun after _ => exactly.mp after, fun absent => exactly.mpr (absent constructs)⟩
    · rename_i fails
      exact iff_of_true (resumed.registered registered) (fun constructs => absurd constructs fails)

theorem new_kept : Manager.new.loops.Kept where
  created := by
    intro sid session found
    cases found
  numbered := nofun
  closing := nofun

variable [DecidableEq ρ]

/-- No session is lost in a run exactly where each creation of the run finds none. -/
theorem registered_exact (config : Config) (labels : List (ρ × Given)) :
    (∀ world, Reached (step config) initial labels world → world.shared.loops.Registered) ↔
      Along (step config) (Assuming (CreatesUnregistered config)) initial labels := by
  have keptStep : ∀ (world : World Manager ρ Phase) label, world.shared.loops.Kept →
      (step config world label).shared.loops.Kept :=
    fun world label kept => move_kept config label.1 _ _ label.2 kept
  have kept : ∀ world, Reached (step config) initial labels world → world.shared.loops.Kept :=
    invariant_along (step config) (fun _ _ => True) (fun world => world.shared.loops.Kept)
      (fun world label holds _ => keptStep world label holds) initial labels
      new_kept
      (along_of_forall _ (fun _ _ => trivial) _ _)
  have exactly := invariant_exact (step config) (Assuming (CreatesUnregistered config))
    (fun world : World Manager ρ Phase => world.shared.loops.Kept ∧ world.shared.loops.Registered)
    (fun world label holds =>
      ⟨fun unregistered => ⟨keptStep world label holds.1,
          (move_registered_iff config label.1 _ label.2 holds.1 holds.2).mpr unregistered⟩,
        fun after => (move_registered_iff config label.1 _ label.2 holds.1 holds.2).mp after.2⟩)
    initial labels ⟨new_kept, nofun⟩
  rw [← exactly]
  exact ⟨fun registered world reached => ⟨kept world reached, registered world reached⟩,
    fun both world reached => (both world reached).2⟩

end ForgePilot.StandaloneManager
