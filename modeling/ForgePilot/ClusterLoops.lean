import ForgePilot.StandaloneManager

/-!
# Agent loops of a cluster

Several nodes run agent loops. A key in a shared store says that a conversation has one: a
start sets it where it is not set, and a node that closes its loop deletes it. Every node
keeps a table of its own loops, and refreshes their keys in one pipeline that it builds
from the table beforehand.

Each command of the store and each awaited call is one step of a process on some node.
Connections are left out: the calls that disconnect them are steps that change nothing here.
What is published is kept for good, and may be delivered to any node at any time; the
restarts that a closing session asks for are requests of their own.

Beside the state it is noted which sessions are started and not yet closed, and for which
conversations a process has the key without a loop: between setting the key and registering
a session, and between taking a session from the table and deleting the key.
-/

namespace ForgePilot.ClusterLoops

open Runs Processes
open StandaloneManager (ConversationMetadata latestFirst given)

/-! ## Keys, sessions and messages -/

/-- The key of a conversation: its user and its id. -/
abbrev Key := Option String × String

structure Session (ν : Type) where
  id : Nat
  node : ν
  sid : String
  userId : Option String
deriving DecidableEq

def Session.key {ν : Type} (session : Session ν) : Key := (session.userId, session.sid)

inductive Message where
  | closeSession (sid : String)
  | sessionClosing (sid : String) (userId : Option String)
deriving DecidableEq

/-- The keys that are set, the table of each node, and what was published. -/
structure Cluster (ν ρ : Type) where
  keys : List Key
  localAgentLoopsBySid : ν → OrderedDict String (Session ν)
  published : List Message
  created : Nat
  /-- The sessions that were started and are not closed yet. -/
  live : List (Session ν)
  /-- The process that has the key of a conversation without a loop. -/
  holder : String → Option ρ

structure Config where
  maxConcurrentConversations : Nat

/-- How far the closing of a conversation on a node is. -/
inductive Closing (ν : Type) where
  | disconnecting (sid : String)
  /-- The session was taken from the table; its key is about to be deleted. -/
  | deleting (session : Session ν)
  | announcing (session : Session ν)
  | closing (session : Session ν)
  | closed
  | failed

/-- How far a start is that has set the key. -/
inductive Stage (ν : Type) where
  | counting
  | listing
  | notifying (oldest : String) (rest : List ConversationMetadata)
  | publishing (oldest : String) (rest : List ConversationMetadata)
  | evicting (rest : List ConversationMetadata) (closing : Closing ν)

inductive Request (ν : Type) where
  | maybeStartAgentLoop (node : ν) (sid : String) (userId : Option String)
  | closeSession (node : ν) (sid : String)
  | closeSessionLocally (node : ν) (sid : String)
  | updateStateInRedis (node : ν)
  | deliver (node : ν) (message : Message)

inductive Answer where
  | started
  | done
  | raised

/-- How far a process is. -/
inductive Phase (ν : Type) where
  | idle
  /-- The key is about to be set. -/
  | setting (node : ν) (sid : String) (userId : Option String)
  | starting (node : ν) (sid : String) (userId : Option String) (stage : Stage ν)
  /-- The key is about to be read. -/
  | reading (sid : String) (userId : Option String)
  | publishing (node : ν) (sid : String)
  | closing (node : ν) (closing : Closing ν)
  | scanning (node : ν)
  /-- The pipeline is about to be executed. -/
  | executing (pipeline : List Key)
  | answered (answer : Answer)

/-- What a step is given from outside. -/
structure Given (ν : Type) where
  request : Option (Request ν) := none
  /-- The call that the process waits for raises. -/
  raised : Bool := false
  /-- A connection of the conversation is still to be disconnected. -/
  connected : Bool := false
  /-- The scan of the keys has more to come. -/
  scanning : Bool := false
  /-- The session can be constructed. -/
  constructs : Bool := true
  /-- The conversations of the user whose keys were found. -/
  running : List String := []
  metadata : List ConversationMetadata := []

/-- Where a step ends: at a call that the process waits for, or at the creation of a session. -/
inductive Turn (ν : Type) where
  | waiting (phase : Phase ν)
  | creating (node : ν) (sid : String) (userId : Option String)

variable {ν ρ : Type} [DecidableEq ν]

/-! ## Closing -/

/-- Take the session of a conversation from the table of a node; its key is then held. -/
def Cluster.take (cluster : Cluster ν ρ) (name : ρ) (node : ν) (sid : String) :
    Cluster ν ρ × Closing ν :=
  match (cluster.localAgentLoopsBySid node).get sid with
  | none => (cluster, .closed)
  | some session =>
      ({ cluster with
          localAgentLoopsBySid := Function.update cluster.localAgentLoopsBySid node
            ((cluster.localAgentLoopsBySid node).erase sid)
          holder := Function.update cluster.holder sid (some name) }, .deleting session)

/-- Disconnect what is connected, and then take the session. -/
def Cluster.closeSessionLocally (cluster : Cluster ν ρ) (name : ρ) (node : ν) (sid : String)
    (connected : Bool) : Cluster ν ρ × Closing ν :=
  if connected then (cluster, .disconnecting sid) else cluster.take name node sid

/-- Nobody has the key of a conversation without a loop. -/
def Cluster.release (cluster : Cluster ν ρ) (sid : String) : Cluster ν ρ :=
  { cluster with holder := Function.update cluster.holder sid none }

def Cluster.deleteKey (cluster : Cluster ν ρ) (session : Session ν) : Cluster ν ρ :=
  { cluster.release session.sid with
      keys := cluster.keys.filter (fun key => key ≠ session.key) }

def Cluster.finish (cluster : Cluster ν ρ) (session : Session ν) : Cluster ν ρ :=
  { cluster with live := cluster.live.filter (fun other => other ≠ session) }

def Cluster.publish (cluster : Cluster ν ρ) (message : Message) : Cluster ν ρ :=
  { cluster with published := message :: cluster.published }

/-- Go on with a closing; that its announcement raises is caught. -/
def Cluster.goOn (cluster : Cluster ν ρ) (name : ρ) (node : ν) (given : Given ν) :
    Closing ν → Cluster ν ρ × Closing ν
  | .disconnecting sid =>
      if given.raised then (cluster, .failed)
      else cluster.closeSessionLocally name node sid given.connected
  | .deleting session =>
      if given.raised then (cluster.release session.sid, .failed)
      else (cluster.deleteKey session, .announcing session)
  | .announcing session =>
      (if given.raised then cluster
        else cluster.publish (.sessionClosing session.sid session.userId), .closing session)
  | .closing session =>
      if given.raised then (cluster, .failed) else (cluster.finish session, .closed)
  | .closed => (cluster, .closed)
  | .failed => (cluster, .failed)

/-- A closing on its own ends with an answer. -/
def closed (node : ν) : Closing ν → Phase ν
  | .closed => .answered .done
  | .failed => .answered .raised
  | closing => .closing node closing

/-! ## Starting -/

/-- Close the oldest conversations while there are too many, and then create a session. The
limit is one more than that of a single server. -/
def evict (config : Config) (node : ν) (sid : String) (userId : Option String)
    (conversations : List ConversationMetadata) : Turn ν :=
  if config.maxConcurrentConversations + 1 ≤ conversations.length then
    match conversations.getLast? with
    | some oldest =>
        .waiting (.starting node sid userId
          (.notifying oldest.conversationId conversations.dropLast))
    | none => .waiting (.answered .raised)
  else .creating node sid userId

/-- Go on with the remaining conversations once one is closed. -/
def evicted (config : Config) (node : ν) (sid : String) (userId : Option String)
    (rest : List ConversationMetadata) : Closing ν → Turn ν
  | .closed => evict config node sid userId rest
  | .failed => .waiting (.answered .raised)
  | closing => .waiting (.starting node sid userId (.evicting rest closing))

/-- The conversations of a user on a node and those whose keys were found. -/
def Cluster.runningAgentLoops (cluster : Cluster ν ρ) (node : ν) (userId : Option String)
    (remote : List String) : List String :=
  (((cluster.localAgentLoopsBySid node).entries.filter
    (fun entry => !given userId || entry.2.userId = userId)).map Prod.fst ++ remote).dedup

/-- A start that has set the key fails: the key stays. -/
def Cluster.startFails (cluster : Cluster ν ρ) (sid : String) : Cluster ν ρ × Turn ν :=
  (cluster.release sid, .waiting (.answered .raised))

/-- Go on with a start that has set the key. -/
def Cluster.start (cluster : Cluster ν ρ) (config : Config) (name : ρ) (node : ν) (sid : String)
    (userId : Option String) (given : Given ν) : Stage ν → Cluster ν ρ × Turn ν
  | .counting =>
      if given.raised then cluster.startFails sid
      else if config.maxConcurrentConversations + 1 ≤
          (cluster.runningAgentLoops node userId given.running).length then
        (cluster, .waiting (.starting node sid userId .listing))
      else (cluster, .creating node sid userId)
  | .listing =>
      if given.raised then cluster.startFails sid
      else (cluster, evict config node sid userId (latestFirst given.metadata))
  | .notifying oldest rest =>
      if given.raised then cluster.startFails sid
      else (cluster, .waiting (.starting node sid userId (.publishing oldest rest)))
  | .publishing oldest rest =>
      if given.raised then cluster.startFails sid
      else
        let next := (cluster.publish (.closeSession oldest)).closeSessionLocally name node oldest
          given.connected
        (next.1, evicted config node sid userId rest next.2)
  | .evicting rest closing =>
      let next := cluster.goOn name node given closing
      match next.2 with
      | .failed => next.1.startFails sid
      | _ => (next.1, evicted config node sid userId rest next.2)

/-- Create a session, register it on its node, and let go of the key. -/
def Cluster.register (cluster : Cluster ν ρ) (node : ν) (sid : String) (userId : Option String) :
    Cluster ν ρ :=
  let session : Session ν := ⟨cluster.created, node, sid, userId⟩
  { cluster.release sid with
      localAgentLoopsBySid := Function.update cluster.localAgentLoopsBySid node
        ((cluster.localAgentLoopsBySid node).set sid session)
      created := cluster.created + 1
      live := session :: cluster.live }

/-! ## Steps -/

/-- Set a key where it is not set. -/
def Cluster.setKey (cluster : Cluster ν ρ) (name : ρ) (key : Key) : Cluster ν ρ :=
  { cluster with
      keys := key :: cluster.keys
      holder := Function.update cluster.holder key.2 (some name) }

/-- The keys of the sessions of a node that have an id. -/
def Cluster.pipeline (cluster : Cluster ν ρ) (node : ν) : List Key :=
  ((cluster.localAgentLoopsBySid node).entries.filter (fun entry => entry.1 ≠ "")).map
    (fun entry => (entry.2.userId, entry.1))

/-- Set all keys of a pipeline. -/
def Cluster.execute (cluster : Cluster ν ρ) (pipeline : List Key) : Cluster ν ρ :=
  { cluster with keys := pipeline.foldl (fun keys key => keys.insert key) cluster.keys }

def Cluster.begin (cluster : Cluster ν ρ) (name : ρ) (given : Given ν) :
    Request ν → Cluster ν ρ × Turn ν
  | .maybeStartAgentLoop node sid userId => (cluster, .waiting (.setting node sid userId))
  | .closeSession node sid => (cluster, .waiting (.publishing node sid))
  | .closeSessionLocally node sid =>
      let next := cluster.closeSessionLocally name node sid given.connected
      (next.1, .waiting (closed node next.2))
  | .updateStateInRedis node => (cluster, .waiting (.scanning node))
  | .deliver node message =>
      match message with
      | .closeSession sid =>
          if message ∈ cluster.published ∧
              ((cluster.localAgentLoopsBySid node).get sid).isSome then
            let next := cluster.closeSessionLocally name node sid given.connected
            (next.1, .waiting (closed node next.2))
          else (cluster, .waiting (.answered .done))
      | .sessionClosing _ _ => (cluster, .waiting (.answered .done))

/-- Run a process up to the next call that it waits for, or to the creation of a session. -/
def Cluster.resume (cluster : Cluster ν ρ) (config : Config) (name : ρ) (given : Given ν) :
    Phase ν → Cluster ν ρ × Turn ν
  | .idle =>
      match given.request with
      | none => (cluster, .waiting .idle)
      | some request => cluster.begin name given request
  | .setting node sid userId =>
      if given.raised then (cluster, .waiting (.answered .raised))
      else if (userId, sid) ∈ cluster.keys then
        if ((cluster.localAgentLoopsBySid node).get sid).isSome then
          (cluster, .waiting (.answered .started))
        else (cluster, .waiting (.reading sid userId))
      else (cluster.setKey name (userId, sid), .waiting (.starting node sid userId .counting))
  | .starting node sid userId stage => cluster.start config name node sid userId given stage
  | .reading sid userId =>
      if given.raised then (cluster, .waiting (.answered .raised))
      else if (userId, sid) ∈ cluster.keys then (cluster, .waiting (.answered .started))
      else (cluster, .waiting (.answered .raised))
  | .publishing node sid =>
      if given.raised then (cluster, .waiting (.answered .raised))
      else
        let next := (cluster.publish (.closeSession sid)).closeSessionLocally name node sid
          given.connected
        (next.1, .waiting (closed node next.2))
  | .closing node closing =>
      let next := cluster.goOn name node given closing
      (next.1, .waiting (closed node next.2))
  | .scanning node =>
      if given.raised then (cluster, .waiting (.answered .raised))
      else if given.scanning then (cluster, .waiting (.scanning node))
      else (cluster, .waiting (.executing (cluster.pipeline node)))
  | .executing pipeline =>
      if given.raised then (cluster, .waiting (.answered .raised))
      else (cluster.execute pipeline, .waiting (.answered .done))
  | .answered answer => (cluster, .waiting (.answered answer))

/-- Create a session where a step has come to that. -/
def Cluster.settle (cluster : Cluster ν ρ) (constructs : Bool) :
    Turn ν → Cluster ν ρ × Phase ν
  | .waiting phase => (cluster, phase)
  | .creating node sid userId =>
      if constructs then (cluster.register node sid userId, .answered .started)
      else (cluster.release sid, .answered .raised)

/-- One step of a process. -/
def move (config : Config) (name : ρ) (cluster : Cluster ν ρ) (phase : Phase ν) (given : Given ν) :
    Cluster ν ρ × Phase ν :=
  (cluster.resume config name given phase).1.settle given.constructs
    (cluster.resume config name given phase).2

/-- A cluster without sessions. -/
def initial : World (Cluster ν ρ) ρ (Phase ν) where
  shared := ⟨[], fun _ => .empty, [], 0, [], fun _ => none⟩
  phases := fun _ => .idle

abbrev step [DecidableEq ρ] (config : Config) :
    World (Cluster ν ρ) ρ (Phase ν) → ρ × Given ν → World (Cluster ν ρ) ρ (Phase ν) :=
  advance (move config)

end ForgePilot.ClusterLoops
