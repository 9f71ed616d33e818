import ForgePilot.OrderedDict
import Mathlib.Data.Finset.Card

/-!
# Listings of a cluster

Every node knows its own agent loops and its own client connections. What runs elsewhere it reads
from Redis, which has a key for every running conversation and one for every connection to a
running conversation. The keys are texts that are put together with colons, and are found by a
glob-style pattern and taken apart at the colons again.

A node does not ask Redis when its own answer has as many members as the filter.
-/

namespace ForgePilot.ClusterListing

/-! ## Nodes -/

structure Session where
  userId : Option String
deriving DecidableEq

structure Node where
  localAgentLoopsBySid : OrderedDict String Session
  localConnectionIdToSessionId : OrderedDict String String

/-- The nodes of a cluster: an agent loop runs on one node, and a connection is open to one. -/
structure Cluster where
  nodes : List Node
  oneLoop : nodes.Pairwise fun one other =>
    ∀ sid ∈ one.localAgentLoopsBySid.keys, sid ∉ other.localAgentLoopsBySid.keys
  oneConnection : nodes.Pairwise fun one other =>
    ∀ connection ∈ one.localConnectionIdToSessionId.keys,
      connection ∉ other.localConnectionIdToSessionId.keys

/-- The agent loop that runs for a conversation, on whatever node. -/
def Cluster.session (cluster : Cluster) (sid : String) : Option Session :=
  cluster.nodes.findSome? fun node => node.localAgentLoopsBySid.get sid

/-- A user id is used as a filter unless it is absent or empty. -/
def given : Option String → Bool
  | none => false
  | some userId => userId ≠ ""

/-- A user's own session; every session when no user is given. -/
def ofUser (userId : Option String) (session : Session) : Bool :=
  !given userId || session.userId = userId

/-- Whether a conversation is in the filter; every one is when there is no filter. -/
def inFilter : Option (Finset String) → String → Bool
  | none, _ => true
  | some sids, sid => sid ∈ sids

/-! ## Keys -/

abbrev Key := List Char

/-- How an optional user id is printed. -/
def printed : Option String → String
  | none => "None"
  | some userId => userId

def getRedisConversationKey (userId conversationId : String) : Key :=
  "ohcnv".toList ++ ':' :: (userId.toList ++ ':' :: conversationId.toList)

def getRedisConnectionKey (userId conversationId connectionId : String) : Key :=
  "ohcnct".toList ++
    ':' :: (userId.toList ++ ':' :: (conversationId.toList ++ ':' :: connectionId.toList))

/-- A part of a key between its colons; there may be fewer parts. -/
def part (key : Key) (index : Nat) : Option String := (key.splitOn ':')[index]?.map String.ofList

def conversationOf (key : Key) : Option String := part key 2

/-- The connection that a key is about, and the conversation that it is open to. -/
def connectionOf (key : Key) : Option (String × String) := do
  let conversationId ← part key 2
  let connectionId ← part key 3
  pure (connectionId, conversationId)

def Cluster.conversationKeys (cluster : Cluster) : List Key :=
  cluster.nodes.flatMap fun node => node.localAgentLoopsBySid.entries.map fun item =>
    getRedisConversationKey (printed item.2.userId) item.1

def Cluster.connectionKeys (cluster : Cluster) : List Key :=
  cluster.nodes.flatMap fun node => node.localConnectionIdToSessionId.entries.filterMap fun item =>
    (cluster.session item.2).map fun session =>
      getRedisConnectionKey (printed session.userId) item.2 item.1

/-- Redis has one key for each running conversation and each connection to one. In which order a
scan yields them, and whether it yields one of them again, is not determined. -/
def Holds (cluster : Cluster) (redis : List Key) : Prop :=
  ∀ key, key ∈ redis ↔ key ∈ cluster.conversationKeys ∨ key ∈ cluster.connectionKeys

/-! ## Patterns -/

/-- The characters of a pattern that do not stand for themselves. -/
def special : List Char := ['*', '?', '[', '\\']

/-- What is relied on of the pattern matching of Redis: a star stands for any text, and a character that is not
special for itself. -/
structure GlobStyle (scans : List Char → Key → Bool) : Prop where
  ends : ∀ key, scans [] key ↔ key = []
  literal : ∀ character, character ∉ special → ∀ pattern key,
    scans (character :: pattern) key ↔ ∃ rest, key = character :: rest ∧ scans pattern rest
  star : ∀ pattern key, scans ('*' :: pattern) key ↔
    ∃ front rest, key = front ++ rest ∧ scans pattern rest

/-- The user id that is put into a pattern. -/
def userPattern (userId : Option String) : String := if given userId then printed userId else "*"

def conversationPattern (userId : Option String) : List Char :=
  getRedisConversationKey (userPattern userId) "*"

def connectionPattern (userId : Option String) : List Char :=
  getRedisConnectionKey (userPattern userId) "*" "*"

/-! ## Running agent loops -/

variable (scans : List Char → Key → Bool)

def Node.getRunningAgentLoopsLocally (node : Node) (userId : Option String)
    (filterToSids : Option (Finset String)) : Finset String :=
  ((node.localAgentLoopsBySid.entries.filter fun item =>
    inFilter filterToSids item.1 && ofUser userId item.2).map Prod.fst).toFinset

/-- The conversations that run according to Redis; reading a key of fewer parts fails. -/
def getRunningAgentLoopsRemotely (redis : List Key) (userId : Option String)
    (filterToSids : Option (Finset String)) : Option (Finset String) :=
  if filterToSids = some ∅ then some ∅
  else do
    let result ← (redis.filter (scans (conversationPattern userId))).mapM conversationOf
    pure (result.filter (inFilter filterToSids)).toFinset

/-- An answer of this size is taken to be complete. -/
def isComplete (size : Nat) : Option (Finset String) → Bool
  | none => false
  | some sids => sids ≠ ∅ && size = sids.card

def Node.getRunningAgentLoops (node : Node) (redis : List Key) (userId : Option String)
    (filterToSids : Option (Finset String)) : Option (Finset String) :=
  let sids := node.getRunningAgentLoopsLocally userId filterToSids
  if isComplete sids.card filterToSids then some sids
  else do
    let remoteSids ← getRunningAgentLoopsRemotely scans redis userId filterToSids
    pure (sids ∪ remoteSids)

/-! ## Connections -/

/-- Whether a node's own connection is listed by it: its conversation is in the filter and, when a
user is given, it runs here for this user. -/
def Node.lists (node : Node) (userId : Option String) (filterToSids : Option (Finset String))
    (item : String × String) : Bool :=
  inFilter filterToSids item.2 && (!given userId ||
    match node.localAgentLoopsBySid.get item.2 with
    | none => false
    | some session => session.userId = userId)

/-- The entries of a dictionary that meet a test. -/
def restrict (dict : OrderedDict String String) (test : String × String → Bool) :
    OrderedDict String String :=
  ⟨dict.entries.filter test, dict.distinct.sublist (List.filter_sublist.map Prod.fst)⟩

def Node.getConnectionsLocally (node : Node) (userId : Option String)
    (filterToSids : Option (Finset String)) : OrderedDict String String :=
  restrict node.localConnectionIdToSessionId (node.lists userId filterToSids)

/-- Put pairs into a dictionary, one after the other. -/
def update (dict : OrderedDict String String) (pairs : List (String × String)) :
    OrderedDict String String :=
  pairs.foldl (fun result pair => result.set pair.1 pair.2) dict

def getConnectionsRemotely (redis : List Key) (userId : Option String)
    (filterToSids : Option (Finset String)) : Option (OrderedDict String String) :=
  if filterToSids = some ∅ then some .empty
  else do
    let pairs ← (redis.filter (scans (connectionPattern userId))).mapM connectionOf
    pure (update .empty (pairs.filter fun pair => inFilter filterToSids pair.2))

def Node.getConnections (node : Node) (redis : List Key) (userId : Option String)
    (filterToSids : Option (Finset String)) : Option (OrderedDict String String) :=
  let connections := node.getConnectionsLocally userId filterToSids
  if isComplete connections.entries.length filterToSids then some connections
  else do
    let remoteConnections ← getConnectionsRemotely scans redis userId filterToSids
    pure (update connections remoteConnections.entries)
end ForgePilot.ClusterListing
