import ForgePilot.ClusterListing

/-!
# What a listing leaves out

The conversations that are asked for are the running ones, of the user if one is given, that are
in the filter; the connections that are asked for are those to such conversations. A node's list of
conversations is complete as soon as the keys are read right. Its list of connections also has to be spared
two things: connections of its own to conversations that do not run, and as many connections of
its own as the filter has conversations.
-/

namespace ForgePilot.CompleteListings

open ClusterListing List OrderedDict

/-! ## What is asked for -/

section Asked

variable (cluster : Cluster) (userId : Option String) (filterToSids : Option (Finset String))

/-- A running conversation that is asked for. -/
def Meant (sid : String) : Prop :=
  ∃ session, cluster.session sid = some session ∧ ofUser userId session ∧ inFilter filterToSids sid

/-- A connection is open to a conversation, on whatever node. -/
def Connected (connection sid : String) : Prop :=
  ∃ node ∈ cluster.nodes, node.localConnectionIdToSessionId.get connection = some sid

def MeantConnection (connection sid : String) : Prop :=
  Connected cluster connection sid ∧ Meant cluster userId filterToSids sid

variable (scans : List Char → Key → Bool) (node : Node)

/-- Whatever a scan of Redis yields, the node lists the conversations that are asked for. -/
def RunningListed : Prop :=
  ∀ redis, Holds cluster redis → ∃ sids,
    node.getRunningAgentLoops scans redis userId filterToSids = some sids ∧
      ∀ sid, sid ∈ sids ↔ Meant cluster userId filterToSids sid

/-- Whatever a scan of Redis yields, the node lists the connections that are asked for. -/
def ConnectionsListed : Prop :=
  ∀ redis, Holds cluster redis → ∃ connections,
    node.getConnections scans redis userId filterToSids = some connections ∧
      ∀ connection sid, connections.get connection = some sid ↔
        MeantConnection cluster userId filterToSids connection sid

/-! ## Conditions -/

/-- A conversation of the user runs on this node. -/
def RunsHere (sid : String) : Prop :=
  ∃ session, node.localAgentLoopsBySid.get sid = some session ∧ ofUser userId session

/-- There is a filter, and all that is in it runs on this node. -/
def AllHere : Prop :=
  ∃ sids, filterToSids = some sids ∧ sids ≠ ∅ ∧ ∀ sid ∈ sids, RunsHere userId node sid

/-- A connection that the node finds among its own. -/
def OpenHere (connection sid : String) : Prop :=
  node.localConnectionIdToSessionId.get connection = some sid ∧
    node.lists userId filterToSids (connection, sid)

/-- The node has as many such connections as there are conversations in the filter. -/
def Counted : Prop :=
  isComplete (node.localConnectionIdToSessionId.entries.countP (node.lists userId filterToSids))
    filterToSids

/-- The keys that match the user's pattern name the conversations of this user. -/
structure ConversationKeysRight : Prop where
  only : ∀ sid session, cluster.session sid = some session →
    scans (conversationPattern userId) (getRedisConversationKey (printed session.userId) sid) →
    ∀ named, conversationOf (getRedisConversationKey (printed session.userId) sid) = some named →
      inFilter filterToSids named → Meant cluster userId filterToSids named
  all : ∀ named, Meant cluster userId filterToSids named → ¬ RunsHere userId node named →
    ∃ sid session, cluster.session sid = some session ∧
      scans (conversationPattern userId) (getRedisConversationKey (printed session.userId) sid) ∧
      conversationOf (getRedisConversationKey (printed session.userId) sid) = some named

/-- The keys that match the user's pattern name the connections to conversations of this user. -/
structure ConnectionKeysRight : Prop where
  only : ∀ connection sid session, Connected cluster connection sid →
    cluster.session sid = some session →
    scans (connectionPattern userId)
      (getRedisConnectionKey (printed session.userId) sid connection) →
    ∀ named, connectionOf (getRedisConnectionKey (printed session.userId) sid connection) =
      some named → inFilter filterToSids named.2 →
        MeantConnection cluster userId filterToSids named.1 named.2
  all : ∀ named : String × String, MeantConnection cluster userId filterToSids named.1 named.2 →
    ¬ OpenHere userId filterToSids node named.1 named.2 →
    ∃ connection sid session, Connected cluster connection sid ∧
      cluster.session sid = some session ∧
      scans (connectionPattern userId)
        (getRedisConnectionKey (printed session.userId) sid connection) ∧
      connectionOf (getRedisConnectionKey (printed session.userId) sid connection) = some named

/-- The connections that the node finds among its own are to running conversations, and if there
are as many as there are conversations in the filter, no other connection is asked for. -/
structure OwnRight : Prop where
  running : ∀ connection sid, OpenHere userId filterToSids node connection sid →
    Meant cluster userId filterToSids sid
  enough : Counted userId filterToSids node →
    ∀ connection sid, MeantConnection cluster userId filterToSids connection sid →
      OpenHere userId filterToSids node connection sid

/-- The keys are read right where Redis is asked. -/
structure KeysRight : Prop where
  conversations : ¬ AllHere userId filterToSids node →
    ConversationKeysRight cluster userId filterToSids scans node
  connections : ¬ Counted userId filterToSids node →
    ConnectionKeysRight cluster userId filterToSids scans node

/-- Ids that can be told apart in a key: no colons, nothing special in the user id that is asked for,
and no user who is called as the absent one is printed. -/
structure Plain : Prop where
  asked : given userId →
    ∀ character ∈ (printed userId).toList, character ∉ special ∧ character ≠ ':'
  user : ∀ sid session, cluster.session sid = some session → ':' ∉ (printed session.userId).toList
  named : ∀ sid session, cluster.session sid = some session →
    printed session.userId = printed userId → session.userId = userId
  conversation : ∀ sid session, cluster.session sid = some session → ':' ∉ sid.toList
  connection : ∀ connection sid, Connected cluster connection sid → ':' ∉ connection.toList

end Asked

/-! ## Distribution -/

variable {cluster : Cluster} {node : Node} {userId : Option String}
variable {filterToSids : Option (Finset String)}

/-- What is kept on one of the nodes only is found wherever it is. -/
theorem findSome_of_mem {ν α : Type} (look : ν → Option α) {nodes : List ν}
    (once : nodes.Pairwise fun one other => ∀ value, look one = some value → look other = none)
    (node : ν) (listed : node ∈ nodes) (value : α) (found : look node = some value) :
    nodes.findSome? look = some value := by
  induction nodes with
  | nil => cases listed
  | cons first rest ih =>
    obtain ⟨apart, once⟩ := pairwise_cons.mp once
    rw [findSome?_cons]
    rcases listed with _ | ⟨_, later⟩
    · rw [found]
    cases here : look first with
    | none => exact ih once later
    | some other =>
      rw [apart node later other here] at found
      cases found

theorem pairwise_get {α : Type} (nodes : List Node) {dict : Node → OrderedDict String α}
    (apart : nodes.Pairwise fun one other => ∀ key ∈ (dict one).keys, key ∉ (dict other).keys)
    (key : String) :
    nodes.Pairwise fun one other =>
      ∀ value, (dict one).get key = some value → (dict other).get key = none := by
  refine apart.imp fun {one other} distinct value found => ?_
  exact ((dict other).get_eq_none_iff key).mpr
    (distinct key (((dict one).mem_keys_iff key).mpr ⟨value, found⟩))

variable {sid : String}

variable {session : Session}

theorem session_of_get (listed : node ∈ cluster.nodes)
    (found : node.localAgentLoopsBySid.get sid = some session) :
    cluster.session sid = some session :=
  findSome_of_mem (fun node : Node => node.localAgentLoopsBySid.get sid)
    (pairwise_get _ cluster.oneLoop sid) _ listed _
    found

theorem connected_unique {connection other : String} (one : Connected cluster connection sid)
    (two : Connected cluster connection other) : sid = other := by
  have once := pairwise_get cluster.nodes cluster.oneConnection
    connection
  obtain ⟨first, firstListed, firstFound⟩ := one
  obtain ⟨second, secondListed, secondFound⟩ := two
  have found := findSome_of_mem
    (fun node : Node => node.localConnectionIdToSessionId.get connection) once
  have same := (found first firstListed sid firstFound).symm.trans
    (found second secondListed other secondFound)
  exact Option.some.inj same

theorem mem_conversationKeys (key : Key) :
    key ∈ cluster.conversationKeys ↔ ∃ sid session, cluster.session sid = some session ∧
      getRedisConversationKey (printed session.userId) sid = key := by
  constructor
  · intro listed
    obtain ⟨node, nodeListed, inner⟩ := mem_flatMap.mp listed
    obtain ⟨⟨sid, session⟩, item, rfl⟩ := mem_map.mp inner
    exact ⟨sid, session, session_of_get nodeListed
      ((node.localAgentLoopsBySid.get_eq_some_iff sid session).mpr item), rfl⟩
  · rintro ⟨sid, session, found, rfl⟩
    obtain ⟨node, nodeListed, here⟩ := exists_of_findSome?_eq_some found
    refine mem_flatMap.mpr ⟨node, nodeListed, mem_map.mpr ⟨(sid, session), ?_, rfl⟩⟩
    exact (node.localAgentLoopsBySid.get_eq_some_iff sid session).mp here

theorem mem_connectionKeys (key : Key) :
    key ∈ cluster.connectionKeys ↔ ∃ connection sid session, Connected cluster connection sid ∧
      cluster.session sid = some session ∧
      getRedisConnectionKey (printed session.userId) sid connection = key := by
  constructor
  · intro listed
    obtain ⟨node, nodeListed, inner⟩ := mem_flatMap.mp listed
    obtain ⟨⟨connection, sid⟩, item, mapped⟩ := mem_filterMap.mp inner
    obtain ⟨session, found, rfl⟩ := Option.map_eq_some_iff.mp mapped
    exact ⟨connection, sid, session, ⟨node, nodeListed,
      (node.localConnectionIdToSessionId.get_eq_some_iff connection sid).mpr item⟩, found, rfl⟩
  · rintro ⟨connection, sid, session, ⟨node, nodeListed, here⟩, found, rfl⟩
    refine mem_flatMap.mpr ⟨node, nodeListed,
      mem_filterMap.mpr ⟨(connection, sid), ?_, ?_⟩⟩
    · exact (node.localConnectionIdToSessionId.get_eq_some_iff connection sid).mp here
    · rw [found]
      rfl

/-! ## Keys and patterns -/

variable {scans : List Char → Key → Bool}

variable (glob : GlobStyle scans)

include glob in
theorem scans_literal {text : List Char} (plain : ∀ char ∈ text, char ∉ special)
    (pattern key : List Char) :
    scans (text ++ pattern) key ↔ ∃ rest, key = text ++ rest ∧ scans pattern rest := by
  induction text generalizing key with
  | nil => simp
  | cons char text ih =>
    have plainTail : ∀ other ∈ text, other ∉ special :=
      fun other listed => plain other (.tail char listed)
    rw [cons_append, glob.literal char (plain char (.head _))]
    constructor
    · rintro ⟨tail, rfl, scanned⟩
      obtain ⟨rest, rfl, last⟩ := (ih plainTail tail).mp scanned
      exact ⟨rest, rfl, last⟩
    · rintro ⟨rest, rfl, last⟩
      exact ⟨text ++ rest, rfl, (ih plainTail (text ++ rest)).mpr ⟨rest, rfl, last⟩⟩

theorem not_special_colon : ':' ∉ special := by decide

/-- A conversation's key has a third part. -/
theorem conversationOf_key (user sid : String) :
    ∃ named, conversationOf (getRedisConversationKey user sid) = some named := by
  have parts : (getRedisConversationKey user sid).splitOn ':' =
      "ohcnv".toList :: (user.toList.splitOn ':' ++ sid.toList.splitOn ':') := by
    rw [getRedisConversationKey, splitOn_append_cons_self_of_not_mem (by decide),
      splitOn_append_cons_self]
  have front := length_pos_iff.mpr (splitOn_ne_nil ':' user.toList)
  have back := length_pos_iff.mpr (splitOn_ne_nil ':' sid.toList)
  have long : 2 < ((getRedisConversationKey user sid).splitOn ':').length := by
    rw [parts, length_cons, length_append]
    omega
  exact ⟨_, by rw [conversationOf, part, getElem?_eq_getElem long]; rfl⟩

/-- A connection's key has a third and a fourth part. -/
theorem connectionOf_key (user sid connection : String) :
    ∃ named, connectionOf (getRedisConnectionKey user sid connection) = some named := by
  have parts : (getRedisConnectionKey user sid connection).splitOn ':' =
      "ohcnct".toList :: (user.toList.splitOn ':' ++
        (sid.toList.splitOn ':' ++ connection.toList.splitOn ':')) := by
    rw [getRedisConnectionKey, splitOn_append_cons_self_of_not_mem (by decide),
      splitOn_append_cons_self, splitOn_append_cons_self]
  have front := length_pos_iff.mpr (splitOn_ne_nil ':' user.toList)
  have middle := length_pos_iff.mpr (splitOn_ne_nil ':' sid.toList)
  have back := length_pos_iff.mpr (splitOn_ne_nil ':' connection.toList)
  have long : 3 < ((getRedisConnectionKey user sid connection).splitOn ':').length := by
    rw [parts, length_cons, length_append, length_append]
    omega
  exact ⟨_, by
    rw [connectionOf, part, part, getElem?_eq_getElem long,
      getElem?_eq_getElem (Nat.lt_of_succ_lt long)]
    rfl⟩

include glob

/-- What matches a pattern for conversations is not the key of a connection. -/
theorem conversation_not_connection {user sid connection : String}
    (matched : scans (conversationPattern userId) (getRedisConnectionKey user sid connection)) :
    False := by
  obtain ⟨rest, same, -⟩ := (scans_literal glob (by simp [special]) _ _).mp matched
  have fifth : (getRedisConnectionKey user sid connection)[4]? = some 'c' := rfl
  rw [same] at fifth
  cases fifth

theorem connection_not_conversation {user sid : String}
    (matched : scans (connectionPattern userId) (getRedisConversationKey user sid)) : False := by
  obtain ⟨rest, same, -⟩ := (scans_literal glob (by simp [special]) _ _).mp matched
  have fifth : (getRedisConversationKey user sid)[4]? = some 'v' := rfl
  rw [same] at fifth
  cases fifth

/-! ## What a scan reads -/

omit glob

theorem mapM_readable {β : Type} (read : Key → Option β) (keys : List Key)
    (readable : ∀ key ∈ keys, ∃ named, read key = some named) :
    keys.mapM read = some (keys.filterMap read) := by
  induction keys with
  | nil => rfl
  | cons key rest ih =>
    obtain ⟨named, reads⟩ := readable key (.head _)
    rw [mapM_cons, filterMap_cons, reads,
      ih fun other listed => readable other (.tail key listed)]
    rfl

variable {redis : List Key}

variable (holds : Holds cluster redis)
include glob holds

theorem mem_scan_conversations (key : Key) :
    key ∈ redis.filter (scans (conversationPattern userId)) ↔
      ∃ sid session, cluster.session sid = some session ∧ scans (conversationPattern userId) key ∧
        getRedisConversationKey (printed session.userId) sid = key := by
  rw [mem_filter, holds, mem_conversationKeys, mem_connectionKeys]
  constructor
  · rintro ⟨⟨sid, session, found, same⟩ | ⟨connection, sid, session, -, -, rfl⟩, matched⟩
    · exact ⟨sid, session, found, matched, same⟩
    · exact (conversation_not_connection glob matched).elim
  · rintro ⟨sid, session, found, matched, same⟩
    exact ⟨.inl ⟨sid, session, found, same⟩, matched⟩

theorem mem_scan_connections (key : Key) : key ∈ redis.filter (scans (connectionPattern userId)) ↔
      ∃ connection sid session, Connected cluster connection sid ∧
        cluster.session sid = some session ∧ scans (connectionPattern userId) key ∧
        getRedisConnectionKey (printed session.userId) sid connection = key := by
  rw [mem_filter, holds, mem_conversationKeys, mem_connectionKeys]
  constructor
  · rintro ⟨⟨sid, session, found, rfl⟩ | ⟨connection, sid, session, opened, found, same⟩, matched⟩
    · exact (connection_not_conversation glob matched).elim
    · exact ⟨connection, sid, session, opened, found, matched, same⟩
  · rintro ⟨connection, sid, session, opened, found, matched, same⟩
    exact ⟨.inr ⟨connection, sid, session, opened, found, same⟩, matched⟩

variable (userId filterToSids) in
theorem remote_conversations : ∃ result,
    getRunningAgentLoopsRemotely scans redis userId filterToSids = some result ∧
      ∀ named, named ∈ result ↔ inFilter filterToSids named ∧
        ∃ sid session, cluster.session sid = some session ∧ scans (conversationPattern userId)
            (getRedisConversationKey (printed session.userId) sid) ∧
          conversationOf (getRedisConversationKey (printed session.userId) sid) = some named := by
  by_cases nothing : filterToSids = some ∅
  · subst nothing
    exact ⟨∅, rfl, by simp [inFilter]⟩
  have read := mapM_readable conversationOf (redis.filter (scans (conversationPattern userId)))
    fun key listed => by
      obtain ⟨sid, session, -, -, rfl⟩ := (mem_scan_conversations glob holds key).mp listed
      exact conversationOf_key _ _
  refine ⟨_, by rw [getRunningAgentLoopsRemotely, if_neg nothing, read]; rfl, fun named => ?_⟩
  rw [mem_toFinset, mem_filter, mem_filterMap, and_comm]
  apply and_congr_right'
  constructor
  · rintro ⟨key, listed, reads⟩
    obtain ⟨sid, session, found, matched, rfl⟩ := (mem_scan_conversations glob holds key).mp listed
    exact ⟨sid, session, found, matched, reads⟩
  · rintro ⟨sid, session, found, matched, reads⟩
    exact ⟨_, (mem_scan_conversations glob holds _).mpr ⟨sid, session, found, matched, rfl⟩, reads⟩

/-! ## Dictionaries -/

omit glob holds

variable (own dict : OrderedDict String String) (pairs : List (String × String))

variable (key value : String)

/-- The last pair with a key is the one that counts. -/
theorem get_update_append : (update dict (pairs ++ [(key, value)])).get key = some value := by
  rw [update, foldl_append]
  simp

/-- A key that is put in has one of the values that are put in for it. -/
theorem get_update_cases {key value : String} (found : (update dict pairs).get key = some value) :
    (key, value) ∈ pairs ∨ (key ∉ pairs.map Prod.fst ∧ dict.get key = some value) := by
  induction pairs generalizing dict with
  | nil => exact .inr ⟨not_mem_nil, found⟩
  | cons pair rest ih =>
    obtain ⟨first, stored⟩ := pair
    rcases ih (dict.set first stored) found with later | ⟨absent, here⟩
    · exact .inl (.tail _ later)
    rw [get_set] at here
    by_cases same : key = first
    · rw [if_pos same] at here
      obtain rfl := Option.some.inj here
      exact .inl (same ▸ (.head _))
    · rw [if_neg same] at here
      exact .inr ⟨fun listed => (mem_cons.mp listed).elim same absent, here⟩

/-- What has a value before or is put in has a value afterwards. -/
theorem get_update_some (key : String)
    (present : key ∈ pairs.map Prod.fst ∨ ∃ value, dict.get key = some value) :
    ∃ value, (update dict pairs).get key = some value := by
  induction pairs generalizing dict with
  | nil =>
    rcases present with listed | present
    · cases listed
    · exact present
  | cons pair rest ih =>
    apply ih (dict.set pair.1 pair.2)
    rw [get_set]
    rcases present with listed | ⟨value, found⟩
    · rcases listed with _ | ⟨_, later⟩
      · exact .inr ⟨pair.2, if_pos rfl⟩
      · exact .inl later
    · split
      · exact .inr ⟨_, rfl⟩
      · exact .inr ⟨value, found⟩

theorem get_restrict (test : String × String → Bool) (key value : String) :
    (restrict dict test).get key = some value ↔ dict.get key = some value ∧ test (key, value) := by
  rw [get_eq_some_iff, get_eq_some_iff]
  exact mem_filter

/-- The dictionary that is read from Redis, on top of a node's own. -/
def merged (own : OrderedDict String String) (pairs : List (String × String)) :
    OrderedDict String String :=
  update own (update .empty pairs).entries

theorem get_merged_cases {key value : String} (found : (merged own pairs).get key = some value) :
    (key, value) ∈ pairs ∨ own.get key = some value := by
  rcases get_update_cases own _ found with entry | ⟨-, here⟩
  · have read := ((update .empty pairs).get_eq_some_iff key value).mpr entry
    rcases get_update_cases _ _ read with listed | ⟨-, nothing⟩
    · exact .inl listed
    · cases nothing
  · exact .inr here

theorem get_merged_some {own : OrderedDict String String} {pairs : List (String × String)}
    {key : String} (present : key ∈ pairs.map Prod.fst ∨ ∃ value, own.get key = some value) :
    ∃ value, (merged own pairs).get key = some value := by
  apply get_update_some
  rcases present with listed | here
  · exact .inl (((update .empty pairs).mem_keys_iff key).mpr
      (get_update_some _ _ key (.inl listed)))
  · exact .inr here

theorem get_merged_append : (merged own (pairs ++ [(key, value)])).get key = some value := by
  have read := get_update_append .empty pairs key value
  obtain ⟨found, same⟩ := get_merged_some
    (.inl (mem_map.mpr ⟨(key, value), mem_append_right _ (.head _), rfl⟩))
  rcases get_update_cases own _ same with entry | ⟨absent, -⟩
  · rw [← (get_eq_some_iff ..), read] at entry
    rw [same, entry]
  · exact absurd ((mem_keys_iff _ key).mpr ⟨value, read⟩) absent

/-- The connections that are read from Redis, in the filter. -/
def remotePairs (scans : List Char → Key → Bool) (userId : Option String)
    (filterToSids : Option (Finset String)) (redis : List Key) : List (String × String) :=
  ((redis.filter (scans (connectionPattern userId))).filterMap connectionOf).filter
    fun pair => inFilter filterToSids pair.2

include glob holds

/-- What Redis says of connections, in the order in which it says it. -/
theorem remote_connections : getConnectionsRemotely scans redis userId filterToSids =
      some (update .empty (remotePairs scans userId filterToSids redis)) := by
  by_cases nothing : filterToSids = some ∅
  · subst nothing
    rw [remotePairs, filter_eq_nil_iff.mpr (by simp [inFilter])]
    rfl
  rw [getConnectionsRemotely, if_neg nothing, mapM_readable _]
  · rfl
  · intro key listed
    obtain ⟨connection, sid, session, -, -, -, rfl⟩ :=
      (mem_scan_connections glob holds key).mp listed
    exact connectionOf_key _ _ _

theorem mem_remote_pairs (named : String × String) :
    named ∈ remotePairs scans userId filterToSids redis ↔ inFilter filterToSids named.2 ∧
        ∃ connection sid session, Connected cluster connection sid ∧
          cluster.session sid = some session ∧
          scans (connectionPattern userId)
            (getRedisConnectionKey (printed session.userId) sid connection) ∧
          connectionOf (getRedisConnectionKey (printed session.userId) sid connection) =
            some named := by
  rw [remotePairs, mem_filter, mem_filterMap, and_comm]
  apply and_congr_right'
  constructor
  · rintro ⟨key, listed, reads⟩
    obtain ⟨connection, sid, session, opened, found, matched, rfl⟩ :=
      (mem_scan_connections glob holds key).mp listed
    exact ⟨connection, sid, session, opened, found, matched, reads⟩
  · rintro ⟨connection, sid, session, opened, found, matched, reads⟩
    exact ⟨_, (mem_scan_connections glob holds _).mpr
      ⟨connection, sid, session, opened, found, matched, rfl⟩, reads⟩

/-- A listing of connections is that of the node, or that of Redis put on top of it. -/
theorem getConnections_eq : node.getConnections scans redis userId filterToSids = if isComplete
          (node.localConnectionIdToSessionId.entries.countP (node.lists userId filterToSids))
          filterToSids then
        some (node.getConnectionsLocally userId filterToSids)
      else some (merged (node.getConnectionsLocally userId filterToSids)
        (remotePairs scans userId filterToSids redis)) := by
  rw [Node.getConnections, remote_connections glob holds, countP_eq_length_filter]
  rfl

omit glob holds

theorem get_own_iff (connection sid : String) :
    (node.getConnectionsLocally userId filterToSids).get connection = some sid ↔
      OpenHere userId filterToSids node connection sid :=
  get_restrict ..

/-! ## Running agent loops -/

theorem mem_locally_iff (sid : String) :
    sid ∈ node.getRunningAgentLoopsLocally userId filterToSids ↔
      inFilter filterToSids sid ∧ RunsHere userId node sid := by
  rw [Node.getRunningAgentLoopsLocally, mem_toFinset, mem_map]
  constructor
  · rintro ⟨⟨sid, session⟩, listed, rfl⟩
    obtain ⟨item, meets⟩ := mem_filter.mp listed
    obtain ⟨inside, owned⟩ := Bool.and_eq_true_iff.mp meets
    exact ⟨inside, session, (node.localAgentLoopsBySid.get_eq_some_iff sid session).mpr item, owned⟩
  · rintro ⟨inside, session, found, owned⟩
    refine ⟨(sid, session), mem_filter.mpr ⟨?_, Bool.and_eq_true_iff.mpr ⟨inside, owned⟩⟩, rfl⟩
    exact (node.localAgentLoopsBySid.get_eq_some_iff sid session).mp found

/-- A list of conversations that is as long as the filter is the filter. -/
theorem isComplete_locally_iff :
    isComplete (node.getRunningAgentLoopsLocally userId filterToSids).card filterToSids ↔
      AllHere userId filterToSids node := by
  cases filterToSids with
  | none =>
    constructor
    · rintro ⟨⟩
    · rintro ⟨_, ⟨⟩, _⟩
  | some sids =>
    have inside : node.getRunningAgentLoopsLocally userId (some sids) ⊆ sids := by
      intro sid listed
      exact of_decide_eq_true ((mem_locally_iff sid).mp listed).1
    rw [isComplete, Bool.and_eq_true_iff]
    constructor
    · rintro ⟨filled, size⟩
      have same := Finset.eq_of_subset_of_card_le inside (Nat.le_of_eq (of_decide_eq_true size).symm)
      refine ⟨sids, rfl, of_decide_eq_true filled, fun sid listed => ?_⟩
      exact ((mem_locally_iff sid).mp (same.symm ▸ listed)).2
    · rintro ⟨_, ⟨⟩, filled, here⟩
      refine ⟨decide_eq_true filled, decide_eq_true ?_⟩
      rw [inside.antisymm fun sid listed =>
        (mem_locally_iff sid).mpr ⟨decide_eq_true listed, here sid listed⟩]

/-- The keys that a cluster has are held by some scan. -/
theorem exists_holds (cluster : Cluster) : ∃ redis, Holds cluster redis :=
  ⟨cluster.conversationKeys ++ cluster.connectionKeys, fun _ => mem_append⟩

theorem meant_of_here (listed : node ∈ cluster.nodes) (inside : inFilter filterToSids sid)
    (here : RunsHere userId node sid) : Meant cluster userId filterToSids sid := by
  obtain ⟨session, found, owned⟩ := here
  exact ⟨session, session_of_get listed found, owned, inside⟩

include glob in
/-- A node lists the conversations that are asked for just when all of them run here or the keys
are read right. -/
theorem running_listed_iff (listed : node ∈ cluster.nodes) :
    RunningListed cluster userId filterToSids scans node ↔ (¬ AllHere userId filterToSids node →
        ConversationKeysRight cluster userId filterToSids scans node) := by
  by_cases here : AllHere userId filterToSids node
  · refine ⟨fun _ absent => absurd here absent, fun _ redis _ => ?_⟩
    refine ⟨_, by rw [Node.getRunningAgentLoops, if_pos (isComplete_locally_iff.mpr here)],
      fun sid => ?_⟩
    rw [mem_locally_iff]
    constructor
    · rintro ⟨inside, runs⟩
      exact meant_of_here listed inside runs
    · rintro ⟨session, found, owned, inside⟩
      obtain ⟨sids, rfl, -, all⟩ := here
      exact ⟨inside, all sid (of_decide_eq_true inside)⟩
  · have asks : ¬ isComplete (node.getRunningAgentLoopsLocally userId filterToSids).card
        filterToSids := isComplete_locally_iff.not.mpr here
    constructor
    · intro lists _
      obtain ⟨redis, holds⟩ := exists_holds ..
      obtain ⟨remote, reads, named⟩ := remote_conversations _ _
        glob holds
      obtain ⟨sids, answered, right⟩ := lists redis holds
      rw [Node.getRunningAgentLoops, if_neg asks, reads] at answered
      obtain rfl := Option.some.inj answered
      constructor
      · intro sid session found matched other reads inside
        exact (right other).mp (Finset.mem_union_right _
          ((named other).mpr ⟨inside, sid, session, found, matched, reads⟩))
      · intro sid asked absent
        rcases Finset.mem_union.mp ((right sid).mpr asked) with own | read
        · exact absurd ((mem_locally_iff sid).mp own).2 absent
        · exact ((named sid).mp read).2
    · intro keys redis holds
      have keys := keys here
      obtain ⟨remote, reads, named⟩ := remote_conversations _ _
        glob holds
      refine ⟨_, by rw [Node.getRunningAgentLoops, if_neg asks, reads]; rfl, fun sid => ?_⟩
      rw [Finset.mem_union, mem_locally_iff, named]
      constructor
      · rintro (⟨inside, runs⟩ | ⟨inside, other, session, found, matched, reads⟩)
        · exact meant_of_here listed inside runs
        · exact keys.only other session found matched sid reads inside
      · intro asked
        have inside : inFilter filterToSids sid := by
          obtain ⟨_, _, _, inside⟩ := asked
          exact inside
        by_cases runs : RunsHere userId node sid
        · exact .inl ⟨inside, runs⟩
        · exact .inr ⟨inside, keys.all sid asked runs⟩

/-! ## Connections -/

/-- A key that is yielded last is read last. -/
theorem remotePairs_append (redis : List Key) {key : Key} {named : String × String}
    (matched : scans (connectionPattern userId) key) (reads : connectionOf key = some named)
    (inside : inFilter filterToSids named.2) :
    remotePairs scans userId filterToSids (redis ++ [key]) =
      remotePairs scans userId filterToSids redis ++ [named] := by
  have single : remotePairs scans userId filterToSids [key] = [named] := by
    rw [remotePairs, filter_cons_of_pos matched, filter_nil, filterMap_cons, reads]
    exact filter_cons_of_pos inside
  rw [← single, remotePairs, filter_append, filterMap_append, filter_append]
  rfl

include glob

/-- A node lists the connections that are asked for just when it finds only these among its own, finds all
of them where it does not ask Redis, and reads the keys right where it does. -/
theorem connections_listed_iff (listed : node ∈ cluster.nodes) :
    ConnectionsListed cluster userId filterToSids scans node ↔
      OwnRight cluster userId filterToSids node ∧ (¬ Counted userId filterToSids node →
          ConnectionKeysRight cluster userId filterToSids scans node) := by
  have opened : ∀ {connection sid}, OpenHere userId filterToSids node connection sid →
      Connected cluster connection sid := fun own => ⟨node, listed, own.1⟩
  by_cases counted : Counted userId filterToSids node
  · have answer : ∀ redis, Holds cluster redis →
        node.getConnections scans redis userId filterToSids =
          some (node.getConnectionsLocally userId filterToSids) := fun redis holds => by
      rw [getConnections_eq glob holds, if_pos (c := isComplete _ _ = true) counted]
    constructor
    · intro lists
      obtain ⟨redis, holds⟩ := exists_holds ..
      obtain ⟨connections, answered, right⟩ := lists redis holds
      rw [answer redis holds] at answered
      obtain rfl := Option.some.inj answered
      refine ⟨⟨fun connection sid own => ?_, fun _ connection sid asked => ?_⟩,
        fun absent => absurd counted absent⟩
      · exact ((right connection sid).mp ((get_own_iff ..).mpr own)).2
      · exact (get_own_iff ..).mp ((right connection sid).mpr asked)
    · rintro ⟨own, -⟩ redis holds
      refine ⟨_, answer redis holds, fun connection sid => ?_⟩
      rw [get_own_iff]
      constructor
      · exact fun here => ⟨opened here, own.running connection sid here⟩
      · exact own.enough counted connection sid
  · have answer : ∀ redis, Holds cluster redis → node.getConnections scans redis userId filterToSids =
        some (merged (node.getConnectionsLocally userId filterToSids)
          (remotePairs scans userId filterToSids redis)) := fun redis holds => by
      rw [getConnections_eq glob holds, if_neg (c := isComplete _ _ = true) counted]
    constructor
    · intro lists
      obtain ⟨redis, holds⟩ := exists_holds ..
      refine ⟨⟨fun connection sid own => ?_, fun absent => absurd absent counted⟩, fun _ => ⟨?_, ?_⟩⟩
      · obtain ⟨connections, answered, right⟩ := lists redis holds
        rw [answer redis holds] at answered
        obtain rfl := Option.some.inj answered
        obtain ⟨other, found⟩ := get_merged_some (.inr ⟨sid, (get_own_iff ..).mpr own⟩)
        have asked := (right connection other).mp found
        exact connected_unique asked.1 (opened own) ▸ asked.2
      · -- The key is yielded once more, last, and what it names is listed.
        intro connection sid session connected found matched named reads inside
        have key := (mem_connectionKeys _).mpr ⟨connection, sid, session, connected, found, rfl⟩
        have again : Holds cluster
            (redis ++ [getRedisConnectionKey (printed session.userId) sid connection]) := by
          intro other
          rw [mem_append, holds, mem_singleton]
          constructor
          · rintro (held | rfl)
            · exact held
            · exact .inr key
          · exact .inl
        obtain ⟨connections, answered, right⟩ := lists _ again
        rw [answer _ again, remotePairs_append _ matched reads inside] at answered
        obtain rfl := Option.some.inj answered
        exact (right named.1 named.2).mp (get_merged_append ..)
      · intro named asked absent
        obtain ⟨connections, answered, right⟩ := lists redis holds
        rw [answer redis holds] at answered
        obtain rfl := Option.some.inj answered
        rcases get_merged_cases _ _ ((right named.1 named.2).mpr asked) with read | own
        · exact ((mem_remote_pairs glob holds _).mp read).2
        · exact absurd ((get_own_iff _ _).mp own) absent
    · rintro ⟨own, keys⟩ redis holds
      have keys := keys counted
      refine ⟨_, answer redis holds, ?_⟩
      have sound : ∀ connection sid, (merged (node.getConnectionsLocally userId filterToSids)
          (remotePairs scans userId filterToSids redis)).get connection = some sid →
          MeantConnection cluster userId filterToSids connection sid := by
        intro connection sid found
        rcases get_merged_cases _ _ found with read | here
        · obtain ⟨inside, other, key, session, connected, runs, matched, reads⟩ :=
            (mem_remote_pairs glob holds ..).mp read
          exact keys.only other key session connected runs matched (connection, sid) reads inside
        · have here := (get_own_iff ..).mp here
          exact ⟨opened here, own.running connection sid here⟩
      intro connection sid
      refine ⟨sound connection sid, fun asked => ?_⟩
      have present : ∃ other, (merged (node.getConnectionsLocally userId filterToSids)
          (remotePairs scans userId filterToSids redis)).get connection = some other := by
        apply get_merged_some
        by_cases here : OpenHere userId filterToSids node connection sid
        · exact .inr ⟨sid, (get_own_iff ..).mpr here⟩
        have inside : inFilter filterToSids sid := by
          obtain ⟨-, _, _, _, inside⟩ := asked
          exact inside
        exact .inl (mem_map.mpr ⟨(connection, sid), (mem_remote_pairs glob holds _).mpr
          ⟨inside, keys.all (connection, sid) asked here⟩, rfl⟩)
      obtain ⟨other, found⟩ := present
      rw [found, connected_unique (sound connection other found).1 asked.1]

/-! ## Plain ids -/

theorem scans_any (key : Key) : scans ['*'] key :=
  (glob.star [] key).mpr ⟨key, [], (append_nil key).symm, (glob.ends []).mpr rfl⟩

variable {kind : List Char} {pattern rest : List Char} (plain : ∀ char ∈ kind, char ∉ special)
include plain

/-- What follows the user in a pattern is looked for after the user in a key. -/
theorem scans_user {user : String} (own : given userId → user = printed userId)
    (asked : given userId → ∀ char ∈ (printed userId).toList, char ∉ special)
    (matched : scans pattern rest) :
    scans (kind ++ ':' :: ((userPattern userId).toList ++ ':' :: pattern))
      (kind ++ ':' :: (user.toList ++ ':' :: rest)) := by
  rw [scans_literal glob plain]
  refine ⟨_, rfl, (glob.literal ':' not_special_colon _ _).mpr ⟨_, rfl, ?_⟩⟩
  have colon : scans (':' :: pattern) (':' :: rest) :=
    (glob.literal ':' not_special_colon _ _).mpr ⟨rest, rfl, matched⟩
  by_cases present : given userId
  · rw [userPattern, if_pos present, own present]
    exact (scans_literal glob (asked present) _ _).mpr ⟨_, rfl, colon⟩
  · rw [userPattern, if_neg present]
    exact (glob.star _ _).mpr ⟨user.toList, ':' :: rest, rfl, colon⟩

/-- A key that matches is that of the user who is asked for. -/
theorem user_of_scans {user : String} (present : given userId)
    (asked : ∀ char ∈ (printed userId).toList, char ∉ special ∧ char ≠ ':')
    (colons : ':' ∉ user.toList)
    (matched : scans (kind ++ ':' :: ((userPattern userId).toList ++ ':' :: pattern))
      (kind ++ ':' :: (user.toList ++ ':' :: rest))) : user = printed userId := by
  obtain ⟨tail, same, matched⟩ := (scans_literal glob plain _ _).mp matched
  obtain rfl := append_cancel_left same
  obtain ⟨tail, same, matched⟩ := (glob.literal ':' not_special_colon _ _).mp matched
  obtain rfl := (cons.inj same).2
  rw [userPattern, if_pos present] at matched
  obtain ⟨tail, same, matched⟩ :=
    (scans_literal glob (fun char listed => (asked char listed).1) _ _).mp matched
  obtain ⟨last, rfl, -⟩ := (glob.literal ':' not_special_colon _ _).mp matched
  have parts := congrArg (splitOn ':') same
  rw [splitOn_append_cons_self_of_not_mem colons, splitOn_append_cons_self_of_not_mem
    fun listed => (asked ':' listed).2 rfl] at parts
  exact String.toList_inj.mp (cons.inj parts).1

omit glob plain

theorem conversationOf_plain {user sid : String} (userColons : ':' ∉ user.toList)
    (sidColons : ':' ∉ sid.toList) :
    conversationOf (getRedisConversationKey user sid) = some sid := by
  rw [conversationOf, part, getRedisConversationKey,
    splitOn_append_cons_self_of_not_mem (by decide),
    splitOn_append_cons_self_of_not_mem userColons, splitOn_eq_singleton sidColons]
  exact congrArg some String.ofList_toList

theorem connectionOf_plain {user sid connection : String} (userColons : ':' ∉ user.toList)
    (sidColons : ':' ∉ sid.toList) (connectionColons : ':' ∉ connection.toList) :
    connectionOf (getRedisConnectionKey user sid connection) = some (connection, sid) := by
  have parts : (getRedisConnectionKey user sid connection).splitOn ':' =
      ["ohcnct".toList, user.toList, sid.toList, connection.toList] := by
    rw [getRedisConnectionKey, splitOn_append_cons_self_of_not_mem (by decide),
      splitOn_append_cons_self_of_not_mem userColons,
      splitOn_append_cons_self_of_not_mem sidColons,
      splitOn_eq_singleton connectionColons]
  rw [connectionOf, part, part, parts]
  simp

include glob in
theorem keysRight_of_plain (plain : Plain cluster userId) :
    KeysRight cluster userId filterToSids scans node := by
  have asked : given userId → ∀ char ∈ (printed userId).toList, char ∉ special :=
    fun present char listed => (plain.asked present char listed).1
  have printedSame : ∀ session : Session, ofUser userId session → given userId →
      printed session.userId = printed userId := by
    intro session owned present
    rw [ofUser, present] at owned
    exact congrArg printed (of_decide_eq_true owned)
  have owned : ∀ sid session, cluster.session sid = some session →
      (given userId → printed session.userId = printed userId) → ofUser userId session := by
    intro sid session found same
    rw [ofUser]
    by_cases present : given userId
    · rw [present, plain.named sid session found (same present)]
      simp
    · simp [present]
  constructor
  · refine fun _ => ⟨?_, ?_⟩
    · intro sid session found matched named reads inside
      rw [conversationOf_plain (plain.user sid session found)
        (plain.conversation sid session found)] at reads
      obtain rfl := Option.some.inj reads
      refine ⟨session, found, owned sid session found fun present => ?_, inside⟩
      exact user_of_scans glob (by simp [special]) present (plain.asked present)
        (plain.user sid session found) matched
    · rintro named ⟨session, found, own, inside⟩ -
      refine ⟨named, session, found, ?_, conversationOf_plain (plain.user named session found)
        (plain.conversation named session found)⟩
      exact scans_user glob (by simp [special]) (printedSame session own) asked (scans_any glob _)
  · refine fun _ => ⟨?_, ?_⟩
    · intro connection sid session connected found matched named reads inside
      rw [connectionOf_plain (plain.user sid session found)
        (plain.conversation sid session found) (plain.connection connection sid connected)] at reads
      obtain rfl := Option.some.inj reads
      refine ⟨connected, session, found, owned sid session found fun present => ?_, inside⟩
      exact user_of_scans glob (by simp [special]) present (plain.asked present)
        (plain.user sid session found) matched
    · rintro ⟨connection, sid⟩ ⟨connected, session, found, own, inside⟩ -
      refine ⟨connection, sid, session, connected, found, ?_, connectionOf_plain
        (plain.user sid session found) (plain.conversation sid session found)
        (plain.connection connection sid connected)⟩
      apply scans_user glob (by simp [special]) (printedSame session own) asked
      refine (glob.star _ _).mpr ⟨sid.toList, ':' :: connection.toList, rfl, ?_⟩
      exact (glob.literal ':' not_special_colon _ _).mpr ⟨_, rfl, scans_any glob _⟩

/-! ## Completeness -/

/-- A node lists all that is asked for, and nothing else, just when it finds nothing else among its own
connections, finds all where it does not ask Redis, and reads the keys right where it does. Keys of plain
ids are read right. -/
theorem listings_complete (scans : List Char → Key → Bool) (glob : GlobStyle scans)
    (cluster : Cluster) (node : Node) (listed : node ∈ cluster.nodes) (userId : Option String)
    (filterToSids : Option (Finset String)) :
    ((RunningListed cluster userId filterToSids scans node ∧
        ConnectionsListed cluster userId filterToSids scans node) ↔
      (OwnRight cluster userId filterToSids node ∧
        KeysRight cluster userId filterToSids scans node)) ∧
      (Plain cluster userId → KeysRight cluster userId filterToSids scans node) := by
  refine ⟨?_, keysRight_of_plain glob⟩
  rw [running_listed_iff glob listed, connections_listed_iff glob listed]
  constructor
  · rintro ⟨conversations, own, connections⟩
    exact ⟨own, conversations, connections⟩
  · rintro ⟨own, conversations, connections⟩
    exact ⟨conversations, own, connections⟩

/-! ## Two nodes -/

/-- Pattern matching with stars and question marks, without sets and escapes. -/
def globbing : List Char → Key → Bool
  | [], key => key.isEmpty
  | '*' :: pattern, key => key.tails.any (globbing pattern)
  | '?' :: pattern, key =>
      match key with
      | [] => false
      | _ :: rest => globbing pattern rest
  | character :: pattern, key =>
      match key with
      | [] => false
      | other :: rest => other = character && globbing pattern rest

theorem globbing_style : GlobStyle globbing where
  ends key := by
    rw [globbing]
    exact isEmpty_iff
  literal char plain pattern key := by
    have notStar : char ≠ '*' := fun same => plain (same ▸ by decide)
    have notMark : char ≠ '?' := fun same => plain (same ▸ by decide)
    cases key with
    | nil => simp [globbing]
    | cons other rest =>
      have unfolds : globbing (char :: pattern) (other :: rest) =
          (decide (other = char) && globbing pattern rest) := by
        simp [globbing]
      rw [unfolds, Bool.and_eq_true_iff, decide_eq_true_iff]
      constructor
      · rintro ⟨rfl, matched⟩
        exact ⟨rest, rfl, matched⟩
      · rintro ⟨_, ⟨⟩, matched⟩
        exact ⟨rfl, matched⟩
  star pattern key := by
    rw [globbing, any_eq_true]
    constructor
    · rintro ⟨rest, listed, matched⟩
      obtain ⟨front, rfl⟩ := (mem_tails rest key).mp listed
      exact ⟨front, rest, rfl, matched⟩
    · rintro ⟨front, rest, rfl, matched⟩
      exact ⟨rest, (mem_tails rest _).mpr ⟨front, rfl⟩, matched⟩

/-- A node with one agent loop and connections to a conversation. -/
def nodeOf (sid : String) (connections : OrderedDict String String) : Node :=
  ⟨OrderedDict.empty.set sid ⟨none⟩, connections⟩

/-- Two connections to a conversation that runs here. -/
def firstNode : Node := nodeOf "a" ((OrderedDict.empty.set "1" "a").set "2" "a")

/-- One connection to a conversation that runs here, and one to a conversation that runs nowhere. -/
def secondNode : Node := nodeOf "b" ((OrderedDict.empty.set "3" "b").set "4" "c")

def twoNodes : Cluster where
  nodes := [firstNode, secondNode]
  oneLoop := by decide +kernel
  oneConnection := by decide +kernel

theorem twoNodes_session (found : twoNodes.session sid = some session) :
    (sid = "a" ∨ sid = "b") ∧ session = ⟨none⟩ := by
  obtain ⟨node, listed, here⟩ := exists_of_findSome?_eq_some found
  simp only [twoNodes, mem_cons, not_mem_nil, or_false] at listed
  rcases listed with rfl | rfl
  all_goals
    simp only [firstNode, secondNode, nodeOf, get_set, get_empty] at here
    split at here
    · rename_i same
      exact ⟨by simp [same], (Option.some.inj here).symm⟩
    · cases here

theorem twoNodes_plain : Plain twoNodes none where
  asked := fun present => by cases present
  user := by
    intro sid session found
    rw [(twoNodes_session found).2]
    decide
  named := fun sid session found _ => by rw [(twoNodes_session found).2]
  conversation := by
    intro sid session found
    rcases (twoNodes_session found).1 with rfl | rfl <;> decide
  connection := by
    rintro connection sid ⟨node, listed, here⟩
    have stored := (node.localConnectionIdToSessionId.mem_keys_iff connection).mpr ⟨sid, here⟩
    have all : ∀ node ∈ twoNodes.nodes, ∀ key ∈ node.localConnectionIdToSessionId.keys,
        ':' ∉ key.toList := by decide +kernel
    exact all node listed connection stored

theorem firstNode_right : OwnRight twoNodes none none firstNode where
  running := by
    rintro connection sid ⟨here, -⟩
    have stored := (firstNode.localConnectionIdToSessionId.get_eq_some_iff connection sid).mp here
    have all : ∀ item ∈ firstNode.localConnectionIdToSessionId.entries, item.2 = "a" := by
      decide +kernel
    have same : sid = "a" := all (connection, sid) stored
    subst same
    exact ⟨⟨none⟩, rfl, rfl, rfl⟩
  enough := fun counted => by cases counted

/-- Without a filter, the first node lists all there is. -/
theorem listings_complete_first : RunningListed twoNodes none none globbing firstNode ∧
    ConnectionsListed twoNodes none none globbing firstNode := by
  have complete := listings_complete _ globbing_style twoNodes firstNode
    (.head _) none none
  exact complete.1.mpr ⟨firstNode_right, complete.2 twoNodes_plain⟩

/-- With a filter of two conversations, the first node's two connections pass for all there are, so that the
third is left out; and the second node lists a connection to a conversation that does not run. -/
theorem connections_incomplete :
    ¬ (RunningListed twoNodes none (some {"a", "b"}) globbing firstNode ∧
        ConnectionsListed twoNodes none (some {"a", "b"}) globbing firstNode) ∧
      ¬ (RunningListed twoNodes none none globbing secondNode ∧
        ConnectionsListed twoNodes none none globbing secondNode) := by
  constructor
  · rintro ⟨-, lists⟩
    have own := (connections_listed_iff globbing_style (.head _)).mp lists
    have counted : Counted none (some {"a", "b"}) firstNode := by
      unfold Counted
      decide +kernel
    have asked : MeantConnection twoNodes none (some {"a", "b"}) "3" "b" :=
      ⟨⟨secondNode, .tail _ (.head _), rfl⟩, ⟨none⟩, rfl, rfl, by decide⟩
    have here := (own.1.enough counted "3" "b" asked).1
    cases here
  · rintro ⟨-, lists⟩
    have own := (connections_listed_iff globbing_style
      (.tail _ (.head _))).mp lists
    have here : OpenHere none none secondNode "4" "c" := ⟨rfl, rfl⟩
    obtain ⟨session, found, -⟩ := own.1.running "4" "c" here
    have absent : twoNodes.session "c" = none := by decide +kernel
    rw [absent] at found
    cases found
end ForgePilot.CompleteListings
