import ForgePilot.OrderedDict
import ForgePilot.Values
import Mathlib.Data.List.Induction

/-!
# Messages between the nodes of a cluster

A node that does not run a session publishes what is asked of it; every node reads what
is published, and the node that runs the session acts on it. A message is a mapping that
is written as a JSON document and read back from it.

A document stands for its text: that reading a text gives the document that was written
is not at issue, only what becomes of a value on its way through one. Keys of mappings
turn into texts, tuples into lists, and objects of other classes cannot be written.
-/

namespace ForgePilot.ClusterMessages

open List OrderedDict

/-! ## Values and documents -/

inductive Key where
  | str (text : String)
  | int (value : Int)
  | float (printed : String)
  | bool (value : Bool)
  | none
  | object (className printed : String)
deriving DecidableEq

/-- A value; a floating-point number is kept as the text it prints as. -/
inductive PyValue where
  | none
  | bool (value : Bool)
  | int (value : Int)
  | float (printed : String)
  | str (text : String)
  | list (items : List PyValue)
  | tuple (items : List PyValue)
  | dict (entries : List (Key × PyValue))
  | object (className printed : String)

inductive Json where
  | null
  | bool (value : Bool)
  | int (value : Int)
  | float (printed : String)
  | str (text : String)
  | array (items : List Json)
  | object (entries : List (String × Json))

/-- An integer of more digits is not printed. -/
def intMaxStrDigits : Nat := 4300

/-- An integer that can be printed. -/
def printable (value : Int) : Bool := (toString value.natAbs).length ≤ intMaxStrDigits

def intText (value : Int) : Except String String :=
  if printable value then .ok (toString value)
  else .error "Exceeds the limit (4300 digits) for integer string conversion"

/-- The text of a floating-point number in a document. -/
def floatText (printed : String) : String :=
  if printed = "nan" then "NaN"
  else if printed = "inf" then "Infinity"
  else if printed = "-inf" then "-Infinity"
  else printed

/-- A key as it stands in a document. -/
def Key.dumps : Key → Except String String
  | .str text => .ok text
  | .int value => intText value
  | .float printed => .ok (floatText printed)
  | .bool value => .ok (if value then "true" else "false")
  | .none => .ok "null"
  | .object className _ =>
      .error ("keys must be str, int, float, bool or None, not " ++ className)

mutual

/-- Write a value as a document. -/
def dumps : PyValue → Except String Json
  | .none => .ok .null
  | .bool value => .ok (.bool value)
  | .int value => do
      let _ ← intText value
      return .int value
  | .float printed => .ok (.float printed)
  | .str text => .ok (.str text)
  | .list items => do return .array (← dumpsItems items)
  | .tuple items => do return .array (← dumpsItems items)
  | .dict entries => do return .object (← dumpsEntries entries)
  | .object className _ =>
      .error ("Object of type " ++ className ++ " is not JSON serializable")

def dumpsItems : List PyValue → Except String (List Json)
  | [] => .ok []
  | item :: rest => do return (← dumps item) :: (← dumpsItems rest)

/-- Write the entries of a mapping. -/
def dumpsEntries : List (Key × PyValue) → Except String (List (String × Json))
  | [] => .ok []
  | (key, value) :: rest =>
      do return (← key.dumps, ← dumps value) :: (← dumpsEntries rest)

end

/-- The mapping with the given entries, where a later value of a key replaces an earlier one. -/
def collect (entries : List (Key × PyValue)) : OrderedDict Key PyValue :=
  entries.foldl (fun dict entry => dict.set entry.1 entry.2) OrderedDict.empty

mutual

/-- Read a value from a document. -/
def loads : Json → PyValue
  | .null => .none
  | .bool value => .bool value
  | .int value => .int value
  | .float printed => .float printed
  | .str text => .str text
  | .array items => .list (loadsItems items)
  | .object entries => .dict (collect (loadsEntries entries)).entries

def loadsItems : List Json → List PyValue
  | [] => []
  | item :: rest => loads item :: loadsItems rest

/-- Read the entries of a mapping. -/
def loadsEntries : List (String × Json) → List (Key × PyValue)
  | [] => []
  | (key, value) :: rest => (.str key, loads value) :: loadsEntries rest

end

/-! ## Calls and messages -/

/-- A call that publishes a message: of a node for a session, or of the answer to one. -/
inductive Call where
  | requestLlmCompletion (sid serviceId llmConfig : String) (messages : List (List (String × String)))
  | sendEventToConversation (sid : String) (data : List (Key × PyValue))
  | closeSession (sid : String)
  | sessionClosing (sid : String) (userId : Option String)
  | answerCompletion (queryId response : String)

/-- A mapping with texts for keys. -/
def message (entries : List (String × PyValue)) : PyValue :=
  .dict (entries.map (fun entry => (.str entry.1, entry.2)))

/-- A configuration of a language model, as the object it is. -/
def llmConfigObject (llmConfig : String) : PyValue := .object "LLMConfig" llmConfig

def completionMessages (messages : List (List (String × String))) : PyValue :=
  .list (messages.map (fun fields =>
    message (fields.map (fun field => (field.1, .str field.2)))))

/-- A text or nothing. -/
def optional : Option String → PyValue
  | none => .none
  | some text => .str text

def published (queryId : String) : Call → Option PyValue
  | .requestLlmCompletion sid serviceId llmConfig messages =>
      some (message [("message_type", .str "llm_completion"), ("query_id", .str queryId),
        ("sid", .str sid), ("service_id", .str serviceId), ("llm_config", llmConfigObject llmConfig),
        ("message", completionMessages messages)])
  | .sendEventToConversation sid data =>
      if sid = "" then none
      else some (message [("message_type", .str "event"), ("sid", .str sid), ("data", .dict data)])
  | .closeSession sid => some (message [("message_type", .str "close_session"), ("sid", .str sid)])
  | .sessionClosing sid userId =>
      some (message [("sid", .str sid), ("message_type", .str "session_closing"),
        ("user_id", optional userId)])
  | .answerCompletion queryId response =>
      some (message [("query_id", .str queryId), ("response", .str response),
        ("message_type", .str "llm_completion_response")])

/-! ## The receiver -/

/-- A node: the sessions it runs, its connections with their sessions, and the queries it waits
for. -/
structure Node where
  sessions : List String
  connections : List (String × String)
  queries : List String

/-- What a node does. -/
inductive Operation where
  | dispatch (sid data : PyValue)
  | closeSession (sid : PyValue)
  | conversationStopped (userId : PyValue) (connectionIds : List String)
  | requestCompletion (sid serviceId llmConfig messages queryId : PyValue)
  | resolve (queryId response : PyValue)
  | nothing

def isAmong (value : PyValue) (texts : List String) : Bool :=
  match value with
  | .str text => texts.contains text
  | _ => false

def Node.connectedTo (node : Node) (sid : PyValue) : List String :=
  (node.connections.filter (fun connection => isAmong sid [connection.2])).map Prod.fst

def field (data : PyValue) (name : String) : Except String PyValue :=
  match data with
  | .dict entries =>
      match OrderedDict.find (.str name) entries with
      | some value => .ok value
      | none => .error ("KeyError: '" ++ name ++ "'")
  | _ => .error "TypeError: indices must be integers or slices"

/-- What a node does with a message that it has read. -/
def processMessage (node : Node) (data : PyValue) : Except String Operation := do
  match ← field data "message_type" with
  | .str "event" =>
      let sid ← field data "sid"
      if isAmong sid node.sessions then return .dispatch sid (← field data "data")
      else return .nothing
  | .str "close_session" =>
      let sid ← field data "sid"
      if isAmong sid node.sessions then return .closeSession sid
      else return .nothing
  | .str "session_closing" =>
      let sid ← field data "sid"
      let userId ← field data "user_id"
      return .conversationStopped userId (node.connectedTo sid)
  | .str "llm_completion" =>
      let sid ← field data "sid"
      let serviceId ← field data "service_id"
      let messages ← field data "messages"
      let llmConfig ← field data "llm_config"
      let queryId ← field data "query_id"
      if isAmong sid node.sessions then
        return .requestCompletion sid serviceId llmConfig messages queryId
      else return .nothing
  | .str "llm_completion_response" =>
      let queryId ← field data "query_id"
      if isAmong queryId node.queries then return .resolve queryId (← field data "response")
      else return .nothing
  | _ => return .nothing

/-! ## What is asked -/

/-- What a call asks of the node that runs the session, or waits for the answer. -/
def requested (node : Node) (queryId : String) : Call → Operation
  | .requestLlmCompletion sid serviceId llmConfig messages =>
      .requestCompletion (.str sid) (.str serviceId) (llmConfigObject llmConfig)
        (completionMessages messages) (.str queryId)
  | .sendEventToConversation sid data => .dispatch (.str sid) (.dict data)
  | .closeSession sid => .closeSession (.str sid)
  | .sessionClosing sid userId => .conversationStopped (optional userId) (node.connectedTo (.str sid))
  | .answerCompletion queryId response => .resolve (.str queryId) (.str response)

/-- The node is one that a call is for: it runs the session, or waits for the answer. -/
def Addressed (node : Node) : Call → Prop
  | .requestLlmCompletion sid _ _ _ => sid ∈ node.sessions
  | .sendEventToConversation sid _ => sid ∈ node.sessions
  | .closeSession sid => sid ∈ node.sessions
  | .sessionClosing _ _ => True
  | .answerCompletion queryId _ => queryId ∈ node.queries

/-- What a call comes to at the node that makes it. -/
inductive Sending where
  | nothing
  | perform (operation : Operation)
  | publish (document : Json)

def publish (queryId : String) (call : Call) : Except String Sending :=
  match published queryId call with
  | none => .ok .nothing
  | some sent => do return .publish (← dumps sent)

def Node.requestLlmCompletion (node : Node) (queryId sid serviceId llmConfig : String)
    (messages : List (List (String × String))) : Except String Sending :=
  let call : Call := .requestLlmCompletion sid serviceId llmConfig messages
  if sid ∈ node.sessions then .ok (.perform (requested node queryId call))
  else publish queryId call

def Node.sendEventToConversation (node : Node) (queryId sid : String)
    (data : List (Key × PyValue)) : Except String Sending :=
  let call : Call := .sendEventToConversation sid data
  if sid = "" then .ok .nothing
  else if sid ∈ node.sessions then .ok (.perform (requested node queryId call))
  else publish queryId call

/-- What is done in the end, with a node that runs the session. -/
def delivered (runner : Node) : Sending → Except String Operation
  | .nothing => .ok .nothing
  | .perform operation => .ok operation
  | .publish document => processMessage runner (loads document)

/-- What a call publishes can be written, and the node does what was asked with the values that
were given. -/
def Understood (node : Node) (queryId : String) (call : Call) : Prop :=
  ∀ sent, published queryId call = some sent → ∃ document, dumps sent = .ok document ∧
    processMessage node (loads document) = .ok (requested node queryId call)

mutual

/-- A value that a document gives back as it is: keys are texts, integers can be printed, and
neither tuples nor objects of other classes stand anywhere in it. -/
def plain : PyValue → Bool
  | .none | .bool _ | .float _ | .str _ => true
  | .int value => printable value
  | .list items => plainItems items
  | .tuple _ => false
  | .dict entries => decide (entries.map Prod.fst).Nodup && plainEntries entries
  | .object _ _ => false

/-- Every item of a list is plain. -/
def plainItems : List PyValue → Bool
  | [] => true
  | item :: rest => plain item && plainItems rest

/-- Every key of a mapping is a text and every value is plain. -/
def plainEntries : List (Key × PyValue) → Bool
  | [] => true
  | (.str _, value) :: rest => plain value && plainEntries rest
  | _ :: _ => false

end

/-- The calls whose messages are understood. -/
def Conveyed : Call → Prop
  | .requestLlmCompletion _ _ _ _ => False
  | .sendEventToConversation sid data => sid = "" ∨ plain (.dict data) = true
  | .closeSession _ => True
  | .sessionClosing _ _ => True
  | .answerCompletion _ _ => True

/-! ## What a document gives back -/

variable (node : Node) (entries : List (Key × PyValue))

/-- Collecting has at most one entry for each entry, and exactly one for each when they keep their
keys apart. -/
theorem collect_length : (collect entries).entries.length ≤ entries.length ∧
      ((collect entries).entries.length = entries.length →
        (collect entries).entries = entries) := by
  induction entries using reverseRecOn with
  | nil => exact ⟨Nat.le_refl 0, fun _ => rfl⟩
  | append_singleton earlier entry ih =>
    obtain ⟨shorter, same⟩ := ih
    have last : collect (earlier ++ [entry]) = (collect earlier).set entry.1 entry.2 := by
      rw [collect, foldl_append]
      rfl
    have keysLast := keys_set (collect earlier) entry.1 entry.2
    have lengths := congrArg length keysLast
    rw [last]
    by_cases present : entry.1 ∈ (collect earlier).keys
    · rw [if_pos present] at lengths
      simp only [OrderedDict.keys, length_map] at lengths
      rw [lengths, length_append, length_singleton]
      exact ⟨by omega, fun equal => absurd equal (by omega)⟩
    · rw [entries_set_of_absent _ _ _ present]
      simp only [length_append, length_singleton]
      refine ⟨by omega, fun equal => ?_⟩
      rw [same (by omega)]

/-- Entries whose keys are apart are collected as they are. -/
theorem collect_distinct (distinct : (entries.map Prod.fst).Nodup) :
    (collect entries).entries = entries := by
  induction entries using reverseRecOn with
  | nil => rfl
  | append_singleton earlier entry ih =>
    rw [map_append] at distinct
    obtain ⟨before, -, apart⟩ := nodup_append.mp distinct
    have absent : entry.1 ∉ (collect earlier).keys := by
      rw [OrderedDict.keys, ih before]
      exact fun present => apart _ present _ (.head _) rfl
    have last : collect (earlier ++ [entry]) = (collect earlier).set entry.1 entry.2 := by
      rw [collect, foldl_append]
      rfl
    rw [last, entries_set_of_absent _ _ _ absent, ih before]

/-- The document of a value gives the value back. -/
def Returns (value : PyValue) : Prop := ∃ document, dumps value = .ok document ∧ loads document = value

/-- The documents of the items of a list give the items back. -/
def ReturnsItems (items : List PyValue) : Prop :=
  ∃ documents, dumpsItems items = .ok documents ∧ loadsItems documents = items

/-- The documents of the entries of a mapping give the entries back. -/
def ReturnsEntries (entries : List (Key × PyValue)) : Prop :=
  ∃ documents, dumpsEntries entries = .ok documents ∧ loadsEntries documents = entries

/-- A list of items gives them back when its first item and the others do. -/
theorem returns_items_cons (item : PyValue) (rest : List PyValue) :
    ReturnsItems (item :: rest) ↔ Returns item ∧ ReturnsItems rest := by
  constructor
  · rintro ⟨documents, written, read⟩
    obtain ⟨first, firstWritten, written⟩ := bind_eq_ok _ _ written
    obtain ⟨others, othersWritten, written⟩ := bind_eq_ok _ _ written
    cases written
    obtain ⟨firstRead, othersRead⟩ := cons.inj read
    exact ⟨⟨first, firstWritten, firstRead⟩, others, othersWritten, othersRead⟩
  · rintro ⟨⟨first, firstWritten, firstRead⟩, others, othersWritten, othersRead⟩
    refine ⟨first :: others, ?_, ?_⟩
    · rw [dumpsItems, firstWritten, othersWritten]
      rfl
    · rw [loadsItems, firstRead, othersRead]

/-- Entries are given back when the first key is a text, and its value and the other entries are
given back. -/
theorem returns_entries_cons (key : Key) (value : PyValue) (rest : List (Key × PyValue)) :
    ReturnsEntries ((key, value) :: rest) ↔
      (∃ text, key = .str text) ∧ Returns value ∧ ReturnsEntries rest := by
  constructor
  · rintro ⟨documents, written, read⟩
    obtain ⟨name, named, written⟩ := bind_eq_ok _ _ written
    obtain ⟨first, firstWritten, written⟩ := bind_eq_ok _ _ written
    obtain ⟨others, othersWritten, written⟩ := bind_eq_ok _ _ written
    cases written
    obtain ⟨entryRead, othersRead⟩ := cons.inj read
    obtain ⟨keyRead, firstRead⟩ := Prod.mk.inj entryRead
    exact ⟨⟨name, keyRead.symm⟩, ⟨first, firstWritten, firstRead⟩, others, othersWritten,
      othersRead⟩
  · rintro ⟨⟨text, rfl⟩, ⟨first, firstWritten, firstRead⟩, others, othersWritten, othersRead⟩
    refine ⟨(text, first) :: others, ?_, ?_⟩
    · rw [dumpsEntries, firstWritten, othersWritten]
      rfl
    · rw [loadsEntries, firstRead, othersRead]

theorem dumps_entries_length (documents : List (String × Json))
    (written : dumpsEntries entries = .ok documents) :
    (loadsEntries documents).length = entries.length := by
  induction entries generalizing documents with
  | nil =>
    cases written
    rfl
  | cons entry rest ih =>
    obtain ⟨key, value⟩ := entry
    obtain ⟨name, -, written⟩ := bind_eq_ok _ _ written
    obtain ⟨first, -, written⟩ := bind_eq_ok _ _ written
    obtain ⟨others, othersWritten, written⟩ := bind_eq_ok _ _ written
    cases written
    rw [loadsEntries, length_cons, length_cons, ih others othersWritten]

/-- A mapping is given back when its keys are apart and its entries are given back. -/
theorem returns_dict :
    Returns (.dict entries) ↔ (entries.map Prod.fst).Nodup ∧ ReturnsEntries entries := by
  constructor
  · rintro ⟨document, written, read⟩
    obtain ⟨documents, entriesWritten, written⟩ := bind_eq_ok _ _ written
    cases written
    have collected : (collect (loadsEntries documents)).entries = entries := by
      simpa [loads] using read
    have same : (collect (loadsEntries documents)).entries = loadsEntries documents := by
      refine (collect_length ..).2 ?_
      rw [collected, dumps_entries_length _ _ entriesWritten]
    refine ⟨?_, documents, entriesWritten, same.symm.trans collected⟩
    rw [← collected]
    exact (collect (loadsEntries documents)).distinct
  · rintro ⟨distinct, documents, entriesWritten, entriesRead⟩
    refine ⟨.object documents, ?_, ?_⟩
    · rw [dumps, entriesWritten]
      rfl
    · rw [loads, entriesRead, collect_distinct _ distinct]

variable (items : List PyValue)

/-- A list is given back when its items are. -/
theorem returns_list : Returns (.list items) ↔ ReturnsItems items := by
  constructor
  · rintro ⟨document, written, read⟩
    obtain ⟨documents, itemsWritten, written⟩ := bind_eq_ok _ _ written
    cases written
    exact ⟨documents, itemsWritten, by simpa [loads] using read⟩
  · rintro ⟨documents, itemsWritten, itemsRead⟩
    refine ⟨.array documents, ?_, ?_⟩
    · rw [dumps, itemsWritten]
      rfl
    · rw [loads, itemsRead]

/-- An integer is given back when it can be printed. -/
theorem returns_int (value : Int) : Returns (.int value) ↔ printable value = true := by
  constructor
  · rintro ⟨document, written, -⟩
    obtain ⟨text, printed, -⟩ := bind_eq_ok _ _ written
    unfold intText at printed
    split at printed
    · assumption
    · cases printed
  · intro printed
    refine ⟨.int value, ?_, rfl⟩
    rw [dumps, intText, if_pos printed]
    rfl

/-- A tuple is not given back. -/
theorem returns_tuple : ¬ Returns (.tuple items) := by
  rintro ⟨document, written, read⟩
  obtain ⟨documents, -, written⟩ := bind_eq_ok _ _ written
  cases written
  simp [loads] at read

mutual

/-- A document gives a value back exactly when the value is plain. -/
theorem returns_iff_plain (value : PyValue) : Returns value ↔ plain value = true := by
  match value with
  | .none => exact ⟨fun _ => rfl, fun _ => ⟨_, rfl, rfl⟩⟩
  | .bool _ => exact ⟨fun _ => rfl, fun _ => ⟨_, rfl, rfl⟩⟩
  | .float _ => exact ⟨fun _ => rfl, fun _ => ⟨_, rfl, rfl⟩⟩
  | .str _ => exact ⟨fun _ => rfl, fun _ => ⟨_, rfl, rfl⟩⟩
  | .int number => rw [returns_int, plain]
  | .list items =>
    rw [returns_list, plain]
    exact returns_items_iff_plain _
  | .tuple items =>
    rw [plain]
    exact iff_of_false (returns_tuple _) Bool.false_ne_true
  | .dict entries =>
    rw [returns_dict, plain, Bool.and_eq_true, decide_eq_true_eq]
    exact and_congr_right fun _ => returns_entries_iff_plain ..
  | .object className printed =>
    rw [plain]
    refine iff_of_false ?_ Bool.false_ne_true
    rintro ⟨document, ⟨⟩, -⟩

/-- Documents give items back exactly when each is plain. -/
theorem returns_items_iff_plain (items : List PyValue) :
    ReturnsItems items ↔ plainItems items = true := by
  match items with
  | [] => exact ⟨fun _ => rfl, fun _ => ⟨[], rfl, rfl⟩⟩
  | item :: rest =>
    rw [returns_items_cons, plainItems, Bool.and_eq_true]
    exact and_congr (returns_iff_plain _) (returns_items_iff_plain _)

/-- Documents give entries back exactly when their keys are texts and their values are plain. -/
theorem returns_entries_iff_plain (entries : List (Key × PyValue)) :
    ReturnsEntries entries ↔ plainEntries entries = true := by
  match entries with
  | [] => exact ⟨fun _ => rfl, fun _ => ⟨[], rfl, rfl⟩⟩
  | (.str text, value) :: rest =>
    rw [returns_entries_cons, plainEntries, Bool.and_eq_true]
    constructor
    · rintro ⟨-, returns, others⟩
      exact ⟨(returns_iff_plain _).mp returns, (returns_entries_iff_plain _).mp others⟩
    · rintro ⟨isPlain, others⟩
      exact ⟨⟨text, rfl⟩, (returns_iff_plain _).mpr isPlain,
        (returns_entries_iff_plain _).mpr others⟩
  | (.int _, _) :: _ => simp [returns_entries_cons, plainEntries]
  | (.float _, _) :: _ => simp [returns_entries_cons, plainEntries]
  | (.bool _, _) :: _ => simp [returns_entries_cons, plainEntries]
  | (.none, _) :: _ => simp [returns_entries_cons, plainEntries]
  | (.object _ _, _) :: _ => simp [returns_entries_cons, plainEntries]

end

/-! ## The messages -/

theorem is_among_of_mem {text : String} {texts : List String} (member : text ∈ texts) :
    isAmong (.str text) texts = true := contains_iff_mem.mpr member

/-- A plain message is processed as it was sent. -/
theorem understood_of_plain {node : Node} {queryId : String} {call : Call}
    (isPlain : ∀ sent, published queryId call = some sent → plain sent = true)
    (processed : ∀ sent, published queryId call = some sent →
      processMessage node sent = .ok (requested node queryId call)) :
    Understood node queryId call := by
  intro sent publishes
  obtain ⟨document, written, read⟩ := (returns_iff_plain _).mpr (isPlain sent publishes)
  refine ⟨document, written, ?_⟩
  rw [read]
  exact processed sent publishes

/-- The document of an event message holds the document of its data. -/
theorem event_document (sid : String) {data : PyValue} {document : Json}
    (whole : dumps (message [("message_type", .str "event"), ("sid", .str sid), ("data", data)]) =
      .ok document) :
    ∃ inner, dumps data = .ok inner ∧ loads document =
      message [("message_type", .str "event"), ("sid", .str sid), ("data", loads inner)] := by
  rw [message, dumps] at whole
  obtain ⟨entries, written, last⟩ := bind_eq_ok _ _ whole
  cases last
  cases inner : dumps data with
  | error raised => simp [dumpsEntries, Key.dumps, dumps, inner, bind, Except.bind] at written
  | ok document =>
    refine ⟨document, rfl, ?_⟩
    simp only [map_cons, map_nil, dumpsEntries, Key.dumps, dumps, inner, bind,
      Except.bind, pure, Except.pure, Except.ok.injEq] at written
    subst written
    rw [loads, collect_distinct]
    · rfl
    · simp [loadsEntries]

theorem process_event (sid : String) (data : PyValue) (runs : sid ∈ node.sessions) :
    processMessage node (message [("message_type", .str "event"), ("sid", .str sid),
      ("data", data)]) = .ok (.dispatch (.str sid) data) := by
  simp [processMessage, field, message, find, is_among_of_mem runs,
    bind, Except.bind, pure, Except.pure]

theorem completion_unwritten {queryId sid serviceId llmConfig : String}
    {messages : List (List (String × String))} {sent : PyValue}
    (publishes : published queryId (.requestLlmCompletion sid serviceId llmConfig messages) =
      some sent) :
    dumps sent = .error "Object of type LLMConfig is not JSON serializable" := by
  cases publishes
  simp [message, dumps, dumpsEntries, Key.dumps, llmConfigObject, bind, Except.bind]

variable (queryId sid : String)

/-- An event is understood exactly when its data is plain. -/
theorem event_understood (data : List (Key × PyValue)) (runs : sid ∈ node.sessions) :
    Understood node queryId (.sendEventToConversation sid data) ↔
      sid = "" ∨ plain (.dict data) = true := by
  by_cases empty : sid = ""
  · refine iff_of_true ?_ (.inl empty)
    intro sent publishes
    simp [published, empty] at publishes
  have publishes : published queryId (.sendEventToConversation sid data) =
      some (message [("message_type", .str "event"), ("sid", .str sid), ("data", .dict data)]) :=
    if_neg empty
  constructor
  · intro understood
    obtain ⟨document, written, processed⟩ := understood _ publishes
    obtain ⟨inner, innerWritten, read⟩ := event_document sid written
    rw [read, process_event _ sid _ runs] at processed
    have same : loads inner = .dict data := by
      simpa [requested] using processed
    exact .inr ((returns_iff_plain _).mp ⟨inner, innerWritten, same⟩)
  · rintro (nothing | isPlain)
    · exact absurd nothing empty
    · refine understood_of_plain ?_ ?_ <;> (intro sent sends; rw [publishes] at sends; cases sends)
      · simp [message, plain, plainEntries] at isPlain ⊢
        exact isPlain
      · exact process_event _ sid _ runs

variable (userId : Option String)

/-- The fields of the other messages are texts or nothing. -/
theorem optional_plain : plain (optional userId) = true := by
  cases userId <;> rfl

theorem close_understood (runs : sid ∈ node.sessions) :
    Understood node queryId (.closeSession sid) := by
  refine understood_of_plain ?_ ?_ <;> (intro sent publishes; cases publishes)
  · simp [message, plain, plainEntries]
  · simp [processMessage, field, message, find,
      is_among_of_mem runs, requested, bind, Except.bind, pure, Except.pure]

theorem closing_understood : Understood node queryId (.sessionClosing sid userId) := by
  refine understood_of_plain ?_ ?_ <;> (intro sent publishes; cases publishes)
  · simp [message, plain, plainEntries, optional_plain]
  · simp [processMessage, field, message, find, requested, bind, Except.bind, pure,
      Except.pure]

theorem answer_understood (queryId answered response : String) (waits : answered ∈ node.queries) :
    Understood node queryId (.answerCompletion answered response) := by
  refine understood_of_plain ?_ ?_ <;> (intro sent publishes; cases publishes)
  · simp [message, plain, plainEntries]
  · simp [processMessage, field, message, find,
      is_among_of_mem waits, requested, bind, Except.bind, pure, Except.pure]

/-- An event that a node sends to a session elsewhere comes to what it comes to at the node that
runs the session exactly when its data is plain. -/
theorem event_delivered (sender node : Node) (queryId sid : String)
    (data : List (Key × PyValue)) (elsewhere : sid ∉ sender.sessions) (runs : sid ∈ node.sessions) :
    ((sender.sendEventToConversation queryId sid data >>= delivered node) =
        (node.sendEventToConversation queryId sid data >>= delivered node)) ↔
      sid = "" ∨ plain (.dict data) = true := by
  by_cases empty : sid = ""
  · simp [Node.sendEventToConversation, empty]
  have publishes : published queryId (.sendEventToConversation sid data) =
      some (message [("message_type", .str "event"), ("sid", .str sid), ("data", .dict data)]) :=
    if_neg empty
  have here : (node.sendEventToConversation queryId sid data >>= delivered node) =
      .ok (.dispatch (.str sid) (.dict data)) := by
    rw [Node.sendEventToConversation, if_neg empty, if_pos runs]
    rfl
  have there : sender.sendEventToConversation queryId sid data =
      (dumps (message [("message_type", .str "event"), ("sid", .str sid), ("data", .dict data)]) >>=
        fun document => .ok (.publish document)) := by
    rw [Node.sendEventToConversation, if_neg empty, if_neg elsewhere, publish, publishes]
    rfl
  rw [← event_understood _ _ sid _ runs, here, there]
  constructor
  · intro same sent sends
    rw [publishes] at sends
    cases sends
    obtain ⟨sending, sends, delivers⟩ := bind_eq_ok _ _ same
    obtain ⟨document, written, publishedThere⟩ := bind_eq_ok _ _ sends
    cases publishedThere
    exact ⟨document, written, delivers⟩
  · intro understood
    obtain ⟨document, written, processed⟩ := understood _ publishes
    rw [written]
    exact processed

/-- The messages of every call but a request for a completion are understood, events exactly when
their data is plain; an event to a session elsewhere comes to the same as at the node that runs
it exactly then, and a request for a completion from a session elsewhere raises. -/
theorem messages_understood (node : Node) (queryId : String) (call : Call)
    (addressed : Addressed node call) :
    (Understood node queryId call ↔ Conveyed call) ∧
    (∀ (sender : Node) sid data, call = .sendEventToConversation sid data → sid ∉ sender.sessions →
        ((sender.sendEventToConversation queryId sid data >>= delivered node) =
            (node.sendEventToConversation queryId sid data >>= delivered node) ↔
          Conveyed call)) ∧
    (∀ (sender : Node) sid serviceId llmConfig messages,
      call = .requestLlmCompletion sid serviceId llmConfig messages → sid ∉ sender.sessions →
        (sender.requestLlmCompletion queryId sid serviceId llmConfig messages >>= delivered node) =
          .error "Object of type LLMConfig is not JSON serializable") := by
  refine ⟨?_, ?_, ?_⟩
  · cases call with
    | requestLlmCompletion sid serviceId llmConfig messages =>
      refine iff_of_false ?_ id
      intro understood
      obtain ⟨document, written, -⟩ := understood _ rfl
      rw [completion_unwritten rfl] at written
      cases written
    | sendEventToConversation sid data => exact event_understood _ _ sid _ addressed
    | closeSession sid => exact iff_of_true (close_understood _ _ sid addressed) trivial
    | sessionClosing sid userId => exact iff_of_true (closing_understood _ _ sid _) trivial
    | answerCompletion answered response =>
      exact iff_of_true (answer_understood _ _ _ _ addressed) trivial
  · rintro sender sid data rfl elsewhere
    exact event_delivered _ _ _ sid _ elsewhere addressed
  · rintro sender sid serviceId llmConfig messages rfl elsewhere
    rw [Node.requestLlmCompletion, if_neg elsewhere, publish]
    dsimp [published]
    rw [completion_unwritten rfl]
    rfl

/-- A message that a user sends to a session elsewhere is understood. -/
theorem messages_understood_text :
    let data : List (Key × PyValue) := [(.str "action", .str "message"),
      (.str "args", .dict [(.str "content", .str "hello"), (.str "image_urls", .list [])])]
    Understood ⟨["conversation"], [], []⟩ "query" (.sendEventToConversation "conversation" data) := by
  intro data
  refine (messages_understood _ _ _ (List.mem_singleton_self _)).1.mpr (.inr ?_)
  decide

/-- The message of a completion that is requested from a session elsewhere cannot be written. -/
theorem messages_misunderstood :
    ¬ (∀ (node : Node) (queryId : String) (call : Call), Addressed node call →
      Understood node queryId call) := by
  intro always
  obtain ⟨document, ⟨⟩, -⟩ := always ⟨["conversation"], [], []⟩ "query"
    (.requestLlmCompletion "conversation" "title" "gpt" []) (.head _) _ rfl

end ForgePilot.ClusterMessages
