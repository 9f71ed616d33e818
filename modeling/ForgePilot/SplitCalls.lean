import ForgePilot.FnCallConverter

/-!
# Messages with one call each

A message with several calls is split into one message for each call. These wait in a mapping until the results of
their calls arrive, in whatever order, and each is put before its result.
-/

namespace ForgePilot.FnCalls

open List OrderedDict

/-- Why messages cannot be split, with what the message of the error prints. -/
inductive SplitFailure where
  | missingKey (key : String)
  | notInPendingList (pending : OrderedDict Text Message)
  | unexpectedRole (role : Role) (pending : OrderedDict Text Message) (message : Message)
  | noToolResult (pending : OrderedDict Text Message)

structure Splitting where
  converted : List Message := []
  pending : OrderedDict Text Message := .empty

def Message.calls (message : Message) : List ToolCall := message.toolCalls.getD []

/-- The message of one call. -/
def single (content : Option Content) (call : ToolCall) : Message where
  role := .assistant
  content := content
  toolCalls := some [call]

def noText : Option Content := some (.text [])

/-- Let the messages of calls wait; the first of them has the content. -/
def awaitResults (content : Option Content) (pending : OrderedDict Text Message) :
    List ToolCall → Except SplitFailure (OrderedDict Text Message)
  | [] => .ok pending
  | call :: rest =>
    match call.id with
    | none => .error (.missingKey "id")
    | some id => awaitResults noText (pending.set id (single content call)) rest

def splitMessage (splitting : Splitting) (message : Message) : Except SplitFailure Splitting :=
  let kept : Splitting := { splitting with converted := splitting.converted ++ [message] }
  match message.role with
  | .assistant =>
    if 1 < message.calls.length then
      (awaitResults message.content splitting.pending message.calls).map ({ splitting with pending := · })
    else .ok kept
  | .tool =>
    match message.toolCallId with
    | none => .error (.missingKey "tool_call_id")
    | some id =>
      match splitting.pending.get id with
      | some waiting => .ok ⟨splitting.converted ++ [waiting, message], splitting.pending.erase id⟩
      | none => if splitting.pending.entries.isEmpty then .ok kept else .error (.notInPendingList splitting.pending)
  | role =>
    if splitting.pending.entries.isEmpty then .ok kept
    else .error (.unexpectedRole role splitting.pending message)

def convertFromMultipleToolCallsToSingleToolCallMessages (messages : List Message) (ignoreFinalToolResult : Bool) :
    Except SplitFailure (List Message) := do
  let splitting ← messages.foldlM splitMessage {}
  if ignoreFinalToolResult = false ∧ splitting.pending.entries.isEmpty = false then
    .error (.noToolResult splitting.pending)
  else .ok splitting.converted

/-! ## What the messages are split into -/

/-- A message of the assistant with several calls. -/
def Message.Several (message : Message) : Prop := message.role = .assistant ∧ 1 < message.calls.length

instance (message : Message) : Decidable message.Several := inferInstanceAs (Decidable (_ ∧ _))

/-- The results of tools name their calls, and behind a message with several calls there is one result for each of
these, in any order. -/
def Answered : List Message → Prop
  | [] => True
  | message :: after =>
    (message.role = .tool → message.toolCallId ≠ none) ∧
    (message.Several → (message.calls.map ToolCall.id).Nodup ∧
      (∀ result ∈ after.take message.calls.length, result.role = .tool) ∧
      ((after.take message.calls.length).map Message.toolCallId).Perm (message.calls.map ToolCall.id)) ∧
    Answered after

/-- One message for each call; the first of them has the content. -/
def singles (content : Option Content) : List ToolCall → List Message
  | [] => []
  | call :: rest => single content call :: singles noText rest

/-- The messages of the assistant that a message is split into. -/
def Message.parts (message : Message) : List Message :=
  if message.Several then singles message.content message.calls
  else if message.role = .assistant then [message] else []

/-- A message of a call stands right before the result of this call. -/
def Adjoined (output : List Message) (message : Message) : Prop :=
  ∃ before result after, output = before ++ message :: result :: after ∧ result.role = .tool ∧
    message.calls.map ToolCall.id = [result.toolCallId]

/-- The messages are split, with those of the pending calls. -/
structure Split (pending messages output : List Message) : Prop where
  oneCall : ∀ message ∈ output, ¬ message.Several
  others : output.filter (·.role ≠ .assistant) = messages.filter (·.role ≠ .assistant)
  parts : (output.filter (·.role = .assistant)).Perm (pending ++ messages.flatMap Message.parts)
  pending : ∀ message ∈ pending, Adjoined output message
  adjoined : ∀ message ∈ messages, message.Several → ∀ part ∈ message.parts, Adjoined output part

theorem adjoined_cons (output : List Message) (message first : Message) (adjoined : Adjoined output message) :
    Adjoined (first :: output) message := by
  obtain ⟨before, result, after, rfl, rest⟩ := adjoined
  exact ⟨first :: before, result, after, rfl, rest⟩

/-- Pending messages are those of the calls they are filed under. -/
def FiledCalls (pending : OrderedDict Text Message) : Prop :=
  ∀ id message, pending.get id = some message → ∃ content call, message = single content call ∧ call.id = some id

/-- The next messages are the results of the pending calls. -/
def Ready (pending : OrderedDict Text Message) (messages : List Message) : Prop :=
  (∀ result ∈ messages.take pending.keys.length, result.role = .tool) ∧
    ((messages.take pending.keys.length).map Message.toolCallId).Perm (pending.keys.map some)

variable (messages : List Message) (splitting : Splitting) (message : Message)
  (content : Option Content)

theorem await_results_spec (pending : OrderedDict Text Message) (calls : List ToolCall)
    (ids : List Text) (named : calls.map ToolCall.id = ids.map some)
    (fresh : (pending.keys ++ ids).Nodup) (filed : FiledCalls pending) :
    ∃ next, awaitResults content pending calls = .ok next ∧ next.keys = pending.keys ++ ids ∧
      next.values = pending.values ++ singles content calls ∧ FiledCalls next := by
  induction calls generalizing content pending ids with
  | nil =>
    obtain rfl : ids = [] := map_eq_nil_iff.mp named.symm
    exact ⟨pending, rfl, by simp, by simp [singles], filed⟩
  | cons call rest ih =>
    obtain ⟨id, ids, rfl⟩ : ∃ id others, ids = id :: others := by
      cases ids with
      | nil => cases named
      | cons id others => exact ⟨id, others, rfl⟩
    obtain ⟨same, others⟩ := cons.inj named
    have absent : id ∉ pending.keys :=
      fun present => (nodup_append.mp fresh).2.2 id present id (.head _) rfl
    have grown := entries_set_of_absent pending id (single content call) absent
    have keys : (pending.set id (single content call)).keys = pending.keys ++ [id] := by
      rw [OrderedDict.keys, grown, map_append]
      rfl
    obtain ⟨next, awaited, nextKeys, nextValues, nextFiled⟩ := ih noText (pending.set id (single content call)) ids
      others (by rwa [keys, append_assoc]) (by
        intro other message found
        rw [get_set] at found
        split at found
        case isTrue equal =>
          obtain rfl := Option.some.inj found
          exact ⟨content, call, rfl, equal ▸ same⟩
        case isFalse => exact filed other message found)
    refine ⟨next, by rw [awaitResults, same]; exact awaited,
      by rw [nextKeys, keys, append_assoc]; rfl, ?_, nextFiled⟩
    rw [nextValues, values, grown, map_append, append_assoc]
    rfl

/-- What is found under a key, and what is left without it, is the whole. -/
theorem erase_perm {κ ν : Type} [DecidableEq κ] (dict : OrderedDict κ ν) (key : κ) (value : ν)
    (found : dict.get key = some value) : dict.entries.Perm ((key, value) :: (dict.erase key).entries) := by
  have distinct := dict.distinct.of_map
  have away : (key, value) ∉ (dict.erase key).entries := by simp [erase]
  refine (perm_ext_iff_of_nodup distinct (nodup_cons.mpr ⟨away, (dict.erase key).distinct.of_map⟩)).mpr ?_
  rintro ⟨other, held⟩
  have here := get_eq_some_iff dict other held
  have left := get_eq_some_iff (dict.erase key) other held
  rw [← here, mem_cons, ← left, get_erase]
  by_cases same : other = key
  · subst same
    simp [found, eq_comm]
  · simp [same]

/-! ## One message after the other -/

theorem split_message_kept (none_waits : splitting.pending.entries = [])
    (named : message.role = .tool → message.toolCallId ≠ none) (few : ¬ message.Several) :
    splitMessage splitting message = .ok { splitting with converted := splitting.converted ++ [message] } := by
  have absent (id : Text) : splitting.pending.get id = none := by
    rw [get_eq_none_iff, OrderedDict.keys, none_waits]
    exact not_mem_nil
  rw [splitMessage]
  cases from_ : message.role with
  | assistant => exact if_neg fun many => few ⟨from_, many⟩
  | tool =>
    cases id : message.toolCallId with
    | none => exact absurd id (named from_)
    | some id => simp [absent, none_waits]
  | system | user | other name => simp [none_waits]

/-- The messages of the calls of a message wait. -/
theorem split_message_several (several : message.Several) : splitMessage splitting message =
      (awaitResults message.content splitting.pending message.calls).map ({ splitting with pending := · }) := by
  rw [splitMessage, several.1]
  exact if_pos several.2

theorem split_message_result (waiting : Message) (id : Text) (tool : message.role = .tool)
    (named : message.toolCallId = some id) (found : splitting.pending.get id = some waiting) :
    splitMessage splitting message =
      .ok ⟨splitting.converted ++ [waiting, message], splitting.pending.erase id⟩ := by
  simp [splitMessage, tool, named, found]

theorem single_few (call : ToolCall) : ¬ (single content call).Several := by
  rintro ⟨-, many⟩
  exact Nat.lt_irrefl 1 many

theorem split_kept (after output : List Message) (few : ¬ message.Several)
    (split : Split [] after output) : Split [] (message :: after) (message :: output) where
  oneCall := forall_mem_cons.mpr ⟨few, split.oneCall⟩
  others := by rw [filter_cons, filter_cons, split.others]
  parts := by
    rw [nil_append, flatMap_cons, Message.parts, if_neg few, filter_cons]
    by_cases assistant : message.role = .assistant
    · simpa [assistant] using split.parts
    · simpa [assistant] using split.parts
  pending := nofun
  adjoined := forall_mem_cons.mpr ⟨fun several => absurd several few, fun other member several part inside =>
    adjoined_cons _ _ _ (split.adjoined other member several part inside)⟩

theorem split_result (waiting message : Message) (pending after output : List Message) (tool : message.role = .tool)
    (own : ∃ content call, waiting = single content call ∧ call.id = message.toolCallId)
    (split : Split pending after output) :
    Split (waiting :: pending) (message :: after) (waiting :: message :: output) := by
  obtain ⟨content, call, rfl, same⟩ := own
  have deeper (part : Message) (adjoined : Adjoined output part) :
      Adjoined (single content call :: message :: output) part :=
    adjoined_cons _ _ _ (adjoined_cons _ _ _ adjoined)
  have asks : (single content call).role = .assistant := rfl
  have few : ¬ message.Several := fun several => by cases tool.symm.trans several.1
  refine ⟨?_, ?_, ?_, ?_, ?_⟩
  · exact forall_mem_cons.mpr ⟨single_few _ _, forall_mem_cons.mpr ⟨few, split.oneCall⟩⟩
  · simpa [filter_cons, asks, tool] using split.others
  · simpa [filter_cons, asks, tool, Message.parts, few] using split.parts
  · exact forall_mem_cons.mpr ⟨⟨[], message, output, rfl, tool, congrArg (fun id => [id]) same⟩,
      fun part inside => deeper part (split.pending part inside)⟩
  · exact forall_mem_cons.mpr ⟨fun several => absurd several few, fun other member several part inside =>
      deeper part (split.adjoined other member several part inside)⟩

theorem split_several (after output : List Message) (several : message.Several)
    (split : Split (singles message.content message.calls) after output) :
    Split [] (message :: after) output := by
  have parts : message.parts = singles message.content message.calls := if_pos several
  refine ⟨split.oneCall, ?_, ?_, nofun, ?_⟩
  · rw [split.others, filter_cons_of_neg]
    simp [several.1]
  · rw [nil_append, flatMap_cons, parts]
    exact split.parts
  · exact forall_mem_cons.mpr ⟨fun _ part inside => split.pending part (parts ▸ inside), split.adjoined⟩

theorem split_perm (pending others after output : List Message) (permuted : pending.Perm others)
    (split : Split others after output) : Split pending after output where
  oneCall := split.oneCall
  others := split.others
  parts := split.parts.trans (permuted.symm.append_right _)
  pending part inside := split.pending part (permuted.mem_iff.mp inside)
  adjoined := split.adjoined

theorem answered_named (answered : Answered messages) :
    ∀ message ∈ messages, message.role = .tool → message.toolCallId ≠ none := by
  induction messages with
  | nil => nofun
  | cons message after ih => exact forall_mem_cons.mpr ⟨answered.1, ih answered.2.2⟩

theorem all_named (ids : List (Option Text)) (named : none ∉ ids) : ∃ names : List Text, ids = names.map some := by
  induction ids with
  | nil => exact ⟨[], rfl⟩
  | cons id rest ih =>
    obtain ⟨names, rfl⟩ := ih fun later => named (.tail _ later)
    cases id with
    | none => exact absurd (.head _) named
    | some name => exact ⟨name :: names, rfl⟩

/-- Messages whose results come next are all split. -/
theorem split_messages (answered : Answered messages) (filed : FiledCalls splitting.pending)
    (ready : Ready splitting.pending messages) :
    ∃ output last, messages.foldlM splitMessage splitting = .ok last ∧ last.pending.entries = [] ∧
      last.converted = splitting.converted ++ output ∧ Split splitting.pending.values messages output := by
  induction messages generalizing splitting with
  | nil =>
    have empty : splitting.pending.entries = [] := by
      simpa [Ready, OrderedDict.keys, eq_comm] using ready.2.length_eq
    refine ⟨[], splitting, rfl, empty, (append_nil _).symm, by simp, rfl, ?_, ?_, by simp⟩
    · simp [values, empty]
    · simp [values, empty]
  | cons message after ih =>
    obtain ⟨named, behind, rest⟩ := answered
    rw [foldlM_cons]
    by_cases waits : splitting.pending.entries = []
    · have values : splitting.pending.values = [] := by rw [values, waits]; rfl
      have keys : splitting.pending.keys = [] := by rw [OrderedDict.keys, waits]; rfl
      by_cases several : message.Several
      · obtain ⟨distinct, tools, permuted⟩ := behind several
        obtain ⟨ids, same⟩ : ∃ ids : List Text, message.calls.map ToolCall.id = ids.map some := by
          refine all_named _ fun nameless => ?_
          obtain ⟨result, inside, missing⟩ := mem_map.mp (permuted.mem_iff.mpr nameless)
          exact answered_named _ rest _ (mem_of_mem_take inside) (tools result inside) missing
        rw [same] at distinct permuted
        obtain ⟨next, awaited, nextKeys, nextValues, nextFiled⟩ := await_results_spec _ _ _ ids same
            (by rw [keys]; exact distinct.of_map) filed
        rw [keys, nil_append] at nextKeys
        rw [values, nil_append] at nextValues
        have count : next.keys.length = message.calls.length := by
          rw [nextKeys, ← length_map some, ← same, length_map]
        obtain ⟨output, last, ran, empty, grown, split⟩ := ih { splitting with pending := next } rest nextFiled
          ⟨by rwa [count], by rwa [count, nextKeys]⟩
        rw [split_message_several _ _ several, awaited, values]
        exact ⟨output, last, ran, empty, grown, split_several _ _ _ several (nextValues ▸ split)⟩
      · rw [split_message_kept _ _ waits named several]
        obtain ⟨output, last, ran, empty, grown, split⟩ :=
          ih { splitting with converted := splitting.converted ++ [message] } rest filed (by simp [Ready, keys])
        rw [values] at split ⊢
        exact ⟨message :: output, last, ran, empty, grown.trans (append_assoc _ _ _),
          split_kept _ _ _ several split⟩
    · obtain ⟨count, more⟩ : ∃ count, splitting.pending.keys.length = count + 1 :=
        Nat.exists_eq_succ_of_ne_zero (by simpa [OrderedDict.keys] using waits)
      obtain ⟨tools, permuted⟩ := ready
      rw [more, take_succ_cons] at tools permuted
      obtain ⟨id, present, same⟩ := mem_map.mp (permuted.mem_iff.mp (.head _))
      obtain ⟨waiting, found⟩ := (mem_keys_iff _ id).mp present
      have tool := tools message (.head _)
      have apart := erase_perm _ id _ found
      have keys : splitting.pending.keys.Perm (id :: (splitting.pending.erase id).keys) := apart.map Prod.fst
      have less : (splitting.pending.erase id).keys.length = count :=
        Nat.succ.inj (keys.length_eq.symm.trans more)
      obtain ⟨output, last, ran, empty, grown, split⟩ :=
        ih ⟨splitting.converted ++ [waiting, message], splitting.pending.erase id⟩ rest (by
          intro other held found
          rw [get_erase] at found
          split at found
          · cases found
          · exact filed other held found) ⟨by
          rw [less]
          exact fun result inside => tools result (.tail _ inside), by
          rw [less]
          refine List.Perm.cons_inv (a := some id) ?_
          rw [same]
          exact permuted.trans ((keys.map some).trans (by rw [map_cons, same]))⟩
      rw [split_message_result _ _ _ id tool same.symm found]
      obtain ⟨content, call, alone, identified⟩ := filed id waiting found
      exact ⟨waiting :: message :: output, last, ran, empty, grown.trans (append_assoc _ _ _),
        split_perm _ _ _ _ (apart.map Prod.snd)
          (split_result _ _ _ _ _ tool ⟨content, call, alone, identified.trans same⟩ split)⟩

/-! ## All messages -/

/-- Two calls whose results come in the other order. -/
def crossedMessages : List Message :=
  let call (id : Text) : ToolCall := ⟨none, some id, none, none⟩
  [{ role := .user, content := some (.text ['u']) },
    { role := .assistant, content := some (.text ['t']), toolCalls := some [call ['a'], call ['b']] },
    { role := .tool, content := some (.text ['y']), toolCallId := some ['b'] },
    { role := .tool, content := some (.text ['x']), toolCallId := some ['a'] }]

end ForgePilot.FnCalls
