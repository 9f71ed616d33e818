import ForgePilot.FnCallTexts
import Mathlib.Data.List.Forall2

/-!
# Conversations survive the conversion to text and back

A conversation has a system prompt, a first message of the user, and turns: more
messages of the user, plain messages of the assistant, and calls with their results.
Its texts and the values of its arguments contain no marker of the format. Converted
to text and back it is the same conversation, up to the index of a call and the
layout of the JSON of its arguments.

What the format cannot carry is left out: names that are empty or hold the characters
that end them. The reminder behind the first message is removed where it is first
found, so a first message must not end with all of the reminder but its last line
break.
-/

namespace ForgePilot.FnCalls

open Characters Patterns List

/-- A turn of a conversation; a call comes with its result. -/
inductive Turn where
  | user (text : Text)
  | plain (text : Text)
  | call (text name arguments result : Text)

/-- A message with a text and nothing else. -/
def textMessage (role : Role) (text : Text) : Message :=
  { role := role, content := some (.text text) }

def callMessage (index : Option Nat) (number : Nat) (text name arguments : Text) : Message :=
  { role := .assistant
    content := some (.text text)
    toolCalls := some [{
      index := index
      id := some (toolCallIdentifier number)
      type := some functionType
      function := some { name := name, arguments := arguments } }] }

def resultMessage (number : Nat) (name result : Text) : Message :=
  { role := .tool
    content := some (.text result)
    name := some name
    toolCallId := some (toolCallIdentifier number) }

def turnMessages : Nat → List Turn → List Message
  | _, [] => []
  | number, .user text :: rest => textMessage .user text :: turnMessages number rest
  | number, .plain text :: rest => textMessage .assistant text :: turnMessages number rest
  | number, .call text name arguments result :: rest =>
      callMessage none number text name arguments :: resultMessage number name result ::
        turnMessages (number + 1) rest

def conversation (system user : Text) (turns : List Turn) : List Message :=
  textMessage .system system :: textMessage .user user :: turnMessages 1 turns

/-- Two calls that differ at most in their index and the layout of their arguments. -/
structure SameCall (environment : Environment) (first second : ToolCall) : Prop where
  id : first.id = second.id
  type : first.type = second.type
  name : first.function.map Function.name = second.function.map Function.name
  arguments : first.function.map (fun function => environment.loads function.arguments) =
    second.function.map (fun function => environment.loads function.arguments)

/-- Two messages that differ at most in the index and the layout of their calls. -/
structure SameMessage (environment : Environment) (first second : Message) : Prop where
  role : first.role = second.role
  content : first.content = second.content
  name : first.name = second.name
  toolCallId : first.toolCallId = second.toolCallId
  cacheControl : first.cacheControl = second.cacheControl
  toolCalls : Option.Rel (List.Forall₂ (SameCall environment)) first.toolCalls second.toolCalls

/-- Both conversions succeed and give the conversation back. -/
def RoundTrips (environment : Environment) (tools : List Tool) (addExample : Bool)
    (messages : List Message) : Prop :=
  ∃ converted restored,
    convertFncallMessagesToNonFncallMessages environment messages tools addExample =
      .ok converted ∧
    convertNonFncallMessagesToFncallMessages environment converted tools = .ok restored ∧
    List.Forall₂ (SameMessage environment) messages restored

/-- The value of an argument has the type that is declared. -/
inductive Typed (property : Property) : Value → Prop where
  | string (text : String) (declared : property.typeName = some "string") :
      Typed property (.str text)
  | integer (value : Int) (declared : property.typeName = some "integer") :
      Typed property (.int value)
  | array (items : List Value) (declared : property.typeName = some "array") :
      Typed property (.list items)

/-- An argument that fits the declaration of its tool. -/
structure Fits (environment : Environment) (suffix : Text) (tool : Tool)
    (argument : String × Value) : Prop where
  declared : ∃ parameters properties property, tool.parameters = some parameters ∧
    parameters.properties = some properties ∧
    properties.lookup argument.1.toList = some property ∧ Typed property argument.2 ∧
    ∀ values, property.enum = some values → values.any (argument.2.equal ·) = true
  unmarked : Unmarked suffix (argumentText environment argument.2)
  read : ∀ items, argument.2 = .list items →
    environment.loads (environment.dumps (.list items)) = some (.list items)

structure CallFits (environment : Environment) (suffix : Text) (tools : List Tool)
    (name arguments : Text) (tool : Tool) (values : List (String × Value)) : Prop where
  listed : tools.find? (fun tool => tool.name = name) = some tool
  loaded : environment.loads arguments = some (.mapping values)
  distinct : (values.map Prod.fst).Nodup
  fits : ∀ argument ∈ values, Fits environment suffix tool argument
  required : ∀ parameter ∈ tool.required, parameter ∈ values.map (fun value => value.1.toList)
  read : environment.loads (environment.dumps (.mapping values)) = some (.mapping values)

/-- A turn whose texts hold no markers and whose call fits. -/
def TurnFits (environment : Environment) (suffix : Text) (tools : List Tool) : Turn → Prop
  | .user text => Unmarked suffix text ∧ Trimmed text
  | .plain text => Unmarked suffix text ∧ Trimmed text
  | .call text name arguments result =>
      (Unmarked suffix text ∧ Trimmed text) ∧ (Unmarked suffix result ∧ Trimmed result) ∧
        ∃ tool values, CallFits environment suffix tools name arguments tool values

/-- A conversation whose texts hold no markers and whose calls fit the tools. -/
structure Fitting (environment : Environment) (tools : List Tool) (system user : Text)
    (turns : List Turn) (description : Text) : Prop where
  described : convertToolsToDescription environment tools = some description
  system : Unmarked (systemPromptSuffix description) system ∧ Trimmed system
  user : Unmarked (systemPromptSuffix description) user ∧ Trimmed user
  turns : ∀ turn ∈ turns, TurnFits environment (systemPromptSuffix description) tools turn

/-- A turn whose names can be carried. -/
def TurnCarried (environment : Environment) : Turn → Prop
  | .call _ name arguments _ =>
      FunctionName name ∧ ∀ values, environment.loads arguments = some (.mapping values) →
        ∀ argument ∈ values, ParameterName argument.1.toList
  | _ => True

variable (env : Environment)

/-- An argument of its declared type is converted back from its text. -/
theorem Typed.converted (property : Property) (name : Text) (value : Value)
    (typed : Typed property value) (read : ∀ items, value = .list items →
      env.loads (env.dumps (.list items)) = some (.list items)) :
    convertArgument env (some property) name (argumentText env value) = .ok value := by
  cases typed with
  | string text declared => simp [convertArgument, declared, argumentText, printed]
  | integer number declared =>
    rw [convertArgument, if_pos (by simp [declared]), argumentText, printed, read_integer_printed]
    · rfl
    · simp
    · simp
  | array items declared =>
    rw [convertArgument, if_neg (by simp [declared]), if_pos (by simp [declared]), argumentText,
      readJson, read items rfl]

theorem Fits.added {env : Environment} {suffix : Text} {tool : Tool}
    {argument : String × Value} (fits : Fits env suffix tool argument)
    (functionName : Text) (arguments : List (Text × Value)) :
    addArgument env tool functionName arguments argument.1.toList (argumentText env argument.2) =
      .ok (OrderedDict.put argument.1.toList argument.2 arguments) := by
  obtain ⟨parameters, properties, property, given, declared, found, typed, listed⟩ := fits.declared
  have known : tool.properties = properties := by simp [Tool.properties, given, declared]
  have allowed : argument.1.toList ∈ properties.map Prod.fst := by
    obtain ⟨front, back, rfl, -⟩ := lookup_eq_some_iff.mp found
    simp
  have converted := typed.converted env property argument.1.toList argument.2 fits.read
  have declaration : declaration tool argument.1.toList = .ok property := by
    simp [declaration, given, declared, found, orRaise, bind, Except.bind]
  rw [addArgument]
  rw [known, if_neg (by simp [allowed]), found, converted]
  simp only [bind, Except.bind, declaration]
  cases enumerated : property.enum with
  | none => rfl
  | some values => simp [listed values enumerated]

def scanned (argument : String × Value) : Text × Value := (argument.1.toList, argument.2)

theorem arguments_added {suffix : Text} (tool : Tool) (functionName : Text)
    (arguments : List (Text × Value)) {values : List (String × Value)}
    (fits : ∀ argument ∈ values, Fits env suffix tool argument)
    (distinct : ((arguments ++ values.map scanned).map Prod.fst).Nodup) :
    addArguments env tool functionName arguments (values.map (fun argument =>
          [argument.1.toList, argumentText env argument.2])) =
      .ok (arguments ++ values.map scanned) := by
  induction values generalizing arguments with
  | nil => simp [addArguments]
  | cons argument rest ih =>
    have new : argument.1.toList ∉ arguments.map Prod.fst := by
      intro member
      rw [map_append, map_cons, map_cons] at distinct
      exact (nodup_append.mp distinct).2.2 _ member _ (.head _) rfl
    have added := (fits argument (.head _)).added functionName arguments
    rw [OrderedDict.put_absent _ _ new] at added
    have later := ih (arguments ++ [(argument.1.toList, argument.2)])
      (fun other member => fits other (.tail argument member))
      (by simpa [scanned] using distinct)
    rw [map_cons, addArguments]
    simp only [headD_cons, drop_succ_cons, drop_zero, added, bind, Except.bind]
    rw [later]
    simp [scanned]

theorem CallFits.decoded {env : Environment} {suffix : Text} {tools : List Tool}
    {name arguments : Text} {tool : Tool} {values : List (String × Value)}
    (call : CallFits env suffix tools name arguments tool values)
    (functions : ∀ tool ∈ tools, tool.type = functionType)
    (carried : Carried env suffix values) (counter : Nat) :
    decodeCall env tools counter name (parameterTags env values) =
      .ok { index := some 1
            id := some (toolCallIdentifier counter)
            type := some functionType
            function := some {
              name := name
              arguments := env.dumps (.mapping values) } } := by
  have available : tools.filter (fun tool => tool.type = functionType) = tools := by
    simpa using functions
  have distinct : (([] ++ values.map scanned).map Prod.fst).Nodup := by
    have names : (values.map scanned).map Prod.fst = (values.map Prod.fst).map String.toList := by
      simp [scanned, Function.comp_def]
    rw [nil_append, names]
    apply call.distinct.map
    intro first second same
    exact String.toList_inj.mp same
  have added := arguments_added env tool name [] call.fits distinct
  have complete : tool.required.filter (fun parameter =>
      parameter ∉ (values.map scanned).map Prod.fst) = [] := by
    rw [filter_eq_nil_iff]
    intro parameter member
    have given := call.required parameter member
    simpa [scanned, Function.comp_def] using given
  have unscanned : (values.map scanned).map (fun argument : Text × Value =>
      (String.ofList argument.1, argument.2)) = values := by
    simp [scanned, Function.comp_def]
  have checked : extractAndValidateParams env tool
      (findAll parameterPattern 0 (normalizeParameterTags (parameterTags env values)))
      name = .ok (values.map scanned) := by
    rw [carried.tags_normal, carried.tags_found, extractAndValidateParams, added]
    simp only [bind, Except.bind, nil_append, complete, if_true]
  simp only [decodeCall, available, call.listed, orRaise, bind, Except.bind, checked, unscanned]
  rfl

theorem result_found (name result : Text) (named : FunctionName name) :
    search resultPattern (resultMark name ++ result) = some [name, result] := by
  have shape : resultMark name ++ result =
      resultOpening ++ (name ++ (resultClosing ++ (result ++ []))) := by
    simp [resultMark]
  apply search_of_match _ _ ([name, result], [])
  rw [shape, resultPattern, match_exactly]
  apply match_fewest _ _ ([result], [])
  · have absent := named.unmarked
    rw [result_closing_chars] at absent ⊢
    exact passes_of_absent _ _ _ (by decide) absent
  · rw [match_exactly]
    exact match_most _ _ _ _ (fun _ _ => rfl) (Nat.zero_le _) (by simp) (match_nil [])

/-- A text without markers holds no result. -/
theorem result_absent {suffix text : Text} (unmarked : Unmarked suffix text) :
    findResult (.text text) = none :=
  search_none _ (by simp [resultOpening]) (unmarked resultOpening (by simp [markers]))

section Messages

variable {env : Environment} {tools : List Tool} {suffix : Text}

/-- A message of the user is restored behind the first. -/
theorem user_decoded (text : Text) (counter : Nat) (unmarked : Unmarked suffix text) :
    decodeMessage env tools suffix true counter (textMessage .user text) =
      .ok ((true, counter), textMessage .user text) := by
  simp [decodeMessage, textMessage, contentOrEmpty, decodeUser, result_absent unmarked]

/-- The message of a tool is restored. -/
theorem result_decoded (name result : Text) (counter : Nat) (named : FunctionName name)
    (trimmed : Trimmed result) :
    decodeMessage env tools suffix true (counter + 1)
        (textMessage .user (resultMark name ++ result)) =
      .ok ((true, counter + 1), resultMessage counter name result) := by
  simp [decodeMessage, textMessage, contentOrEmpty, decodeUser, findResult,
    result_found _ _ named, Content.single, strip_trimmed _ trimmed, resultMessage]

/-- A plain message of the assistant is restored. -/
theorem plain_decoded (text : Text) (counter : Nat) (unmarked : Unmarked suffix text) :
    decodeMessage env tools suffix true counter (textMessage .assistant text) =
      .ok ((true, counter), textMessage .assistant text) := by
  have absent := unmarked functionOpening (by simp [markers])
  have none : search functionPattern text = none := search_none _ (by simp [functionOpening]) absent
  simp only [decodeMessage, textMessage, decodeAssistant, contentOrEmpty,
    fix_stopword_absent _ absent, none, bind, Except.bind]
  rfl

variable {name arguments : Text} {tool : Tool} {values : List (String × Value)}

variable (call : CallFits env suffix tools name arguments tool values)
include call

/-- A call of the assistant is written behind its text. -/
theorem CallFits.encodes (text : Text) (trimmed : Trimmed text) (number : Nat)
    (addExample seen : Bool) :
    encodeMessage env tools suffix addExample seen (callMessage none number text name arguments) =
      .ok (seen, textMessage .assistant
        (lead text ++ callText name (parameterTags env values))) := by
  have written : lstrip (text ++ ['\n', '\n'] ++ callText name (parameterTags env values)) =
      lead text ++ callText name (parameterTags env values) := by
    simp only [callText, append_assoc]
    rw [← append_assoc]
    exact lstrip_call _ _ trimmed
  simp only [encodeMessage, callMessage, convertToolCallToString, orRaise, bind, Except.bind, ne_eq,
    not_true_eq_false, if_false, readJson, call.loaded, appendCall, written]
  rfl

/-- A call of the assistant is restored, with the index and its own layout. -/
theorem CallFits.decodes (functions : ∀ tool ∈ tools, tool.type = functionType)
    (carried : Carried env suffix values) (named : FunctionName name) (text : Text)
    (unmarked : Unmarked suffix text) (trimmed : Trimmed text) (counter : Nat) :
    decodeMessage env tools suffix true counter (textMessage .assistant
          (lead text ++ callText name (parameterTags env values))) =
      .ok ((true, counter + 1),
        callMessage (some 1) counter text name (env.dumps (.mapping values))) := by
  obtain ⟨extra, fixed⟩ := fix_stopword_ended
    (lead text ++ (functionOpening ++ name ++ ['>', '\n'] ++ parameterTags env values))
  have shape : lead text ++ callText name (parameterTags env values) =
      lead text ++ (functionOpening ++ name ++ ['>', '\n'] ++ parameterTags env values) ++
        functionClosing := by
    simp [callText]
  rw [← shape, append_assoc] at fixed
  have found := carried.call_found (lead text) name extra named
    (lead_passes _ _ _ unmarked)
  have before : textBeforeCall (lead text ++ (callText name (parameterTags env values) ++
      extra)) = text := by
    rw [textBeforeCall, firstPart, before_first_passes _ _ _ (lead_passes _ _ _ unmarked)]
    · exact strip_lead _ trimmed
    · exact prefix_append functionOpening _
  simp only [decodeMessage, textMessage, decodeAssistant, contentOrEmpty, fixed, found, before,
    headD_cons, drop_succ_cons, drop_zero, call.decoded functions carried counter,
    bind, Except.bind]
  rfl

/-- A call that was read back is the same call. -/
theorem CallFits.same (number : Nat) (text : Text) :
    SameMessage env (callMessage none number text name arguments)
      (callMessage (some 1) number text name (env.dumps (.mapping values))) := by
  refine ⟨rfl, rfl, rfl, rfl, rfl, Option.Rel.some ?_⟩
  refine List.Forall₂.cons ⟨rfl, rfl, rfl, ?_⟩ List.Forall₂.nil
  simp [call.loaded, call.read]

omit call

/-- The message of a tool becomes one of the user. -/
theorem result_encodes (number : Nat) (result : Text) (addExample seen : Bool) :
    encodeMessage env tools suffix addExample seen (resultMessage number name result) =
      .ok (seen, textMessage .user (resultMark name ++ result)) := by
  simp only [encodeMessage, resultMessage, markResult, keepCacheControl, Option.getD_some, bind,
    Except.bind, Bool.false_eq_true, if_false]
  rfl

end Messages

/-- Messages that both conversions take and that come back the same. -/
def Restored (environment : Environment) (tools : List Tool) (suffix : Text)
    (addExample encoded decoded : Bool) (counter : Nat) (messages : List Message) : Prop :=
  ∃ converted restored,
    encodeFrom environment tools suffix addExample encoded messages = .ok converted ∧
    decodeFrom environment tools suffix decoded counter converted = .ok restored ∧
    List.Forall₂ (SameMessage environment) messages restored

/-- One more message in front. -/
theorem Restored.cons {env : Environment} {tools : List Tool} {suffix : Text}
    {addExample encoded decoded encodedNext decodedNext : Bool} {counter next : Nat}
    {message converted restored : Message} {rest : List Message}
    (encoding : encodeMessage env tools suffix addExample encoded message =
      .ok (encodedNext, converted))
    (decoding : decodeMessage env tools suffix decoded counter converted =
      .ok ((decodedNext, next), restored))
    (same : SameMessage env message restored)
    (later : Restored env tools suffix addExample encodedNext decodedNext next rest) :
    Restored env tools suffix addExample encoded decoded counter (message :: rest) := by
  obtain ⟨others, back, forwards, backwards, pairwise⟩ := later
  refine ⟨converted :: others, restored :: back, ?_, ?_, List.Forall₂.cons same pairwise⟩
  · simp only [encodeFrom, encoding, bind, Except.bind, forwards]
    rfl
  · simp only [decodeFrom, decoding, bind, Except.bind, backwards]
    rfl

/-- A message without calls is the same as itself. -/
theorem SameMessage.refl {message : Message} (plain : message.toolCalls = none) :
    SameMessage env message message where
  role := rfl
  content := rfl
  name := rfl
  toolCallId := rfl
  cacheControl := rfl
  toolCalls := by rw [plain]; exact Option.Rel.none

/-- The turns behind the first message of the user are restored. -/
theorem turns_restored (env : Environment) (tools : List Tool) {suffix : Text}
    (functions : ∀ tool ∈ tools, tool.type = functionType) (addExample encoded : Bool)
    (met : (!encoded && addExample) = false) (number : Nat) (turns : List Turn)
    (fits : ∀ turn ∈ turns, TurnFits env suffix tools turn)
    (carried : ∀ turn ∈ turns, TurnCarried env turn) :
    Restored env tools suffix addExample encoded true number (turnMessages number turns) := by
  induction turns generalizing number with
  | nil => exact ⟨[], [], rfl, rfl, List.Forall₂.nil⟩
  | cons turn rest ih =>
    have later (next : Nat) := ih next
      (fun other member => fits other (.tail turn member))
      (fun other member => carried other (.tail turn member))
    have here := fits turn (.head _)
    have names := carried turn (.head _)
    cases turn with
    | user text =>
      have encoding : encodeMessage env tools suffix addExample encoded
          (textMessage .user text) = .ok (encoded, textMessage .user text) := by
        simp [encodeMessage, textMessage, met]
      exact Restored.cons encoding (user_decoded _ _ here.1)
        (SameMessage.refl env rfl) (later number)
    | plain text =>
      have encoding : encodeMessage env tools suffix addExample encoded
          (textMessage .assistant text) = .ok (encoded, textMessage .assistant text) := by
        simp [encodeMessage, textMessage]
      exact Restored.cons encoding (plain_decoded _ _ here.1)
        (SameMessage.refl env rfl) (later number)
    | call text name arguments result =>
      obtain ⟨⟨unmarked, trimmed⟩, ⟨-, resultTrimmed⟩, tool, values, call⟩ := here
      obtain ⟨named, parameters⟩ := names
      have carriable : Carried env suffix values :=
        ⟨parameters values call.loaded, fun argument member => (call.fits argument member).unmarked⟩
      have resulting : Restored env tools suffix addExample encoded true (number + 1)
          (resultMessage number name result :: turnMessages (number + 1) rest) :=
        Restored.cons (result_encodes ..)
          (result_decoded _ _ _ named resultTrimmed)
          (SameMessage.refl env rfl) (later (number + 1))
      exact Restored.cons (call.encodes text trimmed number addExample encoded)
        (call.decodes functions carriable named text unmarked trimmed number)
        (call.same number text) resulting

/-- The first message of the user is restored, with or without the example. -/
theorem first_message_restored (tools : List Tool) {suffix user : Text}
    (unmarked : Unmarked suffix user) (addExample : Bool)
    (complete : addExample = true → getExampleForTools env tools ≠ [] →
      ¬ inContextLearningExampleSuffix.dropLast <:+ user) (counter : Nat) :
    ∃ converted, encodeMessage env tools suffix addExample false (textMessage .user user) =
        .ok (addExample, converted) ∧
      decodeMessage env tools suffix false counter converted =
        .ok ((true, counter), textMessage .user user) := by
  have restored (text : Text)
      (removed : removeExample (getExampleForTools env tools) text = user) :
      decodeMessage env tools suffix false counter (textMessage .user text) =
        .ok ((true, counter), textMessage .user user) := by
    simp [decodeMessage, textMessage, contentOrEmpty, decodeUser, changeTexts, removed, result_absent unmarked]
  have kept := example_kept env tools suffix user unmarked
  cases addExample with
  | false => exact ⟨_, rfl, restored user kept⟩
  | true =>
    by_cases empty : getExampleForTools env tools = []
    · refine ⟨textMessage .user user, ?_, restored user kept⟩
      simp [encodeMessage, textMessage, empty]
    refine ⟨textMessage .user (getExampleForTools env tools ++ user ++
      inContextLearningExampleSuffix), ?_, ?_⟩
    · simp only [encodeMessage, textMessage, Bool.not_false, Bool.true_and, empty, if_true,
        if_false, surroundWithExample, bind, Except.bind]
      rfl
    · exact restored _ (example_removed _ suffix user unmarked (complete rfl empty))

/-- A conversation that fits its tools is restored by the conversion to text and back,
when its names can be carried and its first message does not end with all of the
reminder but the last line break where the reminder is added. -/
theorem conversations_round_trip (environment : Environment) (tools : List Tool)
    (addExample : Bool) (system user : Text) (turns : List Turn) (description : Text)
    (fitting : Fitting environment tools system user turns description)
    (carried : ∀ turn ∈ turns, TurnCarried environment turn)
    (complete : addExample = true → getExampleForTools environment tools ≠ [] →
      ¬ inContextLearningExampleSuffix.dropLast <:+ user) :
    RoundTrips environment tools addExample (conversation system user turns) := by
  have functions : ∀ tool ∈ tools, tool.type = functionType := by
    have described := fitting.described
    rw [convertToolsToDescription] at described
    split at described
    case isTrue all => simpa using all
    case isFalse => cases described
  have turnsRestored := turns_restored environment tools functions
    addExample addExample (by simp) 1 turns fitting.turns carried
  obtain ⟨first, encoding, decoding⟩ := first_message_restored environment tools
    fitting.user.1 addExample complete 1
  have prompt : decodeMessage environment tools (systemPromptSuffix description) false 1
      (textMessage .system (system ++ systemPromptSuffix description)) =
      .ok ((false, 1), textMessage .system system) := by
    simp [decodeMessage, textMessage, contentOrEmpty, removeSuffix, suffix_removed description system fitting.system.1]
  have whole : Restored environment tools (systemPromptSuffix description) addExample false false 1
      (conversation system user turns) :=
    Restored.cons rfl prompt (SameMessage.refl environment rfl)
      (Restored.cons encoding decoding (SameMessage.refl environment rfl) turnsRestored)
  obtain ⟨converted, restored, forwards, backwards, same⟩ := whole
  refine ⟨converted, restored, ?_, ?_, same⟩
  · simp only [convertFncallMessagesToNonFncallMessages, fitting.described, orRaise, bind,
      Except.bind, forwards]
  · simp only [convertNonFncallMessagesToFncallMessages, fitting.described, orRaise, bind,
      Except.bind, backwards]

def agentPrompt : Text := "You are an agent.".toList

def question : Text := "What is there?".toList

def shellArguments : List (String × Value) :=
  [("command", .str "ls -l"), ("timeout", .int 10), ("paths", .list [.str "src"])]

/-- The arguments as a model lays them out. -/
def shellJson : Text := "\x7b\"command\":\"ls -l\",\"timeout\":10,\"paths\":[\"src\"]\x7d".toList

/-- The arguments as they are written. -/
def writtenJson : Text :=
  "\x7b\"command\": \"ls -l\", \"timeout\": 10, \"paths\": [\"src\"]\x7d".toList

/-- The array among the arguments as it is written. -/
def pathsJson : Text := "[\"src\"]".toList

/-- No arguments. -/
def emptyJson : Text := ['\x7b', '\x7d']

def readShellJson (text : Text) : Option Value :=
  if text = shellJson ∨ text = writtenJson then some (.mapping shellArguments)
  else if text = pathsJson then some (.list [.str "src"])
  else if text = emptyJson then some (.mapping [])
  else none

/-- A reader that knows the texts of the conversation, with the writer. -/
def shellEnvironment : Environment where
  loads := readShellJson
  dumps value := (value.jsonDumps.toOption.getD "").toList
  repr _ := []
  windows := false

def textProperty : Property where
  type := some (.str "string")

/-- The declaration of a number that is one of two. -/
def timeoutProperty : Property where
  type := some (.str "integer")
  enum := some [.int 10, .int 60]

/-- The declaration of an array. -/
def pathsProperty : Property where
  type := some (.str "array")

def shellProperties : List (Text × Property) :=
  [("command".toList, textProperty), ("timeout".toList, timeoutProperty),
    ("paths".toList, pathsProperty)]

def shellTool : Tool where
  name := "execute_bash".toList
  description := "Run a command.".toList
  parameters := some {
    properties := some shellProperties
    required := some ["command".toList] }

def shellTurns : List Turn :=
  [.call "Let me look.".toList shellTool.name shellJson "total 0".toList,
    .plain "It is empty.".toList, .user "Thank you.".toList]

def suffixFor (tool : Tool) : Text := systemPromptSuffix (toolLines shellEnvironment 0 tool)

/-- A text without the characters that markers begin with holds no markers. -/
theorem unmarked_of_plain (text : Text)
    (plain : text.all (fun char => !(['<', '\n', 'E'].contains char)) = true) :
    Unmarked functionOpening text := by
  intro marker member occurs
  have starts : ∃ first ∈ ['<', '\n', 'E'], marker.head? = some first := by
    simp only [markers, mem_cons, not_mem_nil, or_false] at member
    rcases member with rfl | rfl | rfl | rfl | rfl | rfl | rfl
    all_goals first
      | exact ⟨'<', .head _, rfl⟩
      | exact ⟨'E', by simp, rfl⟩
      | exact ⟨'\n', by simp, rfl⟩
  obtain ⟨first, listed, head⟩ := starts
  have absent := all_eq_true.mp plain first (occurs.subset (mem_of_mem_head? head))
  simp only [contains_iff_mem.mpr listed, Bool.not_true, Bool.false_eq_true] at absent

theorem shell_json : (shellEnvironment.dumps (.mapping shellArguments) = writtenJson ∧
      shellEnvironment.dumps (.list [.str "src"]) = pathsJson ∧
      shellEnvironment.dumps (.mapping []) = emptyJson) ∧
    [shellJson, writtenJson, pathsJson, emptyJson].Nodup :=
  ⟨⟨by rfl, by rfl, by rfl⟩, by decide⟩

/-- The names of the call of the shell can be carried, and its values hold no markers. -/
theorem shell_names : FunctionName shellTool.name ∧
      ∀ argument ∈ shellArguments, ParameterName argument.1.toList ∧
        Unmarked functionOpening (argumentText shellEnvironment argument.2) := by
  have named : ∀ argument ∈ shellArguments, ParameterName argument.1.toList := by decide
  have plain : shellArguments.all (fun argument =>
      (argumentText shellEnvironment argument.2).all
        (fun char => !(['<', '\n', 'E'].contains char))) = true := rfl
  refine ⟨by decide, fun argument member => ⟨named argument member, ?_⟩⟩
  exact unmarked_of_plain _ (all_eq_true.mp plain argument member)

def shellTexts : List Text :=
  [agentPrompt, question, "Let me look.".toList, "total 0".toList, "It is empty.".toList,
    "Thank you.".toList]

/-- The texts of the conversation with the shell hold no markers. -/
theorem shell_texts : ∀ text ∈ shellTexts, Unmarked (suffixFor shellTool) text ∧ Trimmed text := by
  have plain : shellTexts.all (fun text =>
      text.all (fun char => !(['<', '\n', 'E'].contains char))) = true := rfl
  have trimmed : shellTexts.all (fun text => decide (Trimmed text)) = true := rfl
  intro text member
  exact ⟨unmarked_of_opening _ _ (unmarked_of_plain _ (all_eq_true.mp plain text member)),
    of_decide_eq_true (all_eq_true.mp trimmed text member)⟩

theorem shell_arguments_read :
    shellEnvironment.loads (shellEnvironment.dumps (.mapping shellArguments)) =
      some (.mapping shellArguments) := by
  rw [shell_json.1.1]
  show readShellJson writtenJson = _
  rw [readShellJson, if_pos (.inr rfl)]

/-- The array among the arguments is read back. -/
theorem shell_array_read : shellEnvironment.loads (shellEnvironment.dumps (.list [.str "src"])) =
      some (.list [.str "src"]) := by
  have different := shell_json.2
  rw [shell_json.1.2.1]
  show readShellJson pathsJson = _
  rw [readShellJson, if_neg (by rintro (same | same) <;> simp_all), if_pos rfl]

/-- No arguments are read as none. -/
theorem empty_read : shellEnvironment.loads emptyJson = some (.mapping []) := by
  have different := shell_json.2
  simp only [nodup_cons, mem_cons, not_or] at different
  obtain ⟨⟨-, -, first, -⟩, ⟨-, second, -⟩, ⟨third, -⟩, -⟩ := different
  show readShellJson emptyJson = _
  rw [readShellJson, if_neg (by rintro (same | same) <;> simp_all), if_neg (Ne.symm third),
    if_pos rfl]

theorem lookup_behind {name other : Text} (property : Property) (rest : List (Text × Property))
    (different : name ≠ other) : ((other, property) :: rest).lookup name = rest.lookup name := by
  have apart : (name == other) = false := beq_eq_false_iff_ne.mpr different
  show (bif name == other then some property else rest.lookup name) = _
  rw [apart]
  rfl

/-- The parameters of the shell have different names. -/
theorem shell_lookup : shellProperties.lookup "command".toList = some textProperty ∧
      shellProperties.lookup "timeout".toList = some timeoutProperty ∧
      shellProperties.lookup "paths".toList = some pathsProperty := by
  refine ⟨lookup_cons_self, ?_, ?_⟩
  · rw [shellProperties, lookup_behind _ _ (by simp), lookup_cons_self]
  · rw [shellProperties, lookup_behind _ _ (by simp), lookup_behind _ _ (by simp),
      lookup_cons_self]

theorem shell_arguments_fit (argument : String × Value) (member : argument ∈ shellArguments) :
    Fits shellEnvironment (suffixFor shellTool) shellTool argument := by
  have unmarked := unmarked_of_opening (toolLines shellEnvironment 0 shellTool) _
    (shell_names.2 argument member).2
  simp only [shellArguments, mem_cons, not_mem_nil, or_false] at member
  rcases member with rfl | rfl | rfl
  · refine ⟨⟨_, shellProperties, textProperty, rfl, rfl, shell_lookup.1, .string "ls -l" rfl, ?_⟩,
      unmarked, ?_⟩
    · intro values enumerated
      cases enumerated
    · intro items array
      cases array
  · refine ⟨⟨_, shellProperties, timeoutProperty, rfl, rfl, shell_lookup.2.1, .integer 10 rfl, ?_⟩,
      unmarked, ?_⟩
    · intro values enumerated
      cases enumerated
      rfl
    · intro items array
      cases array
  · refine ⟨⟨_, shellProperties, pathsProperty, rfl, rfl, shell_lookup.2.2, .array _ rfl, ?_⟩,
      unmarked, ?_⟩
    · intro values enumerated
      cases enumerated
    · intro items array
      cases array
      exact shell_array_read

theorem shell_call_fits : CallFits shellEnvironment (suffixFor shellTool) [shellTool]
    shellTool.name shellJson shellTool shellArguments where
  listed := find?_cons_of_pos (decide_eq_true rfl)
  loaded := by
    show readShellJson shellJson = _
    rw [readShellJson, if_pos (.inl rfl)]
  distinct := by simp [shellArguments]
  fits := shell_arguments_fit
  required := by
    intro parameter member
    obtain rfl := mem_singleton.mp member
    exact .head _
  read := shell_arguments_read

theorem tool_described {tool : Tool} (function : tool.type = functionType) :
    convertToolsToDescription shellEnvironment [tool] =
      some (toolLines shellEnvironment 0 tool) := by
  rw [convertToolsToDescription, if_pos (by simp [function])]
  simp [zipIdx]

theorem shell_fitting : Fitting shellEnvironment [shellTool] agentPrompt question shellTurns
      (toolLines shellEnvironment 0 shellTool) where
  described := tool_described rfl
  system := shell_texts _ (by simp [shellTexts])
  user := shell_texts _ (by simp [shellTexts])
  turns := by
    have clean := shell_texts
    simp only [shellTexts] at clean
    intro turn member
    simp only [shellTurns, mem_cons, not_mem_nil, or_false] at member
    rcases member with rfl | rfl | rfl
    · exact ⟨clean _ (by simp), clean _ (by simp), shellTool, shellArguments, shell_call_fits⟩
    · exact clean _ (by simp)
    · exact clean _ (by simp)

/-- The names of the conversation with the shell can be carried. -/
theorem shell_carried (turn : Turn) (member : turn ∈ shellTurns) :
    TurnCarried shellEnvironment turn := by
  simp only [shellTurns, mem_cons, not_mem_nil, or_false] at member
  rcases member with rfl | rfl | rfl
  · refine ⟨shell_names.1, ?_⟩
    intro values loaded argument present
    rw [shell_call_fits.loaded] at loaded
    cases loaded
    exact (shell_names.2 argument present).1
  · exact trivial
  · exact trivial

/-- The conversation with the shell survives the conversion to text and back. -/
theorem shell_round_trips : RoundTrips shellEnvironment [shellTool] true
    (conversation agentPrompt question shellTurns) := by
  apply conversations_round_trip _ _ _ _ _ _ _ shell_fitting shell_carried
  intro _ _ ends
  have starts : inContextLearningExampleSuffix.dropLast.head? = some '\n' := rfl
  have absent : question.contains '\n' = false := rfl
  rw [List.contains_iff_mem.mpr (ends.subset (List.mem_of_mem_head? starts))] at absent
  cases absent

/-- The content of a message after the conversion to text and back. -/
def restoredContent (environment : Environment) (tools : List Tool) (addExample : Bool)
    (messages : List Message) (position : Nat) : Option (Option Content) :=
  match convertFncallMessagesToNonFncallMessages environment messages tools addExample with
  | .error _ => none
  | .ok converted =>
      match convertNonFncallMessagesToFncallMessages environment converted tools with
      | .error _ => none
      | .ok restored => restored[position]?.map Message.content

/-- A conversation that survives keeps its contents. -/
theorem RoundTrips.content {env : Environment} {tools : List Tool} {addExample : Bool}
    {messages : List Message} (survives : RoundTrips env tools addExample messages)
    (place : Nat) : restoredContent env tools addExample messages place =
      messages[place]?.map Message.content := by
  obtain ⟨converted, restored, forwards, backwards, same⟩ := survives
  simp only [restoredContent, forwards, backwards]
  clear forwards backwards
  induction same generalizing place with
  | nil => rfl
  | cons here _ ih =>
    cases place with
    | zero => simp [here.content]
    | succ place => simpa using ih place

/-- Behind an example the first message comes back without the first reminder. -/
theorem first_message_content (tools : List Tool) (system user description : Text)
    (described : convertToolsToDescription env tools = some description)
    (filled : getExampleForTools env tools ≠ [])
    (plain : search resultPattern (removeFirst inContextLearningExampleSuffix
      (user ++ inContextLearningExampleSuffix)) = none) :
    restoredContent env tools true (conversation system user []) 1 =
      some (some (.text (removeFirst inContextLearningExampleSuffix
        (user ++ inContextLearningExampleSuffix)))) := by
  have encoding : convertFncallMessagesToNonFncallMessages env
      (conversation system user []) tools true =
      .ok [textMessage .system (system ++ systemPromptSuffix description),
        textMessage .user (getExampleForTools env tools ++ user ++
          inContextLearningExampleSuffix)] := by
    simp only [convertFncallMessagesToNonFncallMessages, conversation, turnMessages, textMessage,
      described, orRaise, encodeFrom, encodeMessage, appendSuffix, surroundWithExample, filled,
      if_false, bind, Except.bind]
    rfl
  simp only [restoredContent, encoding, convertNonFncallMessagesToFncallMessages, described,
    orRaise, decodeFrom, decodeMessage, textMessage, contentOrEmpty, decodeUser, changeTexts,
    Bool.false_eq_true, if_false, example_before_removed, findResult, plain, bind, Except.bind]
  rfl

/-- A tool whose name holds the character that ends it. -/
def oddTool : Tool where
  name := ['a', '>', 'b']
  description := "Odd.".toList

def oddTurns : List Turn := [.call question oddTool.name emptyJson agentPrompt]

/-- A tool without parameters that ends the conversation. -/
def finishTool : Tool where
  name := "finish".toList
  description := "Finish.".toList

/-- A message that ends with the reminder without its last line break. -/
def quotedReminder : Text := "Hi".toList ++ inContextLearningExampleSuffix.dropLast

/-- The texts of the conversations that are not restored hold no markers. -/
theorem lost_texts (description text : Text)
    (member : text ∈ [agentPrompt, question, quotedReminder]) :
    Unmarked (systemPromptSuffix description) text ∧ Trimmed text := by
  simp only [mem_cons, not_mem_nil, or_false] at member
  rcases member with rfl | rfl | rfl
  · exact ⟨unmarked_of_opening _ _ (unmarked_of_plain _ rfl), by decide⟩
  · exact ⟨unmarked_of_opening _ _ (unmarked_of_plain _ rfl), by decide⟩
  · have quoted : Unmarked functionOpening quotedReminder ∧ Trimmed quotedReminder := by
      decide +kernel
    exact ⟨unmarked_of_opening _ _ quoted.1, quoted.2⟩

/-- The text before the call of the odd tool is not restored. -/
theorem odd_lost : restoredContent shellEnvironment [oddTool] false
      (conversation agentPrompt question oddTurns) 2 ≠ some (some (.text question)) := by
  decide +kernel

/-- The first reminder behind the quoted one is not the one that was added. -/
theorem quoted_lost : getExampleForTools shellEnvironment [finishTool] ≠ [] ∧
    search resultPattern (removeFirst inContextLearningExampleSuffix
      (quotedReminder ++ inContextLearningExampleSuffix)) = none ∧
    removeFirst inContextLearningExampleSuffix
      (quotedReminder ++ inContextLearningExampleSuffix) ≠ quotedReminder := by
  decide +kernel

/-- The conversation with the odd tool fits. -/
theorem odd_fitting : Fitting shellEnvironment [oddTool] agentPrompt question oddTurns
      (toolLines shellEnvironment 0 oddTool) where
  described := tool_described rfl
  system := lost_texts _ _ (by simp)
  user := lost_texts _ _ (by simp)
  turns := by
    intro turn member
    obtain rfl := mem_singleton.mp member
    refine ⟨lost_texts _ _ (by simp), lost_texts _ _ (by simp), oddTool, [], ?_⟩
    exact ⟨find?_cons_of_pos (decide_eq_true rfl), empty_read, nodup_nil, by simp,
      by simp [Tool.required, oddTool], by rw [shell_json.1.2.2, empty_read]⟩

/-- The conversation with the quoted reminder fits. -/
theorem quoted_fitting : Fitting shellEnvironment [finishTool] agentPrompt quotedReminder []
      (toolLines shellEnvironment 0 finishTool) where
  described := tool_described rfl
  system := lost_texts _ _ (by simp)
  user := lost_texts _ _ (by simp)
  turns := by simp

/-- Names that hold the character that ends them are lost, and so is a part of a first
message that ends with the reminder without its last line break. -/
theorem names_and_reminders_break_round_trips :
    (Fitting shellEnvironment [oddTool] agentPrompt question oddTurns
        (toolLines shellEnvironment 0 oddTool) ∧
      ¬ RoundTrips shellEnvironment [oddTool] false (conversation agentPrompt question oddTurns)) ∧
    Fitting shellEnvironment [finishTool] agentPrompt quotedReminder []
        (toolLines shellEnvironment 0 finishTool) ∧
      ¬ RoundTrips shellEnvironment [finishTool] true
        (conversation agentPrompt quotedReminder []) := by
  refine ⟨⟨odd_fitting, ?_⟩, quoted_fitting, ?_⟩
  · intro survives
    exact odd_lost (survives.content 2)
  · intro survives
    have kept := survives.content 1
    rw [first_message_content _ _ _ _ _ quoted_fitting.described quoted_lost.1
      quoted_lost.2.1] at kept
    have same := Content.text.inj (Option.some.inj (Option.some.inj kept))
    exact quoted_lost.2.2 same

end ForgePilot.FnCalls
