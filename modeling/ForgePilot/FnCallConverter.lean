import ForgePilot.FnCallPrompts
import ForgePilot.OrderedDict
import ForgePilot.Patterns

/-!
# Function calls as text

Conversations with function calls are converted for a model that cannot call
functions, and back. One direction writes a call behind the text of the assistant and
turns the message of a tool into a message of the user. The other direction looks for
calls and results with patterns, repairs a missing stop word and malformed tags, and
checks the arguments against the declaration of the tool.
-/

namespace ForgePilot.FnCalls

open Characters Patterns

/-- Who a message is from. -/
inductive Role where
  | system
  | user
  | assistant
  | tool
  | other (name : Text)
deriving DecidableEq

/-- An item of a content that is a list. -/
inductive Item where
  | text (text : Text) (cached : Bool)
  | image (url : Text) (cached : Bool)
deriving DecidableEq

inductive Content where
  | text (text : Text)
  | items (items : List Item)
deriving DecidableEq

/-- The function of a tool call, its arguments as JSON. -/
structure Function where
  name : Text
  arguments : Text
deriving DecidableEq

structure ToolCall where
  index : Option Nat := none
  id : Option Text
  type : Option Text
  function : Option Function
deriving DecidableEq

structure Message where
  role : Role
  content : Option Content
  toolCalls : Option (List ToolCall) := none
  name : Option Text := none
  toolCallId : Option Text := none
  cacheControl : Bool := false
deriving DecidableEq

/-- Why a conversion fails, with what the message of the error prints. -/
inductive Failure where
  | unexpectedContent (content : Option Content)
  | unexpectedRole (role : Role)
  | toolCallCount (count : Nat) (content : Option Content)
  | missingKey (key : String)
  | toolCallType
  | malformedArguments (arguments : Text)
  | toolCallNotConverted (toolCall : ToolCall) (cause : Failure)
  | callNotLast (content : List Item)
  | functionNotFound (name : Text) (available : List Text)
  | parameterNotAllowed (name functionName : Text) (allowed : List Text)
  | notAnInteger (name : Text)
  | notAnArray (name : Text)
  | notInEnum (name : Text) (allowed : List Value)
  | missingParameters (functionName : Text) (missing : List Text)
  | keyError (key : Text)
  | assertionError
  | attributeError
  | typeError
  | limitExceeded

/-- How a call begins: `<function=`. -/
def functionOpening : Text := ['<', 'f', 'u', 'n', 'c', 't', 'i', 'o', 'n', '=']

/-- How a call ends: `</function>`. -/
def functionClosing : Text := ['<', '/', 'f', 'u', 'n', 'c', 't', 'i', 'o', 'n', '>']

/-- How an argument begins: `<parameter=`. -/
def parameterOpening : Text := ['<', 'p', 'a', 'r', 'a', 'm', 'e', 't', 'e', 'r', '=']

/-- How an argument ends: `</parameter>`. -/
def parameterClosing : Text := ['<', '/', 'p', 'a', 'r', 'a', 'm', 'e', 't', 'e', 'r', '>']

/-- How the result of a tool begins: `EXECUTION RESULT of [`. -/
def resultOpening : Text :=
  ['E', 'X', 'E', 'C', 'U', 'T', 'I', 'O', 'N', ' ', 'R', 'E', 'S', 'U', 'L', 'T', ' ', 'o',
    'f', ' ', '[']

/-- What stands between the name of a tool and its result: `]:\n`. -/
def resultClosing : Text := [']', ':', '\n']

def orRaise {α : Type} (failure : Failure) : Option α → Except Failure α
  | none => .error failure
  | some value => .ok value

/-- Read JSON. What is malformed fails in the given way, what exceeds a limit of the reader in another. -/
def readJson (environment : Environment) (malformed : Failure) (text : Text) : Except Failure Value :=
  match environment.loads text with
  | some value => .ok value
  | none => .error (if environment.exceeds text then .limitExceeded else malformed)

/-- The text of an argument: lists and mappings are written as JSON. -/
def argumentText (environment : Environment) : Value → Text
  | .list items => environment.dumps (.list items)
  | .mapping entries => environment.dumps (.mapping entries)
  | other => printed environment other

def parameterTag (name value : Text) : Text :=
  parameterOpening ++ name ++ ['>'] ++ value ++ parameterClosing

def parameterTags (environment : Environment) (arguments : List (String × Value)) : Text :=
  arguments.flatMap (fun argument =>
    parameterTag argument.1.toList (argumentText environment argument.2) ++ ['\n'])

def callText (name body : Text) : Text :=
  functionOpening ++ name ++ ['>', '\n'] ++ body ++ functionClosing

/-- Write a tool call as text. -/
def convertToolCallToString (environment : Environment) (toolCall : ToolCall) :
    Except Failure Text := do
  let function ← orRaise (.missingKey "function") toolCall.function
  let _ ← orRaise (.missingKey "id") toolCall.id
  let type ← orRaise (.missingKey "type") toolCall.type
  if type ≠ functionType then .error .toolCallType
  else
    match readJson environment (.malformedArguments function.arguments) function.arguments with
    | .error failure => .error failure
    | .ok (.mapping arguments) =>
        .ok (callText function.name (parameterTags environment arguments))
    | .ok _ => .error .attributeError

/-- The items with their last text changed, when the last item is a text. -/
def changeLastText (change : Text → Text) (items : List Item) : Option (List Item) :=
  match items.getLast? with
  | some (.text text cached) => some (items.dropLast ++ [.text (change text) cached])
  | _ => none

/-- The items with their first text changed, when there is a text. -/
def changeFirstText (change : Text → Text) : List Item → Option (List Item)
  | [] => none
  | .text text cached :: rest => some (.text (change text) cached :: rest)
  | .image url cached :: rest => (changeFirstText change rest).map (.image url cached :: ·)

/-- Follow a system prompt with its suffix. -/
def appendSuffix (suffix : Text) : Option Content → Except Failure Content
  | some (.text text) => .ok (.text (text ++ suffix))
  | some (.items items) =>
      .ok (.items ((changeLastText (· ++ suffix) items).getD (items ++ [.text suffix false])))
  | none => .error (.unexpectedContent none)

/-- Put the first message of the user between an example and the reminder. -/
def surroundWithExample (sample : Text) : Option Content → Except Failure Content
  | some (.text text) => .ok (.text (sample ++ text ++ inContextLearningExampleSuffix))
  | some (.items (.text text cached :: rest)) =>
      .ok (.items (.text (sample ++ text ++ inContextLearningExampleSuffix) cached :: rest))
  | some (.items items) =>
      .ok (.items ([.text sample false] ++ items ++ [.text inContextLearningExampleSuffix false]))
  | none => .error (.unexpectedContent none)

/-- Write a call behind the text of the assistant. -/
def appendCall (call : Text) : Option Content → Except Failure Content
  | some (.text text) => .ok (.text (lstrip (text ++ ['\n', '\n'] ++ call)))
  | some (.items items) =>
      .ok (.items ((changeLastText (fun text => lstrip (text ++ ['\n', '\n'] ++ call)) items).getD
        (items ++ [.text call false])))
  | none => .error (.unexpectedContent none)

/-- What stands before the result of a tool. -/
def resultMark (name : Text) : Text :=
  resultOpening ++ name ++ resultClosing

/-- Write the name of a tool before its result. -/
def markResult (name : Text) : Option Content → Except Failure Content
  | some (.text text) => .ok (.text (resultMark name ++ text))
  | some (.items items) =>
      .ok (.items ((changeFirstText (resultMark name ++ ·) items).getD
        (.text (resultMark name) false :: items)))
  | none => .error (.unexpectedContent none)

/-- An item that ends a cached part of the prompt. -/
def markCached : Item → Item
  | .text text _ => .text text true
  | .image url _ => .image url true

/-- Keep the mark of a cached message on its last item. -/
def keepCacheControl (cacheControl : Bool) : Content → Except Failure Content
  | .text text => if cacheControl then .error .typeError else .ok (.text text)
  | .items items =>
      if cacheControl then
        .ok (.items (items.dropLast ++ (items.getLast?.map markCached).toList))
      else .ok (.items items)

/-- Convert one message; `seen` says that the first message of the user was met. -/
def encodeMessage (environment : Environment) (tools : List Tool) (suffix : Text)
    (addExample seen : Bool) (message : Message) : Except Failure (Bool × Message) :=
  match message.role with
  | .system => do
      let content ← appendSuffix suffix message.content
      return (seen, { role := .system, content := some content })
  | .user =>
      if !seen && addExample then
        let sample := getExampleForTools environment tools
        if sample = [] then .ok (true, { role := .user, content := message.content })
        else do
          let content ← surroundWithExample sample message.content
          return (true, { role := .user, content := some content })
      else .ok (seen, { role := .user, content := message.content })
  | .assistant =>
      match message.toolCalls with
      | none => .ok (seen, { role := .assistant, content := message.content })
      | some [toolCall] =>
          match convertToolCallToString environment toolCall with
          | .error .attributeError => .error .attributeError
          | .error .limitExceeded => .error .limitExceeded
          | .error cause => .error (.toolCallNotConverted toolCall cause)
          | .ok call => do
              let content ← appendCall call message.content
              return (seen, { role := .assistant, content := some content })
      | some toolCalls => .error (.toolCallCount toolCalls.length message.content)
  | .tool => do
      let content ← markResult (message.name.getD "function".toList) message.content
      let content ← keepCacheControl message.cacheControl content
      return (seen, { role := .user, content := some content })
  | .other name => .error (.unexpectedRole (.other name))

def encodeFrom (environment : Environment) (tools : List Tool) (suffix : Text)
    (addExample : Bool) : Bool → List Message → Except Failure (List Message)
  | _, [] => .ok []
  | seen, message :: rest => do
      let (seen, converted) ← encodeMessage environment tools suffix addExample seen message
      let others ← encodeFrom environment tools suffix addExample seen rest
      return converted :: others

/-- Convert a conversation with function calls to one without. -/
def convertFncallMessagesToNonFncallMessages (environment : Environment)
    (messages : List Message) (tools : List Tool) (addInContextLearningExample : Bool) :
    Except Failure (List Message) := do
  let description ← orRaise .assertionError (convertToolsToDescription environment tools)
  encodeFrom environment tools (systemPromptSuffix description) addInContextLearningExample
    false messages

/-- A call: its name, and its body up to the first end. -/
def functionPattern : List (Piece Char) :=
  [.exactly functionOpening, .most (· ≠ '>') 1, .exactly ['>', '\n'], .fewest,
    .exactly functionClosing]

/-- An argument: its name, and its value up to the first end. -/
def parameterPattern : List (Piece Char) :=
  [.exactly parameterOpening, .most (· ≠ '>') 1, .exactly ['>'], .fewest,
    .exactly parameterClosing]

/-- The result of a tool: the name of the tool, and everything behind it. -/
def resultPattern : List (Piece Char) :=
  [.exactly resultOpening, .fewest, .exactly resultClosing,
    .most (fun _ => true) 0]

def isIdentifier (character : Char) : Bool := character.isAlphanum || character == '_'

/-- An argument whose name is not closed. -/
def malformedPattern : List (Piece Char) :=
  [.exactly parameterOpening, .most isIdentifier 1, .exactly ['='], .most (· ≠ '<') 0,
    .exactly parameterClosing]

/-- Close the names of malformed arguments. -/
def normalizeParameterTags (body : Text) : Text :=
  substitute malformedPattern (fun captures =>
    parameterTag (captures.headD []) ((captures.drop 1).headD [])) 0 body

/-- How often a text occurs without overlap. -/
def count (needle text : Text) : Nat := (findAll [.exactly needle] 0 text).length

/-- Add the stop word that a model left out. -/
def fixStopword (content : Text) : Text :=
  if occursIn functionOpening content && count functionOpening content = 1 then
    if ['<', '/'].isSuffixOf content then rstrip content ++ "function>".toList
    else content ++ ('\n' :: functionClosing)
  else content

/-- The code points of the digits zero beyond ASCII; the nine that follow each of them are digits as well. -/
def foreignZeros : List Nat :=
  [0x660, 0x6f0, 0x7c0, 0x966, 0x9e6, 0xa66, 0xae6, 0xb66, 0xbe6, 0xc66, 0xce6, 0xd66, 0xde6,
    0xe50, 0xed0, 0xf20, 0x1040, 0x1090, 0x17e0, 0x1810, 0x1946, 0x19d0, 0x1a80, 0x1a90, 0x1b50,
    0x1bb0, 0x1c40, 0x1c50, 0xa620, 0xa8d0, 0xa900, 0xa9d0, 0xa9f0, 0xaa50, 0xabf0, 0xff10, 0x104a0,
    0x10d30, 0x11066, 0x110f0, 0x11136, 0x111d0, 0x112f0, 0x11450, 0x114d0, 0x11650, 0x116c0,
    0x11730, 0x118e0, 0x11950, 0x11c50, 0x11d50, 0x11da0, 0x11f50, 0x16a60, 0x16ac0, 0x16b50,
    0x1d7ce, 0x1d7d8, 0x1d7e2, 0x1d7ec, 0x1d7f6, 0x1e140, 0x1e2f0, 0x1e4f0, 0x1e950, 0x1fbf0]

/-- A character is one of the ten digits from a code point on. -/
def isDigitFrom (character : Char) (start : Nat) : Bool :=
  start ≤ character.toNat && character.toNat < start + 10

/-- The value of a digit of any script. -/
def digitValue (character : Char) : Option Nat :=
  (('0'.toNat :: foreignZeros).find? (isDigitFrom character)).map (character.toNat - ·)

/-- The digits of a number, where one underscore may stand between two of them. -/
def digitsFrom (total : Nat) : Text → Option Nat
  | [] => some total
  | '_' :: digit :: rest =>
      match digitValue digit with
      | some value => digitsFrom (total * 10 + value) rest
      | none => none
  | digit :: rest =>
      match digitValue digit with
      | some value => digitsFrom (total * 10 + value) rest
      | none => none

/-- A number without a sign. -/
def natural : Text → Option Nat
  | [] => none
  | digit :: rest => (digitValue digit).bind fun value => digitsFrom value rest

/-- The separators of records are whitespace of a text, but not of a number. -/
def isSeparator (character : Char) : Bool := 28 ≤ character.toNat && character.toNat ≤ 31

/-- Read an integer: whitespace around it and a sign are allowed. -/
def readInteger (text : Text) : Option Int :=
  if text.any isSeparator then none
  else
    match strip text with
    | '-' :: rest => (natural rest).map (fun number => -(number : Int))
    | '+' :: rest => (natural rest).map (fun number => (number : Int))
    | digits => (natural digits).map (fun number => (number : Int))

def Tool.required (tool : Tool) : List Text := (tool.parameters.bind Parameters.required).getD []

/-- What is declared about the parameters of a tool. -/
def Tool.properties (tool : Tool) : List (Text × Property) :=
  (tool.parameters.bind Parameters.properties).getD []

/-- The name of the declared type of a parameter. -/
def Property.typeName (property : Property) : Option String :=
  match property.type.getD (.str "string") with
  | .str name => some name
  | _ => none

/-- Convert the text of an argument to its declared type. -/
def convertArgument (environment : Environment) (property : Option Property)
    (name value : Text) : Except Failure Value :=
  if property.bind Property.typeName = some "integer" then
    (orRaise (.notAnInteger name) (readInteger value)).map Value.int
  else if property.bind Property.typeName = some "array" then
    readJson environment (.notAnArray name) value
  else .ok (.str (String.ofList value))

/-- The declaration of a parameter, or the key that is missing on the way to it. -/
def declaration (tool : Tool) (name : Text) : Except Failure Property := do
  let parameters ← orRaise (.keyError "parameters".toList) tool.parameters
  let properties ← orRaise (.keyError "properties".toList) parameters.properties
  orRaise (.keyError name) (properties.lookup name)

def addArgument (environment : Environment) (tool : Tool) (functionName : Text)
    (arguments : List (Text × Value)) (name value : Text) :
    Except Failure (List (Text × Value)) :=
  let allowed := tool.properties.map Prod.fst
  if allowed ≠ [] ∧ name ∉ allowed then
    .error (.parameterNotAllowed name functionName allowed)
  else do
    let converted ← convertArgument environment (tool.properties.lookup name) name value
    let property ← declaration tool name
    match property.enum with
    | some values =>
        if values.any (converted.equal ·) then .ok (OrderedDict.put name converted arguments)
        else .error (.notInEnum name values)
    | none => .ok (OrderedDict.put name converted arguments)

def addArguments (environment : Environment) (tool : Tool) (functionName : Text) :
    List (Text × Value) → List (List Text) → Except Failure (List (Text × Value))
  | arguments, [] => .ok arguments
  | arguments, captures :: rest => do
      let arguments ← addArgument environment tool functionName arguments (captures.headD [])
        ((captures.drop 1).headD [])
      addArguments environment tool functionName arguments rest

/-- The arguments of a call; all that are required have to be there. -/
def extractAndValidateParams (environment : Environment) (tool : Tool)
    (captures : List (List Text)) (functionName : Text) :
    Except Failure (List (Text × Value)) := do
  let arguments ← addArguments environment tool functionName [] captures
  let missing := tool.required.filter (fun name => name ∉ arguments.map Prod.fst)
  if missing = [] then .ok arguments else .error (.missingParameters functionName missing)

def toolCallIdentifier (number : Nat) : Text :=
  "toolu_".toList ++ (if number < 10 then ['0'] else []) ++ (toString number).toList

/-- The part of a text before the first occurrence of another. -/
def firstPart (separator text : Text) : Text := (beforeFirst separator text).getD text

/-- Replace the first occurrence of a text. -/
def removeFirst (needle text : Text) : Text :=
  match beforeFirst needle text with
  | none => text
  | some front => front ++ text.drop (front.length + needle.length)

/-- Remove the example and the reminder around the first message of the user. -/
def removeExample (sample text : Text) : Text :=
  let shortened := if sample.isPrefixOf text then removeFirst sample text else text
  if inContextLearningExampleSuffix.isSuffixOf shortened then
    removeFirst inContextLearningExampleSuffix shortened
  else shortened

/-- A change of every text of a content. -/
def changeTexts (change : Text → Text) : Content → Content
  | .text text => .text (change text)
  | .items items => .items (items.map (fun item =>
      match item with
      | .text text cached => .text (change text) cached
      | .image url cached => .image url cached))

/-- The first result of a tool in a content. -/
def findResult : Content → Option (List Text)
  | .text text => search resultPattern text
  | .items items => items.findSome? (fun item =>
      match item with
      | .text text _ => search resultPattern text
      | .image _ _ => none)

/-- A content of the same kind with one text. -/
def Content.single (text : Text) : Content → Content
  | .text _ => .text text
  | .items _ => .items [.text text false]

def decodeUser (sample : Text) (seen : Bool) (counter : Nat) (content : Content) : Message :=
  let content := if seen then content else changeTexts (removeExample sample) content
  match findResult content with
  | some captures =>
      { role := .tool
        name := some (captures.headD [])
        content := some (content.single (strip ((captures.drop 1).headD [])))
        toolCallId := some (toolCallIdentifier (counter - 1)) }
  | none => { role := .user, content := some content }

/-- Read a call of the assistant. -/
def decodeCall (environment : Environment) (tools : List Tool) (counter : Nat)
    (name body : Text) : Except Failure ToolCall := do
  let available := tools.filter (fun tool => tool.type = functionType)
  let tool ← orRaise (.functionNotFound name (available.map Tool.name))
    (available.find? (fun tool => tool.name = name))
  let arguments ← extractAndValidateParams environment tool
    (findAll parameterPattern 0 (normalizeParameterTags body)) name
  return {
    index := some 1
    id := some (toolCallIdentifier counter)
    type := some functionType
    function := some {
      name := name
      arguments := environment.dumps (.mapping (arguments.map (fun argument =>
        (String.ofList argument.1, argument.2)))) } }

def textBeforeCall (text : Text) : Text := strip (firstPart functionOpening text)

/-- A content that is missing or empty counts as an empty text. -/
def contentOrEmpty : Option Content → Content
  | none | some (.items []) => .text []
  | some content => content

/-- Convert a message of the assistant back; a call is looked for in the last text. -/
def decodeAssistant (environment : Environment) (tools : List Tool) (counter : Nat)
    (message : Message) : Except Failure (Nat × Message) :=
  match contentOrEmpty message.content with
  | .text text =>
      let fixed := fixStopword text
      match search functionPattern fixed with
      | none => .ok (counter, message)
      | some captures => do
          let toolCall ← decodeCall environment tools counter (captures.headD [])
            ((captures.drop 1).headD [])
          return (counter + 1,
            { role := .assistant
              content := some (.text (textBeforeCall fixed))
              toolCalls := some [toolCall] })
  | .items items =>
      let fixed := (changeLastText fixStopword items).getD items
      let last := match fixed.getLast? with
        | some (.text text _) => search functionPattern text
        | _ => none
      match last with
      | none =>
          if fixed.any (fun item =>
              match item with
              | .text text _ => (search functionPattern text).isSome
              | .image _ _ => false) then .error (.callNotLast fixed)
          else .ok (counter, { message with content := some (.items fixed) })
      | some captures => do
          let toolCall ← decodeCall environment tools counter (captures.headD [])
            ((captures.drop 1).headD [])
          return (counter + 1,
            { role := .assistant
              content := some (.items ((changeLastText textBeforeCall fixed).getD fixed))
              toolCalls := some [toolCall] })

/-- Remove the suffix of a system prompt. -/
def removeSuffix (suffix : Text) : Content → Content
  | .text text => .text (firstPart suffix text)
  | .items items => .items ((changeLastText (firstPart suffix) items).getD items)

/-- Convert one message back; `seen` says that a message of the user was met, and
`counter` numbers the calls. -/
def decodeMessage (environment : Environment) (tools : List Tool) (suffix : Text)
    (seen : Bool) (counter : Nat) (message : Message) :
    Except Failure ((Bool × Nat) × Message) :=
  match message.role with
  | .system =>
      .ok ((seen, counter),
        { role := .system
          content := some (removeSuffix suffix (contentOrEmpty message.content)) })
  | .user =>
      .ok ((true, counter), decodeUser (getExampleForTools environment tools) seen counter
        (contentOrEmpty message.content))
  | .assistant => do
      let (counter, converted) ← decodeAssistant environment tools counter message
      return ((seen, counter), converted)
  | role => .error (.unexpectedRole role)

/-- Convert messages back one by one. -/
def decodeFrom (environment : Environment) (tools : List Tool) (suffix : Text) :
    Bool → Nat → List Message → Except Failure (List Message)
  | _, _, [] => .ok []
  | seen, counter, message :: rest => do
      let ((seen, counter), converted) ←
        decodeMessage environment tools suffix seen counter message
      let others ← decodeFrom environment tools suffix seen counter rest
      return converted :: others

/-- Convert a conversation without function calls back to one with them. -/
def convertNonFncallMessagesToFncallMessages (environment : Environment)
    (messages : List Message) (tools : List Tool) : Except Failure (List Message) := do
  let description ← orRaise .assertionError (convertToolsToDescription environment tools)
  decodeFrom environment tools (systemPromptSuffix description) false 1 messages

end ForgePilot.FnCalls
