import ForgePilot.FnCallRoundTrip
import ForgePilot.Outcomes

/-!
# How reading model text fails

What a model writes is read back into calls. Whatever the text is, reading fails with an error of conversion or of
validation, or gives calls that keep to the declaration of a tool. There are exceptions: an argument of a tool that
declares no parameters is looked up in a table that does not have it, a tool may have no description to read, and
an array may exceed a limit of the JSON reader.
-/

namespace ForgePilot.ParsingFailures

open FnCalls Patterns List OrderedDict

/-- Who speaks in a conversation without function calls. -/
inductive Speaker where
  | system
  | user
  | assistant

def Speaker.role : Speaker → Role
  | .system => .system
  | .user => .user
  | .assistant => .assistant

abbrev Turn := Speaker × Text

def turnMessage (turn : Turn) : Message where
  role := turn.1.role
  content := some (.text turn.2)

/-- A tool as it is given: its description may be missing. -/
structure ToolParam where
  type : Text := functionType
  name : Text
  description : Option Text := none
  parameters : Option Parameters := none

/-- The description of each tool is read before anything else, and each tool has to be a function. -/
def requireDescriptions : List ToolParam → Except Failure (List Tool)
  | [] => .ok []
  | tool :: rest =>
      if tool.type ≠ functionType then .error .assertionError
      else
        match tool.description with
        | none => .error (.keyError "description".toList)
        | some description => do
            let others ← requireDescriptions rest
            return { type := tool.type, name := tool.name, description, parameters := tool.parameters } :: others

def convert (environment : Environment) (turns : List Turn) (params : List ToolParam) :
    Except Failure (List Message) := do
  let tools ← requireDescriptions params
  convertNonFncallMessagesToFncallMessages environment (turns.map turnMessage) tools

/-- The errors of conversion and of validation. -/
def Declared : Failure → Prop
  | .keyError _ | .assertionError | .attributeError | .typeError | .limitExceeded => False
  | _ => True

/-! ## What reading promises -/

structure Conforms (property : Property) (value : Value) : Prop where
  integer : property.typeName = some "integer" → ∃ number, value = .int number
  enum : ∀ values ∈ property.enum, values.any (value.equal ·) = true

/-- A call of a listed tool, with declared arguments only and all that are required. -/
structure ProperCall (environment : Environment) (params : List ToolParam) (call : ToolCall) : Prop where
  proper : ∃ tool ∈ params, ∃ arguments : List (Text × Value),
    call.function = some
      { name := tool.name
        arguments := environment.dumps (.mapping (arguments.map fun argument =>
          (String.ofList argument.1, argument.2))) } ∧
    (∀ argument ∈ arguments, ∃ parameters properties property, tool.parameters = some parameters ∧
      parameters.properties = some properties ∧ properties.lookup argument.1 = some property ∧
      Conforms property argument.2) ∧
    ∀ parameters, tool.parameters = some parameters → ∀ required, parameters.required = some required →
      ∀ name ∈ required, name ∈ arguments.map Prod.fst

def ProperMessage (environment : Environment) (params : List ToolParam) (message : Message) : Prop :=
  ∀ calls ∈ message.toolCalls, ∀ call ∈ calls, ProperCall environment params call

/-- What comes out of reading a conversation. -/
def Proper (environment : Environment) (params : List ToolParam) :
    Except Failure (List Message) → Prop
  | .ok messages => ∀ message ∈ messages, ProperMessage environment params message
  | .error failure => Declared failure

/-! ## When it is kept -/

/-- The name and the arguments of the call in a text of the assistant. -/
def callIn (text : Text) : Option (Text × List (List Text)) :=
  (search functionPattern (fixStopword text)).map fun captures =>
    (captures.headD [], findAll parameterPattern 0 (normalizeParameterTags ((captures.drop 1).headD [])))

/-- The first tool of a name. -/
def toolNamed (params : List ToolParam) (name : Text) : Option ToolParam :=
  params.find? fun tool => tool.name = name

/-- What is declared about the parameters of a tool. -/
def declared (tool : ToolParam) : List (Text × Property) :=
  (tool.parameters.bind Parameters.properties).getD []

/-- How the text of an argument is read for its declared type. -/
def Reads (environment : Environment) (property : Property) (text : Text) (value : Value) : Prop :=
  if property.typeName = some "integer" then ∃ number, readInteger text = some number ∧ value = .int number
  else if property.typeName = some "array" then environment.loads text = some value
  else value = .str (String.ofList text)

/-- An argument that is declared, can be read and is among the listed values. -/
def AcceptedArgument (environment : Environment) (tool : ToolParam) (captures : List Text) : Prop :=
  ∃ property value, (declared tool).lookup (captures.headD []) = some property ∧
    Reads environment property ((captures.drop 1).headD []) value ∧
    ∀ values ∈ property.enum, values.any (value.equal ·) = true

def requires (tool : ToolParam) : List Text := (tool.parameters.bind Parameters.required).getD []

/-- An argument of a tool that declares no parameters, or an array beyond the limits of the reader. -/
def BreakingArgument (environment : Environment) (tool : ToolParam) (captures : List Text) : Prop :=
  declared tool = [] ∨ ∃ property, (declared tool).lookup (captures.headD []) = some property ∧
    property.typeName = some "array" ∧ environment.loads ((captures.drop 1).headD []) = none ∧
    environment.exceeds ((captures.drop 1).headD []) = true

/-- A call that fits the first tool of its name. -/
def AcceptedCall (environment : Environment) (params : List ToolParam) (name : Text)
    (arguments : List (List Text)) : Prop :=
  ∃ tool, toolNamed params name = some tool ∧
    (∀ captures ∈ arguments, AcceptedArgument environment tool captures) ∧
    ∀ parameter ∈ requires tool, parameter ∈ arguments.map fun captures => captures.headD []

/-- A call of a tool, whose first argument that is not accepted breaks the reading. -/
def BreakingCall (environment : Environment) (params : List ToolParam) (name : Text)
    (arguments : List (List Text)) : Prop :=
  ∃ tool, toolNamed params name = some tool ∧
    FirstBreaks (AcceptedArgument environment tool) (BreakingArgument environment tool) arguments

/-- A turn that is read without an error: its call, if there is one, fits. -/
def AcceptedTurn (environment : Environment) (params : List ToolParam) (turn : Turn) : Prop :=
  match turn.1, callIn turn.2 with
  | .assistant, some (name, arguments) => AcceptedCall environment params name arguments
  | _, _ => True

def BreakingTurn (environment : Environment) (params : List ToolParam) (turn : Turn) : Prop :=
  match turn.1, callIn turn.2 with
  | .assistant, some (name, arguments) => BreakingCall environment params name arguments
  | _, _ => False

/-- All tools are described functions, and the first turn that is not accepted, if there is one, breaks nothing. -/
structure Safe (environment : Environment) (params : List ToolParam) (turns : List Turn) : Prop where
  described : ∀ tool ∈ params, tool.type = functionType ∧ tool.description.isSome = true
  calls : ¬ FirstBreaks (AcceptedTurn environment params) (BreakingTurn environment params) turns

/-! ## Tools and arguments -/

/-- A tool whose description is there. -/
def ToolParam.described (tool : ToolParam) : Tool where
  type := tool.type
  name := tool.name
  description := tool.description.getD []
  parameters := tool.parameters

variable (env : Environment) (params : List ToolParam)

/-- Descriptions are read of described functions only. -/
theorem descriptions_required :
    OutcomeSpec Declared (∀ tool ∈ params, tool.type = functionType ∧ tool.description.isSome = true)
      (¬ ∀ tool ∈ params, tool.type = functionType ∧ tool.description.isSome = true)
      (fun tools => tools = params.map ToolParam.described) (requireDescriptions params) := by
  induction params with
  | nil => exact OutcomeSpec.of_ok (by simp) (by simp) rfl
  | cons tool rest ih =>
    rw [requireDescriptions]
    by_cases function : tool.type = functionType
    · rw [if_neg (not_not_intro function)]
      cases described : tool.description with
      | none =>
        refine OutcomeSpec.of_unexpected ?_ ?_ id
        all_goals
          intro all
          have := (all tool (.head _)).2
          simp [described] at this
      | some description =>
        have front (others : List Tool) (same : others = rest.map ToolParam.described) :
            { type := tool.type, name := tool.name, description, parameters := tool.parameters } :: others =
              (tool :: rest).map ToolParam.described := by
          simp [ToolParam.described, described, same]
        refine (ih.map front).congr ?_ ?_
        · simp [function, described]
        · simp [function, described]
    · rw [if_pos (by simpa using function)]
      exact OutcomeSpec.of_unexpected (fun all => function (all tool (.head _)).1)
        (fun all => function (all tool (.head _)).1) id

variable {property : Property}

variable {name : Text}

section Arguments

variable (env : Environment)

theorem Reads.unique {env : Environment} {text : Text} {first second : Value}
    (one : Reads env property text first) (other : Reads env property text second) :
    first = second := by
  unfold Reads at one other
  split at one
  · rename_i integer
    rw [if_pos integer] at other
    obtain ⟨number, read, rfl⟩ := one
    obtain ⟨same, again, rfl⟩ := other
    rw [Option.some.inj (read.symm.trans again)]
  · rename_i integer
    rw [if_neg integer] at other
    split at one
    · rename_i array
      rw [if_pos array] at other
      exact Option.some.inj (one.symm.trans other)
    · rename_i array
      rw [if_neg array] at other
      exact one.trans other.symm

/-- The text of a declared argument is read as its type says. -/
theorem argument_converted (property : Property) (name text : Text) :
    OutcomeSpec Declared (∃ value, Reads env property text value)
      (property.typeName = some "array" ∧ env.loads text = none ∧ env.exceeds text = true)
      (Reads env property text) (convertArgument env (some property) name text) := by
  unfold convertArgument Reads
  simp only [Option.bind_some]
  by_cases integer : property.typeName = some "integer"
  · simp only [if_pos integer]
    have other : ¬ property.typeName = some "array" := by simp [integer]
    cases read : readInteger text with
    | none => exact OutcomeSpec.of_expected (by simp) (fun broken => other broken.1) trivial
    | some number =>
      exact OutcomeSpec.of_ok ⟨_, number, rfl, rfl⟩ (fun broken => other broken.1) ⟨number, rfl, rfl⟩
  · simp only [if_neg integer]
    by_cases array : property.typeName = some "array"
    · simp only [if_pos array, readJson]
      cases read : env.loads text with
      | some value => exact OutcomeSpec.of_ok ⟨value, rfl⟩ (by simp) rfl
      | none =>
        by_cases exceeds : env.exceeds text = true
        · rw [if_pos exceeds]
          exact OutcomeSpec.of_unexpected (by simp) ⟨array, rfl, exceeds⟩ id
        · rw [if_neg exceeds]
          exact OutcomeSpec.of_expected (by simp) (fun broken => exceeds broken.2.2) trivial
    · simp only [if_neg array]
      exact OutcomeSpec.of_ok ⟨_, rfl⟩ (fun broken => array broken.1) rfl

variable {value : Value}

theorem Reads.conforms {env : Environment} {text : Text} (reads : Reads env property text value)
    (listed : ∀ values ∈ property.enum, values.any (value.equal ·) = true) :
    Conforms property value where
  integer declared := by
    rw [Reads, if_pos declared] at reads
    obtain ⟨number, -, rfl⟩ := reads
    exact ⟨number, rfl⟩
  enum := listed

variable (tool : ToolParam)

/-- A declaration is looked up where there is none. -/
theorem declaration_missing (name : Text) (sparse : declared tool = []) :
    ∃ key, declaration tool.described name = .error (.keyError key) := by
  unfold declaration
  generalize "parameters".toList = first
  show ∃ key, (orRaise _ tool.parameters).bind _ = _
  cases parameters : tool.parameters with
  | none => exact ⟨_, rfl⟩
  | some given =>
    show ∃ key, (orRaise _ given.properties).bind _ = _
    cases properties : given.properties with
    | none => exact ⟨_, rfl⟩
    | some entries =>
      have empty : entries = [] := by simpa [declared, parameters, properties] using sparse
      exact ⟨name, by rw [empty]; rfl⟩

theorem declaration_found (name : Text) (property : Property)
    (found : (declared tool).lookup name = some property) :
    declaration tool.described name = .ok property := by
  unfold declaration
  generalize "parameters".toList = first
  show (orRaise _ tool.parameters).bind _ = _
  cases parameters : tool.parameters with
  | none => simp [declared, parameters] at found
  | some given =>
    show (orRaise _ given.properties).bind _ = _
    cases properties : given.properties with
    | none => simp [declared, parameters, properties] at found
    | some entries =>
      have same : entries.lookup name = some property := by
        simpa [declared, parameters, properties] using found
      show orRaise _ (entries.lookup name) = _
      rw [same]
      rfl

variable (functionName : Text) (args : List (Text × Value))

/-- An argument is added when it is accepted. -/
theorem argument_added (captures : List Text) :
    OutcomeSpec Declared (AcceptedArgument env tool captures) (BreakingArgument env tool captures)
      (fun added => ∃ property value, (declared tool).lookup (captures.headD []) = some property ∧
        Conforms property value ∧ added = OrderedDict.put (captures.headD []) value args)
      (addArgument env tool.described functionName args (captures.headD [])
        ((captures.drop 1).headD [])) := by
  have properties : tool.described.properties = declared tool := rfl
  unfold addArgument
  simp only [properties]
  by_cases sparse : declared tool = []
  · rw [if_neg (by simp [sparse]), sparse]
    obtain ⟨key, missing⟩ := declaration_missing tool (captures.headD []) sparse
    have converted : convertArgument env none (captures.headD []) ((captures.drop 1).headD []) =
        .ok (.str (String.ofList ((captures.drop 1).headD []))) := rfl
    simp only [lookup_nil, converted, missing, bind, Except.bind]
    refine OutcomeSpec.of_unexpected ?_ (.inl sparse) id
    rintro ⟨property, value, found, -⟩
    simp [sparse] at found
  · cases found : (declared tool).lookup (captures.headD []) with
    | none =>
      have unknown : captures.headD [] ∉ (declared tool).map Prod.fst := by
        intro known
        obtain ⟨entry, member, same⟩ := mem_map.mp known
        have different := lookup_eq_none_iff.mp found entry member
        simp [same] at different
      rw [if_pos ⟨by simpa using sparse, unknown⟩]
      refine OutcomeSpec.of_expected ?_ ?_ trivial
      · rintro ⟨property, value, other, -⟩
        exact nomatch found.symm.trans other
      · rintro (empty | ⟨property, other, -⟩)
        · exact sparse empty
        · exact nomatch found.symm.trans other
    | some property =>
      have known : captures.headD [] ∈ (declared tool).map Prod.fst := by
        obtain ⟨front, back, shape, -⟩ := lookup_eq_some_iff.mp found
        simp [shape]
      rw [if_neg (fun refused => refused.2 known), declaration_found tool _ property found]
      have conversion := argument_converted env property (captures.headD []) ((captures.drop 1).headD [])
      cases converted : convertArgument env (some property) (captures.headD [])
          ((captures.drop 1).headD []) with
      | error failure =>
        obtain ⟨unread, told⟩ := conversion.error failure converted
        refine OutcomeSpec.of_error ?_ (told.trans (not_congr ?_))
        · rintro ⟨same, value, again, reads, -⟩
          cases found.symm.trans again
          exact unread ⟨value, reads⟩
        · constructor
          · exact fun exceeds => .inr ⟨property, found, exceeds⟩
          · rintro (empty | ⟨same, again, exceeds⟩)
            · exact absurd empty sparse
            · cases found.symm.trans again
              exact exceeds
      | ok value =>
        obtain ⟨-, whole, reads⟩ := conversion.ok value converted
        have unbroken : ¬ BreakingArgument env tool captures := by
          rintro (empty | ⟨same, again, exceeds⟩)
          · exact sparse empty
          · cases found.symm.trans again
            exact whole exceeds
        have accepted : AcceptedArgument env tool captures ↔
            ∀ values ∈ property.enum, values.any (value.equal ·) = true := by
          constructor
          · rintro ⟨same, other, again, read, listed⟩
            cases found.symm.trans again
            exact read.unique reads ▸ listed
          · exact fun listed => ⟨property, value, found, reads, listed⟩
        refine OutcomeSpec.congr ?_ accepted.symm Iff.rfl
        simp only [bind, Except.bind]
        cases enum : property.enum with
        | none =>
          have listed : ∀ values ∈ property.enum, values.any (value.equal ·) = true := by simp [enum]
          exact OutcomeSpec.of_ok (by simp) unbroken ⟨property, value, rfl, reads.conforms listed, rfl⟩
        | some values =>
          by_cases listed : values.any (value.equal ·) = true
          · have all : ∀ values ∈ property.enum, values.any (value.equal ·) = true := by
              simpa [enum] using listed
            simp only [if_pos listed]
            exact OutcomeSpec.of_ok (by simpa using listed) unbroken
              ⟨property, value, rfl, reads.conforms all, rfl⟩
          · simp only [if_neg listed]
            exact OutcomeSpec.of_expected (by simpa using listed) unbroken trivial

/-- Arguments that are declared and have their types. -/
def AllDeclared (tool : ToolParam) (arguments : List (Text × Value)) : Prop :=
  ∀ argument ∈ arguments, ∃ property, (declared tool).lookup argument.1 = some property ∧
    Conforms property argument.2

theorem AllDeclared.put {tool : ToolParam} {args : List (Text × Value)}
    (all : AllDeclared tool args) (found : (declared tool).lookup name = some property)
    (conforms : Conforms property value) : AllDeclared tool (OrderedDict.put name value args) := by
  intro argument member
  cases mem_put member with
  | inl same => exact same ▸ ⟨property, found, conforms⟩
  | inr before => exact all argument before

variable (given : List (List Text))

/-- Arguments are added up to the first that is not accepted. -/
theorem arguments_added (all : AllDeclared tool args) :
    OutcomeSpec Declared (∀ captures ∈ given, AcceptedArgument env tool captures)
      (FirstBreaks (AcceptedArgument env tool) (BreakingArgument env tool) given)
      (fun added => AllDeclared tool added ∧ ∀ name, name ∈ added.map Prod.fst ↔
        name ∈ args.map Prod.fst ∨ name ∈ given.map fun captures => captures.headD [])
      (addArguments env tool.described functionName args given) := by
  induction given generalizing args with
  | nil => exact OutcomeSpec.of_ok (by simp) (first_breaks_nil _ _) ⟨all, by simp⟩
  | cons captures rest ih =>
    have behind (added : List (Text × Value))
        (fine : ∃ property value, (declared tool).lookup (captures.headD []) = some property ∧
          Conforms property value ∧ added = put (captures.headD []) value args) :
        OutcomeSpec Declared (∀ captures ∈ rest, AcceptedArgument env tool captures)
          (FirstBreaks (AcceptedArgument env tool) (BreakingArgument env tool) rest)
          (fun added => AllDeclared tool added ∧ ∀ name, name ∈ added.map Prod.fst ↔
            name ∈ args.map Prod.fst ∨ name ∈ (captures :: rest).map fun captures => captures.headD [])
          (addArguments env tool.described functionName added rest) := by
      obtain ⟨property, value, found, conforms, rfl⟩ := fine
      refine (ih _ (all.put found conforms)).imp ?_
      rintro more ⟨declared, names⟩
      refine ⟨declared, fun name => ?_⟩
      rw [names, mem_put_keys, map_cons, mem_cons, or_assoc, or_left_comm]
    exact ((argument_added env _ functionName ..).bind behind).congr
      forall_mem_cons.symm (first_breaks_cons ..).symm

/-- The arguments of a call that has all it requires. -/
theorem params_validated :
    OutcomeSpec Declared ((∀ captures ∈ given, AcceptedArgument env tool captures) ∧
        ∀ parameter ∈ requires tool, parameter ∈ given.map fun captures => captures.headD [])
      (FirstBreaks (AcceptedArgument env tool) (BreakingArgument env tool) given)
      (fun args => AllDeclared tool args ∧ ∀ parameter ∈ requires tool,
        parameter ∈ args.map Prod.fst)
      (extractAndValidateParams env tool.described given functionName) := by
  have behind (args : List (Text × Value))
      (fine : AllDeclared tool args ∧ ∀ name, name ∈ args.map Prod.fst ↔
        name ∈ ([] : List (Text × Value)).map Prod.fst ∨ name ∈ given.map fun captures => captures.headD []) :
      OutcomeSpec Declared (∀ parameter ∈ requires tool, parameter ∈ given.map fun captures => captures.headD [])
        False
        (fun args => AllDeclared tool args ∧
          ∀ parameter ∈ requires tool, parameter ∈ args.map Prod.fst)
        (if (requires tool).filter (fun name => name ∉ args.map Prod.fst) = [] then .ok args
          else .error (.missingParameters functionName
            ((requires tool).filter fun name => name ∉ args.map Prod.fst))) := by
    obtain ⟨all, names⟩ := fine
    have same (name : Text) : name ∈ args.map Prod.fst ↔
        name ∈ given.map fun captures => captures.headD [] := by
      rw [names, map_nil, or_iff_right not_mem_nil]
    have complete : (requires tool).filter (fun name => name ∉ args.map Prod.fst) = [] ↔
        ∀ parameter ∈ requires tool, parameter ∈ args.map Prod.fst := by
      simp [filter_eq_nil_iff]
    by_cases missing : (requires tool).filter (fun name => name ∉ args.map Prod.fst) = []
    · rw [if_pos missing]
      have there := complete.mp missing
      exact OutcomeSpec.of_ok (fun parameter required => (same parameter).mp (there parameter required)) id
        ⟨all, there⟩
    · rw [if_neg missing]
      refine OutcomeSpec.of_expected (fun there => missing (complete.mpr ?_)) id trivial
      exact fun parameter required => (same parameter).mpr (there parameter required)
  have added := arguments_added env tool functionName [] given (by simp [AllDeclared])
  exact (added.bind behind).congr Iff.rfl (by rw [and_false, or_false])

end Arguments

/-! ## Calls and turns -/

/-- No message of the user has calls. -/
theorem user_calls (sample : Text) (seen : Bool) (counter : Nat) (content : Content) :
    (decodeUser sample seen counter content).toolCalls = none := by
  unfold decodeUser
  generalize (if seen then content else changeTexts (removeExample sample) content) = shortened
  dsimp only
  cases findResult shortened <;> rfl

variable (tools : List Tool) (suffix : Text) (seen : Bool) (counter : Nat) (text : Text)

/-- A turn of the assistant without a call is kept. -/
theorem silent_kept (silent : search functionPattern (fixStopword text) = none) :
    decodeMessage env tools suffix seen counter (turnMessage (.assistant, text)) =
      .ok ((seen, counter), turnMessage (.assistant, text)) := by
  simp [decodeMessage, turnMessage, Speaker.role, decodeAssistant, contentOrEmpty, silent]

/-- The message with a call that was read from a text. -/
def calling (text : Text) (toolCall : ToolCall) : Message where
  role := .assistant
  content := some (.text (textBeforeCall (fixStopword text)))
  toolCalls := some [toolCall]

theorem call_read (captures : List Text)
    (searched : search functionPattern (fixStopword text) = some captures) :
    decodeMessage env tools suffix seen counter (turnMessage (.assistant, text)) =
      (decodeCall env tools counter (captures.headD []) ((captures.drop 1).headD [])).bind
        fun toolCall => .ok ((seen, counter + 1), calling text toolCall) := by
  simp only [decodeMessage, turnMessage, Speaker.role, decodeAssistant, contentOrEmpty, searched, bind,
    Except.bind, pure, Except.pure]
  cases decodeCall env tools counter (captures.headD []) ((captures.drop 1).headD []) <;> rfl

/-- What is declared is declared among the properties of the parameters. -/
theorem declared_found {tool : ToolParam} (found : (declared tool).lookup name = some property) :
    ∃ parameters properties, tool.parameters = some parameters ∧ parameters.properties = some properties ∧
      properties.lookup name = some property := by
  unfold declared at found
  cases parameters : tool.parameters with
  | none => simp [parameters] at found
  | some given =>
    cases properties : given.properties with
    | none => simp [parameters, properties] at found
    | some entries => exact ⟨given, entries, rfl, properties, by simpa [parameters, properties] using found⟩

section Turns

variable (env : Environment) (params : List ToolParam)
  (functions : ∀ tool ∈ params, tool.type = functionType)

include functions

theorem tool_found (name : Text) :
    ((params.map ToolParam.described).filter (fun tool => tool.type = functionType)).find?
      (fun tool => tool.name = name) = (toolNamed params name).map ToolParam.described := by
  have all : (params.map ToolParam.described).filter (fun tool => tool.type = functionType) =
      params.map ToolParam.described := by
    rw [filter_eq_self]
    intro tool member
    obtain ⟨param, listed, rfl⟩ := mem_map.mp member
    exact decide_eq_true (functions param listed)
  rw [all, find?_map]
  rfl

/-- A call is read for the first tool of its name. -/
theorem call_decoded (counter : Nat) (name body : Text) : OutcomeSpec Declared
      (AcceptedCall env params name (findAll parameterPattern 0 (normalizeParameterTags body)))
      (BreakingCall env params name (findAll parameterPattern 0 (normalizeParameterTags body)))
      (ProperCall env params)
      (decodeCall env (params.map ToolParam.described) counter name body) := by
  unfold decodeCall
  simp only [tool_found _ functions]
  cases named : toolNamed params name with
  | none =>
    refine OutcomeSpec.of_expected ?_ ?_ trivial
    all_goals
      rintro ⟨tool, other, -⟩
      exact nomatch named.symm.trans other
  | some tool =>
    obtain ⟨listed, same⟩ : tool ∈ params ∧ tool.name = name :=
      ⟨mem_of_find?_eq_some named, by simpa using find?_some named⟩
    refine ((params_validated ..).map ?_).congr ?_ ?_
    · rintro args ⟨all, complete⟩
      refine ⟨tool, listed, args, by rw [same], ?_, ?_⟩
      · intro argument member
        obtain ⟨property, found, conforms⟩ := all argument member
        obtain ⟨parameters, properties, given, shown, found⟩ := declared_found found
        exact ⟨parameters, properties, property, given, shown, found, conforms⟩
      · intro parameters given required shown
        simpa [requires, given, shown] using complete
    · constructor
      · exact fun accepted => ⟨tool, named, accepted⟩
      · rintro ⟨other, again, accepted⟩
        cases named.symm.trans again
        exact accepted
    · constructor
      · exact fun broken => ⟨tool, named, broken⟩
      · rintro ⟨other, again, broken⟩
        cases named.symm.trans again
        exact broken

/-- A turn is read as it is accepted; nothing but a turn of the assistant is refused. -/
theorem turn_decoded (suffix : Text) (seen : Bool) (counter : Nat) (turn : Turn) :
    OutcomeSpec Declared (AcceptedTurn env params turn) (BreakingTurn env params turn)
      (fun converted => ProperMessage env params converted.2)
      (decodeMessage env (params.map ToolParam.described) suffix seen counter (turnMessage turn)) := by
  obtain ⟨speaker, text⟩ := turn
  cases speaker with
  | system => exact OutcomeSpec.of_ok trivial id (by simp [ProperMessage])
  | user =>
    refine OutcomeSpec.of_ok trivial id ?_
    intro calls member
    rw [user_calls] at member
    exact nomatch member
  | assistant =>
    cases searched : search functionPattern (fixStopword text) with
    | none =>
      have silent : callIn text = none := by rw [callIn, searched, Option.map_none]
      rw [silent_kept env _ _ _ _ _ searched]
      exact OutcomeSpec.of_ok (by simp [AcceptedTurn, silent])
        (by simp [BreakingTurn, silent]) (by simp [turnMessage, ProperMessage])
    | some captures =>
      have told : callIn text = some (captures.headD [],
          findAll parameterPattern 0 (normalizeParameterTags ((captures.drop 1).headD []))) := by
        rw [callIn, searched, Option.map_some]
      have proper (toolCall : ToolCall) (fine : ProperCall env params toolCall) :
          ProperMessage env params (calling text toolCall) := by
        intro calls member call among
        cases Option.some.inj member
        exact mem_singleton.mp among ▸ fine
      rw [call_read env _ _ _ _ _ _ searched]
      simp only [AcceptedTurn, BreakingTurn, told]
      exact (call_decoded env _ functions ..).map proper

/-- Turns are read up to the first that is not accepted. -/
theorem turns_decoded (suffix : Text) (seen : Bool) (counter : Nat) (turns : List Turn) :
    OutcomeSpec Declared (∀ turn ∈ turns, AcceptedTurn env params turn)
      (FirstBreaks (AcceptedTurn env params) (BreakingTurn env params) turns)
      (fun messages => ∀ message ∈ messages, ProperMessage env params message)
      (decodeFrom env (params.map ToolParam.described) suffix seen counter
        (turns.map turnMessage)) := by
  induction turns generalizing seen counter with
  | nil => exact OutcomeSpec.of_ok (by simp) (first_breaks_nil _ _) (by simp)
  | cons turn rest ih =>
    have behind (converted : (Bool × Nat) × Message) (fine : ProperMessage env params converted.2) :
        OutcomeSpec Declared (∀ turn ∈ rest, AcceptedTurn env params turn)
          (FirstBreaks (AcceptedTurn env params) (BreakingTurn env params) rest)
          (fun messages => ∀ message ∈ messages, ProperMessage env params message)
          ((decodeFrom env (params.map ToolParam.described) suffix converted.1.1 converted.1.2
            (rest.map turnMessage)).bind fun others => .ok (converted.2 :: others)) :=
      (ih converted.1.1 converted.1.2).map
        fun messages others => forall_mem_cons.mpr ⟨fine, others⟩
    exact ((turn_decoded env _ functions ..).bind behind).congr
      forall_mem_cons.symm (first_breaks_cons ..).symm

end Turns

/-- The promise is about results and about errors. -/
theorem proper_sound (result : Except Failure (List Message)) : Proper env params result ↔
      (∀ messages, result = .ok messages → ∀ message ∈ messages, ProperMessage env params message) ∧
        ∀ failure, result = .error failure → Declared failure := by
  cases result <;> simp [Proper]

/-- Reading keeps its promise exactly when nothing breaks it. -/
theorem proper_iff (environment : Environment) (params : List ToolParam) (turns : List Turn) :
    Proper environment params (convert environment turns params) ↔ Safe environment params turns := by
  have behind (tools : List Tool)
      (told : (∀ tool ∈ params, tool.type = functionType ∧ tool.description.isSome = true) ∧
        tools = params.map ToolParam.described) :
      OutcomeSpec Declared (∀ turn ∈ turns, AcceptedTurn environment params turn)
        (FirstBreaks (AcceptedTurn environment params) (BreakingTurn environment params) turns)
        (fun messages => ∀ message ∈ messages, ProperMessage environment params message)
        (convertNonFncallMessagesToFncallMessages environment (turns.map turnMessage) tools) := by
    obtain ⟨described, rfl⟩ := told
    have functions (tool : ToolParam) (member : tool ∈ params) : tool.type = functionType :=
      (described tool member).1
    unfold convertNonFncallMessagesToFncallMessages
    have all : (params.map ToolParam.described).all (fun tool => tool.type = functionType) = true := by
      rw [List.all_map, List.all_eq_true]
      exact fun tool member => decide_eq_true (functions tool member)
    rw [convertToolsToDescription, if_pos all]
    exact turns_decoded _ _ functions ..
  have outcome := (descriptions_required ..).told.bind behind
  have safe : ¬ (¬ (∀ tool ∈ params, tool.type = functionType ∧ tool.description.isSome = true) ∨
      (∀ tool ∈ params, tool.type = functionType ∧ tool.description.isSome = true) ∧
        FirstBreaks (AcceptedTurn environment params) (BreakingTurn environment params) turns) ↔
      Safe environment params turns := by
    rw [not_or, not_not, not_and]
    exact ⟨fun both => ⟨both.1, both.2 both.1⟩, fun safe => ⟨safe.described, fun _ => safe.calls⟩⟩
  rw [← safe, ← outcome.sound_iff, proper_sound]
  exact Iff.rfl

/-! ## A clock that is asked for a time zone -/

/-- No text is JSON. -/
def plain : Environment where
  loads _ := none
  dumps _ := []
  repr _ := []
  windows := false

/-- A tool without parameters. -/
def clock : ToolParam where
  name := ['n', 'o', 'w']
  description := some ['T', 'h', 'e', ' ', 't', 'i', 'm', 'e', '.']

def asked : Turn :=
  (.assistant, callText clock.name (parameterTag ['z', 'o', 'n', 'e'] ['U', 'T', 'C'] ++ ['\n']))

theorem zone_fails : ∃ key, convert plain [asked] [clock] = .error (.keyError key) := ⟨_, rfl⟩

/-- The argument is looked up among parameters that the tool does not have. -/
theorem clock_improper :
    ¬ ∀ (environment : Environment) (params : List ToolParam) (turns : List Turn),
      Proper environment params (convert environment turns params) := by
  intro all
  obtain ⟨key, failed⟩ := zone_fails
  have proper := all plain [clock] [asked]
  rw [failed] at proper
  exact proper

end ForgePilot.ParsingFailures
