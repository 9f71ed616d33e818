import Mathlib.Data.List.Basic

/-!
# Values carried in payloads

The values that reach a payload: mappings, lists, tuples, texts, numbers and
booleans. A floating-point number is kept as the text it prints as, and an object
of any other class with its class and the text it prints as; no function of the
development looks inside one.
-/

namespace ForgePilot

/-- A payload value. Mappings list their entries in order, keys as texts. -/
inductive Value where
  | none
  | bool (value : Bool)
  | int (value : Int)
  | float (printed : String)
  | str (text : String)
  | list (items : List Value)
  | tuple (items : List Value)
  | mapping (entries : List (String × Value))
  | object (className printed : String)

namespace Value

def hexDigit (number : Nat) : Char := Nat.digitChar (number % 16)

/-- A character inside a JSON text. -/
def escapeCharacter (character : Char) : List Char :=
  if character = '"' then ['\\', '"']
  else if character = '\\' then ['\\', '\\']
  else if character = '\n' then ['\\', 'n']
  else if character = '\r' then ['\\', 'r']
  else if character = '\t' then ['\\', 't']
  else if character.toNat = 8 then ['\\', 'b']
  else if character.toNat = 12 then ['\\', 'f']
  else if character.toNat < 32 then
    ['\\', 'u', '0', '0', hexDigit (character.toNat / 16), hexDigit character.toNat]
  else [character]

/-- A JSON text; characters beyond ASCII stand for themselves. -/
def jsonText (text : String) : String :=
  "\"" ++ String.ofList (text.toList.flatMap escapeCharacter) ++ "\""

mutual

/-- The JSON form of a value; objects of other classes have none. -/
def jsonDumps : Value → Except String String
  | .none => .ok "null"
  | .bool value => .ok (if value then "true" else "false")
  | .int value => .ok (toString value)
  | .float printed => .ok printed
  | .str text => .ok (jsonText text)
  | .list items => do return "[" ++ ", ".intercalate (← jsonItems items) ++ "]"
  | .tuple items => do return "[" ++ ", ".intercalate (← jsonItems items) ++ "]"
  | .mapping entries =>
      do return "\x7b" ++ ", ".intercalate (← jsonEntries entries) ++ "\x7d"
  | .object className _ =>
      .error ("Object of type " ++ className ++ " is not JSON serializable")

def jsonItems : List Value → Except String (List String)
  | [] => .ok []
  | item :: rest => do return (← jsonDumps item) :: (← jsonItems rest)

/-- The JSON forms of the entries of a mapping. -/
def jsonEntries : List (String × Value) → Except String (List String)
  | [] => .ok []
  | (key, item) :: rest =>
      do return (jsonText key ++ ": " ++ (← jsonDumps item)) :: (← jsonEntries rest)

end

/-- The numeral a number prints as: a truth value counts as a number, and a
floating-point number that is whole as the whole number. -/
def numeral : Value → Option String
  | .bool value => some (if value then "1" else "0")
  | .int value => some (toString value)
  | .float printed =>
      if ['.', '0'].isSuffixOf printed.toList then
        some (String.ofList (printed.toList.take (printed.toList.length - 2)))
      else some printed
  | _ => .none

mutual

/-- Equality of values: numbers are compared by their numerals, mappings without
regard to order. -/
def equal : Value → Value → Bool
  | .none, .none => true
  | .str first, .str second => first = second
  | .list first, .list second => equalItems first second
  | .tuple first, .tuple second => equalItems first second
  | .mapping first, .mapping second =>
      first.length = second.length && equalEntries first second
  | .object firstClass first, .object secondClass second =>
      firstClass = secondClass && first = second
  | first, second => first.numeral.isSome && first.numeral = second.numeral

/-- Equality of the items of two lists. -/
def equalItems : List Value → List Value → Bool
  | [], [] => true
  | first :: firstRest, second :: secondRest =>
      equal first second && equalItems firstRest secondRest
  | _, _ => false

/-- The entries of one mapping are those of another. -/
def equalEntries : List (String × Value) → List (String × Value) → Bool
  | [], _ => true
  | (key, value) :: rest, others =>
      (match others.lookup key with
      | .some other => equal value other
      | .none => false) && equalEntries rest others

end

mutual

/-- No object of another class stands anywhere in the value. -/
def serialisable : Value → Bool
  | .none | .bool _ | .int _ | .float _ | .str _ => true
  | .list items => serialisableItems items
  | .tuple items => serialisableItems items
  | .mapping entries => serialisableEntries entries
  | .object _ _ => false

/-- Every item of a list is serialisable. -/
def serialisableItems : List Value → Bool
  | [] => true
  | item :: rest => serialisable item && serialisableItems rest

/-- Every value of a mapping is serialisable. -/
def serialisableEntries : List (String × Value) → Bool
  | [] => true
  | (_, item) :: rest => serialisable item && serialisableEntries rest

end

/-- A sequence of two results succeeds when both do. -/
theorem bind_is_ok {ε α β γ : Type} (first : Except ε α) (second : Except ε β)
    (combine : α → β → γ) :
    (do return combine (← first) (← second) : Except ε γ).isOk = (first.isOk && second.isOk) := by
  cases first with
  | error raised => rfl
  | ok left => cases second <;> rfl

/-- Wrapping a result does not change whether it succeeds. -/
theorem map_is_ok {ε α β : Type} (result : Except ε α) (wrap : α → β) :
    (do return wrap (← result) : Except ε β).isOk = result.isOk := by
  cases result <;> rfl

mutual

/-- A value has a JSON form exactly when it is serialisable. -/
theorem json_dumps_is_ok (value : Value) : value.jsonDumps.isOk = value.serialisable := by
  cases value with
  | none | bool | int | float | str | object => rfl
  | list items => rw [jsonDumps, serialisable, map_is_ok, json_items_is_ok]
  | tuple items => rw [jsonDumps, serialisable, map_is_ok, json_items_is_ok]
  | mapping entries => rw [jsonDumps, serialisable, map_is_ok, json_entries_is_ok]

/-- The items of a list have JSON forms exactly when all are serialisable. -/
theorem json_items_is_ok (items : List Value) :
    (jsonItems items).isOk = serialisableItems items := by
  cases items with
  | nil => rfl
  | cons item rest =>
    rw [jsonItems, serialisableItems, bind_is_ok, json_dumps_is_ok, json_items_is_ok]

/-- The entries of a mapping have JSON forms exactly when all are serialisable. -/
theorem json_entries_is_ok (entries : List (String × Value)) :
    (jsonEntries entries).isOk = serialisableEntries entries := by
  cases entries with
  | nil => rfl
  | cons entry rest =>
    obtain ⟨key, item⟩ := entry
    rw [jsonEntries, serialisableEntries,
      bind_is_ok _ _ (fun text texts => (jsonText key ++ ": " ++ text) :: texts),
      json_dumps_is_ok, json_entries_is_ok]

end

end Value

/-- Taking a result out of a monadic step. -/
theorem bind_eq_ok {ε α β : Type} (first : Except ε α) (next : α → Except ε β) {result : β}
    (succeeded : (first >>= next) = .ok result) :
    ∃ value, first = .ok value ∧ next value = .ok result := by
  cases first with
  | error raised => cases succeeded
  | ok value => exact ⟨value, rfl, succeeded⟩

end ForgePilot
