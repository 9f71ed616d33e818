import ForgePilot.OrderedDict
import ForgePilot.Regex
import ForgePilot.Values

/-!
# Redacting payloads

Sensitive entries of mappings are replaced as a whole, and texts lose the values
of inline assignments to sensitive names and the credentials in front of the host
of a URL. Tuples become lists. Two keys of a mapping that print alike share one
entry of the result.
-/

namespace ForgePilot.Harness

open Characters

def sensitiveKeyParts : List String :=
  ["api_key", "apikey", "authorization", "credential", "password", "refresh_token", "secret",
    "token"]

/-- Lower case as far as a sensitive part can notice: beyond ASCII, the Kelvin
sign and the dotted capital I are the only characters that lower to ASCII. -/
def lowerCharacter (character : Char) : List Char :=
  if character.toNat = 8490 then ['k']
  else if character.toNat = 304 then ['i', Char.ofNat 775]
  else [character.toLower]

/-- Whether a key names something secret. -/
def isSensitiveKey (key : String) : Bool :=
  let normalized := (key.toList.flatMap lowerCharacter).map (fun character =>
    if character = '-' then '_' else character)
  sensitiveKeyParts.any (fun part => occursIn part.toList normalized)

/-- A name whose inline assignment is secret. -/
def secretName : Regex :=
  .seq .boundary (.alt
    (.seq (.literal "api") (.seq
      (.optional (.single (fun character => character == '_' || character == '-')))
      (.literal "key")))
    (.oneOf ["authorization", "password", "secret", "token"]))

/-- An assignment sign and the assigned text. -/
def secretValue : Regex :=
  .seq (.many isSpace 0) (.seq (.single (fun character => character == ':' || character == '='))
    (.seq (.many isSpace 0) (.many (fun character =>
      !isSpace character && character != ',' && character != ';') 1)))

def urlScheme : Regex :=
  .seq (.single Char.isAlpha) (.seq
    (.many (fun character =>
      character.isAlphanum || character == '+' || character == '.' || character == '-') 0)
    (.literal "://"))

/-- The credentials in front of the host of a URL. -/
def urlUserinfo : Regex :=
  let inside : Char → Bool := fun character =>
    character != '/' && !isSpace character && character != '@'
  .seq (.many inside 1) (.seq (.literal ":") (.seq (.many inside 1) (.literal "@")))

/-- Redact inline assignments first and URL credentials afterwards. -/
def redactText (table : CharacterTable) (text : String) : String :=
  let scrubbed := Regex.sub table secretName secretValue "=[REDACTED]" text
  Regex.sub table urlScheme urlUserinfo "[REDACTED]@" scrubbed

mutual

def redactPayload (table : CharacterTable) : Value → Value
  | .mapping entries => .mapping (redactEntries table [] entries)
  | .list items => .list (redactItems table items)
  | .tuple items => .list (redactItems table items)
  | .str text => .str (redactText table text)
  | .none => .none
  | .bool value => .bool value
  | .int value => .int value
  | .float printed => .float printed
  | .object className printed => .object className printed

def redactItems (table : CharacterTable) : List Value → List Value
  | [] => []
  | item :: rest => redactPayload table item :: redactItems table rest

/-- Redact the entries of a mapping into the entries collected so far. -/
def redactEntries (table : CharacterTable) (redacted : List (String × Value)) :
    List (String × Value) → List (String × Value)
  | [] => redacted
  | (key, item) :: rest =>
      let value := if isSensitiveKey key then .str "[REDACTED]" else redactPayload table item
      redactEntries table (OrderedDict.put key value redacted) rest

end

/-- Redact the entries of a payload. -/
def redactInput (table : CharacterTable) (input : List (String × Value)) :
    List (String × Value) := redactEntries table [] input

end ForgePilot.Harness
