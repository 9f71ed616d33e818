import Mathlib.Data.List.Basic

/-!
# Shell-style file name patterns

A star matches any text, a question mark any character, and a bracketed set one
character in it or, after an exclamation mark, one not in it. Sets may hold
ranges; a bracket that is never closed stands for itself.
-/

namespace ForgePilot.Fnmatch

/-- A member of a bracketed set. -/
inductive SetItem where
  | single (character : Char)
  | range (low high : Char)
deriving DecidableEq

/-- One element of a pattern. -/
inductive Token where
  | star
  | question
  | set (negated : Bool) (items : List SetItem)
  | exactly (character : Char)
deriving DecidableEq

/-- Read the inside of a bracketed set; a hyphen between two characters is a range. -/
def setItems : List Char → List SetItem
  | [] => []
  | low :: '-' :: high :: rest => .range low high :: setItems rest
  | character :: rest => .single character :: setItems rest

/-- The text up to the closing bracket. -/
def untilBracket : List Char → Option (List Char)
  | [] => none
  | ']' :: _ => some []
  | character :: rest => (untilBracket rest).map (character :: ·)

/-- The inside of a set that starts here; a closing bracket in first place is a member. -/
def setBody : List Char → Option (List Char)
  | ']' :: rest => (untilBracket rest).map (']' :: ·)
  | text => untilBracket text

/-- The set that follows an opening bracket, with its length up to the closing one. -/
def bracket : List Char → Option (Token × Nat)
  | '!' :: rest =>
      (setBody rest).map (fun body => (.set true (setItems body), body.length + 2))
  | text => (setBody text).map (fun body => (.set false (setItems body), body.length + 1))

/-- Translate a pattern; `skip` characters belong to the set just read. -/
def translateFrom : Nat → List Char → List Token
  | _, [] => []
  | skip + 1, _ :: rest => translateFrom skip rest
  | 0, '*' :: rest => .star :: translateFrom 0 rest
  | 0, '?' :: rest => .question :: translateFrom 0 rest
  | 0, '[' :: rest =>
      match bracket rest with
      | some (set, length) => set :: translateFrom length rest
      | none => .exactly '[' :: translateFrom 0 rest
  | 0, character :: rest => .exactly character :: translateFrom 0 rest

def SetItem.contains (character : Char) : SetItem → Bool
  | .single member => character == member
  | .range low high => low.toNat ≤ character.toNat && character.toNat ≤ high.toNat

/-- Whether some rest of the text is accepted. -/
def someSuffix (accepts : List Char → Bool) : List Char → Bool
  | [] => accepts []
  | character :: rest => accepts (character :: rest) || someSuffix accepts rest

/-- One character accepted by a test, then the rest. -/
def oneThen (test : Char → Bool) (accepts : List Char → Bool) : List Char → Bool
  | [] => false
  | character :: rest => test character && accepts rest

/-- Whether a translated pattern matches the whole text. -/
def matchesAll : List Token → List Char → Bool
  | [], text => text.isEmpty
  | .star :: rest, text => someSuffix (matchesAll rest) text
  | .question :: rest, text => oneThen (fun _ => true) (matchesAll rest) text
  | .set negated items :: rest, text =>
      oneThen (fun character => items.any (SetItem.contains character) != negated)
        (matchesAll rest) text
  | .exactly expected :: rest, text => oneThen (· == expected) (matchesAll rest) text

/-- Whether a name matches a pattern; case matters. -/
def fnmatch (name pattern : String) : Bool :=
  matchesAll (translateFrom 0 pattern.toList) name.toList

example : fnmatch "/etc/passwd" "/etc/*" = true := by decide

example : fnmatch "b-x" "[!a-c]*" = false := by decide

end ForgePilot.Fnmatch
