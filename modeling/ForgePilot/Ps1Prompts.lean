import ForgePilot.BashSessions
import ForgePilot.FloatTexts

/-!
# Prompts with metadata

The prompt of the shell is a JSON text between two markers, with a placeholder for each value; the shell
puts the values in as they are. A pane is searched for texts between the markers, and what can be read as
JSON counts as a prompt. The shortest text up to the second marker is taken.

Process id and exit code are read through a floating-point number, whatever their values are.
-/

namespace ForgePilot.Ps1Prompts

open Characters BashSessions JsonReading FloatTexts

/-! ## Prompts -/

def cmdOutputPs1Begin : Text := "\n###PS1JSON###\n".toList

def cmdOutputPs1End : Text := "\n###PS1END###".toList

/-- The markers without the line ends around them. -/
def beginMarker : Text := strip cmdOutputPs1Begin

def endMarker : Text := strip cmdOutputPs1End

/-- A member of an object on a line of its own. -/
def member (quote : Text) (key : String) (value : Text) : Text :=
  ' ' :: ' ' :: (quote ++ key.toList ++ quote ++ ':' :: ' ' :: (quote ++ value ++ quote))

/-- An object over several lines, with quotes as they are given. -/
def jsonLines (quote pid exitCode username hostname workingDir pyInterpreterPath : Text) : Text :=
  '{' :: '\n' :: (member quote "pid" pid ++ ',' :: '\n' ::
    (member quote "exit_code" exitCode ++ ',' :: '\n' ::
    (member quote "username" username ++ ',' :: '\n' ::
    (member quote "hostname" hostname ++ ',' :: '\n' ::
    (member quote "working_dir" workingDir ++ ',' :: '\n' ::
    (member quote "py_interpreter_path" pyInterpreterPath ++ ['\n', '}']))))))

def promptOf (json : Text) : Text := cmdOutputPs1Begin ++ (json ++ cmdOutputPs1End) ++ ['\n']

/-- The prompt with placeholders; quotes are escaped for the shell. -/
def toPs1Prompt : Text :=
  promptOf (jsonLines ['\\', '"'] "$!".toList "$?".toList "\\\\u".toList "\\\\h".toList
    "$(pwd)".toList "$(which python 2>/dev/null || echo \\\\\"\\\\\")".toList)

structure Values where
  pid : Int
  exitCode : Int
  username : Text
  hostname : Text
  workingDir : Text
  pyInterpreterPath : Text

/-- The JSON text that is printed: plain quotes, and each value in the place of its placeholder. -/
def printedJson (values : Values) : Text :=
  jsonLines ['"'] (decimal values.pid) (decimal values.exitCode) values.username values.hostname
    values.workingDir values.pyInterpreterPath

def printedPrompt (values : Values) : Text := promptOf (printedJson values)

/-! ## Finding prompts -/

/-- The texts between markers: the first marker begins a line, and the search goes on after the second
one. `skip` characters belong to the last match. -/
def findIter : Nat → Nat → Option Char → Text → List Ps1Match
  | _, _, _, [] => []
  | skip + 1, position, _, character :: rest =>
      findIter skip (position + 1) (some character) rest
  | 0, position, previous, character :: rest =>
      if (previous = none ∨ previous = some '\n') ∧ beginMarker.isPrefixOf (character :: rest) then
        match beforeFirst endMarker ((character :: rest).drop beginMarker.length) with
        | none => findIter 0 (position + 1) (some character) rest
        | some group =>
            let size := beginMarker.length + group.length + endMarker.length
            ⟨position, position + size, group⟩ ::
              findIter (size - 1) (position + 1) (some character) rest
      else findIter 0 (position + 1) (some character) rest

def matchesPs1Metadata (text : Text) : List Ps1Match :=
  (findIter 0 0 none text).filter fun found => (loads (strip found.group)).isSome

/-! ## Reading a prompt -/

/-- A value as an integer, by way of the number its text stands for. -/
def toInt (table : DigitTable) : Json → Option Int
  | .string points => intOfText table points
  | .number written => intOfText table (written.map Char.toNat)
  | _ => some (-1)

def pointsOf (text : String) : CodePoints := text.toList.map Char.toNat

/-- A number of the metadata, or its default; `none` when reading it overflows. -/
def readNumber (table : DigitTable) (key : String) (pairs : List (CodePoints × Json)) : Option Int :=
  match valueOf (pointsOf key) pairs with
  | none => some (-1)
  | some value => toInt table value

/-- An optional text of the metadata; other values are refused. -/
def readText (key : String) (pairs : List (CodePoints × Json)) : Option (Option CodePoints) :=
  match valueOf (pointsOf key) pairs with
  | none => some none
  | some .null => some none
  | some (.string points) => some (some points)
  | some _ => none

/-- The text around an output, which is there but empty by default. -/
def readAround (key : String) (pairs : List (CodePoints × Json)) : Option CodePoints :=
  match valueOf (pointsOf key) pairs with
  | none => some []
  | some (.string points) => some points
  | some _ => none

/-- The metadata of a prompt, when it can be read. -/
def fromPs1Match (table : DigitTable) (found : Ps1Match) : Option CmdOutputMetadata :=
  match loads found.group with
  | some (.object pairs) => do
      let pid ← readNumber table "pid" pairs
      let exitCode ← readNumber table "exit_code" pairs
      let username ← readText "username" pairs
      let hostname ← readText "hostname" pairs
      let workingDir ← readText "working_dir" pairs
      let pyInterpreterPath ← readText "py_interpreter_path" pairs
      let prefixText ← readAround "prefix" pairs
      let suffixText ← readAround "suffix" pairs
      pure { pid, exitCode, username, hostname, workingDir, pyInterpreterPath, prefixText, suffixText }
  | _ => none

/-! ## Completed commands -/

def isLineEnd (character : Char) : Bool :=
  let code := character.toNat
  (10 ≤ code && code ≤ 13) || (28 ≤ code && code ≤ 30) || code == 133 || code == 8232 || code == 8233

/-- How many lines a text has; a carriage return and a line feed end one line together. -/
def lineCount (text : Text) : Nat :=
  match text with
  | [] => 0
  | '\r' :: '\n' :: rest => lineCount rest + 1
  | character :: rest =>
      if isLineEnd character then lineCount rest + 1
      else if rest = [] then 1 else lineCount rest

def isSpecialKey (command : Text) : Bool :=
  "C-".toList.isPrefixOf (strip command) && (strip command).length == 3

def truncatedPrefix (lines : Nat) : Text :=
  "[Previous command outputs are truncated. Showing the last ".toList ++ lines.repr.toList ++
    " lines of the output below.]\n".toList

/-- The text after the output of a completed command; `upper` makes a letter a capital one. -/
def completedSuffix (upper : Char → Text) (command : Text) (exitCode : Int) : Text :=
  let completed := "\n[The command completed with exit code ".toList ++ decimal exitCode ++ ['.']
  if isSpecialKey command then
    completed ++ " CTRL+".toList ++ (command.getLast?.map upper).getD [] ++ " was sent.]".toList
  else completed ++ [']']

/-- The report on a completed command; `none` when no prompt was found, or the last one cannot be
read. -/
def handleCompletedCommand (table : DigitTable) (upper : Char → Text) (session : BashSession)
    (command paneContent : Text) (ps1Matches : List Ps1Match) :
    Option (BashSession × CmdOutputObservation) :=
  match ps1Matches.getLast? with
  | none => none
  | some last => do
      let metadata ← fromPs1Match table last
      let getContentBeforeLastMatch := ps1Matches.length == 1
      let session :=
        match metadata.workingDir with
        | none | some [] => session
        | some directory => { session with cwd := directory }
      let rawCommandOutput :=
        combineOutputsBetweenMatches paneContent ps1Matches getContentBeforeLastMatch
      let metadata :=
        if getContentBeforeLastMatch then
          { metadata with
            prefixText := (truncatedPrefix (lineCount rawCommandOutput)).map Char.toNat }
        else metadata
      let metadata :=
        { metadata with
          suffixText := (completedSuffix upper command metadata.exitCode).map Char.toNat }
      let (session, metadata, content) :=
        session.getCommandOutput command rawCommandOutput metadata []
      pure ({ session with prevStatus := some .completed, prevOutput := [] },
        { content, command, metadata })
end ForgePilot.Ps1Prompts
