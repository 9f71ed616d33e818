import ForgePilot.Characters
import ForgePilot.JsonReading

/-!
# The bash session

A pane shows a prompt, the command that was typed, and its output so far. Each report on a command
takes what the pane shows between prompts, removes what was reported before and the text of the
command, and strips the rest.

Texts are lists of characters. A prompt that was found is its positions in the pane and the text
between its markers; the loop that waits for the command is not part of this.
-/

namespace ForgePilot.BashSessions

open Characters JsonReading

/-! ## Metadata -/

structure CmdOutputMetadata where
  exitCode : Int := -1
  pid : Int := -1
  username : Option CodePoints := none
  hostname : Option CodePoints := none
  workingDir : Option CodePoints := none
  pyInterpreterPath : Option CodePoints := none
  prefixText : CodePoints := []
  suffixText : CodePoints := []
deriving DecidableEq

/-- Where a prompt stands in a pane, and the text between its markers. -/
structure Ps1Match where
  start : Nat
  stop : Nat
  group : Text
deriving DecidableEq

inductive BashCommandStatus where
  | continued
  | completed
  | noChangeTimeout
  | hardTimeout
deriving DecidableEq

structure BashSession where
  cwd : CodePoints
  prevStatus : Option BashCommandStatus := none
  prevOutput : Text := []

structure CmdOutputObservation where
  content : Text
  command : Text
  metadata : CmdOutputMetadata
deriving DecidableEq

/-! ## Output of a command -/

/-- A text without a part at its front, if it begins with that. -/
def removePrefix (text front : Text) : Text :=
  if front.isPrefixOf text then text.drop front.length else text

def removeCommandPrefix (commandOutput command : Text) : Text :=
  lstrip (removePrefix (lstrip commandOutput) (lstrip command))

/-- The output of a command without what was reported before. -/
def BashSession.getCommandOutput (session : BashSession) (command rawCommandOutput : Text)
    (metadata : CmdOutputMetadata) (continuePrefix : Text) :
    BashSession × CmdOutputMetadata × Text :=
  let (commandOutput, metadata) :=
    if session.prevOutput ≠ [] then
      (removePrefix rawCommandOutput session.prevOutput,
        { metadata with prefixText := continuePrefix.map Char.toNat })
    else (rawCommandOutput, metadata)
  ({ session with prevOutput := rawCommandOutput }, metadata,
    rstrip (removeCommandPrefix commandOutput command))

/-- What a pane shows between prompts, and after the last one. -/
def combineOutputs (paneContent : Text) : List Ps1Match → Text
  | [] => paneContent
  | [last] => paneContent.drop (last.stop + 1)
  | first :: second :: rest =>
      (paneContent.take second.start).drop (first.stop + 1) ++
        '\n' :: combineOutputs paneContent (second :: rest)

def combineOutputsBetweenMatches (paneContent : Text) (ps1Matches : List Ps1Match)
    (getContentBeforeLastMatch : Bool) : Text :=
  match ps1Matches with
  | [only] =>
      if getContentBeforeLastMatch then paneContent.take only.start
      else paneContent.drop (only.stop + 1)
  | _ => combineOutputs paneContent ps1Matches

/-! ## Reports -/

def timeoutMessageTemplate : Text :=
  ("You may wait longer to see additional output by sending empty command '', " ++
    "send other commands to interact with the current process, " ++
    "send keys (\"C-c\", \"C-z\", \"C-d\") to interrupt/kill the previous command before sending your new command, " ++
    "or use the timeout parameter in execute_bash for future commands.").toList

def belowOutput : Text := "[Below is the output of the previous command.]\n".toList

def BashSession.reportRunning (session : BashSession) (command paneContent : Text)
    (ps1Matches : List Ps1Match) (suffixText : Text) : BashSession × CmdOutputObservation :=
  let rawCommandOutput := combineOutputsBetweenMatches paneContent ps1Matches false
  let (session, metadata, content) :=
    session.getCommandOutput command rawCommandOutput { suffixText := suffixText.map Char.toNat }
      belowOutput
  (session, { content, command, metadata })

def BashSession.handleNochangeTimeoutCommand (session : BashSession) (seconds command paneContent : Text)
    (ps1Matches : List Ps1Match) : BashSession × CmdOutputObservation :=
  { session with prevStatus := some .noChangeTimeout }.reportRunning command paneContent ps1Matches
    ("\n[The command has no new output after ".toList ++ seconds ++ " seconds. ".toList ++
      timeoutMessageTemplate ++ [']'])

def BashSession.handleHardTimeoutCommand (session : BashSession) (timeout command paneContent : Text)
    (ps1Matches : List Ps1Match) : BashSession × CmdOutputObservation :=
  { session with prevStatus := some .hardTimeout }.reportRunning command paneContent ps1Matches
    ("\n[The command timed out after ".toList ++ timeout ++ " seconds. ".toList ++
      timeoutMessageTemplate ++ [']'])

/-- A new command while another one is running is not executed. -/
def BashSession.rejectCommand (session : BashSession) (command paneContent : Text)
    (ps1Matches : List Ps1Match) : BashSession × CmdOutputObservation :=
  session.reportRunning command paneContent ps1Matches
    ("\n[Your command \"".toList ++ command ++ "\" is NOT executed. ".toList ++
      "The previous command is still running - You CANNOT send new commands until the previous command is completed. ".toList ++
      "By setting `is_input` to `true`, you can interact with the current process: ".toList ++
      timeoutMessageTemplate ++ [']'])
end ForgePilot.BashSessions
