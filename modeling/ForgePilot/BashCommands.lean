import ForgePilot.Characters
import ForgePilot.JsonReading
import ForgePilot.Spans

/-!
# Command lines as a parser sees them

A parser turns a command line into trees whose nodes have positions in it. A command line is cut into the
commands at the tops of the trees, or a walk through the trees doubles backslashes before operators.

The parser is given from outside, with the errors that it raises.
-/

namespace ForgePilot.BashCommands

open Characters Spans
open JsonReading (Text)

inductive ParseError where
  | parsing
  | notImplemented
  | type
  | attribute
  | other (name : String)
deriving DecidableEq

inductive Kind where
  | word
  | redirect
  | commandSubstitution
  | processSubstitution
  | other (name : String)
deriving DecidableEq

/-- A node of a tree. The walk goes through the parts; `others` are the children under other names, such as the
commands of a compound command or the target of a redirection. -/
inductive Node where
  | node (kind : Kind) (pos : Span) (heredoc : Option Span) (parts others : List Node)

def Node.pos : Node → Span
  | .node _ pos _ _ _ => pos

/-! ## Cutting -/

def appendLast (pieces : List Text) (more : Text) : List Text :=
  pieces.dropLast ++ (pieces.getLast?.map (· ++ more)).toList

/-- The pieces after a node, from the pieces before it and the end of the node before. -/
def addNode (commands : Text) (lastEnd : Nat) (result : List Text) (pos : Span) : List Text :=
  let between := part commands lastEnd pos.start
  let result :=
    if lastEnd < pos.start then
      if result ≠ [] then appendLast result (rstrip between)
      else if strip between ≠ [] then [rstrip between]
      else result
    else result
  result ++ [rstrip (part commands pos.start pos.stop)]

/-- The pieces for some nodes, and at last what remains. -/
def addNodes (commands : Text) : Nat → List Text → List Span → List Text
  | lastEnd, result, [] =>
      let remaining := rstrip (commands.drop lastEnd)
      if lastEnd < commands.length ∧ result ≠ [] then appendLast result remaining
      else if lastEnd < commands.length ∧ remaining ≠ [] then result ++ [remaining]
      else result
  | lastEnd, result, pos :: rest =>
      addNodes commands pos.stop (addNode commands lastEnd result pos) rest

def splitBashCommands (parse : Text → Except ParseError (List Node)) (commands : Text) :
    Except ParseError (List Text) :=
  if strip commands = [] then .ok [[]]
  else
    match parse commands with
    | .ok nodes => .ok (addNodes commands 0 [] (nodes.map Node.pos))
    | .error (.other name) => .error (.other name)
    | .error _ => .ok [commands]

/-! ## Escaping -/

/-- The operators before which backslashes are doubled. -/
def isOperator (character : Char) : Bool := [';', '&', '|', '>', '<'].contains character

/-- Double the backslashes that stand directly before an operator. -/
def doubleBackslashes : Text → Text
  | [] => []
  | [character] => [character]
  | character :: next :: rest =>
      if character = '\\' ∧ isOperator next = true then
        '\\' :: '\\' :: doubleBackslashes (next :: rest)
      else character :: doubleBackslashes (next :: rest)

def surroundedBy (front back text : Text) : Bool := front.isPrefixOf text && back.isSuffixOf text

/-- Quoted words and substitutions are kept as they are. -/
def isKept (wordText : Text) : Bool :=
  surroundedBy ['"'] ['"'] wordText || surroundedBy ['\''] ['\''] wordText ||
    surroundedBy ['$', '('] [')'] wordText || surroundedBy ['`'] ['`'] wordText

/-- What a walk has put out, and the position behind what it has seen. -/
structure Walk where
  parts : List Text
  lastPos : Nat

/-- A redirection with a here-document is put out up to the end of the document. -/
def visitHeredoc (command : Text) (pos body : Span) (walk : Walk) : Walk where
  parts := walk.parts ++ [part command walk.lastPos pos.start, part command pos.start body.start,
    part command body.start body.stop]
  lastPos := pos.stop

def visitWord (command : Text) (pos : Span) (walk : Walk) : Walk where
  parts :=
    let wordText := part command pos.start pos.stop
    walk.parts ++ [doubleBackslashes (part command walk.lastPos pos.start),
      if isKept wordText then wordText else doubleBackslashes wordText]
  lastPos := pos.stop

mutual

def visitNode (command : Text) : Node → Walk → Walk
  | .node .redirect pos (some body) _ _, walk => visitHeredoc command pos body walk
  | .node .word pos _ _ _, walk => visitWord command pos walk
  | .node _ _ _ parts _, walk => visitParts command parts walk

def visitParts (command : Text) : List Node → Walk → Walk
  | [], walk => walk
  | node :: rest, walk => visitParts command rest (visitNode command node walk)

end

/-- Go through the trees one by one. -/
def visitTrees (command : Text) : List Node → Walk → Walk
  | [], walk => walk
  | node :: rest, walk =>
      let between := doubleBackslashes (part command walk.lastPos node.pos.start)
      visitTrees command rest (visitNode command node ⟨walk.parts ++ [between], node.pos.start⟩)

def escapeBashSpecialChars (parse : Text → Except ParseError (List Node)) (command : Text) :
    Except ParseError Text :=
  if strip command = [] then .ok []
  else
    match parse command with
    | .ok nodes =>
        let walk := visitTrees command nodes ⟨[], 0⟩
        .ok (walk.parts.flatten ++ command.drop walk.lastPos)
    | .error .attribute => .error .attribute
    | .error (.other name) => .error (.other name)
    | .error _ => .ok command

end ForgePilot.BashCommands
