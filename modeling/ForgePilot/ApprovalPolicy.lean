import ForgePilot.Regex
import ForgePilot.ShellWords

/-!
# Approval of shell commands

A command needs approval for a reason when one of the reason's patterns is found
in its text, or when the words of one of its pipeline segments name a program
that is known for it. Words come from the shell word reader, segments from
separators that are words of their own, and commands handed to a shell are looked
into, two levels deep.

A separator that touches its neighbours is part of a word, and a line break is no
word at all.
-/

namespace ForgePilot.Approval

open Characters ShellWords Regex

/-- Why a command or a change needs approval. -/
inductive ApprovalReason where
  | highRiskCommand | externalNetwork | deploymentCommand | sensitiveFileChange
deriving DecidableEq

/-- The exported spelling of a reason. -/
def ApprovalReason.value : ApprovalReason → String
  | .highRiskCommand => "high_risk_command"
  | .externalNetwork => "external_network"
  | .deploymentCommand => "deployment_command"
  | .sensitiveFileChange => "sensitive_file_change"

structure ApprovalRequest where
  requestId : String
  subjectType : String
  subject : String
  reasons : List ApprovalReason
  detail : String
  required : Bool := true

/-- Words that end a pipeline segment. -/
def commandSeparators : List String := ["|", "||", ";", "&&", "&"]

/-- Programs whose `-c` argument is a command. -/
def shellPrograms : List String := ["sh", "bash", "zsh", "dash", "ksh"]

/-- How deep commands inside commands are looked into. -/
def maxNestedDepth : Nat := 2

def tokenize (command : String) : List String := splitOrWords command

/-- Split words at separators, with the words of the current segment. -/
def segmentsFrom (current : List String) : List String → List (List String)
  | [] => [current]
  | token :: rest =>
      if commandSeparators.contains token then current :: segmentsFrom [] rest
      else segmentsFrom (current ++ [token]) rest

/-- The segments of a command that have words. -/
def pipelineSegments (tokens : List String) : List (List String) :=
  (segmentsFrom [] tokens).filter (fun segment => !segment.isEmpty)

/-- Drop leading `sudo` words that have no flags. -/
def unwrapSudo : List String → List String
  | first :: second :: rest =>
      if first = "sudo" ∧ startsWith second "-" = false then unwrapSudo (second :: rest)
      else first :: second :: rest
  | argv => argv

/-- The part of a path after its last slash. -/
def basename (path : String) : String :=
  String.ofList (path.toList.reverse.takeWhile (· ≠ '/')).reverse

def programOf (segment : List String) : String × List String :=
  match unwrapSudo segment with
  | [] => ("", [])
  | first :: rest => (basename first, rest)

def withoutHyphens (argument : String) : List Char := argument.toList.dropWhile (· == '-')

variable (table : CharacterTable)

def isFlagBundle (argument : String) : Bool :=
  startsWith argument "-" && 1 < argument.toList.length && !startsWith argument "--" &&
    !(withoutHyphens argument).isEmpty && (withoutHyphens argument).all table.isAlpha

/-- Whether the arguments of `rm` ask for recursion, in either case of the flag. -/
def isRecursiveRm (args : List String) : Bool :=
  args.any (fun argument => argument = "--recursive" ||
    (isFlagBundle table argument &&
      (withoutHyphens argument).any (fun letter => letter == 'r' || letter == 'R')))

/-- Whether the arguments of `chmod` and `chown` ask for recursion. -/
def hasRecursiveFlag (args : List String) : Bool :=
  args.contains "--recursive" ||
    args.any (fun argument => isFlagBundle table argument && argument.toList.contains 'R')

/-- Segments that are dangerous in themselves. -/
def isHighRiskSegment (program : String) (args : List String) : Bool :=
  if program = "sudo" then true
  else if program = "rm" then isRecursiveRm table args
  else if program = "chmod" ∨ program = "chown" then hasRecursiveFlag table args
  else if program = "dd" ∨ program = "mkfs" ∨ startsWith program "mkfs." then true
  else if program = "docker" then args.head? = some "system" && args.contains "prune"
  else false

def isExternalNetworkSegment (program : String) (args : List String) : Bool :=
  if ["curl", "wget", "ssh", "scp", "rsync"].contains program then true
  else
    match args with
    | [] => false
    | subcommand :: _ =>
        if program = "npm" then ["install", "i", "add"].contains subcommand
        else if program = "pip" ∨ program = "pip3" then subcommand = "install"
        else if program = "poetry" then subcommand = "add"
        else false

/-- Segments that deploy something. -/
def isDeploymentSegment (program : String) (args : List String) : Bool :=
  match args with
  | [] => false
  | subcommand :: _ =>
      if program = "kubectl" then ["apply", "delete", "rollout", "scale"].contains subcommand
      else if program = "helm" then
        ["install", "upgrade", "delete", "rollback"].contains subcommand
      else if program = "terraform" then ["apply", "destroy"].contains subcommand
      else if program = "docker" then subcommand = "push"
      else if program = "git" then subcommand = "push"
      else if program = "gh" then subcommand = "release"
      else if program = "npm" then subcommand = "publish"
      else if program = "twine" then subcommand = "upload"
      else false

/-- The arguments that follow a `-c`. -/
def nestedCommands : List String → List String
  | flag :: command :: rest =>
      (if flag = "-c" then [command] else []) ++ nestedCommands (command :: rest)
  | _ => []

/-- Whether a segment, or a segment of a command inside it, satisfies a predicate. -/
def segmentMatches (predicate : String → List String → Bool) : Nat → List String → Bool
  | 0, segment => predicate (programOf segment).1 (programOf segment).2
  | depth + 1, segment =>
      predicate (programOf segment).1 (programOf segment).2 ||
        (shellPrograms.contains (programOf segment).1 &&
          (nestedCommands (programOf segment).2).any (fun command =>
            (pipelineSegments (tokenize command)).any (segmentMatches predicate depth)))

/-- Whether some segment of a command satisfies a predicate. -/
def segmentsMatch (predicate : String → List String → Bool) (command : String) : Bool :=
  (pipelineSegments (tokenize command)).any (segmentMatches predicate maxNestedDepth)

/-- Whether a pattern is found in a text. -/
def matchesAny (value : String) (patterns : List Regex) : Bool :=
  patterns.any (fun pattern => search table pattern none value.toList)

/-- Whether a command matches by its text or by one of its segments. -/
def commandMatches (command : String) (patterns : List Regex)
    (predicate : String → List String → Bool) : Bool :=
  matchesAny table command patterns || segmentsMatch predicate command

/-- Words in sequence, apart by whitespace, from a word boundary on. -/
def phrase : List Regex → Regex
  | [] => .empty
  | [last] => last
  | first :: rest => .seq first (.seq (.many isSpace 1) (phrase rest))

/-- A phrase that starts and ends at word boundaries. -/
def bounded (parts : List Regex) : Regex := .seq .boundary (.seq (phrase parts) .boundary)

/-- A phrase that starts at a word boundary. -/
def opened (parts : List Regex) : Regex := .seq .boundary (phrase parts)

/-- A program followed by whitespace. -/
def spaced (program : String) : Regex :=
  .seq .boundary (.seq (literal program) (.many isSpace 1))

def webAddress : Regex :=
  .seq (literal "http") (.seq (optional (literal "s")) (literal "://"))

/-- The command patterns of a policy. -/
structure ApprovalPolicy where
  highRiskCommandPatterns : List Regex
  externalNetworkPatterns : List Regex
  deploymentCommandPatterns : List Regex

def defaultApprovalPolicy : ApprovalPolicy where
  highRiskCommandPatterns := [
    bounded [literal "rm", literal "-rf"],
    bounded [literal "sudo"],
    bounded [literal "chmod", literal "-R"],
    bounded [literal "chown", literal "-R"],
    spaced "dd",
    bounded [literal "mkfs"],
    bounded [literal "docker", literal "system", literal "prune"]]
  externalNetworkPatterns := [
    opened [literal "curl", webAddress],
    opened [literal "wget", webAddress],
    spaced "ssh",
    spaced "scp",
    spaced "rsync",
    bounded [literal "npm", literal "install"],
    bounded [literal "pip", literal "install"],
    bounded [literal "poetry", literal "add"]]
  deploymentCommandPatterns := [
    bounded [literal "kubectl", oneOf ["apply", "delete", "rollout", "scale"]],
    bounded [literal "helm", oneOf ["install", "upgrade", "delete", "rollback"]],
    bounded [literal "terraform", oneOf ["apply", "destroy"]],
    bounded [literal "docker", literal "push"],
    bounded [literal "git", literal "push"],
    bounded [literal "gh", literal "release"],
    bounded [literal "npm", literal "publish"],
    bounded [literal "twine", literal "upload"]]

def commandReasons (policy : ApprovalPolicy) (command : String) : List ApprovalReason :=
  (if commandMatches table command policy.highRiskCommandPatterns (isHighRiskSegment table) then
    [.highRiskCommand] else []) ++
  (if commandMatches table command policy.externalNetworkPatterns isExternalNetworkSegment then
    [.externalNetwork] else []) ++
  (if commandMatches table command policy.deploymentCommandPatterns isDeploymentSegment then
    [.deploymentCommand] else [])

/-- Evaluate a command: a request when there are reasons. -/
def evaluateCommand (policy : ApprovalPolicy) (requestId command : String) :
    Option ApprovalRequest :=
  let reasons := commandReasons table policy command
  if reasons = [] then none
  else some {
    requestId
    subjectType := "command"
    subject := command
    reasons
    detail := ", ".intercalate (reasons.map ApprovalReason.value) }

end ForgePilot.Approval
