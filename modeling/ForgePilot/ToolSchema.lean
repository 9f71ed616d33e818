import ForgePilot.Characters

/-!
# Tool permissions and output summaries

The permission levels and execution modes shared by the tool registry and the
execution harness, and the summary that long outputs are cut to.
-/

namespace ForgePilot

open Characters

inductive ToolPermission where
  | read | write | execute | confirm
deriving DecidableEq

/-- The exported spelling of a permission. -/
def ToolPermission.value : ToolPermission → String
  | .read => "read"
  | .write => "write"
  | .execute => "execute"
  | .confirm => "confirm"

/-- The permission with the given spelling. -/
def ToolPermission.ofValue (value : String) : Option ToolPermission :=
  [ToolPermission.read, .write, .execute, .confirm].find? (fun permission =>
    permission.value = value)

/-- Whether a tool runs or answers from a prepared response. -/
inductive ToolExecutionMode where
  | live | mock
deriving DecidableEq

/-- An output without surrounding whitespace; one that is too long keeps its
first and its last half. -/
def summarizeToolOutput (output : String) (maxChars : Nat := 1200) : String :=
  let normalized := strip output.toList
  if normalized.length ≤ maxChars then String.ofList normalized
  else
    let keepHead := maxChars / 2
    let keepTail := maxChars - keepHead
    let head := rstrip (normalized.take keepHead)
    let tail := lstrip (normalized.drop (normalized.length - keepTail))
    String.ofList head ++ "\n...\n" ++ String.ofList tail

end ForgePilot
