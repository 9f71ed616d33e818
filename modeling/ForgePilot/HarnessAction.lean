import ForgePilot.OrderedDict
import ForgePilot.ShellWords
import ForgePilot.ToolSchema
import ForgePilot.Values

/-!
# Classifying runtime actions

The harness classifies a runtime action by the name of its class before it is
executed: which kind of action it is, which permission it needs, what it targets
and which inputs it has. The five recognised classes have constructors of their
own; any other class is kept with its name and the text it prints as, and its
name is none of the five.
-/

namespace ForgePilot.Harness

open Characters ShellWords

/-- The families of actions the harness tells apart. -/
inductive HarnessActionType where
  | terminal | fileRead | fileWrite | filePatch | git | mcpTool | unknown
deriving DecidableEq

/-- The exported spelling of an action type. -/
def HarnessActionType.value : HarnessActionType → String
  | .terminal => "terminal"
  | .fileRead => "file_read"
  | .fileWrite => "file_write"
  | .filePatch => "file_patch"
  | .git => "git"
  | .mcpTool => "mcp_tool"
  | .unknown => "unknown"

/-- Class names with a classification of their own. -/
def recognisedClasses : List String :=
  ["CmdRunAction", "FileReadAction", "FileWriteAction", "FileEditAction", "MCPAction"]

/-- The attributes of a runtime action that the harness reads, by class. -/
inductive ActionShape where
  | cmdRun (command : String) (cwd : Option String) (blocking isInput : Bool)
  | fileRead (path : String) (start stop : Int)
  | fileWrite (path content : String) (start stop : Int)
  | fileEdit (path command content : String) (fileText oldStr newStr : Option String)
      (insertLine : Option Int)
  | mcp (name : String) (arguments : List (String × Value))
  | other (className printed : String) (unrecognised : className ∉ recognisedClasses)

/-- A runtime action with the confirmation state the interface gave it. -/
structure RuntimeAction where
  shape : ActionShape
  confirmationState : Option String := none

def ActionShape.className : ActionShape → String
  | .cmdRun .. => "CmdRunAction"
  | .fileRead .. => "FileReadAction"
  | .fileWrite .. => "FileWriteAction"
  | .fileEdit .. => "FileEditAction"
  | .mcp .. => "MCPAction"
  | .other className _ _ => className

structure HarnessAction where
  actionType : HarnessActionType
  permission : ToolPermission
  target : String
  input : List (String × Value)
  rawActionName : String
  requiresConfirmation : Bool := false

/-- What a confirmation token is issued for. -/
def HarnessAction.confirmationSubject (action : HarnessAction) : String :=
  action.actionType.value ++ ":" ++ action.target

/-- A permission in the settings: one of the levels, a text, or something else. -/
inductive PermissionLeaf where
  | permission (permission : ToolPermission)
  | text (text : String)
  | other

/-- A setting is a permission, or a mapping that may hold one. -/
inductive PermissionSetting where
  | leaf (leaf : PermissionLeaf)
  | mapping (permission : Option PermissionLeaf)

/-- Permission settings by tool or server name. -/
abbrev McpPermissions := OrderedDict String PermissionSetting

/-- Read a permission, falling back on the default. -/
def coercePermission (value : PermissionLeaf) (default : ToolPermission) : ToolPermission :=
  match value with
  | .permission permission => permission
  | .text text => (ToolPermission.ofValue text).getD default
  | .other => default

/-- The names under which a tool's permission is looked up, in order. -/
def mcpLookupKeys (toolName : String) : List String :=
  (toolName :: [".", ":", "/", "__"].filterMap (fun separator =>
    (beforeFirst separator.toList toolName.toList).map String.ofList)).eraseDups

/-- The permission of the first name that has a setting. -/
def lookUpPermission (permissions : McpPermissions) (default : ToolPermission) :
    List String → ToolPermission
  | [] => default
  | key :: rest =>
      match permissions.get key with
      | none => lookUpPermission permissions default rest
      | some (.leaf value) => coercePermission value default
      | some (.mapping value) => coercePermission (value.getD (.permission default)) default

/-- The permission of a tool; without a setting it may only read. -/
def mcpPermissionFromMapping (toolName : String) (permissions : McpPermissions) :
    ToolPermission :=
  lookUpPermission permissions .read (mcpLookupKeys toolName)

/-- Whether the first word of a command is the version control program. -/
def isGitCommand (command : String) : Bool :=
  match splitOrWords command with
  | [] => false
  | program :: _ => program = "git" || "/git".toList.isSuffixOf program.toList

/-- A command with the directory it runs in. -/
def targetFromCommand (command : String) (cwd : Option String) : String :=
  let front := if cwd.getD "" = "" then "" else cwd.getD "" ++ ": "
  String.ofList (strip (front ++ command).toList)

def optionalText : Option String → Value
  | none => .none
  | some text => .str text

def optionalInt : Option Int → Value
  | none => .none
  | some number => .int number

/-- The inputs of an action, under the names they are reported with. -/
def ActionShape.input : ActionShape → List (String × Value)
  | .cmdRun command cwd blocking isInput =>
      [("command", .str command), ("cwd", optionalText cwd), ("blocking", .bool blocking),
        ("is_input", .bool isInput)]
  | .fileRead path start stop =>
      [("path", .str path), ("start", .int start), ("end", .int stop)]
  | .fileWrite path content start stop =>
      [("path", .str path), ("content", .str content), ("start", .int start), ("end", .int stop)]
  | .fileEdit path command content fileText oldStr newStr insertLine =>
      [("path", .str path), ("command", .str command), ("content", .str content),
        ("file_text", optionalText fileText), ("old_str", optionalText oldStr),
        ("new_str", optionalText newStr), ("insert_line", optionalInt insertLine)]
  | .mcp name arguments => [("name", .str name), ("arguments", .mapping arguments)]
  | .other _ printed _ => [("repr", .str printed)]

def actionFromRuntimeAction (action : RuntimeAction) (mcpPermissions : McpPermissions) :
    HarnessAction :=
  match action.shape with
  | .cmdRun command cwd _ _ => {
      actionType := if isGitCommand command then .git else .terminal
      permission := .execute
      target := targetFromCommand command cwd
      input := action.shape.input
      rawActionName := action.shape.className
      requiresConfirmation := true }
  | .fileRead path _ _ => {
      actionType := .fileRead
      permission := .read
      target := path
      input := action.shape.input
      rawActionName := action.shape.className }
  | .fileWrite path _ _ _ => {
      actionType := .fileWrite
      permission := .write
      target := path
      input := action.shape.input
      rawActionName := action.shape.className
      requiresConfirmation := true }
  | .fileEdit path _ _ _ _ _ _ => {
      actionType := .filePatch
      permission := .write
      target := path
      input := action.shape.input
      rawActionName := action.shape.className
      requiresConfirmation := true }
  | .mcp name _ =>
      let permission := mcpPermissionFromMapping name mcpPermissions
      { actionType := .mcpTool
        permission
        target := name
        input := action.shape.input
        rawActionName := action.shape.className
        requiresConfirmation := permission = .execute || permission = .confirm }
  | .other className _ _ => {
      actionType := .unknown
      permission := .read
      target := className
      input := action.shape.input
      rawActionName := action.shape.className }

/-- The inputs do not depend on the permission settings. -/
@[simp] theorem classified_input (action : RuntimeAction) (permissions : McpPermissions) :
    (actionFromRuntimeAction action permissions).input = action.shape.input := by
  rw [actionFromRuntimeAction]
  cases action.shape <;> rfl

end ForgePilot.Harness
