import ForgePilot.StoreAgreement
import ForgePilot.TextLines
import Mathlib.Data.String.Basic

/-!
# Changes of a working directory

Commands of git are run in the directory of a repository. What they print, or what they complain about when
they do, is stripped and read line by line: each line of a comparison is split into words, a status and one or two
paths, and each line of a listing of new files is a path.

Repositories in the directories of a workspace are looked at on their own. Changes of the workspace whose
paths begin with the name of such a directory are left out, and the changes of the repositories are added.
-/

namespace ForgePilot.GitChanges

open Characters TextLines

abbrev Text := List Char

/-- What is left of a command that has ended. -/
structure CompletedProcess where
  returncode : Int
  stdout : Text
  stderr : Text
deriving DecidableEq

/-- The errors that are raised on the way; all but the last one are caught where a reference is tried. -/
inductive GitError where
  | errorRunningCmd (returncode : Int) (output : Text)
  | unexpectedValue (changedFiles : List Text)
  | unexpectedStatus (changedFiles : List Text)
  | noWords
deriving DecidableEq

structure Change where
  status : Text
  path : Text
deriving DecidableEq

section Commands

variable (shell : Text → CompletedProcess)

/-- Run a command; complaints stand for the output. -/
def run (cmd : Text) : Except GitError Text :=
  let result := shell cmd
  let output := if result.stderr ≠ [] then result.stderr else result.stdout
  if result.returncode ≠ 0 then .error (.errorRunningCmd result.returncode output)
  else .ok (strip output)

/-- The references to compare with that belong to the default branch of the origin. -/
def defaultRefs : Except GitError (List Text) :=
  match run shell "git --no-pager remote show origin | grep \"HEAD branch\"".toList with
  | .error _ => .ok []
  | .ok output =>
      match (words isSpace output).getLast? with
      | none => .error .noWords
      | some word =>
          let defaultBranch := strip word
          .ok [("$(git --no-pager merge-base HEAD \"$(git --no-pager rev-parse --abbrev-ref origin/".toList
              ++ defaultBranch ++ ")\")".toList), "origin/".toList ++ defaultBranch]

/-- The first reference that exists; the last one tried is the empty tree. -/
def getValidRef : Except GitError (Option Text) := do
  let current :=
    match run shell "git --no-pager rev-parse --abbrev-ref HEAD".toList with
    | .ok branch => ["origin/".toList ++ branch]
    | .error _ => []
  let refs ← defaultRefs shell
  let refNewRepo :=
    "$(git --no-pager rev-parse --verify 4b825dc642cb6eb9a060e54bf8d69288fbee4904)".toList
  return (current ++ refs ++ [refNewRepo]).findSome? fun ref =>
    (run shell ("git --no-pager rev-parse --verify ".toList ++ ref)).toOption

/-- The status of a line with one path; a question is an addition and a star a change. -/
def statusOf (word : Text) : Text :=
  if word = "??".toList then ['A'] else if word = ['*'] then ['M'] else word

/-- The changes of the parts of a line: a status with two paths, or with one. -/
def parseParts (changedFiles : List Text) : List Text → Except GitError (List Change)
  | [status, oldPath, newPath] =>
      if (strip status).head? = some 'R' then .ok [⟨['D'], strip oldPath⟩, ⟨['A'], strip newPath⟩]
      else if (strip status).head? = some 'C' then .ok [⟨['A'], strip newPath⟩]
      else .error (.unexpectedValue changedFiles)
  | [status, path] =>
      if statusOf (strip status) ∈ [['M'], ['A'], ['D'], ['U']] then
        .ok [⟨statusOf (strip status), strip path⟩]
      else .error (.unexpectedStatus changedFiles)
  | _ => .error (.unexpectedValue changedFiles)

def parseLine (changedFiles : List Text) (line : Text) : Except GitError (List Change) :=
  if strip line = [] then .error (.unexpectedValue changedFiles)
  else parseParts changedFiles (words isSpace line)

def parseLines (changedFiles : List Text) : List Text → Except GitError (List Change)
  | [] => .ok []
  | line :: rest => do
      let changes ← parseLine changedFiles line
      let others ← parseLines changedFiles rest
      return changes ++ others

/-- New files; empty lines are skipped. -/
def untrackedChanges (lines : List Text) : List Change :=
  (lines.filter (· ≠ [])).map fun path => ⟨['A'], path⟩

/-- The changes of a repository, which has none where there is nothing to compare with. -/
def getChangesInRepo : Except GitError (List Change) := do
  let ref ← getValidRef shell
  match ref with
  | none => return []
  | some ref =>
      if ref = [] then return []
      let changedFiles ← run shell ("git --no-pager diff --name-status ".toList ++ ref)
      let changes ← parseLines (splitlines changedFiles) (splitlines changedFiles)
      let untrackedFiles ← run shell "git --no-pager ls-files --others --exclude-standard".toList
      return changes ++ untrackedChanges (splitlines untrackedFiles)

end Commands

/-! ## Repositories in a workspace -/

/-- The part of a path before its last slash, without slashes at its end. -/
def dirname (path : Text) : Text :=
  let head := (path.reverse.dropWhile (· != '/')).reverse
  if head.all (· == '/') then head else (head.reverse.dropWhile (· == '/')).reverse

/-- The directory of a place that was found, without the dot it begins with. -/
def gitDirOf (found : Text) : Text := (dirname found).drop 2

/-- Whether the path of a change begins with the name of one of the directories. -/
def beginsInside (gitDirs : List Text) (change : Change) : Bool :=
  gitDirs.any fun gitDir => gitDir.isPrefixOf change.path

/-- The directory of a name in another one. -/
def joinPath (cwd name : Text) : Text :=
  if cwd.getLast? = some '/' then cwd ++ name else cwd ++ '/' :: name

/-- Changes by their paths; those of the same path keep their order. -/
def sortChanges (changes : List Change) : List Change :=
  changes.mergeSort fun first second => String.ofList first.path ≤ String.ofList second.path

section Workspaces

variable (shell : Text → Text → CompletedProcess)

/-- The changes of each of the directories, with the directory in front of their paths. -/
def nestedChanges (cwd : Text) : List Text → Except GitError (List Change)
  | [] => .ok []
  | gitDir :: rest => do
      let gitDirChanges ← getChangesInRepo (shell (joinPath cwd gitDir))
      let others ← nestedChanges cwd rest
      return gitDirChanges.map (fun change => ⟨change.status, gitDir ++ '/' :: change.path⟩) ++ others

/-- The changes of a workspace and of the repositories in it, which are visited in some order. -/
def getGitChanges (cwd : Text) (gitDirs : List Text) : Except GitError (List Change) := do
  let changes ← getChangesInRepo (shell cwd)
  let nested ← nestedChanges shell cwd gitDirs
  return sortChanges (changes.filter (fun change => !beginsInside gitDirs change) ++ nested)

end Workspaces

end ForgePilot.GitChanges
