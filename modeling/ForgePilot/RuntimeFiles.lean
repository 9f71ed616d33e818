import ForgePilot.LineEnds
import ForgePilot.Sequences

/-!
# Files of the workspace

A path is resolved against the workspace and leads to a place on the host, or nowhere. Files are opened
as texts: every line end is read as a line feed, and line feeds are written as they are. Links and
permissions are given from outside and stay as they are while files are read and written.

The range of a read is brought into the file by three bounds, one after the other.
-/

namespace ForgePilot.RuntimeFiles

open StoredFiles (Text)
open Sequences LineEnds

/-! ## Ranges of lines -/

section Ranges

universe u
variable {α : Type u}

/-- The lines from `start` up to `stop`; a `stop` of minus one is the end of the file. -/
def readLines (allLines : List α) (start stop : Int) : List α :=
  let start := max start 0
  let start := min start allLines.length
  let stop := if stop = -1 then -1 else max stop 0
  let stop := min stop allLines.length
  if stop = -1 then
    if start = 0 then allLines else slice allLines (some start) none
  else
    let numLines : Int := allLines.length
    let first := max 0 (min start (numLines - 2))
    let stop := if stop > numLines then -1 else max (first + 1) stop
    slice allLines (some first) (some stop)

/-- New lines in the place of those from `start` up to `stop`; empty texts stand where nothing is kept. -/
def insertLines (toInsert original : List Text) (start stop : Int) : List Text :=
  (if start = 0 then [[]] else slice original none (some start)) ++
    toInsert.map (· ++ ['\n']) ++
    (if stop = -1 then [[]] else slice original (some stop) none)

end Ranges

/-! ## Places on the host -/

/-- Where a path of the sandbox leads to on the host; outside the workspace access is not permitted. -/
def resolvePath (links : PosixPath → PosixPath)
    (filePath workingDirectory workspaceBase workspaceMountPathInSandbox : String) : Option PosixPath :=
  let named := PosixPath.ofText filePath
  let pathInSandbox :=
    if named.isAbsolute then named else (PosixPath.ofText workingDirectory).join named
  let absPathInSandbox := links pathInSandbox
  match absPathInSandbox.relativeTo (PosixPath.ofText workspaceMountPathInSandbox) with
  | none => none
  | some pathInWorkspace =>
      let base := PosixPath.ofText workspaceBase
      some ⟨base.root, base.parts ++ pathInWorkspace⟩

/-- What is at a place: a file that can be decoded, one that cannot, or a directory. -/
inductive Entry where
  | text (contents : Text)
  | undecodable
  | directory
deriving DecidableEq

abbrev Disk := OrderedDict PosixPath Entry

/-- The exceptions of the file system. -/
inductive OSError where
  | fileNotFound
  | isADirectory
  | notADirectory
  | permission (place : PosixPath)
deriving DecidableEq

/-- What is given from outside: the workspace, how links are followed, and what may be opened. -/
structure Workspace where
  links : PosixPath → PosixPath
  workdir : String
  workspaceBase : String
  workspaceMountPathInSandbox : String
  mayRead : PosixPath → Bool
  mayWrite : PosixPath → Bool

def Workspace.resolve (workspace : Workspace) (path : String) : Option PosixPath :=
  resolvePath workspace.links path workspace.workdir workspace.workspaceBase
    workspace.workspaceMountPathInSandbox

/-- What is found at a place; the top of the tree is a directory. -/
def lookup (disk : Disk) (place : PosixPath) : Option Entry :=
  if place.parts = [] then some .directory else disk.get place

/-- The directory of a place; a single name without a root has none. -/
def dirname (place : PosixPath) : Option PosixPath :=
  if place.root = "" ∧ place.parts.length ≤ 1 then none else some ⟨place.root, place.parts.dropLast⟩

def pathExists (disk : Disk) (place : Option PosixPath) : Bool :=
  match place with
  | none => false
  | some place => (lookup disk place).isSome

/-- Make the directories of some names, one below the other; those made so far stay. -/
def makedirsFrom (workspace : Workspace) (disk : Disk) (root : String) (above : List String) :
    List String → Disk × Except OSError Unit
  | [] => (disk, .ok ())
  | name :: rest =>
      let place : PosixPath := ⟨root, above ++ [name]⟩
      match lookup disk place with
      | some .directory => makedirsFrom workspace disk root (above ++ [name]) rest
      | some _ => (disk, .error .notADirectory)
      | none =>
          if workspace.mayWrite place then
            makedirsFrom workspace (disk.set place .directory) root (above ++ [name]) rest
          else (disk, .error (.permission place))

def makedirs (workspace : Workspace) (disk : Disk) (place : Option PosixPath) :
    Disk × Except OSError Unit :=
  match place with
  | none => (disk, .error .fileNotFound)
  | some place => makedirsFrom workspace disk place.root [] place.parts

def belowFile (disk : Disk) (place : PosixPath) : Bool :=
  match lookup disk ⟨place.root, place.parts.dropLast⟩ with
  | some (.text _) => true
  | some .undecodable => true
  | _ => false

/-- Open a file that is there; what is opened may still not be decodable. -/
def openFile (disk : Disk) (may : PosixPath → Bool) (place : PosixPath) : Except OSError Entry :=
  match lookup disk place with
  | none => .error (if belowFile disk place then .notADirectory else .fileNotFound)
  | some .directory => .error .isADirectory
  | some entry => if may place then .ok entry else .error (.permission place)

def createFile (workspace : Workspace) (disk : Disk) (place : PosixPath) : Except OSError Disk :=
  if belowFile disk place then .error .notADirectory
  else if lookup disk ⟨place.root, place.parts.dropLast⟩ ≠ some .directory then .error .fileNotFound
  else if workspace.mayWrite place then .ok (disk.set place (.text []))
  else .error (.permission place)

/-! ## Reading and writing -/

inductive Observation where
  | fileRead (path : String) (content : Text)
  | fileWrite (path : String)
  | error (content : String)
deriving DecidableEq

/-- What a call gives: an observation, or an exception that is not caught. -/
abbrev Answer := Except OSError Observation

def readFile (workspace : Workspace) (disk : Disk) (path : String) (start stop : Int) : Answer :=
  match workspace.resolve path with
  | none => .ok (.error ("You're not allowed to access this path: " ++ path ++
      ". You can only access paths inside the workspace."))
  | some place =>
      match openFile disk workspace.mayRead place with
      | .ok (.text contents) =>
          .ok (.fileRead path (readLines (readlines none contents) start stop).flatten)
      | .ok _ => .ok (.error ("File could not be decoded as utf-8: " ++ path))
      | .error .fileNotFound => .ok (.error ("File not found: " ++ path))
      | .error .isADirectory =>
          .ok (.error ("Path is a directory: " ++ path ++ ". You can only read files"))
      | .error raised => .error raised

/-- An exception while a file is written, as far as it is caught. -/
def writeFailed (path : String) : OSError → Answer
  | .fileNotFound => .ok (.error ("File not found: " ++ path))
  | .isADirectory =>
      .ok (.error ("Path is a directory: " ++ path ++ ". You can only write to files"))
  | .permission place => .ok (.error ("Permission error on " ++ path ++
      ": [Errno 13] Permission denied: '" ++ place.text ++ "'"))
  | .notADirectory => .error .notADirectory

/-- Open a file and write it: new lines in the place of old ones, or new lines alone where no file was. -/
def writeLines (workspace : Workspace) (disk : Disk) (place : PosixPath) (path : String)
    (inserted : List Text) (start stop : Int) : Disk × Answer :=
  if (lookup disk place).isSome then
    match openFile disk workspace.mayWrite place with
    | .ok (.text contents) =>
        let allLines := readlines none contents
        (disk.set place (.text (insertLines inserted allLines start stop).flatten), .ok (.fileWrite path))
    | .ok _ => (disk, .ok (.error ("File could not be decoded as utf-8: " ++ path)))
    | .error raised => (disk, writeFailed path raised)
  else
    match createFile workspace disk place with
    | .ok made =>
        (made.set place (.text (inserted.map (· ++ ['\n'])).flatten), .ok (.fileWrite path))
    | .error raised => (disk, writeFailed path raised)

/-- Write the lines of a content; directories that are missing are made first, outside the inner
handler. -/
def writeFile (workspace : Workspace) (disk : Disk) (path : String) (content : Text)
    (start stop : Int) : Disk × Answer :=
  let inserted := content.splitOn '\n'
  match workspace.resolve path with
  | none => (disk, .ok (.error ("Permission error on " ++ path ++
      ": File access not permitted: " ++ path)))
  | some place =>
      if pathExists disk (dirname place) then writeLines workspace disk place path inserted start stop
      else
        match makedirs workspace disk (dirname place) with
        | (made, .ok ()) => writeLines workspace made place path inserted start stop
        | (made, .error .fileNotFound) => (made, .error .fileNotFound)
        | (made, .error raised) => (made, writeFailed path raised)

end ForgePilot.RuntimeFiles
