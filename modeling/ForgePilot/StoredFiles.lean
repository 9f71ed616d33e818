import ForgePilot.FileStores
import ForgePilot.OrderedDict
import Mathlib.Data.List.Infix

/-!
# Files in memory and on disk

The store in memory has the files' contents by their paths as texts; a directory is whatever a path starts
with. The store on disk has a tree below its root: entries are found by the names in a path, and
only what lies below a directory that exists can be created. A file is written beside its place, under a name
with the process and the thread, and put in its place then.

Paths have at least one name, and lists and deletions may end in a slash. The file system is taken to hold
any name and any text; line ends are those of Linux.
-/

namespace ForgePilot.StoredFiles

/-! ## Paths -/

abbrev Text := List Char

structure Name where
  text : Text
  filled : text ≠ []
  solid : '/' ∉ text
  proper : text ≠ ['.'] ∧ text ≠ ['.', '.']
deriving DecidableEq

/-- The names of a path; there is at least one. -/
structure Path where
  parts : List Name
  filled : parts ≠ []

/-- The names of a path, with slashes between them. -/
def textOf (parts : List Name) : Text := ['/'].intercalate (parts.map Name.text)

/-- The text of a path, with a slash at its end or without. -/
def spelled (path : Path) (slash : Bool) : Text :=
  if slash then textOf path.parts ++ ['/'] else textOf path.parts

/-- A text that ends in a slash. -/
def closed (text : Text) : Text := if text.getLast? = some '/' then text else text ++ ['/']

/-! ## Calls -/

/-- What a call returns or raises. -/
inductive Outcome where
  | done
  | contents (text : Text)
  | files (paths : List Text)
  | fileNotFound
  | raised
deriving DecidableEq

inductive Call where
  | write (path : Path) (contents : Text)
  | read (path : Path)
  | list (path : Path) (slash : Bool)
  | delete (path : Path) (slash : Bool)

/-! ## In memory -/

abbrev InMemoryFileStore := OrderedDict Text Text

namespace InMemoryFileStore

def write (store : InMemoryFileStore) (path contents : Text) : InMemoryFileStore :=
  store.set path contents

def read (store : InMemoryFileStore) (path : Text) : Outcome :=
  match store.get path with
  | none => .fileNotFound
  | some contents => .contents contents

/-- Add what a file shows of a path; a file with this very path raises. -/
def listOne (path : Text) (files : List Text) (file : Text) : Option (List Text) :=
  if path.isPrefixOf file then
    let parts := (file.drop path.length).splitOn '/'
    match (if parts.head? = some [] then parts.tail else parts) with
    | [] => none
    | [_] => some (files ++ [file])
    | first :: _ =>
        let dirPath := closed (FileStores.joinTexts path first)
        some (if dirPath ∈ files then files else files ++ [dirPath])
  else some files

def list (store : InMemoryFileStore) (path : Text) : Outcome :=
  match store.keys.foldlM (listOne path) [] with
  | none => .raised
  | some files => .files files

/-- Every key that starts with the path is deleted. -/
def delete (store : InMemoryFileStore) (path : Text) : InMemoryFileStore :=
  ⟨store.entries.filter fun entry => !path.isPrefixOf entry.1,
    store.distinct.sublist (List.filter_sublist.map Prod.fst)⟩

def step (store : InMemoryFileStore) : Call → InMemoryFileStore × Outcome
  | .write path contents => (write store (textOf path.parts) contents, .done)
  | .read path => (store, read store (textOf path.parts))
  | .list path slash => (store, list store (spelled path slash))
  | .delete path slash => (delete store (spelled path slash), .done)

end InMemoryFileStore

/-! ## On disk -/

/-- The process and the thread that write. -/
structure Writer where
  pid : Nat
  threadIdent : Nat

inductive Entry where
  | file (contents : Text)
  | directory
deriving DecidableEq

/-- The entries below the root by their names. -/
abbrev LocalFileStore := OrderedDict (List Name) Entry

namespace LocalFileStore

/-- Create the directories of some names, one below the other; a file is in the way. -/
def makedirs (store : LocalFileStore) (front : List Name) : List Name → Option LocalFileStore
  | [] => some store
  | name :: rest =>
      match store.get (front ++ [name]) with
      | some (.file _) => none
      | some .directory => makedirs store (front ++ [name]) rest
      | none => makedirs (store.set (front ++ [name]) .directory) (front ++ [name]) rest

def suffix (writer : Writer) : Text :=
  ".tmp.".toList ++ (writer.pid.repr.toList ++ '.' :: writer.threadIdent.repr.toList)

theorem slash_not_mem_repr (number : Nat) : '/' ∉ number.repr.toList := by
  intro member
  have digits : '/' ∈ Nat.toDigits 10 number := by simpa [Nat.repr] using member
  exact absurd (Nat.isDigit_of_mem_toDigits (by decide) (by decide) digits) (by decide)

theorem suffix_solid (writer : Writer) : '/' ∉ suffix writer := by
  intro member
  rcases List.mem_append.mp member with front | rest
  · exact absurd front (by decide)
  rcases List.mem_append.mp rest with pid | rest
  · exact slash_not_mem_repr _ pid
  · rcases rest with _ | ⟨_, thread⟩
    exact slash_not_mem_repr _ thread

/-- The name beside a file under which it is written. -/
def tempName (writer : Writer) (name : Name) : Name where
  text := name.text ++ suffix writer
  filled := fun empty => name.filled (List.append_eq_nil_iff.mp empty).1
  solid := fun member =>
    (List.mem_append.mp member).elim name.solid (suffix_solid _)
  proper := by
    have long : 2 < (name.text ++ suffix writer).length := by
      simp [suffix]
      omega
    constructor <;> intro same <;> rw [same] at long <;> exact absurd long (by decide)

/-- The path beside a file under which it is written. -/
def tempPath (writer : Writer) (path : Path) : List Name :=
  path.parts.dropLast ++ [tempName writer (path.parts.getLast path.filled)]

def write (store : LocalFileStore) (writer : Writer) (path : Path) (contents : Text) :
    LocalFileStore × Outcome :=
  match makedirs store [] path.parts.dropLast with
  | none => (store, .raised)
  | some made =>
      if made.get (tempPath writer path) = some .directory then (made, .raised)
      else
        let written := made.set (tempPath writer path) (.file contents)
        let moved := written.erase (tempPath writer path)
        if written.get path.parts = some .directory then (moved, .raised)
        else (moved.set path.parts (.file contents), .done)

/-- Line ends as they are read: a carriage return ends a line, alone or before a line feed. -/
def universalNewlines : Text → Text
  | [] => []
  | '\r' :: '\n' :: rest => '\n' :: universalNewlines rest
  | character :: rest =>
      (if character = '\r' then '\n' else character) :: universalNewlines rest

/-- What is raised where nothing is found: a file may be in the way. -/
def missing (store : LocalFileStore) (parts : List Name) : Outcome :=
  if parts.inits.any fun front =>
    match store.get front with
    | some (.file _) => true
    | _ => false
  then .raised else .fileNotFound

def read (store : LocalFileStore) (path : Path) : Outcome :=
  match store.get path.parts with
  | some (.file contents) => .contents (universalNewlines contents)
  | some .directory => .raised
  | none => missing store path.parts

/-- The text of an entry of a directory, with a slash if it is a directory. -/
def listed (path : Text) (name : Name) : Entry → Text
  | .file _ => FileStores.joinTexts path name.text
  | .directory => FileStores.joinTexts path name.text ++ ['/']

def list (store : LocalFileStore) (path : Path) (slash : Bool) : Outcome :=
  match store.get path.parts with
  | some .directory => .files <| store.entries.filterMap fun item =>
      match item.1.getLast? with
      | none => none
      | some name =>
          if item.1.dropLast = path.parts then some (listed (spelled path slash) name item.2)
          else none
  | some (.file _) => .raised
  | none => missing store path.parts

/-- Nothing is deleted where there is nothing; a file is not found under a path that ends in a slash. -/
def delete (store : LocalFileStore) (path : Path) (slash : Bool) : LocalFileStore :=
  match store.get path.parts with
  | none => store
  | some (.file _) => if slash then store else store.erase path.parts
  | some .directory =>
      ⟨store.entries.filter fun entry => !path.parts.isPrefixOf entry.1,
        store.distinct.sublist (List.filter_sublist.map Prod.fst)⟩

def step (writer : Writer) (store : LocalFileStore) : Call → LocalFileStore × Outcome
  | .write path contents => write store writer path contents
  | .read path => (store, read store path)
  | .list path slash => (store, list store path slash)
  | .delete path slash => (delete store path slash, .done)

end LocalFileStore

/-! ## Both -/

/-- One call, made to both stores. -/
def step (writer : Writer) (stores : InMemoryFileStore × LocalFileStore) (call : Call) :
    InMemoryFileStore × LocalFileStore :=
  ((InMemoryFileStore.step stores.1 call).1, (LocalFileStore.step writer stores.2 call).1)

/-- Two stores without files. -/
def initial : InMemoryFileStore × LocalFileStore := (.empty, .empty)
end ForgePilot.StoredFiles
