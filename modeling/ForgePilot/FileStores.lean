import ForgePilot.PosixPath

/-!
# Conversation files in a file store

Files of a conversation are named by paths that start with its directory. A store
on disk hands such a path to the file system, where double dots lead to the
parent directory; stores of keyed objects and the store in memory use the path as
it is.

A path below a directory is found by walking the components of its rest from the
location of the directory.
-/

namespace ForgePilot.FileStores

open Characters PosixPath List

def getConversationDir (sid userId : String) : String :=
  if userId ≠ "" then "users/" ++ userId ++ "/conversations/" ++ sid ++ "/"
  else "sessions/" ++ sid ++ "/"

def getConversationAgentStateFilename (sid userId : String) : String :=
  getConversationDir sid userId ++ "agent_state.pkl"

def getConversationStatsFilename (sid userId : String) : String :=
  getConversationDir sid userId ++ "conversation_stats.pkl"

/-- The kinds of stores: a directory on disk, or objects under keys. -/
inductive FileStore where
  | onDisk (root : String)
  | keyed

/-- Join two paths of the operating system as texts. -/
def joinTexts (front path : List Char) : List Char :=
  if path.head? = some '/' then path
  else if front.getLast?.all (· == '/') then front ++ path
  else front ++ '/' :: path

def getFullPath (root path : String) : List Char :=
  joinTexts root.toList (if path.toList.head? = some '/' then path.toList.tail else path.toList)

/-- Follow a component from a location; the parent of the top is the top. -/
def follow (location : List String) (part : String) : List String :=
  if part = ".." then location.dropLast else location ++ [part]

def walk (location parts : List String) : List String := parts.foldl follow location

/-- Where a path of a store on disk leads to. -/
def locate (root path : String) : List String := walk [] (components (getFullPath root path))

/-- Whether a path names a file below a directory. -/
def Below : FileStore → String → String → Prop
  | .onDisk root, directory, file =>
      ∃ name rest, locate root file = locate root directory ++ name :: rest
  | .keyed, directory, file =>
      ∃ letter rest, file.toList = directory.toList ++ letter :: rest

/-- Whether the components of a text lead from a directory to a place below it. -/
def StaysBelow : FileStore → String → String → Prop
  | .onDisk root, directory, subpath =>
      ∃ name rest, walk (locate root directory) (components subpath.toList) =
        locate root directory ++ name :: rest
  | .keyed, _, subpath => subpath ≠ ""

/-- A directory starts with a letter and ends with a slash. -/
theorem conversation_dir_spelled (sid userId : String) : ∃ letter middle,
    (getConversationDir sid userId).toList = letter :: middle ++ ['/'] ∧ letter ≠ '/' := by
  by_cases named : userId ≠ ""
  · refine ⟨'u', "sers/".toList ++ userId.toList ++ "/conversations/".toList ++ sid.toList, ?_,
      by decide⟩
    simp [getConversationDir, named]
  · refine ⟨'s', "essions/".toList ++ sid.toList, ?_, by decide⟩
    simp [getConversationDir, named]

/-- What follows a directory follows it on disk. -/
theorem get_full_path_append (root directory subpath : String) {letter : Char}
    {middle : List Char} (spelled : directory.toList = letter :: middle) (proper : letter ≠ '/') :
    getFullPath root (directory ++ subpath) =
      getFullPath root directory ++ subpath.toList := by
  simp only [getFullPath, joinTexts, String.toList_append, spelled, cons_append,
    head?_cons, Option.some.injEq, proper, if_false]
  split <;> simp

/-- The location below a directory is found by walking from the directory. -/
theorem locate_below (root sid userId subpath : String) :
    locate root (getConversationDir sid userId ++ subpath) =
      walk (locate root (getConversationDir sid userId)) (components subpath.toList) := by
  obtain ⟨letter, middle, spelled, proper⟩ := conversation_dir_spelled sid userId
  have ends : ∃ front, getFullPath root (getConversationDir sid userId) = front ++ ['/'] := by
    simp only [getFullPath, joinTexts, spelled, cons_append, head?_cons,
      Option.some.injEq, proper, if_false]
    split
    · exact ⟨root.toList ++ letter :: middle, by simp⟩
    · exact ⟨root.toList ++ '/' :: letter :: middle, by simp⟩
  obtain ⟨front, ends⟩ := ends
  have rest := components_slash front subpath.toList
  have directory := components_slash front []
  rw [locate, get_full_path_append root _ subpath spelled proper,
    locate, ends, append_assoc, singleton_append, rest, directory]
  simp [walk, components, words, wordsFrom, flush]

/-- A path below a directory names a file below it exactly when its components stay there. -/
theorem below_iff (store : FileStore) (sid userId subpath : String) :
    Below store (getConversationDir sid userId) (getConversationDir sid userId ++ subpath) ↔
      StaysBelow store (getConversationDir sid userId) subpath := by
  cases store with
  | onDisk root => simp [Below, StaysBelow, locate_below]
  | keyed =>
    simp only [Below, StaysBelow, String.toList_append, append_cancel_left_eq]
    constructor
    · rintro ⟨letter, rest, spelled⟩ rfl
      cases spelled
    · intro filled
      apply exists_cons_of_ne_nil
      simpa using filled

/-- A plain file name stays below every directory. -/
theorem stays_below_name (store : FileStore) (directory name : String)
    (plain : components name.toList = [name]) (proper : name ≠ "..") :
    StaysBelow store directory name := by
  cases store with
  | onDisk root => exact ⟨name, [], by simp [plain, walk, follow, proper]⟩
  | keyed =>
    rintro rfl
    cases plain

end ForgePilot.FileStores
