import ForgePilot.RuntimeFiles

/-!
# Edits by a language model

A file is read, some of its lines are given to a language model together with a draft, and the file is
written with the answer in their place. The first line has the number one, and the last line of a range
belongs to it. Where the linter objects, the file is written all the same and the model is asked for a
correction, which is an edit of its own, as long as retries are left.

The answers of the model, the linter, the texts of differences and the chunks that may be relevant are
given from outside.
-/

namespace ForgePilot.FileEdits

open StoredFiles (Text)
open Sequences RuntimeFiles Characters

structure FileEditAction where
  path : String
  content : Text
  start : Int
  stop : Int

/-- Lines of a file that resemble a draft. -/
structure Chunk where
  lineRange : Nat × Nat
  normalizedLcs : String
  visualize : String

/-- What is given from outside. -/
structure Runtime where
  workspace : Workspace
  enableAutoLint : Bool
  getDiff : Text → Text → String → Text
  getLintError : String → Text → Text → Text → Option String
  completion : Text → Text → Nat → Text
  getTopKChunkMatches : Text → Text → List Chunk
  correction : Text → String → Option FileEditAction

inductive EditObservation where
  | edited (content : Text) (path : String) (prevExist : Bool) (oldContent newContent : Text)
  | error (content : String)

/-- Exceptions that are not caught: of the file system, or an observation that was not expected. -/
inductive Failure where
  | os (error : OSError)
  | unexpected (observation : Observation)

abbrev EditAnswer := Except Failure EditObservation

def maxLinesToEdit : Nat := 300

/-! ## The answer of the model -/

/-- The text behind the first occurrence of another one. -/
def afterFirst (needle text : Text) : Option Text :=
  (beforeFirst needle text).map fun front => text.drop (front.length + needle.length)

/-- The code between the tags; a first line with a mark is dropped. -/
def extractCode (answer : Text) : Option Text := do
  let behind ← afterFirst "<updated_code>".toList answer
  let content ← beforeFirst "</updated_code>".toList behind
  if "#EDIT:".toList.isPrefixOf content then
    pure ((afterFirst ['\n'] content).getD content)
  else pure content

/-- The first answer with code, of as many as there are tries. -/
def getNewFileContents (runtime : Runtime) (oldContents draftChanges : Text) : Option Text :=
  (List.range 3).findSome? fun attempt =>
    extractCode (runtime.completion oldContents draftChanges attempt)

/-! ## Ranges -/

/-- What is wrong with a range: its beginning or its end is not a line of the file, or it ends before it
begins. -/
def validateRange (start stop : Int) (totalLines : Nat) : Option String :=
  if (start < 1 ∧ start ≠ -1) ∨ start > totalLines ∨ (start > stop ∧ stop ≠ -1 ∧ start ≠ -1) then
    some ("Invalid range for editing: start=" ++ toString start ++ ", end=" ++ toString stop ++
      ", total lines=" ++ toString totalLines ++ ". start must be >= 1 and <=" ++ toString totalLines ++
      " (total lines of the edited file), start <= end, or start == -1 (append to the end of the file).")
  else if (stop < 1 ∧ stop ≠ -1) ∨ stop > totalLines ∨ (stop < start ∧ start ≠ -1 ∧ stop ≠ -1) then
    some ("Invalid range for editing: start=" ++ toString start ++ ", end=" ++ toString stop ++
      ", total lines=" ++ toString totalLines ++ ". end must be >= 1 and <= " ++ toString totalLines ++
      " (total lines of the edited file), end >= start, or end == -1 (to edit till the end of the file).")
  else none

def joinLines (lines : List Text) : Text := ['\n'].intercalate lines

/-- Where a range ends, counted from zero and exclusively. -/
def endIdx (action : FileEditAction) (lines : List Text) : Int :=
  if action.stop ≠ -1 then action.stop - 1 + 1 else lines.length

def contentToEdit (action : FileEditAction) (lines : List Text) : Text :=
  joinLines (slice lines (some (action.start - 1)) (some (endIdx action lines)))

def snippetText (path : String) (number : Nat) (chunk : Chunk) : String :=
  "[begin relevant snippet " ++ toString (number + 1) ++ ". Line range: L" ++
    toString chunk.lineRange.1 ++ "-L" ++ toString chunk.lineRange.2 ++ ". Similarity: " ++
    chunk.normalizedLcs ++ "]\n" ++
    "[Browse around it via \x60open_file(\"" ++ path ++ "\", " ++
    toString ((chunk.lineRange.1 + chunk.lineRange.2) / 2) ++ ")\x60]\n" ++
    chunk.visualize ++ "\n" ++
    "[end relevant snippet " ++ toString (number + 1) ++ "]\n" ++
    String.ofList (List.replicate 40 '-') ++ "\n"

/-- The message about a range that is too long. -/
def tooLongText (runtime : Runtime) (action : FileEditAction) (content : Text) (first last : Int) : String :=
  "[Edit error: The range of lines to edit is too long.]\n" ++
    "[The maximum number of lines allowed to edit at once is " ++ toString maxLinesToEdit ++
    ". Got (L" ++ toString (first + 1) ++ "-L" ++ toString last ++ ") " ++ toString (last - first) ++
    " lines.]\n" ++
    "Here are some snippets that maybe relevant to the provided edit.\n" ++
    String.join (((runtime.getTopKChunkMatches content action.content).zipIdx).map
      fun chunk => snippetText action.path chunk.2 chunk.1) ++
    "Consider using \x60open_file\x60 to explore around the relevant snippets if needed.\n" ++
    "**IMPORTANT**: Please REDUCE the range of edits to less than " ++ toString maxLinesToEdit ++
    " lines by setting \x60start\x60 and \x60end\x60 in the edit action (e.g. \x60<file_edit path=\"" ++ action.path ++
    "\" start=[PUT LINE NUMBER HERE] end=[PUT LINE NUMBER HERE] />\x60). "

/-! ## Edits -/

/-- The suffix of a path: from the last dot of its last name, unless only dots precede it. -/
def suffixOf (path : String) : String :=
  let name := (path.toList.reverse.takeWhile (· != '/'))
  let back := name.takeWhile (· != '.')
  let front := (name.dropWhile (· != '.')).drop 1
  if back.length < name.length ∧ front.any (· != '.') then String.ofList ('.' :: back.reverse) else ""

/-- Ask for a correction, and make it if there is one and retries are left; exceptions are caught. -/
def correctEdit (runtime : Runtime) (again : Option (Disk → FileEditAction → Disk × EditAnswer))
    (disk : Disk) (fileContent : Text) (errorObs : String) : Disk × EditAnswer :=
  match again with
  | none => (disk, .ok (.error errorObs))
  | some edit =>
      match runtime.correction fileContent errorObs with
      | none => (disk, .ok (.error errorObs))
      | some action =>
          match edit disk action with
          | (after, .ok observation) => (after, .ok observation)
          | (after, .error _) => (after, .ok (.error errorObs))

/-- What the linter says about an edit, if it is asked. -/
def lintError (runtime : Runtime) (path : String) (original updated : Text) : Option String :=
  if runtime.enableAutoLint then
    runtime.getLintError (suffixOf path) original updated (runtime.getDiff original updated path)
  else none

/-- Write an updated content, and correct it where the linter objects. An exception of the write is not
caught; an observation of an error is passed over. -/
def writeUpdated (runtime : Runtime) (again : Option (Disk → FileEditAction → Disk × EditAnswer))
    (disk : Disk) (path : String) (original updated : Text) : Disk × EditAnswer :=
  match writeFile runtime.workspace disk path updated 0 (-1) with
  | (after, .error raised) => (after, .error (.os raised))
  | (after, .ok _) =>
      match lintError runtime path original updated with
      | some errorObs => correctEdit runtime again after updated errorObs
      | none =>
          (after, .ok (.edited (runtime.getDiff original updated path) path true original updated))

/-- Edit a file that was read. -/
def editContent (runtime : Runtime) (again : Option (Disk → FileEditAction → Disk × EditAnswer))
    (disk : Disk) (action : FileEditAction) (original : Text) : Disk × EditAnswer :=
  let oldFileLines := original.splitOn '\n'
  match validateRange action.start action.stop oldFileLines.length with
  | some error => (disk, .ok (.error error))
  | none =>
      if action.start = -1 then
        writeUpdated runtime again disk action.path original
          (joinLines (oldFileLines ++ action.content.splitOn '\n'))
      else
        let startIdx := action.start - 1
        let stopIdx := endIdx action oldFileLines
        if stopIdx - startIdx > maxLinesToEdit + 1 then
          (disk, .ok (.error (tooLongText runtime action original startIdx stopIdx)))
        else
          match getNewFileContents runtime (contentToEdit action oldFileLines) action.content with
          | none => (disk, .ok (.error ("Failed to get new file contents. " ++
              "Please try to reduce the number of edits and try again.")))
          | some editedContent =>
              writeUpdated runtime again disk action.path original
                (joinLines (slice oldFileLines none (some startIdx) ++ editedContent.splitOn '\n' ++
                  slice oldFileLines (some stopIdx) none))

/-- Create a file that was not found. -/
def createContent (runtime : Runtime) (disk : Disk) (action : FileEditAction) : Disk × EditAnswer :=
  match writeFile runtime.workspace disk action.path (strip action.content) 0 (-1) with
  | (after, .error raised) => (after, .error (.os raised))
  | (after, .ok (.error content)) => (after, .ok (.error content))
  | (after, .ok (.fileWrite _)) =>
      (after, .ok (.edited (runtime.getDiff [] action.content action.path) action.path false []
        action.content))
  | (after, .ok other) => (after, .error (.unexpected other))

def editOnce (runtime : Runtime) (again : Option (Disk → FileEditAction → Disk × EditAnswer))
    (disk : Disk) (action : FileEditAction) : Disk × EditAnswer :=
  match readFile runtime.workspace disk action.path 0 (-1) with
  | .error raised => (disk, .error (.os raised))
  | .ok (.error content) =>
      if occursIn "file not found".toList (content.toList.map Char.toLower) then
        createContent runtime disk action
      else (disk, .error (.unexpected (.error content)))
  | .ok (.fileRead _ content) => editContent runtime again disk action content
  | .ok other => (disk, .error (.unexpected other))

/-- An edit with so many retries left. -/
def llmBasedEdit (runtime : Runtime) : Nat → Disk → FileEditAction → Disk × EditAnswer
  | 0 => editOnce runtime none
  | retries + 1 => editOnce runtime (some (llmBasedEdit runtime retries))

end ForgePilot.FileEdits
