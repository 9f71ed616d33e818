import ForgePilot.FileEdits
import ForgePilot.FileRanges

/-!
# Files grow by a line end

What is written is split at line feeds, and every piece gets one. A content is therefore written with one
line feed more than it has, and never read back as it was. An edit that puts the lines it was given back
in their place makes the file longer by one line feed, each time it is made.
-/

namespace ForgePilot.EditDrift

open StoredFiles (Text)
open StoredFiles.LocalFileStore (universalNewlines)
open Runs Sequences LineEnds RuntimeFiles FileEdits

/-! ## Lines of a content -/

theorem keepLf_flatten (pending text : Text) : (keepLf pending text).flatten = pending ++ text := by
  induction text generalizing pending with
  | nil =>
    rw [keepLf]
    split
    · rename_i empty
      rw [empty]
      rfl
    · simp
  | cons character rest ih =>
    rw [keepLf]
    split
    · rename_i feed
      rw [List.flatten_cons, ih, feed]
      simp
    · rw [ih]
      simp

/-- With the default range, a file is read with line feeds for its line ends. -/
theorem read_whole (contents : Text) :
    (readLines (readlines none contents) 0 (-1)).flatten = universalNewlines contents := by
  have start : FileRanges.firstOf (readlines none contents).length 0 = 0 := by
    simp [FileRanges.firstOf]
  rw [FileRanges.readLines_to_end, start, List.drop_zero, readlines, keepLf_flatten, List.nil_append]

/-- Between line feeds there are none. -/
theorem pieces_unbroken (text : Text) : ∀ piece ∈ text.splitOn '\n', '\n' ∉ piece := by
  induction text with
  | nil => simp
  | cons character rest ih =>
    rw [List.splitOn_cons_eq_if_modifyHead]
    split
    · intro piece member
      rcases member with _ | ⟨_, later⟩
      · exact List.not_mem_nil
      · exact ih piece later
    · rename_i visible
      cases pieces : rest.splitOn '\n' with
      | nil => exact absurd pieces (List.splitOn_ne_nil _ _)
      | cons first others =>
        rw [pieces] at ih
        intro piece member
        rcases member with _ | ⟨_, later⟩
        · have unbroken := ih first (.head _)
          have apart : character ≠ '\n' := by simpa using visible
          simp [unbroken, Ne.symm apart]
        · exact ih piece (.tail _ later)

/-- Pieces with a line feed each are the pieces with line feeds between them, and one more. -/
theorem ended_pieces (pieces : List Text) (some_ : pieces ≠ []) :
    (pieces.map (· ++ ['\n'])).flatten = joinLines pieces ++ ['\n'] := by
  induction pieces with
  | nil => exact absurd rfl some_
  | cons piece rest ih =>
    cases rest with
    | nil => simp [joinLines]
    | cons second others =>
      have later := ih (List.cons_ne_nil _ _)
      have joined : joinLines (piece :: second :: others) =
          piece ++ '\n' :: joinLines (second :: others) := by
        rw [joinLines, List.intercalate_cons_of_ne_nil (List.cons_ne_nil _ _)]
        simp [joinLines]
      rw [List.map_cons, List.flatten_cons, later, joined]
      simp

variable (action : FileEditAction) {workspace : Workspace} {disk : Disk} {path : String}
  (content : Text)

theorem written_lines : ((content.splitOn '\n').map (· ++ ['\n'])).flatten = content ++ ['\n'] := by
  rw [ended_pieces _ (List.splitOn_ne_nil _ _), joinLines, List.intercalate_splitOn]

theorem inserted_lines (original : List Text) :
    (insertLines (content.splitOn '\n') original 0 (-1)).flatten = content ++ ['\n'] := by
  simp [insertLines, written_lines]

/-! ## What was written -/

variable {place : PosixPath}

theorem lookup_set (disk : Disk) (entry : Entry) (proper : place.parts ≠ []) :
    lookup (disk.set place entry) place = some entry := by
  rw [lookup, if_neg proper, OrderedDict.get_set, if_pos rfl]

/-- The top of the tree is no place for a file. -/
theorem openFile_proper {may : PosixPath → Bool} {entry : Entry}
    (opened : openFile disk may place = .ok entry) : place.parts ≠ [] := by
  intro top
  rw [openFile, lookup, if_pos top] at opened
  cases opened

/-- A failure is no written file. -/
theorem writeFailed_ne (path other : String) (raised : OSError) :
    writeFailed path raised ≠ .ok (.fileWrite other) := by
  cases raised <;> simp [writeFailed]

theorem writeLines_written {content : Text}
    (written : (writeLines workspace disk place path (content.splitOn '\n') 0 (-1)).2 =
      .ok (.fileWrite path)) :
    lookup (writeLines workspace disk place path (content.splitOn '\n') 0 (-1)).1 place =
      some (.text (content ++ ['\n'])) := by
  unfold writeLines at written ⊢
  split
  · rename_i there
    rw [if_pos there] at written
    split
    · rename_i contents opened
      have proper := openFile_proper opened
      simpa [inserted_lines] using lookup_set _ _ proper
    · rename_i entry notText opened
      rw [opened] at written
      cases entry with
      | text contents => exact absurd rfl (notText contents)
      | undecodable => simp at written
      | directory => simp at written
    · rename_i raised opened
      rw [opened] at written
      exact absurd written (writeFailed_ne _ _ _)
  · rename_i missing
    rw [if_neg missing] at written
    have proper : place.parts ≠ [] := by
      intro top
      rw [lookup, if_pos top] at missing
      exact missing rfl
    split
    · rw [written_lines]
      exact lookup_set _ _ proper
    · rename_i raised failed
      rw [failed] at written
      exact absurd written (writeFailed_ne _ _ _)

/-- A file that was written holds the content and one line feed more. -/
theorem writeFile_written {content : Text}
    (written : (writeFile workspace disk path content 0 (-1)).2 = .ok (.fileWrite path)) :
    ∃ place, workspace.resolve path = some place ∧
      lookup (writeFile workspace disk path content 0 (-1)).1 place =
        some (.text (content ++ ['\n'])) := by
  unfold writeFile at written ⊢
  cases resolved : workspace.resolve path with
  | none => simp [resolved] at written
  | some place =>
    simp only [resolved] at written ⊢
    refine ⟨place, rfl, ?_⟩
    split
    · rename_i there
      rw [if_pos there] at written
      exact writeLines_written written
    rename_i missing
    rw [if_neg missing] at written
    split at written
    · exact writeLines_written written
    · simp at written
    · exact absurd written (writeFailed_ne _ _ _)

/-! ## What is read back -/

theorem readFile_text (contents content : Text) (resolved : workspace.resolve path = some place)
    (there : lookup disk place = some (.text contents)) :
    readFile workspace disk path 0 (-1) = .ok (.fileRead path content) ↔
      workspace.mayRead place = true ∧ universalNewlines contents = content := by
  have opened : openFile disk workspace.mayRead place =
      if workspace.mayRead place then .ok (.text contents) else .error (.permission place) := by
    rw [openFile, there]
  simp only [readFile, resolved, opened]
  cases workspace.mayRead place with
  | true => simp [read_whole]
  | false => simp

theorem never_read_back {content : Text}
    (written : (writeFile workspace disk path content 0 (-1)).2 = .ok (.fileWrite path)) :
    readFile workspace (writeFile workspace disk path content 0 (-1)).1 path 0 (-1) ≠
      .ok (.fileRead path content) := by
  obtain ⟨place, resolved, there⟩ := writeFile_written written
  rw [Ne, readFile_text _ _ resolved there]
  rintro ⟨-, same⟩
  -- what is read has no carriage return, so the content had none, and the line feed is one too many
  have plain : '\r' ∉ content ++ ['\n'] := by
    have absent := universalNewlines_return (content ++ ['\n'])
    rw [same] at absent
    simpa using absent
  rw [StoreAgreement.universalNewlines_plain plain] at same
  exact absurd (congrArg List.length same) (by simp)

/-- The content that is read from a file. -/
def readText (workspace : Workspace) (disk : Disk) (path : String) : Option Text :=
  match readFile workspace disk path 0 (-1) with
  | .ok (.fileRead _ content) => some content
  | _ => none

/-- What is read from a file stands at the place of its path. -/
theorem readText_eq_some {workspace : Workspace} {content : Text}
    (read : readText workspace disk path = some content) :
    readFile workspace disk path 0 (-1) = .ok (.fileRead path content) ∧
      ∃ place, workspace.resolve path = some place ∧ workspace.mayRead place = true ∧
        '\r' ∉ content := by
  unfold readText readFile at read
  cases resolved : workspace.resolve path with
  | none => simp [resolved] at read
  | some place =>
    simp only [resolved] at read
    cases opened : openFile disk workspace.mayRead place with
    | error raised => cases raised <;> simp [opened] at read
    | ok entry =>
      cases entry with
      | undecodable => simp [opened] at read
      | directory => simp [opened] at read
      | text contents =>
        simp only [opened, read_whole, Option.some.injEq] at read
        have allowed : workspace.mayRead place = true := by
          by_contra denied
          unfold openFile at opened
          split at opened
          · cases opened
          · cases opened
          · rw [if_neg denied] at opened
            cases opened
        refine ⟨?_, place, rfl, allowed, read ▸ universalNewlines_return _⟩
        simp [readFile, resolved, opened, read_whole, read]

/-! ## Edits that change nothing -/

/-- An edit of a file whose answer is the lines that were given: the range is one of the file and not too
long, the linter has nothing to say about the unchanged text, and the file can be written. -/
def Reselects (runtime : Runtime) (path : String) (disk : Disk) (action : FileEditAction) : Prop :=
  action.path = path ∧ ∃ content, readText runtime.workspace disk path = some content ∧
    action.start ≠ -1 ∧
    validateRange action.start action.stop (content.splitOn '\n').length = none ∧
    endIdx action (content.splitOn '\n') - (action.start - 1) ≤ maxLinesToEdit + 1 ∧
    getNewFileContents runtime (contentToEdit action (content.splitOn '\n')) action.content =
      some (contentToEdit action (content.splitOn '\n')) ∧
    lintError runtime path content content = none ∧
    (writeFile runtime.workspace disk path content 0 (-1)).2 = .ok (.fileWrite path)

theorem range_bounds (lines : List Text) (proper : action.start ≠ -1)
    (valid : validateRange action.start action.stop lines.length = none) :
    ∃ first last : Nat, action.start - 1 = first ∧ endIdx action lines = last ∧ first < last ∧
      last ≤ lines.length := by
  unfold validateRange at valid
  split at valid
  · cases valid
  split at valid
  · cases valid
  have ends : endIdx action lines = if action.stop ≠ -1 then action.stop else lines.length := by
    rw [endIdx]
    split <;> omega
  refine ⟨(action.start - 1).toNat, (endIdx action lines).toNat, ?_, ?_, ?_, ?_⟩
  · omega
  · rw [ends]
    split <;> omega
  · rw [ends]
    split <;> omega
  · rw [ends]
    split <;> omega

/-- Lines that are taken out and put back give the content again. -/
theorem put_back (proper : action.start ≠ -1)
    (valid : validateRange action.start action.stop (content.splitOn '\n').length = none) :
    joinLines (slice (content.splitOn '\n') none (some (action.start - 1)) ++
      (contentToEdit action (content.splitOn '\n')).splitOn '\n' ++
        slice (content.splitOn '\n') (some (endIdx action (content.splitOn '\n'))) none) = content := by
  obtain ⟨first, last, starts, ends, filled, inside⟩ := range_bounds action _ proper valid
  have whole := slice_natural (content.splitOn '\n') first last
  have selected : contentToEdit action (content.splitOn '\n') =
      joinLines (((content.splitOn '\n').take last).drop first) := by
    rw [contentToEdit, starts, ends, whole]
  have chosen : ((content.splitOn '\n').take last).drop first ≠ [] := by
    rw [Ne, List.drop_eq_nil_iff, List.length_take]
    omega
  have split : (joinLines (((content.splitOn '\n').take last).drop first)).splitOn '\n' =
      ((content.splitOn '\n').take last).drop first := by
    refine List.splitOn_intercalate '\n' ?_ chosen
    intro piece member
    exact pieces_unbroken _ _ (List.mem_of_mem_take (List.mem_of_mem_drop member))
  have front : (content.splitOn '\n').take first ++ ((content.splitOn '\n').take last).drop first =
      (content.splitOn '\n').take last := by
    conv_rhs => rw [← List.take_append_drop first ((content.splitOn '\n').take last), List.take_take,
      Nat.min_eq_left (Nat.le_of_lt filled)]
  rw [selected, split, starts, ends, slice_front, slice_rest, front, List.take_append_drop,
    joinLines, List.intercalate_splitOn]

/-- An edit whose answer is the lines that were given writes the content it has read. -/
theorem reselected_edit {runtime : Runtime} (retries : Nat) {action : FileEditAction}
    {content : Text} (read : readText runtime.workspace disk path = some content)
    (reselects : Reselects runtime path disk action) :
    (llmBasedEdit runtime retries disk action).1 =
        (writeFile runtime.workspace disk path content 0 (-1)).1 ∧
      (writeFile runtime.workspace disk path content 0 (-1)).2 = .ok (.fileWrite path) := by
  obtain ⟨rfl, found, readFound, proper, valid, short, answered, silent, written⟩ := reselects
  obtain rfl := Option.some.inj (readFound.symm.trans read)
  refine ⟨?_, written⟩
  have observed := (readText_eq_some read).1
  have once (again : Option (Disk → FileEditAction → Disk × EditAnswer)) :
      (editOnce runtime again disk action).1 =
        (writeFile runtime.workspace disk action.path found 0 (-1)).1 := by
    have returned : writeFile runtime.workspace disk action.path found 0 (-1) =
        ((writeFile runtime.workspace disk action.path found 0 (-1)).1, .ok (.fileWrite action.path)) := by
      rw [← written]
    simp only [editOnce, observed, editContent, valid, if_neg proper, if_neg (Int.not_lt.mpr short),
      answered, put_back _ _ proper valid, writeUpdated]
    rw [returned]
    simp [silent]
  cases retries with
  | zero => exact once none
  | succ retries => exact once (some (llmBasedEdit runtime retries))

/-- After such an edit the file is read with one line feed more. -/
theorem reselected_grows (runtime : Runtime) (path : String) (retries : Nat) (disk : Disk)
    (action : FileEditAction) (content : Text)
    (read : readText runtime.workspace disk path = some content)
    (reselects : Reselects runtime path disk action) :
    readText runtime.workspace (llmBasedEdit runtime retries disk action).1 path =
      some (content ++ ['\n']) := by
  obtain ⟨after, written⟩ := reselected_edit _ read reselects
  obtain ⟨-, place, resolved, allowed, plain⟩ := readText_eq_some read
  obtain ⟨target, leads, there⟩ := writeFile_written written
  obtain rfl := Option.some.inj (resolved.symm.trans leads)
  have feeds : '\r' ∉ content ++ ['\n'] := by simpa using plain
  have again := (readFile_text _ _ resolved there).mpr
    ⟨allowed, StoreAgreement.universalNewlines_plain feeds⟩
  rw [after, readText, again]

/-! ## Repeated edits -/

/-- The disk after an edit. -/
def step (runtime : Runtime) (retries : Nat) (disk : Disk) (action : FileEditAction) : Disk :=
  (llmBasedEdit runtime retries disk action).1

/-- Edits that put back what they were given make a file longer by as many line feeds as there are edits. -/
theorem reselected_run (runtime : Runtime) (path : String) (retries : Nat) (disk : Disk)
    (content : Text) (actions : List FileEditAction)
    (read : readText runtime.workspace disk path = some content)
    (reselect : Along (step runtime retries) (Reselects runtime path) disk actions) :
    readText runtime.workspace (run (step runtime retries) disk actions) path =
      some (content ++ List.replicate actions.length '\n') := by
  induction actions generalizing disk content with
  | nil => simpa using read
  | cons action rest ih =>
    have grown : readText runtime.workspace (step runtime retries disk action) path =
        some (content ++ ['\n']) :=
      reselected_grows _ _ _ _ _ _ read reselect.1
    rw [run_cons, ih _ _ grown reselect.2]
    simp [List.replicate_succ]

/-- No content is read back as it was written, and no edit that puts back the lines it was given leaves
its file as it was, however often it is made. -/
theorem files_drift (runtime : Runtime) (path : String) (retries : Nat) (disk : Disk) (content : Text) :
    ((writeFile runtime.workspace disk path content 0 (-1)).2 = .ok (.fileWrite path) →
      readFile runtime.workspace (writeFile runtime.workspace disk path content 0 (-1)).1 path 0 (-1) ≠
        .ok (.fileRead path content)) ∧
    ∀ actions, actions ≠ [] → readText runtime.workspace disk path = some content →
      Along (step runtime retries) (Reselects runtime path) disk actions →
      readText runtime.workspace (run (step runtime retries) disk actions) path =
          some (content ++ List.replicate actions.length '\n') ∧
        readText runtime.workspace (run (step runtime retries) disk actions) path ≠ some content := by
  refine ⟨never_read_back, fun actions some_ read reselect => ?_⟩
  have grown := reselected_run _ _ _ _ _ _ read reselect
  refine ⟨grown, ?_⟩
  rw [grown]
  intro same
  have lengths := congrArg List.length (Option.some.inj same)
  have long : 0 < actions.length := List.length_pos_iff.mpr some_
  simp only [List.length_append, List.length_replicate] at lengths
  omega

/-- A workspace at one place in the sandbox and on the host, without links, that may be read and written. -/
def openWorkspace : Workspace where
  links path := path
  workdir := "/workspace"
  workspaceBase := "/workspace"
  workspaceMountPathInSandbox := "/workspace"
  mayRead _ := true
  mayWrite _ := true

/-- A model that answers with the one line it was given, and no linter. -/
def echoing : Runtime where
  workspace := openWorkspace
  enableAutoLint := false
  getDiff _ _ _ := []
  getLintError _ _ _ _ := none
  completion old _ _ := "<updated_code>".toList ++ old ++ "</updated_code>".toList
  getTopKChunkMatches _ _ := []
  correction _ _ := none

/-- A directory with a file of one line. -/
def oneLine : Disk :=
  (OrderedDict.empty.set ⟨"/", ["workspace"]⟩ .directory).set ⟨"/", ["workspace", "a"]⟩ (.text "x".toList)

/-- A file that was written with one letter is read with a line feed behind it. -/
theorem letter_read_with_feed : ¬ ∀ (disk : Disk) (path : String) (content : Text),
      (writeFile openWorkspace disk path content 0 (-1)).2 = .ok (.fileWrite path) →
        readFile openWorkspace (writeFile openWorkspace disk path content 0 (-1)).1 path 0 (-1) =
          .ok (.fileRead path content) := by
  intro back
  exact absurd (back oneLine "/workspace/a" "y".toList (by decide)) (by decide)

/-- Two edits of a file of one line. -/
theorem files_drift_twice :
    readFile openWorkspace (writeFile openWorkspace oneLine "/workspace/a" "x".toList 0 (-1)).1
        "/workspace/a" 0 (-1) ≠ .ok (.fileRead "/workspace/a" "x".toList) ∧
      readText openWorkspace (run (step echoing 0) oneLine
        [⟨"/workspace/a", [], 1, 1⟩, ⟨"/workspace/a", [], 1, 1⟩]) "/workspace/a" ≠ some "x".toList := by
  have drift := files_drift echoing "/workspace/a" 0 oneLine "x".toList
  have read : readText openWorkspace oneLine "/workspace/a" = some "x".toList := by decide
  have first : Reselects echoing "/workspace/a" oneLine ⟨"/workspace/a", [], 1, 1⟩ :=
    ⟨rfl, "x".toList, read, by decide, by decide, by decide, by decide, rfl, by decide⟩
  have second : Reselects echoing "/workspace/a" (step echoing 0 oneLine ⟨"/workspace/a", [], 1, 1⟩)
      ⟨"/workspace/a", [], 1, 1⟩ :=
    ⟨rfl, "x\n".toList, by decide, by decide, by decide, by decide, by decide, rfl, by decide⟩
  have both : Along (step echoing 0) (Reselects echoing "/workspace/a") oneLine
      [⟨"/workspace/a", [], 1, 1⟩, ⟨"/workspace/a", [], 1, 1⟩] := ⟨first, second, trivial⟩
  exact ⟨drift.1 (by decide), (drift.2 _ (by simp) read both).2⟩

end ForgePilot.EditDrift
