import ForgePilot.HarnessAction

/-!
# What a confirmation subject tells of a command

The subject of a command is its kind, its working directory if there is one, and the command, with nothing to mark
where the directory ends. Whitespace around all of it is dropped.
-/

namespace ForgePilot.ConfirmationSubjects

open Characters Harness List

/-! ## Subjects of commands -/

structure CmdRunAction where
  command : String
  cwd : Option String := none
  blocking : Bool := false
  isInput : Bool := false
  confirmationState : Option String := none

def CmdRunAction.subject (action : CmdRunAction) (permissions : McpPermissions) : String :=
  (actionFromRuntimeAction ⟨.cmdRun action.command action.cwd action.blocking action.isInput,
    action.confirmationState⟩ permissions).confirmationSubject

/-- No action with another directory or another command has the same subject. -/
def Identified (permissions : McpPermissions) (action : CmdRunAction) : Prop :=
  ∀ other : CmdRunAction, other.subject permissions = action.subject permissions →
    other.cwd.getD "" = action.cwd.getD "" ∧ strip other.command.toList = strip action.command.toList

/-- The action has no directory, and however its command is read as a directory, a colon, a blank and
another command, that command is of the other kind. -/
structure Unambiguous (action : CmdRunAction) : Prop where
  homeless : action.cwd.getD "" = ""
  unread : ∀ blanks front rest, Blank blanks →
    strip action.command.toList ++ blanks = front ++ ':' :: ' ' :: rest →
      isGitCommand (String.ofList rest) ≠ isGitCommand action.command

theorem subject_eq_iff (permissions : McpPermissions) (action other : CmdRunAction) :
    other.subject permissions = action.subject permissions ↔
      isGitCommand other.command = isGitCommand action.command ∧
        targetFromCommand other.command other.cwd = targetFromCommand action.command action.cwd := by
  have kinds (target otherTarget : String) : "git:" ++ target ≠ "terminal:" ++ otherTarget := by
    intro same
    simpa using congrArg String.toList same
  simp only [CmdRunAction.subject, actionFromRuntimeAction, HarnessAction.confirmationSubject]
  cases isGitCommand other.command <;> cases isGitCommand action.command <;>
    simp [HarnessActionType.value, kinds, (kinds _ _).symm]

/-- What stands in front of a command in its target. -/
def front (cwd : String) : List Char := if cwd = "" then [] else cwd.toList ++ [':', ' ']

theorem front_empty : front "" = [] := if_pos rfl

theorem target_chars (command : String) (cwd : Option String) :
    targetFromCommand command cwd = String.ofList (strip (front (cwd.getD "") ++ command.toList)) := by
  rw [targetFromCommand, front]
  split <;> simp [String.toList_append]

/-- A blank in front of the directory is dropped with the whitespace around the target. -/
theorem target_moved (command : String) (cwd : Option String) (given : cwd.getD "" ≠ "") :
    targetFromCommand command (some (" " ++ cwd.getD "")) = targetFromCommand command cwd := by
  have filled : " " ++ cwd.getD "" ≠ "" := fun empty => by simpa using congrArg String.toList empty
  have moved : front (" " ++ cwd.getD "") ++ command.toList =
      [' '] ++ (front (cwd.getD "") ++ command.toList ++ []) := by
    rw [front, if_neg filled, front, if_neg given, String.toList_append]
    simp
  rw [target_chars, target_chars, Option.getD_some, moved,
    strip_between _ _ [] (by simp [Blank]; decide) nofun]

theorem target_of_read {command : String} {blanks opening rest : List Char} (blank : Blank blanks)
    (read : strip command.toList ++ blanks = opening ++ ':' :: ' ' :: rest) :
    targetFromCommand (String.ofList rest) (some (String.ofList (' ' :: opening))) =
      targetFromCommand command none := by
  have whole : front (String.ofList (' ' :: opening)) ++ rest = [' '] ++ (strip command.toList ++ blanks) := by
    rw [front, if_neg (by simp), read]
    simp
  rw [target_chars, target_chars, String.toList_ofList, Option.getD_some, whole,
    strip_between _ _ _ (by simp [Blank]; decide) blank, strip_strip]
  rfl

/-- A target that is read with another directory is read so in the command. -/
theorem read_of_target {command other : List Char} {cwd : String} (given : cwd ≠ "")
    (same : strip (front cwd ++ other) = strip command) :
    ∃ blanks opening, Blank blanks ∧ strip command ++ blanks = opening ++ ':' :: ' ' :: other := by
  obtain ⟨before, behind, blankBefore, blankBehind, split⟩ := strip_split (front cwd ++ other)
  rw [same, front, if_neg given, append_assoc] at split
  refine ⟨behind, cwd.toList.drop before.length, blankBehind, ?_⟩
  rcases append_eq_append_iff.mp split with ⟨middle, rfl, rest⟩ | ⟨middle, whole, rest⟩
  · cases middle with
    | nil =>
      rw [append_nil, drop_length]
      exact rest.symm
    | cons first more =>
      -- The colon behind the directory is no whitespace.
      obtain ⟨rfl, -⟩ := cons.inj rest
      exact absurd (blankBefore ':' (by simp)) (by decide)
  · rw [whole, drop_left, rest]
    rfl

theorem identified_iff (permissions : McpPermissions) (action : CmdRunAction) :
    Identified permissions action ↔ Unambiguous action := by
  constructor
  · intro identified
    have homeless : action.cwd.getD "" = "" := by
      by_contra given
      have same := (subject_eq_iff permissions action
        { command := action.command, cwd := some (" " ++ action.cwd.getD "") }).mpr
          ⟨rfl, target_moved action.command action.cwd given⟩
      have equal := congrArg (List.length ∘ String.toList) (identified _ same).1
      simp at equal
    refine ⟨homeless, fun blanks opening rest blank read kinds => ?_⟩
    have target : targetFromCommand action.command action.cwd = targetFromCommand action.command none := by
      rw [target_chars, target_chars, homeless]
      rfl
    have same := (subject_eq_iff permissions action
      { command := String.ofList rest, cwd := some (String.ofList (' ' :: opening)) }).mpr
        ⟨kinds, (target_of_read blank read).trans target.symm⟩
    have equal := congrArg String.toList ((identified _ same).1.trans homeless)
    simp at equal
  · rintro ⟨homeless, unread⟩ other same
    obtain ⟨kinds, targets⟩ := (subject_eq_iff permissions action other).mp same
    rw [target_chars, target_chars, homeless, front_empty, List.nil_append] at targets
    have targets := String.ofList_injective targets
    by_cases given : other.cwd.getD "" = ""
    · rw [given, front_empty, List.nil_append] at targets
      exact ⟨given.trans homeless.symm, targets⟩
    obtain ⟨blanks, opening, blank, read⟩ := read_of_target given targets
    refine absurd ?_ (unread blanks opening _ blank read)
    rw [String.ofList_toList]
    exact kinds

/-! ## Two commands with one subject -/

def inA : CmdRunAction := { command := "b: ls", cwd := some "/a" }

def inAB : CmdRunAction := { command := "ls", cwd := some "/a: b" }

/-- A token issued for one command authorises another one in another directory. -/
theorem subjects_collide :
    ¬ ∀ action other : CmdRunAction, other.subject .empty = action.subject .empty →
      other.cwd.getD "" = action.cwd.getD "" ∧ strip other.command.toList = strip action.command.toList := by
  intro claimed
  have equal := claimed inA inAB ((subject_eq_iff ..).mpr ⟨by decide +kernel, by decide +kernel⟩)
  exact absurd equal.1 (by decide)

end ForgePilot.ConfirmationSubjects
