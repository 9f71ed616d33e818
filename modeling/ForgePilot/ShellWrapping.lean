import ForgePilot.ApprovalJoins

/-!
# Commands handed to a shell

A command that is quoted and handed to a shell is looked into when the flag in front of it is `-c` and
nothing else, and one level less deep than on its own.
-/

namespace ForgePilot.ShellWrapping

open Characters ShellWords Approval List

/-! ## Reading a quoted word -/

theorem safe_plain {word : List Char} (safe : word.all isSafe = true) :
    Plain word ∧ ∀ char ∈ word, isBlank char = false := by
  have apart : ∀ char ∈ word, ∀ special ∈ [' ', '\t', '\r', '\n', '\'', '"', '\\'],
      char ≠ special := by
    rintro char member special listed rfl
    revert listed
    have here := all_eq_true.mp safe char member
    simp only [mem_cons, not_mem_nil, or_false]
    rintro (rfl | rfl | rfl | rfl | rfl | rfl | rfl) <;> revert here <;> decide
  refine ⟨fun char member => ?_, fun char member => ?_⟩ <;>
    simp_all [isQuote, isBlank]

theorem words_safe {word : List Char} (filled : word ≠ []) (safe : word.all isSafe = true) :
    words isBlank word = [word] := by
  obtain ⟨first, rest, rfl⟩ := exists_cons_of_ne_nil filled
  exact words_single (safe_plain safe).2

/-- Between single quotes everything is kept, with a single quote between double ones. -/
theorem read_quoted (pending text : List Char) :
    read (.quoted '\'') pending (text.flatMap (fun char =>
      if char = '\'' then "'\"'\"'".toList else [char]) ++ ['\'']) = .ok [pending ++ text] := by
  induction text generalizing pending with
  | nil => simp [ShellWords.read]
  | cons char rest ih =>
    rw [flatMap_cons]
    by_cases mark : char = '\''
    · have spelled : "'\"'\"'".toList = ['\'', '"', '\'', '"', '\''] := rfl
      have later := ih (pending ++ [char])
      rw [append_assoc] at later
      rw [if_pos mark, spelled]
      simpa [ShellWords.read, isQuote, isBlank, mark] using later
    · have later := ih (pending ++ [char])
      rw [append_assoc] at later
      rw [if_neg mark]
      simpa [ShellWords.read, mark] using later

theorem read_quote (word : String) : read .blank [] (quote word).toList = .ok [word.toList] := by
  rw [quote]
  split
  case isTrue empty =>
    rw [empty]
    rfl
  case isFalse filled =>
    split
    case isTrue safe =>
      rw [(read_plain_end (safe_plain safe).1).1, words_safe (by simpa using filled) safe]
    case isFalse =>
      simp only [String.toList_append, String.toList_ofList]
      exact read_quoted ..

/-! ## Wrapped commands -/

def wrap (shell flag command : String) : String := shell ++ " " ++ flag ++ " " ++ quote command

/-- A flag word that ends with `c`. -/
def FlagWord (flag : String) : Prop :=
  ∃ letters : List Char, letters.all isSafe = true ∧ flag.toList = '-' :: (letters ++ ['c'])

variable (shell flag command : String)

theorem tokenize_wrap (filled : shell.toList ≠ []) (safe : shell.toList.all isSafe = true)
    (flagged : FlagWord flag) : tokenize (wrap shell flag command) = [shell, flag, command] := by
  obtain ⟨letters, safeLetters, spelled⟩ := flagged
  have safeFlag : flag.toList.all isSafe = true := by
    rw [spelled, all_cons, all_append, safeLetters]
    decide
  have plain : Plain (shell.toList ++ ' ' :: flag.toList) := by
    intro char member
    rcases mem_append.mp member with before | behind
    · exact (safe_plain safe).1 char before
    · rcases behind with _ | ⟨_, behind⟩
      · decide
      · exact (safe_plain safeFlag).1 char behind
  have whole : (wrap shell flag command).toList =
      (shell.toList ++ ' ' :: flag.toList) ++ ' ' :: (quote command).toList := by
    simp [wrap, String.toList_append]
  have twoWords : words isBlank (shell.toList ++ ' ' :: flag.toList) = [shell.toList, flag.toList] := by
    rw [words, words_from_separator _ _ _ (by decide), ← words, ← words, words_safe filled safe,
      words_safe (by simp [spelled]) safeFlag]
    rfl
  rw [tokenize, splitOrWords, split, whole, (read_plain _ _ ' ' (by decide) plain).1, twoWords, read_quote]
  simp [Except.map]

/-- What is asked of the segments of a command. -/
inductive Check where
  | highRisk | externalNetwork | deployment

def Check.reason : Check → ApprovalReason
  | .highRisk => .highRiskCommand
  | .externalNetwork => .externalNetwork
  | .deployment => .deploymentCommand

def Check.patterns (policy : ApprovalPolicy) : Check → List Regex
  | .highRisk => policy.highRiskCommandPatterns
  | .externalNetwork => policy.externalNetworkPatterns
  | .deployment => policy.deploymentCommandPatterns

variable (table : CharacterTable)

def Check.predicate : Check → String → List String → Bool
  | .highRisk => isHighRiskSegment table
  | .externalNetwork => isExternalNetworkSegment
  | .deployment => isDeploymentSegment

/-- A segment of the command satisfies the predicate, when it is looked into so many levels deep. -/
def found (predicate : String → List String → Bool) (depth : Nat) (command : String) : Bool :=
  (pipelineSegments (tokenize command)).any (segmentMatches predicate depth)

variable (check : Check)

theorem carries_iff (requestId command : String) :
    check.reason ∈ reasonsOf (evaluateCommand table defaultApprovalPolicy requestId command) ↔
      matchesAny table command (check.patterns defaultApprovalPolicy) = true ∨
        found (check.predicate table) maxNestedDepth command = true := by
  rw [reasons_of_evaluate, commandReasons]
  cases check <;>
    simp [Check.reason, Check.patterns, Check.predicate, commandMatches, segmentsMatch, found]

/-- No shell is itself a reason. -/
theorem shell_harmless (shell : String) (listed : shell ∈ shellPrograms) (args : List String) :
    check.predicate table shell args = false := by
  simp only [shellPrograms, mem_cons, not_mem_nil, or_false] at listed
  rcases listed with rfl | rfl | rfl | rfl | rfl <;> cases check <;> cases args <;>
    simp [Check.predicate, isHighRiskSegment, isExternalNetworkSegment, isDeploymentSegment, startsWith]

/-- A wrapped command is looked into behind the flag `-c`, one level less deep. -/
theorem found_wrapped {shell flag command : String} (depth : Nat) (listed : shell ∈ shellPrograms)
    (flagged : FlagWord flag) (single : commandSeparators.contains command = false) :
    found (check.predicate table) (depth + 1) (wrap shell flag command) =
      (decide (flag = "-c") && found (check.predicate table) depth command) := by
  have shells : ∀ shell ∈ shellPrograms, shell.toList ≠ [] ∧ shell.toList.all isSafe = true ∧
      commandSeparators.contains shell = false ∧ basename shell = shell ∧ shell ≠ "sudo" := by decide
  obtain ⟨filled, safe, separate, named, unprivileged⟩ := shells shell listed
  have noSeparator : commandSeparators.contains flag = false := by
    obtain ⟨letters, -, spelled⟩ := flagged
    have starts : ∀ separator ∈ commandSeparators, separator.toList.head? ≠ some '-' := by decide
    rw [← Bool.not_eq_true, contains_iff_mem]
    exact fun member => starts flag member (by rw [spelled]; rfl)
  have segments : pipelineSegments [shell, flag, command] = [[shell, flag, command]] := by
    rw [pipelineSegments, segments_from_single [] _ (by simp_all)]
    rfl
  have program : programOf [shell, flag, command] = (shell, [flag, command]) := by
    simp [programOf, unwrapSudo, unprivileged, named]
  rw [found, tokenize_wrap _ _ _ filled safe flagged, segments, any_cons, any_nil,
    Bool.or_false, segmentMatches, program]
  simp only [shell_harmless _ _ _ listed, contains_iff_mem.mpr listed, nestedCommands]
  by_cases exact_ : flag = "-c" <;> simp [exact_, found]

/-- A command for which something is found is no separator. -/
theorem found_single {predicate : String → List String → Bool} {depth : Nat} {command : String}
    (finds : found predicate depth command = true) : commandSeparators.contains command = false := by
  have silent : ∀ separator ∈ commandSeparators, pipelineSegments (tokenize separator) = [] := by decide
  rw [← Bool.not_eq_true, contains_iff_mem]
  intro listed
  rw [found, silent command listed] at finds
  cases finds

theorem wrap_single : commandSeparators.contains (wrap shell flag command) = false := by
  have blankless : ∀ separator ∈ commandSeparators, ' ' ∉ separator.toList := by decide
  rw [← Bool.not_eq_true, contains_iff_mem]
  exact fun listed => blankless _ listed (by simp [wrap, String.toList_append])

/-- A wrapped command carries a reason when the patterns find it in the text, or the flags are `-c` and the
command shows the reason at the depth that is left. -/
theorem wrapped_flagged_iff (check : Check) (requestId command shell flag outer outerFlag : String)
    (flagged : segmentsMatch (check.predicate table) command = true) (listed : shell ∈ shellPrograms)
    (word : FlagWord flag) (outerListed : outer ∈ shellPrograms) (outerWord : FlagWord outerFlag) :
    (check.reason ∈ reasonsOf (evaluateCommand table defaultApprovalPolicy requestId (wrap shell flag command)) ↔
      matchesAny table (wrap shell flag command) (check.patterns defaultApprovalPolicy) = true ∨
        (flag = "-c" ∧ found (check.predicate table) 1 command = true)) ∧
    (check.reason ∈ reasonsOf (evaluateCommand table defaultApprovalPolicy requestId
        (wrap outer outerFlag (wrap shell flag command))) ↔
      matchesAny table (wrap outer outerFlag (wrap shell flag command)) (check.patterns defaultApprovalPolicy) =
        true ∨ (outerFlag = "-c" ∧ flag = "-c" ∧ found (check.predicate table) 0 command = true)) := by
  have single := found_single flagged
  constructor
  · rw [carries_iff, maxNestedDepth, found_wrapped _ _ 1 listed word single]
    simp
  · rw [carries_iff, maxNestedDepth, found_wrapped _ _ 1 outerListed outerWord
      (wrap_single ..), found_wrapped _ _ 0 listed word single]
    simp

theorem bundled : FlagWord "-lc" := ⟨['l'], by decide, rfl⟩

/-- The short name of an installation is found in a shell that is given `-c`. -/
theorem install_found : segmentsMatch (Check.externalNetwork.predicate .ascii) "npm i cowsay" = true ∧
    Check.externalNetwork.reason ∈ reasonsOf (evaluateCommand .ascii defaultApprovalPolicy "r"
      (wrap "sh" "-c" "npm i cowsay")) := by
  have flagged : segmentsMatch (Check.externalNetwork.predicate .ascii) "npm i cowsay" = true := by decide +kernel
  have word : FlagWord "-c" := ⟨[], rfl, rfl⟩
  exact ⟨flagged, (wrapped_flagged_iff _ _ "r" _ "sh" "-c" "sh" "-c" flagged
    (by decide) word (by decide) word).1.mpr (.inr ⟨rfl, by decide +kernel⟩)⟩

/-- In a login shell it is hidden. -/
theorem login_shell_hides :
    ¬ ∀ command, segmentsMatch (Check.externalNetwork.predicate .ascii) command = true →
      ∀ shell ∈ shellPrograms, ∀ flag, FlagWord flag →
        Check.externalNetwork.reason ∈ reasonsOf (evaluateCommand .ascii defaultApprovalPolicy "r"
          (wrap shell flag command)) := by
  intro claimed
  have flagged := claimed "npm i cowsay" (by decide +kernel) "bash" (by decide) "-lc" bundled
  rw [carries_iff] at flagged
  revert flagged
  decide +kernel

end ForgePilot.ShellWrapping
