import ForgePilot.ShellLexing
import ForgePilot.ShellWords

/-!
# The commands that set a workspace up

Before a conversation starts, its working directory is made, the user's name and
address are put into the git configuration, a repository is cloned and a branch
checked out or an empty repository is made, and the setup script of the project
is run. Every command is one string that the workspace hands to a shell.

What matters of a call is the string it passes: the directory it runs in and its
time limit are separate arguments, and what it returns is only logged. A call
may raise; in the configuration of the user that ends the configuration, and
elsewhere it ends the setup.
-/

namespace ForgePilot.SetupCommands

open ShellLexing ShellWords

structure UserInfo where
  gitUserName : Option String
  gitUserEmail : Option String

/-- What the conversation is started with. -/
structure Request where
  selectedRepository : Option String
  selectedBranch : Option String

/-- What the setup asks others for: the user's settings, which may not be
readable, the address of a repository, whether a branch name is valid, and the
random part of a branch name. -/
structure Services where
  userInfo : Option UserInfo
  getAuthenticatedGitUrl : String → Except String String
  isValidGitBranchName : String → Bool
  randomStr : String

/-- A command and the values put into it. -/
inductive Command where
  | makeDirectory (workingDir : String)
  | userName (gitUserName : String)
  | userEmail (gitUserEmail : String)
  | initRepository (workingDir : String)
  | clone (remoteRepoUrl dirName : String)
  | checkout (branch : String)
  | checkoutNew (branch : String)
  | runSetup (setupScript : String)

def Command.line : Command → String
  | .makeDirectory workingDir => "mkdir -p " ++ workingDir
  | .userName gitUserName => "git config --global user.name \"" ++ gitUserName ++ "\""
  | .userEmail gitUserEmail => "git config --global user.email \"" ++ gitUserEmail ++ "\""
  | .initRepository workingDir =>
      "git init && git config --global --add safe.directory " ++ workingDir
  | .clone remoteRepoUrl dirName => "git clone " ++ quote remoteRepoUrl ++ " " ++ quote dirName
  | .checkout branch => "git checkout " ++ quote branch
  | .checkoutNew branch => "git checkout -b " ++ quote branch
  | .runSetup setupScript => "chmod +x " ++ setupScript ++ " && source " ++ setupScript

/-- The text is there and is not empty. -/
def given : Option String → Option String
  | some text => if text = "" then none else some text
  | none => none

/-- The name of a repository without its owner. -/
def repoName (selectedRepository : String) : String :=
  String.ofList ((selectedRepository.toList.splitOn '/').getLastD [])

def getProjectDir (workingDir : String) (selectedRepository : Option String) : String :=
  match given selectedRepository with
  | some repository => workingDir ++ "/" ++ repoName repository
  | none => workingDir

/-- The calls that were made, and what was raised. -/
structure Outcome where
  issued : List Command
  error : Option String

/-- Go on unless something was raised. -/
def Outcome.andThen (outcome : Outcome) (next : List Command → Outcome) : Outcome :=
  match outcome.error with
  | some _ => outcome
  | none => next outcome.issued

section
variable (raises : List Command → Option String) (services : Services)

/-- Call the workspace. What the call raises, if anything, may depend on all calls so far. -/
def executeCommand (command : Command) (issued : List Command) : Outcome where
  issued := issued ++ [command]
  error := raises (issued ++ [command])

/-- Put the user's name and address into the git configuration; what is raised is
logged. -/
def configureGitUserSettings (issued : List Command) : Outcome :=
  match services.userInfo with
  | none => ⟨issued, none⟩
  | some user =>
    let named := match given user.gitUserName with
      | some name => executeCommand raises (.userName name) issued
      | none => ⟨issued, none⟩
    let addressed := named.andThen fun issued =>
      match given user.gitUserEmail with
      | some email => executeCommand raises (.userEmail email) issued
      | none => ⟨issued, none⟩
    ⟨addressed.issued, none⟩

/-- What is said of a branch name that is refused. -/
def invalidBranchName : String :=
  "Invalid git branch name. Common GitHub/GitLab/Bitbucket branch names look like " ++
    "'main', 'feature/foo', or 'release/1.2.3'."

/-- Check out the selected branch, or a new one. -/
def checkoutBranch (request : Request) (issued : List Command) : Outcome :=
  match given request.selectedBranch with
  | some branch =>
      if services.isValidGitBranchName branch then executeCommand raises (.checkout branch) issued
      else ⟨issued, some invalidBranchName⟩
  | none =>
      executeCommand raises (.checkoutNew ("openhands-workspace-" ++ services.randomStr)) issued

/-- Make an empty repository, or clone the selected one and check a branch out. -/
def prepareRepository (initGitInEmptyWorkspace : Bool) (workingDir : String) (request : Request)
    (issued : List Command) : Outcome :=
  match given request.selectedRepository with
  | none =>
      if initGitInEmptyWorkspace then executeCommand raises (.initRepository workingDir) issued
      else ⟨issued, none⟩
  | some repository =>
    match services.getAuthenticatedGitUrl repository with
    | .error raised => ⟨issued, some raised⟩
    | .ok remoteRepoUrl =>
      if remoteRepoUrl = "" then ⟨issued, some "Missing either Git token or valid repository"⟩
      else
        (executeCommand raises (.clone remoteRepoUrl (repoName repository)) issued).andThen
          (checkoutBranch raises services request)

/-- Make the working directory and put the repository into it. -/
def cloneOrInitGitRepo (initGitInEmptyWorkspace : Bool) (workingDir : String)
    (request : Request) : Outcome :=
  (executeCommand raises (.makeDirectory workingDir) []).andThen fun issued =>
    (configureGitUserSettings raises services issued).andThen
      (prepareRepository raises services initGitInEmptyWorkspace workingDir request)

def maybeRunSetupScript (projectDir : String) : Outcome :=
  executeCommand raises (.runSetup (projectDir ++ "/.openhands/setup.sh")) []

end

/-! ## What the commands are meant to say -/

def template (parts : List String) : List Token := wordTokens (parts.map String.toList)

/-- The operator between two commands. -/
def both : Token := .operator ['&', '&']

/-- The commands and words of the template, each value one word or the last part of one. -/
def Command.tokens : Command → List Token
  | .makeDirectory workingDir => template ["mkdir", "-p", workingDir]
  | .userName gitUserName => template ["git", "config", "--global", "user.name", gitUserName]
  | .userEmail gitUserEmail => template ["git", "config", "--global", "user.email", gitUserEmail]
  | .initRepository workingDir =>
      template ["git", "init"] ++ [both] ++
        template ["git", "config", "--global", "--add", "safe.directory", workingDir]
  | .clone remoteRepoUrl dirName => template ["git", "clone", remoteRepoUrl, dirName]
  | .checkout branch => template ["git", "checkout", branch]
  | .checkoutNew branch => template ["git", "checkout", "-b", branch]
  | .runSetup setupScript =>
      template ["chmod", "+x", setupScript] ++ [both] ++ template ["source", setupScript]

/-- A shell reads the string as the template with its values in their places. -/
def Command.ValuesAreData (command : Command) : Prop := lex command.line.toList = .ok command.tokens

instance (command : Command) : Decidable command.ValuesAreData :=
  inferInstanceAs (Decidable (_ = _))

/-! ## Reading a template -/

/-- Tokens before a text do not decide how it is read. -/
theorem map_append_iff (read : Except Refusal (List Token)) (before after : List Token) :
    read.map (before ++ ·) = .ok (before ++ after) ↔ read = .ok after := by
  cases read with
  | error refusal => simp [Except.map]
  | ok tokens => simp [Except.map]

/-- The words of a template come before what follows them. -/
theorem lex_template (text : String) (parts : List String) (rest : List Char) (after : List Token)
    (spelled : text.toList = (parts.map String.toList).flatMap (· ++ [' ']))
    (standing : (parts.map String.toList).all isWord = true) :
    run (.outside .between) (text.toList ++ rest) = .ok (template parts ++ after) ↔
      run (.outside .between) rest = .ok after := by
  rw [spelled, run_words _ _ (by simpa using standing)]
  exact map_append_iff _ _ _

variable (value setupScript workingDir : String)

/-- The working directory is made if it is a word. -/
theorem makeDirectory_iff :
    (Command.makeDirectory workingDir).ValuesAreData ↔ isWord workingDir.toList = true := by
  have written : (Command.makeDirectory workingDir).line.toList =
      "mkdir -p ".toList ++ workingDir.toList := String.toList_append
  rw [Command.ValuesAreData, lex, written, ← lex_word_iff]
  exact lex_template _ ["mkdir", "-p"] _ [.word workingDir.toList] (by decide) (by decide)

/-- A text that ends with a value between double quotes. -/
theorem double_quoted (text opened value : String) (spelled : opened.toList = text.toList ++ ['"']) :
    (opened ++ value ++ "\"").toList = text.toList ++ ('"' :: value.toList ++ ['"']) := by
  have closed : "\"".toList = ['"'] := by decide
  rw [String.toList_append, String.toList_append, closed, spelled]
  simp

/-- The user's name is put between double quotes. -/
theorem userName_iff (gitUserName : String) :
    (Command.userName gitUserName).ValuesAreData ↔ quotable gitUserName.toList = true := by
  have written : (Command.userName gitUserName).line.toList =
      "git config --global user.name ".toList ++ ('"' :: gitUserName.toList ++ ['"']) :=
    double_quoted _ _ _ (by decide)
  rw [Command.ValuesAreData, lex, written, ← run_double_iff]
  exact lex_template _ ["git", "config", "--global", "user.name"] _ [.word gitUserName.toList]
    (by decide) (by decide)

/-- So is the user's address. -/
theorem userEmail_iff (gitUserEmail : String) :
    (Command.userEmail gitUserEmail).ValuesAreData ↔ quotable gitUserEmail.toList = true := by
  have written : (Command.userEmail gitUserEmail).line.toList =
      "git config --global user.email ".toList ++ ('"' :: gitUserEmail.toList ++ ['"']) :=
    double_quoted _ _ _ (by decide)
  rw [Command.ValuesAreData, lex, written, ← run_double_iff]
  exact lex_template _ ["git", "config", "--global", "user.email"] _ [.word gitUserEmail.toList]
    (by decide) (by decide)

/-- A repository is made in a working directory that is a word. -/
theorem initRepository_iff :
    (Command.initRepository workingDir).ValuesAreData ↔ isWord workingDir.toList = true := by
  have opened : "git init && git config --global --add safe.directory ".toList =
      "git init ".toList ++ '&' :: '&' :: ' ' ::
        "git config --global --add safe.directory ".toList := by decide
  have written : (Command.initRepository workingDir).line.toList =
      "git init ".toList ++ '&' :: '&' :: ' ' ::
        ("git config --global --add safe.directory ".toList ++ workingDir.toList) :=
    String.toList_append.trans (congrArg (· ++ workingDir.toList) opened)
  rw [Command.ValuesAreData, lex, written, ← lex_word_iff]
  refine (lex_template _ ["git", "init"] _ _ (by decide) (by decide)).trans ?_
  rw [run_and]
  refine (map_append_iff _ [both] _).trans ?_
  exact lex_template _ ["git", "config", "--global", "--add", "safe.directory"] _
    [.word workingDir.toList] (by decide) (by decide)

/-! ## Values that are quoted -/

/-- A character that needs no quoting stands for itself. -/
theorem isPlain_of_isSafe (char : Char) (safe : isSafe char = true) :
    isPlain char = true ∧ char ∉ ['$', '\x60', '#', '~', '*', '?', '['] := by
  constructor
  · by_contra special
    have found : char ∈ ['\\', '\'', '"', '&', '|', ';', '<', '>', '(', ')', '\n', ' ', '\t'] := by
      by_contra absent
      simp only [List.mem_cons, List.not_mem_nil, or_false, not_or] at absent
      exact special (by simp [isPlain, operators, ShellLexing.isBlank, absent])
    simp only [List.mem_cons, List.not_mem_nil, or_false] at found
    rcases found with rfl | rfl | rfl | rfl | rfl | rfl | rfl | rfl | rfl | rfl | rfl | rfl | rfl <;>
      revert safe <;> decide
  · intro member
    simp only [List.mem_cons, List.not_mem_nil, or_false] at member
    rcases member with rfl | rfl | rfl | rfl | rfl | rfl | rfl <;> revert safe <;> decide

/-- A text of characters that need no quoting is bare and holds no pattern. -/
theorem bare_of_safe (text : List Char) (safe : text.all isSafe = true) :
    bare text = true ∧ pattern (unquoted text) = false := by
  induction text with
  | nil => exact ⟨rfl, rfl⟩
  | cons char others ih =>
    simp only [List.all_cons, Bool.and_eq_true] at safe
    obtain ⟨plain, named⟩ := isPlain_of_isSafe _ safe.1
    simp only [List.mem_cons, List.not_mem_nil, or_false, not_or] at named
    obtain ⟨clear, matchless⟩ := ih safe.2
    constructor
    · simp [bare, plain, clear, expands, named]
    · simp only [unquoted, List.map_cons, pattern] at matchless ⊢
      simp [matchless, named]

theorem run_quote (rest : List Char) : ∃ pieces, (rest = [] ∨ rest.head? = some ' ' →
        run (.outside .between) ((quote value).toList ++ rest) =
          run (.outside (.word pieces)) rest) ∧
      finishWord pieces = .ok (.word value.toList) := by
  by_cases empty : value = ""
  · refine ⟨[], fun _ => ?_, by simp [empty]; decide⟩
    have spelled : (quote value).toList = ['\'', '\''] := by simp [quote, empty]
    rw [spelled]
    exact (run_silent _ (.single []) rfl).trans (run_silent _ (.outside (.word [])) rfl)
  by_cases safe : value.toList.all isSafe = true
  · obtain ⟨clear, matchless⟩ := bare_of_safe value.toList safe
    have some_ : value.toList ≠ [] := by simpa using empty
    obtain ⟨first, others, spelled⟩ := List.exists_cons_of_ne_nil some_
    have named : first ∉ ['$', '\x60', '#', '~', '*', '?', '['] :=
      (isPlain_of_isSafe first (by simp only [spelled, List.all_cons, Bool.and_eq_true] at safe
                                   exact safe.1)).2
    simp only [List.mem_cons, List.not_mem_nil, or_false, not_or] at named
    have uncommented : value.toList.head? ≠ some '#' := by simp [spelled, named]
    have whole : tilde (unquoted value.toList) = false := by
      simp [tilde_unquoted, spelled, named]
    refine ⟨unquoted value.toList, fun ends => ?_, by simp [finish_inert whole matchless]⟩
    have written : quote value = value := by simp [quote, empty, safe]
    rw [written]
    refine run_begin _ _ some_ uncommented clear ?_
    rcases ends with rfl | ends
    · rfl
    · rw [ends]; decide
  · obtain ⟨whole, matchless⟩ := quoted_inert value.toList
    refine ⟨quoted value.toList, fun _ => ?_, by simp [finish_inert whole matchless]⟩
    have written : (quote value).toList ++ rest =
        '\'' :: (singleQuoted value.toList ++ '\'' :: rest) := by
      have marks : "'\"'\"'".toList = ['\'', '"', '\'', '"', '\''] := by decide
      simp only [quote, empty, safe, if_false, marks, singleQuoted]
      simp
    rw [written, run_silent _ (.single []) rfl, run_single]
    rfl

theorem run_quote_end :
    run (.outside .between) (quote value).toList = .ok [.word value.toList] := by
  obtain ⟨pieces, reached, finished⟩ := run_quote ..
  have reached := reached (.inl rfl)
  rw [List.append_nil] at reached
  rw [reached, run_nil, finish, Outside.close, finished]
  rfl

/-- A quoted value before a blank. -/
theorem run_quote_blank (rest : List Char) :
    run (.outside .between) ((quote value).toList ++ ' ' :: rest) =
      (run (.outside .between) rest).map (.word value.toList :: ·) := by
  obtain ⟨pieces, reached, finished⟩ := run_quote ..
  rw [reached (.inr rfl), run_blank, finished]

/-- Quoted values are data whatever they are. -/
theorem clone_data (remoteRepoUrl dirName : String) :
    (Command.clone remoteRepoUrl dirName).ValuesAreData := by
  have written : (Command.clone remoteRepoUrl dirName).line.toList =
      "git clone ".toList ++ ((quote remoteRepoUrl).toList ++ ' ' :: (quote dirName).toList) := by
    have blank : " ".toList = [' '] := by decide
    have joined : (Command.clone remoteRepoUrl dirName).line.toList =
        (("git clone ".toList ++ (quote remoteRepoUrl).toList) ++ " ".toList) ++
          (quote dirName).toList :=
      String.toList_append.trans (congrArg (· ++ (quote dirName).toList)
        (String.toList_append.trans (congrArg (· ++ " ".toList) String.toList_append)))
    rw [joined, blank, List.append_assoc, List.append_assoc, List.singleton_append]
  rw [Command.ValuesAreData, lex, written]
  refine (lex_template _ ["git", "clone"] _ [.word remoteRepoUrl.toList, .word dirName.toList]
    (by decide) (by decide)).2 ?_
  rw [run_quote_blank, run_quote_end]
  rfl

theorem checkout_data (branch : String) : (Command.checkout branch).ValuesAreData := by
  have written : (Command.checkout branch).line.toList =
      "git checkout ".toList ++ (quote branch).toList := String.toList_append
  rw [Command.ValuesAreData, lex, written]
  exact (lex_template _ ["git", "checkout"] _ [.word branch.toList] (by decide) (by decide)).2
    (run_quote_end ..)

theorem checkoutNew_data (branch : String) : (Command.checkoutNew branch).ValuesAreData := by
  have written : (Command.checkoutNew branch).line.toList =
      "git checkout -b ".toList ++ (quote branch).toList := String.toList_append
  rw [Command.ValuesAreData, lex, written]
  exact (lex_template _ ["git", "checkout", "-b"] _ [.word branch.toList] (by decide)
    (by decide)).2 (run_quote_end ..)

/-! ## Values that are put in as they are -/

variable (before after : List Char)

/-- A slash and a bare text go on with a word. -/
theorem bare_slash : bare (before ++ '/' :: after) = (bare before && bare after) := by
  induction before with
  | nil =>
    have plain : isPlain '/' = true := by decide
    simp [bare, plain, expands]
  | cons char others ih =>
    have same : expands char (others ++ '/' :: after).head? = expands char others.head? := by
      cases others with
      | nil => simp [expands, opensExpansion]
      | cons _ _ => rfl
    rw [List.cons_append]
    simp only [bare, same, ih, Bool.and_assoc]

/-- A path below a word is a word exactly if what is below is bare and no pattern. -/
theorem isWord_slash (standing : isWord before = true) :
    isWord (before ++ '/' :: after) = (bare after && !pattern (unquoted after)) := by
  simp only [isWord, Bool.and_eq_true, bne_iff_ne, ne_eq, Bool.not_eq_true'] at standing
  obtain ⟨⟨⟨⟨some_, uncommented⟩, clear⟩, whole⟩, matchless⟩ := standing
  have first : (before ++ '/' :: after).head? = before.head? := by
    cases before with
    | nil => exact absurd rfl some_
    | cons _ _ => rfl
  have parts : pattern (unquoted (before ++ '/' :: after)) = pattern (unquoted after) := by
    rw [unquoted_append]
    exact (pattern_slash _ (unquoted after) false).trans (by rw [matchless, Bool.false_or])
  rw [tilde_unquoted] at whole
  have begun : (before.head? != some '#') = true := by simpa using uncommented
  have full : (before ++ '/' :: after != []) = true := by simp
  simp only [isWord, full, first, bare_slash, clear, parts, tilde_unquoted, whole, begun]
  simp

/-- The script below a project directory. -/
def scriptPath : List Char := "/.openhands/setup.sh".toList

/-- What follows the script's path the first time. -/
def afterScript (setupScript : String) : List Char :=
  ' ' :: '&' :: '&' :: ' ' :: ("source ".toList ++ setupScript.toList)

theorem runSetup_line : (Command.runSetup setupScript).line.toList =
      "chmod +x ".toList ++ (setupScript.toList ++ afterScript setupScript) := by
  have between : " && source ".toList = ' ' :: '&' :: '&' :: ' ' :: "source ".toList := by decide
  have joined : (Command.runSetup setupScript).line.toList =
      (("chmod +x ".toList ++ setupScript.toList) ++ " && source ".toList) ++ setupScript.toList :=
    String.toList_append.trans (congrArg (· ++ setupScript.toList)
      (String.toList_append.trans (congrArg (· ++ " && source ".toList) String.toList_append)))
  rw [joined, between, afterScript]
  simp

/-- The command is read as meant exactly if what follows its first words is. -/
theorem runSetup_iff : (Command.runSetup setupScript).ValuesAreData ↔
      run (.outside .between) (setupScript.toList ++ afterScript setupScript) =
        .ok (.word setupScript.toList :: both :: template ["source", setupScript]) := by
  rw [Command.ValuesAreData, lex, runSetup_line]
  exact lex_template _ ["chmod", "+x"] _
    (.word setupScript.toList :: both :: template ["source", setupScript]) (by decide) (by decide)

/-- The script is run if its path is a word. -/
theorem runSetup_of_word (standing : isWord setupScript.toList = true) :
    (Command.runSetup setupScript).ValuesAreData := by
  have last := (lex_template "source " ["source"] setupScript.toList [.word setupScript.toList]
    (by decide) (by decide)).2 ((lex_word_iff _).2 standing)
  rw [runSetup_iff, afterScript, run_word _ _ standing, run_and, last]
  rfl

/-- A word before a slash is a part of the word that goes on. -/
theorem run_directory (workingDir rest : List Char) (standing : isWord workingDir = true) :
    run (.outside .between) (workingDir ++ '/' :: rest) =
      run (.outside (.word (unquoted (workingDir ++ ['/'])))) rest := by
  simp only [isWord, Bool.and_eq_true, bne_iff_ne, ne_eq, Bool.not_eq_true'] at standing
  obtain ⟨⟨⟨⟨some_, uncommented⟩, clear⟩, _⟩, _⟩ := standing
  rw [run_begin _ _ some_ uncommented clear rfl,
    run_silent _ _ (step_plain _ (by decide) (by simp [expands])), unquoted_append]
  rfl

/-- The weight of a character that the templates do not lose. -/
def telling (character : Char) : Nat := if character = ' ' ∨ character = '&' then 0 else 1

/-- The script of a repository is run only if the repository's name is bare. -/
theorem bare_of_runSetup {workingDir name : List Char} (standing : isWord workingDir = true)
    {script : String} (path : script.toList = workingDir ++ '/' :: (name ++ scriptPath))
    (data : (Command.runSetup script).ValuesAreData) : bare name = true := by
  have reading := (runSetup_iff ..).1 data
  rcases bare_or_special name _ _ with
    bareName | ⟨before, char, after, rfl, reached, special⟩
  · exact bareName
  have onward : script.toList ++ afterScript script =
      workingDir ++ '/' :: ((before ++ char :: after) ++ (scriptPath ++ afterScript script)) := by
    rw [path]
    simp
  rw [onward, run_directory _ _ standing, reached] at reading
  rcases special with special | opening
  · by_cases delimits : operators.contains [char] = true ∨ ShellLexing.isBlank char = true
    · -- the word ends before the value does
      obtain ⟨more, ended⟩ := run_delimits _ delimits reading
      have short : script.toList = workingDir ++ ['/'] ++ before := by
        have first := (List.cons.inj ended).1
        simpa using Token.word.inj first
      have lengths := congrArg List.length (path.symm.trans short)
      simp only [List.length_append, List.length_cons, List.length_nil] at lengths
      omega
    · -- a mark is lost that the words meant still hold
      have mark : telling char = 1 := by
        have others : char ≠ ' ' ∧ char ≠ '&' := by
          refine ⟨?_, ?_⟩ <;> rintro rfl <;> exact delimits (by decide)
        simp [telling, others]
      have lost := run_special telling (.inl special) reading
      have script_ : heft telling script.toList = heft telling workingDir + heft telling ['/'] +
          (heft telling before + 1 + heft telling after) + heft telling scriptPath := by
        rw [path]
        simp only [heft_append, heft_cons, heft_nil, mark]
        omega
      have tail : heft telling (afterScript script) = 6 + heft telling script.toList := by
        have source : heft telling "source ".toList = 6 := by decide
        simp only [afterScript, heft_cons, heft_append, source]
        simp [telling]
      have word : heft telling "source".toList = 6 := by decide
      simp only [tokensHeft_cons, Token.heft, both, template, wordTokens, List.map_cons,
        List.map_nil, tokensHeft_nil, piecesHeft_append, piecesHeft_unquoted, heft_append, word,
        tail] at lost
      omega
  · rw [run_expands _ opening] at reading
    cases reading

/-- The script of a repository is run exactly if the repository's name is bare and no
pattern. -/
theorem runSetup_below_iff {workingDir name : List Char} (standing : isWord workingDir = true)
    {script : String} (path : script.toList = workingDir ++ '/' :: (name ++ scriptPath)) :
    (Command.runSetup script).ValuesAreData ↔ bare name = true ∧ pattern (unquoted name) = false := by
  have below : name ++ scriptPath = name ++ '/' :: ".openhands/setup.sh".toList :=
    congrArg (name ++ ·) (by decide)
  have parts : (bare ".openhands/setup.sh".toList = true) ∧
      pattern (unquoted ".openhands/setup.sh".toList) = false := by decide
  have matching : pattern (unquoted (name ++ scriptPath)) = pattern (unquoted name) := by
    rw [below, unquoted_append]
    exact (pattern_slash _ (unquoted ".openhands/setup.sh".toList) false).trans
      (by rw [parts.2, Bool.or_false])
  constructor
  · intro data
    have clear := bare_of_runSetup standing path data
    refine ⟨clear, ?_⟩
    by_contra expanding
    have expanding : pattern (unquoted name) = true := by simpa using expanding
    have clearPath : bare (name ++ scriptPath) = true := by
      rw [below, bare_slash, clear, parts.1]
      rfl
    have whole : pattern (unquoted (workingDir ++ ['/']) ++ unquoted (name ++ scriptPath)) = true := by
      rw [unquoted_append, List.append_assoc]
      exact (pattern_slash _ (unquoted (name ++ scriptPath)) false).trans
        (by rw [matching, expanding, Bool.or_true])
    have reading := (runSetup_iff ..).1 data
    have onward : script.toList ++ afterScript script =
        workingDir ++ '/' :: ((name ++ scriptPath) ++ afterScript script) := by
      rw [path]
      simp
    rw [onward, run_directory _ _ standing, run_bare _ _ _ clearPath rfl, afterScript,
      run_blank] at reading
    have refused : finishWord (unquoted (workingDir ++ ['/']) ++ unquoted (name ++ scriptPath)) =
        .error .expansion := by
      simp only [finishWord, whole, Bool.or_true, if_true]
    rw [refused] at reading
    cases reading
  · rintro ⟨clear, matchless⟩
    refine runSetup_of_word _ ?_
    rw [path, isWord_slash _ _ standing, matching, matchless, below, bare_slash, clear, parts.1]
    rfl

/-! ## The whole setup -/

section
variable (raises : List Command → Option String) (services : Services)

/-- What every call satisfies. -/
def Outcome.All (outcome : Outcome) (holds : Command → Prop) : Prop :=
  ∀ command ∈ outcome.issued, holds command

variable {holds : Command → Prop}

variable {issued : List Command}

theorem executeCommand_all {command : Command} (before : ∀ prior ∈ issued, holds prior)
    (here : holds command) : (executeCommand raises command issued).All holds := by
  intro other member
  rcases List.mem_append.1 member with prior | same
  · exact before other prior
  · rw [List.mem_singleton.1 same]
    exact here

variable {outcome : Outcome}

variable {next : List Command → Outcome}

theorem andThen_all (first : outcome.All holds)
    (later : ∀ issued, (∀ prior ∈ issued, holds prior) → (next issued).All holds) :
    (outcome.andThen next).All holds := by
  unfold Outcome.andThen
  split
  · exact first
  · exact later _ first

/-- The configuration makes the calls for the name and the address. -/
theorem configureGitUserSettings_all (issued : List Command)
    (before : ∀ prior ∈ issued, holds prior)
    (named : ∀ user, services.userInfo = some user → ∀ name, given user.gitUserName = some name →
      holds (.userName name))
    (addressed : ∀ user, services.userInfo = some user → ∀ email,
      given user.gitUserEmail = some email → holds (.userEmail email)) :
    (configureGitUserSettings raises services issued).All holds := by
  unfold configureGitUserSettings
  split
  · exact before
  rename_i user known
  refine andThen_all ?_ ?_
  · split
    · rename_i name present
      exact executeCommand_all _ before (named user known name present)
    · exact before
  · intro issued before
    split
    · rename_i email present
      exact executeCommand_all _ before (addressed user known email present)
    · exact before

/-- A repository is made, or cloned and a branch of it checked out. -/
theorem prepareRepository_all (initGitInEmptyWorkspace : Bool) {workingDir : String}
    (request : Request) (before : ∀ prior ∈ issued, holds prior)
    (initialized : holds (.initRepository workingDir))
    (cloned : ∀ url dirName, holds (.clone url dirName))
    (checked : ∀ branch, holds (.checkout branch))
    (checkedNew : ∀ branch, holds (.checkoutNew branch)) :
    (prepareRepository raises services initGitInEmptyWorkspace workingDir request issued).All
      holds := by
  unfold prepareRepository
  split
  · split
    · exact executeCommand_all _ before initialized
    · exact before
  split
  · exact before
  split
  · exact before
  refine andThen_all (executeCommand_all _ before (cloned _ _)) ?_
  intro issued before
  unfold checkoutBranch
  split
  · split
    · exact executeCommand_all _ before (checked _)
    · exact before
  · exact executeCommand_all _ before (checkedNew _)

/-! What was called stays called. -/

variable {command : Command}

theorem executeCommand_keeps (next : Command) (called : command ∈ issued) :
    command ∈ (executeCommand raises next issued).issued :=
  List.mem_append_left _ called

theorem executeCommand_calls (next : Command) (issued : List Command) :
    next ∈ (executeCommand raises next issued).issued :=
  List.mem_append_right _ (List.mem_singleton.2 rfl)

theorem andThen_keeps (called : command ∈ outcome.issued)
    (keeps : ∀ issued, command ∈ issued → command ∈ (next issued).issued) :
    command ∈ (outcome.andThen next).issued := by
  unfold Outcome.andThen
  split
  · exact called
  · exact keeps _ called

theorem andThen_quiet (next : List Command → Outcome) (quiet : outcome.error = none) :
    outcome.andThen next = next outcome.issued := by
  simp [Outcome.andThen, quiet]

theorem configureGitUserSettings_keeps (issued : List Command) (called : command ∈ issued) :
    command ∈ (configureGitUserSettings raises services issued).issued := by
  unfold configureGitUserSettings
  split
  · exact called
  refine andThen_keeps ?_ ?_
  · split
    · exact executeCommand_keeps _ _ called
    · exact called
  · intro issued called
    split
    · exact executeCommand_keeps _ _ called
    · exact called

theorem prepareRepository_keeps (initGitInEmptyWorkspace : Bool) (workingDir : String)
    (request : Request) (issued : List Command) (called : command ∈ issued) :
    command ∈
      (prepareRepository raises services initGitInEmptyWorkspace workingDir request issued).issued := by
  unfold prepareRepository
  split
  · split
    · exact executeCommand_keeps _ _ called
    · exact called
  split
  · exact called
  split
  · exact called
  refine andThen_keeps (executeCommand_keeps _ _ called) ?_
  intro issued called
  unfold checkoutBranch
  split
  · split
    · exact executeCommand_keeps _ _ called
    · exact called
  · exact executeCommand_keeps _ _ called

end

/-- What is called first, and for the user, when no call raises. -/
theorem quiet_calls {services : Services} (initGitInEmptyWorkspace : Bool) {workingDir : String}
    (request : Request) {command : Command}
    (due : command = .makeDirectory workingDir ∨ ∃ user, services.userInfo = some user ∧
      ((∃ name, given user.gitUserName = some name ∧ command = .userName name) ∨
        ∃ email, given user.gitUserEmail = some email ∧ command = .userEmail email)) :
    command ∈ (cloneOrInitGitRepo (fun _ => none) services initGitInEmptyWorkspace workingDir
      request).issued := by
  have configured : command ∈ (configureGitUserSettings (fun _ => none) services
      (executeCommand (fun _ => none) (.makeDirectory workingDir) []).issued).issued := by
    rcases due with rfl | ⟨user, known, ⟨name, present, rfl⟩ | ⟨email, present, rfl⟩⟩
    · exact configureGitUserSettings_keeps _ _ _ (executeCommand_calls _ _ _)
    · simp only [configureGitUserSettings, known, present]
      refine andThen_keeps (executeCommand_calls _ _ _) ?_
      intro issued called
      split
      · exact executeCommand_keeps _ _ called
      · exact called
    · simp only [configureGitUserSettings, known, present]
      rw [andThen_quiet _ (by split <;> rfl)]
      exact executeCommand_calls _ _ _
  rw [cloneOrInitGitRepo, andThen_quiet _ rfl]
  exact andThen_keeps configured (prepareRepository_keeps _ _ _ _ _)

/-- Every call of the setup and of the setup script reads as its template, whatever
the calls raise. -/
def SetupIsData (services : Services) (initGitInEmptyWorkspace : Bool) (workingDir : String)
    (request : Request) : Prop :=
  ∀ raises : List Command → Option String,
    (cloneOrInitGitRepo raises services initGitInEmptyWorkspace workingDir request).All
        Command.ValuesAreData ∧
      (maybeRunSetupScript raises (getProjectDir workingDir request.selectedRepository)).All
        Command.ValuesAreData

/-- The values that are put between double quotes or put in as they are can stand
there: the user's name and address hold no quotation mark, no expansion and no
backslash that would be dropped, the working directory is a word, and the name of
the repository is bare and no pattern. -/
def Writable (services : Services) (workingDir : String) (request : Request) : Prop :=
  isWord workingDir.toList = true ∧
    (∀ user, services.userInfo = some user →
      (∀ name, given user.gitUserName = some name → quotable name.toList = true) ∧
        ∀ email, given user.gitUserEmail = some email → quotable email.toList = true) ∧
    ∀ repository, given request.selectedRepository = some repository →
      bare (repoName repository).toList = true ∧
        pattern (unquoted (repoName repository).toList) = false

variable (selectedRepository : Option String)

theorem projectDir_path (file : String) :
    (getProjectDir workingDir selectedRepository ++ file).toList =
      match given selectedRepository with
      | some repository => workingDir.toList ++ '/' :: ((repoName repository).toList ++ file.toList)
      | none => workingDir.toList ++ file.toList := by
  rw [String.toList_append, getProjectDir]
  cases given selectedRepository with
  | none => simp only
  | some repository => simp

/-- The script of a project whose working directory is a word. -/
theorem script_iff {workingDir : String} (standing : isWord workingDir.toList = true)
    {file : String} (spelled : file.toList = scriptPath) :
    (Command.runSetup (getProjectDir workingDir selectedRepository ++ file)).ValuesAreData ↔
      ∀ repository, given selectedRepository = some repository →
        bare (repoName repository).toList = true ∧
          pattern (unquoted (repoName repository).toList) = false := by
  have path := projectDir_path workingDir selectedRepository file
  rw [spelled] at path
  cases selected : given selectedRepository with
  | none =>
    simp only [selected] at path
    have below : scriptPath = '/' :: ".openhands/setup.sh".toList := by decide
    have parts : (bare ".openhands/setup.sh".toList &&
        !pattern (unquoted ".openhands/setup.sh".toList)) = true := by decide
    have data := runSetup_of_word _ (by rw [path, below, isWord_slash _ _ standing, parts])
    exact ⟨fun _ _ absent => absurd absent (by simp), fun _ => data⟩
  | some repository =>
    simp only [selected] at path
    rw [runSetup_below_iff standing path]
    constructor
    · rintro clear other same
      cases same
      exact clear
    · exact fun clear => clear repository rfl

/-- The setup treats the values it is given as data exactly if they are writable. -/
theorem setup_is_data (services : Services) (initGitInEmptyWorkspace : Bool) (workingDir : String)
    (request : Request) :
    SetupIsData services initGitInEmptyWorkspace workingDir request ↔
      Writable services workingDir request := by
  constructor
  · intro data
    obtain ⟨cloning, script⟩ := data (fun _ => none)
    have standing : isWord workingDir.toList = true :=
      (makeDirectory_iff ..).1 (cloning _ (quiet_calls _ _ (.inl rfl)))
    refine ⟨standing, fun user known => ⟨fun name present => ?_, fun email present => ?_⟩, ?_⟩
    · exact (userName_iff _).1 (cloning _
        (quiet_calls _ _ (.inr ⟨user, known, .inl ⟨name, present, rfl⟩⟩)))
    · exact (userEmail_iff _).1 (cloning _
        (quiet_calls _ _ (.inr ⟨user, known, .inr ⟨email, present, rfl⟩⟩)))
    · exact (script_iff _ standing rfl).1 (script _ (executeCommand_calls _ _ _))
  · rintro ⟨standing, users, below⟩ raises
    have made := (makeDirectory_iff ..).2 standing
    have named : ∀ user, services.userInfo = some user → ∀ name,
        given user.gitUserName = some name → (Command.userName name).ValuesAreData :=
      fun user known name present => (userName_iff _).2 ((users user known).1 name present)
    have addressed : ∀ user, services.userInfo = some user → ∀ email,
        given user.gitUserEmail = some email → (Command.userEmail email).ValuesAreData :=
      fun user known email present => (userEmail_iff _).2 ((users user known).2 email present)
    constructor
    · unfold cloneOrInitGitRepo
      refine andThen_all (executeCommand_all _ (by simp) made) ?_
      intro issued before
      refine andThen_all
        (configureGitUserSettings_all _ _ _ before named addressed) ?_
      intro issued before
      exact prepareRepository_all _ _ _ _ before
        ((initRepository_iff ..).2 standing) clone_data checkout_data checkoutNew_data
    · exact executeCommand_all _ (by simp) 
        ((script_iff _ standing rfl).2 below)

/-- Somebody whose name is read as a command. -/
def substituting : Services where
  userInfo := some { gitUserName := some "$(id)", gitUserEmail := none }
  getAuthenticatedGitUrl repository := .ok ("https://example.com/" ++ repository)
  isValidGitBranchName _ := true
  randomStr := "1"

/-- The setup of an empty workspace lets the shell run what such a name says. -/
theorem name_is_run : ¬ SetupIsData substituting false "/workspace/project"
      { selectedRepository := none, selectedBranch := none } := by
  intro data
  have called : Command.userName "$(id)" ∈ (cloneOrInitGitRepo (fun _ => none) substituting false
      "/workspace/project" { selectedRepository := none, selectedBranch := none }).issued :=
    .tail _ (.head _)
  have read := (data (fun _ => none)).1 _ called
  cases read
end ForgePilot.SetupCommands
