import ForgePilot.ApprovalPolicy

/-!
# Joining commands

Two commands are joined by a separator with whitespace on either side of it. The
second command keeps every reason for approval, after every plain first command,
exactly when the separator becomes a word of its own: it is no line break, the
whitespace before it ends in a blank of the shell, and the whitespace after it is
not empty and consists of blanks of the shell.

Reasons found by patterns are always kept, because a separator is no word
character. Reasons found in segments are lost when the first segment of the second
command continues a segment of the first one.
-/

namespace ForgePilot.Approval

open Characters ShellWords Regex List Option

inductive Separator where
  | semicolon | andThen | orElse | pipe | background | newline
deriving DecidableEq

def Separator.text : Separator → List Char
  | .semicolon => [';']
  | .andThen => ['&', '&']
  | .orElse => ['|', '|']
  | .pipe => ['|']
  | .background => ['&']
  | .newline => ['\n']

/-- A separator with the whitespace around it. -/
structure Joining where
  left : List Char
  separator : Separator
  right : List Char
  left_space : ∀ character ∈ left, isSpace character = true
  right_space : ∀ character ∈ right, isSpace character = true

/-- Two commands, one after the other. -/
def Joining.join (joining : Joining) (first second : String) : String :=
  String.ofList (first.toList ++ joining.left ++ joining.separator.text ++ joining.right ++
    second.toList)

/-- The separator is a word of its own wherever it is used. -/
def Joining.Spaced (joining : Joining) : Prop :=
  joining.separator ≠ .newline ∧ (∃ front blank, joining.left = front ++ [blank] ∧
    isBlank blank = true) ∧
  joining.right ≠ [] ∧ ∀ character ∈ joining.right, isBlank character = true

/-- The reasons of an evaluation, none when there is no request. -/
def reasonsOf : Option ApprovalRequest → List ApprovalReason
  | none => []
  | some request => request.reasons

/-- Every reason of the second command alone is a reason of the joined command. -/
def Compositional (table : CharacterTable) (joining : Joining) : Prop :=
  ∀ (requestId first second : String), Plain first.toList → ∀ reason,
    reason ∈ reasonsOf (evaluateCommand table defaultApprovalPolicy requestId second) →
      reason ∈ reasonsOf (evaluateCommand table defaultApprovalPolicy requestId
        (joining.join first second))

variable (table : CharacterTable)

variable (joining : Joining) (policy : ApprovalPolicy)

/-- A request carries all reasons. -/
@[simp] theorem reasons_of_evaluate (requestId command : String) :
    reasonsOf (evaluateCommand table policy requestId command) =
      commandReasons table policy command := by
  rw [evaluateCommand]
  by_cases empty : commandReasons table policy command = [] <;> simp [reasonsOf, empty]

/-- Reasons are kept when every kind of match is kept. -/
theorem command_reasons_subset (command other : String)
    (kept : ∀ patterns predicate, commandMatches table command patterns predicate = true →
      commandMatches table other patterns predicate = true) :
    commandReasons table policy command ⊆ commandReasons table policy other := by
  intro reason member
  simp only [commandReasons, mem_append] at member ⊢
  rcases member with (risk | network) | deployment
  · split at risk
    · rename_i matched
      rw [if_pos (kept _ _ matched)]
      exact .inl (.inl risk)
    · simp at risk
  · split at network
    · rename_i matched
      rw [if_pos (kept _ _ matched)]
      exact .inl (.inr network)
    · simp at network
  · split at deployment
    · rename_i matched
      rw [if_pos (kept _ _ matched)]
      exact .inr deployment
    · simp at deployment

/-! ## Separators that are words of their own -/

theorem segments_from_separator (current front rest : List String) (separator : String)
    (ends : commandSeparators.contains separator = true) :
    segmentsFrom current (front ++ separator :: rest) =
      segmentsFrom current front ++ segmentsFrom [] rest := by
  induction front generalizing current with
  | nil => simp only [nil_append, segmentsFrom, ends, if_true, singleton_append]
  | cons token others ih =>
    simp only [cons_append, segmentsFrom, ih]
    split <;> simp

/-- Segments after a separator word are segments of the command. -/
theorem pipeline_segments_separator (front rest : List String) {separator : String}
    (ends : commandSeparators.contains separator = true) :
    pipelineSegments (front ++ separator :: rest) =
      pipelineSegments front ++ pipelineSegments rest := by
  simp [pipelineSegments, segments_from_separator [] _ _ _ ends]

/-- A separator other than a line break is a word that ends segments. -/
theorem separator_word {separator : Separator} (proper : separator ≠ .newline) :
    commandSeparators.contains (String.ofList separator.text) = true ∧ Plain separator.text ∧
      (∃ first rest, separator.text = first :: rest) ∧
      ∀ char ∈ separator.text, isSpace char = false := by
  cases separator with
  | newline => exact absurd rfl proper
  | semicolon =>
    exact ⟨by decide, by simp [Plain, Separator.text, isQuote], ⟨_, _, rfl⟩,
      by simp [Separator.text, isSpace]⟩
  | andThen =>
    exact ⟨by decide, by simp [Plain, Separator.text, isQuote], ⟨_, _, rfl⟩,
      by simp [Separator.text, isSpace]⟩
  | orElse =>
    exact ⟨by decide, by simp [Plain, Separator.text, isQuote], ⟨_, _, rfl⟩,
      by simp [Separator.text, isSpace]⟩
  | pipe =>
    exact ⟨by decide, by simp [Plain, Separator.text, isQuote], ⟨_, _, rfl⟩,
      by simp [Separator.text, isSpace]⟩
  | background =>
    exact ⟨by decide, by simp [Plain, Separator.text, isQuote], ⟨_, _, rfl⟩,
      by simp [Separator.text, isSpace]⟩

theorem plain_space (text : List Char) (space : ∀ char ∈ text, isSpace char = true) :
    Plain text := by
  intro char member
  have spaced := space char member
  constructor
  · by_contra quoted
    simp only [isQuote, Bool.not_eq_false, Bool.or_eq_true, beq_iff_eq] at quoted
    rcases quoted with rfl | rfl <;> revert spaced <;> decide
  · rintro rfl
    revert spaced
    decide

variable {word : List Char}

variable (front rest blanks : List Char) {blank next first : Char}

/-- Splitting at whitespace finds a separator between whitespace as a word. -/
theorem words_spaced {isSeparator : Char → Bool} (ends : isSeparator blank = true)
    (begins : isSeparator next = true) (inside : ∀ char ∈ first :: word, isSeparator char = false)
    (skipped : ∀ char ∈ blanks, isSeparator char = true) :
    words isSeparator (front ++ blank :: ((first :: word) ++ next :: (blanks ++ rest))) =
      words isSeparator front ++ (first :: word) :: words isSeparator rest := by
  have around := words_from_separator [] front
    ((first :: word) ++ next :: (blanks ++ rest)) ends
  have after := words_from_separator [] (first :: word) (blanks ++ rest) begins
  have single := words_single inside
  have rests := words_skip _ _ rest skipped
  simp only [words] at single rests ⊢
  rw [around, after, single, rests]
  rfl

/-- Reading finds a separator between blanks as a word. -/
theorem read_spaced (plainFront : Plain front) (plainWord : Plain (first :: word))
    (ends : isBlank blank = true) (begins : isBlank next = true)
    (inside : ∀ char ∈ first :: word, isBlank char = false)
    (skipped : ∀ char ∈ blanks, isBlank char = true) :
    read .blank [] (front ++ blank :: ((first :: word) ++ next :: (blanks ++ rest))) =
      (read .blank [] rest).map (fun later => words isBlank front ++ (first :: word) :: later) := by
  rw [(read_plain _ _ _ ends plainFront).1, (read_plain _ _ _ begins plainWord).1,
    words_single inside, read_skip _ _ skipped]
  cases read .blank [] rest <;> simp [Except.map]

/-- Between a blank and blanks, a separator is one of the words, and the words of
the second command follow it. -/
theorem tokenize_spaced (spaced : joining.Spaced) (first second : String)
    (plain : Plain first.toList) :
    ∃ earlier, tokenize (joining.join first second) =
      earlier ++ String.ofList joining.separator.text :: tokenize second := by
  obtain ⟨proper, ⟨front, blank, ends, isBlankEnd⟩, some_right, blanks⟩ := spaced
  obtain ⟨_, plainSeparator, ⟨letter, word, spelled⟩, nonspace⟩ := separator_word proper
  obtain ⟨next, others, begins⟩ := exists_cons_of_ne_nil some_right
  have nonblank : ∀ char ∈ joining.separator.text, isBlank char = false := by
    intro char member
    by_contra blankCharacter
    have space := is_space_of_blank (by simpa using blankCharacter)
    exact Bool.false_ne_true ((nonspace char member).symm.trans space)
  have nextBlank := blanks next (begins ▸ (.head _))
  have othersBlank : ∀ char ∈ others, isBlank char = true := fun char member =>
    blanks char (begins ▸ .tail next member)
  have plainFront : Plain (first.toList ++ front) := by
    intro char member
    rcases mem_append.mp member with word | space
    · exact plain char word
    · exact plain_space joining.left joining.left_space char
        (ends ▸ mem_append_left _ space)
  have joined : (joining.join first second).toList = (first.toList ++ front) ++
      blank :: ((letter :: word) ++ next :: (others ++ second.toList)) := by
    simp [Joining.join, ends, begins, spelled]
  rw [spelled] at plainSeparator nonblank nonspace
  have readJoined := read_spaced (first.toList ++ front) second.toList others
    plainFront plainSeparator isBlankEnd nextBlank nonblank othersBlank
  have wordsJoined := words_spaced (first.toList ++ front) second.toList others
    (is_space_of_blank isBlankEnd) (is_space_of_blank nextBlank) nonspace
    (fun char member => is_space_of_blank (othersBlank char member))
  simp only [tokenize, splitOrWords, split, joined, spelled, readJoined, wordsJoined]
  cases read .blank [] second.toList with
  | error message =>
    exact ⟨(words isSpace (first.toList ++ front)).map String.ofList, by simp [Except.map]⟩
  | ok later =>
    exact ⟨(words isBlank (first.toList ++ front)).map String.ofList, by simp [Except.map]⟩

/-- What follows a separator word is matched as it is alone. -/
theorem segments_match_spaced {joining : Joining} (spaced : joining.Spaced)
    {first second : String} (plain : Plain first.toList)
    {predicate : String → List String → Bool} (matched : segmentsMatch predicate second = true) :
    segmentsMatch predicate (joining.join first second) = true := by
  obtain ⟨earlier, tokens⟩ := tokenize_spaced _ spaced _ _ plain
  have ends := (separator_word spaced.1).1
  unfold segmentsMatch at matched ⊢
  rw [tokens, pipeline_segments_separator _ _ ends, any_append, matched, Bool.or_true]

/-- Neither whitespace nor a separator ends in a word character. -/
theorem joined_boundary (first : String) :
    (lastOr none (first.toList ++ joining.left ++ joining.separator.text ++ joining.right)).any
      table.isWord = false := by
  rcases eq_nil_or_concat joining.right with empty | ⟨earlier, last, ends⟩
  · have small (mark : Char) (below : mark.toNat < 128)
        (apart : CharacterTable.ascii.isWord mark = false) : table.isWord mark = false := by
      rw [table.is_word_ascii mark below, apart]
    cases joining.separator <;>
      simp only [empty, Separator.text, lastOr, append_nil, getLast?_append,
        getLast?_cons, getLast?_nil, getD_none, getD_some, some_or,
        any_some] <;>
      exact small _ (by decide) (by decide)
  · have space : isSpace last = true := joining.right_space last (by simp [ends])
    simp [ends, lastOr, table.is_word_space last space]

/-- Whatever a pattern finds in the second command it finds in the joined one. -/
theorem matches_any_joined (first second : String) (patterns : List Regex)
    (matched : matchesAny table second patterns = true) :
    matchesAny table (joining.join first second) patterns = true := by
  obtain ⟨pattern, listed, found⟩ := any_eq_true.mp matched
  apply any_eq_true.mpr
  refine ⟨pattern, listed, ?_⟩
  rw [Joining.join, String.toList_ofList]
  apply search_append
  rw [search_congr _ _ _ _ _]
  · exact found
  · rw [joined_boundary ..]
    rfl

/-! ## Separators that are part of a word

The command `curl` is found by its program only. After `ls` it is found when the
separator between them is a word of its own, and not otherwise. -/

/-- The characters that separators other than line breaks are made of. -/
def isMark (character : Char) : Bool := character == ';' || character == '&' || character == '|'

/-- The characters of `ls` and `curl` joined by anything. -/
def Spare (character : Char) : Prop :=
  character ∈ ['l', 's', 'c', 'u', 'r', ';', '&', '|'] ∨ isSpace character = true

theorem separator_marks (word : List Char)
    (separates : commandSeparators.contains (String.ofList word) = true) :
    ∀ char ∈ word, isMark char = true := by
  have spelled : word ∈ commandSeparators.map String.toList := by
    apply List.mem_map.mpr
    exact ⟨String.ofList word, by simpa using separates, String.toList_ofList⟩
  have marks : (commandSeparators.map String.toList).all (·.all isMark) = true := by decide
  exact all_eq_true.mp (all_eq_true.mp marks word spelled)

/-- Words without separators among them are one segment. -/
theorem segments_from_single (current tokens : List String)
    (joined : ∀ token ∈ tokens, commandSeparators.contains token = false) :
    segmentsFrom current tokens = [current ++ tokens] := by
  induction tokens generalizing current with
  | nil => simp [segmentsFrom]
  | cons token rest ih =>
    have here := joined token (.head _)
    have later := ih (current ++ [token]) (fun other member => joined other (.tail token member))
    simp only [segmentsFrom, here, Bool.false_eq_true, if_false, later]
    simp

/-- Programs that reach a network, raise privileges or run commands. -/
def knownPrograms : List String :=
  ["sudo", "curl", "wget", "ssh", "scp", "rsync", "npm", "pip", "pip3", "poetry"] ++ shellPrograms

variable {letter : Char}

/-- No known program starts with `l` or with whitespace. -/
theorem unknown_program {program : String} (spelled : program.toList = letter :: word)
    (harmless : letter = 'l' ∨ isSpace letter = true) : program ∉ knownPrograms := by
  have initials : ∀ known ∈ knownPrograms, known.toList.head?.any (fun start =>
      start == 'l' || isSpace start) = false := by decide
  intro known
  have refused := initials program known
  rw [spelled] at refused
  rcases harmless with rfl | space
  · simp at refused
  · simp [space] at refused

/-- Such a program is not known for anything, and no command is looked for inside it. -/
theorem segment_unmatched {program : String} (others : List String)
    (spelled : program.toList = letter :: word) (harmless : letter = 'l' ∨ isSpace letter = true)
    (noSlash : '/' ∉ program.toList) (depth : Nat) :
    segmentMatches isExternalNetworkSegment depth (program :: others) = false := by
  have unknown := unknown_program spelled harmless
  simp only [knownPrograms, shellPrograms, cons_append, nil_append, mem_cons,
    not_mem_nil, or_false, not_or] at unknown
  have path : basename program = program := by
    have kept : program.toList.reverse.takeWhile (fun char => decide (char ≠ '/')) =
        program.toList.reverse := by
      apply takeWhile_eq_self_iff.mpr
      intro char member
      have found : char ∈ program.toList := mem_reverse.mp member
      exact decide_eq_true (fun slash => noSlash (slash ▸ found))
    rw [basename, kept, reverse_reverse, String.ofList_toList]
  have unwrapped : unwrapSudo (program :: others) = program :: others := by
    cases others with
    | nil => simp [unwrapSudo]
    | cons second rest => simp [unwrapSudo, unknown]
  have named : programOf (program :: others) = (program, others) := by
    simp [programOf, unwrapped, path]
  have external : isExternalNetworkSegment program others = false := by
    cases others <;> simp [isExternalNetworkSegment, unknown]
  have shell : shellPrograms.contains program = false := by
    simp [shellPrograms, unknown]
  cases depth with
  | zero => simp [segmentMatches, named, external]
  | succ depth => simp only [segmentMatches, named, external, shell, Bool.false_and, Bool.or_false]

/-- A text that starts with such a program, and in which every word has a
character that is no mark, is one segment and not matched. -/
theorem text_unmatched {text : List Char} (harmless : letter = 'l' ∨ isSpace letter = true)
    (nonblank : isBlank letter = false) (noSlash : '/' ∉ letter :: text)
    (joined : ∀ word ∈ words isBlank (letter :: text), ∃ char ∈ word,
      isMark char = false) (depth : Nat) :
    (pipelineSegments ((words isBlank (letter :: text)).map String.ofList)).any
      (segmentMatches isExternalNetworkSegment depth) = false := by
  have single : ∀ token ∈ (words isBlank (letter :: text)).map String.ofList,
      commandSeparators.contains token = false := by
    intro token member
    obtain ⟨word, found, rfl⟩ := mem_map.mp member
    obtain ⟨char, inside, unmarked⟩ := joined word found
    by_contra separates
    have marked := separator_marks _ (by simpa using separates) _ inside
    exact Bool.false_ne_true (unmarked.symm.trans marked)
  have headed : words isBlank (letter :: text) =
      (letter :: text.takeWhile (fun char => !isBlank char)) ::
        words isBlank (text.dropWhile (fun char => !isBlank char)) := by
    simp only [words, wordsFrom, nonblank, Bool.false_eq_true, if_false, nil_append]
    exact words_from_pending _ _ _ (by simp)
  have within : letter :: text.takeWhile (fun char => !isBlank char) ⊆ letter :: text :=
    cons_subset_cons letter (takeWhile_sublist _).subset
  rw [pipelineSegments, segments_from_single [] _ single, headed]
  simp only [map_cons, nil_append, isEmpty_cons, Bool.not_false, filter_cons,
    if_true, filter_nil, any_cons, any_nil, Bool.or_false]
  apply segment_unmatched _ String.toList_ofList harmless
  rw [String.toList_ofList]
  exact fun slash => noSlash (within slash)

/-- A mark that touches its neighbours makes no word of marks. -/
theorem glued_words {front rest marks : List Char} (mark : Char)
    (unmarkedFront : ∀ char ∈ front, isMark char = false)
    (unmarkedRest : ∀ char ∈ rest, isMark char = false)
    (marked : ∀ char ∈ mark :: marks, isMark char = true)
    (glued : (∃ last, front.getLast? = some last ∧ isBlank last = false) ∨
      ∃ next later, rest = next :: later ∧ isBlank next = false) :
    ∀ word ∈ words isBlank (front ++ mark :: (marks ++ rest)), ∃ char ∈ word,
      isMark char = false := by
  have nonblank : ∀ char ∈ mark :: marks, isBlank char = false := by
    intro char member
    have here := marked char member
    simp only [isMark, Bool.or_eq_true, beq_iff_eq] at here
    rcases here with (rfl | rfl) | rfl <;> decide
  have some_unmarked (word text : List Char) (filled : word ≠ []) (within : word ⊆ text)
      (unmarked : ∀ char ∈ text, isMark char = false) :
      ∃ char ∈ word, isMark char = false := by
    obtain ⟨char, others, rfl⟩ := exists_cons_of_ne_nil filled
    exact ⟨char, .head _, unmarked char (within (.head _))⟩
  have passed : ∀ char ∈ marks, (!isBlank char) = true := by
    intro char member
    simp [nonblank char (.tail mark member)]
  obtain ⟨earlier, before, split, early, begun, attached⟩ :=
    words_from_around _ [] _ _ _ (nonblank mark (.head _))
  rw [takeWhile_append_of_pos passed, dropWhile_append_of_pos passed] at split
  intro word member
  have filled := (mem_words_from _ [] _ _ member).1
  rw [words, split, mem_append, mem_cons] at member
  rcases member with first | rfl | last
  · exact some_unmarked word front filled (early word first) unmarkedFront
  · rcases glued with ⟨last, ends, continues⟩ | ⟨next, later, rfl, continues⟩
    · obtain ⟨char, inside, unmarked⟩ :=
        some_unmarked before front (attached last ends continues) begun unmarkedFront
      exact ⟨char, mem_append_left _ inside, unmarked⟩
    · refine ⟨next, ?_, unmarkedRest next (.head _)⟩
      simp [continues]
  · apply some_unmarked word rest filled _ unmarkedRest
    intro char inside
    have within := (mem_words_from _ [] _ _ last).2 inside
    exact (dropWhile_sublist _).subset (by simpa using within)

/-- A separator is a line break or made of marks. -/
theorem separator_spelled (separator : Separator) :
    separator.text = ['\n'] ∨ separator ≠ .newline ∧ ∃ mark marks,
      separator.text = mark :: marks ∧ ∀ char ∈ mark :: marks, isMark char = true := by
  cases separator with
  | newline => exact .inl rfl
  | semicolon => exact .inr ⟨by decide, _, _, rfl, by simp [isMark]⟩
  | andThen => exact .inr ⟨by decide, _, _, rfl, by simp [isMark]⟩
  | orElse => exact .inr ⟨by decide, _, _, rfl, by simp [isMark]⟩
  | pipe => exact .inr ⟨by decide, _, _, rfl, by simp [isMark]⟩
  | background => exact .inr ⟨by decide, _, _, rfl, by simp [isMark]⟩

/-- Every character of the joined commands is spare. -/
theorem joined_spare : ∀ char ∈ (joining.join "ls" "curl").toList, Spare char := by
  have spelled : ∀ char ∈ joining.separator.text, Spare char := by
    cases joining.separator <;> simp [Separator.text, Spare, isSpace]
  intro char member
  simp only [Joining.join, String.toList_ofList, mem_append] at member
  rcases member with (((first | left) | middle) | right) | second
  · revert char
    simp [Spare]
  · exact .inr (joining.left_space char left)
  · exact spelled char middle
  · exact .inr (joining.right_space char right)
  · revert char
    simp [Spare]

/-- Spare characters need no quotation and are no slash. -/
theorem spare_plain (char : Char) (spare : Spare char) :
    (isQuote char = false ∧ char ≠ '\\') ∧ char ≠ '/' := by
  rcases spare with listed | space
  · have plain : ['l', 's', 'c', 'u', 'r', ';', '&', '|'].all (fun other =>
        !isQuote other && other != '\\' && other != '/') = true := by decide
    simpa [and_assoc] using all_eq_true.mp plain char listed
  · refine ⟨plain_space [char] (by simpa using space) char (.head _), ?_⟩
    rintro rfl
    revert space
    decide

/-- Whitespace has no other case. -/
theorem to_lower_space (char : Char) (space : isSpace char = true) : char.toLower = char := by
  have letter : (char.isUpper || char.isLower) = false :=
    (CharacterTable.ascii.space_apart char space).1
  have upper : char.isUpper = false := (Bool.or_eq_false_iff.mp letter).1
  have outside : ¬(char.val ≥ 'A'.val ∧ char.val ≤ 'Z'.val) := by
    exact of_decide_eq_false upper
  exact dif_neg outside

/-- Spare characters do not occur, in either case, in what the patterns need. -/
theorem spare_folds (needed : Char) (letter : needed ∈ ['h', 'n', 'p', 'w']) (char : Char)
    (spare : Spare char) : foldsTo needed char = false := by
  rcases spare with listed | space
  · have apart : ['h', 'n', 'p', 'w'].all (fun required =>
        ['l', 's', 'c', 'u', 'r', ';', '&', '|'].all (fun other => !foldsTo required other)) =
        true := by decide
    simpa using all_eq_true.mp (all_eq_true.mp apart needed letter) char listed
  · have plain : ['h', 'n', 'p', 'w'].all (fun required => !isSpace required &&
        (required.toLower == required && required != 'i' && required != 's' &&
          required != 'k')) = true := by decide
    obtain ⟨unspaced, ⟨⟨lower, noI⟩, noS⟩, noK⟩ :
        isSpace needed = false ∧ ((needed.toLower = needed ∧ needed ≠ 'i') ∧ needed ≠ 's') ∧
          needed ≠ 'k' := by
      simpa using all_eq_true.mp plain needed letter
    have differs : needed ≠ char := by
      rintro rfl
      exact Bool.false_ne_true (unspaced.symm.trans space)
    simp [foldsTo, lower, to_lower_space _ space, differs, noI, noS, noK]

/-- The command `curl` without an address is found by no pattern, whatever stands
between it and `ls`. -/
theorem joined_unmatched : matchesAny table (joining.join "ls" "curl")
      defaultApprovalPolicy.externalNetworkPatterns = false := by
  have absent (word : String) (needed : Char) (member : needed ∈ word.toList)
      (letter : needed ∈ ['h', 'n', 'p', 'w']) :
      Blocked (joining.join "ls" "curl").toList (literal word) := by
    apply blocked_literal _ member
    intro char inside
    exact spare_folds _ letter _ (joined_spare _ _ inside)
  have http := absent "http" 'h' (by decide) (by decide)
  have wget := absent "wget" 'w' (by decide) (by decide)
  have ssh := absent "ssh" 'h' (by decide) (by decide)
  have scp := absent "scp" 'p' (by decide) (by decide)
  have rsync := absent "rsync" 'n' (by decide) (by decide)
  have npm := absent "npm" 'n' (by decide) (by decide)
  have pip := absent "pip" 'p' (by decide) (by decide)
  have poetry := absent "poetry" 'p' (by decide) (by decide)
  apply any_eq_false.mpr
  intro pattern listed
  rw [Bool.not_eq_true]
  apply search_blocked _ _ _ _ (List.Subset.refl _)
  simp only [defaultApprovalPolicy, mem_cons, not_mem_nil, or_false] at listed
  rcases listed with rfl | rfl | rfl | rfl | rfl | rfl | rfl | rfl <;>
    simp [bounded, opened, spaced, phrase, webAddress, Blocked, http, wget, ssh, scp, rsync, npm, pip, poetry]

theorem tokenize_joined : tokenize (joining.join "ls" "curl") =
      (words isBlank (joining.join "ls" "curl").toList).map String.ofList := by
  have plain : Plain (joining.join "ls" "curl").toList := fun char member =>
    (spare_plain _ (joined_spare _ _ member)).1
  rw [tokenize, splitOrWords, split, (read_plain_end plain).1]
  rfl

/-- When no word consists of marks, the joined commands are one segment. -/
theorem joined_segment
    (joined : ∀ word ∈ words isBlank (joining.join "ls" "curl").toList, ∃ char ∈ word,
      isMark char = false) :
    segmentsMatch isExternalNetworkSegment (joining.join "ls" "curl") = false := by
  have noSlash : '/' ∉ (joining.join "ls" "curl").toList := fun member =>
    (spare_plain '/' (joined_spare _ '/' member)).2 rfl
  have begins : (joining.join "ls" "curl").toList = 'l' :: ('s' :: joining.left ++
      joining.separator.text ++ joining.right ++ "curl".toList) := by
    simp [Joining.join]
  rw [begins] at joined noSlash
  rw [segmentsMatch, tokenize_joined, begins]
  exact text_unmatched (.inl rfl) (by decide) noSlash joined ..

/-- Whitespace is no mark. -/
theorem unmarked_space {char : Char} (space : isSpace char = true) : isMark char = false := by
  by_contra marked
  simp only [isMark, Bool.not_eq_false, Bool.or_eq_true, beq_iff_eq] at marked
  rcases marked with (rfl | rfl) | rfl <;> revert space <;> decide

/-- The first command and the whitespace after it have no marks. -/
theorem unmarked_left {spaces : List Char} (space : ∀ char ∈ spaces, isSpace char = true) :
    ∀ char ∈ 'l' :: 's' :: spaces, isMark char = false := by
  have letters : ∀ char ∈ ['l', 's'], isMark char = false := by simp [isMark]
  intro char member
  rcases mem_append.mp (show char ∈ ['l', 's'] ++ spaces from member) with word | blank
  · exact letters char word
  · exact unmarked_space (space char blank)

/-- The second command and the whitespace before it have no marks. -/
theorem unmarked_right {spaces : List Char} (space : ∀ char ∈ spaces, isSpace char = true) :
    ∀ char ∈ spaces ++ "curl".toList, isMark char = false := by
  have letters : ∀ char ∈ "curl".toList, isMark char = false := by simp [isMark]
  exact forall_mem_append.mpr ⟨fun char blank => unmarked_space (space char blank), letters⟩

/-- A word of a text without marks has a character that is no mark. -/
theorem unmarked_words {text : List Char} (unmarked : ∀ char ∈ text, isMark char = false) :
    ∀ word ∈ words isBlank text, ∃ char ∈ word, isMark char = false := by
  intro word member
  obtain ⟨filled, within⟩ := mem_words_from _ [] _ _ member
  obtain ⟨char, others, rfl⟩ := exists_cons_of_ne_nil filled
  exact ⟨char, .head _, unmarked char (within (.head _))⟩

/-- When the whitespace after a separator word begins with a blank and has other
whitespace in it, the second command is found under no known program. -/
theorem misspelled_unmatched {joining : Joining} {front others : List Char}
    {blank next mark : Char} {marks : List Char} (proper : joining.separator ≠ .newline)
    (spelled : joining.separator.text = mark :: marks)
    (marked : ∀ char ∈ mark :: marks, isMark char = true)
    (ends : joining.left = front ++ [blank]) (isBlankEnd : isBlank blank = true)
    (begins : joining.right = next :: others) (isBlankNext : isBlank next = true)
    (strange : ∃ char ∈ others, isBlank char = false) :
    segmentsMatch isExternalNetworkSegment (joining.join "ls" "curl") = false := by
  have noSlash : '/' ∉ (joining.join "ls" "curl").toList := fun member =>
    (spare_plain '/' (joined_spare _ '/' member)).2 rfl
  obtain ⟨blanks, odd, later, divided, skipped, oddNonblank⟩ :
      ∃ blanks odd later, others = blanks ++ odd :: later ∧
        (∀ char ∈ blanks, isBlank char = true) ∧ isBlank odd = false := by
    obtain ⟨odd, later, found⟩ : ∃ odd later, others.dropWhile isBlank = odd :: later := by
      apply exists_cons_of_ne_nil
      intro all
      obtain ⟨char, member, nonblank⟩ := strange
      have blankCharacter := dropWhile_eq_nil_iff.mp all char member
      exact Bool.false_ne_true (nonblank.symm.trans blankCharacter)
    refine ⟨others.takeWhile isBlank, odd, later, ?_, ?_, ?_⟩
    · rw [← found, takeWhile_append_dropWhile]
    · exact fun char member => mem_takeWhile_imp member
    · have stopped := head?_dropWhile_not isBlank others
      simpa [found] using stopped
  have oddSpace : isSpace odd = true := joining.right_space odd (by simp [begins, divided])
  have marksNonblank : ∀ char ∈ mark :: marks, isBlank char = false := by
    intro char member
    by_contra blankCharacter
    have space := is_space_of_blank (by simpa using blankCharacter)
    have unmarked := unmarked_space space
    exact Bool.false_ne_true (unmarked.symm.trans (marked char member))
  have spelt : (joining.join "ls" "curl").toList = ('l' :: 's' :: front) ++ blank ::
      ((mark :: marks) ++ next :: (blanks ++ (odd :: later ++ "curl".toList))) := by
    simp [Joining.join, ends, begins, spelled, divided]
  have separates : commandSeparators.contains (String.ofList (mark :: marks)) = true :=
    spelled ▸ (separator_word proper).1
  have unmarkedFront := unmarked_left (fun char member =>
    joining.left_space char (ends ▸ mem_append_left _ member))
  have unmarkedRest := unmarked_right (fun char member =>
    joining.right_space char (by
      rw [begins, divided]
      exact .tail next (mem_append_right blanks member)))
  rw [segmentsMatch, tokenize_joined, spelt, words_spaced _ _ _ isBlankEnd
      isBlankNext marksNonblank skipped, map_append, map_cons,
    pipeline_segments_separator _ _ separates, any_append]
  rw [spelt] at noSlash
  rw [text_unmatched (.inl rfl) (by decide) _
      (unmarked_words unmarkedFront), Bool.false_or]
  · exact text_unmatched (.inr oddSpace) oddNonblank
      (fun member => noSlash (by simp_all)) (unmarked_words unmarkedRest) ..
  · exact fun member => noSlash (mem_append_left _ member)

/-- A separator that is no word of its own hides the second command. -/
theorem segments_unspaced (unspaced : ¬joining.Spaced) :
    segmentsMatch isExternalNetworkSegment (joining.join "ls" "curl") = false := by
  have unmarkedLeft := unmarked_left joining.left_space
  have unmarkedRight := unmarked_right joining.right_space
  have spelt : (joining.join "ls" "curl").toList = ('l' :: 's' :: joining.left) ++
      (joining.separator.text ++ (joining.right ++ "curl".toList)) := by
    simp [Joining.join]
  rcases separator_spelled .. with newline | ⟨proper, mark, marks, spelled, marked⟩
  · apply joined_segment _
    apply unmarked_words
    intro char member
    rw [spelt, newline, mem_append, mem_append] at member
    rcases member with left | middle | right
    · exact unmarkedLeft char left
    · rw [mem_singleton.mp middle]
      decide
    · exact unmarkedRight char right
  · by_cases glued : (∃ last, ('l' :: 's' :: joining.left).getLast? = some last ∧
        isBlank last = false) ∨
        ∃ next later, joining.right ++ "curl".toList = next :: later ∧ isBlank next = false
    · apply joined_segment _
      rw [spelt, spelled]
      exact glued_words _ unmarkedLeft unmarkedRight marked glued
    · obtain ⟨leftBlank, rightBlank⟩ := not_or.mp glued
      obtain ⟨front, blank, ends, isBlankEnd⟩ : ∃ front blank, joining.left = front ++ [blank] ∧
          isBlank blank = true := by
        rcases eq_nil_or_concat joining.left with empty | ⟨front, blank, ends⟩
        · exact absurd ⟨'s', by simp [empty], by decide⟩ leftBlank
        · refine ⟨front, blank, by simpa using ends, ?_⟩
          by_contra nonblank
          exact leftBlank ⟨blank, by simp [ends, getLast?_cons], by simpa using nonblank⟩
      obtain ⟨next, others, begins, isBlankNext⟩ : ∃ next others,
          joining.right = next :: others ∧ isBlank next = true := by
        cases begins : joining.right with
        | nil => exact absurd ⟨'c', "url".toList, by simp [begins], by decide⟩ rightBlank
        | cons next others =>
          refine ⟨next, others, rfl, ?_⟩
          by_contra nonblank
          exact rightBlank ⟨next, others ++ "curl".toList, by simp [begins],
            by simpa using nonblank⟩
      have strange : ∃ char ∈ others, isBlank char = false := by
        by_contra none
        apply unspaced
        refine ⟨proper, ⟨front, blank, ends, isBlankEnd⟩, by simp [begins], ?_⟩
        intro char member
        rw [begins] at member
        rcases member with _ | ⟨_, member⟩
        · exact isBlankNext
        · by_contra nonblank
          exact none ⟨char, member, by simpa using nonblank⟩
      exact misspelled_unmatched proper spelled marked
        ends isBlankEnd begins isBlankNext strange

/-- The second of two joined commands keeps all its reasons for approval, whatever
the commands are, exactly when the separator is a word of its own. -/
theorem approval_compositional_exact (joining : Joining) :
    Compositional table joining ↔ joining.Spaced := by
  constructor
  · intro compositional
    by_contra unspaced
    have flagged : segmentsMatch isExternalNetworkSegment "curl" = true := by decide
    have alone : .externalNetwork ∈ commandReasons table defaultApprovalPolicy "curl" := by
      simp [commandReasons, commandMatches, flagged]
    have plain : Plain "ls".toList := by simp [Plain, isQuote]
    have kept := compositional "" "ls" "curl" plain .externalNetwork (by simpa using alone)
    rw [reasons_of_evaluate] at kept
    simp [commandReasons, commandMatches, joined_unmatched .., segments_unspaced _ unspaced] at kept
  · intro spaced requestId first second plain reason
    rw [reasons_of_evaluate, reasons_of_evaluate]
    apply command_reasons_subset
    intro patterns predicate matched
    simp only [commandMatches, Bool.or_eq_true] at matched ⊢
    rcases matched with pattern | segment
    · exact .inl (matches_any_joined _ _ _ _ _ pattern)
    · exact .inr (segments_match_spaced spaced plain segment)

/-- Removing a directory needs approval, but not directly after `ls` and a semicolon. -/
theorem semicolon_hides_removal : Plain "ls".toList ∧
    Joining.join ⟨[], .semicolon, [], by simp, by simp⟩ "ls" "rm -r /data" = "ls;rm -r /data" ∧
    reasonsOf (evaluateCommand .ascii defaultApprovalPolicy "request" "rm -r /data") =
      [.highRiskCommand] ∧
    reasonsOf (evaluateCommand .ascii defaultApprovalPolicy "request" "ls;rm -r /data") = [] := by
  refine ⟨by simp [Plain, isQuote], by decide, by decide +kernel, by decide +kernel⟩

end ForgePilot.Approval
