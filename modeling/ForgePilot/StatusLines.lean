import ForgePilot.GitChanges

/-!
# Lines of a comparison

Git prints a line for each file that differs: a status and a path, or two paths where a file was renamed or
copied, with tabs between them. The lines are split at any whitespace, so what they say is read when the paths
hold none. Of a copied file the old path is read and not used: one word with whitespace around it does as well.
New files are read line by line, and only the ends of the whole listing are stripped.
-/

namespace ForgePilot.StatusLines

open Characters TextLines GitChanges List

inductive StatusCode where
  | modified | added | deleted | unmerged
deriving DecidableEq

def StatusCode.letter : StatusCode → Char
  | .modified => 'M'
  | .added => 'A'
  | .deleted => 'D'
  | .unmerged => 'U'

/-- What a line says; scores tell how similar the files are. -/
inductive StatusLine where
  | single (code : StatusCode) (path : Text)
  | rename (score oldPath newPath : Text)
  | copy (score oldPath newPath : Text)
deriving DecidableEq

namespace StatusLine

/-- The line without its end. -/
def text : StatusLine → Text
  | .single code path => code.letter :: '\t' :: path
  | .rename score oldPath newPath => 'R' :: score ++ '\t' :: (oldPath ++ '\t' :: newPath)
  | .copy score oldPath newPath => 'C' :: score ++ '\t' :: (oldPath ++ '\t' :: newPath)

def changes : StatusLine → List Change
  | .single code path => [⟨[code.letter], path⟩]
  | .rename _ oldPath newPath => [⟨['D'], oldPath⟩, ⟨['A'], newPath⟩]
  | .copy _ _ newPath => [⟨['A'], newPath⟩]

/-- Scores are digits, and no path holds a tab or a feed. -/
def Printable : StatusLine → Prop
  | .single _ path => '\t' ∉ path ∧ '\n' ∉ path
  | .rename score oldPath newPath | .copy score oldPath newPath =>
      (∀ digit ∈ score, digit.isDigit = true) ∧ ('\t' ∉ oldPath ∧ '\n' ∉ oldPath) ∧
        '\t' ∉ newPath ∧ '\n' ∉ newPath

/-- The lines that are read as they are meant. -/
def Readable : StatusLine → Prop
  | .single _ path => Plain path
  | .rename _ oldPath newPath => Plain oldPath ∧ Plain newPath
  | .copy _ oldPath newPath =>
      (words isSpace oldPath).length = 1 ∧ Unbroken oldPath ∧ Plain newPath

instance : DecidablePred Printable
  | .single _ path => inferInstanceAs (Decidable ('\t' ∉ path ∧ '\n' ∉ path))
  | .rename score oldPath newPath | .copy score oldPath newPath =>
      @instDecidableAnd _ (('\t' ∉ oldPath ∧ '\n' ∉ oldPath) ∧ '\t' ∉ newPath ∧ '\n' ∉ newPath)
        (List.decidableBAll (·.isDigit = true) score) inferInstance

instance : DecidablePred Readable
  | .single _ path => inferInstanceAs (Decidable (Plain path))
  | .rename _ oldPath newPath => inferInstanceAs (Decidable (Plain oldPath ∧ Plain newPath))
  | .copy _ oldPath newPath => inferInstanceAs (Decidable
      ((words isSpace oldPath).length = 1 ∧ Unbroken oldPath ∧ Plain newPath))

end StatusLine

/-- The listings of new files that are read as they are meant. -/
structure ReadableListing (paths : List Text) : Prop where
  lines : ∀ path ∈ paths, path ≠ [] ∧ Unbroken path
  starts : ∀ path, paths.head? = some path → ∀ first, path.head? = some first → isSpace first = false
  ends : ∀ path, paths.getLast? = some path → ∀ last, path.getLast? = some last → isSpace last = false

/-! ## Single lines -/

def StatusLine.status : StatusLine → Text
  | .single code _ => [code.letter]
  | .rename score _ _ => 'R' :: score
  | .copy score _ _ => 'C' :: score

theorem digit_visible (char : Char) (digit : char.isDigit = true) : isSpace char = false := by
  have codes : '0'.val.toNat = 48 ∧ '9'.val.toNat = 57 := by decide
  simp only [Char.isDigit, Bool.and_eq_true, decide_eq_true_eq, ge_iff_le, UInt32.le_iff_toNat_le] at digit
  by_contra space
  simp only [isSpace, Char.toNat, Bool.not_eq_false, Bool.or_eq_true, Bool.and_eq_true, decide_eq_true_eq,
    beq_iff_eq] at space
  omega

theorem letter_visible (code : StatusCode) : isSpace code.letter = false := by
  cases code with
  | modified | added | deleted | unmerged => decide

variable (changedFiles : List Text) (lines : List StatusLine) (line : StatusLine)

variable (printable : line.Printable)

include printable in
theorem status_plain : Plain line.status := by
  have scored (letter : Char) (score : Text) (visible : isSpace letter = false)
      (digits : ∀ digit ∈ score, digit.isDigit = true) : Plain (letter :: score) := by
    refine ⟨by simp, fun char member => ?_⟩
    rcases member with _ | ⟨_, later⟩
    · exact visible
    · exact digit_visible _ (digits char later)
  cases line with
  | single code path => exact scored code.letter [] (letter_visible _) (by simp)
  | rename score oldPath newPath => exact scored 'R' score (by decide) printable.1
  | copy score oldPath newPath => exact scored 'C' score (by decide) printable.1

theorem status_front : ∃ rest, line.text = line.status ++ '\t' :: rest := by
  cases line with
  | single code path => exact ⟨path, rfl⟩
  | rename score oldPath newPath => exact ⟨oldPath ++ '\t' :: newPath, rfl⟩
  | copy score oldPath newPath => exact ⟨oldPath ++ '\t' :: newPath, rfl⟩

include printable in
/-- A line is not empty, even without the whitespace around it. -/
theorem strip_text : strip line.text ≠ [] := by
  obtain ⟨rest, split⟩ := status_front line
  have status := status_plain line printable
  obtain ⟨letter, score, same⟩ := exists_cons_of_ne_nil status.1
  have member : letter ∈ line.text := by simp [split, same]
  have visible := status.2 letter (by simp [same])
  exact ne_nil_of_mem (mem_strip _ _ member visible)

/-- The words of a line with two paths, of which the new one is a word. -/
theorem words_two (status oldPath newPath : Text) (plain : Plain status) (new : Plain newPath) :
    words isSpace (status ++ '\t' :: (oldPath ++ '\t' :: newPath)) =
      status :: (words isSpace oldPath ++ [newPath]) := by
  rw [words_front _ _ _ plain (by decide), words_back _ _ _ new (by decide)]

variable (readable : line.Readable)

include printable readable in
theorem parse_readable : parseLine changedFiles line.text = .ok line.changes := by
  have status := status_plain _ printable
  have own := strip_plain status
  rw [parseLine, if_neg (strip_text _ printable)]
  cases line with
  | single code path =>
    have parts : words isSpace (StatusLine.single code path).text = [[code.letter], path] := by
      have front := words_front _ path '\t' status (by decide)
      rw [words_plain readable] at front
      exact front
    have known : statusOf (strip [code.letter]) = [code.letter] ∧
        [code.letter] ∈ [['M'], ['A'], ['D'], ['U']] := by
      cases code with
      | modified | added | deleted | unmerged => decide
    rw [parts, parseParts, known.1, if_pos known.2, strip_plain readable]
    rfl
  | rename score oldPath newPath =>
    obtain ⟨old, new⟩ := readable
    have parts : words isSpace (StatusLine.rename score oldPath newPath).text =
        ['R' :: score, oldPath, newPath] := by
      have split := words_two ('R' :: score) oldPath newPath status new
      rw [words_plain old] at split
      exact split
    have marked : (strip ('R' :: score)).head? = some 'R' := congrArg head? own
    rw [parts, parseParts, if_pos marked, strip_plain old, strip_plain new]
    rfl
  | copy score oldPath newPath =>
    obtain ⟨single, -, new⟩ := readable
    obtain ⟨word, alone⟩ := length_eq_one_iff.mp single
    have parts : words isSpace (StatusLine.copy score oldPath newPath).text =
        ['C' :: score, word, newPath] := by
      have split := words_two ('C' :: score) oldPath newPath status new
      rw [alone] at split
      exact split
    have marked : (strip ('C' :: score)).head? = some 'C' := congrArg head? own
    rw [parts, parseParts, marked, if_neg (by decide), if_pos rfl, strip_plain new]
    rfl

/-! ## What a line can be read as -/

/-- What is read of a line is read of its words. -/
theorem parts_of_line {changedFiles : List Text} {line : Text} {changes : List Change}
    (read : parseLine changedFiles line = .ok changes) :
    parseParts changedFiles (words isSpace line) = .ok changes := by
  rw [parseLine] at read
  split at read
  · cases read
  · exact read

/-- Whatever is read of a line, there is a change, and all paths are words. -/
theorem parse_plain (line : Text) (changes : List Change)
    (read : parseLine changedFiles line = .ok changes) :
    1 ≤ changes.length ∧ ∀ change ∈ changes, Plain change.path := by
  have plain : ∀ word ∈ words isSpace line, Plain (strip word) := by
    intro word member
    have visible := plain_of_mem _ [] _ (by simp) member
    rwa [strip_plain visible]
  have parts := parts_of_line read
  unfold parseParts at parts
  split at parts
  · rename_i status oldPath newPath split
    have old := plain oldPath (by simp [split])
    have new := plain newPath (by simp [split])
    split at parts
    · cases parts
      refine ⟨by simp, fun change member => ?_⟩
      rcases mem_pair.mp member with rfl | rfl
      · exact old
      · exact new
    · split at parts
      · cases parts
        exact ⟨by simp, fun change member => by rwa [mem_singleton.mp member]⟩
      · cases parts
  · rename_i status path split
    split at parts
    · cases parts
      refine ⟨by simp, fun change member => ?_⟩
      rw [mem_singleton.mp member]
      exact plain path (by simp [split])
    · cases parts
  · cases parts

theorem first_word (line : Text) (letter : Char) (starts : line.head? = some letter)
    (visible : isSpace letter = false) :
    ∃ word rest, words isSpace line = word :: rest ∧ word.head? = some letter := by
  cases line with
  | nil => cases starts
  | cons first line =>
    cases starts
    rw [words, wordsFrom, visible, if_neg Bool.false_ne_true, words_from_pending _ _ _ (by simp)]
    exact ⟨_, _, rfl, rfl⟩

/-- A line that begins as one with two paths is read of three words. -/
theorem parse_two {line : Text} (changes : List Change) (letter : Char)
    (starts : line.head? = some letter) (two : letter = 'R' ∨ letter = 'C')
    (read : parseLine changedFiles line = .ok changes) :
    (words isSpace line).length = 3 ∧ changes.length = if letter = 'R' then 2 else 1 := by
  have visible : isSpace letter = false := by
    rcases two with rfl | rfl
    · decide
    · decide
  obtain ⟨word, rest, split, begins⟩ := first_word _ _ starts visible
  have parts := parts_of_line read
  have own : strip word = word :=
    strip_plain (plain_of_mem _ [] _ (by simp) (by rw [← words, split]; simp))
  rw [split] at parts ⊢
  unfold parseParts at parts
  split at parts
  · rename_i status oldPath newPath same
    cases same
    rw [own, begins] at parts
    rcases two with rfl | rfl
    · rw [if_pos rfl] at parts
      cases parts
      exact ⟨rfl, rfl⟩
    · rw [if_neg (by decide), if_pos rfl] at parts
      cases parts
      exact ⟨rfl, rfl⟩
  · rename_i status path same
    cases same
    -- no status of a line with one path begins so
    have unknown : statusOf (strip word) ∉ [['M'], ['A'], ['D'], ['U']] := by
      rw [own, statusOf]
      intro known
      split at known
      · rename_i question
        rw [question] at begins
        rcases two with rfl | rfl
        · cases begins
        · cases begins
      · split at known
        · rename_i star
          rw [star] at begins
          rcases two with rfl | rfl
          · cases begins
          · cases begins
        · simp only [mem_cons, not_mem_nil, or_false] at known
          rcases known with rfl | rfl | rfl | rfl
          all_goals
            rcases two with rfl | rfl
            · cases begins
            · cases begins
    rw [if_neg unknown] at parts
    cases parts
  · cases parts

/-! ## The pieces of a line -/

theorem parseLines_append (front back : List Text) : parseLines changedFiles (front ++ back) = (do
      let changes ← parseLines changedFiles front
      let others ← parseLines changedFiles back
      return changes ++ others) := by
  induction front with
  | nil =>
    cases read : parseLines changedFiles back with
    | error failure => simp only [nil_append, read]; rfl
    | ok others => simp only [nil_append, read]; rfl
  | cons line front ih =>
    rw [cons_append, parseLines, ih, parseLines]
    cases parseLine changedFiles line with
    | error failure => rfl
    | ok changes =>
      cases parseLines changedFiles front with
      | error failure => rfl
      | ok more =>
        cases parseLines changedFiles back with
        | error failure => rfl
        | ok others => exact congrArg Except.ok (append_assoc changes more others).symm

/-- Every line that is read gives a change, and all paths are words. -/
theorem parseLines_plain (lines : List Text) (changes : List Change)
    (read : parseLines changedFiles lines = .ok changes) :
    lines.length ≤ changes.length ∧ ∀ change ∈ changes, Plain change.path := by
  induction lines generalizing changes with
  | nil =>
    cases read
    exact ⟨le_rfl, by simp⟩
  | cons line rest ih =>
    rw [parseLines] at read
    cases first : parseLine changedFiles line with
    | error failure =>
      rw [first] at read
      cases read
    | ok here =>
      cases others : parseLines changedFiles rest with
      | error failure =>
        rw [first, others] at read
        cases read
      | ok later =>
        rw [first, others] at read
        cases read
        obtain ⟨one, plain⟩ := parse_plain _ _ _ first
        obtain ⟨count, plainToo⟩ := ih later others
        refine ⟨?_, fun change member => (mem_append.mp member).elim (plain change) (plainToo change)⟩
        rw [length_append, length_cons]
        omega

/-- The lines that are made of a printed line: whole, or stripped at the end of the text. -/
def Pieces (line : StatusLine) (pieces : List Text) : Prop :=
  pieces = splitlines (line.text ++ ['\n']) ∨ pieces = splitlines (rstrip line.text)

include printable in
theorem text_letter : ∃ letter rest, line.text = letter :: rest ∧ isSpace letter = false := by
  obtain ⟨rest, split⟩ := status_front _
  have status := status_plain _ printable
  obtain ⟨letter, score, same⟩ := exists_cons_of_ne_nil status.1
  exact ⟨letter, score ++ '\t' :: rest, by rw [split, same]; rfl, status.2 letter (by simp [same])⟩

theorem inside_of_visible (char : Char) (visible : isSpace char = false) :
    isLineBreak char = false := by
  by_contra breaks
  rw [space_of_break (by simpa using breaks)] at visible
  cases visible

variable (pieces : List Text) (made : Pieces line pieces)
include printable made

theorem first_piece : ∃ piece others, pieces = piece :: others ∧ piece.head? = line.text.head? := by
  obtain ⟨letter, rest, split, visible⟩ := text_letter _ printable
  have inside := inside_of_visible _ visible
  rcases made with rfl | rfl
  · obtain ⟨piece, others, same, -⟩ := splitlines_first [] _ _ inside
    rw [split]
    exact ⟨_, others, same, rfl⟩
  have front := rstrip_front line.text
  have member := mem_rstrip line.text (by simp [split]) visible
  obtain ⟨first, kept, same⟩ := exists_cons_of_ne_nil (ne_nil_of_mem member)
  rw [same, split, cons_prefix_cons] at front
  obtain ⟨rfl, -⟩ := front
  obtain ⟨piece, others, made, -⟩ := splitlines_first [] _ _ inside
  rw [same, split]
  exact ⟨_, others, made, rfl⟩

/-- No line is read as fewer changes than it denotes. -/
theorem pieces_length (changes : List Change) (read : parseLines changedFiles pieces = .ok changes)
    :
    line.changes.length ≤ changes.length := by
  obtain ⟨piece, others, rfl, starts⟩ := first_piece _ printable _ made
  have count := (parseLines_plain _ _ _ read).1
  rw [length_cons] at count
  cases line with
  | single code path =>
    change 1 ≤ _
    omega
  | copy score oldPath newPath =>
    change 1 ≤ _
    omega
  | rename score oldPath newPath =>
    rw [parseLines] at read
    cases first : parseLine changedFiles piece with
    | error failure =>
      rw [first] at read
      cases read
    | ok here =>
      have two := (parse_two _ _ 'R' starts (.inl rfl) first).2
      cases rest : parseLines changedFiles others with
      | error failure =>
        rw [first, rest] at read
        cases read
      | ok later =>
        rw [first, rest] at read
        cases read
        change 2 ≤ (here ++ later).length
        rw [length_append, two, if_pos rfl]
        omega

omit printable made

def StatusLine.lastPath : StatusLine → Text
  | .single _ path => path
  | .rename _ _ newPath => newPath
  | .copy _ _ newPath => newPath

variable (plain : Plain line.lastPath)
include plain

/-- A line that ends with a word ends visibly. -/
theorem text_last : ∃ front last, line.text = front ++ [last] ∧ isSpace last = false := by
  obtain ⟨path, last, split⟩ := (eq_nil_or_concat line.lastPath).resolve_left plain.1
  have visible : isSpace last = false := plain.2 last (by rw [split]; simp)
  cases line with
  | single code whole =>
    obtain rfl : whole = path ++ [last] := by simpa [StatusLine.lastPath] using split
    exact ⟨code.letter :: '\t' :: path, last, rfl, visible⟩
  | rename score oldPath newPath =>
    obtain rfl : newPath = path ++ [last] := by simpa [StatusLine.lastPath] using split
    exact ⟨'R' :: score ++ '\t' :: (oldPath ++ '\t' :: path), last, by simp [StatusLine.text], visible⟩
  | copy score oldPath newPath =>
    obtain rfl : newPath = path ++ [last] := by simpa [StatusLine.lastPath] using split
    exact ⟨'C' :: score ++ '\t' :: (oldPath ++ '\t' :: path), last, by simp [StatusLine.text], visible⟩

/-- A line that ends with a word has the same pieces everywhere. -/
theorem pieces_of_last (pieces : List Text) (made : Pieces line pieces) :
    pieces = splitlines line.text := by
  obtain ⟨front, last, split, visible⟩ := text_last _ plain
  rcases made with rfl | rfl
  · rw [split, splitlines, splitlines_closed _ [] _ _ (inside_of_visible _ visible)]
    rfl
  rw [rstrip_eq]
  intro final ends
  rw [split, getLast?_concat] at ends
  rwa [← Option.some.inj ends]

/-! ## Exactly the changes of a line -/

/-- A line without ends inside its paths is one piece. -/
theorem pieces_single (unbroken : Unbroken line.text) (pieces : List Text)
    (made : Pieces line pieces) : pieces = [line.text] := by
  obtain ⟨front, last, split, -⟩ := text_last _ plain
  rw [pieces_of_last _ plain _ made, splitlines_last unbroken]
  rw [split]
  exact concat_ne_nil last front

omit plain

theorem text_unbroken {status oldPath newPath : Text} (plain : Plain status) (old : Unbroken oldPath)
    (new : Plain newPath) : Unbroken (status ++ '\t' :: (oldPath ++ '\t' :: newPath)) := by
  have tab : isLineBreak '\t' = false := by decide
  intro char member
  simp only [mem_append, mem_cons] at member
  rcases member with first | rfl | second | rfl | third
  · exact unbroken_of_plain plain.2 char first
  · exact tab
  · exact old char second
  · exact tab
  · exact unbroken_of_plain new.2 char third

include printable readable

theorem unbroken_of_readable : Plain line.lastPath ∧ Unbroken line.text := by
  have status := status_plain _ printable
  cases line with
  | single code path =>
    refine ⟨readable, fun char member => ?_⟩
    simp only [StatusLine.text, mem_cons] at member
    rcases member with rfl | rfl | later
    · exact inside_of_visible _ (letter_visible _)
    · decide
    · exact unbroken_of_plain readable.2 char later
  | rename score oldPath newPath =>
    obtain ⟨old, new⟩ := readable
    exact ⟨new, text_unbroken status (unbroken_of_plain old.2) new⟩
  | copy score oldPath newPath =>
    obtain ⟨-, old, new⟩ := readable
    exact ⟨new, text_unbroken status old new⟩

include made in
/-- The pieces of a readable line are read as the line is meant. -/
theorem pieces_readable : parseLines changedFiles pieces = .ok line.changes := by
  obtain ⟨plain, unbroken⟩ := unbroken_of_readable _ printable readable
  rw [pieces_single _ plain unbroken _ made, parseLines, parse_readable _ _ printable readable]
  exact congrArg Except.ok (append_nil line.changes)

omit printable readable

/-- Of a copied file only the new path is read, but the line is one line of three words. -/
theorem copy_readable {score oldPath newPath : Text}
    (printable : (StatusLine.copy score oldPath newPath).Printable) (new : Plain newPath)
    {pieces : List Text} (made : Pieces (.copy score oldPath newPath) pieces) {change : Change}
    (read : parseLines changedFiles pieces = .ok [change]) :
    (words isSpace oldPath).length = 1 ∧ Unbroken oldPath := by
  have status := status_plain _ printable
  have same := pieces_of_last (.copy score oldPath newPath) new pieces made
  have count := (parseLines_plain _ _ _ read).1
  have old : Unbroken oldPath := by
    intro char member
    by_contra breaks
    obtain ⟨front, back, split⟩ := append_of_mem member
    obtain ⟨path, last, ending⟩ := (eq_nil_or_concat newPath).resolve_left new.1
    have visible : isSpace last = false := new.2 last (by rw [ending]; simp)
    have feeds : '\n' ∉ ('C' :: score ++ '\t' :: front) ++ [char] := by
      have printed := printable.2.1.2
      have none := fun listed => status.2 '\n' listed
      rw [split] at printed
      intro listed
      simp only [mem_append, mem_cons, not_mem_nil, or_false] at listed printed
      rcases listed with (first | tab | second) | third
      · exact absurd (none (by simpa [StatusLine.status] using first)) (by decide)
      · cases tab
      · exact printed (.inl second)
      · exact printed (.inr (.inl third))
    have two := splitlines_broken [] ('C' :: score ++ '\t' :: front) (back ++ '\t' :: path) char last
      feeds (by simpa using breaks) (inside_of_visible last visible) false
    have whole : ('C' :: score ++ '\t' :: front) ++ char :: (back ++ '\t' :: path ++ [last]) =
        (StatusLine.copy score oldPath newPath).text := by
      rw [StatusLine.text, split, ending]
      simp
    rw [whole, ← splitlines, ← same] at two
    exact absurd (Nat.le_trans two count) (by simp)
  refine ⟨?_, old⟩
  have text := text_unbroken status old new
  rw [pieces_single (.copy score oldPath newPath) new text pieces made, parseLines] at read
  cases first : parseLine changedFiles (StatusLine.copy score oldPath newPath).text with
  | error failure =>
    rw [first] at read
    cases read
  | ok here =>
    have three := (parse_two _ _ 'C' rfl (.inr rfl) first).1
    have split := words_two ('C' :: score) oldPath newPath status new
    rw [StatusLine.text, split, length_cons, length_append, length_singleton] at three
    omega

include printable made in
/-- A line of which exactly the changes it denotes are read is readable. -/
theorem readable_of_pieces (read : parseLines changedFiles pieces = .ok line.changes) :
    line.Readable := by
  have plain := (parseLines_plain _ _ _ read).2
  cases line with
  | single code path => exact plain ⟨[code.letter], path⟩ (.head _)
  | rename score oldPath newPath =>
    exact ⟨plain ⟨['D'], oldPath⟩ (mem_pair.mpr (.inl rfl)),
      plain ⟨['A'], newPath⟩ (mem_pair.mpr (.inr rfl))⟩
  | copy score oldPath newPath =>
    have new : Plain newPath := plain ⟨['A'], newPath⟩ (.head _)
    obtain ⟨single, old⟩ := copy_readable _ printable new made read
    exact ⟨single, old, new⟩

/-! ## Whole comparisons -/

/-- The lines of a printed comparison are the pieces of its lines. -/
theorem pieces_of_lines (printable : ∀ line ∈ lines, line.Printable) :
    ∃ pieces, List.Forall₂ Pieces lines pieces ∧
      splitlines (strip (printLines (lines.map StatusLine.text))) = pieces.flatten := by
  rcases eq_nil_or_concat lines with rfl | ⟨front, final, rfl⟩
  · exact ⟨[], .nil, rfl⟩
  obtain ⟨letter, rest, split, visible⟩ := text_letter _ (printable final (by simp))
  have filled : rstrip final.text ≠ [] :=
    ne_nil_of_mem (mem_rstrip _ (by simp [split]) visible)
  have starts : ∀ first, (printLines (front.map StatusLine.text) ++ final.text).head? = some first →
      isSpace first = false := by
    intro first head
    cases front with
    | nil =>
      rw [split] at head
      exact Option.some.inj head ▸ visible
    | cons line others =>
      obtain ⟨letter, rest, split, visible⟩ := text_letter _ (printable line (by simp))
      rw [map_cons, split] at head
      exact Option.some.inj head ▸ visible
  refine ⟨front.map (fun line => splitlines (line.text ++ ['\n'])) ++ [splitlines (rstrip final.text)], ?_, ?_⟩
  · rw [concat_eq_append]
    apply rel_append
    · exact forall₂_map_right_iff.mpr (forall₂_same.mpr fun line _ => .inl rfl)
    · exact .cons (.inr rfl) .nil
  · rw [concat_eq_append, map_append, map_singleton,
      strip_printed _ starts filled, splitlines_printed, flatten_append, flatten_singleton,
      flatMap_map, flatMap_def]

/-- Of the pieces of lines no fewer changes are read than the lines denote; if they are the same, all of the lines
are readable. -/
theorem parse_pieces {changedFiles : List Text} (lines : List StatusLine)
    (printable : ∀ line ∈ lines, line.Printable) (pieces : List (List Text))
    (made : List.Forall₂ Pieces lines pieces) (changes : List Change)
    (read : parseLines changedFiles pieces.flatten = .ok changes) :
    (lines.flatMap StatusLine.changes).length ≤ changes.length ∧
      (changes = lines.flatMap StatusLine.changes → ∀ line ∈ lines, line.Readable) := by
  induction made generalizing changes with
  | nil => exact ⟨Nat.zero_le _, by simp⟩
  | @cons line here rest others first later ih =>
    rw [flatten_cons, parseLines_append] at read
    cases parsed : parseLines changedFiles here with
    | error failure =>
      rw [parsed] at read
      cases read
    | ok own =>
      cases remaining : parseLines changedFiles others.flatten with
      | error failure =>
        rw [parsed, remaining] at read
        cases read
      | ok more =>
        rw [parsed, remaining] at read
        cases read
        have shown := printable line (.head _)
        have count := pieces_length _ _ shown _ first own parsed
        obtain ⟨counts, exactly⟩ := ih
          (fun other member => printable other (.tail _ member)) more remaining
        rw [flatMap_cons, length_append, length_append]
        refine ⟨by omega, fun same => ?_⟩
        have lengths := congrArg length same
        rw [length_append, length_append] at lengths
        obtain ⟨rfl, rfl⟩ := append_inj same (by omega)
        rintro other (- | ⟨-, member⟩)
        · exact readable_of_pieces _ _ shown _ first parsed
        · exact exactly rfl other member

/-- Readable lines are read as they are meant. -/
theorem parse_readable_pieces (printable : ∀ line ∈ lines, line.Printable)
    (readable : ∀ line ∈ lines, line.Readable) (pieces : List (List Text))
    (made : List.Forall₂ Pieces lines pieces) :
    parseLines changedFiles pieces.flatten = .ok (lines.flatMap StatusLine.changes) := by
  induction made with
  | nil => rfl
  | @cons line here rest others first later ih =>
    rw [flatten_cons, parseLines_append, pieces_readable _ _ (printable line (.head _))
        (readable line (.head _)) _ first,
      ih (fun other member => printable other (.tail _ member))
        (fun other member => readable other (.tail _ member))]
    rfl

/-! ## New files -/

/-- The paths that are read of what is printed for new files. -/
def listed (paths : List Text) : List Text := (splitlines (strip (printLines paths))).filter (· ≠ [])

/-- What is read is readable, whatever was printed. -/
theorem listed_readable (paths : List Text) : ReadableListing (listed paths) where
  lines path member := by
    obtain ⟨read, filled⟩ := mem_filter.mp member
    exact ⟨of_decide_eq_true filled, unbroken_of_mem _ [] _ _ (fun _ none => by cases none) read⟩
  starts := by
    intro path head first begins
    obtain ⟨starts, -⟩ := strip_ends ..
    cases text : strip (printLines paths) with
    | nil =>
      rw [listed, text] at head
      cases head
    | cons char rest =>
      have visible := starts char (by rw [text]; rfl)
      obtain ⟨line, others, split, -⟩ := splitlines_first [] _ _ (inside_of_visible _ visible)
      rw [listed, text, splitlines, split, filter_cons_of_pos (by simp)] at head
      cases head
      exact Option.some.inj begins ▸ visible
  ends := by
    intro path final last ends
    obtain ⟨-, visible⟩ := strip_ends ..
    rcases eq_nil_or_concat (strip (printLines paths)) with text | ⟨front, char, text⟩
    · rw [listed, text] at final
      cases final
    rw [concat_eq_append] at text
    have seen := visible char (by rw [text, getLast?_concat])
    obtain ⟨others, line, split⟩ := splitlines_end _ [] _ _ (inside_of_visible _ seen)
    rw [listed, text, splitlines, split, filter_append, filter_cons_of_pos (by simp),
      filter_nil, getLast?_concat] at final
    cases final
    rw [getLast?_concat] at ends
    exact Option.some.inj ends ▸ seen

/-- A readable listing is read as it was printed. -/
theorem listed_eq {paths : List Text} (readable : ReadableListing paths) : listed paths = paths := by
  rcases eq_nil_or_concat paths with rfl | ⟨front, final, rfl⟩
  · rfl
  rw [concat_eq_append] at readable ⊢
  obtain ⟨filled, unbroken⟩ := readable.lines final (by simp)
  have whole : rstrip final = final :=
    rstrip_eq _ (readable.ends final (by rw [getLast?_concat]))
  have starts : ∀ first, (printLines front ++ final).head? = some first → isSpace first = false := by
    intro first head
    cases front with
    | nil => exact readable.starts final rfl first head
    | cons path others =>
      obtain ⟨letter, rest, rfl⟩ := exists_cons_of_ne_nil (readable.lines path (by simp)).1
      exact readable.starts (letter :: rest) rfl first head
  have each : ∀ line ∈ front, splitlines (line ++ ['\n']) = [line] := fun line member =>
    splitlines_line _ (readable.lines line (by simp [member])).2
  rw [listed, strip_printed _ starts (by rwa [whole]), splitlines_printed, whole,
    splitlines_last unbroken filled, flatMap_congr each, flatMap_singleton',
    filter_eq_self]
  intro path member
  exact decide_eq_true (readable.lines path member).1

/-- Words in front of a readable listing make a readable listing. -/
theorem readable_append {front back : List Text} (plain : ∀ path ∈ front, Plain path)
    (readable : ReadableListing back) : ReadableListing (front ++ back) where
  lines path member := by
    rcases mem_append.mp member with own | other
    · exact ⟨(plain path own).1, unbroken_of_plain (plain path own).2⟩
    · exact readable.lines path other
  starts path head first begins := by
    cases front with
    | nil => exact readable.starts path head first begins
    | cons word others =>
      cases head
      exact (plain _ (.head _)).2 first (mem_of_mem_head? begins)
  ends path final last ends := by
    rw [getLast?_append] at final
    cases tail : back.getLast? with
    | some other =>
      rw [tail] at final
      exact readable.ends path (tail.trans final) last ends
    | none =>
      rw [tail, Option.none_or] at final
      exact (plain path (mem_of_getLast? final)).2 last (mem_of_getLast? ends)

/-! ## Whole repositories -/

/-- New files are additions. -/
def additions (paths : List Text) : List Change := paths.map fun path => ⟨['A'], path⟩

/-- What is read of a repository whose commands have printed lines and new files. -/
theorem changes_of_outputs {shell : Text → CompletedProcess} {ref : Text}
    (valid : getValidRef shell = .ok (some ref)) (named : ref ≠ []) {lines : List StatusLine}
    {untracked : List Text}
    (compared : shell ("git --no-pager diff --name-status ".toList ++ ref) =
      ⟨0, printLines (lines.map StatusLine.text), []⟩)
    (others : shell "git --no-pager ls-files --others --exclude-standard".toList =
      ⟨0, printLines untracked, []⟩) :
    getChangesInRepo shell =
      (parseLines (splitlines (strip (printLines (lines.map StatusLine.text))))
        (splitlines (strip (printLines (lines.map StatusLine.text))))).map
          (· ++ additions (listed untracked)) := by
  have first : run shell ("git --no-pager diff --name-status ".toList ++ ref) =
      .ok (strip (printLines (lines.map StatusLine.text))) := by
    rw [run, compared]
    rfl
  have second : run shell "git --no-pager ls-files --others --exclude-standard".toList =
      .ok (strip (printLines untracked)) := by
    rw [run, others]
    rfl
  rw [getChangesInRepo, valid]
  change (if ref = [] then _ else _) = _
  rw [if_neg named, first, second]
  change (parseLines (splitlines _) (splitlines _) >>= _) = _
  cases parseLines _ _ with
  | error failure => rfl
  | ok changes => rfl

/-- Changes and additions that are read as no fewer changes and a readable listing are the same ones when all
of the paths of the changes are words. -/
theorem exactly_read {denoted changes : List Change} {printed : List Text}
    (count : denoted.length ≤ changes.length) (plain : ∀ change ∈ changes, Plain change.path)
    (same : changes ++ additions (listed printed) = denoted ++ additions printed) :
    changes = denoted ∧ listed printed = printed := by
  obtain ⟨more, rfl⟩ : denoted <+: changes :=
    prefix_of_prefix_length_le ⟨_, same.symm⟩ (prefix_append changes _) count
  rw [append_assoc, append_cancel_left_eq] at same
  -- what was read too much is in front of what is listed
  have paths : printed = more.map Change.path ++ listed printed := by
    have projected := congrArg (map Change.path) same
    rw [map_append, additions, additions, map_map, map_map] at projected
    simpa [Function.comp_def] using projected.symm
  have front : ∀ path ∈ more.map Change.path, Plain path := by
    intro path member
    obtain ⟨change, listed, rfl⟩ := mem_map.mp member
    exact plain change (mem_append_right denoted listed)
  have readable : ReadableListing printed := by
    rw [paths]
    exact readable_append front (listed_readable ..)
  have whole := listed_eq readable
  rw [whole] at same
  rw [append_left_eq_self.mp same, append_nil]
  exact ⟨rfl, whole⟩

/-- Exactly the entries that the lines denote are returned, with the new files behind them, when the lines and the
listing of the new files are readable. -/
theorem changes_read (shell : Text → CompletedProcess) (ref : Text)
    (valid : getValidRef shell = .ok (some ref)) (named : ref ≠ []) (lines : List StatusLine)
    (printable : ∀ line ∈ lines, line.Printable) (untracked : List Text)
    (compared : shell ("git --no-pager diff --name-status ".toList ++ ref) =
      ⟨0, printLines (lines.map StatusLine.text), []⟩)
    (others : shell "git --no-pager ls-files --others --exclude-standard".toList =
      ⟨0, printLines untracked, []⟩) :
    getChangesInRepo shell = .ok (lines.flatMap StatusLine.changes ++ additions untracked) ↔
      (∀ line ∈ lines, line.Readable) ∧ ReadableListing untracked := by
  obtain ⟨pieces, made, split⟩ := pieces_of_lines _ printable
  rw [changes_of_outputs valid named compared others, split]
  constructor
  · intro read
    cases parsed : parseLines pieces.flatten pieces.flatten with
    | error failure =>
      rw [parsed] at read
      cases read
    | ok changes =>
      rw [parsed] at read
      obtain ⟨count, exactly⟩ := parse_pieces _ printable _ made _ parsed
      have plain := (parseLines_plain _ _ _ parsed).2
      obtain ⟨same, whole⟩ := exactly_read count plain (Except.ok.inj read)
      exact ⟨exactly same, whole ▸ listed_readable ..⟩
  · rintro ⟨readable, listing⟩
    rw [parse_readable_pieces _ _ printable readable _ made, listed_eq listing]
    rfl

/-- A repository at a branch of the origin, in which a comparison and a listing are printed. -/
def printing (lines : List StatusLine) (untracked : List Text) (cmd : Text) : CompletedProcess :=
  if cmd = "git --no-pager rev-parse --abbrev-ref HEAD".toList then ⟨0, "main\n".toList, []⟩
  else if cmd = "git --no-pager rev-parse --verify origin/main".toList then ⟨0, "4b8\n".toList, []⟩
  else if cmd = "git --no-pager diff --name-status 4b8".toList then
    ⟨0, printLines (lines.map StatusLine.text), []⟩
  else if cmd = "git --no-pager ls-files --others --exclude-standard".toList then ⟨0, printLines untracked, []⟩
  else ⟨1, [], []⟩

theorem renamed_and_new_read :
    let lines := [StatusLine.rename "90".toList "a".toList "b".toList, .copy "75".toList " c".toList "d".toList,
      .single .modified "e".toList]
    getChangesInRepo (printing lines ["my file".toList]) =
      .ok (lines.flatMap StatusLine.changes ++ additions ["my file".toList]) :=
  (changes_read (printing _ _) "4b8".toList (by decide +kernel) (by decide) _ (by decide +kernel) _
    (by decide +kernel) (by decide +kernel)).mpr
    ⟨by decide +kernel, by decide +kernel, by rintro _ ⟨⟩ _ ⟨⟩; decide, by rintro _ ⟨⟩ _ ⟨⟩; decide⟩

/-- The name of a changed file with a space is two words. -/
theorem space_refused :
    ¬ ∀ (shell : Text → CompletedProcess) (ref : Text), getValidRef shell = .ok (some ref) → ref ≠ [] →
      ∀ lines : List StatusLine, (∀ line ∈ lines, line.Printable) → ∀ untracked : List Text,
        shell ("git --no-pager diff --name-status ".toList ++ ref) =
          ⟨0, printLines (lines.map StatusLine.text), []⟩ →
        shell "git --no-pager ls-files --others --exclude-standard".toList = ⟨0, printLines untracked, []⟩ →
        getChangesInRepo shell = .ok (lines.flatMap StatusLine.changes ++ additions untracked) := by
  intro all
  have read := all (printing [.single .modified "a b".toList] []) "4b8".toList (by decide +kernel)
    (by decide) [.single .modified "a b".toList] (by decide) [] (by decide +kernel) (by decide +kernel)
  have refused : getChangesInRepo (printing [.single .modified "a b".toList] []) =
      .error (.unexpectedValue ["M\ta b".toList]) := by
    decide +kernel
  rw [refused] at read
  cases read

end ForgePilot.StatusLines
