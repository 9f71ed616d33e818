import Mathlib.Data.List.TakeWhile

/-!
# Characters and whitespace

Texts are lists of characters where they are scanned. The whitespace of the
language is a fixed set of code points. Letters and digits beyond ASCII are left
to a table that agrees with ASCII below 128, so that results hold for every
version of the character database.
-/

namespace ForgePilot

open List

instance lawfulTexts : LawfulBEq (List Char) := List.instLawfulBEq

/-- The code points that count as whitespace in a text. -/
def Characters.isSpace (character : Char) : Bool :=
  let code := character.toNat
  (9 ≤ code && code ≤ 13) || (28 ≤ code && code ≤ 32) || code == 133 || code == 160 ||
    code == 5760 || (8192 ≤ code && code ≤ 8202) || code == 8232 || code == 8233 ||
    code == 8239 || code == 8287 || code == 12288

/-- Letters and digits, fixed on ASCII and free beyond it, apart from whitespace. -/
structure CharacterTable where
  isAlpha : Char → Bool
  isNumeric : Char → Bool
  alpha_ascii : ∀ character : Char, character.toNat < 128 →
    isAlpha character = character.isAlpha
  numeric_ascii : ∀ character : Char, character.toNat < 128 →
    isNumeric character = character.isDigit
  space_apart : ∀ character : Char, Characters.isSpace character = true →
    isAlpha character = false ∧ isNumeric character = false

namespace CharacterTable

/-- The table that knows no letters or digits beyond ASCII. -/
def ascii : CharacterTable where
  isAlpha := Char.isAlpha
  isNumeric := Char.isDigit
  alpha_ascii _ _ := rfl
  numeric_ascii _ _ := rfl
  space_apart character space := by
    have codes : 'A'.val.toNat = 65 ∧ 'Z'.val.toNat = 90 ∧ 'a'.val.toNat = 97 ∧
        'z'.val.toNat = 122 ∧ '0'.val.toNat = 48 ∧ '9'.val.toNat = 57 := by decide
    simp only [Characters.isSpace, Char.toNat, Bool.or_eq_true, Bool.and_eq_true,
      decide_eq_true_eq, beq_iff_eq] at space
    show (decide (character.val ≥ 'A'.val ∧ character.val ≤ 'Z'.val) ||
        (decide (character.val ≥ 'a'.val) && decide (character.val ≤ 'z'.val))) = false ∧
      (decide (character.val ≥ '0'.val) && decide (character.val ≤ '9'.val)) = false
    simp only [Bool.or_eq_false_iff, Bool.and_eq_false_iff, decide_eq_false_iff_not, ge_iff_le,
      UInt32.le_iff_toNat_le]
    omega

/-- Word characters: letters, digits and the underscore. -/
def isWord (table : CharacterTable) (character : Char) : Bool :=
  table.isAlpha character || table.isNumeric character || character == '_'

/-- Word characters below 128 do not depend on the table. -/
theorem is_word_ascii (table : CharacterTable) (char : Char)
    (small : char.toNat < 128) : table.isWord char = ascii.isWord char := by
  simp [isWord, table.alpha_ascii char small, table.numeric_ascii char small, ascii]

/-- Whitespace is no word character. -/
theorem is_word_space (table : CharacterTable) (char : Char)
    (space : Characters.isSpace char = true) : table.isWord char = false := by
  obtain ⟨letter, digit⟩ := table.space_apart char space
  have line : char ≠ '_' := by
    rintro rfl
    revert space
    decide
  simp [isWord, letter, digit, line]

end CharacterTable

namespace Characters

/-- Remove leading whitespace. -/
def lstrip (text : List Char) : List Char := text.dropWhile isSpace

/-- Remove trailing whitespace. -/
def rstrip (text : List Char) : List Char := (lstrip text.reverse).reverse

/-- Remove leading and trailing whitespace. -/
def strip (text : List Char) : List Char := rstrip (lstrip text)

/-! ## Whitespace at the ends -/

theorem lstrip_head {text : List Char} {first : Char} (starts : (lstrip text).head? = some first) :
    isSpace first = false := by
  have head := head?_dropWhile_not isSpace text
  rw [lstrip] at starts
  rw [starts] at head
  simpa using head

variable (isSeparator : Char → Bool) (pending text : List Char)

variable (starts : ∀ first, text.head? = some first → isSpace first = false)

include starts in
theorem lstrip_eq : lstrip text = text := by
  cases text with
  | nil => rfl
  | cons first rest => exact dropWhile_cons_of_neg (by simp [starts first rfl])

theorem rstrip_last (last : Char) (ends : (rstrip text).getLast? = some last) :
    isSpace last = false := by
  rw [rstrip, getLast?_reverse] at ends
  exact lstrip_head ends

variable (ends : ∀ last, text.getLast? = some last → isSpace last = false)

include ends in
theorem rstrip_eq : rstrip text = text := by
  rw [rstrip, lstrip_eq, reverse_reverse]
  intro last head
  rw [head?_reverse] at head
  exact ends last head

/-- Whitespace is removed at the end of the second part when something is left of it. -/
theorem rstrip_append (front back : List Char) (filled : rstrip back ≠ []) :
    rstrip (front ++ back) = front ++ rstrip back := by
  have kept : lstrip back.reverse ≠ [] := by
    intro nothing
    exact filled (by rw [rstrip, nothing, reverse_nil])
  rw [rstrip, lstrip, reverse_append, dropWhile_append, if_neg, reverse_append,
    reverse_reverse, rstrip, lstrip]
  simpa [lstrip] using kept

theorem rstrip_front : rstrip text <+: text := by
  have suffix := dropWhile_suffix isSpace (l := text.reverse)
  rw [← reverse_prefix, reverse_reverse] at suffix
  exact suffix

theorem mem_lstrip {text : List Char} {char : Char} (member : char ∈ text)
    (visible : isSpace char = false) : char ∈ lstrip text := by
  rw [← takeWhile_append_dropWhile (p := isSpace) (l := text)] at member
  refine (mem_append.mp member).resolve_left fun space => ?_
  rw [mem_takeWhile_imp space] at visible
  cases visible

theorem mem_rstrip {char : Char} (member : char ∈ text)
    (visible : isSpace char = false) : char ∈ rstrip text := by
  rw [rstrip, mem_reverse]
  exact mem_lstrip (mem_reverse.mpr member) visible

theorem mem_strip (char : Char) (member : char ∈ text)
    (visible : isSpace char = false) : char ∈ strip text :=
  mem_rstrip _ (mem_lstrip member visible) visible

/-- Nothing but whitespace is removed from the ends. -/
theorem strip_ends : (∀ first, (strip text).head? = some first → isSpace first = false) ∧
      ∀ last, (strip text).getLast? = some last → isSpace last = false := by
  refine ⟨fun first head => ?_, rstrip_last _⟩
  obtain ⟨rest, split⟩ := rstrip_front (lstrip text)
  apply lstrip_head
  rw [← split, head?_append]
  rw [strip] at head
  rw [head]
  rfl

include starts ends in
/-- A text that begins and ends visibly stays as it is. -/
theorem strip_eq : strip text = text := by
  rw [strip, lstrip_eq _ starts, rstrip_eq _ ends]

/-- Nothing but whitespace. -/
def Blank (text : List Char) : Prop := ∀ character ∈ text, isSpace character = true

theorem lstrip_blank (blanks text : List Char) (blank : Blank blanks) :
    lstrip (blanks ++ text) = lstrip text :=
  dropWhile_append_of_pos blank

theorem rstrip_blank {blanks : List Char} (blank : Blank blanks) :
    rstrip (text ++ blanks) = rstrip text := by
  rw [rstrip, reverse_append, lstrip_blank _ _ fun char member =>
    blank char (mem_reverse.mp member), rstrip]

theorem lstrip_split : ∃ blanks, Blank blanks ∧ text = blanks ++ lstrip text :=
  ⟨text.takeWhile isSpace, fun _ => mem_takeWhile_imp, takeWhile_append_dropWhile.symm⟩

/-- A text is what is left of it between whitespace. -/
theorem strip_split : ∃ before behind, Blank before ∧ Blank behind ∧
    text = before ++ (strip text ++ behind) := by
  obtain ⟨before, blankBefore, front⟩ := lstrip_split _
  obtain ⟨behind, blankBehind, back⟩ := lstrip_split ..
  refine ⟨before, behind.reverse, blankBefore, fun char member =>
    blankBehind char (mem_reverse.mp member), ?_⟩
  rw [strip, rstrip, ← reverse_append, ← back, reverse_reverse]
  exact front

/-- Whitespace around a text makes no difference. -/
theorem strip_between (before text behind : List Char) (blankBefore : Blank before)
    (blankBehind : Blank behind) : strip (before ++ (text ++ behind)) = strip text := by
  rw [strip, lstrip_blank _ _ blankBefore]
  obtain ⟨blanks, blank, front⟩ := lstrip_split text
  cases left : lstrip text with
  | nil =>
    have whole : Blank (text ++ behind) := by
      rw [front, left, append_nil]
      exact fun char member => (mem_append.mp member).elim (blank char) (blankBehind char)
    have nothing := lstrip_blank _ [] whole
    rw [append_nil] at nothing
    rw [nothing, strip, left]
    rfl
  | cons first rest =>
    have visible : isSpace first = false := lstrip_head (by rw [left]; rfl)
    rw [strip, left, front, left, append_assoc, lstrip_blank _ _ blank, cons_append, lstrip,
      dropWhile_cons_of_neg (by simp [visible]), ← cons_append, rstrip_blank _ blankBehind]

theorem strip_strip : strip (strip text) = strip text := by
  obtain ⟨before, behind, blankBefore, blankBehind, split⟩ := strip_split _
  have outside := congrArg strip split
  rw [strip_between _ _ _ blankBefore blankBehind] at outside
  exact outside.symm

/-! ## Words -/

/-- A pending word is emitted unless it is empty. -/
def flush (pending : List Char) : List (List Char) := if pending = [] then [] else [pending]

/-- Maximal runs of characters that are no separators, with a word pending. -/
def wordsFrom (isSeparator : Char → Bool) (pending : List Char) :
    List Char → List (List Char)
  | [] => flush pending
  | character :: rest =>
      if isSeparator character then flush pending ++ wordsFrom isSeparator [] rest
      else wordsFrom isSeparator (pending ++ [character]) rest

/-- The words of a text between separators. -/
def words (isSeparator : Char → Bool) (text : List Char) : List (List Char) :=
  wordsFrom isSeparator [] text

/-- A separator ends the words before it and starts afresh. -/
theorem words_from_separator {isSeparator : Char → Bool} (pending text rest : List Char)
    {separator : Char} (separates : isSeparator separator = true) :
    wordsFrom isSeparator pending (text ++ separator :: rest) =
      wordsFrom isSeparator pending text ++ wordsFrom isSeparator [] rest := by
  induction text generalizing pending with
  | nil => simp [wordsFrom, separates]
  | cons char remaining ih =>
    simp only [cons_append, wordsFrom, ih]
    split <;> simp

theorem words_skip (separators rest : List Char)
    (all : ∀ char ∈ separators, isSeparator char = true) :
    words isSeparator (separators ++ rest) = words isSeparator rest := by
  induction separators with
  | nil => rfl
  | cons char others ih =>
    have here := all char (.head _)
    have later := ih (fun other member => all other (.tail char member))
    simpa [words, wordsFrom, here, flush] using later

/-- A pending word runs up to the next separator. -/
theorem words_from_pending (started : pending ≠ []) : wordsFrom isSeparator pending text =
      (pending ++ text.takeWhile (fun char => !isSeparator char)) ::
        words isSeparator (text.dropWhile (fun char => !isSeparator char)) := by
  induction text generalizing pending with
  | nil => simp [wordsFrom, words, flush, started]
  | cons char rest ih =>
    cases separates : isSeparator char with
    | true => simp [wordsFrom, words, separates, flush, started]
    | false =>
      simp only [wordsFrom, separates, Bool.false_eq_true, if_false]
      rw [ih (pending ++ [char]) (by simp)]
      simp [separates]

/-- A text without separators is one word. -/
theorem words_single {isSeparator : Char → Bool} {first : Char} {rest : List Char}
    (none : ∀ char ∈ first :: rest, isSeparator char = false) :
    words isSeparator (first :: rest) = [first :: rest] := by
  have here := none first (.head _)
  have later : ∀ char ∈ rest, (!isSeparator char) = true := by
    intro char member
    simp [none char (.tail first member)]
  have taken : rest.takeWhile (fun char => !isSeparator char) = rest :=
    takeWhile_eq_self_iff.mpr later
  have dropped : rest.dropWhile (fun char => !isSeparator char) = [] :=
    dropWhile_eq_nil_iff.mpr later
  rw [words, wordsFrom, here]
  simp [words_from_pending, taken, dropped, words, wordsFrom, flush]

/-- Words are not empty and consist of characters of the text. -/
theorem mem_words_from (word : List Char) (member : word ∈ wordsFrom isSeparator pending text) :
    word ≠ [] ∧ word ⊆ pending ++ text := by
  have flushed (waiting : List Char) (found : word ∈ flush waiting) :
      word ≠ [] ∧ word = waiting := by
    by_cases empty : waiting = [] <;> simp_all [flush]
  induction text generalizing pending with
  | nil =>
    obtain ⟨filled, rfl⟩ := flushed pending member
    exact ⟨filled, subset_append_left _ _⟩
  | cons char rest ih =>
    simp only [wordsFrom] at member
    split at member
    · rcases mem_append.mp member with before | after
      · obtain ⟨filled, rfl⟩ := flushed pending before
        exact ⟨filled, subset_append_left _ _⟩
      · obtain ⟨filled, within⟩ := ih [] after
        refine ⟨filled, fun letter found => ?_⟩
        exact mem_append_right pending
          (mem_cons_of_mem char (by simpa using within found))
    · simpa using ih (pending ++ [char]) member

/-- The word around a character that is no separator: earlier words and the
beginning of this one come from the text before it, and the beginning is not
empty when that text ends without a separator. -/
theorem words_from_around (front rest : List Char) (char : Char)
    (inside : isSeparator char = false) :
    ∃ earlier before, wordsFrom isSeparator pending (front ++ char :: rest) =
        earlier ++ (before ++ char :: rest.takeWhile (fun other => !isSeparator other)) ::
          words isSeparator (rest.dropWhile (fun other => !isSeparator other)) ∧
      (∀ word ∈ earlier, word ⊆ pending ++ front) ∧ before ⊆ pending ++ front ∧
      ∀ last, (pending ++ front).getLast? = some last → isSeparator last = false → before ≠ [] := by
  induction front generalizing pending with
  | nil =>
    refine ⟨[], pending, ?_, by simp, by simp, ?_⟩
    · simp only [nil_append, wordsFrom, inside, Bool.false_eq_true, if_false]
      rw [words_from_pending _ _ _ (by simp)]
      simp
    · rintro last ends _ rfl
      simp at ends
  | cons head others ih =>
    cases separates : isSeparator head with
    | true =>
      obtain ⟨earlier, before, split, made, begun, joined⟩ := ih []
      refine ⟨flush pending ++ earlier, before, ?_, ?_, ?_, ?_⟩
      · simp [wordsFrom, separates, split]
      · intro word member
        rcases mem_append.mp member with flushed | later
        · have same : word = pending := by
            by_cases empty : pending = [] <;> simp_all [flush]
          exact same ▸ subset_append_left _ _
        · exact fun letter found => mem_append_right _
            (mem_cons_of_mem head (by simpa using made word later found))
      · exact fun letter found => mem_append_right _
          (mem_cons_of_mem head (by simpa using begun found))
      · intro last ends continues
        cases others with
        | nil =>
          have same : head = last := by simpa using ends
          rw [← same, separates] at continues
          cases continues
        | cons second third =>
          exact joined last (by simpa [getLast?_append] using ends) continues
    | false =>
      obtain ⟨earlier, before, split, made, begun, joined⟩ := ih (pending ++ [head])
      refine ⟨earlier, before, ?_, ?_, ?_, ?_⟩
      · simp [wordsFrom, separates, split]
      · simpa using made
      · simpa using begun
      · simpa using joined

/-- The text before the first occurrence of a separator, when it occurs. -/
def beforeFirst (separator : List Char) : List Char → Option (List Char)
  | [] => if separator = [] then some [] else none
  | character :: rest =>
      if separator.isPrefixOf (character :: rest) then some []
      else (beforeFirst separator rest).map (character :: ·)

def startsWith (text front : String) : Bool := front.toList.isPrefixOf text.toList

/-- Whether one text occurs inside another. -/
def occursIn (needle : List Char) : List Char → Bool
  | [] => needle.isEmpty
  | character :: rest => needle.isPrefixOf (character :: rest) || occursIn needle rest

/-- Occurring inside a text is occurring at one of its positions. -/
theorem occurs_in_iff (needle text : List Char) :
    occursIn needle text = true ↔ ∃ place, needle <+: text.drop place := by
  induction text with
  | nil =>
    rw [occursIn, List.isEmpty_iff]
    constructor
    · rintro rfl
      exact ⟨0, nil_prefix⟩
    · rintro ⟨place, begins⟩
      rw [drop_nil] at begins
      exact prefix_nil.mp begins
  | cons char rest ih =>
    rw [occursIn, Bool.or_eq_true, isPrefixOf_iff_prefix, ih]
    constructor
    · intro either
      cases either with
      | inl begins => exact ⟨0, begins⟩
      | inr later =>
        obtain ⟨place, begins⟩ := later
        exact ⟨place + 1, begins⟩
    · rintro ⟨place, begins⟩
      cases place with
      | zero => exact .inl begins
      | succ place => exact .inr ⟨place, begins⟩

/-- Replace a non-empty text from left to right without overlap; `skip`
characters belong to the last occurrence. -/
def replaceFrom (needle replacement : List Char) : Nat → List Char → List Char
  | _, [] => []
  | skip + 1, _ :: rest => replaceFrom needle replacement skip rest
  | 0, character :: rest =>
      if needle.isPrefixOf (character :: rest) then
        replacement ++ replaceFrom needle replacement (needle.length - 1) rest
      else character :: replaceFrom needle replacement 0 rest

/-- A text that does not occur is not replaced. -/
theorem replace_from_absent (needle replacement text : List Char)
    (absent : occursIn needle text = false) : replaceFrom needle replacement 0 text = text := by
  induction text with
  | nil => rfl
  | cons char rest ih =>
    rw [occursIn, Bool.or_eq_false_iff] at absent
    rw [replaceFrom, absent.1, if_neg Bool.false_ne_true, ih absent.2]

/-- Where a text occurs, its replacement stands afterwards. -/
theorem replacement_occurs (needle replacement text : List Char) (filled : needle ≠ [])
    (present : occursIn needle text = true) :
    occursIn replacement (replaceFrom needle replacement 0 text) = true := by
  induction text with
  | nil =>
    rw [occursIn, List.isEmpty_iff] at present
    exact absurd present filled
  | cons char rest ih =>
    rw [replaceFrom]
    split
    · rw [occurs_in_iff]
      exact ⟨0, prefix_append _ _⟩
    rename_i differs
    rw [occursIn, Bool.or_eq_true] at present
    have later := ih (present.resolve_left differs)
    rw [occursIn, later, Bool.or_true]

/-- Replace every occurrence of a non-empty text. -/
def replace (text needle replacement : String) : String :=
  String.ofList (replaceFrom needle.toList replacement.toList 0 text.toList)

theorem replace_character (text : String) (needle replacement : Char) :
    replace text (String.singleton needle) (String.singleton replacement) =
      String.ofList (text.toList.map fun char => if char = needle then replacement else char) := by
  rw [replace, String.toList_singleton, String.toList_singleton]
  congr 1
  induction text.toList with
  | nil => rfl
  | cons char rest ih =>
    rw [map_cons, ← ih, replaceFrom]
    by_cases same : char = needle
    · simp [same]
    · simp [same, Ne.symm same]

end Characters

end ForgePilot
