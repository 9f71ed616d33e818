import ForgePilot.Characters

/-!
# Lines of a text

Besides the line feed there are other characters that end a line; a return and a feed end it together. All of
them are whitespace. A text whose lines are printed with a feed after each is read back line by line when
no line holds such a character, and what is read back never does.
-/

namespace ForgePilot.TextLines

open Characters List

def isLineBreak (character : Char) : Bool :=
  let code := character.toNat
  (10 ≤ code && code ≤ 13) || (28 ≤ code && code ≤ 30) || code == 133 || code == 8232 || code == 8233

/-- The lines of a text after a pending one; a feed after a return does not end another line. -/
def splitlinesFrom (returned : Bool) (pending : List Char) : List Char → List (List Char)
  | [] => flush pending
  | character :: rest =>
      if returned && character == '\n' then splitlinesFrom false [] rest
      else if isLineBreak character then pending :: splitlinesFrom (character == '\r') [] rest
      else splitlinesFrom false (pending ++ [character]) rest

/-- The lines of a text, without their ends. -/
def splitlines (text : List Char) : List (List Char) := splitlinesFrom false [] text

/-- Lines with a feed after each of them. -/
def printLines (lines : List (List Char)) : List Char := lines.flatMap (· ++ ['\n'])

/-- No character ends a line. -/
def Unbroken (text : List Char) : Prop := ∀ character ∈ text, isLineBreak character = false

instance (text : List Char) : Decidable (Unbroken text) :=
  List.decidableBAll (isLineBreak · = false) text

theorem space_of_break {char : Char} (breaks : isLineBreak char = true) : isSpace char = true := by
  simp only [isLineBreak, isSpace, Bool.or_eq_true, Bool.and_eq_true, decide_eq_true_eq, beq_iff_eq]
    at breaks ⊢
  omega

variable (lines : List (List Char)) (returned : Bool) (pending : List Char) {text : List Char}

theorem unbroken_of_plain (plain : ∀ char ∈ text, isSpace char = false) : Unbroken text := by
  intro char member
  by_contra breaks
  have space := space_of_break (by simpa using breaks)
  rw [plain char member] at space
  cases space

/-! ## Lines that are read back -/

/-- A feed ends a line, whatever comes before. -/
theorem splitlines_feed (front back : List Char) :
    splitlinesFrom returned pending (front ++ '\n' :: back) =
      splitlinesFrom returned pending (front ++ ['\n']) ++ splitlinesFrom false [] back := by
  induction front generalizing returned pending with
  | nil =>
    cases returned with
    | true => rfl
    | false => rfl
  | cons char front ih =>
    simp only [cons_append, splitlinesFrom]
    split
    · exact ih _ _
    split
    · rw [ih]
      rfl
    · exact ih _ _

theorem splitlines_unbroken (text rest : List Char) (unbroken : Unbroken text) :
    splitlinesFrom false pending (text ++ rest) = splitlinesFrom false (pending ++ text) rest := by
  induction text generalizing pending with
  | nil => simp
  | cons char text ih =>
    have here := unbroken char (.head _)
    have later : Unbroken text := fun other member => unbroken other (.tail _ member)
    rw [cons_append, splitlinesFrom, if_neg (by simp), here, if_neg Bool.false_ne_true,
      ih _ later, append_assoc, singleton_append]

theorem splitlines_line (line : List Char) (unbroken : Unbroken line) :
    splitlines (line ++ ['\n']) = [line] := by
  rw [splitlines, splitlines_unbroken [] _ _ unbroken, nil_append]
  rfl

theorem splitlines_last {line : List Char} (unbroken : Unbroken line) (filled : line ≠ []) :
    splitlines line = [line] := by
  have whole := splitlines_unbroken [] _ [] unbroken
  rw [append_nil, nil_append] at whole
  rw [splitlines, whole, splitlinesFrom, flush, if_neg filled]

theorem splitlines_printed (rest : List Char) : splitlines (printLines lines ++ rest) =
      lines.flatMap (fun line => splitlines (line ++ ['\n'])) ++ splitlines rest := by
  induction lines with
  | nil => rfl
  | cons line others ih =>
    have split : printLines (line :: others) ++ rest = line ++ '\n' :: (printLines others ++ rest) := by
      simp [printLines]
    rw [split, splitlines, splitlines_feed, ← splitlines, ← splitlines, ih,
      flatMap_cons, append_assoc]

/-! ## What is read -/

/-- No line that is read holds the end of a line. -/
theorem unbroken_of_mem (text line : List Char) (unbroken : Unbroken pending)
    (member : line ∈ splitlinesFrom returned pending text) : Unbroken line := by
  induction text generalizing returned pending with
  | nil =>
    rw [splitlinesFrom, flush] at member
    split at member
    · cases member
    · rwa [mem_singleton.mp member]
  | cons char text ih =>
    have none : Unbroken [] := fun _ member => by cases member
    rw [splitlinesFrom] at member
    split at member
    · exact ih _ _ none member
    split at member
    · rcases member with _ | ⟨_, later⟩
      · exact unbroken
      · exact ih _ _ none later
    rename_i inside
    refine ih _ _ (fun other listed => ?_) member
    rcases mem_append.mp listed with old | new
    · exact unbroken other old
    · rw [mem_singleton.mp new]
      simpa using inside

/-- The first line begins as the text does, with what is pending. -/
theorem splitlines_first (text : List Char) (first : Char) (inside : isLineBreak first = false) :
    ∃ line others, splitlinesFrom false pending (first :: text) = (pending ++ first :: line) :: others ∧
      line <+: text := by
  induction text generalizing pending first with
  | nil =>
    refine ⟨[], [], ?_, nil_prefix⟩
    simp [splitlinesFrom, inside, flush]
  | cons char text ih =>
    rw [splitlinesFrom, if_neg (by simp), inside, if_neg Bool.false_ne_true]
    cases breaks : isLineBreak char with
    | true =>
      refine ⟨[], splitlinesFrom (char == '\r') [] text, ?_, nil_prefix⟩
      simp [splitlinesFrom, breaks]
    | false =>
      obtain ⟨line, others, split, front⟩ := ih (pending ++ [first]) char breaks
      refine ⟨char :: line, others, ?_, cons_prefix_cons.mpr ⟨rfl, front⟩⟩
      rw [split, append_assoc, singleton_append]

theorem splitlines_end (text : List Char) (last : Char) (inside : isLineBreak last = false) :
    ∃ others line, splitlinesFrom returned pending (text ++ [last]) = others ++ [line ++ [last]] := by
  induction text generalizing returned pending with
  | nil =>
    have feed : last ≠ '\n' := by
      rintro rfl
      revert inside
      decide
    refine ⟨[], pending, ?_⟩
    simp [splitlinesFrom, inside, feed, flush]
  | cons char text ih =>
    rw [cons_append, splitlinesFrom]
    split
    · exact ih _ _
    split
    · obtain ⟨others, line, split⟩ := ih (char == '\r') []
      exact ⟨pending :: others, line, by rw [split, cons_append]⟩
    · exact ih _ _

/-- The end of a line inside a text makes two lines of it. -/
theorem splitlines_broken (front back : List Char) (char last : Char)
    (feeds : '\n' ∉ front ++ [char]) (breaks : isLineBreak char = true)
    (inside : isLineBreak last = false) (returned : Bool) :
    2 ≤ (splitlinesFrom returned pending (front ++ char :: (back ++ [last]))).length := by
  induction front generalizing returned pending with
  | nil =>
    have feed : char ≠ '\n' := fun same => feeds (by simp [same])
    obtain ⟨others, line, split⟩ := splitlines_end _ [] _ _ inside
    rw [nil_append, splitlinesFrom, if_neg (by simp [feed]), if_pos breaks, split]
    simp
  | cons first front ih =>
    have feed : first ≠ '\n' := fun same => feeds (by simp [same])
    have later : '\n' ∉ front ++ [char] := fun member => feeds (.tail _ member)
    rw [cons_append, splitlinesFrom, if_neg (by simp [feed])]
    split
    · have rest := ih [] later (first == '\r')
      rw [length_cons]
      omega
    · exact ih _ later _

/-- A feed behind a text that does not end a line changes nothing. -/
theorem splitlines_closed (text : List Char) (last : Char) (inside : isLineBreak last = false) :
    splitlinesFrom returned pending (text ++ [last] ++ ['\n']) =
      splitlinesFrom returned pending (text ++ [last]) := by
  induction text generalizing returned pending with
  | nil =>
    have feed : last ≠ '\n' := by
      rintro rfl
      revert inside
      decide
    have breaks : isLineBreak '\n' = true := by decide
    simp [splitlinesFrom, inside, feed, flush, breaks]
  | cons char text ih => simp only [cons_append, splitlinesFrom, ih]

/-! ## Printed lines -/

/-- From printed lines, whitespace is removed at the end of the last one. -/
theorem strip_printed {last : List Char}
    (starts : ∀ first, (printLines lines ++ last).head? = some first → isSpace first = false)
    (filled : rstrip last ≠ []) :
    strip (printLines (lines ++ [last])) = printLines lines ++ rstrip last := by
  have feed : rstrip (last ++ ['\n']) = rstrip last := rstrip_blank _ (by simp [Blank]; decide)
  have split : printLines (lines ++ [last]) = printLines lines ++ (last ++ ['\n']) := by
    simp [printLines]
  have visible : last ≠ [] := by
    rintro rfl
    exact filled rfl
  rw [strip, lstrip_eq, split, rstrip_append _ _ (by rwa [feed]), feed]
  intro first head
  apply starts first
  obtain ⟨char, rest, same⟩ := exists_cons_of_ne_nil
    (append_ne_nil_of_right_ne_nil (printLines lines) visible)
  rw [split, ← append_assoc, same] at head
  rw [same]
  exact head

/-! ## Words -/

/-- No character is whitespace, and there is one. -/
def Plain (text : List Char) : Prop := text ≠ [] ∧ ∀ character ∈ text, isSpace character = false

instance (text : List Char) : Decidable (Plain text) :=
  @instDecidableAnd _ _ _ (List.decidableBAll (isSpace · = false) text)

theorem strip_plain (plain : Plain text) : strip text = text := by
  apply strip_eq
  · intro first head
    exact plain.2 first (mem_of_mem_head? head)
  · intro last ends
    exact plain.2 last (mem_of_getLast? ends)

theorem words_plain (plain : Plain text) : words isSpace text = [text] := by
  obtain ⟨first, rest, rfl⟩ := exists_cons_of_ne_nil plain.1
  exact words_single plain.2

theorem plain_of_mem (text pending word : List Char)
    (visible : ∀ char ∈ pending, isSpace char = false)
    (member : word ∈ wordsFrom isSpace pending text) : Plain word := by
  have flushed (member : word ∈ flush pending) : Plain word := by
    rw [flush] at member
    split at member
    · cases member
    · rename_i filled
      rw [mem_singleton.mp member]
      exact ⟨filled, visible⟩
  induction text generalizing pending with
  | nil => exact flushed member
  | cons char text ih =>
    rw [wordsFrom] at member
    split at member
    · rcases mem_append.mp member with now | later
      · exact flushed now
      · exact ih [] (by simp) later (by simp [flush])
    rename_i inside
    have longer : ∀ other ∈ pending ++ [char], isSpace other = false := by
      exact forall_mem_append.mpr
        ⟨visible, forall_mem_singleton.mpr (by simpa using inside)⟩
    refine ih _ longer member fun listed => ?_
    rw [flush, if_neg (by simp)] at listed
    rw [mem_singleton.mp listed]
    exact ⟨by simp, longer⟩

theorem words_front (word rest : List Char) (separator : Char) (plain : Plain word)
    (separates : isSpace separator = true) :
    words isSpace (word ++ separator :: rest) = word :: words isSpace rest := by
  have single := words_plain plain
  rw [words] at single
  rw [words, words_from_separator [] _ _ separates, single]
  rfl

theorem words_back (front word : List Char) (separator : Char) (plain : Plain word)
    (separates : isSpace separator = true) :
    words isSpace (front ++ separator :: word) = words isSpace front ++ [word] := by
  rw [words, words_from_separator [] _ _ separates, ← words, ← words, words_plain plain]

end ForgePilot.TextLines
