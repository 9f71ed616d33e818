import ForgePilot.Ps1Prompts

/-!
# Printed prompts

A prompt consists of lines, with one member of the object on each. What stands between two quotes stands in
a line, and if it holds a backslash, in the value of that line: the rest of the line has none. Plain members
are read back, and a prompt is found where its first marker begins a line.
-/

namespace ForgePilot.PrintedPrompts

open Characters BashSessions JsonReading FloatTexts Ps1Prompts List

/-! ## Parts of a text -/

variable {separator : Char} {part back : Text} (absent : separator ∉ part)
include absent

theorem prefix_of_absent (front : Text) (begins : part <+: front ++ separator :: back) :
    part <+: front := by
  rcases prefix_or_prefix_of_prefix begins (prefix_append front _) with
    inside | ⟨more, rfl⟩
  · exact inside
  cases more with
  | nil => rw [append_nil]
  | cons first more =>
    have begun := (prefix_append_right_inj front).mp begins
    obtain ⟨rfl, -⟩ := cons_prefix_cons.mp begun
    exact absurd (mem_append_right _ (.head _)) absent

/-- A part of a text without a separator is on one side of it. -/
theorem infix_of_absent (front : Text) (inside : part <:+: front ++ separator :: back) :
    part <:+: front ∨ part <:+: back := by
  induction front with
  | nil =>
    rcases infix_cons_iff.mp inside with begins | later
    · exact .inl (prefix_of_absent absent [] begins).isInfix
    · exact .inr later
  | cons char front ih =>
    rcases infix_cons_iff.mp inside with begins | later
    · exact .inl (prefix_of_absent absent _ begins).isInfix
    · rcases ih later with before | after
      · exact .inl (before.trans (suffix_cons _ _).isInfix)
      · exact .inr after

omit absent

/-- A text up to a quote ends where the value does, or earlier. -/
theorem up_to_quote (value tail front back : Text) (unquoted : '"' ∉ tail)
    (same : front ++ '"' :: back = value ++ '"' :: tail) : front <+: value := by
  rcases append_eq_append_iff.mp same with ⟨more, rfl, -⟩ | ⟨more, rfl, split⟩
  · exact prefix_append _ _
  cases more with
  | nil => rw [append_nil]
  | cons first more =>
    cases split
    exact absurd (mem_append_right _ (.head _)) unquoted

/-- The body of a string with a backslash, in a line whose only backslashes are in its value, is part of
that value. -/
theorem body_in_value (before value tail front raw back : Text) (slash : '\\' ∈ raw)
    (unescaped : '\\' ∉ before) (unquoted : '"' ∉ tail)
    (quotes : ∀ front back, raw = front ++ '"' :: back → ∃ earlier, front = earlier ++ ['\\'])
    (same : front ++ '"' :: (raw ++ '"' :: back) = before ++ '"' :: (value ++ '"' :: tail)) :
    raw <:+: value := by
  rcases append_eq_append_iff.mp same with ⟨more, rfl, split⟩ | ⟨more, rfl, split⟩
  · cases more with
    | nil =>
      obtain ⟨-, split⟩ := cons.inj split
      exact (up_to_quote _ _ _ _ unquoted split).isInfix
    | cons first more =>
      obtain ⟨-, split⟩ := cons.inj split
      have clean : '\\' ∉ more := fun listed => unescaped (mem_append_right _ (.tail _ listed))
      -- The body goes on after the quote in front of the value, which no backslash precedes.
      rcases append_eq_append_iff.mp split with ⟨rest, rfl, -⟩ | ⟨rest, rfl, inner⟩
      · exact absurd (mem_append_left _ slash) clean
      cases rest with
      | nil =>
        rw [append_nil] at slash
        exact absurd slash clean
      | cons second rest =>
        obtain ⟨rfl, -⟩ := cons.inj inner
        obtain ⟨earlier, rfl⟩ := quotes more rest rfl
        exact absurd (mem_append_right _ (.head _)) clean
  · cases more with
    | nil =>
      obtain ⟨-, split⟩ := cons.inj split
      exact (up_to_quote _ _ _ _ unquoted split.symm).isInfix
    | cons first more =>
      obtain ⟨-, split⟩ := cons.inj split
      have within := up_to_quote _ _ (more ++ '"' :: raw) back unquoted
        (by simpa using split.symm)
      exact ((suffix_cons _ _).trans (suffix_append more _)).isInfix.trans within.isInfix

/-- The text before a needle does not hold it. -/
theorem beforeFirst_spec (needle text front : Text) (filled : needle ≠ [])
    (found : beforeFirst needle text = some front) :
    front <+: text ∧ ¬ needle <:+: front := by
  induction text generalizing front with
  | nil =>
    rw [beforeFirst, if_neg filled] at found
    cases found
  | cons char rest ih =>
    rw [beforeFirst] at found
    split at found
    · cases found
      exact ⟨List.nil_prefix, fun inside => filled (infix_nil.mp inside)⟩
    rename_i elsewhere
    obtain ⟨front, later, rfl⟩ := Option.map_eq_some_iff.mp found
    obtain ⟨begins, absent⟩ := ih _ later
    refine ⟨cons_prefix_cons.mpr ⟨rfl, begins⟩, fun inside => ?_⟩
    rcases infix_cons_iff.mp inside with here | within
    · exact elsewhere (List.isPrefixOf_iff_prefix.mpr
        (here.trans (cons_prefix_cons.mpr ⟨rfl, begins⟩)))
    · exact absent within

/-- A needle on a line of its own is found when no earlier line holds it. -/
theorem beforeFirst_line (needle front back : Text) (line : '\n' ∉ needle)
    (absent : ¬ needle <:+: front) :
    beforeFirst needle (front ++ '\n' :: (needle ++ back)) = some (front ++ ['\n']) := by
  induction front with
  | nil =>
    cases needle with
    | nil => exact absurd (infix_refl []) absent
    | cons first needle =>
      have elsewhere : ¬ (first :: needle).isPrefixOf ('\n' :: ((first :: needle) ++ back)) := by
        intro begins
        obtain ⟨rfl, -⟩ := cons_prefix_cons.mp (List.isPrefixOf_iff_prefix.mp begins)
        exact line (.head _)
      have here : (first :: needle).isPrefixOf (first :: (needle ++ back)) :=
        isPrefixOf_iff_prefix.mpr (prefix_append (first :: needle) back)
      rw [nil_append, beforeFirst, if_neg elsewhere, cons_append, beforeFirst, if_pos here]
      rfl
  | cons char front ih =>
    have elsewhere : ¬ needle.isPrefixOf (char :: (front ++ '\n' :: (needle ++ back))) :=
      fun begins => absent (prefix_of_absent line _
        (List.isPrefixOf_iff_prefix.mp begins)).isInfix
    have later := ih fun inside => absent (inside.trans (suffix_cons _ _).isInfix)
    rw [cons_append, beforeFirst, if_neg elsewhere, later]
    rfl

/-! ## Printed objects -/

/-- The members of an object up to its end. -/
def printedMembers : List (String × Text) → Text
  | [] => ['}']
  | [pair] => member ['"'] pair.1 pair.2 ++ ['\n', '}']
  | pair :: next :: rest =>
      member ['"'] pair.1 pair.2 ++ ',' :: '\n' :: printedMembers (next :: rest)

def Values.members (values : Values) : List (String × Text) :=
  [("pid", decimal values.pid), ("exit_code", decimal values.exitCode), ("username", values.username),
    ("hostname", values.hostname), ("working_dir", values.workingDir),
    ("py_interpreter_path", values.pyInterpreterPath)]

/-- What stands between the marker in front of the values and the one behind them. -/
def printedGroup (members : List (String × Text)) : Text :=
  '\n' :: '{' :: '\n' :: (printedMembers members ++ ['\n'])

/-- The line of a prompt that the search begins at, and what follows. -/
theorem printedPrompt_eq (values : Values) : printedPrompt values =
      '\n' :: (beginMarker ++ (printedGroup (Values.members values) ++ (endMarker ++ ['\n']))) := by
  have opening : cmdOutputPs1Begin = '\n' :: (beginMarker ++ ['\n']) := by decide
  have closing : cmdOutputPs1End = '\n' :: endMarker := by decide
  rw [printedPrompt, promptOf, opening, closing]
  simp [printedJson, jsonLines, printedGroup, Values.members, printedMembers]

/-- A quote and a backslash between quotes are in a value. -/
theorem body_in_member {key : String} (value tail raw : Text) (slash : '\\' ∈ raw)
    (unescaped : '\\' ∉ key.toList) (unquoted : '"' ∉ tail)
    (quotes : ∀ front back, raw = front ++ '"' :: back → ∃ earlier, front = earlier ++ ['\\'])
    (inside : '"' :: (raw ++ ['"']) <:+: member ['"'] key value ++ tail) : raw <:+: value := by
  obtain ⟨front, back, same⟩ := inside
  refine body_in_value (' ' :: ' ' :: '"' :: (key.toList ++ ['"', ':', ' '])) value tail front raw
    back slash ?_ unquoted quotes ?_
  · simp [unescaped]
  · simpa [member] using same

/-- The body of a string with a backslash that stands in a printed object is part of a value. -/
theorem body_in_members {members : List (String × Text)} {back raw : Text} (slash : '\\' ∈ raw)
    (keys : ∀ pair ∈ members, '\\' ∉ pair.1.toList) (unquoted : '"' ∉ back) (line : '\n' ∉ raw)
    (quotes : ∀ front back, raw = front ++ '"' :: back → ∃ earlier, front = earlier ++ ['\\'])
    (inside : '"' :: (raw ++ ['"']) <:+: printedMembers members ++ '\n' :: back) :
    ∃ pair ∈ members, raw <:+: pair.2 := by
  have single : '\n' ∉ '"' :: (raw ++ ['"']) := by simp [line]
  have quoted (text : Text) (absent : '"' ∉ text) : ¬ '"' :: (raw ++ ['"']) <:+: text :=
    fun within => absent (within.subset (.head _))
  fun_induction printedMembers members with
  | case1 =>
    rcases infix_of_absent single _ inside with here | later
    · exact absurd here (quoted _ (by decide))
    · exact absurd later (quoted _ unquoted)
  | case2 pair =>
    rw [append_assoc] at inside
    rcases infix_of_absent single _ inside with here | later
    · refine ⟨pair, .head _, ?_⟩
      exact body_in_member _ [] raw slash (keys pair (.head _))
        not_mem_nil quotes (by rwa [append_nil])
    · exact absurd later (quoted _ (by simp [unquoted]))
  | case3 pair next rest ih =>
    have reordered : member ['"'] pair.1 pair.2 ++ ',' :: '\n' :: printedMembers (next :: rest) ++
        '\n' :: back = (member ['"'] pair.1 pair.2 ++ [',']) ++
          '\n' :: (printedMembers (next :: rest) ++ '\n' :: back) := by simp
    rw [reordered] at inside
    rcases infix_of_absent single _ inside with here | later
    · refine ⟨pair, .head _, ?_⟩
      exact body_in_member _ _ raw slash (keys pair (.head _)) (by decide)
        quotes here
    · obtain ⟨found, listed, within⟩ := ih (fun pair listed => keys pair (.tail _ listed)) later
      exact ⟨found, .tail _ listed, within⟩

theorem marker_in_member {key : String} {value tail : Text}
    (inside : endMarker <:+: member ['"'] key value ++ tail) :
    endMarker <:+: key.toList ∨ endMarker <:+: value ∨ endMarker <:+: tail := by
  have absent : '"' ∉ endMarker := by decide
  have shape : member ['"'] key value ++ tail =
      [' ', ' '] ++ '"' :: (key.toList ++ '"' :: ([':', ' '] ++ '"' :: (value ++ '"' :: tail))) := by
    simp [member]
  rw [shape] at inside
  rcases infix_of_absent absent _ inside with here | inside
  · exact absurd here (by decide)
  rcases infix_of_absent absent _ inside with here | inside
  · exact .inl here
  rcases infix_of_absent absent _ inside with here | inside
  · exact absurd here (by decide)
  · exact .inr (infix_of_absent absent _ inside)

variable (fuel : Nat) (key : String) (members : List (String × Text))

/-- A printed object does not hold the marker, if its keys and values do not. -/
theorem members_unmarked
    (unmarked : ∀ pair ∈ members, ¬ endMarker <:+: pair.1.toList ∧ ¬ endMarker <:+: pair.2) :
    ¬ endMarker <:+: printedMembers members := by
  have line : '\n' ∉ endMarker := by decide
  intro inside
  fun_induction printedMembers members with
  | case1 => exact absurd inside (by decide)
  | case2 pair =>
    obtain ⟨key, value⟩ := unmarked pair (.head _)
    rcases infix_of_absent line _ inside with here | later
    · rw [← append_nil (member _ _ _)] at here
      rcases marker_in_member here with inKey | inValue | nowhere
      · exact key inKey
      · exact value inValue
      · exact absurd nowhere (by decide)
    · exact absurd later (by decide)
  | case3 pair next rest ih =>
    obtain ⟨key, value⟩ := unmarked pair (.head _)
    have reordered : member ['"'] pair.1 pair.2 ++ ',' :: '\n' :: printedMembers (next :: rest) =
        (member ['"'] pair.1 pair.2 ++ [',']) ++ '\n' :: printedMembers (next :: rest) := by simp
    rw [reordered] at inside
    rcases infix_of_absent line _ inside with here | later
    · rcases marker_in_member here with inKey | inValue | nowhere
      · exact key inKey
      · exact value inValue
      · exact absurd nowhere (by decide)
    · exact ih
        (fun pair listed => unmarked pair (.tail _ listed)) later

/-! ## Reading a printed object -/

def readMembers (members : List (String × Text)) : List (CodePoints × Json) :=
  members.map fun pair => (pointsOf pair.1, .string (pair.2.map Char.toNat))

variable (value rest : Text)

theorem skip_member :
    skipWhitespace (member ['"'] key value ++ rest) =
      '"' :: (key.toList ++ '"' :: ':' :: ' ' :: '"' :: (value ++ '"' :: rest)) := by
  simp [member, skipWhitespace, isWhitespace]

theorem scan_value (plain : PlainText value) :
    scanOnce (fuel + 1) (skipWhitespace (' ' :: '"' :: (value ++ '"' :: rest))) =
      some (.string (value.map Char.toNat), rest) := by
  have blank : skipWhitespace (' ' :: '"' :: (value ++ '"' :: rest)) =
      '"' :: (value ++ '"' :: rest) := rfl
  simp only [blank, scanOnce]
  rw [scanString_plain _ _ plain, Option.map_some, combined_characters]

theorem scan_last_member (plainKey : PlainText key.toList) (plainValue : PlainText value) :
    scanPairs (fuel + 2) (skipWhitespace (member ['"'] key value ++ '\n' :: '}' :: rest)) =
      some ([(pointsOf key, .string (value.map Char.toNat))], rest) := by
  have colon (text : Text) : skipWhitespace (':' :: text) = ':' :: text := rfl
  have closing : skipWhitespace ('\n' :: '}' :: rest) = '}' :: rest := rfl
  rw [skip_member]
  unfold scanPairs
  simp [scanString_plain _ _ plainKey, colon, scan_value _ _ _ plainValue, closing, combined_characters, pointsOf]

/-- A member and the comma after it. -/
theorem scan_next_member (plainKey : PlainText key.toList) (plainValue : PlainText value) :
    scanPairs (fuel + 2) (skipWhitespace (member ['"'] key value ++ ',' :: '\n' :: rest)) =
      (scanPairs (fuel + 1) (skipWhitespace rest)).map fun scanned =>
        ((pointsOf key, .string (value.map Char.toNat)) :: scanned.1, scanned.2) := by
  have colon (text : Text) : skipWhitespace (':' :: text) = ':' :: text := rfl
  have comma : skipWhitespace (',' :: '\n' :: rest) = ',' :: '\n' :: rest := rfl
  have line : skipWhitespace ('\n' :: rest) = skipWhitespace rest := rfl
  rw [skip_member, scanPairs]
  simp [scanString_plain _ _ plainKey, colon, scan_value _ _ _ plainValue, comma, line, combined_characters, pointsOf]

theorem scan_members (filled : members ≠ [])
    (plain : ∀ pair ∈ members, PlainText pair.1.toList ∧ PlainText pair.2) (fuel : Nat)
    (rest : Text) :
    scanPairs (fuel + members.length + 1) (skipWhitespace (printedMembers members ++ rest)) =
      some (readMembers members, rest) := by
  fun_induction printedMembers members with
  | case1 => exact absurd rfl filled
  | case2 pair =>
    obtain ⟨key, value⟩ := plain pair (.head _)
    rw [append_assoc]
    exact scan_last_member _ _ _ _ key value
  | case3 pair next others ih =>
    obtain ⟨key, value⟩ := plain pair (.head _)
    have later := ih (cons_ne_nil _ _)
      fun pair listed => plain pair (.tail _ listed)
    have step := scan_next_member (fuel + (next :: others).length) pair.1 pair.2
      (printedMembers (next :: others) ++ rest) key value
    rw [later] at step
    rw [append_assoc]
    exact step

theorem members_end : ∃ front, printedMembers members = front ++ ['}'] := by
  fun_induction printedMembers members with
  | case1 => exact ⟨[], rfl⟩
  | case2 pair => exact ⟨member ['"'] pair.1 pair.2 ++ ['\n'], by simp⟩
  | case3 pair next rest ih =>
    obtain ⟨front, same⟩ := ih
    exact ⟨member ['"'] pair.1 pair.2 ++ ',' :: '\n' :: front, by simp [same]⟩

theorem members_length : members.length < (printedMembers members).length := by
  fun_induction printedMembers members with
  | case1 => decide
  | case2 pair => simp
  | case3 pair next rest ih =>
    simp only [length_append, length_cons] at ih ⊢
    omega

/-- A printed object is read back, also with line ends around it. -/
theorem loads_printed (front back : Text) (members : List (String × Text)) (filled : members ≠ [])
    (plain : ∀ pair ∈ members, PlainText pair.1.toList ∧ PlainText pair.2)
    (before : front = [] ∨ front = ['\n']) (after : back = [] ∨ back = ['\n']) :
    loads (front ++ '{' :: '\n' :: (printedMembers members ++ back)) =
      some (.object (readMembers members)) := by
  have unmarked : (front ++ '{' :: '\n' :: (printedMembers members ++ back)).head? ≠
      some (Char.ofNat 0xFEFF) := by
    rcases before with rfl | rfl
    · exact fun same => absurd (Option.some.inj same) (by decide)
    · exact fun same => absurd (Option.some.inj same) (by decide)
  have skipped : skipWhitespace (front ++ '{' :: '\n' :: (printedMembers members ++ back)) =
      '{' :: '\n' :: (printedMembers members ++ back) := by
    rcases before with rfl | rfl <;> rfl
  have ended : skipWhitespace back = [] := by
    rcases after with rfl | rfl <;> rfl
  have longer := members_length members
  obtain ⟨spare, enough⟩ : ∃ spare,
      (front ++ '{' :: '\n' :: (printedMembers members ++ back)).length =
        spare + members.length + 1 := by
    refine ⟨(front ++ '{' :: '\n' :: (printedMembers members ++ back)).length -
      (members.length + 1), ?_⟩
    simp only [List.length_append, List.length_cons]
    omega
  have scanned := scan_members members filled plain spare back
  have line : skipWhitespace ('\n' :: (printedMembers members ++ back)) =
      skipWhitespace (printedMembers members ++ back) := rfl
  rw [loads, if_neg unmarked, skipped, enough]
  obtain ⟨pair, others, rfl⟩ := List.exists_cons_of_ne_nil filled
  have opened : ∃ rest, skipWhitespace (printedMembers (pair :: others) ++ back) = '"' :: rest := by
    cases others with
    | nil => exact ⟨_, by rw [printedMembers, List.append_assoc, skip_member]⟩
    | cons next rest => exact ⟨_, by rw [printedMembers, List.append_assoc, skip_member]⟩
  obtain ⟨rest, opened⟩ := opened
  rw [opened] at scanned
  have whole : scanOnce (spare + (pair :: others).length + 1 + 1)
      ('{' :: '\n' :: (printedMembers (pair :: others) ++ back)) =
        some (.object (readMembers (pair :: others)), back) := by
    simp only [scanOnce, line, opened]
    change (scanPairs _ ('"' :: rest)).map _ = _
    rw [scanned]
    rfl
  rw [whole]
  exact if_pos ended

theorem strip_group : strip (printedGroup members) = '{' :: '\n' :: printedMembers members := by
  obtain ⟨front, same⟩ := members_end members
  have left : lstrip (printedGroup members) = '{' :: '\n' :: (printedMembers members ++ ['\n']) := by
    rw [printedGroup, lstrip, List.dropWhile_cons_of_pos (by decide),
      List.dropWhile_cons_of_neg (by decide)]
  have turned : ('{' :: '\n' :: (printedMembers members ++ ['\n'])).reverse =
      '\n' :: '}' :: (front.reverse ++ ['\n', '{']) := by simp [same]
  rw [strip, left, rstrip, turned, lstrip, List.dropWhile_cons_of_pos (by decide),
    List.dropWhile_cons_of_neg (by decide)]
  simp [same]

/-! ## Finding the prompt -/

theorem find_before (text back : Text) (place : Nat) (previous : Option Char)
    (absent : ¬ beginMarker <:+: text) :
    findIter 0 place previous (text ++ '\n' :: back) =
      findIter 0 (place + text.length + 1) (some '\n') back := by
  have line : '\n' ∉ beginMarker := by decide
  induction text generalizing place previous with
  | nil =>
    have elsewhere : ¬ ((previous = none ∨ previous = some '\n') ∧
        beginMarker.isPrefixOf ('\n' :: back)) := by
      rintro ⟨-, begins⟩
      have nothing := prefix_of_absent line [] (List.isPrefixOf_iff_prefix.mp begins)
      exact absent nothing.isInfix
    rw [nil_append, findIter, if_neg elsewhere]
    rfl
  | cons char text ih =>
    have elsewhere : ¬ ((previous = none ∨ previous = some '\n') ∧
        beginMarker.isPrefixOf (char :: (text ++ '\n' :: back))) := by
      rintro ⟨-, begins⟩
      exact absent (prefix_of_absent line _
        (List.isPrefixOf_iff_prefix.mp begins)).isInfix
    rw [cons_append, findIter, if_neg elsewhere,
      ih _ _ fun inside => absent (inside.trans (suffix_cons _ _).isInfix),
      length_cons, Nat.add_right_comm place 1, Nat.add_assoc place]

/-- Nothing is found in a last line end behind a match. -/
theorem find_after (text : Text) (place : Nat) (previous : Option Char) :
    findIter text.length place previous (text ++ ['\n']) = [] := by
  induction text generalizing place previous with
  | nil =>
    have elsewhere : ¬ ((previous = none ∨ previous = some '\n') ∧
        beginMarker.isPrefixOf ['\n']) := by
      rintro ⟨-, begins⟩
      cases begins
    rw [nil_append, length_nil, findIter, if_neg elsewhere, findIter]
  | cons char text ih =>
    rw [length_cons, cons_append, findIter]
    exact ih _ _

theorem find_start (skip place : Nat) (previous : Option Char) (text : Text) :
    ∀ found ∈ findIter skip place previous text, place ≤ found.start := by
  intro found listed
  fun_induction findIter skip place previous text with
  | case1 => cases listed
  | case2 skip place previous char rest ih => exact Nat.le_of_succ_le (ih listed)
  | case3 place previous char rest begins closed ih => exact Nat.le_of_succ_le (ih listed)
  | case4 place previous char rest begins group closed size ih =>
    rcases listed with _ | ⟨_, later⟩
    · exact le_rfl
    · exact Nat.le_of_succ_le (ih later)
  | case5 place previous char rest elsewhere ih => exact Nat.le_of_succ_le (ih listed)

/-- Where a marker begins a line, the text up to the other marker is found. -/
theorem find_here (place : Nat) (back group : Text)
    (closed : beforeFirst endMarker back = some group) :
    findIter 0 place (some '\n') (beginMarker ++ back) =
      ⟨place, place + (beginMarker.length + group.length + endMarker.length), group⟩ ::
        findIter (beginMarker.length + group.length + endMarker.length - 1) (place + 1) (some '#')
          (beginMarker.drop 1 ++ back) := by
  have shape : beginMarker ++ back = '#' :: (beginMarker.drop 1 ++ back) := by
    rw [← cons_append]
    exact congrArg (· ++ back) (by decide)
  have begins : (some '\n' = none ∨ some '\n' = some '\n') ∧
      beginMarker.isPrefixOf ('#' :: (beginMarker.drop 1 ++ back)) := by
    refine ⟨.inr rfl, isPrefixOf_iff_prefix.mpr ?_⟩
    rw [← shape]
    exact prefix_append _ _
  have behind : ('#' :: (beginMarker.drop 1 ++ back)).drop beginMarker.length = back := by
    rw [← shape, drop_left]
  rw [shape, findIter, if_pos begins, behind, closed]

/-- What is found at the place of a marker ends at the other marker. -/
theorem found_here {place : Nat} {back : Text} (found : Ps1Match)
    (listed : found ∈ findIter 0 place (some '\n') (beginMarker ++ back))
    (start : found.start = place) : beforeFirst endMarker back = some found.group := by
  cases closed : beforeFirst endMarker back with
  | some group =>
    rw [find_here _ _ _ closed] at listed
    rcases listed with _ | ⟨_, later⟩
    · rfl
    · have after := find_start _ _ _ _ _ later
      omega
  | none =>
    have shape : beginMarker ++ back = '#' :: (beginMarker.drop 1 ++ back) := by
      rw [← cons_append]
      exact congrArg (· ++ back) (by decide)
    have behind : ('#' :: (beginMarker.drop 1 ++ back)).drop beginMarker.length = back := by
      rw [← shape, drop_left]
    rw [shape, findIter, behind, closed] at listed
    have later : found ∈ findIter 0 (place + 1) (some '#') (beginMarker.drop 1 ++ back) := by
      split at listed
      · exact listed
      · exact listed
    have after := find_start _ _ _ _ _ later
    omega
end ForgePilot.PrintedPrompts
