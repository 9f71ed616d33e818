import ForgePilot.FnCallConverter

/-!
# Function calls in texts

What the format can carry: texts and values without its markers, names without the
characters that end them. For these the parts of the conversion are inverse to each
other: the suffix of the system prompt and the example around the first message are
removed again, and a call that was written behind a text is found with its name, its
arguments and the text before it.
-/

namespace ForgePilot.FnCalls

open Characters Patterns List

/-- The word at which a model stops: `</function`. -/
def stopWord : Text := ['<', '/', 'f', 'u', 'n', 'c', 't', 'i', 'o', 'n']

def markers (suffix : Text) : List Text :=
  [functionOpening, stopWord, parameterOpening, parameterClosing, suffix,
    inContextLearningExampleSuffix, resultOpening]

/-- No marker occurs in the text. -/
def Unmarked (suffix text : Text) : Prop := ∀ marker ∈ markers suffix, ¬ marker <:+: text

/-- The text has no leading or trailing whitespace. -/
def Trimmed (text : Text) : Prop :=
  (∀ character ∈ text.head?, isSpace character = false) ∧
    ∀ character ∈ text.getLast?, isSpace character = false

/-- A name of a function that the format can carry. -/
structure FunctionName (name : Text) : Prop where
  filled : name ≠ []
  unclosed : '>' ∉ name
  unmarked : ¬ resultClosing <:+: name

/-- A name of a parameter that the format can carry. -/
structure ParameterName (name : Text) : Prop where
  filled : name ≠ []
  unclosed : '>' ∉ name
  unequal : '=' ∉ name
  unfinished : ¬ stopWord <:+ name

instance (suffix text : Text) : Decidable (Unmarked suffix text) :=
  inferInstanceAs (Decidable (∀ marker ∈ markers suffix, ¬ marker <:+: text))

instance (text : Text) : Decidable (Trimmed text) :=
  decidable_of_iff
    (text.head?.all (!isSpace ·) = true ∧ text.getLast?.all (!isSpace ·) = true)
    (by simp [Trimmed, Option.all_eq_true])

instance (name : Text) : Decidable (FunctionName name) :=
  decidable_of_iff (name ≠ [] ∧ '>' ∉ name ∧ ¬ resultClosing <:+: name)
    ⟨fun parts => ⟨parts.1, parts.2.1, parts.2.2⟩,
      fun named => ⟨named.filled, named.unclosed, named.unmarked⟩⟩

instance (name : Text) : Decidable (ParameterName name) :=
  decidable_of_iff (name ≠ [] ∧ '>' ∉ name ∧ '=' ∉ name ∧ ¬ stopWord <:+ name)
    ⟨fun parts => ⟨parts.1, parts.2.1, parts.2.2.1, parts.2.2.2⟩,
      fun named => ⟨named.filled, named.unclosed, named.unequal, named.unfinished⟩⟩

variable (env : Environment) (tools : List Tool) (description text : Text)

/-- A trimmed text is stripped of nothing. -/
theorem strip_trimmed (trimmed : Trimmed text) : strip text = text := strip_eq _ trimmed.1 trimmed.2

/-- The part of a text before a needle that begins behind it and not in it. -/
theorem before_first_passes (needle front back : Text) (passes : Passes needle front back)
    (begins : needle <+: back) : beforeFirst needle (front ++ back) = some front := by
  induction front with
  | nil =>
    cases back with
    | nil =>
      obtain rfl := prefix_nil.mp begins
      rfl
    | cons char rest =>
      rw [nil_append, beforeFirst, if_pos (List.isPrefixOf_iff_prefix.mpr begins)]
  | cons char rest ih =>
    rw [cons_append, beforeFirst,
      if_neg (fun starts => passes.1 (List.isPrefixOf_iff_prefix.mp starts)),
      ih passes.2]
    rfl

theorem function_opening_chars :
    functionOpening = '<' :: ['f', 'u', 'n', 'c', 't', 'i', 'o', 'n', '='] := rfl

theorem function_closing_chars :
    functionClosing = '<' :: '/' :: 'f' :: ['u', 'n', 'c', 't', 'i', 'o', 'n', '>'] := rfl

theorem function_closing_stop : functionClosing = stopWord ++ ['>'] := rfl

/-- The characters an argument begins with. -/
theorem parameter_opening_chars :
    parameterOpening = '<' :: 'p' :: ['a', 'r', 'a', 'm', 'e', 't', 'e', 'r', '='] := rfl

/-- The characters an argument ends with. -/
theorem parameter_closing_chars :
    parameterClosing = '<' :: '/' :: 'p' :: ['a', 'r', 'a', 'm', 'e', 't', 'e', 'r', '>'] := rfl

/-- The characters between the name of a tool and its result. -/
theorem result_closing_chars : resultClosing = ']' :: [':', '\n'] := rfl

/-- The lines of the prompts that show how a call is written. -/
theorem lines_with_function : ["<function=example_function_name>", "<function=execute_bash>",
      "<function=str_replace_editor>", "<function=browser>", "<function=finish>",
      "<function=edit_file>"].all (fun line => functionOpening.isPrefixOf line.toList) = true ∧
    "bash".toList = 'b' :: ['a', 's', 'h'] := by
  decide +kernel

/-- A text with a line that shows how a call is written shows it. -/
theorem function_in_lines (line : String) {texts : List String} (member : line ∈ texts)
    (shown : line ∈ ["<function=example_function_name>", "<function=execute_bash>",
      "<function=str_replace_editor>", "<function=browser>", "<function=finish>",
      "<function=edit_file>"]) : functionOpening <:+: lines texts := by
  have begins := isPrefixOf_iff_prefix.mp (all_eq_true.mp lines_with_function.1 line shown)
  obtain ⟨front, back, rfl⟩ := append_of_mem member
  have whole : lines (front ++ line :: back) =
      lines front ++ line.toList ++ (['\n'] ++ lines back) := by
    simp [lines, flatMap_append]
  rw [whole]
  exact begins.isInfix.trans ⟨lines front, _, rfl⟩

/-- The end of the suffix shows how a call is written. -/
theorem function_in_suffix_end : functionOpening <:+: systemPromptSuffixEnd :=
  function_in_lines "<function=example_function_name>" (by simp) (by simp)

/-- A text without the beginning of a call holds no suffix. -/
theorem unmarked_of_opening (unmarked : Unmarked functionOpening text) :
    Unmarked (systemPromptSuffix description) text := by
  intro marker member
  have absent := unmarked functionOpening (by simp [markers])
  simp only [markers, mem_cons, not_mem_nil, or_false] at member
  rcases member with rfl | rfl | rfl | rfl | rfl | rfl | rfl
  case inr.inr.inr.inr.inl =>
    intro occurs
    have within : functionOpening <:+: systemPromptSuffix description :=
      function_in_suffix_end.trans (suffix_append _ systemPromptSuffixEnd).isInfix
    exact absent (within.trans occurs)
  all_goals exact unmarked _ (by simp [markers])

theorem suffix_removed (unmarked : Unmarked (systemPromptSuffix description) text) :
    firstPart (systemPromptSuffix description) (text ++ systemPromptSuffix description) = text := by
  have absent := unmarked functionOpening (by simp [markers])
  obtain ⟨rest, shape⟩ : ∃ rest, systemPromptSuffix description = '\n' :: rest := ⟨_, rfl⟩
  have within : functionOpening <:+: systemPromptSuffix description :=
    function_in_suffix_end.trans (suffix_append _ systemPromptSuffixEnd).isInfix
  have passes : Passes (systemPromptSuffix description) text (systemPromptSuffix description) := by
    rw [shape, function_opening_chars] at within
    rw [function_opening_chars] at absent
    rw [shape]
    exact passes_of_inner (by decide) within absent
  rw [firstPart, before_first_passes _ _ _ passes (prefix_refl _)]
  rfl

/-- Replacing keeps a front that has no character of what is replaced. -/
theorem replace_keeps_front (first : Char) (others replacement kept text : Text)
    (apart : ∀ char ∈ kept, char ∉ first :: others) (begins : kept <+: text) :
    kept <+: replaceFrom (first :: others) replacement 0 text := by
  induction kept generalizing text with
  | nil => exact nil_prefix
  | cons char rest ih =>
    obtain ⟨back, rfl⟩ := begins
    have differs : (first :: others).isPrefixOf (char :: rest ++ back) = false := by
      have unequal : first ≠ char := by
        rintro rfl
        exact apart first (.head _) (.head _)
      simp [isPrefixOf, unequal]
    rw [cons_append] at differs ⊢
    rw [replaceFrom, differs, if_neg Bool.false_ne_true, cons_prefix_cons]
    refine ⟨rfl, ih _ ?_ (prefix_append rest back)⟩
    intro other member
    exact apart other (.tail char member)

/-- A text that has no character of a front occurs behind it. -/
theorem infix_behind {front kept back : Text} (filled : kept ≠ [])
    (apart : ∀ char ∈ kept, char ∉ front) (occurs : kept <:+: front ++ back) :
    kept <:+: back := by
  induction front with
  | nil => exact occurs
  | cons char rest ih =>
    cases infix_cons_iff.mp occurs with
    | inl begins =>
      cases kept with
      | nil => exact absurd rfl filled
      | cons first others =>
        have same := (cons_prefix_cons.mp begins).1
        exact absurd (.head _) (same ▸ apart first (.head _))
    | inr later =>
      apply ih _ later
      intro other member present
      exact apart other member (.tail char present)

/-- Replacing keeps a text that has no character of what is replaced. -/
theorem replace_keeps (first : Char) (others replacement kept : Text) (skip : Nat) (text : Text)
    (filled : kept ≠ []) (apart : ∀ char ∈ kept, char ∉ first :: others)
    (occurs : kept <:+: text.drop skip) :
    kept <:+: replaceFrom (first :: others) replacement skip text := by
  induction text generalizing skip with
  | nil =>
    rw [drop_nil] at occurs
    exact absurd (infix_nil.mp occurs) filled
  | cons char rest ih =>
    cases skip with
    | succ skip => exact ih skip occurs
    | zero =>
      rw [drop_zero] at occurs
      by_cases found : first :: others <+: char :: rest
      · obtain ⟨back, whole⟩ := found
        have behind := infix_behind filled apart (whole ▸ occurs)
        rw [replaceFrom, if_pos (List.isPrefixOf_iff_prefix.mpr ⟨back, whole⟩)]
        have rests : others ++ back = rest := (cons.inj whole).2
        have later := ih others.length (by rwa [← rests, drop_left])
        exact later.trans (suffix_append _ _).isInfix
      · cases infix_cons_iff.mp occurs with
        | inl begins => exact (replace_keeps_front _ _ _ _ _ apart begins).isInfix
        | inr later =>
          rw [replaceFrom, if_neg (fun starts => found (List.isPrefixOf_iff_prefix.mp starts))]
          exact infix_cons_iff.mpr (.inr (ih 0 later))

/-- The parts for the tools that are available show how a call is written. -/
theorem function_in_parts
    (available : ["execute_bash", "str_replace_editor", "browser", "finish", "edit_file"].any
      (isAvailable tools) = true) : functionOpening <:+: exampleParts tools := by
  have before (part back : Text) (shown : functionOpening <:+: part) :
      functionOpening <:+: part ++ back := shown.trans (prefix_append part back).isInfix
  have behind (front part : Text) (shown : functionOpening <:+: part) :
      functionOpening <:+: front ++ part := shown.trans (suffix_append front part).isInfix
  have created : functionOpening <:+: strReplaceEditorCreateFile :=
    function_in_lines "<function=str_replace_editor>" (by simp) (by simp)
  simp only [any_cons, any_nil, Bool.or_false, Bool.or_eq_true] at available
  rw [exampleParts]
  rcases available with bash | editor | browser | finish | edit
  · have shown : functionOpening <:+: executeBashCheckDir :=
      function_in_lines "<function=execute_bash>" (by simp) (by simp)
    rw [if_pos bash]
    iterate 7 apply before
    exact shown
  · rw [if_pos editor]
    iterate 6 apply before
    apply behind
    exact created
  · have shown : functionOpening <:+: browserViewPage :=
      function_in_lines "<function=browser>" (by simp) (by simp)
    rw [if_pos browser]
    iterate 4 apply before
    apply behind
    exact shown
  · have shown : functionOpening <:+: finishExample :=
      function_in_lines "<function=finish>" (by simp) (by simp)
    rw [if_pos finish]
    apply behind
    exact shown
  · have shown : functionOpening <:+: editFileCreateFile :=
      function_in_lines "<function=edit_file>" (by simp) (by simp)
    rw [if_pos edit]
    iterate 6 apply before
    apply behind
    split
    · exact created
    · exact shown

/-- An example shows how a call is written. -/
theorem function_in_example (filled : getExampleForTools env tools ≠ []) :
    functionOpening <:+: getExampleForTools env tools := by
  unfold getExampleForTools at filled ⊢
  split
  case isFalse none => rw [if_neg none] at filled; exact absurd rfl filled
  case isTrue available =>
    have shown : functionOpening <:+: exampleStart ++ exampleParts tools ++ exampleEnd :=
      (function_in_parts _ available).trans ⟨exampleStart, exampleEnd, rfl⟩
    have unstripped : lstrip (exampleStart ++ exampleParts tools ++ exampleEnd) =
        exampleStart ++ exampleParts tools ++ exampleEnd := by
      obtain ⟨rest, shape⟩ : ∃ rest, exampleStart ++ exampleParts tools ++ exampleEnd =
          'H' :: rest := ⟨_, rfl⟩
      rw [shape, lstrip, dropWhile_cons_of_neg (by decide)]
    rw [unstripped, refinePrompt]
    split
    · rw [function_opening_chars] at shown ⊢
      rw [lines_with_function.2]
      exact replace_keeps 'b' _ _ _ 0 _ (by simp) (by simp) shown
    · exact shown

/-- The reminder repeats no front of itself but all up to its last line break. -/
theorem reminder_borders (length : Nat) (positive : 0 < length)
    (shorter : length < inContextLearningExampleSuffix.length)
    (border : inContextLearningExampleSuffix.drop length <+: inContextLearningExampleSuffix) :
    inContextLearningExampleSuffix.take length = inContextLearningExampleSuffix.dropLast := by
  have only : (range inContextLearningExampleSuffix.length).all (fun length =>
      length = 0 || !(inContextLearningExampleSuffix.drop length).isPrefixOf
        inContextLearningExampleSuffix || length = inContextLearningExampleSuffix.length - 1) =
      true := by decide +kernel
  have here := all_eq_true.mp only length (mem_range.mpr shorter)
  have begins := isPrefixOf_iff_prefix.mpr border
  simp only [Bool.or_eq_true, decide_eq_true_eq, begins, Bool.not_true, Bool.false_eq_true,
    or_false] at here
  rw [here.resolve_left (by omega), dropLast_eq_take]

/-- The reminder is removed behind a text without it, unless the text ends with all of
the reminder but its last line break. -/
theorem reminder_removed (absent : ¬ inContextLearningExampleSuffix <:+: text)
    (complete : ¬ inContextLearningExampleSuffix.dropLast <:+ text) :
    removeFirst inContextLearningExampleSuffix (text ++ inContextLearningExampleSuffix) = text := by
  have passes : Passes inContextLearningExampleSuffix text inContextLearningExampleSuffix := by
    apply passes_of_borders _ _ absent
    intro length positive shorter border
    rw [reminder_borders _ positive shorter border]
    exact complete
  rw [removeFirst, before_first_passes _ _ _ passes (prefix_refl _)]
  simp

/-- A text without markers is kept when it stands without an example. -/
theorem example_kept (suffix text : Text) (unmarked : Unmarked suffix text) :
    removeExample (getExampleForTools env tools) text = text := by
  have shortened : (if (getExampleForTools env tools).isPrefixOf text then
      removeFirst (getExampleForTools env tools) text else text) = text := by
    by_cases empty : getExampleForTools env tools = []
    · rw [empty]
      cases text with
      | nil => rfl
      | cons char rest => simp [removeFirst, beforeFirst]
    · have differs : ¬ (getExampleForTools env tools).isPrefixOf text = true := by
        intro begins
        apply unmarked functionOpening (by simp [markers])
        exact (function_in_example env _ empty).trans
          (List.isPrefixOf_iff_prefix.mp begins).isInfix
      rw [if_neg differs]
  have unended : ¬ inContextLearningExampleSuffix.isSuffixOf text = true := by
    intro ends
    apply unmarked inContextLearningExampleSuffix (by simp [markers])
    exact (isSuffixOf_iff_suffix.mp ends).isInfix
  rw [removeExample, shortened, if_neg unended]

/-- The example is removed before a text, and then the first reminder. -/
theorem example_before_removed (sample text : Text) :
    removeExample sample (sample ++ text ++ inContextLearningExampleSuffix) =
      removeFirst inContextLearningExampleSuffix (text ++ inContextLearningExampleSuffix) := by
  have begins : sample.isPrefixOf (sample ++ text ++ inContextLearningExampleSuffix) = true := by
    rw [append_assoc]
    exact isPrefixOf_iff_prefix.mpr (prefix_append sample _)
  have shortened : removeFirst sample (sample ++ text ++ inContextLearningExampleSuffix) =
      text ++ inContextLearningExampleSuffix := by
    rw [append_assoc, removeFirst,
      show beforeFirst sample (sample ++ (text ++ inContextLearningExampleSuffix)) = some [] from
        before_first_passes _ [] _ trivial (prefix_append sample _)]
    simp
  have ends : inContextLearningExampleSuffix.isSuffixOf
      (text ++ inContextLearningExampleSuffix) = true :=
    isSuffixOf_iff_suffix.mpr (suffix_append text _)
  rw [removeExample, if_pos begins, shortened, if_pos ends]

theorem example_removed (sample suffix text : Text) (unmarked : Unmarked suffix text)
    (complete : ¬ inContextLearningExampleSuffix.dropLast <:+ text) :
    removeExample sample (sample ++ text ++ inContextLearningExampleSuffix) = text := by
  rw [example_before_removed]
  exact reminder_removed _ (unmarked _ (by simp [markers])) complete

/-- A text begins with no needle that goes on with another second character. -/
theorem second_differs (start second other : Char) (rest others : Text) (differs : second ≠ other) :
    ¬ start :: second :: rest <+: start :: other :: others := by
  intro begins
  exact differs (cons_prefix_cons.mp (cons_prefix_cons.mp begins).2).1

/-- No end of a call begins in an argument. -/
theorem tag_passes_end (name value rest : Text) (named : ParameterName name)
    (absent : ¬ stopWord <:+: value) :
    Passes functionClosing (parameterTag name value ++ ['\n']) rest := by
  have longer : ¬ functionClosing <:+: value := by
    intro occurs
    rw [function_closing_stop] at occurs
    exact absent ((prefix_append stopWord ['>']).isInfix.trans occurs)
  rw [function_closing_chars] at longer
  simp only [parameterTag, passes_append, append_assoc]
  refine ⟨?_, ?_, ?_, ?_, ?_, ?_⟩
  · rw [function_closing_chars, parameter_opening_chars]
    exact ⟨second_differs '<' '/' 'p' _ _ (by decide), passes_of_not_mem _ _ _ (by decide)⟩
  · rw [function_closing_stop]
    exact passes_to_bound _ _ _ '>' (by simp [stopWord]) named.unclosed named.unfinished
  · rw [function_closing_chars]
    exact passes_of_not_mem _ _ _ (by decide)
  · rw [function_closing_chars, parameter_closing_chars]
    exact passes_of_absent _ _ _ (by decide) longer
  · rw [function_closing_chars, parameter_closing_chars]
    refine ⟨?_, passes_of_not_mem _ _ _ (by decide)⟩
    intro begins
    exact second_differs '/' 'f' 'p' _ _ (by decide) (cons_prefix_cons.mp begins).2
  · rw [function_closing_chars]
    exact passes_of_not_mem _ _ _ (by decide)

/-- An argument behind its first character. -/
theorem tag_cons (name value : Text) :
    parameterTag name value = '<' :: (parameterOpening.tail ++ (name ++ (['>'] ++
      (value ++ parameterClosing)))) := by
  simp [parameterTag, parameter_opening_chars]

/-- No argument begins in another behind its start. -/
theorem tag_passes_parameter (name value rest : Text) (named : ParameterName name)
    (absent : ¬ parameterOpening <:+: value) :
    Passes parameterOpening (parameterOpening.tail ++ (name ++ (['>'] ++
      (value ++ parameterClosing))) ++ ['\n']) rest := by
  have nameless : ¬ parameterOpening <:+: name := by
    intro occurs
    exact named.unequal (occurs.subset (by simp [parameter_opening_chars]))
  rw [parameter_opening_chars] at absent nameless
  simp only [passes_append, append_assoc]
  rw [parameter_opening_chars]
  refine ⟨?_, ?_, ?_, ?_, ?_, ?_⟩
  · exact passes_of_not_mem _ _ _ (by decide)
  · exact passes_of_absent _ _ _ (by decide) nameless
  · exact passes_of_not_mem _ _ _ (by decide)
  · rw [parameter_closing_chars]
    exact passes_of_absent _ _ _ (by decide) absent
  · rw [parameter_closing_chars]
    exact ⟨second_differs '<' 'p' '/' _ _ (by decide), passes_of_not_mem _ _ _ (by decide)⟩
  · exact passes_of_not_mem _ _ _ (by decide)

/-- An argument whose name is closed is not malformed. -/
theorem tag_not_malformed (name value rest : Text) (named : ParameterName name) :
    matchAt malformedPattern (parameterTag name value ++ rest) = none := by
  have shape : parameterTag name value ++ rest = parameterOpening ++
      (name ++ '>' :: (value ++ parameterClosing ++ rest)) := by
    simp [parameterTag]
  rw [shape, malformedPattern, match_exactly]
  apply match_most_none
  intro run left whole accepted enough
  apply match_exactly_none
  rintro ⟨back, rfl⟩
  -- the run ends before the end of the name, at it, or behind it
  cases append_eq_append_iff.mp whole with
  | inl behind =>
    obtain ⟨middle, longer, shape⟩ := behind
    cases middle with
    | nil => simp at shape
    | cons char more =>
      have closed : '>' = char := (cons.inj shape).1
      have refused := accepted char (longer ▸ mem_append_right name (.head _))
      rw [← closed] at refused
      cases refused
  | inr before =>
    obtain ⟨middle, shorter, shape⟩ := before
    cases middle with
    | nil => simp at shape
    | cons char more =>
      have equal : '=' = char := (cons.inj shape).1
      exact named.unequal (shorter ▸ mem_append_right run (equal ▸ (.head _)))

theorem tag_matches (name value rest : Text) (filled : name ≠ []) (unclosed : '>' ∉ name)
    (absent : ¬ parameterClosing <:+: value) :
    matchAt parameterPattern (parameterTag name value ++ rest) = some ([name, value], rest) := by
  have shape : parameterTag name value ++ rest = parameterOpening ++
      (name ++ (['>'] ++ (value ++ (parameterClosing ++ rest)))) := by
    simp [parameterTag]
  rw [shape, parameterPattern, match_exactly]
  apply match_most _ _ _ ([value], rest)
  · intro char member
    have other : char ≠ '>' := fun same => unclosed (same ▸ member)
    simpa using other
  · exact length_pos_iff.mpr filled
  · intro char member
    obtain rfl : '>' = char := by simpa using member
    rfl
  · rw [match_exactly]
    apply match_fewest _ _ ([], rest)
    · rw [parameter_closing_chars] at absent ⊢
      exact passes_of_absent _ _ _ (by decide) absent
    · rw [match_exactly, match_nil]

section Arguments

variable {env : Environment} {suffix : Text} {values : List (String × Value)}

/-- The arguments of a call can be carried. -/
structure Carried (environment : Environment) (suffix : Text)
    (values : List (String × Value)) : Prop where
  named : ∀ argument ∈ values, ParameterName argument.1.toList
  unmarked : ∀ argument ∈ values, Unmarked suffix (argumentText environment argument.2)

/-- The arguments behind the first can be carried. -/
theorem Carried.rest {argument : String × Value}
    (carried : Carried env suffix (argument :: values)) :
    Carried env suffix values where
  named other member := carried.named other (.tail argument member)
  unmarked other member := carried.unmarked other (.tail argument member)

/-- The first argument stands on its line before the others. -/
theorem parameter_tags_cons (argument : String × Value) : parameterTags env (argument :: values) =
      parameterTag argument.1.toList (argumentText env argument.2) ++ ['\n'] ++
        parameterTags env values := by
  rw [parameterTags, flatMap_cons]
  rfl

section

variable (carried : Carried env suffix values)
include carried

/-- No end of a call begins in its arguments. -/
theorem Carried.tags_pass_end (rest : Text) :
    Passes functionClosing (parameterTags env values) rest := by
  induction values with
  | nil => exact trivial
  | cons argument others ih =>
    rw [parameter_tags_cons, passes_append]
    refine ⟨?_, ih carried.rest⟩
    apply tag_passes_end _ _ _ (carried.named argument (.head _))
    exact carried.unmarked argument (.head _) stopWord (by simp [markers])

/-- The arguments of a call are not rewritten. -/
theorem Carried.tags_normal : normalizeParameterTags (parameterTags env values) =
      parameterTags env values := by
  induction values with
  | nil => rfl
  | cons argument others ih =>
    have named := carried.named argument (.head _)
    have kept := ih carried.rest
    have passes := tag_passes_parameter argument.1.toList (argumentText env argument.2)
      (parameterTags env others) named
      (carried.unmarked argument (.head _) parameterOpening (by simp [markers]))
    have closed := tag_not_malformed argument.1.toList (argumentText env argument.2)
      (['\n'] ++ parameterTags env others) named
    rw [normalizeParameterTags] at kept ⊢
    rw [parameter_tags_cons, append_assoc]
    rw [tag_cons, cons_append] at closed ⊢
    rw [substitute_none _ _ closed, ← append_assoc]
    rw [malformedPattern] at kept ⊢
    rw [substitute_passes _ _ _ _ _ passes, kept]

theorem Carried.tags_found : findAll parameterPattern 0 (parameterTags env values) =
      values.map (fun argument => [argument.1.toList, argumentText env argument.2]) := by
  induction values with
  | nil => rfl
  | cons argument others ih =>
    have named := carried.named argument (.head _)
    have matched := tag_matches argument.1.toList (argumentText env argument.2)
      (['\n'] ++ parameterTags env others) named.filled named.unclosed
      (carried.unmarked argument (.head _) parameterClosing (by simp [markers]))
    have passes : Passes parameterOpening ['\n'] (parameterTags env others) := by
      rw [parameter_opening_chars]
      exact passes_of_not_mem _ _ _ (by decide)
    rw [parameter_tags_cons, append_assoc,
      find_all_match _ _ _ (by simp [tag_cons]) matched, map_cons]
    congr 1
    rw [← ih carried.rest, parameterPattern]
    exact find_all_passes _ _ _ _ passes

/-- A call is found behind a text in which none begins. -/
theorem Carried.call_found (lead name extra : Text) (named : FunctionName name)
    (passes : Passes functionOpening lead (callText name (parameterTags env values) ++ extra)) :
    search functionPattern (lead ++ (callText name (parameterTags env values) ++ extra)) =
      some [name, parameterTags env values] := by
  have shape : callText name (parameterTags env values) ++ extra =
      functionOpening ++ (name ++ (['>', '\n'] ++ (parameterTags env values ++
        (functionClosing ++ extra)))) := by
    simp [callText]
  rw [functionPattern, search_passes _ passes]
  apply search_of_match _ _ ([name, parameterTags env values], extra)
  rw [shape, match_exactly]
  apply match_most _ _ _ ([parameterTags env values], extra)
  · intro char member
    have other : char ≠ '>' := fun same => named.unclosed (same ▸ member)
    simpa using other
  · exact length_pos_iff.mpr named.filled
  · intro char member
    obtain rfl : '>' = char := by simpa using member
    rfl
  · rw [match_exactly]
    apply match_fewest _ _ ([], extra)
    · exact carried.tags_pass_end _
    · rw [match_exactly, match_nil]

end

end Arguments

/-- A call with its end may only get another end. -/
theorem fix_stopword_ended (front : Text) :
    ∃ extra, fixStopword (front ++ functionClosing) = front ++ functionClosing ++ extra := by
  have ended : ¬ ['<', '/'].isSuffixOf (front ++ functionClosing) = true := by
    intro ends
    obtain ⟨others, whole⟩ := isSuffixOf_iff_suffix.mp ends
    have last := congrArg getLast? whole
    rw [function_closing_chars] at last
    simp at last
  rw [fixStopword]
  split
  · exact ⟨_, rfl⟩
  · exact ⟨[], (append_nil _).symm⟩

/-- Without a call nothing is fixed. -/
theorem fix_stopword_absent (absent : ¬ functionOpening <:+: text) : fixStopword text = text := by
  have missing : occursIn functionOpening text = false := by
    rw [← Bool.not_eq_true, occurs_in_iff]
    rintro ⟨position, begins⟩
    exact absent (begins.isInfix.trans (drop_suffix position text).isInfix)
  simp [fixStopword, missing]

/-- What stands before a call: the text and two line breaks, or nothing. -/
def lead (text : Text) : Text := if text = [] then [] else text ++ ['\n', '\n']

/-- A call is written behind the text and two line breaks, or behind nothing. -/
theorem lstrip_call (rest : Text) (trimmed : Trimmed text) :
    lstrip (text ++ ['\n', '\n'] ++ (functionOpening ++ rest)) =
      lead text ++ (functionOpening ++ rest) := by
  cases text with
  | nil =>
    rw [function_opening_chars]
    rfl
  | cons char others =>
    rw [lead, if_neg (cons_ne_nil _ _)]
    exact lstrip_eq _ trimmed.1

/-- No call begins before the call. -/
theorem lead_passes (suffix text rest : Text) (unmarked : Unmarked suffix text) :
    Passes functionOpening (lead text) rest := by
  have absent := unmarked functionOpening (by simp [markers])
  rw [function_opening_chars] at absent ⊢
  rw [lead]
  split
  · exact trivial
  · rw [passes_append]
    exact ⟨passes_of_absent _ _ _ (by decide) absent, passes_of_not_mem _ _ _ (by decide)⟩

/-- The text before a call is the text. -/
theorem strip_lead (trimmed : Trimmed text) : strip (lead text) = text := by
  cases text with
  | nil => rfl
  | cons char others =>
    rw [lead, if_neg (cons_ne_nil _ _), strip, lstrip_eq (char :: others ++ _) trimmed.1,
      rstrip_blank _ (by simp [Blank]; decide)]
    exact rstrip_eq _ trimmed.2

/-- A digit of ASCII has the value that its code point tells. -/
theorem digit_value_ascii {digit : Char} (decimal : digit.isDigit = true) :
    digitValue digit = some (digit.toNat - '0'.toNat) := by
  have codes : '0'.val.toNat = 48 ∧ '9'.val.toNat = 57 := by decide
  simp only [Char.isDigit, Bool.and_eq_true, decide_eq_true_eq, ge_iff_le,
    UInt32.le_iff_toNat_le] at decimal
  have first : isDigitFrom digit '0'.toNat = true := by
    simp only [isDigitFrom, Bool.and_eq_true, decide_eq_true_eq, Char.toNat]
    omega
  rw [digitValue, find?_cons_of_pos first]
  rfl

/-- Digits are read as the number they write. -/
theorem digits_from_digits (total : Nat) (digits : Text)
    (all : ∀ char ∈ digits, char.isDigit = true) :
    digitsFrom total digits = some (Nat.ofDigitChars 10 digits total) := by
  induction digits generalizing total with
  | nil => rfl
  | cons digit rest ih =>
    have here := digit_value_ascii (all digit (.head _))
    have later := ih (total * 10 + (digit.toNat - '0'.toNat))
      (fun other member => all other (.tail digit member))
    unfold digitsFrom
    split
    case h_1 => simp_all
    case h_2 same =>
      cases same
      exact absurd (all '_' (.head _)) (by decide)
    case h_3 same =>
      cases same
      rw [here]
      show digitsFrom (total * 10 + (digit.toNat - '0'.toNat)) rest = _
      rw [later, Nat.ofDigitChars_cons, Nat.mul_comm]

theorem repr_digits (number : Nat) (char : Char) (member : char ∈ Nat.toDigits 10 number) :
    char.isDigit = true :=
  Nat.isDigit_of_mem_toDigits (by decide) (by decide) member

theorem natural_digits (number : Nat) : natural (Nat.toDigits 10 number) = some number := by
  have written := @Nat.ofDigitChars_ten_toDigits number
  cases shape : Nat.toDigits 10 number with
  | nil => exact absurd shape (by simp)
  | cons digit rest =>
    have all (char : Char) (member : char ∈ digit :: rest) : char.isDigit = true :=
      repr_digits _ _ (shape ▸ member)
    rw [shape, Nat.ofDigitChars_cons, Nat.mul_zero, Nat.zero_add] at written
    rw [natural, digit_value_ascii (all digit (.head _)), Option.bind_some,
      digits_from_digits, written]
    intro char member
    exact all char (.tail digit member)

/-- A digit is no whitespace. -/
theorem digit_visible {char : Char} (digit : char.isDigit = true) : isSpace char = false := by
  have codes : '0'.val.toNat = 48 ∧ '9'.val.toNat = 57 := by decide
  simp only [Char.isDigit, Bool.and_eq_true, decide_eq_true_eq, ge_iff_le,
    UInt32.le_iff_toNat_le] at digit
  simp only [isSpace, Char.toNat, Bool.or_eq_false_iff, Bool.and_eq_false_iff,
    decide_eq_false_iff_not, beq_eq_false_iff_ne]
  omega

/-- A sign before digits, or no sign, is trimmed. -/
theorem digits_trimmed (sign : Text) (number : Nat)
    (visible : ∀ char ∈ sign, isSpace char = false) :
    Trimmed (sign ++ Nat.toDigits 10 number) := by
  have all (char : Char) (member : char ∈ sign ++ Nat.toDigits 10 number) :
      isSpace char = false := by
    cases mem_append.mp member with
    | inl front => exact visible char front
    | inr digit => exact digit_visible (repr_digits _ _ digit)
  exact ⟨fun char member => all char (mem_of_mem_head? member),
    fun char member => all char (mem_of_mem_getLast? member)⟩

/-- Digits and their signs are no separators. -/
theorem digits_unseparated (sign : Text) (number : Nat)
    (visible : ∀ char ∈ sign, isSpace char = false) :
    (sign ++ Nat.toDigits 10 number).any isSeparator = false := by
  rw [any_eq_false]
  intro char member separator
  have apart : isSpace char = false := by
    cases mem_append.mp member with
    | inl front => exact visible char front
    | inr digit => exact digit_visible (repr_digits _ _ digit)
  simp only [isSeparator, Bool.and_eq_true, decide_eq_true_eq] at separator
  simp only [isSpace, Bool.or_eq_false_iff, Bool.and_eq_false_iff, decide_eq_false_iff_not,
    beq_eq_false_iff_ne] at apart
  omega

theorem read_integer_printed (value : Int) : readInteger (toString value).toList = some value := by
  cases value with
  | ofNat number =>
    have shape : (toString (Int.ofNat number)).toList = Nat.toDigits 10 number := Nat.toList_repr
    have trimmed := strip_trimmed _ (digits_trimmed [] number (by simp))
    rw [nil_append] at trimmed
    have whole := digits_unseparated [] number (by simp)
    rw [nil_append] at whole
    rw [shape, readInteger, if_neg (by simp [whole]), trimmed]
    split
    case h_1 rest sign => exact absurd (repr_digits number '-' (sign ▸ (.head _))) (by decide)
    case h_2 rest sign => exact absurd (repr_digits number '+' (sign ▸ (.head _))) (by decide)
    case h_3 => rw [natural_digits]; rfl
  | negSucc number =>
    have shape : (toString (Int.negSucc number)).toList =
        ['-'] ++ Nat.toDigits 10 (number + 1) := by
      show ("-" ++ (number + 1).repr).toList = _
      rw [String.toList_append, Nat.toList_repr]
      rfl
    have whole := digits_unseparated ['-'] (number + 1) (by simp [isSpace])
    rw [shape, readInteger, if_neg (by simp only [whole, Bool.false_eq_true, not_false_eq_true]),
      strip_trimmed _ (digits_trimmed _ _ (by simp [isSpace]))]
    simp only [cons_append, nil_append, natural_digits]
    rfl

end ForgePilot.FnCalls
