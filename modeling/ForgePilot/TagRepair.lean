import ForgePilot.FnCallTexts

/-!
# Repair of malformed tags

A model sometimes leaves the name of an argument open. Before the arguments of a call are read, such tags are
closed. The repair runs over the whole body of a call, so it also finds a malformed tag that stands inside the
name or the value of an argument that was written correctly.
-/

namespace ForgePilot.TagRepair

open FnCalls Patterns List

/-- An argument whose name is not closed. -/
def malformedTag (name value : Text) : Text :=
  parameterOpening ++ name ++ ['='] ++ value ++ parameterClosing

/-- What the repair takes for the name and the value of a malformed argument. -/
structure Malformed (name value : Text) : Prop where
  filled : name ≠ []
  identifier : ∀ character ∈ name, isIdentifier character = true
  unopened : '<' ∉ value

/-- A malformed argument occurs in a text. -/
def HasMalformedTag (text : Text) : Prop :=
  ∃ front name value back, Malformed name value ∧ text = front ++ (malformedTag name value ++ back)

/-! ## What the repair finds -/

variable (front : Text) (char : Char) (text : Text) (captures : List Text)
  (name value rest : Text)

theorem malformed_match (malformed : Malformed name value) :
    matchAt malformedPattern (malformedTag name value ++ rest) = some ([name, value], rest) := by
  have shape : malformedTag name value ++ rest =
      parameterOpening ++ (name ++ (['='] ++ (value ++ (parameterClosing ++ rest)))) := by
    simp [malformedTag]
  rw [shape, malformedPattern, match_exactly]
  apply match_most _ _ _ ([value], rest)
  · exact malformed.identifier
  · exact length_pos_iff.mpr malformed.filled
  · intro char member
    obtain rfl : '=' = char := by simpa using member
    rfl
  · rw [match_exactly]
    apply match_most _ _ _ ([], rest)
    · intro char member
      have other : char ≠ '<' := fun same => malformed.unopened (same ▸ member)
      simpa using other
    · exact Nat.zero_le _
    · intro char member
      rw [parameter_closing_chars] at member
      obtain rfl : '<' = char := by simpa using member
      rfl
    · rw [match_exactly, match_nil]

theorem malformed_of_match {text : Text} {captures : List Text} {rest : Text}
    (here : matchAt malformedPattern text = some (captures, rest)) :
    ∃ name value, Malformed name value ∧ captures = [name, value] ∧ text = malformedTag name value ++ rest := by
  rw [malformedPattern] at here
  obtain ⟨behindOpening, opened, atName⟩ := match_exactly_some here
  obtain ⟨name, behindName, _, named, identifier, filled, atEqual, found⟩ := match_most_some atName
  obtain ⟨behindEqual, equalled, atValue⟩ := match_exactly_some atEqual
  obtain ⟨value, behindValue, _, valued, unopened, -, atClosing, rfl⟩ := match_most_some atValue
  obtain ⟨behind, closed, atEnd⟩ := match_exactly_some atClosing
  rw [match_nil] at atEnd
  cases atEnd
  cases found
  subst opened named equalled valued closed
  refine ⟨name, value, ⟨length_pos_iff.mp filled, identifier, ?_⟩, rfl, by simp [malformedTag]⟩
  intro listed
  simpa using unopened '<' listed

/-- An argument behind its first character, up to its end. -/
theorem malformed_cons :
    malformedTag name value = '<' :: (parameterOpening.tail ++ (name ++ '=' :: value) ++ parameterClosing) := by
  simp [malformedTag, parameter_opening_chars]

theorem identifier_unopened (identifier : ∀ char ∈ name, isIdentifier char = true) :
    '<' ∉ name ∧ '>' ∉ name ∧ '=' ∉ name := by
  refine ⟨?_, ?_, ?_⟩ <;>
  · intro listed
    exact absurd (identifier _ listed) (by decide)

theorem Malformed.inner {name value : Text} (malformed : Malformed name value) (bound : Char)
    (foreign : bound ≠ '<') : '<' ∉ parameterOpening.tail ++ (name ++ bound :: value) := by
  simp only [mem_append, mem_cons, not_or]
  exact ⟨by decide, (identifier_unopened _ malformed.identifier).1, fun same => foreign same.symm,
    malformed.unopened⟩

/-! ## The repair along a text -/

theorem normalize_match (malformed : Malformed name value) :
    normalizeParameterTags (malformedTag name value ++ rest) =
      parameterTag name value ++ normalizeParameterTags rest := by
  rw [normalizeParameterTags, substitute_match _ (by simp [malformed_cons])
    (malformed_match _ _ _ malformed)]
  rfl

theorem normalize_none {char : Char} {rest : Text}
    (nothing : matchAt malformedPattern (char :: rest) = none) :
    normalizeParameterTags (char :: rest) = char :: normalizeParameterTags rest :=
  substitute_none _ _ nothing

theorem no_match (other : ¬ parameterOpening <+: char :: rest) :
    matchAt malformedPattern (char :: rest) = none :=
  match_exactly_none _ other

/-- What stands before a tag is kept. -/
theorem normalize_unopened (unopened : '<' ∉ front) :
    normalizeParameterTags (front ++ rest) = front ++ normalizeParameterTags rest := by
  rw [normalizeParameterTags, malformedPattern]
  refine substitute_passes _ _ _ _ _ ?_
  rw [parameter_opening_chars]
  exact passes_of_not_mem _ _ _ unopened

theorem normalize_closing :
    normalizeParameterTags (parameterClosing ++ rest) = parameterClosing ++ normalizeParameterTags rest := by
  rw [parameter_closing_chars, cons_append, normalize_none, cons_append]
  · exact congrArg ('<' :: ·) (normalize_unopened parameterClosing.tail rest (by decide))
  · refine no_match _ _ ?_
    rw [parameter_opening_chars]
    exact second_differs '<' 'p' '/' _ _ (by decide)

/-- A text is empty, begins with a malformed tag, or begins with a character that is kept. -/
theorem normalize_cases : text = [] ∨
      (∃ name value rest, Malformed name value ∧ text = malformedTag name value ++ rest ∧
        normalizeParameterTags text = parameterTag name value ++ normalizeParameterTags rest) ∨
      ∃ char rest, text = char :: rest ∧ matchAt malformedPattern text = none ∧
        normalizeParameterTags text = char :: normalizeParameterTags rest := by
  cases text with
  | nil => exact .inl rfl
  | cons char rest =>
    refine .inr ?_
    cases here : matchAt malformedPattern (char :: rest) with
    | none => exact .inr ⟨char, rest, rfl, rfl, normalize_none here⟩
    | some found =>
      obtain ⟨name, value, malformed, -, shape⟩ := malformed_of_match here
      refine .inl ⟨name, value, found.2, malformed, shape, ?_⟩
      rw [shape]
      exact normalize_match _ _ _ malformed

/-- Up to the next tag, a repaired text begins like the text itself. -/
theorem normalize_front (unopened : '<' ∉ front) :
    front <+: normalizeParameterTags text ↔ front <+: text := by
  induction front generalizing text with
  | nil => simp
  | cons char front ih =>
    have apart := not_or.mp (mt mem_cons.mpr unopened)
    rcases normalize_cases text with rfl | ⟨name, value, rest, -, rfl, same⟩ | ⟨first, rest, rfl, -, same⟩
    · rfl
    · rw [same, tag_cons, malformed_cons]
      simp only [cons_append, cons_prefix_cons]
      exact iff_of_false (fun begins => apart.1 begins.1.symm) (fun begins => apart.1 begins.1.symm)
    · rw [same, cons_prefix_cons, cons_prefix_cons, ih rest apart.2]

/-- A repaired text begins with the end of an argument where the text itself does. -/
theorem normalize_front_closing :
    parameterClosing <+: normalizeParameterTags text ↔ parameterClosing <+: text := by
  rcases normalize_cases text with rfl | ⟨name, value, rest, -, rfl, same⟩ | ⟨first, rest, rfl, -, same⟩
  · rfl
  · rw [same, tag_cons, malformed_cons, parameter_closing_chars, parameter_opening_chars]
    exact iff_of_false (second_differs '<' '/' 'p' _ _ (by decide)) (second_differs '<' '/' 'p' _ _ (by decide))
  · rw [same, parameter_closing_chars, cons_prefix_cons, cons_prefix_cons]
    exact and_congr_right fun _ => normalize_front _ _ (by decide)

theorem no_new_match (nothing : matchAt malformedPattern (char :: rest) = none) :
    matchAt malformedPattern (char :: normalizeParameterTags rest) = none := by
  cases here : matchAt malformedPattern (char :: normalizeParameterTags rest) with
  | none => rfl
  | some found =>
    obtain ⟨name, value, malformed, -, shape⟩ := malformed_of_match here
    rw [malformed_cons, cons_append] at shape
    obtain ⟨rfl, inner⟩ := cons.inj shape
    rw [append_assoc] at inner
    have unopened := malformed.inner '=' (by decide)
    obtain ⟨behind, rfl⟩ := (normalize_front _ _ unopened).mp ⟨_, inner.symm⟩
    rw [normalize_unopened _ _ unopened] at inner
    obtain ⟨left, rfl⟩ := (normalize_front_closing ..).mp ⟨_, (append_cancel_left inner).symm⟩
    have match_ := malformed_match name _ left malformed
    rw [malformed_cons, cons_append, append_assoc] at match_
    rw [match_] at nothing
    cases nothing

/-- Two runs of accepted characters in one text are stopped by the same character. -/
theorem same_stop (accepts : Char → Bool) (first second rest others : Text) (stop other : Char)
    (firstRun : ∀ char ∈ first, accepts char = true)
    (secondRun : ∀ char ∈ second, accepts char = true)
    (stops : accepts stop = false) (alsoStops : accepts other = false)
    (same : first ++ stop :: rest = second ++ other :: others) : stop = other := by
  induction first generalizing second with
  | nil =>
    cases second with
    | nil => exact (cons.inj same).1
    | cons char more =>
      have accepted := secondRun char (.head _)
      rw [← (cons.inj same).1, stops] at accepted
      cases accepted
  | cons char more ih =>
    cases second with
    | nil =>
      have accepted := firstRun char (.head _)
      rw [(cons.inj same).1, alsoStops] at accepted
      cases accepted
    | cons _ evenMore =>
      exact ih evenMore (fun other listed => firstRun other (.tail _ listed))
        (fun other listed => secondRun other (.tail _ listed)) (cons.inj same).2

/-- A closed tag is no malformed one, and none begins in it. -/
theorem normalize_tag_closed (malformed : Malformed name value) :
    normalizeParameterTags (parameterTag name value ++ rest) =
      parameterTag name value ++ normalizeParameterTags rest := by
  have shape : parameterTag name value =
      '<' :: (parameterOpening.tail ++ (name ++ '>' :: value) ++ parameterClosing) := by
    simp [parameterTag, parameter_opening_chars]
  have unopened := malformed.inner '>' (by decide)
  have nothing : matchAt malformedPattern ('<' :: (parameterOpening.tail ++ (name ++ '>' :: value) ++
      parameterClosing ++ rest)) = none := by
    cases here : matchAt malformedPattern ('<' :: (parameterOpening.tail ++ (name ++ '>' :: value) ++
      parameterClosing ++ rest)) with
    | none => rfl
    | some found =>
      obtain ⟨otherName, otherValue, other, -, whole⟩ := malformed_of_match here
      rw [malformed_cons, cons_append] at whole
      have inner : parameterOpening.tail ++ (name ++ '>' :: value) =
          parameterOpening.tail ++ (otherName ++ '=' :: otherValue) :=
        front_unique unopened
          (other.inner '=' (by decide)) (by simpa [parameter_closing_chars] using whole)
      have stops := same_stop _ _ _ _ _ '>' '=' malformed.identifier
        other.identifier (by decide) (by decide) (append_cancel_left inner)
      cases stops
  rw [shape, cons_append, normalize_none nothing, append_assoc _ parameterClosing rest,
    normalize_unopened _ _ unopened, normalize_closing, cons_append,
    append_assoc _ parameterClosing (normalizeParameterTags rest)]

/-- Repairing twice is repairing once. -/
theorem normalize_idempotent :
    normalizeParameterTags (normalizeParameterTags text) = normalizeParameterTags text := by
  induction length : text.length using Nat.strong_induction_on generalizing text with
  | _ number ih =>
    rcases normalize_cases text with rfl | ⟨name, value, rest, malformed, rfl, same⟩ |
      ⟨char, rest, rfl, nothing, same⟩
    · rfl
    · rw [same, normalize_tag_closed _ _ _ malformed,
        ih rest.length (by rw [← length, malformed_cons]; simp; omega) rest rfl]
    · rw [same, normalize_none (no_new_match _ _ nothing),
        ih rest.length (by rw [← length]; simp) rest rfl]

/-! ## One argument -/

/-- A malformed tag that begins before the end of an argument ends there or earlier. -/
theorem match_inside {text rest left : Text} {captures : List Text} (filled : text ≠ [])
    (here : matchAt malformedPattern (text ++ (parameterClosing ++ rest)) = some (captures, left)) :
    ∃ name value back, Malformed name value ∧ text ++ parameterClosing = malformedTag name value ++ back := by
  obtain ⟨name, value, malformed, -, shape⟩ := malformed_of_match here
  have inner := malformed.inner '=' (by decide)
  cases text with
  | nil => exact absurd rfl filled
  | cons char more =>
    rw [malformed_cons, cons_append, cons_append] at shape
    obtain ⟨rfl, whole⟩ := cons.inj shape
    by_cases opened : '<' ∈ more
    · obtain ⟨front, behind, rfl, unopened⟩ := eq_append_cons_of_mem opened
      have same : front = parameterOpening.tail ++ (name ++ '=' :: value) := front_unique unopened
          inner (by simpa [parameter_closing_chars] using whole)
      subst same
      have ends : '<' :: behind ++ parameterClosing ++ rest = parameterClosing ++ left := by
        have cut := whole
        rw [append_assoc, append_assoc _ parameterClosing left] at cut
        simpa using append_cancel_left cut
      obtain ⟨back, split⟩ : parameterClosing <+: '<' :: behind ++ parameterClosing :=
        prefix_of_prefix_length_le (ends ▸ prefix_append _ _) (prefix_append _ rest)
          (by rw [length_append]; omega)
      refine ⟨name, value, back, malformed, ?_⟩
      rw [malformed_cons, cons_append, cons_append, append_assoc, ← split, ← append_assoc]
    · have same : more = parameterOpening.tail ++ (name ++ '=' :: value) :=
        front_unique opened inner
          (by simpa [parameter_closing_chars] using whole)
      exact ⟨name, value, [], malformed, by rw [malformed_cons, same, append_nil, cons_append]⟩

theorem closing_not_malformed : ¬ HasMalformedTag parameterClosing := by
  rintro ⟨front, name, value, back, malformed, whole⟩
  have lengths := congrArg length whole
  simp [malformedTag, parameter_opening_chars, parameter_closing_chars] at lengths
  omega

/-- An argument is kept unless a malformed tag occurs in it, and then the first one is closed. -/
theorem normalize_argument : (¬ HasMalformedTag (text ++ parameterClosing) ∧
      normalizeParameterTags (text ++ (parameterClosing ++ rest)) =
        text ++ (parameterClosing ++ normalizeParameterTags rest)) ∨
    ∃ front name value back behind, Malformed name value ∧
      text ++ parameterClosing = front ++ (malformedTag name value ++ back) ∧
      normalizeParameterTags (text ++ (parameterClosing ++ rest)) =
        front ++ (parameterTag name value ++ behind) := by
  induction text with
  | nil => exact .inl ⟨closing_not_malformed, normalize_closing _⟩
  | cons char more ih =>
    cases here : matchAt malformedPattern (char :: more ++ (parameterClosing ++ rest)) with
    | some found =>
      obtain ⟨name, value, back, malformed, whole⟩ := match_inside (by simp) here
      refine .inr ⟨[], name, value, back, normalizeParameterTags (back ++ rest), malformed, whole, ?_⟩
      rw [← append_assoc, whole, append_assoc, normalize_match _ _ _ malformed]
      rfl
    | none =>
      have kept := normalize_none here
      rcases ih with ⟨clean, same⟩ | ⟨front, name, value, back, behind, malformed, whole, same⟩
      · refine .inl ⟨?_, ?_⟩
        · rintro ⟨front, name, value, back, malformed, whole⟩
          cases front with
          | nil =>
            have begins := malformed_match name value (back ++ rest) malformed
            rw [← append_assoc (malformedTag name value), ← nil_append (malformedTag name value),
              append_assoc [], ← whole, append_assoc] at begins
            rw [begins] at here
            cases here
          | cons first front =>
            exact clean ⟨front, name, value, back, malformed, (cons.inj whole).2⟩
        · exact kept.trans (congrArg (char :: ·) same)
      · exact .inr ⟨char :: front, name, value, back, behind, malformed,
          congrArg (char :: ·) whole, kept.trans (congrArg (char :: ·) same)⟩

/-! ## Reading arguments -/

theorem parameter_of_match (here : matchAt parameterPattern text = some (captures, rest)) :
    ∃ name value, name ≠ [] ∧ '>' ∉ name ∧ captures = [name, value] ∧ text = parameterTag name value ++ rest := by
  rw [parameterPattern] at here
  obtain ⟨behindOpening, opened, atName⟩ := match_exactly_some here
  obtain ⟨name, behindName, _, named, unclosed, filled, atClose, found⟩ := match_most_some atName
  obtain ⟨behindClose, ended, atValue⟩ := match_exactly_some atClose
  obtain ⟨value, behindValue, _, valued, atClosing, rfl⟩ := match_fewest_some _ _ _ atValue
  obtain ⟨behind, closed, atEnd⟩ := match_exactly_some atClosing
  rw [match_nil] at atEnd
  cases atEnd
  cases found
  subst opened named ended valued closed
  refine ⟨name, value, length_pos_iff.mp filled, ?_, rfl, by simp [parameterTag]⟩
  intro listed
  simpa using unclosed '>' listed

/-- Whatever is read has a name that is filled and not closed before its end. -/
theorem parameters_named (found : captures ∈ findAll parameterPattern 0 text) :
    ∃ name value, captures = [name, value] ∧ name ≠ [] ∧ '>' ∉ name := by
  obtain ⟨position, rest, here⟩ := find_all_some _ _ _ _ found
  obtain ⟨name, value, filled, unclosed, rfl, -⟩ := parameter_of_match _ _ _ here
  exact ⟨name, value, rfl, filled, unclosed⟩

/-- An argument is read where a name is closed and an end follows. -/
theorem parameter_match (behind : Text) (filled : name ≠ []) (unclosed : '>' ∉ name)
    (closes : parameterClosing <:+: behind) :
    ∃ value rest, matchAt parameterPattern (parameterOpening ++ (name ++ '>' :: behind)) =
      some ([name, value], rest) := by
  obtain ⟨value, rest, rfl, passes⟩ := first_occurrence closes
  refine ⟨value, rest, ?_⟩
  rw [parameterPattern, match_exactly, show '>' :: (value ++ (parameterClosing ++ rest)) =
    ['>'] ++ (value ++ (parameterClosing ++ rest)) from rfl]
  apply match_most _ _ _ ([value], rest)
  · intro char member
    have other : char ≠ '>' := fun same => unclosed (same ▸ member)
    simpa using other
  · exact length_pos_iff.mpr filled
  · intro char member
    obtain rfl : '>' = char := by simpa using member
    rfl
  · rw [match_exactly]
    apply match_fewest _ _ ([], rest) passes
    rw [match_exactly, match_nil]

/-- A name that is closed somewhere is closed for the first time, and everything behind stays behind. -/
theorem first_close (behind : Text) :
    ∃ name rest, '>' ∉ name ∧ front ++ '>' :: behind = name ++ '>' :: rest ∧ behind <:+ rest ∧
      name <+: front := by
  induction front with
  | nil => exact ⟨[], behind, not_mem_nil, rfl, suffix_refl _, prefix_refl _⟩
  | cons char more ih =>
    by_cases closes : char = '>'
    · subst closes
      exact ⟨[], more ++ '>' :: behind, not_mem_nil, rfl,
        (suffix_cons _ _).trans (suffix_append _ _), nil_prefix⟩
    · obtain ⟨name, rest, unclosed, whole, behindRest, begins⟩ := ih
      refine ⟨char :: name, rest, ?_, congrArg (char :: ·) whole, behindRest,
        cons_prefix_cons.mpr ⟨rfl, begins⟩⟩
      rw [mem_cons, not_or]
      exact ⟨fun same => closes same.symm, unclosed⟩

/-! ## All arguments of a call -/

variable (environment : Environment)

/-- What is to be read from the body of a call. -/
def encoded (arguments : List (String × Value)) : List (List Text) :=
  arguments.map fun argument => [argument.1.toList, argumentText environment argument.2]

def readParameters (body : Text) : List (List Text) := findAll parameterPattern 0 body

/-- The repair keeps a call: what is read behind it is what is read without it, and this is what was written.
Repairing any text twice is repairing it once. -/
structure Kept (arguments : List (String × Value)) : Prop where
  same : readParameters (normalizeParameterTags (parameterTags environment arguments)) =
    readParameters (parameterTags environment arguments)
  recovered : readParameters (parameterTags environment arguments) = encoded environment arguments
  idempotent : ∀ text, normalizeParameterTags (normalizeParameterTags text) = normalizeParameterTags text

/-- A value without the marks of a call. -/
def MarkFree (value : Text) : Prop :=
  ∀ mark ∈ [functionOpening, stopWord, parameterClosing], ¬ mark <:+: value

instance (value : Text) : Decidable (MarkFree value) :=
  inferInstanceAs (Decidable (∀ mark ∈ [functionOpening, stopWord, parameterClosing], ¬ mark <:+: value))

/-- An argument that is written so that it is read as it was: its name is filled and has no closing bracket, and
no malformed tag occurs in it. -/
structure Readable (name value : Text) : Prop where
  filled : name ≠ []
  unclosed : '>' ∉ name
  clean : ¬ HasMalformedTag (parameterTag name value)

theorem tag_shape : parameterTag name value ++ rest =
      (parameterOpening ++ (name ++ '>' :: value)) ++ (parameterClosing ++ rest) := by
  simp [parameterTag]

theorem readable_normalized (readable : Readable name value) :
    normalizeParameterTags (parameterTag name value ++ rest) =
      parameterTag name value ++ normalizeParameterTags rest := by
  have shape := tag_shape name value []
  rw [append_nil, append_nil] at shape
  rcases normalize_argument .. with
    ⟨-, same⟩ | ⟨front, other, otherValue, back, -, malformed, whole, -⟩
  · rw [tag_shape, tag_shape, same]
  · exact absurd ⟨front, other, otherValue, back, malformed, shape ▸ whole⟩ readable.clean

/-- The first argument of a text is read first. -/
theorem read_tag (filled : name ≠ []) (unclosed : '>' ∉ name)
    (unended : ¬ parameterClosing <:+: value) :
    readParameters (parameterTag name value ++ (['\n'] ++ rest)) = [name, value] :: readParameters rest := by
  have matched := tag_matches name value (['\n'] ++ rest) filled unclosed unended
  have passes : Passes parameterOpening ['\n'] rest := by
    rw [parameter_opening_chars]
    exact passes_of_not_mem _ _ _ (by decide)
  rw [readParameters, find_all_match _ _ _ (by simp [tag_cons]) matched]
  exact congrArg ([name, value] :: ·) (find_all_passes _ _ _ _ passes)

/-- An argument in which a malformed tag occurs is not read first behind the repair. -/
theorem misread_first (others : List (List Text)) (filled : name ≠ []) (unclosed : '>' ∉ name)
    (misread : HasMalformedTag (parameterTag name value)) :
    readParameters (normalizeParameterTags (parameterTag name value ++ rest)) ≠ [name, value] :: others := by
  have shape := tag_shape name value []
  rw [append_nil, append_nil] at shape
  rcases normalize_argument (parameterOpening ++ (name ++ '>' :: value)) _ with
    ⟨clean, -⟩ | ⟨front, other, otherValue, back, behind, malformed, whole, same⟩
  · exact absurd (shape ▸ misread) clean
  -- the character behind `start` is an equals sign in the argument, and a bracket behind the repair
  obtain ⟨start, started⟩ : ∃ start, start = front ++ (parameterOpening ++ other) := ⟨_, rfl⟩
  have written : parameterTag name value = start ++ '=' :: (otherValue ++ (parameterClosing ++ back)) := by
    rw [shape, whole, started]
    simp [malformedTag]
  have repaired : normalizeParameterTags (parameterTag name value ++ rest) =
      start ++ '>' :: (otherValue ++ (parameterClosing ++ behind)) := by
    rw [tag_shape, same, started]
    simp [parameterTag]
  obtain ⟨char, more, rfl⟩ := exists_cons_of_ne_nil filled
  obtain ⟨later, begun⟩ : parameterOpening ++ [char] <+: start := by
    have front : parameterOpening ++ [char] <+: parameterTag (char :: more) value :=
      ⟨more ++ '>' :: (value ++ parameterClosing), by simp [parameterTag]⟩
    refine prefix_of_prefix_length_le front (written ▸ prefix_append _ _) ?_
    have positive := length_pos_iff.mpr malformed.filled
    rw [started]
    simp only [length_append, length_singleton]
    omega
  obtain ⟨read, readBehind, unclosedRead, closes, behindRead, -⟩ :=
    first_close (char :: later) (otherValue ++ (parameterClosing ++ behind))
  have filledRead : read ≠ [] := by
    rintro rfl
    exact unclosed ((cons.inj closes).1 ▸ (.head _))
  have ends : parameterClosing <:+: readBehind :=
    List.IsInfix.trans ⟨otherValue, behind, by simp⟩ behindRead.isInfix
  obtain ⟨readValue, left, found⟩ := parameter_match read readBehind filledRead unclosedRead ends
  have together : parameterOpening ++ (read ++ '>' :: readBehind) =
      start ++ '>' :: (otherValue ++ (parameterClosing ++ behind)) := by
    rw [← closes, ← begun]
    simp
  rw [together] at found
  obtain ⟨_, first⟩ := find_all_first _ _ _ (by simp) found
  intro equal
  rw [readParameters, repaired, first] at equal
  cases (cons.inj equal).1
  obtain ⟨_, _, -, -, captured, whole⟩ := parameter_of_match _ _ _ found
  cases captured
  rw [written, append_assoc] at whole
  exact absurd (cons.inj (append_cancel_left whole)).1 (by decide)

section
variable {environment}

/-- Readable arguments are kept by the repair and read as they were written. -/
theorem readable_kept (args : List (String × Value))
    (markFree : ∀ argument ∈ args, MarkFree (argumentText env argument.2))
    (readable : ∀ argument ∈ args, Readable argument.1.toList (argumentText env argument.2)) :
    normalizeParameterTags (parameterTags env args) = parameterTags env args ∧
      readParameters (parameterTags env args) = encoded env args := by
  induction args with
  | nil => exact ⟨rfl, rfl⟩
  | cons argument rest ih =>
    obtain ⟨kept, read⟩ := ih
      (fun other listed => markFree other (.tail _ listed))
      (fun other listed => readable other (.tail _ listed))
    have here := readable argument (.head _)
    rw [parameter_tags_cons, append_assoc]
    constructor
    · rw [readable_normalized _ _ _ here, normalize_unopened _ _ (by decide), kept]
    · rw [read_tag _ _ _ here.filled here.unclosed
        (markFree argument (.head _) parameterClosing (by simp)), read]
      rfl

/-- Arguments that are read behind the repair as they were written are readable. -/
theorem kept_readable (args : List (String × Value))
    (markFree : ∀ argument ∈ args, MarkFree (argumentText env argument.2))
    (named : ∀ argument ∈ args, argument.1.toList ≠ [] ∧ '>' ∉ argument.1.toList)
    (read : readParameters (normalizeParameterTags (parameterTags env args)) = encoded env args) :
    ∀ argument ∈ args, Readable argument.1.toList (argumentText env argument.2) := by
  induction args with
  | nil => exact fun _ listed => absurd listed not_mem_nil
  | cons argument rest ih =>
    obtain ⟨filled, unclosed⟩ := named argument (.head _)
    rw [parameter_tags_cons, append_assoc] at read
    have here : Readable argument.1.toList (argumentText env argument.2) :=
      ⟨filled, unclosed, fun misread => misread_first _ _ _ _ filled unclosed misread read⟩
    rw [readable_normalized _ _ _ here, normalize_unopened _ _ (by decide),
      read_tag _ _ _ filled unclosed (markFree argument (.head _) parameterClosing (by simp))] at read
    have later := ih (fun other listed => markFree other (.tail _ listed))
      (fun other listed => named other (.tail _ listed)) (cons.inj read).2
    intro other listed
    rcases listed with _ | ⟨_, behind⟩
    · exact here
    · exact later other behind

/-- A call is kept exactly where each of its arguments has a name that is filled and not closed before its end,
and no malformed tag occurs in its tag. -/
theorem kept_iff (arguments : List (String × Value))
    (markFree : ∀ argument ∈ arguments, MarkFree (argumentText environment argument.2)) :
    Kept environment arguments ↔ ∀ argument ∈ arguments,
      Readable argument.1.toList (argumentText environment argument.2) := by
  constructor
  · intro kept
    refine kept_readable _ markFree ?_ (kept.same.trans kept.recovered)
    intro argument listed
    have among : [argument.1.toList, argumentText environment argument.2] ∈
        readParameters (parameterTags environment arguments) := by
      rw [kept.recovered]
      exact List.mem_map.mpr ⟨argument, listed, rfl⟩
    obtain ⟨name, value, captured, filled, unclosed⟩ := parameters_named _ _ among
    cases captured
    exact ⟨filled, unclosed⟩
  · intro readable
    obtain ⟨same, recovered⟩ := readable_kept _ markFree readable
    exact ⟨by rw [same], recovered, normalize_idempotent⟩

end

/-! ## A command that quotes a malformed tag -/

/-- JSON is neither read nor written for a text. -/
def plain : Environment where
  loads _ := none
  dumps _ := []
  repr _ := []
  windows := false

def listing : List (String × Value) := [("command", .str "ls")]

def quoting : List (String × Value) := [("command", .str "<parameter=path=x")]

theorem listing_kept : Kept plain listing ↔ ∀ argument ∈ listing,
    Readable argument.1.toList (argumentText plain argument.2) := by
  refine kept_iff _ ?_
  rintro argument listed
  rw [List.mem_singleton.mp listed]
  decide

/-- The value that is read has a bracket where an equals sign was written. -/
theorem quoting_changed : ¬ ∀ arguments : List (String × Value),
      (∀ argument ∈ arguments, MarkFree (argumentText plain argument.2)) → Kept plain arguments := by
  intro claimed
  have markFree : ∀ argument ∈ quoting, MarkFree (argumentText plain argument.2) := by
    rintro argument listed
    rw [List.mem_singleton.mp listed]
    decide
  exact absurd (claimed quoting markFree).same (by decide)

end ForgePilot.TagRepair
