import ForgePilot.Characters

/-!
# Backtracking regular expressions

Patterns are built from literals, character classes, greedy repetition of a
class, sequence, alternation and the word boundary. `results` lists every way a
pattern can match at a position, in the order a backtracking matcher tries them;
each way gives the text consumed and the text left. The only context a pattern
looks at is the character before the position, through the word boundary.
-/

namespace ForgePilot

open List

/-- Patterns over characters. -/
inductive Regex where
  | single (accepts : Char → Bool)
  | many (accepts : Char → Bool) (least : Nat)
  | boundary
  | seq (first second : Regex)
  | alt (first second : Regex)
  | empty

namespace Regex

/-- The pattern characters that differ from ASCII letters by case only: the
four letters beyond ASCII whose case folds into it are included. -/
def foldsTo (pattern character : Char) : Bool :=
  pattern.toLower == character.toLower ||
    (pattern.toLower == 'i' && (character.toNat == 304 || character.toNat == 305)) ||
    (pattern.toLower == 's' && character.toNat == 383) ||
    (pattern.toLower == 'k' && character.toNat == 8490)

/-- A text matched up to case. -/
def literal (text : String) : Regex :=
  text.toList.foldr (fun pattern rest => seq (single (foldsTo pattern)) rest) empty

/-- The first of several texts that matches, up to case. -/
def oneOf : List String → Regex
  | [] => single (fun _ => false)
  | [text] => literal text
  | text :: rest => alt (literal text) (oneOf rest)

/-- A pattern or nothing, the pattern first. -/
def optional (pattern : Regex) : Regex := alt pattern empty

/-- The character before the position after some text was consumed. -/
def lastOr (previous : Option Char) (consumed : List Char) : Option Char :=
  consumed.getLast?.or previous

/-- Every way to consume at least `least` accepted characters, longest first. -/
def repeats (accepts : Char → Bool) : Nat → List Char → List (List Char × List Char)
  | least, [] => if least = 0 then [([], [])] else []
  | least, character :: rest =>
      (if accepts character then
        (repeats accepts (least - 1) rest).map (fun result => (character :: result.1, result.2))
      else []) ++
        if least = 0 then [([], character :: rest)] else []

variable (table : CharacterTable)

/-- Whether the characters around a position differ in being word characters. -/
def atBoundary (previous : Option Char) (input : List Char) : Bool :=
  previous.any table.isWord != input.head?.any table.isWord

/-- Every way a pattern matches at the start of the input, in order of preference. -/
def results : Regex → Option Char → List Char → List (List Char × List Char)
  | single accepts, _, input =>
      match input with
      | [] => []
      | character :: rest => if accepts character then [([character], rest)] else []
  | many accepts least, _, input => repeats accepts least input
  | boundary, previous, input =>
      if atBoundary table previous input then [([], input)] else []
  | seq first second, previous, input =>
      (results first previous input).flatMap (fun front =>
        (results second (lastOr previous front.1) front.2).map (fun back =>
          (front.1 ++ back.1, back.2)))
  | alt first second, previous, input =>
      results first previous input ++ results second previous input
  | empty, _, input => [([], input)]

/-- Whether a pattern matches somewhere in the input. -/
def search (pattern : Regex) (previous : Option Char) : List Char → Bool
  | [] => !(results table pattern previous []).isEmpty
  | character :: rest =>
      !(results table pattern previous (character :: rest)).isEmpty ||
        search pattern (some character) rest

variable (pattern : Regex) (previous : Option Char)

variable (other : Option Char) (input : List Char)
  (same : previous.any table.isWord = other.any table.isWord)
include same

/-- Contexts that agree on being a word character give the same results. -/
theorem results_congr :
    results table pattern previous input = results table pattern other input := by
  induction pattern generalizing previous other input with
  | single accepts => simp [results]
  | many accepts least => simp [results]
  | boundary => simp [results, atBoundary, same]
  | seq first second firstHypothesis secondHypothesis =>
    simp only [results, firstHypothesis previous other input same]
    congr 1
    funext front
    rw [secondHypothesis (lastOr previous front.1) (lastOr other front.1) front.2]
    cases consumed : front.1.getLast? with
    | none => simpa [lastOr, consumed] using same
    | some char => simp [lastOr, consumed]
  | alt first second firstHypothesis secondHypothesis =>
    simp [results, firstHypothesis previous other input same, secondHypothesis previous other input same]
  | empty => simp [results]

/-- Searching does not depend on the context beyond its word character. -/
theorem search_congr : search table pattern previous input = search table pattern other input := by
  cases input with
  | nil => simp only [search, results_congr _ _ _ _ [] same]
  | cons char rest =>
    simp [search, results_congr _ _ _ _ _ same]

omit same

/-- A match in the rest of a text is a match in the text. -/
theorem search_append (front input : List Char)
    (found : search table pattern (lastOr previous front) input = true) :
    search table pattern previous (front ++ input) = true := by
  induction front generalizing previous with
  | nil => simpa [lastOr] using found
  | cons char rest ih =>
    have later : search table pattern (some char) (rest ++ input) = true := by
      apply ih
      simpa [lastOr, getLast?_cons] using found
    simp [search, later]

theorem results_suffix (input : List Char) :
    ∀ result ∈ results table pattern previous input, result.2 ⊆ input := by
  have repeated (accepts : Char → Bool) (least : Nat) (text : List Char) :
      ∀ result ∈ repeats accepts least text, result.2 ⊆ text := by
    induction text generalizing least with
    | nil =>
      intro result member
      simp only [repeats] at member
      split at member <;> simp_all
    | cons char rest ih =>
      intro result member
      simp only [repeats, mem_append] at member
      rcases member with accepted | stopped
      · split at accepted
        · obtain ⟨shorter, found, rfl⟩ := mem_map.mp accepted
          exact subset_cons_of_subset char (ih _ shorter found)
        · simp at accepted
      · split at stopped <;> simp_all
  induction pattern generalizing previous input with
  | single accepts =>
    intro result member
    cases input with
    | nil => simp [results] at member
    | cons char rest =>
      simp only [results] at member
      split at member <;> simp_all
  | many accepts least => exact repeated accepts least input
  | boundary =>
    intro result member
    simp only [results] at member
    split at member <;> simp_all
  | seq first second firstHypothesis secondHypothesis =>
    intro result member
    obtain ⟨front, found, back⟩ := mem_flatMap.mp member
    obtain ⟨tail, last, rfl⟩ := mem_map.mp back
    exact List.Subset.trans (secondHypothesis _ front.2 tail last)
      (firstHypothesis previous input front found)
  | alt first second firstHypothesis secondHypothesis =>
    exact forall_mem_append.mpr
      ⟨firstHypothesis previous input, secondHypothesis previous input⟩
  | empty =>
    intro result member
    simp_all [results]

/-- A pattern that needs a character which a text does not have. -/
def Blocked (text : List Char) : Regex → Prop
  | single accepts => ∀ character ∈ text, accepts character = false
  | many _ _ => False
  | boundary => False
  | seq first second => Blocked text first ∨ Blocked text second
  | alt first second => Blocked text first ∧ Blocked text second
  | empty => False

/-- A blocked pattern has no match. -/
theorem results_blocked {pattern : Regex} (text : List Char) (blocked : Blocked text pattern)
    (previous : Option Char) (input : List Char) (within : input ⊆ text) :
    results table pattern previous input = [] := by
  induction pattern generalizing previous input with
  | single accepts =>
    cases input with
    | nil => rfl
    | cons char rest =>
      have refused := blocked char (within (.head _))
      simp [results, refused]
  | many accepts least => exact blocked.elim
  | boundary => exact blocked.elim
  | seq first second firstHypothesis secondHypothesis =>
    rcases blocked with left | right
    · simp [results, firstHypothesis left previous input within]
    rw [results, flatMap_eq_nil_iff]
    intro front found
    rw [secondHypothesis right _ front.2
      (List.Subset.trans (results_suffix _ _ _ _ _ found) within)]
    rfl
  | alt first second firstHypothesis secondHypothesis =>
    simp [results, firstHypothesis blocked.1 previous input within,
      secondHypothesis blocked.2 previous input within]
  | empty => exact blocked.elim

variable {text : List Char}

/-- A blocked pattern is not found. -/
theorem search_blocked (blocked : Blocked text pattern) (previous : Option Char) {input : List Char}
    (within : input ⊆ text) : search table pattern previous input = false := by
  induction input generalizing previous with
  | nil => simp [search, results_blocked _ _ blocked _ [] within]
  | cons char rest ih =>
    have later := ih (some char)
      (List.Subset.trans (subset_cons_self char rest) within)
    simp [search, results_blocked _ _ blocked _ _ within, later]

/-- A literal is blocked by a character of it that the text does not have. -/
theorem blocked_literal (word : String) {needed : Char} (member : needed ∈ word.toList)
    (absent : ∀ char ∈ text, foldsTo needed char = false) : Blocked text (literal word) := by
  have folded (letters : List Char) (found : needed ∈ letters) :
      Blocked text (letters.foldr (fun pattern rest => seq (single (foldsTo pattern)) rest)
        empty) := by
    induction letters with
    | nil => cases found
    | cons letter others ih =>
      rcases found with _ | ⟨_, later⟩
      · exact .inl absent
      · exact .inr (ih later)
  exact folded word.toList member

/-- The preferred match of a group followed by a tail, as its two parts. -/
def firstMatch (group tail : Regex) (previous : Option Char) (input : List Char) :
    Option (List Char × List Char) :=
  ((results table group previous input).flatMap (fun front =>
    (results table tail (lastOr previous front.1) front.2).map (fun back =>
      (front.1, back.1)))).head?

/-- Replace every match of a group and its tail by the group and a fixed text,
from left to right without overlap; `skip` characters belong to the last match. -/
def subFrom (group tail : Regex) (replacement : List Char) :
    Nat → Option Char → List Char → List Char
  | _, _, [] => []
  | skip + 1, _, character :: rest =>
      subFrom group tail replacement skip (some character) rest
  | 0, previous, character :: rest =>
      match firstMatch table group tail previous (character :: rest) with
      | some (kept, dropped) =>
          kept ++ replacement ++ subFrom group tail replacement
            (kept.length + dropped.length - 1) (some character) rest
      | none => character :: subFrom group tail replacement 0 (some character) rest

/-- Substitution over a whole text. -/
def sub (group tail : Regex) (replacement : String) (text : String) : String :=
  String.ofList (subFrom table group tail replacement.toList 0 none text.toList)

end Regex

end ForgePilot
