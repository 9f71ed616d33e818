import Mathlib.Data.List.Infix

/-!
# Patterns with captures

A pattern is a list of pieces: a fixed text, a captured run of accepted symbols that
is as long as possible, or a captured stretch that is as short as possible. `results`
lists the ways a pattern matches at a position in the order in which a backtracking
matcher tries them, and the first one is the match.

A scan passes a part of the input when a fixed text begins nowhere in that part,
even if it would end behind it. The rules below move a search, the list of all
matches and a substitution over a part that is passed, so that a proof about a text
follows the way the text was put together.
-/

namespace ForgePilot.Patterns

open List

universe u
variable {α : Type u} [DecidableEq α]

inductive Piece (α : Type u) where
  | exactly (text : List α)
  | most (accepts : α → Bool) (least : Nat)
  | fewest

/-- The ways to take at least `least` accepted symbols, longest first, with what is
left. -/
def longest (accepts : α → Bool) : Nat → List α → List (List α × List α)
  | least, [] => if least = 0 then [([], [])] else []
  | least, symbol :: rest =>
      (if accepts symbol then
        (longest accepts (least - 1) rest).map (fun split => (symbol :: split.1, split.2))
      else []) ++
        if least = 0 then [([], symbol :: rest)] else []

/-- The ways to take some symbols, shortest first, with what is left. -/
def shortest : List α → List (List α × List α)
  | [] => [([], [])]
  | symbol :: rest =>
      ([], symbol :: rest) :: (shortest rest).map (fun split => (symbol :: split.1, split.2))

/-- The ways a pattern matches at the start of the input: the captures and what is
left. -/
def results : List (Piece α) → List α → List (List (List α) × List α)
  | [], input => [([], input)]
  | .exactly text :: pieces, input =>
      if text.isPrefixOf input then results pieces (input.drop text.length) else []
  | .most accepts least :: pieces, input =>
      (longest accepts least input).flatMap (fun split =>
        (results pieces split.2).map (fun result => (split.1 :: result.1, result.2)))
  | .fewest :: pieces, input =>
      (shortest input).flatMap (fun split =>
        (results pieces split.2).map (fun result => (split.1 :: result.1, result.2)))

def matchAt (pieces : List (Piece α)) (input : List α) : Option (List (List α) × List α) :=
  (results pieces input).head?

/-- The captures of the leftmost match. -/
def search (pieces : List (Piece α)) : List α → Option (List (List α))
  | [] => (matchAt pieces []).map Prod.fst
  | symbol :: rest =>
      match matchAt pieces (symbol :: rest) with
      | some found => some found.1
      | none => search pieces rest

/-- The captures of all matches from left to right without overlap, for a pattern
that consumes something; `skip` symbols belong to the last match. -/
def findAll (pieces : List (Piece α)) : Nat → List α → List (List (List α))
  | _, [] => []
  | skip + 1, _ :: rest => findAll pieces skip rest
  | 0, symbol :: rest =>
      match matchAt pieces (symbol :: rest) with
      | some found => found.1 :: findAll pieces (rest.length - found.2.length) rest
      | none => findAll pieces 0 rest

/-- Replace all matches from left to right without overlap, for a pattern that
consumes something; `skip` symbols belong to the last match. -/
def substitute (pieces : List (Piece α)) (replacement : List (List α) → List α) :
    Nat → List α → List α
  | _, [] => []
  | skip + 1, _ :: rest => substitute pieces replacement skip rest
  | 0, symbol :: rest =>
      match matchAt pieces (symbol :: rest) with
      | some found =>
          replacement found.1 ++
            substitute pieces replacement (rest.length - found.2.length) rest
      | none => symbol :: substitute pieces replacement 0 rest

/-- The needle begins nowhere in the first part, followed by the second. -/
def Passes (needle : List α) : List α → List α → Prop
  | [], _ => True
  | symbol :: first, second =>
      ¬ needle <+: symbol :: (first ++ second) ∧ Passes needle first second

variable (accepts : α → Bool) (least : Nat) (needle : List α) (pieces : List (Piece α))
  (replacement : List (List α) → List α) (input : List α) (found : List (List α) × List α)
  (first second : List α)

omit [DecidableEq α] in
/-- Passing two parts is passing one after the other. -/
theorem passes_append (third : List α) : Passes needle (first ++ second) third ↔
      Passes needle first (second ++ third) ∧ Passes needle second third := by
  induction first with
  | nil => simp [Passes]
  | cons symbol rest ih => simp only [cons_append, Passes, ih, append_assoc, and_assoc]

variable {start : α}

omit [DecidableEq α] in
/-- A part without the first symbol of the needle is passed. -/
theorem passes_of_not_mem (others first second : List α) (absent : start ∉ first) :
    Passes (start :: others) first second := by
  induction first with
  | nil => exact trivial
  | cons symbol rest ih =>
    rw [mem_cons, not_or] at absent
    refine ⟨?_, ih absent.2⟩
    intro begins
    exact absent.1 (cons_prefix_cons.mp begins).1

variable {others : List α} {bound : α}

omit [DecidableEq α] in
/-- A needle that begins before a symbol that it does not go on with ends there. -/
theorem prefix_before {first second : List α} (foreign : bound ∉ others) (filled : first ≠ [])
    (begins : start :: others <+: first ++ bound :: second) : start :: others <+: first := by
  have limit : first ++ [bound] <+: first ++ bound :: second := by
    rw [prefix_append_right_inj]
    exact ⟨second, rfl⟩
  cases prefix_or_prefix_of_prefix begins limit with
  | inl short =>
    cases prefix_concat_iff.mp short with
    | inl whole =>
      cases first with
      | nil => exact absurd rfl filled
      | cons symbol rest =>
        rw [cons_append, cons.injEq] at whole
        exact absurd (whole.2 ▸ mem_append_right rest (mem_singleton.mpr rfl)) foreign
    | inr within => exact within
  | inr long =>
    cases first with
    | nil => exact absurd rfl filled
    | cons symbol rest =>
      rw [cons_append, cons_prefix_cons] at long
      exact absurd (long.2.subset (mem_append_right rest (mem_singleton.mpr rfl))) foreign

omit [DecidableEq α] in
/-- A part in which the needle does not occur is passed when a symbol follows that
the needle does not go on with. -/
theorem passes_of_absent (others first second : List α) (foreign : bound ∉ others)
    (absent : ¬ start :: others <:+: first) : Passes (start :: others) first (bound :: second) := by
  induction first with
  | nil => exact trivial
  | cons symbol rest ih =>
    rw [infix_cons_iff, not_or] at absent
    refine ⟨?_, ih absent.2⟩
    intro begins
    exact absent.1 (prefix_before foreign
      (cons_ne_nil _ _) begins)

omit [DecidableEq α] in
/-- A part in which the needle does not occur is passed at the end of the input. -/
theorem passes_to_end (absent : ¬ needle <:+: first) : Passes needle first [] := by
  induction first with
  | nil => exact trivial
  | cons symbol rest ih =>
    rw [infix_cons_iff, not_or] at absent
    refine ⟨?_, ih absent.2⟩
    rw [append_nil]
    exact absent.1

variable {rest : List α}

omit [DecidableEq α] in
/-- What stands before the first occurrence of a symbol is determined. -/
theorem front_unique {first second : List α} (firstFree : bound ∉ first)
    (secondFree : bound ∉ second) (same : first ++ bound :: rest = second ++ bound :: others) :
    first = second := by
  cases append_eq_append_iff.mp same with
  | inl longer =>
    obtain ⟨middle, whole, shape⟩ := longer
    cases middle with
    | nil => rw [whole, append_nil]
    | cons symbol more =>
      cases shape
      exact absurd (whole ▸ mem_append_right first (.head _)) secondFree
  | inr shorter =>
    obtain ⟨middle, whole, shape⟩ := shorter
    cases middle with
    | nil => rw [whole, append_nil]
    | cons symbol more =>
      cases shape
      exact absurd (whole ▸ mem_append_right second (.head _)) firstFree

omit [DecidableEq α] in
/-- A needle that ends with the symbol behind a part begins nowhere in it, unless the
part ends with the rest of the needle. -/
theorem passes_to_bound (front first second : List α) (bound : α) (frontFree : bound ∉ front)
    (firstFree : bound ∉ first) (unfinished : ¬ front <:+ first) :
    Passes (front ++ [bound]) first (bound :: second) := by
  induction first with
  | nil => exact trivial
  | cons symbol rest ih =>
    refine ⟨?_, ih ?_ ?_⟩
    · rintro ⟨back, whole⟩
      rw [append_assoc, singleton_append, ← cons_append] at whole
      have same := front_unique frontFree firstFree whole
      exact unfinished (same ▸ suffix_refl _)
    · exact fun later => firstFree (.tail symbol later)
    · exact fun ends => unfinished (ends.trans (suffix_cons symbol rest))

variable (passes : Passes needle first second)

include passes in
omit [DecidableEq α] in
/-- At no position of a part that is passed does the needle begin. -/
theorem passes_at (place : Nat) (inside : place < first.length) :
    ¬ needle <+: (first ++ second).drop place := by
  induction first generalizing place with
  | nil => cases inside
  | cons symbol rest ih =>
    cases place with
    | zero => exact passes.1
    | succ earlier => exact ih passes.2 earlier (by rw [length_cons] at inside; omega)

omit [DecidableEq α] in
theorem first_occurrence {needle text : List α} (occurs : needle <:+: text) :
    ∃ front back, text = front ++ (needle ++ back) ∧ Passes needle front (needle ++ back) := by
  induction text with
  | nil =>
    obtain rfl := infix_nil.mp occurs
    exact ⟨[], [], rfl, trivial⟩
  | cons symbol rest ih =>
    by_cases here : needle <+: symbol :: rest
    · obtain ⟨back, whole⟩ := here
      exact ⟨[], back, whole.symm, trivial⟩
    · obtain ⟨front, back, rfl, passes⟩ := ih ((infix_cons_iff.mp occurs).resolve_left here)
      exact ⟨symbol :: front, back, rfl, here, passes⟩

omit [DecidableEq α] in
/-- A needle that follows a part begins nowhere in it when a shorter text occurs in
the needle and not in the part, and does not go on with the first symbol of the
needle. -/
theorem passes_of_inner {first : List α} (foreign : bound ∉ others)
    (within : start :: others <:+: bound :: rest) (absent : ¬ start :: others <:+: first) :
    Passes (bound :: rest) first (bound :: rest) := by
  obtain ⟨front, back, whole, earliest⟩ := first_occurrence within
  induction first with
  | nil => exact trivial
  | cons symbol remaining ih =>
    refine ⟨?_, ih (fun later => absent (infix_cons_iff.mpr (.inr later)))⟩
    intro begins
    have inner : start :: others <+: (symbol :: remaining ++ bound :: rest).drop front.length := by
      rw [whole] at begins
      have shifted := List.IsPrefix.drop begins front.length
      rw [drop_left, ← whole] at shifted
      exact (prefix_append _ back).trans shifted
    by_cases reaches : front.length < (symbol :: remaining).length
    · rw [drop_append_of_le_length (Nat.le_of_lt reaches)] at inner
      have ends := prefix_before foreign (by
        intro empty
        have length := congrArg length empty
        rw [length_drop, length_nil] at length
        omega) inner
      exact absent (ends.isInfix.trans (drop_suffix _ _).isInfix)
    · rw [drop_append, drop_eq_nil_of_le (by omega), nil_append, whole] at inner
      exact passes_at _ _ _ earliest _
        (by rw [length_cons] at reaches ⊢; omega) inner

omit [DecidableEq α] in
/-- A needle that follows a part begins nowhere in it when it does not occur there and
the part ends with no front of the needle that the needle repeats. -/
theorem passes_of_borders (absent : ¬ needle <:+: first)
    (unrepeated : ∀ length, 0 < length → length < needle.length →
      needle.drop length <+: needle → ¬ needle.take length <:+ first) :
    Passes needle first needle := by
  induction first with
  | nil => exact trivial
  | cons symbol rest ih =>
    refine ⟨?_, ih ?_ ?_⟩
    · intro begins
      rw [← cons_append] at begins
      by_cases longer : (symbol :: rest).length < needle.length
      · have front : needle.take (symbol :: rest).length = symbol :: rest := by
          have taken := prefix_iff_eq_take.mp begins
          rw [taken, take_take, Nat.min_eq_left (Nat.le_of_lt longer), take_left]
        have border : needle.drop (symbol :: rest).length <+: needle := by
          have shifted := List.IsPrefix.drop begins (symbol :: rest).length
          rwa [drop_left] at shifted
        exact unrepeated _ (Nat.succ_pos _) longer border (front ▸ suffix_refl _)
      · apply absent
        have short : needle <+: symbol :: rest := by
          apply prefix_of_prefix_length_le begins (prefix_append _ needle)
          omega
        exact short.isInfix
    · intro later
      exact absent (infix_cons_iff.mpr (.inr later))
    · intro length positive shorter border ends
      exact unrepeated length positive shorter border (ends.trans (suffix_cons symbol rest))

theorem match_exactly (text rest : List α) (pieces : List (Piece α)) :
    matchAt (.exactly text :: pieces) (text ++ rest) = matchAt pieces rest := by
  have begins : text.isPrefixOf (text ++ rest) = true :=
    isPrefixOf_iff_prefix.mpr (prefix_append text rest)
  rw [matchAt, results, if_pos begins, drop_left]
  rfl

/-- Without the fixed text there is no match. -/
theorem match_exactly_none {text input : List α} (differs : ¬ text <+: input) :
    matchAt (.exactly text :: pieces) input = none := by
  rw [matchAt, results, if_neg (fun begins => differs (List.isPrefixOf_iff_prefix.mp begins))]
  rfl

/-- A match behind a fixed text begins with that text. -/
theorem match_exactly_some {text input : List α} {pieces : List (Piece α)}
    {found : List (List α) × List α} (here : matchAt (.exactly text :: pieces) input = some found) :
    ∃ rest, input = text ++ rest ∧ matchAt pieces rest = some found := by
  by_cases begins : text <+: input
  · obtain ⟨rest, rfl⟩ := begins
    rw [match_exactly] at here
    exact ⟨rest, rfl, here⟩
  · rw [match_exactly_none _ begins] at here
    cases here

/-- Nothing more to match. -/
theorem match_nil : matchAt ([] : List (Piece α)) input = some ([], input) := rfl

omit [DecidableEq α] in
theorem longest_first (run rest : List α) (accepted : ∀ symbol ∈ run, accepts symbol = true)
    (enough : least ≤ run.length) (stops : ∀ symbol ∈ rest.head?, accepts symbol = false) :
    ∃ others, longest accepts least (run ++ rest) = (run, rest) :: others := by
  induction run generalizing least with
  | nil =>
    obtain rfl : least = 0 := Nat.le_zero.mp enough
    cases rest with
    | nil => exact ⟨[], rfl⟩
    | cons symbol others => exact ⟨[], by simp [longest, stops symbol rfl]⟩
  | cons symbol others ih =>
    obtain ⟨shorter, split⟩ := ih (least - 1)
      (fun other member => accepted other (.tail symbol member))
      (by rw [length_cons] at enough; omega)
    rw [cons_append, longest, if_pos (accepted symbol (.head _)), split]
    exact ⟨_, rfl⟩

/-- A run that cannot be longer is captured whole when the rest matches. -/
theorem match_most {run : List α} (accepted : ∀ symbol ∈ run, accepts symbol = true)
    (enough : least ≤ run.length) (stops : ∀ symbol ∈ rest.head?, accepts symbol = false)
    (goesOn : matchAt pieces rest = some found) :
    matchAt (.most accepts least :: pieces) (run ++ rest) = some (run :: found.1, found.2) := by
  obtain ⟨others, split⟩ := longest_first _ _ run _ accepted enough stops
  obtain ⟨later, first⟩ : ∃ later, results pieces rest = found :: later := by
    rw [matchAt] at goesOn
    exact ⟨_, eq_cons_of_mem_head? goesOn⟩
  rw [matchAt, results, split, flatMap_cons, first]
  rfl

omit [DecidableEq α] in
/-- What is taken is accepted, long enough and followed by what is left. -/
theorem mem_longest {accepts : α → Bool} (least : Nat) (input : List α)
    (split : List α × List α) (member : split ∈ longest accepts least input) :
    input = split.1 ++ split.2 ∧ (∀ symbol ∈ split.1, accepts symbol = true) ∧
      least ≤ split.1.length := by
  induction input generalizing least split with
  | nil =>
    rw [longest] at member
    split at member
    · simp_all
    · simp at member
  | cons symbol rest ih =>
    rw [longest, mem_append] at member
    cases member with
    | inl longer =>
      split at longer
      · obtain ⟨shorter, found, rfl⟩ := mem_map.mp longer
        obtain ⟨whole, accepted, enough⟩ := ih _ shorter found
        refine ⟨by rw [whole]; rfl, ?_, by rw [length_cons]; omega⟩
        intro other present
        cases mem_cons.mp present with
        | inl same => rw [same]; assumption
        | inr later => exact accepted other later
      · simp at longer
    | inr stopped =>
      split at stopped
      · simp_all
      · simp at stopped

/-- There is no match when the rest matches behind no run of accepted symbols. -/
theorem match_most_none (never : ∀ run rest, input = run ++ rest →
      (∀ symbol ∈ run, accepts symbol = true) → least ≤ run.length →
      matchAt pieces rest = none) : matchAt (.most accepts least :: pieces) input = none := by
  rw [matchAt, results, head?_eq_none_iff, flatMap_eq_nil_iff]
  intro split member
  obtain ⟨whole, accepted, enough⟩ := mem_longest _ _ _ member
  have nothing := never split.1 split.2 whole accepted enough
  rw [matchAt, head?_eq_none_iff] at nothing
  rw [nothing, map_nil]

omit [DecidableEq α] in
/-- The first of several results comes from a split that has one. -/
theorem head_flatMap {β γ : Type u} {splits : List β} {find : β → List γ} {found : γ}
    (first : (splits.flatMap find).head? = some found) :
    ∃ split ∈ splits, (find split).head? = some found := by
  rw [head?_flatMap] at first
  obtain ⟨split, listed, here⟩ := exists_of_findSome?_eq_some first
  exact ⟨split, listed, here⟩

/-- What a match captured as a run is a run of accepted symbols, and the rest matches behind it. -/
theorem match_most_some {accepts : α → Bool} {least : Nat} {pieces : List (Piece α)} {input : List α}
    {found : List (List α) × List α} (here : matchAt (.most accepts least :: pieces) input = some found) :
    ∃ run rest later, input = run ++ rest ∧ (∀ symbol ∈ run, accepts symbol = true) ∧
      least ≤ run.length ∧ matchAt pieces rest = some later ∧ found = (run :: later.1, later.2) := by
  rw [matchAt, results] at here
  obtain ⟨split, member, first⟩ := head_flatMap here
  obtain ⟨whole, accepted, enough⟩ := mem_longest _ _ _ member
  rw [head?_map] at first
  obtain ⟨later, goesOn, rfl⟩ := Option.map_eq_some_iff.mp first
  exact ⟨split.1, split.2, later, whole, accepted, enough, goesOn, rfl⟩

omit [DecidableEq α] in
/-- What is taken is followed by what is left. -/
theorem mem_shortest (split : List α × List α) (member : split ∈ shortest input) :
    input = split.1 ++ split.2 := by
  induction input generalizing split with
  | nil =>
    rw [mem_singleton.mp member]
    rfl
  | cons symbol rest ih =>
    rcases member with _ | ⟨_, later⟩
    · rfl
    · obtain ⟨shorter, found, rfl⟩ := mem_map.mp later
      rw [cons_append, ← ih shorter found]

/-- The rest matches behind the stretch that a match captured. -/
theorem match_fewest_some (here : matchAt (.fewest :: pieces) input = some found) :
    ∃ stretch rest later, input = stretch ++ rest ∧ matchAt pieces rest = some later ∧
      found = (stretch :: later.1, later.2) := by
  rw [matchAt, results] at here
  obtain ⟨split, member, first⟩ := head_flatMap here
  rw [head?_map] at first
  obtain ⟨later, goesOn, rfl⟩ := Option.map_eq_some_iff.mp first
  exact ⟨split.1, split.2, later, mem_shortest _ _ member, goesOn, rfl⟩

/-- Whatever is found was matched at some position. -/
theorem find_all_some (skip : Nat) (input : List α) (captures : List (List α))
    (found : captures ∈ findAll pieces skip input) :
    ∃ place rest, matchAt pieces (input.drop place) = some (captures, rest) := by
  induction input generalizing skip with
  | nil => cases skip <;> cases found
  | cons symbol rest ih =>
    have later : ∀ skip, captures ∈ findAll pieces skip rest → ∃ place left,
        matchAt pieces ((symbol :: rest).drop place) = some (captures, left) := by
      intro skip listed
      obtain ⟨place, left, here⟩ := ih skip listed
      exact ⟨place + 1, left, here⟩
    cases skip with
    | succ skip => exact later skip found
    | zero =>
      rw [findAll] at found
      split at found
      · rename_i first here
        rcases found with _ | ⟨_, listed⟩
        · exact ⟨0, first.2, here⟩
        · exact later _ listed
      · exact later 0 found

/-- The stretch up to the first occurrence of a fixed text is captured when the rest
matches. -/
theorem match_fewest {stretch : List α} (passes : Passes needle stretch rest)
    (goesOn : matchAt (.exactly needle :: pieces) rest = some found) :
    matchAt (.fewest :: .exactly needle :: pieces) (stretch ++ rest) =
      some (stretch :: found.1, found.2) := by
  obtain ⟨later, first⟩ : ∃ later, results (.exactly needle :: pieces) rest = found :: later := by
    rw [matchAt] at goesOn
    exact ⟨_, eq_cons_of_mem_head? goesOn⟩
  -- the induction moves symbols from the stretch to what was taken before it
  have whole (taken : List α) : ∃ others, (shortest (stretch ++ rest)).flatMap (fun split =>
        (results (.exactly needle :: pieces) split.2).map (fun result =>
          ((taken ++ split.1) :: result.1, result.2))) =
        ((taken ++ stretch) :: found.1, found.2) :: others := by
    induction stretch generalizing taken with
    | nil =>
      cases rest with
      | nil => exact ⟨_, by rw [nil_append, shortest, flatMap_cons, first]; rfl⟩
      | cons symbol others =>
        exact ⟨_, by rw [nil_append, shortest, flatMap_cons, first]; rfl⟩
    | cons symbol others ih =>
      obtain ⟨here, beyond⟩ := passes
      obtain ⟨more, split⟩ := ih beyond (taken ++ [symbol])
      have nothing : results (.exactly needle :: pieces) (symbol :: (others ++ rest)) = [] := by
        rw [results, if_neg (fun begins => here (List.isPrefixOf_iff_prefix.mp begins))]
      refine ⟨more, ?_⟩
      rw [cons_append, shortest, flatMap_cons, nothing, map_nil, nil_append,
        flatMap_map]
      simpa using split
  obtain ⟨others, split⟩ := whole []
  simp only [nil_append] at split
  rw [matchAt, results, split]
  rfl

/-- A search goes over a part that the first fixed text passes. -/
theorem search_passes {needle first second : List α} (passes : Passes needle first second) :
    search (.exactly needle :: pieces) (first ++ second) =
      search (.exactly needle :: pieces) second := by
  induction first with
  | nil => rfl
  | cons symbol rest ih =>
    rw [cons_append, search, match_exactly_none _ passes.1]
    exact ih passes.2

theorem search_of_match (here : matchAt pieces input = some found) :
    search pieces input = some found.1 := by
  cases input with
  | nil => rw [search, here]; rfl
  | cons symbol rest => rw [search, here]

/-- Where the first fixed text does not occur there is no match. -/
theorem search_none {needle input : List α} (filled : needle ≠ []) (absent : ¬ needle <:+: input) :
    search (.exactly needle :: pieces) input = none := by
  have crossed := search_passes pieces (passes_to_end needle input absent)
  rw [append_nil] at crossed
  rw [crossed, search, match_exactly_none _ (by simpa using filled)]
  rfl

include passes in
/-- All matches are found behind a part that the first fixed text passes. -/
theorem find_all_passes : findAll (.exactly needle :: pieces) 0 (first ++ second) =
      findAll (.exactly needle :: pieces) 0 second := by
  induction first with
  | nil => rfl
  | cons symbol rest ih =>
    rw [cons_append, findAll, match_exactly_none _ passes.1]
    exact ih passes.2

/-- What belongs to the last match is skipped. -/
theorem find_all_skip :
    findAll pieces first.length (first ++ second) = findAll pieces 0 second := by
  induction first with
  | nil => rfl
  | cons symbol rest ih => rw [cons_append, length_cons, findAll, ih]

variable {captures : List (List α)}

/-- A match at the start is followed by the matches behind it. -/
theorem find_all_match (filled : first ≠ [])
    (here : matchAt pieces (first ++ second) = some (captures, second)) :
    findAll pieces 0 (first ++ second) = captures :: findAll pieces 0 second := by
  cases first with
  | nil => exact absurd rfl filled
  | cons symbol rest =>
    rw [cons_append] at here ⊢
    rw [findAll, here]
    simp only [length_append, Nat.add_sub_cancel]
    rw [find_all_skip]

theorem find_all_first (filled : input ≠ []) (here : matchAt pieces input = some found) :
    ∃ others, findAll pieces 0 input = found.1 :: others := by
  cases input with
  | nil => exact absurd rfl filled
  | cons symbol rest => exact ⟨_, by rw [findAll, here]⟩

include passes in
/-- A substitution keeps a part that the first fixed text passes. -/
theorem substitute_passes : substitute (.exactly needle :: pieces) replacement 0 (first ++ second) =
      first ++ substitute (.exactly needle :: pieces) replacement 0 second := by
  induction first with
  | nil => rfl
  | cons symbol rest ih =>
    rw [cons_append, substitute, match_exactly_none _ passes.1]
    exact congrArg (symbol :: ·) (ih passes.2)

/-- A substitution keeps a symbol at which nothing matches. -/
theorem substitute_none {symbol : α} (nothing : matchAt pieces (symbol :: rest) = none) :
    substitute pieces replacement 0 (symbol :: rest) =
      symbol :: substitute pieces replacement 0 rest := by
  rw [substitute, nothing]

/-- What belongs to the last match is skipped by a substitution. -/
theorem substitute_skip : substitute pieces replacement first.length (first ++ second) =
      substitute pieces replacement 0 second := by
  induction first with
  | nil => rfl
  | cons symbol rest ih => rw [cons_append, length_cons, substitute, ih]

theorem substitute_match {pieces : List (Piece α)} {first second : List α} (filled : first ≠ [])
    (here : matchAt pieces (first ++ second) = some (captures, second)) :
    substitute pieces replacement 0 (first ++ second) =
      replacement captures ++ substitute pieces replacement 0 second := by
  cases first with
  | nil => exact absurd rfl filled
  | cons symbol rest =>
    rw [cons_append] at here ⊢
    rw [substitute, here]
    simp only [length_append, Nat.add_sub_cancel]
    rw [substitute_skip]

end ForgePilot.Patterns
