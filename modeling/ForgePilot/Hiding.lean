import Mathlib.Data.List.Induction
import Mathlib.Data.List.Infix

/-!
# Hiding words in a text

Words are replaced by a cover one after the other, each from left to right without
overlap. When no word can touch the cover, what is left of the text can be laid out
as cells: single values that are shown, and occurrences that are hidden. An
occurrence that was hidden stays hidden, so the hidden occurrences are those that
overlap no hidden occurrence before them, in the order of the words and then from
left to right.
-/

namespace ForgePilot.Hiding

open List

variable {α : Type} [DecidableEq α]

/-- Replace a word in a text whose values carry their position in the original
text; the values of the cover have none. -/
def replaceTracked (word cover : List α) : Nat → List (α × Option Nat) → List (α × Option Nat)
  | _, [] => []
  | skip + 1, _ :: rest => replaceTracked word cover skip rest
  | 0, value :: rest =>
      if word.isPrefixOf ((value :: rest).map Prod.fst) then
        cover.map (·, none) ++ replaceTracked word cover (word.length - 1) rest
      else value :: replaceTracked word cover 0 rest

/-- A text whose values carry their positions. -/
def tracked (text : List α) : List (α × Option Nat) :=
  text.mapIdx (fun position value => (value, some position))

/-- Replace words one after the other. -/
def replaceAllTracked (words : List (List α)) (cover : List α) (text : List (α × Option Nat)) :
    List (α × Option Nat) :=
  words.foldl (fun current word => replaceTracked word cover 0 current) text

/-- One of two words starts with the other. -/
def comparable (first second : List α) : Bool :=
  first.isPrefixOf second || second.isPrefixOf first

/-- No occurrence of the word can touch the cover: neither contains the other, and
no end of one begins the other. -/
def clear (word cover : List α) : Bool :=
  cover.tails.all (fun tail => tail = [] || !comparable word tail) &&
    word.tails.all (fun tail => tail = [] || !comparable tail cover)

def Occurs (words : List (List α)) (text : List α) (index position : Nat) : Prop :=
  ∃ word, words[index]? = some word ∧ word <+: text.drop position

/-- The occurrence of a word at a position covers another position. -/
def Covers (words : List (List α)) (index position covered : Nat) : Prop :=
  ∃ word, words[index]? = some word ∧ position ≤ covered ∧ covered < position + word.length

/-- Earlier words come first, and then earlier positions. -/
def Precedes (firstIndex firstPosition index position : Nat) : Prop :=
  firstIndex < index ∨ firstIndex = index ∧ firstPosition < position

/-- The occurrences that overlap no picked occurrence before them. -/
def Picked (words : List (List α)) (text : List α) (picked : Nat → Nat → Prop) : Prop :=
  ∀ index position, picked index position ↔
    Occurs words text index position ∧
      ∀ firstIndex firstPosition, picked firstIndex firstPosition →
        Precedes firstIndex firstPosition index position →
        ∀ covered, Covers words firstIndex firstPosition covered →
          ¬Covers words index position covered

/-- The picked occurrences cover every occurrence. -/
def Tiled (words : List (List α)) (text : List α) : Prop :=
  ∃ picked, Picked words text picked ∧
    ∀ index position covered, Occurs words text index position →
      Covers words index position covered →
      ∃ otherIndex otherPosition, picked otherIndex otherPosition ∧
        Covers words otherIndex otherPosition covered

omit [DecidableEq α] in
/-- At most one choice of occurrences is picked. -/
theorem picked_unique {words : List (List α)} {text : List α} {first second : Nat → Nat → Prop}
    (left : Picked words text first) (right : Picked words text second) (index place : Nat) :
    first index place ↔ second index place := by
  induction index using Nat.strong_induction_on generalizing place with
  | h index earlierIndex =>
    induction place using Nat.strong_induction_on with
    | h place earlierPosition =>
      have same : ∀ firstIndex firstPosition, Precedes firstIndex firstPosition index place →
          (first firstIndex firstPosition ↔ second firstIndex firstPosition) := by
        intro firstIndex firstPosition before
        rcases before with smaller | ⟨rfl, smaller⟩
        · exact earlierIndex firstIndex smaller firstPosition
        · exact earlierPosition firstPosition smaller
      rw [left index place, right index place]
      constructor
      · rintro ⟨occurs, free⟩
        exact ⟨occurs, fun _ _ picked before => free _ _ ((same _ _ before).mpr picked) before⟩
      · rintro ⟨occurs, free⟩
        exact ⟨occurs, fun _ _ picked before => free _ _ ((same _ _ before).mp picked) before⟩

/-- A stretch of a text: a value that is shown, or a hidden occurrence of a word. -/
inductive Cell (α : Type) where
  | shown (value : α) (position : Nat)
  | hidden (index position : Nat)

/-- Where a cell starts. -/
def Cell.position : Cell α → Nat
  | .shown _ position => position
  | .hidden _ position => position

/-- The cells start by showing a word. -/
def shows : List α → List (Cell α) → Bool
  | [], _ => true
  | letter :: word, .shown value _ :: rest => letter = value && shows word rest
  | _ :: _, _ => false

/-- Hide a word from left to right without overlap; `skip` cells belong to the last
occurrence. -/
def hide (index : Nat) (word : List α) : Nat → List (Cell α) → List (Cell α)
  | _, [] => []
  | skip + 1, _ :: rest => hide index word skip rest
  | 0, .shown value position :: rest =>
      if shows word (.shown value position :: rest) then
        .hidden index position :: hide index word (word.length - 1) rest
      else .shown value position :: hide index word 0 rest
  | 0, .hidden other position :: rest => .hidden other position :: hide index word 0 rest

/-- Hide words one after the other. -/
def hideWords : Nat → List (List α) → List (Cell α) → List (Cell α)
  | _, [], cells => cells
  | index, word :: rest, cells => hideWords (index + 1) rest (hide index word 0 cells)

/-- The cells of a text in which nothing is hidden, from a position on. -/
def cellsFrom : Nat → List α → List (Cell α)
  | _, [] => []
  | position, value :: rest => .shown value position :: cellsFrom (position + 1) rest

/-- What cells look like when hidden occurrences are covered. -/
def render (cover : List α) : List (Cell α) → List (α × Option Nat)
  | [] => []
  | .shown value position :: rest => (value, some position) :: render cover rest
  | .hidden _ _ :: rest => cover.map (·, none) ++ render cover rest

/-- The cells lie side by side from a position to the end of the text. -/
def Laid (words : List (List α)) (text : List α) : Nat → List (Cell α) → Prop
  | start, [] => start = text.length
  | start, .shown value position :: rest =>
      position = start ∧ text[start]? = some value ∧ Laid words text (start + 1) rest
  | start, .hidden index position :: rest =>
      position = start ∧ ∃ word, words[index]? = some word ∧ word ≠ [] ∧
        word <+: text.drop start ∧ Laid words text (start + word.length) rest

variable (start : Nat)

section Layout

variable {words : List (List α)} {text : List α}

omit [DecidableEq α] in
/-- Cells that lie from a position on have no position before it. -/
theorem laid_from (cells : List (Cell α)) (laid : Laid words text start cells) (cell : Cell α)
    (member : cell ∈ cells) : start ≤ cell.position := by
  induction cells generalizing start with
  | nil => cases member
  | cons head rest ih =>
    cases head with
    | shown value place =>
      obtain ⟨rfl, _, later⟩ := laid
      rcases member with _ | ⟨_, further⟩
      · exact le_rfl
      · have bound := ih _ later further
        omega
    | hidden index place =>
      obtain ⟨rfl, word, _, _, _, later⟩ := laid
      rcases member with _ | ⟨_, further⟩
      · exact le_rfl
      · have bound := ih _ later further
        omega

omit [DecidableEq α] in
/-- A hidden occurrence is an occurrence, covers no position that is shown, and
shares no position with another one. -/
theorem laid_hidden (cells : List (Cell α)) (laid : Laid words text start cells)
    {index position : Nat} (member : Cell.hidden index position ∈ cells) :
    Occurs words text index position ∧ ∀ covered, Covers words index position covered →
        (∀ value, Cell.shown value covered ∉ cells) ∧
        ∀ otherIndex otherPosition, Cell.hidden otherIndex otherPosition ∈ cells →
          Covers words otherIndex otherPosition covered →
          otherIndex = index ∧ otherPosition = position := by
  induction cells generalizing start with
  | nil => cases member
  | cons head rest ih =>
    cases head with
    | shown value place =>
      obtain ⟨rfl, _, later⟩ := laid
      rcases member with _ | ⟨_, further⟩
      obtain ⟨occurs, apart⟩ := ih _ later further
      have bound : place + 1 ≤ position := laid_from _ _ later _ further
      refine ⟨occurs, fun covered covers => ⟨?_, ?_⟩⟩
      · intro other shown
        rcases mem_cons.mp shown with here | below
        · cases here
          obtain ⟨word, _, low, _⟩ := covers
          omega
        · exact (apart covered covers).1 other below
      · intro otherIndex otherPosition hidden otherCovers
        rcases hidden with _ | ⟨_, below⟩
        exact (apart covered covers).2 _ _ below otherCovers
    | hidden other place =>
      obtain ⟨rfl, word, found, filled, occurs, later⟩ := laid
      have beyond : ∀ cell ∈ rest, place + word.length ≤ cell.position := laid_from _ _ later
      rcases mem_cons.mp member with here | further
      · cases here
        refine ⟨⟨word, found, occurs⟩, fun covered covers => ⟨?_, ?_⟩⟩
        · intro value shown
          obtain ⟨same, sameFound, low, high⟩ := covers
          cases found.symm.trans sameFound
          rcases shown with _ | ⟨_, below⟩
          have bound : _ ≤ covered := beyond _ below
          omega
        · intro otherIndex otherPosition hidden otherCovers
          rcases mem_cons.mp hidden with here | below
          · cases here
            exact ⟨rfl, rfl⟩
          obtain ⟨same, sameFound, low, high⟩ := covers
          obtain ⟨_, _, otherLow, _⟩ := otherCovers
          cases found.symm.trans sameFound
          have bound : _ ≤ otherPosition := beyond _ below
          omega
      · obtain ⟨occursLater, apart⟩ := ih _ later further
        have bound : place + word.length ≤ position := beyond _ further
        refine ⟨occursLater, fun covered covers => ⟨?_, ?_⟩⟩
        · intro value shown
          rcases shown with _ | ⟨_, below⟩
          exact (apart covered covers).1 value below
        · intro otherIndex otherPosition hidden otherCovers
          rcases mem_cons.mp hidden with here | below
          · cases here
            obtain ⟨_, _, low, _⟩ := covers
            obtain ⟨same, sameFound, _, otherHigh⟩ := otherCovers
            cases found.symm.trans sameFound
            omega
          · exact (apart covered covers).2 _ _ below otherCovers

omit [DecidableEq α] in
/-- Every position of the text is shown or covered by a hidden occurrence. -/
theorem laid_covers {cells : List (Cell α)} (laid : Laid words text start cells) {position : Nat}
    (low : start ≤ position) (high : position < text.length) :
    (∃ value, Cell.shown value position ∈ cells) ∨
      ∃ index first, Cell.hidden index first ∈ cells ∧ Covers words index first position := by
  induction cells generalizing start with
  | nil =>
    have ended : start = text.length := laid
    omega
  | cons head rest ih =>
    cases head with
    | shown value place =>
      obtain ⟨rfl, _, later⟩ := laid
      by_cases here : position = place
      · exact .inl ⟨value, by rw [here]; exact .head _⟩
      rcases ih (place + 1) later (by omega) with
        ⟨other, shown⟩ | ⟨index, first, hidden, covers⟩
      · exact .inl ⟨other, .tail _ shown⟩
      · exact .inr ⟨index, first, .tail _ hidden, covers⟩
    | hidden other place =>
      obtain ⟨rfl, word, found, filled, occurs, later⟩ := laid
      by_cases here : position < place + word.length
      · exact .inr ⟨other, place, .head _, word, found, low, here⟩
      rcases ih (place + word.length) later (by omega) with
        ⟨value, shown⟩ | ⟨index, first, hidden, covers⟩
      · exact .inl ⟨value, .tail _ shown⟩
      · exact .inr ⟨index, first, .tail _ hidden, covers⟩

omit [DecidableEq α] in
/-- A text in which nothing is hidden is laid out. -/
theorem cells_from_laid (front rest : List α) (whole : text = front ++ rest) :
    Laid words text front.length (cellsFrom front.length rest) := by
  induction rest generalizing front with
  | nil =>
    show front.length = text.length
    rw [whole, append_nil]
  | cons value rest ih =>
    refine ⟨rfl, by rw [whole]; simp, ?_⟩
    have later := ih (front ++ [value]) (by rw [whole]; simp)
    simpa using later

/-- The cells show a word that stands in the text where they start, when all its
positions are shown. -/
theorem shows_of_laid (word : List α) (start : Nat) (cells : List (Cell α))
    (laid : Laid words text start cells) (occurs : word <+: text.drop start)
    (visible : ∀ position, start ≤ position → position < start + word.length →
      ∃ value, Cell.shown value position ∈ cells) : shows word cells = true := by
  induction word generalizing start cells with
  | nil => simp [shows]
  | cons letter word ih =>
    obtain ⟨value, here⟩ := visible start le_rfl (by simp)
    cases cells with
    | nil => cases here
    | cons head rest =>
      cases head with
      | shown first place =>
        obtain ⟨rfl, stands, later⟩ := laid
        have inside : place < text.length := (List.getElem?_eq_some_iff.mp stands).1
        rw [drop_eq_getElem_cons inside, cons_prefix_cons] at occurs
        have letters : letter = first := by
          rw [occurs.1]
          exact (List.getElem?_eq_some_iff.mp stands).2
        rw [shows, decide_eq_true letters, Bool.true_and]
        apply ih (place + 1) rest later occurs.2
        intro position low high
        obtain ⟨other, shown⟩ := visible position (by omega) (by simp; omega)
        cases shown with
        | head => omega
        | tail _ further => exact ⟨other, further⟩
      | hidden index place =>
        exfalso
        have start_covered : Covers words index place start := by
          obtain ⟨rfl, other, found, filled, _⟩ := laid
          exact ⟨other, found, le_rfl, by have := length_pos_of_ne_nil filled; omega⟩
        exact ((laid_hidden _ _ laid (.head _)).2 start
          start_covered).1 value here

/-- What cells show stands in the text at their start. -/
theorem shows_laid (word : List α) (start : Nat) (cells : List (Cell α))
    (laid : Laid words text start cells) (visible : shows word cells = true) :
    word <+: text.drop start ∧ ∀ position, start ≤ position → position < start + word.length →
        ∃ value, Cell.shown value position ∈ cells := by
  induction word generalizing start cells with
  | nil => exact ⟨List.nil_prefix, fun position low high => by simp at high; omega⟩
  | cons letter word ih =>
    match cells, laid, visible with
    | .shown first place :: rest, laid, visible =>
      obtain ⟨rfl, stands, later⟩ := laid
      simp only [shows, Bool.and_eq_true, decide_eq_true_eq] at visible
      obtain ⟨rfl, others⟩ := visible
      obtain ⟨occurs, shown⟩ := ih (place + 1) rest later others
      obtain ⟨inside, letters⟩ := List.getElem?_eq_some_iff.mp stands
      constructor
      · rw [List.drop_eq_getElem_cons inside, letters, List.cons_prefix_cons]
        exact ⟨rfl, occurs⟩
      · intro position low high
        by_cases first : position = place
        · exact ⟨letter, by rw [first]; exact .head _⟩
        · obtain ⟨value, member⟩ := shown position (by omega) (by simp at high; omega)
          exact ⟨value, .tail _ member⟩

end Layout

section Step

variable {words : List (List α)} {text : List α} (index : Nat) (word : List α)

variable {cells : List (Cell α)} {position : Nat}

/-- Hiding shows nothing that was not shown. -/
theorem hide_shown {skip : Nat} {value : α}
    (member : Cell.shown value position ∈ hide index word skip cells) :
    Cell.shown value position ∈ cells := by
  fun_induction hide index word skip cells with
  | case1 => exact member
  | case2 skip head rest ih => exact .tail _ (ih member)
  | case3 first place rest matches_ ih =>
    cases member with
    | tail _ further => exact .tail _ (ih further)
  | case4 first place rest differs ih =>
    cases member with
    | head => exact .head _
    | tail _ further => exact .tail _ (ih further)
  | case5 other place rest ih =>
    cases member with
    | tail _ further => exact .tail _ (ih further)

/-- Hiding hides occurrences of its own word only. -/
theorem hide_hidden (skip : Nat) (cells : List (Cell α)) {other : Nat}
    (member : Cell.hidden other position ∈ hide index word skip cells) :
    Cell.hidden other position ∈ cells ∨ other = index := by
  fun_induction hide index word skip cells with
  | case1 => exact .inl member
  | case2 skip head rest ih => exact (ih member).imp_left (.tail _)
  | case3 first place rest matches_ ih =>
    cases member with
    | head => exact .inr rfl
    | tail _ further => exact (ih further).imp_left (.tail _)
  | case4 first place rest differs ih =>
    cases member with
    | tail _ further => exact (ih further).imp_left (.tail _)
  | case5 hidden place rest ih =>
    cases mem_cons.mp member with
    | inl here => exact .inl (here ▸ (.head _))
    | inr further => exact (ih further).imp_left (.tail _)

/-- Words that are shown at the start of cells start with a shown cell. -/
theorem shows_cons {letter : α} (tail : List α) (visible : shows (letter :: tail) cells = true) :
    ∃ value place rest, cells = .shown value place :: rest ∧ letter = value ∧
      shows tail rest = true := by
  match cells, visible with
  | .shown value place :: rest, visible =>
    simp only [shows, Bool.and_eq_true, decide_eq_true_eq] at visible
    exact ⟨value, place, rest, rfl, visible.1, visible.2⟩

variable (filled : word ≠ [])
include filled

theorem hide_keeps_hidden (run : List α) {other : Nat} (visible : shows run cells = true)
    (member : Cell.hidden other position ∈ cells) :
    Cell.hidden other position ∈ hide index word run.length cells := by
  induction cells generalizing run with
  | nil => cases member
  | cons head rest ih =>
    cases run with
    | cons letter tail =>
      obtain ⟨value, place, same, equal, _, later⟩ := shows_cons _ visible
      cases equal
      cases member with
      | tail _ further => exact ih tail later further
    | nil =>
      cases head with
      | shown value place =>
        have further : Cell.hidden other position ∈ rest := by
          cases member with
          | tail _ further => exact further
        rw [length_nil, hide]
        split
        · rename_i matches_
          obtain ⟨letter, tail, rfl⟩ := exists_cons_of_ne_nil filled
          obtain ⟨_, _, _, equal, _, later⟩ := shows_cons _ matches_
          cases equal
          exact .tail _ (ih tail later further)
        · exact .tail _ (ih [] rfl further)
      | hidden hiddenIndex place =>
        cases member with
        | head => exact .head _
        | tail _ further => exact .tail _ (ih [] rfl further)

variable (found : words[index]? = some word)
include found

/-- Hiding keeps the cells side by side. -/
theorem hide_laid (run : List α) (start : Nat) (cells : List (Cell α))
    (visible : shows run cells = true) (laid : Laid words text start cells) :
    Laid words text (start + run.length) (hide index word run.length cells) := by
  induction cells generalizing run start with
  | nil =>
    cases run with
    | nil => exact laid
    | cons letter tail => cases visible
  | cons head rest ih =>
    cases run with
    | cons letter tail =>
      obtain ⟨value, place, same, equal, _, later⟩ := shows_cons _ visible
      cases equal
      obtain ⟨rfl, _, below⟩ := laid
      have next := ih tail (place + 1) later below
      rw [length_cons, hide]
      have sum : place + (tail.length + 1) = place + 1 + tail.length := by omega
      rw [sum]
      exact next
    | nil =>
      cases head with
      | shown value place =>
        rw [length_nil, hide]
        split
        · rename_i matches_
          have stands := (shows_laid _ _ _ laid matches_).1
          obtain ⟨rfl, _, below⟩ := laid
          obtain ⟨letter, tail, rfl⟩ := exists_cons_of_ne_nil filled
          obtain ⟨_, _, _, equal, _, later⟩ := shows_cons _ matches_
          cases equal
          refine ⟨rfl, letter :: tail, found, filled, stands, ?_⟩
          have next := ih tail (place + 1) later below
          have sum : place + 0 + (letter :: tail).length = place + 1 + tail.length := by
            simp only [length_cons]
            omega
          rw [sum]
          exact next
        · obtain ⟨rfl, stands, below⟩ := laid
          exact ⟨rfl, stands, ih [] (place + 1) rfl below⟩
      | hidden other place =>
        obtain ⟨rfl, otherWord, otherFound, otherFilled, occurs, below⟩ := laid
        exact ⟨rfl, otherWord, otherFound, otherFilled, occurs,
          ih [] (place + otherWord.length) rfl below⟩

/-- An occurrence that is shown is hidden, or its start belongs to an occurrence
that was hidden just before. -/
theorem hide_hides (run : List α) (start : Nat) (visible : shows run cells = true)
    (laid : Laid words text start cells) (beyond : start + run.length ≤ position)
    (occurs : word <+: text.drop position)
    (shown : ∀ covered, position ≤ covered → covered < position + word.length →
      ∃ value, Cell.shown value covered ∈ cells) :
    ∃ first, Cell.hidden index first ∈ hide index word run.length cells ∧
      first ≤ position ∧ position < first + word.length := by
  have positive : 0 < word.length := length_pos_of_ne_nil filled
  induction cells generalizing run start with
  | nil =>
    obtain ⟨value, member⟩ := shown position le_rfl (by omega)
    cases member
  | cons head rest ih =>
    -- what is shown beyond the first cell is shown by the rest
    have shownLater : head.position < position → ∀ covered, position ≤ covered →
        covered < position + word.length → ∃ value, Cell.shown value covered ∈ rest := by
      intro before covered low high
      obtain ⟨value, member⟩ := shown covered low high
      cases mem_cons.mp member with
      | inl here =>
        rw [← here] at before
        simp only [Cell.position] at before
        omega
      | inr further => exact ⟨value, further⟩
    cases run with
    | cons letter tail =>
      obtain ⟨value, place, same, equal, _, later⟩ := shows_cons _ visible
      cases equal
      obtain ⟨rfl, _, below⟩ := laid
      simp only [length_cons] at beyond
      exact ih tail (place + 1) later below (by omega)
        (shownLater (by simp only [Cell.position]; omega))
    | nil =>
      cases head with
      | shown value place =>
        have whole := laid
        obtain ⟨rfl, _, below⟩ := laid
        rw [length_nil, hide]
        split
        · rename_i matches_
          by_cases near : position < place + word.length
          · exact ⟨place, .head _, beyond, near⟩
          obtain ⟨letter, tail, rfl⟩ := exists_cons_of_ne_nil filled
          obtain ⟨_, _, _, equal, _, later⟩ := shows_cons _ matches_
          cases equal
          simp only [length_cons] at near
          obtain ⟨first, hidden, low, high⟩ := ih tail (place + 1) later below
            (by omega) (shownLater (by simp only [Cell.position]; omega))
          exact ⟨first, .tail _ hidden, low, high⟩
        · rename_i differs
          have different : position ≠ place := by
            rintro rfl
            exact differs (shows_of_laid _ _ _ whole occurs shown)
          obtain ⟨first, hidden, low, high⟩ := ih [] (place + 1) rfl below
            (by simp only [length_nil]; omega)
            (shownLater (by simp only [Cell.position]; omega))
          exact ⟨first, .tail _ hidden, low, high⟩
      | hidden other place =>
        have whole := laid
        obtain ⟨rfl, otherWord, otherFound, otherFilled, _, below⟩ := laid
        obtain ⟨value, member⟩ := shown position le_rfl (by omega)
        have outside : place + otherWord.length ≤ position := by
          by_contra inside
          exact ((laid_hidden _ _ whole (.head _)).2 position
            ⟨otherWord, otherFound, beyond, by omega⟩).1 value member
        have otherPositive := length_pos_of_ne_nil otherFilled
        obtain ⟨first, hidden, low, high⟩ := ih [] (place + otherWord.length) rfl
          below (by simpa using outside) (shownLater (by simp only [Cell.position]; omega))
        exact ⟨first, .tail _ hidden, low, high⟩

end Step

section Run

variable {words : List (List α)} {text : List α}

variable (index : Nat)

/-- Hiding words in two groups. -/
theorem hide_words_append (first second : List (List α)) (cells : List (Cell α)) :
    hideWords index (first ++ second) cells =
      hideWords (index + first.length) second (hideWords index first cells) := by
  induction first generalizing index cells with
  | nil => rfl
  | cons word rest ih =>
    rw [cons_append, hideWords, ih, hideWords, length_cons]
    congr 1
    omega

variable (rest : List (List α)) (cells : List (Cell α))

/-- Hiding words shows nothing that was not shown. -/
theorem hide_words_shown {value : α} {place : Nat}
    (member : Cell.shown value place ∈ hideWords index rest cells) :
    Cell.shown value place ∈ cells := by
  induction rest generalizing index cells with
  | nil => exact member
  | cons word rest ih => exact hide_shown _ _ (ih _ _ member)

variable {other place : Nat}

/-- Hiding words hides their occurrences only. -/
theorem hide_words_hidden (member : Cell.hidden other place ∈ hideWords index rest cells) :
    Cell.hidden other place ∈ cells ∨ index ≤ other ∧ other < index + rest.length := by
  induction rest generalizing index cells with
  | nil => exact .inl member
  | cons word rest ih =>
    cases ih (index + 1) _ member with
    | inr bounds =>
      simp only [length_cons]
      omega
    | inl before =>
      cases hide_hidden _ _ 0 _ before with
      | inl already => exact .inl already
      | inr same =>
        simp only [length_cons]
        omega

/-- What was hidden stays hidden. -/
theorem hide_words_keeps (filled : ∀ word ∈ rest, word ≠ [])
    (member : Cell.hidden other place ∈ cells) :
    Cell.hidden other place ∈ hideWords index rest cells := by
  induction rest generalizing index cells with
  | nil => exact member
  | cons word rest ih =>
    apply ih
    · exact fun later inside => filled later (.tail _ inside)
    · exact hide_keeps_hidden _ _ (filled word (.head _)) []
        rfl member

omit [DecidableEq α] in
/-- Nothing is hidden at first. -/
theorem cells_from_shown (rest : List α) (index place : Nat) :
    Cell.hidden index place ∉ cellsFrom start rest := by
  induction rest generalizing start with
  | nil => exact not_mem_nil
  | cons value rest ih =>
    intro inside
    cases inside with
    | tail _ further => exact ih _ further

/-- Hiding the first words of a list leaves the cells side by side. -/
theorem hide_words_laid (group rest : List (List α)) (whole : words = group ++ rest)
    (filled : ∀ word ∈ words, word ≠ []) :
    Laid words text 0 (hideWords 0 group (cellsFrom 0 text)) := by
  induction group using reverseRecOn generalizing rest with
  | nil => exact cells_from_laid [] _ rfl
  | append_singleton group last ih =>
    rw [hide_words_append, Nat.zero_add]
    exact hide_laid _ _ (filled last (by rw [whole]; simp))
      (by rw [whole]; simp) [] 0 _ rfl
      (ih ([last] ++ rest) (by rw [whole]; simp))

variable (words text)

/-- The cells of a text after all words were hidden. -/
def hiddenCells : List (Cell α) := hideWords 0 words (cellsFrom 0 text)

variable {words} (filled : ∀ word ∈ words, word ≠ [])
include filled

/-- The cells of a text lie side by side. -/
theorem hidden_cells_laid : Laid words text 0 (hiddenCells words text) :=
  hide_words_laid _ [] (append_nil _).symm filled

/-- The cells just before a word is hidden, and what hiding it and the later words
does to them. -/
theorem hidden_cells_at {index : Nat} {word : List α} (found : words[index]? = some word) :
    ∃ cells, Laid words text 0 cells ∧ (∀ other place, Cell.hidden other place ∈ cells →
        other < index ∧ Cell.hidden other place ∈ hiddenCells words text) ∧
      (∀ value place, Cell.shown value place ∈ hiddenCells words text →
        Cell.shown value place ∈ cells) ∧
      ∀ place, word <+: text.drop place →
        (∀ covered, place ≤ covered → covered < place + word.length →
          ∃ value, Cell.shown value covered ∈ cells) →
        ∃ first, Cell.hidden index first ∈ hiddenCells words text ∧
          first ≤ place ∧ place < first + word.length := by
  obtain ⟨inside, stands⟩ := List.getElem?_eq_some_iff.mp found
  have whole : words = words.take index ++ word :: words.drop (index + 1) := by
    rw [← stands, ← List.drop_eq_getElem_cons inside, List.take_append_drop]
  have length : (words.take index).length = index := by
    rw [List.length_take]
    omega
  have parts : hiddenCells words text = hideWords (index + 1) (words.drop (index + 1))
        (hide index word 0 (hideWords 0 (words.take index) (cellsFrom 0 text))) := by
    have split := hide_words_append 0 (words.take index) (word :: words.drop (index + 1))
      (cellsFrom 0 text)
    rw [← whole, Nat.zero_add, length, hideWords] at split
    exact split
  have laterFilled : ∀ later ∈ words.drop (index + 1), later ≠ [] :=
    fun later member => filled later (List.mem_of_mem_drop member)
  have wordFilled : word ≠ [] := filled word (List.mem_of_getElem? found)
  have laid : Laid words text 0 (hideWords 0 (words.take index) (cellsFrom 0 text)) :=
    hide_words_laid _ _ whole filled
  refine ⟨_, laid, ?_, ?_, ?_⟩
  · intro other place member
    constructor
    · cases hide_words_hidden 0 _ _ member with
      | inl nothing => exact absurd nothing (cells_from_shown 0 _ _ _)
      | inr bounds =>
        rw [length] at bounds
        omega
    · rw [parts]
      exact hide_words_keeps _ _ _ laterFilled
        (hide_keeps_hidden _ _ wordFilled [] rfl member)
  · intro value place member
    rw [parts] at member
    exact hide_shown _ _ (hide_words_shown _ _ _ member)
  · intro place occurs shown
    obtain ⟨first, hidden, low, high⟩ := hide_hides _ _ wordFilled found [] 0 rfl
      laid (by simp) occurs shown
    refine ⟨first, ?_, low, high⟩
    rw [parts]
    exact hide_words_keeps _ _ _ laterFilled hidden

/-- The hidden occurrences are the picked ones. -/
theorem hidden_cells_picked :
    Picked words text (fun index place => Cell.hidden index place ∈ hiddenCells words text) := by
  have laid := hidden_cells_laid text filled
  intro index place
  constructor
  · intro hidden
    obtain ⟨occurs, apart⟩ := laid_hidden 0 _ laid hidden
    refine ⟨occurs, ?_⟩
    intro firstIndex firstPosition firstHidden before covered firstCovers covers
    obtain ⟨rfl, rfl⟩ := (apart covered covers).2 _ _ firstHidden firstCovers
    cases before with
    | inl smaller => omega
    | inr smaller => omega
  · rintro ⟨⟨word, found, occurs⟩, free⟩
    obtain ⟨cells, cellsLaid, earlier, _, hides⟩ := hidden_cells_at _ filled found
    -- no earlier word has hidden a part of the occurrence
    have shown : ∀ covered, place ≤ covered → covered < place + word.length →
        ∃ value, Cell.shown value covered ∈ cells := by
      intro covered low high
      have inside : covered < text.length := by
        have bound := occurs.length_le
        rw [length_drop] at bound
        omega
      cases laid_covers 0 cellsLaid (Nat.zero_le _) inside with
      | inl visible => exact visible
      | inr hidden =>
        obtain ⟨other, first, member, covers⟩ := hidden
        obtain ⟨smaller, stays⟩ := earlier other first member
        exact absurd ⟨word, found, low, high⟩
          (free other first stays (.inl smaller) covered covers)
    obtain ⟨first, hidden, low, high⟩ := hides place occurs shown
    -- an occurrence of the same word that starts before would be picked before
    by_cases same : first = place
    · exact same ▸ hidden
    · exact absurd ⟨word, found, le_rfl, by omega⟩
        (free index first hidden (.inr ⟨rfl, by omega⟩) place ⟨word, found, low, high⟩)

/-- Nothing of an occurrence is shown exactly when the picked occurrences cover
every occurrence. -/
theorem tiled_iff_nothing_shown : Tiled words text ↔
      ∀ value covered, Cell.shown value covered ∈ hiddenCells words text →
        ∀ index place, Occurs words text index place → ¬Covers words index place covered := by
  have laid := hidden_cells_laid text filled
  constructor
  · rintro ⟨picked, isPicked, covering⟩ value covered shown index place occurs covers
    obtain ⟨otherIndex, otherPosition, chosen, otherCovers⟩ :=
      covering index place covered occurs covers
    have hidden := (picked_unique isPicked (hidden_cells_picked _ filled) ..).mp chosen
    exact ((laid_hidden 0 _ laid hidden).2 covered otherCovers).1 value shown
  · intro nothing
    refine ⟨_, hidden_cells_picked _ filled, ?_⟩
    intro index place covered occurs covers
    have inside : covered < text.length := by
      obtain ⟨word, found, stands⟩ := occurs
      obtain ⟨same, sameFound, _, high⟩ := covers
      cases found.symm.trans sameFound
      have bound := stands.length_le
      rw [length_drop] at bound
      omega
    cases laid_covers 0 laid (Nat.zero_le _) inside with
    | inl visible =>
      obtain ⟨value, shown⟩ := visible
      exact absurd covers (nothing value covered shown index place occurs)
    | inr hidden => exact hidden

/-- After all words were hidden, no word is shown anywhere. -/
theorem hidden_cells_show_none (word : List α) (member : word ∈ words)
    (front rest : List (Cell α)) (parts : hiddenCells words text = front ++ rest) :
    shows word rest = false := by
  have laid := hidden_cells_laid text filled
  obtain ⟨index, found⟩ := List.getElem?_of_mem member
  by_contra visible
  rw [Bool.not_eq_false] at visible
  -- the shown word stands in the text, where its start would have been hidden
  have located : ∀ (front : List (Cell α)) (start : Nat), Laid words text start (front ++ rest) →
      ∃ place, Laid words text place rest := by
    intro front
    induction front with
    | nil => exact fun start laid => ⟨start, laid⟩
    | cons head front ih =>
      intro start laid
      cases head with
      | shown value place => exact ih _ laid.2.2
      | hidden other place =>
        obtain ⟨_, _, _, _, _, later⟩ := laid
        exact ih _ later
  rw [parts] at laid
  obtain ⟨place, placed⟩ := located front 0 laid
  obtain ⟨occurs, shown⟩ := shows_laid _ _ _ placed visible
  have shownAll : ∀ covered, place ≤ covered → covered < place + word.length →
      ∃ value, Cell.shown value covered ∈ hiddenCells words text := by
    intro covered low high
    obtain ⟨value, inside⟩ := shown covered low high
    exact ⟨value, by rw [parts]; exact mem_append_right _ inside⟩
  obtain ⟨cells, _, _, before, hides⟩ := hidden_cells_at _ filled found
  obtain ⟨first, hidden, low, high⟩ := hides place occurs (fun covered from_ to_ => by
    obtain ⟨value, inside⟩ := shownAll covered from_ to_
    exact ⟨value, before value covered inside⟩)
  obtain ⟨value, inside⟩ := shownAll place le_rfl (by omega)
  rw [← parts] at laid
  exact ((laid_hidden 0 _ laid hidden).2 place ⟨word, found, low, high⟩).1 value inside

end Run

section Cover

variable {word cover : List α}

/-- No non-empty end of the cover is comparable with a clear word. -/
theorem clear_cover (isClear : clear word cover = true) (tail : List α) (ending : tail <:+ cover)
    (filled : tail ≠ []) : comparable word tail = false := by
  simp only [clear, Bool.and_eq_true, all_eq_true, mem_tails, Bool.or_eq_true,
    decide_eq_true_eq, Bool.not_eq_true'] at isClear
  exact (isClear.1 tail ending).resolve_left filled

/-- No non-empty end of a clear word is comparable with the cover. -/
theorem clear_word (isClear : clear word cover = true) (tail : List α) (ending : tail <:+ word)
    (filled : tail ≠ []) : comparable tail cover = false := by
  simp only [clear, Bool.and_eq_true, all_eq_true, mem_tails, Bool.or_eq_true,
    decide_eq_true_eq, Bool.not_eq_true'] at isClear
  exact (isClear.2 tail ending).resolve_left filled

/-- A text that starts with two words makes them comparable. -/
theorem comparable_of_prefixes (first second rest : List α) (starts : first <+: second ++ rest) :
    comparable first second = true := by
  have shorter := prefix_or_prefix_of_prefix starts (prefix_append second rest)
  simpa [comparable] using shorter

section

variable (isClear : clear word cover = true)
include isClear

/-- A clear word starts the rendered cells exactly when the cells show it. -/
theorem shows_iff_rendered (tail : List α) (ending : tail <:+ word) (cells : List (Cell α)) :
    tail <+: (render cover cells).map Prod.fst ↔ shows tail cells = true := by
  induction tail generalizing cells with
  | nil => simp [shows]
  | cons letter tail ih =>
    have later : tail <:+ word := (suffix_cons letter tail).trans ending
    cases cells with
    | nil => simp [render, shows]
    | cons head rest =>
      cases head with
      | shown value place =>
        rw [render, map_cons, cons_prefix_cons, ih later, shows]
        simp
      | hidden index place =>
        simp only [shows, Bool.false_eq_true, iff_false]
        intro starts
        rw [render, map_append, map_map] at starts
        have same : map (Prod.fst ∘ fun value => ((value, none) : α × Option Nat)) cover =
            cover := by simp [Function.comp_def]
        rw [same] at starts
        have touching := comparable_of_prefixes _ _ _ starts
        rw [clear_word isClear _ ending (by simp)] at touching
        cases touching

theorem replace_tracked_cover (tail : List α) (ending : tail <:+ cover)
    (rest : List (α × Option Nat)) :
    replaceTracked word cover 0 (tail.map (·, none) ++ rest) =
      tail.map (·, none) ++ replaceTracked word cover 0 rest := by
  induction tail with
  | nil => rfl
  | cons letter tail ih =>
    rw [map_cons, cons_append, replaceTracked, if_neg, ih
      ((suffix_cons letter tail).trans ending), cons_append]
    intro starts
    rw [List.isPrefixOf_iff_prefix] at starts
    have shape : ((letter, (none : Option Nat)) :: (tail.map (·, none) ++ rest)).map Prod.fst =
        (letter :: tail) ++ rest.map Prod.fst := by
      simp [Function.comp_def]
    rw [shape] at starts
    have touching := comparable_of_prefixes _ _ _ starts
    rw [clear_cover isClear _ ending (by simp)] at touching
    cases touching

theorem render_hide (filled : word ≠ []) (index : Nat) (run : List α) (cells : List (Cell α))
    (visible : shows run cells = true) :
    render cover (hide index word run.length cells) =
      replaceTracked word cover run.length (render cover cells) := by
  induction cells generalizing run with
  | nil =>
    cases run with
    | nil => rfl
    | cons letter tail => cases visible
  | cons head rest ih =>
    cases run with
    | cons letter tail =>
      obtain ⟨value, place, same, equal, _, later⟩ := shows_cons _ visible
      cases equal
      exact ih tail later
    | nil =>
      cases head with
      | shown value place =>
        have starts := shows_iff_rendered isClear word suffix_rfl (.shown value place :: rest)
        rw [length_nil, hide, render, replaceTracked]
        rw [render] at starts
        by_cases matched : shows word (.shown value place :: rest) = true
        · rw [if_pos matched, if_pos (List.isPrefixOf_iff_prefix.mpr (starts.mpr matched)), render]
          obtain ⟨letter, tail, rfl⟩ := exists_cons_of_ne_nil filled
          obtain ⟨_, _, _, equal, _, later⟩ := shows_cons _ matched
          cases equal
          rw [length_cons, Nat.add_sub_cancel, ih tail later]
        · rw [if_neg matched, if_neg, render]
          · rw [show 0 = ([] : List α).length from rfl, ih [] rfl]
          · exact fun begun => matched (starts.mp (List.isPrefixOf_iff_prefix.mp begun))
      | hidden other place =>
        rw [length_nil, hide, render, render, replace_tracked_cover isClear _
          suffix_rfl]
        congr 1
        exact ih [] rfl

/-- A clear word inside the rendered cells is shown by some of them. -/
theorem shows_of_infix (filled : word ≠ []) (cells : List (Cell α)) (position : Nat)
    (occurs : word <+: ((render cover cells).map Prod.fst).drop position) :
    ∃ front rest, cells = front ++ rest ∧ shows word rest = true := by
  induction cells generalizing position with
  | nil =>
    simp only [render, map_nil, drop_nil, prefix_nil] at occurs
    exact absurd occurs filled
  | cons head rest ih =>
    cases head with
    | shown value place =>
      cases position with
      | zero =>
        rw [drop_zero] at occurs
        exact ⟨[], _, rfl, (shows_iff_rendered isClear _ suffix_rfl _).mp occurs⟩
      | succ position =>
        obtain ⟨front, last, parts, visible⟩ := ih position occurs
        exact ⟨.shown value place :: front, last, by rw [parts]; rfl, visible⟩
    | hidden other place =>
      have shape : (render cover (.hidden other place :: rest)).map Prod.fst =
          cover ++ (render cover rest).map Prod.fst := by
        simp [render, Function.comp_def]
      rw [shape, drop_append] at occurs
      by_cases within : position < cover.length
      · have touching := comparable_of_prefixes _ _ _ occurs
        rw [clear_cover isClear _ (drop_suffix position cover) (by simpa using within)]
          at touching
        cases touching
      · rw [drop_eq_nil_of_le (by omega), nil_append] at occurs
        obtain ⟨front, last, parts, visible⟩ := ih _ occurs
        exact ⟨.hidden other place :: front, last, by rw [parts]; rfl, visible⟩

end

end Cover

section Result

variable {words : List (List α)} {cover : List α} (text : List α)
  (filled : ∀ word ∈ words, word ≠ []) (isClear : ∀ word ∈ words, clear word cover = true)
include filled isClear

/-- Replacing clear words renders the cells in which they are hidden. -/
theorem replace_all_tracked_eq :
    replaceAllTracked words cover (tracked text) = render cover (hiddenCells words text) := by
  have start : ∀ (rest : List α) (place : Nat),
      rest.mapIdx (fun offset value => (value, some (place + offset))) =
        render cover (cellsFrom place rest) := by
    intro rest
    induction rest with
    | nil => exact fun _ => rfl
    | cons value rest ih =>
      intro place
      rw [mapIdx_cons, cellsFrom, render, ← ih (place + 1)]
      congr 1
      apply ext_getElem?
      intro offset
      simp only [List.getElem?_mapIdx]
      congr 1
      funext other
      congr 2
      omega
  have general : ∀ (group : List (List α)) (index : Nat) (cells : List (Cell α)),
      (∀ word ∈ group, word ∈ words) →
      replaceAllTracked group cover (render cover cells) =
        render cover (hideWords index group cells) := by
    intro group
    induction group with
    | nil => exact fun _ _ _ => rfl
    | cons word rest ih =>
      intro index cells inside
      have member := inside word (.head _)
      have step := render_hide (isClear word member) (filled word member) index [] cells rfl
      rw [hideWords, ← ih (index + 1) _
        (fun later within => inside later (.tail _ within))]
      rw [show hide index word 0 cells = hide index word ([] : List α).length cells from rfl, step]
      rfl
  have begun := start text 0
  simp only [Nat.zero_add] at begun
  rw [tracked, begun]
  exact general words 0 _ (fun _ member => member)

/-- No clear word is left after all were replaced. -/
theorem replaced_free (word : List α) (member : word ∈ words) (place : Nat) :
    ¬word <+: ((replaceAllTracked words cover (tracked text)).map Prod.fst).drop place := by
  intro occurs
  rw [replace_all_tracked_eq _ filled isClear] at occurs
  obtain ⟨front, rest, parts, visible⟩ := shows_of_infix (isClear word member) (filled word member)
    _ _ occurs
  rw [hidden_cells_show_none _ filled _ member _ _ parts] at visible
  cases visible

/-- After clear words were replaced, nothing of an occurrence is left exactly when
the picked occurrences cover every occurrence. -/
theorem tiled_iff_nothing_left : Tiled words text ↔
      ∀ value covered, (value, some covered) ∈ replaceAllTracked words cover (tracked text) →
        ∀ index position, Occurs words text index position →
          ¬Covers words index position covered := by
  have rendered : ∀ (cells : List (Cell α)) value covered,
      (value, some covered) ∈ render cover cells ↔ Cell.shown value covered ∈ cells := by
    intro cells value covered
    induction cells with
    | nil => simp [render]
    | cons head rest ih =>
      cases head with
      | shown other place => simp [render, ih]
      | hidden other place => simp [render, ih]
  rw [tiled_iff_nothing_shown _ filled, replace_all_tracked_eq _ filled isClear]
  simp [rendered]

end Result

end ForgePilot.Hiding
