import ForgePilot.JsonTokens

/-!
# Values at the front of a text

How a value is read, in steps: what a step reads is named by an equation, and whatever was read was read by one of
the steps. A value that was read is read again when the text goes on, and with more fuel; a number only when it was
seen to end.
-/

namespace ForgePilot.JsonFronts

open JsonReading JsonTokens List

/-! ## Steps -/

variable {first : Char} {value : Json}

section Steps

variable (fuel : Nat)

variable {opened rest : Text}

theorem scanOnce_quoted {units : CodePoints} (inside : scanString opened = some (units, rest)) :
    scanOnce (fuel + 1) ('"' :: opened) = some (.string (combined units), rest) := by
  rw [scanOnce, inside]
  rfl

theorem scanOnce_emptyObject (closed : skipWhitespace opened = '\x7d' :: rest) :
    scanOnce (fuel + 1) ('\x7b' :: opened) = some (.object [], rest) := by
  rw [scanOnce, closed]
  rfl

theorem scanOnce_object (first : Char) (next : skipWhitespace opened = first :: rest)
    (filled : first ≠ '\x7d') : scanOnce (fuel + 1) ('\x7b' :: opened) =
      (scanPairs fuel (first :: rest)).map fun scanned => (.object scanned.1, scanned.2) := by
  rw [scanOnce, next]
  split
  · rename_i same
    exact (filled (cons.inj same).1).elim
  · rfl

theorem scanOnce_emptyArray {opened rest : Text} (closed : skipWhitespace opened = ']' :: rest) :
    scanOnce (fuel + 1) ('[' :: opened) = some (.array [], rest) := by
  rw [scanOnce, closed]
  rfl

theorem scanOnce_array {opened rest : Text} {first : Char} (next : skipWhitespace opened = first :: rest)
    (filled : first ≠ ']') : scanOnce (fuel + 1) ('[' :: opened) =
      (scanItems fuel (first :: rest)).map fun scanned => (.array scanned.1, scanned.2) := by
  rw [scanOnce, next]
  split
  · rename_i same
    exact (filled (cons.inj same).1).elim
  · rfl

theorem scanOnce_atom (rest : Text) (apart : first ∉ marks) :
    scanOnce (fuel + 1) (first :: rest) = scanAtom (first :: rest) := by
  rw [scanOnce]
  · rintro opened same
    cases same
    exact apart (by decide)
  · rintro opened same
    cases same
    exact apart (by decide)
  · rintro opened same
    cases same
    exact apart (by decide)

theorem scanPairs_last (opened left rest : Text) (key : CodePoints)
    (paired : Paired fuel opened key value left) (closed : skipWhitespace left = '\x7d' :: rest) :
    scanPairs (fuel + 1) ('"' :: opened) = some ([(combined key, value)], rest) := by
  obtain ⟨afterKey, afterColon, keyed, colon, valued⟩ := paired.exists_steps
  rw [scanPairs, keyed]
  simp [colon, valued, closed]

theorem scanPairs_next {left : Text} (key : CodePoints) (paired : Paired fuel opened key value left)
    (comma : skipWhitespace left = ',' :: rest) :
    scanPairs (fuel + 1) ('"' :: opened) = (scanPairs fuel (skipWhitespace rest)).map fun scanned =>
      ((combined key, value) :: scanned.1, scanned.2) := by
  obtain ⟨afterKey, afterColon, keyed, colon, valued⟩ := paired.exists_steps
  rw [scanPairs, keyed]
  simp [colon, valued, comma]

theorem scanItems_last (text left rest : Text) {value : Json} (valued : scanOnce fuel text = some (value, left))
    (closed : skipWhitespace left = ']' :: rest) : scanItems (fuel + 1) text = some ([value], rest) := by
  rw [scanItems, valued]
  simp [closed]

theorem scanItems_next {text left : Text} (valued : scanOnce fuel text = some (value, left))
    (comma : skipWhitespace left = ',' :: rest) :
    scanItems (fuel + 1) text =
      (scanItems fuel (skipWhitespace rest)).map fun scanned => (value :: scanned.1, scanned.2) := by
  rw [scanItems, valued]
  simp [comma]

end Steps

/-! ## Texts that go on -/

theorem skipWhitespace_further (text rest more : Text)
    (next : skipWhitespace text = first :: rest) :
    skipWhitespace (text ++ more) = first :: (rest ++ more) := by
  rw [skipWhitespace] at next
  rw [skipWhitespace, dropWhile_append, next]
  rfl

theorem skipWhitespace_visible (first : Char) (rest : Text) (apart : first ∉ marks) :
    skipWhitespace (first :: rest) = first :: rest :=
  dropWhile_cons_of_neg (by simp [visible_of_apart apart])

theorem scanString_further (text rest more : Text) (units : CodePoints)
    (scanned : scanString text = some (units, rest)) :
    scanString (text ++ more) = some (units, rest ++ more) := by
  fun_induction scanString text generalizing units rest with
  | case1 => cases scanned
  | case2 after =>
    cases scanned
    rfl
  | case3 => cases scanned
  | case4 first second third fourth after unit named ih =>
    obtain ⟨⟨inner, left⟩, inside, same⟩ := Option.map_eq_some_iff.mp scanned
    cases same
    simp only [cons_append, scanString, named, ih _ _ inside]
    rfl
  | case5 => cases scanned
  | case6 char after notUnit unit named ih =>
    obtain ⟨⟨inner, left⟩, inside, same⟩ := Option.map_eq_some_iff.mp scanned
    cases same
    rw [cons_append, cons_append, scanString, named, ih _ _ inside]
    · rfl
    · rintro _ _ _ _ _ rfl
      cases named
  | case7 => cases scanned
  | case8 char after notQuote notUnit notEscape visible ih =>
    obtain ⟨⟨inner, left⟩, inside, same⟩ := Option.map_eq_some_iff.mp scanned
    cases same
    rw [cons_append, scanString, if_neg visible, ih _ _ inside]
    · rfl
    · exact notQuote
    · rintro _ _ _ _ _ rfl
      exact (visible (.inr rfl)).elim
    · rintro _ _ rfl
      exact (visible (.inr rfl)).elim

def Stops (rest : Text) : Prop := rest ≠ [] ∧ EndsNumber rest

/-- A rest with a mark in front of it, with whitespace or without, is such a rest. -/
theorem stops_of_next {rest after : Text} (next : skipWhitespace rest = first :: after)
    (mark : first ∈ marks) : Stops rest := by
  cases rest with
  | nil => cases next
  | cons char others =>
    have listed : char ∈ marks := by
      by_contra apart
      rw [skipWhitespace_visible _ _ apart] at next
      cases next
      exact apart mark
    have none : ∀ mark ∈ marks, mark.isDigit = false ∧ mark ≠ '.' ∧ mark ≠ 'e' ∧ mark ≠ 'E' := by
      simp [marks]
    refine ⟨cons_ne_nil _ _, fun other head => ?_⟩
    cases head
    exact none char listed

theorem ends_further (rest more : Text) (stops : Stops rest) : EndsNumber (rest ++ more) := by
  obtain ⟨first, others, rfl⟩ := exists_cons_of_ne_nil stops.1
  exact stops.2

theorem scanOnce_nothing (fuel : Nat) : scanOnce fuel [] = none := by
  cases fuel with
  | zero => rfl
  | succ fuel => rfl

theorem skipWhitespace_filled (text more : Text) (filled : skipWhitespace text ≠ []) :
    skipWhitespace (text ++ more) = skipWhitespace text ++ more := by
  obtain ⟨first, rest, next⟩ := exists_cons_of_ne_nil filled
  rw [skipWhitespace_further _ _ _ next, next, cons_append]

/-- Values of a text are read when the text goes on, and with more fuel. -/
def ReadsFurther (fuel : Nat) : Prop :=
  ∀ text rest value, scanOnce fuel text = some (value, rest) →
    ((∃ number, value = .number number) → Stops rest) → ∀ larger, fuel ≤ larger → ∀ more,
      scanOnce larger (text ++ more) = some (value, rest ++ more)

theorem paired_further {fuel : Nat} (further : ReadsFurther fuel) {opened left : Text}
    {key : CodePoints} (paired : Paired fuel opened key value left) (stops : Stops left)
    {larger : Nat} (more : Text) (enough : fuel ≤ larger) :
    Paired larger (opened ++ more) key value (left ++ more) := by
  obtain ⟨afterKey, afterColon, keyed, colon, valued⟩ := paired.exists_steps
  have filled : skipWhitespace afterColon ≠ [] := by
    intro nothing
    rw [nothing, scanOnce_nothing] at valued
    cases valued
  refine ⟨afterKey ++ more, afterColon ++ more, scanString_further _ _ _ key keyed,
    skipWhitespace_further _ _ _ colon, ?_⟩
  rw [skipWhitespace_filled _ _ filled]
  exact further _ _ _ valued (fun _ => stops) larger enough more

theorem scan_further (fuel : Nat) : ReadsFurther fuel ∧
      (∀ text rest pairs, scanPairs fuel text = some (pairs, rest) → ∀ larger, fuel ≤ larger → ∀ more,
        scanPairs larger (text ++ more) = some (pairs, rest ++ more)) ∧
      ∀ text rest items, scanItems fuel text = some (items, rest) → ∀ larger, fuel ≤ larger → ∀ more,
        scanItems larger (text ++ more) = some (items, rest ++ more) := by
  induction fuel with
  | zero =>
    refine ⟨fun text rest value scanned => ?_, fun text rest pairs scanned => ?_,
      fun text rest items scanned => ?_⟩
    · rw [scanOnce] at scanned
      cases scanned
    · rw [scanPairs] at scanned
      cases scanned
    · rw [scanItems] at scanned
      cases scanned
  | succ fuel ih =>
    obtain ⟨once, pairs, items⟩ := ih
    refine ⟨fun text rest value scanned stops larger enough more => ?_,
      fun text rest found scanned larger enough more => ?_,
      fun text rest found scanned larger enough more => ?_⟩
    all_goals
      obtain ⟨larger, rfl⟩ : ∃ smaller, larger = smaller + 1 := ⟨larger - 1, by omega⟩
      replace enough : fuel ≤ larger := Nat.le_of_succ_le_succ enough
    · rcases scanOnce_cases _ scanned with
        ⟨opened, units, rfl, rfl, inside⟩ |
        ⟨opened, rfl, ⟨rfl, closed⟩ | ⟨found, first, inner, rfl, next, filled, inside⟩⟩ |
        ⟨opened, rfl, ⟨rfl, closed⟩ | ⟨found, first, inner, rfl, next, filled, inside⟩⟩ | inside
      · exact scanOnce_quoted _ (scanString_further _ _ _ _ inside)
      · exact scanOnce_emptyObject _ (skipWhitespace_further _ _ _ closed)
      · have later := pairs _ _ _ inside larger enough more
        rw [cons_append] at later ⊢
        rw [scanOnce_object _ _ (skipWhitespace_further _ _ _ next) filled, later]
        rfl
      · exact scanOnce_emptyArray _ (skipWhitespace_further _ _ _ closed)
      · have later := items _ _ _ inside larger enough more
        rw [cons_append] at later ⊢
        rw [scanOnce_array _ (skipWhitespace_further _ _ _ next) filled, later]
        rfl
      · obtain ⟨written, atom, rfl⟩ := scanAtom_parts inside
        obtain ⟨first, others, rfl, apart⟩ := atom_head atom
        have again := scanAtom_written atom
          fun number => ends_further rest more (stops number)
        rw [append_assoc, cons_append, scanOnce_atom _ _ apart]
        exact again
    · obtain ⟨opened, key, value, left, rfl, paired, ⟨rfl, closed⟩ | ⟨others, next, rfl, comma, inside⟩⟩ :=
        scanPairs_cases _ _ _ scanned
      · have stops := stops_of_next closed (by decide)
        exact scanPairs_last _ _ _ _ key
          (paired_further once paired stops _ enough)
          (skipWhitespace_further _ _ _ closed)
      · have stops := stops_of_next comma (by decide)
        have filled : skipWhitespace next ≠ [] := by
          intro nothing
          rw [nothing, (scan_nothing _).1] at inside
          cases inside
        have later := pairs _ _ _ inside larger enough more
        rw [← skipWhitespace_filled _ _ filled] at later
        rw [cons_append, scanPairs_next _ key
          (paired_further once paired stops _ enough)
          (skipWhitespace_further _ _ _ comma), later]
        rfl
    · obtain ⟨value, left, valued, ⟨rfl, closed⟩ | ⟨others, next, rfl, comma, inside⟩⟩ :=
        scanItems_cases _ _ _ scanned
      · have stops := stops_of_next closed (by decide)
        exact scanItems_last _ _ _ _ (once _ _ _ valued (fun _ => stops) larger enough more)
          (skipWhitespace_further _ _ _ closed)
      · have stops := stops_of_next comma (by decide)
        have filled : skipWhitespace next ≠ [] := by
          intro nothing
          rw [nothing, (scan_nothing _).2] at inside
          cases inside
        have later := items _ _ _ inside larger enough more
        rw [← skipWhitespace_filled _ _ filled] at later
        rw [scanItems_next _ (once _ _ _ valued (fun _ => stops) larger enough more)
          (skipWhitespace_further _ _ _ comma), later]
        rfl

end ForgePilot.JsonFronts
