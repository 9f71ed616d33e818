import ForgePilot.JsonWriting
import ForgePilot.Sequences
import Mathlib.Algebra.Order.Ring.Int

/-!
# Objects in a text

A text that is no JSON is searched for an object: from the first opening brace to where braces are closed, as if
there were no strings. What is found is repaired and read. The object is found when its braces match without regard
to strings, those of the strings included, and the text around it does not make it a part of some other value.
-/

namespace ForgePilot.JsonObjects

open JsonReading JsonTokens JsonFronts JsonWriting Sequences List Option

/-- What is raised for a text without an object. -/
structure LLMResponseError where
  message : String
deriving DecidableEq

/-- Search for an object with a depth of braces, from a place on; the start is where the depth was left last. -/
def findObject (text : Text) : Nat → Int → Option Nat → Text → Option Text
  | _, _, _, [] => none
  | place, depth, start, char :: rest =>
      if char = '\x7b' then
        findObject text (place + 1) (depth + 1) (if depth = 0 then some place else start) rest
      else if char = '\x7d' then
        match start with
        | some first =>
            if depth - 1 = 0 then some (slice text (some first) (some ((place + 1 : Nat) : Int)))
            else findObject text (place + 1) (depth - 1) start rest
        | none => findObject text (place + 1) (depth - 1) start rest
      else findObject text (place + 1) depth start rest

/-- The value of a text, or of an object in it. A repair is nothing where it raises one of the errors that are
caught. -/
def loads (repairJson : Text → Option Text) (jsonStr : Text) : Except LLMResponseError Json :=
  match JsonReading.loads jsonStr with
  | some value => .ok value
  | none =>
      match findObject jsonStr 0 0 none jsonStr with
      | none => .error ⟨"No valid JSON object found in response."⟩
      | some response =>
          match (repairJson response).bind JsonReading.loads with
          | some value => .ok value
          | none => .error
              ⟨"Invalid JSON in response. Please make sure the response is a valid JSON object."⟩

/-- A repair leaves objects as they are. -/
def KeepsObjects (repairJson : Text → Option Text) : Prop :=
  ∀ text pairs, JsonReading.loads text = some (.object pairs) → repairJson text = some text

/-- How many more braces are opened than closed. -/
def balance (text : Text) : Int := (text.count '\x7b' : Int) - text.count '\x7d'

/-- The braces of a text match, and those of no shorter front do. -/
def BracesMatch (text : Text) : Prop :=
  balance text = 0 ∧ ∀ length < text.length, 0 < length → balance (text.take length) ≠ 0

instance (text : Text) : Decidable (BracesMatch text) :=
  inferInstanceAs (Decidable
    (balance text = 0 ∧ ∀ length < text.length, 0 < length → balance (text.take length) ≠ 0))

/-! ## Where braces are closed -/

/-- Braces of some depth are closed at the end of a text, and not before. -/
def Closes (depth : Int) (body : Text) : Prop :=
  depth + balance body = 0 ∧ ∀ length < body.length, depth + balance (body.take length) ≠ 0

theorem balance_nil : balance [] = 0 := rfl

theorem balance_append (front back : Text) : balance (front ++ back) = balance front + balance back := by
  simp only [balance, count_append]
  omega

theorem balance_cons (char : Char) (rest : Text) :
    balance (char :: rest) = balance [char] + balance rest := balance_append [char] rest

variable (pairs : List (CodePoints × Json)) (text : Text)

/-- A character that is no brace changes nothing. -/
theorem balance_none (noneOpened : '\x7b' ∉ text) (noneClosed : '\x7d' ∉ text) :
    balance text = 0 := by
  rw [balance, count_eq_zero.mpr noneOpened, count_eq_zero.mpr noneClosed]
  rfl

theorem closes_nil (depth : Int) : Closes depth [] ↔ depth = 0 := by
  simp [Closes, balance_nil]

theorem closes_cons (depth : Int) (char : Char) (body : Text) :
    Closes depth (char :: body) ↔ depth ≠ 0 ∧ Closes (depth + balance [char]) body := by
  constructor
  · rintro ⟨closed, before⟩
    refine ⟨?_, by rw [add_assoc, ← balance_cons]; exact closed, fun length inside => ?_⟩
    · have first := before 0 (Nat.zero_lt_succ _)
      rwa [take_zero, balance_nil, add_zero] at first
    · have later := before (length + 1) (Nat.succ_lt_succ inside)
      rwa [take_succ_cons, balance_cons, ← add_assoc] at later
  · rintro ⟨first, closed, before⟩
    refine ⟨by rw [balance_cons, ← add_assoc]; exact closed, fun length inside => ?_⟩
    cases length with
    | zero => rwa [take_zero, balance_nil, add_zero]
    | succ length =>
      rw [take_succ_cons, balance_cons, ← add_assoc]
      exact before length (Nat.lt_of_succ_lt_succ inside)

/-- Where the depth is zero, there is nothing more. -/
theorem closes_zero (body : Text) : Closes 0 body ↔ body = [] := by
  cases body with
  | nil => simp [closes_nil]
  | cons char body => simp [closes_cons]

theorem bracesMatch_iff (body : Text) : BracesMatch ('\x7b' :: body) ↔ Closes 1 body := by
  have opened : balance ['\x7b'] = 1 := rfl
  constructor
  · rintro ⟨closed, before⟩
    rw [balance_cons, opened] at closed
    refine ⟨closed, fun length inside => ?_⟩
    have later := before (length + 1) (Nat.succ_lt_succ inside) (Nat.succ_pos _)
    rwa [take_succ_cons, balance_cons, opened] at later
  · rintro ⟨closed, before⟩
    refine ⟨by rw [balance_cons, opened]; exact closed, fun length inside positive => ?_⟩
    obtain ⟨shorter, rfl⟩ := Nat.exists_eq_succ_of_ne_zero positive.ne'
    rw [take_succ_cons, balance_cons, opened]
    exact before shorter (Nat.lt_of_succ_lt_succ inside)

/-! ## The search -/

/-- In front of the first brace nothing happens. -/
theorem findObject_skip (before rest : Text) (place : Nat) (noneOpened : '\x7b' ∉ before)
    (noneClosed : '\x7d' ∉ before) :
    findObject text place 0 none (before ++ rest) = findObject text (place + before.length) 0 none rest := by
  induction before generalizing place with
  | nil => rfl
  | cons char before ih =>
    have opened : char ≠ '\x7b' := fun same => noneOpened (by simp [same])
    have closed : char ≠ '\x7d' := fun same => noneClosed (by simp [same])
    rw [cons_append, findObject, if_neg opened, if_neg closed,
      ih _ (fun member => noneOpened (.tail _ member))
        fun member => noneClosed (.tail _ member), length_cons]
    congr 1
    omega

/-- Inside of braces the search ends where they are closed. -/
theorem findObject_iff (rest : Text) (first place : Nat) (depth : Int) (inside : 0 < depth)
    (response : Text) :
    findObject text place depth (some first) rest = some response ↔
      ∃ body more, rest = body ++ more ∧ Closes depth body ∧
        response = slice text (some first) (some ((place + body.length : Nat) : Int)) := by
  induction rest generalizing place depth with
  | nil =>
    constructor
    · intro found
      cases found
    · rintro ⟨body, more, split, closes, -⟩
      obtain ⟨rfl, -⟩ := append_eq_nil_iff.mp split.symm
      exact absurd ((closes_nil _).mp closes) inside.ne'
  | cons char rest ih =>
    -- what is found behind the character, and what is found with it
    have step : (∃ body more, char :: rest = body ++ more ∧ Closes depth body ∧
        response = slice text (some first) (some ((place + body.length : Nat) : Int))) ↔
        ∃ body more, rest = body ++ more ∧ Closes (depth + balance [char]) body ∧
          response = slice text (some first) (some ((place + 1 + body.length : Nat) : Int)) := by
      constructor
      · rintro ⟨body, more, split, closes, same⟩
        cases body with
        | nil => exact absurd ((closes_nil _).mp closes) inside.ne'
        | cons other body =>
          obtain ⟨rfl, later⟩ := cons.inj split
          refine ⟨body, more, later, ((closes_cons ..).mp closes).2, ?_⟩
          rw [same, length_cons]
          congr 3
          omega
      · rintro ⟨body, more, rfl, closes, same⟩
        refine ⟨char :: body, more, rfl, (closes_cons ..).mpr ⟨inside.ne', closes⟩, ?_⟩
        rw [same, length_cons]
        congr 3
        omega
    rw [step]
    by_cases opened : char = '\x7b'
    · obtain rfl := opened
      rw [findObject, if_pos rfl, if_neg inside.ne']
      exact ih (place + 1) (depth + 1) (by omega)
    by_cases closed : char = '\x7d'
    · obtain rfl := closed
      rw [findObject, if_neg opened, if_pos rfl]
      by_cases last : depth = 1
      · obtain rfl := last
        have ended : (1 : Int) + balance ['\x7d'] = 0 := rfl
        rw [if_pos (by decide), ended]
        simp only [closes_zero]
        constructor
        · intro found
          exact ⟨[], rest, rfl, rfl, (some.inj found).symm⟩
        · rintro ⟨body, more, -, rfl, same⟩
          exact congrArg some same.symm
      · rw [if_neg (by omega)]
        exact ih (place + 1) (depth - 1) (by omega)
    · have none : balance [char] = 0 :=
        balance_none _ (by simpa using Ne.symm opened) (by simpa using Ne.symm closed)
      rw [findObject, if_neg opened, if_neg closed, none, add_zero]
      exact ih (place + 1) depth inside

/-- The search through a text around an object, from its first brace on. -/
theorem findObject_around (before tail : Text) (noneOpened : '\x7b' ∉ before) (noneClosed : '\x7d' ∉ before)
    (response : Text) :
    findObject (before ++ '\x7b' :: tail) 0 0 none (before ++ '\x7b' :: tail) = some response ↔
      ∃ body more, tail = body ++ more ∧ Closes 1 body ∧ response = '\x7b' :: body := by
  rw [findObject_skip _ _ _ 0 noneOpened noneClosed, findObject, if_pos rfl, if_pos rfl, Nat.zero_add,
    zero_add, findObject_iff _ _ _ _ 1 one_pos]
  have cutOut (body more : Text) : slice (before ++ '\x7b' :: (body ++ more)) (some (before.length : Int))
      (some ((before.length + 1 + body.length : Nat) : Int)) = '\x7b' :: body := by
    rw [slice_natural]
    have front : before ++ '\x7b' :: (body ++ more) = (before ++ '\x7b' :: body) ++ more := by simp
    have length : before.length + 1 + body.length = (before ++ '\x7b' :: body).length := by
      simp only [length_append, length_cons]
      omega
    rw [front, length, take_left, drop_left]
  constructor
  · rintro ⟨body, more, rfl, closes, same⟩
    exact ⟨body, more, rfl, closes, same.trans (cutOut body more)⟩
  · rintro ⟨body, more, rfl, closes, same⟩
    exact ⟨body, more, rfl, closes, same.trans (cutOut body more).symm⟩

/-! ## Whole texts -/

/-- All characters are whitespace. -/
def Blank (text : Text) : Prop := ∀ character ∈ text, isWhitespace character = true

instance (text : Text) : Decidable (Blank text) :=
  List.decidableBAll (isWhitespace · = true) text

theorem blank_iff : Blank text ↔ skipWhitespace text = [] :=
  dropWhile_eq_nil_iff.symm

theorem skip_blank (before rest : Text) (blank : Blank before) :
    skipWhitespace (before ++ rest) = skipWhitespace rest :=
  dropWhile_append_of_pos blank

/-- The text of an object begins with a brace. -/
theorem dumps_object : dumps (.object pairs) = '\x7b' :: (dumpsPairs pairs ++ ['\x7d']) := by
  rw [dumps]

theorem skip_object (rest : Text) :
    skipWhitespace (dumps (.object pairs) ++ rest) = dumps (.object pairs) ++ rest := by
  rw [dumps_object]
  rfl

theorem loads_some {value : Json} (read : JsonReading.loads text = some value) :
    ∃ rest, scanOnce (text.length + 1) (skipWhitespace text) = some (value, rest) ∧ Blank rest := by
  rw [JsonReading.loads] at read
  split at read
  · cases read
  split at read
  · cases read
  rename_i found rest scanned
  split at read
  · rename_i blank
    cases read
    exact ⟨rest, scanned, (blank_iff _).mpr blank⟩
  · cases read

/-- An object with whitespace around it is read. -/
theorem loads_surrounded (fits : writable (.object pairs) = true) (before after : Text)
    (front : Blank before) (back : Blank after) :
    JsonReading.loads (before ++ dumps (.object pairs) ++ after) = some (reread (.object pairs)) := by
  have noMark : (before ++ dumps (.object pairs) ++ after).head? ≠ some (Char.ofNat 0xFEFF) := by
    cases before with
    | nil =>
      rw [dumps_object]
      exact (by decide : some '\x7b' ≠ some (Char.ofNat 0xFEFF))
    | cons character before =>
      intro mark
      have white := front character (.head _)
      rw [some.inj mark] at white
      revert white
      decide
  have scanned := object_back pairs fits ((before ++ dumps (.object pairs) ++ after).length + 1)
    (by simp only [length_append]; omega) after
  rw [JsonReading.loads, if_neg noMark, append_assoc, skip_blank before _ front, skip_object,
    ← append_assoc, scanned]
  dsimp only
  rw [(blank_iff after).mp back, if_pos rfl]

/-- An object that is read begins with a brace. -/
theorem object_opened {fuel : Nat} {text rest : Text} {pairs : List (CodePoints × Json)}
    (scanned : scanOnce fuel text = some (.object pairs, rest)) : text.head? = some '\x7b' := by
  cases fuel with
  | zero => cases scanned
  | succ fuel =>
    rcases scanOnce_cases _ scanned with
      ⟨_, _, _, same, _⟩ | ⟨opened, rfl, -⟩ | ⟨_, _, ⟨same, _⟩ | ⟨_, _, _, same, _⟩⟩ | atom
    · cases same
    · rfl
    · cases same
    · cases same
    · exact absurd rfl ((scanAtom_spec atom).2.1 pairs)

/-- A text that is read as an object has only whitespace around the one that was written. -/
theorem surrounded_of_loads {pairs found : List (CodePoints × Json)} (fits : writable (.object pairs) = true)
    {before after : Text} (noneOpened : '\x7b' ∉ before)
    (read : JsonReading.loads (before ++ dumps (.object pairs) ++ after) = some (.object found)) :
    Blank before ∧ Blank after ∧ reread (.object pairs) = .object found := by
  obtain ⟨rest, scanned, blank⟩ := loads_some _ read
  have front : Blank before := by
    by_contra filled
    rw [blank_iff] at filled
    have opened := object_opened scanned
    rw [append_assoc, skipWhitespace_filled _ _ filled] at opened
    obtain ⟨first, others, same⟩ := exists_cons_of_ne_nil filled
    rw [same] at opened
    cases opened
    exact noneOpened ((skipWhitespace_suffix ..).subset (by rw [same]; exact .head _))
  rw [append_assoc, skip_blank _ _ front, skip_object,
    object_back _ fits _ (by simp only [length_append]; omega) _] at scanned
  obtain ⟨same, rfl⟩ := Prod.mk.inj (some.inj scanned)
  exact ⟨front, blank, same⟩

/-- The value of the text that was written, by itself. -/
theorem loads_dumps (fits : writable (.object pairs) = true) :
    JsonReading.loads (dumps (.object pairs)) = some (reread (.object pairs)) := by
  have read := loads_surrounded _ fits [] [] (fun _ member => by cases member) fun _ member => by cases member
  rwa [nil_append, append_nil] at read

/-- Of a front of the text that is followed by something, the whole object is not read. -/
theorem front_whole (found : List (CodePoints × Json)) (fits : writable (.object pairs) = true)
    (front more : Text) (split : dumps (.object pairs) = front ++ more)
    (opened : skipWhitespace front = front) (read : JsonReading.loads front = some (.object found))
    :
    more = [] ∧ reread (.object pairs) = .object found := by
  obtain ⟨rest, scanned, -⟩ := loads_some _ read
  rw [opened] at scanned
  have further := (scan_further _).1 _ _ _ scanned (by rintro ⟨number, same⟩; cases same)
    ((dumps (.object pairs)).length + 1) (by rw [split, length_append]; omega) more
  have whole := object_back _ fits _ (Nat.lt_succ_self _) []
  rw [append_nil] at whole
  rw [← split, whole] at further
  obtain ⟨same, nothing⟩ := Prod.mk.inj (some.inj further)
  exact ⟨(append_eq_nil_iff.mp nothing.symm).2, same⟩

/-! ## Objects that are found -/

/-- The repair that leaves objects as they are and raises for other texts. -/
def onlyObjects (text : Text) : Option Text :=
  match JsonReading.loads text with
  | some (.object _) => some text
  | _ => none

theorem onlyObjects_keeps : KeepsObjects onlyObjects := by
  intro text pairs read
  rw [onlyObjects, read]

theorem onlyObjects_read (value : Json)
    (read : (onlyObjects text).bind JsonReading.loads = some value) :
    JsonReading.loads text = some value := by
  rw [onlyObjects] at read
  split at read
  · exact read
  · cases read

/-- A body that closes the first brace and is read as the object is the whole text of it. -/
theorem closes_whole {pairs found : List (CodePoints × Json)} (fits : writable (.object pairs) = true)
    {after body more : Text} (split : dumpsPairs pairs ++ ['\x7d'] ++ after = body ++ more)
    (closes : Closes 1 body) (read : JsonReading.loads ('\x7b' :: body) = some (.object found)) :
    body = dumpsPairs pairs ++ ['\x7d'] ∧ reread (.object pairs) = .object found := by
  rcases append_eq_append_iff.mp split with ⟨rest, rfl, -⟩ | ⟨rest, same, -⟩
  · -- what stands behind the object is whitespace, so the braces were closed before
    have whole : JsonReading.loads ([] ++ dumps (.object pairs) ++ rest) = some (.object found) := by
      rw [dumps_object]
      exact read
    obtain ⟨-, blank, same⟩ := surrounded_of_loads fits (by simp) whole
    have none : balance rest = 0 := by
      apply balance_none
      · exact fun member => absurd (blank _ member) (by decide)
      · exact fun member => absurd (blank _ member) (by decide)
    obtain ⟨closed, before⟩ := closes
    rw [balance_append, none, add_zero] at closed
    cases rest with
    | nil => exact ⟨append_nil _, same⟩
    | cons character rest =>
      have early := before (dumpsPairs pairs ++ ['\x7d']).length (by
        simp only [length_append, length_cons]
        omega)
      rw [take_left] at early
      exact absurd closed early
  · have front : dumps (.object pairs) = '\x7b' :: body ++ rest := by
      rw [dumps_object, same, cons_append]
    obtain ⟨rfl, result⟩ := front_whole _ _ fits _ _ front rfl read
    rw [append_nil] at same
    exact ⟨same.symm, result⟩

/-- An object with a string of a quote, a backslash and matching braces. -/
def nested : List (CodePoints × Json) :=
  [("a".toList.map Char.toNat, .string ("\\\"\x7b\x7d".toList.map Char.toNat)), ([98], .object [([99], .null)])]

end ForgePilot.JsonObjects
