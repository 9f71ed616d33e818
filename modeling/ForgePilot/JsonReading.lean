import Mathlib.Data.List.Infix

/-!
# Reading JSON

A text is read as the library of the language reads it: strings may not hold control characters, escapes of
two surrogates in a row make one code point, numbers are kept as they are written, and a repeated key of
an object is kept as well. A string is a list of code points, since an escape can name a surrogate
that stands alone. How deep values are nested is limited by the fuel.
-/

namespace ForgePilot.JsonReading

open List Option

abbrev Text := List Char

abbrev CodePoints := List Nat

inductive Json where
  | null
  | bool (value : Bool)
  | number (written : Text)
  | string (points : CodePoints)
  | array (items : List Json)
  | object (pairs : List (CodePoints × Json))

/-! ## Strings -/

/-- What is named after a backslash. -/
def escaped : Char → Option Nat
  | '"' => some 34
  | '\\' => some 92
  | '/' => some 47
  | 'b' => some 8
  | 'f' => some 12
  | 'n' => some 10
  | 'r' => some 13
  | 't' => some 9
  | _ => none

def hexValue (character : Char) : Option Nat :=
  if '0' ≤ character ∧ character ≤ '9' then some (character.toNat - '0'.toNat)
  else if 'a' ≤ character ∧ character ≤ 'f' then some (character.toNat - 'a'.toNat + 10)
  else if 'A' ≤ character ∧ character ≤ 'F' then some (character.toNat - 'A'.toNat + 10)
  else none

/-- The code unit of four hexadecimal digits. -/
def hexUnit (first second third fourth : Char) : Option Nat := do
  let first ← hexValue first
  let second ← hexValue second
  let third ← hexValue third
  let fourth ← hexValue fourth
  pure (((first * 16 + second) * 16 + third) * 16 + fourth)

/-- The units of a string after its opening quote, and what follows its closing quote. -/
def scanString : Text → Option (CodePoints × Text)
  | [] => none
  | '"' :: rest => some ([], rest)
  | '\\' :: 'u' :: first :: second :: third :: fourth :: rest =>
      match hexUnit first second third fourth with
      | none => none
      | some unit => (scanString rest).map fun scanned => (unit :: scanned.1, scanned.2)
  | '\\' :: character :: rest =>
      match escaped character with
      | none => none
      | some unit => (scanString rest).map fun scanned => (unit :: scanned.1, scanned.2)
  | character :: rest =>
      if character.toNat < 32 ∨ character = '\\' then none
      else (scanString rest).map fun scanned => (character.toNat :: scanned.1, scanned.2)

/-- Surrogates in a row are one code point. -/
def combined : CodePoints → CodePoints
  | high :: low :: rest =>
      if 0xD800 ≤ high ∧ high ≤ 0xDBFF ∧ 0xDC00 ≤ low ∧ low ≤ 0xDFFF then
        (0x10000 + (high - 0xD800) * 0x400 + (low - 0xDC00)) :: combined rest
      else high :: combined (low :: rest)
  | points => points

/-! ## Values -/

def isWhitespace (character : Char) : Bool :=
  character = ' ' || character = '\t' || character = '\n' || character = '\r'

def skipWhitespace (text : Text) : Text := text.dropWhile isWhitespace

def word (written : String) (value : Json) (text : Text) : Option (Json × Text) :=
  if written.toList.isPrefixOf text then some (value, text.drop written.length) else none

/-- Digits in front of a text, and the rest. -/
def digits (text : Text) : Text × Text := (text.takeWhile Char.isDigit, text.dropWhile Char.isDigit)

/-- A fraction in front of a text, if there is one. -/
def fraction (text : Text) : Text × Text :=
  match text with
  | '.' :: rest =>
      let (after, rest) := digits rest
      if after = [] then ([], text) else ('.' :: after, rest)
  | _ => ([], text)

/-- One of some signs in front of a text, if there is one. -/
def sign (signs text : Text) : Text × Text :=
  match text with
  | mark :: rest => if mark ∈ signs then ([mark], rest) else ([], text)
  | [] => ([], text)

/-- An exponent in front of a text, if there is one. -/
def exponent (text : Text) : Text × Text :=
  match text with
  | mark :: rest =>
      if mark = 'e' ∨ mark = 'E' then
        let (signed, unsigned) := sign ['+', '-'] rest
        let (after, left) := digits unsigned
        if after = [] then ([], text) else (mark :: (signed ++ after), left)
      else ([], text)
  | [] => ([], text)

/-- A whole number without superfluous zeros in front of a text. -/
def whole (text : Text) : Option (Text × Text) :=
  match text with
  | '0' :: rest => some (['0'], rest)
  | character :: rest =>
      if character.isDigit then
        let (after, left) := digits rest
        some (character :: after, left)
      else none
  | [] => none

def scanNumber (text : Text) : Option (Json × Text) := do
  let (signed, unsigned) := sign ['-'] text
  let (integer, rest) ← whole unsigned
  let (fractional, rest) := fraction rest
  let (exponential, rest) := exponent rest
  pure (.number (signed ++ integer ++ fractional ++ exponential), rest)

/-- The words and numbers. -/
def scanAtom (text : Text) : Option (Json × Text) :=
  (((((word "null" .null text).or (word "true" (.bool true) text)).or
    (word "false" (.bool false) text)).or (scanNumber text)).or
      (word "NaN" (.number "NaN".toList) text)).or
        ((word "Infinity" (.number "Infinity".toList) text).or
          (word "-Infinity" (.number "-Infinity".toList) text))

mutual

/-- A value in front of a text. -/
def scanOnce : Nat → Text → Option (Json × Text)
  | 0, _ => none
  | fuel + 1, text =>
      match text with
      | '"' :: rest => (scanString rest).map fun scanned => (.string (combined scanned.1), scanned.2)
      | '{' :: rest =>
          match skipWhitespace rest with
          | '}' :: rest => some (.object [], rest)
          | rest => (scanPairs fuel rest).map fun scanned => (.object scanned.1, scanned.2)
      | '[' :: rest =>
          match skipWhitespace rest with
          | ']' :: rest => some (.array [], rest)
          | rest => (scanItems fuel rest).map fun scanned => (.array scanned.1, scanned.2)
      | text => scanAtom text

/-- The pairs of an object, up to its end. -/
def scanPairs : Nat → Text → Option (List (CodePoints × Json) × Text)
  | 0, _ => none
  | fuel + 1, text =>
      match text with
      | '"' :: rest =>
          match scanString rest with
          | none => none
          | some (key, rest) =>
              match skipWhitespace rest with
              | ':' :: rest =>
                  match scanOnce fuel (skipWhitespace rest) with
                  | none => none
                  | some (value, rest) =>
                      match skipWhitespace rest with
                      | '}' :: rest => some ([(combined key, value)], rest)
                      | ',' :: rest =>
                          (scanPairs fuel (skipWhitespace rest)).map fun scanned =>
                            ((combined key, value) :: scanned.1, scanned.2)
                      | _ => none
              | _ => none
      | _ => none

/-- The items of an array, up to its end. -/
def scanItems : Nat → Text → Option (List Json × Text)
  | 0, _ => none
  | fuel + 1, text =>
      match scanOnce fuel text with
      | none => none
      | some (value, rest) =>
          match skipWhitespace rest with
          | ']' :: rest => some ([value], rest)
          | ',' :: rest =>
              (scanItems fuel (skipWhitespace rest)).map fun scanned =>
                (value :: scanned.1, scanned.2)
          | _ => none

end

/-- The value of a text; nothing may follow it, and a byte order mark may not precede it. -/
def loads (text : Text) : Option Json :=
  if text.head? = some (Char.ofNat 0xFEFF) then none
  else
    match scanOnce (text.length + 1) (skipWhitespace text) with
    | none => none
    | some (value, rest) => if skipWhitespace rest = [] then some value else none

/-- The value of a key of an object: the last pair with this key counts. -/
def valueOf (key : CodePoints) (pairs : List (CodePoints × Json)) : Option Json :=
  (pairs.reverse.find? fun pair => pair.1 = key).map Prod.snd

/-! ## What a string is made of -/

/-- What stands between the quotes of a string, and the units that it names. -/
structure Body (raw : Text) (units : CodePoints) : Prop where
  plain : '\\' ∉ raw →
    units = raw.map Char.toNat ∧ ∀ character ∈ raw, character ≠ '"' ∧ 32 ≤ character.toNat
  shorter : '\\' ∈ raw → units.length < raw.length
  line : '\n' ∉ raw
  quotes : ∀ front back, raw = front ++ '"' :: back → ∃ earlier, front = earlier ++ ['\\']

variable (fuel : Nat) (text rest : Text) (pairs : List (CodePoints × Json)) (units : CodePoints)
  {raw : Text}

theorem Body.length_le {units : CodePoints} (body : Body raw units) :
    units.length ≤ raw.length := by
  by_cases slash : '\\' ∈ raw
  · exact Nat.le_of_lt (body.shorter slash)
  · rw [(body.plain slash).1, length_map]

theorem body_nil : Body [] [] where
  plain _ := ⟨rfl, by simp⟩
  shorter slash := by cases slash
  line := not_mem_nil
  quotes front back same := by simp at same

theorem body_cons {units : CodePoints} (body : Body raw units) (character : Char)
    (notQuote : character ≠ '"') (notSlash : character ≠ '\\') (visible : 32 ≤ character.toNat) :
    Body (character :: raw) (character.toNat :: units) where
  plain absent := by
    obtain ⟨same, all⟩ := body.plain fun slash => absent (.tail _ slash)
    refine ⟨by rw [same, map_cons], ?_⟩
    rintro other listed
    rcases listed with _ | ⟨_, later⟩
    · exact ⟨notQuote, visible⟩
    · exact all other later
  shorter slash := by
    have later := (mem_cons.mp slash).resolve_left notSlash.symm
    have shorter := body.shorter later
    rw [length_cons, length_cons]
    omega
  line listed := by
    rcases listed with _ | ⟨_, later⟩
    · exact absurd visible (by decide)
    · exact body.line later
  quotes front back same := by
    cases front with
    | nil => exact absurd (cons.inj same).1 notQuote
    | cons head front =>
      obtain ⟨heads, tails⟩ := cons.inj same
      obtain ⟨earlier, rfl⟩ := body.quotes front back tails
      exact ⟨character :: earlier, by rw [heads]; rfl⟩

/-- An escape of one unit: a backslash, a character, and maybe digits. -/
theorem body_escape {units : CodePoints} (body : Body raw units) (character : Char) (others : Text)
    (unit : Nat) (notLine : character ≠ '\n') (plain : ∀ other ∈ others, other ≠ '"' ∧ other ≠ '\n')
    :
    Body ('\\' :: character :: (others ++ raw)) (unit :: units) where
  plain absent := absurd (.head _) absent
  shorter _ := by
    have longer := body.length_le
    simp only [length_cons, length_append]
    omega
  line listed := by
    rcases mem_cons.mp listed with slash | listed
    · cases slash
    · rcases mem_cons.mp listed with same | listed
      · exact notLine same.symm
      · exact (mem_append.mp listed).elim (fun other => (plain _ other).2 rfl) body.line
  quotes front back same := by
    match front, same with
    | [], same => exact absurd (cons.inj same).1 (by decide)
    | [head], same =>
      cases same
      exact ⟨[], rfl⟩
    | head :: second :: front, same =>
      obtain ⟨heads, same⟩ := cons.inj same
      obtain ⟨seconds, same⟩ := cons.inj same
      rw [← heads, ← seconds]
      -- The quote is not among the digits, so it stands in what follows them.
      rcases append_eq_append_iff.mp same with ⟨more, rfl, split⟩ | ⟨more, digits, split⟩
      · obtain ⟨earlier, rfl⟩ := body.quotes more back split
        exact ⟨'\\' :: character :: (others ++ earlier), by simp⟩
      cases more with
      | nil =>
        have empty : raw = [] ++ '"' :: back := split.symm
        obtain ⟨earlier, impossible⟩ := body.quotes [] back empty
        simp at impossible
      | cons first more =>
        cases split
        refine absurd rfl (plain '"' ?_).1
        rw [digits]
        simp

theorem escaped_spec {character : Char} {unit : Nat} (named : escaped character = some unit) :
    character ≠ '\n' := by
  rintro rfl
  cases named

theorem hexValue_spec {character : Char} {value : Nat} (named : hexValue character = some value) :
    character ≠ '"' ∧ character ≠ '\n' := by
  constructor
  · rintro rfl
    cases named
  · rintro rfl
    cases named

theorem hexUnit_spec {first second third fourth : Char} {unit : Nat}
    (named : hexUnit first second third fourth = some unit) :
    ∀ other ∈ [first, second, third, fourth], other ≠ '"' ∧ other ≠ '\n' := by
  rw [hexUnit] at named
  obtain ⟨_, one, named⟩ := bind_eq_some_iff.mp named
  obtain ⟨_, two, named⟩ := bind_eq_some_iff.mp named
  obtain ⟨_, three, named⟩ := bind_eq_some_iff.mp named
  obtain ⟨_, four, -⟩ := bind_eq_some_iff.mp named
  simp only [forall_mem_cons]
  exact ⟨hexValue_spec one, hexValue_spec two, hexValue_spec three, hexValue_spec four, by simp⟩

/-- A string that was scanned stands in front of its closing quote. -/
theorem scanString_body (scanned : scanString text = some (units, rest)) :
    ∃ raw, text = raw ++ '"' :: rest ∧ Body raw units := by
  fun_induction scanString text generalizing units rest with
  | case1 => cases scanned
  | case2 after =>
    cases scanned
    exact ⟨[], rfl, body_nil⟩
  | case3 => cases scanned
  | case4 first second third fourth after unit named ih =>
    obtain ⟨⟨inner, left⟩, inside, same⟩ := map_eq_some_iff.mp scanned
    cases same
    obtain ⟨raw, rfl, body⟩ := ih _ _ inside
    exact ⟨_, rfl, body_escape body 'u' _ _ (by decide)
      (hexUnit_spec named)⟩
  | case5 => cases scanned
  | case6 character after notUnit unit named ih =>
    obtain ⟨⟨inner, left⟩, inside, same⟩ := map_eq_some_iff.mp scanned
    cases same
    obtain ⟨raw, rfl, body⟩ := ih _ _ inside
    exact ⟨_, rfl, body_escape body _ [] _ (escaped_spec named) (by simp)⟩
  | case7 => cases scanned
  | case8 character after notQuote notUnit notEscape visible ih =>
    obtain ⟨⟨inner, left⟩, inside, same⟩ := map_eq_some_iff.mp scanned
    cases same
    obtain ⟨raw, rfl, body⟩ := ih _ _ inside
    obtain ⟨small, notSlash⟩ := not_or.mp visible
    exact ⟨_, rfl, body_cons body _ notQuote notSlash (Nat.le_of_not_lt small)⟩

theorem combined_length_le : (combined units).length ≤ units.length := by
  fun_induction combined units with
  | case1 high low rest pair ih =>
    simp only [length_cons]
    omega
  | case2 high low rest single ih =>
    simp only [length_cons] at ih ⊢
    omega
  | case3 => exact le_rfl

/-- No character is a surrogate. -/
theorem combined_characters : combined (text.map Char.toNat) = text.map Char.toNat := by
  induction text with
  | nil => rfl
  | cons first rest ih =>
    cases rest with
    | nil => rfl
    | cons second rest =>
      rw [map_cons, map_cons, combined, if_neg, ← map_cons, ih]
      rintro ⟨low, high, -⟩
      rcases first.valid with below | above
      · exact absurd below (by change ¬ first.toNat < 0xD800; omega)
      · exact absurd above.1 (by change ¬ 0xDFFF < first.toNat; omega)

/-! ## What is left of a text -/

theorem skipWhitespace_suffix : skipWhitespace text <:+ text := dropWhile_suffix isWhitespace

theorem digits_suffix : (digits text).2 <:+ text := dropWhile_suffix _

theorem word_spec {written : String} {value found : Json} {text rest : Text}
    (scanned : word written value text = some (found, rest)) : found = value ∧ rest <:+ text := by
  rw [word] at scanned
  split at scanned
  · cases scanned
    exact ⟨rfl, drop_suffix _ _⟩
  · cases scanned

theorem fraction_suffix : (fraction text).2 <:+ text := by
  unfold fraction
  split
  · rename_i rest
    dsimp only
    split
    · exact suffix_refl _
    · exact (digits_suffix _).trans (suffix_cons _ _)
  · exact suffix_refl _

theorem sign_suffix (signs text : Text) : (sign signs text).2 <:+ text := by
  unfold sign
  split
  · split
    · exact suffix_cons _ _
    · exact suffix_refl _
  · exact suffix_refl _

theorem exponent_suffix : (exponent text).2 <:+ text := by
  unfold exponent
  split
  · rename_i mark rest
    split
    · dsimp only
      split
      · exact suffix_refl _
      · exact ((digits_suffix _).trans (sign_suffix ..)).trans (suffix_cons _ _)
    · exact suffix_refl _
  · exact suffix_refl _

theorem whole_suffix {integer rest : Text} (scanned : whole text = some (integer, rest)) :
    rest <:+ text := by
  unfold whole at scanned
  split at scanned
  · cases scanned
    exact suffix_cons _ _
  · split at scanned
    · cases scanned
      exact (digits_suffix _).trans (suffix_cons _ _)
    · cases scanned
  · cases scanned

theorem scanNumber_spec (value : Json) (scanned : scanNumber text = some (value, rest)) :
    (∃ written, value = .number written) ∧ rest <:+ text := by
  rw [scanNumber] at scanned
  obtain ⟨⟨integer, after⟩, wholeScanned, scanned⟩ := bind_eq_some_iff.mp scanned
  cases scanned
  refine ⟨⟨_, rfl⟩, ?_⟩
  exact (((exponent_suffix _).trans (fraction_suffix _)).trans
    (whole_suffix _ wholeScanned)).trans (sign_suffix ..)

variable {value : Json}

/-- A word or a number is no string and no object, and it is taken from the front of the text. -/
theorem scanAtom_spec {text rest : Text} (scanned : scanAtom text = some (value, rest)) :
    (∀ points, value ≠ .string points) ∧ (∀ pairs, value ≠ .object pairs) ∧ rest <:+ text := by
  have worded : ∀ (written : String) (named : Json), (∀ points, named ≠ .string points) →
      (∀ pairs, named ≠ .object pairs) → word written named text = some (value, rest) →
        (∀ points, value ≠ .string points) ∧ (∀ pairs, value ≠ .object pairs) ∧ rest <:+ text := by
    intro written named notString notObject found
    obtain ⟨rfl, suffix⟩ := word_spec found
    exact ⟨notString, notObject, suffix⟩
  rw [scanAtom] at scanned
  simp only [or_eq_some_iff] at scanned
  rcases scanned with ((((found | ⟨-, found⟩) | ⟨-, found⟩) | ⟨-, found⟩) | ⟨-, found⟩) |
    ⟨-, found | ⟨-, found⟩⟩
  · exact worded _ _ (by simp) (by simp) found
  · exact worded _ _ (by simp) (by simp) found
  · exact worded _ _ (by simp) (by simp) found
  · obtain ⟨⟨written, rfl⟩, suffix⟩ := scanNumber_spec _ _ _ found
    exact ⟨by simp, by simp, suffix⟩
  · exact worded _ _ (by simp) (by simp) found
  · exact worded _ _ (by simp) (by simp) found
  · exact worded _ _ (by simp) (by simp) found

theorem scanString_suffix (scanned : scanString text = some (units, rest)) : rest <:+ text := by
  obtain ⟨raw, rfl, -⟩ := scanString_body _ _ _ scanned
  exact ⟨raw ++ ['"'], by simp⟩

/-! ## Steps of a value -/

structure Paired (opened : Text) (key : CodePoints) (value : Json) (left : Text) : Prop where
  exists_steps : ∃ afterKey afterColon, scanString opened = some (key, afterKey) ∧
    skipWhitespace afterKey = ':' :: afterColon ∧ scanOnce fuel (skipWhitespace afterColon) = some (value, left)

/-- Pairs are the last one, or one in front of others. -/
theorem scanPairs_cases {pairs : List (CodePoints × Json)}
    (scanned : scanPairs (fuel + 1) text = some (pairs, rest)) :
    ∃ opened key value left, text = '"' :: opened ∧ Paired fuel opened key value left ∧
      ((pairs = [(combined key, value)] ∧ skipWhitespace left = '\x7d' :: rest) ∨
        ∃ others next, pairs = (combined key, value) :: others ∧ skipWhitespace left = ',' :: next ∧
          scanPairs fuel (skipWhitespace next) = some (others, rest)) := by
  unfold scanPairs at scanned
  split at scanned
  · rename_i opened
    split at scanned
    · cases scanned
    rename_i key afterKey keyed
    split at scanned
    · rename_i afterColon colon
      split at scanned
      · cases scanned
      rename_i value left valued
      refine ⟨opened, key, value, left, rfl, ⟨afterKey, afterColon, keyed, colon, valued⟩, ?_⟩
      split at scanned
      · rename_i closed
        cases scanned
        exact .inl ⟨rfl, closed⟩
      · rename_i next comma
        obtain ⟨⟨others, last⟩, inside, same⟩ := map_eq_some_iff.mp scanned
        cases same
        exact .inr ⟨others, next, rfl, comma, inside⟩
      · cases scanned
    · cases scanned
  · cases scanned

/-- Items are the last one, or one in front of others. -/
theorem scanItems_cases {items : List Json}
    (scanned : scanItems (fuel + 1) text = some (items, rest)) :
    ∃ value left, scanOnce fuel text = some (value, left) ∧
      ((items = [value] ∧ skipWhitespace left = ']' :: rest) ∨
        ∃ others next, items = value :: others ∧ skipWhitespace left = ',' :: next ∧
          scanItems fuel (skipWhitespace next) = some (others, rest)) := by
  rw [scanItems] at scanned
  split at scanned
  · cases scanned
  rename_i value left valued
  refine ⟨value, left, valued, ?_⟩
  split at scanned
  · rename_i closed
    cases scanned
    exact .inl ⟨rfl, closed⟩
  · rename_i next comma
    obtain ⟨⟨others, last⟩, inside, same⟩ := Option.map_eq_some_iff.mp scanned
    cases same
    exact .inr ⟨others, next, rfl, comma, inside⟩
  · cases scanned

theorem scan_nothing : scanPairs fuel [] = none ∧ scanItems fuel [] = none := by
  cases fuel with
  | zero => exact ⟨rfl, rfl⟩
  | succ fuel =>
    refine ⟨rfl, ?_⟩
    cases fuel with
    | zero => rfl
    | succ fuel => rfl

/-- A value is a string, an object or an array, or what is read otherwise. -/
theorem scanOnce_cases {text rest : Text} (scanned : scanOnce (fuel + 1) text = some (value, rest))
    :
    (∃ opened units, text = '"' :: opened ∧ value = .string (combined units) ∧
        scanString opened = some (units, rest)) ∨
      (∃ opened, text = '\x7b' :: opened ∧
        ((value = .object [] ∧ skipWhitespace opened = '\x7d' :: rest) ∨
          ∃ pairs first inner, value = .object pairs ∧ skipWhitespace opened = first :: inner ∧
            first ≠ '\x7d' ∧ scanPairs fuel (first :: inner) = some (pairs, rest))) ∨
      (∃ opened, text = '[' :: opened ∧ ((value = .array [] ∧ skipWhitespace opened = ']' :: rest) ∨
          ∃ items first inner, value = .array items ∧ skipWhitespace opened = first :: inner ∧
            first ≠ ']' ∧ scanItems fuel (first :: inner) = some (items, rest))) ∨
      scanAtom text = some (value, rest) := by
  unfold scanOnce at scanned
  split at scanned
  · rename_i opened
    obtain ⟨⟨units, left⟩, inside, same⟩ := Option.map_eq_some_iff.mp scanned
    cases same
    exact .inl ⟨opened, units, rfl, rfl, inside⟩
  · rename_i opened
    refine .inr (.inl ⟨opened, rfl, ?_⟩)
    split at scanned
    · rename_i closed
      cases scanned
      exact .inl ⟨rfl, closed⟩
    rename_i other
    obtain ⟨⟨pairs, left⟩, inside, same⟩ := Option.map_eq_some_iff.mp scanned
    cases same
    cases next : skipWhitespace opened with
    | nil =>
      rw [next, (scan_nothing _).1] at inside
      cases inside
    | cons first inner =>
      rw [next] at inside other
      exact .inr ⟨pairs, first, inner, rfl, rfl, fun same => other inner (by rw [same]), inside⟩
  · rename_i opened
    refine .inr (.inr (.inl ⟨opened, rfl, ?_⟩))
    split at scanned
    · rename_i closed
      cases scanned
      exact .inl ⟨rfl, closed⟩
    rename_i other
    obtain ⟨⟨items, left⟩, inside, same⟩ := Option.map_eq_some_iff.mp scanned
    cases same
    cases next : skipWhitespace opened with
    | nil =>
      rw [next, (scan_nothing _).2] at inside
      cases inside
    | cons first inner =>
      rw [next] at inside other
      exact .inr ⟨items, first, inner, rfl, rfl, fun same => other inner (by rw [same]), inside⟩
  · exact .inr (.inr (.inr scanned))

/-- What stands behind a first visible character is taken from the front. -/
theorem next_suffix {text rest : Text} {first : Char}
    (next : skipWhitespace text = first :: rest) : rest <:+ text :=
  (suffix_cons _ _).trans (next ▸ skipWhitespace_suffix _)

theorem paired_suffix {fuel : Nat} {opened left : Text} {key : CodePoints}
    (once : ∀ text value rest, scanOnce fuel text = some (value, rest) → rest <:+ text)
    (paired : Paired fuel opened key value left) : left <:+ opened := by
  obtain ⟨afterKey, afterColon, keyed, colon, valued⟩ := paired.exists_steps
  exact ((once _ _ _ valued).trans (skipWhitespace_suffix _)).trans
    ((next_suffix colon).trans (scanString_suffix _ _ _ keyed))

/-- Values, pairs and items are taken from the front of the text. -/
theorem scan_suffix : (∀ text value rest, scanOnce fuel text = some (value, rest) → rest <:+ text) ∧
      (∀ text pairs rest, scanPairs fuel text = some (pairs, rest) → rest <:+ text) ∧
      ∀ text items rest, scanItems fuel text = some (items, rest) → rest <:+ text := by
  induction fuel with
  | zero =>
    refine ⟨fun text value rest scanned => ?_, fun text pairs rest scanned => ?_,
      fun text items rest scanned => ?_⟩
    · rw [scanOnce] at scanned
      cases scanned
    · rw [scanPairs] at scanned
      cases scanned
    · rw [scanItems] at scanned
      cases scanned
  | succ fuel ih =>
    obtain ⟨once, pairs, items⟩ := ih
    refine ⟨fun text value rest scanned => ?_, fun text found rest scanned => ?_,
      fun text found rest scanned => ?_⟩
    · rcases scanOnce_cases _ scanned with
        ⟨opened, units, rfl, -, inside⟩ |
        ⟨opened, rfl, ⟨-, closed⟩ | ⟨found, first, inner, -, next, -, inside⟩⟩ |
        ⟨opened, rfl, ⟨-, closed⟩ | ⟨found, first, inner, -, next, -, inside⟩⟩ | inside
      · exact (scanString_suffix _ _ _ inside).trans (suffix_cons _ _)
      · exact (next_suffix closed).trans (suffix_cons _ _)
      · have ahead := (next ▸ skipWhitespace_suffix ..).trans (suffix_cons '\x7b' opened)
        exact (pairs _ _ _ inside).trans ahead
      · exact (next_suffix closed).trans (suffix_cons _ _)
      · have ahead := (next ▸ skipWhitespace_suffix ..).trans (suffix_cons '[' opened)
        exact (items _ _ _ inside).trans ahead
      · exact (scanAtom_spec inside).2.2
    · obtain ⟨opened, key, value, left, rfl, paired, ends⟩ := scanPairs_cases _ _ _ scanned
      have upTo := (paired_suffix once paired).trans (suffix_cons '"' opened)
      rcases ends with ⟨-, closed⟩ | ⟨others, next, -, comma, inside⟩
      · exact (next_suffix closed).trans upTo
      · exact (((pairs _ _ _ inside).trans (skipWhitespace_suffix _)).trans (next_suffix comma)).trans upTo
    · obtain ⟨value, left, valued, ends⟩ := scanItems_cases _ _ _ scanned
      have upTo := once _ _ _ valued
      rcases ends with ⟨-, closed⟩ | ⟨others, next, -, comma, inside⟩
      · exact (next_suffix closed).trans upTo
      · exact (((items _ _ _ inside).trans (skipWhitespace_suffix _)).trans (next_suffix comma)).trans upTo

/-! ## Strings of an object -/

/-- A string value stands between quotes in the text. -/
theorem scanOnce_string (points : CodePoints)
    (scanned : scanOnce fuel text = some (.string points, rest)) :
    ∃ raw units, text = '"' :: (raw ++ '"' :: rest) ∧ Body raw units ∧ points = combined units := by
  cases fuel with
  | zero =>
    rw [scanOnce] at scanned
    cases scanned
  | succ fuel =>
    rcases scanOnce_cases _ scanned with ⟨opened, units, rfl, named, inside⟩ |
      ⟨_, _, ⟨same, _⟩ | ⟨_, _, _, same, _⟩⟩ | ⟨_, _, ⟨same, _⟩ | ⟨_, _, _, same, _⟩⟩ | inside
    · obtain ⟨raw, rfl, body⟩ := scanString_body _ _ _ inside
      exact ⟨raw, units, rfl, body, Json.string.inj named⟩
    · cases same
    · cases same
    · cases same
    · cases same
    · exact absurd rfl ((scanAtom_spec inside).1 points)

/-- A string among the pairs of an object stands between quotes in the text. -/
theorem scanPairs_strings (scanned : scanPairs fuel text = some (pairs, rest))
    (key points : CodePoints) (listed : (key, Json.string points) ∈ pairs) :
    ∃ raw units, '"' :: (raw ++ ['"']) <:+: text ∧ Body raw units ∧ points = combined units := by
  induction fuel generalizing text rest pairs with
  | zero =>
    rw [scanPairs] at scanned
    cases scanned
  | succ fuel ih =>
    obtain ⟨opened, name, value, left, rfl, paired, ends⟩ := scanPairs_cases _ _ _ scanned
    have here : ∀ points, value = .string points → ∃ raw units,
        '"' :: (raw ++ ['"']) <:+: '"' :: opened ∧ Body raw units ∧ points = combined units := by
      rintro points rfl
      obtain ⟨afterKey, afterColon, keyed, colon, valued⟩ := paired.exists_steps
      obtain ⟨raw, units, split, body, same⟩ := scanOnce_string _ _ _ _ valued
      have inside : '"' :: (raw ++ ['"']) <:+: skipWhitespace afterColon := by
        rw [split]
        exact ⟨[], left, by simp⟩
      have upToColon := ((next_suffix colon).trans (scanString_suffix _ _ _ keyed)).trans
        (suffix_cons '"' opened)
      exact ⟨raw, units, inside.trans ((skipWhitespace_suffix _).trans upToColon).isInfix, body, same⟩
    rcases ends with ⟨rfl, -⟩ | ⟨others, next, rfl, comma, inside⟩
    · exact here points (Prod.mk.inj (mem_singleton.mp listed)).2.symm
    rcases mem_cons.mp listed with first | later
    · exact here points (Prod.mk.inj first).2.symm
    obtain ⟨raw, units, found, body, named⟩ := ih _ _ _ inside later
    have upTo := ((skipWhitespace_suffix _).trans (next_suffix comma)).trans
      ((paired_suffix (scan_suffix _).1 paired).trans (suffix_cons '"' opened))
    exact ⟨raw, units, found.trans upTo.isInfix, body, named⟩

/-- A string among the pairs of an object that was read stands between quotes in the text. -/
theorem loads_strings (read : loads text = some (.object pairs)) (key points : CodePoints)
    (listed : (key, Json.string points) ∈ pairs) :
    ∃ raw units, '"' :: (raw ++ ['"']) <:+: text ∧ Body raw units ∧ points = combined units := by
  rw [loads] at read
  split at read
  · cases read
  split at read
  · cases read
  rename_i value rest scanned
  split at read
  · cases read
    rcases scanOnce_cases _ scanned with ⟨_, _, _, same, _⟩ |
      ⟨opened, begins, ⟨same, _⟩ | ⟨found, first, inner, same, next, -, inside⟩⟩ |
      ⟨_, _, ⟨same, _⟩ | ⟨_, _, _, same, _⟩⟩ | inside
    · cases same
    · cases same
      cases listed
    · cases same
      obtain ⟨raw, units, here, body, named⟩ := scanPairs_strings _ _ _ _ inside key _ listed
      have upTo := (next ▸ skipWhitespace_suffix ..).trans (next_suffix begins)
      exact ⟨raw, units, here.trans upTo.isInfix, body, named⟩
    · cases same
    · cases same
    · exact absurd rfl ((scanAtom_spec inside).2.1 pairs)
  · cases read

/-! ## Plain strings -/

/-- A text that can be put between quotes as it is. -/
def PlainText (text : Text) : Prop :=
  ∀ character ∈ text, character ≠ '"' ∧ character ≠ '\\' ∧ 32 ≤ character.toNat

theorem scanString_plain (plain : PlainText text) :
    scanString (text ++ '"' :: rest) = some (text.map Char.toNat, rest) := by
  induction text with
  | nil => simp [scanString]
  | cons character text ih =>
    obtain ⟨notQuote, notSlash, visible⟩ := plain character (.head _)
    have later := ih fun other listed => plain other (.tail _ listed)
    have notSmall : ¬ (character.toNat < 32 ∨ character = '\\') :=
      not_or.mpr ⟨Nat.not_lt.mpr visible, notSlash⟩
    rw [cons_append, scanString, if_neg notSmall, later]
    · rfl
    · exact notQuote
    · exact fun _ _ _ _ _ slash => absurd slash notSlash
    · exact fun _ _ slash => absurd slash notSlash
end ForgePilot.JsonReading
