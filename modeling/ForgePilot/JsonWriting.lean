import ForgePilot.JsonFronts

/-!
# Writing JSON

A value is written in ASCII, with a blank behind each comma and each colon. What is no visible ASCII character is
written as four hexadecimal digits, and beyond the first plane as two surrogates. A value that was written is read
back, in front of any rest in which a number is seen to end; only surrogates that stood in a row are one code point
afterwards.
-/

namespace ForgePilot.JsonWriting

open JsonReading JsonTokens JsonFronts List

/-! ## What is written -/

/-- A code unit of 16 bits. -/
def escapeUnit (unit : Nat) : Text :=
  '\\' :: 'u' :: [Nat.digitChar (unit / 4096 % 16), Nat.digitChar (unit / 256 % 16),
    Nat.digitChar (unit / 16 % 16), Nat.digitChar (unit % 16)]

def unitsOf (point : Nat) : CodePoints :=
  if point < 0x10000 then [point]
  else [0xD800 + (point - 0x10000) / 1024 % 1024, 0xDC00 + (point - 0x10000) % 1024]

/-- A code point inside a string. -/
def escapePoint (point : Nat) : Text :=
  if point = 34 then ['\\', '"']
  else if point = 92 then ['\\', '\\']
  else if point = 10 then ['\\', 'n']
  else if point = 13 then ['\\', 'r']
  else if point = 9 then ['\\', 't']
  else if point = 12 then ['\\', 'f']
  else if point = 8 then ['\\', 'b']
  else if 32 ≤ point ∧ point ≤ 126 then [Char.ofNat point]
  else (unitsOf point).flatMap escapeUnit

def dumpsString (points : CodePoints) : Text := '"' :: (points.flatMap escapePoint ++ ['"'])

mutual

def dumps : Json → Text
  | .null => "null".toList
  | .bool true => "true".toList
  | .bool false => "false".toList
  | .number written => written
  | .string points => dumpsString points
  | .array items => '[' :: (dumpsItems items ++ [']'])
  | .object pairs => '\x7b' :: (dumpsPairs pairs ++ ['\x7d'])

def dumpsItems : List Json → Text
  | [] => []
  | [item] => dumps item
  | item :: next :: rest => dumps item ++ ',' :: ' ' :: dumpsItems (next :: rest)

def dumpsPairs : List (CodePoints × Json) → Text
  | [] => []
  | [(key, value)] => dumpsString key ++ ':' :: ' ' :: dumps value
  | (key, value) :: next :: rest =>
      dumpsString key ++ ':' :: ' ' :: (dumps value ++ ',' :: ' ' :: dumpsPairs (next :: rest))

end

def isNumber (written : Text) : Bool :=
  match scanAtom written with
  | some (.number _, []) => true
  | _ => false

def inRange (points : CodePoints) : Bool := points.all (· < 0x110000)

mutual

/-- A value with numbers and code points that there are. -/
def writable : Json → Bool
  | .null | .bool _ => true
  | .number written => isNumber written
  | .string points => inRange points
  | .array items => writableItems items
  | .object pairs => writablePairs pairs

def writableItems : List Json → Bool
  | [] => true
  | item :: rest => writable item && writableItems rest

def writablePairs : List (CodePoints × Json) → Bool
  | [] => true
  | (key, value) :: rest => inRange key && writable value && writablePairs rest

end

mutual

/-- A value after it was written and read. -/
def reread : Json → Json
  | .string points => .string (combined points)
  | .array items => .array (rereadItems items)
  | .object pairs => .object (rereadPairs pairs)
  | value => value

def rereadItems : List Json → List Json
  | [] => []
  | item :: rest => reread item :: rereadItems rest

def rereadPairs : List (CodePoints × Json) → List (CodePoints × Json)
  | [] => []
  | (key, value) :: rest => (combined key, reread value) :: rereadPairs rest

end

/-! ## Strings -/

theorem hexUnit_digits (unit : Nat) (small : unit < 0x10000) :
    hexUnit (Nat.digitChar (unit / 4096 % 16)) (Nat.digitChar (unit / 256 % 16))
      (Nat.digitChar (unit / 16 % 16)) (Nat.digitChar (unit % 16)) = some unit := by
  have digit : ∀ value < 16, hexValue (Nat.digitChar value) = some value := by decide
  have below (number : Nat) : number % 16 < 16 := Nat.mod_lt number (by decide)
  simp only [hexUnit, digit _ (below _), Option.pure_def, Option.bind_eq_bind, Option.bind_some,
    Option.some.injEq]
  omega

theorem scanString_unit (unit : Nat) (small : unit < 0x10000) (rest : Text) :
    scanString (escapeUnit unit ++ rest) =
      (scanString rest).map fun scanned => (unit :: scanned.1, scanned.2) := by
  simp [escapeUnit, scanString, hexUnit_digits _ small]

theorem scanString_units (units : CodePoints) (small : ∀ unit ∈ units, unit < 0x10000) (rest : Text) :
    scanString (units.flatMap escapeUnit ++ rest) =
      (scanString rest).map fun scanned => (units ++ scanned.1, scanned.2) := by
  induction units with
  | nil => simp
  | cons unit units ih =>
    obtain ⟨here, later⟩ := forall_mem_cons.mp small
    rw [flatMap_cons, append_assoc, scanString_unit _ here, ih later, Option.map_map]
    rfl

variable (fuel : Nat) (value : Json) (points : CodePoints) (point : Nat)

theorem units_small : ∀ unit ∈ unitsOf point, unit < 0x10000 := by
  intro unit member
  rw [unitsOf] at member
  split at member
  · obtain rfl := mem_singleton.mp member
    assumption
  · simp only [mem_cons, not_mem_nil, or_false] at member
    omega

variable (rest : Text)

/-- The units of a code point are read. -/
theorem scanString_point : scanString (escapePoint point ++ rest) =
      (scanString rest).map fun scanned => (unitsOf point ++ scanned.1, scanned.2) := by
  by_cases named : point ∈ [34, 92, 10, 13, 9, 12, 8]
  · simp only [mem_cons, not_mem_nil, or_false] at named
    rcases named with rfl | rfl | rfl | rfl | rfl | rfl | rfl
    all_goals rfl
  simp only [mem_cons, not_mem_nil, or_false, not_or] at named
  obtain ⟨quote, slash, feed, back, tab, page, erase⟩ := named
  rw [escapePoint, if_neg quote, if_neg slash, if_neg feed, if_neg back, if_neg tab, if_neg page,
    if_neg erase]
  split
  · have own : (Char.ofNat point).toNat = point := by
      rw [Char.ofNat, dif_pos (.inl (by omega))]
      rfl
    have apart (other : Char) (differs : point ≠ other.toNat) : Char.ofNat point ≠ other := by
      intro same
      exact differs (own.symm.trans (congrArg Char.toNat same))
    have plain : ¬ ((Char.ofNat point).toNat < 32 ∨ Char.ofNat point = '\\') :=
      not_or.mpr ⟨by omega, apart '\\' slash⟩
    have single : unitsOf point = [point] := if_pos (by omega)
    rw [singleton_append, scanString, if_neg plain, own, single]
    · rfl
    · exact apart '"' quote
    · exact fun _ _ _ _ _ same => absurd same (apart '\\' slash)
    · exact fun _ _ same => absurd same (apart '\\' slash)
  · exact scanString_units _ (units_small _) _

theorem scanString_points :
    scanString (points.flatMap escapePoint ++ '"' :: rest) = some (points.flatMap unitsOf, rest) := by
  induction points with
  | nil => rfl
  | cons point points ih =>
    rw [flatMap_cons, append_assoc, scanString_point, ih, flatMap_cons]
    rfl

/-- The first unit of a code point is the point itself, or a high surrogate. -/
theorem units_head (range : point < 0x110000) :
    unitsOf point = [point] ∨ ∃ high low, unitsOf point = [high, low] ∧
      (0xD800 ≤ high ∧ high ≤ 0xDBFF) ∧ (0xDC00 ≤ low ∧ low ≤ 0xDFFF) ∧
        0x10000 + (high - 0xD800) * 0x400 + (low - 0xDC00) = point := by
  rw [unitsOf]
  split
  · exact .inl rfl
  · refine .inr ⟨_, _, rfl, ?_, ?_, ?_⟩
    all_goals omega

/-- No two units are combined when the second one is no low surrogate. -/
theorem combined_apart {high first : Nat} (rest : CodePoints)
    (apart : ¬ (0xD800 ≤ high ∧ high ≤ 0xDBFF ∧ 0xDC00 ≤ first ∧ first ≤ 0xDFFF)) :
    combined (high :: first :: rest) = high :: combined (first :: rest) := by
  rw [combined, if_neg apart]

theorem combined_pair {high low point : Nat} (rest : CodePoints) (isHigh : 0xD800 ≤ high ∧ high ≤ 0xDBFF)
    (isLow : 0xDC00 ≤ low ∧ low ≤ 0xDFFF)
    (same : 0x10000 + (high - 0xD800) * 0x400 + (low - 0xDC00) = point) :
    combined (high :: low :: rest) = point :: combined rest := by
  rw [combined, if_pos ⟨isHigh.1, isHigh.2, isLow.1, isLow.2⟩, same]

/-- The units of code points are combined as the code points are. -/
theorem combined_units (range : ∀ point ∈ points, point < 0x110000) :
    combined (points.flatMap unitsOf) = combined points := by
  induction points using combined.induct with
  | case1 high low rest pair ih =>
    have units : unitsOf high = [high] ∧ unitsOf low = [low] := ⟨if_pos (by omega), if_pos (by omega)⟩
    have later := ih fun point member => range point (.tail _ (.tail _ member))
    rw [flatMap_cons, flatMap_cons, units.1, units.2, singleton_append, singleton_append,
      combined, if_pos pair, combined, if_pos pair, later]
  | case2 high low rest single ih =>
    have later := ih fun point member => range point (.tail _ member)
    rw [flatMap_cons, combined, if_neg single, ← later]
    rcases units_head _ (range high (.head _)) with same | ⟨first, second, same, isHigh, isLow, point⟩
    · rw [same, flatMap_cons]
      -- the unit behind it is the next point, or a high surrogate
      rcases units_head low (range low (by simp)) with next | ⟨first, second, next, isHigh, isLow, -⟩
      · rw [next]
        exact combined_apart _ single
      · rw [next]
        exact combined_apart _ (by omega)
    · rw [same]
      exact combined_pair _ isHigh isLow point
  | case3 points short =>
    cases points with
    | nil => rfl
    | cons point rest =>
      cases rest with
      | nil =>
        rcases units_head _ (range point (.head _)) with same | ⟨first, second, same, isHigh, isLow, own⟩
        · rw [flatMap_singleton, same]
        · rw [flatMap_singleton, same, combined_pair [] isHigh isLow own]
          rfl
      | cons other rest => exact (short point other rest rfl).elim

/-! ## Values -/

theorem number_written {number written : Text} (atom : Atom (.number number) written) : number = written := by
  cases atom with
  | number | notANumber | infinity | negativeInfinity => rfl

theorem atom_number {written : Text} (isNumber : isNumber written = true) :
    Atom (.number written) written := by
  rw [JsonWriting.isNumber] at isNumber
  split at isNumber
  · rename_i number scanned
    obtain ⟨front, atom, same⟩ := scanAtom_parts scanned
    obtain rfl := number_written atom
    rw [append_nil] at same
    rwa [← same] at atom
  · cases isNumber

/-- A value begins visibly, with nothing that closes another one. -/
theorem dumps_head (fits : writable value = true) :
    ∃ first rest, dumps value = first :: rest ∧ isWhitespace first = false ∧ first ≠ ']' ∧ first ≠ '\x7d' := by
  have atomic (written : Text) (atom : Atom value written) : ∃ first rest, written = first :: rest ∧
      isWhitespace first = false ∧ first ≠ ']' ∧ first ≠ '\x7d' := by
    obtain ⟨first, rest, rfl, apart⟩ := atom_head atom
    refine ⟨first, rest, rfl, visible_of_apart apart, ?_, ?_⟩
    · rintro rfl
      exact apart (by decide)
    · rintro rfl
      exact apart (by decide)
  cases value with
  | null => exact atomic _ .null
  | bool truth =>
    cases truth with
    | true => exact atomic _ .yes
    | false => exact atomic _ .no
  | number written => exact atomic _ (atom_number (by rwa [writable] at fits))
  | string points => exact ⟨_, _, rfl, by decide, by decide, by decide⟩
  | array items =>
    rw [dumps]
    exact ⟨_, _, rfl, by decide, by decide, by decide⟩
  | object pairs =>
    rw [dumps]
    exact ⟨_, _, rfl, by decide, by decide, by decide⟩

/-- Values that are written within some length are read back. -/
def ReadsBack (fuel : Nat) : Prop :=
  ∀ value rest, writable value = true → (dumps value).length < fuel →
    ((∃ number, value = .number number) → EndsNumber rest) →
      scanOnce fuel (dumps value ++ rest) = some (reread value, rest)

theorem skip_value (fits : writable value = true) :
    skipWhitespace (' ' :: (dumps value ++ rest)) = dumps value ++ rest := by
  obtain ⟨first, others, same, visible, -⟩ := dumps_head _ fits
  rw [same, skipWhitespace, dropWhile_cons_of_pos (by decide), cons_append,
    dropWhile_cons_of_neg (by simp [visible])]

theorem atom_back (written rest : Text) (atom : Atom value written)
    (ends : (∃ number, value = .number number) → EndsNumber rest) :
    scanOnce (fuel + 1) (written ++ rest) = some (value, rest) := by
  have scanned := scanAtom_written atom ends
  obtain ⟨first, others, rfl, apart⟩ := atom_head atom
  exact (scanOnce_atom _ _ apart).trans scanned

theorem pair_back (back : ReadsBack fuel) (key : CodePoints) (value : Json) (left : Text)
    (fits : writable value = true) (short : (dumps value).length < fuel) (ends : EndsNumber left) :
    Paired fuel (key.flatMap escapePoint ++ '"' :: ':' :: ' ' :: (dumps value ++ left)) (key.flatMap unitsOf)
      (reread value) left := by
  refine ⟨_, _, scanString_points key _, rfl, ?_⟩
  rw [skip_value _ _ fits]
  exact back value left fits short fun _ => ends

theorem inRange_points (range : inRange points = true) : ∀ point ∈ points, point < 0x110000 := by
  intro point member
  exact of_decide_eq_true (all_eq_true.mp range point member)

theorem ends_mark {first : Char} (mark : first ∈ marks) : EndsNumber (first :: rest) := by
  have none : ∀ mark ∈ marks, mark.isDigit = false ∧ mark ≠ '.' ∧ mark ≠ 'e' ∧ mark ≠ 'E' := by
    simp [marks]
  intro character head
  cases head
  exact none _ mark

theorem items_head (item : Json) (rest : List Json) (fits : writable item = true) :
    ∃ first others, dumpsItems (item :: rest) = first :: others ∧ isWhitespace first = false ∧ first ≠ ']' := by
  obtain ⟨first, others, same, visible, apart, -⟩ := dumps_head _ fits
  cases rest with
  | nil => exact ⟨first, others, by rw [dumpsItems, same], visible, apart⟩
  | cons next rest => exact ⟨first, _, by rw [dumpsItems, same, List.cons_append], visible, apart⟩

theorem pairs_head (pair : CodePoints × Json) (rest : List (CodePoints × Json)) :
    ∃ others, dumpsPairs (pair :: rest) = '"' :: others := by
  cases rest with
  | nil => exact ⟨_, by rw [dumpsPairs, dumpsString, cons_append]⟩
  | cons next rest => exact ⟨_, by rw [dumpsPairs, dumpsString, cons_append]⟩

/-- What is written of a value is read back in front of a rest, and so are its pairs and items in front of what
closes it. -/
theorem scan_written : ReadsBack fuel ∧
      (∀ pairs rest, pairs ≠ [] → writablePairs pairs = true → (dumpsPairs pairs).length < fuel →
        scanPairs fuel (dumpsPairs pairs ++ '\x7d' :: rest) = some (rereadPairs pairs, rest)) ∧
      ∀ items rest, items ≠ [] → writableItems items = true → (dumpsItems items).length + 1 < fuel →
        scanItems fuel (dumpsItems items ++ ']' :: rest) = some (rereadItems items, rest) := by
  induction fuel with
  | zero =>
    exact ⟨fun value rest fits short => (Nat.not_lt_zero _ short).elim,
      fun pairs rest filled fits short => (Nat.not_lt_zero _ short).elim,
      fun items rest filled fits short => (Nat.not_lt_zero _ short).elim⟩
  | succ fuel ih =>
    obtain ⟨once, pairs, items⟩ := ih
    refine ⟨fun value rest fits short ends => ?_, fun found rest filled fits short => ?_,
      fun found rest filled fits short => ?_⟩
    · cases value with
      | null => exact atom_back _ _ _ _ .null ends
      | bool truth =>
        cases truth with
        | true => exact atom_back _ _ _ _ .yes ends
        | false => exact atom_back _ _ _ _ .no ends
      | number written =>
        rw [writable] at fits
        exact atom_back _ _ _ _ (atom_number fits) ends
      | string points =>
        rw [writable] at fits
        have scanned := scanOnce_quoted fuel (scanString_points points rest)
        rw [combined_units _ (inRange_points _ fits)] at scanned
        rw [dumps, dumpsString, reread, List.cons_append, List.append_assoc]
        exact scanned
      | array found =>
        rw [writable] at fits
        rw [dumps, List.length_cons, List.length_append, List.length_singleton] at short
        rw [dumps, reread, List.cons_append, List.append_assoc, List.singleton_append]
        cases found with
        | nil => rfl
        | cons item others =>
          have scanned := items (item :: others) rest (List.cons_ne_nil _ _) fits (by omega)
          rw [writableItems, Bool.and_eq_true] at fits
          obtain ⟨first, inner, same, visible, apart⟩ := items_head _ _ fits.1
          rw [same, List.cons_append] at scanned ⊢
          rw [scanOnce_array _ (List.dropWhile_cons_of_neg (by simp [visible])) apart, scanned]
          rfl
      | object found =>
        rw [writable] at fits
        rw [dumps, List.length_cons, List.length_append, List.length_singleton] at short
        rw [dumps, reread, List.cons_append, List.append_assoc, List.singleton_append]
        cases found with
        | nil => rfl
        | cons pair others =>
          have scanned := pairs (pair :: others) rest (List.cons_ne_nil _ _) fits (by omega)
          obtain ⟨inner, same⟩ := pairs_head ..
          rw [same, List.cons_append] at scanned ⊢
          rw [scanOnce_object _ '"' rfl (by decide), scanned]
          rfl
    · obtain ⟨⟨key, value⟩, others, rfl⟩ := List.exists_cons_of_ne_nil filled
      rw [writablePairs, Bool.and_eq_true, Bool.and_eq_true] at fits
      obtain ⟨⟨range, here⟩, later⟩ := fits
      have named := combined_units key (inRange_points key range)
      cases others with
      | nil =>
        have long : (dumps value).length < fuel := by
          rw [dumpsPairs, dumpsString] at short
          simp only [List.length_append, List.length_cons] at short
          omega
        have paired := pair_back fuel once key value ('\x7d' :: rest) here long (ends_mark _ (by decide))
        have scanned := scanPairs_last _ _ _ _ _ paired rfl
        rw [named] at scanned
        simpa [dumpsPairs, dumpsString, rereadPairs] using scanned
      | cons next others =>
        rw [dumpsPairs, dumpsString] at short
        simp only [List.length_append, List.length_cons] at short
        have paired := pair_back _ once key _
          (',' :: ' ' :: (dumpsPairs (next :: others) ++ '\x7d' :: rest)) here (by omega)
          (ends_mark _ (by decide))
        have scanned := scanPairs_next _ _ paired rfl
        obtain ⟨inner, same⟩ := pairs_head ..
        have skipped : skipWhitespace (' ' :: (dumpsPairs (next :: others) ++ '\x7d' :: rest)) =
            dumpsPairs (next :: others) ++ '\x7d' :: rest := by
          rw [same]
          rfl
        rw [skipped, pairs (next :: others) rest (List.cons_ne_nil _ _) later (by omega), named] at scanned
        simpa [dumpsPairs, dumpsString, rereadPairs] using scanned
    · obtain ⟨item, others, rfl⟩ := List.exists_cons_of_ne_nil filled
      rw [writableItems, Bool.and_eq_true] at fits
      obtain ⟨here, later⟩ := fits
      cases others with
      | nil =>
        rw [dumpsItems] at short ⊢
        have only := once item (']' :: rest) here (by omega) fun _ => ends_mark _ (by decide)
        have scanned := scanItems_last _ _ _ _ only rfl
        simpa [rereadItems] using scanned
      | cons next others =>
        rw [dumpsItems] at short ⊢
        rw [List.length_append, List.length_cons, List.length_cons] at short
        have first := once item (',' :: ' ' :: (dumpsItems (next :: others) ++ ']' :: rest)) here (by omega)
          fun _ => ends_mark _ (by decide)
        have skipped : skipWhitespace (' ' :: (dumpsItems (next :: others) ++ ']' :: rest)) =
            dumpsItems (next :: others) ++ ']' :: rest := by
          rw [writableItems, Bool.and_eq_true] at later
          obtain ⟨character, inner, same, visible, -⟩ := items_head _ _ later.1
          rw [same, skipWhitespace, List.dropWhile_cons_of_pos (by decide), List.cons_append,
            List.dropWhile_cons_of_neg (by simp [visible])]
        have scanned := scanItems_next _ first rfl
        rw [skipped, items (next :: others) rest (List.cons_ne_nil _ _) later (by omega)] at scanned
        simpa [rereadItems] using scanned

/-- An object that was written is read back, whatever stands behind it. -/
theorem object_back (pairs : List (CodePoints × Json)) (fits : writable (.object pairs) = true) (fuel : Nat)
    (long : (dumps (.object pairs)).length < fuel) (rest : Text) :
    scanOnce fuel (dumps (.object pairs) ++ rest) = some (reread (.object pairs), rest) := by
  apply (scan_written _).1 _ rest fits long
  rintro ⟨number, same⟩
  cases same

end ForgePilot.JsonWriting
