import Mathlib.Data.List.Basic

/-!
# Base 64

Three bytes are written as four digits. One or two bytes at the end are filled up with equals signs.
Reading skips what is neither a digit nor an equals sign, and stops where equals signs complete
a group of four.
-/

namespace ForgePilot.Base64

def alphabet : List Char :=
  "ABCDEFGHIJKLMNOPQRSTUVWXYZabcdefghijklmnopqrstuvwxyz0123456789+/".toList

def digit (value : Nat) : Char := alphabet.getD value '='

def valueOf (character : Char) : Option Nat := alphabet.idxOf? character

/-! ## Writing -/

def encode : List UInt8 → List Char
  | [] => []
  | [first] => [digit (first.toNat / 4), digit (first.toNat % 4 * 16), '=', '=']
  | [first, second] =>
      [digit (first.toNat / 4), digit (first.toNat % 4 * 16 + second.toNat / 16),
        digit (second.toNat % 16 * 4), '=']
  | first :: second :: third :: rest =>
      digit (first.toNat / 4) :: digit (first.toNat % 4 * 16 + second.toNat / 16) ::
        digit (second.toNat % 16 * 4 + third.toNat / 64) :: digit (third.toNat % 64) :: encode rest

def b64encode (bytes : ByteArray) : String := String.ofList (encode bytes.data.toList)

/-! ## Reading -/

/-- What is left of the digits of a group that is not complete. -/
inductive Group where
  | start
  | one (left : Nat)
  | two (left : Nat)
  | three (left : Nat)

def Group.size : Group → Nat
  | .start => 0
  | .one _ => 1
  | .two _ => 2
  | .three _ => 3

/-- One more digit of a group, and the byte that it completes. -/
def Group.add (value : Nat) : Group → Group × Option Nat
  | .start => (.one value, none)
  | .one left => (.two (value % 16), some (left * 4 + value / 16))
  | .two left => (.three (value % 4), some (left * 16 + value / 4))
  | .three left => (.start, some (left * 64 + value))

/-- Read on in a group after some equals signs. -/
def decode (group : Group) (pads : Nat) : List Char → Option (List UInt8)
  | [] => if group.size = 0 then some [] else none
  | character :: rest =>
      if character = '=' then
        if 2 ≤ group.size then
          if 4 ≤ group.size + (pads + 1) then some [] else decode group (pads + 1) rest
        else decode group pads rest
      else
        match valueOf character with
        | none => decode group pads rest
        | some value =>
            match group.add value with
            | (next, none) => decode next 0 rest
            | (next, some byte) => (decode next 0 rest).map (UInt8.ofNat byte :: ·)

/-- The bytes of a text; a text that is not ASCII or ends within a group cannot be read. -/
def b64decode (text : String) : Option ByteArray :=
  if text.toList.all fun character => character.toNat < 128 then
    (decode .start 0 text.toList).map fun bytes => ⟨bytes.toArray⟩
  else none

/-! ## Reading what was written -/

theorem digit_spec {value : Nat} (small : value < 64) :
    digit value ≠ '=' ∧ valueOf (digit value) = some value ∧ (digit value).toNat < 128 := by
  have all : ∀ value < 64, digit value ≠ '=' ∧ valueOf (digit value) = some value ∧
      (digit value).toNat < 128 := by decide +kernel
  exact all value small

theorem decode_digit (group : Group) (pads value : Nat) (small : value < 64) (rest : List Char) :
    decode group pads (digit value :: rest) = match group.add value with
      | (next, none) => decode next 0 rest
      | (next, some byte) => (decode next 0 rest).map (UInt8.ofNat byte :: ·) := by
  obtain ⟨notPad, named, -⟩ := digit_spec small
  rw [decode, if_neg notPad, named]

theorem ofNat_eq (byte : UInt8) {value : Nat} (same : value = byte.toNat) :
    UInt8.ofNat value = byte := by
  rw [same, UInt8.ofNat_toNat]

/-- Reading a group of four digits gives the three bytes. -/
theorem decode_group (first second third : UInt8) (rest : List Char) :
    decode .start 0 (digit (first.toNat / 4) :: digit (first.toNat % 4 * 16 + second.toNat / 16) ::
      digit (second.toNat % 16 * 4 + third.toNat / 64) :: digit (third.toNat % 64) :: rest) =
      (decode .start 0 rest).map fun bytes => first :: second :: third :: bytes := by
  have firstSmall := first.toNat_lt
  have secondSmall := second.toNat_lt
  have thirdSmall := third.toNat_lt
  rw [decode_digit _ _ _ (by omega)]
  simp only [Group.add]
  rw [decode_digit _ _ _ (by omega)]
  simp only [Group.add]
  rw [decode_digit _ _ _ (by omega)]
  simp only [Group.add]
  rw [decode_digit _ _ _ (by omega)]
  simp only [Group.add, Option.map_map]
  rw [ofNat_eq first (by omega), ofNat_eq second (by omega), ofNat_eq third (by omega)]
  rfl

theorem decode_encode (bytes : List UInt8) : decode .start 0 (encode bytes) = some bytes := by
  induction bytes using encode.induct with
  | case1 => rfl
  | case2 first =>
    have firstSmall := first.toNat_lt
    rw [encode, decode_digit _ _ _ (by omega)]
    simp only [Group.add]
    rw [decode_digit _ _ _ (by omega)]
    simp only [Group.add]
    rw [ofNat_eq first (by omega)]
    rfl
  | case3 first second =>
    have firstSmall := first.toNat_lt
    have secondSmall := second.toNat_lt
    rw [encode, decode_digit _ _ _ (by omega)]
    simp only [Group.add]
    rw [decode_digit _ _ _ (by omega)]
    simp only [Group.add]
    rw [decode_digit _ _ _ (by omega)]
    simp only [Group.add]
    rw [ofNat_eq first (by omega), ofNat_eq second (by omega)]
    rfl
  | case4 first second third rest ih =>
    rw [encode, decode_group, ih]
    rfl

theorem encode_ascii (bytes : List UInt8) : ∀ char ∈ encode bytes, char.toNat < 128 := by
  have ascii : ∀ value < 64, (digit value).toNat < 128 := fun value small => (digit_spec small).2.2
  induction bytes using encode.induct with
  | case1 => rintro char ⟨⟩
  | case2 first =>
    have firstSmall := first.toNat_lt
    simp only [encode, List.forall_mem_cons]
    exact ⟨ascii _ (by omega), ascii _ (by omega), by decide, by decide, by simp⟩
  | case3 first second =>
    have firstSmall := first.toNat_lt
    have secondSmall := second.toNat_lt
    simp only [encode, List.forall_mem_cons]
    exact ⟨ascii _ (by omega), ascii _ (by omega), ascii _ (by omega), by decide, by simp⟩
  | case4 first second third rest ih =>
    have firstSmall := first.toNat_lt
    have secondSmall := second.toNat_lt
    have thirdSmall := third.toNat_lt
    simp only [encode, List.forall_mem_cons]
    exact ⟨ascii _ (by omega), ascii _ (by omega), ascii _ (by omega), ascii _ (by omega), ih⟩

/-- What was written is read back. -/
theorem b64decode_b64encode (bytes : ByteArray) : b64decode (b64encode bytes) = some bytes := by
  have ascii : (b64encode bytes).toList.all fun char => char.toNat < 128 := by
    rw [b64encode, String.toList_ofList, List.all_eq_true]
    exact fun char listed => decide_eq_true (encode_ascii _ _ listed)
  rw [b64decode, if_pos ascii, b64encode, String.toList_ofList, decode_encode]
  rfl
end ForgePilot.Base64
