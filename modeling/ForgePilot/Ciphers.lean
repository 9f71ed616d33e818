import Mathlib.Data.Option.Basic

/-!
# Encryption that can be undone

An encryption takes a salt, so that a text is encrypted differently every time. Nothing else
says whether a text is encrypted than trying to decrypt it: a text that cannot be decrypted
stands for itself. Opening a text gives what it stands for; closing encrypts it unless it is
encrypted already. Both are stable exactly where what a text stands for is not encrypted again.
-/

namespace ForgePilot.Ciphers

/-- An encryption with its inverse; the empty text is nobody's encryption. -/
structure Cipher (α : Type) where
  encrypt : Nat → α → String
  decrypt : String → Option α
  decrypt_encrypt : ∀ salt plain, decrypt (encrypt salt plain) = some plain
  decrypt_empty : decrypt "" = none

namespace Cipher

theorem encrypt_ne_empty {α : Type} (cipher : Cipher α) (salt : Nat) (plain : α) :
    cipher.encrypt salt plain ≠ "" := by
  intro empty
  have back := cipher.decrypt_encrypt salt plain
  rw [empty, cipher.decrypt_empty] at back
  cases back

variable (cipher : Cipher String)

def opened (text : String) : String := (cipher.decrypt text).getD text

/-- Encrypt a text that is not encrypted already. -/
def closed (salt : Nat) (text : String) : String :=
  if (cipher.decrypt text).isSome then text else cipher.encrypt salt text

@[simp] theorem opened_encrypt (salt : Nat) (text : String) :
    cipher.opened (cipher.encrypt salt text) = text := by
  rw [opened, cipher.decrypt_encrypt]
  rfl

/-- Closing a text does not change what it stands for. -/
@[simp] theorem opened_closed (salt : Nat) (text : String) :
    cipher.opened (cipher.closed salt text) = cipher.opened text := by
  rw [closed]
  cases encrypted : cipher.decrypt text with
  | some plain => simp
  | none => simp [opened, encrypted, cipher.decrypt_encrypt]

end Cipher

end ForgePilot.Ciphers
