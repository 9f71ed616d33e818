import Mathlib.Data.List.Basic

/-!
# Parts of a sequence

A part is what stands between two positions. Parts that follow on each other make up the part from the first
position to the last one, and spans that are in order cut a sequence into such parts.
-/

namespace ForgePilot.Spans

universe u
variable {α : Type u}

structure Span where
  start : Nat
  stop : Nat
deriving DecidableEq

/-- What stands between two positions. -/
def part (items : List α) (start stop : Nat) : List α := (items.take stop).drop start

/-- The spans lie one behind the other, from a position on and within a length. -/
def InOrder (length : Nat) : Nat → List Span → Prop
  | earliest, [] => earliest ≤ length
  | earliest, span :: rest =>
      earliest ≤ span.start ∧ span.start ≤ span.stop ∧ InOrder length span.stop rest

instance decidableInOrder (length : Nat) :
    (earliest : Nat) → (spans : List Span) → Decidable (InOrder length earliest spans)
  | earliest, [] => inferInstanceAs (Decidable (earliest ≤ length))
  | earliest, span :: rest =>
      have := decidableInOrder length span.stop rest
      inferInstanceAs (Decidable (earliest ≤ span.start ∧ span.start ≤ span.stop ∧
        InOrder length span.stop rest))

variable (items : List α)

theorem part_append (first second third : Nat) (early : first ≤ second) (late : second ≤ third) :
    part items first second ++ part items second third = part items first third := by
  have lengths : third - first = (second - first) + (third - second) := by omega
  have place : first + (second - first) = second := by omega
  simp only [part, List.drop_take]
  rw [lengths, List.take_add, List.drop_drop, place]

theorem part_rest (start : Nat) : part items start items.length = items.drop start := by
  rw [part, List.take_length]

theorem part_empty (position : Nat) : part items position position = [] := by
  rw [part, List.drop_eq_nil_iff, List.length_take]
  exact Nat.min_le_left _ _

/-- What stands before the first of some spans, from a position on. -/
def gap (items : List α) (earliest : Nat) : List Span → List α
  | [] => items.drop earliest
  | span :: _ => part items earliest span.start

theorem InOrder.earliest_le {length earliest : Nat} {spans : List Span}
    (ordered : InOrder length earliest spans) : earliest ≤ length := by
  induction spans generalizing earliest with
  | nil => exact ordered
  | cons span rest ih =>
    obtain ⟨early, forwards, later⟩ := ordered
    exact Nat.le_trans early (Nat.le_trans forwards (ih later))

/-- The gap before some spans and the rest of a sequence behind the first of them. -/
theorem gap_append {items : List α} {earliest : Nat} {span : Span} {rest : List Span}
    (ordered : InOrder items.length earliest (span :: rest)) :
    items.drop earliest = gap items earliest (span :: rest) ++
      (part items span.start span.stop ++ items.drop span.stop) := by
  obtain ⟨early, forwards, later⟩ := ordered
  have inside := later.earliest_le
  rw [gap, ← part_rest .., ← part_rest ..,
    part_append _ _ _ _ forwards inside,
    part_append _ _ _ _ early (Nat.le_trans forwards inside)]
end ForgePilot.Spans
