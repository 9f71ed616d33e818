import ForgePilot.Spans

/-!
# Sequences with some items doubled

Some places of a sequence are marked, and the item of each marked place stands there twice. Where a marked item differs
from the one behind it, the doubled sequence tells which places were marked.
-/

namespace ForgePilot.Doublings

open Spans List

universe u
variable {α : Type u}

/-- The items from a place on, those of marked places twice. -/
def doubleAt (marks : Nat → Bool) : Nat → List α → List α
  | _, [] => []
  | place, item :: rest =>
      if marks place then item :: item :: doubleAt marks (place + 1) rest
      else item :: doubleAt marks (place + 1) rest

variable (marks : Nat → Bool) (place : Nat)

theorem double_append (front back : List α) :
    doubleAt marks place (front ++ back) =
      doubleAt marks place front ++ doubleAt marks (place + front.length) back := by
  induction front generalizing place with
  | nil => rfl
  | cons item rest ih =>
    have next : place + 1 + rest.length = place + (rest.length + 1) := by omega
    rw [cons_append, doubleAt, doubleAt, ih, length_cons, next]
    split <;> rfl

/-- Only the marks of the places that are there matter. -/
theorem double_congr (first second : Nat → Bool) (place : Nat) (items : List α)
    (same : ∀ other, place ≤ other → other < place + items.length → first other = second other) :
    doubleAt first place items = doubleAt second place items := by
  induction items generalizing place with
  | nil => rfl
  | cons item rest ih =>
    rw [length_cons] at same
    have here := same place (Nat.le_refl place) (by omega)
    have later := ih (place + 1) fun other low high => same other (by omega) (by omega)
    rw [doubleAt, doubleAt, here, later]

variable (items : List α)

theorem double_unmarked
    (unmarked : ∀ other, place ≤ other → other < place + items.length → marks other = false) :
    doubleAt marks place items = items := by
  have same : doubleAt marks place items = doubleAt (fun _ => false) place items :=
    double_congr _ _ _ _ unmarked
  rw [same]
  clear same unmarked
  induction items generalizing place with
  | nil => rfl
  | cons item rest ih => rw [doubleAt, ih]; rfl

theorem length_double : items.length ≤ (doubleAt marks place items).length := by
  induction items generalizing place with
  | nil => exact Nat.le_refl _
  | cons item rest ih =>
    have later := ih (place + 1)
    rw [doubleAt]
    split <;> simp only [length_cons] <;> omega

theorem double_head : (doubleAt marks place items).head? = items.head? := by
  cases items with
  | nil => rfl
  | cons item rest =>
    rw [doubleAt]
    split <;> rfl

/-- An item that stands at no marked place is there as often as before. -/
theorem count_double [DecidableEq α] (marks : Nat → Bool) (place : Nat) (items : List α) (item : α)
    (bare : ∀ index, marks (place + index) = true → items[index]? ≠ some item) :
    (doubleAt marks place items).count item = items.count item := by
  induction items generalizing place with
  | nil => rfl
  | cons first rest ih =>
    have later := ih (place + 1) fun index marked => by
      have next : place + 1 + index = place + (index + 1) := by omega
      rw [next] at marked
      simpa using bare (index + 1) marked
    rw [doubleAt]
    by_cases marked : marks place = true
    · have other : first ≠ item := by simpa using bare 0 marked
      rw [if_pos marked, count_cons_of_ne other, count_cons_of_ne other, later,
        count_cons_of_ne other]
    · rw [if_neg marked, count_cons, later, count_cons]

/-- Every marked item differs from the one behind it. -/
def Apart (marks : Nat → Bool) (place : Nat) (items : List α) : Prop :=
  ∀ index, marks (place + index) = true →
    ∃ item next, items[index]? = some item ∧ items[index + 1]? = some next ∧ item ≠ next

variable {item : α} {rest : List α}

theorem Apart.tail {marks : Nat → Bool} {place : Nat} (apart : Apart marks place (item :: rest)) :
    Apart marks (place + 1) rest := by
  intro index marked
  have next : place + 1 + index = place + (index + 1) := by omega
  rw [next] at marked
  simpa using apart (index + 1) marked

variable {first second : Nat → Bool}

/-- A doubled item and one that is not doubled are told apart by what follows. -/
theorem double_mixed {place : Nat} (apart : Apart first place (item :: rest))
    (marked : first place = true) (unmarked : second place = false) :
    doubleAt first place (item :: rest) ≠ doubleAt second place (item :: rest) := by
  obtain ⟨here, next, atFirst, behind, different⟩ := apart 0 marked
  rw [getElem?_cons_zero] at atFirst
  rw [getElem?_cons_succ, ← head?_eq_getElem?] at behind
  rw [doubleAt, doubleAt, if_pos marked, if_neg (by simp [unmarked])]
  intro same
  have heads := congrArg head? (cons.inj same).2
  rw [double_head, behind, head?_cons] at heads
  exact different ((Option.some.inj atFirst).symm.trans (Option.some.inj heads))

/-- Markings of items that differ from what follows are told by the doubled sequence. -/
theorem double_injective {place : Nat} {items : List α} (apartFirst : Apart first place items)
    (apartSecond : Apart second place items)
    (same : doubleAt first place items = doubleAt second place items) (index : Nat)
    (inside : index < items.length) : first (place + index) = second (place + index) := by
  induction items generalizing place index with
  | nil => cases inside
  | cons item rest ih =>
    have here : first place = second place := by
      cases marked : first place with
      | true =>
        cases other : second place with
        | true => rfl
        | false => exact absurd same (double_mixed apartFirst marked other)
      | false =>
        cases other : second place with
        | true => exact absurd same.symm (double_mixed apartSecond other marked)
        | false => rfl
    have behind : doubleAt first (place + 1) rest = doubleAt second (place + 1) rest := by
      rw [doubleAt, doubleAt, here] at same
      split at same
      · exact (cons.inj (cons.inj same).2).2
      · exact (cons.inj same).2
    cases index with
    | zero => exact here
    | succ index =>
      have next : place + (index + 1) = place + 1 + index := by omega
      rw [next]
      exact ih apartFirst.tail apartSecond.tail behind index (Nat.lt_of_succ_lt_succ inside)

/-! ## Parts -/

theorem length_part {items : List α} (start stop : Nat) (inside : stop ≤ items.length) :
    (part items start stop).length = stop - start := by
  rw [part, length_drop, length_take, Nat.min_eq_left inside]

theorem get_part {start stop index : Nat} (inside : start + index < stop) :
    (part items start stop)[index]? = items[start + index]? := by
  rw [part, getElem?_drop, getElem?_take_of_lt inside]

/-- Parts that follow on each other are doubled one by one. -/
theorem double_part_append {first second third : Nat} (early : first ≤ second)
    (late : second ≤ third) (inside : second ≤ items.length) :
    doubleAt marks first (part items first second) ++ doubleAt marks second (part items second third) =
      doubleAt marks first (part items first third) := by
  have place : first + (part items first second).length = second := by
    rw [length_part _ _ inside]
    omega
  rw [← part_append _ _ _ _ early late, double_append, place]

end ForgePilot.Doublings
