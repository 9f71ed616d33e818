import Mathlib.Data.List.Basic

/-!
# Reading an ordered list page by page

Items carry integer keys and are listed by increasing key. A reader takes a page
from one end and continues behind the key it has seen last: what is left is what
lies beyond that key. Nothing is said about where the items come from.
-/

namespace ForgePilot.Paging

open List

universe u
variable {ε : Type u} (key : ε → Int)

/-- Listed by increasing key, no key twice. -/
def Ascending (items : List ε) : Prop :=
  items.Pairwise (fun first second => key first < key second)

/-- The items from either end. -/
def directed (reverse : Bool) (items : List ε) : List ε :=
  if reverse then items.reverse else items

theorem Ascending.filter {items : List ε} (ascending : Ascending key items) (keep : ε → Bool) :
    Ascending key (items.filter keep) := List.Pairwise.filter keep ascending

/-- Ascending lists with the same items are the same. -/
theorem ascending_ext {first second : List ε} (ascendingFirst : Ascending key first)
    (ascendingSecond : Ascending key second) (same : ∀ item, item ∈ first ↔ item ∈ second) :
    first = second := by
  have nodup (items : List ε) (ascending : Ascending key items) : items.Nodup := by
    refine List.Pairwise.imp ?_ ascending
    rintro item other less rfl
    exact Int.lt_irrefl _ less
  have perm : first.Perm second :=
    (perm_ext_iff_of_nodup (nodup first ascendingFirst) (nodup second ascendingSecond)).mpr
      same
  refine List.Perm.eq_of_pairwise ?_ ascendingFirst ascendingSecond perm
  intro item other _ _ less greater
  exact absurd (Int.lt_trans less greater) (Int.lt_irrefl _)

/-- Behind an item of an ascending list stand the items with greater keys. -/
theorem rest_ascending (front back : List ε) (last : ε)
    (ascending : Ascending key (front ++ last :: back)) :
    back = (front ++ last :: back).filter (fun item => key last < key item) := by
  obtain ⟨-, behind, before⟩ := pairwise_append.mp ascending
  obtain ⟨above, -⟩ := pairwise_cons.mp behind
  rw [filter_append, filter_cons_of_neg (by simp)]
  have none : front.filter (fun item => key last < key item) = [] := by
    rw [filter_eq_nil_iff]
    intro item member
    have less := before item member last (.head _)
    simp only [decide_eq_true_eq]
    omega
  have all : back.filter (fun item => key last < key item) = back := by
    rw [filter_eq_self]
    intro item member
    simpa using above item member
  rw [none, all, nil_append]

/-- Read from its end, behind an item of an ascending list stand those with smaller keys. -/
theorem rest_descending (items front back : List ε) (last : ε) (ascending : Ascending key items)
    (split : items.reverse = front ++ last :: back) :
    back = (items.filter (fun item => key item < key last)).reverse := by
  have turned : items = back.reverse ++ last :: front.reverse := by
    rw [← reverse_reverse items, split]
    simp
  rw [turned] at ascending ⊢
  obtain ⟨-, behind, before⟩ := pairwise_append.mp ascending
  obtain ⟨above, -⟩ := pairwise_cons.mp behind
  rw [filter_append, filter_cons_of_neg (by simp)]
  have none : front.reverse.filter (fun item => key item < key last) = [] := by
    rw [filter_eq_nil_iff]
    intro item member
    have less := above item member
    simp only [decide_eq_true_eq]
    omega
  have all : back.reverse.filter (fun item => key item < key last) = back.reverse := by
    rw [filter_eq_self]
    intro item member
    simpa using before item member last (.head _)
  rw [none, all, append_nil, reverse_reverse]

/-- An ascending list is its items up to a bound before those above it. -/
theorem split_ascending (bound : Int) {items : List ε} (ascending : Ascending key items) :
    items = items.filter (fun item => key item ≤ bound) ++
      items.filter (fun item => bound < key item) := by
  induction items with
  | nil => rfl
  | cons item others ih =>
    obtain ⟨above, behind⟩ := pairwise_cons.mp ascending
    by_cases below : key item ≤ bound
    · have rest := ih behind
      simp only [filter_cons, below, decide_true, if_true, Int.not_lt.mpr below, decide_false,
        Bool.false_eq_true, if_false, cons_append]
      rw [← rest]
    · have higher : others.filter (fun other => key other ≤ bound) = [] := by
        rw [filter_eq_nil_iff]
        intro other member
        have less := above other member
        simp only [decide_eq_true_eq]
        omega
      have all : others.filter (fun other => bound < key other) = others := by
        rw [filter_eq_self]
        intro other member
        have less := above other member
        simp only [decide_eq_true_eq]
        omega
      simp [below, Int.not_le.mp below, higher, all]

/-- Around an item of an ascending list stand the items with smaller and greater keys. -/
theorem around_ascending {front back : List ε} {middle : ε}
    (ascending : Ascending key (front ++ middle :: back)) :
    (front ++ middle :: back).filter (fun item => key item < key middle) = front ∧
      (front ++ middle :: back).filter (fun item => key item ≤ key middle) = front ++ [middle] ∧
      (front ++ middle :: back).filter (fun item => key middle < key item) = back := by
  have above := (rest_ascending key front _ _ ascending).symm
  obtain ⟨-, -, before⟩ := pairwise_append.mp ascending
  have upTo := split_ascending key (key middle) ascending
  rw [above] at upTo
  have low : (front ++ middle :: back).filter (fun item => key item ≤ key middle) =
      front ++ [middle] := by
    have whole : front ++ middle :: back = (front ++ [middle]) ++ back := by simp
    exact append_cancel_right (upTo.symm.trans whole)
  refine ⟨?_, low, above⟩
  have within : (front ++ middle :: back).filter (fun item => key item < key middle) =
      ((front ++ middle :: back).filter (fun item => key item ≤ key middle)).filter
        (fun item => key item < key middle) := by
    rw [filter_filter]
    apply filter_congr
    intro item _
    rw [Bool.eq_iff_iff]
    simp only [Bool.and_eq_true, decide_eq_true_eq]
    omega
  rw [within, low, filter_append, filter_cons_of_neg (by simp), filter_nil,
    append_nil, filter_eq_self]
  intro item member
  simpa using before item member middle (.head _)

/-- All but the last items of an ascending list are those with that many greater keys. -/
theorem mem_take_ascending (items : List ε) (ascending : Ascending key items) (kept : Nat)
    (item : ε) :
    item ∈ items.take (items.length - kept) ↔
      item ∈ items ∧ kept ≤ (items.filter (fun other => key item < key other)).length := by
  constructor
  · intro member
    obtain ⟨front, back, split⟩ := append_of_mem member
    have whole : items = front ++ item :: (back ++ items.drop (items.length - kept)) := by
      conv => lhs; rw [← take_append_drop (items.length - kept) items, split]
      simp
    have nonempty : 0 < (items.take (items.length - kept)).length := length_pos_of_mem member
    rw [length_take] at nonempty
    refine ⟨mem_of_mem_take member, ?_⟩
    rw [whole] at ascending
    have behind := (around_ascending key ascending).2.2
    rw [← whole] at behind
    rw [behind, length_append, length_drop]
    omega
  · rintro ⟨member, later⟩
    obtain ⟨front, back, rfl⟩ := append_of_mem member
    rw [(around_ascending key ascending).2.2] at later
    have reached : front.length < (front ++ item :: back).length - kept := by
      simp only [length_append, length_cons]
      omega
    rw [mem_take_iff_getElem]
    exact ⟨front.length, by simpa using reached, by simp⟩

end ForgePilot.Paging
