import ForgePilot.Spans

/-!
# Places of a sequence

The places of a sequence where a predicate holds are in order. Between two neighbours there is no other one,
and a place is as large as its number among the places exactly where the predicate holds all the way up to it.
-/

namespace ForgePilot.Places

open List

open Spans (part)

universe u
variable {α : Type u}

/-- Each element with the one behind it. -/
def neighbours (items : List α) : List (α × α) := items.zip items.tail

theorem neighbours_iff (items : List α) (first second : α) :
    (first, second) ∈ neighbours items ↔
      ∃ place, items[place]? = some first ∧ items[place + 1]? = some second := by
  rw [neighbours, mem_iff_getElem?]
  simp only [List.getElem?_zip_eq_some, List.getElem?_tail]

variable {items : List α}

theorem neighbours_drop {count : Nat} (pair : α × α) (side : pair ∈ neighbours (items.drop count)) :
    pair ∈ neighbours items := by
  obtain ⟨first, second⟩ := pair
  obtain ⟨place, atFirst, atSecond⟩ := (neighbours_iff ..).mp side
  rw [List.getElem?_drop] at atFirst atSecond
  exact (neighbours_iff ..).mpr ⟨count + place, atFirst, atSecond⟩

/-- Between neighbours of a sequence in order there is nothing. -/
theorem neighbours_apart {places : List Nat} (ordered : places.Pairwise (· < ·)) {first second other : Nat}
    (side : (first, second) ∈ neighbours places) (listed : other ∈ places) :
    first < second ∧ (other ≤ first ∨ second ≤ other) := by
  obtain ⟨place, atFirst, atSecond⟩ := (neighbours_iff ..).mp side
  obtain ⟨otherPlace, atOther⟩ := List.mem_iff_getElem?.mp listed
  obtain ⟨inside, rfl⟩ := List.getElem?_eq_some_iff.mp atFirst
  obtain ⟨insideNext, rfl⟩ := List.getElem?_eq_some_iff.mp atSecond
  obtain ⟨insideOther, rfl⟩ := List.getElem?_eq_some_iff.mp atOther
  rw [List.pairwise_iff_getElem] at ordered
  refine ⟨ordered _ _ inside insideNext (Nat.lt_succ_self place), ?_⟩
  rcases Nat.lt_trichotomy otherPlace place with before | same | behind
  · exact .inl (Nat.le_of_lt (ordered _ _ insideOther inside before))
  · subst same
    exact .inl (Nat.le_refl _)
  · rcases Nat.lt_or_eq_of_le (Nat.succ_le_of_lt behind) with later | same
    · exact .inr (Nat.le_of_lt (ordered _ _ insideNext insideOther later))
    · subst same
      exact .inr (Nat.le_refl _)

/-- All elements of a part, told by their positions. -/
theorem all_part_iff (items : List α) (start stop : Nat) (holds : α → Bool) :
    (part items start stop).all holds = true ↔
      ∀ place, start ≤ place → place < stop → ∀ item ∈ items[place]?, holds item = true := by
  rw [all_eq_true]
  constructor
  · intro every place early late item here
    refine every item (mem_iff_getElem?.mpr ⟨place - start, ?_⟩)
    rw [part, List.getElem?_drop, Nat.add_sub_cancel' early, List.getElem?_take, if_pos late]
    exact here
  · intro every item member
    obtain ⟨offset, here⟩ := mem_iff_getElem?.mp member
    rw [part, List.getElem?_drop, List.getElem?_take] at here
    split at here
    · exact every (start + offset) (Nat.le_add_right _ _) ‹_› item here
    · cases here

theorem mem_places_iff (holds : α → Bool) (items : List α) (place : Nat) :
    place ∈ items.findIdxs holds ↔ ∃ item, items[place]? = some item ∧ holds item = true := by
  rw [List.mem_findIdxs_iff_exists_getElem_pos]
  constructor
  · rintro ⟨inside, satisfied⟩
    exact ⟨_, List.getElem?_eq_getElem inside, satisfied⟩
  · rintro ⟨item, here, satisfied⟩
    obtain ⟨inside, rfl⟩ := List.getElem?_eq_some_iff.mp here
    exact ⟨inside, satisfied⟩

/-- Neighbouring places stand side by side exactly where only such elements stand between them. -/
theorem neighbours_side_iff {holds : α → Bool} {first second : Nat}
    (side : (first, second) ∈ neighbours (items.findIdxs holds)) :
    (part items (first + 1) second).all holds = true ↔ second = first + 1 := by
  have ordered : (items.findIdxs holds).Pairwise (· < ·) := List.pairwise_findIdxs
  have listed : second ∈ items.findIdxs holds := List.mem_of_mem_tail (List.of_mem_zip side).2
  obtain ⟨forwards, -⟩ := neighbours_apart ordered side listed
  rw [all_part_iff]
  constructor
  · intro every
    by_contra apart
    obtain ⟨item, atSecond, -⟩ := (mem_places_iff ..).mp listed
    obtain ⟨inside, -⟩ := List.getElem?_eq_some_iff.mp atSecond
    have between : first + 1 < items.length := by omega
    have here := List.getElem?_eq_getElem between
    have member := (mem_places_iff ..).mpr
      ⟨_, here, every (first + 1) (Nat.le_refl _) (by omega) _ here⟩
    have := (neighbours_apart ordered side member).2
    omega
  · rintro rfl place early late
    omega

/-- A place is as large as its number exactly where everything up to it satisfies the predicate. -/
theorem place_number (holds : α → Bool) (start number place : Nat)
    (here : (items.findIdxs holds start)[number]? = some place) :
    start + number ≤ place ∧
      (place = start + number ↔ (items.take (number + 1)).all holds = true) := by
  induction items generalizing start number with
  | nil => cases here
  | cons item rest ih =>
    rw [findIdxs_cons] at here
    rw [take_succ_cons, all_cons]
    cases satisfied : holds item with
    | false =>
      rw [satisfied, if_neg Bool.false_ne_true] at here
      obtain ⟨behind, -⟩ := ih (start + 1) number here
      refine ⟨by omega, ?_⟩
      simp only [Bool.false_and, Bool.false_eq_true, iff_false]
      omega
    | true =>
      rw [satisfied, if_pos rfl] at here
      cases number with
      | zero =>
        simp only [List.getElem?_cons_zero, Option.some.injEq] at here
        simp [here]
      | succ number =>
        rw [List.getElem?_cons_succ] at here
        obtain ⟨behind, same⟩ := ih (start + 1) number here
        refine ⟨by omega, ?_⟩
        rw [Bool.true_and, ← same]
        omega

/-- An element counted from the end, beginning with one. -/
def nthLast {β : Type u} (count : Nat) (items : List β) : Option β := items.reverse[count - 1]?

/-- What satisfies a predicate is found at its place. -/
theorem nthLast_places {holds : α → Bool} {count : Nat} {item : α}
    (here : nthLast count (items.filter holds) = some item) :
    ∃ place, (items.findIdxs holds).reverse[count - 1]? = some place ∧ items[place]? = some item := by
  have same : (items.findIdxs holds).length = (items.filter holds).length := by
    rw [List.length_findIdxs, List.countP_eq_length_filter]
  obtain ⟨inside, found⟩ := List.getElem?_eq_some_iff.mp here
  have insidePlaces : count - 1 < (items.findIdxs holds).reverse.length := by
    rw [List.length_reverse] at inside ⊢
    omega
  refine ⟨_, List.getElem?_eq_getElem insidePlaces, ?_⟩
  rw [List.getElem_reverse] at found ⊢
  rw [List.getElem_filter_eq_getElem_getElem_findIdxs] at found
  simp only [same]
  rw [← found]
  exact List.getElem?_eq_getElem _

/-- In a sequence in order, what is counted further from the end comes earlier. -/
theorem nthLast_before (places : List Nat) (ordered : places.Pairwise (· < ·)) (count more earlier later : Nat)
    (fewer : count - 1 < more - 1) (atEarlier : nthLast more places = some earlier)
    (atLater : nthLast count places = some later) : earlier < later := by
  obtain ⟨insideEarlier, rfl⟩ := List.getElem?_eq_some_iff.mp atEarlier
  obtain ⟨insideLater, rfl⟩ := List.getElem?_eq_some_iff.mp atLater
  rw [List.length_reverse] at insideEarlier insideLater
  rw [List.getElem_reverse, List.getElem_reverse]
  exact List.pairwise_iff_getElem.mp ordered _ _ _ _ (by omega)

theorem nthLast_three {β : Type u} {items : List β} {first second third : β}
    (last : items.drop (items.length - 3) = [first, second, third]) : nthLast 3 items = some first := by
  rw [nthLast, ← take_append_drop (items.length - 3) items, last, reverse_append]
  rfl

end ForgePilot.Places
