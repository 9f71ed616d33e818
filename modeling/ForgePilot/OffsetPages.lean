import Mathlib.Data.List.Basic
import Mathlib.Data.List.Nodup
import Mathlib.Order.Defs.Unbundled

/-!
# Pages of a listing that is arranged anew for every page

Items are listed in an order in which different items may be tied. A page is cut out of the listing by an
offset, and the next page out of another listing of the same items, in which ties may stand differently.

The pages together are always ordered and have the right number of items. They hold every item once, whatever
the listings are, exactly when no tie stands on both sides of a place where a page ends.
-/

namespace ForgePilot.OffsetPages

open List Option

universe u v w
variable {ε : Type u} {ι : Type v} {ζ : Type w}

/-- The items of a page, and the name of the next one. -/
structure Page (ι : Type v) (ε : Type u) where
  items : List ε
  next : Option ι

/-- The page of a listing at an offset; the next page is named by its offset. -/
def cut (listing : List ε) (limit offset : Nat) : Page Nat ε where
  items := (listing.drop offset).take limit
  next := if offset + limit < listing.length then some (offset + limit) else none

/-- Ask for pages until there is no next one; questions are counted and may fail. -/
def follow (query : Nat → Option ι → Option (Page ι ε)) : Nat → Nat → Option ι → Option (List ε)
  | 0, _, _ => none
  | pages + 1, asked, pageId =>
      match query asked pageId with
      | none => none
      | some page =>
          match page.next with
          | none => some page.items
          | some next => (follow query pages (asked + 1) (some next)).map (page.items ++ ·)

/-- The pages of one listing after the other. -/
def joined (listings : Nat → List ε) (limit : Nat) : Nat → Nat → Nat → Option (List ε)
  | 0, _, _ => none
  | pages + 1, asked, offset =>
      match (cut (listings asked) limit offset).next with
      | none => some (cut (listings asked) limit offset).items
      | some next => (joined listings limit pages (asked + 1) next).map
          ((cut (listings asked) limit offset).items ++ ·)

/-- Whether a question is answered by the page of a listing, of which every item is read. -/
def Answers (query : Nat → Option ι → Option (Page ι ζ)) (name : Nat → ι) (read : ε → Option ζ)
    (listings : Nat → List ε) (limit : Nat) (pageId : Option ι) (offset : Nat) : Prop :=
  ∀ asked, query asked pageId = ((cut (listings asked) limit offset).items.mapM read).map
    fun items => ⟨items, (cut (listings asked) limit offset).next.map name⟩

/-- Questions that are answered by pages of listings lead through these. -/
theorem follow_read (query : Nat → Option ι → Option (Page ι ζ)) (name : Nat → ι) {read : ε → Option ζ}
    (listings : Nat → List ε) {limit : Nat}
    (later : ∀ offset, Answers query name read listings limit (some (name offset)) offset)
    (pages asked offset : Nat) (pageId : Option ι)
    (now : Answers query name read listings limit pageId offset) :
    follow query pages asked pageId =
      (joined listings limit pages asked offset).bind fun items => items.mapM read := by
  induction pages generalizing asked offset pageId with
  | zero => rfl
  | succ pages ih =>
    rw [follow, joined, now asked]
    cases next : (cut (listings asked) limit offset).next with
    | none =>
      rw [map_none, bind_some]
      cases (cut (listings asked) limit offset).items.mapM read with
      | none => rfl
      | some items => rfl
    | some place =>
      have rest := ih (asked + 1) place (some (name place)) (later place)
      simp only [map_some, bind_map, Function.comp_def, mapM_append]
      cases (cut (listings asked) limit offset).items.mapM read with
      | none =>
        cases joined listings limit pages (asked + 1) place with
        | none => rfl
        | some others => rfl
      | some items =>
        simp only [map_some, rest]
        cases joined listings limit pages (asked + 1) place with
        | none => rfl
        | some others =>
          simp only [bind_some]
          cases others.mapM read with
          | none => rfl
          | some found => rfl

theorem mapM_whole (items : List ε) : items.mapM some = some items := by
  induction items with
  | nil => rfl
  | cons item rest ih =>
    rw [mapM_cons, ih]
    rfl

/-! ## The end of the pages -/

section Lengths

variable (listings : Nat → List ε) (limit length : Nat) (lengths : ∀ asked, (listings asked).length = length)
include lengths

theorem next_eq (asked offset : Nat) : (cut (listings asked) limit offset).next =
    if offset + limit < length then some (offset + limit) else none := by
  rw [cut, lengths]

variable (positive : 0 < limit)
include positive

theorem joined_ends (pages asked offset : Nat) (enough : length ≤ offset + pages) :
    ∃ items, joined listings limit (pages + 1) asked offset = some items := by
  induction pages generalizing asked offset with
  | zero =>
    rw [joined, next_eq _ _ _ lengths, if_neg (by omega)]
    exact ⟨_, rfl⟩
  | succ pages ih =>
    rw [joined, next_eq _ _ _ lengths]
    by_cases more : offset + limit < length
    · obtain ⟨rest, found⟩ := ih (asked + 1) (offset + limit) (by omega)
      rw [if_pos more]
      simp only [found, map_some]
      exact ⟨_, rfl⟩
    · rw [if_neg more]
      exact ⟨_, rfl⟩

/-- Every place of the pages is a place of the listing that was asked for it. -/
theorem joined_place (pages asked offset : Nat) (items : List ε)
    (found : joined listings limit pages asked offset = some items) (place : Nat) :
    items[place]? = (listings (asked + place / limit))[offset + place]? := by
  induction pages generalizing asked offset items place with
  | zero => cases found
  | succ pages ih =>
    rw [joined, next_eq _ _ _ lengths] at found
    by_cases more : offset + limit < length
    · rw [if_pos more] at found
      obtain ⟨rest, later, rfl⟩ := map_eq_some_iff.mp found
      have pageLength : (cut (listings asked) limit offset).items.length = limit := by
        rw [cut, length_take, length_drop, lengths]
        omega
      by_cases here : place < limit
      · rw [List.getElem?_append_left (by omega), Nat.div_eq_of_lt here, Nat.add_zero, cut,
          List.getElem?_take_of_lt here, List.getElem?_drop]
      have there : place / limit = (place - limit) / limit + 1 := by
        rw [← Nat.sub_add_cancel (Nat.le_of_not_lt here), Nat.add_sub_cancel,
          Nat.add_div_right _ positive]
      rw [List.getElem?_append_right (by omega), pageLength,
        ih _ _ rest later (place - limit), there]
      congr 1
      · congr 1
        omega
      · omega
    · rw [if_neg more] at found
      cases found
      rw [cut, take_of_length_le (by rw [length_drop, lengths]; omega), List.getElem?_drop]
      by_cases inside : offset + place < length
      · rw [Nat.div_eq_of_lt (by omega), Nat.add_zero]
      · rw [List.getElem?_eq_none (by rw [lengths]; omega), List.getElem?_eq_none (by rw [lengths]; omega)]

/-- The pages from an offset hold as many items as the listings do from there. -/
theorem joined_length {pages asked offset : Nat} {items : List ε}
    (found : joined listings limit pages asked offset = some items) :
    items.length = length - offset := by
  have place := joined_place _ _ _ lengths positive _ _ _ _ found
  have outside (index : Nat) : items.length ≤ index ↔ length ≤ offset + index := by
    rw [← List.getElem?_eq_none_iff, place index, List.getElem?_eq_none_iff, lengths]
  have reached := outside items.length
  have before := outside (length - offset)
  omega

end Lengths

variable {listing : List ε} {pages : Nat}

/-- Listings that are always the same are gone through. -/
theorem joined_constant {limit : Nat} (positive : 0 < limit) {items : List ε}
    (found : joined (fun _ => listing) limit pages 0 0 = some items) : items = listing := by
  apply ext_getElem?
  intro place
  rw [joined_place (fun _ => listing) _ _ (fun _ => rfl) positive _ 0 0 _ found, Nat.zero_add]

/-! ## Arrangements -/

/-- A listing of items in their order; ties stand anyhow. -/
structure Arranged (order : ε → ε → Prop) (items listing : List ε) : Prop where
  perm : listing.Perm items
  sorted : listing.Pairwise order

/-- Items that come down to a place of the order are listed first. -/
theorem filter_down {order : ε → ε → Prop} (sorted : listing.Pairwise order) (low : ε → Bool)
    (down : ∀ first second, order first second → low second = true → low first = true) :
    listing.filter low = listing.take (listing.countP low) := by
  induction listing with
  | nil => rfl
  | cons item rest ih =>
    obtain ⟨first, restSorted⟩ := pairwise_cons.mp sorted
    by_cases here : low item = true
    · rw [filter_cons_of_pos here, countP_cons_of_pos here, take_succ_cons,
        ih restSorted]
    -- nothing behind an item that is too high is low
    have nothing : rest.countP low = 0 := by
      rw [countP_eq_zero]
      intro other member lower
      exact here (down item other (first other member) lower)
    rw [filter_cons_of_neg here, countP_cons_of_neg here, nothing, take_zero,
      filter_eq_nil_iff]
    exact countP_eq_zero.mp nothing

/-- The pages hold no other items. -/
theorem joined_mem {order : ε → ε → Prop} {items : List ε} {listings : Nat → List ε}
    (arranged : ∀ asked, Arranged order items (listings asked)) (limit : Nat) (positive : 0 < limit)
    (found : List ε) (ends : joined listings limit pages 0 0 = some found) (item : ε)
    (member : item ∈ found) : item ∈ items := by
  obtain ⟨place, here⟩ := mem_iff_getElem?.mp member
  rw [joined_place _ _ _ (fun asked => (arranged asked).perm.length_eq) positive _ 0 0 _
    ends _] at here
  exact (arranged _).perm.mem_iff.mp (mem_of_getElem? here)

section Orders

variable (order : ε → ε → Prop)

/-- Whether nothing is tied over the places where the pages of a listing end. -/
def Separated (limit : Nat) (listing : List ε) : Prop :=
  ∀ pages : Nat, ∀ after : 0 < pages * limit, ∀ inside : pages * limit < listing.length,
    ¬ order listing[pages * limit] listing[pages * limit - 1]

open Classical in
/-- The items that come no later than a bound. -/
noncomputable def upTo (bound item : ε) : Bool := decide (order item bound)

/-- The items that come no later than a bound are listed first. -/
theorem filter_upTo [IsTrans ε order] (listing : List ε) (sorted : listing.Pairwise order) (bound : ε) :
    listing.filter (upTo order bound) = listing.take (listing.countP (upTo order bound)) := by
  apply filter_down sorted
  intro first second before lower
  simp only [upTo, decide_eq_true_eq] at lower ⊢
  exact IsTrans.trans _ _ _ before lower

/-- The items up to a place come no later than the one there. -/
theorem count_upTo [Std.Total order] (listing : List ε) (sorted : listing.Pairwise order) (place : Nat)
    (inside : place < listing.length) : place + 1 ≤ listing.countP (upTo order listing[place]) := by
  have front : (listing.take (place + 1)).countP (upTo order listing[place]) = place + 1 := by
    rw [countP_eq_length.mpr, length_take]
    · omega
    intro item member
    obtain ⟨index, below, rfl⟩ := mem_take_iff_getElem.mp member
    simp only [upTo, decide_eq_true_eq]
    rcases Nat.lt_or_eq_of_le (Nat.le_of_lt_succ (Nat.lt_of_lt_of_le below (Nat.min_le_left _ _)))
      with earlier | same
    · exact pairwise_iff_getElem.mp sorted index place _ inside earlier
    · subst same
      exact (Std.Total.total listing[index] listing[index]).elim id id
  rw [← front]
  exact (take_sublist _ _).countP_le

variable [Std.Total order] [IsTrans ε order]

/-- What stands at a place comes no later than what another arrangement has there. -/
theorem arranged_before {items first second : List ε} (arranged : Arranged order items first)
    (again : Arranged order items second) {place : Nat} (inside : place < first.length)
    (insideToo : place < second.length) : order first[place] second[place] := by
  have many := count_upTo _ _ again.sorted _ insideToo
  rw [← (arranged.perm.trans again.perm.symm).countP_eq] at many
  have member : first[place] ∈ first.filter (upTo order second[place]) := by
    rw [filter_upTo _ _ arranged.sorted]
    exact mem_take_iff_getElem.mpr ⟨place, by omega, rfl⟩
  simpa [upTo] using (mem_filter.mp member).2

/-- At a place without a tie, all arrangements go on with the same items. -/
theorem drop_perm (items first second : List ε) (arranged : Arranged order items first)
    (again : Arranged order items second) (place : Nat) (after : 0 < place)
    (inside : place < first.length) (apart : ¬ order first[place] first[place - 1]) :
    (second.drop place).Perm (first.drop place) := by
  have same := again.perm.trans arranged.perm.symm
  have many := count_upTo order first arranged.sorted (place - 1) (by omega)
  have front := filter_upTo order first arranged.sorted first[place - 1]
  have few : first.countP (upTo order first[place - 1]) ≤ place := by
    by_contra more
    have member : first[place] ∈ first.filter (upTo order first[place - 1]) := by
      rw [front]
      exact mem_take_iff_getElem.mpr ⟨place, by omega, rfl⟩
    exact apart (by simpa [upTo] using (mem_filter.mp member).2)
  have count : first.countP (upTo order first[place - 1]) = place := by omega
  have back := filter_upTo order second again.sorted first[place - 1]
  rw [same.countP_eq, count] at back
  rw [count] at front
  have taken : (second.take place).Perm (first.take place) := by
    rw [← back, ← front]
    exact same.filter _
  rw [← perm_append_left_iff (first.take place), take_append_drop]
  apply (List.Perm.append_right (second.drop place) taken.symm).trans
  rw [take_append_drop]
  exact same

section Pages

variable (items : List ε) (listings : Nat → List ε)
  (arranged : ∀ asked, Arranged order items (listings asked)) (limit : Nat) (positive : 0 < limit)
include arranged positive

/-- The pages are ordered, and hold as many items as there are. -/
theorem joined_sorted {found : List ε} (ends : joined listings limit pages 0 0 = some found) :
    found.length = items.length ∧ found.Pairwise order := by
  have lengths (asked : Nat) : (listings asked).length = items.length := (arranged asked).perm.length_eq
  have count := joined_length _ _ _ lengths positive ends
  refine ⟨count, List.pairwise_iff_getElem.mpr fun first second inside insideToo before => ?_⟩
  have place (index : Nat) (within : index < found.length) :
      ∃ here : index < (listings (index / limit)).length,
        found[index] = (listings (index / limit))[index] := by
    have same := joined_place listings limit items.length lengths positive pages 0 0 found ends index
    rw [List.getElem?_eq_getElem within, Nat.zero_add, Nat.zero_add] at same
    obtain ⟨here, value⟩ := List.getElem?_eq_some_iff.mp same.symm
    exact ⟨here, value.symm⟩
  obtain ⟨firstInside, firstSame⟩ := place first inside
  obtain ⟨secondInside, secondSame⟩ := place second insideToo
  rw [firstSame, secondSame]
  -- both places are compared in the second listing
  have between : first < (listings (second / limit)).length := by
    rw [lengths]
    omega
  apply IsTrans.trans _ _ _ (arranged_before _ (arranged _) (arranged _) firstInside
    between)
  exact List.pairwise_iff_getElem.mp (arranged _).sorted first second between secondInside before

/-- Where no tie stands over the end of a page, the pages hold what is left of any listing. -/
theorem joined_perm (listing : List ε) (again : Arranged order items listing)
    (separated : Separated order limit listing) (pages asked before : Nat) (found : List ε)
    (ends : joined listings limit pages asked (before * limit) = some found) :
    found.Perm (listing.drop (before * limit)) := by
  have lengths (asked : Nat) : (listings asked).length = listing.length :=
    ((arranged asked).perm.trans again.perm.symm).length_eq
  have left (before asked : Nat) : ((listings asked).drop (before * limit)).Perm
      (listing.drop (before * limit)) := by
    by_cases inside : before * limit < listing.length
    · by_cases after : 0 < before * limit
      · exact drop_perm _ _ _ _ again (arranged asked) _ after inside
          (separated before after inside)
      · rw [Nat.eq_zero_of_not_pos after, drop_zero, drop_zero]
        exact (arranged asked).perm.trans again.perm.symm
    · rw [drop_eq_nil_of_le (by rw [lengths]; omega), drop_eq_nil_of_le (by omega)]
  induction pages generalizing asked before found with
  | zero => cases ends
  | succ pages ih =>
    rw [joined, next_eq _ _ _ lengths] at ends
    by_cases more : before * limit + limit < listing.length
    · rw [if_pos more] at ends
      obtain ⟨rest, later, rfl⟩ := map_eq_some_iff.mp ends
      rw [← Nat.succ_mul] at later
      have others := ih (asked + 1) (before + 1) rest later
      rw [Nat.succ_mul] at others
      have page : ((listings asked).drop (before * limit)) =
          (cut (listings asked) limit (before * limit)).items ++
            (listings asked).drop (before * limit + limit) := by
        rw [cut, ← drop_drop, take_append_drop]
      have beyond := left (before + 1) asked
      rw [Nat.succ_mul] at beyond
      apply List.Perm.trans _ (left before asked)
      rw [page]
      exact List.Perm.append_left _ (others.trans beyond.symm)
    · rw [if_neg more] at ends
      cases ends
      rw [cut, take_of_length_le (by rw [length_drop, lengths]; omega)]
      exact left before asked

end Pages

end Orders

/-! ## Ties -/

variable {order : ε → ε → Prop}

/-- Two neighbours that are tied can change places. -/
theorem arranged_swap {items front back : List ε} {first second : ε}
    (arranged : Arranged order items (front ++ first :: second :: back))
    (tied : order second first) :
    Arranged order items (front ++ second :: first :: back) := by
  constructor
  · exact (List.Perm.append_left front (List.Perm.swap first second back)).trans arranged.perm
  · have sorted := arranged.sorted
    simp only [pairwise_append, pairwise_cons, mem_cons] at sorted ⊢
    obtain ⟨before, ⟨firstBefore, secondBefore, after⟩, across⟩ := sorted
    refine ⟨before, ⟨?_, fun item member => firstBefore item (.inr member), after⟩, ?_⟩
    · rintro item (rfl | member)
      · exact tied
      · exact secondBefore item member
    · intro item member other
      rintro (rfl | rfl | listed)
      · exact across item member _ (.inr (.inl rfl))
      · exact across item member _ (.inl rfl)
      · exact across item member other (.inr (.inr listed))

/-- A tie over the end of a page can bring the last item of the page up again. -/
theorem joined_repeats {items listing : List ε} {limit : Nat}
    (arranged : Arranged order items listing) {before : Nat} (after : 0 < before * limit)
    (inside : before * limit < listing.length)
    (tied : order listing[before * limit] listing[before * limit - 1]) :
    ∃ listings : Nat → List ε, (∀ asked, Arranged order items (listings asked)) ∧
      ∀ pages found, joined listings limit pages 0 0 = some found → ¬ found.Nodup := by
  have positive : 0 < limit := Nat.pos_of_mul_pos_left after
  have split : listing = listing.take (before * limit - 1) ++ listing[before * limit - 1] ::
      listing[before * limit] :: listing.drop (before * limit + 1) := by
    conv_lhs => rw [← List.take_append_drop (before * limit - 1) listing]
    rw [List.drop_eq_getElem_cons (by omega), Nat.sub_add_cancel after,
      List.drop_eq_getElem_cons inside]
  have swapped := arranged_swap
    (by rw [← split]; exact arranged) tied
  let turned := listing.take (before * limit - 1) ++ listing[before * limit] ::
    listing[before * limit - 1] :: listing.drop (before * limit + 1)
  let listings (asked : Nat) : List ε := if asked < before then listing else turned
  have each (asked : Nat) : Arranged order items (listings asked) := by
    by_cases early : asked < before
    · simpa [listings, if_pos early] using arranged
    · simpa [listings, if_neg early] using swapped
  refine ⟨listings, each, fun pages found ends distinct => ?_⟩
  have place := joined_place _ _ _
    (fun asked => ((each asked).perm.trans arranged.perm.symm).length_eq) positive _ 0 0 _ ends
  have early : (before * limit - 1) / limit < before := by
    rw [Nat.div_lt_iff_lt_mul positive]
    omega
  have last : found[before * limit - 1]? = some listing[before * limit - 1] := by
    rw [place, Nat.zero_add, Nat.zero_add]
    simp only [listings, if_pos early]
    exact List.getElem?_eq_getElem _
  have next : found[before * limit]? = some listing[before * limit - 1] := by
    rw [place, Nat.zero_add, Nat.zero_add, Nat.mul_div_cancel _ positive]
    simp only [listings, if_neg (Nat.lt_irrefl before), turned]
    have front : (listing.take (before * limit - 1)).length = before * limit - 1 := by
      rw [List.length_take]
      omega
    rw [List.getElem?_append_right (by omega), front,
      show before * limit - (before * limit - 1) = 1 by omega, List.getElem?_cons_succ,
      List.getElem?_cons_zero]
  -- the same item stands at two places
  obtain ⟨lastInside, lastItem⟩ := List.getElem?_eq_some_iff.mp last
  obtain ⟨nextInside, nextItem⟩ := List.getElem?_eq_some_iff.mp next
  have same := (List.Nodup.getElem_inj_iff distinct).mp (lastItem.trans nextItem.symm)
  omega

/-- If no item is ever repeated, no tie stands over the end of a page. -/
theorem separated_of_distinct {items listing : List ε} {limit : Nat}
    (arranged : Arranged order items listing)
    (distinct : ∀ listings : Nat → List ε, (∀ asked, Arranged order items (listings asked)) →
      ∃ pages found, joined listings limit pages 0 0 = some found ∧ found.Nodup) :
    Separated order limit listing := by
  intro before after inside tied
  obtain ⟨listings, others, repeated⟩ := joined_repeats arranged after inside tied
  obtain ⟨pages, found, ends, once⟩ := distinct listings others
  exact repeated pages found ends once

/-- Where no tie stands over the end of a page, the pages hold every item once. -/
theorem perm_of_separated [Std.Total order] [IsTrans ε order] {items listing : List ε} {limit : Nat}
    (positive : 0 < limit) (arranged : Arranged order items listing)
    (separated : Separated order limit listing) {listings : Nat → List ε}
    (others : ∀ asked, Arranged order items (listings asked)) :
    ∃ pages found, joined listings limit pages 0 0 = some found ∧ found.Perm items := by
  obtain ⟨found, ends⟩ := joined_ends _ _ _
    (fun asked => (others asked).perm.length_eq) positive items.length 0 0 (by omega)
  refine ⟨items.length + 1, found, ends, ?_⟩
  have left := joined_perm _ _ _ others _ positive _ arranged separated
    _ 0 0 _ (by rw [Nat.zero_mul]; exact ends)
  rw [Nat.zero_mul, drop_zero] at left
  exact left.trans arranged.perm

/-- Whatever the listings are, the pages hold distinct items once exactly when no tie stands over the end of
a page. -/
theorem pages_perm_iff [Std.Total order] [IsTrans ε order] {items listing : List ε}
    (distinct : items.Nodup) {limit : Nat} (positive : 0 < limit)
    (arranged : Arranged order items listing) :
    (∀ listings : Nat → List ε, (∀ asked, Arranged order items (listings asked)) →
      ∃ pages found, joined listings limit pages 0 0 = some found ∧ found.Perm items) ↔
        Separated order limit listing := by
  constructor
  · intro all
    apply separated_of_distinct arranged
    intro listings others
    obtain ⟨pages, found, ends, same⟩ := all listings others
    exact ⟨pages, found, ends, same.nodup_iff.mpr distinct⟩
  · exact perm_of_separated positive arranged

/-! ## Reading every item -/

/-- Items are read when each of them is. -/
theorem mapM_eq_some_iff {α β : Type u} (read : α → Option β) (items : List α) (found : List β) :
    items.mapM read = some found ↔
      (∀ item ∈ items, (read item).isSome) ∧ found = items.filterMap read := by
  induction items generalizing found with
  | nil =>
    rw [mapM_nil, filterMap_nil]
    constructor
    · intro same
      exact ⟨by simp, (Option.some.inj same).symm⟩
    · rintro ⟨-, rfl⟩
      rfl
  | cons item rest ih =>
    rw [mapM_cons, forall_mem_cons, filterMap_cons]
    cases value : read item with
    | none => simp
    | some first =>
      simp only [Option.bind_eq_bind, Option.bind_some, Option.isSome_some, true_and]
      cases others : rest.mapM read with
      | none =>
        have unread := (ih (rest.filterMap read)).not.mp (by rw [others]; simp)
        simp only [and_true] at unread
        simp [unread]
      | some later =>
        obtain ⟨all, same⟩ := (ih later).mp others
        simp only [Option.bind_some, Option.pure_def, Option.some.injEq, ← same]
        exact ⟨fun whole => ⟨all, whole.symm⟩, fun whole => whole.2.symm⟩

end ForgePilot.OffsetPages
