import ForgePilot.OpenRequests
import Mathlib.Data.List.Nodup

/-!
# How much a condenser keeps

Two condensers keep a head of the view and fill a quota with other events. One
takes the most recent events; a tail that is longer than what the head leaves, or a
tail of length zero, repeats events of the head. The other takes what a model finds
important and fills up from the end; it counts the answers and not the events that
they name.
-/

namespace ForgePilot.CondenserQuotas

open Events Sequences Views Condensers List

section Recent

variable (view : View) (keepFirst maxEvents : Nat)

/-- The result is the head and a tail, or the head and the whole view where no
events are left for a tail. -/
theorem recent_events_eq : (recentEventsCondense keepFirst maxEvents view).events =
      view.events.take keepFirst ++ view.events.drop
        (if maxEvents ≤ min keepFirst view.events.length then 0
          else view.events.length - (maxEvents - min keepFirst view.events.length)) := by
  simp only [recentEventsCondense, slice_front, length_take]
  congr 1
  split
  · next filled =>
    have none : max 0 ((maxEvents : Int) - (min keepFirst view.events.length : Nat)) = 0 := by
      omega
    rw [none]
    exact slice_rest _ 0
  · next room =>
    have some : max 0 ((maxEvents : Int) - (min keepFirst view.events.length : Nat)) =
        (maxEvents - min keepFirst view.events.length : Nat) := by omega
    rw [some, RollingSummaries.slice_tail _ (by omega)]

/-- The recent events are a bounded part of the view with its head, and all of a
short view, exactly when no head is kept of a view with events, or the head and the
tail do not meet. -/
theorem recent_events_bounded_iff (view : View) (keepFirst maxEvents : Nat)
    (positive : 1 ≤ maxEvents) :
    let kept := (recentEventsCondense keepFirst maxEvents view).events
    (kept.Sublist view.events ∧ kept.length ≤ min view.events.length (max keepFirst maxEvents) ∧
      view.events.take keepFirst <+: kept ∧
      (view.events.length ≤ maxEvents → kept = view.events)) ↔
      keepFirst = 0 ∨ view.events = [] ∨
        keepFirst < maxEvents ∧ maxEvents ≤ view.events.length := by
  rw [recent_events_eq]
  have empty : view.events = [] ↔ view.events.length = 0 := List.length_eq_zero_iff.symm
  constructor
  · rintro ⟨part, -⟩
    have shorter := part.length_le
    rw [List.length_append, List.length_take, List.length_drop] at shorter
    rw [empty]
    split at shorter <;> omega
  · intro apart
    rw [empty] at apart
    split
    · next filled =>
      -- the head is empty, and so is the view
      have none : view.events = [] := empty.mpr (by omega)
      simp [none]
    · next room =>
      have meets : keepFirst ≤ view.events.length -
          (maxEvents - min keepFirst view.events.length) ∨ view.events.length = 0 := by omega
      have parted : (view.events.take keepFirst ++ view.events.drop (view.events.length -
          (maxEvents - min keepFirst view.events.length))).Sublist view.events := by
        rcases meets with before | none
        · conv_rhs => rw [← List.take_append_drop keepFirst view.events]
          refine (List.Sublist.refl _).append ?_
          rw [← Nat.sub_add_cancel before, Nat.add_comm, ← List.drop_drop]
          exact List.drop_sublist ..
        · simp [empty.mpr none]
      refine ⟨parted, ?_, List.prefix_append .., fun short => parted.eq_of_length ?_⟩ <;>
        rw [List.length_append, List.length_take, List.length_drop] <;> omega

end Recent

theorem long_view_bounded : let view := fromEvents (RollingSummaries.plainHistory 3)
    let kept := (recentEventsCondense 1 2 view).events
    kept.Sublist view.events ∧ kept.length ≤ min view.events.length (max 1 2) ∧
      view.events.take 1 <+: kept ∧ (view.events.length ≤ 2 → kept = view.events) :=
  (recent_events_bounded_iff _ 1 2 (by decide)).mpr (.inr (.inr (by decide)))

/-- A short view gets its first event twice. -/
theorem short_view_doubled : let view := fromEvents (RollingSummaries.plainHistory 3)
    view.events.map Event.id = [0, 1, 2] ∧
      (recentEventsCondense 1 10 view).events.map Event.id = [0, 0, 1, 2] ∧
      ¬(recentEventsCondense 1 10 view).events.Sublist view.events :=
  ⟨by decide, by decide, fun part => absurd part.length_le (by decide)⟩

section Attention

variable {quota : Nat} {chosen : List Int} {head rest : List Event}

/-- Filling adds what is not chosen yet, until the quota is met. -/
theorem fill_eq (events : List Event) (distinct : (events.map Event.id).Nodup) :
    fillFromEnd quota chosen events =
      chosen ++ ((events.map Event.id).filter (· ∉ chosen)).take (quota - chosen.length) := by
  induction events generalizing chosen with
  | nil => simp [fillFromEnd]
  | cons event earlier ih =>
    obtain ⟨apart, distinct⟩ := nodup_cons.mp distinct
    rw [fillFromEnd, map_cons]
    split
    · next full => simp [Nat.sub_eq_zero_of_le (Int.ofNat_le.mp full)]
    next room =>
    split
    · next found => rw [ih distinct, filter_cons_of_neg (by simpa using found)]
    next missing =>
    have others : (earlier.map Event.id).filter (· ∉ chosen ++ [event.id]) =
        (earlier.map Event.id).filter (· ∉ chosen) := by
      refine filter_congr fun id listed => ?_
      have other : id ≠ event.id := fun same => apart (same ▸ listed)
      simp [other]
    have count : quota - chosen.length = quota - (chosen ++ [event.id]).length + 1 := by
      rw [length_append, length_singleton]
      omega
    rw [ih distinct, others, filter_cons_of_pos (by simpa using missing), count,
      take_succ_cons, append_assoc, singleton_append]

/-- Distinct events have as many identifiers of a list as the list has items, exactly
when the list repeats none and has no others. -/
theorem filter_length_iff {events : List Event} (distinct : (events.map Event.id).Nodup) :
    (events.filter (fun event => event.id ∈ chosen)).length = chosen.length ↔
      chosen.Nodup ∧ ∀ id ∈ chosen, id ∈ events.map Event.id := by
  have same : (events.filter (fun event => event.id ∈ chosen)).length =
      ((events.map Event.id).filter (· ∈ chosen)).length := by
    rw [filter_map, length_map]
    rfl
  have once := distinct.filter (· ∈ chosen)
  have part := subperm_of_subset once fun id listed => by simpa using of_mem_filter listed
  rw [same]
  constructor
  · intro all
    have found := part.perm_of_length_le all.ge
    exact ⟨found.nodup_iff.mp once, fun id listed =>
      mem_of_mem_filter (found.mem_iff.mpr listed)⟩
  · rintro ⟨repeated, known⟩
    refine ((perm_ext_iff_of_nodup once repeated).mpr fun id => ?_).length_eq
    simpa using known id

/-- Filling from the end of distinct events leaves, with the head, exactly the quota when
the chosen identifiers are those of distinct events behind the head. -/
theorem fill_quota_iff (distinct : ((head ++ rest).map Event.id).Nodup)
    (few : chosen.length ≤ quota) (enough : quota ≤ rest.length)
    (apart : ∀ id ∈ chosen, id ∉ head.map Event.id) :
    ((head ++ rest).filter (fun event =>
        event.id ∈ fillFromEnd quota chosen (head ++ rest).reverse ∨
          event.id ∈ head.map Event.id)).length = head.length + quota ↔
      chosen.Nodup ∧ ∀ id ∈ chosen, id ∈ (head ++ rest).map Event.id := by
  have turned : ((head ++ rest).reverse.map Event.id).Nodup := by
    rw [map_reverse]
    exact nodup_reverse.mpr distinct
  rw [map_append, nodup_append] at distinct
  obtain ⟨-, once, behind⟩ := distinct
  let new := (rest.map Event.id).reverse.filter (· ∉ chosen)
  have members (id : Int) : id ∈ new ↔ id ∈ rest.map Event.id ∧ id ∉ chosen := by simp [new]
  have most : quota - chosen.length ≤ new.length := by
    have covered : rest.map Event.id ⊆ new ++ chosen := fun id listed => by
      rw [mem_append, members]
      tauto
    have bound := (subperm_of_subset once covered).length_le
    rw [length_map, length_append] at bound
    omega
  let added := new.take (quota - chosen.length)
  have filled : fillFromEnd quota chosen (head ++ rest).reverse = chosen ++ added := by
    rw [fill_eq _ turned, reverse_append, map_append, map_reverse,
      filter_append, take_append_of_le_length most]
  have origin : ∀ id ∈ added, id ∈ rest.map Event.id ∧ id ∉ chosen := fun id listed =>
    (members id).mp (mem_of_mem_take listed)
  have size : (chosen ++ added).length = quota := by
    rw [length_append, length_take]
    omega
  have kept : (head ++ rest).filter (fun event =>
      event.id ∈ chosen ++ added ∨ event.id ∈ head.map Event.id) =
        head ++ rest.filter (fun event => event.id ∈ chosen ++ added) := by
    rw [filter_append, filter_eq_self.mpr fun event listed =>
      decide_eq_true (.inr (mem_map_of_mem listed))]
    refine congrArg _ (filter_congr fun event listed => decide_eq_decide.mpr ?_)
    exact or_iff_left fun found => behind _ found _ (mem_map_of_mem listed) rfl
  rw [filled, kept, length_append, Nat.add_left_cancel_iff, ← size, filter_length_iff once]
  simp only [map_append, mem_append, or_imp, forall_and]
  constructor
  · rintro ⟨single, known, -⟩
    exact ⟨single.of_append_left, fun id listed => .inr (known id listed)⟩
  · rintro ⟨single, known⟩
    have fresh : added.Nodup :=
      ((nodup_reverse.mpr once).filter _).sublist (take_sublist ..)
    exact ⟨single.append fresh fun id first second => (origin id second).2 first,
      fun id listed => (known id listed).resolve_left (apart id listed),
      fun id listed => (origin id listed).1⟩

end Attention

/-- What the condenser makes of an answer: the identifiers that are none of the
head, up to the quota. -/
def important (sizes : Sizes) (answer : List Int) (view : View) : List Int :=
  (answer.filter (fun id => id ∉ (view.events.take sizes.keepFirst).map Event.id)).take
    (sizes.maxSize / 2 - sizes.keepFirst)

/-- Only events behind the head of an overlong view are forgotten; the view that is
left has the quota exactly when the important identifiers are those of distinct
events of the view. -/
theorem attention_quota_iff (sizes : Sizes) (answer : List Int) (view : View)
    (long : sizes.maxSize < view.events.length) (distinct : (view.events.map Event.id).Nodup) :
    (∃ action, llmAttentionCondensation sizes answer view = .ok action ∧
      (∀ id ∈ action.forgotten, id ∈ view.events.map Event.id) ∧
      (∀ event ∈ view.events.take sizes.keepFirst, event.id ∉ action.forgotten) ∧
      (view.events.filter (fun event => event.id ∉ action.forgotten)).length = sizes.maxSize / 2) ↔
      (important sizes answer view).Nodup ∧
        ∀ id ∈ important sizes answer view, id ∈ view.events.map Event.id := by
  have accepted := sizes.accepted
  have size : (view.events.take sizes.keepFirst).length = sizes.keepFirst := by
    rw [List.length_take]
    omega
  have room : ((sizes.maxSize / 2 : Nat) : Int) - sizes.keepFirst =
      (sizes.maxSize / 2 - sizes.keepFirst : Nat) := by omega
  have parts := List.take_append_drop sizes.keepFirst view.events
  have apart : ∀ id ∈ important sizes answer view,
      id ∉ (view.events.take sizes.keepFirst).map Event.id := fun id listed => by
    have chosen := List.of_mem_filter (List.mem_of_mem_take listed)
    exact of_decide_eq_true chosen
  have quota := @fill_quota_iff (sizes.maxSize / 2 - sizes.keepFirst) (important sizes answer view)
    (view.events.take sizes.keepFirst) (view.events.drop sizes.keepFirst) (by rwa [parts])
    (List.length_take_le ..) (by rw [List.length_drop]; omega) apart
  rw [parts, size, ← Nat.add_sub_assoc accepted.le, Nat.add_sub_cancel_left] at quota
  let filled := fillFromEnd (sizes.maxSize / 2 - sizes.keepFirst : Nat)
    (important sizes answer view) view.events.reverse
  let headIds := (view.events.take sizes.keepFirst).map Event.id
  let action : CondensationAction := ⟨{
    forgottenEventIds := some ((view.events.map Event.id).filter (fun id =>
      id ∉ filled ∧ id ∉ headIds)) }, rfl⟩
  have made : llmAttentionCondensation sizes answer view = .ok action := by
    simp only [llmAttentionCondensation, slice_front, List.length_map, size, room]
    rfl
  have forgets (id : Int) : id ∈ action.forgotten ↔
      id ∈ view.events.map Event.id ∧ id ∉ filled ∧ id ∉ headIds :=
    List.mem_filter.trans (and_congr_right' decide_eq_true_iff)
  have kept : view.events.filter (fun event => event.id ∉ action.forgotten) =
      view.events.filter (fun event => event.id ∈ filled ∨ event.id ∈ headIds) := by
    refine List.filter_congr fun event listed => decide_eq_decide.mpr ?_
    rw [forgets, and_iff_right (List.mem_map_of_mem listed)]
    tauto
  rw [← quota]
  constructor
  · rintro ⟨_, made', -, -, target⟩
    cases made.symm.trans made'
    rwa [kept] at target
  · intro target
    exact ⟨action, made, fun id listed => ((forgets id).mp listed).1,
      fun event listed forgotten => ((forgets _).mp forgotten).2.2 (List.mem_map_of_mem listed),
      kept ▸ target⟩

/-- An important event among the four behind the head is kept with the head. -/
theorem important_event_kept : let view := fromEvents (RollingSummaries.plainHistory 5)
    ∃ action, llmAttentionCondensation RollingSummaries.fullHead [0, 2, 3] view = .ok action ∧
      (∀ id ∈ action.forgotten, id ∈ view.events.map Event.id) ∧
      (∀ event ∈ view.events.take 1, event.id ∉ action.forgotten) ∧
      (view.events.filter (fun event => event.id ∉ action.forgotten)).length = 2 :=
  (attention_quota_iff _ _ _ (by decide) (by decide)).mpr (by decide)

/-- An answer with an identifier that the view does not have leaves only the head. -/
theorem foreign_answer_counted : let view := fromEvents (RollingSummaries.plainHistory 5)
    ∃ action, llmAttentionCondensation RollingSummaries.fullHead [9] view = .ok action ∧
      action.forgotten = [1, 2, 3, 4] ∧
      (view.events.filter (fun event => event.id ∉ action.forgotten)).map Event.id = [0] :=
  ⟨⟨{ forgottenEventIds := some [1, 2, 3, 4] }, rfl⟩, rfl, rfl, by decide⟩

end ForgePilot.CondenserQuotas
