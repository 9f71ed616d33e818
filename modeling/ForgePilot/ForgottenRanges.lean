import ForgePilot.OpenRequests
import Mathlib.Data.List.Forall2

/-!
# Forgetting by range

The condenser that forgets without a summary widens the identifiers it has to forget
to the range between them. Events that never entered the stream, summaries and masked
observations, share the identifier minus one: where one of them is to be forgotten, the
range starts before the whole history. Masks at either end of what is to be forgotten
make the range too short.
-/

namespace ForgePilot.RollingSummaries

open Events Sequences Views Condensers List

/-- The condensers that mask observations. -/
inductive Masking where
  | browserOutput (attentionWindow : Int)
  | observationMasking (attentionWindow : Int)

def Masking.condenser : Masking → Condenser
  | .browserOutput attentionWindow => .browserOutput attentionWindow
  | .observationMasking attentionWindow => .observationMasking attentionWindow

def Masking.mask : Masking → View → View
  | .browserOutput attentionWindow => browserOutputCondense attentionWindow
  | .observationMasking attentionWindow => observationMaskingCondense attentionWindow

/-- The view after all masks, in the order of the pipeline. -/
def masked (maskings : List Masking) (view : View) : View :=
  maskings.foldl (fun view masking => masking.mask view) view

/-- Whether an event has entered a stream. -/
def entered (event : Event) : Bool := event.id ≠ -1

/-- The identifiers of a stream among events. -/
def streamIds (events : List Event) : List Int := (events.filter entered).map Event.id

/-- The retained tail. -/
def tailOf (sizes : Sizes) (events : List Event) : List Event :=
  events.drop (events.length - (sizes.maxSize / 2 - sizes.keepFirst))

/-- The first events and the tail. -/
def retained (sizes : Sizes) (events : List Event) : List Event :=
  events.take sizes.keepFirst ++ tailOf sizes events

/-- The events that are to be forgotten. -/
def dropped (sizes : Sizes) (events : List Event) : List Event :=
  between sizes.keepFirst (sizes.maxSize / 2 - sizes.keepFirst) events

/-- Minus one is an identifier to forget: some event without a place in the stream is
dropped, and none retained. -/
def Swallows (sizes : Sizes) (events : List Event) : Prop :=
  -1 ∈ (dropped sizes events).map Event.id ∧ -1 ∉ (retained sizes events).map Event.id

/-- A masked event has lost its identifier; any other is itself. -/
def Masks (event shown : Event) : Prop := shown = event ∨ shown.id = -1

variable {events : List Event}

theorem masks_twice {shown hidden : List Event} (once : List.Forall₂ Masks events shown)
    (again : List.Forall₂ Masks shown hidden) : List.Forall₂ Masks events hidden := by
  induction once generalizing hidden with
  | nil => exact again
  | cons here later ih =>
    cases again with
    | cons next rest =>
      refine .cons ?_ (ih rest)
      rcases next with rfl | hides
      · exact here
      · exact .inr hides

theorem mask_browser_aligned (attentionWindow : Int) (seen : Nat) (events : List Event) :
    List.Forall₂ Masks events (maskBrowser attentionWindow seen events) := by
  induction events generalizing seen with
  | nil => exact .nil
  | cons event earlier ih =>
    rw [maskBrowser]
    split
    · split
      · exact .cons (.inr rfl) (ih _)
      · exact .cons (.inl rfl) (ih _)
    · exact .cons (.inl rfl) (ih _)

theorem masked_aligned (maskings : List Masking) (view : View) :
    List.Forall₂ Masks view.events (masked maskings view).events := by
  induction maskings generalizing view with
  | nil => exact forall₂_same.mpr fun _ _ => .inl rfl
  | cons masking rest ih =>
    have once : List.Forall₂ Masks view.events (masking.mask view).events := by
      cases masking with
      | browserOutput attentionWindow =>
        rw [← forall₂_reverse_iff]
        simpa [Masking.mask, browserOutputCondense] using mask_browser_aligned ..
      | observationMasking attentionWindow =>
        refine forall₂_iff_get.mpr ⟨by simp [Masking.mask, observationMaskingCondense], ?_⟩
        intro index _ _
        simp only [Masking.mask, observationMaskingCondense, get_eq_getElem,
          getElem_mapIdx]
        split
        · exact .inr rfl
        · exact .inl rfl
    exact masks_twice once (ih _)

/-- Masks keep an overlong view overlong, and what is masked is condensed. -/
theorem pipeline_iff (model : Model) (sizes : Sizes) (maskings : List Masking) (view : View)
    (long : sizes.maxSize < view.events.length) (action : CondensationAction) :
    condense model (.pipeline (maskings.map Masking.condenser ++ [.amortizedForgetting sizes]))
        view = .ok (.condensation action) ↔
      amortizedForgettingCondensation sizes (masked maskings view) = .ok action := by
  have needed : shouldCondense sizes (masked maskings view) = true := by
    rw [shouldCondense, ← (masked_aligned ..).length_eq, decide_eq_true long, Bool.true_or]
  have through (view : View) : condenseThrough model (maskings.map Masking.condenser ++
      [.amortizedForgetting sizes]) view =
        condenseThrough model [.amortizedForgetting sizes] (masked maskings view) := by
    clear needed long
    induction maskings generalizing view with
    | nil => rfl
    | cons masking rest ih =>
      have shown : condense model masking.condenser view = .ok (.view (masking.mask view)) := by
        cases masking <;> rw [Masking.condenser, condense] <;> rfl
      rw [map_cons, cons_append, condenseThrough, shown]
      exact ih _
  rw [condense, through, condenseThrough, condense, needed]
  cases amortizedForgettingCondensation sizes (masked maskings view) with
  | error | ok => simp [roll, Except.map]

variable {action : CondensationAction}

/-- A span without a summary. -/
theorem forget_span_iff_ends {ids : List Int} :
    forgetSpan ids none none = .ok action ↔
      ∃ first last, ids.min? = some first ∧ ids.max? = some last ∧
        action = ⟨{ forgottenEventsStartId := some first, forgottenEventsEndId := some last }, rfl⟩ := by
  rw [forgetSpan]
  split
  · next first last least greatest =>
    simp only [least, greatest, Option.some_inj]
    refine ⟨fun made => ⟨first, last, rfl, rfl, (Except.ok.inj made).symm⟩, ?_⟩
    rintro ⟨_, _, rfl, rfl, rfl⟩
    rfl
  · next none =>
    refine iff_of_false (by simp) ?_
    rintro ⟨first, last, least, greatest, -⟩
    exact none first last least greatest

variable {sizes : Sizes}

/-- An overlong view forgets the span of the identifiers of what is dropped, unless they
are retained. -/
theorem amortized_ok_iff {view : View} (long : sizes.maxSize < view.events.length) :
    amortizedForgettingCondensation sizes view = .ok action ↔
      forgetSpan ((view.events.map Event.id).filter
        (fun id => id ∉ (retained sizes view.events).map Event.id)) none none = .ok action := by
  have accepted := sizes.accepted
  have back : ((sizes.maxSize / 2 : Nat) : Int) - (min sizes.keepFirst view.events.length : Nat) =
      (sizes.maxSize / 2 - sizes.keepFirst : Nat) := by omega
  simp only [amortizedForgettingCondensation, slice_front, length_take, back]
  rw [slice_tail _ (by omega), ← tailOf, ← retained]

/-- At most one event of a view has not entered the stream. -/
theorem few_strangers (history : List Event) :
    (fromEvents history).events.length ≤ (keptIn history).length + 1 := by
  rw [fromEvents]
  cases latestSummary history with
  | none => exact Nat.le_succ _
  | some found =>
    rw [withSummary, insertAt, length_append, length_cons, ← Nat.add_assoc,
      ← length_append, take_append_drop]

section History

variable {history : List Event} (recorded : ∀ event ∈ history, 0 ≤ event.id)
include recorded

theorem kept_entered {event : Event} (kept : event ∈ keptIn history) : entered event = true := by
  have natural := recorded event (mem_of_mem_filter kept)
  exact decide_eq_true (by omega)

/-- The events of a view that have entered the stream are those kept of the history. -/
theorem view_entered : (fromEvents history).events.filter entered = keptIn history := by
  have kept : (keptIn history).filter entered = keptIn history :=
    filter_eq_self.mpr fun event => kept_entered recorded
  rw [fromEvents]
  cases latestSummary history with
  | none => exact kept
  | some found =>
    rw [withSummary, insertAt, filter_append, filter_cons_of_neg (by simp [entered, condensationObservation]),
      ← filter_append, take_append_drop, kept]

/-- A condensation takes what it forgets from the events of the stream. -/
theorem rebuilt_entered {id : Int} (fresh : Fresh history id) :
    (fromEvents (history ++ [condensationEvent action id])).events.filter entered =
      (keptIn history).filter (fun event => event.id ∉ action.forgotten) := by
  rw [view_entered, kept_condensed fresh]
  exact forall_mem_append.mpr ⟨recorded, forall_mem_singleton.mpr fresh.1⟩

end History

theorem mem_stream_ids {id : Int} : id ∈ streamIds events ↔ id ∈ events.map Event.id ∧ id ≠ -1 := by
  simp only [streamIds, mem_map, mem_filter]
  constructor
  · rintro ⟨event, ⟨listed, real⟩, rfl⟩
    exact ⟨⟨event, listed, rfl⟩, of_decide_eq_true real⟩
  · rintro ⟨⟨event, listed, rfl⟩, real⟩
    exact ⟨event, ⟨listed, decide_eq_true real⟩, rfl⟩

section Parts

variable {front block back head middle tail : List Event}

/-- The range between identifiers to forget covers a block between two others, and nothing
of these, exactly when the ends of the block are to be forgotten, or only its end if the
range starts at minus one and nothing is before the block. -/
theorem span_covers_iff {before inner after shown ids : List Int} {swallows : Prop}
    (filled : inner ≠ []) (part : shown ⊆ inner) (natural : ∀ id ∈ before ++ inner, 0 ≤ id)
    (above : ∀ low ∈ before, ∀ id ∈ inner, low < id)
    (below : ∀ id ∈ inner, ∀ high ∈ after, id < high)
    (forgets : ∀ id, id ∈ ids ↔ id ∈ shown ∨ id = -1 ∧ swallows) :
    (∃ first last, ids.min? = some first ∧ ids.max? = some last ∧
      (∀ id ∈ before ++ after, id ∉ idRange first last) ∧ ∀ id ∈ inner, id ∈ idRange first last) ↔
      shown.max? = inner.max? ∧ (swallows → before = []) ∧ (¬swallows → shown.min? = inner.min?) := by
  obtain ⟨high, highest⟩ := Option.isSome_iff_exists.mp (isSome_max?_of_ne_nil filled)
  obtain ⟨low, lowest⟩ := Option.isSome_iff_exists.mp (isSome_min?_of_ne_nil filled)
  rw [highest, lowest]
  simp only [max?_eq_some_iff, min?_eq_some_iff, mem_append, mem_id_range, forgets,
    eq_nil_iff_forall_not_mem, subset_def] at *
  have positive := natural high (.inr highest.1)
  constructor
  · rintro ⟨first, last, ⟨firstIn, least⟩, ⟨lastIn, greatest⟩, outside, inside⟩
    have upper := inside high highest.1
    have lower := inside low lowest.1
    refine ⟨by grind, fun swallowing id listed => ?_, by grind⟩
    have start := least (-1) (.inr ⟨rfl, swallowing⟩)
    have early := above id listed high highest.1
    have counted := natural id (.inl listed)
    exact outside id (.inl listed) ⟨by omega, by omega⟩
  · rintro ⟨shownHigh, swallowed, spared⟩
    by_cases swallowing : swallows
    · exact ⟨-1, high, by grind⟩
    · exact ⟨low, high, by grind⟩

/-- Of the parts of a view and the same parts after masks, the range of the identifiers
to forget takes exactly the inner part of the stream, and none that is retained, when the
ends of that part are shown, or only its end if the range starts at minus one and the
front has nothing of the stream. -/
theorem range_exact_iff (increasing : ((front ++ block ++ back).filter entered).Pairwise
      (fun prior later => prior.id < later.id))
    (natural : ∀ id ∈ streamIds (front ++ block ++ back), 0 ≤ id) (filled : streamIds block ≠ [])
    (heads : streamIds head ⊆ streamIds front) (middles : streamIds middle ⊆ streamIds block)
    (tails : streamIds tail ⊆ streamIds back) {swallows : Prop}
    (lost : swallows ↔ -1 ∈ middle.map Event.id ∧ -1 ∉ (head ++ tail).map Event.id) :
    (∃ action, forgetSpan (((head ++ middle ++ tail).map Event.id).filter
        (fun id => id ∉ (head ++ tail).map Event.id)) none none = .ok action ∧
      (∀ event ∈ head ++ tail, event.id ∉ action.forgotten) ∧
      ((front ++ block ++ back).filter entered).filter (fun event => event.id ∉ action.forgotten) =
        (front ++ back).filter entered) ↔
      (streamIds middle).max? = (streamIds block).max? ∧ (swallows → streamIds front = []) ∧
        (¬swallows → (streamIds middle).min? = (streamIds block).min?) := by
  have ordered := increasing
  rw [filter_append, filter_append, pairwise_append, pairwise_append] at ordered
  have above : ∀ low ∈ streamIds front, ∀ id ∈ streamIds block, low < id := by
    simpa only [streamIds, forall_mem_map] using ordered.1.2.2
  have below : ∀ id ∈ streamIds block, ∀ high ∈ streamIds back, id < high := by
    simp only [streamIds, forall_mem_map]
    exact fun event listed => ordered.2.2 event (mem_append_right _ listed)
  have forgets (id : Int) : id ∈ ((head ++ middle ++ tail).map Event.id).filter
      (fun id => id ∉ (head ++ tail).map Event.id) ↔
        id ∈ streamIds middle ∨ id = -1 ∧ swallows := by
    have outside := mt (@heads id)
    have past := mt (@tails id)
    have inside := @middles id
    simp only [mem_filter, map_append, mem_append, decide_eq_true_eq, mem_stream_ids] at *
    grind
  have exact (forgotten : List Int) :
      ((front ++ block ++ back).filter entered).filter (fun event => event.id ∉ forgotten) =
          (front ++ back).filter entered ↔
        (∀ id ∈ streamIds front ++ streamIds back, id ∉ forgotten) ∧
          ∀ id ∈ streamIds block, id ∈ forgotten := by
    simp only [filter_append (p := entered)] at increasing ⊢
    rw [filter_parts_iff increasing]
    simp only [streamIds, ← map_append, forall_mem_map, decide_eq_true_eq, not_not]
  have known : ∀ id ∈ streamIds front ++ streamIds block, 0 ≤ id := fun id listed =>
    natural id (by simpa [streamIds, or_assoc] using mem_append_left (streamIds back) listed)
  rw [← span_covers_iff filled middles known above below forgets]
  simp only [exact, forget_span_iff_ends]
  constructor
  · rintro ⟨_, ⟨first, last, least, greatest, rfl⟩, -, covers⟩
    exact ⟨first, last, least, greatest, covers⟩
  · rintro ⟨first, last, least, greatest, covers⟩
    refine ⟨_, ⟨first, last, least, greatest, rfl⟩, fun event listed => ?_, covers⟩
    by_cases masked : event.id = -1
    · -- minus one is retained, so the range starts at an identifier of the stream
      have start := ((forgets first).mp (min?_eq_some_iff.mp least).1).resolve_right
        fun found => (lost.mp found.2).2 (masked ▸ mem_map_of_mem listed)
      have positive := known first (mem_append_right _ (middles start))
      exact fun found => absurd (positive.trans ((mem_id_range ..).mp found).1) (by simp [masked])
    · have shown : event.id ∈ streamIds (head ++ tail) :=
        mem_stream_ids.mpr ⟨mem_map_of_mem listed, masked⟩
      rw [streamIds, filter_append, map_append, mem_append] at shown
      exact covers.1 _ (mem_append.mpr (shown.imp (@heads _) (@tails _)))

end Parts

theorem view_parts (long : sizes.maxSize < events.length) :
    events.take sizes.keepFirst ++ dropped sizes events ++ tailOf sizes events = events := by
  have accepted := sizes.accepted
  exact parts_append (by omega)

/-- What is shown under an identifier of the stream is seen under it. -/
theorem shown_stream {shown : List Event} (aligned : List.Forall₂ Masks events shown) :
    streamIds shown ⊆ streamIds events := by
  intro id listed
  rw [mem_stream_ids] at *
  refine ⟨?_, listed.2⟩
  induction aligned with
  | nil => exact listed.1
  | cons here later ih =>
    rw [map_cons, mem_cons] at *
    rcases listed with ⟨rfl | after, real⟩
    · exact .inl (congrArg _ (here.resolve_right real))
    · exact .inr (ih ⟨after, real⟩)

/-- An overlong view drops at least one event of the stream. -/
theorem dropped_stream {seen : List Event} (long : sizes.maxSize < seen.length)
    (few : seen.length ≤ (seen.filter entered).length + 1) :
    streamIds (dropped sizes seen) ≠ [] := by
  have accepted := sizes.accepted
  have first := length_filter_le entered (seen.take sizes.keepFirst)
  have last := length_filter_le entered (tailOf sizes seen)
  rw [length_take] at first
  intro none
  rw [streamIds, map_eq_nil_iff] at none
  have parts := congrArg (fun events => (events.filter entered).length) (view_parts long)
  simp only [filter_append, length_append, none, length_nil] at parts
  have size : (tailOf sizes seen).length = _ := length_drop
  omega

theorem exists_fresh (history : List Event) : ∃ id, Fresh history id := by
  induction history with
  | nil => exact ⟨0, le_rfl, by simp⟩
  | cons event rest ih =>
    obtain ⟨id, natural, above⟩ := ih
    refine ⟨max id (event.id + 1), by omega, fun other listed => ?_⟩
    rcases listed with _ | ⟨_, after⟩
    · omega
    · have := above other after
      omega

/-- Forgetting by range after masks: nothing retained is forgotten, and the rebuilt view
has exactly the retained events that have entered the stream, exactly when the last
event to drop is shown, and the first one as well; where the range starts at minus one
instead, no head may be retained. A masked event stands for the one in the history. -/
theorem pipeline_forgets_iff (model : Model) (sizes : Sizes) (maskings : List Masking)
    (history : List Event) (recorded : ∀ event ∈ history, 0 ≤ event.id)
    (increasing : history.Pairwise (fun prior later => prior.id < later.id))
    (long : sizes.maxSize < (fromEvents history).events.length) :
    let seen := (fromEvents history).events
    let shown := (masked maskings (fromEvents history)).events
    (∃ action,
      condense model (.pipeline (maskings.map Masking.condenser ++ [.amortizedForgetting sizes]))
        (fromEvents history) = .ok (.condensation action) ∧
      (∀ event ∈ retained sizes shown, event.id ∉ action.forgotten) ∧
      ∀ id, Fresh history id →
        (fromEvents (history ++ [condensationEvent action id])).events.filter entered =
          (retained sizes seen).filter entered) ↔
      (streamIds (dropped sizes shown)).max? = (streamIds (dropped sizes seen)).max? ∧
        (Swallows sizes shown → sizes.keepFirst = 0) ∧
        (¬Swallows sizes shown →
          (streamIds (dropped sizes shown)).min? = (streamIds (dropped sizes seen)).min?) := by
  intro seen shown
  have aligned : List.Forall₂ Masks seen shown := masked_aligned ..
  have long' : sizes.maxSize < shown.length := aligned.length_eq ▸ long
  have entries : seen.filter entered = keptIn history := view_entered recorded
  have natural : ∀ id ∈ streamIds seen, 0 ≤ id := by
    simp only [streamIds, entries, List.forall_mem_map]
    exact fun event kept => recorded event (List.mem_of_mem_filter kept)
  have ordered : (seen.filter entered).Pairwise (fun prior later => prior.id < later.id) := by
    rw [entries]
    exact increasing.filter _
  have parts : seen.take sizes.keepFirst ++ dropped sizes seen ++ tailOf sizes seen = seen :=
    view_parts long
  have exact := @range_exact_iff (seen.take sizes.keepFirst) (dropped sizes seen)
    (tailOf sizes seen) (shown.take sizes.keepFirst) (dropped sizes shown) (tailOf sizes shown)
    (by rwa [parts]) (by rwa [parts]) (dropped_stream long (entries ▸ few_strangers ..))
    (shown_stream (List.forall₂_take _ aligned))
    (by
      rw [dropped, dropped, between, between, ← aligned.length_eq]
      exact shown_stream (List.forall₂_drop _ (List.forall₂_take _ aligned)))
    (by
      rw [tailOf, tailOf, ← aligned.length_eq]
      exact shown_stream (List.forall₂_drop _ aligned))
    (Swallows sizes shown) Iff.rfl
  rw [parts, view_parts long', ← retained, ← retained] at exact
  have headless : (Swallows sizes shown → sizes.keepFirst = 0) ↔
      (Swallows sizes shown → streamIds (seen.take sizes.keepFirst) = []) := by
    refine forall_congr' fun swallows => ⟨fun none => by rw [none]; rfl, fun none => ?_⟩
    by_contra some
    have first : 0 < (shown.take sizes.keepFirst).length := by
      rw [List.length_take]
      omega
    obtain ⟨event, listed⟩ := List.exists_mem_of_length_pos first
    have real : event.id ≠ -1 := fun masked =>
      swallows.2 (masked ▸ List.mem_map_of_mem (List.mem_append_left _ listed))
    have member := shown_stream (List.forall₂_take _ aligned)
      (mem_stream_ids.mpr ⟨List.mem_map_of_mem listed, real⟩)
    rw [none] at member
    cases member
  rw [headless, ← exact]
  simp only [pipeline_iff _ _ _ _ long, amortized_ok_iff long']
  refine exists_congr fun action => and_congr_right' (and_congr_right' ?_)
  rw [entries]
  constructor
  · intro rebuilt
    obtain ⟨id, fresh⟩ := exists_fresh ..
    rw [← rebuilt id fresh, rebuilt_entered recorded fresh]
  · intro same id fresh
    rw [rebuilt_entered recorded fresh, same]

/-- Nothing is masked, and the middle of the messages is forgotten. -/
theorem plain_middle_forgotten : let seen := (fromEvents (plainHistory 5)).events
    let shown := (masked [] (fromEvents (plainHistory 5))).events
    ∃ action, condense answering (.pipeline ([].map Masking.condenser ++
        [.amortizedForgetting fullHead])) (fromEvents (plainHistory 5)) = .ok (.condensation action) ∧
      (∀ event ∈ retained fullHead shown, event.id ∉ action.forgotten) ∧
      ∀ id, Fresh (plainHistory 5) id →
        (fromEvents (plainHistory 5 ++ [condensationEvent action id])).events.filter entered =
          (retained fullHead seen).filter entered :=
  (pipeline_forgets_iff _ _ [] _ (by decide) (by decide) (by decide)).mpr
    ⟨rfl, by unfold Swallows; decide, fun _ => rfl⟩

def commandOutput (id : Int) : Event :=
  { id, source := some .environment, body := .observation "done" (.cmdOutput "make" {} false) }

/-- A message, then outputs and messages in turn. -/
def busyHistory : List Event :=
  [plainMessage 0, commandOutput 1, plainMessage 2, commandOutput 3, plainMessage 4]

/-- Outputs that are masked between head and tail start the range at minus one, and the
first event, which is always to be kept, is forgotten. -/
theorem masked_output_forgets_head :
    ∃ action, condense answering (.pipeline ([.observationMasking 1].map Masking.condenser ++
        [.amortizedForgetting fullHead])) (fromEvents busyHistory) = .ok (.condensation action) ∧
      action.forgotten = [-1, 0, 1, 2] ∧
      (fromEvents (busyHistory ++ [condensationEvent action 5])).events.map Event.id = [3, 4] :=
  ⟨⟨{ forgottenEventsStartId := some (-1), forgottenEventsEndId := some 2 }, rfl⟩, rfl, by decide,
    by decide⟩

end ForgePilot.RollingSummaries
