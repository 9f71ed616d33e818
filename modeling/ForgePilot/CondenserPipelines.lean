import ForgePilot.Condensers
import ForgePilot.ConversationMemory

/-!
# What a pipeline of condensers does to the bookkeeping of a view

A view carries the forgotten identifiers and the flag for an open request along
with its events. Rolling condensers and the one that does nothing pass their view
on; the condensers that mask or drop events build a new view from events alone,
and both fields fall back to their defaults. A pipeline therefore loses the
bookkeeping as soon as it holds one of these, and a rolling condenser after one
does not see the request.

Pipelines may be nested; a nested pipeline acts like the list of its leaves.
-/

namespace ForgePilot.Condensers

open Events Views ConversationMemory List

/-- The condensers that build their view from events alone. -/
def Condenser.rebuilds : Condenser → Bool
  | .recentEvents _ _ | .observationMasking _ | .browserOutput _ => true
  | _ => false

/-- The condensers that condense the history itself. -/
def Condenser.rolls : Condenser → Bool
  | .amortizedForgetting _ | .conversationWindow | .llmAttention _ | .llmSummarizing _
  | .structuredSummary _ => true
  | _ => false

mutual

/-- The condensers of a pipeline that are no pipelines, in order. -/
def Condenser.leaves : Condenser → List Condenser
  | .pipeline condensers => leavesOf condensers
  | condenser => [condenser]

def leavesOf : List Condenser → List Condenser
  | [] => []
  | condenser :: rest => condenser.leaves ++ leavesOf rest

end

variable (model : Model)

/-- Condensing through two lists of condensers, one after the other. -/
theorem condense_through_append (first second : List Condenser) (view : View) :
    condenseThrough model (first ++ second) view = match condenseThrough model first view with
      | .ok (.view next) => condenseThrough model second next
      | .ok (.condensation action) => .ok (.condensation action)
      | .error raised => .error raised := by
  induction first generalizing view with
  | nil => rfl
  | cons condenser rest ih =>
    rw [cons_append, condenseThrough, condenseThrough]
    cases condense model condenser view with
    | error raised => rfl
    | ok condensed =>
      cases condensed with
      | view next => exact ih next
      | condensation action => rfl

theorem condense_through_singleton (condenser : Condenser) (view : View) :
    condenseThrough model [condenser] view = condense model condenser view := by
  rw [condenseThrough]
  cases condense model condenser view with
  | error raised => rfl
  | ok condensed => cases condensed <;> rfl

mutual

/-- A condenser acts like its leaves in sequence. -/
theorem condense_leaves (model : Model) (condenser : Condenser) (view : View) :
    condense model condenser view = condenseThrough model condenser.leaves view := by
  cases condenser with
  | pipeline condensers =>
    rw [condense, Condenser.leaves]
    exact condense_through_leaves ..
  | _ => exact (condense_through_singleton ..).symm

/-- Several condensers act like their leaves in sequence. -/
theorem condense_through_leaves (model : Model) (condensers : List Condenser) (view : View) :
    condenseThrough model condensers view = condenseThrough model (leavesOf condensers) view := by
  cases condensers with
  | nil => rfl
  | cons condenser rest =>
    rw [leavesOf, condense_through_append, ← condense_leaves .., condenseThrough]
    cases condense model condenser view with
    | error raised => rfl
    | ok condensed =>
      cases condensed with
      | view next => exact condense_through_leaves ..
      | condensation action => rfl

end

mutual

/-- The leaves of a condenser are no pipelines. -/
theorem leaf_not_pipeline (condenser leaf : Condenser) (member : leaf ∈ condenser.leaves)
    (condensers : List Condenser) : leaf ≠ .pipeline condensers := by
  cases condenser with
  | pipeline inner => exact leaf_of_not_pipeline _ _ member _
  | _ =>
    rw [mem_singleton.mp member]
    exact Condenser.noConfusion

/-- The leaves of several condensers are no pipelines. -/
theorem leaf_of_not_pipeline (inner : List Condenser) (leaf : Condenser)
    (member : leaf ∈ leavesOf inner) (condensers : List Condenser) :
    leaf ≠ .pipeline condensers := by
  cases inner with
  | nil => cases member
  | cons condenser rest =>
    rw [leavesOf, mem_append] at member
    rcases member with here | later
    · exact leaf_not_pipeline _ _ here _
    · exact leaf_of_not_pipeline _ _ later _

end

/-- Nested pipelines act like the pipeline of their leaves. -/
theorem nested_pipelines_flatten (condensers : List Condenser) (view : View) :
    condense model (.pipeline condensers) view =
        condense model (.pipeline (leavesOf condensers)) view ∧
      ∀ leaf ∈ leavesOf condensers, ∀ inner, leaf ≠ .pipeline inner := by
  refine ⟨?_, leaf_of_not_pipeline _⟩
  rw [condense, condense]
  exact condense_through_leaves ..

/-- A rolling condenser that returns a view had no reason to condense, and returns
the view it was given. -/
theorem roll_view {needed : Bool} {condensation : Except String CondensationAction}
    {view next : View} (returned : roll needed condensation view = .ok (.view next)) :
    needed = false ∧ next = view := by
  rw [roll] at returned
  split at returned
  · cases condensation with
    | error raised => cases returned
    | ok action => cases returned
  · rename_i unneeded
    cases returned
    exact ⟨by simpa using unneeded, rfl⟩

/-- A leaf that returns a view has rebuilt it without bookkeeping, or returns the
view it was given; a rolling leaf then saw no open request. -/
theorem leaf_view {model : Model} {leaf : Condenser}
    (isLeaf : ∀ condensers, leaf ≠ .pipeline condensers) {view next : View}
    (returned : condense model leaf view = .ok (.view next)) :
    (leaf.rebuilds = true ∧ next.forgottenEventIds = [] ∧
        next.unhandledCondensationRequest = false) ∨
      (leaf.rebuilds = false ∧ next = view ∧
        (leaf.rolls = true → view.unhandledCondensationRequest = false)) := by
  cases leaf with
  | noOp =>
    rw [condense] at returned
    cases returned
    exact .inr ⟨rfl, rfl, fun rolls => nomatch rolls⟩
  | recentEvents keepFirst maxEvents =>
    rw [condense] at returned
    cases returned
    exact .inl ⟨rfl, rfl, rfl⟩
  | observationMasking attentionWindow =>
    rw [condense] at returned
    cases returned
    exact .inl ⟨rfl, rfl, rfl⟩
  | browserOutput attentionWindow =>
    rw [condense] at returned
    cases returned
    exact .inl ⟨rfl, rfl, rfl⟩
  | conversationWindow =>
    rw [condense] at returned
    obtain ⟨closed, same⟩ := roll_view returned
    exact .inr ⟨rfl, same, fun _ => closed⟩
  | amortizedForgetting sizes | llmAttention sizes | llmSummarizing sizes
  | structuredSummary sizes =>
    rw [condense] at returned
    obtain ⟨unneeded, same⟩ := roll_view returned
    have closed : view.unhandledCondensationRequest = false := by
      simp only [shouldCondense, Bool.or_eq_false_iff] at unneeded
      exact unneeded.2
    exact .inr ⟨rfl, same, fun _ => closed⟩
  | pipeline condensers => exact absurd rfl (isLeaf condensers)

variable (leaves : List Condenser)

/-- After leaves in sequence, the bookkeeping is the one of the first view, or
empty when one of the leaves rebuilds its view. -/
theorem through_view (areLeaves : ∀ leaf ∈ leaves, ∀ condensers, leaf ≠ .pipeline condensers)
    (view last : View) (returned : condenseThrough model leaves view = .ok (.view last)) :
    (leaves.any Condenser.rebuilds = true ∧ last.forgottenEventIds = [] ∧
        last.unhandledCondensationRequest = false) ∨
      (leaves.any Condenser.rebuilds = false ∧ last = view) := by
  induction leaves generalizing view with
  | nil =>
    rw [condenseThrough] at returned
    cases returned
    exact .inr ⟨rfl, rfl⟩
  | cons leaf rest ih =>
    rw [condenseThrough] at returned
    cases condensed : condense model leaf view with
    | error raised =>
      rw [condensed] at returned
      cases returned
    | ok result =>
      rw [condensed] at returned
      cases result with
      | condensation action => cases returned
      | view next =>
        have here := leaf_view (areLeaves leaf (.head _)) condensed
        have later := ih
          (fun other member => areLeaves other (.tail _ member)) next returned
        rw [any_cons]
        rcases later with ⟨rebuilt, forgotten, closed⟩ | ⟨passed, rfl⟩
        · exact .inl ⟨by rw [rebuilt, Bool.or_true], forgotten, closed⟩
        · rcases here with ⟨rebuilds, forgotten, closed⟩ | ⟨passes, rfl, _⟩
          · exact .inl ⟨by rw [rebuilds, Bool.true_or], forgotten, closed⟩
          · exact .inr ⟨by rw [passes, passed, Bool.or_false], rfl⟩

/-- Nothing of the bookkeeping was lost from one view to another. -/
def Carried (before after : View) : Prop :=
  (∀ id ∈ before.forgottenEventIds, id ∈ after.forgottenEventIds) ∧
    after.unhandledCondensationRequest = before.unhandledCondensationRequest

/-- Messages are built from a view without inserting a first message that the
earlier view had forgotten. -/
def NotReinserted (before after : View) : Prop :=
  ∀ (setup : Setup) (initialUserAction : Event),
    initialUserAction.id ∈ before.forgottenEventIds →
      ensuredEvents setup after.events initialUserAction after.forgottenEventIds =
        ensureSystemMessage setup after.events

/-- There is no bookkeeping to lose. -/
def Bookless (view : View) : Prop :=
  view.forgottenEventIds = [] ∧ view.unhandledCondensationRequest = false

/-- A first message whose identifier is forgotten is not inserted. -/
theorem not_reinserted_of_carried (before after : View) (carried : Carried before after) :
    NotReinserted before after := by
  intro setup initialUserAction forgotten
  rw [ensuredEvents]
  cases ensureSystemMessage setup after.events with
  | nil => rfl
  | cons first rest => simp [ensureInitialUserMessage, if_pos (carried.1 _ forgotten)]

/-- The leaves that are run on a view, each with the view it is given. -/
def visits (model : Model) : List Condenser → View → List (Condenser × View)
  | [], _ => []
  | leaf :: rest, view =>
      (leaf, view) ::
        match condense model leaf view with
        | .ok (.view next) => visits model rest next
        | _ => []

/-- A leaf that rebuilds its view stands before the first rolling one. -/
def shieldsRequest : List Condenser → Bool
  | [] => false
  | leaf :: rest =>
      if leaf.rolls then false
      else if leaf.rebuilds then rest.any Condenser.rolls
      else shieldsRequest rest

/-- All rolling leaves that are run see the same flag. -/
def AllSee (model : Model) (leaves : List Condenser) (view : View) (flag : Bool) : Prop :=
  ∀ visit ∈ visits model leaves view, visit.1.rolls = true →
    visit.2.unhandledCondensationRequest = flag

/-- A rolling leaf that is run is among the leaves. -/
theorem visit_rolls_any (view : View) (visit : Condenser × View)
    (member : visit ∈ visits model leaves view) (rolls : visit.1.rolls = true) :
    leaves.any Condenser.rolls = true := by
  induction leaves generalizing view with
  | nil => cases member
  | cons leaf rest ih =>
    rw [visits] at member
    rw [any_cons]
    rcases member with _ | ⟨_, later⟩
    · rw [rolls, Bool.true_or]
    · split at later
      · rw [ih _ later, Bool.or_true]
      · cases later

/-- A leaf that is neither rolling nor a pipeline always returns a view. -/
theorem leaf_returns (leaf : Condenser) (isLeaf : ∀ condensers, leaf ≠ .pipeline condensers)
    (still : leaf.rolls = false) (view : View) :
    ∃ next, condense model leaf view = .ok (.view next) := by
  cases leaf with
  | noOp | recentEvents | observationMasking | browserOutput => exact ⟨_, rfl⟩
  | pipeline condensers => exact absurd rfl (isLeaf condensers)
  | _ => cases still

section

variable (areLeaves : ∀ leaf ∈ leaves, ∀ condensers, leaf ≠ .pipeline condensers)
include areLeaves

/-- Without an open request every rolling leaf sees none. -/
theorem all_see_closed (view : View) (closed : view.unhandledCondensationRequest = false) :
    AllSee model leaves view false := by
  induction leaves generalizing view with
  | nil =>
    intro visit member
    cases member
  | cons leaf rest ih =>
    intro visit member rolls
    rw [visits] at member
    rcases member with _ | ⟨_, later⟩
    · exact closed
    split at later
    · rename_i next condensed
      have nextClosed : next.unhandledCondensationRequest = false := by
        rcases leaf_view (areLeaves leaf (.head _)) condensed with
          ⟨_, _, flag⟩ | ⟨_, rfl, _⟩
        · exact flag
        · exact closed
      exact ih
        (fun other inside => areLeaves other (.tail _ inside)) next nextClosed
        visit later rolls
    · cases later

/-- Some rolling leaf is run and sees no request, once the request is lost before
one. -/
theorem closed_visit (view : View) (closed : view.unhandledCondensationRequest = false)
    (rolling : leaves.any Condenser.rolls = true) :
    ∃ visit ∈ visits model leaves view, visit.1.rolls = true ∧
      visit.2.unhandledCondensationRequest = false := by
  induction leaves generalizing view with
  | nil => cases rolling
  | cons leaf rest ih =>
    cases rolls : leaf.rolls with
    | true => exact ⟨(leaf, view), .head _, rolls, closed⟩
    | false =>
      have isLeaf := areLeaves leaf (.head _)
      obtain ⟨next, returned⟩ := leaf_returns _ _ isLeaf rolls _
      have nextClosed : next.unhandledCondensationRequest = false := by
        rcases leaf_view isLeaf returned with ⟨_, _, flag⟩ | ⟨_, rfl, _⟩
        · exact flag
        · exact closed
      rw [any_cons, rolls, Bool.false_or] at rolling
      obtain ⟨visit, member, holds⟩ := ih
        (fun other inside => areLeaves other (.tail _ inside)) next nextClosed
        rolling
      refine ⟨visit, ?_, holds⟩
      rw [visits, returned]
      exact .tail _ member

/-- An open request is seen by every rolling leaf that is run exactly when no leaf
before the first rolling one rebuilds the view. -/
theorem all_see_open_iff (view : View) (opened : view.unhandledCondensationRequest = true) :
    AllSee model leaves view true ↔ shieldsRequest leaves = false := by
  induction leaves generalizing view with
  | nil =>
    refine ⟨fun _ => rfl, fun _ visit member => ?_⟩
    cases member
  | cons leaf rest ih =>
    have isLeaf := areLeaves leaf (.head _)
    have areRest : ∀ other ∈ rest, ∀ condensers, other ≠ .pipeline condensers :=
      fun other inside => areLeaves other (.tail _ inside)
    rw [shieldsRequest]
    cases rolls : leaf.rolls with
    | true =>
      -- the first rolling leaf sees the request and ends the pipeline
      rw [if_pos rfl, eq_self, iff_true]
      intro visit member rolling
      rw [visits] at member
      rcases member with _ | ⟨_, later⟩
      · exact opened
      split at later
      · rename_i next condensed
        rcases leaf_view isLeaf condensed with
          ⟨rebuilds, _⟩ | ⟨_, _, saw⟩
        · cases leaf <;> simp [Condenser.rolls, Condenser.rebuilds] at rolls rebuilds
        · rw [saw rolls] at opened
          cases opened
      · cases later
    | false =>
      rw [if_neg (by simp)]
      obtain ⟨next, returned⟩ := leaf_returns _ _ isLeaf rolls _
      have skipped : AllSee model (leaf :: rest) view true ↔ AllSee model rest next true := by
        unfold AllSee
        rw [visits, returned]
        simp [rolls]
      rw [skipped]
      rcases leaf_view isLeaf returned with
        ⟨rebuilds, _, closed⟩ | ⟨passes, rfl, _⟩
      · rw [rebuilds, if_pos rfl]
        constructor
        · intro see
          by_contra rolling
          obtain ⟨visit, member, rolls, flag⟩ :=
            closed_visit _ _ areRest _ closed (by simpa using rolling)
          rw [see visit member rolls] at flag
          cases flag
        · intro still visit member rolling
          exact absurd (visit_rolls_any _ _ _ _ member rolling) (by simp [still])
      · rw [passes, if_neg (by simp)]
        exact ih areRest next opened

end

/-- A pipeline that returns a view has carried the bookkeeping along, and keeps a
forgotten first message out, exactly when none of its leaves rebuilds the view or
there was nothing to carry. Its rolling leaves see an open request exactly when
no leaf before the first of them rebuilds the view. -/
theorem pipeline_bookkeeping_exact (model : Model) (condensers : List Condenser) (view : View) :
    (∀ last, condense model (.pipeline condensers) view = .ok (.view last) →
      (Carried view last ∧ NotReinserted view last ↔
        (leavesOf condensers).any Condenser.rebuilds = false ∨ Bookless view)) ∧
    (AllSee model (leavesOf condensers) view view.unhandledCondensationRequest ↔
      view.unhandledCondensationRequest = false ∨
        shieldsRequest (leavesOf condensers) = false) := by
  have areLeaves := leaf_of_not_pipeline condensers
  constructor
  · intro last returned
    rw [condense, condense_through_leaves] at returned
    rcases through_view _ _ areLeaves _ _ returned with
      ⟨rebuilt, forgotten, closed⟩ | ⟨passed, rfl⟩
    · constructor
      · rintro ⟨⟨kept, flag⟩, _⟩
        refine .inr ⟨?_, flag.symm.trans closed⟩
        rw [forgotten] at kept
        exact List.eq_nil_iff_forall_not_mem.mpr (fun id member => List.not_mem_nil (kept id member))
      · rintro (whole | ⟨nothing, unasked⟩)
        · rw [rebuilt] at whole
          cases whole
        · have carried : Carried view last := ⟨by simp [nothing], closed.trans unasked.symm⟩
          exact ⟨carried, not_reinserted_of_carried _ _ carried⟩
    · have carried : Carried last last := ⟨fun _ member => member, rfl⟩
      exact ⟨fun _ => .inl passed, fun _ => ⟨carried, not_reinserted_of_carried _ _ carried⟩⟩
  · cases flag : view.unhandledCondensationRequest with
    | false =>
      refine ⟨fun _ => .inl rfl, fun _ => ?_⟩
      exact all_see_closed _ _ areLeaves _ flag
    | true =>
      rw [all_see_open_iff _ _ areLeaves _ flag]
      simp

/-- A model whose answers are fixed. -/
def silentModel : Model where
  summary := fun _ => .ok ""
  stateSummary := fun _ => .ok none
  importantIds := fun _ => .ok []

/-- A view from which the first message was forgotten. -/
def forgetfulView : View where
  events := [{ id := 0, source := some .agent, body := .action (.systemMessage "You are helpful.") },
    condensationObservation "The report was written."]
  forgottenEventIds := [1, 2, 3]

/-- A nested pipeline of rolling condensers passes the view on with its
bookkeeping. -/
theorem rolling_pipeline_carries :
    condense silentModel (.pipeline [.noOp, .pipeline [.conversationWindow]]) forgetfulView =
        .ok (.view forgetfulView) ∧
      Carried forgetfulView forgetfulView ∧ NotReinserted forgetfulView forgetfulView :=
  ⟨rfl, ((pipeline_bookkeeping_exact silentModel [.noOp, .pipeline [.conversationWindow]]
    forgetfulView).1 forgetfulView rfl).mpr (.inl rfl)⟩

/-- The forgotten first message of the user. -/
def firstInstruction : Event :=
  { id := 1, source := some .user, body := .action (.message "Write the report." none false) }

def requestedView : View := { forgetfulView with unhandledCondensationRequest := true }

/-- The texts of a prompt manager that play no part. -/
def plainSetup : Setup :=
  { prompts := ⟨fun _ => "You are helpful.", fun _ _ _ _ => "", fun _ => ""⟩ }

/-- Masking browser outputs before a rolling condenser drops the forgotten
identifiers and hides the request: the rolling condenser returns the view, and
the forgotten first message is inserted again. -/
theorem masking_pipeline_forgets :
    condense silentModel (.pipeline [.browserOutput 1, .conversationWindow]) requestedView =
        .ok (.view { events := requestedView.events }) ∧
      ¬Carried requestedView { events := requestedView.events } ∧
      ¬AllSee silentModel [.browserOutput 1, .conversationWindow] requestedView true ∧
      firstInstruction.id ∈ requestedView.forgottenEventIds ∧
      (ensuredEvents plainSetup requestedView.events firstInstruction []).map Event.id =
        [0, 1, -1] := by
  refine ⟨rfl, ?_, ?_, by decide, rfl⟩
  · intro carried
    exact List.not_mem_nil (carried.1 1 (by decide))
  · intro see
    have flag : false = true := see (.conversationWindow, { events := requestedView.events })
      (.tail _ (.head _)) rfl
    cases flag

end ForgePilot.Condensers
