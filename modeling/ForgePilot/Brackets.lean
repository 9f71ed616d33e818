import Mathlib.Data.List.Induction

/-!
# Matching brackets with a stack

Items of a list open a bracket, close one, or do neither. A stack of open brackets
matches each closing item with the last open one; a closing item with nothing open
is passed over, and opening items without a closing one stay open. The pairs found
are those with a balanced list between them.
-/

namespace ForgePilot.Brackets

open List

/-- What an item does. -/
inductive Kind where
  | opening
  | closing
  | neither
deriving DecidableEq

variable {α : Type} (kind : α → Kind)

/-- Pairs that were matched so far, and items that are still open, last one
first. -/
structure Matching (α : Type) where
  pairs : List (α × α)
  stack : List α

/-- Take one item into account. -/
def matchItem (state : Matching α) (item : α) : Matching α :=
  match kind item with
  | .opening => { state with stack := item :: state.stack }
  | .closing =>
      match state.stack with
      | [] => state
      | first :: rest => ⟨state.pairs ++ [(first, item)], rest⟩
  | .neither => state

/-- The pairs of a list, in the order of their closing items. -/
def matchedPairs (items : List α) : List (α × α) :=
  (items.foldl (matchItem kind) ⟨[], []⟩).pairs

/-- Lists in which every bracket has its partner. -/
inductive Balanced : List α → Prop where
  | nil : Balanced []
  | neither (item : α) (rest : List α) (none : kind item = .neither) (later : Balanced rest) :
      Balanced (item :: rest)
  | pair (first last : α) (inner rest : List α) (opens : kind first = .opening)
      (closes : kind last = .closing) (inside : Balanced inner) (later : Balanced rest) :
      Balanced (first :: inner ++ last :: rest)

/-- Two items of a list with a balanced list between them. -/
def Partners (items : List α) (first last : α) : Prop :=
  kind first = .opening ∧ kind last = .closing ∧
    ∃ front inner back, items = front ++ first :: inner ++ last :: back ∧ Balanced kind inner

variable {kind}

/-- Balanced lists can be put one after the other. -/
theorem balanced_append (left right : List α) (first : Balanced kind left)
    (second : Balanced kind right) : Balanced kind (left ++ right) := by
  induction first with
  | nil => exact second
  | neither item rest none later ih => exact .neither item _ none ih
  | pair opens_ closes_ inner rest opens closes inside later _ ih =>
    have grouped : opens_ :: inner ++ closes_ :: rest ++ right =
        opens_ :: inner ++ closes_ :: (rest ++ right) := by
      simp
    rw [grouped]
    exact .pair opens_ closes_ inner _ opens closes inside ih

/-- A balanced list leaves the stack as it was, and pairs are only added. -/
theorem match_balanced (inner : List α) (balanced : Balanced kind inner) (state : Matching α) :
    (inner.foldl (matchItem kind) state).stack = state.stack := by
  induction balanced generalizing state with
  | nil => rfl
  | neither item rest none later ih => rw [foldl_cons, ih, matchItem, none]
  | pair first last inner rest opens closes inside later innerHypothesis laterHypothesis =>
    rw [cons_append, foldl_cons, foldl_append, foldl_cons, laterHypothesis,
      matchItem, closes, innerHypothesis, matchItem, opens]

variable (items : List α)

/-- Pairs that were found stay. -/
theorem match_keeps (state : Matching α) (pair : α × α) (found : pair ∈ state.pairs) :
    pair ∈ (items.foldl (matchItem kind) state).pairs := by
  induction items generalizing state with
  | nil => exact found
  | cons item rest ih =>
    apply ih
    rw [matchItem]
    split
    · exact found
    · split
      · exact found
      · exact mem_append_left _ found
    · exact found

theorem partners_matched (first last : α) (partners : Partners kind items first last) :
    (first, last) ∈ matchedPairs kind items := by
  obtain ⟨opens, closes, front, inner, back, rfl, balanced⟩ := partners
  rw [matchedPairs, foldl_append, foldl_append, foldl_cons, foldl_cons]
  apply match_keeps
  have stack := match_balanced inner balanced
    (matchItem kind (front.foldl (matchItem kind) ⟨[], []⟩) first)
  generalize inner.foldl (matchItem kind)
    (matchItem kind (front.foldl (matchItem kind) ⟨[], []⟩) first) = state at stack
  rw [matchItem, opens] at stack
  rw [matchItem, closes, stack]
  exact mem_append_right _ (.head _)

/-- Open items have balanced lists between them and after the last one. -/
def Pending (kind : α → Kind) (items : List α) : List α → Prop
  | [] => True
  | first :: rest => kind first = .opening ∧ ∃ front inner, items = front ++ first :: inner ∧
      Balanced kind inner ∧ Pending kind front rest

/-- What was read so far, extended by a balanced list. -/
theorem pending_append {items more : List α} {stack : List α} (balanced : Balanced kind more)
    (pending : Pending kind items stack) : Pending kind (items ++ more) stack := by
  cases stack with
  | nil => trivial
  | cons first rest =>
    obtain ⟨opens, front, inner, rfl, inside, earlier⟩ := pending
    exact ⟨opens, front, inner ++ more, by simp, balanced_append _ _ inside balanced, earlier⟩

/-- Matching keeps open items apart by balanced lists, and finds partners only. -/
theorem match_invariant :
    Pending kind items (items.foldl (matchItem kind) ⟨[], []⟩).stack ∧
      ∀ pair ∈ (items.foldl (matchItem kind) ⟨[], []⟩).pairs,
        Partners kind items pair.1 pair.2 := by
  induction items using reverseRecOn with
  | nil => exact ⟨trivial, fun pair found => nomatch found⟩
  | append_singleton items item ih =>
    rw [foldl_append, foldl_cons, foldl_nil]
    generalize items.foldl (matchItem kind) ⟨[], []⟩ = state at ih
    obtain ⟨pending, found⟩ := ih
    have foundBefore : ∀ pair ∈ state.pairs, Partners kind (items ++ [item]) pair.1 pair.2 := by
      intro pair member
      obtain ⟨opens, closes, front, inner, back, rfl, balanced⟩ := found pair member
      exact ⟨opens, closes, front, inner, back ++ [item], by simp, balanced⟩
    rw [matchItem]
    cases does : kind item with
    | neither => exact ⟨pending_append (.neither item [] does .nil) pending, foundBefore⟩
    | opening => exact ⟨⟨does, items, [], by simp, .nil, pending⟩, foundBefore⟩
    | closing =>
      cases open_ : state.stack with
      | nil =>
        refine ⟨?_, foundBefore⟩
        simp only [open_]
        trivial
      | cons first rest =>
        rw [open_] at pending
        obtain ⟨opens, front, inner, rfl, balanced, earlier⟩ := pending
        constructor
        · -- the pair and what it encloses is balanced
          have enclosed : Balanced kind (first :: inner ++ item :: []) :=
            .pair first item inner [] opens does balanced .nil
          have extended := pending_append enclosed earlier
          simpa using extended
        · exact forall_mem_append.mpr ⟨foundBefore,
            forall_mem_singleton.mpr ⟨opens, does, front, inner, [], by simp, balanced⟩⟩

/-- The stack finds exactly the partners. -/
theorem matched_iff_partners (first last : α) :
    (first, last) ∈ matchedPairs kind items ↔ Partners kind items first last :=
  ⟨(match_invariant _).2 (first, last), partners_matched _ _ _⟩

section Order

variable (key : α → Int)

/-- Pairs that were found enclose what is read later or lie before it, and so does
every pair with every open item. -/
structure Apart (items : List α) (state : Matching α) : Prop where
  stackRead : ∀ item ∈ state.stack, item ∈ items
  pairsRead : ∀ pair ∈ state.pairs, pair.1 ∈ items ∧ pair.2 ∈ items ∧ key pair.1 < key pair.2
  stack : state.stack.Pairwise (fun last first => key first < key last)
  around : ∀ item ∈ state.stack, ∀ pair ∈ state.pairs,
    key item < key pair.1 ∨ key pair.2 < key item
  pairs : state.pairs.Pairwise (fun first second =>
    key second.1 < key first.1 ∧ key first.2 < key second.2 ∨ key first.2 < key second.1)

/-- Reading one more item keeps pairs and open items apart. -/
theorem match_item_apart {items : List α} {state : Matching α} (item : α)
    (beyond : ∀ other ∈ items, key other < key item) (apart : Apart key items state) :
    Apart key (items ++ [item]) (matchItem kind state item) := by
  obtain ⟨stackRead, pairsRead, stack, around, pairs⟩ := apart
  have stackRead' : ∀ other ∈ state.stack, other ∈ items ++ [item] :=
    fun other member => mem_append_left _ (stackRead other member)
  have pairsRead' : ∀ pair ∈ state.pairs,
      pair.1 ∈ items ++ [item] ∧ pair.2 ∈ items ++ [item] ∧ key pair.1 < key pair.2 := by
    intro pair member
    obtain ⟨first, last, ordered⟩ := pairsRead pair member
    exact ⟨mem_append_left _ first, mem_append_left _ last, ordered⟩
  rw [matchItem]
  split
  · refine ⟨?_, pairsRead', ?_, ?_, pairs⟩
    · intro other member
      cases mem_cons.mp member with
      | inl same => exact same ▸ mem_append_right _ (.head _)
      | inr before => exact stackRead' other before
    · exact pairwise_cons.mpr
        ⟨fun other member => beyond other (stackRead other member), stack⟩
    · intro other member pair found
      cases mem_cons.mp member with
      | inl same => exact .inr (same ▸ beyond _ (pairsRead pair found).2.1)
      | inr before => exact around other before pair found
  · split
    · exact ⟨stackRead', pairsRead', stack, around, pairs⟩
    · rename_i first rest open_
      rw [open_] at stackRead stackRead' around stack
      rw [pairwise_cons] at stack
      have firstBefore : key first < key item := beyond first (stackRead first (.head _))
      refine ⟨?_, ?_, stack.2, ?_, ?_⟩
      · exact fun other member => stackRead' other (.tail _ member)
      · intro pair member
        cases mem_append.mp member with
        | inl before => exact pairsRead' pair before
        | inr now =>
          rw [mem_singleton.mp now]
          exact ⟨stackRead' first (.head _), mem_append_right _ (.head _), firstBefore⟩
      · intro other member pair found
        cases mem_append.mp found with
        | inl before => exact around other (.tail _ member) pair before
        | inr now =>
          rw [mem_singleton.mp now]
          exact .inl (stack.1 other member)
      · refine pairwise_append.mpr ⟨pairs, pairwise_singleton _ _, ?_⟩
        intro pair found other now
        rw [mem_singleton.mp now]
        have last := beyond _ (pairsRead pair found).2.1
        cases around first (.head _) pair found with
        | inl encloses => exact .inl ⟨encloses, last⟩
        | inr later => exact .inr later
  · exact ⟨stackRead', pairsRead', stack, around, pairs⟩

/-- The pairs of a list with increasing keys are nested or apart. -/
theorem matched_pairs_apart {items : List α}
    (increasing : items.Pairwise (fun first second => key first < key second)) :
    (∀ pair ∈ matchedPairs kind items, pair.1 ∈ items ∧ pair.2 ∈ items ∧ key pair.1 < key pair.2) ∧
      (matchedPairs kind items).Pairwise (fun first second =>
        key second.1 < key first.1 ∧ key first.2 < key second.2 ∨ key first.2 < key second.1) := by
  have apart : Apart key items (items.foldl (matchItem kind) ⟨[], []⟩) := by
    induction items using reverseRecOn with
    | nil => exact ⟨by simp, by simp, .nil, by simp, .nil⟩
    | append_singleton items item ih =>
      rw [pairwise_append] at increasing
      rw [foldl_append, foldl_cons, foldl_nil]
      exact match_item_apart key _
        (fun other member => increasing.2.2 other member item (.head _))
        (ih increasing.1)
  exact ⟨apart.pairsRead, apart.pairs⟩

end Order

end ForgePilot.Brackets
