import ForgePilot.Runs

/-!
# Deleting conversations with sub-conversations

A conversation may be started below another one, which must be stored at that time; the one
above may be below a third. Deleting a conversation deletes the ones directly below it and
then itself, each from the agent server and from the tables.

The agent server answers or fails as each deletion says; its failures are only logged. A
start is one step. Of a row only the key and the conversation above it are kept, and of the
start tasks the conversation each of them has led to.
-/

namespace ForgePilot.ConversationDeletion

open Runs List

structure StoredConversationMetadata (υ : Type) where
  conversationId : υ
  parentConversationId : Option υ

/-- The tables, and the conversations that are open on the agent server. -/
structure State (υ : Type) where
  conversations : List (StoredConversationMetadata υ)
  startTasks : List υ
  agentServer : List υ

/-- Nothing has been started. -/
def initial {υ : Type} : State υ := ⟨[], [], []⟩

variable {υ : Type} [DecidableEq υ]

/-- The stored identifiers. -/
def State.ids (state : State υ) : List υ :=
  state.conversations.map StoredConversationMetadata.conversationId

/-- Write the row of a conversation over the one that is there. -/
def saveAppConversationInfo (row : StoredConversationMetadata υ) (state : State υ) : State υ :=
  { state with
    conversations :=
      if row.conversationId ∈ state.ids then
        state.conversations.map (fun stored =>
          if stored.conversationId = row.conversationId then row else stored)
      else state.conversations ++ [row] }

/-- Start a conversation; a parent that is not stored is refused. -/
def startAppConversation (id : υ) (parent : Option υ) (state : State υ) : State υ :=
  if ∀ above ∈ parent, above ∈ state.ids then
    let saved := saveAppConversationInfo ⟨id, parent⟩ state
    { saved with
      startTasks := state.startTasks ++ [id]
      agentServer := state.agentServer ++ [id] }
  else state

/-- The conversations directly below one. -/
def getSubConversationIds (parent : υ) (state : State υ) : List υ :=
  (state.conversations.filter (fun row => row.parentConversationId = some parent)).map
    StoredConversationMetadata.conversationId

/-- Ask the agent server to delete a conversation; that it fails is only logged. -/
def deleteFromAgentServer (answers : υ → Bool) (id : υ) (state : State υ) : State υ :=
  if answers id then { state with agentServer := state.agentServer.filter (· ≠ id) } else state

/-- Delete the row and the start tasks of a conversation, and say whether there were any. -/
def deleteFromDatabase (id : υ) (state : State υ) : State υ × Bool :=
  ({ state with
     conversations := state.conversations.filter (fun row => row.conversationId ≠ id)
     startTasks := state.startTasks.filter (· ≠ id) },
   id ∈ state.ids || id ∈ state.startTasks)

/-- Delete the conversations directly below one. -/
def deleteSubConversations (answers : υ → Bool) (parent : υ) (state : State υ) : State υ :=
  (getSubConversationIds parent state).foldl (fun state id =>
    if id ∈ state.ids then
      (deleteFromDatabase id (deleteFromAgentServer answers id state)).1
    else state) state

/-- Delete a conversation and what is directly below it. -/
def deleteAppConversation (id : υ) (skipAgentServerDelete : Bool) (answers : υ → Bool)
    (state : State υ) : State υ × Bool :=
  if id ∈ state.ids then
    let below := deleteSubConversations answers id state
    deleteFromDatabase id (if skipAgentServerDelete then below
      else deleteFromAgentServer answers id below)
  else (state, false)

inductive Step (υ : Type) where
  | start (id : υ) (parent : Option υ)
  | delete (id : υ) (skipAgentServerDelete : Bool) (answers : υ → Bool)

def step (state : State υ) : Step υ → State υ
  | .start id parent => startAppConversation id parent state
  | .delete id skipAgentServerDelete answers =>
      (deleteAppConversation id skipAgentServerDelete answers state).1

/-! ## What a deletion is for -/

/-- Every conversation above a stored one is stored. -/
def Closed (state : State υ) : Prop :=
  ∀ row ∈ state.conversations, ∀ parent, row.parentConversationId = some parent →
    parent ∈ state.ids

/-- Directly or indirectly below a conversation. -/
inductive Below (state : State υ) (top : υ) : υ → Prop
  | direct (row : StoredConversationMetadata υ) (stored : row ∈ state.conversations)
      (under : row.parentConversationId = some top) : Below state top row.conversationId
  | indirect (row : StoredConversationMetadata υ) (stored : row ∈ state.conversations)
      (between : υ) (under : row.parentConversationId = some between)
      (lower : Below state top between) : Below state top row.conversationId

/-- A deletion that returns true removes the conversation and everything below it, and nothing
else. -/
def RemovesExactly (state : State υ) : Step υ → Prop
  | .start _ _ => True
  | .delete id skipAgentServerDelete answers =>
      (deleteAppConversation id skipAgentServerDelete answers state).2 = true →
        ∀ other, other ∈ (deleteAppConversation id skipAgentServerDelete answers state).1.ids ↔
          other ∈ state.ids ∧ other ≠ id ∧ ¬ Below state id other

/-- Everything below a conversation to be deleted is the conversation or directly below it. -/
def Shallow (state : State υ) : Step υ → Prop
  | .start _ _ => True
  | .delete id _ _ => ∀ row ∈ state.conversations, ∀ parent,
      row.parentConversationId = some parent → parent ∈ getSubConversationIds id state →
        row.conversationId = id ∨ row.conversationId ∈ getSubConversationIds id state

/-! ## What is removed -/

/-- Asking the agent server leaves the tables. -/
theorem agent_server_frame (answers : υ → Bool) (id : υ) (state : State υ) :
    (deleteFromAgentServer answers id state).conversations = state.conversations ∧
      (deleteFromAgentServer answers id state).startTasks = state.startTasks := by
  rw [deleteFromAgentServer]
  split <;> exact ⟨rfl, rfl⟩

/-- Deleting some conversations one after the other. -/
theorem delete_all (answers : υ → Bool) (doomed : List υ) (state : State υ) :
    (doomed.foldl (fun state id => if id ∈ state.ids then
        (deleteFromDatabase id (deleteFromAgentServer answers id state)).1
      else state) state).conversations =
      state.conversations.filter (fun row => row.conversationId ∉ doomed) := by
  induction doomed generalizing state with
  | nil => simp
  | cons id rest ih =>
    have here : (if id ∈ state.ids then
        (deleteFromDatabase id (deleteFromAgentServer answers id state)).1
        else state).conversations =
        state.conversations.filter (fun row => row.conversationId ≠ id) := by
      split
      case isTrue => rw [deleteFromDatabase, (agent_server_frame ..).1]
      case isFalse absent =>
        symm
        rw [filter_eq_self]
        intro row stored
        have different : row.conversationId ≠ id := by
          rintro rfl
          exact absent (mem_map_of_mem stored)
        simpa using different
    rw [foldl_cons, ih, here, filter_filter]
    apply filter_congr
    intro row _
    simp [mem_cons, not_or, Bool.and_comm]

/-- A deletion removes the conversation and the ones directly below it. -/
theorem delete_conversations (id : υ) (skipAgentServerDelete : Bool) (answers : υ → Bool)
    (state : State υ) (stored : id ∈ state.ids) :
    (deleteAppConversation id skipAgentServerDelete answers state).1.conversations =
      state.conversations.filter (fun row =>
        row.conversationId ≠ id ∧ row.conversationId ∉ getSubConversationIds id state) := by
  rw [deleteAppConversation]
  rw [if_pos stored]
  have below := delete_all answers (getSubConversationIds id state) state
  have final : (deleteFromDatabase id
      (if skipAgentServerDelete then deleteSubConversations answers id state
        else deleteFromAgentServer answers id (deleteSubConversations answers id state))).1.conversations =
      (deleteSubConversations answers id state).conversations.filter
        (fun row => row.conversationId ≠ id) := by
    cases skipAgentServerDelete with
    | true => rfl
    | false =>
      change ((deleteFromAgentServer answers id
        (deleteSubConversations answers id state)).conversations.filter _) = _
      rw [(agent_server_frame ..).1]
  rw [final]
  rw [deleteSubConversations, below, filter_filter]
  apply filter_congr
  intro row _
  simp

variable {state : State υ}

/-- What is stored after a deletion. -/
theorem mem_deleted_ids (id other : υ) (skipAgentServerDelete : Bool) (answers : υ → Bool)
    (stored : id ∈ state.ids) :
    other ∈ (deleteAppConversation id skipAgentServerDelete answers state).1.ids ↔
      other ∈ state.ids ∧ other ≠ id ∧ other ∉ getSubConversationIds id state := by
  rw [State.ids, delete_conversations id _ _ _ stored]
  constructor
  · intro member
    obtain ⟨row, kept, rfl⟩ := mem_map.mp member
    obtain ⟨present, away⟩ := mem_filter.mp kept
    exact ⟨mem_map_of_mem present, of_decide_eq_true away⟩
  · rintro ⟨member, away⟩
    obtain ⟨row, present, rfl⟩ := mem_map.mp member
    exact mem_map_of_mem (mem_filter.mpr ⟨present, decide_eq_true away⟩)

/-! ## Which deletions leave nothing dangling -/

theorem below_of_sub (state : State υ) (id other : υ) (sub : other ∈ getSubConversationIds id state) :
    Below state id other := by
  obtain ⟨row, kept, rfl⟩ := mem_map.mp sub
  obtain ⟨present, under⟩ := mem_filter.mp kept
  exact .direct row present (of_decide_eq_true under)

variable {row : StoredConversationMetadata υ}

/-- A row whose conversation above it is given is directly below that one. -/
theorem sub_of_parent {id : υ} (present : row ∈ state.conversations)
    (under : row.parentConversationId = some id) :
    row.conversationId ∈ getSubConversationIds id state :=
  mem_map_of_mem (mem_filter.mpr ⟨present, decide_eq_true under⟩)

/-- In a shallow deletion everything below the conversation is removed. -/
theorem below_removed {id : υ} {skipAgentServerDelete : Bool} {answers : υ → Bool}
    (shallow : Shallow state (.delete id skipAgentServerDelete answers)) {other : υ}
    (below : Below state id other) : other = id ∨ other ∈ getSubConversationIds id state := by
  induction below with
  | direct row stored under => exact .inr (sub_of_parent stored under)
  | indirect row stored between under lower ih =>
    rcases ih with rfl | sub
    · exact .inr (sub_of_parent stored under)
    · exact shallow row stored between under sub

/-- What is stored after a row was written. -/
theorem mem_saved_ids (row : StoredConversationMetadata υ) (state : State υ) (other : υ) :
    other ∈ (saveAppConversationInfo row state).ids ↔
      other ∈ state.ids ∨ other = row.conversationId := by
  by_cases present : row.conversationId ∈ state.ids
  · have same : ((state.conversations.map (fun stored =>
        if stored.conversationId = row.conversationId then row else stored)).map
          StoredConversationMetadata.conversationId) =
        state.conversations.map StoredConversationMetadata.conversationId := by
      rw [map_map]
      apply map_congr_left
      intro stored _
      simp only [Function.comp]
      split
      case isTrue named => exact named.symm
      case isFalse => rfl
    have shape : (saveAppConversationInfo row state).ids = state.ids := by
      rw [saveAppConversationInfo]
      rw [if_pos present]
      exact same
    rw [shape]
    constructor
    · exact .inl
    · rintro (member | rfl)
      · exact member
      · exact present
  · have shape : (saveAppConversationInfo row state).ids = state.ids ++ [row.conversationId] := by
      rw [saveAppConversationInfo]
      rw [if_neg present]
      exact map_append
    rw [shape, mem_append, mem_singleton]

/-- A stored row after a row was written is that row or was stored before. -/
theorem saved_rows {stored : StoredConversationMetadata υ}
    (member : stored ∈ (saveAppConversationInfo row state).conversations) :
    stored = row ∨ stored ∈ state.conversations := by
  rw [saveAppConversationInfo] at member
  split at member
  · obtain ⟨old, present, rfl⟩ := mem_map.mp member
    split
    · exact .inl rfl
    · exact .inr present
  · rcases mem_append.mp member with earlier | added
    · exact .inr earlier
    · exact .inl (mem_singleton.mp added)

theorem start_closed (id : υ) (parent : Option υ) (state : State υ) (closed : Closed state) :
    Closed (startAppConversation id parent state) := by
  rw [startAppConversation]
  split
  case isFalse => exact closed
  case isTrue allowed =>
    intro stored member above under
    apply (mem_saved_ids ..).mpr
    left
    rcases saved_rows member with rfl | present
    · exact allowed above under
    · exact closed stored present above under

/-- A deletion keeps a closed state closed exactly when it is shallow. -/
theorem delete_closed_exact (id : υ) (skipAgentServerDelete : Bool) (answers : υ → Bool)
    (state : State υ) (closed : Closed state) :
    Shallow state (.delete id skipAgentServerDelete answers) ↔
      Closed (deleteAppConversation id skipAgentServerDelete answers state).1 := by
  by_cases stored : id ∈ state.ids
  · have rows := delete_conversations id skipAgentServerDelete answers state stored
    constructor
    · intro shallow row member above under
      rw [rows] at member
      obtain ⟨present, away⟩ := mem_filter.mp member
      obtain ⟨different, notSub⟩ := of_decide_eq_true away
      apply (mem_deleted_ids id _ _ _ stored).mpr
      refine ⟨closed row present above under, ?_, ?_⟩
      · rintro rfl
        exact notSub (sub_of_parent present under)
      · intro sub
        exact (shallow row present above under sub).elim different notSub
    · intro after row present above under sub
      by_contra kept
      obtain ⟨different, notSub⟩ := not_or.mp kept
      have member : row ∈ (deleteAppConversation id skipAgentServerDelete answers
          state).1.conversations := by
        rw [rows]
        exact mem_filter.mpr ⟨present, decide_eq_true ⟨different, notSub⟩⟩
      have still := after row member above under
      exact ((mem_deleted_ids id _ _ _ stored).mp still).2.2 sub
  · have unchanged : deleteAppConversation id skipAgentServerDelete answers state = (state, false) :=
      if_neg stored
    rw [unchanged]
    refine iff_of_true ?_ closed
    intro row present above under sub
    obtain ⟨child, kept, rfl⟩ := mem_map.mp sub
    obtain ⟨childPresent, childUnder⟩ := mem_filter.mp kept
    exact absurd (closed child childPresent id (of_decide_eq_true childUnder)) stored

/-- A shallow deletion that returns true removes exactly what it is for. -/
theorem shallow_removes {label : Step υ} (shallow : Shallow state label) :
    RemovesExactly state label := by
  cases label with
  | start id parent => exact trivial
  | delete id skipAgentServerDelete answers =>
    intro succeeded other
    have stored : id ∈ state.ids := by
      by_contra absent
      have unchanged : deleteAppConversation id skipAgentServerDelete answers state =
          (state, false) := if_neg absent
      rw [unchanged] at succeeded
      cases succeeded
    rw [mem_deleted_ids id _ _ _ stored]
    constructor
    · rintro ⟨member, different, notSub⟩
      refine ⟨member, different, fun below => ?_⟩
      exact (below_removed shallow below).elim
        different notSub
    · rintro ⟨member, different, notBelow⟩
      exact ⟨member, different, fun sub => notBelow (below_of_sub _ id _ sub)⟩

/-- A step keeps a closed state closed exactly when it is shallow. -/
theorem step_closed_exact (state : State υ) (label : Step υ) (closed : Closed state) :
    Shallow state label ↔ Closed (step state label) := by
  cases label with
  | start id parent => exact iff_of_true trivial (start_closed id _ _ closed)
  | delete id skipAgentServerDelete answers => exact delete_closed_exact id _ _ _ closed

/-- In a run of starts and deletions every conversation above a stored one is stored, and every
deletion that returns true removes exactly what is below its conversation, precisely when
every deletion is shallow. -/
theorem deletions_exact (labels : List (Step υ)) :
    ((∀ state, Reached step initial labels state → Closed state) ∧
      Along step RemovesExactly initial labels) ↔ Along step Shallow (initial : State υ) labels := by
  have empty : Closed (initial : State υ) := by
    rintro row ⟨⟩
  have exact := invariant_exact step Shallow Closed step_closed_exact (initial : State υ) labels empty
  constructor
  · exact fun holds => exact.mp holds.1
  · intro shallow
    refine ⟨exact.mpr shallow, ?_⟩
    exact along_of_invariant _ _ _ _
      (fun state label closed met => (step_closed_exact _ _ closed).mp met)
      (fun state label _ met => shallow_removes met) _ _ empty shallow

/-- A conversation, one below it, and one below that; the first is deleted. -/
def threeLevels : List (Step Nat) :=
  [.start 0 none, .start 1 (some 0), .start 2 (some 1), .delete 0 false (fun _ => true)]

/-- The third conversation stays, below one that is not stored. -/
theorem grandchild_dangles : ¬ ((∀ state, Reached step initial threeLevels state → Closed state) ∧
      Along step RemovesExactly (initial : State Nat) threeLevels) := by
  rintro ⟨closed, -⟩
  have last := closed (run step initial threeLevels) ⟨threeLevels, [], rfl, rfl⟩
  have dangling := last ⟨2, some 1⟩ (by simp [threeLevels, step, startAppConversation, initial,
    saveAppConversationInfo, State.ids, deleteAppConversation, deleteSubConversations,
    getSubConversationIds, deleteFromDatabase, deleteFromAgentServer]) 1 rfl
  revert dangling
  decide

end ForgePilot.ConversationDeletion
