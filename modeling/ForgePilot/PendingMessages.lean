import ForgePilot.Runs
import Mathlib.Algebra.Group.Nat.Defs
import Mathlib.Data.List.Nodup

/-!
# Messages that wait for a conversation

Clients queue messages while a conversation is being started, under the identifier of
the start task or of the conversation. When the conversation is ready, one process
moves the messages of the task to the conversation, fetches those of the conversation,
posts them one after the other, and deletes the messages of the conversation. Clients
go on queueing between these steps.

A group of statements on the table is one step, and so is a post. A step of the process
on the table may fail, which ends the process; a failed post is only logged. The table
carries all messages, whatever they were queued under. What the table is sorted by
leaves the order of messages of one instant to the database.
-/

namespace ForgePilot.PendingMessages

open Runs List

abbrev Uuid := BitVec 128

/-- The hexadecimal digits of an identifier. -/
def Uuid.hex (id : Uuid) : List Char :=
  (List.range 32).map (fun position => Nat.digitChar (id.toNat / 16 ^ (31 - position) % 16))

/-- The text of an identifier: its digits in five groups. -/
def Uuid.str (id : Uuid) : List Char :=
  let digits := Uuid.hex id
  digits.take 8 ++ '-' :: (digits.drop 8).take 4 ++ '-' :: (digits.drop 12).take 4 ++
    '-' :: (digits.drop 16).take 4 ++ '-' :: digits.drop 20

/-- The identifier under which messages wait for a start task. -/
def taskIdStr (taskId : Uuid) : List Char := ['t', 'a', 's', 'k', '-'] ++ Uuid.hex taskId

theorem task_id_differs (taskId conversationId : Uuid) :
    taskIdStr taskId ≠ Uuid.str conversationId := by
  intro same
  have digit : ∀ value < 16, Nat.digitChar value ≠ 't' := by decide
  have first : (Uuid.str conversationId).head? =
      some (Nat.digitChar (conversationId.toNat / 16 ^ 31 % 16)) := rfl
  rw [← same] at first
  exact digit _ (Nat.mod_lt _ (by decide)) (Option.some.inj first).symm

variable {κ γ : Type}

structure StoredPendingMessage (κ γ : Type) where
  id : κ
  conversationId : List Char
  role : String
  content : γ
  createdAt : Nat
deriving DecidableEq

/-- What the process does next. -/
inductive Phase (κ γ : Type) where
  | updating
  | fetching
  | posting (rest : List (StoredPendingMessage κ γ))
  | finished

/-- The table, the process, and what has happened: the messages that were accepted and
those that were posted, in order. -/
structure State (κ γ : Type) where
  table : List (StoredPendingMessage κ γ)
  phase : Phase κ γ
  accepted : List (StoredPendingMessage κ γ)
  posts : List (StoredPendingMessage κ γ)

/-- Before anything is queued. -/
def initial : State κ γ := ⟨[], .updating, [], []⟩

/-- The database sorts messages by creation, those of one instant in any order. -/
structure OrderBy (κ γ : Type) where
  sort : List (StoredPendingMessage κ γ) → List (StoredPendingMessage κ γ)
  perm : ∀ messages, (sort messages).Perm messages
  sorted : ∀ messages, (sort messages).Pairwise (fun first second =>
    first.createdAt ≤ second.createdAt)

variable [DecidableEq κ] (order : OrderBy κ γ)

/-- Store a message; identifiers are not drawn twice. -/
def addMessage (state : State κ γ) (message : StoredPendingMessage κ γ) : State κ γ :=
  if message.id ∈ state.accepted.map StoredPendingMessage.id then state
  else
    { state with
      table := state.table ++ [message]
      accepted := state.accepted ++ [message] }

/-- Move the messages of one identifier to another one. -/
def updateConversationId (old new : List Char) (table : List (StoredPendingMessage κ γ)) :
    List (StoredPendingMessage κ γ) :=
  table.map (fun message =>
    if message.conversationId = old then { message with conversationId := new } else message)

def getPendingMessages (conversationId : List Char) (table : List (StoredPendingMessage κ γ)) :
    List (StoredPendingMessage κ γ) :=
  order.sort (table.filter (fun message => message.conversationId = conversationId))

def deleteMessagesForConversation (conversationId : List Char)
    (table : List (StoredPendingMessage κ γ)) : List (StoredPendingMessage κ γ) :=
  table.filter (fun message => message.conversationId ≠ conversationId)

/-- The next step of the process. -/
def processPendingMessages (taskId conversationId : Uuid) (state : State κ γ) (succeeds : Bool) :
    State κ γ :=
  match state.phase with
  | .updating =>
      if succeeds then
        { state with
          table := updateConversationId (taskIdStr taskId) (Uuid.str conversationId) state.table
          phase := .fetching }
      else { state with phase := .finished }
  | .fetching =>
      if succeeds then
        let messages := getPendingMessages order (Uuid.str conversationId) state.table
        { state with phase := if messages = [] then .finished else .posting messages }
      else { state with phase := .finished }
  | .posting (message :: rest) =>
      -- a post that fails is logged, and the next message follows
      { state with phase := .posting rest, posts := state.posts ++ [message] }
  | .posting [] =>
      if succeeds then
        { state with
          table := deleteMessagesForConversation (Uuid.str conversationId) state.table
          phase := .finished }
      else { state with phase := .finished }
  | .finished => state

/-- A client queues a message, or the process takes a step. -/
inductive Step (κ γ : Type) where
  | add (message : StoredPendingMessage κ γ)
  | process (succeeds : Bool)

def step (taskId conversationId : Uuid) (state : State κ γ) : Step κ γ → State κ γ
  | .add message => addMessage state message
  | .process succeeds => processPendingMessages order taskId conversationId state succeeds

/-! ## What becomes of a message -/

def ids (messages : List (StoredPendingMessage κ γ)) : List κ :=
  messages.map StoredPendingMessage.id

/-- What has become of an accepted message. -/
inductive Delivery where
  | waiting | posted | removed
deriving DecidableEq

/-- A message waits unposted, is stored after one post, or was removed after one post;
there is no word for a message that was removed unposted or posted twice. -/
def delivery (state : State κ γ) (id : κ) : Option Delivery :=
  match decide (id ∈ ids state.table), (ids state.posts).count id with
  | true, 0 => some .waiting
  | true, 1 => some .posted
  | false, 1 => some .removed
  | _, _ => none

def Chronological (messages : List (StoredPendingMessage κ γ)) : Prop :=
  messages.Pairwise (fun first second => first.createdAt ≤ second.createdAt)

/-- Every accepted message waits, was posted, or was removed after a post, and the posts
were made by creation. -/
def Delivered (state : State κ γ) : Prop :=
  (∀ message ∈ state.accepted, (delivery state message.id).isSome) ∧ Chronological state.posts

/-- Nothing is queued under the conversation while the process posts what it fetched. -/
def Undisturbed (conversationId : Uuid) (state : State κ γ) : Step κ γ → Prop
  | .add message => ∀ rest, state.phase = .posting rest →
      message.conversationId ≠ Uuid.str conversationId
  | .process _ => True

/-- The messages that were fetched and are not posted yet. -/
def Phase.rest : Phase κ γ → List (StoredPendingMessage κ γ)
  | .posting rest => rest
  | _ => []

def State.fetched (state : State κ γ) : List (StoredPendingMessage κ γ) :=
  state.posts ++ state.phase.rest

/-- No message is stored or fetched twice, messages disappear only after a post, and while
the process posts, all messages of the conversation are among the fetched ones. -/
structure Sound (conversationId : Uuid) (state : State κ γ) : Prop where
  table_distinct : (ids state.table).Nodup
  table_known : ∀ id ∈ ids state.table, id ∈ ids state.accepted
  fetched_distinct : (ids state.fetched).Nodup
  fetched_known : ∀ id ∈ ids state.fetched, id ∈ ids state.accepted
  fetched_sorted : Chronological state.fetched
  begun : state.phase = .updating ∨ state.phase = .fetching → state.posts = []
  kept : ∀ id ∈ ids state.accepted, id ∈ ids state.table ∨ id ∈ ids state.posts
  covered : ∀ rest, state.phase = .posting rest → ∀ message ∈ state.table,
    message.conversationId = Uuid.str conversationId → message.id ∈ ids state.fetched

variable {conversationId : Uuid} {state : State κ γ}

variable (sound : Sound conversationId state)

include sound in
/-- In a sound state every accepted message is accounted for. -/
theorem Sound.delivered : Delivered state := by
  constructor
  · intro message member
    have posted : (ids state.posts).Nodup := by
      have whole := sound.fetched_distinct
      rw [State.fetched, ids, map_append] at whole
      exact (nodup_append.mp whole).1
    have atMost := nodup_iff_count_le_one.mp posted message.id
    have either := sound.kept message.id (mem_map_of_mem member)
    rw [delivery]
    by_cases stored : message.id ∈ ids state.table
    · have twice : (ids state.posts).count message.id = 0 ∨
          (ids state.posts).count message.id = 1 := by omega
      rcases twice with none | one
      · simp [stored, none]
      · simp [stored, one]
    · have once := count_pos_iff.mpr (either.resolve_left stored)
      have one : (ids state.posts).count message.id = 1 := by omega
      simp [stored, one]
  · exact (pairwise_append.mp sound.fetched_sorted).1

omit [DecidableEq κ] in
/-- The process starts soundly. -/
theorem initial_sound (conversationId : Uuid) : Sound conversationId (initial : State κ γ) where
  table_distinct := nodup_nil
  table_known := by simp [initial, ids]
  fetched_distinct := nodup_nil
  fetched_known := by simp [initial, ids, State.fetched, Phase.rest]
  fetched_sorted := List.Pairwise.nil
  begun _ := rfl
  kept := by simp [initial, ids]
  covered := by simp [initial]

variable {message : StoredPendingMessage κ γ}

include sound in
/-- Queuing a message under the conversation while nothing is being posted, or under
another identifier, keeps the state sound. -/
theorem add_message_sound (undisturbed : Undisturbed conversationId state (.add message)) :
    Sound conversationId (addMessage state message) := by
  rw [addMessage]
  split
  case isTrue => exact sound
  case isFalse new =>
    have fresh : message.id ∉ ids state.table := fun stored =>
      new (sound.table_known message.id stored)
    refine ⟨?_, ?_, sound.fetched_distinct, ?_, sound.fetched_sorted, sound.begun, ?_, ?_⟩
    · rw [ids, map_append]
      refine nodup_append.mpr ⟨sound.table_distinct, by simp, ?_⟩
      rintro id stored other single rfl
      rw [map_singleton, mem_singleton] at single
      exact fresh (single ▸ stored)
    · intro id stored
      simp only [ids, map_append, mem_append] at stored ⊢
      exact stored.imp_left (sound.table_known id)
    · intro id known
      simp only [ids, map_append, mem_append]
      exact .inl (sound.fetched_known id known)
    · intro id known
      simp only [ids, map_append, mem_append] at known ⊢
      rcases known with earlier | here
      · exact (sound.kept id earlier).imp_left .inl
      · exact .inl (.inr here)
    · intro rest posting other stored named
      rcases mem_append.mp stored with earlier | here
      · exact sound.covered rest posting other earlier named
      · obtain rfl := mem_singleton.mp here
        exact absurd named (undisturbed rest posting)

omit [DecidableEq κ] in
/-- Moving messages keeps their identifiers. -/
theorem ids_update (old new : List Char) (table : List (StoredPendingMessage κ γ)) :
    ids (updateConversationId old new table) = ids table := by
  simp only [ids, updateConversationId, map_map]
  apply map_congr_left
  intro message _
  simp only [Function.comp]
  split <;> rfl

omit [DecidableEq κ] in
theorem mem_get_pending (conversationId : List Char) (table : List (StoredPendingMessage κ γ))
    (message : StoredPendingMessage κ γ) :
    message ∈ getPendingMessages order conversationId table ↔
      message ∈ table ∧ message.conversationId = conversationId := by
  rw [getPendingMessages, (order.perm _).mem_iff, mem_filter, decide_eq_true_eq]

include sound in
omit [DecidableEq κ] in
/-- The process may end when everything that was fetched has been posted. -/
theorem finish_sound (none : state.phase.rest = []) :
    Sound conversationId { state with phase := .finished } := by
  have same : ({ state with phase := .finished } : State κ γ).fetched = state.fetched := by
    unfold State.fetched
    rw [none]
    rfl
  refine ⟨sound.table_distinct, sound.table_known, ?_, ?_, ?_, by simp, sound.kept, by simp⟩
  · rw [same]; exact sound.fetched_distinct
  · rw [same]; exact sound.fetched_known
  · rw [same]; exact sound.fetched_sorted

omit [DecidableEq κ] in
theorem update_sound (taskId conversationId : Uuid) (state : State κ γ)
    (sound : Sound conversationId state) (updating : state.phase = .updating) :
    Sound conversationId { state with
        table := updateConversationId (taskIdStr taskId) (Uuid.str conversationId) state.table
        phase := .fetching } := by
  have same : ids (updateConversationId (taskIdStr taskId) (Uuid.str conversationId) state.table) =
      ids state.table := ids_update _ _ _
  have fetched : ({ state with
      table := updateConversationId (taskIdStr taskId) (Uuid.str conversationId) state.table
      phase := .fetching } : State κ γ).fetched = state.fetched := by
    simp [State.fetched, updating, Phase.rest]
  refine ⟨?_, ?_, ?_, ?_, ?_, fun _ => sound.begun (.inl updating), ?_, by simp⟩
  · rw [same]; exact sound.table_distinct
  · rw [same]; exact sound.table_known
  · rw [fetched]; exact sound.fetched_distinct
  · rw [fetched]; exact sound.fetched_known
  · rw [fetched]; exact sound.fetched_sorted
  · rw [same]; exact sound.kept

include sound

omit [DecidableEq κ] in
/-- Fetching the messages of the conversation keeps the state sound. -/
theorem fetch_sound (fetching : state.phase = .fetching) : Sound conversationId { state with
        phase := .posting (getPendingMessages order (Uuid.str conversationId) state.table) } := by
  have unposted := sound.begun (.inr fetching)
  have fetched : ({ state with phase := .posting (getPendingMessages order
      (Uuid.str conversationId) state.table) } : State κ γ).fetched =
      getPendingMessages order (Uuid.str conversationId) state.table := by
    simp [State.fetched, unposted, Phase.rest]
  refine ⟨sound.table_distinct, sound.table_known, ?_, ?_, ?_, by simp, sound.kept, ?_⟩
  · rw [fetched, ids, getPendingMessages, ((order.perm _).map _).nodup_iff]
    exact sound.table_distinct.sublist (filter_sublist.map _)
  · rw [fetched]
    intro id member
    obtain ⟨message, pending, rfl⟩ := mem_map.mp member
    exact sound.table_known _ (mem_map_of_mem ((mem_get_pending ..).mp pending).1)
  · rw [fetched]
    exact order.sorted _
  · intro rest posting message stored named
    rw [fetched]
    exact mem_map_of_mem ((mem_get_pending ..).mpr ⟨stored, named⟩)

omit [DecidableEq κ] in
theorem post_sound {rest : List (StoredPendingMessage κ γ)}
    (posting : state.phase = .posting (message :: rest)) :
    Sound conversationId { state with phase := .posting rest, posts := state.posts ++ [message] } := by
  have same : ({ state with phase := .posting rest, posts := state.posts ++ [message] } :
      State κ γ).fetched = state.fetched := by
    simp [State.fetched, posting, Phase.rest]
  refine ⟨sound.table_distinct, sound.table_known, ?_, ?_, ?_, by simp, ?_, ?_⟩
  · rw [same]; exact sound.fetched_distinct
  · rw [same]; exact sound.fetched_known
  · rw [same]; exact sound.fetched_sorted
  · intro id known
    simp only [ids, map_append, mem_append]
    exact (sound.kept id known).imp_right .inl
  · intro others _ stored member named
    rw [same]
    exact sound.covered _ posting stored member named

omit [DecidableEq κ] in
/-- Deleting the messages of the conversation after the last post keeps the state sound. -/
theorem delete_sound (posting : state.phase = .posting []) : Sound conversationId { state with
        table := deleteMessagesForConversation (Uuid.str conversationId) state.table
        phase := .finished } := by
  have fetched : state.fetched = state.posts := by
    simp [State.fetched, posting, Phase.rest]
  have finished := finish_sound sound (by rw [posting]; rfl)
  have fewer : (ids (deleteMessagesForConversation (Uuid.str conversationId) state.table)).Sublist
      (ids state.table) := filter_sublist.map _
  refine ⟨sound.table_distinct.sublist fewer, fun id stored =>
    sound.table_known id (fewer.subset stored), finished.fetched_distinct, finished.fetched_known,
    finished.fetched_sorted, by simp, ?_, by simp⟩
  intro id known
  rcases sound.kept id known with stored | posted
  · obtain ⟨message, member, rfl⟩ := mem_map.mp stored
    by_cases named : message.conversationId = Uuid.str conversationId
    · exact .inr (fetched ▸ sound.covered [] posting message member named)
    · exact .inl (mem_map_of_mem (mem_filter.mpr ⟨member, by simpa using named⟩))
  · exact .inr posted

omit sound

omit [DecidableEq κ] in
/-- Every step of the process keeps the state sound. -/
theorem process_sound (taskId conversationId : Uuid) (state : State κ γ) (succeeds : Bool)
    (sound : Sound conversationId state) :
    Sound conversationId (processPendingMessages order taskId conversationId state succeeds) := by
  have finished := finish_sound sound
  rw [processPendingMessages]
  split
  case h_1 updating =>
    cases succeeds with
    | true => exact update_sound _ _ _ sound updating
    | false => exact finished (by rw [updating]; rfl)
  case h_2 fetching =>
    cases succeeds with
    | true =>
      by_cases empty : getPendingMessages order (Uuid.str conversationId) state.table = []
      · simp only [if_true, empty]
        exact finished (by rw [fetching]; rfl)
      · simp only [if_true, empty, if_false]
        exact fetch_sound _ sound fetching
    | false => exact finished (by rw [fetching]; rfl)
  case h_3 message rest posting => exact post_sound sound posting
  case h_4 posting =>
    cases succeeds with
    | true => exact delete_sound sound posting
    | false => exact finished (by rw [posting]; rfl)
  case h_5 => exact sound

/-- Every undisturbed step keeps the state sound. -/
theorem step_sound (taskId conversationId : Uuid) (state : State κ γ) (label : Step κ γ)
    (sound : Sound conversationId state) (undisturbed : Undisturbed conversationId state label) :
    Sound conversationId (step order taskId conversationId state label) := by
  cases label with
  | add message => exact add_message_sound sound undisturbed
  | process succeeds => exact process_sound _ _ _ _ _ sound

/-- In every run in which nothing is queued under the conversation while the process posts,
every accepted message is accounted for in every state, and posts are made by creation. -/
theorem messages_delivered (taskId conversationId : Uuid) (labels : List (Step κ γ))
    (undisturbed : Along (step order taskId conversationId) (Undisturbed conversationId) initial
      labels)
    (state : State κ γ)
    (reached : Reached (step order taskId conversationId) initial labels state) :
    Delivered state :=
  (invariant_along _ _ _ (step_sound _ _ _) _ _
    (initial_sound ..) undisturbed _ reached).delivered

/-- Whether a message was created before another one or at the same instant. -/
def notLater (first second : StoredPendingMessage Nat String) : Bool :=
  first.createdAt ≤ second.createdAt

/-- Messages sorted by creation, those of one instant as they were stored. -/
def stableOrder : OrderBy Nat String where
  sort messages := messages.mergeSort notLater
  perm messages := List.mergeSort_perm messages notLater
  sorted messages := by
    have transitive (first second third : StoredPendingMessage Nat String)
        (below : notLater first second = true) (above : notLater second third = true) :
        notLater first third = true := by
      simp only [notLater, decide_eq_true_eq] at below above ⊢
      omega
    have total (first second : StoredPendingMessage Nat String) :
        (notLater first second || notLater second first) = true := by
      simp only [notLater, Bool.or_eq_true, decide_eq_true_eq]
      omega
    exact (List.pairwise_mergeSort transitive total messages).imp of_decide_eq_true

def queued (id : Nat) (conversationId : List Char) : StoredPendingMessage Nat String :=
  ⟨id, conversationId, "user", "Hello", id⟩

/-- A message for the task is fetched, another one is queued, and the process goes on. -/
def overtakenRun (conversationId : List Char) : List (Step Nat String) :=
  [.add (queued 0 (taskIdStr 1)), .process true, .process true, .add (queued 1 conversationId),
    .process true, .process true]

/-- A message that is queued under the task stays; the run is accounted for to its end. -/
theorem late_message_waits : Delivered
    (run (step stableOrder 1 2) initial (overtakenRun (taskIdStr 1))) := by
  apply messages_delivered _ 1 2 _ _ _
    ⟨_, [], (List.append_nil _).symm, rfl⟩
  refine ⟨?_, trivial, trivial, ?_, trivial, trivial, trivial⟩
  · rintro rest posting
    cases posting
  · rintro rest -
    exact task_id_differs 1 2

/-- A message that is queued under the conversation while the process posts is deleted
with the ones that were posted. -/
theorem late_message_lost : ¬ ∀ labels state,
    Reached (step stableOrder 1 2) (initial : State Nat String) labels state → Delivered state := by
  intro delivered
  have whole := delivered (overtakenRun (Uuid.str 2)) _ ⟨_, [], (List.append_nil _).symm, rfl⟩
  have lost : delivery (run (step stableOrder 1 2) initial (overtakenRun (Uuid.str 2))) 1 =
      none := by
    decide +kernel
  have accounted := whole.1 (queued 1 (Uuid.str 2)) (by decide +kernel)
  rw [show (queued 1 (Uuid.str 2)).id = 1 from rfl, lost] at accounted
  cases accounted

end ForgePilot.PendingMessages
