import ForgePilot.ConversationMemory

/-!
# What filtering unmatched tool calls leaves

Calls and results are matched against the identifiers of the whole list before
anything is removed. A call is removed only if it has no result at all and a result
only if it has no call, so no removal takes the match of something that stays: one
pass leaves nothing for a second one to remove.
-/

namespace ForgePilot.ConversationMemory

open Events List

/-- The calls of an assistant message. -/
def Message.calls (message : Message) : List ToolCall :=
  if message.role = .assistant then message.toolCalls.getD [] else []

def callsIn (messages : List Message) : List ToolCall := messages.flatMap Message.calls

def Message.answers (message : Message) : Bool :=
  message.role = .tool ∧ message.toolCallId.getD "" ≠ ""

/-- The tool messages that name a call. -/
def resultsIn (messages : List Message) : List Message := messages.filter Message.answers

/-- A message as it is, or with some of its calls. -/
def Trimmed (message shown : Message) : Prop :=
  shown = message ∨ ∃ calls, calls.Sublist message.calls ∧
    shown = { message with toolCalls := some calls }

theorem filter_map_aligned {α β : Type} (f : α → Option β) (items : List α) :
    ∃ chosen, chosen.Sublist items ∧
      List.Forall₂ (fun item shown => f item = some shown) chosen (items.filterMap f) := by
  induction items with
  | nil => exact ⟨[], .refl _, .nil⟩
  | cons item rest ih =>
    obtain ⟨chosen, part, aligned⟩ := ih
    cases shown : f item with
    | none => exact ⟨chosen, part.cons _, by rwa [filterMap_cons_none shown]⟩
    | some found =>
      refine ⟨item :: chosen, part.cons_cons _, ?_⟩
      rw [filterMap_cons_some shown]
      exact .cons shown aligned

section Matched

variable (called answered : List String) (message : Message)

/-- A result is kept if its call was made. Any other message keeps the calls that are
answered: all, none, or some in a copy. -/
theorem matched_cases : (message.answers = true ∧ matchedMessage called answered message =
      if message.toolCallId.getD "" ∈ called then some message else none) ∨
    message.answers = false ∧ let own := message.calls.filter (fun call => call.id ∈ answered)
      matchedMessage called answered message = some message ∧ own = message.calls ∨
        own ≠ message.calls ∧ (matchedMessage called answered message = none ∧ own = [] ∨
          message.role = .assistant ∧ matchedMessage called answered message =
            some { message with toolCalls := some own }) := by
  rw [matchedMessage, Message.answers]
  split
  · next tool => exact .inl ⟨decide_eq_true tool, rfl⟩
  next other =>
  refine .inr ⟨decide_eq_false other, ?_⟩
  split
  · next speaks =>
    rw [Message.calls, if_pos speaks.1]
    dsimp only
    split
    · next all => exact .inl ⟨rfl, filter_eq_self.mpr (all_eq_true.mp all)⟩
    next some =>
    refine .inr ⟨fun same => some (all_eq_true.mpr (filter_eq_self.mp same)), ?_⟩
    split
    · next none => exact .inl ⟨rfl, none⟩
    · exact .inr ⟨speaks.1, rfl⟩
  · next silent =>
    refine .inl ⟨rfl, ?_⟩
    rw [Message.calls]
    split
    · next speaks => rw [not_not.mp (not_and.mp silent speaks)]; rfl
    · rfl

/-- A tool message makes no calls. -/
theorem calls_of_answers (answers : message.answers = true) : message.calls = [] := by
  rw [Message.calls, (of_decide_eq_true answers).1]
  rfl

theorem matched_trimmed {shown : Message}
    (matched : matchedMessage called answered message = some shown) : Trimmed message shown := by
  rcases matched_cases _ _ _ with
    ⟨-, same⟩ | ⟨-, ⟨same, -⟩ | ⟨-, ⟨same, -⟩ | ⟨-, same⟩⟩⟩ <;> rw [same] at matched
  · split at matched <;> cases matched
    exact .inl rfl
  · cases matched
    exact .inl rfl
  · cases matched
  · cases matched
    exact .inr ⟨_, filter_sublist, rfl⟩

theorem matched_calls : callsIn (matchedMessage called answered message).toList =
    message.calls.filter (fun call => call.id ∈ answered) := by
  rcases matched_cases _ _ _ with
    ⟨answers, same⟩ | ⟨-, ⟨same, own⟩ | ⟨-, ⟨same, own⟩ | ⟨speaks, same⟩⟩⟩ <;> rw [same]
  · rw [calls_of_answers _ answers]
    split <;> simp [callsIn, calls_of_answers _ answers]
  · simp [callsIn, own]
  · simp [callsIn, own]
  · simp [callsIn, Message.calls, speaks]

theorem matched_results : resultsIn (matchedMessage called answered message).toList =
    (resultsIn [message]).filter (fun answer => answer.toolCallId.getD "" ∈ called) := by
  rcases matched_cases _ _ _ with
    ⟨answers, same⟩ | ⟨other, ⟨same, -⟩ | ⟨-, ⟨same, -⟩ | ⟨speaks, same⟩⟩⟩ <;> rw [same]
  · split <;> simp [resultsIn, *]
  · simp [resultsIn, other]
  · simp [resultsIn, other]
  · simp [resultsIn, Message.answers, speaks]

end Matched

section Filtered

variable (messages : List Message)

/-- The calls that stay are those that are answered, and the results that stay those
that are called. -/
theorem filtered_parts : callsIn (filterUnmatchedToolCalls messages) =
        (callsIn messages).filter (fun call => call.id ∈ answeredIds messages) ∧
      resultsIn (filterUnmatchedToolCalls messages) =
        (resultsIn messages).filter (fun answer => answer.toolCallId.getD "" ∈ calledIds messages) := by
  rw [filterUnmatchedToolCalls]
  generalize answeredIds messages = answered
  generalize calledIds messages = called
  induction messages with
  | nil => exact ⟨rfl, rfl⟩
  | cons message rest ih =>
    have parts : (message :: rest).filterMap (matchedMessage called answered) =
        (matchedMessage called answered message).toList ++
          rest.filterMap (matchedMessage called answered) := by
      rw [filterMap_cons]
      cases matchedMessage called answered message <;> rfl
    obtain ⟨calls, results⟩ := ih
    have first := matched_calls called answered message
    have second := matched_results called answered message
    rw [parts]
    simp only [callsIn, resultsIn, flatMap_append, flatMap_cons, filter_append] at *
    rw [calls, first, results, second]
    refine ⟨rfl, ?_⟩
    rw [← filter_append, ← filter_append, singleton_append]

variable {messages}

/-- A list where every result is called and every call answered stays as it is. -/
theorem filter_closed
    (results : ∀ answer ∈ resultsIn messages, answer.toolCallId.getD "" ∈ calledIds messages)
    (calls : ∀ call ∈ callsIn messages, call.id ∈ answeredIds messages) :
    filterUnmatchedToolCalls messages = messages := by
  rw [filterUnmatchedToolCalls, filterMap_congr (g := some), filterMap_some]
  intro message listed
  rcases matched_cases _ _ _ with
    ⟨answers, same⟩ | ⟨-, ⟨same, -⟩ | ⟨some, -⟩⟩
  · rw [same, if_pos (results _ (mem_filter.mpr ⟨listed, answers⟩))]
  · exact same
  · refine absurd (filter_eq_self.mpr fun call made => decide_eq_true ?_) some
    exact calls _ (mem_flatMap.mpr ⟨_, listed, made⟩)

variable {id : String}

theorem mem_answered : id ∈ answeredIds messages ↔
    ∃ answer ∈ resultsIn messages, answer.toolCallId = some id := by
  simp only [answeredIds, resultsIn, Message.answers, mem_filterMap, mem_filter,
    decide_eq_true_eq, and_assoc (a := _ ∈ _)]
  refine exists_congr fun answer => and_congr_right' ?_
  split
  · next tool => exact (and_iff_right tool).symm
  · next other => exact iff_of_false (by simp) fun found => other found.1

theorem mem_called : id ∈ calledIds messages ↔ id ≠ "" ∧ ∃ call ∈ callsIn messages, call.id = id := by
  have same : calledIds messages = ((callsIn messages).map ToolCall.id).filter (· ≠ "") := by
    rw [calledIds, callsIn, map_flatMap, filter_flatMap]
    refine congrArg (flatMap · messages) (funext fun message => ?_)
    rw [Message.calls]
    split <;> rfl
  rw [same, mem_filter, mem_map, decide_eq_true_eq, and_comm]

/-- A result is called where its identifier is. -/
theorem called_iff {answer : Message} (answers : answer.answers = true) :
    answer.toolCallId.getD "" ∈ calledIds messages ↔
      ∃ call ∈ callsIn messages, answer.toolCallId = some call.id := by
  have named := (of_decide_eq_true answers).2
  rw [mem_called, and_iff_right named]
  refine exists_congr fun call => and_congr_right' ?_
  cases given : answer.toolCallId with
  | none => exact absurd (by rw [given]; rfl) named
  | some id => rw [Option.getD_some, Option.some_inj, eq_comm]

/-- Calls and results are filtered once and for all: what stays is in the order of the
list, every result has its call and every call its result, nothing that has a match is
removed, and a second pass changes nothing. -/
theorem filter_unmatched_closed (messages : List Message) :
    let kept := filterUnmatchedToolCalls messages
    (∃ chosen, chosen.Sublist messages ∧ List.Forall₂ Trimmed chosen kept) ∧
      (∀ answer ∈ resultsIn kept, ∃ call ∈ callsIn kept, answer.toolCallId = some call.id) ∧
      (∀ call ∈ callsIn kept, ∃ answer ∈ resultsIn kept, answer.toolCallId = some call.id) ∧
      callsIn kept = (callsIn messages).filter (fun call =>
        ∃ answer ∈ resultsIn messages, answer.toolCallId = some call.id) ∧
      resultsIn kept = (resultsIn messages).filter (fun answer =>
        ∃ call ∈ callsIn messages, answer.toolCallId = some call.id) ∧
      filterUnmatchedToolCalls kept = kept := by
  intro kept
  obtain ⟨calls, results⟩ := filtered_parts _
  simp only [mem_answered] at calls
  have results : resultsIn kept = (resultsIn messages).filter (fun answer =>
      ∃ call ∈ callsIn messages, answer.toolCallId = some call.id) := by
    refine results.trans (List.filter_congr fun answer listed => ?_)
    exact decide_eq_decide.mpr (called_iff (List.of_mem_filter listed))
  have backward : ∀ answer ∈ resultsIn kept,
      ∃ call ∈ callsIn kept, answer.toolCallId = some call.id := by
    intro answer listed
    rw [results, List.mem_filter, decide_eq_true_eq] at listed
    obtain ⟨known, call, made, same⟩ := listed
    refine ⟨call, ?_, same⟩
    rw [calls, List.mem_filter, decide_eq_true_eq]
    exact ⟨made, answer, known, same⟩
  have forward : ∀ call ∈ callsIn kept,
      ∃ answer ∈ resultsIn kept, answer.toolCallId = some call.id := by
    intro call listed
    rw [calls, List.mem_filter, decide_eq_true_eq] at listed
    obtain ⟨made, answer, known, same⟩ := listed
    refine ⟨answer, ?_, same⟩
    rw [results, List.mem_filter, decide_eq_true_eq]
    exact ⟨known, call, made, same⟩
  obtain ⟨chosen, part, aligned⟩ := filter_map_aligned
    (matchedMessage (calledIds messages) (answeredIds messages)) messages
  refine ⟨⟨chosen, part, aligned.imp fun _ _ => matched_trimmed _ _ _⟩, backward, forward, calls,
    results, filter_closed (fun answer listed => ?_) fun call listed => ?_⟩
  · exact (called_iff (List.of_mem_filter listed)).mpr (backward _ listed)
  · exact mem_answered.mpr (forward _ listed)

end Filtered

end ForgePilot.ConversationMemory
