import ForgePilot.UnmatchedCalls

/-!
# Tool calls and their results stay together

The messages built from a history consist of plain messages and of blocks: an
assistant message with tool calls, directly followed by one result for each of
its calls in the order of the calls. No result stands outside a block. Blocks are
added whole, so this holds for every history on which building the messages
returns, whatever the order of its events.

How often a call is answered depends on the history: it has at most as many
results as observations that carry its identifier.
-/

namespace ForgePilot.ConversationMemory

open Events List OrderedDict

/-- Lists of plain messages and whole blocks. -/
inductive Paired : List Message → Prop where
  | nil : Paired []
  | plain (message : Message) (rest : List Message) (notTool : message.role ≠ .tool)
      (noCalls : message.toolCalls.getD [] = []) (later : Paired rest) :
      Paired (message :: rest)
  | block (message : Message) (calls : List ToolCall) (answers rest : List Message)
      (assistant : message.role = .assistant) (called : message.toolCalls = some calls)
      (answered : answers.map Message.toolCallId = calls.map (fun call => some call.id))
      (tools : ∀ answer ∈ answers, answer.role = .tool) (later : Paired rest) :
      Paired (message :: answers ++ rest)

/-- Paired lists can be put one after the other. -/
theorem paired_append {first second : List Message} (left : Paired first)
    (right : Paired second) : Paired (first ++ second) := by
  induction left with
  | nil => exact right
  | plain message rest notTool noCalls later ih => exact .plain message _ notTool noCalls ih
  | block message calls answers rest assistant called answered tools later ih =>
    have grouped : message :: answers ++ rest ++ second = message :: answers ++ (rest ++ second) :=
      append_assoc _ _ _
    rw [grouped]
    exact .block message calls answers _ assistant called answered tools ih

def PlainMessage (message : Message) : Prop :=
  message.role ≠ .tool ∧ message.toolCalls = none

variable (id : String) (pending : List (String × Message)) (calls : List ToolCall)
  (answers : OrderedDict String Message) (results : List Message)
  {left : OrderedDict String Message} {setup : Setup} {prior : List Event} {event : Event}
  (messages : List Message)

variable (plain : ∀ message ∈ messages, PlainMessage message)

include plain in
theorem paired_of_plain : Paired messages := by
  induction messages with
  | nil => exact .nil
  | cons message rest ih =>
    have here := plain message (.head _)
    exact .plain message rest here.1 (by rw [here.2]; rfl)
      (ih (fun other member => plain other (.tail _ member)))

def Message.shape (message : Message) : Role × Option (List ToolCall) × Option String :=
  (message.role, message.toolCalls, message.toolCallId)

/-- Pairing depends on the shapes of messages only. -/
theorem paired_of_shapes (others : List Message) (paired : Paired messages)
    (same : others.map Message.shape = messages.map Message.shape) : Paired others := by
  induction paired generalizing others with
  | nil =>
    rw [map_eq_nil_iff.mp same]
    exact .nil
  | plain message rest notTool noCalls later ih =>
    obtain ⟨other, tail, rfl, shape, shapes⟩ := map_eq_cons_iff.mp same
    simp only [Message.shape, Prod.mk.injEq] at shape
    exact .plain other tail (shape.1 ▸ notTool) (shape.2.1 ▸ noCalls)
      (ih tail shapes)
  | block message calls answers rest assistant called answered tools later ih =>
    rw [cons_append, map_cons, map_append] at same
    obtain ⟨other, tail, rfl, shape, shapes⟩ := map_eq_cons_iff.mp same
    obtain ⟨results, left, rfl, resultShapes, leftShapes⟩ := map_eq_append_iff.mp shapes
    simp only [Message.shape, Prod.mk.injEq] at shape
    refine .block other calls results left (shape.1.trans assistant)
      (shape.2.1.trans called) ?_ ?_ (ih left leftShapes)
    · rw [← answered]
      have ids := congrArg (map (fun parts => parts.2.2)) resultShapes
      simpa [Function.comp_def, Message.shape] using ids
    · intro result member
      have shaped : result.shape ∈ answers.map Message.shape :=
        resultShapes ▸ mem_map_of_mem member
      obtain ⟨answer, original, equal⟩ := mem_map.mp shaped
      have role : answer.role = result.role := congrArg Prod.fst equal
      exact role ▸ tools answer original

/-- Formatting changes no shape. -/
theorem formatting_shapes (previous : Option Role) (messages : List Message) :
    (applyUserMessageFormatting previous messages).map Message.shape =
      messages.map Message.shape := by
  induction messages generalizing previous with
  | nil => rfl
  | cons message rest ih =>
    rw [applyUserMessageFormatting, map_cons, map_cons, ih]
    split <;> rfl

/-- Results are kept under the identifier they answer. -/
def Filed (answers : OrderedDict String Message) : Prop :=
  ∀ id answer, answers.get id = some answer →
    answer.role = .tool ∧ answer.toolCallId = some id ∧ answer.toolCalls = none

variable (filed : Filed answers)
include filed

/-- Deleting keeps results filed. -/
theorem filed_erase (id : String) : Filed (answers.erase id) := by
  intro other answer found
  rw [get_erase] at found
  split at found
  · cases found
  · exact filed other answer found

variable (taken : takeAnswers calls answers = .ok (results, left))
include taken

/-- What taking results out of the table gives: one result for each call in order,
and a table without the identifiers of the calls. -/
theorem take_answers_spec :
    results.map Message.toolCallId = calls.map (fun call => some call.id) ∧
      (∀ result ∈ results, result.role = .tool ∧ result.toolCalls = none) ∧
      ∀ id, left.get id = if id ∈ calls.map ToolCall.id then none else answers.get id := by
  induction calls generalizing answers results with
  | nil =>
    cases taken
    simp
  | cons call rest ih =>
    rw [takeAnswers] at taken
    cases found : answers.get call.id with
    | none =>
      rw [found] at taken
      cases taken
    | some answer =>
      rw [found] at taken
      obtain ⟨⟨later, remaining⟩, others, combined⟩ := bind_eq_ok _ _ taken
      cases combined
      obtain ⟨ids, tools, kept⟩ := ih _ later (filed_erase _ filed _) others
      obtain ⟨tool, own, callless⟩ := filed call.id answer found
      refine ⟨by simp [own, ids], ?_, ?_⟩
      · intro result member
        rcases member with _ | ⟨_, further⟩
        · exact ⟨tool, callless⟩
        · exact tools result further
      · intro id
        rw [kept, get_erase]
        by_cases here : id = call.id <;> by_cases later : id ∈ rest.map ToolCall.id <;>
          simp [here, later]

/-- Taking results keeps the others filed. -/
theorem filed_taken : Filed left := by
  obtain ⟨_, _, kept⟩ := take_answers_spec _ _ _ filed taken
  intro id answer found
  rw [kept] at found
  split at found
  · cases found
  · exact filed id answer found

omit filed taken

def Named (message : Message) : Prop :=
  ∀ call ∈ message.toolCalls.getD [], call.id ≠ ""

/-- Waiting messages are assistant messages whose calls have identifiers. -/
def Waiting (pending : List (String × Message)) : Prop :=
  ∀ entry ∈ pending, entry.2.role = .assistant ∧ Named entry.2

/-- What becomes of the first of the waiting messages: it is complete and takes its results, or it
stays. -/
inductive EntryCompleted (responseId : String) (message : Message)
    (rest : List (String × Message)) (answers left : OrderedDict String Message) :
    List Message → List String → Prop where
  | taken (calls : List ToolCall) (results : List Message)
      (remaining : OrderedDict String Message) (later : List Message) (gone : List String)
      (called : message.toolCalls = some calls)
      (ready : ∀ call ∈ calls, (answers.get call.id).isSome = true)
      (takes : takeAnswers calls answers = .ok (results, remaining))
      (rested : completePending rest remaining = .ok (later, gone, left)) :
      EntryCompleted responseId message rest answers left (message :: results ++ later)
        (responseId :: gone)
  | stays (calls : List ToolCall) (added : List Message) (removed : List String)
      (called : message.toolCalls = some calls)
      (incomplete : ¬∀ call ∈ calls, (answers.get call.id).isSome = true)
      (rested : completePending rest answers = .ok (added, removed, left)) :
      EntryCompleted responseId message rest answers left added removed

/-- Completing waiting messages looks at the first and goes on with the others. -/
theorem complete_pending_cons (responseId : String) (message : Message)
    (rest : List (String × Message)) {answers left : OrderedDict String Message}
    (added : List Message) (removed : List String)
    (completed : completePending ((responseId, message) :: rest) answers =
      .ok (added, removed, left)) :
    EntryCompleted responseId message rest answers left added removed := by
  rw [completePending] at completed
  cases called : message.toolCalls with
  | none =>
    rw [called] at completed
    cases completed
  | some calls =>
    rw [called] at completed
    simp only at completed
    split at completed
    · rename_i ready
      obtain ⟨⟨results, remaining⟩, takes, next⟩ := bind_eq_ok _ _ completed
      obtain ⟨⟨later, gone, final⟩, rested, combined⟩ := bind_eq_ok _ _ next
      cases combined
      exact .taken calls results remaining later gone called (by simpa using ready) takes rested
    · rename_i incomplete
      exact .stays calls added removed called (by simpa using incomplete) completed

/-- Completing waiting messages adds whole blocks, and keeps results filed. -/
theorem complete_pending_paired (added : List Message) (removed : List String)
    (left : OrderedDict String Message) (waiting : Waiting pending) (filed : Filed answers)
    (completed : completePending pending answers = .ok (added, removed, left)) :
    Paired added ∧ (∀ message ∈ added, Named message) ∧ Filed left := by
  induction pending generalizing answers added removed with
  | nil =>
    cases completed
    exact ⟨.nil, by simp, filed⟩
  | cons entry rest ih =>
    obtain ⟨responseId, message⟩ := entry
    have here := waiting (responseId, message) (.head _)
    have others : Waiting rest := fun other member => waiting other (.tail _ member)
    cases complete_pending_cons _ _ _ _ _ completed with
    | taken calls results remaining later gone called ready takes rested =>
      obtain ⟨ids, tools, _⟩ := take_answers_spec _ _ _ filed takes
      have stillFiled := filed_taken _ _ _ filed takes
      obtain ⟨paired, named, lastFiled⟩ := ih remaining later gone others stillFiled rested
      refine ⟨.block message calls results later here.1 called ids
        (fun result member => (tools result member).1) paired, ?_, lastFiled⟩
      intro other member
      rcases mem_append.mp member with block | further
      · rcases block with _ | ⟨_, result⟩
        · exact here.2
        · simp [Named, (tools other result).2]
      · exact named other further
    | stays _ _ _ _ _ rested => exact ih answers added removed others filed rested

/-- The response whose results an event waits for. -/
def waitsFor (event : Event) : Option ModelResponse :=
  match event.body with
  | .action action =>
      if toolBased event action then event.toolCallMetadata.map ToolCallMetadata.modelResponse
      else none
  | _ => none

def observedCall (event : Event) : Option String :=
  match event.body with
  | .observation _ _ => event.toolCallMetadata.map ToolCallMetadata.toolCallId
  | _ => none

/-- The observations that may contribute nothing. -/
def silent : ObservationClass → Bool
  | .recall _ | .loopDetection => true
  | _ => false

/-- The call that an observation answers, unless it may contribute nothing. -/
def answeredCall (event : Event) : Option String :=
  match event.body with
  | .observation _ observationClass =>
      if silent observationClass then none
      else event.toolCallMetadata.map ToolCallMetadata.toolCallId
  | _ => none

theorem observed_of_answered (event : Event) (id : String)
    (answered : answeredCall event = some id) : observedCall event = some id := by
  rw [answeredCall] at answered
  rw [observedCall]
  split at answered
  · split at answered
    · cases answered
    · exact answered
  · cases answered

/-- What receiving an event can do: add plain messages, let a response wait, or
file a result. -/
inductive Received (event : Event) (progress : Progress) : List Message → Progress → Prop where
  | spoke (added : List Message) (plain : ∀ message ∈ added, PlainMessage message)
      (noResponse : waitsFor event = none) (noAnswer : answeredCall event = none) :
      Received event progress added progress
  | waits (response : ModelResponse) (message : Message)
      (waiting : waitsFor event = some response)
      (built : assistantMessage response = .ok message)
      (noObservation : observedCall event = none) :
      Received event progress []
        { progress with pending := progress.pending.set response.id message }
  | answers (metadata : ToolCallMetadata) (content : List Content)
      (observed : observedCall event = some metadata.toolCallId)
      (noResponse : waitsFor event = none) :
      Received event progress []
        { progress with
          answers := progress.answers.set metadata.toolCallId (toolMessage metadata content) }

variable {observationClass : ObservationClass}

variable {content : String}

theorem observation_content_of_not_silent {shown : Shown} (loud : silent observationClass = false)
    (returned : observationContent setup prior event content observationClass = .ok shown) :
    ∃ contents, shown = .content contents := by
  cases observationClass with
  | «recall» | loopDetection => cases loud
  | null | agentStateChanged | fileWrite | success => cases returned
  | agentDelegate outputs =>
    simp only [observationContent] at returned
    split at returned <;> cases returned <;> exact ⟨_, rfl⟩
  | _ =>
    cases returned
    exact ⟨_, rfl⟩

variable {progress : Progress} {added : List Message}

/-- The messages of an action that waits for nothing are plain. -/
theorem process_action_received {action : Action} (isAction : event.body = .action action)
    {pending : OrderedDict String Message}
    (processed : processAction setup event action progress.pending = .ok (added, pending)) :
    Received event progress added { progress with pending } := by
  have noAnswer : answeredCall event = none := by rw [answeredCall, isAction]
  have noObservation : observedCall event = none := by rw [observedCall, isAction]
  unfold processAction at processed
  split at processed
  · rename_i based
    split at processed
    · rename_i without
      have noResponse : waitsFor event = none := by simp [waitsFor, isAction, based, without]
      split at processed
      · cases processed
        refine .spoke _ ?_ noResponse noAnswer
        simp [PlainMessage]
      · cases processed
    · rename_i metadata found
      obtain ⟨message, built, stored⟩ := bind_eq_ok _ _ processed
      cases stored
      exact .waits metadata.modelResponse message (by simp [waitsFor, isAction, based, found])
        built noObservation
  · rename_i based
    have noResponse : waitsFor event = none := by simp [waitsFor, isAction, based]
    have speaks : speaker event ≠ .tool := by
      unfold speaker
      split <;> simp
    split at processed
    · cases processed
      refine .spoke _ ?_ noResponse noAnswer
      simp [PlainMessage, speaks]
    · cases processed
      refine .spoke _ ?_ noResponse noAnswer
      simp [PlainMessage, speaks]
    · split at processed <;> cases processed <;>
        exact .spoke _ (by simp [PlainMessage]) noResponse noAnswer
    · cases processed
      exact .spoke _ (by simp [PlainMessage]) noResponse noAnswer
    · cases processed
      exact .spoke _ (by simp) noResponse noAnswer

/-- An observation adds plain messages or files a result. -/
theorem process_observation_received
    (isObservation : event.body = .observation content observationClass)
    {answers : OrderedDict String Message}
    (processed : processObservation setup prior event content observationClass
      progress.answers = .ok (added, answers)) :
    Received event progress added { progress with answers } := by
  have noResponse : waitsFor event = none := by rw [waitsFor, isObservation]
  have quiet : ∀ shown, observationContent setup prior event content observationClass = .ok shown →
      (∀ contents, shown ≠ .content contents) → answeredCall event = none := by
    intro shown returned other
    rw [answeredCall, isObservation]
    simp only
    cases loud : silent observationClass with
    | true => rfl
    | false =>
      obtain ⟨contents, same⟩ := observation_content_of_not_silent loud returned
      exact absurd same (other contents)
  obtain ⟨shown, returned, rest⟩ := bind_eq_ok _ _ processed
  cases shown with
  | nothing =>
    cases rest
    exact .spoke _ (by simp) noResponse (quiet _ returned (by simp))
  | message contents =>
    cases rest
    exact .spoke _ (by simp [PlainMessage]) noResponse (quiet _ returned (by simp))
  | content contents =>
    simp only at rest
    split at rest
    · rename_i metadata found
      cases rest
      exact .answers metadata contents (by simp [observedCall, isObservation, found]) noResponse
    · rename_i without
      cases rest
      refine .spoke _ (by simp [PlainMessage]) noResponse ?_
      simp [answeredCall, isObservation, without]

variable {next : Progress}

theorem receive_received (received : receive setup prior event progress = .ok (added, next)) :
    Received event progress added next := by
  rw [receive] at received
  split at received
  · rename_i action isAction
    obtain ⟨⟨messages, pending⟩, processed, stored⟩ := bind_eq_ok _ _ received
    cases stored
    exact process_action_received isAction processed
  · rename_i content observationClass isObservation
    obtain ⟨⟨messages, answers⟩, processed, stored⟩ := bind_eq_ok _ _ received
    cases stored
    exact process_observation_received isObservation processed
  · cases received

/-- The entries of a table after dropping completed ones. -/
theorem get_drop_completed (pending : OrderedDict String Message) (removed : List String)
    (key : String) :
    (dropCompleted pending removed).get key = if key ∈ removed then none else pending.get key := by
  induction removed generalizing pending with
  | nil => simp [dropCompleted]
  | cons first rest ih =>
    have shorter : dropCompleted pending (first :: rest) =
        dropCompleted (pending.erase first) rest := rfl
    rw [shorter, ih, get_erase]
    by_cases here : key = first <;> by_cases later : key ∈ rest <;> simp [here, later]

/-- What processing one event does: receive it, then complete what waits. -/
theorem process_event_inversion (processed : processEvent setup prior event progress = .ok next) :
    ∃ added received completed removed answers, Received event progress added received ∧
        completePending received.pending.entries received.answers =
          .ok (completed, removed, answers) ∧
        next = ⟨progress.messages ++ (added ++ completed),
          dropCompleted received.pending removed, answers⟩ := by
  obtain ⟨⟨added, received⟩, receives, rest⟩ := bind_eq_ok _ _ processed
  obtain ⟨⟨completed, removed, answers⟩, completes, result⟩ := bind_eq_ok _ _ rest
  have how := receive_received receives
  have same : received.messages = progress.messages := by
    cases how <;> rfl
  cases result
  exact ⟨added, received, completed, removed, answers, how, completes, by rw [same]⟩

/-- What every event preserves holds after all events. -/
theorem process_all_invariant {events : List Event} (invariant : List Event → Progress → Prop)
    (preserved : ∀ prior event later progress next, events = prior ++ event :: later →
      invariant prior progress → processEvent setup prior event progress = .ok next →
      invariant (prior ++ [event]) next) {start last : Progress} (initially : invariant [] start)
    (processed : processAll setup [] events start = .ok last) : invariant events last := by
  have general : ∀ rest prior progress, events = prior ++ rest → invariant prior progress →
      processAll setup prior rest progress = .ok last → invariant events last := by
    intro rest
    induction rest with
    | nil =>
      intro prior progress whole holds finished
      cases finished
      rw [whole, append_nil]
      exact holds
    | cons event later ih =>
      intro prior progress whole holds processed
      obtain ⟨next, one, others⟩ := bind_eq_ok _ _ processed
      refine ih (prior ++ [event]) next ?_ ?_ others
      · rw [whole, append_assoc, singleton_append]
      · exact preserved prior event later progress next whole holds one
  exact general events [] start rfl initially processed

/-- The response of a model is an assistant message whose calls have
identifiers. -/
structure Proper (response : ModelResponse) : Prop where
  assistant : response.role = "assistant"
  named : ∀ call ∈ response.toolCalls.getD [], call.id ≠ ""

theorem assistant_message_proper {response : ModelResponse} {message : Message}
    (proper : Proper response) (built : assistantMessage response = .ok message) :
    message.role = .assistant ∧ message.toolCalls = response.toolCalls := by
  rw [assistantMessage, proper.assistant] at built
  cases built
  exact ⟨rfl, rfl⟩

/-- Messages are paired, and both tables hold what belongs in them. -/
structure Orderly (progress : Progress) : Prop where
  paired : Paired progress.messages
  named : ∀ message ∈ progress.messages, Named message
  waiting : ∀ key message, progress.pending.get key = some message →
    message.role = .assistant ∧ Named message
  filed : Filed progress.answers

/-- Plain messages have no calls. -/
theorem named_of_plain (message : Message) (plain : PlainMessage message) : Named message := by
  simp [Named, plain.2]

variable (proper : ∀ response, waitsFor event = some response → Proper response)
include proper

/-- Receiving an event keeps the tables in order, and adds plain messages. -/
theorem received_orderly {received : Progress} (how : Received event progress added received)
    (orderly : Orderly progress) :
    (∀ message ∈ added, PlainMessage message) ∧ Orderly received := by
  cases how with
  | spoke added plain noResponse noAnswer => exact ⟨plain, orderly⟩
  | waits response message waiting built noObservation =>
    refine ⟨by simp, orderly.paired, orderly.named, ?_, orderly.filed⟩
    intro key other found
    obtain ⟨assistant, calls⟩ := assistant_message_proper (proper response waiting) built
    rw [get_set] at found
    split at found
    · cases found
      refine ⟨assistant, ?_⟩
      rw [Named, calls]
      exact (proper response waiting).named
    · exact orderly.waiting key other found
  | answers metadata content observed noResponse =>
    refine ⟨by simp, orderly.paired, orderly.named, orderly.waiting, ?_⟩
    intro id answer found
    rw [get_set] at found
    split at found
    · rename_i same
      cases found
      exact ⟨rfl, by rw [same]; rfl, rfl⟩
    · exact orderly.filed id answer found

/-- Processing an event keeps everything in order. -/
theorem process_event_orderly (orderly : Orderly progress)
    (processed : processEvent setup prior event progress = .ok next) : Orderly next := by
  obtain ⟨added, received, completed, removed, answers, how, completes, rfl⟩ :=
    process_event_inversion processed
  obtain ⟨plain, after⟩ := received_orderly proper how orderly
  have waiting : Waiting received.pending.entries := by
    rintro ⟨key, message⟩ member
    exact after.waiting key message ((get_eq_some_iff _ _ _).mpr member)
  obtain ⟨paired, named, filed⟩ := complete_pending_paired _ _ _ _ _ waiting after.filed completes
  refine ⟨?_, ?_, ?_, filed⟩
  · exact paired_append orderly.paired
      (paired_append (paired_of_plain _ plain) paired)
  · intro message member
    rcases mem_append.mp member with before | now
    · exact orderly.named message before
    · rcases mem_append.mp now with spoken | block
      · exact named_of_plain _ (plain message spoken)
      · exact named message block
  · intro key message found
    rw [get_drop_completed] at found
    split at found
    · cases found
    · exact after.waiting key message found

omit proper

/-- In a paired list every result has a call, and every call of an assistant
message has a result. -/
theorem paired_matched (paired : Paired messages) :
    (∀ message ∈ messages, message.role = .tool → ∃ caller ∈ messages,
        caller.role = .assistant ∧ ∃ call ∈ caller.toolCalls.getD [],
          message.toolCallId = some call.id) ∧
      ∀ caller ∈ messages, caller.role = .assistant → ∀ call ∈ caller.toolCalls.getD [],
        ∃ message ∈ messages, message.role = .tool ∧ message.toolCallId = some call.id := by
  induction paired with
  | nil => simp
  | plain message rest notTool noCalls later ih =>
    obtain ⟨results, calls⟩ := ih
    constructor
    · intro other member tool
      rcases member with _ | ⟨_, further⟩
      · exact absurd tool notTool
      · obtain ⟨caller, inside, found⟩ := results other further tool
        exact ⟨caller, .tail _ inside, found⟩
    · intro caller member speaks call called
      rcases member with _ | ⟨_, further⟩
      · rw [noCalls] at called
        cases called
      · obtain ⟨answer, inside, found⟩ := calls caller further speaks call called
        exact ⟨answer, .tail _ inside, found⟩
  | block message calls answers rest assistant called answered tools later ih =>
    obtain ⟨results, laterCalls⟩ := ih
    have own : message.toolCalls.getD [] = calls := by rw [called]; rfl
    have ids : ∀ id, some id ∈ answers.map Message.toolCallId ↔ id ∈ calls.map ToolCall.id := by
      intro id
      rw [answered]
      simp
    constructor
    · intro other member tool
      rcases mem_append.mp member with block | further
      · rcases block with _ | ⟨_, result⟩
        · rw [assistant] at tool
          cases tool
        · have listed : other.toolCallId ∈ calls.map (fun call => some call.id) :=
            answered ▸ mem_map_of_mem result
          obtain ⟨call, inside, same⟩ := mem_map.mp listed
          exact ⟨message, by simp, assistant, call, by rw [own]; exact inside, same.symm⟩
      · obtain ⟨caller, inside, found⟩ := results other further tool
        exact ⟨caller, mem_append_right _ inside, found⟩
    · intro caller member speaks call inside
      rcases mem_append.mp member with block | further
      · rcases block with _ | ⟨_, result⟩
        · rw [own] at inside
          have listed := (ids call.id).mpr (mem_map_of_mem inside)
          obtain ⟨answer, answering, same⟩ := mem_map.mp listed
          exact ⟨answer, by simp [answering], tools answer answering, same⟩
        · rw [tools caller result] at speaks
          cases speaks
      · obtain ⟨answer, answering, found⟩ := laterCalls caller further speaks call inside
        exact ⟨answer, mem_append_right _ answering, found⟩

/-- Nothing is filtered out of a paired list whose calls have identifiers. -/
theorem filter_paired (paired : Paired messages) (named : ∀ message ∈ messages, Named message) :
    filterUnmatchedToolCalls messages = messages := by
  obtain ⟨results, calls⟩ := paired_matched _ paired
  refine filter_closed (fun answer listed => ?_) fun call listed => ?_
  · obtain ⟨member, answers⟩ := mem_filter.mp listed
    obtain ⟨caller, inside, assistant, call, made, same⟩ :=
      results answer member (of_decide_eq_true answers).1
    refine (called_iff answers).mpr ⟨call, mem_flatMap.mpr ⟨caller, inside, ?_⟩, same⟩
    rwa [Message.calls, if_pos assistant]
  · obtain ⟨caller, inside, made⟩ := mem_flatMap.mp listed
    rw [Message.calls] at made
    split at made
    · next assistant =>
      obtain ⟨answer, member, tool, same⟩ := calls caller inside assistant call made
      refine mem_answered.mpr ⟨answer, mem_filter.mpr ⟨member, decide_eq_true ⟨tool, ?_⟩⟩, same⟩
      rw [same]
      exact named caller inside call made
    · cases made

/-- How many results a call has. -/
def resultsFor (id : String) (messages : List Message) : Nat :=
  messages.countP (fun message => message.role = .tool ∧ message.toolCallId = some id)

/-- How many observations of a history belong to a call. -/
def observationsOf (id : String) (events : List Event) : Nat :=
  events.countP (fun event => observedCall event = some id)

/-- Whether a result is in the table, as a number. -/
def stored (id : String) (answers : OrderedDict String Message) : Nat :=
  if (answers.get id).isSome then 1 else 0

/-- Results of a list in two parts. -/
theorem results_for_append (first second : List Message) :
    resultsFor id (first ++ second) = resultsFor id first + resultsFor id second :=
  countP_append

/-- Taking results moves them from the table to the messages. -/
theorem take_answers_count (left : OrderedDict String Message) (filed : Filed answers)
    (taken : takeAnswers calls answers = .ok (results, left)) :
    resultsFor id results + stored id left = stored id answers := by
  induction calls generalizing answers results with
  | nil =>
    cases taken
    simp [resultsFor]
  | cons call rest ih =>
    rw [takeAnswers] at taken
    cases found : answers.get call.id with
    | none =>
      rw [found] at taken
      cases taken
    | some answer =>
      rw [found] at taken
      obtain ⟨⟨later, remaining⟩, others, combined⟩ := bind_eq_ok _ _ taken
      cases combined
      have moved := ih _ later (filed_erase _ filed _) others
      obtain ⟨tool, own, _⟩ := filed call.id answer found
      have one : resultsFor id (answer :: later) =
          resultsFor id later + if call.id = id then 1 else 0 := by
        simp [resultsFor, countP_cons, tool, own]
      have erased : stored id (answers.erase call.id) + (if call.id = id then 1 else 0) =
          stored id answers := by
        unfold stored
        rw [get_erase]
        by_cases same : call.id = id
        · subst same
          simp [found]
        · simp [same, Ne.symm same]
      omega

/-- Completing waiting messages moves results from the table to the messages. -/
theorem complete_pending_count (added : List Message) (removed : List String)
    (left : OrderedDict String Message) (waiting : Waiting pending) (filed : Filed answers)
    (completed : completePending pending answers = .ok (added, removed, left)) :
    resultsFor id added + stored id left = stored id answers := by
  induction pending generalizing answers added removed with
  | nil =>
    cases completed
    simp [resultsFor]
  | cons entry rest ih =>
    obtain ⟨responseId, message⟩ := entry
    have here := waiting (responseId, message) (.head _)
    have others : Waiting rest := fun other member => waiting other (.tail _ member)
    cases complete_pending_cons _ _ _ _ _ completed with
    | taken calls results remaining later gone called ready takes rested =>
      have stillFiled := filed_taken _ _ _ filed takes
      have first := take_answers_count id _ _ _ _ filed takes
      have second := ih remaining later gone others stillFiled rested
      have assistant : message.role = .assistant := here.1
      have plain : resultsFor id (message :: results ++ later) =
          resultsFor id results + resultsFor id later := by
        rw [results_for_append]
        simp [resultsFor, assistant]
      omega
    | stays _ _ _ _ _ rested => exact ih answers added removed others filed rested

/-- Results so far, and results in the table, do not outnumber observations. -/
def Covered (earlier : List Event) (progress : Progress) : Prop :=
  ∀ id, resultsFor id progress.messages + stored id progress.answers ≤ observationsOf id earlier

include plain in
/-- Plain messages hold no results. -/
theorem results_for_plain : resultsFor id messages = 0 := by
  rw [resultsFor, countP_eq_zero]
  intro message member
  simp [(plain message member).1]

include proper in
/-- One event adds at most one observation's worth of results. -/
theorem process_event_covered (orderly : Orderly progress) (covered : Covered prior progress)
    (processed : processEvent setup prior event progress = .ok next) :
    Covered (prior ++ [event]) next := by
  obtain ⟨added, received, completed, removed, answers, how, completes, rfl⟩ :=
    process_event_inversion processed
  obtain ⟨plain, after⟩ := received_orderly proper how orderly
  have waiting : Waiting received.pending.entries := by
    rintro ⟨key, message⟩ member
    exact after.waiting key message ((get_eq_some_iff _ _ _).mpr member)
  intro id
  have moved := complete_pending_count id _ _ _ _ _ waiting after.filed completes
  have before := covered id
  have total : resultsFor id (progress.messages ++ (added ++ completed)) =
      resultsFor id progress.messages + resultsFor id completed := by
    rw [results_for_append, results_for_append, results_for_plain id _ plain, Nat.zero_add]
  have grown : stored id received.answers + observationsOf id prior ≤
      stored id progress.answers + observationsOf id (prior ++ [event]) := by
    have more : observationsOf id (prior ++ [event]) =
        observationsOf id prior + if observedCall event = some id then 1 else 0 := by
      rw [observationsOf, countP_append, observationsOf]
      simp [countP_cons]
    cases how with
    | spoke => omega
    | waits =>
      change stored id progress.answers + _ ≤ _
      omega
    | answers metadata content observed noResponse =>
      rw [more, observed]
      unfold stored
      rw [get_set]
      by_cases same : id = metadata.toolCallId
      · subst same
        simp only [if_true, Option.isSome_some]
        omega
      · simp [same]
  simp only
  omega

end ForgePilot.ConversationMemory
