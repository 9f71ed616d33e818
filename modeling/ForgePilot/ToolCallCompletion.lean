import ForgePilot.ToolCallPairing

/-!
# Every completed response contributes once

A response waits until all of its calls have results. When its calls are its own
and one of them is observed only once, the response is added as soon as both its
action and the last result have been seen, in whatever order, and never again: the
results have left the table and one of them does not come back.

Without these conditions the count can differ. An identifier shared by two
responses gives its result to the first that is complete, and a second
observation of every call lets a repeated action add the response again.
-/

namespace ForgePilot.ConversationMemory

open Events List OrderedDict Option

section Tracked

variable (calls : List ToolCall) (message : Message)

/-- The messages that make exactly these calls. -/
def callersOf (messages : List Message) : List Message :=
  messages.filter (fun other => other.toolCalls = some calls)

/-- Callers of a list in two parts. -/
theorem callers_of_append (first second : List Message) :
    callersOf calls (first ++ second) = callersOf calls first ++ callersOf calls second :=
  filter_append ..

/-- Messages without calls are no callers. -/
theorem callers_of_callless {messages : List Message}
    (callless : ∀ other ∈ messages, other.toolCalls = none) : callersOf calls messages = [] := by
  rw [callersOf, filter_eq_nil_iff]
  intro other member
  simp [callless other member]

variable {calls message}

/-- Entries under other keys make none of the calls. -/
def Apart (calls : List ToolCall) (key : String) (pending : List (String × Message)) : Prop :=
  ∀ entry ∈ pending, entry.1 ≠ key →
    ∀ call ∈ entry.2.toolCalls.getD [], call.id ∉ calls.map ToolCall.id

/-- Taking the results of other calls leaves these calls alone. -/
theorem take_answers_foreign (some_call : calls ≠ []) (waiting : Message)
    (others : List ToolCall) (answers : OrderedDict String Message) (results : List Message)
    {left : OrderedDict String Message} (filed : Filed answers)
    (makes : waiting.toolCalls = some others)
    (foreign : ∀ call ∈ others, call.id ∉ calls.map ToolCall.id)
    (taken : takeAnswers others answers = .ok (results, left)) :
    callersOf calls (waiting :: results) = [] ∧
      ∀ call ∈ calls, left.get call.id = answers.get call.id := by
  obtain ⟨_, tools, kept⟩ := take_answers_spec _ _ _ filed taken
  have notCaller : others ≠ calls := by
    rintro rfl
    obtain ⟨first, member⟩ := exists_mem_of_ne_nil _ some_call
    exact foreign first member (mem_map_of_mem member)
  constructor
  · rw [callersOf, filter_cons_of_neg (by simpa [makes] using notCaller)]
    exact callers_of_callless _ (fun result member => (tools result member).2)
  · intro call member
    rw [kept, if_neg]
    intro shared
    obtain ⟨other, making, same⟩ := mem_map.mp shared
    exact foreign other making (same ▸ mem_map_of_mem member)

variable {pending : List (String × Message)}

/-- A waiting response that is absent or incomplete stays as it is, and so do the
results of its calls. -/
theorem complete_pending_idle (key : String) (some_call : calls ≠ [])
    (answers : OrderedDict String Message) (added : List Message) (removed : List String)
    (left : OrderedDict String Message) (filed : Filed answers) (apart : Apart calls key pending)
    (own : ∀ other, (key, other) ∈ pending → other.toolCalls = some calls)
    (idle : key ∉ pending.map Prod.fst ∨ ∃ call ∈ calls, answers.get call.id = none)
    (completed : completePending pending answers = .ok (added, removed, left)) :
    callersOf calls added = [] ∧ key ∉ removed ∧
      ∀ call ∈ calls, left.get call.id = answers.get call.id := by
  induction pending generalizing answers added removed with
  | nil =>
    cases completed
    exact ⟨rfl, not_mem_nil, fun _ _ => rfl⟩
  | cons entry rest ih =>
    obtain ⟨responseId, waiting⟩ := entry
    have laterApart : Apart calls key rest := fun other member => apart other (.tail _ member)
    have laterOwn : ∀ other, (key, other) ∈ rest → other.toolCalls = some calls :=
      fun other member => own other (.tail _ member)
    have laterAbsent : key ∉ ((responseId, waiting) :: rest).map Prod.fst →
        key ∉ rest.map Prod.fst := fun absent member =>
      absent (.tail _ member)
    cases complete_pending_cons _ _ _ _ _ completed with
    | taken others results remaining later gone called complete takes rested =>
      -- a complete entry under the key itself would not be idle
      have different : responseId ≠ key := by
        rintro rfl
        have same : others = calls := some.inj (called.symm.trans (own waiting (.head _)))
        rcases idle with absent | ⟨call, member, missing⟩
        · exact absent (by simp)
        · have present := complete call (same ▸ member)
          rw [missing] at present
          cases present
      have foreign := apart (responseId, waiting) (.head _) different
      rw [called, getD_some] at foreign
      obtain ⟨notCallers, unaffected⟩ := take_answers_foreign some_call _ _ _
        _ filed called foreign takes
      have stillIdle : key ∉ rest.map Prod.fst ∨ ∃ call ∈ calls, remaining.get call.id = none := by
        rcases idle with absent | ⟨call, member, missing⟩
        · exact .inl (laterAbsent absent)
        · exact .inr ⟨call, member, (unaffected call member).trans missing⟩
      obtain ⟨none, notRemoved, same⟩ := ih remaining later gone
        (filed_taken _ _ _ filed takes) laterApart laterOwn stillIdle
        rested
      refine ⟨?_, ?_, fun call member => (same call member).trans (unaffected call member)⟩
      · rw [callers_of_append, none, append_nil, notCallers]
      · exact fun member => (mem_cons.mp member).elim (Ne.symm different) notRemoved
    | stays _ _ _ _ _ rested =>
      exact ih answers added removed filed laterApart laterOwn
        (idle.imp_left laterAbsent) rested

/-- A complete waiting response is added once, and takes the results of its
calls. -/
theorem complete_pending_ready (key : String) (some_call : calls ≠ [])
    (answers : OrderedDict String Message) (added : List Message) (removed : List String)
    (left : OrderedDict String Message) (filed : Filed answers)
    (distinct : (pending.map Prod.fst).Nodup) (apart : Apart calls key pending)
    (called : message.toolCalls = some calls) (present : (key, message) ∈ pending)
    (ready : ∀ call ∈ calls, (answers.get call.id).isSome = true)
    (completed : completePending pending answers = .ok (added, removed, left)) :
    callersOf calls added = [message] ∧ key ∈ removed ∧
      ∀ call ∈ calls, left.get call.id = none := by
  induction pending generalizing answers added removed with
  | nil => cases present
  | cons entry rest ih =>
    obtain ⟨responseId, waiting⟩ := entry
    simp only [map_cons, nodup_cons] at distinct
    have laterApart : Apart calls key rest := fun other member => apart other (.tail _ member)
    have presentLater : responseId ≠ key → (key, message) ∈ rest := by
      intro other
      rcases mem_cons.mp present with equal | further
      · exact absurd (Prod.mk.inj equal).1.symm other
      · exact further
    cases complete_pending_cons _ _ _ _ _ completed with
    | taken others results remaining later gone makes complete takes rested =>
      by_cases same : responseId = key
      · subst same
        have absent : responseId ∉ rest.map Prod.fst := distinct.1
        have here : waiting = message := by
          rcases mem_cons.mp present with equal | further
          · exact (Prod.mk.inj equal).2.symm
          · exact absurd (mem_map_of_mem further) absent
        subst here
        obtain rfl : others = calls := some.inj (makes.symm.trans called)
        obtain ⟨_, tools, kept⟩ := take_answers_spec _ _ _ filed takes
        obtain ⟨none, _, unaffected⟩ := complete_pending_idle _ some_call _
          _ _ _ (filed_taken _ _ _ filed takes) laterApart
          (fun other member => absurd (mem_map_of_mem member) absent) (.inl absent) rested
        refine ⟨?_, .head _, ?_⟩
        · rw [callers_of_append, none, append_nil, callersOf,
            filter_cons_of_pos (by simpa using makes)]
          congr 1
          exact callers_of_callless _ (fun result member => (tools result member).2)
        · intro call member
          rw [unaffected call member, kept, if_pos (mem_map_of_mem member)]
      · have further := presentLater same
        have foreign := apart (responseId, waiting) (.head _) same
        rw [makes, getD_some] at foreign
        obtain ⟨notCallers, unaffected⟩ := take_answers_foreign some_call _ _ _
          _ filed makes foreign takes
        obtain ⟨once, gonePresent, takenAll⟩ := ih remaining later gone
          (filed_taken _ _ _ filed takes) distinct.2 laterApart further
          (fun call member => by rw [unaffected call member]; exact ready call member) rested
        refine ⟨?_, .tail _ gonePresent, takenAll⟩
        rw [callers_of_append, once, notCallers, nil_append]
    | stays others _ _ makes incomplete rested =>
      have other : responseId ≠ key := by
        rintro rfl
        rcases mem_cons.mp present with equal | further
        · obtain rfl := (Prod.mk.inj equal).2
          exact incomplete (some.inj (makes.symm.trans called) ▸ ready)
        · exact distinct.1 (mem_map_of_mem further)
      exact ih answers added removed filed distinct.2 laterApart
        (presentLater other) ready rested

end Tracked

theorem assistant_message_calls {response : ModelResponse} {message : Message}
    (built : assistantMessage response = .ok message) :
    message.toolCalls = response.toolCalls := by
  rw [assistantMessage] at built
  split at built
  · cases built
  · cases built
    rfl

/-- Completing removes results and adds none. -/
theorem complete_pending_subset (pending : List (String × Message))
    (answers : OrderedDict String Message) (added : List Message) (removed : List String)
    (left : OrderedDict String Message) (filed : Filed answers)
    (completed : completePending pending answers = .ok (added, removed, left))
    (id : String) (answer : Message) (found : left.get id = some answer) :
    answers.get id = some answer := by
  induction pending generalizing answers added removed with
  | nil =>
    cases completed
    exact found
  | cons entry rest ih =>
    obtain ⟨responseId, message⟩ := entry
    cases complete_pending_cons _ _ _ _ _ completed with
    | taken calls results remaining later gone called ready takes rested =>
      have before := ih remaining later gone
        (filed_taken _ _ _ filed takes) rested
      obtain ⟨_, _, kept⟩ := take_answers_spec _ _ _ filed takes
      rw [kept] at before
      split at before
      · cases before
      · exact before
    | stays _ _ _ _ _ rested => exact ih answers added removed filed rested

/-- What waits and what is filed comes from events that were processed. -/
structure Known (earlier : List Event) (progress : Progress) : Prop where
  pending : ∀ key message, progress.pending.get key = some message →
    ∃ event ∈ earlier, ∃ response, waitsFor event = some response ∧ response.id = key ∧
      assistantMessage response = .ok message
  answers : ∀ id answer, progress.answers.get id = some answer →
    ∃ event ∈ earlier, observedCall event = some id

variable {added : List Message}

theorem received_known {prior : List Event} {event : Event} {progress received : Progress}
    (how : Received event progress added received) (known : Known prior progress) :
    Known (prior ++ [event]) received := by
  have pendingBefore : ∀ key message, progress.pending.get key = some message →
      ∃ origin ∈ prior ++ [event], ∃ response, waitsFor origin = some response ∧
        response.id = key ∧ assistantMessage response = .ok message := by
    intro key message found
    obtain ⟨origin, member, holds⟩ := known.pending key message found
    exact ⟨origin, mem_append_left _ member, holds⟩
  have answersBefore : ∀ id answer, progress.answers.get id = some answer →
      ∃ origin ∈ prior ++ [event], observedCall origin = some id := by
    intro id answer found
    obtain ⟨origin, member, holds⟩ := known.answers id answer found
    exact ⟨origin, mem_append_left _ member, holds⟩
  cases how with
  | spoke => exact ⟨pendingBefore, answersBefore⟩
  | waits response message waiting built noObservation =>
    refine ⟨?_, answersBefore⟩
    intro key other found
    rw [get_set] at found
    split at found
    · rename_i same
      cases found
      exact ⟨event, by simp, response, waiting, same.symm, built⟩
    · exact pendingBefore key other found
  | answers metadata content observed noResponse =>
    refine ⟨pendingBefore, ?_⟩
    intro id answer found
    rw [get_set] at found
    split at found
    · rename_i same
      exact ⟨event, by simp, by rw [observed, same]⟩
    · exact answersBefore id answer found

/-- A response whose calls are its own, one of them observed at most once. -/
structure Separate (events : List Event) (response : ModelResponse) (calls : List ToolCall) :
    Prop where
  same : ∀ event ∈ events, ∀ other, waitsFor event = some other → other.id = response.id →
    other = response
  apart : ∀ event ∈ events, ∀ other, waitsFor event = some other → other.id ≠ response.id →
    ∀ call ∈ other.toolCalls.getD [], call.id ∉ calls.map ToolCall.id
  once : ∃ call ∈ calls, observationsOf call.id events ≤ 1

/-- A response is still incomplete, or it was added once and the result of its rare
call is gone. -/
inductive Tracked (response : ModelResponse) (message : Message) (calls : List ToolCall)
    (rare : ToolCall) (earlier : List Event) (progress : Progress) : Prop where
  | open (none : callersOf calls progress.messages = [])
      (waits : ∀ event ∈ earlier, waitsFor event = some response →
        progress.pending.get response.id = some message)
      (filed : ∀ call ∈ calls, (∃ event ∈ earlier, answeredCall event = some call.id) →
        (progress.answers.get call.id).isSome = true)
      (incomplete : ¬(progress.pending.get response.id = some message ∧
        ∀ call ∈ calls, (progress.answers.get call.id).isSome = true))
  | closed (one : callersOf calls progress.messages = [message])
      (gone : progress.answers.get rare.id = Option.none)
      (observed : ∃ event ∈ earlier, observedCall event = some rare.id)

section Step

variable {events : List Event} {response : ModelResponse} {message : Message}
  {calls : List ToolCall} (built : assistantMessage response = .ok message)
  (separate : Separate events response calls)
include built separate

variable {progress : Progress} {prior : List Event}

/-- What waits under the key of the response is its message; what waits under
other keys makes other calls. -/
theorem waiting_apart (inside : ∀ event ∈ prior, event ∈ events) (known : Known prior progress) :
    (∀ other, (response.id, other) ∈ progress.pending.entries → other = message) ∧
      Apart calls response.id progress.pending.entries := by
  constructor
  · intro other member
    obtain ⟨event, processed, origin, waits, sameId, made⟩ :=
      known.pending _ _ ((get_eq_some_iff _ _ _).mpr member)
    have same := separate.same event (inside event processed) origin waits sameId
    rw [same, built] at made
    exact (Except.ok.inj made).symm
  · rintro ⟨key, other⟩ member different call makes
    obtain ⟨event, processed, origin, waits, sameId, made⟩ :=
      known.pending _ _ ((get_eq_some_iff _ _ _).mpr member)
    rw [assistant_message_calls made] at makes
    exact separate.apart event (inside event processed) origin waits
      (fun same => different (sameId.symm.trans same)) call makes

/-- Once the action of the response was received, its message waits. -/
theorem received_waits {prior : List Event} {event : Event} {progress received : Progress}
    {added : List Message} (within : event ∈ events)
    (how : Received event progress added received)
    (waits : ∀ other ∈ prior, waitsFor other = some response →
      progress.pending.get response.id = some message) :
    ∀ other ∈ prior ++ [event], waitsFor other = some response →
      received.pending.get response.id = some message := by
  intro other member waiting
  rcases mem_append.mp member with before | now
  · have already := waits other before waiting
    cases how with
    | spoke | answers => exact already
    | waits newer made isNewer builtNewer noObservation =>
      rw [get_set]
      split
      · rename_i sameId
        rw [separate.same event within newer isNewer sameId.symm, built] at builtNewer
        exact congrArg some (Except.ok.inj builtNewer).symm
      · exact already
  · rw [mem_singleton.mp now] at waiting
    cases how with
    | spoke added plain noResponse | answers metadata content observed noResponse =>
      rw [noResponse] at waiting
      cases waiting
    | waits newer made isNewer builtNewer noObservation =>
      rw [isNewer] at waiting
      cases waiting
      rw [get_set, if_pos rfl, ← Except.ok.inj (built.symm.trans builtNewer)]

variable {event : Event}

variable {received : Progress}

omit built separate in
/-- Once an answering observation of a call was received, its result is filed. -/
theorem received_filed {id : String} (how : Received event progress added received)
    (filed : (∃ other ∈ prior, answeredCall other = some id) →
      (progress.answers.get id).isSome = true)
    (answered : ∃ other ∈ prior ++ [event], answeredCall other = some id) :
    (received.answers.get id).isSome = true := by
  obtain ⟨other, member, answers⟩ := answered
  rcases mem_append.mp member with before | now
  · have already := filed ⟨other, before, answers⟩
    cases how with
    | spoke | waits => exact already
    | answers metadata content observed noResponse =>
      rw [get_set]
      split
      · rfl
      · exact already
  · rw [mem_singleton.mp now] at answers
    have observes := observed_of_answered _ id answers
    cases how with
    | spoke added plain noResponse noAnswer =>
      rw [noAnswer] at answers
      cases answers
    | waits newer made isNewer builtNewer noObservation =>
      rw [observes] at noObservation
      cases noObservation
    | answers metadata content observed noResponse =>
      rw [get_set, if_pos (some.inj (observes.symm.trans observed))]
      rfl

variable {later : List Event}

omit built separate in
/-- A result that has left the table does not come back, when its call is observed
only once. -/
theorem received_gone (whole : events = prior ++ event :: later)
    (how : Received event progress added received) {call : ToolCall}
    (once : observationsOf call.id events ≤ 1) (missing : progress.answers.get call.id = none)
    (observed : ∃ other ∈ prior, observedCall other = some call.id) :
    received.answers.get call.id = none := by
  cases how with
  | spoke | waits => exact missing
  | answers metadata content observes noResponse =>
    rw [get_set, if_neg]
    · exact missing
    · intro same
      obtain ⟨origin, before, first⟩ := observed
      have again : observedCall event = some call.id := by rw [observes, same]
      have positive : 0 < prior.countP (fun other => observedCall other = some call.id) :=
        countP_pos_iff.mpr ⟨origin, before, by simpa using first⟩
      have twice : 2 ≤ observationsOf call.id events := by
        rw [whole, observationsOf, countP_append, countP_cons]
        simp only [again, decide_true, if_true]
        omega
      omega

variable (called : response.toolCalls = some calls)
include called

/-- Processing an event keeps the origins known and the response tracked. -/
theorem process_event_tracked {setup : Setup} {next : Progress}
    (whole : events = prior ++ event :: later)
    (proper : ∀ response, waitsFor event = some response → Proper response)
    (orderly : Orderly progress) (known : Known prior progress) {rare : ToolCall}
    (makesRare : rare ∈ calls) (once : observationsOf rare.id events ≤ 1)
    (tracked : Tracked response message calls rare prior progress)
    (processed : processEvent setup prior event progress = .ok next) :
    Known (prior ++ [event]) next ∧
      Tracked response message calls rare (prior ++ [event]) next := by
  have some_call : calls ≠ [] := ne_nil_of_mem makesRare
  obtain ⟨added, received, completed, removed, answers, how, completes, rfl⟩ :=
    process_event_inversion processed
  obtain ⟨plain, after⟩ := received_orderly proper how orderly
  have knownAfter := received_known how known
  have inside : ∀ other ∈ prior ++ [event], other ∈ events := by
    intro other member
    rw [whole]
    rcases mem_append.mp member with before | now
    · exact mem_append_left _ before
    · exact mem_append_right _ (mem_singleton.mp now ▸ (.head _))
  have within : event ∈ events := inside event (by simp)
  obtain ⟨own, apart⟩ := waiting_apart built separate inside knownAfter
  have ownCalls : ∀ other, (response.id, other) ∈ received.pending.entries →
      other.toolCalls = some calls := by
    intro other member
    rw [own other member, assistant_message_calls built, called]
  have knownNext : Known (prior ++ [event])
      ⟨progress.messages ++ (added ++ completed), dropCompleted received.pending removed,
        answers⟩ := by
    refine ⟨?_, ?_⟩
    · intro key other found
      simp only [get_drop_completed] at found
      split at found
      · cases found
      · exact knownAfter.pending key other found
    · intro id answer found
      exact knownAfter.answers id answer (complete_pending_subset _ _ _ _ _
        after.filed completes id _ found)
  have callers : callersOf calls (progress.messages ++ (added ++ completed)) =
      callersOf calls progress.messages ++ callersOf calls completed := by
    rw [callers_of_append, callers_of_append,
      callers_of_callless _ (fun other member => (plain other member).2),
      nil_append]
  refine ⟨knownNext, ?_⟩
  cases tracked with
  | «open» none waits filed incomplete =>
    have waitsAfter := received_waits built separate within
      how waits
    have filedAfter : ∀ call ∈ calls,
        (∃ other ∈ prior ++ [event], answeredCall other = some call.id) →
        (received.answers.get call.id).isSome = true := fun call makes =>
      received_filed how (filed call makes)
    by_cases ready : received.pending.get response.id = some message ∧
        ∀ call ∈ calls, (received.answers.get call.id).isSome = true
    · obtain ⟨one, _, taken⟩ := complete_pending_ready _ some_call
        _ _ _ _ after.filed
        received.pending.distinct apart
        ((assistant_message_calls built).trans called)
        ((get_eq_some_iff _ _ _).mp ready.1) ready.2 completes
      refine .closed (by rw [callers, none, one, nil_append]) (taken rare makesRare) ?_
      obtain ⟨answer, found⟩ := isSome_iff_exists.mp (ready.2 rare makesRare)
      exact knownAfter.answers rare.id answer found
    · have idle : response.id ∉ received.pending.entries.map Prod.fst ∨
          ∃ call ∈ calls, received.answers.get call.id = Option.none := by
        by_cases present : response.id ∈ received.pending.entries.map Prod.fst
        · right
          obtain ⟨⟨key, other⟩, member, same⟩ := mem_map.mp present
          subst same
          rw [own other member] at member
          have waiting := (get_eq_some_iff _ _ _).mpr member
          by_contra all
          refine ready ⟨waiting, fun call makes => ?_⟩
          by_contra missing
          exact all ⟨call, makes, by simpa using missing⟩
        · exact .inl present
      obtain ⟨nothing, kept, same⟩ := complete_pending_idle _ some_call
        _ _ _ _ after.filed apart
        ownCalls idle completes
      refine .open (by rw [callers, none, nothing, nil_append]) ?_ ?_ ?_
      · intro other member waiting
        rw [get_drop_completed, if_neg kept]
        exact waitsAfter other member waiting
      · intro call makes answered
        simp only [same call makes]
        exact filedAfter call makes answered
      · rintro ⟨waiting, all⟩
        rw [get_drop_completed, if_neg kept] at waiting
        refine ready ⟨waiting, fun call makes => ?_⟩
        have here := all call makes
        simp only [same call makes] at here
        exact here
  | closed one gone observed =>
    have stillGone : received.answers.get rare.id = Option.none :=
      received_gone whole how once gone observed
    obtain ⟨nothing, _, same⟩ := complete_pending_idle _ some_call
      _ _ _ _ after.filed apart
      ownCalls (.inr ⟨rare, makesRare, stillGone⟩) completes
    refine .closed (by rw [callers, one, nothing, append_nil])
      ((same rare makesRare).trans stillGone) ?_
    obtain ⟨origin, before, first⟩ := observed
    exact ⟨origin, mem_append_left _ before, first⟩

end Step

/-- A message of a user or an agent. -/
def isMessageAction (event : Event) : Bool :=
  match event.body with
  | .action (.message _ _ _) => true
  | _ => false

/-- Messages wait for nothing and observe nothing. -/
theorem message_action_quiet (event : Event) (isMessage : isMessageAction event = true) :
    waitsFor event = none ∧ observedCall event = none := by
  rw [isMessageAction] at isMessage
  split at isMessage
  · rename_i content urls wait body
    constructor
    · rw [waitsFor, body]
      rfl
    · rw [observedCall, body]
  · cases isMessage

/-- At most the first message of the user is inserted, after the first event. -/
theorem ensure_initial_shape (events : List Event) (initialUserAction : Event)
    (forgottenEventIds : List Int) :
    ensureInitialUserMessage events initialUserAction forgottenEventIds = events ∨
      ∃ first rest, events = first :: rest ∧
        ensureInitialUserMessage events initialUserAction forgottenEventIds =
          first :: initialUserAction :: rest := by
  cases events with
  | nil => exact .inl rfl
  | cons first rest =>
    by_cases forgotten : initialUserAction.id ∈ forgottenEventIds
    · exact .inl (by simp [ensureInitialUserMessage, forgotten])
    cases rest with
    | nil => exact .inr ⟨first, [], rfl, by simp [ensureInitialUserMessage, forgotten]⟩
    | cons second others =>
      by_cases user : second.isUserMessage = true
      · exact .inl (by simp [ensureInitialUserMessage, forgotten, user])
      · exact .inr ⟨first, second :: others, rfl,
          by simp [ensureInitialUserMessage, forgotten, user]⟩

/-- The processed events are those of the history, with at most a system message
and the first message of the user in addition. -/
theorem ensured_events_spec (setup : Setup) (history : List Event) (initialUserAction : Event)
    (forgottenEventIds : List Int) (isMessage : isMessageAction initialUserAction = true) :
    (∀ event ∈ history, event ∈ ensuredEvents setup history initialUserAction forgottenEventIds) ∧
      (∀ event ∈ ensuredEvents setup history initialUserAction forgottenEventIds,
        event ∈ history ∨ waitsFor event = none ∧ observedCall event = none) ∧
      ∀ id, observationsOf id (ensuredEvents setup history initialUserAction forgottenEventIds) =
        observationsOf id history := by
  obtain ⟨waitless, unobserved⟩ := message_action_quiet _ isMessage
  have system : ∃ front, ensureSystemMessage setup history = front ++ history ∧
      ∀ event ∈ front, waitsFor event = none ∧ observedCall event = none := by
    unfold ensureSystemMessage
    simp only
    split
    · exact ⟨[], rfl, by simp⟩
    · exact ⟨[_], rfl, by simp [waitsFor, observedCall, toolBased]⟩
  obtain ⟨front, shape, quiet⟩ := system
  have sameCount : ∀ id, observationsOf id (front ++ history) = observationsOf id history := by
    intro id
    rw [observationsOf, countP_append, countP_eq_zero.mpr, Nat.zero_add, observationsOf]
    intro event member
    simp [(quiet event member).2]
  rw [ensuredEvents, shape]
  have origin : ∀ event ∈ front ++ history,
      event ∈ history ∨ waitsFor event = none ∧ observedCall event = none := by
    intro event member
    exact (mem_append.mp member).elim (fun added => .inr (quiet event added)) .inl
  rcases ensure_initial_shape .. with
    same | ⟨first, rest, parts, inserted⟩
  · rw [same]
    exact ⟨fun event member => mem_append_right _ member, origin, sameCount⟩
  rw [inserted]
  refine ⟨?_, ?_, ?_⟩
  · intro event member
    have inside : event ∈ first :: rest := parts ▸ mem_append_right _ member
    rcases inside with _ | ⟨_, later⟩
    · exact .head _
    · exact .tail _ (.tail _ later)
  · intro event member
    rcases mem_cons.mp member with rfl | later
    · exact origin event (parts ▸ (.head _))
    · rcases later with _ | ⟨_, further⟩
      · exact .inr ⟨waitless, unobserved⟩
      · exact origin event (parts ▸ .tail _ further)
  · intro id
    rw [← sameCount id, parts]
    simp [observationsOf, countP_cons, unobserved]

/-- Formatting leaves callers alone that are no users. -/
theorem callers_of_formatting (calls : List ToolCall) (previous : Option Role)
    (messages : List Message)
    (spoken : ∀ message ∈ callersOf calls messages, message.role ≠ .user) :
    callersOf calls (applyUserMessageFormatting previous messages) = callersOf calls messages := by
  induction messages generalizing previous with
  | nil => rfl
  | cons message rest ih =>
    rw [applyUserMessageFormatting]
    by_cases caller : message.toolCalls = some calls
    · have here : callersOf calls (message :: rest) = message :: callersOf calls rest :=
        filter_cons_of_pos (by simpa using caller)
      rw [here] at spoken ⊢
      have notUser := spoken message (.head _)
      rw [if_neg (fun formatted => notUser formatted.1), callersOf,
        filter_cons_of_pos (by simpa using caller)]
      congr 1
      exact ih _ (fun other member => spoken other (.tail _ member))
    · have here : callersOf calls (message :: rest) = callersOf calls rest :=
        filter_cons_of_neg (by simpa using caller)
      rw [here] at spoken ⊢
      rw [callersOf, filter_cons_of_neg]
      · exact ih _ spoken
      · split <;> simpa using caller

/-- On every history for which messages are built: calls and results form whole
blocks and no result stands outside of one; a call has at most as many results as
observations; and a response with its own calls, one of them observed only once,
contributes its message exactly once when its action and answers to all its calls
are in the history, in any order. -/
theorem tool_calls_well_formed (setup : Setup) (history : List Event) (initialUserAction : Event)
    (forgottenEventIds : List Int) (messages : List Message)
    (isMessage : isMessageAction initialUserAction = true)
    (proper : ∀ event ∈ history, ∀ response, waitsFor event = some response → Proper response)
    (returned : processEvents setup history initialUserAction forgottenEventIds = .ok messages) :
    Paired messages ∧ (∀ id, resultsFor id messages ≤ observationsOf id history) ∧
      ∀ response message calls, assistantMessage response = .ok message →
        response.toolCalls = some calls → Separate history response calls →
        (∃ event ∈ history, waitsFor event = some response) →
        (∀ call ∈ calls, ∃ event ∈ history, answeredCall event = some call.id) →
        callersOf calls messages = [message] := by
  obtain ⟨progress, processed, formatted⟩ := bind_eq_ok _ _ returned
  cases formatted
  obtain ⟨present, origin, sameCount⟩ := ensured_events_spec _ _ _ _ isMessage
  generalize ensuredEvents setup history initialUserAction forgottenEventIds = events at *
  have properAll : ∀ event ∈ events, ∀ response, waitsFor event = some response →
      Proper response := by
    intro event member response waits
    rcases origin event member with original | ⟨none, _⟩
    · exact proper event original response waits
    · rw [none] at waits
      cases waits
  have orderlyStart : Orderly ⟨[], .empty, .empty⟩ :=
    ⟨.nil, by simp, by simp, fun id answer found => by simp at found⟩
  have sound := process_all_invariant
    (fun earlier progress => Orderly progress ∧ Covered earlier progress)
    (fun earlier event later progress next whole holds processed => by
      have properHere := properAll event (by rw [whole]; simp)
      exact ⟨process_event_orderly properHere holds.1 processed,
        process_event_covered properHere holds.1 holds.2
          processed⟩)
    ⟨orderlyStart, fun id => by simp [resultsFor, stored, observationsOf]⟩ processed
  obtain ⟨orderly, covered⟩ := sound
  have unfiltered := filter_paired _ orderly.paired orderly.named
  rw [unfiltered]
  refine ⟨?_, ?_, ?_⟩
  · exact paired_of_shapes _ _ orderly.paired (formatting_shapes ..)
  · intro id
    have shapes : resultsFor id (applyUserMessageFormatting none progress.messages) =
        resultsFor id progress.messages := by
      have counted : ∀ list : List Message, resultsFor id list = (list.map Message.shape).countP
            (fun shape => shape.1 = .tool ∧ shape.2.2 = some id) := by
        intro list
        rw [List.countP_map]
        rfl
      rw [counted, counted, formatting_shapes]
    have bound := covered id
    rw [shapes, ← sameCount id]
    omega
  · intro response message calls built called separate acted answered
    obtain ⟨rare, makesRare, once⟩ := separate.once
    have separateAll : Separate events response calls := by
      refine ⟨?_, ?_, ?_⟩
      · intro event member other waits
        rcases origin event member with original | ⟨none, _⟩
        · exact separate.same event original other waits
        · rw [none] at waits
          cases waits
      · intro event member other waits
        rcases origin event member with original | ⟨none, _⟩
        · exact separate.apart event original other waits
        · rw [none] at waits
          cases waits
      · exact ⟨rare, makesRare, by rw [sameCount]; exact once⟩
    have followed := process_all_invariant
      (fun earlier progress => Orderly progress ∧ Known earlier progress ∧
        Tracked response message calls rare earlier progress)
      (fun earlier event later progress next whole holds processed => by
        have properHere := properAll event (by rw [whole]; simp)
        exact ⟨process_event_orderly properHere holds.1
          processed, process_event_tracked built separateAll called
          whole properHere holds.1 holds.2.1 makesRare
          (by rw [sameCount]; exact once) holds.2.2 processed⟩)
      ⟨orderlyStart, ⟨by simp, by simp⟩, .open rfl (by simp) (by simp) (by simp)⟩ processed
    have one : callersOf calls progress.messages = [message] := by
      cases followed.2.2 with
      | «open» none waits filed incomplete =>
        obtain ⟨event, member, waiting⟩ := acted
        refine absurd ⟨waits event (present event member) waiting, ?_⟩ incomplete
        intro call makes
        obtain ⟨observation, observed, answers⟩ := answered call makes
        exact filed call makes ⟨observation, present observation observed, answers⟩
      | closed one gone => exact one
    rw [callers_of_formatting, one]
    intro other member
    rw [one, List.mem_singleton] at member
    obtain ⟨event, inside, waiting⟩ := acted
    rw [member, (assistant_message_proper
      (proper event inside response waiting) built).1]
    simp

/-- A setup without prompts. -/
def plainSetup : Setup where
  prompts := ⟨fun _ => "", fun _ _ _ _ => "", fun _ => ""⟩

def terminalCall (id : String) : ToolCall := ⟨id, "execute_bash", ""⟩

def terminalResponse (id : String) (callIds : List String) : ModelResponse where
  id
  toolCalls := some (callIds.map terminalCall)

/-- What links an event to a call of a response. -/
def terminalMetadata (response : ModelResponse) (callId : String) : ToolCallMetadata :=
  ⟨"execute_bash", callId, response, (response.toolCalls.getD []).length⟩

/-- A command that the agent runs for a call. -/
def terminalAction (response : ModelResponse) (callId : String) : Event where
  source := some .agent
  toolCallMetadata := some (terminalMetadata response callId)
  body := .action (.cmdRun "ls" "" false)

def terminalOutput (response : ModelResponse) (callId : String) : Event where
  source := some .agent
  toolCallMetadata := some (terminalMetadata response callId)
  body := .observation "done" (.cmdOutput "ls" {} false)

/-- What the user asked for first. -/
def firstRequest : Event where
  source := some .user
  body := .action (.message "list the files" none false)

/-- A history that starts with a system message and the first request. -/
def askedFor (events : List Event) : List Event :=
  { body := .action (.systemMessage "help") } :: firstRequest :: events

/-- Two calls of one response whose results arrive around a second response. -/
def interleavedHistory : List Event :=
  let first := terminalResponse "r1" ["a", "b"]
  let second := terminalResponse "r2" ["c"]
  askedFor
    [terminalAction first "a", terminalOutput first "b", terminalAction first "b",
      terminalAction second "c", terminalOutput second "c", terminalOutput first "a"]

theorem interleaved_responses {event : Event} (member : event ∈ interleavedHistory)
    {response : ModelResponse} (waits : waitsFor event = some response) :
    response = terminalResponse "r1" ["a", "b"] ∨ response = terminalResponse "r2" ["c"] := by
  have listed : response ∈ interleavedHistory.filterMap waitsFor :=
    mem_filterMap.mpr ⟨event, member, waits⟩
  have all : interleavedHistory.filterMap waitsFor =
      [terminalResponse "r1" ["a", "b"], terminalResponse "r1" ["a", "b"],
        terminalResponse "r2" ["c"]] := rfl
  rw [all] at listed
  simpa using listed

/-- The conditions are met when results arrive out of order. -/
theorem interleaved_calls_answered : ∃ messages message,
      processEvents plainSetup interleavedHistory firstRequest [] = .ok messages ∧
        assistantMessage (terminalResponse "r1" ["a", "b"]) = .ok message ∧ Paired messages ∧
        resultsFor "a" messages ≤ 1 ∧
        callersOf [terminalCall "a", terminalCall "b"] messages = [message] := by
  obtain ⟨messages, returned⟩ : ∃ messages,
      processEvents plainSetup interleavedHistory firstRequest [] = .ok messages := ⟨_, rfl⟩
  obtain ⟨message, built⟩ : ∃ message,
      assistantMessage (terminalResponse "r1" ["a", "b"]) = .ok message := ⟨_, rfl⟩
  obtain ⟨paired, results, contributes⟩ := tool_calls_well_formed _ _ _ [] _ rfl (by
      intro event member response waits
      rcases interleaved_responses member waits with rfl | rfl
      · exact ⟨rfl, by decide⟩
      · exact ⟨rfl, by decide⟩) returned
  refine ⟨messages, message, returned, built, paired, results "a", ?_⟩
  refine contributes _ message _ built rfl ⟨?_, ?_, ⟨_, .head _, by decide⟩⟩ ?_ ?_
  · intro event member other waits sameId
    rcases interleaved_responses member waits with rfl | rfl
    · rfl
    · exact absurd sameId (by decide)
  · intro event member other waits different
    rcases interleaved_responses member waits with rfl | rfl
    · exact absurd rfl different
    · decide
  · exact ⟨terminalAction (terminalResponse "r1" ["a", "b"]) "a", by simp [interleavedHistory, askedFor], rfl⟩
  · intro call makes
    refine ⟨terminalOutput (terminalResponse "r1" ["a", "b"]) call.id, ?_, rfl⟩
    simp only [List.mem_cons, List.not_mem_nil, or_false] at makes
    rcases makes with rfl | rfl
    · simp [interleavedHistory, askedFor, terminalCall]
    · simp [interleavedHistory, askedFor, terminalCall]

/-- Without the conditions the count of results and of responses can differ, and a
call without a name leaves its result alone. -/
theorem shared_identifiers_break_pairing :
    -- two responses share a call and both are answered
    (∃ messages, processEvents plainSetup (askedFor
        [terminalAction (terminalResponse "r1" ["c"]) "c",
          terminalOutput (terminalResponse "r1" ["c"]) "c",
          terminalAction (terminalResponse "r2" ["c"]) "c",
          terminalOutput (terminalResponse "r2" ["c"]) "c"]) firstRequest [] = .ok messages ∧
        resultsFor "c" messages = 2) ∧
      -- two responses share a call with one observation: the second contributes nothing
      (∃ messages, processEvents plainSetup (askedFor
        [terminalAction (terminalResponse "r1" ["c"]) "c",
          terminalOutput (terminalResponse "r1" ["c"]) "c",
          terminalAction (terminalResponse "r2" ["c"]) "c"]) firstRequest [] = .ok messages ∧
        (callersOf [terminalCall "c"] messages).length = 1) ∧
      -- a call is observed twice and its action is repeated: its response is added twice
      (∃ messages, processEvents plainSetup (askedFor
        [terminalAction (terminalResponse "r1" ["c"]) "c",
          terminalOutput (terminalResponse "r1" ["c"]) "c",
          terminalOutput (terminalResponse "r1" ["c"]) "c",
          terminalAction (terminalResponse "r1" ["c"]) "c"]) firstRequest [] = .ok messages ∧
        (callersOf [terminalCall "c"] messages).length = 2) ∧
      -- an empty identifier: the caller is dropped and its result stays
      (∃ messages, processEvents plainSetup (askedFor
        [terminalAction (terminalResponse "r1" [""]) "",
          terminalOutput (terminalResponse "r1" [""]) ""]) firstRequest [] = .ok messages ∧
        resultsFor "" messages = 1 ∧ callersOf [terminalCall ""] messages = []) ∧
      -- a response that is not by the assistant: its results are dropped
      ∃ messages, processEvents plainSetup (askedFor
        [terminalAction { terminalResponse "r1" ["c"] with role := "user" } "c",
          terminalOutput { terminalResponse "r1" ["c"] with role := "user" } "c"])
          firstRequest [] = .ok messages ∧
        resultsFor "c" messages = 0 ∧
        (callersOf [terminalCall "c"] messages).map Message.role = [.user] :=
  ⟨⟨_, rfl, by decide⟩, ⟨_, rfl, by decide⟩, ⟨_, rfl, by decide⟩, ⟨_, rfl, by decide⟩,
    ⟨_, rfl, by decide⟩⟩

end ForgePilot.ConversationMemory
