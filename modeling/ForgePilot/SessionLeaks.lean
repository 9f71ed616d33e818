import ForgePilot.StandaloneManager

/-!
# Attachments to the conversations of a single server

A conversation is in use under its count, or was let go and waits for the cleanup, and the
two tables are only touched under their lock. What the count stands for is read from the
journal of attachments and detachments: each attachment adds one, each detachment takes
one away where there is one.

The tables are kept by conversation id, and a detachment counts against whatever is in use
under the id of the conversation that is passed. The count of an id is therefore right in
every run, and the count of a conversation as long as nobody detaches one that another has
replaced.
-/

namespace ForgePilot.SessionLeaks

open Runs Processes StandaloneManager List OrderedDict Manager

/-! ## The journal -/

/-- Attachments that are open: each attachment opens one, each detachment closes one. -/
def balance (counted : ServerConversation → Bool) : List Note → Nat
  | [] => 0
  | .attached conversation :: older =>
      balance counted older + if counted conversation then 1 else 0
  | .detached conversation :: older =>
      balance counted older - if counted conversation then 1 else 0
  | .disconnected _ :: older => balance counted older

/-- The open attachments under an id. -/
abbrev attachedTo (sid : String) : List Note → Nat :=
  balance (fun conversation => conversation.sid = sid)

abbrev openOf (conversation : ServerConversation) : List Note → Nat :=
  balance (fun other => other = conversation)

variable (counted : ServerConversation → Bool) (manager : Manager) (config : Config)
  (loops : AgentLoops) (given : Given) (attachments : Attachments) (phase : Phase) (sid : String)
  (userId : Option String) (constructs : Bool) (conversation : ServerConversation)
  (older : List Note)

theorem balance_attached : balance counted (.attached conversation :: older) =
      balance counted older + if counted conversation then 1 else 0 := rfl

theorem balance_detached : balance counted (.detached conversation :: older) =
      balance counted older - if counted conversation then 1 else 0 := rfl

/-- What has happened since an id became active: after the last time no attachment to it was
open. -/
def sinceActive (sid : String) : List Note → List Note
  | [] => []
  | note :: older => if attachedTo sid (note :: older) = 0 then [] else note :: sinceActive sid older

/-- The attachments under an id among some notes. -/
def attaches (sid : String) (notes : List Note) : Nat :=
  notes.countP (fun note => match note with
    | .attached conversation => conversation.sid = sid
    | _ => false)

/-- The detachments under an id among some notes. -/
def detaches (sid : String) (notes : List Note) : Nat :=
  notes.countP (fun note => match note with
    | .detached conversation => conversation.sid = sid
    | _ => false)

/-- The open attachments under an id are the attachments without the detachments since it
became active. -/
theorem attached_since (journal : List Note) :
    attachedTo sid journal + detaches sid (sinceActive sid journal) =
      attaches sid (sinceActive sid journal) := by
  induction journal with
  | nil => rfl
  | cons note older ih =>
    unfold sinceActive
    split
    · rename_i none
      simp [none, attaches, detaches]
    rename_i some
    cases note with
    | attached conversation =>
      by_cases own : conversation.sid = sid
      · simp [attachedTo, balance, attaches, detaches, own] at ih ⊢
        omega
      · simpa [attachedTo, balance, attaches, detaches, own] using ih
    | detached conversation =>
      by_cases own : conversation.sid = sid
      · simp [attachedTo, balance, attaches, detaches, own] at ih some ⊢
        omega
      · simpa [attachedTo, balance, attaches, detaches, own] using ih
    | disconnected conversation => simpa [attachedTo, balance, attaches, detaches] using ih

/-! ## The tables -/

/-- Under an id stands a conversation of that id, in one table at most, and its count is the
number of open attachments. -/
structure CountedAt (attachments : Attachments) (sid : String) : Prop where
  active : ∀ conversation count,
    attachments.activeConversations.get sid = some (conversation, count) →
      conversation.sid = sid ∧ 0 < count
  detached : ∀ conversation time,
    attachments.detachedConversations.get sid = some (conversation, time) →
      conversation.sid = sid
  apart : attachments.activeConversations.get sid = none ∨
    attachments.detachedConversations.get sid = none
  counts : attachedTo sid attachments.journal =
    ((attachments.activeConversations.get sid).map Prod.snd).getD 0

/-- The tables are right under every id. -/
def Counted (attachments : Attachments) : Prop := ∀ sid, CountedAt attachments sid

/-- Tables that change under one id are right when they are right there. -/
theorem counted_elsewhere (before after : Attachments) (sid : String) (counted : Counted before)
    (here : CountedAt after sid)
    (elsewhere : ∀ other, other ≠ sid →
      after.activeConversations.get other = before.activeConversations.get other ∧
      after.detachedConversations.get other = before.detachedConversations.get other ∧
      attachedTo other after.journal = attachedTo other before.journal) : Counted after := by
  intro other
  by_cases same : other = sid
  · exact same ▸ here
  obtain ⟨active, detached, journal⟩ := elsewhere other same
  have prior := counted other
  exact ⟨active ▸ prior.active, detached ▸ prior.detached,
    active ▸ detached ▸ prior.apart, active ▸ journal ▸ prior.counts⟩

/-- The open attachments of a conversation are those that its table counts. -/
structure Owned (attachments : Attachments) : Prop where
  counts : ∀ conversation, openOf conversation attachments.journal =
    match attachments.activeConversations.get conversation.sid with
    | some (active, count) => if active = conversation then count else 0
    | none => 0
  unused : ∀ conversation newer older,
    attachments.journal = newer ++ .disconnected conversation :: older →
      openOf conversation older = 0

/-- A conversation of another id changes no count of this one. -/
theorem attached_other (different : sid ≠ conversation.sid) (older : List Note) :
    attachedTo sid (.attached conversation :: older) = attachedTo sid older ∧
      attachedTo sid (.detached conversation :: older) = attachedTo sid older := by
  simp [attachedTo, balance, Ne.symm different]

theorem attached_own : attachedTo conversation.sid (.attached conversation :: older) =
        attachedTo conversation.sid older + 1 ∧
      attachedTo conversation.sid (.detached conversation :: older) =
        attachedTo conversation.sid older - 1 := by
  simp [attachedTo, balance]

/-- An attachment is counted: to the conversation in use, or to one that comes into use. -/
theorem activate_counted (count : Nat) (counted : Counted attachments)
    (apart : attachments.detachedConversations.get conversation.sid = none)
    (next : count = attachedTo conversation.sid attachments.journal + 1) :
    Counted (attachments.activate conversation.sid conversation count) := by
  refine counted_elsewhere attachments _ conversation.sid counted ?_ fun other different => ?_
  · constructor
    · intro found foundCount held
      simp only [Attachments.activate, get_set, if_true, Option.some.injEq,
        Prod.mk.injEq] at held
      obtain ⟨rfl, rfl⟩ := held
      exact ⟨rfl, by omega⟩
    · exact (counted conversation.sid).detached
    · exact .inr apart
    · simp only [Attachments.activate, get_set, if_true]
      rw [(attached_own ..).1, ← next]
      rfl
  · simp only [Attachments.activate, get_set, if_neg different, true_and]
    exact (attached_other _ _ different _).1

/-- A conversation that was let go is dropped. -/
theorem drop_counted (counted : Counted attachments) : Counted { attachments with
      detachedConversations := attachments.detachedConversations.erase sid } := by
  refine counted_elsewhere _ _ sid counted ?_ fun other different => ?_
  · have before := counted sid
    refine ⟨before.active, fun conversation time held => ?_, .inr ?_, before.counts⟩
    · simp at held
    · simp
  · simp [different]

/-- A conversation is disconnected; that changes no count. -/
theorem disconnect_counted {attachments : Attachments} (counted : Counted attachments) :
    Counted (attachments.disconnect conversation) :=
  fun sid => ⟨(counted sid).active, (counted sid).detached, (counted sid).apart,
    (counted sid).counts⟩

variable {before after : Attachments}

/-- Neither the lock nor the number of constructed conversations matters. -/
theorem counted_of_tables (counted : Counted before)
    (active : after.activeConversations = before.activeConversations)
    (detached : after.detachedConversations = before.detachedConversations)
    (journal : after.journal = before.journal) : Counted after := by
  intro sid
  have prior := counted sid
  exact ⟨active ▸ prior.active, detached ▸ prior.detached, active ▸ detached ▸ prior.apart,
    active ▸ journal ▸ prior.counts⟩

/-- A detachment takes one from the count of its id; the last one moves the id to the other
table. -/
theorem detach_counted (now : Int) (counted : Counted attachments) :
    Counted (attachments.detach conversation now) := by
  have before := counted conversation.sid
  have counts := before.counts
  have own := (attached_own conversation attachments.journal).2
  have others := fun other different => (attached_other other conversation different
    attachments.journal).2
  unfold Attachments.detach
  cases found : attachments.activeConversations.get conversation.sid with
  | none =>
    refine counted_elsewhere attachments _ conversation.sid counted ?_
      fun other different => ⟨rfl, rfl, others other different⟩
    refine ⟨before.active, before.detached, before.apart, ?_⟩
    rw [found] at counts ⊢
    rw [own, counts]
    rfl
  | some entry =>
    obtain ⟨active, count⟩ := entry
    obtain ⟨activeId, positive⟩ := before.active active count found
    rw [found] at counts
    dsimp only
    split
    · refine counted_elsewhere attachments _ conversation.sid counted ?_ fun other different =>
        ⟨by simp [different], rfl, others other different⟩
      constructor
      · intro known knownCount held
        simp only [get_set, if_true, Option.some.injEq, Prod.mk.injEq] at held
        obtain ⟨rfl, rfl⟩ := held
        exact ⟨activeId, by omega⟩
      · exact before.detached
      · rcases before.apart with absent | absent
        · rw [found] at absent
          cases absent
        · exact .inr absent
      · simp only [get_set, if_true]
        rw [own, counts]
        rfl
    · refine counted_elsewhere attachments _ conversation.sid counted ?_ fun other different =>
        ⟨by simp [different], by simp [different], others other different⟩
      constructor
      · intro known knownCount held
        simp at held
      · intro known time held
        simp only [get_set, if_true, Option.some.injEq, Prod.mk.injEq] at held
        rw [held.1]
      · exact .inl (by simp)
      · simp only [get_erase, if_true]
        rw [own, counts]
        change count - 1 = 0
        omega

/-! ## Open attachments -/

/-- A note that is no disconnection adds none. -/
theorem unused_note {journal : List Note} (note : Note)
    (unused : ∀ conversation newer older, journal = newer ++ .disconnected conversation :: older →
      openOf conversation older = 0)
    (harmless : ∀ conversation, note = .disconnected conversation → openOf conversation journal = 0)
    (conversation : ServerConversation) (newer older : List Note)
    (split : note :: journal = newer ++ .disconnected conversation :: older) :
    openOf conversation older = 0 := by
  cases newer with
  | nil =>
    obtain ⟨rfl, rfl⟩ := cons.inj split
    exact harmless conversation rfl
  | cons first rest =>
    obtain ⟨-, split⟩ := cons.inj split
    exact unused conversation rest older split

theorem activate_owned {attachments : Attachments} {sid : String}
    {conversation : ServerConversation} {count : Nat} (owned : Owned attachments)
    (own : conversation.sid = sid)
    (next : (∃ before, attachments.activeConversations.get sid = some (conversation, before) ∧
        count = before + 1) ∨ attachments.activeConversations.get sid = none ∧ count = 1) :
    Owned (attachments.activate sid conversation count) := by
  constructor
  · intro other
    have before := owned.counts other
    simp only [Attachments.activate, get_set]
    rw [openOf, balance_attached]
    change openOf other attachments.journal + _ = _
    rw [before]
    by_cases same : conversation = other
    · subst same
      subst own
      rcases next with ⟨prior, found, rfl⟩ | ⟨found, rfl⟩ <;> simp [found]
    · simp only [same, decide_false, Bool.false_eq_true, if_false, Nat.add_zero]
      split_ifs with sameId
      · rcases next with ⟨prior, found, rfl⟩ | ⟨found, rfl⟩ <;> simp [sameId, found, same]
      · rfl
  · exact unused_note _ owned.unused (fun _ other => by cases other)

theorem disconnect_owned {attachments : Attachments} {conversation : ServerConversation}
    (owned : Owned attachments)
    (absent : attachments.activeConversations.get conversation.sid = none) :
    Owned (attachments.disconnect conversation) := by
  constructor
  · exact owned.counts
  · refine unused_note _ owned.unused fun other same => ?_
    cases same
    rw [owned.counts, absent]

theorem detach_owned {attachments : Attachments} (now : Int) (owned : Owned attachments)
    (own : ∀ active count,
      attachments.activeConversations.get conversation.sid = some (active, count) →
        active = conversation) : Owned (attachments.detach conversation now) := by
  have unused := unused_note (.detached conversation) owned.unused
    (fun _ other => by cases other)
  have prior : ∀ other, openOf other (.detached conversation :: attachments.journal) =
      openOf other attachments.journal - if conversation = other then 1 else 0 := by
    intro other
    rw [openOf, balance_detached]
    simp
  unfold Attachments.detach
  cases found : attachments.activeConversations.get conversation.sid with
  | none =>
    refine ⟨fun other => ?_, unused⟩
    rw [prior, owned.counts]
    by_cases same : conversation = other
    · subst same
      simp [found]
    · simp [same]
  | some entry =>
    obtain ⟨active, count⟩ := entry
    obtain rfl := own active count found
    dsimp only
    split
    · refine ⟨fun other => ?_, unused⟩
      rw [prior, owned.counts]
      by_cases same : active = other
      · subst same
        simp [found]
      · by_cases sameId : other.sid = active.sid <;> simp [same, sameId, found]
    · refine ⟨fun other => ?_, unused⟩
      rw [prior, owned.counts]
      by_cases same : active = other
      · subst same
        simp [found]
        omega
      · by_cases sameId : other.sid = active.sid <;> simp [same, sameId, found]

/-! ## The lock -/

/-- A coroutine holds the lock. -/
def Holds : Phase → Prop
  | .connecting _ => True
  | .sweeping .. => True
  | _ => False

/-- Conversations that were let go and are still to be disconnected. -/
def Pending (attachments : Attachments) (items : List (String × ServerConversation × Int)) : Prop :=
  (items.map Prod.fst).Nodup ∧
    ∀ item ∈ items, attachments.detachedConversations.get item.1 = some item.2

/-- What a coroutine that holds the lock relies on: nobody else touches the tables. -/
def Relies (attachments : Attachments) : Phase → Prop
  | .connecting conversation =>
      attachments.locked = true ∧
        attachments.activeConversations.get conversation.sid = none ∧
        attachments.detachedConversations.get conversation.sid = none
  | .sweeping sid conversation detachTime rest =>
      attachments.locked = true ∧ Pending attachments ((sid, conversation, detachTime) :: rest)
  | _ => True

theorem relies_of_free (free : ¬ Holds phase) : Relies attachments phase := by
  cases phase with
  | connecting conversation => exact absurd trivial free
  | sweeping sid conversation detachTime rest => exact absurd trivial free
  | _ => exact trivial

theorem locked_of_holds (holds : Holds phase) (relies : Relies attachments phase) :
    attachments.locked = true := by
  cases phase with
  | connecting conversation => exact relies.1
  | sweeping sid conversation detachTime rest => exact relies.1
  | _ => exact holds.elim

/-- Where a step ends, when it ends at a call that suspends it. -/
def stops (waits : Phase → Prop) : Turn → Prop
  | .suspended phase => waits phase
  | .creating _ _ => True

theorem closed_free (closing : Closing) : ¬ Holds (closed closing) := by
  cases closing <;> exact id

theorem evict_free (conversations : List ConversationMetadata) :
    stops (fun phase => ¬ Holds phase) (evict config sid userId conversations) := by
  unfold evict
  split
  · split <;> exact id
  · exact trivial

theorem evicted_free (rest : List ConversationMetadata) (closing : Closing) :
    stops (fun phase => ¬ Holds phase) (evicted config sid userId rest closing) := by
  cases closing with
  | closed => exact evict_free ..
  | _ => exact id

theorem maybe_start_free :
    stops (fun phase => ¬ Holds phase) (maybeStartAgentLoop config loops sid userId) := by
  unfold maybeStartAgentLoop
  split
  · exact id
  · split
    · exact id
    · exact trivial

theorem prune_free : ¬ Holds (loops.prune config given) := by
  unfold AgentLoops.prune
  split
  · exact id
  · split <;> exact id

theorem close_all_free (tasks : List Closing) : ¬ Holds (loops.closeAll given tasks).2 := by
  unfold AgentLoops.closeAll
  split
  · exact id
  split
  · exact id
  · dsimp only
    split <;> exact id

theorem begin_free (request : Request) :
    (manager.begin config request).1.attachments = manager.attachments ∧
      stops (fun phase => ¬ Holds phase) (manager.begin config request).2 := by
  cases request with
  | maybeStartAgentLoop sid userId => exact ⟨rfl, maybe_start_free ..⟩
  | closeSession sid => exact ⟨rfl, closed_free _⟩
  | _ => exact ⟨rfl, id⟩

/-- A coroutine is about to look at the tables, with the lock or without. -/
def Touches : Phase → Prop
  | .admitting _ _ => True
  | .releasing _ => True
  | .waking => True
  | phase => Holds phase

/-- The other steps leave the tables alone and do not take the lock. -/
theorem resume_untouched (elsewhere : ¬ Touches phase) :
    (manager.resume config given phase).1.attachments = manager.attachments ∧
      stops (fun phase => ¬ Holds phase) (manager.resume config given phase).2 := by
  cases phase with
  | idle =>
    simp only [resume]
    split
    · exact ⟨rfl, id⟩
    · exact begin_free ..
  | entering sid connectionId userId =>
    simp only [resume]
    split
    · exact ⟨rfl, id⟩
    · exact ⟨rfl, maybe_start_free ..⟩
  | listing sid userId responseIds =>
    rw [resume]
    split
    · exact ⟨rfl, id⟩
    · exact ⟨rfl, evict_free ..⟩
  | notifying sid userId oldest rest =>
    simp only [resume]
    split
    · exact ⟨rfl, id⟩
    · exact ⟨rfl, evicted_free ..⟩
  | evicting sid userId rest closing => exact ⟨rfl, evicted_free ..⟩
  | closing closing => exact ⟨rfl, closed_free _⟩
  | finding sid userId =>
    rw [resume]
    split
    · exact ⟨rfl, id⟩
    · split <;> exact ⟨rfl, id⟩
  | closingAll tasks => exact ⟨rfl, close_all_free _ _ _⟩
  | sleeping =>
    refine ⟨rfl, ?_⟩
    by_cases goesOn : given.shouldContinue = true <;> simp [resume, goesOn, stops, Holds]
  | answered answer => exact ⟨rfl, id⟩
  | _ => exact absurd trivial elsewhere

/-- A step of a coroutine that does not hold the lock while another does leaves the tables
alone. -/
theorem resume_free (locked : manager.attachments.locked = true) (free : ¬ Holds phase) :
    (manager.resume config given phase).1.attachments = manager.attachments ∧
      stops (fun phase => ¬ Holds phase) (manager.resume config given phase).2 := by
  cases phase with
  | admitting sid userId =>
    rw [resume, if_pos locked]
    exact ⟨rfl, id⟩
  | releasing conversation =>
    rw [resume, if_pos locked]
    exact ⟨rfl, id⟩
  | waking =>
    rw [resume, if_pos locked]
    exact ⟨rfl, id⟩
  | _ => exact resume_untouched _ _ _ _ free

/-! ## One step -/

/-- An attachment that has the lock counts the conversation it finds, or goes on to connect a
new one. -/
theorem attach_counted (counted : Counted manager.attachments) :
    Counted (manager.attach sid userId constructs).1 ∧
      Relies (manager.attach sid userId constructs).1 (manager.attach sid userId constructs).2 := by
  have here := counted sid
  have counts := here.counts
  cases active : manager.attachments.activeConversations.get sid with
  | some entry =>
    obtain ⟨conversation, count⟩ := entry
    obtain ⟨rfl, -⟩ := here.active conversation count active
    rw [active] at counts
    change _ = count at counts
    simp only [Manager.attach, active]
    refine ⟨activate_counted _ _ _ counted ?_ ?_, trivial⟩
    · rcases here.apart with absent | absent
      · rw [active] at absent
        cases absent
      · exact absent
    · rw [counts]
  | none =>
    rw [active] at counts
    cases detached : manager.attachments.detachedConversations.get sid with
    | some entry =>
      obtain ⟨conversation, time⟩ := entry
      obtain rfl := here.detached conversation time detached
      simp only [Manager.attach, active, detached]
      refine ⟨activate_counted _ _ 1 (drop_counted _ _ counted) ?_ ?_, trivial⟩
      · simp
      · exact (congrArg (· + 1) counts).symm
    | none =>
      simp only [Manager.attach, active, detached]
      split
      · exact ⟨counted_of_tables counted rfl rfl rfl, rfl, active, detached⟩
      · exact ⟨counted, trivial⟩

theorem connected_counted {attachments : Attachments} {conversation : ServerConversation}
    (counted : Counted attachments) (relies : Relies attachments (.connecting conversation)) :
    Counted (attachments.connected conversation given).1 ∧
      Relies (attachments.connected conversation given).1
        (attachments.connected conversation given).2 := by
  obtain ⟨-, active, detached⟩ := relies
  have counts := (counted conversation.sid).counts
  rw [active] at counts
  unfold Attachments.connected
  split
  · exact ⟨counted_of_tables (disconnect_counted _ counted) rfl rfl rfl, trivial⟩
  split
  · exact ⟨counted_of_tables counted rfl rfl rfl, trivial⟩
  · exact ⟨counted_of_tables (activate_counted _ _ 1 counted detached
      (congrArg (· + 1) counts).symm) rfl rfl rfl, trivial⟩

/-- The cleanup goes on with what is pending. -/
theorem sweep_counted {manager : Manager} {items : List (String × ServerConversation × Int)}
    (counted : Counted manager.attachments) (locked : manager.attachments.locked = true)
    (pending : Pending manager.attachments items) :
    Counted (manager.sweep config given items).1.attachments ∧
      Relies (manager.sweep config given items).1.attachments
        (manager.sweep config given items).2 := by
  cases items with
  | nil =>
    exact ⟨counted_of_tables counted rfl rfl rfl, relies_of_free _ _ (prune_free _ _ _)⟩
  | cons item rest => exact ⟨counted, locked, pending⟩

variable {rest : List (String × ServerConversation × Int)}

/-- What is dropped is not pending any more, and the rest still is. -/
theorem pending_rest {attachments : Attachments} {item : String × ServerConversation × Int}
    (pending : Pending attachments (item :: rest)) :
    Pending { attachments with
      detachedConversations := attachments.detachedConversations.erase item.1 } rest := by
  obtain ⟨distinct, found⟩ := pending
  rw [map_cons, nodup_cons] at distinct
  refine ⟨distinct.2, fun other listed => ?_⟩
  rw [get_erase, if_neg]
  · exact found other (.tail _ listed)
  · exact fun same => distinct.1 (same ▸ mem_map_of_mem listed)

theorem swept_counted {manager : Manager} {sid : String} {conversation : ServerConversation}
    {detachTime : Int} (counted : Counted manager.attachments)
    (relies : Relies manager.attachments (.sweeping sid conversation detachTime rest)) :
    Counted (manager.swept config given sid conversation rest).1.attachments ∧
      Relies (manager.swept config given sid conversation rest).1.attachments
        (manager.swept config given sid conversation rest).2 := by
  obtain ⟨locked, pending⟩ := relies
  have disconnected := disconnect_counted conversation counted
  unfold swept
  split
  · exact ⟨counted_of_tables disconnected rfl rfl rfl, trivial⟩
  · exact sweep_counted _ _ (drop_counted _ sid disconnected) locked
      (pending_rest pending)

/-- All that was let go is pending when the cleanup takes the lock. -/
theorem pending_entries : Pending attachments.lock attachments.detachedConversations.entries :=
  ⟨attachments.detachedConversations.distinct, fun _ listed =>
    (get_eq_some_iff ..).mpr listed⟩

/-- What is left alone stays right, and the coroutine relies on nothing. -/
theorem untouched_counted {turn : Turn} (counted : Counted before)
    (untouched : after = before ∧ stops (fun phase => ¬ Holds phase) turn) :
    Counted after ∧ stops (Relies after) turn := by
  obtain ⟨rfl, free⟩ := untouched
  refine ⟨counted, ?_⟩
  cases turn with
  | suspended next => exact relies_of_free _ _ free
  | creating sid userId => exact trivial

/-- A step keeps the tables right, and leaves its coroutine with what that relies on. -/
theorem resume_counted (counted : Counted manager.attachments)
    (relies : Relies manager.attachments phase) :
    Counted (manager.resume config given phase).1.attachments ∧
      stops (Relies (manager.resume config given phase).1.attachments)
        (manager.resume config given phase).2 := by
  cases phase with
  | admitting sid userId =>
    rw [resume]
    split
    · exact ⟨counted, trivial⟩
    · exact attach_counted _ sid _ _ counted
  | connecting conversation => exact connected_counted _ counted relies
  | releasing conversation =>
    rw [resume]
    split
    · exact ⟨counted, trivial⟩
    · exact ⟨detach_counted _ _ _ counted, trivial⟩
  | waking =>
    rw [resume]
    split
    · exact ⟨counted, trivial⟩
    · exact sweep_counted _ _
        (counted_of_tables counted rfl rfl rfl) rfl
        (pending_entries ..)
  | sweeping sid conversation detachTime rest => exact swept_counted _ _ counted relies
  | _ => exact untouched_counted counted (resume_untouched _ _ _ _ id)

/-- The creation of a session leaves the tables alone and ends the coroutine. -/
theorem settle_attachments (turn : Turn) :
    (manager.settle constructs turn).1.attachments = manager.attachments := by
  cases turn with
  | suspended phase => rfl
  | creating sid userId =>
    simp only [settle]
    split <;> rfl

theorem settle_phase {turn : Turn} {waits : Phase → Prop} (ends : stops waits turn)
    (answered : ∀ answer, waits (.answered answer)) : waits (manager.settle constructs turn).2 := by
  cases turn with
  | suspended phase => exact ends
  | creating sid userId =>
    simp only [settle]
    split <;> exact answered _

variable {ρ : Type}

theorem move_attachments (config : Config) (name : ρ) (manager : Manager) (phase : Phase)
    (given : Given) : (move config name manager phase given).1.attachments =
      (manager.resume config given phase).1.attachments := settle_attachments _ _ _

/-- The lock is held by one coroutine at most. -/
def Exclusive (first second : Phase) : Prop := ¬ (Holds first ∧ Holds second)

theorem initial_sound : Sound (fun manager => Counted manager.attachments)
    (fun _ manager => Relies manager.attachments) Exclusive (initial : World Manager ρ Phase) where
  common := fun _ => ⟨nofun, nofun, .inl rfl, rfl⟩
  relied := fun _ => trivial
  apart := fun _ _ _ => fun both => both.1.elim

variable [DecidableEq ρ]

variable {world : World Manager ρ Phase}

/-- The tables are right in every run, and the lock protects them. -/
theorem sound_step (label : ρ × Given) (sound : Sound (fun manager => Counted manager.attachments)
      (fun _ manager => Relies manager.attachments) Exclusive world) :
    Sound (fun manager => Counted manager.attachments)
      (fun _ manager => Relies manager.attachments) Exclusive (step config world label) := by
  refine advance_sound (fun _ _ _ _ => True) _ ?_ ?_ ?_ sound
    trivial
  · exact fun first second exclusive both => exclusive both.symm
  · intro name manager phase given counted relies _
    obtain ⟨after, waits⟩ := resume_counted _ _ _ _ counted relies
    rw [move_attachments]
    exact ⟨after, settle_phase _ _ waits fun _ => trivial⟩
  · intro name other manager phase otherPhase given _ counted relies otherRelies exclusive _
    by_cases holds : Holds otherPhase
    · have locked := locked_of_holds _ _ holds otherRelies
      obtain ⟨same, free⟩ := resume_free _ _ _ _ locked
        fun also => exclusive ⟨also, holds⟩
      rw [move_attachments, same]
      exact ⟨otherRelies, fun both => settle_phase _ _ free (fun _ => id)
        both.1⟩
    · exact ⟨relies_of_free _ _ holds, fun both => holds both.2⟩

/-! ## Conversations that are detached by those who attached them -/

/-- What is detached is in use, when anything is in use under its id. -/
def DetachesOwn (_config : Config) (_name : ρ) (manager : Manager) (phase : Phase)
    (_given : Given) : Prop :=
  match phase with
  | .releasing conversation =>
      manager.attachments.locked = true ∨
        match manager.attachments.activeConversations.get conversation.sid with
        | some (active, _) => active = conversation
        | none => True
  | _ => True

omit [DecidableEq ρ] in
instance (config : Config) (name : ρ) (manager : Manager) (phase : Phase) (given : Given) :
    Decidable (DetachesOwn config name manager phase given) := by
  unfold DetachesOwn
  split
  · exact @instDecidableOr _ _ inferInstance (by split <;> infer_instance)
  · infer_instance

/-- Open attachments depend on the tables in use and on the journal. -/
theorem owned_of_tables (owned : Owned before)
    (active : after.activeConversations = before.activeConversations)
    (journal : after.journal = before.journal) : Owned after :=
  ⟨active ▸ journal ▸ owned.counts, journal ▸ owned.unused⟩

theorem attach_owned (counted : Counted manager.attachments) (owned : Owned manager.attachments) :
    Owned (manager.attach sid userId constructs).1 := by
  have here := counted sid
  cases active : manager.attachments.activeConversations.get sid with
  | some entry =>
    obtain ⟨conversation, count⟩ := entry
    simp only [Manager.attach, active]
    exact activate_owned owned
      (here.active conversation count active).1 (.inl ⟨count, active, rfl⟩)
  | none =>
    cases detached : manager.attachments.detachedConversations.get sid with
    | some entry =>
      obtain ⟨conversation, time⟩ := entry
      simp only [Manager.attach, active, detached]
      exact activate_owned (owned_of_tables owned rfl rfl)
        (here.detached conversation time detached) (.inr ⟨active, rfl⟩)
    | none =>
      simp only [Manager.attach, active, detached]
      split
      · exact owned_of_tables owned rfl rfl
      · exact owned

theorem connected_owned {attachments : Attachments} {conversation : ServerConversation}
    (owned : Owned attachments)
    (absent : attachments.activeConversations.get conversation.sid = none) :
    Owned (attachments.connected conversation given).1 := by
  unfold Attachments.connected
  split
  · exact owned_of_tables (disconnect_owned owned absent) rfl rfl
  split
  · exact owned_of_tables owned rfl rfl
  · exact owned_of_tables (activate_owned owned
      rfl (.inr ⟨absent, rfl⟩)) rfl rfl

theorem sweep_owned (items : List (String × ServerConversation × Int))
    (owned : Owned manager.attachments) :
    Owned (manager.sweep config given items).1.attachments := by
  cases items with
  | nil => exact owned_of_tables owned rfl rfl
  | cons item rest => exact owned

/-- What was let go is not in use when the cleanup disconnects it. -/
theorem swept_owned {manager : Manager} {sid : String} {conversation : ServerConversation}
    {detachTime : Int} (counted : Counted manager.attachments)
    (relies : Relies manager.attachments (.sweeping sid conversation detachTime rest))
    (owned : Owned manager.attachments) :
    Owned (manager.swept config given sid conversation rest).1.attachments := by
  obtain ⟨-, -, found⟩ := relies
  have detached := found (sid, conversation, detachTime) (.head _)
  obtain rfl := (counted sid).detached conversation detachTime detached
  have absent : manager.attachments.activeConversations.get conversation.sid = none := by
    rcases (counted conversation.sid).apart with absent | absent
    · exact absent
    · rw [detached] at absent
      cases absent
  have disconnected := disconnect_owned owned absent
  unfold swept
  split
  · exact owned_of_tables disconnected rfl rfl
  · exact sweep_owned _ _ _ _ (owned_of_tables disconnected rfl rfl)

omit [DecidableEq ρ] in
/-- A step keeps the open attachments of each conversation, when what it detaches is in use. -/
theorem resume_owned {config : Config} {name : ρ} {manager : Manager} {phase : Phase}
    {given : Given} (counted : Counted manager.attachments)
    (relies : Relies manager.attachments phase) (owned : Owned manager.attachments)
    (own : DetachesOwn config name manager phase given) :
    Owned (manager.resume config given phase).1.attachments := by
  cases phase with
  | admitting sid userId =>
    rw [resume]
    split
    · exact owned
    · exact attach_owned _ sid _ _ counted owned
  | connecting conversation => exact connected_owned _ owned relies.2.1
  | releasing conversation =>
    rw [resume]
    split
    · exact owned
    rename_i unlocked
    refine detach_owned _ _ owned ?_
    intro active count found
    rcases own with locked | own
    · exact absurd locked unlocked
    · rw [found] at own
      exact own
  | waking =>
    rw [resume]
    split
    · exact owned
    · exact sweep_owned _ _ _ _ (owned_of_tables owned rfl rfl)
  | sweeping sid conversation detachTime rest => exact swept_owned _ _ counted relies owned
  | _ =>
    rw [(resume_untouched _ _ _ _ id).1]
    exact owned

theorem initial_owned : Owned Manager.new.attachments where
  counts := fun _ => rfl
  unused := fun _ newer _ split => by cases newer <;> cases split

/-! ## Runs -/

/-- Each id is in one table at most; its count is the number of attachments without that of
detachments since it became active. -/
def CountsAttachments (attachments : Attachments) : Prop :=
  ∀ sid,
    (attachments.activeConversations.get sid = none ∨
      attachments.detachedConversations.get sid = none) ∧
    (∀ conversation count,
      attachments.activeConversations.get sid = some (conversation, count) →
        (count : Int) = attaches sid (sinceActive sid attachments.journal) -
          detaches sid (sinceActive sid attachments.journal))

/-- A conversation was never disconnected while an attachment to it was open. -/
def DisconnectsUnused (attachments : Attachments) : Prop :=
  ∀ conversation newer older, attachments.journal = newer ++ .disconnected conversation :: older →
    openOf conversation older = 0

theorem counts_attachments (counted : Counted attachments) : CountsAttachments attachments := by
  intro sid
  refine ⟨(counted sid).apart, fun conversation count found => ?_⟩
  have counts := (counted sid).counts
  have since := attached_since sid attachments.journal
  rw [found] at counts
  change _ = count at counts
  omega

variable {labels : List (ρ × Given)}

theorem counts_run {config : Config} (reached : Reached (step config) initial labels world) :
    Sound (fun manager => Counted manager.attachments)
      (fun _ manager => Relies manager.attachments) Exclusive world :=
  invariant_along _ (fun _ _ => True) _
    (fun _ _ sound _ => sound_step _ _ sound) _ _ initial_sound
    (along_of_forall _ (fun _ _ => trivial) _ _) _ reached

/-- Along a run whose detachments are of conversations in use, disconnections are of unused
ones. -/
theorem owned_run {config : Config}
    (own : Along (step config) (Assuming (DetachesOwn config)) initial labels)
    (reached : Reached (step config) initial labels world) : Owned world.shared.attachments := by
  refine (invariant_along _ _
    (fun world : World Manager ρ Phase => Sound (fun manager => Counted manager.attachments)
      (fun _ manager => Relies manager.attachments) Exclusive world ∧
        Owned world.shared.attachments) ?_ _ _ ⟨initial_sound, initial_owned⟩ own _
    reached).2
  rintro world ⟨name, given⟩ ⟨sound, owned⟩ met
  refine ⟨sound_step _ _ sound, ?_⟩
  change Owned (move config name world.shared (world.phases name) given).1.attachments
  rw [move_attachments]
  exact resume_owned sound.common
    (sound.relied name) owned met

/-- In every run, each id is in one table at most and its count is that of its attachments.
Every session that is not being closed is the registered one, in a whole run, exactly when
the run creates sessions only where none is registered. Conversations are disconnected only
when no attachment to them is open, when what is detached under an id in use is what is in
use. -/
theorem manager_leaks_none (config : Config) (labels : List (ρ × Given)) :
    ((∀ world, Reached (step config) initial labels world →
        world.shared.loops.Registered ∧ world.shared.loops.SingleLoop) ↔
      Along (step config) (Assuming (CreatesUnregistered config)) initial labels) ∧
    (∀ world, Reached (step config) initial labels world →
      CountsAttachments world.shared.attachments) ∧
    (Along (step config) (Assuming (DetachesOwn config)) initial labels →
      ∀ world, Reached (step config) initial labels world →
        DisconnectsUnused world.shared.attachments) := by
  refine ⟨?_, ?_, ?_⟩
  · rw [← registered_exact]
    constructor
    · exact fun both world reached => (both world reached).1
    · exact fun registered world reached =>
        ⟨registered world reached, registered_single _ (registered world reached)⟩
  · exact fun world reached => counts_attachments _ (counts_run reached).common
  · exact fun own world reached => (owned_run own reached).unused

/-- Conversation `b` is started twice while the limit is reached: both starts wait for the
store and close conversation `a`, and both register. -/
def startedTwice : List (Nat × Given) :=
  [(0, { request := some (.maybeStartAgentLoop "a" (some "user")) }),
    (1, { request := some (.maybeStartAgentLoop "b" (some "user")) }),
    (2, { request := some (.maybeStartAgentLoop "b" (some "user")) }),
    (1, { metadata := [⟨"a", some 5⟩] }), (1, .returned), (1, .returned),
    (2, { metadata := [⟨"a", some 5⟩] }), (2, .returned)]

/-- The first conversation that is constructed. -/
def replaced : ServerConversation := ⟨0, "a", none, none⟩

/-- The conversation that is constructed once the first one was cleaned up. -/
def replacing : ServerConversation := ⟨1, "a", none, none⟩

/-- Attach to conversation `a`, which has to connect first. -/
def attachedNew (name : Nat) : List (Nat × Given) :=
  [(name, { request := some (.attachToConversation "a" none) }), (name, .returned),
    (name, .returned), (name, .returned)]

def detachedBy (name : Nat) (conversation : ServerConversation) : List (Nat × Given) :=
  [(name, { request := some (.detachFromConversation conversation) }), (name, .returned)]

def cleanedUp (name : Nat) : List (Nat × Given) :=
  [(name, { request := some .cleanupStale }), (name, .returned), (name, .returned)]

/-- A conversation that was detached and replaced is detached again while its replacement is
attached twice. -/
def detachedTwice : List (Nat × Given) :=
  attachedNew 0 ++ detachedBy 1 replaced ++ cleanedUp 2 ++ attachedNew 3 ++
    [(4, { request := some (.attachToConversation "a" none) }), (4, .returned), (4, .returned)] ++
    detachedBy 5 replaced ++ detachedBy 6 replacing ++ cleanedUp 7

/-- Two starts of one conversation leave two sessions that are not being closed, and a
conversation is disconnected although one of its two attachments is open. -/
theorem started_twice_overwritten :
    (¬ (run (step ⟨1, 0⟩) initial startedTwice).shared.loops.Registered ∧
      ¬ (run (step ⟨1, 0⟩) initial startedTwice).shared.loops.SingleLoop) ∧
    ¬ DisconnectsUnused (run (step ⟨1, 0⟩) initial detachedTwice).shared.attachments := by
  refine ⟨⟨?_, ?_⟩, ?_⟩
  · unfold AgentLoops.Registered
    decide +kernel
  · unfold AgentLoops.SingleLoop
    decide +kernel
  · intro unused
    have opened := unused replacing []
      [.detached replacing, .detached replaced, .attached replacing, .attached replacing,
        .disconnected replaced, .detached replaced, .attached replaced] (by decide +kernel)
    revert opened
    decide +kernel

/-- A conversation is started, attached, detached and cleaned up, and another one is started
in its place. -/
def usedOnce : List (Nat × Given) :=
  [(0, { request := some (.maybeStartAgentLoop "a" (some "user")) })] ++ attachedNew 1 ++
    detachedBy 2 ⟨0, "a", none, some ⟨0, "a", some "user"⟩⟩ ++ cleanedUp 3 ++
    [(4, { request := some (.maybeStartAgentLoop "b" (some "user")) }),
      (4, { metadata := [⟨"a", some 5⟩] }), (4, .returned), (4, .returned)]

theorem manager_leaks_none_used_once : ((∀ world, Reached (step ⟨1, 0⟩) initial usedOnce world →
        world.shared.loops.Registered ∧ world.shared.loops.SingleLoop) ∧
      ∀ world, Reached (step ⟨1, 0⟩) initial usedOnce world →
        DisconnectsUnused world.shared.attachments) ∧
    (run (step ⟨1, 0⟩) initial usedOnce).shared.loops.localAgentLoopsBySid.get "b" =
      some ⟨1, "b", some "user"⟩ ∧
    (run (step ⟨1, 0⟩) initial usedOnce).shared.attachments.journal.length = 3 :=
  ⟨⟨(manager_leaks_none ..).1.mpr (by decide +kernel),
      (manager_leaks_none ..).2.2 (by decide +kernel)⟩,
    by decide +kernel, by decide +kernel⟩

end ForgePilot.SessionLeaks
