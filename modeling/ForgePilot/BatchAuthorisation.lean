import ForgePilot.EventWebhook
import Mathlib.Data.List.Induction

/-!
# Authorisation of batches

Every effect of a batch should be authorised by the conversation its operation
names, be performed for the owner of that conversation, write below its directory
only, and be the effect of the single request. The contract holds exactly for
orderly batches, in which no write acts on a conversation with another key right
after a write to it, no write needs the user after a detour to a conversation
without a key, and no event leaves its directory.

The proof keeps track of what the loop remembers: the last conversation that could
be looked up, and its owner unless there was a detour since.
-/

namespace ForgePilot.EventWebhook

open FileStores Characters List

variable {ι : Type} (server : Server ι)

/-! ## The contract -/

/-- A conversation belongs to a user and has the supplied session key. -/
def Authorised (supplied conversationId userId : String) : Prop :=
  server.getUserId conversationId = some userId ∧
    server.getSessionApiKey userId conversationId = some (some supplied)

/-- An effect is authorised by the conversation its operation names, performed for
its owner, and writes below its directory only. -/
def Permitted (supplied : String) (operation : BatchOperation) (effect : Effect ι) : Prop :=
  ∃ conversationId subpath userId,
    parseConversationIdAndSubpath operation.path = some (conversationId, subpath) ∧
    Authorised server supplied conversationId userId ∧
    effect.conversationId = conversationId ∧
    (∀ user, effect.userId? = some user → user = userId) ∧
    ∀ file ∈ effect.files,
      Below server.fileStore (getConversationDir conversationId userId) file

/-- Every effect of a batch is permitted, and apart from statistics the effects are
those of the single requests, in order. -/
def Conforms (supplied : String) (batchOps : List BatchOperation) : Prop :=
  (∀ entry ∈ processBatchOperationsBackground server batchOps (some supplied),
    Permitted server supplied entry.1 entry.2) ∧
  ((processBatchOperationsBackground server batchOps (some supplied)).map Prod.snd).filter
    Effect.isShared = batchOps.flatMap (sendSeparately server (some supplied))

/-! ## The condition on the batch -/

def Addresses (operation : BatchOperation) (conversationId subpath : String) : Prop :=
  operation.method = .post ∧
    parseConversationIdAndSubpath operation.path = some (conversationId, subpath)

/-- Owner and session key of a conversation can be looked up. -/
def Known (conversationId : String) : Prop :=
  ∃ userId sessionApiKey, server.getUserId conversationId = some userId ∧
    server.getSessionApiKey userId conversationId = some sessionApiKey

/-- The owner of a conversation can be looked up, but not its session key. -/
def Keyless (conversationId userId : String) : Prop :=
  server.getUserId conversationId = some userId ∧
    server.getSessionApiKey userId conversationId = none

/-- An operation has contents for what its subpath asks for. -/
def Acts (operation : BatchOperation) (subpath : String) : Prop :=
  ((subpath = "agent_state.pkl" ∨ subpath = "conversation_stats.pkl") ∧
    getContent server operation ≠ none) ∨
  ((subpath = "metadata.json" ∨ startsWith subpath "events/" = true) ∧
    getContentJson server operation ≠ none)

/-- The last write to a known conversation was to this one. -/
def Revisits (earlier : List BatchOperation) (conversationId : String) : Prop :=
  ∃ front operation between subpath, earlier = front ++ operation :: between ∧
    Addresses operation conversationId subpath ∧ Known server conversationId ∧
    ∀ other ∈ between, ∀ otherId otherPath, Addresses other otherId otherPath →
      Known server otherId → otherId = conversationId

/-- Since the last write to a known conversation, which was to this one, the last
write to another conversation with an owner was to one of another owner and
without a key. -/
def Strays (earlier : List BatchOperation) (conversationId : String) : Prop :=
  ∃ front operation between otherId otherPath userId, earlier = front ++ operation :: between ∧
    Revisits server front conversationId ∧ Addresses operation otherId otherPath ∧
    Keyless server otherId userId ∧ server.getUserId conversationId ≠ some userId ∧
    ∀ other ∈ between, ∀ laterId laterPath, Addresses other laterId laterPath →
      laterId = conversationId ∨ server.getUserId laterId = none

/-- Every write that acts does so on a conversation with the supplied key when it
follows another write to it, not after straying when it needs the user, and does
not leave the directory. -/
def Orderly (supplied : String) (batchOps : List BatchOperation) : Prop :=
  ∀ earlier operation later conversationId subpath,
    batchOps = earlier ++ operation :: later → Addresses operation conversationId subpath →
    Acts server operation subpath →
    (Revisits server earlier conversationId →
      (∃ userId, Authorised server supplied conversationId userId) ∧
      (subpath ≠ "metadata.json" → ¬Strays server earlier conversationId)) ∧
    (∀ userId, Authorised server supplied conversationId userId →
      startsWith subpath "events/" = true →
      StaysBelow server.fileStore (getConversationDir conversationId userId) subpath)

/-! ## What the loop remembers -/

variable (userId : String) {supplied : String} (xSessionApiKey : Option String)
  (prior : List BatchOperation) (state : LoopState) (conversationId subpath : String)
  {op : BatchOperation}

/-- The conversation and the subpath of a write are determined by it. -/
theorem addresses_unique {first second : String × String}
    (one : Addresses op first.1 first.2) (two : Addresses op second.1 second.2) :
    first = second :=
  Option.some.inj (one.2.symm.trans two.2)

/-- An element of an extended list is the last one or an element of the list. -/
theorem append_singleton_split {α : Type} (prior front between : List α) (last element : α) :
    prior ++ [last] = front ++ element :: between ↔
      (prior = front ∧ last = element ∧ between = []) ∨
      ∃ inner, between = inner ++ [last] ∧ prior = front ++ element :: inner := by
  constructor
  · intro split
    rcases eq_nil_or_concat between with rfl | ⟨inner, final, rfl⟩
    · obtain ⟨same, ends⟩ := append_inj' split rfl
      exact .inl ⟨same, by simpa using ends, rfl⟩
    rw [concat_eq_append, ← cons_append, ← append_assoc] at split
    obtain ⟨same, ends⟩ := append_inj' split rfl
    obtain rfl : last = final := by simpa using ends
    exact .inr ⟨inner, by simp, same⟩
  · rintro (⟨rfl, rfl, rfl⟩ | ⟨inner, rfl, rfl⟩)
    · rfl
    · simp

/-- Revisiting after one more operation. -/
theorem revisits_append (op : BatchOperation) (conversationId : String) :
    Revisits server (prior ++ [op]) conversationId ↔
      (Known server conversationId ∧ ∃ subpath, Addresses op conversationId subpath) ∨
      (Revisits server prior conversationId ∧ ∀ otherId otherPath,
        Addresses op otherId otherPath → Known server otherId → otherId = conversationId) := by
  constructor
  · rintro ⟨front, visit, between, subpath, split, addressed, known, others⟩
    rcases (append_singleton_split ..).mp split with
      ⟨_, rfl, _⟩ | ⟨inner, rfl, rfl⟩
    · exact .inl ⟨known, subpath, addressed⟩
    · refine .inr ⟨⟨front, visit, inner, subpath, rfl, addressed, known, ?_⟩, ?_⟩
      · exact fun other member => others other (mem_append_left _ member)
      · exact fun otherId otherPath => others op (by simp) otherId otherPath
  · rintro (⟨known, subpath, addressed⟩ | ⟨visited, last⟩)
    · exact ⟨prior, op, [], subpath, rfl, addressed, known, by simp⟩
    · obtain ⟨front, visit, between, subpath, rfl, addressed, known, others⟩ := visited
      refine ⟨front, visit, between ++ [op], subpath, by simp, addressed, known, ?_⟩
      exact forall_mem_append.mpr ⟨others, forall_mem_singleton.mpr last⟩

/-- Straying after one more operation. -/
theorem strays_append (op : BatchOperation) (conversationId : String) :
    Strays server (prior ++ [op]) conversationId ↔
      (Revisits server prior conversationId ∧ ∃ otherId otherPath userId,
        Addresses op otherId otherPath ∧ Keyless server otherId userId ∧
        server.getUserId conversationId ≠ some userId) ∨
      (Strays server prior conversationId ∧ ∀ laterId laterPath, Addresses op laterId laterPath →
          laterId = conversationId ∨ server.getUserId laterId = none) := by
  constructor
  · rintro ⟨front, detour, between, otherId, otherPath, userId, split, visited, addressed, keyless,
      differs, others⟩
    rcases (append_singleton_split ..).mp split with
      ⟨rfl, rfl, _⟩ | ⟨inner, rfl, rfl⟩
    · exact .inl ⟨visited, otherId, otherPath, userId, addressed, keyless, differs⟩
    refine .inr ⟨⟨front, detour, inner, otherId, otherPath, userId, rfl, visited, addressed,
      keyless, differs, ?_⟩, ?_⟩
    · exact fun other member => others other (mem_append_left _ member)
    · exact fun laterId laterPath => others op (by simp) laterId laterPath
  · rintro (⟨visited, otherId, otherPath, userId, addressed, keyless, differs⟩ | ⟨strayed, last⟩)
    · exact ⟨prior, op, [], otherId, otherPath, userId, rfl, visited, addressed, keyless,
        differs, by simp⟩
    · obtain ⟨front, detour, between, otherId, otherPath, userId, rfl, visited, addressed, keyless,
        differs, others⟩ := strayed
      refine ⟨front, detour, between ++ [op], otherId, otherPath, userId, by simp, visited,
        addressed, keyless, differs, ?_⟩
      exact forall_mem_append.mpr ⟨others, forall_mem_singleton.mpr last⟩

/-- A conversation without a key is not known. -/
theorem not_known_of_keyless {conversationId userId : String}
    (keyless : Keyless server conversationId userId) : ¬Known server conversationId := by
  rintro ⟨owner, key, found, keyed⟩
  obtain rfl := Option.some.inj (found.symm.trans keyless.1)
  exact absurd (keyed.symm.trans keyless.2) (by simp)

/-- Revisiting after an operation on a conversation. -/
theorem revisits_addressed {addressee subpath : String}
    (addressed : Addresses op addressee subpath) (conversationId : String) :
    Revisits server (prior ++ [op]) conversationId ↔
      (addressee = conversationId ∧ Known server addressee) ∨
      (Revisits server prior conversationId ∧
        (Known server addressee → addressee = conversationId)) := by
  rw [revisits_append]
  have only (otherId otherPath : String) (other : Addresses op otherId otherPath) :
      otherId = addressee :=
    (Prod.mk.inj (addresses_unique other
      addressed)).1
  constructor
  · rintro (⟨known, otherPath, other⟩ | ⟨visited, last⟩)
    · obtain rfl := only conversationId otherPath other
      exact .inl ⟨rfl, known⟩
    · exact .inr ⟨visited, last addressee subpath addressed⟩
  · rintro (⟨rfl, known⟩ | ⟨visited, last⟩)
    · exact .inl ⟨known, subpath, addressed⟩
    · refine .inr ⟨visited, fun otherId otherPath other known => ?_⟩
      obtain rfl := only otherId otherPath other
      exact last known

/-- Straying after an operation on a conversation. -/
theorem strays_addressed {addressee subpath : String}
    (addressed : Addresses op addressee subpath) (conversationId : String) :
    Strays server (prior ++ [op]) conversationId ↔
      (Revisits server prior conversationId ∧ ∃ userId, Keyless server addressee userId ∧
        server.getUserId conversationId ≠ some userId) ∨
      (Strays server prior conversationId ∧
        (addressee = conversationId ∨ server.getUserId addressee = none)) := by
  rw [strays_append]
  have only (otherId otherPath : String) (other : Addresses op otherId otherPath) :
      otherId = addressee :=
    (Prod.mk.inj (addresses_unique other
      addressed)).1
  constructor
  · rintro (⟨visited, otherId, otherPath, userId, other, keyless, differs⟩ | ⟨strayed, last⟩)
    · obtain rfl := only otherId otherPath other
      exact .inl ⟨visited, userId, keyless, differs⟩
    · exact .inr ⟨strayed, last addressee subpath addressed⟩
  · rintro (⟨visited, userId, keyless, differs⟩ | ⟨strayed, last⟩)
    · exact .inl ⟨visited, addressee, subpath, userId, addressed, keyless, differs⟩
    · refine .inr ⟨strayed, fun otherId otherPath other => ?_⟩
      obtain rfl := only otherId otherPath other
      exact last

/-- Straying starts from a conversation that was visited last. -/
theorem revisits_of_strays (strayed : Strays server prior conversationId) :
    Revisits server prior conversationId := by
  induction prior using reverseRecOn with
  | nil =>
    obtain ⟨front, op, between, _, _, _, split, _⟩ := strayed
    simp at split
  | append_singleton prior op ih =>
    apply (revisits_append ..).mpr
    rcases (strays_append ..).mp strayed with
      ⟨visited, otherId, otherPath, userId, addressed, keyless, _⟩ | ⟨before, last⟩
    · refine .inr ⟨visited, fun laterId laterPath addressedLater known => ?_⟩
      obtain ⟨rfl, rfl⟩ := Prod.mk.inj
        (addresses_unique addressedLater addressed)
      exact absurd known (not_known_of_keyless _ keyless)
    · refine .inr ⟨ih before, fun laterId laterPath addressed known => ?_⟩
      obtain ⟨owner, key, found, _⟩ := known
      rcases last laterId laterPath addressed with same | missing
      · exact same
      · exact absurd (found.symm.trans missing) (by simp)

def stateAfter (xSessionApiKey : Option String) (batchOps : List BatchOperation) : LoopState :=
  batchOps.foldl (fun state operation =>
    (processOperation server xSessionApiKey state operation).1) {}

/-- What the remembered conversation and user say about the operations so far. -/
structure Remembers (earlier : List BatchOperation) (state : LoopState) : Prop where
  visited : ∀ conversationId, state.prevConversationId = some conversationId ↔
    Revisits server earlier conversationId
  owned : ∀ conversationId, state.prevConversationId = some conversationId →
    ∃ userId, state.userId = some userId ∧
      (server.getUserId conversationId = some userId ↔ ¬Strays server earlier conversationId)

/-- A pass through the loop that is addressed to a conversation. -/
theorem process_addressed {conversationId subpath : String}
    (addressed : Addresses op conversationId subpath) :
    processOperation server xSessionApiKey state op =
      if (recheck server xSessionApiKey state conversationId).2 then
        ((recheck server xSessionApiKey state conversationId).1,
          (recheck server xSessionApiKey state conversationId).1.userId.toList.flatMap
            (fun userId => dispatch server userId conversationId subpath op))
      else ((recheck server xSessionApiKey state conversationId).1, []) := by
  obtain ⟨posted, parsed⟩ := addressed
  have proper : ¬(op.path = "settings.json" ∨ op.path = "secrets.json") := by
    have settings : parseConversationIdAndSubpath "settings.json" = none := by decide
    have secrets : parseConversationIdAndSubpath "secrets.json" = none := by decide
    rintro (path | path)
    · rw [path, settings] at parsed
      cases parsed
    · rw [path, secrets] at parsed
      cases parsed
  simp only [processOperation, posted, ne_eq, not_true_eq_false, if_false, proper, parsed]
  cases (recheck server xSessionApiKey state conversationId).1.userId <;> simp

/-- Other passes do nothing. -/
theorem process_unaddressed
    (unaddressed : ∀ conversationId subpath, ¬Addresses op conversationId subpath) :
    processOperation server xSessionApiKey state op = (state, []) := by
  rw [processOperation]
  split
  · rfl
  rename_i posted
  split
  · rfl
  · cases parsed : parseConversationIdAndSubpath op.path with
    | none => rfl
    | some address => exact absurd ⟨not_not.mp posted, parsed⟩ (unaddressed address.1 address.2)

/-- What the check of a conversation does, case by case: it is skipped for the
remembered conversation, and otherwise depends on the lookups. -/
theorem recheck_cases : (state.prevConversationId = some conversationId ∧
      recheck server xSessionApiKey state conversationId = (state, true)) ∨
    (state.prevConversationId ≠ some conversationId ∧ server.getUserId conversationId = none ∧
      recheck server xSessionApiKey state conversationId = (state, false)) ∨
    (state.prevConversationId ≠ some conversationId ∧ ∃ userId,
      Keyless server conversationId userId ∧
      recheck server xSessionApiKey state conversationId =
        ({ state with userId := some userId }, false)) ∨
    (state.prevConversationId ≠ some conversationId ∧ ∃ userId sessionApiKey,
      server.getUserId conversationId = some userId ∧
      server.getSessionApiKey userId conversationId = some sessionApiKey ∧
      recheck server xSessionApiKey state conversationId =
        (⟨some conversationId, some userId⟩, decide (sessionApiKey = xSessionApiKey))) := by
  by_cases same : state.prevConversationId = some conversationId
  · exact .inl ⟨same, by simp [recheck, same]⟩
  have differs : some conversationId ≠ state.prevConversationId := fun equal => same equal.symm
  cases owner : server.getUserId conversationId with
  | none => exact .inr (.inl ⟨same, rfl, by simp [recheck, differs, owner]⟩)
  | some userId =>
    cases key : server.getSessionApiKey userId conversationId with
    | none =>
      exact .inr (.inr (.inl ⟨same, userId, ⟨owner, key⟩, by simp [recheck, differs, owner, key]⟩))
    | some sessionApiKey =>
      exact .inr (.inr (.inr ⟨same, userId, sessionApiKey, rfl, key,
        by simp [recheck, differs, owner, key]⟩))

/-- An operation that is addressed to no conversation changes nothing. -/
theorem remembers_unaddressed {prior : List BatchOperation} {state : LoopState}
    (remembers : Remembers server prior state)
    (unaddressed : ∀ conversationId subpath, ¬Addresses op conversationId subpath) :
    Remembers server (prior ++ [op]) state := by
  have visits (conversationId : String) : Revisits server (prior ++ [op]) conversationId ↔
      Revisits server prior conversationId := by
    simp [revisits_append, unaddressed]
  have strays (conversationId : String) : Strays server (prior ++ [op]) conversationId ↔
      Strays server prior conversationId := by
    simp [strays_append, unaddressed]
  constructor
  · intro conversationId
    rw [visits, remembers.visited]
  · intro conversationId remembered
    rw [strays]
    exact remembers.owned conversationId remembered

/-- One pass keeps what the loop remembers true of the operations. -/
theorem remembers_step (op : BatchOperation) (remembers : Remembers server prior state) :
    Remembers server (prior ++ [op]) (processOperation server xSessionApiKey state op).1 := by
  by_cases addressed : ∃ conversationId subpath, Addresses op conversationId subpath
  · obtain ⟨addressee, subpath, addressed⟩ := addressed
    have next : (processOperation server xSessionApiKey state op).1 =
        (recheck server xSessionApiKey state addressee).1 := by
      rw [process_addressed _ _ _ addressed]
      split <;> rfl
    rw [next]
    have visits := revisits_addressed server prior addressed
    have strays := strays_addressed server prior addressed
    rcases recheck_cases .. with
      ⟨same, checked⟩ | ⟨differs, missing, checked⟩ | ⟨differs, userId, keyless, checked⟩ |
        ⟨differs, userId, key, owner, keyed, checked⟩
    · -- The remembered conversation: nothing is looked up.
      obtain ⟨_, _, _, _, _, _, known, _⟩ := (remembers.visited addressee).mp same
      rw [checked]
      have remembered (conversationId : String) :
          state.prevConversationId = some conversationId ↔ addressee = conversationId := by
        rw [same, Option.some.injEq]
      constructor
      · intro conversationId
        rw [visits, ← remembers.visited, remembered]
        exact ⟨fun equal => .inl ⟨equal, known⟩, fun cases => cases.elim And.left And.left⟩
      · intro conversationId found
        obtain rfl := (remembered conversationId).mp found
        have unkeyed (user : String) : ¬Keyless server addressee user := fun keyless =>
          not_known_of_keyless _ keyless known
        simpa [strays, unkeyed] using remembers.owned addressee found
    · -- No owner: nothing changes.
      have unknown : ¬Known server addressee := by
        rintro ⟨user, _, found, _⟩
        exact absurd (found.symm.trans missing) (by simp)
      have unkeyed (user : String) : ¬Keyless server addressee user := by
        rintro ⟨found, _⟩
        exact absurd (found.symm.trans missing) (by simp)
      rw [checked]
      constructor
      · intro conversationId
        simp [visits, unknown, remembers.visited]
      · intro conversationId remembered
        simpa [strays, unkeyed, missing] using remembers.owned conversationId remembered
    · -- No key: the user changes.
      have unknown := not_known_of_keyless _ keyless
      rw [checked]
      constructor
      · intro conversationId
        simp [visits, unknown, remembers.visited]
      · intro conversationId remembered
        have visited := (remembers.visited conversationId).mp remembered
        have other : addressee ≠ conversationId := by
          rintro rfl
          exact differs remembered
        refine ⟨userId, rfl, ?_⟩
        rw [strays]
        constructor
        · rintro owned (⟨_, user, alsoKeyless, unowned⟩ | ⟨_, same | missing⟩)
          · obtain rfl := Option.some.inj (keyless.1.symm.trans alsoKeyless.1)
            exact unowned owned
          · exact other same
          · exact absurd (keyless.1.symm.trans missing) (by simp)
        · intro straight
          by_contra unowned
          exact straight (.inl ⟨visited, userId, keyless, unowned⟩)
    · -- A new conversation.
      have known : Known server addressee := ⟨userId, key, owner, keyed⟩
      have unvisited : ¬Revisits server prior addressee := fun visited =>
        differs ((remembers.visited addressee).mpr visited)
      rw [checked]
      constructor
      · intro conversationId
        rw [visits, Option.some.injEq]
        exact ⟨fun equal => .inl ⟨equal, known⟩,
          fun cases => cases.elim And.left (fun later => later.2 known)⟩
      · intro conversationId remembered
        obtain rfl : addressee = conversationId := Option.some.inj remembered
        refine ⟨userId, rfl, ?_⟩
        rw [strays]
        constructor
        · rintro _ (⟨visited, _⟩ | ⟨strayed, _⟩)
          · exact unvisited visited
          · exact unvisited (revisits_of_strays _ _ _ strayed)
        · intro _
          exact owner
  · have unaddressed : ∀ conversationId subpath, ¬Addresses op conversationId subpath :=
      fun conversationId subpath found => addressed ⟨conversationId, subpath, found⟩
    rw [process_unaddressed _ _ _ unaddressed]
    exact remembers_unaddressed _ remembers unaddressed

/-- What the loop remembers is true of the operations so far. -/
theorem remembers_state_after (batchOps : List BatchOperation) :
    Remembers server batchOps (stateAfter server xSessionApiKey batchOps) := by
  induction batchOps using reverseRecOn with
  | nil =>
    constructor
    · intro conversationId
      simp [stateAfter, Revisits]
    · intro conversationId remembered
      simp [stateAfter] at remembered
  | append_singleton prior op ih =>
    rw [stateAfter, foldl_append]
    exact remembers_step _ _ _ _ op ih

def effectsAfter (xSessionApiKey : Option String) (earlier : List BatchOperation)
    (operation : BatchOperation) : List (Effect ι) :=
  (processOperation server xSessionApiKey (stateAfter server xSessionApiKey earlier) operation).2

/-- The effects of a batch are those of its operations after the ones before them. -/
theorem mem_process_from (rest : List BatchOperation) (entry : BatchOperation × Effect ι) :
    entry ∈ processFrom server xSessionApiKey (stateAfter server xSessionApiKey prior) rest ↔
      ∃ front later, rest = front ++ entry.1 :: later ∧
        entry.2 ∈ effectsAfter server xSessionApiKey (prior ++ front) entry.1 := by
  induction rest generalizing prior with
  | nil => simp [processFrom]
  | cons op others ih =>
    have next : (processOperation server xSessionApiKey
        (stateAfter server xSessionApiKey prior) op).1 =
        stateAfter server xSessionApiKey (prior ++ [op]) := by
      simp [stateAfter]
    simp only [processFrom, next, mem_append, mem_map, ih]
    constructor
    · rintro (⟨effect, found, rfl⟩ | ⟨front, later, rfl, found⟩)
      · exact ⟨[], others, rfl, by simpa [effectsAfter] using found⟩
      · exact ⟨op :: front, later, rfl, by simpa using found⟩
    · rintro ⟨front, later, split, found⟩
      cases front with
      | nil =>
        cases split
        exact .inl ⟨entry.2, by simpa [effectsAfter] using found, rfl⟩
      | cons first middle =>
        cases split
        exact .inr ⟨middle, later, rfl, by simpa using found⟩

/-- When every operation does what it does alone, so does the batch. -/
theorem shared_effects_eq {xSessionApiKey : Option String} (prior rest : List BatchOperation)
    (alike : ∀ front op later, rest = front ++ op :: later →
      (effectsAfter server xSessionApiKey (prior ++ front) op).filter Effect.isShared =
        sendSeparately server xSessionApiKey op) :
    ((processFrom server xSessionApiKey (stateAfter server xSessionApiKey prior) rest).map
        Prod.snd).filter Effect.isShared =
      rest.flatMap (sendSeparately server xSessionApiKey) := by
  induction rest generalizing prior with
  | nil => rfl
  | cons op others ih =>
    have next : (processOperation server xSessionApiKey
        (stateAfter server xSessionApiKey prior) op).1 =
        stateAfter server xSessionApiKey (prior ++ [op]) := by
      simp [stateAfter]
    have here := alike [] op others rfl
    have later := ih (prior ++ [op]) (fun front other after split => by
      simpa using alike (op :: front) other after (by simp [split]))
    rw [append_nil, effectsAfter] at here
    simp only [processFrom, next, map_append, map_map, filter_append, later,
      flatMap_cons, ← here]
    congr 2
    exact map_id _

/-! ## What one operation does -/

/-- Paths of events are no other known paths. -/
theorem events_apart (starts : startsWith subpath "events/" = true) :
    subpath ≠ "agent_state.pkl" ∧ subpath ≠ "conversation_stats.pkl" ∧
      subpath ≠ "metadata.json" := by
  refine ⟨?_, ?_, ?_⟩ <;> rintro rfl <;> revert starts <;> decide

theorem mem_dispatch (op : BatchOperation) (effect : Effect ι) :
    effect ∈ dispatch server userId conversationId subpath op ↔
      (subpath = "agent_state.pkl" ∧ ∃ content, getContent server op = some content ∧
        effect = .updateAgentState userId conversationId content) ∨
      (subpath = "conversation_stats.pkl" ∧ ∃ content, getContent server op = some content ∧
        effect = .updateConversationStats userId conversationId content) ∨
      (subpath = "metadata.json" ∧ ∃ content, getContentJson server op = some content ∧
        effect = .updateConversationMetadata conversationId content) ∨
      (startsWith subpath "events/" = true ∧ ∃ content, getContentJson server op = some content ∧
        effect = .processEvent userId conversationId subpath content) := by
  have listed {α : Type} (value : Option α) (wrap : α → Effect ι) :
      effect ∈ (value.map wrap).toList ↔ ∃ content, value = some content ∧
        effect = wrap content := by
    cases value <;> simp
  have noState : startsWith "agent_state.pkl" "events/" = false := by decide
  have noStats : startsWith "conversation_stats.pkl" "events/" = false := by decide
  have noMetadata : startsWith "metadata.json" "events/" = false := by decide
  rw [dispatch]
  by_cases state : subpath = "agent_state.pkl"
  · subst state
    simp [listed, noState]
  by_cases stats : subpath = "conversation_stats.pkl"
  · subst stats
    simp [listed, noStats]
  by_cases metadata : subpath = "metadata.json"
  · subst metadata
    simp [listed, noMetadata]
  by_cases event : startsWith subpath "events/" = true
  · simp [state, stats, metadata, event, listed]
  · simp [state, stats, metadata, event]

/-- An operation has an effect exactly when it acts. -/
theorem acts_iff (op : BatchOperation) : Acts server op subpath ↔
      ∃ effect, effect ∈ dispatch server userId conversationId subpath op := by
  simp only [mem_dispatch, Acts, Option.ne_none_iff_exists']
  constructor
  · rintro (⟨state | stats, content, found⟩ | ⟨metadata | event, content, found⟩)
    · exact ⟨_, .inl ⟨state, content, found, rfl⟩⟩
    · exact ⟨_, .inr (.inl ⟨stats, content, found, rfl⟩)⟩
    · exact ⟨_, .inr (.inr (.inl ⟨metadata, content, found, rfl⟩))⟩
    · exact ⟨_, .inr (.inr (.inr ⟨event, content, found, rfl⟩))⟩
  · rintro ⟨effect, ⟨state, content, found, _⟩ | ⟨stats, content, found, _⟩ |
      ⟨metadata, content, found, _⟩ | ⟨event, content, found, _⟩⟩
    · exact .inl ⟨.inl state, content, found⟩
    · exact .inl ⟨.inr stats, content, found⟩
    · exact .inr ⟨.inl metadata, content, found⟩
    · exact .inr ⟨.inr event, content, found⟩

/-- Whom an effect is for, and where it writes. -/
theorem dispatch_confined {userId conversationId subpath : String} {effect : Effect ι}
    (found : effect ∈ dispatch server userId conversationId subpath op) :
    effect.conversationId = conversationId ∧
    effect.userId? = (if subpath = "metadata.json" then none else some userId) ∧
    ((∀ file ∈ effect.files,
        Below server.fileStore (getConversationDir conversationId userId) file) ↔
      (startsWith subpath "events/" = true →
        StaysBelow server.fileStore (getConversationDir conversationId userId) subpath)) := by
  have named (name : String) (plain : PosixPath.components name.toList = [name])
      (proper : name ≠ "..") : Below server.fileStore (getConversationDir conversationId userId)
        (getConversationDir conversationId userId ++ name) :=
    (below_iff ..).mpr
      (stays_below_name _ _ _ plain proper)
  rcases (mem_dispatch ..).mp found with
    ⟨rfl, content, _, rfl⟩ | ⟨rfl, content, _, rfl⟩ | ⟨rfl, content, _, rfl⟩ |
      ⟨event, content, _, rfl⟩
  · have below := named "agent_state.pkl" (by decide) (by decide)
    have apart : startsWith "agent_state.pkl" "events/" = false := by decide
    simp [Effect.conversationId, Effect.userId?, Effect.files, apart,
      getConversationAgentStateFilename, below]
  · have below := named "conversation_stats.pkl" (by decide) (by decide)
    have apart : startsWith "conversation_stats.pkl" "events/" = false := by decide
    simp [Effect.conversationId, Effect.userId?, Effect.files, apart,
      getConversationStatsFilename, below]
  · have apart : startsWith "metadata.json" "events/" = false := by decide
    simp [Effect.conversationId, Effect.userId?, Effect.files, apart]
  · have apart := (events_apart _ event).2.2
    simp [Effect.conversationId, Effect.userId?, Effect.files, apart, event, below_iff]

/-- A conversation that was visited last is not checked again. -/
theorem effects_revisited {prior : List BatchOperation} {conversationId subpath : String}
    (addressed : Addresses op conversationId subpath)
    (visited : Revisits server prior conversationId) :
    ∃ userId, (server.getUserId conversationId = some userId ↔
        ¬Strays server prior conversationId) ∧
      effectsAfter server xSessionApiKey prior op =
        dispatch server userId conversationId subpath op := by
  have remembers := remembers_state_after server xSessionApiKey prior
  have same := (remembers.visited conversationId).mpr visited
  obtain ⟨userId, remembered, owned⟩ := remembers.owned conversationId same
  refine ⟨userId, owned, ?_⟩
  rw [effectsAfter, process_addressed _ _ _
    addressed]
  simp [recheck, same, remembered]

/-- Another conversation is checked. -/
theorem effects_fresh (supplied : String) {prior : List BatchOperation}
    {conversationId subpath : String} (addressed : Addresses op conversationId subpath)
    (unvisited : ¬Revisits server prior conversationId) :
    (∀ userId, Authorised server supplied conversationId userId →
      effectsAfter server (some supplied) prior op =
        dispatch server userId conversationId subpath op) ∧
    ((∀ userId, ¬Authorised server supplied conversationId userId) →
      effectsAfter server (some supplied) prior op = []) := by
  have remembers := remembers_state_after server (some supplied) prior
  have differs : (stateAfter server (some supplied) prior).prevConversationId ≠
      some conversationId := fun same => unvisited ((remembers.visited conversationId).mp same)
  rw [effectsAfter, process_addressed server (some supplied) _
    addressed]
  constructor
  · rintro userId ⟨owner, key⟩
    simp [recheck, differs.symm, owner, key]
  · intro unauthorised
    rcases recheck_cases server (some supplied) (stateAfter server (some supplied) prior)
        conversationId with
      ⟨same, _⟩ | ⟨_, _, checked⟩ | ⟨_, _, _, checked⟩ | ⟨_, userId, key, owner, keyed, checked⟩
    · exact absurd same differs
    · simp [checked]
    · simp [checked]
    · have refused : key ≠ some supplied := by
        rintro rfl
        exact unauthorised userId ⟨owner, keyed⟩
      simp [checked, refused]

/-- A single write to an authorised conversation. -/
theorem send_authorised {conversationId subpath userId : String}
    (addressed : Addresses op conversationId subpath)
    (authorised : Authorised server supplied conversationId userId) :
    sendSeparately server (some supplied) op =
      (dispatch server userId conversationId subpath op).filter Effect.isShared := by
  obtain ⟨posted, parsed⟩ := addressed
  obtain ⟨owner, key⟩ := authorised
  cases content : getContent server op with
  | none => simp [sendSeparately, content, dispatch, getContentJson, posted]
  | some body =>
    simp only [sendSeparately, posted, content, onWrite, parsed, owner, key, ne_eq,
      not_true_eq_false, if_false, dispatch, getContentJson, Option.bind_some]
    by_cases state : subpath = "agent_state.pkl"
    · simp [state, Effect.isShared, filter_cons]
    simp only [state, if_false]
    cases server.loads body with
    | none => by_cases stats : subpath = "conversation_stats.pkl" <;> simp [stats, Effect.isShared]
    | some value =>
      by_cases stats : subpath = "conversation_stats.pkl"
      · have apart : startsWith "conversation_stats.pkl" "events/" = false := by decide
        simp [stats, Effect.isShared, apart]
      by_cases metadata : subpath = "metadata.json"
      · simp [metadata, Effect.isShared, filter_cons]
      · by_cases event : startsWith subpath "events/" = true
        · simp [stats, metadata, event, Effect.isShared, filter_cons]
        · simp [stats, metadata, event]

/-- A single write to any other conversation. -/
theorem send_unauthorised (unauthorised : ∀ conversationId subpath userId,
      Addresses op conversationId subpath → ¬Authorised server supplied conversationId userId) :
    sendSeparately server (some supplied) op = [] := by
  rw [sendSeparately]
  split
  · rename_i body posted content
    rw [onWrite]
    split
    · rfl
    rename_i conversationId subpath parsed
    split
    · rfl
    rename_i userId owner
    split
    · rfl
    rename_i key keyed
    have refused : key ≠ some supplied := by
      rintro rfl
      exact unauthorised conversationId subpath userId ⟨posted, parsed⟩ ⟨owner, keyed⟩
    simp [refused]
  · rfl

/-- Metadata are updated without a user. -/
theorem dispatch_metadata (otherUser conversationId : String) (op : BatchOperation) :
    dispatch server userId conversationId "metadata.json" op =
      dispatch server otherUser conversationId "metadata.json" op := by
  simp [dispatch]

/-! ## Which batches are authorised -/

/-- In an orderly batch a write to an authorised conversation is performed for its owner. -/
theorem orderly_performed {batchOps prior later : List BatchOperation}
    (split : batchOps = prior ++ op :: later) (orderly : Orderly server supplied batchOps)
    {conversationId subpath userId : String} (addressed : Addresses op conversationId subpath)
    (authorised : Authorised server supplied conversationId userId) :
    effectsAfter server (some supplied) prior op =
      dispatch server userId conversationId subpath op := by
  by_cases visited : Revisits server prior conversationId
  · obtain ⟨otherUser, owned, performed⟩ := effects_revisited _ _
      addressed visited
    rw [performed]
    by_cases metadata : subpath = "metadata.json"
    · rw [metadata, dispatch_metadata _ _ _]
    by_cases acts : Acts server op subpath
    · have straight := ((orderly prior op later conversationId subpath split addressed
        acts).1 visited).2 metadata
      obtain rfl := Option.some.inj ((owned.mpr straight).symm.trans authorised.1)
      rfl
    · have idle (user : String) : dispatch server user conversationId subpath op = [] :=
        eq_nil_iff_forall_not_mem.mpr (fun effect found =>
          acts ((acts_iff ..).mpr ⟨effect, found⟩))
      rw [idle otherUser, idle userId]
  · exact (effects_fresh _ _ addressed
      visited).1 userId authorised

/-- The effects of an orderly batch are permitted and those of single requests. -/
theorem orderly_effects {batchOps prior later : List BatchOperation}
    (split : batchOps = prior ++ op :: later) (orderly : Orderly server supplied batchOps) :
    (∀ effect ∈ effectsAfter server (some supplied) prior op, Permitted server supplied op effect) ∧
    (effectsAfter server (some supplied) prior op).filter Effect.isShared =
      sendSeparately server (some supplied) op := by
  by_cases addressed : ∃ conversationId subpath, Addresses op conversationId subpath
  · obtain ⟨conversationId, subpath, addressed⟩ := addressed
    by_cases authorised : ∃ userId, Authorised server supplied conversationId userId
    · obtain ⟨userId, authorised⟩ := authorised
      rw [orderly_performed _ split orderly addressed authorised]
      refine ⟨fun effect found => ?_, (send_authorised _ addressed authorised).symm⟩
      obtain ⟨conversation, user, files⟩ := dispatch_confined _ found
      have acts := (acts_iff ..).mpr ⟨effect, found⟩
      refine ⟨conversationId, subpath, userId, addressed.2, authorised, conversation, ?_, ?_⟩
      · intro named same
        rw [user] at same
        split at same
        · cases same
        · exact (Option.some.inj same).symm
      · exact files.mpr ((orderly prior op later conversationId subpath split addressed
          acts).2 userId authorised)
    · have refused (userId : String) : ¬Authorised server supplied conversationId userId :=
        fun found => authorised ⟨userId, found⟩
      have nothing : effectsAfter server (some supplied) prior op = [] := by
        by_cases visited : Revisits server prior conversationId
        · obtain ⟨userId, _, performed⟩ := effects_revisited _ _
            addressed visited
          rw [performed]
          by_contra effective
          obtain ⟨effect, others, found⟩ := exists_cons_of_ne_nil effective
          have acts := (acts_iff server userId conversationId subpath op).mpr
            ⟨effect, found ▸ (.head _)⟩
          obtain ⟨⟨_, known⟩, _⟩ := (orderly prior op later conversationId subpath split
            addressed acts).1 visited
          exact refused _ known
        · exact (effects_fresh _ _ addressed
            visited).2 refused
      rw [nothing, send_unauthorised _]
      · simp
      · intro otherId otherPath userId other
        obtain ⟨rfl, _⟩ := Prod.mk.inj (addresses_unique other addressed)
        exact refused userId
  · have unaddressed : ∀ conversationId subpath, ¬Addresses op conversationId subpath :=
      fun conversationId subpath found => addressed ⟨conversationId, subpath, found⟩
    rw [effectsAfter, process_unaddressed _ _ _ unaddressed,
      send_unauthorised _ (fun conversationId subpath _ found =>
        absurd found (unaddressed conversationId subpath))]
    simp

/-- Every effect of a batch is authorised, for the owner and inside the directory,
and the batch does what single requests do, exactly when it is orderly. -/
theorem batch_conforms_exact (supplied : String) (batchOps : List BatchOperation) :
    Conforms server supplied batchOps ↔ Orderly server supplied batchOps := by
  have entries := mem_process_from server (some supplied) [] batchOps
  constructor
  · rintro ⟨permitted, _⟩ earlier operation later conversationId subpath split addressed acts
    have allowed (effect : Effect ι)
        (found : effect ∈ effectsAfter server (some supplied) earlier operation) :
        Permitted server supplied operation effect :=
      permitted (operation, effect) ((entries (operation, effect)).mpr
        ⟨earlier, later, split, found⟩)
    have judged (user : String)
        (performed : effectsAfter server (some supplied) earlier operation =
          dispatch server user conversationId subpath operation) :
        ∃ userId, Authorised server supplied conversationId userId ∧
          (subpath ≠ "metadata.json" → user = userId ∧ (startsWith subpath "events/" = true →
            StaysBelow server.fileStore (getConversationDir conversationId userId) subpath)) := by
      obtain ⟨effect, found⟩ := (acts_iff ..).mp acts
      obtain ⟨namedId, namedPath, userId, parsed, authorised, _, users, files⟩ :=
        allowed effect (performed ▸ found)
      obtain ⟨rfl, rfl⟩ := Prod.mk.inj (Option.some.inj (parsed.symm.trans addressed.2))
      obtain ⟨_, named, confined⟩ := dispatch_confined _ found
      refine ⟨userId, authorised, fun metadata => ?_⟩
      rw [if_neg metadata] at named
      obtain rfl := users user named
      exact ⟨rfl, confined.mp files⟩
    constructor
    · intro visited
      obtain ⟨user, owned, performed⟩ := effects_revisited _ _
        addressed visited
      obtain ⟨userId, authorised, judgement⟩ := judged user performed
      refine ⟨⟨userId, authorised⟩, fun metadata => owned.mp ?_⟩
      rw [(judgement metadata).1]
      exact authorised.1
    · intro userId authorised event
      have metadata := (events_apart _ event).2.2
      have checked : ∃ user, effectsAfter server (some supplied) earlier operation =
          dispatch server user conversationId subpath operation := by
        by_cases visited : Revisits server earlier conversationId
        · obtain ⟨user, _, performed⟩ := effects_revisited _ _
            addressed visited
          exact ⟨user, performed⟩
        · exact ⟨userId, (effects_fresh _ _
            addressed visited).1 userId authorised⟩
      obtain ⟨user, performed⟩ := checked
      obtain ⟨owner, also, judgement⟩ := judged user performed
      obtain rfl := Option.some.inj (also.1.symm.trans authorised.1)
      exact (judgement metadata).2 event
  · intro orderly
    constructor
    · intro entry member
      obtain ⟨front, later, split, found⟩ := (entries entry).mp member
      exact (orderly_effects _ split orderly).1
        entry.2 found
    · apply shared_effects_eq _ [] _
      intro front operation later split
      exact (orderly_effects _ split orderly).2

def aliceServer : Server Unit where
  getUserId conversationId := if conversationId = "c1" then some "alice" else none
  getSessionApiKey userId conversationId :=
    if userId = "alice" ∧ conversationId = "c1" then some (some "secret") else none
  b64decode _ := none
  loads _ := none
  fileStore := .onDisk "/data"

def agentStateWrite : BatchOperation where
  method := .post
  path := "sessions/c1/agent_state.pkl"
  content := some "state"

/-- With a wrong key, the second of two writes to a conversation is performed. -/
theorem second_write_unchecked :
    (processBatchOperationsBackground aliceServer [agentStateWrite, agentStateWrite]
      (some "guess")).length = 1 ∧
    ¬Conforms aliceServer "guess" [agentStateWrite, agentStateWrite] := by
  have parsed : parseConversationIdAndSubpath agentStateWrite.path =
      some ("c1", "agent_state.pkl") := by decide
  have performed : processBatchOperationsBackground aliceServer
      [agentStateWrite, agentStateWrite] (some "guess") =
      [(agentStateWrite, .updateAgentState "alice" "c1" "state".toUTF8)] := by
    have proper : ¬(agentStateWrite.path = "settings.json" ∨
        agentStateWrite.path = "secrets.json") := by decide
    have posted : agentStateWrite.method = .post := rfl
    have content : getContent aliceServer agentStateWrite = some "state".toUTF8 := rfl
    have owner : aliceServer.getUserId "c1" = some "alice" := rfl
    have key : aliceServer.getSessionApiKey "alice" "c1" = some (some "secret") := rfl
    simp [processBatchOperationsBackground, processFrom, processOperation, parsed, proper, posted,
      recheck, owner, key, dispatch, content]
  constructor
  · rw [performed]
    rfl
  · rintro ⟨permitted, _⟩
    obtain ⟨conversationId, subpath, userId, named, ⟨owner, key⟩, _⟩ := permitted _
      (performed ▸ List.mem_singleton_self _)
    obtain ⟨rfl, rfl⟩ := Prod.mk.inj (Option.some.inj (named.symm.trans parsed))
    simp only [aliceServer, if_true, Option.some.injEq] at owner
    subst owner
    revert key
    decide

end ForgePilot.EventWebhook
