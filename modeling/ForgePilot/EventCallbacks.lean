import ForgePilot.Runs

/-!
# Event callbacks that disable themselves

An event reaches the callbacks that are active when it arrives: they are read, their
processors run concurrently on copies, every copy is saved, and the session commits. A
processor may disable its callback, which it saves through a session of its own. Several
such runs interleave.

A session keeps the rows it has loaded. Saving a copy merges it into the loaded row; a
commit writes the columns that differ from what was loaded. That is what the mapping library
documents, and it is a parameter here: a column without a net change is not written, one
with a change is. Nothing is said of the column of the processor, whose values are compared
as objects. Each read starts from a fresh session, and a commit may fail.
-/

namespace ForgePilot.EventCallbacks

open Runs List

inductive EventCallbackStatus where
  | active | disabled | completed | error
deriving DecidableEq

/-- A row of the table of callbacks, and a copy of it in memory. -/
structure EventCallback (κ μ π : Type) where
  id : κ
  conversationId : Option μ
  status : EventCallbackStatus
  processor : π
  eventKind : Option String
  createdAt : Nat
  updatedAt : Nat
deriving DecidableEq

/-- The columns besides the key. -/
inductive Column where
  | conversationId | status | processor | eventKind | createdAt | updatedAt
deriving DecidableEq

variable {κ μ π ρ : Type}

/-- Two rows agree in a column. -/
def Column.Agrees (first second : EventCallback κ μ π) : Column → Prop
  | .conversationId => first.conversationId = second.conversationId
  | .status => first.status = second.status
  | .processor => first.processor = second.processor
  | .eventKind => first.eventKind = second.eventKind
  | .createdAt => first.createdAt = second.createdAt
  | .updatedAt => first.updatedAt = second.updatedAt

/-- Which columns a commit writes for a row that was loaded and has changed. -/
structure UnitOfWork (κ μ π : Type) where
  writes : EventCallback κ μ π → EventCallback κ μ π → Column → Bool
  no_net_change : ∀ loaded current column, column ≠ .processor →
    column.Agrees loaded current → writes loaded current column = false
  net_change : ∀ loaded current column, ¬ column.Agrees loaded current →
    writes loaded current column = true

/-- Write the changed columns over a stored row. -/
def UnitOfWork.update (unit : UnitOfWork κ μ π) (loaded current stored : EventCallback κ μ π) :
    EventCallback κ μ π :=
  let written := unit.writes loaded current
  { id := stored.id
    conversationId := if written .conversationId then current.conversationId
      else stored.conversationId
    status := if written .status then current.status else stored.status
    processor := if written .processor then current.processor else stored.processor
    eventKind := if written .eventKind then current.eventKind else stored.eventKind
    createdAt := if written .createdAt then current.createdAt else stored.createdAt
    updatedAt := if written .updatedAt then current.updatedAt else stored.updatedAt }

/-- How far a processor is: it may have merged its copy into a row of its own session. -/
inductive Progress (κ μ π : Type) where
  | waiting
  | saving (found : Option (EventCallback κ μ π))
  | finished

/-- A callback of a run: the row that was loaded, the copy, and its processor. -/
structure Held (κ μ π : Type) where
  loaded : EventCallback κ μ π
  callback : EventCallback κ μ π
  progress : Progress κ μ π

/-- Whether a processor is done. -/
def Held.isFinished (held : Held κ μ π) : Bool :=
  match held.progress with
  | .finished => true
  | _ => false

/-- How far a run is. -/
inductive Phase where
  | idle | processing | saved | ended
deriving DecidableEq

structure Execution (κ μ π : Type) where
  phase : Phase := .idle
  held : List (Held κ μ π) := []

/-- The table, the executions, and the callbacks that were completed, in order. -/
structure State (κ μ π ρ : Type) where
  table : List (EventCallback κ μ π)
  executions : ρ → Execution κ μ π
  completed : List κ

/-- Callbacks are stored and nothing has been executed. -/
def initial (table : List (EventCallback κ μ π)) : State κ μ π ρ := ⟨table, fun _ => {}, []⟩

variable [DecidableEq κ] [DecidableEq μ] [DecidableEq ρ] (unit : UnitOfWork κ μ π)

/-- Whether a callback is active and listens to an event of a conversation. -/
def selects (conversationId : μ) (kind : String) (callback : EventCallback κ μ π) : Bool :=
  callback.status = .active ∧ (callback.eventKind = some kind ∨ callback.eventKind = none) ∧
    (callback.conversationId = some conversationId ∨ callback.conversationId = none)

/-- Commit one merged copy: over the row that the session loaded, or as a new row. -/
def store (found : Option (EventCallback κ μ π)) (callback : EventCallback κ μ π)
    (table : List (EventCallback κ μ π)) : List (EventCallback κ μ π) :=
  match found with
  | none => table ++ [callback]
  | some loaded => table.map (fun row =>
      if row.id = callback.id then unit.update loaded callback row else row)

def State.put (state : State κ μ π ρ) (name : ρ) (execution : Execution κ μ π) : State κ μ π ρ :=
  { state with executions := fun other =>
      if other = name then execution else state.executions other }

def Execution.change (execution : Execution κ μ π) (id : κ) (next : Held κ μ π → Held κ μ π) :
    Execution κ μ π :=
  { execution with
    held := execution.held.map (fun held => if held.callback.id = id then next held else held) }

def read (state : State κ μ π ρ) (name : ρ) (conversationId : μ) (kind : String) : State κ μ π ρ :=
  match (state.executions name).phase with
  | .idle =>
      let storedCallbacks := state.table.filter (selects conversationId kind)
      if storedCallbacks.isEmpty then state.put name { phase := .ended }
      else state.put name
        { phase := .processing
          held := storedCallbacks.map (fun row => ⟨row, row, .waiting⟩) }
  | _ => state

/-- A processor returns or raises without having changed its callback. -/
def leave (state : State κ μ π ρ) (name : ρ) (id : κ) : State κ μ π ρ :=
  state.put name ((state.executions name).change id (fun held =>
    match held.progress with
    | .waiting => { held with progress := .finished }
    | _ => held))

/-- A processor disables its callback and merges the copy into a session of its own. -/
def disable (state : State κ μ π ρ) (name : ρ) (id : κ) (now : Nat) : State κ μ π ρ :=
  state.put name ((state.executions name).change id (fun held =>
    match held.progress with
    | .waiting =>
        { held with
          callback := { held.callback with status := .disabled, updatedAt := now }
          progress := .saving (state.table.find? (fun row => row.id = id)) }
    | _ => held))

/-- The session of a processor commits, and the processor is completed; or it raises. -/
def finish (state : State κ μ π ρ) (name : ρ) (id : κ) (succeeds : Bool) : State κ μ π ρ :=
  let execution := state.executions name
  match execution.phase, execution.held.find? (fun held => held.callback.id = id) with
  | .processing, some ⟨_, callback, .saving found⟩ =>
      let ended := state.put name
        (execution.change id (fun held => { held with progress := .finished }))
      if succeeds then
        { ended with
          table := store unit found callback state.table
          completed := state.completed ++ [id] }
      else ended
  | _, _ => state

/-- When all processors are done, every copy is merged into the row that was loaded. -/
def saveAll (state : State κ μ π ρ) (name : ρ) (now : Nat) : State κ μ π ρ :=
  let execution := state.executions name
  if execution.phase = .processing ∧ execution.held.all Held.isFinished then
    state.put name
      { phase := .saved
        held := execution.held.map (fun held =>
          { held with callback := { held.callback with updatedAt := now } }) }
  else state

/-- The session of the execution commits. -/
def commit (state : State κ μ π ρ) (name : ρ) (succeeds : Bool) : State κ μ π ρ :=
  let execution := state.executions name
  match execution.phase with
  | .saved =>
      let ended := state.put name { execution with phase := .ended }
      if succeeds then
        { ended with
          table := execution.held.foldl
            (fun table held => store unit (some held.loaded) held.callback table) state.table }
      else ended
  | _ => state

inductive Step (κ μ ρ : Type) where
  | read (name : ρ) (conversationId : μ) (kind : String)
  | leave (name : ρ) (id : κ)
  | disable (name : ρ) (id : κ) (now : Nat)
  | finish (name : ρ) (id : κ) (succeeds : Bool)
  | saveAll (name : ρ) (now : Nat)
  | commit (name : ρ) (succeeds : Bool)

def step (state : State κ μ π ρ) : Step κ μ ρ → State κ μ π ρ
  | .read name conversationId kind => read state name conversationId kind
  | .leave name id => leave state name id
  | .disable name id now => disable state name id now
  | .finish name id succeeds => finish unit state name id succeeds
  | .saveAll name now => saveAll state name now
  | .commit name succeeds => commit unit state name succeeds

/-! ## What is written -/

def Disabled (id : κ) (state : State κ μ π ρ) : Prop :=
  ∀ row ∈ state.table, row.id = id → row.status = .disabled

/-- No execution that has not ended holds a copy of a callback. -/
def Released (id : κ) (state : State κ μ π ρ) : Prop :=
  ∀ name, (state.executions name).phase ≠ .ended →
    ∀ held ∈ (state.executions name).held, held.callback.id ≠ id

/-- An entry was loaded as active, its copy is active or disabled, and it is disabled while
it is being saved. -/
structure Held.Sound (held : Held κ μ π) : Prop where
  loaded_active : held.loaded.status = .active
  copy_plain : held.callback.status = .active ∨ held.callback.status = .disabled
  saved_disabled : ∀ found, held.progress = .saving found → held.callback.status = .disabled

/-- All entries are sound. -/
def Sound (state : State κ μ π ρ) : Prop :=
  ∀ name, ∀ held ∈ (state.executions name).held, held.Sound

omit [DecidableEq κ] [DecidableEq μ] [DecidableEq ρ] in
/-- A commit writes a status only where it changed it: what is disabled stays so when the copy
is disabled or still has the status that was loaded. -/
theorem update_status {loaded current stored : EventCallback κ μ π}
    (disabled : stored.status = .disabled)
    (harmless : current.status = .disabled ∨ loaded.status = current.status) :
    (unit.update loaded current stored).status = .disabled := by
  change (if unit.writes loaded current .status then current.status else stored.status) = _
  by_cases written : unit.writes loaded current .status = true
  · rw [if_pos written]
    rcases harmless with changed | same
    · exact changed
    · have skipped := unit.no_net_change loaded current .status (by decide) same
      rw [skipped] at written
      cases written
  · rw [if_neg written]
    exact disabled

omit [DecidableEq μ] in
/-- Committing such a copy keeps a callback disabled. -/
theorem store_disabled {id : κ} {found : Option (EventCallback κ μ π)}
    {callback : EventCallback κ μ π} {table : List (EventCallback κ μ π)}
    (disabled : ∀ row ∈ table, row.id = id → row.status = .disabled)
    (harmless : callback.status = .disabled ∨
      ∃ loaded, found = some loaded ∧ loaded.status = callback.status) :
    ∀ row ∈ store unit found callback table, row.id = id → row.status = .disabled := by
  intro row member named
  cases found with
  | none =>
    obtain changed | ⟨loaded, ⟨⟩, _⟩ := harmless
    rcases mem_append.mp member with earlier | added
    · exact disabled row earlier named
    · obtain rfl := mem_singleton.mp added
      exact changed
  | some loaded =>
    obtain ⟨stored, present, rfl⟩ := mem_map.mp member
    by_cases same : stored.id = callback.id
    · rw [if_pos same] at named ⊢
      refine update_status _ (disabled stored present named) ?_
      rcases harmless with changed | ⟨_, ⟨⟩, unchanged⟩
      · exact .inl changed
      · exact .inr unchanged
    · rw [if_neg same] at named ⊢
      exact disabled stored present named

/-! ## What a step keeps -/

omit [DecidableEq κ] [DecidableEq μ] in
/-- The entries of the executions after one was replaced. -/
theorem forall_put {property : Held κ μ π → Prop} {state : State κ μ π ρ} (name : ρ)
    (execution : Execution κ μ π)
    (before : ∀ other, ∀ held ∈ (state.executions other).held, property held)
    (replaced : ∀ held ∈ execution.held, property held) :
    ∀ other, ∀ held ∈ ((state.put name execution).executions other).held, property held := by
  intro other held member
  by_cases same : other = name
  · simp only [State.put, if_pos same] at member
    exact replaced held member
  · simp only [State.put, if_neg same] at member
    exact before other held member

omit [DecidableEq μ] in
/-- The entries of an execution after one was changed. -/
theorem forall_change {property : Held κ μ π → Prop} {execution : Execution κ μ π} (id : κ)
    {next : Held κ μ π → Held κ μ π} (before : ∀ held ∈ execution.held, property held)
    (changed : ∀ held ∈ execution.held, property held → property (next held)) :
    ∀ held ∈ (execution.change id next).held, property held := by
  intro held member
  obtain ⟨old, present, rfl⟩ := mem_map.mp member
  split
  · exact changed old present (before old present)
  · exact before old present

variable {state : State κ μ π ρ}

/-- Every step keeps the entries sound. -/
theorem step_sound (label : Step κ μ ρ) (sound : Sound state) : Sound (step unit state label) := by
  cases label with
  | read name conversationId kind =>
    change Sound (read state name conversationId kind)
    rw [read]
    split
    · dsimp only
      split
      · exact forall_put _ _ sound (by simp)
      refine forall_put _ _ sound ?_
      intro held member
      obtain ⟨row, selected, rfl⟩ := mem_map.mp member
      have active : row.status = .active := by
        have chosen := (mem_filter.mp selected).2
        simp only [selects, decide_eq_true_eq] at chosen
        exact chosen.1
      exact ⟨active, .inl active, by rintro found ⟨⟩⟩
    · exact sound
  | leave name id =>
    refine forall_put _ _ sound (forall_change id (sound name) ?_)
    rintro ⟨loaded, callback, progress⟩ _ ⟨active, plain, saved⟩
    cases progress with
    | waiting => exact ⟨active, plain, by rintro found ⟨⟩⟩
    | saving found => exact ⟨active, plain, saved⟩
    | finished => exact ⟨active, plain, saved⟩
  | disable name id now =>
    refine forall_put _ _ sound (forall_change id (sound name) ?_)
    rintro ⟨loaded, callback, progress⟩ _ ⟨active, plain, saved⟩
    cases progress with
    | waiting => exact ⟨active, .inr rfl, fun _ _ => rfl⟩
    | saving found => exact ⟨active, plain, saved⟩
    | finished => exact ⟨active, plain, saved⟩
  | finish name id succeeds =>
    have ended := forall_put name
      ((state.executions name).change id (fun held => { held with progress := .finished })) sound
      (forall_change id (sound name) (by
        rintro held _ ⟨active, plain, _⟩
        exact ⟨active, plain, by rintro found ⟨⟩⟩))
    change Sound (finish unit state name id succeeds)
    rw [finish]
    split
    · split <;> exact ended
    · exact sound
  | saveAll name now =>
    change Sound (saveAll state name now)
    rw [saveAll]
    split
    case isTrue ready =>
      refine forall_put _ _ sound ?_
      intro held member
      obtain ⟨old, present, rfl⟩ := mem_map.mp member
      obtain ⟨active, plain, saved⟩ := sound name old present
      exact ⟨active, plain, saved⟩
    case isFalse => exact sound
  | commit name succeeds =>
    have ended := forall_put name
      { state.executions name with phase := .ended } sound (sound name)
    change Sound (commit unit state name succeeds)
    rw [commit]
    dsimp only
    split
    · split <;> exact ended
    · exact sound

variable (id : κ)

/-- Every step keeps a callback disabled. -/
theorem step_disabled (label : Step κ μ ρ) (sound : Sound state) (disabled : Disabled id state) :
    Disabled id (step unit state label) := by
  cases label with
  | read name conversationId kind =>
    change Disabled id (read state name conversationId kind)
    rw [read]
    split
    · dsimp only
      split <;> exact disabled
    · exact disabled
  | leave name other => exact disabled
  | disable name other now => exact disabled
  | finish name other succeeds =>
    change Disabled id (finish unit state name other succeeds)
    rw [finish]
    split
    case h_1 loaded callback found _ located =>
      have saved := (sound name _ (mem_of_find?_eq_some located)).saved_disabled found rfl
      split
      · exact store_disabled _ disabled (.inl saved)
      · exact disabled
    case h_2 => exact disabled
  | saveAll name now =>
    change Disabled id (saveAll state name now)
    rw [saveAll]
    split <;> exact disabled
  | commit name succeeds =>
    have stored : ∀ (entries : List (Held κ μ π)) (table : List (EventCallback κ μ π)),
        (∀ held ∈ entries, held.Sound) → (∀ row ∈ table, row.id = id → row.status = .disabled) →
        ∀ row ∈ entries.foldl (fun table held =>
          store unit (some held.loaded) held.callback table) table,
          row.id = id → row.status = .disabled := by
      intro entries
      induction entries with
      | nil => exact fun table _ holds => holds
      | cons held rest ih =>
        intro table sounds holds
        obtain ⟨here, others⟩ := forall_mem_cons.mp sounds
        refine ih _ others (store_disabled _ holds ?_)
        rcases here.copy_plain with active | changed
        · exact .inr ⟨held.loaded, rfl, here.loaded_active.trans active.symm⟩
        · exact .inl changed
    change Disabled id (commit unit state name succeeds)
    rw [commit]
    split
    · split
      · exact stored _ _ (sound name) disabled
      · exact disabled
    · exact disabled

/-- An execution that has ended or holds no copy of a callback. -/
def Execution.Releases (id : κ) (execution : Execution κ μ π) : Prop :=
  execution.phase ≠ .ended → ∀ held ∈ execution.held, held.callback.id ≠ id

omit [DecidableEq κ] [DecidableEq μ] in
/-- A callback is still released after an execution was replaced. -/
theorem released_put (state : State κ μ π ρ) (name : ρ) (execution : Execution κ μ π)
    (before : Released id state) (replaced : execution.Releases id) :
    Released id (state.put name execution) := by
  intro other
  by_cases same : other = name
  · simp only [State.put, if_pos same]
    exact replaced
  · simp only [State.put, if_neg same]
    exact before other

omit [DecidableEq μ] in
/-- Changing an entry without its key releases nothing and takes nothing. -/
theorem releases_change (id other : κ) (execution : Execution κ μ π)
    (next : Held κ μ π → Held κ μ π) (before : execution.Releases id)
    (kept : ∀ held, (next held).callback.id = held.callback.id) :
    (execution.change other next).Releases id := by
  intro running held member
  obtain ⟨old, present, rfl⟩ := mem_map.mp member
  have away := before running old present
  split
  · rw [kept]
    exact away
  · exact away

/-- Once a callback is disabled and released, no step takes it up or completes it again. -/
theorem step_released (state : State κ μ π ρ) (label : Step κ μ ρ) (disabled : Disabled id state)
    (released : Released id state) :
    Released id (step unit state label) ∧
      (step unit state label).completed.count id = state.completed.count id := by
  cases label with
  | read name conversationId kind =>
    change Released id (read state name conversationId kind) ∧
      (read state name conversationId kind).completed.count id = state.completed.count id
    rw [read]
    split
    · dsimp only
      split
      · exact ⟨released_put id _ _ _ released (fun running => absurd rfl running), rfl⟩
      refine ⟨released_put id _ _ _ released ?_, rfl⟩
      intro _ held member named
      obtain ⟨row, selected, rfl⟩ := mem_map.mp member
      obtain ⟨present, chosen⟩ := mem_filter.mp selected
      simp only [selects, decide_eq_true_eq] at chosen
      have still := disabled row present named
      rw [chosen.1] at still
      cases still
    · exact ⟨released, rfl⟩
  | leave name other =>
    refine ⟨released_put id _ _ _ released
      (releases_change id _ _ _ (released name) ?_), rfl⟩
    rintro ⟨loaded, callback, progress⟩
    cases progress <;> rfl
  | disable name other now =>
    refine ⟨released_put id _ _ _ released
      (releases_change id _ _ _ (released name) ?_), rfl⟩
    rintro ⟨loaded, callback, progress⟩
    cases progress <;> rfl
  | finish name other succeeds =>
    have ended := released_put id state name _ released
      (releases_change id other (state.executions name)
        (fun held => { held with progress := .finished }) (released name) (fun _ => rfl))
    change Released id (finish unit state name other succeeds) ∧
      (finish unit state name other succeeds).completed.count id = state.completed.count id
    rw [finish]
    dsimp only
    split
    case h_1 loaded callback found processing located =>
      have named : callback.id = other := by simpa using find?_some located
      have different : other ≠ id := by
        rintro rfl
        refine released name ?_ _ (mem_of_find?_eq_some located) named
        rw [processing]
        decide
      split
      · refine ⟨ended, ?_⟩
        rw [count_append, count_singleton, if_neg (by simpa using different), Nat.add_zero]
      · exact ⟨ended, rfl⟩
    case h_2 => exact ⟨released, rfl⟩
  | saveAll name now =>
    change Released id (saveAll state name now) ∧
      (saveAll state name now).completed.count id = state.completed.count id
    rw [saveAll]
    dsimp only
    split
    case isTrue ready =>
      refine ⟨released_put id _ _ _ released ?_, rfl⟩
      intro _ held member
      obtain ⟨old, present, rfl⟩ := mem_map.mp member
      refine released name ?_ old present
      rw [ready.1]
      decide
    case isFalse => exact ⟨released, rfl⟩
  | commit name succeeds =>
    have ended := released_put id _ name { state.executions name with phase := .ended } released
      (fun running => absurd rfl running)
    change Released id (commit unit state name succeeds) ∧
      (commit unit state name succeeds).completed.count id = state.completed.count id
    rw [commit]
    dsimp only
    split
    · split <;> exact ⟨ended, rfl⟩
    · exact ⟨released, rfl⟩

/-! ## Runs -/

omit [DecidableEq κ] [DecidableEq μ] [DecidableEq ρ] in
/-- Nothing is held at first. -/
theorem initial_sound (table : List (EventCallback κ μ π)) :
    Sound (initial table : State κ μ π ρ) := by
  intro name held member
  cases member

/-- The entries are sound in every state of a run. -/
theorem reached_sound {start : State κ μ π ρ} {labels : List (Step κ μ ρ)} (sound : Sound start)
    (reached : Reached (step unit) start labels state) : Sound state :=
  invariant_along _ (fun _ _ => True) _
    (fun _ _ holds _ => step_sound _ _ holds) _ _ sound
    (along_of_forall _ (fun _ _ => trivial) ..) _ reached

/-- Once a callback is stored as disabled, it stays so in every state that follows; and when no
execution holds a copy of it any more, it is not completed again. -/
theorem disabled_stays (table : List (EventCallback κ μ π)) (performed later : List (Step κ μ ρ))
    (id : κ) (disabled : Disabled id (run (step unit) (initial table) performed))
    (state : State κ μ π ρ)
    (reached : Reached (step unit) (run (step unit) (initial table) performed) later state) :
    Disabled id state ∧ (Released id (run (step unit) (initial table) performed) →
        state.completed.count id =
          (run (step unit) (initial table) performed).completed.count id) := by
  have sound : Sound (run (step unit) (initial table) performed) :=
    reached_sound _ (initial_sound _)
      ⟨performed, [], (List.append_nil performed).symm, rfl⟩
  constructor
  · exact (invariant_along _ (fun _ _ => True)
      (fun state => Sound state ∧ Disabled id state)
      (fun state label holds _ => ⟨step_sound _ _ holds.1,
        step_disabled _ id _ holds.1 holds.2⟩) _ _ ⟨sound, disabled⟩
      (along_of_forall _ (fun _ _ => trivial) ..) _ reached).2
  · intro released
    exact (invariant_along _ (fun _ _ => True)
      (fun state => (Sound state ∧ Disabled id state) ∧ Released id state ∧
        state.completed.count id = (run (step unit) (initial table) performed).completed.count id)
      (fun state label holds _ =>
        have next := step_released _ id _ _ holds.1.2 holds.2.1
        ⟨⟨step_sound _ _ holds.1.1, step_disabled _ id _ holds.1.1 holds.1.2⟩,
          next.1, next.2.trans holds.2.2⟩) _ _ ⟨⟨sound, disabled⟩, released, rfl⟩
      (along_of_forall _ (fun _ _ => trivial) ..) _ reached).2.2

/-- Two rows compared column by column; the column of the processor is always written. -/
def columnwise : UnitOfWork Nat Nat String where
  writes loaded current
    | .conversationId => decide (loaded.conversationId ≠ current.conversationId)
    | .status => decide (loaded.status ≠ current.status)
    | .processor => true
    | .eventKind => decide (loaded.eventKind ≠ current.eventKind)
    | .createdAt => decide (loaded.createdAt ≠ current.createdAt)
    | .updatedAt => decide (loaded.updatedAt ≠ current.updatedAt)
  no_net_change loaded current column other same := by
    cases column <;> simp_all [Column.Agrees]
  net_change loaded current column different := by
    cases column <;> simp_all [Column.Agrees]

def setTitle : EventCallback Nat Nat String := ⟨0, some 7, .active, "SetTitle", none, 0, 0⟩

/-- Two executions read the callback; one of them disables it and ends. -/
def firstEnds : List (Step Nat Nat Bool) :=
  [.read true 7 "MessageEvent", .read false 7 "ActionEvent", .disable true 0 1,
    .finish true 0 true, .saveAll true 2, .commit true true]

/-- The other one saves its copy, which was read as active, and commits. -/
def secondEnds : List (Step Nat Nat Bool) :=
  [.leave false 0, .saveAll false 3, .commit false true]

/-- The stale copy does not activate the callback again. -/
theorem stale_copy_harmless :
    Disabled 0 (run (step columnwise) (initial [setTitle]) (firstEnds ++ secondEnds)) := by
  rw [run_append]
  refine (disabled_stays _ _ _ _ 0 ?_ _
    ⟨secondEnds, [], (List.append_nil _).symm, rfl⟩).1
  intro row member _
  have stored : (run (step columnwise) (initial [setTitle]) firstEnds).table =
      [{ setTitle with status := .disabled, updatedAt := 2 }] := by
    decide +kernel
  rw [stored] at member
  obtain rfl := List.mem_singleton.mp member
  rfl

end ForgePilot.EventCallbacks
