import ForgePilot.EventPolling

/-!
# Events that are handed to their callbacks

That an event is stored is taken to mean that its callbacks were executed, but it is stored before they are. The
invariant is that no whole event is stored whose callbacks were not executed, and that every event whose callbacks
were executed is stored. It is kept when nothing is raised between the two, and when an event is looked for
where it was stored.
-/

namespace ForgePilot.EventHandovers

open EventCallbacks (selects)
open EventPolling FloatTexts OffsetPages Runs List

variable {κ μ π τ β : Type} [DecidableEq μ]

/-- After a completed execution of the callbacks of an event, they are not executed again. -/
def NotRepeated (executions : List (Performed κ μ τ β)) : Prop :=
  executions.Pairwise fun earlier later => earlier.completed = true → later.event ≠ earlier.event

/-- The callbacks of an event were executed to the end. -/
def Executed (state : State κ μ τ β) (event : ListedEvent τ β) : Prop :=
  ∃ performed ∈ state.executions, performed.event = event ∧ performed.completed = true

/-- An event is stored, and its callbacks were executed to the end. -/
structure Handled (state : State κ μ τ β) (event : ListedEvent τ β) : Prop where
  stored : state.files event.file = some (.whole event)
  executed : Executed state event

/-- Lists of events at an agent server that only grow from one refresh to the next. -/
def Growing (refreshes : List (Refresh κ μ π τ β)) : Prop :=
  ∃ lists : List (List (ListedEvent τ β)),
    List.Forall₂ (fun refresh list => refresh.listed = some list) refreshes lists ∧
      lists.Pairwise (· <+: ·)

def isWhole : Option (StoredFile (ListedEvent τ β)) → Bool
  | some (.whole _) => true
  | _ => false

/-- Nothing is raised around the callbacks of an event: the table can be asked, and when there are callbacks for
the event, all are read and saved, and the session commits. -/
def Undisturbed (conversationId : μ) (event : ListedEvent τ β) (surroundings : Surroundings κ μ π) : Prop :=
  match surroundings.table with
  | none => False
  | some rows => ∀ callback ∈ rows.filter (selects conversationId event.kind),
      surroundings.validates callback = true ∧ surroundings.saves callback = true ∧
        surroundings.commits = true

instance (conversationId : μ) (event : ListedEvent τ β) (surroundings : Surroundings κ μ π) :
    Decidable (Undisturbed conversationId event surroundings) :=
  match same : surroundings.table with
  | none => isFalse (by simp [Undisturbed, same])
  | some rows => decidable_of_iff (∀ callback ∈ rows.filter (selects conversationId event.kind),
      surroundings.validates callback = true ∧ surroundings.saves callback = true ∧
        surroundings.commits = true) (by rw [Undisturbed, same])

/-- An execution is completed exactly when nothing is raised around the callbacks, whatever they raise. -/
theorem completed_iff (conversationId : μ) (event : ListedEvent τ β) (surroundings : Surroundings κ μ π) :
    (executeCallbacks conversationId event surroundings).completed = true ↔
      Undisturbed conversationId event surroundings := by
  rw [executeCallbacks, Undisturbed]
  cases surroundings.table with
  | none => exact ⟨fun completed => (Bool.false_ne_true completed).elim, False.elim⟩
  | some rows =>
    dsimp only
    split
    · rename_i none
      rw [isEmpty_iff.mp none]
      simp
    rename_i some
    obtain ⟨callback, member⟩ := exists_mem_of_ne_nil _ (fun none => some (isEmpty_iff.mpr none))
    split
    · rename_i valid
      rw [all_eq_true] at valid
      rw [Bool.and_eq_true, all_eq_true]
      constructor
      · rintro ⟨saved, commits⟩ other listed
        exact ⟨valid other listed, saved other listed, commits⟩
      · intro all
        exact ⟨fun other listed => (all other listed).2.1, (all callback member).2.2⟩
    · rename_i invalid
      refine ⟨fun completed => (Bool.false_ne_true completed).elim, fun all => ?_⟩
      exact (invalid (all_eq_true.mpr fun other listed => (all other listed).1)).elim

theorem performed_event (conversationId : μ) (event : ListedEvent τ β) (surroundings : Surroundings κ μ π) :
    (executeCallbacks conversationId event surroundings).event = event := by
  rw [executeCallbacks]
  split
  · rfl
  dsimp only
  split
  · rfl
  · split
    · rfl
    · rfl

/-! ## One event -/

variable (table : DigitTable) (conversationId : μ)

/-- What does not reach the gap between storing an event and executing its callbacks, for the event that was looked
for and what was found. An event that is found is the one that was looked for. When none is found, the file that is
written holds no event yet, writing does not raise after the whole event was written, and nothing is raised around
the callbacks after it was stored. -/
def HarmlessFind (files : Files τ β) (label : ListedEvent τ β × Fate κ μ π)
    (found : Option (ListedEvent τ β)) : Prop :=
  (∀ existing ∈ found, existing = label.1) ∧
    (found = none → isWhole (files label.1.file) = false ∧ label.2.save ≠ .raises .whole ∧
      (label.2.save = .stored → Undisturbed conversationId label.1 label.2.surroundings))

/-- An event is looked for without harm, if at all. -/
def Harmless (progress : Progress κ μ τ β) (label : ListedEvent τ β × Fate κ μ π) : Prop :=
  progress.raised = false → ∀ eventId ∈ uuidOf table label.1.id,
    ∀ found ∈ getEvent progress.state.files eventId label.2.load,
      HarmlessFind conversationId progress.state.files label found

instance [DecidableEq τ] [DecidableEq β] (files : Files τ β) (label : ListedEvent τ β × Fate κ μ π)
    (found : Option (ListedEvent τ β)) : Decidable (HarmlessFind conversationId files label found) :=
  inferInstanceAs (Decidable ((∀ existing ∈ found, existing = label.1) ∧
    (found = none → isWhole (files label.1.file) = false ∧ label.2.save ≠ .raises .whole ∧
      (label.2.save = .stored → Undisturbed conversationId label.1 label.2.surroundings))))

instance [DecidableEq τ] [DecidableEq β] (progress : Progress κ μ τ β) (label : ListedEvent τ β × Fate κ μ π) :
    Decidable (Harmless table conversationId progress label) :=
  -- there are too many identifiers to try all of them
  @instDecidableForall _ _ _ (Option.decidableForallMem (uuidOf table label.1.id))

variable {files : Files τ β}

omit [DecidableEq μ] in
theorem found_stored {eventId : PendingMessages.Uuid} {load : Load} {existing : ListedEvent τ β}
    (found : getEvent files eventId load = some (some existing)) :
    ∃ name, files name = some (.whole existing) := by
  cases load with
  | raises => cases found
  | unreadable => cases found
  | readable =>
    rw [getEvent] at found
    split at found
    · rename_i event whole
      cases found
      exact ⟨_, whole⟩
    · cases found

variable {event : ListedEvent τ β}

/-- What becomes of an event without harm: the state stays, and unless something was raised, the event is in a file;
or a part of a file is written and something is raised; or the event is stored and its callbacks are executed. -/
theorem refreshEvent_cases {progress : Progress κ μ τ β} {fate : Fate κ μ π}
    (harmless : Harmless table conversationId progress (event, fate)) :
    let next := refreshEvent table conversationId progress (event, fate)
    (next.state = progress.state ∧
        (next.raised = true ∨ ∃ name, progress.state.files name = some (.whole event))) ∨
      (isWhole (progress.state.files event.file) = false ∧ next.raised = true ∧
        next.state = ⟨write progress.state.files event.file .part, progress.state.executions⟩) ∨
      (isWhole (progress.state.files event.file) = false ∧ ∃ performed : Performed κ μ τ β,
        performed.event = event ∧ performed.completed = true ∧ next.state =
          ⟨write progress.state.files event.file (.whole event), progress.state.executions ++ [performed]⟩) := by
  obtain ⟨⟨files, executions⟩, raised⟩ := progress
  rw [refreshEvent]
  cases raised with
  | true => exact .inl ⟨rfl, .inl rfl⟩
  | false =>
    rw [if_neg Bool.false_ne_true]
    split
    · exact .inl ⟨rfl, .inl rfl⟩
    rename_i eventId named
    have met := harmless rfl eventId named
    split
    · exact .inl ⟨rfl, .inl rfl⟩
    · rename_i existing found
      obtain rfl : existing = event := (met _ found).1 existing rfl
      exact .inl ⟨rfl, .inr (found_stored found)⟩
    · rename_i missing
      obtain ⟨free, notWhole, executed⟩ := (met none missing).2 rfl
      cases save : fate.save with
      | stored =>
        have completed := (completed_iff ..).mpr (executed save)
        exact .inr (.inr ⟨free, _, performed_event .., completed, rfl⟩)
      | raises remainder =>
        rw [if_pos (by simp)]
        cases remainder with
        | nothing => exact .inl ⟨rfl, .inl rfl⟩
        | part => exact .inr (.inl ⟨free, rfl, rfl⟩)
        | whole => exact (notWhole save).elim

/-! ## The invariant -/

/-- Whole events are in their files, with their callbacks executed; events whose callbacks were executed are in their
files; and no callbacks were executed again. -/
structure Sound (state : State κ μ τ β) : Prop where
  whole : ∀ name event, state.files name = some (.whole event) → name = event.file ∧ Executed state event
  stored : ∀ performed ∈ state.executions, state.files performed.event.file = some (.whole performed.event)
  once : NotRepeated state.executions

omit [DecidableEq μ] in
theorem sound_initial : Sound (initial : State κ μ τ β) where
  whole name event held := by cases held
  stored performed member := by cases member
  once := List.Pairwise.nil

variable {name : String}

omit [DecidableEq μ] in
/-- Where no whole event was, another file is as it was or holds what was written. -/
theorem write_whole (file : StoredFile (ListedEvent τ β)) (free : isWhole (files name) = false)
    {other : String} (held : files other = some (.whole event)) :
    write files name file other = some (.whole event) := by
  rw [write, if_neg]
  · exact held
  · rintro rfl
    rw [held] at free
    cases free

variable (refresh : Refresh κ μ π τ β) (progress : Progress κ μ τ β)
  (labels : List (ListedEvent τ β × Fate κ μ π)) {state : State κ μ τ β}

omit [DecidableEq μ] in
/-- An event stays handled when no whole event is written over and executions are added. -/
theorem handled_write (name : String) (file : StoredFile (ListedEvent τ β))
    (free : isWhole (state.files name) = false) (more : List (Performed κ μ τ β))
    (event : ListedEvent τ β) (handled : Handled state event) :
    Handled ⟨write state.files name file, state.executions ++ more⟩ event where
  stored := write_whole _ free handled.stored
  executed := by
    obtain ⟨performed, member, same⟩ := handled.executed
    exact ⟨performed, mem_append_left more member, same⟩

omit [DecidableEq μ] in
/-- A part of a file in the place of no whole event keeps the invariant. -/
theorem sound_part (free : isWhole (state.files name) = false) (sound : Sound state) :
    Sound ⟨write state.files name .part, state.executions⟩ where
  whole other event held := by
    dsimp only [write] at held
    split at held
    · cases held
    · exact sound.whole other event held
  stored performed member := write_whole _ free (sound.stored performed member)
  once := sound.once

omit [DecidableEq μ] in
/-- An event that is stored and whose callbacks are executed keeps the invariant, where no event was. -/
theorem sound_handled {performed : Performed κ μ τ β}
    (free : isWhole (state.files event.file) = false) (own : performed.event = event)
    (completed : performed.completed = true) (sound : Sound state) :
    Sound ⟨write state.files event.file (.whole event), state.executions ++ [performed]⟩ where
  whole other held same := by
    dsimp only [write] at same
    split at same
    · rename_i here
      obtain rfl := StoredFile.whole.inj (Option.some.inj same)
      exact ⟨here, performed, by simp, own, completed⟩
    · obtain ⟨named, execution, member, executed⟩ := sound.whole other held same
      exact ⟨named, execution, mem_append_left _ member, executed⟩
  stored execution member := by
    rcases mem_append.mp member with before | new
    · exact write_whole _ free (sound.stored execution before)
    · rw [mem_singleton.mp new, own]
      exact if_pos rfl
  once := by
    apply pairwise_append.mpr
    refine ⟨sound.once, pairwise_singleton _ _, fun earlier before later new _ same => ?_⟩
    rw [mem_singleton.mp new, own] at same
    have held := sound.stored earlier before
    rw [← same] at held
    rw [held] at free
    cases free

/-- A harmless event keeps the invariant and what was handled, and is handled unless something is raised. -/
theorem event_sound (event : ListedEvent τ β) (fate : Fate κ μ π) (sound : Sound progress.state)
    (harmless : Harmless table conversationId progress (event, fate)) :
    let next := refreshEvent table conversationId progress (event, fate)
    Sound next.state ∧ (∀ other, Handled progress.state other → Handled next.state other) ∧
      (next.raised = false → Handled next.state event) := by
  intro next
  rcases refreshEvent_cases _ _ harmless with
    ⟨same, found⟩ | ⟨free, raised, same⟩ | ⟨free, performed, own, completed, same⟩
  · rw [same]
    refine ⟨sound, fun other handled => handled, fun quiet => ?_⟩
    rcases found with raised | ⟨name, held⟩
    · exact (Bool.false_ne_true (quiet.symm.trans raised)).elim
    · obtain ⟨rfl, executed⟩ := sound.whole name event held
      exact ⟨held, executed⟩
  · change next.state = _ at same
    rw [same]
    refine ⟨sound_part free sound, fun other handled => ?_, fun quiet => ?_⟩
    · have kept := handled_write event.file .part free [] other handled
      rwa [append_nil] at kept
    · exact (Bool.false_ne_true (quiet.symm.trans raised)).elim
  · change next.state = _ at same
    rw [same]
    refine ⟨sound_handled free own completed sound,
      handled_write _ _ free _, fun _ => ⟨?_, performed, by simp, own, completed⟩⟩
    exact if_pos rfl

/-! ## The events of a refresh -/

/-- Once something was raised, nothing happens any more. -/
theorem run_raised (raised : progress.raised = true) :
    run (refreshEvent table conversationId) progress labels = progress := by
  induction labels with
  | nil => rfl
  | cons label rest ih =>
    have stays : refreshEvent table conversationId progress label = progress := by
      rw [refreshEvent]
      exact if_pos raised
    rw [run_cons, stays, ih]

/-- Harmless events keep the invariant and what was handled, and all of them are handled unless something is
raised. -/
theorem events_sound (sound : Sound progress.state)
    (harmless : Along (refreshEvent table conversationId) (Harmless table conversationId) progress labels)
    :
    let final := run (refreshEvent table conversationId) progress labels
    Sound final.state ∧ (∀ other, Handled progress.state other → Handled final.state other) ∧
      (final.raised = false → ∀ label ∈ labels, Handled final.state label.1) := by
  induction labels generalizing progress with
  | nil => exact ⟨sound, fun other handled => handled, fun _ label member => by cases member⟩
  | cons label rest ih =>
    obtain ⟨event, fate⟩ := label
    obtain ⟨here, later⟩ := harmless
    obtain ⟨soundHere, keptHere, handledHere⟩ := event_sound _ _ _ _ _ sound here
    obtain ⟨soundLater, keptLater, handledLater⟩ := ih _ soundHere later
    intro final
    refine ⟨soundLater, fun other handled => keptLater other (keptHere other handled), fun quiet => ?_⟩
    -- nothing was raised by the first event, for that would have been the end
    have first : (refreshEvent table conversationId progress (event, fate)).raised = false := by
      by_contra raised
      rw [Bool.not_eq_false] at raised
      have stays := run_raised table conversationId _ rest raised
      have stopped : final.raised = true := (congrArg Progress.raised stays).trans raised
      rw [quiet] at stopped
      cases stopped
    intro label member
    rcases member with _ | ⟨_, listed⟩
    · exact keptLater event (handledHere first)
    · exact handledLater quiet label listed

/-! ## A refresh -/

/-- The events of the pages that are served, each with its fate. -/
def met (refresh : Refresh κ μ π τ β) : Nat → Nat → Option String → List (ListedEvent τ β × Fate κ μ π)
  | 0, _, _ => []
  | questions + 1, asked, pageId =>
      match refresh.fetchEventsPage asked pageId with
      | none => []
      | some page => refresh.labels asked page.items ++
          match page.next with
          | none => []
          | some nextPageId => met refresh questions (asked + 1) (some nextPageId)

/-- A refresh that is harmless for each event it meets; it meets none when it does not get to the events. -/
def HarmlessRefresh (state : State κ μ τ β) (refresh : Refresh κ μ π τ β) : Prop :=
  refresh.answered = true ∧ refresh.infoSaved = true →
    Along (refreshEvent table conversationId) (Harmless table conversationId) ⟨state, false⟩
      (met refresh refresh.questions 0 none)

instance [DecidableEq τ] [DecidableEq β] (state : State κ μ τ β) (refresh : Refresh κ μ π τ β) :
    Decidable (HarmlessRefresh table conversationId state refresh) :=
  inferInstanceAs (Decidable (refresh.answered = true ∧ refresh.infoSaved = true →
    Along (refreshEvent table conversationId) (Harmless table conversationId) ⟨state, false⟩
      (met refresh refresh.questions 0 none)))

/-- A refresh that ends without anything being raised has handled every event that is listed. -/
def Complete (state : State κ μ τ β) (refresh : Refresh κ μ π τ β) : Prop :=
  (refreshConversation table conversationId state refresh).2 = true →
    ∃ events, refresh.listed = some events ∧
      ∀ event ∈ events, Handled (step table conversationId state refresh) event

variable (questions asked : Nat) (pageId : Option String)

/-- The state is that of the events that are met, one after the other. -/
theorem refreshPages_state (progress : Progress κ μ τ β) :
    (refreshPages table conversationId refresh questions asked pageId progress).1 =
      (run (refreshEvent table conversationId) progress (met refresh questions asked pageId)).state := by
  induction questions generalizing asked pageId progress with
  | zero => rfl
  | succ questions ih =>
    rw [refreshPages, met]
    cases refresh.fetchEventsPage asked pageId with
    | none => rfl
    | some page =>
      dsimp only
      rw [run_append]
      split
      · rename_i raised
        rw [run_raised _ _ _ _ raised]
      · cases page.next with
        | none => rfl
        | some nextPageId => exact ih (asked + 1) (some nextPageId) _

/-- At the end of all pages nothing was raised, and the events that were met are those that are listed. -/
theorem refreshPages_finished (progress : Progress κ μ τ β)
    (finished : (refreshPages table conversationId refresh questions asked pageId progress).2 = true)
    :
    (run (refreshEvent table conversationId) progress (met refresh questions asked pageId)).raised = false ∧
      follow (fun asked pageId => some (refresh.search asked (if pageId = some "" then none else pageId)))
        questions asked pageId = some ((met refresh questions asked pageId).map Prod.fst) := by
  induction questions generalizing asked pageId progress with
  | zero => cases finished
  | succ questions ih =>
    rw [refreshPages] at finished
    rw [met, follow]
    cases fetched : refresh.fetchEventsPage asked pageId with
    | none =>
      rw [fetched] at finished
      cases finished
    | some page =>
      have answer : page = refresh.search asked (if pageId = some "" then none else pageId) := by
        rw [Refresh.fetchEventsPage] at fetched
        split at fetched
        · exact (Option.some.inj fetched).symm
        · cases fetched
      have items : (refresh.labels asked page.items).map Prod.fst = page.items := by
        rw [Refresh.labels, map_map]
        exact zipIdx_map_fst 0 page.items
      rw [fetched] at finished
      dsimp only at finished ⊢
      rw [← answer, run_append]
      split at finished
      · cases finished
      rename_i quiet
      cases next : page.next with
      | none =>
        simp only [run_nil, append_nil, items]
        exact ⟨by simpa using quiet, trivial⟩
      | some nextPageId =>
        rw [next] at finished
        obtain ⟨rest, others⟩ := ih (asked + 1) (some nextPageId) _ finished
        simp only [others, Option.map_some, map_append, items]
        exact ⟨rest, trivial⟩

/-- A harmless refresh keeps the invariant, and is complete. -/
theorem refresh_sound {refresh : Refresh κ μ π τ β} (sound : Sound state)
    (harmless : HarmlessRefresh table conversationId state refresh) :
    Sound (step table conversationId state refresh) ∧ Complete table conversationId state refresh := by
  unfold step Complete step
  rw [refreshConversation]
  split
  · exact ⟨sound, fun finished => (Bool.false_ne_true finished).elim⟩
  rename_i reached
  have both : refresh.answered = true ∧ refresh.infoSaved = true := by simpa using reached
  obtain ⟨kept, -, handled⟩ := events_sound _ _ _ _ sound (harmless both)
  rw [refreshPages_state]
  refine ⟨kept, fun finished => ?_⟩
  obtain ⟨quiet, listed⟩ := refreshPages_finished _ _ _ _ _ _ _ finished
  refine ⟨_, listed, fun event member => ?_⟩
  obtain ⟨label, among, rfl⟩ := mem_map.mp member
  exact handled quiet label among

/-! ## Runs -/

/-- In every run of harmless refreshes, no callbacks are executed again after a completed execution, and every
refresh that ends without anything being raised has handled all events that are listed. -/
theorem events_handled (refreshes : List (Refresh κ μ π τ β))
    (harmless : Along (step table conversationId) (HarmlessRefresh table conversationId) initial refreshes) :
    (∀ state, Reached (step table conversationId) initial refreshes state → NotRepeated state.executions) ∧
      Along (step table conversationId) (Complete table conversationId) initial refreshes := by
  have preserved : ∀ (state : State κ μ τ β) (refresh : Refresh κ μ π τ β), Sound state →
      HarmlessRefresh table conversationId state refresh → Sound (step table conversationId state refresh) :=
    fun state refresh sound met => (refresh_sound _ _ sound met).1
  constructor
  · intro state reached
    exact (invariant_along _ _ _ preserved _ _ sound_initial harmless _ reached).once
  · exact along_of_invariant _ _ _ _ preserved
      (fun state refresh sound met => (refresh_sound _ _ sound met).2)
      _ _ sound_initial harmless

/-- An event with an identifier of thirty-two digits. -/
def messageEvent (id : String) : ListedEvent Nat String := ⟨⟨id, "MessageEvent", 0⟩, "hello"⟩

/-- A callback that listens to all events of conversation 7. -/
def listening : EventCallbacks.EventCallback Nat Nat String := ⟨0, some 7, .active, "SetTitle", none, 0, 0⟩

/-- Everything goes well but the processor of the callback, and the commit if it is said so. -/
def fateWith (save : Save) (commits : Bool) : Fate Nat Nat String where
  load := .readable
  save := save
  surroundings := ⟨some [listening], fun _ => true, fun _ => .error "no title", fun _ => true, commits⟩

/-- A refresh with the events on one page, all of the same fate. -/
def onePage (ids : List String) (fate : Fate Nat Nat String) : Refresh Nat Nat String Nat String where
  answered := true
  infoSaved := true
  search _ _ := ⟨ids.map messageEvent, none⟩
  served _ := true
  questions := 1
  fates _ _ := fate

/-- A part of the event is written in the first refresh; the second one goes well. -/
def fullDisk : List (Refresh Nat Nat String Nat String) :=
  [onePage ["00000000-0000-4000-8000-00000000000a"] (fateWith (.raises .part) true),
    onePage ["00000000-0000-4000-8000-00000000000a"] (fateWith .stored true)]

theorem full_disk_handled :
    (∀ state, Reached (step (fun _ => none) 7) initial fullDisk state → NotRepeated state.executions) ∧
      Along (step (fun _ => none) 7) (Complete (fun _ => none) 7) initial fullDisk :=
  events_handled (fun _ => none) 7 _ (by decide +kernel)

/-- The session does not commit in the first refresh; the second one goes well. -/
def failedCommit : List (Refresh Nat Nat String Nat String) :=
  [onePage ["00000000-0000-4000-8000-00000000000a"] (fateWith .stored false),
    onePage ["00000000-0000-4000-8000-00000000000a"] (fateWith .stored true)]

/-- When the session does not commit, the event is stored, and its callbacks are never executed to the end. -/
theorem callbacks_lost :
    ¬ ∀ (table : DigitTable) (refreshes : List (Refresh Nat Nat String Nat String)), Growing refreshes →
      (∀ state, Reached (step table 7) initial refreshes state → NotRepeated state.executions) ∧
        Along (step table 7) (Complete table 7) initial refreshes := by
  intro all
  have growing : Growing failedCommit := ⟨[[messageEvent "00000000-0000-4000-8000-00000000000a"],
      [messageEvent "00000000-0000-4000-8000-00000000000a"]], .cons rfl (.cons rfl .nil), by decide⟩
  obtain ⟨-, -, complete, -⟩ := all (fun _ => none) failedCommit growing
  obtain ⟨events, listed, handled⟩ := complete (by decide +kernel)
  cases listed
  obtain ⟨performed, member, -, completed⟩ := (handled _ (.head _)).executed
  have none : ∀ performed ∈ (run (step (fun _ => none) 7) initial failedCommit).executions,
      performed.completed = false := by
    decide +kernel
  have never := none performed member
  rw [completed] at never
  cases never

end ForgePilot.EventHandovers
