import ForgePilot.BatchedWebHook
import ForgePilot.Runs
import Mathlib.Algebra.Ring.Int.Defs

/-!
# Replaying the batches

What is handed over and what is pending are updates in a row, and applying them gives the files
of the wrapped store as long as putting an update in the place of an earlier one of the same path comes to the same
as putting it at the end. It does if the pending updates after that place leave nothing else where the
new update leaves something, and the replaced one is not missed where they and the new update leave
nothing.
-/

namespace ForgePilot.BatchReplays

open Runs Base64 EventWebhook BatchedWebHook List OrderedDict Option

variable {Λ : Type} [DecidableEq Λ] (layout : Layout Λ)

/-! ## Updates in a row -/

abbrev Entries := List (String × Update)

/-- The files after some updates. -/
def applyAll (files : Files Λ) (entries : Entries) : Files Λ :=
  entries.foldl (fun files entry => applyUpdate layout files entry.1 entry.2) files

/-- What some updates leave at a place, if one of them touches it. -/
def left (place : Λ) : Entries → Option (Option ByteArray)
  | [] => none
  | (path, update) :: rest => (left place rest).or (update.touches layout path place)

variable (limit : Int) (files : Files Λ)

/-- The last update that touches a place decides what is there. -/
theorem applyAll_apply (entries : Entries) (place : Λ) :
    applyAll layout files entries place = (left layout place entries).getD (files place) := by
  induction entries generalizing files with
  | nil => rfl
  | cons entry rest ih =>
    obtain ⟨path, update⟩ := entry
    rw [applyAll, foldl_cons]
    change applyAll layout (applyUpdate layout files path update) rest place = _
    rw [ih, left, applyUpdate]
    cases left layout place rest <;> rfl

theorem applyAll_append (first second : Entries) : applyAll layout files (first ++ second) =
      applyAll layout (applyAll layout files first) second :=
  foldl_append

/-! ## What is sent is what was queued -/

variable (state : State Λ) (path : String)

/-- Contents are read back from the operation that they are sent in. -/
theorem getContent_requestItem (contents : Contents) :
    getContent receiver (requestItem path (.write contents)) = some contents.encoded := by
  cases contents with
  | text characters => rfl
  | bytes raw =>
    rw [requestItem]
    by_cases valid : raw.IsValidUTF8
    · have decoded : String.fromUTF8? raw = some (String.fromUTF8 raw valid) := by
        rw [String.fromUTF8?, dif_pos valid]
      rw [decoded]
      rfl
    · have undecoded : String.fromUTF8? raw = none := by
        rw [String.fromUTF8?, dif_neg valid]
      rw [undecoded]
      exact b64decode_b64encode raw

theorem replayOne_requestItem (update : Update) : replayOne layout files (requestItem path update) =
      some (applyUpdate layout files path update) := by
  cases update with
  | delete => rfl
  | write contents =>
    have posted : (requestItem path (.write contents)).method = .post ∧
        (requestItem path (.write contents)).path = path := by
      cases contents with
      | text characters => exact ⟨rfl, rfl⟩
      | bytes raw =>
        rw [requestItem]
        split <;> exact ⟨rfl, rfl⟩
    rw [replayOne, posted.1, posted.2, getContent_requestItem]
    rfl

/-- The updates of a state that were handed over or are pending, in order. -/
def updates (state : State Λ) : Entries := (state.sent ++ [state.batch]).flatMap fun batch => batch.entries

/-- Replaying never fails, and applies these updates. -/
theorem replayAll_eq :
    replayAll layout files state = some (applyAll layout files (updates state)) := by
  have replayed : ∀ (entries : Entries) (files : Files Λ),
      (entries.map fun entry => requestItem entry.1 entry.2).foldlM (replayOne layout) files =
        some (applyAll layout files entries) := by
    intro entries
    induction entries with
    | nil => exact fun files => rfl
    | cons entry rest ih =>
      intro files
      rw [map_cons, foldlM_cons, replayOne_requestItem]
      exact ih _
  rw [replayAll, updates, ← replayed, map_flatMap]
  rfl

/-! ## Putting an update in the place of another -/

structure Fits (files : Files Λ) (earlier later : Entries) (path : String) (old new : Update) :
    Prop where
  /-- The later updates leave nothing else where the new one leaves something. -/
  kept : ∀ place outcome other, new.touches layout path place = some outcome →
    left layout place later = some other → other = outcome
  /-- Where nothing but the old one leaves something, that was there already. -/
  spent : ∀ place outcome, new.touches layout path place = none →
    left layout place later = none → old.touches layout path place = some outcome →
      applyAll layout files earlier place = outcome

theorem fits_iff (prior later : Entries) (path : String) (old new : Update) :
    applyAll layout files (prior ++ (path, new) :: later) =
        applyUpdate layout (applyAll layout files (prior ++ (path, old) :: later)) path new ↔
      Fits layout files prior later path old new := by
  have replaced : ∀ (update : Update) place,
      applyAll layout files (prior ++ (path, update) :: later) place =
        ((left layout place later).or (update.touches layout path place)).getD
          (applyAll layout files prior place) := by
    intro update place
    rw [applyAll_append, applyAll_apply]
    rfl
  constructor
  · intro same
    have same : ∀ place, _ := congrFun same
    simp only [replaced, applyUpdate] at same
    constructor
    · intro place outcome other touched remains
      simpa [touched, remains] using same place
    · intro place outcome untouched unremaining touched
      simpa [untouched, unremaining, touched] using same place
  · intro fits
    funext place
    rw [replaced, applyUpdate, replaced]
    cases touched : new.touches layout path place with
    | some outcome =>
      cases remains : left layout place later with
      | some other => exact fits.kept place outcome other touched remains
      | none => rfl
    | none =>
      cases remains : left layout place later with
      | some other => rfl
      | none =>
        cases before : old.touches layout path place with
        | some outcome => exact fits.spent place outcome touched remains before
        | none => rfl

/-- An entry that is replaced in a dictionary keeps its place. -/
theorem entries_set_of_split {batch : Batch} {prior later : Entries} {path : String}
    (old new : Update) (split : batch.entries = prior ++ (path, old) :: later) :
    (batch.set path new).entries = prior ++ (path, new) :: later := by
  have distinct := batch.distinct
  rw [split, map_append, map_cons, nodup_append] at distinct
  have absent : ∀ entry ∈ prior, path ≠ entry.1 := fun entry listed same =>
    distinct.2.2 entry.1 (mem_map_of_mem listed) path (.head _) same.symm
  change put path new batch.entries = _
  rw [split]
  clear distinct split
  induction prior with
  | nil => exact if_pos rfl
  | cons first rest ih =>
    obtain ⟨other, stored⟩ := first
    rw [cons_append, put, if_neg (absent (other, stored) (.head _)),
      ih fun entry listed => absent entry (.tail _ listed)]
    rfl

/-! ## Steps -/

/-- The files that replaying what was handed over gives. -/
def replica (files : Files Λ) (state : State Λ) : Files Λ :=
  applyAll layout files (state.sent.flatMap fun batch => batch.entries)

/-- What is assumed of a call: where it updates a path that is pending, it fits in the place of the
pending update. -/
def Fitting (files : Files Λ) (state : State Λ) : Call → Prop
  | .update path update => ∀ earlier old later,
      state.batch.entries = earlier ++ (path, old) :: later →
        Fits layout (replica layout files state) earlier later path old update
  | .timer => True
  | .flush => True

/-- Replaying gives the files of the wrapped store. -/
def Replays (files : Files Λ) (state : State Λ) : Prop :=
  replayAll layout files state = some state.fileStore

theorem replays_iff : Replays layout files state ↔
      applyAll layout (replica layout files state) state.batch.entries = state.fileStore := by
  rw [Replays, replayAll_eq, updates, flatMap_append, applyAll_append, some_inj]
  simp [replica]

/-- Handing over does not change what is replayed. -/
theorem replayAll_enqueue :
    replayAll layout files (enqueueBatchFromLock state) = replayAll layout files state := by
  rw [replayAll_eq, replayAll_eq, updates, updates, enqueueBatchFromLock]
  simp [empty]

/-- After an update, its path has it as its pending update, or it was just handed over. -/
theorem replayAll_update (limit : Int) (state : State Λ) (path : String) (update : Update) :
    replayAll layout files (step layout limit state (.update path update)) =
      some (applyAll layout (replica layout files state) (state.batch.set path update).entries) := by
  have queued : ∀ queued : State Λ, queued.sent = state.sent →
      queued.batch = state.batch.set path update → replayAll layout files queued =
        some (applyAll layout (replica layout files state)
          (state.batch.set path update).entries) := by
    intro queued sent batch
    rw [replayAll_eq, updates, sent, batch, flatMap_append, applyAll_append]
    simp [replica]
  rw [step, queueUpdate]
  dsimp only
  split
  · rw [replayAll_enqueue]
    exact queued _ rfl rfl
  · exact queued _ rfl rfl

theorem fileStore_update (update : Update) :
    (step layout limit state (.update path update)).fileStore =
      applyUpdate layout state.fileStore path update := by
  rw [step, queueUpdate]
  dsimp only
  split <;> rfl

/-- A call keeps the replay right just when it is fitting. -/
theorem step_exact (call : Call) (replays : Replays layout files state) :
    Fitting layout files state call ↔ Replays layout files (step layout limit state call) := by
  cases call with
  | timer => exact ⟨fun _ => (replayAll_enqueue ..).trans replays, fun _ => trivial⟩
  | flush => exact ⟨fun _ => (replayAll_enqueue ..).trans replays, fun _ => trivial⟩
  | update path update =>
    have before := (replays_iff ..).mp replays
    rw [Replays, replayAll_update, fileStore_update, some_inj, ← before]
    cases present : state.batch.get path with
    | none =>
      have absent := (state.batch.get_eq_none_iff path).mp present
      constructor
      · intro _
        rw [entries_set_of_absent _ _ _ absent, applyAll_append]
        rfl
      · intro _ prior old later split
        refine absurd ?_ absent
        rw [OrderedDict.keys, split]
        simp
    | some old =>
      obtain ⟨prior, later, split⟩ :=
        append_of_mem ((state.batch.get_eq_some_iff path old).mp present)
      constructor
      · intro fitting
        rw [entries_set_of_split _ _ split, split]
        exact (fits_iff ..).mpr (fitting prior old later split)
      · intro same prior old later split
        rw [entries_set_of_split _ _ split, split] at same
        exact (fits_iff ..).mp same

/-! ## Sizes -/

/-- The size is that of the pending contents. -/
def SizeRight (state : State Λ) : Prop :=
  state.batchSize = (state.batch.values.map Update.contentSize).sum

theorem sum_set (batch : Batch) (path : String) (update : Update) :
    ((batch.set path update).values.map Update.contentSize).sum =
      (batch.values.map Update.contentSize).sum -
        ((batch.get path).map Update.contentSize).getD 0 + update.contentSize := by
  cases present : batch.get path with
  | none =>
    have absent := (batch.get_eq_none_iff path).mp present
    rw [values, values, entries_set_of_absent _ _ _ absent]
    simp
  | some old =>
    obtain ⟨prior, later, split⟩ := append_of_mem ((batch.get_eq_some_iff path old).mp present)
    rw [values, values, entries_set_of_split _ _ split, split]
    simp only [map_append, map_cons, sum_append, sum_cons, map_some,
      getD_some]
    omega

theorem step_sizeRight (call : Call) (right : SizeRight state) :
    SizeRight (step layout limit state call) := by
  cases call with
  | timer => rfl
  | flush => rfl
  | update path update =>
    have right : state.batchSize = _ := right
    rw [step, queueUpdate]
    dsimp only
    split
    · rfl
    · rw [SizeRight, sum_set, ← right]

/-! ## Runs -/

/-- In every run the size is that of the pending contents, and replaying what was handed over and what is
pending always gives the files of the wrapped store just when every call is fitting. -/
theorem batches_replay (limit : Int) (files : Files Λ) (calls : List Call) :
    (∀ state, Reached (step layout limit) (initial files) calls state → SizeRight state) ∧
      ((∀ state, Reached (step layout limit) (initial files) calls state →
          Replays layout files state) ↔
        Along (step layout limit) (Fitting layout files) (initial files) calls) := by
  constructor
  · intro state reached
    exact invariant_along _ (fun _ _ => True) _
      (fun current call right _ => step_sizeRight _ _ _ _ right)
      (initial files) calls rfl (along_of_forall _ (fun _ _ => trivial) _ _) state reached
  · exact invariant_exact _ _ _
      (fun state call replays => step_exact _ _ _ _ _ replays) _ _ rfl

/-- A file is written, its directory is deleted, and it is written again: the write stands before the
deletion. -/
def rewritten : List Call :=
  [.write "a/b" (.text "x"), .delete "a", .write "a/b" (.text "y")]

theorem rewritten_lost :
    ¬ ∀ state, Reached (step (onDisk "/r") 1048576) (initial fun _ => none) rewritten state →
      Replays (onDisk "/r") (fun _ => none) state := by
  intro replays
  have last := replays _ (reached_run _ (initial fun _ => none) ..)
  have file := congrArg (fun files => files.map fun files => files ["r", "a", "b"]) last
  revert file
  decide +kernel
end ForgePilot.BatchReplays
