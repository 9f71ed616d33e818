import ForgePilot.Base64
import ForgePilot.EventWebhook
import ForgePilot.OrderedDict

/-!
# The batched webhook file store

Each update of the wrapped store is queued under its path. An update of a path that is queued already takes
the place of the earlier one, where that stands in the queue. The queue is handed over when its
contents have reached the size limit, when the timer fires, and on a flush; what was handed over is kept in
order.

The wrapped store has files at places; paths with the same place name the same file, and deleting
a path removes all that lies at its place or below. A call that the wrapped store refuses raises before
anything is queued, and is not a step here. The timer may fire at any time: one that was cancelled
too late still fires.
-/

namespace ForgePilot.BatchedWebHook

open Base64 EventWebhook

/-! ## Files -/

/-- Where paths lead to, and which places lie at another or below it. -/
structure Layout (Λ : Type) where
  place : String → Λ
  within : Λ → Λ → Bool

def onDisk (root : String) : Layout (List String) :=
  ⟨FileStores.locate root, fun directory place => directory.isPrefixOf place⟩

abbrev Files (Λ : Type) := Λ → Option ByteArray

/-- What is written: a text, which is encoded in UTF-8, or bytes. -/
inductive Contents where
  | text (characters : String)
  | bytes (raw : ByteArray)

def Contents.encoded : Contents → ByteArray
  | .text characters => characters.toUTF8
  | .bytes raw => raw

/-- An operation that is queued, with its contents. -/
inductive Update where
  | write (contents : Contents)
  | delete

variable {Λ : Type} [DecidableEq Λ] (layout : Layout Λ)

/-- What an update leaves at a place, if it touches it. -/
def Update.touches (path : String) (place : Λ) : Update → Option (Option ByteArray)
  | .write contents => if place = layout.place path then some (some contents.encoded) else none
  | .delete => if layout.within (layout.place path) place then some none else none

/-- The files after an update of a path. -/
def applyUpdate (files : Files Λ) (path : String) (update : Update) : Files Λ :=
  fun place => (update.touches layout path place).getD (files place)

/-! ## The queue -/

abbrev Batch := OrderedDict String Update

structure State (Λ : Type) where
  fileStore : Files Λ
  batch : Batch
  batchSize : Int
  batchTimer : Bool
  /-- What was handed over, in order. -/
  sent : List Batch

def Update.contentSize : Update → Int
  | .write contents => contents.encoded.size
  | .delete => 0

/-- Hand the queue over and begin a new one. -/
def enqueueBatchFromLock (state : State Λ) : State Λ :=
  { state with
    batch := .empty, batchSize := 0, batchTimer := false, sent := state.sent ++ [state.batch] }

def queueUpdate (batchSizeLimitBytes : Int) (state : State Λ) (path : String) (update : Update) :
    State Λ :=
  let previousSize := ((state.batch.get path).map Update.contentSize).getD 0
  let queued := { state with
    batch := state.batch.set path update
    batchSize := state.batchSize - previousSize + update.contentSize }
  if queued.batchSize ≥ batchSizeLimitBytes then enqueueBatchFromLock queued
  else { queued with batchTimer := true }

/-- The calls of the store, and the timer. -/
inductive Call where
  | update (path : String) (update : Update)
  | timer
  | flush

def Call.write (path : String) (contents : Contents) : Call := .update path (.write contents)

def Call.delete (path : String) : Call := .update path .delete

/-- One call: the wrapped store is updated first. -/
def step (batchSizeLimitBytes : Int) (state : State Λ) : Call → State Λ
  | .update path update =>
      queueUpdate batchSizeLimitBytes
        { state with fileStore := applyUpdate layout state.fileStore path update } path update
  | .timer => enqueueBatchFromLock state
  | .flush => enqueueBatchFromLock state

/-- A store that wraps files. -/
def initial (files : Files Λ) : State Λ := ⟨files, .empty, 0, false, []⟩

/-! ## Requests -/

/-- How an update is sent. Bytes that are UTF-8 are sent as a text, others in base 64. -/
def requestItem (path : String) : Update → BatchOperation
  | .write (.text characters) => { method := .post, path, content := some characters }
  | .write (.bytes raw) =>
      match String.fromUTF8? raw with
      | some characters => { method := .post, path, content := some characters }
      | none =>
          { method := .post, path, content := some (b64encode raw), encoding := some "base64" }
  | .delete => { method := .delete, path }

def batchPayload (batch : Batch) : List BatchOperation :=
  batch.entries.map fun entry => requestItem entry.1 entry.2

/-! ## Replay -/

/-- A server that reads base 64; nothing else of it is used to read contents. -/
def receiver : Server Unit where
  getUserId _ := none
  getSessionApiKey _ _ := none
  b64decode := b64decode
  loads _ := none
  fileStore := .keyed

/-- The files after an operation; reading its contents may fail. -/
def replayOne (files : Files Λ) (operation : BatchOperation) : Option (Files Λ) :=
  match operation.method with
  | .post => (getContent receiver operation).map fun bytes =>
      applyUpdate layout files operation.path (.write (.bytes bytes))
  | .delete => some (applyUpdate layout files operation.path .delete)

/-- The files after all operations of the batches that were handed over and of the one that is pending. -/
def replayAll (files : Files Λ) (state : State Λ) : Option (Files Λ) :=
  ((state.sent ++ [state.batch]).flatMap batchPayload).foldlM (replayOne layout) files
end ForgePilot.BatchedWebHook
