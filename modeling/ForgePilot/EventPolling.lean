import ForgePilot.EventCallbacks
import ForgePilot.EventService
import ForgePilot.PendingMessages

/-!
# Events of an agent server

A conversation is refreshed by asking its agent server for all of its events, page by page. An event without a
file is written to one, and then its callbacks are executed; an event with a file is passed over. What is raised
on the way ends the refresh, which is begun anew some time later.

What is raised by a callback is recorded and passed over; what is raised around the callbacks is not. A file
that cannot be read is as good as none, and when writing a file raises, any part of it may have been written.
-/

namespace ForgePilot.EventPolling

open Characters EventService FloatTexts OffsetPages Runs
open EventCallbacks (EventCallback selects)
open PendingMessages (Uuid)

/-- An event with all that is listed of it. -/
structure ListedEvent (τ β : Type) extends Event τ where
  body : β
deriving DecidableEq

/-! ## Identifiers -/

/-- The number of digits with underscores between them, after a number. -/
def numberFrom (digit : Bool) (number : Nat) : List Char → Option Nat
  | [] => if digit then some number else none
  | '_' :: rest => if digit then numberFrom false number rest else none
  | character :: rest => do
      let value ← JsonReading.hexValue character
      numberFrom true (number * 16 + value) rest

/-- The number that a text of hexadecimal digits is; there may be a sign and the mark of such numbers. -/
def intOfHex (table : DigitTable) (text : List Char) : Option Int :=
  let (signed, unsigned) :=
    JsonReading.sign ['+', '-'] (trimmed ((text.map Char.toNat).map (asciiOf table)))
  let number :=
    match unsigned with
    | '0' :: mark :: rest =>
        if mark ≠ 'x' ∧ mark ≠ 'X' then numberFrom false 0 unsigned
        else if rest = [] then none
        else numberFrom true 0 rest
    | _ => numberFrom false 0 unsigned
  number.map fun size => if signed = ['-'] then -(size : Int) else size

/-- The identifier that a text is, in one of its spellings; other texts raise. -/
def uuidOf (table : DigitTable) (text : String) : Option Uuid :=
  let isBrace (character : Char) : Bool := character = '\x7b' || character = '\x7d'
  let inner := ((replace (replace text "urn:" "") "uuid:" "").toList.dropWhile isBrace).reverse
  let hex := (inner.dropWhile isBrace).reverse.filter (· ≠ '-')
  if hex.length ≠ 32 then none
  else
    match intOfHex table hex with
    | some (.ofNat number) => if number < 2 ^ 128 then some (BitVec.ofNat 128 number) else none
    | _ => none

/-! ## Callbacks -/

inductive EventCallbackResultStatus where
  | success | error
deriving DecidableEq

structure EventCallbackResult (κ μ : Type) where
  status : EventCallbackResultStatus
  eventCallbackId : κ
  eventId : String
  conversationId : μ
  detail : Option String
deriving DecidableEq

variable {κ μ π τ β : Type} [DecidableEq μ]

/-- What the execution of the callbacks of an event meets: the table, or nothing when it cannot be asked; the rows
that can be read and the copies that can be saved; the processors, which may raise; and the commit. -/
structure Surroundings (κ μ π : Type) where
  table : Option (List (EventCallback κ μ π))
  validates : EventCallback κ μ π → Bool
  processor : EventCallback κ μ π → Except String (Option (EventCallbackResult κ μ))
  saves : EventCallback κ μ π → Bool
  commits : Bool

/-- An execution of the callbacks of an event: the callbacks that were processed, what was recorded, and whether it
was completed. -/
structure Performed (κ μ τ β : Type) where
  event : ListedEvent τ β
  callbacks : List κ
  results : List (EventCallbackResult κ μ)
  completed : Bool
deriving DecidableEq

/-- What is recorded of a callback, if anything. -/
def executeCallback (conversationId : μ) (event : ListedEvent τ β)
    (processor : EventCallback κ μ π → Except String (Option (EventCallbackResult κ μ)))
    (callback : EventCallback κ μ π) : Option (EventCallbackResult κ μ) :=
  match processor callback with
  | .ok result => result
  | .error detail => some ⟨.error, callback.id, event.id, conversationId, some detail⟩

/-- Execute the callbacks that are active and listen to an event. -/
def executeCallbacks (conversationId : μ) (event : ListedEvent τ β) (surroundings : Surroundings κ μ π) :
    Performed κ μ τ β :=
  match surroundings.table with
  | none => ⟨event, [], [], false⟩
  | some table =>
      let callbacks := table.filter (selects conversationId event.kind)
      if callbacks.isEmpty then ⟨event, [], [], true⟩
      else if callbacks.all surroundings.validates then
        { event
          callbacks := callbacks.map (·.id)
          results := callbacks.filterMap (executeCallback conversationId event surroundings.processor)
          completed := callbacks.all surroundings.saves && surroundings.commits }
      else ⟨event, [], [], false⟩

/-! ## Files -/

inductive StoredFile (ε : Type) where
  | whole (event : ε)
  | part
deriving DecidableEq

/-- How a file is looked for. What is raised by reading it is passed over. -/
inductive Load where
  | raises | unreadable | readable
deriving DecidableEq

/-- What writing a file leaves when it raises. -/
inductive Remainder where
  | nothing | part | whole
deriving DecidableEq

inductive Save where
  | stored
  | raises (remainder : Remainder)
deriving DecidableEq

/-- The files of a conversation, by their names. -/
abbrev Files (τ β : Type) := String → Option (StoredFile (ListedEvent τ β))

/-- The event of an identifier, if there is one; nothing where this raises. -/
def getEvent (files : Files τ β) (eventId : Uuid) : Load → Option (Option (ListedEvent τ β))
  | .raises => none
  | .unreadable => some none
  | .readable =>
      match files (String.ofList eventId.hex ++ ".json") with
      | some (.whole event) => some (some event)
      | _ => some none

def ListedEvent.file (event : ListedEvent τ β) : String := fileOf event.toEvent

/-- The files with one that was written. -/
def write (files : Files τ β) (name : String) (file : StoredFile (ListedEvent τ β)) (other : String) :
    Option (StoredFile (ListedEvent τ β)) :=
  if other = name then some file else files other

def saveEvent (files : Files τ β) (event : ListedEvent τ β) : Save → Files τ β
  | .stored => write files event.file (.whole event)
  | .raises .nothing => files
  | .raises .part => write files event.file .part
  | .raises .whole => write files event.file (.whole event)

/-! ## A refresh -/

/-- The files, and the executions of callbacks in their order. -/
structure State (κ μ τ β : Type) where
  files : Files τ β
  executions : List (Performed κ μ τ β)

/-- Nothing is stored and nothing was executed. -/
def initial : State κ μ τ β := ⟨fun _ => none, []⟩

/-- How the steps for an event go. -/
structure Fate (κ μ π : Type) where
  load : Load
  save : Save
  surroundings : Surroundings κ μ π

/-- A state on the way, and whether something was raised. -/
structure Progress (κ μ τ β : Type) where
  state : State κ μ τ β
  raised : Bool

variable (table : DigitTable) (conversationId : μ)

/-- Store an event that is new, and execute its callbacks. -/
def refreshEvent (progress : Progress κ μ τ β) (label : ListedEvent τ β × Fate κ μ π) :
    Progress κ μ τ β :=
  let (event, fate) := label
  let ⟨⟨files, executions⟩, raised⟩ := progress
  if raised then progress
  else
    match uuidOf table event.id with
    | none => ⟨⟨files, executions⟩, true⟩
    | some eventId =>
        match getEvent files eventId fate.load with
        | none => ⟨⟨files, executions⟩, true⟩
        | some (some _) => progress
        | some none =>
            let saved := saveEvent files event fate.save
            if fate.save ≠ .stored then ⟨⟨saved, executions⟩, true⟩
            else
              let performed := executeCallbacks conversationId event fate.surroundings
              ⟨⟨saved, executions ++ [performed]⟩, !performed.completed⟩

/-- What a refresh meets: whether the conversation is answered and saved, the pages of the events, which of them are
served, how many of them are asked for at most, and how the steps for each event of a page go. -/
structure Refresh (κ μ π τ β : Type) where
  answered : Bool
  infoSaved : Bool
  search : Nat → Option String → Page String (ListedEvent τ β)
  served : Nat → Bool
  questions : Nat
  fates : Nat → Nat → Fate κ μ π

namespace Refresh

variable (refresh : Refresh κ μ π τ β)

/-- A page of the events; an empty name asks for the first one. -/
def fetchEventsPage (asked : Nat) (pageId : Option String) : Option (Page String (ListedEvent τ β)) :=
  if refresh.served asked then some (refresh.search asked (if pageId = some "" then none else pageId))
  else none

/-- The events of a page, each with its fate. -/
def labels (asked : Nat) (events : List (ListedEvent τ β)) : List (ListedEvent τ β × Fate κ μ π) :=
  events.zipIdx.map fun (event, place) => (event, refresh.fates asked place)

/-- The events that the agent server lists. -/
def listed : Option (List (ListedEvent τ β)) :=
  follow (fun asked pageId => some (refresh.search asked (if pageId = some "" then none else pageId)))
    refresh.questions 0 none

end Refresh

/-- Go through the pages; the end is whether all of them were reached without anything being raised. -/
def refreshPages (refresh : Refresh κ μ π τ β) : Nat → Nat → Option String → Progress κ μ τ β →
    State κ μ τ β × Bool
  | 0, _, _, progress => (progress.state, false)
  | questions + 1, asked, pageId, progress =>
      match refresh.fetchEventsPage asked pageId with
      | none => (progress.state, false)
      | some page =>
          let next := run (refreshEvent table conversationId) progress (refresh.labels asked page.items)
          if next.raised then (next.state, false)
          else
            match page.next with
            | none => (next.state, true)
            | some nextPageId => refreshPages refresh questions (asked + 1) (some nextPageId) next

/-- Make sure that all events of the agent server are stored; what is raised ends the refresh. -/
def refreshConversation (state : State κ μ τ β) (refresh : Refresh κ μ π τ β) : State κ μ τ β × Bool :=
  if !refresh.answered || !refresh.infoSaved then (state, false)
  else refreshPages table conversationId refresh refresh.questions 0 none ⟨state, false⟩

/-- The state after a refresh, however it ends. -/
def step (state : State κ μ τ β) (refresh : Refresh κ μ π τ β) : State κ μ τ β :=
  (refreshConversation table conversationId state refresh).1

end ForgePilot.EventPolling
