import ForgePilot.FloatTexts
import ForgePilot.OffsetPages
import ForgePilot.Sequences
import Mathlib.Order.Lattice

/-!
# Events in files

Every event of a conversation is in a file of its own. A search reads all files, keeps the events that are
asked for, sorts them by their times, and cuts a page out of what it has; the next page is named by its
offset. Counting without filters counts the files.

How a file is read and how a time is compared with a bound belong to the development kit and are left open:
not every file holds an event, and not every comparison is possible.
-/

namespace ForgePilot.EventService

open FloatTexts OffsetPages Sequences

structure Event (τ : Type) where
  id : String
  kind : String
  timestamp : τ
deriving DecidableEq

def fileOf {τ : Type} (event : Event τ) : String :=
  String.ofList (event.id.toList.filter (· ≠ '-')) ++ ".json"

/-- The files of a conversation and the events that are read from them, each from its own file. -/
structure EventFiles (τ : Type) where
  paths : List String
  loadEvent : String → Option (Event τ)
  distinct : paths.Nodup
  named : ∀ path ∈ paths, ∀ event, loadEvent path = some event → path = fileOf event

inductive EventSortOrder where
  | timestamp
  | timestampDesc
deriving DecidableEq

/-- What events are asked for; an empty kind asks for all. -/
structure Filters (δ : Type) where
  kindEq : Option String := none
  timestampGte : Option δ := none
  timestampLt : Option δ := none

variable {τ δ : Type}

/-- Whether there is a filter at all. -/
def Filters.given (filters : Filters δ) : Bool :=
  filters.kindEq.any (· ≠ "") || filters.timestampGte.isSome || filters.timestampLt.isSome

/-- Whether an event passes the filters; nothing where a comparison raises. -/
def passes (less : τ → δ → Option Bool) (filters : Filters δ) (event : Event τ) : Option Bool := do
  if filters.kindEq.any (fun kind => kind ≠ "" ∧ event.kind ≠ kind) then return false
  let early ← filters.timestampGte.elim (some false) (less event.timestamp)
  if early then return false
  filters.timestampLt.elim (some true) (less event.timestamp)

/-- The events that pass the filters, in the order of the files. -/
def select (less : τ → δ → Option Bool) (filters : Filters δ) : List (Option (Event τ)) →
    Option (List (Event τ))
  | [] => some []
  | none :: rest => select less filters rest
  | some event :: rest => do
      let passed ← passes less filters event
      let others ← select less filters rest
      return if passed then event :: others else others

variable [LinearOrder τ]

/-- Whether an event may stand before another one. -/
def EventSortOrder.le (sortOrder : EventSortOrder) (first second : Event τ) : Bool :=
  match sortOrder with
  | .timestamp => first.timestamp ≤ second.timestamp
  | .timestampDesc => second.timestamp ≤ first.timestamp

/-- Sorting keeps the order of events of the same time, in either direction. -/
def sortEvents (sortOrder : EventSortOrder) (items : List (Event τ)) : List (Event τ) :=
  items.mergeSort sortOrder.le

/-- Where a page starts; a text that is no number raises. -/
def startOffset (table : DigitTable) : Option String → Option Int
  | some pageId => if pageId = "" then some 0 else intOfStr table pageId
  | none => some 0

/-- A page of the events, for files that are listed in some order; nothing where the search raises. -/
def searchEvents (table : DigitTable) (less : τ → δ → Option Bool) (files : EventFiles τ)
    (paths : List String) (filters : Filters δ) (sortOrder : EventSortOrder) (pageId : Option String)
    (limit : Nat) : Option (Page String (Event τ)) := do
  let events ← select less filters (paths.map files.loadEvent)
  let start ← startOffset table pageId
  let items := slice (sortEvents sortOrder events) (some start) none
  return if items.length > limit then ⟨items.take limit, some (strOfInt (start + limit))⟩
    else ⟨items, none⟩

/-- The number of events; nothing where a search raises or the pages do not end. -/
def countEvents (table : DigitTable) (less : τ → δ → Option Bool) (files : EventFiles τ)
    (listings : Nat → List String) (filters : Filters δ) (pages : Nat) : Option Nat :=
  if filters.given then
    (follow (fun asked pageId =>
      searchEvents table less files (listings asked) filters .timestamp pageId 100) pages 0 none).map
        List.length
  else some (listings 0).length

end ForgePilot.EventService
