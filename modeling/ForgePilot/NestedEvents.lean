import ForgePilot.EventPages
import ForgePilot.Paging

/-!
# Events of a nested server

A conversation may run on another server that is asked for its events over HTTP. Its
route answers with one page: it searches with one event more than the limit and says
whether there was one. The client asks for page after page, starting behind the last
event it has seen, or below the lowest one when it reads in reverse; it applies the
filter, counts the limit down, and stops at the event with the id of the end.

The route always finds the conversation here; an answer without it ends a search
without an exception. Events are carried as documents, which are converted back.
-/

namespace ForgePilot.NestedEvents

open EventPages Paging List

variable {τ δ ε : Type}

/-- Events as the route writes them, and their ids. -/
structure Wire (ε δ : Type) where
  eventToDict : ε → δ
  eventId : ε → Int

variable (codec : Codec τ δ ε) (wire : Wire ε δ)

/-- The answer of the route. -/
structure EventPage (δ : Type) where
  events : List δ
  hasMore : Bool

/-- The limit of the route when none is given. -/
def defaultLimit : Int := 20

def searchRoute (store : FileStore τ) (startId : Int) (endId : Option Int) (reverse : Bool)
    (limit : Option Int) : Except String (EventPage δ) :=
  let limit := limit.getD defaultLimit
  if limit < 0 ∨ 100 < limit then .error "Invalid limit"
  else
    match searchEvents codec (.opened store)
        { startId := startId, endId := endId, reverse := reverse, limit := some (limit + 1) } with
    | (_, some raised) => .error raised
    | (events, none) =>
        let hasMore := decide (limit < (events.length : Int))
        let events := if hasMore then events.take limit.toNat else events
        .ok ⟨events.map wire.eventToDict, hasMore⟩

/-- The arguments of a search of the client; a limit is positive. -/
structure Query (ε : Type) where
  startId : Int := 0
  endId : Option Int := none
  reverse : Bool := false
  keep : ε → Bool := fun _ => true
  limit : Option Int := none
  positive : ∀ bound ∈ limit, 0 < bound := by simp

/-- The cursors of the client and what is left of its limit. -/
structure Cursor where
  startCursor : Int
  endCursor : Option Int
  limit : Option Int

/-- What the client notes while it reads a page. -/
structure Notes where
  pageMinId : Option Int
  forwardNextStart : Int

def Notes.seen (notes : Notes) (reverse : Bool) (id : Int) : Notes :=
  if reverse then { notes with pageMinId := some (notes.pageMinId.elim id (min · id)) }
  else { notes with forwardNextStart := max notes.forwardNextStart (id + 1) }

/-- How the reading of a page ends: with an exception, by a return, or with what is
left of the limit and the notes. -/
inductive PageEnd where
  | raised (message : String)
  | returned
  | exhausted (limit : Option Int) (notes : Notes)

/-- Read a page: what is yielded, and how it ends. -/
def readPage (query : Query ε) : Option Int → Notes → List δ → List ε × PageEnd
  | limit, notes, [] => ([], .exhausted limit notes)
  | limit, notes, result :: rest =>
    match codec.eventFromDict result with
    | .error raised => ([], .raised raised)
    | .ok event =>
      let notes := notes.seen query.reverse (wire.eventId event)
      if query.endId = some (wire.eventId event) then
        (if query.keep event then [event] else [], .returned)
      else if query.keep event = false then readPage query limit notes rest
      else
        match limit with
        | none =>
            let later := readPage query none notes rest
            (event :: later.1, later.2)
        | some bound =>
            if bound - 1 ≤ 0 then ([event], .returned)
            else
              let later := readPage query (some (bound - 1)) notes rest
              (event :: later.1, later.2)

def Cursor.next (cursor : Cursor) (reverse : Bool) (limit : Option Int) (notes : Notes) :
    Cursor where
  startCursor := if reverse then cursor.startCursor else notes.forwardNextStart
  endCursor :=
    if reverse then (notes.pageMinId.map (· - 1)).or cursor.endCursor else cursor.endCursor
  limit := limit

/-- The loop over pages; without fuel it is not known what it yields. -/
def searchPages (store : FileStore τ) (query : Query ε) : Nat → Cursor → Option (Yielded ε)
  | 0, _ => none
  | fuel + 1, cursor =>
    match searchRoute codec wire store cursor.startCursor
        (if query.reverse then cursor.endCursor else none) query.reverse
        (cursor.limit.map (min 100)) with
    | .error raised => some ([], some raised)
    | .ok page =>
      match readPage codec wire query cursor.limit ⟨none, cursor.startCursor⟩ page.events with
      | (events, .raised raised) => some (events, some raised)
      | (events, .returned) => some (events, none)
      | (events, .exhausted limit notes) =>
          if page.hasMore = false then some (events, none)
          else (searchPages store query fuel (cursor.next query.reverse limit notes)).map
            (fun later => (events ++ later.1, later.2))

def searchNested (store : FileStore τ) (query : Query ε) (fuel : Nat) : Option (Yielded ε) :=
  searchPages codec wire store query fuel ⟨query.startId, none, query.limit⟩

/-- Get an event of the nested server: the first one from its id on. -/
def getNested (store : FileStore τ) (id : Int) (fuel : Nat) : Option (Except String (Option ε)) :=
  (searchNested codec wire store { startId := id, limit := some 1 } fuel).map fun yielded =>
    match yielded with
    | (_, some raised) => .error raised
    | (events, none) => .ok events.head?

/-- The same search of the local store. -/
def searchLocal (store : FileStore τ) (query : Query ε) : Yielded ε :=
  searchEvents codec (.opened store)
    { startId := query.startId, endId := query.endId, reverse := query.reverse
      includes := fun event => .ok (query.keep event), limit := query.limit }

/-! ## The stored events -/

/-- A stored conversation. Its pages agree with its files, and a file holds an event
of its id, which is converted to a document and back. -/
structure Conversation where
  store : FileStore τ
  faithful : Faithful codec store
  readable : ∀ id text, store.events.get id = some text → ∃ event,
    codec.loadEvent text = .ok event ∧ wire.eventId event = id ∧
      codec.eventFromDict (wire.eventToDict event) = .ok event

/-- The event of a file, when there is one. -/
def readEvent (store : FileStore τ) (id : Int) : Option ε :=
  (store.events.get id).bind (fun text => (codec.loadEvent text).toOption)

/-- The stored events by increasing id. -/
def storedEvents (store : FileStore τ) : List ε :=
  (store.events.keys.mergeSort (fun first second => first ≤ second)).filterMap
    (readEvent codec store)

/-- The events between two ids, the upper one excluded. -/
def between (low high : Int) (events : List ε) : List ε :=
  events.filter (fun event => low ≤ wire.eventId event && wire.eventId event < high)

variable {event : ε}

section Stored

variable (conversation : Conversation codec wire)

/-- Every file is read without an exception. -/
theorem reads (id : Int) : getEvent codec conversation.store id =
    .ok (readEvent codec conversation.store id) := by
  unfold getEvent readEvent
  cases found : conversation.store.events.get id with
  | none => rfl
  | some text =>
    obtain ⟨event, loaded, -⟩ := conversation.readable id text found
    simp [loaded, Except.map, Except.toOption]

/-- An event that is read has the id of its file, and survives the conversion. -/
theorem read_event {id : Int} (read : readEvent codec conversation.store id = some event) :
    wire.eventId event = id ∧ codec.eventFromDict (wire.eventToDict event) = .ok event := by
  obtain ⟨text, found, parsed⟩ := Option.bind_eq_some_iff.mp read
  obtain ⟨stored, loaded, same, restored⟩ := conversation.readable id text found
  rw [loaded] at parsed
  obtain rfl : stored = event := by simpa [Except.toOption] using parsed
  exact ⟨same, restored⟩

/-- The stored events are those that are read under their ids. -/
theorem mem_stored_events (event : ε) : event ∈ storedEvents codec conversation.store ↔
    readEvent codec conversation.store (wire.eventId event) = some event := by
  simp only [storedEvents, mem_filterMap, mem_mergeSort]
  constructor
  · rintro ⟨id, -, read⟩
    rwa [(read_event _ _ _ read).1]
  · intro read
    refine ⟨wire.eventId event, ?_, read⟩
    obtain ⟨text, found, -⟩ := Option.bind_eq_some_iff.mp read
    exact (OrderedDict.mem_keys_iff _ _).mpr ⟨text, found⟩

theorem read_ascending (ids : List Int) (increasing : ids.Pairwise (· < ·)) :
    Ascending wire.eventId (ids.filterMap (readEvent codec conversation.store)) := by
  refine pairwise_filterMap.mpr (increasing.imp ?_)
  intro first second less event read other readOther
  rw [(read_event _ _ _ read).1, (read_event _ _ _ readOther).1]
  exact less

theorem stored_ascending : Ascending wire.eventId (storedEvents codec conversation.store) := by
  apply read_ascending
  have sorted := @List.pairwise_mergeSort Int (fun first second => decide (first ≤ second))
    (by simp only [decide_eq_true_eq]; omega) (by simp only [Bool.or_eq_true, decide_eq_true_eq]; omega)
    conversation.store.events.keys
  have distinct : (conversation.store.events.keys.mergeSort
      (fun first second => first ≤ second)).Nodup :=
    (mergeSort_perm _ _).nodup_iff.mpr conversation.store.events.distinct
  refine (pairwise_and_iff.mpr ⟨sorted, distinct⟩).imp ?_
  rintro first second ⟨below, different⟩
  simp only [decide_eq_true_eq] at below
  omega

/-- Reading all ids between two bounds gives the events between them. -/
theorem read_between (ids : List Int) (low high : Int) (increasing : ids.Pairwise (· < ·))
    (all : ∀ id, id ∈ ids ↔ low ≤ id ∧ id < high) :
    ids.filterMap (readEvent codec conversation.store) =
      between wire low high (storedEvents codec conversation.store) := by
  apply ascending_ext _ (read_ascending _ _ _ ids increasing)
  · exact Ascending.filter _ (stored_ascending ..) _
  · intro event
    simp only [between, mem_filter, mem_stored_events, mem_filterMap, Bool.and_eq_true,
      decide_eq_true_eq]
    constructor
    · rintro ⟨id, member, read⟩
      rw [(read_event _ _ _ read).1]
      exact ⟨read, (all id).mp member⟩
    · rintro ⟨read, inside⟩
      exact ⟨wire.eventId event, (all _).mpr inside, read⟩

theorem offsets (count : Nat) (visit : Int → Int) :
    List.map visit (do let offset ← List.range count; pure (offset : Int)) =
      (List.range count).map (fun offset : Nat => visit offset) := by
  simp [← map_eq_flatMap]

variable (search : Search ε)

/-- The ids of a search, read in its order, give the events between its bounds. -/
theorem read_indices (current : Int) :
    (search.indices current).filterMap (readEvent codec conversation.store) =
      directed search.reverse (between wire search.startId
        ((search.endId.map (· + 1)).getD current) (storedEvents codec conversation.store)) := by
  unfold Search.indices directed
  generalize (search.endId.map (· + 1)).getD current = stop
  simp only [offsets]
  cases search.reverse with
  | false =>
    simp only [Bool.false_eq_true, if_false]
    apply read_between
    · rw [pairwise_map]
      exact pairwise_lt_range.imp (by omega)
    · intro id
      simp only [mem_map, mem_range]
      constructor
      · rintro ⟨offset, inside, rfl⟩
        omega
      · intro inside
        exact ⟨(id - search.startId).toNat, by omega, by omega⟩
  | true =>
    simp only [if_true]
    rw [← read_between _ _ _
      ((range (stop - search.startId).toNat).map (fun offset : Nat => stop - 1 - offset)).reverse,
      filterMap_reverse, reverse_reverse]
    · rw [pairwise_reverse, pairwise_map]
      exact pairwise_lt_range.imp (by omega)
    · intro id
      simp only [mem_reverse, mem_map, mem_range]
      constructor
      · rintro ⟨offset, inside, rfl⟩
        omega
      · intro inside
        exact ⟨(stop - 1 - id).toNat, by omega, by omega⟩

/-- A search without exceptions or shutdown yields the kept events between its bounds,
up to its limit. -/
theorem search_stored (keep : ε → Bool) (limit : Option Nat)
    (keeps : search.includes = fun event => .ok (keep event))
    (continues : search.continues = fun _ => true)
    (bounded : search.limit = limit.map (fun bound : Nat => (bound : Int)))
    (positive : ∀ bound ∈ limit, 0 < bound) :
    searchEvents codec (.opened conversation.store) search =
      (cutAt limit ((directed search.reverse (between wire search.startId
        ((search.endId.map (· + 1)).getD (calculateCurId conversation.store))
        (storedEvents codec conversation.store))).filter keep), none) := by
  have counted : ∀ bound, search.limit = some bound → 0 ≤ bound := by
    intro bound given
    rw [bounded] at given
    obtain ⟨natural, -, rfl⟩ := Option.map_eq_some_iff.mp given
    omega
  have alone := read_individually_eq codec conversation.store search keep 0 0 limit
    (search.indices (calculateCurId conversation.store)) (by simp [continues])
    (reads codec wire conversation) (by simp [keeps]) positive (by simpa using bounded)
  rw [read_indices] at alone
  exact (search_events_eq codec conversation.faithful
    counted).trans alone

/-- The events a cursor has before it. -/
def remaining (reverse : Bool) (cursor : Cursor) (events : List ε) : List ε :=
  directed reverse (events.filter (fun event =>
    cursor.startCursor ≤ wire.eventId event &&
      (!reverse || cursor.endCursor.all (wire.eventId event ≤ ·))))

/-- Stored events have smaller ids than the calculated one. -/
theorem stored_below (member : event ∈ storedEvents codec conversation.store) :
    wire.eventId event < calculateCurId conversation.store := by
  rw [mem_stored_events] at member
  obtain ⟨text, found, -⟩ := Option.bind_eq_some_iff.mp member
  exact lt_calculate_cur_id
    ((OrderedDict.mem_keys_iff _ _).mpr ⟨text, found⟩)

/-- The events between the bounds of a request are those before its cursor. -/
theorem between_remaining (reverse : Bool) (cursor : Cursor) :
    directed reverse (between wire cursor.startCursor
      (((if reverse then cursor.endCursor else none).map (· + 1)).getD
        (calculateCurId conversation.store)) (storedEvents codec conversation.store)) =
      remaining wire reverse cursor (storedEvents codec conversation.store) := by
  congr 1
  apply filter_congr
  intro event member
  have below := stored_below _ _ _ member
  cases reverse with
  | false => simpa using fun _ => below
  | true =>
    cases cursor.endCursor with
    | none => simpa using fun _ => below
    | some stop =>
      simp only [if_true, Option.map_some, Option.getD_some, Bool.not_true, Bool.false_or,
        Option.all_some]
      rw [Bool.eq_iff_iff]
      simp only [Bool.and_eq_true, decide_eq_true_eq]
      omega

/-- The route answers with the next events before the cursor. -/
theorem route_page (reverse : Bool) (cursor : Cursor) (limit : Option Int) (bound : Nat)
    (given : limit.getD defaultLimit = bound) (small : bound ≤ 100) :
    searchRoute codec wire conversation.store cursor.startCursor
        (if reverse then cursor.endCursor else none) reverse limit =
      .ok ⟨((remaining wire reverse cursor (storedEvents codec conversation.store)).take
          bound).map wire.eventToDict,
        bound < (remaining wire reverse cursor
          (storedEvents codec conversation.store)).length⟩ := by
  have found := search_stored codec wire conversation
    { startId := cursor.startCursor, endId := if reverse then cursor.endCursor else none
      reverse := reverse, limit := some ((bound : Int) + 1) } (fun _ => true) (some (bound + 1))
    rfl rfl rfl (by simp)
  rw [between_remaining ..] at found
  have valid : ¬ ((bound : Int) < 0 ∨ 100 < (bound : Int)) := by omega
  simp only [searchRoute, given, valid, if_false, found, cutAt, filter_true]
  generalize remaining wire reverse cursor (storedEvents codec conversation.store) = events
  have more : ((bound : Int) < ((events.take (bound + 1)).length : Int)) ↔
      bound < events.length := by
    rw [length_take]
    omega
  simp only [more, decide_eq_true_eq, Int.toNat_natCast, take_take]
  by_cases longer : bound < events.length
  · rw [if_pos longer, Nat.min_eq_left (Nat.le_succ bound)]
  · have short : events.length ≤ bound := by omega
    rw [if_neg longer, take_of_length_le short,
      take_of_length_le (Nat.le_succ_of_le short)]

end Stored

/-! ## Reading a stream of events -/

/-- The events a reader takes of a stream: it stops at the end and at the limit. -/
def scan (query : Query ε) : Option Int → List ε → List ε
  | _, [] => []
  | limit, event :: rest =>
    if query.endId = some (wire.eventId event) then if query.keep event then [event] else []
    else if query.keep event = false then scan query limit rest
    else
      match limit with
      | none => event :: scan query none rest
      | some bound =>
          if bound - 1 ≤ 0 then [event] else event :: scan query (some (bound - 1)) rest

/-- The events up to the one with the id of the end, when there is one. -/
def upTo (endId : Option Int) : List ε → List ε
  | [] => []
  | event :: rest =>
      if endId = some (wire.eventId event) then [event] else event :: upTo endId rest

def Notes.after (notes : Notes) (reverse : Bool) (events : List ε) : Notes :=
  events.foldl (fun notes event => notes.seen reverse (wire.eventId event)) notes

/-- How a page was read: by a return, and then the rest of the stream does not count, or
with a limit and notes from which the rest of the stream is read. -/
def PageRead (query : Query ε) (limit : Option Int) (notes : Notes) (events taken : List ε) :
    PageEnd → Prop
  | .raised _ => False
  | .returned => ∀ rest, scan wire query limit (events ++ rest) = taken
  | .exhausted left noted =>
      (∀ rest, scan wire query limit (events ++ rest) = taken ++ scan wire query left rest) ∧
        noted = notes.after wire query.reverse events ∧ ∀ bound ∈ left, 0 < bound

/-- One more event before what was read, when the reader goes on behind it. -/
theorem PageRead.cons {query : Query ε} {limit left : Option Int} {notes : Notes}
    {others taken : List ε} {ending : PageEnd} (front : List ε)
    (passes : ∀ rest, scan wire query limit (event :: rest) = front ++ scan wire query left rest)
    (read : PageRead wire query left (notes.seen query.reverse (wire.eventId event)) others taken
      ending) : PageRead wire query limit notes (event :: others) (front ++ taken) ending := by
  cases ending with
  | raised message => exact read
  | returned =>
    intro rest
    rw [cons_append, passes, read rest]
  | exhausted bound noted =>
    obtain ⟨goes, same, positive⟩ := read
    refine ⟨fun rest => ?_, same, positive⟩
    rw [cons_append, passes, goes rest, append_assoc]

theorem read_page (query : Query ε) (limit : Option Int) (notes : Notes) (events : List ε)
    (positive : ∀ bound ∈ limit, 0 < bound)
    (restored : ∀ event ∈ events, codec.eventFromDict (wire.eventToDict event) = .ok event) :
    PageRead wire query limit notes events
      (readPage codec wire query limit notes (events.map wire.eventToDict)).1
      (readPage codec wire query limit notes (events.map wire.eventToDict)).2 := by
  induction events generalizing limit notes with
  | nil => exact ⟨fun rest => rfl, rfl, positive⟩
  | cons event others ih =>
    have later (limit : Option Int) (positive : ∀ bound ∈ limit, 0 < bound) :=
      ih limit (notes.seen query.reverse (wire.eventId event)) positive
        (fun other member => restored other (.tail event member))
    simp only [map_cons, readPage, restored event (.head _)]
    by_cases ends : query.endId = some (wire.eventId event)
    · simp only [ends, if_true]
      intro rest
      simp [scan, ends]
    simp only [ends, if_false]
    cases kept : query.keep event with
    | false => exact PageRead.cons _ [] (by simp [scan, ends, kept]) (later limit positive)
    | true =>
      cases limit with
      | none => exact PageRead.cons wire [event] (by simp [scan, ends, kept]) (later none positive)
      | some bound =>
        by_cases last : bound - 1 ≤ 0
        · simp only [last, if_true]
          intro rest
          simp [scan, ends, kept, last]
        simp only [last, if_false]
        have less : ∀ left ∈ some (bound - 1), 0 < left := by
          simp only [Option.mem_some_iff]
          omega
        exact PageRead.cons wire [event] (by simp [scan, ends, kept, last])
          (later (some (bound - 1)) less)

/-- Forwards the next page starts behind the last event. -/
theorem noted_forward (notes : Notes) (front : List ε) (last : ε)
    (ascending : Ascending wire.eventId (front ++ [last]))
    (begun : notes.forwardNextStart ≤ wire.eventId last + 1) :
    (notes.after wire false (front ++ [last])).forwardNextStart = wire.eventId last + 1 := by
  have bounded : (notes.after wire false front).forwardNextStart ≤ wire.eventId last + 1 := by
    induction front generalizing notes with
    | nil => exact begun
    | cons event others ih =>
      obtain ⟨above, behind⟩ := pairwise_cons.mp ascending
      have less := above last (mem_append_right others (.head _))
      apply ih _ behind
      simp only [Notes.seen, Bool.false_eq_true, if_false]
      omega
  simp only [Notes.after, foldl_append, foldl_cons, foldl_nil] at bounded ⊢
  simp only [Notes.seen, Bool.false_eq_true, if_false] at bounded ⊢
  omega

/-- In reverse the next page ends before the last event. -/
theorem noted_reverse (notes : Notes) (front : List ε) (last : ε)
    (descending : Ascending wire.eventId (front ++ [last]).reverse)
    (begun : ∀ lowest ∈ notes.pageMinId, wire.eventId last ≤ lowest) :
    (notes.after wire true (front ++ [last])).pageMinId = some (wire.eventId last) := by
  have bounded : ∀ lowest ∈ (notes.after wire true front).pageMinId,
      wire.eventId last ≤ lowest := by
    induction front generalizing notes with
    | nil => exact begun
    | cons event others ih =>
      obtain ⟨below, behind⟩ := pairwise_cons.mp (pairwise_reverse.mp descending)
      have less := below last (mem_append_right others (.head _))
      apply ih _ (pairwise_reverse.mpr behind)
      intro lowest found
      simp only [Notes.seen, if_true, Option.mem_some_iff] at found
      cases seen : notes.pageMinId with
      | none =>
        simp only [seen, Option.elim_none] at found
        omega
      | some lower =>
        have before := begun lower seen
        simp only [seen, Option.elim_some] at found
        omega
  simp only [Notes.after, foldl_append, foldl_cons, foldl_nil] at bounded ⊢
  simp only [Notes.seen, if_true, Option.some.injEq] at bounded ⊢
  generalize (foldl _ notes front).pageMinId = lowest at bounded ⊢
  cases lowest with
  | none => rfl
  | some lower =>
    have before := bounded lower rfl
    simp only [Option.elim_some]
    omega

section Loop

variable (conversation : Conversation codec wire)

/-- Behind a full page the cursor has the rest of its events before it. -/
theorem remaining_next (reverse : Bool) (cursor : Cursor) (left : Option Int) (bound : Nat)
    (filled : 0 < bound)
    (longer : bound < (remaining wire reverse cursor
      (storedEvents codec conversation.store)).length) :
    remaining wire reverse
        (cursor.next reverse left ((Notes.mk none cursor.startCursor).after wire reverse
          ((remaining wire reverse cursor (storedEvents codec conversation.store)).take bound)))
        (storedEvents codec conversation.store) =
      (remaining wire reverse cursor (storedEvents codec conversation.store)).drop bound := by
  generalize stream : remaining wire reverse cursor (storedEvents codec conversation.store) = events
    at longer ⊢
  have whole := take_append_drop bound events
  obtain ⟨front, last, page⟩ : ∃ front last, events.take bound = front ++ [last] := by
    have nonempty : events.take bound ≠ [] := by
      intro empty
      have size := congrArg length empty
      rw [length_take, length_nil] at size
      omega
    exact ⟨_, _, (dropLast_append_getLast nonempty).symm⟩
  have split : events = front ++ last :: events.drop bound := by
    rw [page] at whole
    simpa using whole.symm
  have member : last ∈ events := by
    rw [split]
    simp
  have ascending (keep : ε → Bool) := Ascending.filter wire.eventId
    (stored_ascending codec wire conversation) keep
  rw [page]
  cases reverse with
  | false =>
    simp only [remaining, directed, Bool.false_eq_true, if_false, Bool.not_false, Bool.true_or,
      Bool.and_true] at stream ⊢
    have sorted : Ascending wire.eventId (front ++ last :: events.drop bound) :=
      split ▸ stream ▸ ascending _
    have above : cursor.startCursor ≤ wire.eventId last := by
      rw [← stream, mem_filter] at member
      simpa using member.2
    have start := noted_forward wire (Notes.mk none cursor.startCursor) front last
      (sorted.sublist (by simp)) (Int.le_trans above (by omega))
    have rest := rest_ascending wire.eventId front (events.drop bound) last sorted
    rw [← split, ← stream, filter_filter] at rest
    simp only [Cursor.next, Bool.false_eq_true, if_false, start]
    rw [← stream, rest]
    apply filter_congr
    intro event _
    rw [Bool.eq_iff_iff]
    simp only [Bool.and_eq_true, decide_eq_true_eq]
    omega
  | true =>
    simp only [remaining, directed, if_true, Bool.not_true, Bool.false_or] at stream ⊢
    have turned : (front ++ [last]).reverse.Sublist events.reverse := by
      rw [reverse_sublist, split]
      simp
    have sorted : Ascending wire.eventId (front ++ [last]).reverse := by
      refine List.Pairwise.sublist turned ?_
      rw [← stream, reverse_reverse]
      exact ascending _
    have stop := noted_reverse wire (Notes.mk none cursor.startCursor) front last sorted (by simp)
    have below : cursor.endCursor.all (wire.eventId last ≤ ·) = true := by
      rw [← stream, mem_reverse, mem_filter, Bool.and_eq_true] at member
      exact member.2.2
    have rest := rest_descending wire.eventId _ front (events.drop bound) last (ascending _)
      (stream.trans split)
    rw [filter_filter] at rest
    simp only [Cursor.next, if_true, stop, Option.map_some, Option.some_or, Option.all_some]
    rw [rest]
    congr 1
    apply filter_congr
    intro event _
    rw [Bool.eq_iff_iff]
    simp only [Bool.and_eq_true, decide_eq_true_eq]
    cases given : cursor.endCursor with
    | none =>
      simp only [Option.all_none, and_true]
      omega
    | some upper =>
      simp only [given, Option.all_some, decide_eq_true_eq] at below ⊢
      omega

/-- With more fuel than events the loop yields what a reader takes of the stream. -/
theorem search_pages (query : Query ε) (fuel : Nat) (cursor : Cursor)
    (positive : ∀ bound ∈ cursor.limit, 0 < bound)
    (enough : (remaining wire query.reverse cursor
      (storedEvents codec conversation.store)).length < fuel) :
    searchPages codec wire conversation.store query fuel cursor =
      some (scan wire query cursor.limit (remaining wire query.reverse cursor
        (storedEvents codec conversation.store)), none) := by
  induction fuel generalizing cursor with
  | zero => omega
  | succ fuel ih =>
    obtain ⟨bound, given, filled, small⟩ : ∃ bound : Nat,
        (cursor.limit.map (min 100)).getD defaultLimit = bound ∧ 0 < bound ∧ bound ≤ 100 := by
      cases bounded : cursor.limit with
      | none => exact ⟨20, rfl, by omega, by omega⟩
      | some limit =>
        have above := positive limit bounded
        refine ⟨(min 100 limit).toNat, ?_, by omega, by omega⟩
        simp only [Option.map_some, Option.getD_some]
        omega
    have page := route_page codec wire conversation query.reverse cursor
      (cursor.limit.map (min 100)) bound given small
    have next (left : Option Int) := remaining_next codec wire conversation query.reverse cursor
      left _ filled
    have restored : ∀ event ∈ (remaining wire query.reverse cursor
        (storedEvents codec conversation.store)).take bound,
        codec.eventFromDict (wire.eventToDict event) = .ok event := by
      intro event taken
      have member : event ∈ storedEvents codec conversation.store := by
        have before := mem_of_mem_take taken
        unfold remaining directed at before
        split at before
        · exact (mem_filter.mp (mem_reverse.mp before)).1
        · exact (mem_filter.mp before).1
      rw [mem_stored_events] at member
      exact (read_event _ _ _ member).2
    have read := read_page codec wire query cursor.limit ⟨none, cursor.startCursor⟩ _ positive
      restored
    rw [searchPages, page]
    revert next enough read
    generalize remaining wire query.reverse cursor (storedEvents codec conversation.store) = events
    intro enough next read
    simp only
    revert read
    generalize readPage codec wire query cursor.limit ⟨none, cursor.startCursor⟩
      ((events.take bound).map wire.eventToDict) = result
    obtain ⟨taken, ending⟩ := result
    intro read
    have whole := take_append_drop bound events
    cases ending with
    | raised message => exact read.elim
    | returned =>
      have same := read (events.drop bound)
      rw [whole] at same
      rw [same]
    | exhausted left noted =>
      obtain ⟨goes, rfl, leftPositive⟩ := read
      have same := goes (events.drop bound)
      rw [whole] at same
      by_cases longer : bound < events.length
      · have shorter : (events.drop bound).length < fuel := by
          rw [length_drop]
          omega
        have rest := next left longer
        have later := ih
          (cursor.next query.reverse left ((Notes.mk none cursor.startCursor).after wire
            query.reverse (events.take bound))) leftPositive (by rw [rest]; exact shorter)
        simp only [longer, decide_true, Bool.true_eq_false, if_false, later, rest, Option.map_some,
          same]
        rfl
      · have none : events.drop bound = [] := drop_of_length_le (by omega)
        rw [none] at same
        simp only [longer, decide_false, if_true, same]
        rw [scan, append_nil]

end Loop

/-- Without the event of the end everything is read. -/
theorem up_to_absent {endId : Option Int} {events : List ε}
    (absent : ∀ event ∈ events, endId ≠ some (wire.eventId event)) :
    upTo wire endId events = events := by
  induction events with
  | nil => rfl
  | cons event others ih =>
    rw [upTo, if_neg (absent event (.head _)), ih]
    exact fun other member => absent other (.tail event member)

/-- Nothing behind the event of the end is read. -/
theorem up_to_present {stop : Int} (front back : List ε) (last : ε)
    (ends : wire.eventId last = stop) (before : ∀ event ∈ front, wire.eventId event ≠ stop) :
    upTo wire (some stop) (front ++ last :: back) = front ++ [last] := by
  induction front with
  | nil => simp [upTo, ends]
  | cons event others ih =>
    have differs : some stop ≠ some (wire.eventId event) :=
      fun same => before event (.head _) (Option.some.inj same).symm
    rw [cons_append, upTo, if_neg differs, ih]
    · rfl
    · exact fun other member => before other (.tail event member)

/-- A reader takes the kept events up to the end, up to the limit. -/
theorem scan_eq (query : Query ε) (limit : Option Int) (events : List ε)
    (positive : ∀ bound ∈ limit, 0 < bound) :
    scan wire query limit events =
      cutAt (limit.map Int.toNat) ((upTo wire query.endId events).filter query.keep) := by
  induction events generalizing limit with
  | nil => cases limit <;> simp [scan, upTo, cutAt]
  | cons event others ih =>
    unfold scan upTo
    by_cases ends : query.endId = some (wire.eventId event)
    · rw [if_pos ends, if_pos ends]
      cases kept : query.keep event with
      | false => cases limit <;> simp [cutAt, kept]
      | true =>
        cases limit with
        | none => simp [cutAt, kept]
        | some bound =>
          have above := positive bound rfl
          obtain ⟨less, size⟩ : ∃ less, bound.toNat = less + 1 := ⟨bound.toNat - 1, by omega⟩
          simp [cutAt, kept, size]
    · rw [if_neg ends, if_neg ends]
      cases kept : query.keep event with
      | false => simp [kept, ih limit positive]
      | true =>
        cases limit with
        | none => simp [kept, cutAt, ih none]
        | some bound =>
          have above := positive bound rfl
          by_cases last : bound - 1 ≤ 0
          · have one : bound.toNat = 1 := by omega
            simp [kept, last, cutAt, one]
          obtain ⟨less, rfl⟩ : ∃ less : Nat, bound = less + 2 := ⟨(bound - 2).toNat, by omega⟩
          have later := ih (some ((less : Int) + 2 - 1)) (by simp; omega)
          have size : ((less : Int) + 2).toNat = less + 1 + 1 := by omega
          have left : ((less : Int) + 2 - 1).toNat = less + 1 := by omega
          simp only [Option.map_some, left] at later
          simp [last, later, size, cutAt, kept]

/-- What stands behind does not count when there is nothing or the limit comes first. -/
theorem cut_append_iff (limit : Option Nat) (front back : List ε) :
    cutAt limit (front ++ back) = cutAt limit front ↔
      back = [] ∨ ∃ bound ∈ limit, bound ≤ front.length := by
  cases limit with
  | none => simp [cutAt]
  | some bound =>
    simp only [cutAt, Option.mem_some_iff, exists_eq_left']
    constructor
    · intro same
      by_cases short : bound ≤ front.length
      · exact .inr short
      · have sizes := congrArg length same
        simp only [length_take, length_append] at sizes
        exact .inl (length_eq_zero_iff.mp (by omega))
    · rintro (rfl | short)
      · rw [append_nil]
      · exact take_append_of_le_length short

/-- What stands in front appears, so it is nothing where it does not appear. -/
theorem cut_leading {limit : Option Nat} (positive : ∀ bound ∈ limit, 0 < bound)
    {front back others : List ε} (apart : ∀ event ∈ front, event ∉ others)
    (same : cutAt limit (front ++ back) = cutAt limit others) : front = [] := by
  cases front with
  | nil => rfl
  | cons event rest =>
    have leads : event ∈ cutAt limit (event :: rest ++ back) := by
      cases limit with
      | none => simp [cutAt]
      | some bound =>
        obtain ⟨less, rfl⟩ := Nat.exists_eq_succ_of_ne_zero (Nat.ne_of_gt (positive bound rfl))
        simp [cutAt]
    have within : event ∈ others := by
      rw [same] at leads
      cases limit with
      | none => exact leads
      | some bound => exact mem_of_mem_take leads
    exact absurd within (apart event (.head _))

def ahead (store : FileStore τ) (query : Query ε) : List ε :=
  (storedEvents codec store).filter (fun event => query.startId ≤ wire.eventId event)

/-- The kept ones among events with greater ids than the end. -/
def beyond (query : Query ε) (stop : Int) (events : List ε) : List ε :=
  (events.filter (fun event => stop < wire.eventId event)).filter query.keep

/-- The kept ones among events with smaller ids than the end. -/
def short (query : Query ε) (stop : Int) (events : List ε) : List ε :=
  (events.filter (fun event => wire.eventId event < stop)).filter query.keep

/-- The event of the end is among the events. -/
def Met (stop : Int) (events : List ε) : Prop := ∃ event ∈ events, wire.eventId event = stop

/-- The end of a query is where the client stops. Forwards the event of the end is stored,
or no kept event lies beyond it, or the limit comes first. In reverse no kept event lies
beyond the end, and when its event is stored, it is the last to be taken. -/
def Delimited (events : List ε) (query : Query ε) (stop : Int) : Prop :=
  if query.reverse then
    beyond wire query stop events = [] ∧ (Met wire stop events →
      short wire query stop events = [] ∨
        query.limit = some 1 ∧ ∃ event ∈ events, wire.eventId event = stop ∧ query.keep event = true)
  else
    Met wire stop events ∨ beyond wire query stop events = [] ∨
      ∃ bound ∈ query.limit,
        bound ≤ ((events.filter (fun event => wire.eventId event ≤ stop)).filter query.keep).length

section Exactness

variable (events : List ε) (ascending : Ascending wire.eventId events) (query : Query ε) (stop : Int)

theorem bounds_iff (size : Nat) : (∃ bound ∈ query.limit.map Int.toNat, bound ≤ size) ↔
    ∃ bound ∈ query.limit, bound ≤ (size : Int) := by
  simp

/-- Of an event and what follows it, the limit leaves the event alone. -/
theorem lead_cut_iff (last : ε) (rest : List ε) :
    cutAt (query.limit.map Int.toNat) ([last].filter query.keep ++ rest.filter query.keep) =
        cutAt (query.limit.map Int.toNat) ([last].filter query.keep) ↔
      rest.filter query.keep = [] ∨ query.limit = some 1 ∧ query.keep last = true := by
  rw [cut_append_iff, bounds_iff _]
  apply or_congr_right
  constructor
  · rintro ⟨bound, given, small⟩
    have above := query.positive bound given
    cases keeps : query.keep last with
    | false =>
      simp [keeps] at small
      omega
    | true =>
      simp only [filter_cons, keeps, if_true, filter_nil, length_singleton] at small
      obtain rfl : bound = 1 := by omega
      exact ⟨given, rfl⟩
  · rintro ⟨one, keeps⟩
    exact ⟨1, one, by simp [keeps]⟩

/-- Among ascending events only one has the id of an event. -/
theorem kept_present_iff (front back : List ε) (last : ε)
    (ascending : Ascending wire.eventId (front ++ last :: back)) :
    (∃ event ∈ front ++ last :: back,
        wire.eventId event = wire.eventId last ∧ query.keep event = true) ↔
      query.keep last = true := by
  obtain ⟨-, behind, before⟩ := pairwise_append.mp ascending
  obtain ⟨greater, -⟩ := pairwise_cons.mp behind
  constructor
  · rintro ⟨event, inside, same, keeps⟩
    rcases mem_append.mp inside with inFront | inBehind
    · exact absurd same (Int.ne_of_lt (before event inFront last (.head _)))
    · rcases inBehind with _ | ⟨_, inBack⟩
      · exact keeps
      · exact absurd same (Int.ne_of_gt (greater event inBack))
  · intro keeps
    exact ⟨last, mem_append_right front (.head _), rfl, keeps⟩

include ascending

/-- Forwards the client takes what lies up to the end exactly when it is delimited. -/
theorem forward_exact (forward : query.reverse = false) :
    cutAt (query.limit.map Int.toNat) ((upTo wire (some stop) events).filter query.keep) =
      cutAt (query.limit.map Int.toNat)
        ((events.filter (fun event => wire.eventId event ≤ stop)).filter query.keep) ↔
      Delimited wire events query stop := by
  rw [Delimited, if_neg (by simp [forward])]
  by_cases met : Met wire stop events
  · obtain ⟨last, member, rfl⟩ := met
    obtain ⟨front, back, rfl⟩ := append_of_mem member
    obtain ⟨-, low, -⟩ := around_ascending _ ascending
    obtain ⟨-, -, before⟩ := pairwise_append.mp ascending
    have reached := up_to_present wire _ back last rfl (fun event inFront =>
      Int.ne_of_lt (before event inFront last (.head _)))
    rw [low, reached]
    exact iff_of_true rfl (.inl ⟨last, member, rfl⟩)
  · have all := up_to_absent _
      (fun event member same => met ⟨event, member, (Option.some.inj same).symm⟩)
    rw [all, or_iff_right met, ← bounds_iff _]
    have whole : events.filter query.keep =
        (events.filter (fun event => wire.eventId event ≤ stop)).filter query.keep ++
          beyond wire query stop events := by
      rw [beyond, ← filter_append, ← split_ascending _ _ ascending]
    rw [whole]
    exact cut_append_iff _ _ _

/-- In reverse the client takes what lies up to the end exactly when it is delimited. -/
theorem reverse_exact (backward : query.reverse = true) :
    cutAt (query.limit.map Int.toNat) ((upTo wire (some stop) events.reverse).filter query.keep) =
      cutAt (query.limit.map Int.toNat)
        ((events.filter (fun event => wire.eventId event ≤ stop)).reverse.filter query.keep) ↔
      Delimited wire events query stop := by
  have positive : ∀ bound ∈ query.limit.map Int.toNat, 0 < bound := by
    intro bound given
    obtain ⟨limit, known, rfl⟩ := Option.map_eq_some_iff.mp given
    have above := query.positive limit known
    omega
  rw [Delimited, if_pos backward]
  by_cases met : Met wire stop events
  · obtain ⟨last, member, rfl⟩ := met
    obtain ⟨front, back, rfl⟩ := append_of_mem member
    obtain ⟨less, low, above⟩ := around_ascending _ ascending
    obtain ⟨-, behind, before⟩ := pairwise_append.mp ascending
    obtain ⟨greater, -⟩ := pairwise_cons.mp behind
    have turned : (front ++ last :: back).reverse = back.reverse ++ last :: front.reverse := by simp
    have reached := up_to_present wire back.reverse front.reverse last rfl (fun event inBack =>
      Int.ne_of_gt (greater event (mem_reverse.mp inBack)))
    have led : last :: front.reverse = [last] ++ front.reverse := rfl
    rw [turned, reached, low, beyond, above, short, less,
      kept_present_iff _ _ _ _ _ ascending, reverse_append,
      reverse_singleton, singleton_append, led, filter_append, filter_append,
      imp_iff_right ⟨last, member, rfl⟩]
    have first := lead_cut_iff query last front.reverse
    have nothing : front.reverse.filter query.keep = [] ↔ front.filter query.keep = [] := by
      rw [filter_reverse, reverse_eq_nil_iff]
    rw [nothing] at first
    constructor
    · intro same
      have none : back.reverse.filter query.keep = [] := by
        refine cut_leading positive ?_ same
        intro event high inside
        have inBack := mem_reverse.mp (mem_filter.mp high).1
        have above := greater event inBack
        rcases mem_append.mp inside with here | inFront
        · have same := mem_singleton.mp (mem_filter.mp here).1
          rw [same] at above
          exact Int.lt_irrefl _ above
        · have below := before event (mem_reverse.mp (mem_filter.mp inFront).1) last
            (.head _)
          omega
      rw [none, nil_append] at same
      exact ⟨by simpa using none, first.mp same.symm⟩
    · rintro ⟨none, rest⟩
      have empty : back.reverse.filter query.keep = [] := by
        rw [filter_reverse, none, reverse_nil]
      rw [empty, nil_append]
      exact (first.mpr rest).symm
  · have all := up_to_absent _ (fun event member same =>
      met ⟨event, mem_reverse.mp member, (Option.some.inj same).symm⟩)
    have turned : events.reverse.filter query.keep = (beyond wire query stop events).reverse ++
        (events.filter (fun event => wire.eventId event ≤ stop)).reverse.filter query.keep := by
      rw [beyond, ← filter_reverse, ← filter_append, ← reverse_append,
        ← split_ascending _ _ ascending]
    rw [all, turned, and_iff_left (fun reached => absurd reached met)]
    constructor
    · intro same
      apply reverse_eq_nil_iff.mp
      refine cut_leading positive ?_ same
      intro event high low
      simp only [beyond, mem_reverse, mem_filter, decide_eq_true_eq] at high low
      omega
    · intro none
      rw [none]
      rfl

end Exactness

section Refinement

variable (conversation : Conversation codec wire)

/-- The local store yields the kept events between the bounds of a query. -/
theorem search_local (query : Query ε) : searchLocal codec conversation.store query =
    (cutAt (query.limit.map Int.toNat) ((directed query.reverse (between wire query.startId
        ((query.endId.map (· + 1)).getD (calculateCurId conversation.store))
        (storedEvents codec conversation.store))).filter query.keep), none) := by
  apply search_stored _ _ _ _ _ _ rfl rfl
  · cases given : query.limit with
    | none => rfl
    | some limit =>
      have above := query.positive limit given
      simp only [Option.map_some, Option.some.injEq]
      omega
  · intro bound given
    obtain ⟨limit, known, rfl⟩ := Option.map_eq_some_iff.mp given
    have above := query.positive limit known
    omega

/-- The client yields the kept events up to the end. -/
theorem search_nested (query : Query ε) (fuel : Nat)
    (enough : (storedEvents codec conversation.store).length < fuel) :
    searchNested codec wire conversation.store query fuel =
      some (cutAt (query.limit.map Int.toNat) ((upTo wire query.endId
        (directed query.reverse (ahead codec wire conversation.store query))).filter query.keep),
        none) := by
  have before : remaining wire query.reverse ⟨query.startId, none, query.limit⟩
      (storedEvents codec conversation.store) =
      directed query.reverse (ahead codec wire conversation.store query) := by
    simp [remaining, ahead]
  have fewer : (directed query.reverse (ahead codec wire conversation.store query)).length ≤
      (storedEvents codec conversation.store).length := by
    have kept := length_filter_le (fun event => query.startId ≤ wire.eventId event)
      (storedEvents codec conversation.store)
    unfold directed ahead
    split
    · rw [length_reverse]
      exact kept
    · exact kept
  rw [searchNested, search_pages _ _ _ _ _ _ query.positive
    (by rw [before]; omega), before, scan_eq _ _ _ _ query.positive]

/-- A search of the nested store ends, and yields what the local store yields exactly
when its end is absent or delimits it. -/
theorem search_exact (query : Query ε) (fuel : Nat)
    (enough : (storedEvents codec conversation.store).length < fuel) :
    searchNested codec wire conversation.store query fuel =
        some (searchLocal codec conversation.store query) ↔
      ∀ stop ∈ query.endId,
        Delimited wire (ahead codec wire conversation.store query) query stop := by
  rw [search_nested _ _ _ _ _ enough, search_local, Option.some.injEq,
    Prod.mk.injEq, and_iff_left rfl]
  have ascending : Ascending wire.eventId (ahead codec wire conversation.store query) :=
    Ascending.filter _ (stored_ascending ..) _
  cases given : query.endId with
  | none =>
    have all : between wire query.startId (calculateCurId conversation.store)
        (storedEvents codec conversation.store) = ahead codec wire conversation.store query := by
      apply filter_congr
      intro event member
      have below := stored_below _ _ _ member
      simp [below]
    simp [all, up_to_absent]
  | some stop =>
    have low : between wire query.startId (stop + 1) (storedEvents codec conversation.store) =
        (ahead codec wire conversation.store query).filter
          (fun event => wire.eventId event ≤ stop) := by
      rw [ahead, filter_filter]
      apply filter_congr
      intro event _
      rw [Bool.eq_iff_iff]
      simp only [Bool.and_eq_true, decide_eq_true_eq]
      omega
    simp only [Option.map_some, Option.getD_some, low, Option.mem_some_iff, forall_eq']
    cases direction : query.reverse with
    | false => exact forward_exact _ _ ascending _ _ direction
    | true => exact reverse_exact _ _ ascending _ _ direction

/-- Getting an event ends, and gives what its file gives exactly when it is stored or no
later one is. -/
theorem get_exact (id : Int) (fuel : Nat)
    (enough : (storedEvents codec conversation.store).length < fuel) :
    getNested codec wire conversation.store id fuel = some (getEvent codec conversation.store id) ↔
      Met wire id (storedEvents codec conversation.store) ∨
        ∀ event ∈ storedEvents codec conversation.store, wire.eventId event ≤ id := by
  let query : Query ε := { startId := id, limit := some 1 }
  have found : getNested codec wire conversation.store id fuel =
      some (.ok (ahead codec wire conversation.store query).head?) := by
    have searched := search_nested codec wire conversation query fuel enough
    rw [up_to_absent _ (by simp)] at searched
    rw [getNested, searched]
    simp [query, directed, cutAt, head?_take]
  rw [found, reads _ _ _, Option.some.injEq, Except.ok.injEq]
  cases read : readEvent codec conversation.store id with
  | some event =>
    obtain ⟨same, -⟩ := read_event _ _ _ read
    have member : event ∈ storedEvents codec conversation.store := by
      rw [mem_stored_events, same]
      exact read
    refine iff_of_true ?_ (.inl ⟨event, member, same⟩)
    have inside : event ∈ ahead codec wire conversation.store query :=
      mem_filter.mpr ⟨member, by simp [query, same]⟩
    have ascending : Ascending wire.eventId (ahead codec wire conversation.store query) :=
      Ascending.filter _ (stored_ascending ..) _
    have low : ∀ other ∈ ahead codec wire conversation.store query, id ≤ wire.eventId other := by
      intro other present
      simpa [query] using (mem_filter.mp present).2
    generalize ahead codec wire conversation.store query = events at inside ascending low
    cases events with
    | nil => cases inside
    | cons first others =>
      rcases inside with _ | ⟨_, later⟩
      · rfl
      · have less := (pairwise_cons.mp ascending).1 event later
        have above := low first (.head _)
        omega
  | none =>
    have unmet : ¬ Met wire id (storedEvents codec conversation.store) := by
      rintro ⟨event, member, rfl⟩
      rw [mem_stored_events, read] at member
      cases member
    rw [or_iff_right unmet, head?_eq_none_iff, ahead, filter_eq_nil_iff]
    apply forall₂_congr
    intro event member
    have differs : wire.eventId event ≠ id := fun same => unmet ⟨event, member, same⟩
    simp only [query, decide_eq_true_eq]
    omega

/-- There are no more stored events than event files. -/
theorem stored_length : (storedEvents codec conversation.store).length ≤
    conversation.store.events.keys.length := by
  have fewer := length_filterMap_le (readEvent codec conversation.store)
    (conversation.store.events.keys.mergeSort (fun first second => first ≤ second))
  rwa [length_mergeSort] at fewer

/-- With more requests than there are event files, a search of the nested server yields
what the same search of the local store yields. -/
def RefinesSearch (query : Query ε) : Prop :=
  ∀ fuel, conversation.store.events.keys.length < fuel →
    searchNested codec wire conversation.store query fuel =
      some (searchLocal codec conversation.store query)

/-- With more requests than there are event files, getting an event of the nested server
gives what its file gives. -/
def RefinesGet (id : Int) : Prop :=
  ∀ fuel, conversation.store.events.keys.length < fuel →
    getNested codec wire conversation.store id fuel = some (getEvent codec conversation.store id)

/-- Every search of the nested server ends; it yields what the local store yields exactly
when it has no end or its end delimits it. Getting an event gives what its file gives
exactly when it is stored or no later event is. -/
theorem nested_store_refines_exact : (∀ query : Query ε,
      (∃ yielded, ∀ fuel, conversation.store.events.keys.length < fuel →
        searchNested codec wire conversation.store query fuel = some yielded) ∧
      (RefinesSearch codec wire conversation query ↔ ∀ stop ∈ query.endId,
        Delimited wire (ahead codec wire conversation.store query) query stop)) ∧
    ∀ id, RefinesGet codec wire conversation id ↔
      Met wire id (storedEvents codec conversation.store) ∨
        ∀ event ∈ storedEvents codec conversation.store, wire.eventId event ≤ id := by
  have enough (fuel : Nat) (more : conversation.store.events.keys.length < fuel) :
      (storedEvents codec conversation.store).length < fuel :=
    Nat.lt_of_le_of_lt (stored_length ..) more
  refine ⟨fun query => ⟨⟨_, fun fuel more =>
    search_nested _ _ _ _ _ (enough fuel more)⟩, ?_⟩, fun id => ?_⟩
  · constructor
    · intro refines
      exact (search_exact _ _ _ _ _ (enough _ (Nat.lt_succ_self _))).mp
        (refines _ (Nat.lt_succ_self _))
    · intro delimited fuel more
      exact (search_exact _ _ _ _ _ (enough fuel more)).mpr delimited
  · constructor
    · intro refines
      exact (get_exact _ _ _ id _ (enough _ (Nat.lt_succ_self _))).mp
        (refines _ (Nat.lt_succ_self _))
    · intro stored fuel more
      exact (get_exact _ _ _ id _ (enough fuel more)).mpr stored

end Refinement

/-- Events that are their ids. -/
def plainWire : Wire Int Int := ⟨id, id⟩

/-- The events 0 and 2; there is no event 1. -/
def gapped : Conversation plainCodec plainWire where
  store := (emptyStore.writeEvent 0 (.inl 0)).writeEvent 2 (.inl 2)
  faithful := by
    intro start text aligned found
    cases found
  readable := by
    intro id text found
    simp only [FileStore.writeEvent, OrderedDict.get_set] at found
    split at found
    · rename_i same
      cases found
      exact ⟨2, rfl, same.symm, rfl⟩
    · split at found
      · rename_i same
        cases found
        exact ⟨0, rfl, same.symm, rfl⟩
      · cases found

/-- Forwards the client runs past an absent end, in reverse it takes what lies beyond the
end, and it gets event 2 for the absent event 1. -/
theorem gap_misleads_nested_store :
    ¬ RefinesSearch plainCodec plainWire gapped { endId := some 1 } ∧
      ¬ RefinesSearch plainCodec plainWire gapped { endId := some 0, reverse := true } ∧
      ¬ RefinesGet plainCodec plainWire gapped 1 := by
  have differ : searchNested plainCodec plainWire gapped.store { endId := some 1 } 3 ≠
        some (searchLocal plainCodec gapped.store { endId := some 1 }) ∧
      searchNested plainCodec plainWire gapped.store { endId := some 0, reverse := true } 3 ≠
        some (searchLocal plainCodec gapped.store { endId := some 0, reverse := true }) := by
    decide +kernel
  have got : (getNested plainCodec plainWire gapped.store 1 3).map Except.toOption =
      some (some (some 2)) := by
    decide +kernel
  refine ⟨fun refines => differ.1 (refines 3 (by decide)),
    fun refines => differ.2 (refines 3 (by decide)), fun refines => ?_⟩
  rw [refines 3 (by decide)] at got
  cases got

end ForgePilot.NestedEvents
