import ForgePilot.OrderedDict
import ForgePilot.Runs

/-!
# The event stream and its cache pages

Every event of a conversation is written to a file named by its id. Twenty-five
consecutive additions also fill a write page in memory, which is stored as a
cache page named by the id of its first entry. Readers look an index up in the
page that starts at the preceding multiple of twenty-five, by position, and fall
back on the event's own file.

An addition has three steps: under a lock it takes an id, converts the event and
appends it to the write page; then it writes the event file; then it stores the
page if the page is full by that time. Each step can fail, the steps of several
additions can be interleaved, and a restart forgets everything but the files.

The contents of files and the conversions between events, documents and texts are
parameters; what is used of them is that reading undoes writing. Subscribers, the
queue and the replacement of secrets inside documents are not modelled.
-/

namespace ForgePilot.EventPages

open Runs List OrderedDict Option

variable {τ δ ε : Type}

/-- The number of entries of a cache page. -/
def cacheSize : Nat := 25

/-- What the text of a cache page holds: nothing that counts, a list of
documents, or something that cannot be indexed by position. -/
inductive Loaded (δ : Type) where
  | falsy
  | entries (documents : List δ)
  | unusable (message : String)

/-- Reading and writing of texts, and the conversion of documents to events. -/
structure Codec (τ δ ε : Type) where
  loadEvent : τ → Except String ε
  loadPage : τ → Except String (Loaded δ)
  eventFromDict : δ → Except String ε
  documentId : δ → Int
  dumpEvent : δ → τ
  dumpPage : List δ → τ
  load_dump_event : ∀ document, loadEvent (dumpEvent document) = eventFromDict document
  load_dump_page : ∀ documents, documents ≠ [] →
    loadPage (dumpPage documents) = .ok (.entries documents)

variable (codec : Codec τ δ ε)

/-- The conversion of one event: it may fail, and otherwise carries the id it was given. -/
structure Conversion where
  convert : Int → Option δ
  keeps_id : ∀ id document, convert id = some document → codec.documentId document = id

/-- Files of a conversation: event files by id, the ids read from other names in
the same directory, and cache pages by their bounds. -/
structure FileStore (τ : Type) where
  events : OrderedDict Int τ
  others : List Int
  pages : OrderedDict (Int × Int) τ

/-- The id after the greatest one in use, or zero. -/
def calculateCurId (store : FileStore τ) : Int :=
  (store.events.keys ++ store.others).foldl max (-1) + 1

/-- What an addition still has to do. -/
inductive Phase where
  | writing | storing
deriving DecidableEq

/-- An addition after its locked section: the write page it appended to, its id
and its document. -/
structure Pending (δ : Type) where
  page : Nat
  id : Int
  document : δ
  phase : Phase

/-- The stream over its files. Write pages are listed in order of creation; the
last one takes the next document. -/
structure Stream (τ δ : Type) where
  store : FileStore τ
  curId : Option Int
  writePages : List (List δ)
  pending : List (Pending δ)

/-- A stream that has just been opened on a store. -/
def Stream.opened (store : FileStore τ) : Stream τ δ := ⟨store, none, [[]], []⟩

/-- The current id, calculated when it is first needed. -/
def Stream.currentId (stream : Stream τ δ) : Int :=
  stream.curId.getD (calculateCurId stream.store)

/-- Append a document to the last write page; a full page is followed by a new one. -/
def appendDocument (document : δ) : List (List δ) → List (List δ)
  | [] => [[document]]
  | [page] =>
      if (page ++ [document]).length = cacheSize then [page ++ [document], []]
      else [page ++ [document]]
  | page :: rest => page :: appendDocument document rest

/-- The locked section of an addition. The id is spent even when the conversion fails. -/
def beginAddition (stream : Stream τ δ) (conversion : Conversion codec) : Stream τ δ :=
  let id := stream.currentId
  match conversion.convert id with
  | none => { stream with curId := some (id + 1) }
  | some document =>
      { stream with
        curId := some (id + 1)
        writePages := appendDocument document stream.writePages
        pending := stream.pending ++ [⟨stream.writePages.length - 1, id, document, .writing⟩] }

def FileStore.writeEvent (store : FileStore τ) (id : Int) (text : τ) : FileStore τ :=
  { store with events := store.events.set id text }

def FileStore.writePage (store : FileStore τ) (start : Int) (text : τ) : FileStore τ :=
  { store with pages := store.pages.set (start, start + cacheSize) text }

/-- Write the event file of a pending addition; a failure ends the addition. -/
def writeEventFile (stream : Stream τ δ) (position : Nat) (succeeds : Bool) : Stream τ δ :=
  match stream.pending[position]? with
  | none => stream
  | some addition =>
    if addition.phase = .storing then stream
    else if succeeds then
      { stream with
        store := stream.store.writeEvent addition.id (codec.dumpEvent addition.document)
        pending := stream.pending.set position { addition with phase := .storing } }
    else { stream with pending := stream.pending.eraseIdx position }

/-- The page an addition would store, with the id of its first entry. -/
def fullPage (stream : Stream τ δ) (addition : Pending δ) : Option (Int × List δ) :=
  match stream.writePages[addition.page]? with
  | none => none
  | some page =>
    if page.length < cacheSize then none
    else page.head?.map (fun first => (codec.documentId first, page))

/-- Store the page of a pending addition when it is full, and end the addition. -/
def storeCachePage (stream : Stream τ δ) (position : Nat) (succeeds : Bool) : Stream τ δ :=
  match stream.pending[position]? with
  | none => stream
  | some addition =>
    if addition.phase = .writing then stream
    else
      let finished := { stream with pending := stream.pending.eraseIdx position }
      match fullPage codec stream addition with
      | none => finished
      | some (start, page) =>
          if succeeds then
            { finished with store := stream.store.writePage start (codec.dumpPage page) }
          else finished

inductive Step where
  | begin (conversion : Conversion codec)
  | write (position : Nat) (succeeds : Bool)
  | storePage (position : Nat) (succeeds : Bool)
  | readCurId
  | restart

def step (stream : Stream τ δ) : Step codec → Stream τ δ
  | .begin conversion => beginAddition codec stream conversion
  | .write position succeeds => writeEventFile codec stream position succeeds
  | .storePage position succeeds => storeCachePage codec stream position succeeds
  | .readCurId => { stream with curId := some stream.currentId }
  | .restart => .opened stream.store

/-! ## Reading -/

/-- A cache page as a reader holds it. -/
structure CachePage (δ : Type) where
  loaded : Option (Loaded δ)
  start : Int
  stop : Int

/-- The page a reader starts with; it covers nothing. -/
def dummyPage : CachePage δ := ⟨none, 1, -1⟩

def CachePage.covers (page : CachePage δ) (index : Int) : Bool :=
  !(index < page.start) && !(page.stop ≤ index)

/-- The event at an index of a page, or nothing when there is no page. -/
def CachePage.getEvent (page : CachePage δ) (index : Int) : Except String (Option ε) :=
  match page.loaded with
  | none => .ok none
  | some .falsy => .ok none
  | some (.unusable message) => .error message
  | some (.entries documents) =>
    if documents = [] then .ok none
    else
      match documents[(index - page.start).toNat]? with
      | none => .error "list index out of range"
      | some document => (codec.eventFromDict document).map some

/-- Load the cache page between two bounds. -/
def loadCachePage (store : FileStore τ) (start stop : Int) : Except String (CachePage δ) :=
  match store.pages.get (start, stop) with
  | none => .ok ⟨none, start, stop⟩
  | some text =>
    match codec.loadPage text with
    | .error raised => .error raised
    | .ok loaded => .ok ⟨some loaded, start, stop⟩

/-- Load the cache page that would hold an index. -/
def loadCachePageForIndex (store : FileStore τ) (index : Int) : Except String (CachePage δ) :=
  let start := index - index % cacheSize
  loadCachePage codec store start (start + cacheSize)

/-- Read one event from its own file; an absent file is no event. -/
def getEvent (store : FileStore τ) (id : Int) : Except String (Option ε) :=
  match store.events.get id with
  | none => .ok none
  | some text => (codec.loadEvent text).map some

/-- The page to use for an index: the one at hand when it covers the index. -/
def pageFor (store : FileStore τ) (page : CachePage δ) (index : Int) :
    Except String (CachePage δ) :=
  if page.covers index then .ok page else loadCachePageForIndex codec store index

/-- Read an event from a page, or from its file when the page has nothing. -/
def readThrough (store : FileStore τ) (page : CachePage δ) (index : Int) :
    Except String (Option ε) :=
  match page.getEvent codec index with
  | .error raised => .error raised
  | .ok none => getEvent codec store index
  | .ok (some event) => .ok (some event)

/-- The arguments of a search. The filter may raise, and `continues` says before
which index the process is found shutting down. -/
structure Search (ε : Type) where
  startId : Int := 0
  endId : Option Int := none
  reverse : Bool := false
  includes : ε → Except String Bool := fun _ => .ok true
  limit : Option Int := none
  continues : Nat → Bool := fun _ => true

/-- Whether a search stops after this many results. -/
def Search.full (search : Search ε) (results : Nat) : Bool :=
  search.limit.any (fun limit => limit ≠ 0 && limit ≤ (results : Int))

/-- The indices of a search, in the order they are visited. -/
def Search.indices (search : Search ε) (curId : Int) : List Int :=
  let stop := (search.endId.map (· + 1)).getD curId
  let count := (stop - search.startId).toNat
  if search.reverse then (List.range count).map (fun offset => stop - 1 - offset)
  else (List.range count).map (fun offset => search.startId + offset)

/-- What a search yields and the exception that ended it, if one did. -/
abbrev Yielded (ε : Type) := List ε × Option String

def Yielded.after (event : ε) (later : Yielded ε) : Yielded ε := (event :: later.1, later.2)

/-- The loop of a search with the page at hand, the number of results so far and
the number of indices visited. -/
def searchLoop (store : FileStore τ) (search : Search ε) :
    CachePage δ → Nat → Nat → List Int → Yielded ε
  | _, _, _, [] => ([], none)
  | page, results, visited, index :: rest =>
    if search.continues visited = false then ([], none)
    else
      match pageFor codec store page index with
      | .error raised => ([], some raised)
      | .ok page =>
        match readThrough codec store page index with
        | .error raised => ([], some raised)
        | .ok none => searchLoop store search page results (visited + 1) rest
        | .ok (some event) =>
          match search.includes event with
          | .error raised => ([], some raised)
          | .ok false => searchLoop store search page results (visited + 1) rest
          | .ok true =>
              if search.full (results + 1) then ([event], none)
              else Yielded.after event
                (searchLoop store search page (results + 1) (visited + 1) rest)

def searchEvents (stream : Stream τ δ) (search : Search ε) : Yielded ε :=
  searchLoop codec stream.store search dummyPage 0 0 (search.indices stream.currentId)

/-- Whether a positive limit cuts after this many results. -/
def Search.cuts (search : Search ε) (results : Nat) : Bool :=
  search.limit.any (fun limit => 0 < limit && limit ≤ (results : Int))

/-- Reading every index individually: absent events are skipped, excluded ones
are left out, and a positive limit cuts the result. -/
def readIndividually (store : FileStore τ) (search : Search ε) :
    Nat → Nat → List Int → Yielded ε
  | _, _, [] => ([], none)
  | results, visited, index :: rest =>
    if search.continues visited = false then ([], none)
    else
      match getEvent codec store index with
      | .error raised => ([], some raised)
      | .ok none => readIndividually store search results (visited + 1) rest
      | .ok (some event) =>
        match search.includes event with
        | .error raised => ([], some raised)
        | .ok false => readIndividually store search results (visited + 1) rest
        | .ok true =>
            if search.cuts (results + 1) then ([event], none)
            else Yielded.after event
              (readIndividually store search (results + 1) (visited + 1) rest)

/-! ## Pages that agree with the files -/

/-- A loaded page agrees with the files: it has nothing, or it gives for each of
its positions what the file of that id gives. -/
def Agrees (store : FileStore τ) (start : Int) : Loaded δ → Prop
  | .falsy => True
  | .unusable _ => False
  | .entries documents => documents = [] ∨
      ∀ position : Nat, position < cacheSize → ∃ document,
        documents[position]? = some document ∧
        getEvent codec store (start + position) = (codec.eventFromDict document).map some

/-- Every cache page that readers can look up agrees with the files. -/
def Faithful (store : FileStore τ) : Prop :=
  ∀ (start : Int) text, start % cacheSize = 0 → store.pages.get (start, start + cacheSize) = some text →
    ∃ loaded, codec.loadPage text = .ok loaded ∧ Agrees codec store start loaded

/-- A page at hand is the stored page of its bounds. -/
def Held (store : FileStore τ) (page : CachePage δ) : Prop :=
  ∀ index, page.covers index = true → loadCachePageForIndex codec store index = .ok page

theorem aligned_bounds (index other : Int) (low : index - index % (cacheSize : Int) ≤ other)
    (high : other < index - index % (cacheSize : Int) + cacheSize) :
    other - other % (cacheSize : Int) = index - index % (cacheSize : Int) := by
  simp only [cacheSize] at *
  omega

variable {pending : List (Pending δ)} (stream : Stream τ δ) (store : FileStore τ)

/-- A page that was loaded for an index is the page of every index it covers. -/
theorem held_loaded {index : Int} {page : CachePage δ}
    (loaded : loadCachePageForIndex codec store index = .ok page) : Held codec store page := by
  have bounds : page.start = index - index % (cacheSize : Int) ∧
      page.stop = index - index % (cacheSize : Int) + cacheSize := by
    simp only [loadCachePageForIndex, loadCachePage] at loaded
    split at loaded
    · cases loaded
      exact ⟨rfl, rfl⟩
    split at loaded
    · cases loaded
    · cases loaded
      exact ⟨rfl, rfl⟩
  intro other covered
  have low : ¬other < page.start ∧ ¬page.stop ≤ other := by
    simpa [CachePage.covers] using covered
  have same := aligned_bounds index other (by omega) (by omega)
  rw [← loaded]
  simp [loadCachePageForIndex, same]

/-- With faithful pages, reading through a page is reading the file. -/
theorem read_through_loaded (faithful : Faithful codec store) (index : Int) :
    ∃ page, loadCachePageForIndex codec store index = .ok page ∧
      readThrough codec store page index = getEvent codec store index := by
  have aligned : (index - index % (cacheSize : Int)) % cacheSize = 0 := by
    simp only [cacheSize]
    omega
  simp only [loadCachePageForIndex, loadCachePage]
  cases found : store.pages.get (index - index % (cacheSize : Int),
      index - index % (cacheSize : Int) + cacheSize) with
  | none => exact ⟨_, rfl, rfl⟩
  | some text =>
    obtain ⟨loaded, parsed, agrees⟩ := faithful _ text aligned found
    refine ⟨⟨some loaded, index - index % (cacheSize : Int),
      index - index % (cacheSize : Int) + cacheSize⟩, by simp [parsed], ?_⟩
    cases loaded with
    | falsy => rfl
    | unusable message => exact agrees.elim
    | entries documents =>
      rcases agrees with rfl | agrees
      · rfl
      have inside : (index - (index - index % (cacheSize : Int))).toNat < cacheSize := by
        simp only [cacheSize]
        omega
      obtain ⟨document, stored, same⟩ := agrees _ inside
      have place : index - index % (cacheSize : Int) +
          ((index - (index - index % (cacheSize : Int))).toNat : Int) = index := by
        simp only [cacheSize]
        omega
      rw [place] at same
      have some_entries : documents ≠ [] := by
        rintro rfl
        simp at stored
      simp only [readThrough, CachePage.getEvent, some_entries, if_false, stored, same]
      cases codec.eventFromDict document <;> rfl

variable (search : Search ε)

/-- A limit that is not negative stops a search where a positive limit cuts. -/
theorem full_iff_cut (results : Nat) (counted : ∀ limit, search.limit = some limit → 0 ≤ limit) :
    search.full results = search.cuts results := by
  unfold Search.full Search.cuts
  cases bound : search.limit with
  | none => rfl
  | some limit =>
    have lower := counted limit bound
    by_cases zero : limit = 0
    · simp [zero]
    · have positive : 0 < limit := by omega
      simp [zero, positive]

/-- With faithful pages the loop yields what reading individually yields. -/
theorem search_loop_eq (faithful : Faithful codec store)
    (counted : ∀ limit, search.limit = some limit → 0 ≤ limit) (page : CachePage δ)
    (held : Held codec store page) (results visited : Nat) (indices : List Int) :
    searchLoop codec store search page results visited indices =
      readIndividually codec store search results visited indices := by
  induction indices generalizing page results visited with
  | nil => rfl
  | cons index rest ih =>
    obtain ⟨fitting, loaded, same⟩ := read_through_loaded _ _ faithful _
    have chosen : pageFor codec store page index = .ok fitting := by
      rw [pageFor]
      by_cases covered : page.covers index = true
      · rw [if_pos covered, ← loaded, held index covered]
      · rw [if_neg covered, loaded]
    have heldFitting := held_loaded _ _ loaded
    simp [searchLoop, readIndividually, chosen, same, full_iff_cut _ _ counted, ih fitting heldFitting]

/-- A search over faithful pages is reading every index individually. -/
theorem search_events_eq {stream : Stream τ δ} {search : Search ε}
    (faithful : Faithful codec stream.store)
    (counted : ∀ limit, search.limit = some limit → 0 ≤ limit) :
    searchEvents codec stream search =
      readIndividually codec stream.store search 0 0 (search.indices stream.currentId) := by
  apply search_loop_eq _ _ _ faithful counted _
  intro index covered
  simp only [CachePage.covers, dummyPage, Bool.and_eq_true, Bool.not_eq_true'] at covered
  have above := of_decide_eq_false covered.1
  have below := of_decide_eq_false covered.2
  omega

/-- Up to a limit, when there is one. -/
def cutAt (limit : Option Nat) (events : List ε) : List ε :=
  match limit with
  | none => events
  | some bound => events.take bound

/-- A limit some results ahead cuts exactly at its last result. -/
theorem cuts_iff_last {bound results : Nat} (positive : 0 < bound)
    (bounded : search.limit = some ((bound + results : Nat) : Int)) :
    search.cuts (results + 1) = decide (bound = 1) := by
  rw [Search.cuts, bounded, any_some, Bool.eq_iff_iff]
  simp only [Bool.and_eq_true, decide_eq_true_eq]
  omega

/-- Reading individually without exceptions or shutdown: the present events in
the order of their indices, those the filter includes, up to a positive limit. -/
theorem read_individually_eq (keep : ε → Bool) {read : Int → Option ε} (results visited : Nat)
    (limit : Option Nat) (indices : List Int) (continues : ∀ count, search.continues count = true)
    (reads : ∀ index, getEvent codec store index = .ok (read index))
    (keeps : ∀ event, search.includes event = .ok (keep event))
    (positive : ∀ bound ∈ limit, 0 < bound)
    (bounded : search.limit = limit.map (fun bound => ((bound + results : Nat) : Int))) :
    readIndividually codec store search results visited indices =
      (cutAt limit ((indices.filterMap read).filter keep), none) := by
  induction indices generalizing results visited limit with
  | nil => cases limit <;> simp [readIndividually, cutAt]
  | cons index rest ih =>
    have skipped := fun visited => ih results visited limit positive bounded
    simp only [readIndividually, continues, reads, Bool.true_eq_false, if_false]
    cases present : read index with
    | none => simp [skipped, present]
    | some event =>
      simp only [keeps, filterMap_cons, present]
      cases kept : keep event with
      | false => simp [skipped, kept]
      | true =>
        cases limit with
        | none =>
          have open_ended : search.cuts (results + 1) = false := by
            simp [Search.cuts, bounded]
          have continued := ih (results + 1) (visited + 1) none (by simp) bounded
          simp [open_ended, continued, Yielded.after, cutAt, kept]
        | some bound =>
          have cut := cuts_iff_last _ (positive bound rfl) bounded
          by_cases last : bound = 1
          · simp [cut, cutAt, kept, last]
          obtain ⟨less, rfl⟩ : ∃ less, bound = less + 1 :=
            ⟨bound - 1, by have := positive bound rfl; omega⟩
          have continued := ih (results + 1) (visited + 1) (some less)
            (by simp; omega) (by
              rw [bounded]
              simp only [map_some, some.injEq]
              omega)
          have more : search.cuts (results + 1) = false := by
            rw [cut]
            exact decide_eq_false last
          simp [more, continued, Yielded.after, cutAt, kept]

/-! ## Runs that keep pages and files together -/

/-- A page is settled when its entries carry consecutive ids from its first one
and every entry has been written to its own file. -/
def SettledPage (store : FileStore τ) (start : Int) (page : List δ) : Prop :=
  ∀ (offset : Nat) document, page[offset]? = some document →
    codec.documentId document = start + offset ∧
    store.events.get (codec.documentId document) = some (codec.dumpEvent document)

/-- A page that readers can look up is stored only when it is settled. -/
def Settled (stream : Stream τ δ) : Step codec → Prop
  | .storePage position _ => ∀ addition start page,
      stream.pending[position]? = some addition → addition.phase = .storing →
      fullPage codec stream addition = some (start, page) → start % (cacheSize : Int) = 0 →
      SettledPage codec stream.store start page
  | _ => True

/-- Pages agree with files, ids grow, and an addition that has not written its
file is the only one that can. -/
structure Sound (stream : Stream τ δ) : Prop where
  faithful : Faithful codec stream.store
  above_files : ∀ id ∈ stream.store.events.keys, id < stream.currentId
  above_pending : ∀ addition ∈ stream.pending, addition.id < stream.currentId
  idle : stream.curId = none → stream.pending = []
  unwritten : ∀ addition ∈ stream.pending, addition.phase = .writing →
    addition.id ∉ stream.store.events.keys
  distinct : (stream.pending.map Pending.id).Nodup

/-- A fold of maxima is an upper bound. -/
theorem le_foldl_max (numbers : List Int) (start : Int) :
    start ≤ numbers.foldl max start ∧ ∀ number ∈ numbers, number ≤ numbers.foldl max start := by
  induction numbers generalizing start with
  | nil => simp
  | cons head rest ih =>
    obtain ⟨lower, others⟩ := ih (max start head)
    simp only [foldl_cons, mem_cons]
    refine ⟨by omega, ?_⟩
    rintro number (rfl | member)
    · omega
    · exact others number member

/-- The calculated id is greater than every id in use. -/
theorem lt_calculate_cur_id {store : FileStore τ} {id : Int} (used : id ∈ store.events.keys) :
    id < calculateCurId store := by
  have bound := (le_foldl_max (store.events.keys ++ store.others) (-1)).2 id
    (mem_append_left _ used)
  rw [calculateCurId]
  omega

/-- A store whose pages agree with its files opens soundly. -/
theorem sound_opened (faithful : Faithful codec store) :
    Sound codec (Stream.opened store : Stream τ δ) where
  faithful := faithful
  above_files id used := lt_calculate_cur_id used
  above_pending := by simp [Stream.opened]
  idle _ := rfl
  unwritten := by simp [Stream.opened]
  distinct := by simp [Stream.opened]

variable {place : Nat}

/-- The files of an agreeing page with entries are all present. -/
theorem agrees_present {store : FileStore τ} {start : Int} {documents : List δ}
    (entries : documents ≠ []) (agrees : Agrees codec store start (.entries documents))
    (inside : place < cacheSize) : start + place ∈ store.events.keys := by
  rcases agrees with empty | agrees
  · exact absurd empty entries
  obtain ⟨document, _, same⟩ := agrees place inside
  by_contra absent
  rw [← get_eq_none_iff] at absent
  simp only [getEvent, absent] at same
  cases converted : codec.eventFromDict document <;> simp [converted, Except.map] at same

/-- Writing an absent event file leaves agreeing pages in agreement. -/
theorem faithful_write_event {store : FileStore τ} {id : Int} (text : τ)
    (absent : id ∉ store.events.keys) (faithful : Faithful codec store) :
    Faithful codec (store.writeEvent id text) := by
  intro start page aligned found
  obtain ⟨loaded, parsed, agrees⟩ := faithful start page aligned found
  refine ⟨loaded, parsed, ?_⟩
  cases loaded with
  | falsy => exact trivial
  | unusable message => exact agrees
  | entries documents =>
    by_cases empty : documents = []
    · exact .inl empty
    refine .inr (fun place inside => ?_)
    have present := agrees_present _ empty agrees inside
    obtain ⟨document, stored, same⟩ := (agrees.resolve_left empty) place inside
    refine ⟨document, stored, ?_⟩
    have other : start + (place : Int) ≠ id := by
      rintro rfl
      exact absent present
    simpa [getEvent, FileStore.writeEvent, other] using same

/-- Storing a settled page, or one that no reader looks up, keeps agreement. -/
theorem faithful_write_page {store : FileStore τ} {start : Int} {page : List δ}
    (full : cacheSize ≤ page.length) (faithful : Faithful codec store)
    (settled : start % (cacheSize : Int) = 0 → SettledPage codec store start page) :
    Faithful codec (store.writePage start (codec.dumpPage page)) := by
  have entries : page ≠ [] := by
    rintro rfl
    simp [cacheSize] at full
  intro other text aligned found
  simp only [FileStore.writePage, get_set, Prod.mk.injEq] at found
  by_cases same : other = start
  · subst same
    simp only [and_self, if_true, some.injEq] at found
    subst found
    refine ⟨.entries page, codec.load_dump_page page entries, .inr (fun place inside => ?_)⟩
    have reached : place < page.length := by omega
    refine ⟨page[place], List.getElem?_eq_getElem reached, ?_⟩
    obtain ⟨numbered, written⟩ := settled aligned place page[place]
      (List.getElem?_eq_getElem reached)
    rw [numbered] at written
    simp [getEvent, FileStore.writePage, written, codec.load_dump_event]
  · simp only [same, false_and, if_false] at found
    obtain ⟨loaded, parsed, agrees⟩ := faithful other text aligned found
    exact ⟨loaded, parsed, agrees⟩

/-- The current id does not depend on the files once it is known. -/
theorem current_id_known (sound : Sound codec stream) (busy : stream.pending ≠ [])
    (store : FileStore τ) (pending : List (Pending δ)) :
    (Stream.mk store stream.curId stream.writePages pending).currentId = stream.currentId := by
  cases known : stream.curId with
  | none => exact absurd (sound.idle known) busy
  | some current => simp [Stream.currentId, known]

/-- Spending an id leaves everything below the next one. -/
theorem spend_id_sound (sound : Sound codec stream) :
    Sound codec { stream with curId := some (stream.currentId + 1) } := by
  have next : ({ stream with curId := some (stream.currentId + 1) } : Stream τ δ).currentId =
      stream.currentId + 1 := rfl
  refine ⟨sound.faithful, fun id used => ?_, fun addition member => ?_, by simp,
    sound.unwritten, sound.distinct⟩
  · have bound := sound.above_files id used
    omega
  · have bound := sound.above_pending addition member
    omega

/-- The locked section takes a new id. -/
theorem begin_addition_sound (conversion : Conversion codec) (sound : Sound codec stream) :
    Sound codec (beginAddition codec stream conversion) := by
  have spent := spend_id_sound _ _ sound
  simp only [beginAddition]
  cases conversion.convert stream.currentId with
  | none => exact spent
  | some document =>
    refine ⟨spent.faithful, spent.above_files, fun addition member => ?_, by simp,
      fun addition member writing => ?_, ?_⟩
    · rcases mem_append.mp member with prior | new
      · exact spent.above_pending addition prior
      · rw [mem_singleton.mp new]
        exact Int.lt_succ stream.currentId
    · rcases mem_append.mp member with prior | new
      · exact spent.unwritten addition prior writing
      · rw [mem_singleton.mp new]
        exact fun used => Int.lt_irrefl _ (sound.above_files _ used)
    · rw [map_append, nodup_append]
      refine ⟨sound.distinct, by simp, ?_⟩
      rintro id prior other new rfl
      obtain ⟨addition, member, rfl⟩ := mem_map.mp prior
      have bound := sound.above_pending addition member
      simp only [map_cons, map_nil, mem_singleton] at new
      omega

/-- Dropping a pending addition changes nothing else. -/
theorem drop_pending_sound (place : Nat) (sound : Sound codec stream) :
    Sound codec { stream with pending := stream.pending.eraseIdx place } := by
  have kept : stream.pending.eraseIdx place ⊆ stream.pending :=
    (eraseIdx_sublist stream.pending place).subset
  refine ⟨sound.faithful, sound.above_files,
    fun addition member => sound.above_pending addition (kept member), fun unknown => ?_,
    fun addition member => sound.unwritten addition (kept member),
    sound.distinct.sublist ((eraseIdx_sublist stream.pending place).map Pending.id)⟩
  simp [sound.idle unknown]

/-- Marking an addition as written keeps the ids of pending additions. -/
theorem ids_set {addition : Pending δ} (found : pending[place]? = some addition) :
    (pending.set place { addition with phase := .storing }).map Pending.id =
      pending.map Pending.id := by
  obtain ⟨inside, rfl⟩ := List.getElem?_eq_some_iff.mp found
  have mapped : place < (pending.map Pending.id).length := by simpa using inside
  rw [List.map_set]
  simpa using List.set_getElem_self mapped

/-- An addition other than the written one has another id. -/
theorem other_pending_id {addition other : Pending δ} (distinct : (pending.map Pending.id).Nodup)
    (found : pending[place]? = some addition)
    (member : other ∈ pending.set place { addition with phase := .storing })
    (writing : other.phase = .writing) : other ∈ pending ∧ other.id ≠ addition.id := by
  obtain ⟨index, located⟩ := mem_iff_getElem?.mp member
  rw [List.getElem?_set] at located
  by_cases here : place = index
  · subst here
    have inside : place < pending.length := (List.getElem?_eq_some_iff.mp found).1
    simp only [inside, if_true, some.injEq] at located
    rw [← located] at writing
    cases writing
  · simp only [here, if_false] at located
    refine ⟨mem_of_getElem? located, fun same => here ?_⟩
    have inside : place < (pending.map Pending.id).length := by
      simpa using (List.getElem?_eq_some_iff.mp found).1
    apply (List.getElem?_inj inside distinct).mp
    simp [found, located, same]

theorem written_sound {stream : Stream τ δ} {addition : Pending δ} (sound : Sound codec stream)
    (found : stream.pending[place]? = some addition)
    (absent : addition.id ∉ stream.store.events.keys) :
    Sound codec { stream with
        store := stream.store.writeEvent addition.id (codec.dumpEvent addition.document)
        pending := stream.pending.set place { addition with phase := .storing } } := by
  have member := mem_of_getElem? found
  have busy : stream.pending ≠ [] := ne_nil_of_mem member
  have ids := ids_set found
  have keys : (stream.store.writeEvent addition.id
      (codec.dumpEvent addition.document)).events.keys =
        stream.store.events.keys ++ [addition.id] := by
    simp [FileStore.writeEvent, keys_set, absent]
  refine ⟨faithful_write_event _ _ absent sound.faithful, ?_, ?_, ?_, ?_, ?_⟩
  · intro id used
    have bound : id < stream.currentId := by
      simp only [keys, mem_append, mem_singleton] at used
      rcases used with prior | rfl
      · exact sound.above_files id prior
      · exact sound.above_pending addition member
    exact lt_of_lt_of_eq bound (current_id_known _ _ sound busy _ _).symm
  · intro other listed
    have named : other.id ∈ stream.pending.map Pending.id := by
      rw [← ids]
      exact mem_map_of_mem listed
    obtain ⟨original, originalMember, same⟩ := mem_map.mp named
    have bound : other.id < stream.currentId := by
      rw [← same]
      exact sound.above_pending original originalMember
    exact lt_of_lt_of_eq bound (current_id_known _ _ sound busy _ _).symm
  · intro unknown
    exact absurd (sound.idle unknown) busy
  · intro other listed writing
    obtain ⟨prior, different⟩ := other_pending_id
      sound.distinct found listed writing
    simp only [keys, mem_append, mem_singleton, not_or]
    exact ⟨sound.unwritten other prior writing, different⟩
  · rw [ids]
    exact sound.distinct

theorem write_event_file_sound (place : Nat) (succeeds : Bool) (sound : Sound codec stream) :
    Sound codec (writeEventFile codec stream place succeeds) := by
  rw [writeEventFile]
  cases found : stream.pending[place]? with
  | none => exact sound
  | some addition =>
    by_cases storing : addition.phase = .storing
    · simpa [storing] using sound
    have writing : addition.phase = .writing := by
      cases phase : addition.phase with
      | writing => rfl
      | storing => exact absurd phase storing
    cases succeeds with
    | false => simpa [storing] using drop_pending_sound _ _ _ sound
    | true =>
      have member := mem_of_getElem? found
      have absent := sound.unwritten addition member writing
      simp only [storing, if_false, if_true]
      exact written_sound _ sound found absent

/-- Storing a page keeps the stream sound when the page is settled. -/
theorem store_cache_page_sound {stream : Stream τ δ} {succeeds : Bool} (sound : Sound codec stream)
    (settled : Settled codec stream (.storePage place succeeds)) :
    Sound codec (storeCachePage codec stream place succeeds) := by
  rw [storeCachePage]
  cases found : stream.pending[place]? with
  | none => exact sound
  | some addition =>
    by_cases writing : addition.phase = .writing
    · simpa [writing] using sound
    have storing : addition.phase = .storing := by
      cases phase : addition.phase with
      | writing => exact absurd phase writing
      | storing => rfl
    have dropped := drop_pending_sound codec stream place sound
    simp only [writing, if_false]
    cases filled : fullPage codec stream addition with
    | none => exact dropped
    | some startedPage =>
      obtain ⟨start, page⟩ := startedPage
      cases succeeds with
      | false => exact dropped
      | true =>
        have full : cacheSize ≤ page.length := by
          simp only [fullPage] at filled
          split at filled
          · cases filled
          split at filled
          · cases filled
          · obtain ⟨first, _, pair⟩ := map_eq_some_iff.mp filled
            rw [← (Prod.mk.inj pair).2]
            omega
        have faithful := faithful_write_page _ full sound.faithful
          (settled addition start page found storing filled)
        exact ⟨faithful, dropped.above_files, dropped.above_pending, dropped.idle,
          dropped.unwritten, dropped.distinct⟩

/-- Every step of a sound stream that stores only settled pages keeps it sound. -/
theorem step_sound (label : Step codec) (sound : Sound codec stream)
    (settled : Settled codec stream label) : Sound codec (step codec stream label) := by
  cases label with
  | begin conversion => exact begin_addition_sound _ _ _ sound
  | write place succeeds => exact write_event_file_sound _ _ _ _ sound
  | storePage place succeeds => exact store_cache_page_sound _ sound settled
  | readCurId =>
    exact ⟨sound.faithful, sound.above_files, sound.above_pending, by simp [step],
      sound.unwritten, sound.distinct⟩
  | restart => exact sound_opened _ _ sound.faithful

/-- On a store whose pages agree with its files, in every state of every run that
stores only settled pages, a search yields what reading each id individually
yields. -/
theorem search_events_agree (store : FileStore τ) (faithful : Faithful codec store)
    (labels : List (Step codec))
    (settled : Along (step codec) (Settled codec) (Stream.opened store) labels)
    (stream : Stream τ δ) (reached : Reached (step codec) (Stream.opened store) labels stream)
    (search : Search ε) (counted : ∀ limit, search.limit = some limit → 0 ≤ limit) :
    searchEvents codec stream search =
      readIndividually codec stream.store search 0 0 (search.indices stream.currentId) := by
  have sound := invariant_along _ _ _ (step_sound _)
    _ _ (sound_opened _ _ faithful) settled _ reached
  exact search_events_eq _ sound.faithful counted

/-- Documents that consist of their id, and texts that hold one or a list of them. -/
def plainCodec : Codec (Int ⊕ List Int) Int Int where
  loadEvent
    | .inl document => .ok document
    | .inr _ => .error "Unknown event type"
  loadPage
    | .inl _ => .ok (.unusable "object is not subscriptable")
    | .inr [] => .ok .falsy
    | .inr (first :: rest) => .ok (.entries (first :: rest))
  eventFromDict document := .ok document
  documentId document := document
  dumpEvent := .inl
  dumpPage := .inr
  load_dump_event _ := rfl
  load_dump_page documents some_entries := by
    cases documents with
    | nil => exact absurd rfl some_entries
    | cons first rest => rfl

def converted : Conversion plainCodec := ⟨some, fun _ _ same => (Option.some.inj same).symm⟩

def unconverted : Conversion plainCodec := ⟨fun _ => none, fun _ _ same => nomatch same⟩

/-- An addition that runs to its end before the next one starts. -/
def wholeAddition : List (Step plainCodec) :=
  [.begin converted, .write 0 true, .storePage 0 true]

/-- A store without files. -/
def emptyStore : FileStore (Int ⊕ List Int) := ⟨.empty, [], .empty⟩

/-- One addition, one whose conversion fails, and twenty-four more. -/
def lostIdRun : List (Step plainCodec) :=
  wholeAddition ++ .begin unconverted :: (List.replicate 24 wholeAddition).flatten

/-- After a failed conversion the first page holds event 2 in the place of event
1, and a search for event 1 yields event 2. -/
theorem lost_id_misleads_search :
    ¬∀ stream, Reached (step plainCodec) (Stream.opened emptyStore) lostIdRun stream →
      ∀ search : Search Int, (∀ limit, search.limit = some limit → 0 ≤ limit) →
        searchEvents plainCodec stream search = readIndividually plainCodec stream.store search 0 0
            (search.indices stream.currentId) := by
  intro agree
  have same := agree _ ⟨lostIdRun, [], (List.append_nil _).symm, rfl⟩
    { startId := 1, endId := some 1 } (by simp)
  have searched : searchEvents plainCodec
      (run (step plainCodec) (Stream.opened emptyStore) lostIdRun)
      { startId := 1, endId := some 1 } = ([2], none) := by
    decide +kernel
  have individually : readIndividually plainCodec
      (run (step plainCodec) (Stream.opened emptyStore) lostIdRun).store
      { startId := 1, endId := some 1 } 0 0
      (Search.indices { startId := 1, endId := some 1 : Search Int }
        (run (step plainCodec) (Stream.opened emptyStore) lostIdRun).currentId) = ([], none) := by
    decide +kernel
  rw [searched, individually] at same
  cases same

/-- A search after one whole addition and a restart. -/
theorem search_events_agree_after_restart : searchEvents plainCodec
        (run (step plainCodec) (Stream.opened emptyStore) (wholeAddition ++ [.restart])) {} =
      readIndividually plainCodec
        (run (step plainCodec) (Stream.opened emptyStore) (wholeAddition ++ [.restart])).store
        {} 0 0 (Search.indices ({} : Search Int) (run (step plainCodec) (Stream.opened emptyStore)
            (wholeAddition ++ [.restart])).currentId) := by
  have faithful : Faithful plainCodec emptyStore := by
    intro start text aligned found
    cases found
  have settled : Along (step plainCodec) (Settled plainCodec) (Stream.opened emptyStore)
      (wholeAddition ++ [.restart]) := by
    refine ⟨trivial, trivial, ?_, trivial, trivial⟩
    intro addition start page located storing filled aligned
    cases located
    cases filled
  exact search_events_agree _ _ faithful _ settled _
    ⟨_, [], (List.append_nil _).symm, rfl⟩ {} (by simp)

end ForgePilot.EventPages
