import ForgePilot.EventService

/-!
# Searches for events, from the first page to the last

A search for a page lists the files anew, so its pages are cut out of different arrangements of the events that
match. They hold every event once when the events on both sides of the end of a page have different times. The
number of events is the number of what is found, except that without filters the files are counted, whether
or not they hold an event.
-/

namespace ForgePilot.EventSearches

open FloatTexts OffsetPages Sequences EventService List Option

variable {τ δ : Type}

/-! ## What is asked for -/

def Matches (less : τ → δ → Option Bool) (filters : Filters δ) (event : Event τ) : Prop :=
  (∀ kind, filters.kindEq = some kind → kind ≠ "" → event.kind = kind) ∧
  (∀ bound, filters.timestampGte = some bound → less event.timestamp bound = some false) ∧
  ∀ bound, filters.timestampLt = some bound → less event.timestamp bound = some true

variable (less : τ → δ → Option Bool) (files : EventFiles τ) (filters : Filters δ)

theorem passes_iff (event : Event τ) :
    passes less filters event = some true ↔ Matches less filters event := by
  have kinds : filters.kindEq.any (fun kind => kind ≠ "" ∧ event.kind ≠ kind) = false ↔
      ∀ kind, filters.kindEq = some kind → kind ≠ "" → event.kind = kind := by
    cases filters.kindEq with
    | none => simp
    | some kind => simp
  rw [Matches, ← kinds, passes]
  cases filters.kindEq.any (fun kind => kind ≠ "" ∧ event.kind ≠ kind) with
  | true => simp
  | false =>
    cases filters.timestampGte with
    | none => cases filters.timestampLt <;> simp
    | some bound =>
      cases compared : less event.timestamp bound with
      | none => simp [compared]
      | some early => cases early <;> cases filters.timestampLt <;> simp [compared]

instance (less : τ → δ → Option Bool) (filters : Filters δ) : DecidablePred (Matches less filters) :=
  fun _ => decidable_of_iff _ (passes_iff ..)

/-- The stored events that are asked for. -/
def matching (less : τ → δ → Option Bool) (files : EventFiles τ) (filters : Filters δ) :
    List (Event τ) :=
  (files.paths.filterMap files.loadEvent).filter (Matches less filters)

/-- Whether no comparison raises. -/
def Comparable (less : τ → δ → Option Bool) (files : EventFiles τ) (filters : Filters δ) : Prop :=
  ∀ path ∈ files.paths, ∀ event, files.loadEvent path = some event →
    (passes less filters event).isSome

variable {load : String → Option (Event τ)} {paths : List String}

theorem select_matching {less : τ → δ → Option Bool} {filters : Filters δ}
    (comparable : ∀ path ∈ paths, ∀ event, load path = some event →
      (passes less filters event).isSome) :
    select less filters (paths.map load) =
      some ((paths.filterMap load).filter (Matches less filters)) := by
  induction paths with
  | nil => rfl
  | cons path rest ih =>
    have later := ih fun other member => comparable other (.tail _ member)
    rw [map_cons, filterMap_cons]
    cases read : load path with
    | none => simpa [select] using later
    | some event =>
      obtain ⟨passed, compared⟩ := isSome_iff_exists.mp
        (comparable path (.head _) event read)
      have known := passes_iff less filters event
      rw [compared] at known
      simp only [select, compared, later, filter_cons]
      cases passed with
      | true => simp [known.mp rfl]
      | false =>
        have missed : ¬ Matches less filters event := fun matched => by simpa using known.mpr matched
        simp [missed]

theorem select_raises {less : τ → δ → Option Bool} {filters : Filters δ} {path : String}
    (member : path ∈ paths) {event : Event τ} (read : load path = some event)
    (raises : passes less filters event = none) : select less filters (paths.map load) = none := by
  induction paths with
  | nil => cases member
  | cons first rest ih =>
    rw [map_cons]
    rcases mem_cons.mp member with same | later
    · rw [← same, read, select, raises]
      rfl
    have others := ih later
    cases load first with
    | none => simpa [select] using others
    | some other =>
      rw [select, others]
      cases passes less filters other with
      | none => rfl
      | some passed => rfl

theorem files_of_matching {files : EventFiles τ} (keep : Event τ → Bool)
    (listed : ∀ path ∈ paths, path ∈ files.paths) :
    ((paths.filterMap files.loadEvent).filter keep).map fileOf =
      paths.filter fun path => (files.loadEvent path).any keep := by
  induction paths with
  | nil => rfl
  | cons path rest ih =>
    have later := ih fun other member => listed other (.tail _ member)
    rw [filterMap_cons, filter_cons]
    cases read : files.loadEvent path with
    | none => simpa using later
    | some event =>
      have own := files.named path (listed path (.head _)) event read
      cases kept : keep event with
      | true => simp [kept, later, ← own]
      | false => simp [kept, later]

/-- Events are read from their own files. -/
theorem load_fileOf (event : Event τ) (stored : event ∈ files.paths.filterMap files.loadEvent) :
    files.loadEvent (fileOf event) = some event := by
  obtain ⟨path, member, read⟩ := mem_filterMap.mp stored
  rw [← files.named path member event read]
  exact read

theorem matching_distinct : (matching less files filters).Nodup := by
  have names : ((matching less files filters).map fileOf).Nodup := by
    rw [matching, files_of_matching _ fun _ member => member]
    exact files.distinct.filter _
  exact names.of_map

/-- Any order of the events that match is the order of some listing of the files. -/
theorem listing_of_arranged {less : τ → δ → Option Bool} {files : EventFiles τ} {filters : Filters δ}
    {events : List (Event τ)} (same : events.Perm (matching less files filters)) :
    ∃ paths : List String, paths.Perm files.paths ∧
      (paths.filterMap files.loadEvent).filter (Matches less filters) = events := by
  let keep : Event τ → Bool := fun event => decide (Matches less filters event)
  let wanted : String → Bool := fun path => (files.loadEvent path).any keep
  refine ⟨events.map fileOf ++ files.paths.filter (fun path => !wanted path), ?_, ?_⟩
  · have names : (events.map fileOf).Perm (files.paths.filter wanted) := by
      rw [← files_of_matching _ fun _ member => member]
      exact same.map fileOf
    exact (List.Perm.append_right _ names).trans (filter_append_perm wanted files.paths)
  · -- the files of the events come first, and the others hold nothing that matches
    have read : (events.map fileOf).filterMap files.loadEvent = events := by
      rw [filterMap_map]
      have each : ∀ event ∈ events, (files.loadEvent ∘ fileOf) event = some event := by
        intro event member
        exact load_fileOf _ _ (mem_filter.mp (same.mem_iff.mp member)).1
      rw [filterMap_congr each, filterMap_some]
    have kept : events.filter keep = events := by
      rw [filter_eq_self]
      intro event member
      exact (mem_filter.mp (same.mem_iff.mp member)).2
    have rest : ((files.paths.filter fun path => !wanted path).filterMap files.loadEvent).filter keep
        = [] := by
      rw [filter_eq_nil_iff]
      intro event member matched
      obtain ⟨path, listed, found⟩ := mem_filterMap.mp member
      have unwanted := (mem_filter.mp listed).2
      simp [wanted, found, matched] at unwanted
    rw [filterMap_append, filter_append, read, kept, rest, append_nil]

/-- Without filters every event matches. -/
theorem matching_all (given : filters.given = false) :
    matching less files filters = files.paths.filterMap files.loadEvent := by
  simp only [Filters.given, Bool.or_eq_false_iff, isSome_eq_false_iff, isNone_iff_eq_none]
    at given
  obtain ⟨⟨kinds, early⟩, late⟩ := given
  rw [matching, filter_eq_self]
  intro event _
  rw [decide_eq_true_eq, Matches, early, late]
  refine ⟨fun kind same filled => ?_, by simp, by simp⟩
  rw [same, any_some, decide_eq_false_iff_not, not_not] at kinds
  exact absurd kinds filled

/-- Files are as many as events when every file holds one. -/
theorem length_loaded (load : String → Option (Event τ)) (paths : List String) :
    (paths.filterMap load).length = paths.length ↔ ∀ path ∈ paths, (load path).isSome := by
  induction paths with
  | nil => simp
  | cons path rest ih =>
    have fewer := length_filterMap_le load rest
    rw [filterMap_cons, forall_mem_cons, ← ih]
    cases load path with
    | none =>
      simp only [length_cons, isSome_none, Bool.false_eq_true, false_and, iff_false]
      omega
    | some event => simp

/-! ## Arrangements of the events -/

section Searches

variable [LinearOrder τ]

/-- An event may stand before another one. -/
def Before (sortOrder : EventSortOrder) (first second : Event τ) : Prop :=
  sortOrder.le first second = true

variable (sortOrder : EventSortOrder)

theorem before_total (first second : Event τ) :
    Before sortOrder first second ∨ Before sortOrder second first := by
  cases sortOrder with
  | timestamp => simpa [Before, EventSortOrder.le] using le_total first.timestamp second.timestamp
  | timestampDesc => simpa [Before, EventSortOrder.le] using le_total second.timestamp first.timestamp

theorem before_trans {sortOrder : EventSortOrder} (first second third : Event τ)
    (early : Before sortOrder first second) (late : Before sortOrder second third) :
    Before sortOrder first third := by
  cases sortOrder with
  | timestamp =>
    simp only [Before, EventSortOrder.le, decide_eq_true_eq] at early late ⊢
    exact le_trans early late
  | timestampDesc =>
    simp only [Before, EventSortOrder.le, decide_eq_true_eq] at early late ⊢
    exact le_trans late early

instance (sortOrder : EventSortOrder) : Std.Total (fun first second : Event τ => Before sortOrder first second) :=
  ⟨before_total _⟩

instance (sortOrder : EventSortOrder) : IsTrans (Event τ) (Before sortOrder) := ⟨before_trans⟩

variable {items events : List (Event τ)}

theorem sort_arranged (same : events.Perm items) :
    Arranged (Before sortOrder) items (sortEvents sortOrder events) := by
  constructor
  · exact (mergeSort_perm events _).trans same
  · apply pairwise_mergeSort
    · exact before_trans
    · intro first second
      simpa [Before] using before_total ..

/-- What is arranged is not changed by sorting. -/
theorem sort_of_arranged (arranged : Arranged (Before sortOrder) items events) :
    sortEvents sortOrder events = events :=
  mergeSort_of_pairwise arranged.sorted

/-! ## Pages -/

variable (table : DigitTable) (less : τ → δ → Option Bool) (files : EventFiles τ) (filters : Filters δ)
  (sortOrder : EventSortOrder) (limit : Nat)

/-- The events of a listing of the files, as a search arranges them. -/
def arrangement (paths : List String) : List (Event τ) :=
  sortEvents sortOrder ((paths.filterMap files.loadEvent).filter (Matches less filters))

theorem start_of_page (offset : Nat) :
    startOffset table (some (strOfNat offset)) = some (offset : Int) := by
  have read := intOfStr_strOfInt table offset
  rw [startOffset, strOfNat]
  split
  · rename_i empty
    rw [empty] at read
    cases read
  · exact read

variable (comparable : Comparable less files filters)
include comparable

/-- A search that does not raise is a page of the arrangement of the files. -/
theorem search_cut (same : paths.Perm files.paths) {pageId : Option String} {offset : Nat}
    (starts : startOffset table pageId = some (offset : Int)) :
    searchEvents table less files paths filters sortOrder pageId limit =
      ((cut (arrangement less files filters sortOrder paths) limit offset).items.mapM some).map
        fun items => ⟨items,
          (cut (arrangement less files filters sortOrder paths) limit offset).next.map strOfNat⟩ := by
  have selected := select_matching
    fun path member => comparable path (same.mem_iff.mp member)
  have items : slice (sortEvents sortOrder ((paths.filterMap files.loadEvent).filter
      (Matches less filters))) (some (offset : Int)) none =
      (arrangement less files filters sortOrder paths).drop offset := slice_rest _ _
  simp only [searchEvents, selected, starts, bind_eq_bind, bind_some, items, mapM_whole,
    map_some]
  rw [cut]
  by_cases more : offset + limit < (arrangement less files filters sortOrder paths).length
  · rw [if_pos (by rw [length_drop]; omega), if_pos more, map_some, strOfNat,
      Int.natCast_add]
    rfl
  · have all : ((arrangement less files filters sortOrder paths).drop offset).length ≤ limit := by
      rw [length_drop]
      omega
    rw [if_neg (by omega), if_neg more, take_of_length_le all, map_none]
    rfl

/-- Following the pages of searches is going through arrangements. -/
theorem follow_arrangements {listings : Nat → List String}
    (each : ∀ asked, (listings asked).Perm files.paths) (pages : Nat) :
    follow (fun asked pageId =>
        searchEvents table less files (listings asked) filters sortOrder pageId limit) pages 0 none =
      joined (fun asked => arrangement less files filters sortOrder (listings asked)) limit pages 0 0 := by
  have through := follow_read (fun asked pageId =>
      searchEvents table less files (listings asked) filters sortOrder pageId limit) strOfNat
    (fun asked => arrangement less files filters sortOrder (listings asked)) (by
      intro offset asked
      exact search_cut _ less _ _ _ _ comparable (each asked)
        (start_of_page ..)) pages 0 0 none (by
      intro asked
      exact search_cut _ less _ _ _ _ comparable (each asked) rfl)
  rw [through]
  simp [mapM_whole]

omit comparable

theorem arrangement_arranged (same : paths.Perm files.paths) :
    Arranged (Before sortOrder) (matching less files filters)
      (arrangement less files filters sortOrder paths) :=
  sort_arranged _ ((same.filterMap files.loadEvent).filter _)

/-! ## Everything that is found -/

/-- From the first page to the last, every event that matches is found once and in order, and it is counted. -/
def Partitioned (listings counting : Nat → List String) : Prop :=
  ∃ pages found,
    follow (fun asked pageId =>
      searchEvents table less files (listings asked) filters sortOrder pageId limit) pages 0 none =
        some found ∧
    found.Perm (matching less files filters) ∧ found.Pairwise (Before sortOrder) ∧
    ∃ rounds, countEvents table less files counting filters rounds = some found.length

include comparable in
theorem count_given (given : filters.given = true) (counting : Nat → List String)
    (each : ∀ asked, (counting asked).Perm files.paths) :
    ∃ rounds, countEvents table less files counting filters rounds =
      some (matching less files filters).length := by
  have arranged (asked : Nat) := arrangement_arranged less files filters .timestamp (each asked)
  obtain ⟨found, ends⟩ := joined_ends _ 100 _ (fun asked => (arranged asked).perm.length_eq) (by decide)
    (matching less files filters).length 0 0 (by omega)
  obtain ⟨count, -⟩ := joined_sorted _ _ _ arranged 100 (by decide) ends
  refine ⟨(matching less files filters).length + 1, ?_⟩
  rw [countEvents, if_pos given, follow_arrangements _ _ _ _ _ 100 comparable
    each, ends, map_some, count]

/-- Whatever order the files are listed in, a search finds every event that matches once, and it counts
them, exactly when no comparison raises, events next to the end of a page have different times, and, where there is no
filter, every file holds an event. -/
theorem events_partitioned (positive : 0 < limit) :
    (∀ listings counting : Nat → List String, (∀ asked, (listings asked).Perm files.paths) →
      (∀ asked, (counting asked).Perm files.paths) →
        Partitioned table less files filters sortOrder limit listings counting) ↔
      Comparable less files filters ∧
      Separated (Before sortOrder) limit (sortEvents sortOrder (matching less files filters)) ∧
      (filters.given = false → ∀ path ∈ files.paths, (files.loadEvent path).isSome) := by
  have exact_pages := pages_perm_iff (matching_distinct ..)
    positive (sort_arranged sortOrder (List.Perm.refl (matching less files filters)))
  constructor
  · intro all
    have comparable : Comparable less files filters := by
      intro path member event read
      by_contra raises
      rw [Option.not_isSome_iff_eq_none] at raises
      obtain ⟨pages, found, ends, -⟩ := all (fun _ => files.paths) (fun _ => files.paths)
        (fun _ => List.Perm.refl _) fun _ => List.Perm.refl _
      cases pages with
      | zero => cases ends
      | succ pages =>
        rw [follow, searchEvents, select_raises member
          read raises] at ends
        cases ends
    refine ⟨comparable, exact_pages.mp fun listings arranged => ?_, fun given => ?_⟩
    · -- the files can be listed so that every search has its own arrangement
      choose paths same events using fun asked => listing_of_arranged (arranged asked).perm
      obtain ⟨pages, found, ends, perm, -⟩ := all paths paths same same
      rw [follow_arrangements _ _ _ _ _ _ comparable same] at ends
      have arrangements : (fun asked => arrangement less files filters sortOrder (paths asked)) =
          listings := by
        funext asked
        rw [arrangement, events, sort_of_arranged _ (arranged asked)]
      rw [arrangements] at ends
      exact ⟨pages, found, ends, perm⟩
    · obtain ⟨pages, found, -, perm, -, rounds, count⟩ := all (fun _ => files.paths)
        (fun _ => files.paths) (fun _ => List.Perm.refl _) fun _ => List.Perm.refl _
      rw [countEvents, given, if_neg Bool.false_ne_true, Option.some.injEq, perm.length_eq,
        matching_all _ _ _ given] at count
      exact (length_loaded ..).mp count.symm
  · rintro ⟨comparable, separated, readable⟩ listings counting each eachCount
    have arranged (asked : Nat) := arrangement_arranged less files filters sortOrder (each asked)
    obtain ⟨pages, found, ends, perm⟩ := exact_pages.mpr separated _ arranged
    refine ⟨pages, found, ?_, perm, (joined_sorted _ _ _ arranged _ positive ends).2, ?_⟩
    · rw [follow_arrangements _ _ _ _ _ _ comparable each, ends]
    · rw [perm.length_eq]
      cases given : filters.given with
      | true => exact count_given _ _ _ _ comparable given _ eachCount
      | false =>
        refine ⟨0, ?_⟩
        rw [countEvents, given, if_neg Bool.false_ne_true, (eachCount 0).length_eq,
          matching_all _ _ _ given,
          (length_loaded ..).mpr (readable given)]

end Searches

/-- A file that holds no event. -/
def unreadable : EventFiles Nat where
  paths := ["1.json"]
  loadEvent := fun _ => none
  distinct := by decide
  named := by
    intro path member event read
    cases read

/-- The file is counted, and nothing is found. -/
theorem unreadable_counted :
    ¬ ∀ (files : EventFiles Nat) (filters : Filters Nat) (sortOrder : EventSortOrder) (limit : Nat),
      0 < limit → ∀ listings counting : Nat → List String, (∀ asked, (listings asked).Perm files.paths) →
        (∀ asked, (counting asked).Perm files.paths) →
          Partitioned (fun _ => none) (fun time bound => some (decide (time < bound))) files filters
            sortOrder limit listings counting := by
  intro all
  obtain ⟨pages, found, -, perm, -, rounds, count⟩ := all unreadable {} .timestamp 100 (by decide)
    (fun _ => ["1.json"]) (fun _ => ["1.json"]) (fun _ => List.Perm.refl _) fun _ => List.Perm.refl _
  have nothing : found = [] := List.perm_nil.mp perm
  rw [nothing, countEvents, if_neg (by decide)] at count
  cases count

/-- Two events of different times. -/
def twoEvents : EventFiles Nat where
  paths := ["1.json", "2.json"]
  loadEvent := fun path =>
    if path = "1.json" then some ⟨"1", "message", 5⟩
    else if path = "2.json" then some ⟨"2", "message", 6⟩ else none
  distinct := by decide
  named := by
    intro path member event read
    rcases List.mem_pair.mp member with rfl | rfl
    · cases read
      decide
    · cases read
      decide

theorem two_events_partitioned :
    Partitioned (fun _ => none) (fun time bound : Nat => some (decide (time < bound))) twoEvents {}
      .timestamp 1 (fun _ => ["2.json", "1.json"]) (fun _ => ["1.json", "2.json"]) := by
  refine (events_partitioned (fun _ => none) (fun time bound : Nat => some (decide (time < bound)))
    _ {} _ 1 (by decide)).mpr ⟨?_, ?_, ?_⟩ _ _ (fun _ => ?_) fun _ => ?_
  · intro path member event read
    rfl
  · have sorted : sortEvents .timestamp (matching (fun time bound : Nat => some (decide (time < bound)))
        twoEvents {}) = [⟨"1", "message", 5⟩, ⟨"2", "message", 6⟩] :=
      List.mergeSort_of_pairwise (by decide)
    rw [sorted]
    intro pages after inside
    simp only [List.length_cons, List.length_nil] at inside
    obtain rfl : pages = 1 := by omega
    simp [Before, EventSortOrder.le]
  · decide
  · decide
  · decide

end ForgePilot.EventSearches
