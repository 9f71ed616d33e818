import ForgePilot.ConversationSearch
import Mathlib.Data.String.Basic

/-!
# All conversations of a search, and their number

Rows with the same value in the column that is sorted by may come in another order for every page, a pattern is
not a part of a title, and the number of conversations includes those below others. The pages hold the
conversations that were asked for, and their number is right, exactly when none of this makes a
difference for the rows of the table.
-/

namespace ForgePilot.ConversationPages

open Conversations hiding toInfo
open FloatTexts OffsetPages ConversationSearch

/-! ## Orders -/

section Orders

variable (dialect : Dialect)

theorem leTitle_total (first second : Option String) :
    dialect.leTitle first second = true ∨ dialect.leTitle second first = true := by
  cases first with
  | none =>
    cases second with
    | none => exact .inl rfl
    | some title => cases nulls : dialect.nullsFirst <;> simp [Dialect.leTitle, nulls]
  | some title =>
    cases second with
    | none => cases nulls : dialect.nullsFirst <;> simp [Dialect.leTitle, nulls]
    | some other => exact dialect.titleTotal title other

theorem leTitle_trans {first second third : Option String} (early : dialect.leTitle first second = true)
    (late : dialect.leTitle second third = true) : dialect.leTitle first third = true := by
  cases first with
  | none =>
    cases third with
    | none => rfl
    | some last => cases second <;> simp_all [Dialect.leTitle]
  | some title =>
    cases third with
    | none => cases second <;> simp_all [Dialect.leTitle]
    | some last =>
      cases second with
      | none => simp_all [Dialect.leTitle]
      | some middle => exact dialect.titleTrans title middle last early late

variable (sortOrder : AppConversationSortOrder)

theorem le_columns_total (first second : SortColumns) :
    dialect.le sortOrder first second = true ∨ dialect.le sortOrder second first = true := by
  cases sortOrder with
  | createdAt => simpa [Dialect.le] using Nat.le_total _ _
  | createdAtDesc => simpa [Dialect.le] using Nat.le_total _ _
  | updatedAt => simpa [Dialect.le] using Nat.le_total _ _
  | updatedAtDesc => simpa [Dialect.le] using Nat.le_total _ _
  | title => exact leTitle_total ..
  | titleDesc => exact leTitle_total ..

theorem le_columns_trans {first second third : SortColumns}
    (early : dialect.le sortOrder first second = true)
    (late : dialect.le sortOrder second third = true) : dialect.le sortOrder first third = true := by
  cases sortOrder with
  | title => exact leTitle_trans _ early late
  | titleDesc => exact leTitle_trans _ late early
  | createdAt | createdAtDesc | updatedAt | updatedAtDesc =>
    simp only [Dialect.le, decide_eq_true_eq] at early late ⊢
    omega

/-- A row may stand before another one. -/
def RowBefore (first second : Row) : Prop := dialect.le sortOrder first.columns second.columns = true

/-- A conversation may stand before another one. -/
def InfoBefore {υ : Type} (first second : AppConversationInfo υ) : Prop :=
  dialect.le sortOrder (infoColumns first) (infoColumns second) = true

instance : DecidableRel (RowBefore dialect sortOrder) := fun first second =>
  inferInstanceAs (Decidable (dialect.le sortOrder first.columns second.columns = true))

instance : Std.Total (RowBefore dialect sortOrder) := ⟨fun _ _ => le_columns_total ..⟩

instance : IsTrans Row (RowBefore dialect sortOrder) :=
  ⟨fun _ _ _ => le_columns_trans _ _⟩

/-- Rows in the order of a search; those that are tied keep their order. -/
def sortRows (rows : List Row) : List Row :=
  rows.mergeSort fun first second => dialect.le sortOrder first.columns second.columns

theorem sort_arranged (rows : List Row) :
    Arranged (RowBefore dialect sortOrder) rows (sortRows dialect sortOrder rows) := by
  constructor
  · exact List.mergeSort_perm rows _
  · apply List.pairwise_mergeSort
    · intro first second third
      exact le_columns_trans _ _
    · intro first second
      simpa using le_columns_total ..

end Orders

/-! ## Patterns -/

/-! ## What is asked for -/

/-- Whether a text is part of the title. -/
def titleContains (filters : Filters) (row : StoredConversationMetadata) : Bool :=
  filters.titleContains.all fun text => row.title.any fun title =>
    decide (text.toList <:+: title.toList)

section Searches

variable {υ : Type} {platform : Platform υ} (digits : DigitTable) (dialect : Dialect) (filters : Filters)
  (includeSubConversations : Bool) (sortOrder : AppConversationSortOrder) (limit : Nat)
  (table : ConversationTable platform)

/-- The current conversations that satisfy the filters. -/
def wantedRows : List Row :=
  table.metadata.entries.filter fun row => secureSelect row.2 && subSelect includeSubConversations row.2 &&
    (titleContains filters row.2 && filters.others row.2)

/-- What is found from the first page to the last one. -/
def Finds (platform : Platform υ) (listings : Nat → List Row) (found : List (AppConversationInfo υ)) :
    Prop :=
  ∃ pages, follow (fun asked pageId =>
    searchAppConversationInfo platform digits (listings asked) pageId limit) pages 0 none = some found

/-- Every conversation is found once and in order, and the number is that of the default search. -/
def Agrees (listings defaults : Nat → List Row) : Prop :=
  ∃ found yielded infos, Finds digits limit platform listings found ∧
    Finds digits 100 platform defaults yielded ∧
    (wantedRows filters includeSubConversations table).mapM (toInfo platform) = some infos ∧
    found.Perm infos ∧ found.Pairwise (InfoBefore dialect sortOrder) ∧
    countAppConversationInfo platform dialect filters table = yielded.length

/-- Whether the pattern and the part of the title agree, where the other conditions are met. -/
def LikeAgrees : Prop :=
  ∀ row ∈ table.metadata.entries, secureSelect row.2 = true →
    subSelect includeSubConversations row.2 = true → filters.others row.2 = true →
      titleLike dialect filters row.2 = titleContains filters row.2

/-- Whether no conversation below another one passes the filters. -/
def NoSubConversations : Prop :=
  ∀ row ∈ table.metadata.entries, secureSelect row.2 = true →
    applyFilters dialect filters row.2 = true → row.2.parentConversationId = none

/-! ## Pages of rows -/

theorem offset_of_page (offset : Nat) :
    pageOffset digits (some (strOfNat offset)) = (offset : Int) := by
  rw [pageOffset, strOfNat, Option.bind_some, intOfStr_strOfInt, Option.getD_some]

/-- A search is a page of the listing, of which every row is read. -/
theorem search_cut (listing : List Row) (pageId : Option String) (offset : Nat)
    (starts : pageOffset digits pageId = (offset : Int)) :
    searchAppConversationInfo platform digits listing pageId limit =
      ((cut listing limit offset).items.mapM (toInfo platform)).map fun items =>
        ⟨items, (cut listing limit offset).next.map strOfNat⟩ := by
  have count : ((listing.drop offset).take (limit + 1)).length =
      min (limit + 1) (listing.length - offset) := by
    rw [List.length_take, List.length_drop]
  simp only [searchAppConversationInfo, starts, Int.toNat_natCast, cut]
  by_cases more : offset + limit < listing.length
  · have rows : (if ((listing.drop offset).take (limit + 1)).length > limit then
        ((listing.drop offset).take (limit + 1)).take limit
        else (listing.drop offset).take (limit + 1)) = (listing.drop offset).take limit := by
      rw [if_pos (by omega), List.take_take, Nat.min_eq_left (by omega)]
    have next : ((listing.drop offset).take (limit + 1)).length > limit := by omega
    rw [if_pos more]
    simp only [rows]
    cases ((listing.drop offset).take limit).mapM (toInfo platform) with
    | none => rfl
    | some items =>
      simp only [Option.bind_eq_bind, Option.bind_some, if_pos next, Option.map_some, strOfNat,
        Int.natCast_add]
      rfl
  · have rows : (if ((listing.drop offset).take (limit + 1)).length > limit then
        ((listing.drop offset).take (limit + 1)).take limit
        else (listing.drop offset).take (limit + 1)) = (listing.drop offset).take limit := by
      have short : (listing.drop offset).length ≤ limit := by
        rw [List.length_drop]
        omega
      rw [if_neg (by omega), List.take_of_length_le (by omega), List.take_of_length_le short]
    have last : ¬ ((listing.drop offset).take (limit + 1)).length > limit := by omega
    rw [if_neg more]
    simp only [rows]
    cases ((listing.drop offset).take limit).mapM (toInfo platform) with
    | none => rfl
    | some items =>
      simp only [Option.bind_eq_bind, Option.bind_some, if_neg last, Option.map_some, Option.map_none]
      rfl

theorem finds_iff (listings : Nat → List Row) (found : List (AppConversationInfo υ)) :
    Finds digits limit platform listings found ↔
      ∃ pages rows, joined listings limit pages 0 0 = some rows ∧
        rows.mapM (toInfo platform) = some found := by
  have through (pages : Nat) := follow_read
    (fun asked pageId => searchAppConversationInfo platform digits (listings asked) pageId limit)
    strOfNat _ (by
      intro offset asked
      exact search_cut digits limit (listings asked) _ offset (offset_of_page ..)) pages 0 0
    none (by
      intro asked
      exact search_cut _ _ _ none 0 rfl)
  simp only [Finds, through, Option.bind_eq_some_iff]

/-! ## Rows and what is read from them -/

theorem toInfo_row {row : Row} {info : AppConversationInfo υ} (read : toInfo platform row = some info) :
    platform.readUuid row.1 = some info.id ∧ infoColumns info = row.columns := by
  simp only [toInfo, Option.bind_eq_bind, Option.bind_eq_some_iff, Option.pure_def, Option.some.injEq]
    at read
  obtain ⟨sandboxId, -, metrics, -, id, known, provider, -, trigger, -, parent, -, rfl⟩ := read
  exact ⟨known, rfl⟩

/-- Conversations that are read from current rows have the keys of these. -/
theorem keys_of_infos {rows : List Row} {infos : List (AppConversationInfo υ)}
    (stored : ∀ row ∈ rows, row ∈ table.metadata.entries ∧ secureSelect row.2 = true)
    (read : rows.mapM (toInfo platform) = some infos) :
    infos.map (fun info => platform.text info.id) = rows.map Prod.fst := by
  obtain ⟨all, rfl⟩ := (mapM_eq_some_iff ..).mp read
  clear read
  induction rows with
  | nil => rfl
  | cons row rest ih =>
    have later := ih (fun other member => stored other (.tail _ member))
      fun other member => all other (.tail _ member)
    obtain ⟨info, value⟩ := Option.isSome_iff_exists.mp (all row (.head _))
    obtain ⟨inside, current⟩ := stored row (.head _)
    obtain ⟨id, known, text⟩ := table.keyed row inside (by simpa [secureSelect] using current)
    obtain rfl := Option.some.inj (known.symm.trans (toInfo_row value).1)
    rw [List.filterMap_cons_some value, List.map_cons, List.map_cons, later, text]

theorem selected_stored (row : Row)
    (member : row ∈ selectedRows platform dialect filters includeSubConversations table) :
    row ∈ table.metadata.entries ∧ secureSelect row.2 = true := by
  obtain ⟨inside, chosen⟩ := List.mem_filter.mp member
  simp only [Bool.and_eq_true] at chosen
  exact ⟨inside, chosen.1.1⟩

/-- What is selected without conversations below others is selected with them. -/
theorem selected_of_tops (row : Row) (member : row ∈ selectedRows platform dialect filters false table) :
    row ∈ selectedRows platform dialect filters includeSubConversations table := by
  obtain ⟨inside, chosen⟩ := List.mem_filter.mp member
  apply List.mem_filter.mpr
  simp only [subSelect, Bool.and_eq_true, Bool.or_eq_true] at chosen ⊢
  obtain ⟨⟨current, top⟩, passed⟩ := chosen
  exact ⟨inside, ⟨current, .inr (by simpa using top)⟩, passed⟩

theorem wanted_stored (row : Row)
    (member : row ∈ wantedRows filters includeSubConversations table) :
    row ∈ table.metadata.entries ∧ secureSelect row.2 = true := by
  obtain ⟨inside, chosen⟩ := List.mem_filter.mp member
  simp only [Bool.and_eq_true] at chosen
  exact ⟨inside, chosen.1.1⟩

/-- Where pattern and part agree, what is selected is what is asked for. -/
theorem selected_of_agrees (agrees : LikeAgrees dialect filters includeSubConversations table) :
    selectedRows platform dialect filters includeSubConversations table =
      wantedRows filters includeSubConversations table := by
  apply List.filter_congr
  intro row inside
  rw [applyFilters]
  cases current : secureSelect row.2 with
  | false => rfl
  | true =>
    cases top : subSelect includeSubConversations row.2 with
    | false => rfl
    | true =>
      cases others : filters.others row.2 with
      | false => simp
      | true => rw [agrees row inside current top others]

/-- Rows with the same keys are the same rows of the table. -/
theorem agrees_of_keys
    (same : ((selectedRows platform dialect filters includeSubConversations table).map Prod.fst).Perm
      ((wantedRows filters includeSubConversations table).map Prod.fst)) :
    LikeAgrees dialect filters includeSubConversations table := by
  have unique (first second : Row) (inside : first ∈ table.metadata.entries)
      (insideToo : second ∈ table.metadata.entries) (keys : first.1 = second.1) : first = second :=
    List.inj_on_of_nodup_map table.metadata.distinct inside insideToo keys
  intro row inside current top others
  -- the row is among the selected ones exactly when it is among those asked for
  have both : row ∈ selectedRows platform dialect filters includeSubConversations table ↔
      row ∈ wantedRows filters includeSubConversations table := by
    constructor
    · intro member
      obtain ⟨other, there, keys⟩ := List.mem_map.mp (same.mem_iff.mp (List.mem_map_of_mem member))
      rw [unique row other inside (wanted_stored _ _ _ _ there).1
        keys.symm]
      exact there
    · intro member
      obtain ⟨other, there, keys⟩ :=
        List.mem_map.mp (same.symm.mem_iff.mp (List.mem_map_of_mem member))
      rw [unique row other inside
        (selected_stored _ _ _ _ _ there).1 keys.symm]
      exact there
  simp only [selectedRows, wantedRows, List.mem_filter, inside, current, top, applyFilters, others,
    Bool.and_true, Bool.true_and, true_and] at both
  exact Bool.eq_iff_iff.mpr both

/-- Counting is right when no conversation below another one passes the filters. -/
theorem count_iff : countAppConversationInfo platform dialect filters table =
    (selectedRows platform dialect filters false table).length ↔
      NoSubConversations dialect filters table := by
  have tops : selectedRows platform dialect filters false table =
      (table.metadata.entries.filter fun row =>
        secureSelect row.2 && applyFilters dialect filters row.2).filter
          fun row => row.2.parentConversationId.isNone := by
    rw [selectedRows, List.filter_filter]
    apply List.filter_congr
    intro row _
    rw [subSelect, Bool.false_or, Bool.and_assoc, Bool.and_left_comm]
  rw [tops, countAppConversationInfo, eq_comm, List.length_filter_eq_length_iff, NoSubConversations]
  simp only [List.mem_filter, Bool.and_eq_true, Option.isNone_iff_eq_none]
  exact ⟨fun all row inside current passed => all row ⟨inside, current, passed⟩,
    fun all row chosen => all row chosen.1 chosen.2.1 chosen.2.2⟩

/-! ## The pages and the number -/

theorem listing_stored {listing : List Row} (arranged : Arranged (RowBefore dialect sortOrder)
      (selectedRows platform dialect filters includeSubConversations table) listing) :
    ∀ row ∈ listing, row ∈ table.metadata.entries ∧ secureSelect row.2 = true := fun row member =>
  selected_stored _ _ _ _ row (arranged.perm.mem_iff.mp member)

/-- Conversations stand in the order of their rows. -/
theorem infos_sorted (rows : List Row) (infos : List (AppConversationInfo υ))
    (read : rows.mapM (toInfo platform) = some infos)
    (sorted : rows.Pairwise (RowBefore dialect sortOrder)) :
    infos.Pairwise (InfoBefore dialect sortOrder) := by
  obtain ⟨-, rfl⟩ := (mapM_eq_some_iff ..).mp read
  refine sorted.filterMap (toInfo platform) fun first second before one value other later => ?_
  rw [InfoBefore, (toInfo_row value).2, (toInfo_row later).2]
  exact before

/-- A search that agrees, with the listings that stay the same. -/
theorem agrees_constant (positive : 0 < limit) {listing defaults : List Row}
    (agrees : Agrees digits dialect filters includeSubConversations sortOrder limit table (fun _ => listing)
      fun _ => defaults) :
    ∃ found yielded infos, listing.mapM (toInfo platform) = some found ∧
      defaults.mapM (toInfo platform) = some yielded ∧
      (wantedRows filters includeSubConversations table).mapM (toInfo platform) = some infos ∧
      found.Perm infos ∧ countAppConversationInfo platform dialect filters table = yielded.length := by
  obtain ⟨found, yielded, infos, finds, yields, wanted, perm, -, count⟩ := agrees
  obtain ⟨pages, rows, ends, read⟩ := (finds_iff ..).mp finds
  obtain ⟨rounds, others, stops, readToo⟩ := (finds_iff ..).mp yields
  rw [joined_constant positive ends] at read
  rw [joined_constant (by decide) stops] at readToo
  exact ⟨found, yielded, infos, read, readToo, wanted, perm, count⟩

/-- Whatever order the database has tied rows in, a search finds the conversations that satisfy the filters once
and in order, and they are counted, exactly when every selected row can be read, rows next to the end
of a page differ in the column that is sorted by, the pattern stands for the part of a title, and no conversation
below another one passes the filters. -/
theorem pages_and_count_agree (positive : 0 < limit) : (∀ listings defaults : Nat → List Row,
      (∀ asked, Arranged (RowBefore dialect sortOrder)
        (selectedRows platform dialect filters includeSubConversations table) (listings asked)) →
      (∀ asked, Arranged (RowBefore dialect .createdAtDesc)
        (selectedRows platform dialect filters false table) (defaults asked)) →
      Agrees digits dialect filters includeSubConversations sortOrder limit table listings defaults) ↔
    (∀ row ∈ selectedRows platform dialect filters includeSubConversations table,
      (toInfo platform row).isSome) ∧
    Separated (RowBefore dialect sortOrder) limit (sortRows dialect sortOrder
      (selectedRows platform dialect filters includeSubConversations table)) ∧
    LikeAgrees dialect filters includeSubConversations table ∧
    NoSubConversations dialect filters table := by
  have sorted := sort_arranged dialect sortOrder
    (selectedRows platform dialect filters includeSubConversations table)
  have sortedDefaults := sort_arranged dialect .createdAtDesc
    (selectedRows platform dialect filters false table)
  constructor
  · intro all
    obtain ⟨found, yielded, infos, read, readDefaults, wanted, perm, count⟩ :=
      agrees_constant _ _ _ _ _ _ _ positive
        (all (fun _ => _) (fun _ => _) (fun _ => sorted) fun _ => sortedDefaults)
    have keys := keys_of_infos _ (wanted_stored _ _ _) wanted
    refine ⟨?_, ?_, ?_, ?_⟩
    · intro row member
      exact ((mapM_eq_some_iff ..).mp read).1 row (sorted.perm.mem_iff.mpr member)
    · apply separated_of_distinct sorted
      intro listings arranged
      obtain ⟨others, _, again, finds, -, wantedToo, permToo, -⟩ :=
        all listings (fun _ => _) arranged fun _ => sortedDefaults
      obtain ⟨pages, rows, ends, readRows⟩ := (finds_iff ..).mp finds
      refine ⟨pages, rows, ends, ?_⟩
      -- rows that are repeated would be conversations that are repeated
      have rowKeys := keys_of_infos _ (fun row member =>
        selected_stored _ _ _ _ row (joined_mem arranged
          _ positive _ ends row member)) readRows
      have againKeys := keys_of_infos _
        (wanted_stored _ _ _) wantedToo
      have distinct : (rows.map Prod.fst).Nodup := by
        rw [← rowKeys, (permToo.map _).nodup_iff, againKeys]
        exact table.metadata.distinct.sublist (List.filter_sublist.map Prod.fst)
      exact distinct.of_map
    · apply agrees_of_keys
      have foundKeys := keys_of_infos _
        (listing_stored _ _ _ _ _ sorted) read
      rw [← keys]
      apply (sorted.perm.map Prod.fst).symm.trans
      rw [← foundKeys]
      exact perm.map _
    · rw [← count_iff .., count, ← sortedDefaults.perm.length_eq]
      have lengths := congrArg List.length (keys_of_infos _
        (listing_stored _ _ _ _ _ sortedDefaults) readDefaults)
      simpa using lengths
  · rintro ⟨readable, separated, like, tops⟩ listings defaults arranged arrangedDefaults
    obtain ⟨pages, rows, ends, perm⟩ := perm_of_separated positive
      sorted separated arranged
    have read : rows.mapM (toInfo platform) = some (rows.filterMap (toInfo platform)) :=
      (mapM_eq_some_iff _ _ _).mpr ⟨fun row member => readable row (perm.mem_iff.mp member), rfl⟩
    obtain ⟨others, stops⟩ := joined_ends _ 100 _
      (fun asked => (arrangedDefaults asked).perm.length_eq) (by decide) _ 0 0 (Nat.le_add_left _ _)
    have inside := joined_mem arrangedDefaults 100 (by decide) _ stops
    have readOthers : others.mapM (toInfo platform) = some (others.filterMap (toInfo platform)) :=
      (mapM_eq_some_iff _ _ _).mpr ⟨fun row member => readable row
        (selected_of_tops _ _ _ _ row (inside row member)), rfl⟩
    have number := congrArg List.length (keys_of_infos _ (fun row member =>
      selected_stored _ _ _ _ row (inside row member)) readOthers)
    rw [List.length_map, List.length_map, joined_length _ 100 _
      (fun asked => (arrangedDefaults asked).perm.length_eq) (by decide) stops, Nat.sub_zero,
      ← (count_iff ..).mpr tops] at number
    refine ⟨_, _, _, (finds_iff ..).mpr ⟨pages, rows, ends, read⟩,
      (finds_iff ..).mpr ⟨_, others, stops, readOthers⟩,
      (mapM_eq_some_iff _ _ _).mpr ⟨fun row member => readable row ?_, rfl⟩, ?_,
      infos_sorted _ _ _ _ read
        (joined_sorted _ _ _ arranged _ positive ends).2, number.symm⟩
    · rwa [selected_of_agrees _ _ _ _ like]
    · rw [← selected_of_agrees _ _ _ _ like]
      exact perm.filterMap _

end Searches

/-! ## Two conversations -/

/-- Identifiers are texts. -/
def plainPlatform : Platform String where
  readUuid := some
  text := id
  hex := id
  defaultMetrics := ⟨0, none, none⟩
  defaultUsage := ⟨0, 0, 0, 0, 0, 0⟩
  readMetrics := fun _ => some ⟨0, none, none⟩

/-- Patterns without an escape, letters that are told apart, and titles by their characters. -/
def plainDialect : Dialect where
  escape := none
  fold := id
  nullsFirst := true
  titleLe := fun first second => first ≤ second
  titleTotal := fun first second => by simpa using le_total first second
  titleTrans := fun first second third early late => by
    simp only [decide_eq_true_eq] at early late ⊢
    exact le_trans early late

/-- A current conversation with a title that was created at some time. -/
def titledRow (title : String) (createdAt : Nat) : StoredConversationMetadata :=
  ⟨none, none, none, some title, createdAt, createdAt, none, [], none, none, none, none, none, none, none,
    none, none, none, none, "V1", some "sandbox", none, none, none⟩

def twoConversations : ConversationTable plainPlatform where
  metadata := ⟨[("second", titledRow "b_d" 2), ("first", titledRow "abc" 1)], by decide⟩
  keyed := fun row _ _ => ⟨row.1, rfl, rfl⟩

def bothRows : List Row := [("second", titledRow "b_d" 2), ("first", titledRow "abc" 1)]

theorem two_conversations_agree :
    Agrees (fun _ => none) plainDialect { titleContains := some "b" } false
      .createdAtDesc 1 twoConversations (fun _ => bothRows) fun _ => bothRows := by
  have selected : selectedRows plainPlatform plainDialect { titleContains := some "b" } false
      twoConversations = bothRows := rfl
  have arranged : Arranged (RowBefore plainDialect .createdAtDesc) bothRows bothRows :=
    ⟨List.Perm.refl _, by decide⟩
  have sorted : sortRows plainDialect .createdAtDesc bothRows = bothRows :=
    List.mergeSort_of_pairwise (by decide)
  apply (pages_and_count_agree (fun _ => none) _
    _ _ _ 1 _ (by decide)).mpr
  · rw [selected, sorted]
    refine ⟨by decide, fun pages after inside => ?_, ?_, ?_⟩
    · change pages * 1 < 2 at inside
      obtain rfl : pages = 1 := by omega
      simp [RowBefore, Dialect.le, bothRows, titledRow, Row.columns]
    · unfold LikeAgrees
      decide
    · unfold NoSubConversations
      decide
  · rw [selected]
    exact fun _ => arranged
  · rw [selected]
    exact fun _ => arranged

/-- An underscore is part of one of two titles and stands for any character of the other one. -/
theorem underscore_matches :
    ¬ ∀ (dialect : Dialect) (filters : Filters) (includeSubConversations : Bool)
      (sortOrder : AppConversationSortOrder) (limit : Nat) (table : ConversationTable plainPlatform),
      0 < limit → ∀ listings defaults : Nat → List Row,
        (∀ asked, Arranged (RowBefore dialect sortOrder)
          (selectedRows plainPlatform dialect filters includeSubConversations table) (listings asked)) →
        (∀ asked, Arranged (RowBefore dialect .createdAtDesc)
          (selectedRows plainPlatform dialect filters false table) (defaults asked)) →
        Agrees (fun _ => none) dialect filters includeSubConversations sortOrder limit table listings
          defaults := by
  intro all
  have arranged : Arranged (RowBefore plainDialect .createdAtDesc) bothRows bothRows :=
    ⟨List.Perm.refl _, by decide⟩
  obtain ⟨found, -, infos, read, -, wanted, perm, -⟩ := agrees_constant
    (fun _ => none) _ _ _ _ 100 _
    (by decide) (all plainDialect { titleContains := some "_" } false .createdAtDesc 100
      twoConversations (by decide) _ _ (fun _ => arranged) fun _ => arranged)
  -- two conversations are found, and one is asked for
  have two := congrArg (Option.map List.length) read
  have one := congrArg (Option.map List.length) wanted
  rw [Option.map_some, perm.length_eq] at two
  have count := two.trans one.symm
  revert count
  decide

end ForgePilot.ConversationPages
