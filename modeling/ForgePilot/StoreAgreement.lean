import ForgePilot.Runs
import ForgePilot.StoredFiles

/-!
# The two stores agree

A store in memory and a store on disk have the same files and answer the same as long as no path is also
the beginning of another file's text, every list is of a directory that exists and whose directories hold files, and
nothing is stored under a name that a file is written under before it is put in its place.
-/

namespace ForgePilot.StoreAgreement

open Runs StoredFiles List OrderedDict Option

/-! ## Texts of paths -/

theorem name_text_inj : Function.Injective Name.text := by
  rintro ⟨text, _, _, _⟩ ⟨other, _, _, _⟩ same
  obtain rfl : text = other := same
  rfl

variable (store : LocalFileStore) (parts : List Name)

theorem splitOn_textOf (filled : parts ≠ []) :
    (textOf parts).splitOn '/' = parts.map Name.text := by
  refine splitOn_intercalate '/' ?_ fun empty => filled (map_eq_nil_iff.mp empty)
  intro text listed
  obtain ⟨name, -, rfl⟩ := mem_map.mp listed
  exact name.solid

theorem textOf_inj {parts others : List Name} (filled : parts ≠ []) (otherFilled : others ≠ [])
    (same : textOf parts = textOf others) : parts = others := by
  have names := congrArg (splitOn '/') same
  rw [splitOn_textOf _ filled, splitOn_textOf _ otherFilled] at names
  exact map_injective_iff.mpr name_text_inj names

variable (others : List Name)

theorem textOf_append (filled : parts ≠ []) (otherFilled : others ≠ []) :
    textOf (parts ++ others) = textOf parts ++ '/' :: textOf others := by
  induction parts with
  | nil => exact absurd rfl filled
  | cons name rest ih =>
    cases rest with
    | nil =>
      have more : others.map Name.text ≠ [] := fun empty => otherFilled (map_eq_nil_iff.mp empty)
      rw [textOf, textOf, textOf, singleton_append, map_cons,
        intercalate_cons_of_ne_nil more]
      simp
    | cons second rest =>
      have filledRest : second :: rest ≠ [] := cons_ne_nil _ _
      have more : ((second :: rest) ++ others).map Name.text ≠ [] := by simp
      have moreRest : (second :: rest).map Name.text ≠ [] := by simp
      have step : ∀ tail : List Name, tail.map Name.text ≠ [] →
          textOf (name :: tail) = name.text ++ '/' :: textOf tail := by
        intro tail nonempty
        rw [textOf, map_cons, intercalate_cons_of_ne_nil nonempty]
        simp [textOf]
      rw [cons_append, step _ more, ih filledRest, step _ moreRest]
      simp

/-- The text of a path with a slash begins the texts of what lies below it. -/
theorem closed_isPrefix_iff (filled : parts ≠ []) (otherFilled : others ≠ []) :
    textOf parts ++ ['/'] <+: textOf others ↔ ∃ rest, rest ≠ [] ∧ others = parts ++ rest := by
  constructor
  · rintro ⟨tail, same⟩
    have same : textOf others = textOf parts ++ '/' :: tail := by
      rw [← same, append_assoc]
      rfl
    have names := congrArg (splitOn '/') same
    rw [splitOn_textOf _ otherFilled, splitOn_append_cons_self,
      splitOn_textOf _ filled] at names
    obtain ⟨front, rest, rfl, frontNames, restNames⟩ := map_eq_append_iff.mp names
    obtain rfl : front = parts := map_injective_iff.mpr name_text_inj frontNames
    refine ⟨rest, fun empty => ?_, rfl⟩
    rw [empty] at restNames
    exact splitOn_ne_nil '/' tail restNames.symm
  · rintro ⟨rest, restFilled, rfl⟩
    rw [textOf_append _ _ filled restFilled]
    exact ⟨textOf rest, by simp⟩

/-- The text of a path begins with that of a path above it. -/
theorem textOf_isPrefix (rest : List Name) (filled : parts ≠ []) :
    textOf parts <+: textOf (parts ++ rest) := by
  by_cases empty : rest = []
  · rw [empty, append_nil]
  · rw [textOf_append _ _ filled empty]
    exact prefix_append _ _

/-- The text of a path does not end in a slash. -/
theorem textOf_getLast (filled : parts ≠ []) :
    ∃ char, (textOf parts).getLast? = some char ∧ char ≠ '/' := by
  obtain ⟨front, name, rfl⟩ := (eq_nil_or_concat parts).resolve_left filled
  have last : ∃ text, textOf (front.concat name) = text ++ name.text := by
    rw [concat_eq_append]
    by_cases empty : front = []
    · exact ⟨[], by rw [empty]; simp [textOf]⟩
    · refine ⟨textOf front ++ ['/'], ?_⟩
      rw [textOf_append _ _ empty (cons_ne_nil _ _)]
      simp [textOf]
  obtain ⟨text, same⟩ := last
  refine ⟨name.text.getLast name.filled, ?_, fun slash => ?_⟩
  · rw [same, getLast?_append_of_ne_nil text name.filled,
      getLast?_eq_some_getLast name.filled]
  · exact name.solid (slash ▸ getLast_mem name.filled)

theorem closed_ne_textOf (filled : parts ≠ []) : textOf parts ≠ textOf others ++ ['/'] := by
  intro same
  obtain ⟨char, last, notSlash⟩ := textOf_getLast _ filled
  rw [same, getLast?_append_of_ne_nil _ (cons_ne_nil _ _)] at last
  exact notSlash (some.inj last).symm

/-- Joining a name to a path, whether it ends in a slash or not. -/
theorem joinTexts_spelled (path : Path) (slash : Bool) (name : Name) :
    FileStores.joinTexts (spelled path slash) name.text = textOf (path.parts ++ [name]) := by
  have relative : name.text.head? ≠ some '/' := fun first =>
    name.solid (mem_of_mem_head? first)
  rw [textOf_append _ _ path.filled (cons_ne_nil _ _), FileStores.joinTexts, if_neg relative]
  have single : textOf [name] = name.text := by simp [textOf]
  rw [single]
  cases slash with
  | true => simp [spelled]
  | false =>
    obtain ⟨char, last, notSlash⟩ := textOf_getLast _ path.filled
    simp [spelled, last, notSlash]

/-! ## Regular calls -/

def contentsAt (store : LocalFileStore) (parts : List Name) : Option Text :=
  match store.get parts with
  | some (.file contents) => some contents
  | _ => none

/-- Some call writes or reads a file under these names. -/
def UsedAsFile (calls : List Call) (parts : List Name) : Prop :=
  (∃ path contents, Call.write path contents ∈ calls ∧ path.parts = parts) ∨
    ∃ path, Call.read path ∈ calls ∧ path.parts = parts

/-- Some call uses a file below these names, or lists a directory there or below. -/
def UsedAsDirectory (calls : List Call) (parts : List Name) : Prop :=
  (∃ file, UsedAsFile calls file ∧ parts <+: file ∧ parts ≠ file) ∨
    ∃ path slash, Call.list path slash ∈ calls ∧ parts <+: path.parts

/-- No path is used as a file and as a directory, and no text that is written has a carriage return. -/
structure Regular (calls : List Call) : Prop where
  apart : ∀ parts, UsedAsFile calls parts → ¬ UsedAsDirectory calls parts
  plain : ∀ path contents, Call.write path contents ∈ calls → '\r' ∉ contents

/-! ## Conditions -/

/-- A file whose path begins with this text is the one of this path, or below it. -/
def Apart (store : LocalFileStore) (path : Path) (slash : Bool) : Prop :=
  ∀ file : Path, contentsAt store file.parts ≠ none →
    spelled path slash <+: textOf file.parts → path.parts <+: file.parts

/-- What is assumed of a call, in the state that it starts from. -/
def Guarded (writer : Writer) (stores : InMemoryFileStore × LocalFileStore) : Call → Prop
  | .write path _ => stores.2.get (LocalFileStore.tempPath writer path) = none
  | .read _ => True
  | .list path slash => stores.2.get path.parts = some .directory ∧ Apart stores.2 path slash ∧
      ∀ name, stores.2.get (path.parts ++ [name]) = some .directory →
        ∃ rest, rest ≠ [] ∧ contentsAt stores.2 (path.parts ++ name :: rest) ≠ none
  | .delete path slash => Apart stores.2 path slash

/-- Two answers are the same; lists are up to order. -/
def SameOutcome : Outcome → Outcome → Prop
  | .done, .done => True
  | .contents one, .contents other => one = other
  | .files one, .files other => one.Perm other
  | .fileNotFound, .fileNotFound => True
  | _, _ => False

/-- The stores answer a call in the same way. -/
def Answers (writer : Writer) (stores : InMemoryFileStore × LocalFileStore) (call : Call) : Prop :=
  SameOutcome (InMemoryFileStore.step stores.1 call).2 (LocalFileStore.step writer stores.2 call).2

/-! ## The invariant -/

/-- The stores have the same files, and on disk they are in directories. -/
structure Agree (calls : List Call) (stores : InMemoryFileStore × LocalFileStore) : Prop where
  same : ∀ path : Path, stores.1.get (textOf path.parts) = contentsAt stores.2 path.parts
  spelt : ∀ key ∈ stores.1.keys, ∃ path : Path, textOf path.parts = key
  root : stores.2.get [] = none
  inside : ∀ parts entry, stores.2.get parts = some entry → ∀ front, front ≠ [] →
    front <+: parts → front ≠ parts → stores.2.get front = some .directory
  files : ∀ parts contents, stores.2.get parts = some (.file contents) →
    UsedAsFile calls parts ∧ '\r' ∉ contents
  directories : ∀ parts, stores.2.get parts = some .directory → UsedAsDirectory calls parts

theorem contentsAt_eq_some (contents : Text) :
    contentsAt store parts = some contents ↔ store.get parts = some (.file contents) := by
  rw [contentsAt]
  split
  · rename_i stored same
    rw [same, some_inj, some_inj, Entry.file.injEq]
  · rename_i different
    exact ⟨fun none => (by cases none), fun same => absurd same (different contents)⟩

theorem contentsAt_ne_none :
    contentsAt store parts ≠ none ↔ ∃ contents, store.get parts = some (.file contents) := by
  rw [← isSome_iff_ne_none, isSome_iff_exists]
  exact exists_congr fun contents => contentsAt_eq_some ..

/-! ## Writing -/

/-- Directories are created where no file is in the way, and nothing else changes. -/
theorem makedirs_spec (front names : List Name)
    (free : ∀ done, done ≠ [] → done <+: names → ∀ contents,
      store.get (front ++ done) ≠ some (.file contents)) :
    ∃ made, LocalFileStore.makedirs store front names = some made ∧
      (∀ done, done ≠ [] → done <+: names → made.get (front ++ done) = some .directory) ∧
      ∀ parts, (∀ done, done ≠ [] → done <+: names → parts ≠ front ++ done) →
        made.get parts = store.get parts := by
  induction names generalizing store front with
  | nil =>
    refine ⟨store, rfl, fun done filled above => ?_, fun _ _ => rfl⟩
    exact absurd (prefix_nil.mp above) filled
  | cons name rest ih =>
    have first : [name] <+: name :: rest := ⟨rest, rfl⟩
    -- The directories below are created in a store that has the first one.
    have goOn : ∀ begun : LocalFileStore, begun.get (front ++ [name]) = some .directory →
        (∀ parts, parts ≠ front ++ [name] → begun.get parts = store.get parts) →
        LocalFileStore.makedirs store front (name :: rest) =
          LocalFileStore.makedirs begun (front ++ [name]) rest →
        ∃ made, LocalFileStore.makedirs store front (name :: rest) = some made ∧
          (∀ done, done ≠ [] → done <+: name :: rest → made.get (front ++ done) = some .directory) ∧
          ∀ parts, (∀ done, done ≠ [] → done <+: name :: rest → parts ≠ front ++ done) →
            made.get parts = store.get parts := by
      intro begun created others unfolds
      have longer : ∀ done, done ≠ [] → front ++ [name] ++ done ≠ front ++ [name] := by
        intro done filled same
        exact filled (append_right_eq_self.mp same)
      have below : ∀ done, done <+: rest → name :: done <+: name :: rest := fun done above =>
        (prefix_cons_inj name).mpr above
      obtain ⟨made, makes, directories, unchanged⟩ := ih begun (front ++ [name])
        fun done filled above contents => by
          rw [others _ (longer done filled), append_assoc]
          exact free _ (cons_ne_nil _ _) (below done above) contents
      have kept : made.get (front ++ [name]) = some .directory := by
        rw [unchanged _ fun done filled _ same => longer done filled same.symm, created]
      refine ⟨made, unfolds.trans makes, fun done filled above => ?_, fun parts apart => ?_⟩
      · obtain ⟨head, tail, rfl⟩ := exists_cons_of_ne_nil filled
        obtain ⟨rfl, tailAbove⟩ := cons_prefix_cons.mp above
        by_cases empty : tail = []
        · rw [empty]
          exact kept
        · have created := directories tail empty tailAbove
          rw [append_assoc] at created
          exact created
      · rw [unchanged parts fun done filled above same =>
          apart (name :: done) (cons_ne_nil _ _) (below done above)
            (by rw [same, append_assoc]; rfl)]
        exact others parts (apart [name] (cons_ne_nil _ _) first)
    cases found : store.get (front ++ [name]) with
    | some entry =>
      cases entry with
      | file contents => exact absurd found (free [name] (cons_ne_nil _ _) first contents)
      | directory =>
        exact goOn store found (fun _ _ => rfl) (by rw [LocalFileStore.makedirs, found])
    | none =>
      refine goOn (store.set (front ++ [name]) .directory) (by simp) (fun parts different => ?_)
        (by rw [LocalFileStore.makedirs, found])
      rw [get_set, if_neg different]

section Steps

variable {calls : List Call} {stores : InMemoryFileStore × LocalFileStore}

variable (writer : Writer) (path : Path) (slash : Bool) (done : List Name)

variable (above : done <+: path.parts.dropLast)
include above

theorem path_ne_above : path.parts ≠ done := by
  rintro rfl
  have long := above.length_le
  have filled := length_pos_iff.mpr path.filled
  rw [length_dropLast] at long
  omega

theorem above_path : done <+: path.parts ∧ done ≠ path.parts :=
  ⟨above.trans (List.dropLast_prefix _), (path_ne_above _ _ above).symm⟩

omit above

theorem tempPath_ne : LocalFileStore.tempPath writer path ≠ path.parts := by
  intro same
  rw [LocalFileStore.tempPath] at same
  nth_rewrite 3 [← dropLast_append_getLast path.filled] at same
  have last := append_cancel_left same
  have names := congrArg Name.text (cons.inj last).1
  rw [LocalFileStore.tempName] at names
  have empty := append_right_eq_self.mp names
  cases empty

include above in
theorem tempPath_ne_above : LocalFileStore.tempPath writer path ≠ done := by
  rintro rfl
  have long := above.length_le
  rw [LocalFileStore.tempPath, length_append] at long
  simp only [length_dropLast, length_cons, length_nil] at long
  omega

variable {contents : Text} (regular : Regular calls) (agree : Agree calls stores)

include regular agree in
/-- What a write on disk does: the directories above are there, the file is, and nothing else
changes. -/
theorem write_spec {writer : Writer} (path : Path) (called : Call.write path contents ∈ calls)
    (vacant : stores.2.get (LocalFileStore.tempPath writer path) = none) :
    ∃ after, LocalFileStore.write stores.2 writer path contents = (after, .done) ∧
      after.get path.parts = some (.file contents) ∧
      (∀ done, done ≠ [] → done <+: path.parts.dropLast → after.get done = some .directory) ∧
      ∀ parts, parts ≠ path.parts →
        (∀ done, done ≠ [] → done <+: path.parts.dropLast → parts ≠ done) →
        after.get parts = stores.2.get parts := by
  have used : UsedAsFile calls path.parts := .inl ⟨path, contents, called, rfl⟩
  obtain ⟨made, makes, directories, unchanged⟩ :=
    makedirs_spec stores.2 [] _ fun done filled above stored present => by
      refine regular.apart done (agree.files done stored present).1 (.inl ⟨path.parts, used, ?_⟩)
      exact above_path _ _ above
  have sameMade : ∀ parts, (∀ done, done ≠ [] → done <+: path.parts.dropLast → parts ≠ done) →
      made.get parts = stores.2.get parts := unchanged
  have noTemp : made.get (LocalFileStore.tempPath writer path) = none := by
    rw [sameMade _ fun done _ above => tempPath_ne_above _ _ _ above, vacant]
  have noDirectory : made.get path.parts ≠ some .directory := by
    rw [sameMade _ fun done _ above => path_ne_above _ _ above]
    exact fun directory => regular.apart path.parts used (agree.directories path.parts directory)
  have different := tempPath_ne writer path
  let after : LocalFileStore := ((made.set (LocalFileStore.tempPath writer path)
    (.file contents)).erase (LocalFileStore.tempPath writer path)).set path.parts (.file contents)
  have afterwards : ∀ parts, after.get parts =
      if parts = path.parts then some (.file contents) else made.get parts := by
    intro parts
    rw [get_set, get_erase, get_set]
    by_cases temporary : parts = LocalFileStore.tempPath writer path
    · rw [temporary, if_neg different, if_pos rfl, if_neg different, noTemp]
    · rw [if_neg temporary, if_neg temporary]
  have tempFree : made.get (LocalFileStore.tempPath writer path) ≠ some .directory := by
    rw [noTemp]
    simp
  have placeFree : (made.set (LocalFileStore.tempPath writer path) (.file contents)).get
      path.parts ≠ some .directory := by
    rw [get_set, if_neg different.symm]
    exact noDirectory
  refine ⟨after, ?_, ?_, ?_, ?_⟩
  · rw [LocalFileStore.write, makes]
    dsimp only
    rw [if_neg tempFree, if_neg placeFree]
  · rw [afterwards, if_pos rfl]
  · intro done filled above
    rw [afterwards, if_neg (path_ne_above _ _ above).symm]
    exact directories done filled above
  · intro parts other apart
    rw [afterwards, if_neg other, sameMade parts apart]

theorem textOf_path_inj {path other : Path} (same : textOf path.parts = textOf other.parts) :
    path.parts = other.parts :=
  textOf_inj path.filled other.filled same

include regular agree in
/-- A write keeps the stores the same. -/
theorem agree_write {writer : Writer} {path : Path} (called : Call.write path contents ∈ calls)
    (vacant : stores.2.get (LocalFileStore.tempPath writer path) = none) :
    Agree calls (step writer stores (.write path contents)) := by
  have used : UsedAsFile calls path.parts := .inl ⟨path, contents, called, rfl⟩
  obtain ⟨after, writes, file, directories, unchanged⟩ := write_spec regular agree _ called vacant
  have stepped : step writer stores (.write path contents) =
      (InMemoryFileStore.write stores.1 (textOf path.parts) contents, after) := by
    rw [step, LocalFileStore.step, writes]
    rfl
  rw [stepped]
  -- Where an entry is afterwards: the file, a directory above it, or what was there.
  have cases_of : ∀ parts, parts = path.parts ∨
      (parts ≠ [] ∧ parts <+: path.parts.dropLast ∧ after.get parts = some .directory) ∨
      (parts ≠ path.parts ∧ after.get parts = stores.2.get parts) := by
    intro parts
    by_cases here : parts = path.parts
    · exact .inl here
    by_cases above : parts ≠ [] ∧ parts <+: path.parts.dropLast
    · exact .inr (.inl ⟨above.1, above.2, directories parts above.1 above.2⟩)
    · refine .inr (.inr ⟨here, unchanged parts here fun done filled under same => ?_⟩)
      exact above (same ▸ ⟨filled, under⟩)
  have usedAbove : ∀ parts, parts <+: path.parts.dropLast → UsedAsDirectory calls parts :=
    fun parts above => .inl ⟨path.parts, used, above_path _ _ above⟩
  constructor
  · intro other
    change (set stores.1 (textOf path.parts) contents).get _ = _
    rw [get_set]
    rcases cases_of other.parts with here | ⟨filled, above, directory⟩ | ⟨elsewhere, kept⟩
    · rw [here, if_pos rfl, contentsAt, file]
    · have notHere : other.parts ≠ path.parts := (above_path _ _ above).2
      rw [if_neg fun same => notHere (textOf_path_inj same), agree.same other, contentsAt,
        contentsAt, directory]
      split
      · rename_i stored present
        exact (regular.apart _ (agree.files _ stored present).1 (usedAbove _ above)).elim
      · rfl
    · rw [if_neg fun same => elsewhere (textOf_path_inj same), agree.same other, contentsAt,
        contentsAt, kept]
  · intro key listed
    rw [InMemoryFileStore.write, mem_keys_iff] at listed
    obtain ⟨value, found⟩ := listed
    rw [get_set] at found
    by_cases same : key = textOf path.parts
    · exact ⟨path, same.symm⟩
    · rw [if_neg same] at found
      exact agree.spelt key ((mem_keys_iff _ key).mpr ⟨value, found⟩)
  · rw [unchanged [] path.filled.symm fun done filled _ same => filled same.symm]
    exact agree.root
  · intro parts entry present front filled above proper
    have aboveOrSame : ∀ directory : List Name, directory <+: path.parts → directory ≠ path.parts →
        directory <+: path.parts.dropLast := by
      intro directory under notSame
      obtain ⟨rest, split⟩ := under
      have restFilled : rest ≠ [] := by
        rintro rfl
        rw [append_nil] at split
        exact notSame split
      rw [← split, dropLast_append_of_ne_nil restFilled]
      exact prefix_append _ _
    rcases cases_of parts with rfl | ⟨_, under, directory⟩ | ⟨elsewhere, kept⟩
    · exact directories front filled (aboveOrSame front above proper)
    · exact directories front filled (above.trans under)
    · rw [kept] at present
      have before := agree.inside parts entry present front filled above proper
      rcases cases_of front with rfl | ⟨_, _, directory⟩ | ⟨_, keptFront⟩
      · exact (regular.apart _ used (agree.directories _ before)).elim
      · exact directory
      · rw [keptFront, before]
  · intro parts stored present
    rcases cases_of parts with rfl | ⟨_, _, directory⟩ | ⟨_, kept⟩
    · rw [file] at present
      obtain rfl : contents = stored := by simpa using present
      exact ⟨used, regular.plain path contents called⟩
    · rw [directory] at present
      cases present
    · exact agree.files parts stored (kept ▸ present)
  · intro parts present
    rcases cases_of parts with rfl | ⟨_, above, _⟩ | ⟨_, kept⟩
    · rw [file] at present
      cases present
    · exact usedAbove parts above
    · exact agree.directories parts (kept ▸ present)

/-! ## Deleting -/

/-- Looking up a key after only some keys were kept. -/
theorem get_filter {κ ν : Type} [DecidableEq κ] {dict : OrderedDict κ ν} (keep : κ → Bool)
    (distinct : ((dict.entries.filter fun entry => keep entry.1).map Prod.fst).Nodup) (key : κ) :
    (OrderedDict.mk (dict.entries.filter fun entry => keep entry.1) distinct).get key =
      if keep key then dict.get key else none := by
  ext value
  rw [get_eq_some_iff, mem_filter, ← get_eq_some_iff]
  by_cases kept : keep key
  · simp [kept]
  · simp [kept]

theorem get_memory_delete (store : InMemoryFileStore) (path key : Text) :
    (InMemoryFileStore.delete store path).get key =
      if path.isPrefixOf key then none else store.get key := by
  rw [InMemoryFileStore.delete, get_filter (fun key => !path.isPrefixOf key)]
  cases path.isPrefixOf key <;> rfl

include agree in
/-- What is left on disk: what was deleted is gone, and nothing else. -/
theorem get_local_delete (path : Path) (slash : Bool) (parts : List Name) :
    (LocalFileStore.delete stores.2 path slash).get parts =
      if path.parts <+: parts ∧ (slash = false ∨ parts ≠ path.parts ∨
        stores.2.get path.parts = some .directory) then none
      else stores.2.get parts := by
  -- Below what is not a directory there is nothing.
  have below : stores.2.get path.parts ≠ some .directory → path.parts <+: parts →
      parts ≠ path.parts → stores.2.get parts = none := by
    intro notDirectory above different
    cases found : stores.2.get parts with
    | none => rfl
    | some entry =>
      exact absurd (agree.inside parts entry found path.parts path.filled above different.symm)
        notDirectory
  rw [LocalFileStore.delete]
  cases found : stores.2.get path.parts with
  | none =>
    dsimp only
    split
    · rename_i gone
      by_cases same : parts = path.parts
      · rw [same, found]
      · exact below (by rw [found]; simp) gone.1 same
    · rfl
  | some entry =>
    cases entry with
    | directory =>
      rw [get_filter (fun key => !path.parts.isPrefixOf key)]
      by_cases above : path.parts <+: parts
      · rw [if_neg (by simpa using above), if_pos ⟨above, .inr (.inr rfl)⟩]
      have kept : (!path.parts.isPrefixOf parts) = true := by
        rw [Bool.not_eq_true', ← Bool.not_eq_true, isPrefixOf_iff_prefix]
        exact above
      rw [if_pos kept, if_neg fun gone => above gone.1]
    | file contents =>
      have nothing := below (by rw [found]; simp)
      cases slash with
      | true =>
        dsimp only
        rw [if_pos rfl]
        split
        · rename_i gone
          have different : parts ≠ path.parts :=
            (gone.2.resolve_left (by simp)).resolve_right (by simp)
          exact nothing gone.1 different
        · rfl
      | false =>
        rw [if_neg Bool.false_ne_true, get_erase]
        by_cases same : parts = path.parts
        · rw [if_pos same, if_pos ⟨same ▸ prefix_refl _, .inl rfl⟩]
        rw [if_neg same]
        split
        · rename_i gone
          exact nothing gone.1 same
        · rfl

/-- The text that is deleted begins the path of a file just when the file is deleted on disk. -/
theorem spelled_isPrefix_iff (file : Path) (slash : Bool)
    (apart : spelled path slash <+: textOf file.parts → path.parts <+: file.parts) :
    spelled path slash <+: textOf file.parts ↔
      path.parts <+: file.parts ∧ (slash = false ∨ file.parts ≠ path.parts) := by
  cases slash with
  | true =>
    change textOf path.parts ++ ['/'] <+: _ ↔ _
    rw [closed_isPrefix_iff _ _ path.filled file.filled]
    constructor
    · rintro ⟨rest, filled, below⟩
      refine ⟨⟨rest, below.symm⟩, .inr fun same => filled ?_⟩
      exact append_right_eq_self.mp (below.symm.trans same)
    · rintro ⟨⟨rest, below⟩, different⟩
      refine ⟨rest, fun empty => ?_, below.symm⟩
      rw [empty, append_nil] at below
      exact different.resolve_left (by simp) below.symm
  | false =>
    constructor
    · exact fun begins => ⟨apart begins, .inl rfl⟩
    · rintro ⟨⟨rest, below⟩, -⟩
      rw [← below]
      exact textOf_isPrefix _ _ path.filled

include agree in
/-- A deletion keeps the stores the same. -/
theorem agree_delete (writer : Writer) (path : Path) (slash : Bool)
    (apart : Apart stores.2 path slash) :
    Agree calls (step writer stores (.delete path slash)) := by
  have after : ∀ parts entry, (LocalFileStore.delete stores.2 path slash).get parts = some entry →
        stores.2.get parts = some entry := by
    intro parts entry present
    rw [get_local_delete agree] at present
    split at present
    · cases present
    · exact present
  constructor
  · intro file
    change (InMemoryFileStore.delete stores.1 (spelled path slash)).get _ =
      contentsAt (LocalFileStore.delete stores.2 path slash) file.parts
    rw [get_memory_delete, contentsAt, get_local_delete agree, agree.same file]
    by_cases nothing : contentsAt stores.2 file.parts = none
    · rw [nothing, ite_self]
      split
      · rename_i contents present
        split at present
        · cases present
        · rw [(contentsAt_eq_some _ _ _).mpr present] at nothing
          exact nothing.symm
      · rfl
    · obtain ⟨contents, found⟩ := (contentsAt_ne_none _ _).mp nothing
      have deleted := spelled_isPrefix_iff _ _ _ (apart file nothing)
      rw [← isPrefixOf_iff_prefix] at deleted
      have same : (path.parts <+: file.parts ∧ (slash = false ∨ file.parts ≠ path.parts ∨
          stores.2.get path.parts = some .directory)) ↔
            (path.parts <+: file.parts ∧ (slash = false ∨ file.parts ≠ path.parts)) := by
        constructor
        · rintro ⟨above, rfl | different | directory⟩
          · exact ⟨above, .inl rfl⟩
          · exact ⟨above, .inr different⟩
          · refine ⟨above, .inr fun equal => ?_⟩
            rw [← equal, found] at directory
            cases directory
        · rintro ⟨above, kept⟩
          exact ⟨above, kept.imp_right .inl⟩
      simp only [same, ← deleted]
      by_cases gone : (spelled path slash).isPrefixOf (textOf file.parts) = true
      · simp [gone]
      · simp [gone, contentsAt]
  · intro key listed
    obtain ⟨value, found⟩ := (mem_keys_iff _ key).mp listed
    change (InMemoryFileStore.delete stores.1 (spelled path slash)).get key = _ at found
    rw [get_memory_delete] at found
    split at found
    · cases found
    · exact agree.spelt key ((mem_keys_iff _ key).mpr ⟨value, found⟩)
  · cases root : (LocalFileStore.delete stores.2 path slash).get [] with
    | none => exact root
    | some entry =>
      have before := after [] entry root
      rw [agree.root] at before
      cases before
  · intro parts entry present front filled above proper
    have before := agree.inside parts entry (after parts entry present) front filled above proper
    change (LocalFileStore.delete stores.2 path slash).get front = _
    change (LocalFileStore.delete stores.2 path slash).get parts = _ at present
    rw [get_local_delete agree] at present ⊢
    split at present
    · cases present
    rename_i kept
    rw [if_neg, before]
    rintro ⟨under, which⟩
    refine kept ⟨under.trans above, ?_⟩
    rcases which with open_ | different | directory
    · exact .inl open_
    · refine .inr (.inl fun same => ?_)
      exact proper (above.eq_of_length_le (same ▸ under.length_le))
    · exact .inr (.inr directory)
  · exact fun parts contents present => agree.files parts contents (after parts _ present)
  · exact fun parts present => agree.directories parts (after parts _ present)

/-! ## Reading -/

theorem universalNewlines_plain {text : Text} (plain : '\r' ∉ text) :
    LocalFileStore.universalNewlines text = text := by
  induction text with
  | nil => rfl
  | cons char rest ih =>
    obtain ⟨notReturn, plainRest⟩ := not_or.mp (mem_cons.not.mp plain)
    rw [LocalFileStore.universalNewlines, if_neg (Ne.symm notReturn), ih plainRest]
    rintro tail rfl
    exact absurd rfl notReturn

include regular agree

/-- Nothing is in the way of a file that is read. -/
theorem missing_of_used (path : Path) (used : UsedAsFile calls path.parts)
    (vacant : stores.2.get path.parts = none) :
    LocalFileStore.missing stores.2 path.parts = .fileNotFound := by
  rw [LocalFileStore.missing, if_neg]
  intro blocked
  obtain ⟨front, listed, isFile⟩ := any_eq_true.mp blocked
  have above := (mem_inits front path.parts).mp listed
  split at isFile
  · rename_i contents present
    refine regular.apart front (agree.files front contents present).1
      (.inl ⟨path.parts, used, above, ?_⟩)
    rintro rfl
    rw [vacant] at present
    cases present
  · cases isFile

theorem answers_read (writer : Writer) (path : Path) (called : Call.read path ∈ calls) :
    Answers writer stores (.read path) := by
  have used : UsedAsFile calls path.parts := .inr ⟨path, called, rfl⟩
  change SameOutcome (InMemoryFileStore.read stores.1 (textOf path.parts))
    (LocalFileStore.read stores.2 path)
  rw [InMemoryFileStore.read, agree.same path, contentsAt, LocalFileStore.read]
  cases found : stores.2.get path.parts with
  | none =>
    rw [missing_of_used regular agree _ used found]
    exact trivial
  | some entry =>
    cases entry with
    | file contents => exact (universalNewlines_plain (agree.files _ _ found).2).symm
    | directory => exact (regular.apart _ used (agree.directories _ found)).elim

/-! ## Listing -/

omit regular agree

/-- What a file below a directory shows of it: its own path, or that of the directory it is in. -/
def shown (parts : List Name) (name : Name) (rest : List Name) : Text :=
  if rest = [] then textOf (parts ++ [name]) else textOf (parts ++ [name]) ++ ['/']

theorem listOne_below (files : List Text) (name : Name) (rest : List Name) :
    InMemoryFileStore.listOne (spelled path slash) files (textOf (path.parts ++ name :: rest)) =
      if rest ≠ [] ∧ shown path.parts name rest ∈ files then some files
      else some (files ++ [shown path.parts name rest]) := by
  have begins : textOf (path.parts ++ name :: rest) =
      textOf path.parts ++ '/' :: textOf (name :: rest) :=
    textOf_append path.parts _ path.filled (cons_ne_nil _ _)
  have names := splitOn_textOf (name :: rest) (cons_ne_nil _ _)
  have under : (spelled path slash).isPrefixOf (textOf (path.parts ++ name :: rest)) = true := by
    rw [List.isPrefixOf_iff_prefix, begins, spelled]
    split
    · exact ⟨textOf (name :: rest), by simp⟩
    · exact prefix_append _ _
  -- The names below the path, whether it ends in a slash or not.
  have parts : (let parts := ((textOf (path.parts ++ name :: rest)).drop
      (spelled path slash).length).splitOn '/'
      if parts.head? = some [] then parts.tail else parts) = (name :: rest).map Name.text := by
    rw [begins, spelled]
    cases slash with
    | true =>
      have split : textOf path.parts ++ '/' :: textOf (name :: rest) =
          (textOf path.parts ++ ['/']) ++ textOf (name :: rest) := by simp
      rw [if_pos rfl, split, drop_left, names]
      rw [if_neg]
      exact fun empty => name.filled (some.inj empty)
    | false =>
      rw [if_neg Bool.false_ne_true, drop_left]
      have split : ('/' :: textOf (name :: rest)).splitOn '/' =
          [] :: (name :: rest).map Name.text := by
        rw [← names]
        exact splitOn_append_cons_self_of_not_mem not_mem_nil _
      rw [split]
      rfl
  rw [InMemoryFileStore.listOne, if_pos under]
  dsimp only at parts ⊢
  rw [parts]
  cases rest with
  | nil => simp [shown]
  | cons second others =>
    have joined : closed (FileStores.joinTexts (spelled path slash) name.text) =
        shown path.parts name (second :: others) := by
      obtain ⟨char, last, notSlash⟩ := textOf_getLast (path.parts ++ [name]) (by simp)
      rw [joinTexts_spelled, closed, if_neg (by rw [last]; simpa using notSlash), shown,
        if_neg (cons_ne_nil _ _)]
    simp only [map_cons, joined]
    by_cases there : shown path.parts name (second :: others) ∈ files
    · rw [if_pos there, if_pos ⟨cons_ne_nil _ _, there⟩]
    · rw [if_neg there, if_neg fun both => there both.2]

theorem shown_file_inj {parts others : List Name} {name other : Name} {rest : List Name}
    (same : textOf (parts ++ [name]) = shown others other rest) :
    rest = [] ∧ parts ++ [name] = others ++ [other] := by
  rw [shown] at same
  split at same
  · rename_i empty
    exact ⟨empty, textOf_inj (by simp) (by simp) same⟩
  · exact (closed_ne_textOf _ _ (by simp) same).elim

/-- What is listed in memory: what each file below the path shows, once. -/
theorem list_keys (keys : List Text) (distinct : keys.Nodup)
    (apart : ∀ key ∈ keys, spelled path slash <+: key →
      ∃ name rest, key = textOf (path.parts ++ name :: rest)) :
    ∃ files, keys.foldlM (InMemoryFileStore.listOne (spelled path slash)) [] = some files ∧
      files.Nodup ∧ ∀ text, text ∈ files ↔ ∃ name rest, textOf (path.parts ++ name :: rest) ∈ keys ∧
          text = shown path.parts name rest := by
  induction keys using reverseRecOn with
  | nil => exact ⟨[], rfl, nodup_nil, by simp⟩
  | append_singleton keys key ih =>
    obtain ⟨distinctKeys, -, different⟩ := nodup_append.mp distinct
    have notBefore : key ∉ keys := fun listed => different key listed key (by simp) rfl
    obtain ⟨files, folds, nodup, members⟩ := ih distinctKeys
      fun other listed => apart other (mem_append_left _ listed)
    rw [foldlM_append, folds]
    change ∃ after, ([key].foldlM (InMemoryFileStore.listOne (spelled path slash)) files) = _ ∧ _
    rw [foldlM_cons]
    by_cases begins : spelled path slash <+: key
    · obtain ⟨name, rest, rfl⟩ := apart key (by simp) begins
      rw [listOne_below]
      by_cases again : rest ≠ [] ∧ shown path.parts name rest ∈ files
      · rw [if_pos again]
        refine ⟨files, rfl, nodup, fun text => ?_⟩
        rw [members]
        constructor
        · rintro ⟨other, others, listed, same⟩
          exact ⟨other, others, mem_append_left _ listed, same⟩
        · rintro ⟨other, others, listed, rfl⟩
          rcases mem_append.mp listed with before | last
          · exact ⟨other, others, before, rfl⟩
          have same := append_cancel_left (textOf_inj (by simp) (by simp)
            (mem_singleton.mp last))
          cases same
          exact (members _).mp again.2
      · rw [if_neg again]
        refine ⟨files ++ [shown path.parts name rest], rfl, ?_, fun text => ?_⟩
        · refine nodup_append.mpr ⟨nodup, nodup_singleton _, ?_⟩
          rintro text listed other single rfl
          rw [mem_singleton.mp single] at listed
          refine again ⟨fun empty => notBefore ?_, listed⟩
          obtain ⟨other, others, before, same⟩ := (members _).mp listed
          rw [shown, if_pos empty] at same
          obtain ⟨rfl, equal⟩ := shown_file_inj same
          rw [empty, equal]
          exact before
        · rw [mem_append, members, mem_singleton]
          constructor
          · rintro (⟨other, others, listed, same⟩ | rfl)
            · exact ⟨other, others, mem_append_left _ listed, same⟩
            · exact ⟨name, rest, mem_append_right _ (.head _), rfl⟩
          · rintro ⟨other, others, listed, rfl⟩
            rcases mem_append.mp listed with before | last
            · exact .inl ⟨other, others, before, rfl⟩
            have same := append_cancel_left (textOf_inj (by simp) (by simp)
              (mem_singleton.mp last))
            cases same
            exact .inr rfl
    · have skipped : InMemoryFileStore.listOne (spelled path slash) files key = some files := by
        rw [InMemoryFileStore.listOne, if_neg fun starts =>
          begins (List.isPrefixOf_iff_prefix.mp starts)]
      rw [skipped]
      refine ⟨files, rfl, nodup, fun text => ?_⟩
      rw [members]
      constructor
      · rintro ⟨name, rest, listed, same⟩
        exact ⟨name, rest, mem_append_left _ listed, same⟩
      · rintro ⟨name, rest, listed, same⟩
        rcases mem_append.mp listed with before | last
        · exact ⟨name, rest, before, same⟩
        refine (begins ?_).elim
        rw [← mem_singleton.mp last, textOf_append _ _ path.filled (cons_ne_nil _ _),
          spelled]
        split
        · exact ⟨textOf (name :: rest), by simp⟩
        · exact prefix_append _ _

/-- The slash after a directory. -/
def mark : Entry → Text
  | .file _ => []
  | .directory => ['/']

theorem marked_inj {parts : List Name} {name other : Name} {one two : Entry}
    (same : textOf (parts ++ [name]) ++ mark one = textOf (parts ++ [other]) ++ mark two) :
    name = other := by
  have equal : textOf (parts ++ [name]) = textOf (parts ++ [other]) := by
    cases one with
    | file _ =>
      cases two with
      | file _ => simpa [mark] using same
      | directory =>
        exact (closed_ne_textOf (parts ++ [name]) (parts ++ [other]) (by simp)
          (by simpa [mark] using same)).elim
    | directory =>
      cases two with
      | file _ =>
        exact (closed_ne_textOf (parts ++ [other]) (parts ++ [name]) (by simp)
          (by simpa [mark] using same.symm)).elim
      | directory => exact append_cancel_right same
  have names := append_cancel_left (textOf_inj (by simp) (by simp) equal)
  exact (cons.inj names).1

theorem listed_item (item : List Name × Entry) (text : Text) : (match item.1.getLast? with
      | none => none
      | some name => if item.1.dropLast = path.parts then
            some (LocalFileStore.listed (spelled path slash) name item.2)
          else none) = some text ↔
      ∃ name, item.1 = path.parts ++ [name] ∧
        text = textOf (path.parts ++ [name]) ++ mark item.2 := by
  obtain ⟨parts, entry⟩ := item
  have shows : ∀ name, LocalFileStore.listed (spelled path slash) name entry =
      textOf (path.parts ++ [name]) ++ mark entry := by
    intro name
    cases entry <;> simp [LocalFileStore.listed, joinTexts_spelled, mark]
  rcases eq_nil_or_concat parts with rfl | ⟨front, last, rfl⟩
  · simp
  rw [concat_eq_append]
  simp only [getLast?_concat, dropLast_concat, shows]
  constructor
  · intro found
    split at found
    · rename_i same
      exact ⟨last, by rw [same], (some.inj found).symm⟩
    · cases found
  · rintro ⟨name, same, rfl⟩
    obtain ⟨rfl, names⟩ := append_inj' same rfl
    obtain rfl := (cons.inj names).1
    exact if_pos rfl

/-- What is listed on disk: each entry of the directory, once. -/
theorem list_entries (store : LocalFileStore) (path : Path) (slash : Bool)
    (directory : store.get path.parts = some .directory) :
    ∃ files, LocalFileStore.list store path slash = .files files ∧ files.Nodup ∧
      ∀ text, text ∈ files ↔ ∃ name entry, store.get (path.parts ++ [name]) = some entry ∧
        text = textOf (path.parts ++ [name]) ++ mark entry := by
  refine ⟨_, by rw [LocalFileStore.list, directory], ?_, fun text => ?_⟩
  · refine pairwise_filterMap.mpr ?_
    refine (pairwise_map.mp store.distinct).imp fun {one two} different text found other later => ?_
    obtain ⟨name, at_, rfl⟩ := (listed_item ..).mp found
    obtain ⟨second, there, rfl⟩ := (listed_item ..).mp later
    intro same
    exact different (at_.trans ((marked_inj same) ▸ there.symm))
  · rw [mem_filterMap]
    constructor
    · rintro ⟨⟨parts, entry⟩, stored, found⟩
      obtain ⟨name, rfl, rfl⟩ := (listed_item ..).mp found
      exact ⟨name, entry, (store.get_eq_some_iff _ _).mpr stored, rfl⟩
    · rintro ⟨name, entry, present, rfl⟩
      exact ⟨(path.parts ++ [name], entry), (store.get_eq_some_iff _ _).mp present,
        (listed_item ..).mpr ⟨name, rfl, rfl⟩⟩

include agree

theorem answers_list {writer : Writer} (path : Path) {slash : Bool}
    (guarded : Guarded writer stores (.list path slash)) :
    Answers writer stores (.list path slash) := by
  obtain ⟨directory, apart, occupied⟩ := guarded
  obtain ⟨onDisk, lists, diskOnce, diskMembers⟩ := list_entries stores.2 path slash directory
  -- A key that the path begins is that of a file below the directory.
  have below : ∀ key ∈ stores.1.keys, spelled path slash <+: key →
      ∃ name rest, key = textOf (path.parts ++ name :: rest) := by
    intro key listed begins
    obtain ⟨file, rfl⟩ := agree.spelt key listed
    obtain ⟨value, found⟩ := (mem_keys_iff _ _).mp listed
    rw [agree.same file] at found
    obtain ⟨rest, split⟩ := apart file (by rw [found]; simp) begins
    cases rest with
    | nil =>
      rw [append_nil] at split
      rw [← split, contentsAt, directory] at found
      cases found
    | cons name rest => exact ⟨name, rest, by rw [split]⟩
  obtain ⟨inMemory, folds, memoryOnce, memoryMembers⟩ :=
    list_keys path slash stores.1.keys stores.1.distinct below
  have keyOf : ∀ name rest, textOf (path.parts ++ name :: rest) ∈ stores.1.keys ↔
      ∃ contents, stores.2.get (path.parts ++ name :: rest) = some (.file contents) := by
    intro name rest
    have same := agree.same ⟨path.parts ++ name :: rest, by simp⟩
    rw [mem_keys_iff, same]
    exact exists_congr fun contents => contentsAt_eq_some _ _ _
  change SameOutcome (InMemoryFileStore.list stores.1 (spelled path slash))
    (LocalFileStore.list stores.2 path slash)
  rw [InMemoryFileStore.list, folds, lists]
  refine (perm_ext_iff_of_nodup memoryOnce diskOnce).mpr fun text => ?_
  rw [memoryMembers, diskMembers]
  constructor
  · rintro ⟨name, rest, listed, rfl⟩
    obtain ⟨contents, present⟩ := (keyOf name rest).mp listed
    by_cases empty : rest = []
    · rw [empty] at present ⊢
      exact ⟨name, .file contents, present, by simp [shown, mark]⟩
    · refine ⟨name, .directory, ?_, by simp [shown, mark, empty]⟩
      refine agree.inside _ _ present _ (by simp) ⟨rest, by simp⟩ fun same => empty ?_
      simpa using same
  · rintro ⟨name, entry, present, rfl⟩
    cases entry with
    | file contents =>
      exact ⟨name, [], (keyOf name []).mpr ⟨contents, present⟩, by simp [shown, mark]⟩
    | directory =>
      obtain ⟨rest, filled, occupiedBy⟩ := occupied name present
      exact ⟨name, rest, (keyOf name rest).mpr ((contentsAt_ne_none _ _).mp occupiedBy),
        by simp [shown, mark, filled]⟩

/-! ## Steps and runs -/

include regular

/-- A guarded call keeps the stores the same. -/
theorem agree_step (writer : Writer) (call : Call) (called : call ∈ calls)
    (guarded : Guarded writer stores call) : Agree calls (step writer stores call) := by
  cases call with
  | write path contents => exact agree_write regular agree called guarded
  | read path => exact agree
  | list path slash => exact agree
  | delete path slash => exact agree_delete agree _ _ _ guarded

/-- Stores that are the same answer a guarded call in the same way. -/
theorem answers_step (writer : Writer) (call : Call) (called : call ∈ calls)
    (guarded : Guarded writer stores call) : Answers writer stores call := by
  cases call with
  | write path contents =>
    obtain ⟨after, writes, -⟩ := write_spec regular agree _ called guarded
    change SameOutcome .done (LocalFileStore.write stores.2 writer path contents).2
    rw [writes]
    exact trivial
  | read path => exact answers_read regular agree _ _ called
  | list path slash => exact answers_list agree _ guarded
  | delete path slash => exact trivial

end Steps

theorem agree_initial (calls : List Call) : Agree calls initial where
  same _ := rfl
  spelt _ listed := by cases listed
  root := rfl
  inside _ _ present := by cases present
  files _ _ present := by cases present
  directories _ present := by cases present

/-- A text without slashes as a name. -/
def nameOf (text : Text) (filled : text ≠ []) (solid : '/' ∉ text)
    (proper : text ≠ ['.'] ∧ text ≠ ['.', '.']) : Name := ⟨text, filled, solid, proper⟩

def a : Name := nameOf ['a'] (by decide) (by decide) (by decide)

def ab : Name := nameOf ['a', 'b'] (by decide) (by decide) (by decide)

def writer : Writer := ⟨1, 1⟩

/-- A file is written in a directory, which is listed and deleted. -/
def listing : List Call :=
  [.write ⟨[a, ab], by simp⟩ ['x'], .list ⟨[a], by simp⟩ true, .delete ⟨[a], by simp⟩ true,
    .read ⟨[a, ab], by simp⟩]

/-- With a slash at its end, a path begins nothing else. -/
theorem apart_of_slash (path : Path) : Apart store path true := by
  intro file _ begins
  obtain ⟨rest, -, below⟩ := (closed_isPrefix_iff _ _ path.filled file.filled).mp begins
  exact ⟨rest, below.symm⟩

theorem listing_regular : Regular listing where
  apart := by
    have files : ∀ parts, UsedAsFile listing parts → parts = [a, ab] := by
      rintro parts (⟨path, contents, called, rfl⟩ | ⟨path, called, rfl⟩)
      · simp only [listing, mem_cons, Call.write.injEq, reduceCtorEq, not_mem_nil,
          or_false] at called
        rw [called.1]
      · simp only [listing, mem_cons, Call.read.injEq, reduceCtorEq, not_mem_nil,
          or_false, false_or] at called
        rw [called]
    rintro parts used (⟨file, usedFile, -, different⟩ | ⟨path, slash, called, above⟩)
    · exact different ((files parts used).trans (files file usedFile).symm)
    · simp only [listing, mem_cons, Call.list.injEq, reduceCtorEq, not_mem_nil,
        or_false, false_or] at called
      rw [called.1, files parts used] at above
      exact absurd above.length_le (by decide)
  plain := by
    intro path contents called
    simp only [listing, mem_cons, Call.write.injEq, reduceCtorEq, not_mem_nil,
      or_false] at called
    rw [called.2]
    decide

/-- Two files next to each other, and one of them is deleted. -/
def deleted : List Call :=
  [.write ⟨[a], by simp⟩ ['x'], .write ⟨[ab], by simp⟩ ['y'], .delete ⟨[a], by simp⟩ false,
    .read ⟨[ab], by simp⟩]

theorem deleted_regular : Regular deleted where
  apart := by
    have files : ∀ parts, UsedAsFile deleted parts → parts.length = 1 := by
      rintro parts (⟨path, contents, called, rfl⟩ | ⟨path, called, rfl⟩)
      · simp only [deleted, mem_cons, Call.write.injEq, reduceCtorEq, not_mem_nil,
          or_false] at called
        rcases called with ⟨same, -⟩ | ⟨same, -⟩ <;> rw [same] <;> rfl
      · simp only [deleted, mem_cons, Call.read.injEq, reduceCtorEq, not_mem_nil,
          or_false, false_or] at called
        rw [called]
        rfl
    rintro parts used (⟨file, usedFile, above, different⟩ | ⟨path, slash, called, -⟩)
    · exact different (above.eq_of_length ((files parts used).trans (files file usedFile).symm))
    · simp [deleted] at called
  plain := by
    intro path contents called
    simp only [deleted, mem_cons, Call.write.injEq, reduceCtorEq, not_mem_nil,
      or_false] at called
    rcases called with ⟨-, same⟩ | ⟨-, same⟩ <;> rw [same] <;> decide

end ForgePilot.StoreAgreement
