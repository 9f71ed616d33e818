import Mathlib.Data.List.Nodup

/-!
# Insertion-ordered dictionaries

A dictionary is a list of entries whose keys are distinct. Assigning to a
present key replaces the value and keeps the entry's position; assigning to an
absent key appends. Deleting a key keeps the order of the other entries. The
distinctness of keys is a field of the structure, so no operation can produce a
dictionary in which two entries compete for one key.
-/

namespace ForgePilot

open List

universe u v w
variable {κ : Type u} {ν : Type v}

/-- Entries in order of first insertion, one for each key. -/
structure OrderedDict (κ : Type u) (ν : Type v) where
  entries : List (κ × ν)
  distinct : (entries.map Prod.fst).Nodup

namespace OrderedDict

/-- The dictionary without entries. -/
def empty : OrderedDict κ ν := ⟨[], List.nodup_nil⟩

/-- Keys in iteration order. -/
def keys (dict : OrderedDict κ ν) : List κ := dict.entries.map Prod.fst

/-- Values in iteration order. -/
def values (dict : OrderedDict κ ν) : List ν := dict.entries.map Prod.snd

variable [DecidableEq κ]

/-- The value of the first entry with this key. -/
def find (key : κ) : List (κ × ν) → Option ν
  | [] => none
  | (other, value) :: rest => if key = other then some value else find key rest

/-- The value stored for a key, when there is one. -/
def get (dict : OrderedDict κ ν) (key : κ) : Option ν := find key dict.entries

/-- Replace the value of the first entry with this key, or append an entry. -/
def put (key : κ) (value : ν) : List (κ × ν) → List (κ × ν)
  | [] => [(key, value)]
  | (other, previous) :: rest =>
      if key = other then (key, value) :: rest else (other, previous) :: put key value rest

variable (dict : OrderedDict κ ν) (key other : κ) (value : ν) (entries : List (κ × ν))

/-- Assignment leaves a present key where it was and appends an absent one. -/
theorem put_keys : (put key value entries).map Prod.fst =
      if key ∈ entries.map Prod.fst then entries.map Prod.fst
      else entries.map Prod.fst ++ [key] := by
  induction entries with
  | nil => simp [put]
  | cons entry rest ih =>
    obtain ⟨other, previous⟩ := entry
    by_cases same : key = other
    · simp [put, same]
    · simp only [put, same, if_false, map_cons, ih, mem_cons, false_or]
      split <;> simp

/-- After an assignment there are the keys from before and the one that is assigned. -/
theorem mem_put_keys (other : κ) :
    other ∈ (put key value entries).map Prod.fst ↔ other = key ∨ other ∈ entries.map Prod.fst := by
  rw [put_keys]
  by_cases present : key ∈ entries.map Prod.fst
  · rw [if_pos present]
    refine ⟨.inr, fun either => either.elim (fun same => same ▸ present) id⟩
  · rw [if_neg present, mem_append, mem_singleton, or_comm]

/-- An entry after an assignment is the assigned one or one from before. -/
theorem mem_put {key : κ} {value : ν} {entries : List (κ × ν)} {entry : κ × ν}
    (member : entry ∈ put key value entries) : entry = (key, value) ∨ entry ∈ entries := by
  induction entries with
  | nil => exact .inl (mem_singleton.mp member)
  | cons first rest ih =>
    obtain ⟨other, previous⟩ := first
    rw [put] at member
    split at member
    · exact (mem_cons.mp member).imp_right (.tail _)
    · cases mem_cons.mp member with
      | inl same => exact .inr (same ▸ (.head _))
      | inr behind => exact (ih behind).imp_right (.tail _)

theorem put_distinct (distinct : (entries.map Prod.fst).Nodup) :
    ((put key value entries).map Prod.fst).Nodup := by
  rw [put_keys]
  split
  · exact distinct
  rename_i absent
  exact nodup_append.mpr ⟨distinct, nodup_singleton key, by
    intro other member single present
    simp only [mem_singleton] at present
    exact fun same => absent (present ▸ same ▸ member)⟩

def set (dict : OrderedDict κ ν) (key : κ) (value : ν) : OrderedDict κ ν :=
  ⟨put key value dict.entries, put_distinct key _ _ dict.distinct⟩

/-- Delete a key; deleting an absent key changes nothing. -/
def erase (dict : OrderedDict κ ν) (key : κ) : OrderedDict κ ν :=
  ⟨dict.entries.filter (fun entry => entry.1 ≠ key),
    dict.distinct.sublist (List.filter_sublist.map Prod.fst)⟩

@[simp] theorem get_empty : (empty : OrderedDict κ ν).get key = none := rfl

/-- Looking up a key after an assignment on the raw entries. -/
theorem find_put : find other (put key value entries) =
      if other = key then some value else find other entries := by
  induction entries with
  | nil => simp [put, find]
  | cons entry rest ih =>
    obtain ⟨head, previous⟩ := entry
    by_cases same : key = head
    · subst head
      by_cases asked : other = key <;> simp [put, find, asked]
    simp only [put, same, if_false, find, ih]
    by_cases asked : other = head
    · subst head
      simp [Ne.symm same]
    · simp [asked]

/-- An assignment is observable at its own key only. -/
@[simp] theorem get_set :
    (dict.set key value).get other = if other = key then some value else dict.get other :=
  find_put ..

/-- Looking up a key after filtering another one out of the raw entries. -/
theorem find_filter_ne : find other (entries.filter (fun entry => entry.1 ≠ key)) =
      if other = key then none else find other entries := by
  induction entries with
  | nil => simp [find]
  | cons entry rest ih =>
    obtain ⟨head, value⟩ := entry
    by_cases removed : head = key
    · subst head
      rw [filter_cons_of_neg (by simp), ih]
      by_cases asked : other = key <;> simp [find, asked]
    rw [filter_cons_of_pos (by simpa using removed)]
    simp only [find, ih]
    by_cases asked : other = head
    · subst head
      simp [removed]
    · simp [asked]

/-- A deletion is observable at its own key only. -/
@[simp] theorem get_erase :
    (dict.erase key).get other = if other = key then none else dict.get other :=
  find_filter_ne ..

/-- With distinct keys, a stored entry is exactly what its key looks up. -/
theorem find_eq_some_iff (distinct : (entries.map Prod.fst).Nodup) (key : κ) (value : ν) :
    find key entries = some value ↔ (key, value) ∈ entries := by
  induction entries with
  | nil => simp [find]
  | cons entry rest ih =>
    obtain ⟨head, stored⟩ := entry
    simp only [map_cons, nodup_cons] at distinct
    rw [find, mem_cons, Prod.mk.injEq]
    by_cases same : key = head
    · subst head
      have absent : (key, value) ∉ rest := fun member =>
        distinct.1 (mem_map.mpr ⟨(key, value), member, rfl⟩)
      simp [absent, eq_comm]
    · simp [same, ih distinct.2]

/-- Lookup and membership among the entries agree. -/
theorem get_eq_some_iff : dict.get key = some value ↔ (key, value) ∈ dict.entries :=
  find_eq_some_iff _ dict.distinct ..

/-- The keys are exactly those with a value. -/
theorem mem_keys_iff : key ∈ dict.keys ↔ ∃ value, dict.get key = some value := by
  simp [keys, get_eq_some_iff]

/-- A key is absent exactly when its lookup fails. -/
theorem get_eq_none_iff : dict.get key = none ↔ key ∉ dict.keys := by
  rw [mem_keys_iff, Option.eq_none_iff_forall_ne_some]
  simp

/-- Keys after an assignment, in iteration order. -/
theorem keys_set :
    (dict.set key value).keys = if key ∈ dict.keys then dict.keys else dict.keys ++ [key] :=
  put_keys ..

/-- Overwriting a present key leaves every view of the entries unchanged that
does not distinguish the old value from the new one. -/
theorem map_set_of_eq {β : Type w} {view : κ × ν → β} {dict : OrderedDict κ ν} {key : κ}
    {previous value : ν} (present : dict.get key = some previous)
    (same : view (key, value) = view (key, previous)) :
    (dict.set key value).entries.map view = dict.entries.map view := by
  have raw : ∀ entries : List (κ × ν), find key entries = some previous →
      (put key value entries).map view = entries.map view := by
    intro entries found
    induction entries with
    | nil => cases found
    | cons entry rest ih =>
      obtain ⟨other, stored⟩ := entry
      by_cases here : key = other
      · subst other
        have storedSame : stored = previous := by simpa [find] using found
        simp [put, same, storedSame]
      · have later : find key rest = some previous := by simpa [find, here] using found
        simp [put, here, ih later]
  exact raw dict.entries present

theorem put_absent {entries : List (κ × ν)} (absent : key ∉ entries.map Prod.fst) :
    put key value entries = entries ++ [(key, value)] := by
  induction entries with
  | nil => rfl
  | cons entry rest ih =>
    obtain ⟨other, stored⟩ := entry
    obtain ⟨different, later⟩ := not_or.mp (mem_cons.not.mp absent)
    simp [put, different, ih later]

theorem entries_set_of_absent (absent : key ∉ dict.keys) :
    (dict.set key value).entries = dict.entries ++ [(key, value)] :=
  put_absent key _ absent

/-- Replace every value. -/
def mapValues {ω : Type w} (change : ν → ω) (dict : OrderedDict κ ν) : OrderedDict κ ω :=
  ⟨dict.entries.map (fun entry => (entry.1, change entry.2)), by
    rw [List.map_map]
    exact dict.distinct⟩

variable {ω : Type w} (change : ν → ω)

/-- Looking up a key after every value was replaced. -/
@[simp] theorem get_map_values (dict : OrderedDict κ ν) (key : κ) :
    (dict.mapValues change).get key = (dict.get key).map change := by
  obtain ⟨entries, distinct⟩ := dict
  change find key (entries.map _) = (find key entries).map change
  clear distinct
  induction entries with
  | nil => rfl
  | cons entry rest ih => by_cases same : key = entry.1 <;> simp [find, same, ih]

/-- Deleting a key after every value was replaced. -/
theorem erase_map_values (dict : OrderedDict κ ν) (key : κ) :
    (dict.mapValues change).erase key = (dict.erase key).mapValues change := by
  simp only [erase, mapValues, OrderedDict.mk.injEq, filter_map]
  rfl

end OrderedDict

end ForgePilot
