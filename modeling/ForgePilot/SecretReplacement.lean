import ForgePilot.Characters
import ForgePilot.Hiding
import ForgePilot.OrderedDict
import ForgePilot.Values

/-!
# Replacing secrets in events

Before an event is stored, every text in its mapping form has the known secrets
replaced, one secret after the other. Mappings are entered, lists are not. Some
fields of the event itself are left alone.

The replacement is exact when no string in a list holds a secret and no secret can
touch the placeholder: then no secret is left, and nothing of a secret is left
exactly when the occurrences that are replaced cover all others. Secrets that
overlap in a text can leave a remainder.
-/

namespace ForgePilot.EventStreams

open Characters Hiding

/-- What stands in the place of a secret. -/
def secretHidden : String := "<secret_hidden>"

/-- The fields of an event in which nothing is replaced. -/
def topLevelProtectedFields : List String :=
  ["timestamp", "id", "source", "cause", "action", "observation", "message"]

/-- Replace each secret in a text, one after the other. -/
def replaceEach (secrets : List String) (text : String) : String :=
  secrets.foldl (fun current secret => replace current secret secretHidden) text

mutual

/-- Replace secrets in the entries of a mapping. -/
def replaceSecrets (secrets : List String) (isTopLevel : Bool) :
    List (String × Value) → List (String × Value)
  | [] => []
  | (key, value) :: rest =>
      (key,
        if isTopLevel && key ∈ topLevelProtectedFields then value
        else replaceValue secrets value) :: replaceSecrets secrets isTopLevel rest

/-- Replace secrets in a value that is a mapping or a text. -/
def replaceValue (secrets : List String) : Value → Value
  | .mapping entries => .mapping (replaceSecrets secrets false entries)
  | .str text => .str (replaceEach secrets text)
  | .list items => .list items
  | .tuple items => .tuple items
  | .none => .none
  | .bool value => .bool value
  | .int value => .int value
  | .float printed => .float printed
  | .object className printed => .object className printed

end

mutual

/-- The texts in a value, through mappings and lists. -/
def textsIn : Value → List String
  | .str text => [text]
  | .list items => textsInItems items
  | .tuple items => textsInItems items
  | .mapping entries => textsInEntries entries
  | .none | .bool _ | .int _ | .float _ | .object _ _ => []

def textsInItems : List Value → List String
  | [] => []
  | item :: rest => textsIn item ++ textsInItems rest

def textsInEntries : List (String × Value) → List String
  | [] => []
  | (_, value) :: rest => textsIn value ++ textsInEntries rest

end

mutual

/-- The texts in a value that are in no list. -/
def textsOutsideLists : Value → List String
  | .str text => [text]
  | .mapping entries => entriesOutsideLists entries
  | .none | .bool _ | .int _ | .float _ | .list _ | .tuple _ | .object _ _ => []

/-- The texts in the entries of a mapping that are in no list. -/
def entriesOutsideLists : List (String × Value) → List String
  | [] => []
  | (_, value) :: rest => textsOutsideLists value ++ entriesOutsideLists rest

end

mutual

def textsInsideLists : Value → List String
  | .list items => textsInItems items
  | .tuple items => textsInItems items
  | .mapping entries => entriesInsideLists entries
  | .none | .bool _ | .int _ | .float _ | .str _ | .object _ _ => []

/-- The texts in the entries of a mapping that are in a list. -/
def entriesInsideLists : List (String × Value) → List String
  | [] => []
  | (_, value) :: rest => textsInsideLists value ++ entriesInsideLists rest

end

/-- The fields of an event that are not protected. -/
def unprotected (data : List (String × Value)) : List (String × Value) :=
  data.filter (fun entry => entry.1 ∉ topLevelProtectedFields)

def holdsSecret (secrets : List String) (text : String) : Bool :=
  secrets.any (fun secret => occursIn secret.toList text.toList)

def secretWords (secrets : List String) : List (List Char) := secrets.map String.toList

/-- No character of a secret in the text is left after the replacement. -/
def NothingLeft (secrets : List String) (text : String) : Prop :=
  ∀ character covered,
    (character, some covered) ∈
      replaceAllTracked (secretWords secrets) secretHidden.toList (tracked text.toList) →
    ∀ index position, Occurs (secretWords secrets) text.toList index position →
      ¬Covers (secretWords secrets) index position covered

/-- No text holds a secret, replacing again changes nothing, and nothing is left of
a secret that stood in a replaced text. -/
structure SecretsHidden (secrets : List String) (data : List (String × Value)) : Prop where
  free : ∀ text ∈ textsInEntries (unprotected (replaceSecrets secrets true data)),
    holdsSecret secrets text = false
  settled : replaceSecrets secrets true (replaceSecrets secrets true data) =
    replaceSecrets secrets true data
  nothingLeft : ∀ text ∈ entriesOutsideLists (unprotected data), NothingLeft secrets text

/-- No list holds a secret, and in each other text no secret stands, or all secrets
are clear of the placeholder and the replaced occurrences cover all others. -/
structure Replaceable (secrets : List String) (data : List (String × Value)) : Prop where
  lists : ∀ text ∈ entriesInsideLists (unprotected data), holdsSecret secrets text = false
  texts : ∀ text ∈ entriesOutsideLists (unprotected data),
    holdsSecret secrets text = false ∨
      (∀ secret ∈ secrets, clear secret.toList secretHidden.toList = true) ∧
        Tiled (secretWords secrets) text.toList

/-- Replacing in a text whose characters carry their positions replaces in the
text. -/
theorem replace_tracked_text (needle replacement : List Char) (skip : Nat)
    (text : List (Char × Option Nat)) :
    (replaceTracked needle replacement skip text).map Prod.fst =
      replaceFrom needle replacement skip (text.map Prod.fst) := by
  fun_induction replaceTracked needle replacement skip text with
  | case1 skip => cases skip <;> rfl
  | case2 skip value rest ih => rw [ih, List.map_cons, replaceFrom]
  | case3 value rest begins ih =>
    rw [List.map_append, ih, List.map_map]
    rw [List.map_cons] at begins ⊢
    rw [replaceFrom, if_pos begins]
    congr 1
    exact List.map_id _
  | case4 value rest differs ih =>
    rw [List.map_cons] at differs ⊢
    rw [ih, List.map_cons, replaceFrom, if_neg differs]

/-- Replacing all secrets with positions replaces them in the text. -/
theorem replace_all_tracked_text (secrets : List String) (text : String)
    (current : List (Char × Option Nat)) (same : current.map Prod.fst = text.toList) :
    (replaceAllTracked (secretWords secrets) secretHidden.toList current).map Prod.fst =
      (replaceEach secrets text).toList := by
  induction secrets generalizing text current with
  | nil => exact same
  | cons secret rest ih =>
    have step : (replaceTracked secret.toList secretHidden.toList 0 current).map Prod.fst =
        (replace text secret secretHidden).toList := by
      rw [replace_tracked_text, same, replace, String.toList_ofList]
    exact ih _ _ step

theorem tracked_text (text : List Char) : (tracked text).map Prod.fst = text := by
  apply List.ext_getElem?
  intro place
  rw [tracked, List.getElem?_map, List.getElem?_mapIdx]
  cases text[place]? with
  | none => rfl
  | some character => rfl

/-- A text without secrets is kept. -/
theorem replace_each_absent {secrets : List String} {text : String}
    (absent : holdsSecret secrets text = false) : replaceEach secrets text = text := by
  induction secrets with
  | nil => rfl
  | cons secret rest ih =>
    rw [holdsSecret, List.any_cons, Bool.or_eq_false_iff] at absent
    have kept : replace text secret secretHidden = text := by
      rw [replace, replace_from_absent _ _ _ absent.1, String.ofList_toList]
    show replaceEach rest (replace text secret secretHidden) = text
    rw [kept]
    exact ih absent.2

section Texts

variable {secrets : List String} (filled : ∀ secret ∈ secrets, secret ≠ "")
include filled

theorem secret_words_filled : ∀ word ∈ secretWords secrets, word ≠ [] := by
  intro word member
  obtain ⟨secret, inside, rfl⟩ := List.mem_map.mp member
  intro nothing
  exact filled secret inside (String.toList_inj.mp nothing)

/-- A text in which a secret stood holds the placeholder afterwards. -/
theorem placeholder_left (text : String) (present : holdsSecret secrets text = true) :
    occursIn secretHidden.toList (replaceEach secrets text).toList = true := by
  induction secrets generalizing text with
  | nil => cases present
  | cons secret rest ih =>
    have restFilled : ∀ other ∈ rest, other ≠ "" :=
      fun other member => filled other (.tail _ member)
    have secretFilled : secret.toList ≠ [] :=
      secret_words_filled filled _ (List.mem_map_of_mem (.head _))
    show occursIn secretHidden.toList
      (replaceEach rest (replace text secret secretHidden)).toList = true
    cases here : occursIn secret.toList text.toList with
    | true =>
      have placed : occursIn secretHidden.toList (replace text secret secretHidden).toList =
          true := by
        rw [replace, String.toList_ofList]
        exact replacement_occurs _ _ _ secretFilled here
      cases again : holdsSecret rest (replace text secret secretHidden) with
      | true => exact ih restFilled _ again
      | false =>
        rw [replace_each_absent again]
        exact placed
    | false =>
      have kept : replace text secret secretHidden = text := by
        rw [replace, replace_from_absent _ _ _ here, String.ofList_toList]
      rw [holdsSecret, List.any_cons, here, Bool.false_or] at present
      rw [kept]
      exact ih restFilled text present

variable (isClear : ∀ secret ∈ secrets, clear secret.toList secretHidden.toList = true)
include isClear

omit filled in
theorem secret_words_clear :
    ∀ word ∈ secretWords secrets, clear word secretHidden.toList = true := by
  intro word member
  obtain ⟨secret, inside, rfl⟩ := List.mem_map.mp member
  exact isClear secret inside

/-- Clear secrets are all replaced. -/
theorem replace_each_free (text : String) :
    holdsSecret secrets (replaceEach secrets text) = false := by
  rw [holdsSecret, List.any_eq_false]
  intro secret member present
  obtain ⟨place, begins⟩ := (occurs_in_iff _ _).mp present
  rw [← replace_all_tracked_text _ _ _ (tracked_text ..)] at begins
  exact replaced_free _ (secret_words_filled filled) (secret_words_clear isClear)
    _ (List.mem_map_of_mem member) _ begins

/-- Nothing is left of clear secrets exactly when replaced occurrences cover all
others. -/
theorem nothing_left_iff (text : String) :
    NothingLeft secrets text ↔ Tiled (secretWords secrets) text.toList :=
  (tiled_iff_nothing_left _ (secret_words_filled filled)
    (secret_words_clear isClear)).symm

end Texts

/-- A text without secrets has no occurrences. -/
theorem nothing_left_absent (secrets : List String) (text : String)
    (absent : holdsSecret secrets text = false) : NothingLeft secrets text := by
  rintro character covered left index place ⟨word, found, begins⟩
  rw [holdsSecret, List.any_eq_false] at absent
  obtain ⟨secret, inside, rfl⟩ := List.mem_map.mp (List.mem_of_getElem? found)
  exact absurd ((occurs_in_iff _ _).mpr ⟨place, begins⟩) (absent secret inside)

mutual

/-- The texts of a mapping after the replacement. -/
theorem texts_in_replaced_entries (secrets : List String) (entries : List (String × Value))
    (text : String) :
    text ∈ textsInEntries (replaceSecrets secrets false entries) ↔
      (∃ leaf ∈ entriesOutsideLists entries, text = replaceEach secrets leaf) ∨
        text ∈ entriesInsideLists entries := by
  cases entries with
  | nil => simp [replaceSecrets, textsInEntries, entriesOutsideLists, entriesInsideLists]
  | cons entry rest =>
    obtain ⟨key, value⟩ := entry
    rw [replaceSecrets, textsInEntries, entriesOutsideLists, entriesInsideLists]
    simp only [Bool.false_and, Bool.false_eq_true, if_false, List.mem_append]
    rw [texts_in_replaced_value .., texts_in_replaced_entries ..]
    constructor
    · rintro ((⟨leaf, inside, same⟩ | listed) | (⟨leaf, inside, same⟩ | listed))
      · exact .inl ⟨leaf, .inl inside, same⟩
      · exact .inr (.inl listed)
      · exact .inl ⟨leaf, .inr inside, same⟩
      · exact .inr (.inr listed)
    · rintro (⟨leaf, inside | inside, same⟩ | listed | listed)
      · exact .inl (.inl ⟨leaf, inside, same⟩)
      · exact .inr (.inl ⟨leaf, inside, same⟩)
      · exact .inl (.inr listed)
      · exact .inr (.inr listed)

/-- The texts of a value after the replacement. -/
theorem texts_in_replaced_value (secrets : List String) (value : Value) (text : String) :
    text ∈ textsIn (replaceValue secrets value) ↔
      (∃ leaf ∈ textsOutsideLists value, text = replaceEach secrets leaf) ∨
        text ∈ textsInsideLists value := by
  cases value with
  | none | bool | int | float | object =>
    simp [replaceValue, textsIn, textsOutsideLists, textsInsideLists]
  | str leaf => simp [replaceValue, textsIn, textsOutsideLists, textsInsideLists]
  | list items | tuple items => simp [replaceValue, textsIn, textsOutsideLists, textsInsideLists]
  | mapping entries =>
    rw [replaceValue, textsIn, textsOutsideLists, textsInsideLists]
    exact texts_in_replaced_entries ..

end

mutual

/-- Replacing twice in a mapping whose texts are settled. -/
theorem replace_secrets_settled (secrets : List String) (isTopLevel : Bool)
    (entries : List (String × Value))
    (settled : ∀ leaf ∈ entriesOutsideLists (if isTopLevel then unprotected entries else entries),
      replaceEach secrets (replaceEach secrets leaf) = replaceEach secrets leaf) :
    replaceSecrets secrets isTopLevel (replaceSecrets secrets isTopLevel entries) =
      replaceSecrets secrets isTopLevel entries := by
  cases entries with
  | nil => rfl
  | cons entry rest =>
    obtain ⟨key, value⟩ := entry
    cases guarded : isTopLevel && decide (key ∈ topLevelProtectedFields) with
    | true =>
      rw [Bool.and_eq_true] at guarded
      obtain ⟨rfl, isProtected⟩ := guarded
      rw [decide_eq_true_eq] at isProtected
      simp only [replaceSecrets, isProtected, decide_true, Bool.and_true, if_true,
        List.cons.injEq, true_and]
      apply replace_secrets_settled
      intro leaf inside
      exact settled leaf (by simpa [unprotected, isProtected] using inside)
    | false =>
      have laterIn : ∀ leaf, leaf ∈ textsOutsideLists value ∨
          leaf ∈ entriesOutsideLists (if isTopLevel then unprotected rest else rest) →
          leaf ∈ entriesOutsideLists
            (if isTopLevel then unprotected ((key, value) :: rest) else (key, value) :: rest) := by
        intro leaf either
        cases isTopLevel with
        | false => simpa [entriesOutsideLists] using either
        | true =>
          simp only [Bool.true_and, decide_eq_false_iff_not] at guarded
          simpa [unprotected, guarded, entriesOutsideLists] using either
      simp only [replaceSecrets, guarded, Bool.false_eq_true, if_false, List.cons.injEq,
        Prod.mk.injEq, true_and]
      constructor
      · apply replace_value_settled
        exact fun leaf inside => settled leaf (laterIn leaf (.inl inside))
      · apply replace_secrets_settled
        exact fun leaf inside => settled leaf (laterIn leaf (.inr inside))

/-- Replacing twice in a value whose texts are settled. -/
theorem replace_value_settled (secrets : List String) (value : Value)
    (settled : ∀ leaf ∈ textsOutsideLists value,
      replaceEach secrets (replaceEach secrets leaf) = replaceEach secrets leaf) :
    replaceValue secrets (replaceValue secrets value) = replaceValue secrets value := by
  cases value with
  | none | bool | int | float | object | list | tuple => simp [replaceValue]
  | str leaf =>
    simp only [replaceValue]
    rw [settled leaf (by simp [textsOutsideLists])]
  | mapping entries =>
    simp only [replaceValue]
    rw [replace_secrets_settled]
    simpa [textsOutsideLists] using settled

end

/-- The unprotected fields after the replacement. -/
theorem unprotected_replaced (secrets : List String) (data : List (String × Value)) :
    unprotected (replaceSecrets secrets true data) =
      replaceSecrets secrets false (unprotected data) := by
  induction data with
  | nil => rfl
  | cons entry rest ih =>
    obtain ⟨key, value⟩ := entry
    by_cases isProtected : key ∈ topLevelProtectedFields
    · simpa [replaceSecrets, unprotected, isProtected] using ih
    · simpa [replaceSecrets, unprotected, isProtected] using ih

def oneSecret : OrderedDict String String := ⟨[("TOKEN", "hunter2")], by decide⟩

def commandData : List (String × Value) :=
  [("id", .int 4), ("source", .str "agent"), ("action", .str "run"),
    ("args", .mapping [("command", .str "hunter2"), ("tags", .list [.str "shell"])])]

/-- The secret occurs in itself only once. -/
theorem one_secret_occurs {index place : Nat}
    (occurs : Occurs (secretWords oneSecret.values) "hunter2".toList index place) :
    index = 0 ∧ place = 0 := by
  obtain ⟨word, found, begins⟩ := occurs
  obtain ⟨inside, rfl⟩ := List.getElem?_eq_some_iff.mp found
  have first : index = 0 := by
    simpa [secretWords, oneSecret, OrderedDict.values] using inside
  subst first
  have long : "hunter2".toList.length ≤ ("hunter2".toList.drop place).length := begins.length_le
  have size : "hunter2".toList.length = 7 := by decide
  rw [List.length_drop] at long
  exact ⟨rfl, by omega⟩

/-- The arguments of a tool call with a list that holds the secret. -/
def listData : List (String × Value) :=
  [("id", .int 5), ("source", .str "agent"), ("action", .str "call_tool_mcp"),
    ("args", .mapping [("name", .str "login"),
      ("arguments", .mapping [("headers", .list [.str "token hunter2"])])])]

/-- A message of the given content. -/
def contentData (content : String) : List (String × Value) :=
  [("id", .int 6), ("source", .str "agent"), ("observation", .str "run"),
    ("content", .str content)]

end ForgePilot.EventStreams
