import ForgePilot.GitChanges
import Mathlib.Data.List.Dedup

/-!
# Changes of nested repositories

A change of the workspace belongs to a repository in it when its path is the name of the repository's directory
or below it. What is left out are the changes whose paths begin with the characters of such a name: nothing is
lost exactly when every such change belongs to one of the repositories.
-/

namespace ForgePilot.NestedRepositories

open GitChanges List

/-- Where the repository in a directory is found. -/
def foundAt (name : Text) : Text := "./".toList ++ name ++ "/.git".toList

def IsName (name : Text) : Prop := name ≠ [] ∧ '/' ∉ name

/-- A path is that of a directory or below it. -/
def Inside (name path : Text) : Prop := path = name ∨ name ++ ['/'] <+: path

instance (name path : Text) : Decidable (Inside name path) :=
  inferInstanceAs (Decidable (path = name ∨ name ++ ['/'] <+: path))

instance (name : Text) : Decidable (IsName name) := inferInstanceAs (Decidable (name ≠ [] ∧ '/' ∉ name))

/-- The changes of the workspace that belong to no repository in it. -/
def outside (names : List Text) (workspace : List Change) : List Change :=
  workspace.filter fun change => ∀ name ∈ names, ¬ Inside name change.path

/-- The changes of a repository, as those of the workspace. -/
def placed (nested : Text → List Change) (name : Text) : List Change :=
  (nested name).map fun change => ⟨change.status, name ++ '/' :: change.path⟩

/-- A change may stand before another one. -/
def Before (first second : Change) : Prop := String.ofList first.path ≤ String.ofList second.path

/-! ## Directories -/

theorem dirname_found (name : Text) (named : IsName name) : gitDirOf (foundAt name) = name := by
  have last : ((foundAt name).reverse.dropWhile (· != '/')).reverse = "./".toList ++ name ++ ['/'] := by
    have turned : (foundAt name).reverse = "tig.".toList ++ '/' :: (name.reverse ++ "/.".toList) := by
      simp [foundAt]
    rw [turned, dropWhile_append_of_pos (by simp), dropWhile_cons_of_neg (by decide)]
    simp
  obtain ⟨front, final, split⟩ := (eq_nil_or_concat name).resolve_left named.1
  have visible : final ≠ '/' := by
    rintro rfl
    exact named.2 (by rw [split]; simp)
  have short : (("./".toList ++ name ++ ['/']).reverse.dropWhile (· == '/')).reverse =
      "./".toList ++ name := by
    rw [split]
    simp [visible]
  have mixed : ("./".toList ++ name ++ ['/']).all (· == '/') = false := by simp
  rw [gitDirOf, dirname, last]
  simp only [mixed, Bool.false_eq_true, if_false, short]
  rfl

variable {names visited : List Text}

/-- The directories that are visited are those of the repositories. -/
theorem visited_perm (named : ∀ name ∈ names, IsName name) (distinct : names.Nodup)
    (order : visited.Perm ((names.map foundAt).map gitDirOf).dedup) : visited.Perm names := by
  have same : (names.map foundAt).map gitDirOf = names := by
    rw [map_map]
    exact (map_congr_left fun name member => dirname_found _ (named name member)).trans
      (map_id names)
  rwa [same, dedup_eq_self.mpr distinct] at order

/-- Every repository is looked at. -/
theorem nestedChanges_ok {shell : Text → Text → CompletedProcess} {cwd : Text}
    {nested : Text → List Change} {visited : List Text}
    (each : ∀ name ∈ visited, getChangesInRepo (shell (joinPath cwd name)) = .ok (nested name)) :
    nestedChanges shell cwd visited = .ok (visited.flatMap (placed nested)) := by
  induction visited with
  | nil => rfl
  | cons name rest ih =>
    have here := each name (.head _)
    have later := ih fun other member => each other (.tail _ member)
    rw [nestedChanges, here, later]
    rfl

/-! ## What is left out -/

theorem begins_of_inside (name path : Text) (inside : Inside name path) : name <+: path := by
  rcases inside with rfl | below
  · exact prefix_refl _
  · exact (prefix_append name ['/']).trans below

/-- No change that is kept belongs to a repository. -/
theorem kept_outside (same : visited.Perm names) (workspace : List Change) :
    workspace.filter (fun change => !beginsInside visited change) =
      (outside names workspace).filter fun change => !beginsInside visited change := by
  rw [outside, filter_filter]
  apply filter_congr
  intro change _
  cases begins : beginsInside visited change with
  | true => rfl
  | false =>
    have apart : ∀ name ∈ names, ¬ Inside name change.path := by
      intro name member inside
      have listed : beginsInside visited change = true := by
        rw [beginsInside, any_eq_true]
        exact ⟨name, same.mem_iff.mpr member,
          isPrefixOf_iff_prefix.mpr (begins_of_inside _ _ inside)⟩
      rw [begins] at listed
      cases listed
    simp [decide_eq_true apart]

variable (changes : List Change)

theorem sort_perm : (sortChanges changes).Perm changes :=
  mergeSort_perm changes _

theorem sort_sorted : (sortChanges changes).Pairwise Before := by
  have sorted : (sortChanges changes).Pairwise fun first second =>
      decide (String.ofList first.path ≤ String.ofList second.path) = true := by
    apply pairwise_mergeSort
    · intro first second third early late
      simp only [decide_eq_true_eq] at early late ⊢
      exact le_trans early late
    · intro first second
      simpa using le_total (String.ofList first.path) (String.ofList second.path)
  exact sorted.imp fun before => by simpa [Before] using before

/-- Every command fails but those that are answered with changes. -/
def answering (workspace nested : Text) (cwd cmd : Text) : CompletedProcess :=
  let lines := if cwd = "/w".toList then workspace else nested
  if cmd = "git --no-pager rev-parse --abbrev-ref HEAD".toList then ⟨0, "main".toList, []⟩
  else if cmd = "git --no-pager rev-parse --verify origin/main".toList then ⟨0, "1".toList, []⟩
  else if cmd = "git --no-pager diff --name-status 1".toList then ⟨0, lines, []⟩
  else if cmd = "git --no-pager ls-files --others --exclude-standard".toList then ⟨0, [], []⟩
  else ⟨1, [], []⟩

end ForgePilot.NestedRepositories
