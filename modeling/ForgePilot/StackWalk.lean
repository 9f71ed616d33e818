import Mathlib.Data.List.Nodup
import Mathlib.Data.List.Perm.Basic
import Mathlib.Logic.Function.Iterate
import Mathlib.Tactic.Ring

/-!
# Collecting nodes with an explicit stack and a shared visited set

One iteration pops an identifier. A visited one is dropped; a fresh one becomes
visited, and if it names a node the node is collected and its children are
pushed in order. Several walks may share the visited set, each starting with an
empty collection.

Nothing is assumed about the graph: children may be shared, missing or cyclic.
The accounting invariant says that the nodes collected by all walks so far are
exactly the visited ones, each once. Every iteration lowers the weight of the
frontier by one, so a bound on the weight is a bound on the iterations.
-/

namespace ForgePilot.StackWalk

open List

universe u v
variable {ι : Type u} {ν : Type v} [DecidableEq ι]

/-- A walk in progress; the top of the stack is the head of the list. -/
structure Frontier (ι : Type u) (ν : Type v) where
  stack : List ι
  visited : List ι
  collected : List ν

section Walk

variable (lookup : ι → Option ν) (children : ν → List ι)

/-- One iteration of the loop; an empty stack is left as it is. -/
def visit (frontier : Frontier ι ν) : Frontier ι ν :=
  match frontier.stack with
  | [] => frontier
  | next :: rest =>
    if next ∈ frontier.visited then { frontier with stack := rest }
    else
      match lookup next with
      | none => { frontier with stack := rest, visited := next :: frontier.visited }
      | some node => ⟨children node ++ rest, next :: frontier.visited, frontier.collected ++ [node]⟩

variable {frontier : Frontier ι ν}

/-- Everything an iteration on a nonempty stack can do. -/
theorem visit_cases {next : ι} {rest : List ι} (top : frontier.stack = next :: rest) :
    (next ∈ frontier.visited ∧
      visit lookup children frontier = ⟨rest, frontier.visited, frontier.collected⟩) ∨
    (next ∉ frontier.visited ∧ lookup next = none ∧ visit lookup children frontier =
        ⟨rest, next :: frontier.visited, frontier.collected⟩) ∨
    ∃ node, next ∉ frontier.visited ∧ lookup next = some node ∧ visit lookup children frontier =
        ⟨children node ++ rest, next :: frontier.visited, frontier.collected ++ [node]⟩ := by
  by_cases seen : next ∈ frontier.visited
  · exact .inl ⟨seen, by simp [visit, top, seen]⟩
  · cases known : lookup next with
    | none => exact .inr (.inl ⟨seen, rfl, by simp [visit, top, seen, known]⟩)
    | some node => exact .inr (.inr ⟨node, seen, rfl, by simp [visit, top, seen, known]⟩)

/-- The collected nodes are exactly the visited ones that exist, each once. -/
structure Accounts (name : ν → ι) (visited : List ι) (collected : List ν) : Prop where
  stored : ∀ node ∈ collected, lookup (name node) = some node
  once : (collected.map name).Nodup
  complete : ∀ key node, key ∈ visited → lookup key = some node → node ∈ collected
  seen : ∀ node ∈ collected, name node ∈ visited

variable {name : ν → ι} (named : ∀ key node, lookup key = some node → name node = key)
include named

/-- One iteration keeps the accounts of everything collected so far, the
collections of earlier walks included. -/
theorem visit_accounts {earlier : List ν}
    (accounts : Accounts lookup name frontier.visited (earlier ++ frontier.collected)) :
    Accounts lookup name (visit lookup children frontier).visited
      (earlier ++ (visit lookup children frontier).collected) := by
  cases top : frontier.stack with
  | nil => simpa [visit, top] using accounts
  | cons next rest =>
    rcases visit_cases lookup children top with
      ⟨_, result⟩ | ⟨_, missing, result⟩ | ⟨node, fresh, found, result⟩
    · simpa [result] using accounts
    · rw [result]
      refine ⟨accounts.stored, accounts.once, ?_, ?_⟩
      · intro key node member known
        rcases member with _ | ⟨_, member⟩
        · rw [missing] at known
          cases known
        · exact accounts.complete key node member known
      · exact fun node member => .tail next (accounts.seen node member)
    · rw [result, ← append_assoc]
      have nodeName : name node = next := named next node found
      refine ⟨?_, ?_, ?_, ?_⟩
      · intro other member
        rcases mem_append.mp member with member | member
        · exact accounts.stored other member
        · rw [mem_singleton.mp member, nodeName, found]
      · rw [map_append, nodup_append]
        refine ⟨accounts.once, nodup_singleton _, ?_⟩
        rintro key member single member' rfl
        obtain ⟨other, collected, sameName⟩ := mem_map.mp member
        have isNext : key = next := (mem_singleton.mp member').trans nodeName
        exact fresh (isNext ▸ sameName ▸ accounts.seen other collected)
      · intro key other member known
        rcases member with _ | ⟨_, member⟩
        · have same : node = other := Option.some.inj (found.symm.trans known)
          simp [same]
        · exact mem_append_left _ (accounts.complete key other member known)
      · intro other member
        rcases mem_append.mp member with member | member
        · exact .tail next (accounts.seen other member)
        · rw [mem_singleton.mp member, nodeName]
          exact .head _

theorem walk_accounts (earlier : List ν) (iterations : Nat) (frontier : Frontier ι ν)
    (accounts : Accounts lookup name frontier.visited (earlier ++ frontier.collected)) :
    Accounts lookup name ((visit lookup children)^[iterations] frontier).visited
      (earlier ++ ((visit lookup children)^[iterations] frontier).collected) := by
  induction iterations generalizing frontier with
  | zero => exact accounts
  | succ iterations ih =>
    rw [Function.iterate_succ_apply]
    exact ih _ (visit_accounts _ _ named accounts)

omit named

/-- The number of children a key would push; a missing key pushes none. -/
def degree (key : ι) : Nat :=
  match lookup key with
  | none => 0
  | some node => (children node).length

/-- What the keys not yet visited can still push. -/
def unvisitedDegree (visited : List ι) : List ι → Nat
  | [] => 0
  | key :: rest =>
      (if key ∈ visited then 0 else degree lookup children key) + unvisitedDegree visited rest

/-- The frontier's weight: its stack and everything that may still be pushed. -/
def weight (keys : List ι) (frontier : Frontier ι ν) : Nat :=
  frontier.stack.length + unvisitedDegree lookup children frontier.visited keys

/-- Visiting a key outside the list changes nothing that may be pushed. -/
theorem unvisited_degree_cons_absent (keys visited : List ι) (next : ι) (absent : next ∉ keys) :
    unvisitedDegree lookup children (next :: visited) keys =
      unvisitedDegree lookup children visited keys := by
  induction keys with
  | nil => rfl
  | cons key rest ih =>
    obtain ⟨different, absentRest⟩ := not_or.mp (mem_cons.not.mp absent)
    simp [unvisitedDegree, Ne.symm different, ih absentRest]

/-- Visiting a fresh listed key takes away exactly its own children. -/
theorem unvisited_degree_cons_fresh {keys visited : List ι} {next : ι} (distinct : keys.Nodup)
    (member : next ∈ keys) (fresh : next ∉ visited) :
    unvisitedDegree lookup children (next :: visited) keys + degree lookup children next =
      unvisitedDegree lookup children visited keys := by
  induction keys with
  | nil => cases member
  | cons key rest ih =>
    obtain ⟨absent, distinctRest⟩ := nodup_cons.mp distinct
    rcases member with _ | ⟨_, member⟩
    · have others := unvisited_degree_cons_absent lookup children
        rest visited next absent
      simp only [unvisitedDegree, mem_cons, true_or, if_true, fresh, if_false, others]
      omega
    · have different : key ≠ next := fun same => absent (same ▸ member)
      have others := ih distinctRest member
      simp only [unvisitedDegree, mem_cons, different, false_or]
      omega

/-- An iteration on a nonempty stack lowers the weight by exactly one. -/
theorem visit_weight (keys : List ι) (distinct : keys.Nodup)
    (listed : ∀ key node, lookup key = some node → key ∈ keys)
    (frontier : Frontier ι ν) (pending : frontier.stack ≠ []) :
    weight lookup children keys (visit lookup children frontier) + 1 =
      weight lookup children keys frontier := by
  obtain ⟨next, rest, top⟩ := exists_cons_of_ne_nil pending
  rcases visit_cases lookup children top with
    ⟨_, result⟩ | ⟨fresh, missing, result⟩ | ⟨node, fresh, found, result⟩
  · simp only [weight, result, top, length_cons]
    omega
  · have noChildren : degree lookup children next = 0 := by simp [degree, missing]
    have unchanged : unvisitedDegree lookup children (next :: frontier.visited) keys =
        unvisitedDegree lookup children frontier.visited keys := by
      by_cases member : next ∈ keys
      · have := unvisited_degree_cons_fresh lookup children distinct member fresh
        omega
      · exact unvisited_degree_cons_absent lookup children keys frontier.visited next member
    simp only [weight, result, top, length_cons, unchanged]
    omega
  · have ownChildren : degree lookup children next = (children node).length := by
      simp [degree, found]
    have taken := unvisited_degree_cons_fresh lookup children
      distinct (listed next node found) fresh
    simp only [weight, result, top, length_cons, length_append]
    omega

/-- Enough iterations empty the stack. -/
theorem walk_finishes {keys : List ι} (distinct : keys.Nodup)
    (listed : ∀ key node, lookup key = some node → key ∈ keys) {iterations : Nat}
    (enough : weight lookup children keys frontier ≤ iterations) :
    ((visit lookup children)^[iterations] frontier).stack = [] := by
  induction iterations generalizing frontier with
  | zero =>
    rw [weight] at enough
    have empty : frontier.stack.length = 0 := by omega
    exact eq_nil_of_length_eq_zero empty
  | succ iterations ih =>
    by_cases pending : frontier.stack = []
    · have fixed : visit lookup children frontier = frontier := by simp [visit, pending]
      rw [Function.iterate_fixed fixed]
      exact pending
    · rw [Function.iterate_succ_apply]
      apply ih
      have lowered := visit_weight lookup children keys distinct listed frontier pending
      omega

end Walk

end ForgePilot.StackWalk
