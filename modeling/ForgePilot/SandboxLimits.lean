import ForgePilot.ConversationStart
import ForgePilot.Paging
import Mathlib.Data.List.Sort

/-!
# The limit on running sandboxes

Before a sandbox is started or resumed, the running sandboxes of the user are counted, and
those beyond the limit are paused. The services share one method for that, except the
remote one, which asks its runtime for what runs and reads the sandboxes from its table.

A sandbox belongs to the user who created it; a service without users sees all of them.
What a pause returns or raises is given by the sandbox. The rows a select yields are
one-element tuples. What follows the pausing in a start or a resumption is given by its
outcome; the service that runs sandboxes as processes has no limit and is left out.
-/

namespace ForgePilot.SandboxLimits

open Conversations ConversationStart Paging List

/-- A sandbox, and whether the runtime lists it. -/
structure SandboxInfo where
  id : String
  createdByUserId : Option String
  createdAt : Int
  status : SandboxStatus
  listed : Bool

/-- The sandboxes: no identifier and no instant of creation occurs twice. -/
structure Fleet where
  sandboxes : List SandboxInfo
  ids_distinct : (sandboxes.map SandboxInfo.id).Nodup
  times_distinct : (sandboxes.map SandboxInfo.createdAt).Nodup

inductive Failure where
  | valueError (text : String)
  | attributeError
  | httpError (text : String)
  | sandboxError (text : String)

/-- The sandboxes that a user may see. -/
def Fleet.visible (fleet : Fleet) (userId : Option String) : List SandboxInfo :=
  fleet.sandboxes.filter (fun sandbox =>
    match truthy userId with
    | none => true
    | some user => sandbox.createdByUserId = some user)

def isRunning (sandbox : SandboxInfo) : Bool := sandbox.status = .running

def Fleet.running (fleet : Fleet) (userId : Option String) : List SandboxInfo :=
  (fleet.visible userId).filter isRunning

def newestFirst (sandboxes : List SandboxInfo) : List SandboxInfo :=
  sandboxes.mergeSort (fun first second => second.createdAt ≤ first.createdAt)

def oldestFirst (sandboxes : List SandboxInfo) : List SandboxInfo :=
  sandboxes.mergeSort (fun first second => first.createdAt ≤ second.createdAt)

/-! ## Searching -/

/-- A page, and where the next one begins. -/
structure SandboxPage where
  items : List SandboxInfo
  nextPageId : Option Nat

/-- A page of the visible sandboxes, the newest first. A page is named by its offset. -/
def searchSandboxes (fleet : Fleet) (userId : Option String) (pageId : Option Nat) (limit : Nat) :
    SandboxPage :=
  let sandboxes := newestFirst (fleet.visible userId)
  let startIdx := pageId.getD 0
  let endIdx := startIdx + limit
  { items := (sandboxes.drop startIdx).take limit
    nextPageId := if endIdx < sandboxes.length then some endIdx else none }

/-- The items of all pages, for as many pages as asked for; `none` when pages remain. -/
def pageIterator (search : Option Nat → SandboxPage) : Nat → Option Nat → Option (List SandboxInfo)
  | 0, _ => none
  | pages + 1, pageId =>
      let page := search pageId
      match page.nextPageId with
      | none => some page.items
      | some next => (pageIterator search pages (some next)).map (page.items ++ ·)

/-! ## Pausing -/

/-- What was asked to pause, and what was paused. -/
structure Pausing where
  requested : List String := []
  paused : List String := []

variable (pauseSandbox : String → Except Failure Bool)

/-- Pause one after the other; what is raised for one is passed over. -/
def pauseEach {α : Type} (id : α → Except Failure String) : List α → Pausing
  | [] => {}
  | sandbox :: rest =>
      let others := pauseEach id rest
      match id sandbox with
      | .error _ => others
      | .ok sandboxId =>
          match pauseSandbox sandboxId with
          | .ok true => ⟨sandboxId :: others.requested, sandboxId :: others.paused⟩
          | _ => ⟨sandboxId :: others.requested, others.paused⟩

/-- Refuse a limit that is not positive. -/
def checkLimit (maxNumSandboxes : Int) : Except Failure Unit :=
  if maxNumSandboxes ≤ 0 then .error (.valueError "max_num_sandboxes must be greater than 0")
  else .ok ()

/-- Pause the oldest running sandboxes beyond the limit. -/
def SandboxService.pauseOldSandboxes (fleet : Fleet) (userId : Option String)
    (maxNumSandboxes : Int) : Except Failure Pausing := do
  checkLimit maxNumSandboxes
  let found := (pageIterator (searchSandboxes fleet userId · 100) (fleet.sandboxes.length + 1) none)
  let runningSandboxes := (found.getD []).filter isRunning
  if runningSandboxes.length ≤ maxNumSandboxes then return {}
  let numToPause := (runningSandboxes.length - maxNumSandboxes).toNat
  return pauseEach pauseSandbox (fun sandbox => .ok sandbox.id)
    ((oldestFirst runningSandboxes).take numToPause)

/-- A row of a select of one entity. -/
structure Row (α : Type) where
  entity : α

/-- A row answers to the name of its column only. -/
def Row.id (_ : Row SandboxInfo) : Except Failure String := .error .attributeError

/-- The same of the remote service: the listed sandboxes are taken to run, and are read as
rows, the newest first. -/
def RemoteSandboxService.pauseOldSandboxes (fleet : Fleet) (userId : Option String)
    (maxNumSandboxes : Int) : Except Failure Pausing := do
  checkLimit maxNumSandboxes
  let runningSandboxes :=
    (newestFirst ((fleet.visible userId).filter SandboxInfo.listed)).map Row.mk
  if runningSandboxes.length ≤ maxNumSandboxes then return {}
  let numToPause := (runningSandboxes.length - maxNumSandboxes).toNat
  return pauseEach pauseSandbox Row.id (runningSandboxes.take numToPause)

/-! ## Starting and resuming -/

/-- The services with a limit: one that uses the shared method, and the remote one. -/
inductive Service where
  | docker | remote
deriving DecidableEq

def Service.pauseOldSandboxes : Service → Fleet → Option String → Int → Except Failure Pausing
  | .docker => SandboxService.pauseOldSandboxes pauseSandbox
  | .remote => RemoteSandboxService.pauseOldSandboxes pauseSandbox

/-- A start: the limit, and what follows it. The remote service turns errors of its
requests into errors of the sandbox. -/
def Service.startSandbox (service : Service) (fleet : Fleet) (userId : Option String)
    (maxNumSandboxes : Int) (started : Except Failure String) : Except Failure String :=
  match service, (do
    let _ ← service.pauseOldSandboxes pauseSandbox fleet userId (maxNumSandboxes - 1)
    started) with
  | .remote, .error (.httpError text) => .error (.sandboxError ("Failed to start sandbox: " ++ text))
  | _, result => result

/-- A resumption: the limit, and what follows it. -/
def Service.resumeSandbox (service : Service) (fleet : Fleet) (userId : Option String)
    (maxNumSandboxes : Int) (resumed : Except Failure Bool) : Except Failure Bool := do
  let _ ← service.pauseOldSandboxes pauseSandbox fleet userId (maxNumSandboxes - 1)
  resumed

/-! ## What the limit is for -/

/-- A running sandbox of the user after which at least so many others were created. -/
def Surplus (fleet : Fleet) (userId : Option String) (kept : Nat) (sandbox : SandboxInfo) : Prop :=
  sandbox ∈ fleet.running userId ∧
    kept ≤ ((fleet.running userId).filter (fun other =>
      sandbox.createdAt < other.createdAt)).length

/-- Exactly the running sandboxes of the user other than the most recent ones are asked to
pause, those whose pause succeeds are returned, and if all succeed no more than the limit
remain. -/
structure Enforced (fleet : Fleet) (userId : Option String) (kept : Nat) (pausing : Pausing) :
    Prop where
  requested : ∀ id, id ∈ pausing.requested ↔ ∃ sandbox, Surplus fleet userId kept sandbox ∧
    sandbox.id = id
  paused : ∀ id, id ∈ pausing.paused ↔ (∃ sandbox, Surplus fleet userId kept sandbox ∧
    sandbox.id = id) ∧ pauseSandbox id = .ok true
  remaining : (∀ id, pauseSandbox id = .ok true) →
    ((fleet.running userId).filter (fun sandbox => sandbox.id ∉ pausing.paused)).length ≤ kept

/-- The limit is enforced, and neither a start nor a resumption fails because of it. -/
structure LimitKept (service : Service) (fleet : Fleet) (userId : Option String) (kept : Nat)
    (maxNumSandboxes : Int) : Prop where
  enforced : ∃ pausing, service.pauseOldSandboxes pauseSandbox fleet userId kept = .ok pausing ∧
    Enforced pauseSandbox fleet userId kept pausing
  starts : ∀ id, service.startSandbox pauseSandbox fleet userId maxNumSandboxes (.ok id) = .ok id
  resumes : ∀ found,
    service.resumeSandbox pauseSandbox fleet userId maxNumSandboxes (.ok found) = .ok found

/-! ## The pages of a search -/

variable (service : Service) (fleet : Fleet) (userId : Option String)

theorem last_page (limit pages offset : Nat)
    (reached : (newestFirst (fleet.visible userId)).length ≤ offset + limit) :
    pageIterator (searchSandboxes fleet userId · limit) (pages + 1) (some offset) =
      some ((newestFirst (fleet.visible userId)).drop offset) := by
  have items : (searchSandboxes fleet userId (some offset) limit).items =
      ((newestFirst (fleet.visible userId)).drop offset).take limit := rfl
  have next : (searchSandboxes fleet userId (some offset) limit).nextPageId = none :=
    if_neg (Nat.not_lt.mpr reached)
  rw [pageIterator]
  simp only [next, items]
  rw [take_of_length_le]
  rw [length_drop]
  omega

/-- Pages are read to the end from any offset. -/
theorem pages_from (limit : Nat) (positive : 0 < limit) (pages offset : Nat)
    (enough : (newestFirst (fleet.visible userId)).length ≤ offset + pages) :
    pageIterator (searchSandboxes fleet userId · limit) (pages + 1) (some offset) =
      some ((newestFirst (fleet.visible userId)).drop offset) := by
  induction pages generalizing offset with
  | zero => exact last_page _ _ _ 0 _ (by omega)
  | succ pages ih =>
    by_cases more : offset + limit < (newestFirst (fleet.visible userId)).length
    · have items : (searchSandboxes fleet userId (some offset) limit).items =
          ((newestFirst (fleet.visible userId)).drop offset).take limit := rfl
      have next : (searchSandboxes fleet userId (some offset) limit).nextPageId =
          some (offset + limit) := if_pos more
      rw [pageIterator]
      simp only [next, items]
      rw [ih (offset + limit) (by omega), Option.map_some, ← drop_drop, take_append_drop]
    · exact last_page _ _ _ _ _ (Nat.not_lt.mp more)

/-- A search returns the visible sandboxes on its pages. -/
theorem pages_found :
    pageIterator (searchSandboxes fleet userId · 100) (fleet.sandboxes.length + 1) none =
      some (newestFirst (fleet.visible userId)) := by
  have few : (newestFirst (fleet.visible userId)).length ≤ fleet.sandboxes.length := by
    rw [newestFirst, length_mergeSort]
    exact length_filter_le _ _
  exact pages_from _ _ 100 (by omega) _ 0 (by omega)

/-! ## The oldest sandboxes -/

variable (kept : Nat) (maxNumSandboxes : Int) (sandboxes : List SandboxInfo)

theorem oldest_first_perm : (oldestFirst sandboxes).Perm sandboxes :=
  mergeSort_perm sandboxes _

theorem running_ascending {fleet : Fleet} {userId : Option String} {sandboxes : List SandboxInfo}
    (same : sandboxes.Perm (fleet.running userId)) :
    Ascending SandboxInfo.createdAt (oldestFirst sandboxes) := by
  have sorted : (oldestFirst sandboxes).Pairwise (fun first second =>
      first.createdAt ≤ second.createdAt) := by
    have transitive (first second third : SandboxInfo)
        (below : decide (first.createdAt ≤ second.createdAt) = true)
        (above : decide (second.createdAt ≤ third.createdAt) = true) :
        decide (first.createdAt ≤ third.createdAt) = true := by
      simp only [decide_eq_true_eq] at below above ⊢
      omega
    have total (first second : SandboxInfo) : (decide (first.createdAt ≤ second.createdAt) ||
          decide (second.createdAt ≤ first.createdAt)) = true := by
      simp only [Bool.or_eq_true, decide_eq_true_eq]
      omega
    exact (pairwise_mergeSort transitive total sandboxes).imp of_decide_eq_true
  have distinct : ((oldestFirst sandboxes).map SandboxInfo.createdAt).Nodup := by
    rw [(((oldest_first_perm ..).trans same).map _).nodup_iff]
    exact fleet.times_distinct.sublist
      ((filter_sublist.trans filter_sublist).map SandboxInfo.createdAt)
  have different := pairwise_map.mp distinct
  exact (sorted.and different).imp (fun ⟨below, unequal⟩ => lt_of_le_of_ne below unequal)

/-- The surplus is what stands first by creation. -/
theorem surplus_iff {fleet : Fleet} {userId : Option String} {sandboxes : List SandboxInfo}
    (same : sandboxes.Perm (fleet.running userId)) (kept : Nat) (sandbox : SandboxInfo) :
    Surplus fleet userId kept sandbox ↔
      sandbox ∈ (oldestFirst sandboxes).take (sandboxes.length - kept) := by
  have perm := (oldest_first_perm ..).trans same
  rw [← (oldest_first_perm ..).length_eq, mem_take_ascending _ _ (running_ascending same),
    perm.mem_iff, (perm.filter _).length_eq]
  rfl

/-- There is a surplus when more sandboxes run than are kept. -/
theorem surplus_exists :
    (∃ sandbox, Surplus fleet userId kept sandbox) ↔ kept < (fleet.running userId).length := by
  simp only [surplus_iff (List.Perm.refl _) _]
  rw [← length_pos_iff_exists_mem, length_take, (oldest_first_perm _).length_eq]
  omega

/-! ## The shared method -/

/-- Every sandbox in the list is asked to pause. -/
theorem pause_each_requested :
    (pauseEach pauseSandbox (fun sandbox => .ok sandbox.id) sandboxes).requested =
      sandboxes.map SandboxInfo.id := by
  induction sandboxes with
  | nil => rfl
  | cons sandbox rest ih =>
    rw [pauseEach, map_cons]
    split
    · rename_i raised
      cases raised
    · rename_i known
      cases known
      split <;> rw [ih]

/-- Those whose pause succeeds are paused. -/
theorem pause_each_paused (id : String) :
    id ∈ (pauseEach pauseSandbox (fun sandbox => .ok sandbox.id) sandboxes).paused ↔
      id ∈ sandboxes.map SandboxInfo.id ∧ pauseSandbox id = .ok true := by
  induction sandboxes with
  | nil => simp [pauseEach]
  | cons sandbox rest ih =>
    rw [pauseEach, map_cons, mem_cons]
    split
    · rename_i raised
      cases raised
    rename_i known
    cases known
    split
    · rename_i succeeded
      rw [mem_cons, ih]
      constructor
      · rintro (rfl | ⟨member, paused⟩)
        · exact ⟨.inl rfl, succeeded⟩
        · exact ⟨.inr member, paused⟩
      · rintro ⟨rfl | member, paused⟩
        · exact .inl rfl
        · exact .inr ⟨member, paused⟩
    · rename_i failed
      rw [ih]
      constructor
      · rintro ⟨member, paused⟩
        exact ⟨.inr member, paused⟩
      · rintro ⟨rfl | member, paused⟩
        · exact absurd paused failed
        · exact ⟨member, paused⟩

theorem pause_each_rows (rows : List (Row SandboxInfo)) :
    pauseEach pauseSandbox Row.id rows = {} := by
  induction rows with
  | nil => rfl
  | cons row rest ih => rw [pauseEach, Row.id, ih]

/-- Pausing nothing enforces the limit when there is no surplus. -/
theorem enforced_nothing :
    Enforced pauseSandbox fleet userId kept {} ↔ (fleet.running userId).length ≤ kept := by
  constructor
  · intro enforced
    by_contra more
    obtain ⟨sandbox, surplus⟩ := (surplus_exists ..).mpr (Nat.lt_of_not_le more)
    exact not_mem_nil ((enforced.requested sandbox.id).mpr ⟨sandbox, surplus, rfl⟩)
  · intro few
    have none : ¬ ∃ sandbox, Surplus fleet userId kept sandbox := fun surplus =>
      absurd ((surplus_exists ..).mp surplus) (Nat.not_lt.mpr few)
    refine ⟨?_, ?_, ?_⟩
    · exact fun id => iff_of_false not_mem_nil (fun ⟨sandbox, surplus, _⟩ => none ⟨sandbox, surplus⟩)
    · exact fun id => iff_of_false not_mem_nil
        (fun ⟨⟨sandbox, surplus, _⟩, _⟩ => none ⟨sandbox, surplus⟩)
    · exact fun _ => (length_filter_le _ _).trans few

/-- Pausing the first sandboxes by creation enforces the limit. -/
theorem enforced_oldest (same : sandboxes.Perm (fleet.running userId)) (kept : Nat) :
    Enforced pauseSandbox fleet userId kept (pauseEach pauseSandbox (fun sandbox => .ok sandbox.id)
        ((oldestFirst sandboxes).take (sandboxes.length - kept))) := by
  have named (id : String) : id ∈ ((oldestFirst sandboxes).take (sandboxes.length - kept)).map
      SandboxInfo.id ↔ ∃ sandbox, Surplus fleet userId kept sandbox ∧ sandbox.id = id := by
    simp only [mem_map, surplus_iff same _]
  refine ⟨?_, ?_, ?_⟩
  · intro id
    rw [pause_each_requested, named]
  · intro id
    rw [pause_each_paused, named]
  · intro always
    have all : ∀ sandbox ∈ (oldestFirst sandboxes).take (sandboxes.length - kept), sandbox.id ∈
        (pauseEach pauseSandbox (fun sandbox => .ok sandbox.id)
          ((oldestFirst sandboxes).take (sandboxes.length - kept))).paused := fun sandbox member =>
      (pause_each_paused ..).mpr ⟨mem_map_of_mem member, always _⟩
    generalize (pauseEach pauseSandbox (fun sandbox : SandboxInfo => .ok sandbox.id)
      ((oldestFirst sandboxes).take (sandboxes.length - kept))).paused = paused at all ⊢
    have perm := (oldest_first_perm ..).trans same
    rw [← (perm.filter _).length_eq,
      ← take_append_drop (sandboxes.length - kept) (oldestFirst sandboxes),
      filter_append, length_append]
    have front : ((oldestFirst sandboxes).take (sandboxes.length - kept)).filter
        (fun sandbox => sandbox.id ∉ paused) = [] := by
      rw [filter_eq_nil_iff]
      intro sandbox member
      simpa using all sandbox member
    have back := length_filter_le (fun sandbox : SandboxInfo => decide (sandbox.id ∉ paused))
      ((oldestFirst sandboxes).drop (sandboxes.length - kept))
    rw [length_drop, (oldest_first_perm ..).length_eq] at back
    rw [front, length_nil]
    omega

/-! ## The methods -/

theorem check_limit : checkLimit maxNumSandboxes = .ok () ↔ 0 < maxNumSandboxes := by
  rw [checkLimit]
  split
  case isTrue refused => exact iff_of_false (by simp) (by omega)
  case isFalse accepted => exact iff_of_true rfl (by omega)

/-- The shared method enforces every positive limit. -/
theorem shared_enforces (positive : 0 < kept) :
    ∃ pausing, SandboxService.pauseOldSandboxes pauseSandbox fleet userId kept = .ok pausing ∧
      Enforced pauseSandbox fleet userId kept pausing := by
  have accepted := (check_limit kept).mpr (by omega)
  have same : ((newestFirst (fleet.visible userId)).filter isRunning).Perm (fleet.running userId) :=
    (mergeSort_perm _ _).filter isRunning
  rw [SandboxService.pauseOldSandboxes]
  rw [accepted, pages_found]
  simp only [bind, Except.bind, Option.getD_some]
  split
  case isTrue few =>
    refine ⟨{}, rfl, (enforced_nothing ..).mpr ?_⟩
    rw [← same.length_eq]
    omega
  case isFalse more =>
    refine ⟨_, rfl, ?_⟩
    have count : ((((newestFirst (fleet.visible userId)).filter isRunning).length : Int) -
        (kept : Int)).toNat = ((newestFirst (fleet.visible userId)).filter isRunning).length - kept := by
      omega
    rw [count]
    exact enforced_oldest _ _ _ _ same _

theorem remote_pauses_nothing (positive : 0 < maxNumSandboxes) :
    RemoteSandboxService.pauseOldSandboxes pauseSandbox fleet userId maxNumSandboxes = .ok {} := by
  rw [RemoteSandboxService.pauseOldSandboxes]
  rw [(check_limit ..).mpr positive]
  simp only [bind, Except.bind, pause_each_rows]
  split <;> rfl

/-- The method of either service succeeds exactly for positive limits. -/
theorem pausing_succeeds :
    (∃ pausing, service.pauseOldSandboxes pauseSandbox fleet userId maxNumSandboxes =
      .ok pausing) ↔ 0 < maxNumSandboxes := by
  constructor
  · rintro ⟨pausing, succeeded⟩
    rw [← check_limit]
    cases service with
    | docker =>
      obtain ⟨_, accepted, _⟩ := bind_eq_ok _ _ succeeded
      exact accepted
    | remote =>
      obtain ⟨_, accepted, _⟩ := bind_eq_ok _ _ succeeded
      exact accepted
  · intro positive
    cases service with
    | docker =>
      obtain ⟨kept, rfl⟩ := Int.eq_ofNat_of_zero_le positive.le
      obtain ⟨pausing, succeeded, _⟩ := shared_enforces _ _ _ kept (by omega)
      exact ⟨pausing, succeeded⟩
    | remote => exact ⟨{}, remote_pauses_nothing _ _ _ _ positive⟩

/-- A start that is otherwise successful succeeds exactly when the limit leaves room. -/
theorem start_succeeds :
    (∀ id, service.startSandbox pauseSandbox fleet userId maxNumSandboxes (.ok id) = .ok id) ↔
      2 ≤ maxNumSandboxes := by
  have room := pausing_succeeds pauseSandbox service fleet userId (maxNumSandboxes - 1)
  have exact : (∀ id, service.startSandbox pauseSandbox fleet userId maxNumSandboxes (.ok id) =
      .ok id) ↔ ∃ pausing, service.pauseOldSandboxes pauseSandbox fleet userId
        (maxNumSandboxes - 1) = .ok pausing := by
    unfold Service.startSandbox
    cases service.pauseOldSandboxes pauseSandbox fleet userId (maxNumSandboxes - 1) with
    | ok pausing => exact iff_of_true (fun id => by cases service <;> rfl) ⟨pausing, rfl⟩
    | error raised =>
      refine iff_of_false (fun always => ?_) (by simp)
      have failed := always ""
      cases service with
      | docker => cases failed
      | remote => cases raised <;> cases failed
  rw [exact, room]
  omega

/-- A resumption that is otherwise successful succeeds exactly when the limit leaves room. -/
theorem resume_succeeds :
    (∀ found, service.resumeSandbox pauseSandbox fleet userId maxNumSandboxes (.ok found) =
      .ok found) ↔ 2 ≤ maxNumSandboxes := by
  have room := pausing_succeeds pauseSandbox service fleet userId (maxNumSandboxes - 1)
  have exact : (∀ found, service.resumeSandbox pauseSandbox fleet userId maxNumSandboxes
      (.ok found) = .ok found) ↔ ∃ pausing, service.pauseOldSandboxes pauseSandbox fleet userId
        (maxNumSandboxes - 1) = .ok pausing := by
    unfold Service.resumeSandbox
    cases service.pauseOldSandboxes pauseSandbox fleet userId (maxNumSandboxes - 1) with
    | ok pausing => exact iff_of_true (fun _ => rfl) ⟨pausing, rfl⟩
    | error raised => exact iff_of_false (fun always => nomatch always true) (by simp)
  rw [exact, room]
  omega

/-- The limit is kept exactly when the remote service has nothing to pause and the
configuration allows for two sandboxes. -/
theorem limit_kept_exact (service : Service) (fleet : Fleet) (userId : Option String) (kept : Nat)
    (maxNumSandboxes : Int) (positive : 0 < kept) :
    LimitKept pauseSandbox service fleet userId kept maxNumSandboxes ↔
      (service = .remote → (fleet.running userId).length ≤ kept) ∧ 2 ≤ maxNumSandboxes := by
  have pauses : (∃ pausing, service.pauseOldSandboxes pauseSandbox fleet userId kept =
      .ok pausing ∧ Enforced pauseSandbox fleet userId kept pausing) ↔
      (service = .remote → (fleet.running userId).length ≤ kept) := by
    cases service with
    | docker => exact iff_of_true (shared_enforces _ _ _ _ positive) (nofun)
    | remote =>
      have nothing := remote_pauses_nothing pauseSandbox fleet userId kept (by omega)
      simp [Service.pauseOldSandboxes, nothing, exists_eq_left', enforced_nothing]
  constructor
  · intro limitKept
    exact ⟨pauses.mp limitKept.enforced, (start_succeeds ..).mp limitKept.starts⟩
  · rintro ⟨few, room⟩
    exact ⟨pauses.mpr few, (start_succeeds ..).mpr room, (resume_succeeds ..).mpr room⟩

def twoRunning : Fleet where
  sandboxes := [⟨"old", some "user", 0, .running, true⟩, ⟨"new", some "user", 1, .running, true⟩]
  ids_distinct := by decide
  times_distinct := by decide

/-- The shared method keeps one of them, and a limit of two leaves room for a start. -/
theorem one_kept : LimitKept (fun _ => .ok true) .docker twoRunning (some "user") 1 2 :=
  (limit_kept_exact (fun _ => .ok true) _ _ _ 1 2 (by decide)).mpr
    ⟨nofun, le_refl 2⟩

/-- The remote service pauses neither of them, and a limit of one fails every start. -/
theorem limit_missed : ¬ LimitKept (fun _ => .ok true) .remote twoRunning (some "user") 1 2 ∧
    ¬ LimitKept (fun _ => .ok true) .docker twoRunning (some "user") 1 1 := by
  constructor
  · intro limitKept
    obtain ⟨pausing, succeeded, enforced⟩ := limitKept.enforced
    have nothing := remote_pauses_nothing (fun _ => .ok true) twoRunning (some "user") 1 (by decide)
    obtain rfl : {} = pausing := Except.ok.inj (nothing.symm.trans succeeded)
    exact absurd ((enforced_nothing ..).mp enforced) (by decide)
  · intro limitKept
    cases limitKept.starts ""

end ForgePilot.SandboxLimits
