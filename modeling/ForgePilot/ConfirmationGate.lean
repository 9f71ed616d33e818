import ForgePilot.OrderedDict
import Mathlib.Algebra.Group.Nat.Defs
import Mathlib.Data.List.Count

/-!
# One-shot confirmation tokens

The gate issues tokens for a subject, with an optional time to live, and consumes
each of them at most once. Issuing drops tokens that were consumed or have
expired. The gate forgets; its history does not: the history lists every token
that was issued or redeemed, and a token stands from its latest issue until it is
redeemed. `Represents` ties the gate to its history at a time of the clock. It
needs no assumption that drawn tokens are fresh; it needs that the clock does not
run backwards, because a token dropped as expired must stay expired.
-/

namespace ForgePilot.Harness

open List OrderedDict

/-- The last hexadecimal digits of a number. -/
def hexOf (number : Nat) : Nat → List Char
  | 0 => []
  | digits + 1 => hexOf (number / 16) digits ++ [Nat.digitChar (number % 16)]

/-- A drawn 128-bit identifier. -/
structure Uuid where
  number : Nat
  small : number < 2 ^ 128

/-- Its thirty-two hexadecimal digits. -/
def Uuid.hex (uuid : Uuid) : String := String.ofList (hexOf uuid.number 32)

/-- A drawn identifier is never written as the empty text. -/
theorem uuid_hex_ne_empty (uuid : Uuid) : uuid.hex ≠ "" := by
  intro empty
  have characters : hexOf uuid.number 32 = [] := by
    simpa [Uuid.hex] using congrArg String.toList empty
  simp [hexOf] at characters

/-- An issued token; times are in microseconds. -/
structure ConfirmationToken where
  token : String
  subject : String
  issuedAt : Int
  expiresAt : Option Int
  consumedAt : Option Int := none
deriving DecidableEq

def ConfirmationToken.consumed (confirmation : ConfirmationToken) : Bool :=
  confirmation.consumedAt.isSome

def ConfirmationToken.expired (confirmation : ConfirmationToken) (now : Int) : Bool :=
  confirmation.expiresAt.any (· < now)

/-- The gate maps tokens to their state. -/
abbrev ConfirmationGate := OrderedDict String ConfirmationToken

/-- The exception of a time that no date can express. -/
inductive GateError where
  | overflowError
deriving DecidableEq

/-- The last microsecond a date can express, counted from 1970. -/
def latestTime : Int := 253402300799999999

/-- The first microsecond a date can express, counted from 1970. -/
def earliestTime : Int := -62135596800000000

/-- When a token issued now expires. -/
def expiry (now : Int) : Option Int → Except GateError (Option Int)
  | none => .ok none
  | some ttlSeconds =>
      let expires := now + ttlSeconds * 1000000
      if earliestTime ≤ expires ∧ expires ≤ latestTime then .ok (some expires)
      else .error .overflowError

/-- The tokens that pruning drops. -/
def staleTokens (gate : ConfirmationGate) (now : Int) : List String :=
  (gate.entries.filter (fun entry => entry.2.consumed || entry.2.expired now)).map Prod.fst

/-- Drop consumed and expired tokens. -/
def prune (gate : ConfirmationGate) (now : Int) : ConfirmationGate :=
  (staleTokens gate now).foldl OrderedDict.erase gate

def issue (gate : ConfirmationGate) (uuid : Uuid) (subject : String) (ttlSeconds : Option Int)
    (now : Int) : Except GateError ConfirmationToken × ConfirmationGate :=
  let pruned := prune gate now
  match expiry now ttlSeconds with
  | .error raised => (.error raised, pruned)
  | .ok expiresAt =>
      let confirmation : ConfirmationToken :=
        { token := uuid.hex, subject, issuedAt := now, expiresAt }
      (.ok confirmation, pruned.set confirmation.token confirmation)

/-- Consume a token, once, before it expires and for its subject when one is given. -/
def consume (gate : ConfirmationGate) (token : String) (subject : Option String) (now : Int) :
    Bool × ConfirmationGate :=
  match gate.get token with
  | none => (false, gate)
  | some confirmation =>
    if confirmation.consumed then (false, gate)
    else if subject.any (· ≠ confirmation.subject) then (false, gate)
    else if confirmation.expired now then (false, gate)
    else (true, gate.set token { confirmation with consumedAt := some now })

/-! ## The gate against its history -/

/-- What happened to tokens. -/
inductive GateEvent where
  | issued (confirmation : ConfirmationToken)
  | redeemed (token : String)

/-- The token that stands after one more event. -/
def standAfter (token : String) (standing : Option ConfirmationToken) :
    GateEvent → Option ConfirmationToken
  | .issued confirmation => if confirmation.token = token then some confirmation else standing
  | .redeemed redeemed => if redeemed = token then none else standing

/-- The latest issue of a token, unless it was redeemed since. -/
def standing (token : String) (history : List GateEvent) : Option ConfirmationToken :=
  history.foldl (standAfter token) none

@[simp] theorem standing_nil (token : String) : standing token [] = none := rfl

@[simp] theorem standing_append (token : String) (history : List GateEvent) (event : GateEvent) :
    standing token (history ++ [event]) = standAfter token (standing token history) event := by
  simp [standing]

/-- A token is live for a subject: it stands, names the subject when one is
given, and has not expired. -/
def Live (history : List GateEvent) (token : String) (subject : Option String) (now : Int) :
    Prop :=
  ∃ confirmation, standing token history = some confirmation ∧
    (∀ expected, subject = some expected → expected = confirmation.subject) ∧
    confirmation.expired now = false

/-- The gate at a time of the clock holds every standing token that has not
expired, and only standing tokens unconsumed. -/
def Represents (gate : ConfirmationGate) (history : List GateEvent) (clock : Option Int) : Prop :=
  ∀ token,
    match gate.get token with
    | some confirmation =>
        standing token history = if confirmation.consumed then none else some confirmation
    | none => ∀ confirmation, standing token history = some confirmation →
        ∃ time ∈ clock, confirmation.expired time = true

variable {gate : ConfirmationGate} {history : List GateEvent} {clock : Option Int}
  {confirmation : ConfirmationToken}

theorem expired_mono {earlier later : Int} (order : earlier ≤ later)
    (expired : confirmation.expired earlier = true) : confirmation.expired later = true := by
  unfold ConfirmationToken.expired at *
  cases bound : confirmation.expiresAt with
  | none => simp [bound] at expired
  | some time =>
    simp only [bound, Option.any_some, decide_eq_true_eq] at expired ⊢
    omega

theorem get_foldl_erase (keys : List String) (gate : ConfirmationGate) (token : String) :
    (keys.foldl OrderedDict.erase gate).get token =
      if token ∈ keys then none else gate.get token := by
  induction keys generalizing gate with
  | nil => simp
  | cons key rest ih =>
    rw [foldl_cons, ih, get_erase]
    by_cases here : token = key <;> by_cases later : token ∈ rest <;> simp [here, later]

/-- Pruning keeps exactly the tokens that are neither consumed nor expired. -/
theorem get_prune (gate : ConfirmationGate) (now : Int) (token : String) :
    (prune gate now).get token = (gate.get token).filter (fun confirmation =>
        !(confirmation.consumed || confirmation.expired now)) := by
  have stale : token ∈ staleTokens gate now ↔ ∃ confirmation, gate.get token = some confirmation ∧
      (confirmation.consumed || confirmation.expired now) = true := by
    simp [staleTokens, get_eq_some_iff]
  rw [prune, get_foldl_erase]
  cases found : gate.get token with
  | none => simp
  | some confirmation =>
    by_cases dropped : (confirmation.consumed || confirmation.expired now) = true
    · rw [if_pos (stale.mpr ⟨confirmation, found, dropped⟩)]
      simp [Option.filter, dropped]
    have kept : token ∉ staleTokens gate now := by
      rw [stale]
      rintro ⟨other, same, otherDropped⟩
      obtain rfl := Option.some.inj (found.symm.trans same)
      exact dropped otherDropped
    rw [if_neg kept]
    simp [Option.filter, dropped]

/-- The clock has not run past a time. -/
def Reads (clock : Option Int) (now : Int) : Prop := ∀ time ∈ clock, time ≤ now

variable {token : String}

variable (represents : Represents gate history clock)
include represents

/-- A present token is the standing one unless it was consumed. -/
theorem represents_some (found : gate.get token = some confirmation) :
    standing token history = if confirmation.consumed then none else some confirmation := by
  have stated := represents token
  rw [found] at stated
  exact stated

variable {now : Int}

variable (reads : Reads clock now)
include reads

/-- An absent token that stands has expired. -/
theorem represents_none (absent : gate.get token = none)
    (stands : standing token history = some confirmation) : confirmation.expired now = true := by
  have stated := represents token
  rw [absent] at stated
  obtain ⟨time, past, expired⟩ := stated confirmation stands
  exact expired_mono (reads time past) expired

/-- Without a call the gate still represents its history at a later time. -/
theorem represents_later : Represents gate history (some now) := by
  intro token
  cases found : gate.get token with
  | some confirmation => exact represents_some represents found
  | none =>
    intro confirmation stands
    exact ⟨now, rfl, represents_none represents reads found stands⟩

/-- Pruning drops nothing that can still be consumed. -/
theorem represents_prune : Represents (prune gate now) history (some now) := by
  intro token
  rw [get_prune]
  cases found : gate.get token with
  | none =>
    intro confirmation stands
    exact ⟨now, rfl, represents_none represents reads found stands⟩
  | some confirmation =>
    have stands := represents_some represents found
    by_cases consumed : confirmation.consumed = true
    · simp [Option.filter, consumed, stands]
    · by_cases expired : confirmation.expired now = true
      · simp [Option.filter, consumed, expired, stands]
      · simpa [Option.filter, consumed, expired] using stands

omit represents reads

/-- Storing a new token under its own name is its issue. -/
theorem represents_set (fresh : confirmation.consumed = false)
    (represents : Represents gate history clock) :
    Represents (gate.set confirmation.token confirmation) (history ++ [.issued confirmation])
      clock := by
  intro token
  rw [get_set, standing_append, standAfter]
  by_cases same : token = confirmation.token
  · simp [same, fresh]
  · rw [if_neg same, if_neg (Ne.symm same)]
    exact represents token

theorem represents_issue (uuid : Uuid) (subject : String) (ttlSeconds : Option Int)
    (represents : Represents gate history clock) (reads : Reads clock now) :
    match issue gate uuid subject ttlSeconds now with
    | (.error _, later) => Represents later history (some now)
    | (.ok confirmation, later) =>
        Represents later (history ++ [.issued confirmation]) (some now) := by
  have pruned := represents_prune represents reads
  rw [issue]
  cases expiry now ttlSeconds with
  | error raised => exact pruned
  | ok expiresAt => exact represents_set rfl pruned

theorem issue_token {uuid : Uuid} {subject : String} {ttlSeconds : Option Int}
    (issued : (issue gate uuid subject ttlSeconds now).1 = .ok confirmation) :
    confirmation.token = uuid.hex := by
  rw [issue] at issued
  cases bound : expiry now ttlSeconds with
  | error raised => simp [bound] at issued
  | ok expiresAt =>
    simp only [bound] at issued
    rw [← Except.ok.inj issued]

/-- The gate accepts exactly the live tokens. -/
theorem consume_true_iff (history : List GateEvent) (clock : Option Int) (token : String)
    (subject : Option String) (now : Int) (represents : Represents gate history clock)
    (reads : Reads clock now) :
    (consume gate token subject now).1 = true ↔ Live history token subject now := by
  unfold consume Live
  cases found : gate.get token with
  | none =>
    simp only [Bool.false_eq_true, false_iff]
    rintro ⟨confirmation, stands, _, unexpired⟩
    have expired := represents_none represents reads found stands
    exact Bool.false_ne_true (unexpired.symm.trans expired)
  | some confirmation =>
    have stands := represents_some represents found
    by_cases consumed : confirmation.consumed = true
    · simp [stands, consumed]
    simp only [consumed, if_neg, Bool.false_eq_true, not_false_eq_true] at stands ⊢
    rw [stands]
    cases subject with
    | none => cases expired : confirmation.expired now <;> simp [expired]
    | some expected =>
      by_cases same : expected = confirmation.subject
      · cases expired : confirmation.expired now <;> simp [same, expired]
      · simp [same]

/-- A consumed token is redeemed; anything else leaves the gate as it was. -/
theorem represents_consume (history : List GateEvent) (clock : Option Int) (token : String)
    (subject : Option String) (now : Int) (represents : Represents gate history clock)
    (reads : Reads clock now) :
    Represents (consume gate token subject now).2
      (if (consume gate token subject now).1 then history ++ [.redeemed token] else history)
      (some now) := by
  have later := represents_later represents reads
  rw [consume]
  cases found : gate.get token with
  | none => exact later
  | some confirmation =>
    dsimp only
    split
    · exact later
    split
    · exact later
    split
    · exact later
    intro other
    rw [if_pos rfl, get_set, standing_append, standAfter]
    by_cases same : other = token
    · simp [same, ConfirmationToken.consumed]
    · rw [if_neg same, if_neg (Ne.symm same)]
      exact later other

/-! ## Room for tokens -/

/-- The tokens that were issued, in order. -/
def issuedTokens (history : List GateEvent) : List String :=
  history.filterMap (fun event =>
    match event with
    | .issued confirmation => some confirmation.token
    | .redeemed _ => none)

/-- A token was spent at most as often as it was issued; one that is still standing has one use left. -/
def Room (history : List GateEvent) (spent : List String) (token : String) : Prop :=
  spent.count token + (if (standing token history).isSome then 1 else 0) ≤
    (issuedTokens history).count token

theorem room_issued {spent : List String} (confirmation : ConfirmationToken)
    (room : Room history spent token) : Room (history ++ [.issued confirmation]) spent token := by
  simp only [Room, standing_append, standAfter, issuedTokens, filterMap_append,
    filterMap_cons, filterMap_nil, count_append, count_singleton] at room ⊢
  by_cases same : confirmation.token = token
  · simp only [same, if_true, Option.isSome_some, beq_self_eq_true]
    omega
  · simp only [same, if_false, beq_iff_eq]
    omega

/-- Redeeming a standing token uses the room it had. -/
theorem room_redeemed {history : List GateEvent} {spent : List String} (redeemed token : String)
    (stands : (standing redeemed history).isSome = true) (room : Room history spent token) :
    Room (history ++ [.redeemed redeemed]) (spent ++ [redeemed]) token := by
  simp only [Room, standing_append, standAfter, issuedTokens, filterMap_append,
    filterMap_cons, filterMap_nil, append_nil, count_append,
    count_singleton] at room ⊢
  by_cases same : redeemed = token
  · subst same
    simp only [stands, if_true, beq_self_eq_true, Option.isSome_none] at room ⊢
    simpa using room
  · simp only [same, if_false, beq_iff_eq]
    omega

end ForgePilot.Harness
