import ForgePilot.ConfirmationGate
import ForgePilot.Runs
import Mathlib.Data.List.Induction

/-!
# Pruning a confirmation gate

The gate drops consumed and expired tokens when it issues a new one. A gate that keeps everything is run beside it:
both represent one history, so that they give the same answers.
-/

namespace ForgePilot.PrunedGates

open Harness Runs List

/-- An operation of a gate, at a reading of the clock. -/
inductive Operation where
  | issue (uuid : Uuid) (subject : String) (ttlSeconds : Option Int) (now : Int)
  | consume (token : String) (subject : Option String) (now : Int)

def Operation.now : Operation → Int
  | .issue _ _ _ now => now
  | .consume _ _ now => now

/-- The token that an operation draws. -/
def Operation.drawn : Operation → Option String
  | .issue uuid _ _ _ => some uuid.hex
  | .consume .. => none

/-- A gate that issues a token and drops none. -/
def issueKeeping (gate : ConfirmationGate) (uuid : Uuid) (subject : String) (ttlSeconds : Option Int)
    (now : Int) : Except GateError ConfirmationToken × ConfirmationGate :=
  match expiry now ttlSeconds with
  | .error raised => (.error raised, gate)
  | .ok expiresAt =>
      let confirmation : ConfirmationToken :=
        { token := uuid.hex, subject, issuedAt := now, expiresAt }
      (.ok confirmation, gate.set confirmation.token confirmation)

/-- The gate, the gate that keeps everything, and what the answers of the first were. -/
structure Session where
  gate : ConfirmationGate := .empty
  kept : ConfirmationGate := .empty
  history : List GateEvent := []
  clock : Option Int := none

def issued : Except GateError ConfirmationToken → List GateEvent
  | .ok confirmation => [.issued confirmation]
  | .error _ => []

def step (session : Session) : Operation → Session
  | .issue uuid subject ttlSeconds now =>
      let (result, gate) := issue session.gate uuid subject ttlSeconds now
      ⟨gate, (issueKeeping session.kept uuid subject ttlSeconds now).2, session.history ++ issued result,
        some now⟩
  | .consume token subject now =>
      let (accepted, gate) := consume session.gate token subject now
      ⟨gate, (consume session.kept token subject now).2,
        if accepted then session.history ++ [.redeemed token] else session.history, some now⟩

/-- The tokens that were accepted, in order. -/
def accepted (history : List GateEvent) : List String := history.filterMap fun
  | .redeemed token => some token
  | .issued _ => none

/-! ## What a gate promises -/

/-- Both gates issue the same. Afterwards all tokens are unconsumed, and unexpired but for a new one
whose time is negative. Both gates accept the same, and only a token that was issued before, for this
subject when one is given, and has not expired. -/
def Conforms (session : Session) : Operation → Prop
  | .issue uuid subject ttlSeconds now =>
      (issue session.gate uuid subject ttlSeconds now).1 =
        (issueKeeping session.kept uuid subject ttlSeconds now).1 ∧
      ∀ token confirmation,
        (issue session.gate uuid subject ttlSeconds now).2.get token = some confirmation →
          confirmation.consumed = false ∧ (confirmation.expired now = true →
            token = uuid.hex ∧ ∃ seconds < 0, ttlSeconds = some seconds)
  | .consume token subject now =>
      (consume session.gate token subject now).1 = (consume session.kept token subject now).1 ∧
      ((consume session.gate token subject now).1 = true → ∃ confirmation,
        .issued confirmation ∈ session.history ∧ confirmation.token = token ∧
          (∀ expected ∈ subject, expected = confirmation.subject) ∧
            ∀ expires ∈ confirmation.expiresAt, now ≤ expires)

/-- One history stands behind both gates, and every accepted token stood at its time. -/
structure Sound (session : Session) : Prop where
  prunes : Represents session.gate session.history session.clock
  keeps : Represents session.kept session.history session.clock
  room : ∀ token, Room session.history (accepted session.history) token

variable {history : List GateEvent}

variable {gate : ConfirmationGate} {clock : Option Int} {now : Int}

theorem issue_represents (uuid : Uuid) (subject : String) (ttlSeconds : Option Int)
    (represents : Represents gate history clock) (reads : Reads clock now) :
    Represents (issue gate uuid subject ttlSeconds now).2
      (history ++ issued (issue gate uuid subject ttlSeconds now).1) (some now) := by
  have stated := represents_issue uuid subject ttlSeconds represents reads
  split at stated
  · rename_i raised
    rw [raised, issued, append_nil]
    exact stated
  · rename_i drawn
    rw [drawn]
    exact stated

/-- A gate that keeps everything issues the same tokens, and represents the same history. -/
theorem issueKeeping_represents (gate kept : ConfirmationGate) (uuid : Uuid) (subject : String)
    (ttlSeconds : Option Int) (now : Int) (represents : Represents kept history clock)
    (reads : Reads clock now) :
    (issue gate uuid subject ttlSeconds now).1 = (issueKeeping kept uuid subject ttlSeconds now).1 ∧
      Represents (issueKeeping kept uuid subject ttlSeconds now).2
        (history ++ issued (issue gate uuid subject ttlSeconds now).1) (some now) := by
  have later := represents_later represents reads
  rw [issueKeeping, issue]
  cases expiry now ttlSeconds with
  | error raised => exact ⟨rfl, by simpa [issued] using later⟩
  | ok expiresAt => exact ⟨rfl, represents_set rfl later⟩

variable {session : Session}

theorem consume_same (sound : Sound session) (token : String) (subject : Option String) (now : Int)
    (reads : Reads session.clock now) :
    (consume session.gate token subject now).1 = (consume session.kept token subject now).1 :=
  Bool.eq_iff_iff.mpr
    ((consume_true_iff _ _ _ _ now sound.prunes reads).trans
      (consume_true_iff _ _ _ _ now sound.keeps reads).symm)

theorem sound_step (session : Session) (op : Operation) (sound : Sound session)
    (reads : Reads session.clock op.now) : Sound (step session op) := by
  cases op with
  | issue uuid subject ttlSeconds now =>
    refine ⟨issue_represents _ _ _ sound.prunes reads,
      (issueKeeping_represents _ _ _ _ _ now sound.keeps
        reads).2, fun token => ?_⟩
    have room := sound.room token
    simp only [step]
    cases (issue session.gate uuid subject ttlSeconds now).1 with
    | error raised => simpa [issued] using room
    | ok confirmation =>
      have spent : accepted (session.history ++ issued (.ok confirmation)) = accepted session.history := by
        simp [accepted, issued]
      rw [spent]
      exact room_issued _ room
  | consume token subject now =>
    have keeps := represents_consume _ _ token subject now sound.keeps reads
    rw [← consume_same sound _ _ now reads] at keeps
    refine ⟨represents_consume _ _ _ _ now sound.prunes reads, keeps,
      fun other => ?_⟩
    have room := sound.room other
    simp only [step]
    cases answer : (consume session.gate token subject now).1 with
    | false => simpa using room
    | true =>
      obtain ⟨confirmation, stands, -⟩ :=
        (consume_true_iff _ _ _ _ now sound.prunes reads).mp answer
      have spent : accepted (session.history ++ [.redeemed token]) = accepted session.history ++ [token] := by
        simp [accepted]
      rw [if_pos rfl, spent]
      exact room_redeemed _ _ (by rw [stands]; rfl) room

/-! ## One operation -/

theorem standing_issued {token : String} {confirmation : ConfirmationToken}
    (stands : standing token history = some confirmation) :
    .issued confirmation ∈ history ∧ confirmation.token = token := by
  induction history using reverseRecOn with
  | nil => cases stands
  | append_singleton earlier event ih =>
    rw [standing_append] at stands
    cases event <;> rw [standAfter] at stands <;> split at stands
    case issued.isTrue same =>
      cases stands
      exact ⟨mem_append_right _ (.head _), same⟩
    case redeemed.isTrue => cases stands
    all_goals exact (ih stands).imp_left (mem_append_left _)

theorem issue_swept {uuid : Uuid} {subject : String} {ttlSeconds : Option Int} (token : String)
    (confirmation : ConfirmationToken)
    (found : (issue gate uuid subject ttlSeconds now).2.get token = some confirmation) :
    confirmation.consumed = false ∧ (confirmation.expired now = true →
      token = uuid.hex ∧ ∃ seconds < 0, ttlSeconds = some seconds) := by
  have pruned (found : (prune gate now).get token = some confirmation) :
      confirmation.consumed = false ∧ confirmation.expired now = false := by
    rw [get_prune] at found
    simpa using (Option.filter_eq_some_iff.mp found).2
  rw [issue] at found
  cases bound : expiry now ttlSeconds with
  | error raised =>
    rw [bound] at found
    exact (pruned found).imp_right fun fresh stale => absurd (fresh.symm.trans stale) (by decide)
  | ok expiresAt =>
    rw [bound] at found
    dsimp only at found
    rw [OrderedDict.get_set] at found
    split at found
    · rename_i same
      obtain rfl := Option.some.inj found
      refine ⟨rfl, fun stale => ⟨same, ?_⟩⟩
      cases ttlSeconds with
      | none => cases bound; cases stale
      | some seconds =>
        rw [expiry] at bound
        split at bound
        · cases bound
          refine ⟨seconds, ?_, rfl⟩
          simp only [ConfirmationToken.expired, Option.any_some, decide_eq_true_eq] at stale
          omega
        · cases bound
    · exact (pruned found).imp_right fun fresh stale => absurd (fresh.symm.trans stale) (by decide)

theorem conforms_step (session : Session) (op : Operation) (sound : Sound session)
    (reads : Reads session.clock op.now) : Conforms session op := by
  cases op with
  | issue uuid subject ttlSeconds now =>
    exact ⟨(issueKeeping_represents _ _ _ _ _ now
      sound.keeps reads).1, issue_swept⟩
  | consume token subject now =>
    refine ⟨consume_same sound _ _ now reads, fun answer => ?_⟩
    obtain ⟨confirmation, stands, named, unexpired⟩ :=
      (consume_true_iff _ _ _ _ now sound.prunes reads).mp answer
    obtain ⟨listed, same⟩ := standing_issued stands
    refine ⟨confirmation, listed, same, named, fun expires bound => ?_⟩
    rw [ConfirmationToken.expired, bound] at unexpired
    simpa using unexpired

/-! ## Runs -/

/-- Only drawn tokens are issued. -/
theorem issued_drawn (session : Session) (operations : List Operation) (token : String) :
    (issuedTokens (run step session operations).history).count token ≤
      (issuedTokens session.history).count token + (operations.filterMap Operation.drawn).count token := by
  induction operations generalizing session with
  | nil => simp
  | cons op rest ih =>
    have later := ih (step session op)
    have here : (issuedTokens (step session op).history).count token ≤
        (issuedTokens session.history).count token + op.drawn.toList.count token := by
      cases op with
      | issue uuid subject ttlSeconds now =>
        simp only [step]
        cases drawn : (issue session.gate uuid subject ttlSeconds now).1 with
        | error raised => simp [issued]
        | ok confirmation =>
          have named := issue_token drawn
          simp [issuedTokens, issued, Operation.drawn, named]
      | consume other subject now =>
        simp only [step]
        cases (consume session.gate other subject now).1 <;> simp [issuedTokens]
    have split : (op :: rest).filterMap Operation.drawn =
        op.drawn.toList ++ rest.filterMap Operation.drawn := by
      cases drawn : op.drawn <;> simp [drawn]
    rw [split, count_append, run_cons]
    omega

/-- Where the clock does not run backwards and drawn tokens differ, pruning is not observable, and
no token is accepted twice. -/
theorem pruning_unobservable (operations : List Operation)
    (ordered : operations.Pairwise fun earlier later => earlier.now ≤ later.now)
    (fresh : (operations.filterMap Operation.drawn).Nodup) :
    Along step Conforms {} operations ∧
      ∀ token, (accepted (run step {} operations).history).count token ≤ 1 := by
  have initially : Sound {} := ⟨fun _ => nofun, fun _ => nofun, fun _ => Nat.le_refl 0⟩
  have guarded : Along step (fun session operation => Reads session.clock operation.now) {} operations := by
    refine along_of_pairwise _ _ _ (fun session operation later before time reading => ?_) _ _
      ordered fun _ _ time reading => by cases reading
    cases operation <;> cases reading <;> exact before
  refine ⟨along_of_invariant step _ Conforms Sound sound_step conforms_step _ operations initially
    guarded, fun token => ?_⟩
  have sound := invariant_along step _ Sound sound_step _ operations initially guarded _
    (reached_run step {} operations)
  have room := sound.room token
  have drawn := issued_drawn {} operations token
  have single := List.nodup_iff_count_le_one.mp fresh token
  have nothing : (issuedTokens ({} : Session).history).count token = 0 := rfl
  simp only [Room] at room
  omega

def drawnFirst : Uuid := ⟨1, by decide⟩

/-- A token is issued, accepted and offered again. -/
def offered : List Operation := [.issue drawnFirst "terminal:ls" (some 300) 0,
  .consume drawnFirst.hex (some "terminal:ls") 1, .consume drawnFirst.hex none 2]

theorem offered_unobservable : Along step Conforms {} offered ∧
    ∀ token, (accepted (run step {} offered).history).count token ≤ 1 :=
  pruning_unobservable _ (by simp [offered, Operation.now]) (List.nodup_singleton _)

/-- A token whose time is negative is held although it has expired. -/
theorem expired_token_held :
    ¬ ∀ operations : List Operation, operations.Pairwise (fun earlier later => earlier.now ≤ later.now) →
      (operations.filterMap Operation.drawn).Nodup →
        Along step (fun session operation => Conforms session operation ∧ (operation.drawn.isSome = true →
          ∀ token confirmation, (step session operation).gate.get token = some confirmation →
            confirmation.consumed = false ∧ confirmation.expired operation.now = false)) {} operations := by
  intro claimed
  have clean := (claimed [.issue drawnFirst "terminal:ls" (some (-1)) 0] (by simp)
    (List.nodup_singleton _)).1.2
  have fresh := (clean rfl drawnFirst.hex ⟨drawnFirst.hex, "terminal:ls", 0, some (-1000000), none⟩
    (by decide +kernel)).2
  cases fresh

end ForgePilot.PrunedGates
