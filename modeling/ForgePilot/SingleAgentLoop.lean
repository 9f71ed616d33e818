import ForgePilot.ClusterLoops
import Mathlib.Algebra.GroupWithZero.Nat

/-!
# One agent loop for each conversation of a cluster

A key that is set belongs to a loop that is registered, or to a process that is about to
register one or to delete it. So nobody else can start the conversation; what is left to
the processes is to let go of the key only once nothing lives under it.

They do not: a session is closed after its key was deleted, and a pipeline that refreshes
keys may set one again that was deleted since the pipeline was built. What is proved are
the runs in which no start meets a session that is still being closed and no pipeline sets
a key that is not set.
-/

namespace ForgePilot.SingleAgentLoop

open Runs Processes ClusterLoops List Cluster
open StandaloneManager (ConversationMetadata)

variable {ν ρ : Type}

/-! ## What a process has to do with sessions -/

/-- The conversation that a process starts, the session whose key it deletes, and the session it
closes. -/
structure Part (ν : Type) where
  starts : Option (String × Option String)
  deletes : Option (Session ν)
  closes : Option (Session ν)

namespace Part

/-- Nothing to do with sessions. -/
def idle : Part ν := ⟨none, none, none⟩

/-- A process has the key of a conversation without a loop. -/
def Holds (part : Part ν) (sid : String) : Prop :=
  part.starts.map Prod.fst = some sid ∨ part.deletes.map Session.sid = some sid

/-- A process has taken a session from its table. -/
def Takes (part : Part ν) (session : Session ν) : Prop :=
  part.deletes = some session ∨ part.closes = some session

end Part

def closingPart (starts : Option (String × Option String)) : Closing ν → Part ν
  | .deleting session => ⟨starts, some session, none⟩
  | .announcing session => ⟨starts, none, some session⟩
  | .closing session => ⟨starts, none, some session⟩
  | _ => ⟨starts, none, none⟩

def partOf : Phase ν → Part ν
  | .starting _ sid userId (.evicting _ closing) => closingPart (some (sid, userId)) closing
  | .starting _ sid userId _ => ⟨some (sid, userId), none, none⟩
  | .closing _ closing => closingPart none closing
  | _ => .idle

/-- A step that ends at the creation of a session still starts it. -/
def turnPart : Turn ν → Part ν
  | .waiting phase => partOf phase
  | .creating _ sid userId => ⟨some (sid, userId), none, none⟩

/-! ## The invariant -/

/-- What holds of the cluster: a key that is set is that of the conversation's user, and somebody
has it; sessions in the tables live, on their node and under their conversation; and no
conversation has two sessions that live. -/
structure Common (owner : String → Option String) (cluster : Cluster ν ρ) : Prop where
  keys : ∀ userId sid, (userId, sid) ∈ cluster.keys ↔ userId = owner sid ∧
    (cluster.holder sid ≠ none ∨
      ∃ node session, (cluster.localAgentLoopsBySid node).get sid = some session)
  held : ∀ sid, cluster.holder sid ≠ none → ∀ node, (cluster.localAgentLoopsBySid node).get sid = none
  tables : ∀ node sid session, (cluster.localAgentLoopsBySid node).get sid = some session →
    session ∈ cluster.live ∧ session.sid = sid ∧ session.node = node
  single : ∀ first ∈ cluster.live, ∀ second ∈ cluster.live, first.sid = second.sid → first = second
  numbered : ∀ session ∈ cluster.live,
    session.id < cluster.created ∧ session.userId = owner session.sid

/-- What a process relies on: it is noted for the keys it has; nothing lives of a conversation it
starts; and the sessions it has taken live and are in no table. -/
structure Relied (owner : String → Option String) (name : ρ) (cluster : Cluster ν ρ)
    (part : Part ν) : Prop where
  held : ∀ sid, cluster.holder sid = some name ↔ part.Holds sid
  starts : ∀ sid userId, part.starts = some (sid, userId) →
    userId = owner sid ∧ ∀ session ∈ cluster.live, session.sid ≠ sid
  taken : ∀ session, part.Takes session → session ∈ cluster.live ∧
    ∀ node sid, (cluster.localAgentLoopsBySid node).get sid ≠ some session

/-- No session is taken by two processes. -/
def Apart (first second : Part ν) : Prop := ∀ session, first.Takes session → ¬ second.Takes session

/-- A step of a process keeps what holds of the cluster, what the process relies on, and what any
other process relies on. -/
structure Keeps (owner : String → Option String) (name : ρ) (before : Cluster ν ρ) (part : Part ν)
    (after : Cluster ν ρ) (next : Part ν) : Prop where
  common : Common owner after
  relied : Relied owner name after next
  others : ∀ other otherPart, other ≠ name → Relied owner other before otherPart →
    Apart part otherPart → Relied owner other after otherPart ∧ Apart next otherPart

variable {userId : Option String}

section Steps

variable (owner : String → Option String) (name : ρ)

variable {before : Cluster ν ρ}

/-- Steps of a process one after the other. -/
theorem keeps_trans {middle after : Cluster ν ρ} {part next last : Part ν}
    (first : Keeps owner name before part middle next)
    (second : Keeps owner name middle next after last) :
    Keeps owner name before part after last where
  common := second.common
  relied := second.relied
  others := by
    intro other otherPart different relied apart
    obtain ⟨reliedNext, apartNext⟩ := first.others other otherPart different relied apart
    exact second.others other otherPart different reliedNext apartNext

/-- A step that leaves keys, tables and sessions alone, in a process that does no more than
before. -/
theorem keeps_same {after : Cluster ν ρ} {part next : Part ν} (common : Common owner before)
    (relied : Relied owner name before part) (keys : after.keys = before.keys)
    (tables : after.localAgentLoopsBySid = before.localAgentLoopsBySid)
    (live : after.live = before.live) (created : after.created = before.created)
    (holder : after.holder = before.holder) (starts : next.starts = part.starts)
    (deletes : next.deletes = part.deletes)
    (closes : next.closes = part.closes ∨ next.closes = none) :
    Keeps owner name before part after next := by
  have takes : ∀ session, next.Takes session → part.Takes session := by
    rintro session (taken | taken)
    · exact .inl (deletes ▸ taken)
    · rcases closes with same | none
      · exact .inr (same ▸ taken)
      · rw [none] at taken
        cases taken
  have reliedAfter : ∀ other otherPart, Relied owner other before otherPart →
      Relied owner other after otherPart := by
    intro other otherPart relied
    constructor
    · rw [holder]
      exact relied.held
    · rw [live]
      exact relied.starts
    · rw [live, tables]
      exact relied.taken
  refine ⟨⟨?_, ?_, ?_, ?_, ?_⟩, ?_, ?_⟩
  · rw [keys, holder, tables]
    exact common.keys
  · rw [holder, tables]
    exact common.held
  · rw [tables, live]
    exact common.tables
  · rw [live]
    exact common.single
  · rw [live, created]
    exact common.numbered
  · have own := reliedAfter name part relied
    refine ⟨fun sid => ?_, starts ▸ own.starts, fun session taken => own.taken session (takes _ taken)⟩
    rw [own.held, Part.Holds, Part.Holds, starts, deletes]
  · exact fun other otherPart _ relied apart =>
      ⟨reliedAfter other otherPart relied, fun session taken => apart session (takes session taken)⟩

/-! ## Keys and tables -/

variable {session : Session ν}

/-- A session in a table is the only one of its conversation that is in a table. -/
theorem tables_single {cluster : Cluster ν ρ} (common : Common owner cluster) {node other : ν}
    {sid : String} {found : Session ν}
    (registered : (cluster.localAgentLoopsBySid node).get sid = some session)
    (second : (cluster.localAgentLoopsBySid other).get sid = some found) :
    found = session ∧ other = node := by
  obtain ⟨lives, named, placed⟩ := common.tables node sid session registered
  obtain ⟨livesToo, namedToo, placedToo⟩ := common.tables other sid found second
  have same := common.single found livesToo session lives (namedToo.trans named.symm)
  exact ⟨same, by rw [← placedToo, same, placed]⟩

/-- A process sets the key of a conversation of which nothing lives. -/
theorem keeps_setKey [DecidableEq ν] (before : Cluster ν ρ) (sid : String)
    (common : Common owner before) (relied : Relied owner name before .idle)
    (unset : (owner sid, sid) ∉ before.keys)
    (gone : ∀ session ∈ before.live, session.sid ≠ sid) :
    Keeps owner name before .idle (before.setKey name (owner sid, sid))
      ⟨some (sid, owner sid), none, none⟩ := by
  have free : before.holder sid = none := by
    by_contra held
    exact unset ((common.keys (owner sid) sid).mpr ⟨rfl, .inl held⟩)
  have absent : ∀ node, (before.localAgentLoopsBySid node).get sid = none := by
    intro node
    cases found : (before.localAgentLoopsBySid node).get sid with
    | none => rfl
    | some session =>
      obtain ⟨lives, named, -⟩ := common.tables node sid session found
      exact absurd named (gone session lives)
  refine ⟨⟨?_, ?_, common.tables, common.single, common.numbered⟩, ⟨?_, ?_, ?_⟩, ?_⟩
  · intro userId other
    by_cases same : other = sid
    · subst same
      have known := common.keys userId other
      constructor
      · intro set
        rcases mem_cons.mp set with new | old
        · cases new
          exact ⟨rfl, .inl (by simp [setKey])⟩
        · exact ⟨(known.mp old).1, .inl (by simp [setKey])⟩
      · rintro ⟨rfl, -⟩
        exact .head _
    · simpa [setKey, same] using common.keys userId other
  · intro other held node
    by_cases same : other = sid
    · exact same ▸ absent node
    · exact common.held other (by simpa [setKey, same] using held) node
  · intro other
    by_cases same : other = sid
    · simp [setKey, Part.Holds, same]
    · have none := relied.held other
      simp [setKey, Part.Holds, Part.idle, same, Ne.symm same] at none ⊢
      exact none
  · rintro other userId started
    cases started
    exact ⟨rfl, gone⟩
  · rintro session (taken | taken) <;> cases taken
  · intro other otherPart different otherRelied apart
    refine ⟨⟨fun third => ?_, otherRelied.starts, otherRelied.taken⟩, ?_⟩
    · rw [← otherRelied.held]
      by_cases same : third = sid
      · simp [setKey, same, free, different.symm]
      · simp [setKey, same]
    · rintro session (taken | taken) <;> cases taken

/-- A process registers a session of the conversation that it starts. -/
theorem keeps_register [DecidableEq ν] (node : ν) (sid : String) (common : Common owner before)
    (relied : Relied owner name before ⟨some (sid, userId), none, none⟩) :
    Keeps owner name before ⟨some (sid, userId), none, none⟩ (before.register node sid userId)
      .idle := by
  obtain ⟨rfl, gone⟩ := relied.starts sid userId rfl
  have held : before.holder sid = some name := (relied.held sid).mpr (.inl rfl)
  have tables : ∀ other third, (((before.register node sid (owner sid)).localAgentLoopsBySid
      other).get third) = if other = node ∧ third = sid then
        some ⟨before.created, node, sid, owner sid⟩
      else (before.localAgentLoopsBySid other).get third := by
    intro other third
    by_cases here : other = node
    · subst here
      by_cases same : third = sid <;> simp [register, release, same]
    · simp [register, release, here]
  have holder : ∀ other, (before.register node sid (owner sid)).holder other =
      if other = sid then none else before.holder other := by
    intro other
    by_cases same : other = sid <;> simp [register, release, same]
  refine ⟨⟨?_, ?_, ?_, ?_, ?_⟩, ⟨?_, ?_, ?_⟩, ?_⟩
  · intro userId other
    have known := common.keys userId other
    simp only [holder, tables]
    change (userId, other) ∈ before.keys ↔ _
    by_cases same : other = sid
    · subst same
      rw [known]
      refine and_congr_right fun _ => ⟨fun _ => .inr ⟨node, _, if_pos ⟨rfl, rfl⟩⟩, fun _ => ?_⟩
      exact .inl (by simp [held])
    · simpa [same] using known
  · intro other holds place
    rw [holder] at holds
    by_cases same : other = sid
    · simp [same] at holds
    · rw [tables, if_neg fun both => same both.2]
      exact common.held other (by simpa [same] using holds) place
  · intro place other session found
    rw [tables] at found
    by_cases both : place = node ∧ other = sid
    · obtain ⟨rfl, rfl⟩ := both
      rw [if_pos ⟨rfl, rfl⟩] at found
      cases found
      exact ⟨.head _, rfl, rfl⟩
    · rw [if_neg both] at found
      obtain ⟨lives, placed⟩ := common.tables place other session found
      exact ⟨.tail _ lives, placed⟩
  · intro first firstLives second secondLives same
    rcases firstLives with _ | ⟨_, firstOld⟩ <;>
      rcases secondLives with _ | ⟨_, secondOld⟩
    · rfl
    · exact absurd same.symm (gone second secondOld)
    · exact absurd same (gone first firstOld)
    · exact common.single first firstOld second secondOld same
  · intro session lives
    rcases lives with _ | ⟨_, old⟩
    · exact ⟨Nat.lt_succ_self _, rfl⟩
    · obtain ⟨earlier, owned⟩ := common.numbered session old
      exact ⟨Nat.lt_succ_of_lt earlier, owned⟩
  · intro other
    have none := relied.held other
    by_cases same : other = sid
    · simp [holder, Part.Holds, Part.idle, same]
    · simp [holder, Part.Holds, Part.idle, same, Ne.symm same] at none ⊢
      exact none
  · rintro other userId started
    cases started
  · rintro session (taken | taken) <;> cases taken
  · intro other otherPart different otherRelied apart
    have free : ¬ otherPart.Holds sid := by
      rw [← otherRelied.held, held]
      simpa using different.symm
    refine ⟨⟨fun third => ?_, fun third userId started => ?_, fun session taken => ?_⟩, ?_⟩
    · rw [holder]
      by_cases same : third = sid
      · simpa [same] using free
      · simpa [same] using otherRelied.held third
    · obtain ⟨owned, none⟩ := otherRelied.starts third userId started
      refine ⟨owned, fun session lives => ?_⟩
      rcases lives with _ | ⟨_, old⟩
      · rintro rfl
        exact free (.inl (by rw [started]; rfl))
      · exact none session old
    · obtain ⟨lives, outside⟩ := otherRelied.taken session taken
      refine ⟨.tail _ lives, fun place third found => ?_⟩
      rw [tables] at found
      by_cases both : place = node ∧ third = sid
      · rw [if_pos both] at found
        cases found
        exact absurd (common.numbered _ lives).1 (Nat.lt_irrefl _)
      · rw [if_neg both] at found
        exact outside place third found
    · rintro session (taken | taken) <;> cases taken

variable {starts : Option (String × Option String)}

/-- A process takes a session from its table. -/
theorem keeps_take [DecidableEq ν] {node : ν} {sid : String} (common : Common owner before)
    (relied : Relied owner name before ⟨starts, none, none⟩)
    (registered : (before.localAgentLoopsBySid node).get sid = some session) :
    Keeps owner name before ⟨starts, none, none⟩ (before.take name node sid).1
      ⟨starts, some session, none⟩ := by
  obtain ⟨lives, named, placed⟩ := common.tables node sid session registered
  have free : before.holder sid = none := by
    by_contra held
    rw [common.held sid held node] at registered
    cases registered
  have onlyHere : ∀ other found, (before.localAgentLoopsBySid other).get sid = some found →
      other = node :=
    fun other found second => (tables_single _ common registered second).2
  have tables : ∀ other third, ((before.take name node sid).1.localAgentLoopsBySid other).get third =
      if third = sid then none else (before.localAgentLoopsBySid other).get third := by
    intro other third
    simp only [Cluster.take, registered]
    by_cases here : other = node
    · subst here
      by_cases same : third = sid <;> simp [same]
    simp only [Function.update_of_ne here]
    by_cases same : third = sid
    · subst same
      rw [if_pos rfl]
      cases found : (before.localAgentLoopsBySid other).get third with
      | none => rfl
      | some second => exact absurd (onlyHere other second found) here
    · rw [if_neg same]
  have holder : ∀ other, (before.take name node sid).1.holder other =
      if other = sid then some name else before.holder other := by
    intro other
    by_cases same : other = sid <;> simp [Cluster.take, registered, same]
  have keys : (before.take name node sid).1.keys = before.keys := by
    simp [Cluster.take, registered]
  have live : (before.take name node sid).1.live = before.live := by
    simp [Cluster.take, registered]
  have created : (before.take name node sid).1.created = before.created := by
    simp [Cluster.take, registered]
  have outside : ∀ other third,
      ((before.take name node sid).1.localAgentLoopsBySid other).get third ≠ some session := by
    intro other third found
    rw [tables] at found
    by_cases same : third = sid
    · simp [same] at found
    · rw [if_neg same] at found
      exact same ((common.tables other third session found).2.1.symm.trans named)
  have stays : ∀ taken, (∀ other third, (before.localAgentLoopsBySid other).get third ≠ some taken) →
      ∀ other third, ((before.take name node sid).1.localAgentLoopsBySid other).get third ≠
        some taken := by
    intro taken absent other third found
    rw [tables] at found
    by_cases same : third = sid
    · simp [same] at found
    · exact absent other third (by simpa [same] using found)
  refine ⟨⟨?_, ?_, ?_, live ▸ common.single, live ▸ created ▸ common.numbered⟩, ⟨?_, ?_, ?_⟩, ?_⟩
  · intro userId other
    have known := common.keys userId other
    simp only [keys, holder, tables]
    by_cases same : other = sid
    · subst same
      rw [known]
      exact and_congr_right fun _ =>
        ⟨fun _ => .inl (by simp), fun _ => .inr ⟨node, session, registered⟩⟩
    · simpa [same] using known
  · intro other held place
    rw [tables]
    by_cases same : other = sid
    · exact if_pos same
    · rw [if_neg same]
      exact common.held other (by simpa [holder, same] using held) place
  · intro place other found second
    rw [tables] at second
    rw [live]
    by_cases same : other = sid
    · simp [same] at second
    · exact common.tables place other found (by simpa [same] using second)
  · intro other
    have known := relied.held other
    by_cases same : other = sid
    · simp [holder, Part.Holds, same, named]
    · simpa [holder, Part.Holds, same, named, Ne.symm same] using known
  · rw [live]
    exact relied.starts
  · rintro taken (taking | taking)
    · cases taking
      exact ⟨live ▸ lives, outside⟩
    · cases taking
  · intro other otherPart different otherRelied apart
    refine ⟨⟨fun third => ?_, live ▸ otherRelied.starts, fun taken taking => ?_⟩, ?_⟩
    · rw [← otherRelied.held, holder]
      by_cases same : third = sid
      · simp [same, free, different.symm]
      · simp [same]
    · obtain ⟨takenLives, absent⟩ := otherRelied.taken taken taking
      exact ⟨live ▸ takenLives, stays taken absent⟩
    · rintro taken (taking | taking) otherTakes
      · cases taking
        exact (otherRelied.taken session otherTakes).2 node sid registered
      · cases taking

/-- A process deletes the key of the session that it has taken. -/
theorem keeps_deleteKey (common : Common owner before)
    (relied : Relied owner name before ⟨starts, some session, none⟩) :
    Keeps owner name before ⟨starts, some session, none⟩ (before.deleteKey session)
      ⟨starts, none, some session⟩ := by
  have lives := (relied.taken session (.inl rfl)).1
  have owned := (common.numbered session lives).2
  have held : before.holder session.sid = some name := (relied.held _).mpr (.inr rfl)
  have absent := common.held session.sid (by simp [held])
  have holder : ∀ other, (before.deleteKey session).holder other =
      if other = session.sid then none else before.holder other := by
    intro other
    by_cases same : other = session.sid <;> simp [deleteKey, release, same]
  have notStarted : starts.map Prod.fst ≠ some session.sid := by
    intro started
    obtain ⟨⟨sid, userId⟩, rfl, same⟩ := Option.map_eq_some_iff.mp started
    exact (relied.starts sid userId rfl).2 session lives same.symm
  refine ⟨⟨?_, ?_, common.tables, common.single, common.numbered⟩, ⟨?_, relied.starts, ?_⟩, ?_⟩
  · intro userId other
    have known := common.keys userId other
    rw [holder]
    change (userId, other) ∈ before.keys.filter _ ↔ _
    rw [mem_filter, known, decide_eq_true_iff]
    by_cases same : other = session.sid
    · subst same
      constructor
      · rintro ⟨⟨ours, -⟩, different⟩
        exact absurd (by rw [ours, Session.key, owned]) different
      · rintro ⟨-, someone | ⟨node, found, registered⟩⟩
        · simp at someone
        · have none := absent node
          rw [show (before.localAgentLoopsBySid node).get session.sid = some found from registered]
            at none
          cases none
    · have different : (userId, other) ≠ session.key := fun equal => same (congrArg Prod.snd equal)
      simp only [same, different, if_false, ne_eq, not_false_eq_true, and_true]
      rfl
  · intro other holds node
    rw [holder] at holds
    by_cases same : other = session.sid
    · simp [same] at holds
    · exact common.held other (by simpa [same] using holds) node
  · intro other
    rw [holder]
    by_cases same : other = session.sid
    · subst same
      simpa [Part.Holds] using notStarted
    · simpa [Part.Holds, same, Ne.symm same] using relied.held other
  · rintro taken (taking | taking)
    · cases taking
    · cases taking
      exact relied.taken session (.inl rfl)
  · intro other otherPart different otherRelied apart
    refine ⟨⟨fun third => ?_, otherRelied.starts, otherRelied.taken⟩, ?_⟩
    · rw [← otherRelied.held, holder]
      by_cases same : third = session.sid
      · subst same
        simp [held, different.symm]
      · simp [same]
    · rintro taken (taking | taking)
      · cases taking
      · exact apart taken (.inl taking)

/-- A session that a process closes is closed. -/
theorem keeps_finish [DecidableEq ν] (common : Common owner before)
    (relied : Relied owner name before ⟨starts, none, some session⟩) :
    Keeps owner name before ⟨starts, none, some session⟩ (before.finish session)
      ⟨starts, none, none⟩ := by
  have outside := (relied.taken session (.inr rfl)).2
  have lives : ∀ other, other ∈ (before.finish session).live ↔ other ∈ before.live ∧
      other ≠ session := by
    intro other
    simp [finish]
  have startsStill : ∀ part : Part ν, (∀ sid userId, part.starts = some (sid, userId) →
      userId = owner sid ∧ ∀ other ∈ before.live, other.sid ≠ sid) →
      ∀ sid userId, part.starts = some (sid, userId) →
        userId = owner sid ∧ ∀ other ∈ (before.finish session).live, other.sid ≠ sid := by
    intro part none sid userId started
    obtain ⟨owned, gone⟩ := none sid userId started
    exact ⟨owned, fun other lived => gone other ((lives other).mp lived).1⟩
  refine ⟨⟨common.keys, common.held, ?_, ?_, ?_⟩, ⟨relied.held, ?_, ?_⟩, ?_⟩
  · intro node sid found registered
    obtain ⟨lived, placed⟩ := common.tables node sid found registered
    refine ⟨(lives found).mpr ⟨lived, ?_⟩, placed⟩
    rintro rfl
    exact outside node sid registered
  · intro first firstLives second secondLives
    exact common.single first ((lives first).mp firstLives).1 second ((lives second).mp secondLives).1
  · exact fun other lived => common.numbered other ((lives other).mp lived).1
  · exact startsStill ⟨starts, none, none⟩ relied.starts
  · rintro taken (taking | taking) <;> cases taking
  · intro other otherPart different otherRelied apart
    refine ⟨⟨otherRelied.held, startsStill otherPart otherRelied.starts, fun taken taking => ?_⟩, ?_⟩
    · obtain ⟨lived, absent⟩ := otherRelied.taken taken taking
      refine ⟨(lives taken).mpr ⟨lived, ?_⟩, absent⟩
      rintro rfl
      exact apart taken (.inr rfl) taking
    · rintro taken (taking | taking) <;> cases taking

end Steps

/-! ## The steps of a process -/

/-- A closing ends with the call that it waits for, unless this is its announcement. -/
def Fails (raised : Bool) : Closing ν → Prop
  | .announcing _ => False
  | .closed => False
  | .failed => True
  | _ => raised = true

instance decidableFails (raised : Bool) (closing : Closing ν) : Decidable (Fails raised closing) := by
  cases closing <;> unfold Fails <;> infer_instance

/-- A closing cannot delete the key of the session that it has taken. -/
def LosesKey (raised : Bool) : Closing ν → Prop
  | .deleting _ => raised = true
  | _ => False

instance decidableLosesKey (raised : Bool) (closing : Closing ν) :
    Decidable (LosesKey raised closing) := by
  cases closing <;> unfold LosesKey <;> infer_instance

variable {closing : Closing ν}

theorem fails_of_losesKey {raised : Bool} (loses : LosesKey raised closing) :
    Fails raised closing := by
  cases closing with
  | deleting session => exact loses
  | _ => exact loses.elim

section Moves

variable [DecidableEq ν] (owner : String → Option String) (name : ρ)

variable (config : Config) {before : Cluster ν ρ} (node : ν) (sid : String)

variable {starts : Option (String × Option String)}

variable (connected : Bool) (common : Common owner before)
include common

theorem keeps_closeSessionLocally (relied : Relied owner name before ⟨starts, none, none⟩) :
    Keeps owner name before ⟨starts, none, none⟩
      (before.closeSessionLocally name node sid connected).1
      (closingPart starts (before.closeSessionLocally name node sid connected).2) := by
  rw [Cluster.closeSessionLocally]
  split
  · exact keeps_same _ _ common relied rfl rfl rfl rfl rfl rfl rfl
      (.inl rfl)
  cases found : (before.localAgentLoopsBySid node).get sid with
  | none =>
    simp only [Cluster.take, found]
    exact keeps_same _ _ common relied rfl rfl rfl rfl rfl rfl rfl
      (.inl rfl)
  | some session =>
    have kept := keeps_take _ _ common relied found
    have next : (before.take name node sid).2 = .deleting session := by
      simp [Cluster.take, found]
    rw [next]
    exact kept

variable {given : Given ν}

/-- A closing takes a session, deletes its key and then closes it. -/
theorem keeps_goOn (relied : Relied owner name before (closingPart starts closing))
    (deletes : ¬ LosesKey given.raised closing) :
    Keeps owner name before (closingPart starts closing) (before.goOn name node given closing).1
      (closingPart starts (before.goOn name node given closing).2) := by
  have same : ∀ after : Cluster ν ρ, ∀ next : Part ν, after.keys = before.keys →
      after.localAgentLoopsBySid = before.localAgentLoopsBySid → after.live = before.live →
      after.created = before.created → after.holder = before.holder →
      next.starts = (closingPart starts closing).starts →
      next.deletes = (closingPart starts closing).deletes →
      (next.closes = (closingPart starts closing).closes ∨ next.closes = none) →
      Keeps owner name before (closingPart starts closing) after next :=
    fun after next => keeps_same _ _ common relied
  cases closing with
  | disconnecting sid =>
    rw [goOn]
    split
    · exact same _ _ rfl rfl rfl rfl rfl rfl rfl (.inl rfl)
    · exact keeps_closeSessionLocally _ _ _ sid _ common
        relied
  | deleting session =>
    have returns : ¬ given.raised = true := deletes
    rw [goOn, if_neg returns]
    exact keeps_deleteKey _ _ common relied
  | announcing session =>
    rw [goOn]
    split <;> exact same _ _ rfl rfl rfl rfl rfl rfl rfl (.inl rfl)
  | closing session =>
    rw [goOn]
    split
    · exact same _ _ rfl rfl rfl rfl rfl rfl rfl (.inr rfl)
    · exact keeps_finish _ _ common relied
  | closed => exact same _ _ rfl rfl rfl rfl rfl rfl rfl (.inl rfl)
  | failed => exact same _ _ rfl rfl rfl rfl rfl rfl rfl (.inl rfl)

omit common

theorem closeSessionLocally_not_failed (before : Cluster ν ρ) (node : ν) (sid : String)
    (connected : Bool) : (before.closeSessionLocally name node sid connected).2 ≠ .failed := by
  rw [closeSessionLocally, Cluster.take]
  split
  · simp
  · split <;> simp

theorem goOn_not_failed (before : Cluster ν ρ) (node : ν) (given : Given ν) (closing : Closing ν)
    (succeeds : ¬ Fails given.raised closing) :
    (before.goOn name node given closing).2 ≠ .failed := by
  cases closing with
  | disconnecting sid =>
    have returns : ¬ given.raised = true := succeeds
    rw [goOn, if_neg returns]
    exact closeSessionLocally_not_failed _ _ _ sid _
  | deleting session =>
    have returns : ¬ given.raised = true := succeeds
    simp [goOn, returns]
  | announcing session => simp [goOn]
  | closing session =>
    have returns : ¬ given.raised = true := succeeds
    simp [goOn, returns]
  | closed => simp [goOn]
  | failed => exact absurd trivial succeeds

omit [DecidableEq ν] in
@[simp] theorem partOf_closed (closing : Closing ν) :
    partOf (closed node closing) = closingPart none closing := by
  cases closing <;> rfl

omit [DecidableEq ν] in
/-- The limit is never below one, so that there is a conversation to close where it is reached. -/
@[simp] theorem turnPart_evict (userId : Option String) (conversations : List ConversationMetadata)
    :
    turnPart (evict config node sid userId conversations) = ⟨some (sid, userId), none, none⟩ := by
  rw [evict]
  split
  · rename_i full
    cases last : conversations.getLast? with
    | some oldest => rfl
    | none =>
      rw [getLast?_eq_none_iff.mp last] at full
      simp at full
  · rfl

omit [DecidableEq ν] in
theorem turnPart_evicted (userId : Option String) (rest : List ConversationMetadata)
    (succeeds : closing ≠ .failed) :
    turnPart (evicted config node sid userId rest closing) =
      closingPart (some (sid, userId)) closing := by
  cases closing with
  | closed => exact turnPart_evict ..
  | failed => exact absurd rfl succeeds
  | _ => rfl

/-- A start that has set the key ends with the call that it waits for. -/
def StartFails (raised : Bool) : Stage ν → Prop
  | .evicting _ closing => Fails raised closing
  | _ => raised = true

omit [DecidableEq ν] in
instance decidableStartFails (raised : Bool) (stage : Stage ν) :
    Decidable (StartFails raised stage) := by
  cases stage <;> unfold StartFails <;> infer_instance

/-- What is assumed of a step. A key is set where it is not set only for the user of the
conversation and when no session of it is still being closed; what comes between setting the key
and registering the session succeeds, and so does deleting a key; and a pipeline sets only keys
that are set. -/
def Careful (_ : ρ) (cluster : Cluster ν ρ) : Phase ν → Given ν → Prop
  | .setting _ sid userId, given => given.raised = false → (userId, sid) ∉ cluster.keys →
      userId = owner sid ∧ ∀ session ∈ cluster.live, session.sid ≠ sid
  | .starting _ _ _ stage, given => ¬ StartFails given.raised stage ∧ given.constructs = true
  | .closing _ closing, given => ¬ LosesKey given.raised closing
  | .executing pipeline, given => given.raised = false → ∀ key ∈ pipeline, key ∈ cluster.keys
  | _, _ => True

local instance lawfulKeys : LawfulBEq (Option String × String) := inferInstance

omit [DecidableEq ν] in
instance decidableCareful (cluster : Cluster ν ρ) (phase : Phase ν) (given : Given ν) :
    Decidable (Careful owner name cluster phase given) := by
  cases phase <;> unfold Careful <;> infer_instance

variable (relied : Relied owner name before .idle)
include common relied

omit [DecidableEq ν] in
/-- A step that changes nothing, of a process that has nothing to do with sessions before and
after. -/
theorem keeps_idle : Keeps owner name before .idle before .idle :=
  keeps_same _ _ common relied rfl rfl rfl rfl rfl rfl rfl
    (.inl rfl)

/-- A conversation is closed by a process that has nothing to do with sessions before. -/
theorem keeps_closing :
    Keeps owner name before .idle (before.closeSessionLocally name node sid connected).1
      (partOf (closed node (before.closeSessionLocally name node sid connected).2)) := by
  rw [partOf_closed]
  exact keeps_closeSessionLocally _ _ _ sid _ common relied

omit common relied

omit [DecidableEq ν] in
theorem keeps_publish (message : Message) {part : Part ν} (common : Common owner before)
    (relied : Relied owner name before part) :
    Keeps owner name before part (before.publish message) part :=
  keeps_same _ _ common relied rfl rfl rfl rfl rfl
    rfl rfl (.inl rfl)

include common in
theorem keeps_start {node : ν} {sid : String} {stage : Stage ν}
    (relied : Relied owner name before (partOf (.starting node sid userId stage)))
    (succeeds : ¬ StartFails given.raised stage) :
    Keeps owner name before (partOf (.starting node sid userId stage))
      (before.start config name node sid userId given stage).1
      (turnPart (before.start config name node sid userId given stage).2) := by
  cases stage with
  | counting =>
    have returns : ¬ given.raised = true := succeeds
    rw [start, if_neg returns]
    split <;> exact keeps_same _ _ common relied rfl rfl rfl rfl rfl rfl rfl
      (.inl rfl)
  | listing =>
    have returns : ¬ given.raised = true := succeeds
    rw [start, if_neg returns, turnPart_evict]
    exact keeps_same _ _ common relied rfl rfl rfl rfl rfl rfl rfl
      (.inl rfl)
  | notifying oldest rest =>
    have returns : ¬ given.raised = true := succeeds
    rw [start, if_neg returns]
    exact keeps_same _ _ common relied rfl rfl rfl rfl rfl rfl rfl
      (.inl rfl)
  | publishing oldest rest =>
    have returns : ¬ given.raised = true := succeeds
    rw [start, if_neg returns, turnPart_evicted _ _ sid _ _
      (closeSessionLocally_not_failed _ _ _ _ _)]
    have published := keeps_publish owner name (.closeSession oldest) common relied
    exact keeps_trans _ _ published
      (keeps_closeSessionLocally _ _ _ _ _ published.common published.relied)
  | evicting rest closing =>
    have goesOn := goOn_not_failed name before node given closing succeeds
    have kept := keeps_goOn _ name node common relied
      (fun loses => succeeds (fails_of_losesKey loses))
    have next : before.start config name node sid userId given (.evicting rest closing) =
        ((before.goOn name node given closing).1,
          evicted config node sid userId rest (before.goOn name node given closing).2) := by
      rw [start]
      split
      · rename_i failed
        exact absurd failed goesOn
      · rfl
    rw [next, turnPart_evicted _ _ sid _ _ goesOn]
    exact kept

theorem keeps_begin (before : Cluster ν ρ) (given : Given ν) (request : Request ν)
    (common : Common owner before) (relied : Relied owner name before .idle) :
    Keeps owner name before .idle (before.begin name given request).1
      (turnPart (before.begin name given request).2) := by
  cases request with
  | maybeStartAgentLoop node sid userId => exact keeps_idle _ _ common relied
  | closeSession node sid => exact keeps_idle _ _ common relied
  | closeSessionLocally node sid => exact keeps_closing _ _ _ sid _ common relied
  | updateStateInRedis node => exact keeps_idle _ _ common relied
  | deliver node message =>
    cases message with
    | closeSession sid =>
      rw [begin]
      split
      · exact keeps_closing _ _ _ sid _ common relied
      · exact keeps_idle _ _ common relied
    | sessionClosing sid userId => exact keeps_idle _ _ common relied

omit [DecidableEq ν] in
/-- A pipeline that sets only keys that are set changes nothing. -/
theorem execute_set {pipeline : List Key} (set : ∀ key ∈ pipeline, key ∈ before.keys) :
    before.execute pipeline = before := by
  have keys : pipeline.foldl (fun keys key => keys.insert key) before.keys = before.keys := by
    induction pipeline with
    | nil => rfl
    | cons key rest ih =>
      rw [foldl_cons, insert_of_mem (set key (.head _))]
      exact ih fun other listed => set other (.tail _ listed)
  rw [execute, keys]

theorem keeps_resume (before : Cluster ν ρ) (phase : Phase ν) (given : Given ν)
    (common : Common owner before) (relied : Relied owner name before (partOf phase))
    (careful : Careful owner name before phase given) :
    Keeps owner name before (partOf phase) (before.resume config name given phase).1
      (turnPart (before.resume config name given phase).2) := by
  cases phase with
  | idle =>
    rw [resume]
    cases given.request with
    | none => exact keeps_idle _ _ common relied
    | some request => exact keeps_begin _ _ _ _ _ common relied
  | setting node sid userId =>
    rw [resume]
    split
    · exact keeps_idle _ _ common relied
    rename_i returns
    split
    · split <;> exact keeps_idle _ _ common relied
    · rename_i unset
      obtain ⟨rfl, gone⟩ := careful (by simpa using returns) unset
      exact keeps_setKey _ _ _ sid common relied unset gone
  | starting node sid userId stage => exact keeps_start _ _ _ common relied careful.1
  | reading sid userId =>
    rw [resume]
    split
    · exact keeps_idle _ _ common relied
    · split <;> exact keeps_idle _ _ common relied
  | publishing node sid =>
    rw [resume]
    split
    · exact keeps_idle _ _ common relied
    have published := keeps_publish owner name (.closeSession sid) common relied
    exact keeps_trans _ _ published
      (keeps_closing _ _ _ sid _
        published.common published.relied)
  | closing node closing =>
    rw [resume]
    change Keeps owner name before (closingPart none closing)
      (before.goOn name node given closing).1
      (partOf (closed node (before.goOn name node given closing).2))
    rw [partOf_closed]
    exact keeps_goOn _ _ _ common relied careful
  | scanning node =>
    rw [resume]
    split
    · exact keeps_idle _ _ common relied
    · split <;> exact keeps_idle _ _ common relied
  | executing pipeline =>
    rw [resume]
    split
    · exact keeps_idle _ _ common relied
    · rename_i returns
      rw [execute_set (careful (by simpa using returns))]
      exact keeps_idle _ _ common relied
  | answered answer => exact keeps_idle _ _ common relied

/-- Only a start that has set the key comes to the creation of a session. -/
theorem starting_of_creating {config : Config} {phase : Phase ν} {node : ν} {sid : String}
    (creating : (before.resume config name given phase).2 = .creating node sid userId) :
    ∃ node sid userId stage, phase = .starting node sid userId stage := by
  cases phase with
  | starting node sid userId stage => exact ⟨node, sid, userId, stage, rfl⟩
  | idle =>
    rw [resume] at creating
    cases request : given.request with
    | none => simp [request] at creating
    | some asked =>
      rw [request] at creating
      cases asked with
      | deliver node message =>
        cases message with
        | closeSession sid =>
          simp only [begin] at creating
          split at creating <;> cases creating
        | sessionClosing sid userId => cases creating
      | _ => cases creating
  | setting node sid userId =>
    simp only [resume] at creating
    split at creating
    · cases creating
    · split at creating
      · split at creating <;> cases creating
      · cases creating
  | reading sid userId =>
    simp only [resume] at creating
    split at creating
    · cases creating
    · split at creating <;> cases creating
  | publishing node sid =>
    simp only [resume] at creating
    split at creating <;> cases creating
  | closing node closing => cases creating
  | scanning node =>
    simp only [resume] at creating
    split at creating
    · cases creating
    · split at creating <;> cases creating
  | executing pipeline =>
    simp only [resume] at creating
    split at creating <;> cases creating
  | answered answer => cases creating

include common in
/-- A careful step of a process. -/
theorem keeps_move {phase : Phase ν} (relied : Relied owner name before (partOf phase))
    (careful : Careful owner name before phase given) :
    Keeps owner name before (partOf phase) (move config name before phase given).1
      (partOf (move config name before phase given).2) := by
  have kept := keeps_resume owner name config before phase given common relied careful
  rw [move]
  cases turn : (before.resume config name given phase).2 with
  | waiting next =>
    rw [turn] at kept
    exact kept
  | creating node sid userId =>
    obtain ⟨place, other, user, stage, rfl⟩ := starting_of_creating _ turn
    have constructs : given.constructs = true := careful.2
    rw [turn] at kept
    rw [settle, if_pos constructs]
    exact keeps_trans _ _ kept
      (keeps_register _ _ _ sid kept.common kept.relied)

end Moves

/-! ## Runs -/

/-- No conversation has two sessions that were started and are not closed yet. -/
def SingleSession (cluster : Cluster ν ρ) : Prop :=
  ∀ first ∈ cluster.live, ∀ second ∈ cluster.live, first.sid = second.sid → first = second

/-- A process is asked nothing, or has answered. -/
def isQuiet : Phase ν → Bool
  | .idle => true
  | .answered _ => true
  | _ => false

/-- No operation is in progress. -/
def Quiet (world : World (Cluster ν ρ) ρ (Phase ν)) : Prop := ∀ name, isQuiet (world.phases name)

theorem partOf_of_isQuiet (phase : Phase ν) (quiet : isQuiet phase) : partOf phase = .idle := by
  cases phase with
  | idle => rfl
  | answered answer => rfl
  | _ => cases quiet

/-- The key of a conversation is set exactly when one node has a loop for it. -/
def KeysMatch (owner : String → Option String) (cluster : Cluster ν ρ) : Prop :=
  ∀ sid, (owner sid, sid) ∈ cluster.keys ↔
    ∃! node, ((cluster.localAgentLoopsBySid node).get sid).isSome

variable [DecidableEq ν] [DecidableEq ρ] (owner : String → Option String) (config : Config)

variable (world : World (Cluster ν ρ) ρ (Phase ν))

theorem sound_step (label : ρ × Given ν)
    (sound : Sound (Common owner) (fun name cluster phase => Relied owner name cluster (partOf phase))
      (fun first second => Apart (partOf first) (partOf second)) world)
    (careful : Assuming (Careful owner) world label) :
    Sound (Common owner) (fun name cluster phase => Relied owner name cluster (partOf phase))
      (fun first second => Apart (partOf first) (partOf second)) (step config world label) := by
  refine advance_sound _ _ ?_ ?_ ?_ sound careful
  · exact fun first second apart session taken takenToo => apart session takenToo taken
  · intro name cluster phase given common relied met
    have kept := keeps_move owner name config common relied met
    exact ⟨kept.common, kept.relied⟩
  · intro name other cluster phase otherPhase given different common relied otherRelied apart met
    exact (keeps_move _ _ _ common relied met).others other
      (partOf otherPhase) different otherRelied apart

omit [DecidableEq ν] [DecidableEq ρ] in
theorem initial_sound :
    Sound (Common owner) (fun name cluster phase => Relied owner name cluster (partOf phase))
      (fun first second => Apart (partOf first) (partOf second))
      (initial : World (Cluster ν ρ) ρ (Phase ν)) := by
  refine ⟨⟨?_, ?_, ?_, ?_, ?_⟩, fun name => ⟨?_, ?_, ?_⟩, ?_⟩
  · simp [initial]
  · simp [initial]
  · simp [initial]
  · simp [initial]
  · simp [initial]
  · simp [initial, partOf, Part.Holds, Part.idle]
  · rintro sid userId started
    cases started
  · rintro session (taken | taken) <;> cases taken
  · rintro first second - session (taken | taken) <;> cases taken

omit [DecidableEq ν] [DecidableEq ρ] in
/-- Where no operation is in progress, keys are held by nobody. -/
theorem keys_match_of_quiet (sound : Sound (Common owner)
      (fun name cluster phase => Relied owner name cluster (partOf phase))
      (fun first second => Apart (partOf first) (partOf second)) world) (quiet : Quiet world) :
    KeysMatch owner world.shared := by
  have common := sound.common
  have free : ∀ sid, world.shared.holder sid = none := by
    intro sid
    cases held : world.shared.holder sid with
    | none => rfl
    | some name =>
      have holds := ((sound.relied name).held sid).mp held
      rw [partOf_of_isQuiet _ (quiet name)] at holds
      rcases holds with none | none <;> cases none
  intro sid
  rw [common.keys]
  constructor
  · rintro ⟨-, held | ⟨node, session, registered⟩⟩
    · exact absurd (free sid) held
    · refine ⟨node, by simp [registered], fun other isSome => ?_⟩
      obtain ⟨found, second⟩ := Option.isSome_iff_exists.mp isSome
      exact (tables_single _ common registered second).2
  · rintro ⟨node, isSome, -⟩
    obtain ⟨session, registered⟩ := Option.isSome_iff_exists.mp isSome
    exact ⟨rfl, .inr ⟨node, session, registered⟩⟩

/-- Along every careful run, no conversation has two sessions at once, and whenever no operation is
in progress, the key of a conversation is set exactly when one node has a loop for it. -/
theorem single_agent_loop (labels : List (ρ × Given ν))
    (careful : Along (step config) (Assuming (Careful owner)) initial labels)
    (world : World (Cluster ν ρ) ρ (Phase ν)) (reached : Reached (step config) initial labels world) :
    SingleSession world.shared ∧ (Quiet world → KeysMatch owner world.shared) := by
  have sound := invariant_along _ _ _
    (fun world label sound met => sound_step _ _ _ _ sound met) _ _
    (initial_sound _) careful _ reached
  exact ⟨sound.common.single, keys_match_of_quiet _ _ sound⟩

local instance threeProcesses : NeZero (2 + 1) := ⟨by decide⟩

/-- Conversation `a` is started on node `false`, and again on node `true` once its key is deleted:
the session on node `false` is still to be closed. -/
def startedWhileClosing : List (Fin 3 × Given Bool) :=
  [(0, { request := some (.maybeStartAgentLoop false "a" (some "user")) }), (0, {}), (0, {}),
    (1, { request := some (.closeSessionLocally false "a") }), (1, {}),
    (2, { request := some (.maybeStartAgentLoop true "a" (some "user")) }), (2, {}), (2, {})]

/-- The keys of node `false` are refreshed by a pipeline that was built before conversation `a` was
closed there. -/
def refreshedLate : List (Fin 3 × Given Bool) :=
  [(0, { request := some (.maybeStartAgentLoop false "a" (some "user")) }), (0, {}), (0, {}),
    (1, { request := some (.updateStateInRedis false) }), (1, {}),
    (2, { request := some (.closeSessionLocally false "a") }), (2, {}), (2, {}), (2, {}), (1, {})]

/-- Two sessions of a conversation live at once, and a key stays of which no node has a loop. -/
theorem started_while_closing :
    ¬ SingleSession (run (step ⟨3⟩) initial startedWhileClosing).shared ∧
      Quiet (run (step ⟨3⟩) initial refreshedLate) ∧
      ¬ KeysMatch (fun _ => some "user") (run (step ⟨3⟩) initial refreshedLate).shared := by
  refine ⟨?_, ?_, ?_⟩
  · unfold SingleSession
    decide +kernel
  · unfold Quiet
    decide +kernel
  · intro matching
    have only := (matching "a").mp (by decide +kernel)
    obtain ⟨node, registered, -⟩ := only
    revert node
    decide +kernel

/-- Conversation `a` is started on node `false` and refreshed there; node `true` asks for it to be
closed, and starts it once it is. -/
def moved : List (Fin 5 × Given Bool) :=
  [(0, { request := some (.maybeStartAgentLoop false "a" (some "user")) }), (0, {}), (0, {}),
    (1, { request := some (.updateStateInRedis false) }), (1, {}), (1, {}),
    (2, { request := some (.closeSession true "a") }), (2, {}),
    (3, { request := some (.deliver false (.closeSession "a")) }), (3, {}), (3, {}), (3, {}),
    (4, { request := some (.maybeStartAgentLoop true "a" (some "user")) }), (4, {}), (4, {})]

theorem single_agent_loop_moved : SingleSession (run (step ⟨3⟩) initial moved).shared ∧
      KeysMatch (fun _ => some "user") (run (step ⟨3⟩) initial moved).shared ∧
      ((run (step ⟨3⟩) initial moved).shared.localAgentLoopsBySid true).get "a" =
        some ⟨1, true, "a", some "user"⟩ := by
  have loops := single_agent_loop (fun _ => some "user") ⟨3⟩ moved (by decide +kernel) _
    (reached_run _ _ _)
  refine ⟨loops.1, loops.2 ?_, by decide +kernel⟩
  unfold Quiet
  decide +kernel

end ForgePilot.SingleAgentLoop
