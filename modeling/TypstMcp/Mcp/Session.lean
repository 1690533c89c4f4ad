/-
Mcp.Session -- a bounded wrapper around an in-memory session manager

Any number of tasks create, restore and close sessions, interleaved at their await
points.  A create or restore owns the creation mutex from `acquire` to its end; a
close takes no part in it.  Of the inner manager it is assumed that a create adds one
session under a new id, a restore at most one, and nothing else any.

* `sessions_capped`: in every run there are at most `maxSessions` sessions, a call
  refused for capacity has added none, and a restore is refused for capacity only
  where its own look-up missed the id.
-/
import TypstMcp.Theory.Play

namespace TypstMcp.Mcp

open TypstMcp.Theory

set_option autoImplicit false
set_option linter.unusedSectionVars false

/-! ## Tasks and actions -/

inductive Call (Id : Type)
  | create
  | restore (id : Id)
  | close (id : Id)
  deriving DecidableEq

/-- What the inner manager's restore came to. -/
inductive RestoreOutcome
  | restored
  | alreadyPresent
  | notSupported
  deriving DecidableEq

inductive Answer (Id : Type)
  | created (id : Id)
  | restore (outcome : RestoreOutcome)
  | closed
  /-- `MCP session capacity reached`. -/
  | capacity
  /-- The inner manager failed. -/
  | failed
  deriving DecidableEq

/-- Where a call stands. -/
inductive Pc (Id : Type)
  /-- Waiting for the creation mutex. -/
  | locking
  /-- Owning it, about to ask whether the session is there. -/
  | lookingUp
  /-- Owning it, about to read the number of sessions. -/
  | checking
  /-- Owning it, inside the inner create or restore. -/
  | adding
  /-- Owning it, the inner call over but for its answer. -/
  | returning (answer : Answer Id)
  /-- About to remove the session. -/
  | closing
  /-- The session removed, its worker not yet stopped. -/
  | stopping
  | done (answer : Answer Id)
  /-- The future was dropped. -/
  | dropped
  deriving DecidableEq

namespace Pc

variable {Id : Type}

/-- The creation mutex is held. -/
def Owns : Pc Id → Prop
  | locking | closing | stopping | done _ | dropped => False
  | lookingUp | checking | adding | returning _ => True

/-- The call may have added a session. -/
def Past : Pc Id → Prop
  | returning answer | done answer => answer ≠ .capacity
  | dropped => True
  | _ => False

/-- The call is about to read the number of sessions, or was refused for it. -/
def Counts : Pc Id → Prop
  | checking => True
  | returning answer | done answer => answer = .capacity
  | _ => False

instance : DecidablePred (@Owns Id) := fun pc => by
  cases pc <;> first | exact isTrue trivial | exact isFalse id

end Pc

/-- One manager and the calls running on it; `T` names the calls. -/
structure Manager (Id T : Type) where
  sessions : Finset Id := ∅
  creation : Option T := none
  tasks : T → Option (Call Id × Pc Id) := fun _ => none
  /-- Which call added which session, newest first; for the statements only. -/
  log : List (T × Id) := []

inductive Action (Id T : Type)
  | call (t : T) (call : Call Id)
  | acquire (t : T)
  | lookUp (t : T)
  | check (t : T)
  /-- The inner create adds a session under a new id. -/
  | create (t : T) (id : Id)
  /-- The inner restore adds at most one. -/
  | restore (t : T) (added : Option Id) (outcome : RestoreOutcome)
  | remove (t : T)
  | finish (t : T)
  /-- An inner call fails, having added nothing. -/
  | fail (t : T)
  /-- The future is dropped at an await point. -/
  | drop (t : T)
  /-- The inner manager gives a session up by itself. -/
  | lose (id : Id)
  deriving DecidableEq

section Act

variable {Id T : Type} [DecidableEq Id] [DecidableEq T]

namespace Manager

def goto (m : Manager Id T) (t : T) (call : Call Id) (pc : Pc Id) : Manager Id T :=
  { m with tasks := Function.update m.tasks t (some (call, pc)) }

/-- Moved on, the guard of the creation mutex dropped. -/
def release (m : Manager Id T) (t : T) (call : Call Id) (pc : Pc Id) : Manager Id T :=
  { m.goto t call pc with creation := none }

def acquire (m : Manager Id T) (t : T) (call : Call Id) (pc : Pc Id) : Manager Id T :=
  { m.goto t call pc with creation := some t }

/-- The inner manager's map, and the log, with what a call added. -/
def add (m : Manager Id T) (t : T) : Option Id → Manager Id T
  | none => m
  | some id => { m with sessions := insert id m.sessions, log := (t, id) :: m.log }

def remove (m : Manager Id T) (id : Id) : Manager Id T :=
  { m with sessions := m.sessions.erase id }

end Manager

/-- Where a call begins. -/
def Call.begin : Call Id → Pc Id
  | create | restore _ => .locking
  | close _ => .closing

/-- One action, `none` where it is disabled. -/
def act (maxSessions : Nat) (m : Manager Id T) : Action Id T → Option (Manager Id T)
  | .call t call =>
      match m.tasks t with
      | none => some (m.goto t call call.begin)
      | some _ => none
  | .acquire t =>
      match m.tasks t, m.creation with
      | some (.create, .locking), none => some (m.acquire t .create .checking)
      | some (.restore id, .locking), none => some (m.acquire t (.restore id) .lookingUp)
      | _, _ => none
  | .lookUp t =>
      match m.tasks t with
      | some (.restore id, .lookingUp) =>
          if id ∈ m.sessions then
            some (m.release t (.restore id) (.done (.restore .alreadyPresent)))
          else some (m.goto t (.restore id) .checking)
      | _ => none
  | .check t =>
      match m.tasks t with
      | some (call, .checking) =>
          if maxSessions ≤ m.sessions.card then some (m.release t call (.done .capacity))
          else some (m.goto t call .adding)
      | _ => none
  | .create t id =>
      match m.tasks t with
      | some (.create, .adding) =>
          if id ∈ m.sessions then none
          else some ((m.add t (some id)).goto t .create (.returning (.created id)))
      | _ => none
  | .restore t added outcome =>
      match m.tasks t with
      | some (.restore id, .adding) =>
          some ((m.add t added).goto t (.restore id) (.returning (.restore outcome)))
      | _ => none
  | .remove t =>
      match m.tasks t with
      | some (.close id, .closing) => some ((m.remove id).goto t (.close id) .stopping)
      | _ => none
  | .finish t =>
      match m.tasks t with
      | some (call, .returning answer) => some (m.release t call (.done answer))
      | some (call, .stopping) => some (m.goto t call (.done .closed))
      | _ => none
  | .fail t =>
      match m.tasks t with
      | some (call, .lookingUp) | some (call, .adding) => some (m.release t call (.done .failed))
      | some (call, .closing) | some (call, .stopping) => some (m.goto t call (.done .failed))
      | _ => none
  | .drop t =>
      match m.tasks t with
      | none | some (_, .done _) | some (_, .dropped) => none
      | some (call, pc) =>
          if pc.Owns then some (m.release t call .dropped) else some (m.goto t call .dropped)
  | .lose id => some (m.remove id)

/-- Everything an action can do. -/
inductive Stepped (maxSessions : Nat) (m : Manager Id T) : Action Id T → Manager Id T → Prop
  | call {t : T} {call : Call Id} (free : m.tasks t = none) :
      Stepped maxSessions m (.call t call) (m.goto t call call.begin)
  | create {t : T} (stood : m.tasks t = some (.create, .locking)) (free : m.creation = none) :
      Stepped maxSessions m (.acquire t) (m.acquire t .create .checking)
  | restore {t : T} {id : Id} (stood : m.tasks t = some (.restore id, .locking))
      (free : m.creation = none) :
      Stepped maxSessions m (.acquire t) (m.acquire t (.restore id) .lookingUp)
  | found {t : T} {id : Id} (stood : m.tasks t = some (.restore id, .lookingUp))
      (present : id ∈ m.sessions) :
      Stepped maxSessions m (.lookUp t)
        (m.release t (.restore id) (.done (.restore .alreadyPresent)))
  | missed {t : T} {id : Id} (stood : m.tasks t = some (.restore id, .lookingUp))
      (absent : id ∉ m.sessions) :
      Stepped maxSessions m (.lookUp t) (m.goto t (.restore id) .checking)
  | refused {t : T} {call : Call Id} (stood : m.tasks t = some (call, .checking))
      (full : maxSessions ≤ m.sessions.card) :
      Stepped maxSessions m (.check t) (m.release t call (.done .capacity))
  | allowed {t : T} {call : Call Id} (stood : m.tasks t = some (call, .checking))
      (room : m.sessions.card < maxSessions) :
      Stepped maxSessions m (.check t) (m.goto t call .adding)
  | added {t : T} {call : Call Id} {action : Action Id T} {added : Option Id} {answer : Answer Id}
      (stood : m.tasks t = some (call, .adding)) (answered : answer ≠ .capacity) :
      Stepped maxSessions m action ((m.add t added).goto t call (.returning answer))
  | removed {t : T} {id : Id} (stood : m.tasks t = some (.close id, .closing)) :
      Stepped maxSessions m (.remove t) ((m.remove id).goto t (.close id) .stopping)
  | returned {t : T} {call : Call Id} {answer : Answer Id}
      (stood : m.tasks t = some (call, .returning answer)) :
      Stepped maxSessions m (.finish t) (m.release t call (.done answer))
  /-- An end that holds no mutex. -/
  | ended {t : T} {call : Call Id} {action : Action Id T} {pc pc' : Pc Id}
      (stood : m.tasks t = some (call, pc)) (idle : ¬ pc.Owns) (idle' : ¬ pc'.Owns)
      (past : pc.Past → pc'.Past) (counts : ¬ pc'.Counts) :
      Stepped maxSessions m action (m.goto t call pc')
  /-- An end that gives the mutex back. -/
  | freed {t : T} {call : Call Id} {action : Action Id T} {pc pc' : Pc Id}
      (stood : m.tasks t = some (call, pc)) (owns : pc.Owns) (idle' : ¬ pc'.Owns)
      (past : pc.Past → pc'.Past) (counts : ¬ pc'.Counts) :
      Stepped maxSessions m action (m.release t call pc')
  | lost {id : Id} : Stepped maxSessions m (.lose id) (m.remove id)

variable {maxSessions : Nat} {m next : Manager Id T} {action : Action Id T}

theorem act_stepped (taken : act maxSessions m action = some next) :
    Stepped maxSessions m action next := by
  cases action with
  | call t call =>
      dsimp only [act] at taken
      split at taken <;> cases taken
      exact .call ‹_›
  | acquire t =>
      dsimp only [act] at taken
      split at taken <;> cases taken
      next stood free => exact .create stood free
      next id stood free => exact .restore stood free
  | lookUp t =>
      dsimp only [act] at taken
      split at taken
      next id stood =>
        split_ifs at taken with present <;> cases taken
        · exact .found stood present
        · exact .missed stood present
      · cases taken
  | check t =>
      dsimp only [act] at taken
      split at taken
      next call stood =>
        split_ifs at taken with full <;> cases taken
        · exact .refused stood full
        · exact .allowed stood (by omega)
      · cases taken
  | create t id =>
      dsimp only [act] at taken
      split at taken
      next stood =>
        split_ifs at taken
        cases taken
        exact .added stood nofun
      · cases taken
  | restore t added outcome =>
      dsimp only [act] at taken
      split at taken <;> cases taken
      exact .added ‹_› nofun
  | remove t =>
      dsimp only [act] at taken
      split at taken <;> cases taken
      exact .removed ‹_›
  | finish t =>
      dsimp only [act] at taken
      split at taken <;> cases taken
      next call answer stood => exact .returned stood
      next call stood => exact .ended stood id id nofun nofun
  | fail t =>
      dsimp only [act] at taken
      split at taken <;> cases taken
      next call stood => exact .freed stood trivial id nofun nofun
      next call stood => exact .freed stood trivial id nofun nofun
      next call stood => exact .ended stood id id nofun nofun
      next call stood => exact .ended stood id id nofun nofun
  | drop t =>
      dsimp only [act] at taken
      split at taken
      · cases taken
      · cases taken
      · cases taken
      next call pc _ _ stood =>
        split_ifs at taken with owns <;> cases taken
        · exact .freed stood owns id (fun _ => trivial) id
        · exact .ended stood owns id (fun _ => trivial) id
  | lose id =>
      cases taken
      exact .lost

theorem tasks_goto {t t' : T} {call call' : Call Id} {pc pc' : Pc Id} :
    (m.goto t call pc).tasks t' = some (call', pc') ↔
      t' = t ∧ call' = call ∧ pc' = pc ∨ t' ≠ t ∧ m.tasks t' = some (call', pc') := by
  unfold Manager.goto
  by_cases same : t' = t
  · subst same
    simp [eq_comm]
  · simp [same]

@[simp] theorem tasks_add (m : Manager Id T) (t : T) (added : Option Id) :
    (m.add t added).tasks = m.tasks := by
  cases added <;> rfl

@[simp] theorem creation_add (m : Manager Id T) (t : T) (added : Option Id) :
    (m.add t added).creation = m.creation := by
  cases added <;> rfl

end Act

/-! ## Who owns the creation mutex -/

section Owned

variable {Id T : Type} [DecidableEq Id] [DecidableEq T] {maxSessions : Nat}
  {m next : Manager Id T} {action : Action Id T}

/-- A call holds the creation mutex. -/
def Holds (m : Manager Id T) (t : T) : Prop := ∃ call pc, m.tasks t = some (call, pc) ∧ pc.Owns

/-- The creation mutex is held by the call that owns it, and by none when none does. -/
def Owned (m : Manager Id T) : Prop := ∀ t, m.creation = some t ↔ Holds m t

theorem holds_of {t : T} {call : Call Id} {pc : Pc Id} (stood : m.tasks t = some (call, pc)) :
    Holds m t ↔ pc.Owns := by
  constructor
  · rintro ⟨_, _, stood', owns⟩
    obtain ⟨-, rfl⟩ := Prod.mk.inj (Option.some.inj (stood'.symm.trans stood))
    exact owns
  · exact fun owns => ⟨call, pc, stood, owns⟩

theorem holds_goto {t t' : T} {call : Call Id} {pc : Pc Id} :
    Holds (m.goto t call pc) t' ↔ t' = t ∧ pc.Owns ∨ t' ≠ t ∧ Holds m t' := by
  unfold Holds
  constructor
  · rintro ⟨call', pc', stood, owns⟩
    obtain ⟨same, -, rfl⟩ | ⟨different, stood⟩ := tasks_goto.1 stood
    · exact .inl ⟨same, owns⟩
    · exact .inr ⟨different, call', pc', stood, owns⟩
  · rintro (⟨same, owns⟩ | ⟨different, call', pc', stood, owns⟩)
    · exact ⟨call, pc, tasks_goto.2 (.inl ⟨same, rfl, rfl⟩), owns⟩
    · exact ⟨call', pc', tasks_goto.2 (.inr ⟨different, stood⟩), owns⟩

/-- A call that keeps its ownership, or has none, moves. -/
theorem Owned.goto (owned : Owned m) {t : T} {call : Call Id} {pc : Pc Id}
    (kept : pc.Owns ↔ Holds m t) : Owned (m.goto t call pc) := by
  intro t'
  show m.creation = some t' ↔ _
  rw [holds_goto, kept]
  by_cases same : t' = t
  · subst same
    simpa using owned t'
  · simpa [same] using owned t'

theorem Owned.acquire (owned : Owned m) {t : T} {call : Call Id} {pc : Pc Id}
    (free : m.creation = none) (owns : pc.Owns) : Owned (m.acquire t call pc) := by
  intro t'
  have none_ : ¬ Holds m t' := fun holds => by
    have := (owned t').2 holds
    rw [free] at this
    cases this
  show some t = some t' ↔ Holds (m.goto t call pc) t'
  rw [holds_goto]
  simp [owns, none_, eq_comm]

theorem Owned.release (owned : Owned m) {t : T} {call : Call Id} {pc : Pc Id}
    (holds : Holds m t) (idle : ¬ pc.Owns) : Owned (m.release t call pc) := by
  intro t'
  show none = some t' ↔ Holds (m.goto t call pc) t'
  rw [holds_goto]
  have other : t' ≠ t → ¬ Holds m t' := fun different holds' =>
    different (Option.some.inj (((owned t').2 holds').symm.trans ((owned t).2 holds)))
  constructor
  · intro none_
    cases none_
  · rintro (⟨-, owns⟩ | ⟨different, holds'⟩)
    · exact absurd owns idle
    · exact absurd holds' (other different)

theorem Owned.add (owned : Owned m) (t : T) (added : Option Id) : Owned (m.add t added) := by
  intro t'
  rw [creation_add, owned t']
  unfold Holds
  rw [tasks_add]

theorem Owned.step (owned : Owned m) (stepped : Stepped maxSessions m action next) :
    Owned next := by
  cases stepped with
  | call free =>
      refine owned.goto (iff_of_false ?_ ?_)
      · rename_i call
        cases call <;> exact id
      · rintro ⟨_, _, stood, -⟩
        rw [free] at stood
        cases stood
  | create stood free => exact owned.acquire free trivial
  | restore stood free => exact owned.acquire free trivial
  | found stood present => exact owned.release ((holds_of stood).2 trivial) id
  | missed stood absent => exact owned.goto (holds_of stood).symm
  | refused stood full => exact owned.release ((holds_of stood).2 trivial) id
  | allowed stood room => exact owned.goto (holds_of stood).symm
  | @added t call action added answer stood =>
      have stood' : (m.add t added).tasks t = _ := (congrFun (tasks_add m t added) t).trans stood
      exact (owned.add t added).goto (holds_of stood').symm
  | @removed t id stood => exact (show Owned (m.remove id) from owned).goto (holds_of stood).symm
  | returned stood => exact owned.release ((holds_of stood).2 trivial) id
  | ended stood idle idle' =>
      exact owned.goto (iff_of_false idle' fun holds => idle ((holds_of stood).1 holds))
  | freed stood owns idle' => exact owned.release ((holds_of stood).2 owns) idle'
  | lost => exact owned

end Owned

/-! ## The number of sessions -/

section Capped

variable {Id T : Type} [DecidableEq Id] [DecidableEq T] {maxSessions : Nat}
  {m next : Manager Id T} {action : Action Id T}

/-- What every run keeps: the number is at most the limit, and below it while a call is inside the
inner manager; a call that has not come past it has added nothing. -/
structure Capped (maxSessions : Nat) (m : Manager Id T) : Prop where
  owned : Owned m
  bound : m.sessions.card ≤ maxSessions
  room : ∀ t call, m.tasks t = some (call, .adding) → m.sessions.card < maxSessions
  logged : ∀ t id, (t, id) ∈ m.log → ∃ call pc, m.tasks t = some (call, pc) ∧ pc.Past

theorem capped_empty (maxSessions : Nat) : Capped maxSessions ({} : Manager Id T) where
  owned t := by simp [Holds]
  bound := by simp
  room t call stood := by cases stood
  logged t id inside := by cases inside

/-- A call moves that is not let into the inner manager. -/
theorem Capped.goto (capped : Capped maxSessions m) {t : T} {call : Call Id} {pc : Pc Id}
    (owned : Owned next) (tasks : next.tasks = (m.goto t call pc).tasks)
    (sessions : next.sessions ⊆ m.sessions) (log : next.log = m.log)
    (room : pc = .adding → m.sessions.card < maxSessions)
    (past : (∃ call' pc', m.tasks t = some (call', pc') ∧ pc'.Past) → pc.Past) :
    Capped maxSessions next where
  owned := owned
  bound := (Finset.card_le_card sessions).trans capped.bound
  room t' call' stood := by
    have fewer := Finset.card_le_card sessions
    rw [tasks] at stood
    obtain ⟨-, -, adding⟩ | ⟨-, stood⟩ := tasks_goto.1 stood
    · have := room adding.symm
      omega
    · have := capped.room t' call' stood
      omega
  logged t' id inside := by
    rw [log] at inside
    obtain ⟨call', pc', stood, past'⟩ := capped.logged t' id inside
    rw [tasks]
    by_cases same : t' = t
    · subst same
      exact ⟨call, pc, tasks_goto.2 (.inl ⟨rfl, rfl, rfl⟩), past ⟨call', pc', stood, past'⟩⟩
    · exact ⟨call', pc', tasks_goto.2 (.inr ⟨same, stood⟩), past'⟩

/-- A call is let go inside, or comes back, having added what it added. -/
theorem Capped.added (capped : Capped maxSessions m) {t : T} {call : Call Id}
    {answer : Answer Id} (added : Option Id) (answered : answer ≠ .capacity)
    (stood : m.tasks t = some (call, .adding))
    (owned : Owned ((m.add t added).goto t call (.returning answer))) :
    Capped maxSessions ((m.add t added).goto t call (.returning answer)) := by
  have room := capped.room t call stood
  -- no other call is inside the inner manager
  have alone : ∀ t' call', m.tasks t' = some (call', .adding) → t' = t := by
    intro t' call' stood'
    have here := (capped.owned t).2 ⟨call, _, stood, trivial⟩
    have there := (capped.owned t').2 ⟨call', _, stood', trivial⟩
    exact Option.some.inj (there.symm.trans here)
  refine ⟨owned, ?_, ?_, ?_⟩
  · cases added with
    | none => exact capped.bound
    | some id =>
        have := Finset.card_insert_le id m.sessions
        show (insert id m.sessions).card ≤ maxSessions
        omega
  · intro t' call' stood'
    obtain ⟨-, -, other⟩ | ⟨different, stood'⟩ := tasks_goto.1 stood'
    · cases other
    · rw [tasks_add] at stood'
      exact absurd (alone t' call' stood') different
  · intro t' id inside
    by_cases same : t' = t
    · subst same
      exact ⟨call, _, tasks_goto.2 (.inl ⟨rfl, rfl, rfl⟩), answered⟩
    · have inside : (t', id) ∈ m.log := by
        cases added with
        | none => exact inside
        | some new =>
            obtain first | later := List.mem_cons.1 inside
            · exact absurd (Prod.mk.inj first).1 same
            · exact later
      obtain ⟨call', pc', stood', past⟩ := capped.logged t' id inside
      rw [← tasks_add m t added] at stood'
      exact ⟨call', pc', tasks_goto.2 (.inr ⟨same, stood'⟩), past⟩

/-- **One action keeps the bound.** -/
theorem Capped.step (capped : Capped maxSessions m)
    (stepped : Stepped maxSessions m action next) : Capped maxSessions next := by
  have owned := capped.owned.step stepped
  have nothing : ∀ {t : T} {call : Call Id} {pc pc' : Pc Id},
      m.tasks t = some (call, pc) → (pc.Past → pc'.Past) →
      (∃ call' pc', m.tasks t = some (call', pc') ∧ pc'.Past) → pc'.Past := by
    rintro t call pc pc' stood past ⟨_, _, stood', was⟩
    obtain ⟨-, rfl⟩ := Prod.mk.inj (Option.some.inj (stood'.symm.trans stood))
    exact past was
  cases stepped with
  | @call t call free =>
      refine capped.goto owned rfl subset_rfl rfl ?_ ?_
      · cases call <;> exact nofun
      · rintro ⟨_, _, stood, -⟩
        rw [free] at stood
        cases stood
  | create stood free =>
      exact capped.goto owned rfl subset_rfl rfl nofun (nothing stood False.elim)
  | restore stood free =>
      exact capped.goto owned rfl subset_rfl rfl nofun (nothing stood False.elim)
  | found stood present =>
      exact capped.goto owned rfl subset_rfl rfl nofun (nothing stood False.elim)
  | missed stood absent =>
      exact capped.goto owned rfl subset_rfl rfl nofun (nothing stood False.elim)
  | refused stood full =>
      exact capped.goto owned rfl subset_rfl rfl nofun (nothing stood False.elim)
  | allowed stood room =>
      exact capped.goto owned rfl subset_rfl rfl (fun _ => room) (nothing stood False.elim)
  | added stood answered => exact capped.added _ answered stood owned
  | @removed t id stood =>
      exact capped.goto owned rfl (Finset.erase_subset id m.sessions) rfl nofun
        (nothing stood False.elim)
  | returned stood => exact capped.goto owned rfl subset_rfl rfl nofun (nothing stood fun past => past)
  | @ended t call action pc pc' stood idle idle' past =>
      refine capped.goto owned rfl subset_rfl rfl ?_ (nothing stood past)
      rintro rfl
      exact absurd trivial idle'
  | @freed t call action pc pc' stood owns idle' past =>
      refine capped.goto owned rfl subset_rfl rfl ?_ (nothing stood past)
      rintro rfl
      exact absurd trivial idle'
  | @lost id =>
      have fewer := Finset.card_le_card (Finset.erase_subset id m.sessions)
      refine ⟨owned, fewer.trans capped.bound, fun t call stood => ?_, capped.logged⟩
      exact fewer.trans_lt (capped.room t call stood)

theorem capped_run {actions : List (Action Id T)} {last : Manager Id T}
    (ran : play (act maxSessions) {} actions = some last) : Capped maxSessions last := by
  have kept : ∀ (m : Manager Id T) action next, Capped maxSessions m → True → act maxSessions m action = some next →
      Capped maxSessions next := fun m action next capped _ taken => capped.step (act_stepped taken)
  exact play_invariant kept (capped_empty maxSessions)
    (every_of_forall (fun _ _ => trivial) _ actions) ran

end Capped

/-! ## Restoring what is there -/

section Restoring

variable {Id T : Type} [DecidableEq Id] [DecidableEq T] {maxSessions : Nat}
  {m next : Manager Id T} {action : Action Id T} {t : T} {id : Id} {pc : Pc Id}

/-- A restore comes to read the number only by a look-up that misses its id. -/
theorem counts_step (stepped : Stepped maxSessions m action next)
    (stood : next.tasks t = some (.restore id, pc)) (counts : pc.Counts) :
    (∃ pc, m.tasks t = some (.restore id, pc) ∧ pc.Counts) ∨
      action = .lookUp t ∧ m.tasks t = some (.restore id, .lookingUp) ∧ id ∉ m.sessions := by
  have elsewhere : ∀ {u : T} {call : Call Id} {pc' : Pc Id}, ¬ pc'.Counts →
      (m.goto u call pc').tasks t = some (.restore id, pc) →
      ∃ pc, m.tasks t = some (.restore id, pc) ∧ pc.Counts := by
    intro u call pc' other stood
    obtain ⟨-, -, rfl⟩ | ⟨-, stood⟩ := tasks_goto.1 stood
    · exact absurd counts other
    · exact ⟨pc, stood, counts⟩
  cases stepped with
  | @call u call free =>
      refine .inl (elsewhere ?_ stood)
      cases call <;> exact nofun
  | @create u was free =>
      obtain ⟨-, other, -⟩ | ⟨-, stood⟩ := tasks_goto.1 stood
      · cases other
      · exact .inl ⟨pc, stood, counts⟩
  | restore was free => exact .inl (elsewhere (by simp [Pc.Counts]) stood)
  | found was present => exact .inl (elsewhere (by simp [Pc.Counts]) stood)
  | @missed u id' was absent =>
      obtain ⟨rfl, same, -⟩ | ⟨-, stood⟩ := tasks_goto.1 stood
      · obtain rfl := Call.restore.inj same
        exact .inr ⟨rfl, was, absent⟩
      · exact .inl ⟨pc, stood, counts⟩
  | @refused u call was full =>
      obtain ⟨rfl, rfl, -⟩ | ⟨-, stood⟩ := tasks_goto.1 stood
      · exact .inl ⟨_, was, trivial⟩
      · exact .inl ⟨pc, stood, counts⟩
  | allowed was room => exact .inl (elsewhere (by simp [Pc.Counts]) stood)
  | @added u call action added answer was answered =>
      obtain ⟨-, -, rfl⟩ | ⟨-, stood⟩ := tasks_goto.1 stood
      · exact absurd counts answered
      · rw [tasks_add] at stood
        exact .inl ⟨pc, stood, counts⟩
  | removed was => exact .inl (elsewhere (by simp [Pc.Counts]) stood)
  | @returned u call answer was =>
      obtain ⟨rfl, rfl, rfl⟩ | ⟨-, stood⟩ := tasks_goto.1 stood
      · exact .inl ⟨_, was, counts⟩
      · exact .inl ⟨pc, stood, counts⟩
  | ended was idle idle' past other => exact .inl (elsewhere other stood)
  | freed was owns idle' past other => exact .inl (elsewhere other stood)
  | lost => exact .inl ⟨pc, stood, counts⟩

/-- In this run the look-up of this restore, made under the mutex, missed its id. -/
def Missed (maxSessions : Nat) (actions : List (Action Id T)) (t : T) (id : Id) : Prop :=
  ∃ before after m, actions = before ++ .lookUp t :: after ∧
    play (act maxSessions) {} before = some m ∧
    m.tasks t = some (.restore id, .lookingUp) ∧ id ∉ m.sessions

theorem counts_missed {actions : List (Action Id T)} {last : Manager Id T}
    (ran : play (act maxSessions) {} actions = some last)
    (stood : last.tasks t = some (.restore id, pc)) (counts : pc.Counts) :
    Missed maxSessions actions t id := by
  -- the last action is the look-up, or the call stood there before it
  induction actions using List.reverseRecOn generalizing last pc with
  | nil =>
      obtain rfl := Option.some.inj ran
      cases stood
  | append_singleton before action ih =>
      obtain ⟨m, earlier, taken⟩ := play_concat.1 ran
      obtain ⟨pc', was, counted⟩ | ⟨rfl, missed⟩ := counts_step (act_stepped taken) stood counts
      · obtain ⟨first, after, n, rfl, reached, missed⟩ := ih earlier was counted
        exact ⟨first, after ++ [action], n, by simp, reached, missed⟩
      · exact ⟨before, [], m, rfl, earlier, missed⟩

/-- **The number of sessions is bounded**, in every run: a call refused for capacity has added none,
and a restore is refused for it only where its own look-up, under the mutex, missed the id. -/
theorem sessions_capped {actions : List (Action Id T)} {last : Manager Id T}
    (ran : play (act maxSessions) {} actions = some last) :
    last.sessions.card ≤ maxSessions ∧
      (∀ t call, last.tasks t = some (call, .done .capacity) → ∀ id, (t, id) ∉ last.log) ∧
      ∀ t id, last.tasks t = some (.restore id, .done .capacity) →
        Missed maxSessions actions t id := by
  have capped := capped_run ran
  refine ⟨capped.bound, fun t call stood id inside => ?_,
    fun t id stood => counts_missed ran stood rfl⟩
  obtain ⟨_, _, stood', past⟩ := capped.logged t id inside
  obtain ⟨-, rfl⟩ := Prod.mk.inj (Option.some.inj (stood'.symm.trans stood))
  exact past rfl

/-- One session is allowed: a second is refused, the first found, a third refused, and the first
closed. -/
def refusals : List (Action Nat Nat) :=
  [.call 0 .create, .call 1 .create, .acquire 0, .check 0, .create 0 7, .call 2 (.restore 7),
    .finish 0, .acquire 1, .check 1, .acquire 2, .lookUp 2, .call 3 (.restore 9), .acquire 3,
    .lookUp 3, .check 3, .call 4 (.close 7), .remove 4, .finish 4]

theorem sessions_capped_refusals :
    ∃ last, play (act 1) {} refusals = some last ∧ last.sessions.card ≤ 1 ∧
      (∀ id, (1, id) ∉ last.log) ∧ Missed 1 refusals 3 9 := by
  obtain ⟨last, ran, refused⟩ := (Option.any_eq_true (fun last : Manager Nat Nat =>
    last.tasks 1 = some (.create, .done .capacity) ∧
      last.tasks 2 = some (.restore 7, .done (.restore .alreadyPresent)) ∧
      last.tasks 3 = some (.restore 9, .done .capacity)) _).1
    (show ((play (act 1) {} refusals).any _) = true by decide +kernel)
  obtain ⟨second, -, third⟩ := of_decide_eq_true refused
  obtain ⟨bound, nothing, missed⟩ := sessions_capped ran
  exact ⟨last, ran, bound, nothing 1 _ second, missed 3 9 third⟩

end Restoring

end TypstMcp.Mcp
