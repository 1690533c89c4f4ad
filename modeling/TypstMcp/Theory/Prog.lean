/-
Theory.Prog -- programs over named calls, alone and interleaved

A program is a finite tree: it has returned, or it makes one call and goes on
with the reply.  The same tree is read in two ways.

* `Prog.Exec`: one program alone, each call answered as a step relation allows.
* `Conf` and `Step`: a pool of programs over one shared state, one call of one
  program at a time, each call answered by a step relation.

`Safe` is the rely/guarantee reading of a program in a pool: whatever the other
threads do within their guarantees, each of this thread's calls stays within
its own, and a returned value meets the postcondition.  `Safe` is defined by
recursion on the program, so a proof of it follows the program's own shape:
one application of `safe_call` for each call, `safe_bind` for a subprogram.

* `reaches_safe`: a pool of safe programs keeps the shared invariant, and every
  thread stays safe.
* `Safe.exec`: a safe program that runs alone meets its postcondition.
-/
import Mathlib.Logic.Relation
import Mathlib.Logic.Function.Basic

namespace TypstMcp.Theory

set_option autoImplicit false

universe u

/-- A program over calls `C`, a call `c` being answered by a reply in `R c`. -/
inductive Prog (C : Type) (R : C → Type) (α : Type) : Type
  | ret (value : α)
  | call (c : C) (next : R c → Prog C R α)

namespace Prog

variable {C : Type} {R : C → Type} {α β γ : Type}

def bind : Prog C R α → (α → Prog C R β) → Prog C R β
  | .ret value, f => f value
  | .call c next, f => .call c fun reply => (next reply).bind f

instance : Monad (Prog C R) where
  pure := .ret
  bind := bind

/-- One call, its reply returned. -/
def perform (c : C) : Prog C R (R c) := .call c .ret

@[simp] theorem pure_eq (value : α) : (pure value : Prog C R α) = .ret value := rfl

@[simp] theorem bind_eq (p : Prog C R α) (f : α → Prog C R β) : p >>= f = p.bind f := rfl

@[simp] theorem ret_bind (value : α) (f : α → Prog C R β) :
    (Prog.ret value : Prog C R α).bind f = f value := rfl

@[simp] theorem call_bind (c : C) (next : R c → Prog C R α) (f : α → Prog C R β) :
    (Prog.call c next).bind f = .call c fun reply => (next reply).bind f := rfl

@[simp] theorem perform_bind (c : C) (f : R c → Prog C R β) :
    (perform c).bind f = .call c f := rfl

theorem bind_assoc (p : Prog C R α) (f : α → Prog C R β) (g : β → Prog C R γ) :
    (p.bind f).bind g = p.bind fun value => (f value).bind g := by
  induction p with
  | ret value => rfl
  | call c next ih => simp only [call_bind, ih]

/-- Every call of the program, on every path, is allowed. -/
def Calls (allowed : C → Prop) : Prog C R α → Prop
  | .ret _ => True
  | .call c next => allowed c ∧ ∀ reply, (next reply).Calls allowed

theorem calls_bind {allowed : C → Prop} {p : Prog C R α} {f : α → Prog C R β}
    (first : p.Calls allowed) (rest : ∀ value, (f value).Calls allowed) :
    (p.bind f).Calls allowed := by
  induction p with
  | ret value => exact rest value
  | call c next ih => exact ⟨first.1, fun reply => ih reply (first.2 reply)⟩

theorem Calls.mono {few many : C → Prop} {p : Prog C R α} (calls : p.Calls few)
    (more : ∀ c, few c → many c) : p.Calls many := by
  induction p with
  | ret value => trivial
  | call c next ih => exact ⟨more c calls.1, fun reply => ih reply (calls.2 reply)⟩

theorem calls_all {allowed : C → Prop} (all : ∀ c, allowed c) (p : Prog C R α) :
    p.Calls allowed := by
  induction p with
  | ret value => trivial
  | call c next ih => exact ⟨all c, ih⟩

/-! ## One program alone -/

section Alone

variable {S : Type u}

/-- The calls of a program answered one after another, each as `step` allows. -/
def Exec (step : (c : C) → S → R c → S → Prop) : Prog C R α → S → α → S → Prop
  | .ret value, s, value', s' => value' = value ∧ s' = s
  | .call c next, s, value, s'' =>
      ∃ reply s', step c s reply s' ∧ (next reply).Exec step s' value s''

variable {step step' : (c : C) → S → R c → S → Prop}

@[simp] theorem exec_ret {value value' : α} {s s' : S} :
    (Prog.ret value : Prog C R α).Exec step s value' s' ↔ value' = value ∧ s' = s := Iff.rfl

@[simp] theorem exec_call {c : C} {next : R c → Prog C R α} {s s'' : S} {value : α} :
    (Prog.call c next).Exec step s value s'' ↔
      ∃ reply s', step c s reply s' ∧ (next reply).Exec step s' value s'' := Iff.rfl

theorem exec_bind {p : Prog C R α} {f : α → Prog C R β} {s s'' : S} {value : β} :
    (p.bind f).Exec step s value s'' ↔
      ∃ mid s', p.Exec step s mid s' ∧ (f mid).Exec step s' value s'' := by
  induction p generalizing s with
  | ret v =>
      constructor
      · intro ran
        exact ⟨v, s, ⟨rfl, rfl⟩, ran⟩
      · rintro ⟨mid, s', ⟨rfl, rfl⟩, ran⟩
        exact ran
  | call c next ih =>
      simp only [call_bind, exec_call, ih]
      constructor
      · rintro ⟨reply, s1, answered, mid, s2, first, rest⟩
        exact ⟨mid, s2, ⟨reply, s1, answered, first⟩, rest⟩
      · rintro ⟨mid, s2, ⟨reply, s1, answered, first⟩, rest⟩
        exact ⟨reply, s1, answered, mid, s2, first, rest⟩

/-- A run whose calls each keep `keeps`, and are answered by `step'` wherever it
holds, is a run over `step'`. -/
theorem Exec.transport {allowed : C → Prop} (keeps : S → Prop)
    (each : ∀ c s reply s', allowed c → keeps s → step c s reply s' →
      step' c s reply s' ∧ keeps s')
    {p : Prog C R α} (calls : p.Calls allowed) {s s' : S} {value : α} (start : keeps s)
    (ran : p.Exec step s value s') : p.Exec step' s value s' ∧ keeps s' := by
  induction p generalizing s with
  | ret v =>
      obtain ⟨rfl, rfl⟩ := ran
      exact ⟨⟨rfl, rfl⟩, start⟩
  | call c next ih =>
      obtain ⟨reply, mid, answered, rest⟩ := ran
      obtain ⟨may, kept⟩ := each c s reply mid calls.1 start answered
      obtain ⟨after, last⟩ := ih reply (calls.2 reply) kept rest
      exact ⟨⟨reply, mid, may, after⟩, last⟩

/-- A run keeps what each of its calls keeps. -/
theorem Exec.keeps {allowed : C → Prop} (keeps : S → Prop)
    (each : ∀ c s reply s', allowed c → keeps s → step c s reply s' → keeps s')
    {p : Prog C R α} (calls : p.Calls allowed) {s s' : S} {value : α} (start : keeps s)
    (ran : p.Exec step s value s') : keeps s' :=
  (ran.transport keeps (fun c s reply s' may kept answered =>
    ⟨answered, each c s reply s' may kept answered⟩) calls start).2

/-- Part of a run: the program has come as far as `s'`. -/
def Begun (step : (c : C) → S → R c → S → Prop) : Prog C R α → S → S → Prop
  | .ret _, s, s' => s' = s
  | .call c next, s, s' => s' = s ∨ ∃ reply mid, step c s reply mid ∧ (next reply).Begun step mid s'

/-- Part of a run of two programs: in the first, or past it and in the second. -/
theorem begun_bind {p : Prog C R α} {f : α → Prog C R β} {s s' : S}
    (begun : (p.bind f).Begun step s s') :
    p.Begun step s s' ∨ ∃ value mid, p.Exec step s value mid ∧ (f value).Begun step mid s' := by
  induction p generalizing s with
  | ret value => exact .inr ⟨value, s, ⟨rfl, rfl⟩, begun⟩
  | call c next ih =>
      rcases begun with rfl | ⟨reply, mid, answered, more⟩
      · exact .inl (.inl rfl)
      · rcases ih reply more with first | ⟨value, mid', ran, rest⟩
        · exact .inl (.inr ⟨reply, mid, answered, first⟩)
        · exact .inr ⟨value, mid', ⟨reply, mid, answered, ran⟩, rest⟩

/-- At every point of a run, what each of its calls keeps. -/
theorem Begun.keeps {allowed : C → Prop} (keeps : S → Prop)
    (each : ∀ c s reply s', allowed c → keeps s → step c s reply s' → keeps s')
    {p : Prog C R α} (calls : p.Calls allowed) {s s' : S} (start : keeps s)
    (begun : p.Begun step s s') : keeps s' := by
  induction p generalizing s with
  | ret value =>
      obtain rfl : s' = s := begun
      exact start
  | call c next ih =>
      cases begun with
      | inl same =>
          subst same
          exact start
      | inr more =>
          obtain ⟨reply, mid, answered, rest⟩ := more
          exact ih reply (calls.2 reply) (each c s reply mid calls.1 start answered) rest

/-- Calls that are always answered leave no program stuck. -/
theorem exec_total {allowed : C → Prop}
    (live : ∀ c s, allowed c → ∃ reply s', step c s reply s')
    {p : Prog C R α} (calls : p.Calls allowed) (s : S) : ∃ value s', p.Exec step s value s' := by
  induction p generalizing s with
  | ret value => exact ⟨value, s, rfl, rfl⟩
  | call c next ih =>
      obtain ⟨reply, mid, answered⟩ := live c s calls.1
      obtain ⟨value, s', rest⟩ := ih reply (calls.2 reply) mid
      exact ⟨value, s', reply, mid, answered, rest⟩

theorem Exec.mono {p : Prog C R α} {s s' : S} {value : α} (ran : p.Exec step s value s')
    (more : ∀ c s reply s', step c s reply s' → step' c s reply s') :
    p.Exec step' s value s' := by
  induction p generalizing s with
  | ret v => exact ran
  | call c next ih =>
      obtain ⟨reply, mid, answered, rest⟩ := ran
      exact ⟨reply, mid, more _ _ _ _ answered, ih reply rest⟩

/-- What runs from one state runs from a state that answers alike. -/
theorem Exec.simulate {S' : Type u} {step' : (c : C) → S' → R c → S' → Prop} {allowed : C → Prop}
    (alike : S → S' → Prop)
    (each : ∀ c s u reply s', allowed c → alike s u → step c s reply s' →
      ∃ u', step' c u reply u' ∧ alike s' u')
    {p : Prog C R α} (calls : p.Calls allowed) {s s' : S} {u : S'} {value : α} (start : alike s u)
    (ran : p.Exec step s value s') : ∃ u', p.Exec step' u value u' ∧ alike s' u' := by
  induction p generalizing s u with
  | ret v =>
      obtain ⟨rfl, rfl⟩ := ran
      exact ⟨u, ⟨rfl, rfl⟩, start⟩
  | call c next ih =>
      obtain ⟨reply, mid, answered, rest⟩ := ran
      obtain ⟨mid', answered', still⟩ := each c s u reply mid calls.1 start answered
      obtain ⟨u', rest', last⟩ := ih reply (calls.2 reply) still rest
      exact ⟨u', ⟨reply, mid', answered', rest'⟩, last⟩

/-- A call and the reply it got. -/
abbrev Event (C : Type) (R : C → Type) := (c : C) × R c

/-- Each call answered as `step` allows, and written down with its reply. -/
def logged (step : (c : C) → S → R c → S → Prop) (c : C) (s : S × List (Event C R)) (reply : R c)
    (s' : S × List (Event C R)) : Prop :=
  step c s.1 reply s'.1 ∧ s'.2 = s.2 ++ [⟨c, reply⟩]

/-- Every run can be written down. -/
theorem Exec.logged {p : Prog C R α} {s s' : S} {value : α} (ran : p.Exec step s value s')
    (past : List (Event C R)) : ∃ log, p.Exec (logged step) (s, past) value (s', log) := by
  induction p generalizing s past with
  | ret v =>
      obtain ⟨rfl, rfl⟩ := ran
      exact ⟨past, rfl, rfl⟩
  | call c next ih =>
      obtain ⟨reply, mid, answered, rest⟩ := ran
      obtain ⟨log, rest⟩ := ih reply rest (past ++ [⟨c, reply⟩])
      exact ⟨log, reply, (mid, past ++ [⟨c, reply⟩]), ⟨answered, rfl⟩, rest⟩

/-- A written run is a run. -/
theorem Exec.unlogged {p : Prog C R α} {s s' : S × List (Event C R)} {value : α}
    (ran : p.Exec (Prog.logged step) s value s') : p.Exec step s.1 value s'.1 := by
  induction p generalizing s with
  | ret v =>
      obtain ⟨rfl, rfl⟩ := ran
      exact ⟨rfl, rfl⟩
  | call c next ih =>
      obtain ⟨reply, mid, ⟨answered, _⟩, rest⟩ := ran
      exact ⟨reply, mid.1, answered, ih reply rest⟩

/-- A log only grows. -/
theorem Exec.grows {p : Prog C R α} {s s' : S × List (Event C R)} {value : α}
    (ran : p.Exec (Prog.logged step) s value s') : s.2 <+: s'.2 := by
  refine ran.keeps (fun mid => s.2 <+: mid.2) ?_ (calls_all (fun _ => trivial) p) (List.prefix_refl _)
  rintro c mid reply mid' _ kept ⟨_, written⟩
  rw [written]
  exact kept.trans (List.prefix_append _ _)

theorem Begun.grows {p : Prog C R α} {s s' : S × List (Event C R)}
    (begun : p.Begun (Prog.logged step) s s') : s.2 <+: s'.2 := by
  refine begun.keeps (fun mid => s.2 <+: mid.2) ?_ (calls_all (fun _ => trivial) p)
    (List.prefix_refl _)
  rintro c mid reply mid' _ kept ⟨_, written⟩
  rw [written]
  exact kept.trans (List.prefix_append _ _)

/-- The program run to its end, each call answered by `handle`, where `enabled` lets it. -/
def play (handle : (c : C) → S → R c × S) (enabled : C → S → Bool) :
    Prog C R α → S → Option (α × S)
  | .ret value, s => some (value, s)
  | .call c next, s =>
      if enabled c s then (next (handle c s).1).play handle enabled (handle c s).2 else none

/-- A run that can be played is a run. -/
theorem exec_of_play {handle : (c : C) → S → R c × S} {enabled : C → S → Bool}
    (answered : ∀ c s, enabled c s = true → step c s (handle c s).1 (handle c s).2)
    {p : Prog C R α} {s s' : S} {value : α} (played : p.play handle enabled s = some (value, s')) :
    p.Exec step s value s' := by
  induction p generalizing s with
  | ret v =>
      obtain ⟨rfl, rfl⟩ := Prod.mk.inj (Option.some.inj played)
      exact ⟨rfl, rfl⟩
  | call c next ih =>
      unfold play at played
      split at played
      · rename_i may
        exact ⟨_, _, answered c s may, ih _ played⟩
      · simp at played

/-- The program run to its end, every call answered by `handle`. -/
def run (handle : (c : C) → S → R c × S) : Prog C R α → S → α × S
  | .ret value, s => (value, s)
  | .call c next, s => (next (handle c s).1).run handle (handle c s).2

@[simp] theorem run_call (handle : (c : C) → S → R c × S) (c : C) (next : R c → Prog C R α)
    (s : S) : (Prog.call c next).run handle s = (next (handle c s).1).run handle (handle c s).2 := rfl

end Alone

/-- The program has nothing left to do. -/
def returned : Prog C R α → Bool
  | .ret _ => true
  | .call .. => false

theorem returned_iff {p : Prog C R α} : p.returned = true ↔ ∃ value, p = .ret value := by
  cases p with
  | ret value => exact ⟨fun _ => ⟨value, rfl⟩, fun _ => rfl⟩
  | call c next => exact ⟨fun same => by simp [returned] at same, fun ⟨_, same⟩ => by simp at same⟩

end Prog

/-! ## A pool of programs -/

section Pool

variable {C : Type} {R : C → Type} {α β T : Type} {S : Type u}

/-- A shared state and the programs running over it, by thread. -/
structure Conf (C : Type) (R : C → Type) (α T : Type) (S : Type u) where
  state : S
  pool : T → Option (Prog C R α)

/-- How a call of a thread may be answered, and the state it leaves. -/
abbrev CallStep (C : Type) (R : C → Type) (T : Type) (S : Type u) :=
  T → (c : C) → S → R c → S → Prop

variable (step : CallStep C R T S) (admits : T → Prog C R α → S → Prop)

section Steps

variable [DecidableEq T]

/-- One step of the pool: a new program starts on a free thread, or one thread
makes its next call. -/
inductive Step : Conf C R α T S → Conf C R α T S → Prop
  | start {s pool} (t : T) (p : Prog C R α) (free : pool t = none) (admitted : admits t p s) :
      Step ⟨s, pool⟩ ⟨s, Function.update pool t (some p)⟩
  | call {s s' pool} (t : T) (c : C) (next : R c → Prog C R α) (reply : R c)
      (running : pool t = some (.call c next)) (answered : step t c s reply s') :
      Step ⟨s, pool⟩ ⟨s', Function.update pool t (some (next reply))⟩

/-- The configurations reachable by any interleaving. -/
abbrev Reaches : Conf C R α T S → Conf C R α T S → Prop :=
  Relation.ReflTransGen (Step step admits)

end Steps

/-- A schedule: which thread starts what, and which makes its next call under which
choice of the environment. -/
inductive Move (C : Type) (R : C → Type) (α T E : Type)
  | start (t : T) (p : Prog C R α)
  | call (t : T) (choice : E)

section Play

variable {E : Type} [DecidableEq T]
variable (handle : T → E → (c : C) → S → R c × S) (enabled : T → C → S → Bool)

/-- One move of a schedule, if it can be made. -/
def Conf.move (c : Conf C R α T S) : Move C R α T E → Option (Conf C R α T S)
  | .start t p =>
      if (c.pool t).isNone then some ⟨c.state, Function.update c.pool t (some p)⟩ else none
  | .call t choice =>
      match c.pool t with
      | some (.call call next) =>
          if enabled t call c.state then
            let answer := handle t choice call c.state
            some ⟨answer.2, Function.update c.pool t (some (next answer.1))⟩
          else none
      | _ => none

def Conf.play (c : Conf C R α T S) (moves : List (Move C R α T E)) : Option (Conf C R α T S) :=
  moves.foldlM (Conf.move handle enabled) c

variable {handle enabled}
variable {step : CallStep C R T S} {admits : T → Prog C R α → S → Prop}

theorem Conf.move_step {c c' : Conf C R α T S} {m : Move C R α T E}
    (starts : ∀ t p, m = .start t p → admits t p c.state)
    (answered : ∀ t choice call, enabled t call c.state = true →
      step t call c.state (handle t choice call c.state).1 (handle t choice call c.state).2)
    (moved : c.move handle enabled m = some c') : Step step admits c c' := by
  cases m with
  | start t p =>
      simp only [Conf.move] at moved
      split at moved
      · rename_i free
        rw [← Option.some.inj moved]
        exact .start t p (by simpa using free) (starts t p rfl)
      · simp at moved
  | call t choice =>
      simp only [Conf.move] at moved
      split at moved
      · rename_i call next running
        split at moved
        · rename_i may
          rw [← Option.some.inj moved]
          exact .call t call next _ running (answered t choice call may)
        · simp at moved
      · simp at moved

/-- A schedule that can be played is a run. -/
theorem Conf.play_reaches {c c' : Conf C R α T S} {moves : List (Move C R α T E)}
    (starts : ∀ s t p, Move.start t p ∈ moves → admits t p s)
    (answered : ∀ t choice call s, enabled t call s = true →
      step t call s (handle t choice call s).1 (handle t choice call s).2)
    (played : c.play handle enabled moves = some c') : Reaches step admits c c' := by
  induction moves generalizing c with
  | nil =>
      obtain rfl : c = c' := by simpa [Conf.play] using played
      exact .refl
  | cons m rest ih =>
      simp only [Conf.play, List.foldlM_cons] at played
      cases moved : c.move handle enabled m with
      | none => simp [moved] at played
      | some next =>
          rw [moved] at played
          have first : Step step admits c next :=
            Conf.move_step (fun t p same => starts _ t p (by simp [same]))
              (fun t choice call => answered t choice call c.state) moved
          exact .head first (ih (fun s t p later => starts s t p (by simp [later])) played)

end Play

/-- Every call made so far has returned. -/
def Conf.Quiet (c : Conf C R α T S) : Prop :=
  ∀ t p, c.pool t = some p → ∃ value, p = .ret value

/-! ## Rely and guarantee -/

variable (guar : T → S → S → Prop)

/-- What a thread has to live with: any number of steps of the others. -/
def Rely (t : T) (s s' : S) : Prop := ∃ other, other ≠ t ∧ guar other s s'

abbrev Relies (t : T) : S → S → Prop := Relation.ReflTransGen (Rely guar t)

/-- A thread at program `p` stays within its guarantee, and returns only values
that meet `post`, wherever the other threads take the state in between. -/
def Safe (t : T) (post : α → S → Prop) : Prog C R α → S → Prop
  | .ret value, s => ∀ s', Relies guar t s s' → post value s'
  | .call c next, s => ∀ s', Relies guar t s s' → ∀ reply s'', step t c s' reply s'' →
      guar t s' s'' ∧ Safe t post (next reply) s''

variable {step admits guar}
variable {t : T} {post post' : α → S → Prop}

/-- An assertion the other threads cannot take away. -/
def Stable (guar : T → S → S → Prop) (t : T) (holds : S → Prop) : Prop :=
  ∀ s s', holds s → Rely guar t s s' → holds s'

theorem Stable.relies {holds : S → Prop} (stable : Stable guar t holds) {s s' : S}
    (start : holds s) (moved : Relies guar t s s') : holds s' := by
  induction moved with
  | refl => exact start
  | tail _ last ih => exact stable _ _ ih last

theorem Safe.relies {p : Prog C R α} {s s' : S} (safe : Safe step guar t post p s)
    (moved : Relies guar t s s') : Safe step guar t post p s' := by
  cases p with
  | ret value => exact fun s'' more => safe s'' (moved.trans more)
  | call c next => exact fun s'' more => safe s'' (moved.trans more)

theorem safe_ret {holds : S → Prop} (stable : Stable guar t holds) {value : α} {s : S}
    (start : holds s) (meets : ∀ s', holds s' → post value s') :
    Safe step guar t post (.ret value) s :=
  fun s' moved => meets s' (stable.relies start moved)

theorem safe_call {holds : S → Prop} (stable : Stable guar t holds) {c : C}
    {next : R c → Prog C R α} {s : S} (start : holds s)
    (each : ∀ s' reply s'', holds s' → step t c s' reply s'' →
      guar t s' s'' ∧ Safe step guar t post (next reply) s'') :
    Safe step guar t post (.call c next) s :=
  fun s' moved reply s'' answered => each s' reply s'' (stable.relies start moved) answered

theorem safe_bind {mid : β → S → Prop} {p : Prog C R β} {f : β → Prog C R α} {s : S}
    (first : Safe step guar t mid p s)
    (rest : ∀ value s', mid value s' → Safe step guar t post (f value) s') :
    Safe step guar t post (p.bind f) s := by
  induction p generalizing s with
  | ret value => exact rest value s (first s .refl)
  | call c next ih =>
      intro s' moved reply s'' answered
      obtain ⟨within, safe⟩ := first s' moved reply s'' answered
      exact ⟨within, ih reply safe⟩

theorem Safe.mono {p : Prog C R α} {s : S} (safe : Safe step guar t post p s)
    (weaker : ∀ value s', post value s' → post' value s') :
    Safe step guar t post' p s := by
  induction p generalizing s with
  | ret value => exact fun s' moved => weaker value s' (safe s' moved)
  | call c next ih =>
      intro s' moved reply s'' answered
      obtain ⟨within, rest⟩ := safe s' moved reply s'' answered
      exact ⟨within, ih reply rest⟩

/-- Safety over a view of the state is safety over the state, when every step is a step
of the view. -/
theorem Safe.comap {S' : Type u} {step' : CallStep C R T S'} (view : S' → S)
    (each : ∀ t c s reply s', step' t c s reply s' → step t c (view s) reply (view s'))
    {p : Prog C R α} {s : S'} (safe : Safe step guar t post p (view s)) :
    Safe step' (fun t s s' => guar t (view s) (view s')) t (fun value s => post value (view s))
      p s := by
  have moves : ∀ {s s' : S'}, Relies (fun t s s' => guar t (view s) (view s')) t s s' →
      Relies guar t (view s) (view s') := fun moved =>
    moved.lift view fun _ _ step => step
  induction p generalizing s with
  | ret value => exact fun s' moved => safe (view s') (moves moved)
  | call c next ih =>
      intro s' moved reply s'' answered
      obtain ⟨within, rest⟩ :=
        safe (view s') (moves moved) reply (view s'') (each t c s' reply s'' answered)
      exact ⟨within, ih reply rest⟩

/-- A program whose calls each keep an assertion keeps it. -/
theorem safe_of_calls {allowed : C → Prop} {holds : S → Prop} (stable : Stable guar t holds)
    (each : ∀ c s reply s', allowed c → holds s → step t c s reply s' → guar t s s' ∧ holds s')
    {p : Prog C R α} (calls : p.Calls allowed) {s : S} (start : holds s) :
    Safe step guar t (fun _ => holds) p s := by
  induction p generalizing s with
  | ret value => exact safe_ret stable start fun _ held => held
  | call c next ih =>
      refine safe_call stable start fun s' reply s'' held answered => ?_
      obtain ⟨within, kept⟩ := each c s' reply s'' calls.1 held answered
      exact ⟨within, ih reply (calls.2 reply) kept⟩

/-- The invariant a pool keeps: the state's own, every free thread idle, and every
running one safe. -/
structure PoolSafe (step : CallStep C R T S) (guar : T → S → S → Prop) (inv : S → Prop)
    (idle : T → S → Prop) (post : T → α → S → Prop) (c : Conf C R α T S) : Prop where
  state : inv c.state
  free : ∀ t, c.pool t = none → idle t c.state
  threads : ∀ t p, c.pool t = some p → Safe step guar t (post t) p c.state

variable {inv : S → Prop} {idle : T → S → Prop} {posts : T → α → S → Prop}

theorem PoolSafe.advance [DecidableEq T] {c c' : Conf C R α T S}
    (keeps : ∀ t s s', inv s → guar t s s' → inv s')
    (rests : ∀ t, Stable guar t (idle t))
    (starts : ∀ t p s, inv s → idle t s → admits t p s → Safe step guar t (posts t) p s)
    (safe : PoolSafe step guar inv idle posts c) (move : Step step admits c c') :
    PoolSafe step guar inv idle posts c' := by
  cases move with
  | start t p free admitted =>
      refine ⟨safe.state, fun u none_ => ?_, fun u q found => ?_⟩
      · by_cases same : u = t
        · subst same; simp at none_
        · exact safe.free u (by simpa [Function.update_of_ne same] using none_)
      · by_cases same : u = t
        · subst same
          obtain rfl : p = q := by simpa using found
          exact starts u p _ safe.state (safe.free u free) admitted
        · exact safe.threads u q (by simpa [Function.update_of_ne same] using found)
  | call t c next reply running answered =>
      obtain ⟨within, rest⟩ := safe.threads t _ running _ .refl reply _ answered
      refine ⟨keeps t _ _ safe.state within, fun u none_ => ?_, fun u q found => ?_⟩
      · by_cases same : u = t
        · subst same; simp at none_
        · have before := safe.free u (by simpa [Function.update_of_ne same] using none_)
          exact rests u _ _ before ⟨t, Ne.symm same, within⟩
      · by_cases same : u = t
        · subst same
          obtain rfl : next reply = q := by simpa using found
          exact rest
        · have before := safe.threads u q (by simpa [Function.update_of_ne same] using found)
          exact before.relies (.single ⟨t, Ne.symm same, within⟩)

/-- **A pool of safe programs keeps its invariant under every interleaving.** -/
theorem reaches_safe [DecidableEq T] {c c' : Conf C R α T S}
    (keeps : ∀ t s s', inv s → guar t s s' → inv s')
    (rests : ∀ t, Stable guar t (idle t))
    (starts : ∀ t p s, inv s → idle t s → admits t p s → Safe step guar t (posts t) p s)
    (safe : PoolSafe step guar inv idle posts c) (run : Reaches step admits c c') :
    PoolSafe step guar inv idle posts c' := by
  induction run with
  | refl => exact safe
  | tail _ last ih => exact ih.advance keeps rests starts last

/-- What each call a pool may make keeps holds in every configuration it reaches. -/
theorem reaches_calls [DecidableEq T] {allowed : C → Prop} {keeps : S → Prop}
    (each : ∀ t c s reply s', allowed c → keeps s → step t c s reply s' → keeps s')
    (calls : ∀ t p s, admits t p s → p.Calls allowed) {c c' : Conf C R α T S}
    (start : keeps c.state) (pool : ∀ t p, c.pool t = some p → p.Calls allowed)
    (run : Reaches step admits c c') :
    keeps c'.state ∧ ∀ t p, c'.pool t = some p → p.Calls allowed := by
  induction run with
  | refl => exact ⟨start, pool⟩
  | tail _ last ih =>
      obtain ⟨kept, running_⟩ := ih
      cases last with
      | start t p free admitted =>
          refine ⟨kept, fun u q found => ?_⟩
          by_cases same : u = t
          · subst same
            obtain rfl : p = q := by simpa using found
            exact calls u p _ admitted
          · exact running_ u q (by simpa [Function.update_of_ne same] using found)
      | call t call next reply running answered =>
          obtain ⟨may, rest⟩ := running_ t _ running
          refine ⟨each t call _ reply _ may kept answered, fun u q found => ?_⟩
          by_cases same : u = t
          · subst same
            obtain rfl : next reply = q := by simpa using found
            exact rest reply
          · exact running_ u q (by simpa [Function.update_of_ne same] using found)

/-- A safe program that runs alone meets its postcondition, and its run is a chain of
guaranteed steps. -/
theorem Safe.exec {p : Prog C R α} {s s' : S} {value : α} (safe : Safe step guar t post p s)
    (ran : p.Exec (step t) s value s') :
    post value s' ∧ Relation.ReflTransGen (guar t) s s' := by
  induction p generalizing s with
  | ret _ =>
      obtain ⟨rfl, rfl⟩ := ran
      exact ⟨safe _ .refl, .refl⟩
  | call c next ih =>
      obtain ⟨reply, mid, answered, rest⟩ := ran
      obtain ⟨within, after⟩ := safe s .refl reply mid answered
      obtain ⟨meets, chain⟩ := ih reply after rest
      exact ⟨meets, .head within chain⟩

end Pool

end TypstMcp.Theory
