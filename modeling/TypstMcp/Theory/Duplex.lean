/-
Theory.Duplex -- a child on bounded pipes, and the parent that serves them

A child reads one stream and writes several others, each through a pipe of bounded
room; the parent sends what it has to send and collects what comes, all at once and a
piece at a time.  The child is a program over named calls, so it can be read alone
(`answers`: every stream without bound) and on its pipes (`Step`: any interleaving, any
pieces, any room).

* `Prog.Ensures`: whatever the answers, a program is always answered and ends in the
  postcondition.  A child that never asks for what is not sent is such a program.
* `step_wellFounded`: no run goes on for ever.
* `stuck_complete`: a run of such a child that can go no further is complete, so no
  choice of rooms and no interleaving deadlocks.
* `complete_exec`: what a complete run collected is what the child alone has written.
-/
import Mathlib.Algebra.BigOperators.Group.Finset.Basic
import Mathlib.Algebra.Order.BigOperators.Group.Finset
import Mathlib.Data.Fintype.Basic
import Mathlib.Order.WellFounded
import TypstMcp.Theory.Prog

namespace TypstMcp.Theory

set_option autoImplicit false

/-! ## Programs that are always answered -/

namespace Prog

variable {C : Type} {R : C → Type} {α β : Type} {S : Type}
  {step : (c : C) → S → R c → S → Prop}

/-- Whatever the answers, the program is always answered, and ends in `post`. -/
def Ensures (step : (c : C) → S → R c → S → Prop) (post : α → S → Prop) : Prog C R α → S → Prop
  | .ret value, s => post value s
  | .call c next, s =>
      (∃ reply s', step c s reply s') ∧
        ∀ reply s', step c s reply s' → (next reply).Ensures step post s'

theorem Ensures.mono {post post' : α → S → Prop} {p : Prog C R α} {s : S}
    (ensures : p.Ensures step post s) (more : ∀ value s', post value s' → post' value s') :
    p.Ensures step post' s := by
  induction p generalizing s with
  | ret value => exact more value s ensures
  | call c next ih => exact ⟨ensures.1, fun reply s' answered => ih reply (ensures.2 reply s' answered)⟩

theorem ensures_bind {post : β → S → Prop} {p : Prog C R α} {f : α → Prog C R β} {s : S} :
    (p.bind f).Ensures step post s ↔
      p.Ensures step (fun value s' => (f value).Ensures step post s') s := by
  induction p generalizing s with
  | ret value => exact Iff.rfl
  | call c next ih =>
      constructor
      · exact fun ensures => ⟨ensures.1, fun reply s' answered =>
          (ih reply).1 (ensures.2 reply s' answered)⟩
      · exact fun ensures => ⟨ensures.1, fun reply s' answered =>
          (ih reply).2 (ensures.2 reply s' answered)⟩

theorem Ensures.exec {post : α → S → Prop} {p : Prog C R α} {s s' : S} {value : α}
    (ensures : p.Ensures step post s) (ran : p.Exec step s value s') : post value s' := by
  induction p generalizing s with
  | ret v =>
      obtain ⟨rfl, rfl⟩ := ran
      exact ensures
  | call c next ih =>
      obtain ⟨reply, mid, answered, rest⟩ := ran
      exact ih reply (ensures.2 reply mid answered) rest

/-- A program, and what one of its calls leaves to be done. -/
inductive Next : Prog C R α → Prog C R α → Prop
  | intro (c : C) (next : R c → Prog C R α) (reply : R c) : Next (next reply) (.call c next)

theorem next_wellFounded : WellFounded (Next : Prog C R α → Prog C R α → Prop) := by
  refine ⟨fun p => ?_⟩
  induction p with
  | ret value => exact ⟨_, fun _ before => by cases before⟩
  | call c next ih =>
      refine ⟨_, fun _ before => ?_⟩
      cases before with
      | intro _ _ reply => exact ih reply

/-! ## Programs whose calls are programs -/

section Via

variable {C' : Type} {R' : C' → Type} {X M : Type}

/-- Each call made by a program over other calls, which hands a state of its own along. -/
def via (make : (c : C) → X → Prog C' R' (R c × X)) : Prog C R α → X → Prog C' R' (α × X)
  | .ret value, x => .ret (value, x)
  | .call c next, x => (make c x).bind fun made => (next made.1).via make made.2

/-- A program with only such calls can be played to its end. -/
theorem play_of_calls {allowed : C → Prop} {handle : (c : C) → M → R c × M}
    {enabled : C → M → Bool} (may : ∀ c m, allowed c → enabled c m = true) {p : Prog C R α}
    (calls : p.Calls allowed) (m : M) : p.play handle enabled m = some (p.run handle m) := by
  induction p generalizing m with
  | ret value => rfl
  | call c next ih =>
      rw [play, if_pos (may c m calls.1), run_call]
      exact ih _ (calls.2 _) _

/-- What each call ensures of its program, a run ensures of the whole. -/
theorem ensures_via {step' : (c : C') → S → R' c → S → Prop}
    {make : (c : C) → X → Prog C' R' (R c × X)} {handle : (c : C) → M → R c × M}
    {enabled : C → M → Bool} {inv : X → S → M → Prop}
    (each : ∀ c x s m, inv x s m → enabled c m = true →
      (make c x).Ensures step' (fun made s' => made.1 = (handle c m).1 ∧
        inv made.2 s' (handle c m).2) s)
    {p : Prog C R α} {x : X} {s : S} {m m' : M} {value : α} (start : inv x s m)
    (played : p.play handle enabled m = some (value, m')) :
    (p.via make x).Ensures step' (fun made s' => made.1 = value ∧ inv made.2 s' m') s := by
  induction p generalizing x s m with
  | ret v =>
      obtain ⟨rfl, rfl⟩ := Prod.mk.inj (Option.some.inj played)
      exact ⟨rfl, start⟩
  | call c next ih =>
      rw [play] at played
      cases may : enabled c m with
      | false =>
          rw [may] at played
          cases played
      | true =>
          rw [may, if_pos rfl] at played
          refine ensures_bind.2 ((each c x s m start may).mono ?_)
          rintro ⟨reply, x'⟩ s' ⟨rfl, kept⟩
          exact ih _ kept played

end Via

end Prog

namespace Duplex

variable {B W O : Type} {A : W → Type} {S α : Type}

/-! ## The child -/

/-- A call of the child: on one of its streams, or on a state of its own. -/
inductive Call (B W O : Type)
  | read (most : Nat)
  | write (out : O) (bytes : List B)
  | own (w : W)

/-- A read is answered by what was read, a write by how much was written. -/
@[reducible] def Reply (A : W → Type) : Call B W O → Type
  | .read _ => List B
  | .write .. => Nat
  | .own w => A w

abbrev Child (B O : Type) (A : W → Type) (α : Type) := Prog (Call B W O) (Reply A) α

/-- What a child alone has to read and has written, and the state of its own. -/
structure Streams (B O S : Type) where
  own : S
  input : List B
  written : O → List B

section Alone

variable [DecidableEq O] (own : (w : W) → S → A w → S → Prop) (ends : Bool)

/-- A call of the child alone.  A read waits for at least one byte; where `ends` is set the
stream ends behind its last byte, and a read there gets nothing. -/
def answers : (c : Call B W O) → Streams B O S → Reply A c → Streams B O S → Prop
  | .read most, s, reply, s' =>
      (reply ≠ [] ∧ reply.length ≤ most ∧
          ∃ rest, s.input = reply ++ rest ∧ s' = { s with input := rest }) ∨
        (reply = [] ∧ (most = 0 ∨ (ends = true ∧ s.input = [])) ∧ s' = s)
  | .write out bytes, s, count, s' =>
      count ≤ bytes.length ∧ (0 < count ∨ bytes = []) ∧
        s' = { s with written := Function.update s.written out (s.written out ++ bytes.take count) }
  | .own w, s, reply, s' => ∃ t, own w s.own reply t ∧ s' = { s with own := t }

end Alone

/-! ## The pipes -/

/-- A child on its pipes, and the parent at their other ends. -/
structure Conf (B O S : Type) (A : W → Type) (α : Type) where
  /-- What is left to be sent, and whether sending has failed. -/
  toSend : List B
  broken : Bool
  stdin : List B
  pipes : O → List B
  collected : O → List B
  child : Child B O A α
  exited : Bool
  own : S

namespace Conf

/-- The child's view: what is under way counts as there to be read, and as written. -/
def streams (c : Conf B O S A α) : Streams B O S where
  own := c.own
  input := c.stdin ++ c.toSend
  written out := c.collected out ++ c.pipes out

/-- The parent has sent what it could, has read every stream to its end, and the child has
exited. -/
def Complete (c : Conf B O S A α) : Prop :=
  c.exited = true ∧ (c.toSend = [] ∨ c.broken = true) ∧ ∀ out, c.pipes out = []

/-- Nothing has been sent or called. -/
def start (child : Child B O A α) (toSend : List B) (own : S) : Conf B O S A α where
  toSend
  broken := false
  stdin := []
  pipes _ := []
  collected _ := []
  child
  exited := false
  own

end Conf

set_option linter.unusedSectionVars false

variable [DecidableEq O] (own : (w : W) → S → A w → S → Prop) (ends : Bool)
  (roomIn : Nat) (room : O → Nat)

/-- A call of the child on its pipes: a read takes what is there and waits where nothing is, a
write waits for room. -/
def served : (call : Call B W O) → Conf B O S A α → Reply A call → Conf B O S A α → Prop
  | .read most, c, reply, c' =>
      (reply ≠ [] ∧ reply.length ≤ most ∧
          ∃ rest, c.stdin = reply ++ rest ∧ c' = { c with stdin := rest }) ∨
        (reply = [] ∧ (most = 0 ∨ (ends = true ∧ c.stdin = [] ∧ c.toSend = [])) ∧ c' = c)
  | .write out bytes, c, count, c' =>
      count ≤ bytes.length ∧ (0 < count ∨ bytes = []) ∧
        (count = 0 ∨ (c.pipes out).length + count ≤ room out) ∧
        c' = { c with pipes := Function.update c.pipes out (c.pipes out ++ bytes.take count) }
  | .own w, c, reply, c' => ∃ t, own w c.own reply t ∧ c' = { c with own := t }

/-- One step of the parent or of the child. -/
inductive Step : Conf B O S A α → Conf B O S A α → Prop
  | send {c} (count : Nat) (reads : c.exited = false) (some_ : 0 < count)
      (have_ : count ≤ c.toSend.length) (fits : c.stdin.length + count ≤ roomIn) :
      Step c { c with toSend := c.toSend.drop count, stdin := c.stdin ++ c.toSend.take count }
  | refused {c} (gone : c.exited = true) (left : c.toSend ≠ []) (whole : c.broken = false) :
      Step c { c with broken := true }
  | collect {c} (out : O) (count : Nat) (some_ : 0 < count)
      (have_ : count ≤ (c.pipes out).length) :
      Step c { c with
        pipes := Function.update c.pipes out ((c.pipes out).drop count)
        collected := Function.update c.collected out
          (c.collected out ++ (c.pipes out).take count) }
  | call {c c'} (call : Call B W O) (next : Reply A call → Child B O A α) (reply : Reply A call)
      (running : c.child = .call call next) (answered : served own ends room call c reply c') :
      Step c { c' with child := next reply }
  | exit {c} (value : α) (returned : c.child = .ret value) (runs : c.exited = false) :
      Step c { c with exited := true }

/-- The configurations any interleaving reaches. -/
abbrev Reaches : Conf B O S A α → Conf B O S A α → Prop :=
  Relation.ReflTransGen (Step own ends roomIn room)

variable {own ends roomIn room}

/-! ## What a step does, as the child sees it -/

/-- A call on the pipes is a call on the streams, and touches nothing else. -/
theorem served_answers {call : Call B W O} {c c' : Conf B O S A α} {reply : Reply A call}
    (answered : served own ends room call c reply c') :
    answers own ends call c.streams reply c'.streams ∧
      c'.toSend = c.toSend ∧ c'.broken = c.broken ∧ c'.exited = c.exited := by
  cases call with
  | read most =>
      rcases answered with ⟨some_, short, rest, there, rfl⟩ | ⟨rfl, none_, rfl⟩
      · refine ⟨.inl ⟨some_, short, rest ++ c.toSend, ?_, rfl⟩, rfl, rfl, rfl⟩
        rw [Conf.streams, there, List.append_assoc]
      · refine ⟨.inr ⟨rfl, none_.imp_right fun ⟨set, empty, sent⟩ => ⟨set, ?_⟩, rfl⟩, rfl, rfl, rfl⟩
        rw [Conf.streams, empty, sent, List.append_nil]
  | write out bytes =>
      obtain ⟨within, some_, -, rfl⟩ := answered
      refine ⟨⟨within, some_, ?_⟩, rfl, rfl, rfl⟩
      simp only [Conf.streams, Streams.mk.injEq, true_and]
      funext other
      by_cases same : other = out
      · subst same
        rw [Function.update_self, Function.update_self, List.append_assoc]
      · rw [Function.update_of_ne same, Function.update_of_ne same]
  | own w =>
      obtain ⟨t, did, rfl⟩ := answered
      exact ⟨⟨t, did, rfl⟩, rfl, rfl, rfl⟩

/-- A step is a call of the child, or the child sees nothing of it. -/
theorem step_cases {c c' : Conf B O S A α} (stepped : Step own ends roomIn room c c') :
    (∃ call next reply, c.child = .call call next ∧ c'.child = next reply ∧
        answers own ends call c.streams reply c'.streams) ∨
      (c'.child = c.child ∧ c'.streams = c.streams) := by
  cases stepped with
  | send count =>
      refine .inr ⟨rfl, ?_⟩
      simp only [Conf.streams, List.append_assoc, List.take_append_drop]
  | refused => exact .inr ⟨rfl, rfl⟩
  | collect out count =>
      refine .inr ⟨rfl, ?_⟩
      simp only [Conf.streams, Streams.mk.injEq, true_and]
      funext other
      by_cases same : other = out
      · subst same
        rw [Function.update_self, Function.update_self, List.append_assoc, List.take_append_drop]
      · rw [Function.update_of_ne same, Function.update_of_ne same]
  | call call next reply running answered =>
      exact .inl ⟨call, next, reply, running, rfl, (served_answers answered).1⟩
  | exit value returned => exact .inr ⟨rfl, rfl⟩

/-- The child has returned once it has exited; sending fails only on a child that has exited, and
leaves something unsent. -/
structure Coherent (c : Conf B O S A α) : Prop where
  exited : c.exited = true → c.child.returned = true
  broken : c.broken = true → c.exited = true ∧ c.toSend ≠ []

theorem coherent_start (child : Child B O A α) (toSend : List B) (own : S) :
    Coherent (Conf.start child toSend own) where
  exited gone := by cases gone
  broken gone := by cases gone

theorem Step.coherent {c c' : Conf B O S A α} (stepped : Step own ends roomIn room c c')
    (before : Coherent c) : Coherent c' := by
  cases stepped with
  | send count reads =>
      refine ⟨before.exited, fun gone => ?_⟩
      have exited := (before.broken gone).1
      rw [reads] at exited
      cases exited
  | refused gone left => exact ⟨before.exited, fun _ => ⟨gone, left⟩⟩
  | collect => exact ⟨before.exited, before.broken⟩
  | call call next reply running answered =>
      obtain ⟨-, sent, broken, exited⟩ := served_answers answered
      refine ⟨fun gone => ?_, fun gone => ?_⟩
      · have ended := before.exited (exited ▸ gone)
        rw [running] at ended
        cases ended
      · rw [show _ = _ from exited, show _ = _ from sent]
        exact before.broken (broken ▸ gone)
  | exit value returned runs =>
      refine ⟨fun _ => Prog.returned_iff.2 ⟨value, returned⟩, fun gone => ⟨rfl, (before.broken gone).2⟩⟩

theorem Reaches.coherent {c c' : Conf B O S A α} (reached : Reaches own ends roomIn room c c')
    (before : Coherent c) : Coherent c' := by
  induction reached with
  | refl => exact before
  | tail _ stepped ih => exact stepped.coherent ih

/-! ## Every run ends -/

section Ends

variable [Fintype O]

/-- What is left for the parent to do while the child does nothing. -/
def pending (c : Conf B O S A α) : Nat :=
  c.toSend.length + (∑ out, (c.pipes out).length) + (if c.broken then 0 else 1) +
    if c.exited then 0 else 1

theorem sum_collect {pipes : O → List B} {out : O} {count : Nat} (some_ : 0 < count)
    (have_ : count ≤ (pipes out).length) :
    ∑ other, (Function.update pipes out ((pipes out).drop count) other).length <
      ∑ other, (pipes other).length := by
  refine Finset.sum_lt_sum (fun other _ => ?_) ⟨out, Finset.mem_univ out, ?_⟩
  · by_cases same : other = out
    · subst same
      rw [Function.update_self, List.length_drop]
      omega
    · rw [Function.update_of_ne same]
  · rw [Function.update_self, List.length_drop]
    omega

/-- Each step is a call of the child, or leaves the parent less to do. -/
theorem step_less {c c' : Conf B O S A α} (stepped : Step own ends roomIn room c c') :
    Prog.Next c'.child c.child ∨ (c'.child = c.child ∧ pending c' < pending c) := by
  cases stepped with
  | send count reads some_ have_ =>
      refine .inr ⟨rfl, ?_⟩
      simp only [pending, List.length_drop]
      omega
  | refused gone left whole =>
      refine .inr ⟨rfl, ?_⟩
      simp [pending, whole]
  | collect out count some_ have_ =>
      refine .inr ⟨rfl, ?_⟩
      have less := sum_collect some_ have_
      simp only [pending]
      omega
  | call call next reply running answered =>
      left
      rw [running]
      exact .intro call next reply
  | exit value returned runs =>
      refine .inr ⟨rfl, ?_⟩
      simp [pending, runs]

/-- **No run goes on for ever.** -/
theorem step_wellFounded :
    WellFounded fun c' c : Conf B O S A α => Step own ends roomIn room c c' := by
  have children : WellFounded (Prog.Next : Child B O A α → Child B O A α → Prop) :=
    Prog.next_wellFounded
  have order := children.prod_lex Nat.lt_wfRel.wf
  refine Subrelation.wf (fun {c' c} stepped => ?_)
    (InvImage.wf (fun c : Conf B O S A α => (c.child, pending c)) order)
  rcases step_less stepped with earlier | ⟨same, less⟩
  · exact Prod.Lex.left _ _ earlier
  · show Prod.Lex _ _ (c'.child, pending c') (c.child, pending c)
    rw [same]
    exact Prod.Lex.right _ less

end Ends

/-! ## No run is stuck -/

variable {post : α → Streams B O S → Prop}

/-- What the child ensures alone, it ensures from every configuration of a run. -/
theorem Step.ensures {c c' : Conf B O S A α} (stepped : Step own ends roomIn room c c')
    (before : c.child.Ensures (answers own ends) post c.streams) :
    c'.child.Ensures (answers own ends) post c'.streams := by
  rcases step_cases stepped with ⟨call, next, reply, running, went, answered⟩ | ⟨same, seen⟩
  · rw [running] at before
    rw [went]
    exact before.2 reply _ answered
  · rw [same, seen]
    exact before

theorem Reaches.ensures {c c' : Conf B O S A α} (reached : Reaches own ends roomIn room c c')
    (before : c.child.Ensures (answers own ends) post c.streams) :
    c'.child.Ensures (answers own ends) post c'.streams := by
  induction reached with
  | refl => exact before
  | tail _ stepped ih => exact stepped.ensures ih

/-- A call the streams answer is answered on the pipes, now or once the parent has moved on. -/
theorem call_moves {c : Conf B O S A α} {call : Call B W O}
    {next : Reply A call → Child B O A α} (running : c.child = .call call next)
    (runs : c.exited = false) (space : 0 < roomIn) (spaces : ∀ out, 0 < room out)
    (answered : ∃ reply s', answers own ends call c.streams reply s') :
    ∃ c', Step own ends roomIn room c c' := by
  obtain ⟨reply, s', answered⟩ := answered
  cases call with
  | read most =>
      cases waiting : c.stdin with
      | cons b rest =>
          rcases Nat.eq_zero_or_pos most with rfl | some_
          · exact ⟨_, .call (.read 0) next [] running (.inr ⟨rfl, .inl rfl, rfl⟩)⟩
          · refine ⟨_, .call (.read most) next [b] running (.inl ⟨by simp, some_, rest, ?_, rfl⟩)⟩
            rw [waiting, List.singleton_append]
      | nil =>
          cases unsent : c.toSend with
          | cons b rest =>
              refine ⟨_, .send 1 runs Nat.one_pos ?_ ?_⟩
              · rw [unsent, List.length_cons]
                omega
              · rw [waiting, List.length_nil]
                omega
          | nil =>
              -- nothing is under way, so the streams too have only their end to offer
              refine ⟨_, .call (.read most) next [] running (.inr ⟨rfl, ?_, rfl⟩)⟩
              have empty : c.streams.input = [] := by rw [Conf.streams, waiting, unsent]; rfl
              rcases answered with ⟨some_, -, rest, there, -⟩ | ⟨-, none_, -⟩
              · rw [empty] at there
                exact absurd (List.append_eq_nil_iff.1 there.symm).1 some_
              · exact none_.imp_right fun ⟨set, _⟩ => ⟨set, waiting, unsent⟩
  | write out bytes =>
      by_cases full : (c.pipes out).length < room out
      · refine ⟨_, .call (.write out bytes) next (min 1 bytes.length) running
          ⟨min_le_right _ _, ?_, ?_, rfl⟩⟩
        · cases bytes with
          | nil => exact .inr rfl
          | cons b rest => exact .inl (by simp)
        · have := min_le_left 1 bytes.length
          omega
      · have := spaces out
        exact ⟨_, .collect out 1 Nat.one_pos (by omega)⟩
  | own w =>
      obtain ⟨t, did, -⟩ := answered
      exact ⟨_, .call (.own w) next reply running ⟨t, did, rfl⟩⟩

/-- **Where no step can be made the run is complete:** no interleaving deadlocks. -/
theorem stuck_complete {c : Conf B O S A α}
    (ensures : c.child.Ensures (answers own ends) post c.streams)
    (space : 0 < roomIn) (spaces : ∀ out, 0 < room out)
    (stuck : ∀ c', ¬ Step own ends roomIn room c c') : c.Complete := by
  have exited : c.exited = true := by
    cases runs : c.exited with
    | true => rfl
    | false =>
        exfalso
        cases running : c.child with
        | ret value => exact stuck _ (.exit value running runs)
        | call call next =>
            rw [running] at ensures
            obtain ⟨c', stepped⟩ := call_moves running runs space spaces ensures.1
            exact stuck c' stepped
  refine ⟨exited, ?_, fun out => ?_⟩
  · by_contra unsent
    rw [not_or, Bool.not_eq_true] at unsent
    exact stuck _ (.refused exited unsent.1 unsent.2)
  · by_contra full
    exact stuck _ (.collect out 1 Nat.one_pos (List.length_pos_iff.2 full))

/-! ## What a complete run comes to -/

/-- As far as a run has come, the child alone has come. -/
theorem Reaches.exec {c c' : Conf B O S A α} {value : α}
    (reached : Reaches own ends roomIn room c c') (returned : c'.child = .ret value) :
    c.child.Exec (answers own ends) c.streams value c'.streams := by
  induction reached using Relation.ReflTransGen.head_induction_on with
  | refl =>
      rw [returned]
      exact ⟨rfl, rfl⟩
  | head stepped _ ih =>
      rcases step_cases stepped with ⟨call, next, reply, running, went, answered⟩ | ⟨same, seen⟩
      · rw [went] at ih
        rw [running]
        exact ⟨reply, _, answered, ih⟩
      · rw [← same, ← seen]
        exact ih

/-- **What was collected is what the child alone has written,** and what could not be sent it did
not read. -/
theorem complete_exec {child : Child B O A α} {toSend : List B} {state : S} {c : Conf B O S A α}
    (reached : Reaches own ends roomIn room (Conf.start child toSend state) c)
    (complete : c.Complete) :
    ∃ value left, c.child = .ret value ∧
      child.Exec (answers own ends) ⟨state, toSend, fun _ => []⟩ value ⟨c.own, left, c.collected⟩ ∧
      (left = [] → c.broken = false) := by
  have coherent := reached.coherent (coherent_start child toSend state)
  obtain ⟨value, returned⟩ := Prog.returned_iff.1 (coherent.exited complete.1)
  have ran := reached.exec returned
  have seen : c.streams = ⟨c.own, c.stdin ++ c.toSend, c.collected⟩ := by
    simp only [Conf.streams, complete.2.2, List.append_nil]
  rw [seen] at ran
  refine ⟨value, _, returned, ran, fun read => ?_⟩
  by_contra gone
  rw [Bool.not_eq_false] at gone
  exact (coherent.broken gone).2 (List.append_eq_nil_iff.1 read).2

/-- From every configuration of a run, the run can be completed. -/
theorem exists_complete [Fintype O] {c : Conf B O S A α} (coherent : Coherent c)
    (ensures : c.child.Ensures (answers own ends) post c.streams)
    (space : 0 < roomIn) (spaces : ∀ out, 0 < room out) :
    ∃ c', Reaches own ends roomIn room c c' ∧ c'.Complete := by
  have ended : WellFounded fun c' c : Conf B O S A α => Step own ends roomIn room c c' :=
    step_wellFounded
  induction c using ended.induction with
  | _ c ih =>
      by_cases stuck : ∀ c', ¬ Step own ends roomIn room c c'
      · exact ⟨c, .refl, stuck_complete ensures space spaces stuck⟩
      · push Not at stuck
        obtain ⟨mid, stepped⟩ := stuck
        obtain ⟨last, reached, complete⟩ := ih mid stepped (stepped.coherent coherent)
          (stepped.ensures ensures)
        exact ⟨last, .head stepped reached, complete⟩

end Duplex

end TypstMcp.Theory
