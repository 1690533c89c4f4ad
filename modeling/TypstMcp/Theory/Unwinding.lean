/-
Theory.Unwinding -- noninterference of runs, by unwinding

Two machines answer a script of events.  An observer owns some of the events; some
more are `kept` in the script the second machine is given, and the rest are deleted
from it.  `Unwinds` relates the states the observer cannot tell apart: a deleted
event leaves the relation in place, and a kept one, made on both sides, answers
the observer alike and keeps it.

* `Unwinds.results`: the observer's answers are those of the run with the other
  events deleted.
* `Run.total`: a machine that answers every event runs every script.
-/
import Mathlib.Data.List.Basic

namespace TypstMcp.Theory

set_option autoImplicit false

section Runs

variable {S E O : Type}

/-- A run of a machine: the events it was given and what it answered. -/
inductive Run (step : S → E → O → S → Prop) : S → List (E × O) → S → Prop
  | nil {s : S} : Run step s [] s
  | cons {s s' s'' : S} {e : E} {o : O} {rest : List (E × O)} (first : step s e o s')
      (after : Run step s' rest s'') : Run step s ((e, o) :: rest) s''

/-- The answers to the events of an observer, in order. -/
def results (own : E → Prop) [DecidablePred own] (trace : List (E × O)) : List O :=
  (trace.filter fun step => own step.1).map Prod.snd

variable {step : S → E → O → S → Prop}

/-- A machine that answers every event, and keeps what lets it, runs every script. -/
theorem Run.total {inv : S → Prop}
    (each : ∀ s e, inv s → ∃ o s', step s e o s' ∧ inv s') {s : S} (start : inv s)
    (script : List E) : ∃ trace s', Run step s trace s' ∧ trace.map Prod.fst = script := by
  induction script generalizing s with
  | nil => exact ⟨[], s, .nil, rfl⟩
  | cons e rest ih =>
      obtain ⟨o, mid, first, kept⟩ := each s e start
      obtain ⟨trace, s', after, same⟩ := ih kept
      exact ⟨(e, o) :: trace, s', .cons first after, by rw [List.map_cons, same]⟩

/-- What relates the states of two machines the observer cannot tell apart. -/
structure Unwinds {S' : Type} (step : S → E → O → S → Prop) (step' : S' → E → O → S' → Prop)
    (own kept : E → Prop) (alike : S → S' → Prop) : Prop where
  keeps : ∀ e, own e → kept e
  deleted : ∀ s s' e o t, alike s s' → ¬ kept e → step s e o t → alike t s'
  shown : ∀ s s' e o o' t t', alike s s' → kept e → step s e o t → step' s' e o' t' →
    (own e → o = o') ∧ alike t t'

/-- **The observer's answers are those of the run with the other events deleted.** -/
theorem Unwinds.results {S' : Type} {step' : S' → E → O → S' → Prop} {own kept : E → Prop}
    {alike : S → S' → Prop} [DecidablePred own] [DecidablePred kept]
    (unwinds : Unwinds step step' own kept alike) {s t : S} {s' t' : S'}
    {trace trace' : List (E × O)} (start : alike s s') (ran : Run step s trace t)
    (ran' : Run step' s' trace' t')
    (script : trace'.map Prod.fst = (trace.map Prod.fst).filter kept) :
    results own trace = results own trace' ∧ alike t t' := by
  induction ran generalizing s' trace' with
  | nil =>
      cases ran' with
      | nil => exact ⟨rfl, start⟩
      | cons _ _ => simp at script
  | @cons s mid t e o rest first after ih =>
      by_cases shown : kept e
      · simp only [List.map_cons, List.filter_cons, shown, decide_true, if_true] at script
        cases ran' with
        | nil => simp at script
        | @cons _ mid' _ e' o' rest' first' after' =>
            obtain ⟨rfl, later⟩ := List.cons.inj script
            obtain ⟨same, alike'⟩ := unwinds.shown _ _ _ _ _ _ _ start shown first first'
            obtain ⟨others, final⟩ := ih alike' after' later
            refine ⟨?_, final⟩
            unfold Theory.results at others ⊢
            by_cases mine : own e'
            · simp only [List.filter_cons, mine, decide_true, if_true, List.map_cons, same mine,
                others]
            · simp only [List.filter_cons, mine, decide_false, Bool.false_eq_true, if_false, others]
      · simp only [List.map_cons, List.filter_cons, shown, decide_false, Bool.false_eq_true,
          if_false] at script
        have alike' := unwinds.deleted _ _ _ _ _ start shown first
        obtain ⟨others, final⟩ := ih alike' ran' script
        refine ⟨?_, final⟩
        have foreign : ¬ own e := fun mine => shown (unwinds.keeps e mine)
        unfold Theory.results at others ⊢
        simp only [List.filter_cons, foreign, decide_false, Bool.false_eq_true, if_false, others]

end Runs

end TypstMcp.Theory
