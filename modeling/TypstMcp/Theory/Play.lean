/-
Theory.Play -- runs of a machine whose actions can be disabled

`play act c actions` takes the actions in turn and is `none` as soon as one is
disabled.  `Every` says what each action of a run met when it was taken, and
`play_invariant` carries an invariant along such a run.
-/
import Mathlib.Tactic

namespace TypstMcp.Theory

set_option autoImplicit false

variable {C A : Type}

/-- The configuration a list of actions leads to. -/
def play (act : C → A → Option C) : C → List A → Option C
  | c, [] => some c
  | c, a :: rest => (act c a).bind fun next => play act next rest

/-- Each action of the run met `needs` where it was taken. -/
def Every (act : C → A → Option C) (needs : C → A → Prop) : C → List A → Prop
  | _, [] => True
  | c, a :: rest => needs c a ∧ ∀ next, act c a = some next → Every act needs next rest

variable {act : C → A → Option C} {needs : C → A → Prop} {inv : C → Prop}

instance Every.decidable [∀ c a, Decidable (needs c a)] :
    ∀ (c : C) (actions : List A), Decidable (Every act needs c actions)
  | _, [] => .isTrue trivial
  | c, a :: rest =>
      match taken : act c a with
      | none => decidable_of_iff (needs c a)
          ⟨fun met => ⟨met, fun _ other => nomatch taken.symm.trans other⟩, fun every => every.1⟩
      | some next =>
          have := Every.decidable next rest
          decidable_of_iff (needs c a ∧ Every act needs next rest)
            ⟨fun ⟨met, others⟩ => ⟨met, fun _ other => Option.some.inj (taken.symm.trans other) ▸ others⟩,
              fun every => ⟨every.1, every.2 next taken⟩⟩

theorem play_append (c : C) (before after : List A) :
    play act c (before ++ after) = (play act c before).bind fun mid => play act mid after := by
  induction before generalizing c with
  | nil => rfl
  | cons a rest ih =>
      rw [List.cons_append, play, play, Option.bind_assoc]
      exact congrArg _ (funext ih)

/-- A run that ends with this action. -/
theorem play_concat {c last : C} {before : List A} {a : A} :
    play act c (before ++ [a]) = some last ↔
      ∃ mid, play act c before = some mid ∧ act mid a = some last := by
  rw [play_append, Option.bind_eq_some_iff]
  simp [play]

/-- What every allowed action keeps, every allowed run keeps. -/
theorem play_invariant
    (kept : ∀ c a next, inv c → needs c a → act c a = some next → inv next) :
    ∀ {c last : C} {actions : List A}, inv c → Every act needs c actions →
      play act c actions = some last → inv last
  | c, _, [], holds, _, ran => Option.some.inj ran ▸ holds
  | c, last, a :: rest, holds, met, ran => by
      obtain ⟨next, taken, ran⟩ := Option.bind_eq_some_iff.1 ran
      exact play_invariant kept (kept c a next holds met.1 taken) (met.2 next taken) ran

theorem every_of_forall (all : ∀ c a, needs c a) :
    ∀ (c : C) (actions : List A), Every act needs c actions
  | _, [] => trivial
  | c, a :: rest => ⟨all c a, fun next _ => every_of_forall all next rest⟩

end TypstMcp.Theory
