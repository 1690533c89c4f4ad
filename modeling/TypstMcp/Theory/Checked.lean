/-
Theory.Checked -- computations that succeed or say why not

Each lemma says when a step of an `Except` computation succeeds, so that a run of
such steps is taken apart from the front.
-/
import Mathlib.Tactic

namespace TypstMcp.Theory

set_option autoImplicit false

variable {ε ε' α β : Type}

theorem bind_eq_ok {x : Except ε α} {f : α → Except ε β} {b : β} :
    (x >>= f) = .ok b ↔ ∃ a, x = .ok a ∧ f a = .ok b := by
  cases x <;> simp [Bind.bind, Except.bind]

theorem ok_bind (a : α) (f : α → Except ε β) : (.ok a >>= f) = f a := rfl

theorem error_bind (e : ε) (f : α → Except ε β) : (.error e >>= f) = .error e := rfl

theorem pure_eq_ok {a b : α} : (pure a : Except ε α) = .ok b ↔ b = a := by
  simp [Pure.pure, Except.pure, eq_comm]

theorem mapError_eq_ok {x : Except ε α} {f : ε → ε'} {a : α} :
    x.mapError f = .ok a ↔ x = .ok a := by
  cases x <;> simp [Except.mapError]

/-- A loop over a list succeeds when each turn does. -/
theorem mapM_eq_ok {f : α → Except ε β} {given : List α} {made : List β} :
    given.mapM f = .ok made ↔ List.Forall₂ (fun a b => f a = .ok b) given made := by
  induction given generalizing made with
  | nil => rw [List.mapM_nil, pure_eq_ok, List.forall₂_nil_left_iff]
  | cons a rest ih =>
      rw [List.mapM_cons, bind_eq_ok, List.forall₂_cons_left_iff]
      refine exists_congr fun b => ?_
      rw [bind_eq_ok]
      constructor
      · rintro ⟨first, more, tail, done⟩
        exact ⟨more, first, ih.1 tail, pure_eq_ok.1 done⟩
      · rintro ⟨more, first, tail, done⟩
        exact ⟨first, more, ih.2 tail, pure_eq_ok.2 done⟩

/-- A loop of checks that change nothing returns the list it was given. -/
theorem mapM_check {f : α → Except ε α} {Good : α → Prop}
    (check : ∀ a b, f a = .ok b ↔ Good a ∧ b = a) {given made : List α} :
    given.mapM f = .ok made ↔ (∀ a ∈ given, Good a) ∧ made = given := by
  rw [mapM_eq_ok]
  simp only [check]
  induction given generalizing made with
  | nil => simp
  | cons a rest ih =>
      rw [List.forall₂_cons_left_iff, List.forall_mem_cons]
      constructor
      · rintro ⟨b, more, ⟨good, rfl⟩, tail, rfl⟩
        obtain ⟨goods, rfl⟩ := ih.1 tail
        exact ⟨⟨good, goods⟩, rfl⟩
      · rintro ⟨⟨good, goods⟩, rfl⟩
        exact ⟨a, rest, ⟨good, rfl⟩, ih.2 ⟨goods, rfl⟩, rfl⟩

/-! Lists related element by element, as such a loop relates what it is given and what it makes. -/

theorem mem_of_forall₂ {R : α → β → Prop} {left : List α} {right : List β}
    (each : List.Forall₂ R left right) {a : α} (inside : a ∈ left) : ∃ b ∈ right, R a b := by
  induction each with
  | nil => cases inside
  | cons first _ ih =>
      rcases List.mem_cons.1 inside with rfl | inside
      · exact ⟨_, List.mem_cons_self, first⟩
      · obtain ⟨b, listed, is⟩ := ih inside
        exact ⟨b, List.mem_cons_of_mem _ listed, is⟩

theorem exists_forall₂ {R : α → β → Prop} {left : List α}
    (each : ∀ a ∈ left, ∃ b, R a b) : ∃ right, List.Forall₂ R left right := by
  induction left with
  | nil => exact ⟨[], .nil⟩
  | cons a rest ih =>
      obtain ⟨here, later⟩ := List.forall_mem_cons.1 each
      obtain ⟨b, first⟩ := here
      obtain ⟨right, others⟩ := ih later
      exact ⟨b :: right, .cons first others⟩

/-- A computation that evaluates to a value. -/
theorem ok_of_isOk {ε α : Type} {x : Except ε α} (is : x.isOk = true) : ∃ a, x = .ok a := by
  cases x with
  | error e => cases is
  | ok a => exact ⟨a, rfl⟩

theorem ok_of_any {ε α : Type} {x : Except ε α} {p : α → Bool} (any : x.toOption.any p = true) :
    ∃ a, x = .ok a ∧ p a = true := by
  cases x with
  | error e => cases any
  | ok a => exact ⟨a, rfl, any⟩

end TypstMcp.Theory
