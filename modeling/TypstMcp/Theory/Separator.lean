/-
Theory.Separator -- a list cut at a separator of several elements

`str::split` with a string: from the left, at every occurrence that does not overlap the
one before.  An occurrence that begins in a piece could end in the separator after it; a
separator that begins with none of its own ends (`Borderless`) cannot do that, and then
cutting undoes joining.

* `split_append`: a cut at the separator, whatever stands on both sides.
* `split_intercalate`: the pieces of joined parts are the pieces of the parts.
* `split_eq_singleton`: what stays in one piece.
-/
import Mathlib.Tactic

namespace TypstMcp.Theory.Separator

set_option autoImplicit false

variable {α : Type} [DecidableEq α] {sep x y piece : List α} {c : α} {rest : List α}

/-- The pieces, once so many more elements of the separator have been passed. -/
def splitAfter (sep : List α) : Nat → List α → List (List α)
  | _, [] => [[]]
  | skip + 1, _ :: rest => splitAfter sep skip rest
  | 0, c :: rest =>
      if sep <+: c :: rest then [] :: splitAfter sep (sep.length - 1) rest
      else (splitAfter sep 0 rest).modifyHead (c :: ·)

/-- The text between the occurrences of `sep`. -/
def split (sep text : List α) : List (List α) := splitAfter sep 0 text

/-- No proper end of the separator is a beginning of it. -/
structure Borderless (sep : List α) : Prop where
  nonempty : sep ≠ []
  ends : ∀ k < sep.length, 0 < k → ¬ sep.drop k <+: sep

/-! ## Cutting, step by step -/

@[simp] theorem split_nil (sep : List α) : split sep [] = [[]] := rfl

theorem splitAfter_eq (sep : List α) (skip : Nat) (x : List α) :
    splitAfter sep skip x = split sep (x.drop skip) := by
  induction x generalizing skip with
  | nil => rw [List.drop_nil]; cases skip <;> rfl
  | cons c rest ih =>
      cases skip with
      | zero => rfl
      | succ skip => exact ih skip

theorem split_sep (nonempty : sep ≠ []) (y : List α) : split sep (sep ++ y) = [] :: split sep y := by
  obtain ⟨c, rest, rfl⟩ := List.exists_cons_of_ne_nil nonempty
  have cut : split (c :: rest) (c :: (rest ++ y)) =
      [] :: splitAfter (c :: rest) rest.length (rest ++ y) := if_pos (List.prefix_append _ _)
  rw [List.cons_append, cut, splitAfter_eq, List.drop_left]

theorem split_cons (apart : ¬ sep <+: c :: rest) :
    split sep (c :: rest) = (split sep rest).modifyHead (c :: ·) := if_neg apart

theorem split_ne_nil (sep x : List α) : split sep x ≠ [] := by
  induction x with
  | nil => simp
  | cons c rest ih =>
      unfold split splitAfter
      split
      · exact List.cons_ne_nil _ _
      · obtain ⟨first, later, pieces⟩ := List.exists_cons_of_ne_nil ih
        rw [show splitAfter sep 0 rest = first :: later from pieces]
        exact List.cons_ne_nil _ _

/-- Either the text begins with the separator, or its first element stays in the first piece. -/
theorem split_cases (nonempty : sep ≠ []) (x : List α) :
    x = [] ∨ (∃ y, x = sep ++ y ∧ y.length < x.length ∧ split sep x = [] :: split sep y) ∨
      ∃ c rest, x = c :: rest ∧ ¬ sep <+: x ∧
        split sep x = (split sep rest).modifyHead (c :: ·) := by
  cases x with
  | nil => exact .inl rfl
  | cons c rest =>
      refine .inr ?_
      by_cases starts : sep <+: c :: rest
      · obtain ⟨y, whole⟩ := starts
        refine .inl ⟨y, whole.symm, ?_, whole ▸ split_sep nonempty y⟩
        have := List.length_pos_of_ne_nil nonempty
        rw [← whole, List.length_append]
        omega
      · exact .inr ⟨c, rest, rfl, starts, split_cons starts⟩

/-! ## Joining -/

omit [DecidableEq α] in
/-- An occurrence that begins in the piece ends in it. -/
theorem Borderless.inside (borderless : Borderless sep) (apart : ¬ sep <+: c :: rest) (y : List α) :
    ¬ sep <+: c :: rest ++ (sep ++ y) := by
  intro starts
  by_cases long : sep.length ≤ (c :: rest).length
  · exact apart (List.prefix_of_prefix_length_le starts (List.prefix_append _ _) long)
  · -- Otherwise what is left of it is a beginning of the separator that follows.
    have shorter : (c :: rest).length < sep.length := Nat.lt_of_not_le long
    obtain ⟨left, whole⟩ := List.prefix_of_prefix_length_le (List.prefix_append (c :: rest) (sep ++ y))
      starts shorter.le
    have left_eq : left = sep.drop (c :: rest).length := by rw [← whole, List.drop_left]
    have follows : left <+: sep ++ y := (List.prefix_append_right_inj (c :: rest)).1 (whole ▸ starts)
    have fits : left.length ≤ sep.length := by rw [left_eq, List.length_drop]; omega
    refine borderless.ends _ shorter (by simp) ?_
    rw [← left_eq]
    exact List.prefix_of_prefix_length_le follows (List.prefix_append _ _) fits

/-- **A separator between two texts is a cut.** -/
theorem split_append (borderless : Borderless sep) (x y : List α) :
    split sep (x ++ (sep ++ y)) = split sep x ++ split sep y := by
  rcases split_cases borderless.nonempty x with
    rfl | ⟨later, rfl, less, cut⟩ | ⟨c, rest, rfl, apart, cut⟩
  · exact split_sep borderless.nonempty y
  · rw [cut, List.append_assoc, split_sep borderless.nonempty, split_append borderless later y]
    rfl
  · obtain ⟨first, others, pieces⟩ := List.exists_cons_of_ne_nil (split_ne_nil sep rest)
    have step : split sep (c :: rest ++ (sep ++ y)) =
        (split sep (rest ++ (sep ++ y))).modifyHead (c :: ·) :=
      split_cons (borderless.inside apart y)
    rw [step, split_append borderless rest y, cut, pieces]
    rfl
termination_by x.length

theorem split_intercalate (borderless : Borderless sep) {parts : List (List α)} (some : parts ≠ []) :
    split sep (sep.intercalate parts) = parts.flatMap (split sep) := by
  induction parts with
  | nil => exact absurd rfl some
  | cons part others ih =>
      cases others with
      | nil => simp
      | cons next others =>
          rw [List.intercalate_cons_cons, List.append_assoc, split_append borderless,
            ih (List.cons_ne_nil _ _)]
          exact List.flatMap_cons.symm

/-! ## Pieces -/

/-- The first piece is a beginning of the text, and no piece has the separator in it. -/
theorem split_pieces (nonempty : sep ≠ []) (x : List α) :
    (∀ first ∈ (split sep x).head?, first <+: x) ∧ ∀ piece ∈ split sep x, ¬ sep <:+: piece := by
  rcases split_cases nonempty x with rfl | ⟨later, whole, less, cut⟩ | ⟨c, rest, whole, apart, cut⟩
  · refine ⟨fun first head => ?_, fun piece inside => ?_⟩
    · obtain rfl := Option.some.inj head
      exact List.prefix_rfl
    · rw [split_nil, List.mem_singleton] at inside
      simpa [inside] using nonempty
  · obtain ⟨-, clear⟩ := split_pieces nonempty later
    rw [cut]
    refine ⟨fun first head => ?_, fun piece inside => ?_⟩
    · obtain rfl := Option.some.inj head
      exact List.nil_prefix
    · rcases List.mem_cons.1 inside with rfl | inside
      · simpa using nonempty
      · exact clear piece inside
  · have less : rest.length < x.length := by rw [whole]; exact Nat.lt_succ_self _
    obtain ⟨front, clear⟩ := split_pieces nonempty rest
    obtain ⟨first, others, pieces⟩ := List.exists_cons_of_ne_nil (split_ne_nil sep rest)
    rw [pieces] at front clear
    have begins : c :: first <+: x := by
      rw [whole, List.cons_prefix_cons]
      exact ⟨rfl, front first rfl⟩
    rw [cut, pieces, List.modifyHead_cons]
    refine ⟨fun head same => Option.some.inj same ▸ begins, fun piece inside => ?_⟩
    rcases List.mem_cons.1 inside with rfl | inside
    · -- Not at its front, or the text would begin with it; and not further on.
      rw [List.infix_cons_iff]
      rintro (front' | further)
      · exact apart (front'.trans begins)
      · exact clear first List.mem_cons_self further
    · exact clear piece (List.mem_cons_of_mem _ inside)
termination_by x.length

theorem not_infix_of_mem_split (nonempty : sep ≠ []) (inside : piece ∈ split sep x) :
    ¬ sep <:+: piece := (split_pieces nonempty x).2 piece inside

/-- **A text is its only piece if and only if it does not have the separator in it.** -/
theorem split_eq_singleton (nonempty : sep ≠ []) : split sep x = [x] ↔ ¬ sep <:+: x := by
  constructor
  · intro whole
    exact not_infix_of_mem_split nonempty (whole ▸ List.mem_singleton_self x)
  · intro clear
    induction x with
    | nil => rfl
    | cons c rest ih =>
        rw [List.infix_cons_iff, not_or] at clear
        rw [split_cons clear.1, ih clear.2]
        rfl

end TypstMcp.Theory.Separator
