/-
Theory.Pieces -- a list cut at a separator

What comes before the first separator and what comes after the last one are determined
by the whole list (`first_cut`, `last_cut`).  `List.splitOn` cuts at every separator;
its pieces have none and hold the rest of the list.
-/
import Mathlib.Tactic

namespace TypstMcp.Theory.Pieces

set_option autoImplicit false

variable {α : Type} {sep : α} {a b more more' : List α}

theorem first_cut (freeA : sep ∉ a) (freeB : sep ∉ b) (same : a ++ sep :: more = b ++ sep :: more') :
    a = b ∧ more = more' := by
  induction a generalizing b with
  | nil =>
      cases b with
      | nil => exact ⟨rfl, (List.cons.inj same).2⟩
      | cons c rest => exact absurd ((List.cons.inj same).1 ▸ List.mem_cons_self) freeB
  | cons c rest ih =>
      cases b with
      | nil => exact absurd ((List.cons.inj same).1 ▸ List.mem_cons_self) freeA
      | cons d others =>
          obtain ⟨rfl, tail⟩ := List.cons.inj same
          obtain ⟨rfl, after⟩ := ih (fun inside => freeA (List.mem_cons_of_mem _ inside))
            (fun inside => freeB (List.mem_cons_of_mem _ inside)) tail
          exact ⟨rfl, after⟩

/-- The same from the other end. -/
theorem last_cut (freeA : sep ∉ more) (freeB : sep ∉ more')
    (same : a ++ sep :: more = b ++ sep :: more') : a = b ∧ more = more' := by
  have turned := congrArg List.reverse same
  simp only [List.reverse_append, List.reverse_cons, List.append_assoc, List.singleton_append]
    at turned
  obtain ⟨afters, befores⟩ := first_cut (by simpa using freeA) (by simpa using freeB) turned
  exact ⟨List.reverse_inj.1 befores, List.reverse_inj.1 afters⟩

/-- Pieces joined hold the separator and what the pieces hold. -/
theorem mem_intercalate {parts : List (List α)} {c : α} (there : c ∈ [sep].intercalate parts) :
    c = sep ∨ ∃ part ∈ parts, c ∈ part := by
  induction parts with
  | nil => simp at there
  | cons part rest ih =>
      cases rest with
      | nil => exact .inr ⟨part, List.mem_cons_self, by simpa using there⟩
      | cons next rest =>
          rw [List.intercalate_cons_cons, List.mem_append, List.mem_append, List.mem_singleton]
            at there
          rcases there with (here | same) | later
          · exact .inr ⟨part, List.mem_cons_self, here⟩
          · exact .inl same
          · rcases ih later with same | ⟨other, inside, there⟩
            · exact .inl same
            · exact .inr ⟨other, List.mem_cons_of_mem _ inside, there⟩

theorem mem_intercalate_of_mem {parts : List (List α)} {part : List α} (inside : part ∈ parts) {c : α}
    (there : c ∈ part) : c ∈ [sep].intercalate parts := by
  induction parts with
  | nil => cases inside
  | cons first rest ih =>
      cases rest with
      | nil =>
          obtain rfl := List.mem_singleton.1 inside
          simpa using there
      | cons next rest =>
          rw [List.intercalate_cons_cons, List.mem_append, List.mem_append]
          rcases List.mem_cons.1 inside with rfl | later
          · exact .inl (.inl there)
          · exact .inr (ih later)

variable [DecidableEq α]

theorem mem_splitOn_cons {piece : List α} {c : α} {rest : List α}
    (inside : piece ∈ (c :: rest).splitOn sep) :
    piece = [] ∨ piece ∈ rest.splitOn sep ∨
      c ≠ sep ∧ ∃ first ∈ rest.splitOn sep, piece = c :: first := by
  obtain ⟨first, later, cut⟩ := List.exists_cons_of_ne_nil (List.splitOn_ne_nil sep rest)
  rw [List.splitOn_cons_eq_if_modifyHead, cut] at inside
  split_ifs at inside with separator
  · rcases List.mem_cons.1 inside with rfl | inside
    · exact .inl rfl
    · exact .inr (.inl (cut ▸ inside))
  · rcases List.mem_cons.1 inside with rfl | inside
    · exact .inr (.inr ⟨by simpa using separator, first, cut ▸ List.mem_cons_self, rfl⟩)
    · exact .inr (.inl (cut ▸ List.mem_cons_of_mem _ inside))

/-- A piece has no separator. -/
theorem not_mem_of_mem_splitOn {piece text : List α} (inside : piece ∈ text.splitOn sep) :
    sep ∉ piece := by
  induction text generalizing piece with
  | nil =>
      rw [List.splitOn_nil, List.mem_singleton] at inside
      simp [inside]
  | cons c rest ih =>
      rcases mem_splitOn_cons inside with rfl | later | ⟨other, first, later, rfl⟩
      · simp
      · exact ih later
      · simp [other.symm, ih later]

/-- A piece is made of the list's elements. -/
theorem mem_of_mem_splitOn {piece text : List α} (inside : piece ∈ text.splitOn sep) {c : α}
    (there : c ∈ piece) : c ∈ text := by
  induction text generalizing piece with
  | nil =>
      rw [List.splitOn_nil, List.mem_singleton] at inside
      simp [inside] at there
  | cons d rest ih =>
      rcases mem_splitOn_cons inside with rfl | later | ⟨-, first, later, rfl⟩
      · cases there
      · exact List.mem_cons_of_mem _ (ih later there)
      · rcases List.mem_cons.1 there with rfl | there
        · exact List.mem_cons_self
        · exact List.mem_cons_of_mem _ (ih later there)

/-- A list of three pieces. -/
theorem splitOn_three {text b c : List α} :
    text.splitOn sep = [a, b, c] ↔
      text = a ++ sep :: (b ++ sep :: c) ∧ sep ∉ a ∧ sep ∉ b ∧ sep ∉ c := by
  constructor
  · intro cut
    have free : ∀ piece ∈ [a, b, c], sep ∉ piece := fun piece inside =>
      not_mem_of_mem_splitOn (cut ▸ inside)
    refine ⟨?_, free a (by simp), free b (by simp), free c (by simp)⟩
    have whole : [sep].intercalate (text.splitOn sep) = text := List.intercalate_splitOn sep
    rw [← whole, cut]
    simp [List.intercalate]
  · rintro ⟨rfl, freeA, freeB, freeC⟩
    rw [List.splitOn_append_cons_self, List.splitOn_append_cons_self, List.splitOn_eq_singleton freeA,
      List.splitOn_eq_singleton freeB, List.splitOn_eq_singleton freeC]
    rfl

/-- A list with the separator in it, cut at the last one. -/
theorem exists_last_cut {text : List α} (inside : sep ∈ text) :
    ∃ front last, text = front ++ sep :: last ∧ sep ∉ last := by
  induction text with
  | nil => cases inside
  | cons c rest ih =>
      by_cases later : sep ∈ rest
      · obtain ⟨front, last, rfl, free⟩ := ih later
        exact ⟨c :: front, last, rfl, free⟩
      · rcases List.mem_cons.1 inside with rfl | inside
        · exact ⟨[], rest, rfl, later⟩
        · exact (later inside).elim

/-- The last piece is what follows the last separator, or the whole. -/
theorem getLast?_splitOn {text last : List α} :
    (text.splitOn sep).getLast? = some last ↔
      sep ∉ last ∧ (text = last ∨ ∃ front, text = front ++ sep :: last) := by
  by_cases inside : sep ∈ text
  · obtain ⟨front, after, rfl, free⟩ := exists_last_cut inside
    rw [List.splitOn_append_cons_self, List.splitOn_eq_singleton free, List.getLast?_append,
      List.getLast?_singleton, Option.some_or, Option.some_inj]
    constructor
    · rintro rfl
      exact ⟨free, .inr ⟨front, rfl⟩⟩
    · rintro ⟨free', rfl | ⟨front', same⟩⟩
      · exact (free' inside).elim
      · exact (last_cut free free' same).2
  · rw [List.splitOn_eq_singleton inside, List.getLast?_singleton, Option.some_inj]
    constructor
    · rintro rfl
      exact ⟨inside, .inl rfl⟩
    · rintro ⟨-, same | ⟨front, rfl⟩⟩
      · exact same
      · exact (inside (by simp)).elim

end TypstMcp.Theory.Pieces
