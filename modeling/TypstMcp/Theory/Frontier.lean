/-
Theory.Frontier -- what a worklist over a tree of paths has found and has left

`pending` are the subtrees still to visit, `found` what was found.  The targets are
found or below a pending path, no two pending paths overlap, and nothing found lies
below one; `Frontier.expand`, `take` and `skip` are the three ways to go on, and
`Frontier.done` is what an empty worklist means.  Each visit uncovers a key, so
`uncovered_lt` bounds the visits by the number of keys.
-/
import TypstMcp.Theory.FileTree

namespace TypstMcp.Theory

set_option autoImplicit false

/-- Neither path is at or below the other. -/
def Apart (p q : Path) : Prop := ¬ p <+: q ∧ ¬ q <+: p

theorem Apart.symm {p q : Path} (apart : Apart p q) : Apart q p := ⟨apart.2, apart.1⟩

/-- Below a path means below one of two that are apart, never below both. -/
theorem Apart.below {p q r : Path} (apart : Apart p q) (below : p <+: r) : ¬ q <+: r := by
  intro other
  rcases List.prefix_or_prefix_of_prefix below other with le | le
  · exact apart.1 le
  · exact apart.2 le

theorem Apart.child {p q : Path} (apart : Apart p q) (name : String) : Apart (p ++ [name]) q := by
  constructor
  · intro le
    exact apart.1 ((List.prefix_append p [name]).trans le)
  · intro le
    exact apart.symm.below le (List.prefix_append p [name])

theorem apart_children (p : Path) {m n : String} (ne : m ≠ n) : Apart (p ++ [m]) (p ++ [n]) := by
  have differ : ∀ {a b : String}, a ≠ b → ¬ p ++ [a] <+: p ++ [b] := by
    intro a b ne le
    have := List.IsPrefix.eq_of_length le (by simp)
    exact ne (by simpa using this)
  exact ⟨differ ne, differ ne.symm⟩

structure Frontier (target : Path → Prop) (pending found : List Path) : Prop where
  apart : pending.Pairwise Apart
  clear : ∀ p ∈ pending, ∀ f ∈ found, ¬ p <+: f
  distinct : found.Nodup
  only : ∀ f ∈ found, target f
  covered : ∀ f, target f → f ∈ found ∨ ∃ p ∈ pending, p <+: f

namespace Frontier

variable {target : Path → Prop} {pending pending' found : List Path} {p : Path}

theorem start {root : Path} (below : ∀ f, target f → root <+: f) : Frontier target [root] [] where
  apart := List.pairwise_singleton _ _
  clear := by simp
  distinct := List.nodup_nil
  only := by simp
  covered f is := .inr ⟨root, List.mem_singleton_self root, below f is⟩

theorem done (frontier : Frontier target [] found) : ∀ f, f ∈ found ↔ target f := by
  intro f
  constructor
  · exact frontier.only f
  · intro is
    rcases frontier.covered f is with inside | ⟨_, none, -⟩
    · exact inside
    · cases none

theorem perm (frontier : Frontier target pending found) (same : pending.Perm pending') :
    Frontier target pending' found where
  apart := (same.pairwise_iff Apart.symm).1 frontier.apart
  clear p inside := frontier.clear p (same.mem_iff.2 inside)
  distinct := frontier.distinct
  only := frontier.only
  covered f is := by
    rcases frontier.covered f is with inside | ⟨p, left, below⟩
    · exact .inl inside
    · exact .inr ⟨p, same.mem_iff.1 left, below⟩

/-- A pending path with no target at or below it. -/
theorem skip (frontier : Frontier target (p :: pending) found) (none : ∀ f, target f → ¬ p <+: f) :
    Frontier target pending found where
  apart := (List.pairwise_cons.1 frontier.apart).2
  clear q inside := frontier.clear q (List.mem_cons_of_mem _ inside)
  distinct := frontier.distinct
  only := frontier.only
  covered f is := by
    rcases frontier.covered f is with inside | ⟨q, left, below⟩
    · exact .inl inside
    · rcases List.mem_cons.1 left with rfl | left
      · exact absurd below (none f is)
      · exact .inr ⟨q, left, below⟩

/-- A pending path that is a target itself, with none below. -/
theorem take (frontier : Frontier target (p :: pending) found) (is : target p)
    (alone : ∀ f, target f → p <+: f → f = p) : Frontier target pending (found ++ [p]) where
  apart := (List.pairwise_cons.1 frontier.apart).2
  clear q inside f seen := by
    rcases List.mem_append.1 seen with seen | here
    · exact frontier.clear q (List.mem_cons_of_mem _ inside) f seen
    · rw [List.mem_singleton.1 here]
      exact ((List.pairwise_cons.1 frontier.apart).1 q inside).2
  distinct := by
    refine List.nodup_append.2 ⟨frontier.distinct, List.nodup_singleton p, ?_⟩
    rintro f seen g here rfl
    rw [List.mem_singleton.1 here] at seen
    exact frontier.clear p List.mem_cons_self p seen List.prefix_rfl
  only f seen := by
    rcases List.mem_append.1 seen with seen | here
    · exact frontier.only f seen
    · exact List.mem_singleton.1 here ▸ is
  covered f other := by
    rcases frontier.covered f other with seen | ⟨q, left, below⟩
    · exact .inl (List.mem_append_left _ seen)
    · rcases List.mem_cons.1 left with rfl | left
      · exact .inl (List.mem_append_right _ (List.mem_singleton.2 (alone f other below)))
      · exact .inr ⟨q, left, below⟩

/-- A pending directory, replaced by its children. -/
theorem expand {names : List String} (frontier : Frontier target (p :: pending) found)
    (distinct : names.Nodup)
    (inside : ∀ f, target f → p <+: f → ∃ n ∈ names, p ++ [n] <+: f) :
    Frontier target (names.map (fun n => p ++ [n]) ++ pending) found where
  apart := by
    obtain ⟨here, rest⟩ := List.pairwise_cons.1 frontier.apart
    refine List.pairwise_append.2 ⟨?_, rest, ?_⟩
    · exact List.pairwise_map.2 (distinct.imp fun ne => apart_children p ne)
    · intro c child q left
      obtain ⟨n, -, rfl⟩ := List.mem_map.1 child
      exact (here q left).child n
  clear q left f seen below := by
    rcases List.mem_append.1 left with child | left
    · obtain ⟨n, -, rfl⟩ := List.mem_map.1 child
      exact frontier.clear p List.mem_cons_self f seen ((List.prefix_append p [n]).trans below)
    · exact frontier.clear q (List.mem_cons_of_mem _ left) f seen below
  distinct := frontier.distinct
  only := frontier.only
  covered f is := by
    rcases frontier.covered f is with seen | ⟨q, left, below⟩
    · exact .inl seen
    · rcases List.mem_cons.1 left with rfl | left
      · obtain ⟨n, listed, lower⟩ := inside f is below
        exact .inr ⟨_, List.mem_append_left _ (List.mem_map_of_mem listed), lower⟩
      · exact .inr ⟨q, List.mem_append_right _ left, below⟩

end Frontier

/-! ## Progress -/

/-- The keys at or below a pending path. -/
def uncovered (t : FileTree) (pending : List Path) : Nat :=
  t.keys.countP fun key => pending.any (·.isPrefixOf key)

theorem uncovered_le_keys (t : FileTree) (pending : List Path) :
    uncovered t pending ≤ t.keys.length := List.countP_le_length

theorem uncovered_lt {t : FileTree} {pending pending' : List Path} {key : Path}
    (listed : key ∈ t.keys) (before : ∃ p ∈ pending, p <+: key)
    (after : ∀ p ∈ pending', ¬ p <+: key)
    (within : ∀ p ∈ pending', ∃ q ∈ pending, q <+: p) :
    uncovered t pending' < uncovered t pending := by
  have le : ∀ other, (pending'.any fun p => p.isPrefixOf other) = true →
      (pending.any fun p => p.isPrefixOf other) = true := by
    intro other some
    obtain ⟨p, left, below⟩ := List.any_eq_true.1 some
    obtain ⟨q, old, le⟩ := within p left
    exact List.any_eq_true.2 ⟨q, old, by simpa using le.trans (List.isPrefixOf_iff_prefix.1 below)⟩
  obtain ⟨first, rest, split⟩ := List.append_of_mem listed
  have gone : (pending'.any fun p => p.isPrefixOf key) = false := by
    rw [List.any_eq_false]
    intro p left
    simpa using after p left
  have there : (pending.any fun p => p.isPrefixOf key) = true := by
    obtain ⟨p, left, below⟩ := before
    exact List.any_eq_true.2 ⟨p, left, by simpa using below⟩
  have mono : ∀ keys : List Path,
      (keys.countP fun key => pending'.any (·.isPrefixOf key)) ≤
        keys.countP fun key => pending.any (·.isPrefixOf key) :=
    fun keys => List.countP_mono_left fun other _ => le other
  have head := mono first
  have tail := mono rest
  unfold uncovered
  rw [split, List.countP_append, List.countP_append, List.countP_cons, List.countP_cons, gone,
    there]
  simp only [Bool.false_eq_true, if_false, if_true]
  omega

end TypstMcp.Theory
