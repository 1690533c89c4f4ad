/-
Theory.Worklist -- a search driven by a stack of what is left to visit

The visit of a node fails, or says which nodes are below it and what it found.  `search`
takes the last pending node, visits it and pushes the nodes below; `traverse` is the
recursion that goes down a tree of limited height.

* `search_eq`: with enough fuel the search is the recursion.
* `traverse_ok`, `mem_traverse`: whether it succeeds and what it finds depend on the nodes
  of the tree alone, not on their order.
* `traverse_pairwise`: a relation that the finds of one node have, and of two subtrees.
-/
import TypstMcp.Theory.Checked

namespace TypstMcp.Theory.Worklist

set_option autoImplicit false

variable {α β ε : Type}

/-- What a visit says: the nodes below, and what was found. -/
abbrev Visit (α β ε : Type) := α → Except ε (List α × List β)

/-- `while let Some(a) = pending.pop()`; `none` when the fuel is spent. -/
def search (visit : Visit α β ε) : Nat → List α → List β → Option (Except ε (List β))
  | 0, _, _ => none
  | fuel + 1, pending, found =>
      match pending.getLast? with
      | none => some (.ok found)
      | some a =>
          match visit a with
          | .error e => some (.error e)
          | .ok (below, here) => search visit fuel (pending.dropLast ++ below) (found ++ here)

/-- The tree of a node down to a depth, what is below it from the last to the first. -/
def traverse (visit : Visit α β ε) : Nat → α → Except ε (List β)
  | 0, _ => .ok []
  | depth + 1, a => do
      let (below, here) ← visit a
      let parts ← below.reverse.mapM (traverse visit depth)
      return here ++ parts.flatten

/-- The nodes of the tree of `root`. -/
inductive Reached (visit : Visit α β ε) (root : α) : α → Prop
  | root : Reached visit root root
  | child {a b : α} {below : List α} {here : List β} (above : Reached visit root a)
      (visited : visit a = .ok (below, here)) (inside : b ∈ below) : Reached visit root b

variable {visit : Visit α β ε}

/-! ## The stack -/

/-- The search goes on from `rest`, or ends, when what a list of subtrees comes to is known. -/
def Resumes (visit : Visit α β ε) (nodes : List α) (outcome : Except ε (List β)) : Prop :=
  ∃ n, ∀ fuel rest found, search visit (fuel + n) (rest ++ nodes) found =
    match outcome with
    | .error e => some (.error e)
    | .ok here => search visit fuel rest (found ++ here)

theorem resumes_nodes {depth : Nat} {nodes : List α}
    (each : ∀ a ∈ nodes, Resumes visit [a] (traverse visit depth a)) :
    Resumes visit nodes ((nodes.reverse.mapM (traverse visit depth)).map List.flatten) := by
  induction nodes using List.reverseRecOn with
  | nil => exact ⟨0, fun fuel rest found => by simp [pure, Except.pure, Except.map]⟩
  | append_singleton init last ih =>
      obtain ⟨n, first⟩ := each last (List.mem_append_right _ List.mem_cons_self)
      obtain ⟨m, others⟩ := ih fun a inside => each a (List.mem_append_left _ inside)
      refine ⟨m + n, fun fuel rest found => ?_⟩
      rw [← Nat.add_assoc, ← List.append_assoc, first, List.reverse_append, List.reverse_singleton,
        List.singleton_append, List.mapM_cons]
      cases traverse visit depth last with
      | error e => rfl
      | ok here =>
          simp only []
          rw [others, ok_bind]
          cases init.reverse.mapM (traverse visit depth) with
          | error e => rfl
          | ok parts =>
              show search visit fuel rest (found ++ here ++ parts.flatten) =
                search visit fuel rest (found ++ (here :: parts).flatten)
              rw [List.flatten_cons, List.append_assoc]

/-- The visits lead down: what is below a node is lower than it. -/
def Lowers (visit : Visit α β ε) (height : α → Nat) : Prop :=
  ∀ a below here, visit a = .ok (below, here) → ∀ b ∈ below, height b < height a

variable {height : α → Nat}

/-- **Visiting a node ends with its whole tree visited.** -/
theorem search_node (lowers : Lowers visit height) {depth : Nat} {a : α} (deep : height a < depth) :
    Resumes visit [a] (traverse visit depth a) := by
  induction depth generalizing a with
  | zero => exact absurd deep (Nat.not_lt_zero _)
  | succ depth ih =>
      rw [traverse]
      cases visited : visit a with
      | error e =>
          refine ⟨1, fun fuel rest found => ?_⟩
          simp [search, visited, error_bind]
      | ok got =>
          obtain ⟨below, here⟩ := got
          have lower : ∀ b ∈ below, height b < depth := fun b inside =>
            lt_of_lt_of_le (lowers a below here visited b inside) (Nat.le_of_lt_succ deep)
          obtain ⟨n, subtrees⟩ := resumes_nodes fun b inside => ih (lower b inside)
          refine ⟨n + 1, fun fuel rest found => ?_⟩
          rw [← Nat.add_assoc, search, List.getLast?_concat]
          simp only [visited, List.dropLast_concat]
          rw [subtrees, ok_bind]
          simp only []
          cases below.reverse.mapM (traverse visit depth) with
          | error e => rfl
          | ok parts =>
              show search visit fuel rest (found ++ here ++ parts.flatten) =
                search visit fuel rest (found ++ (here ++ parts.flatten))
              rw [List.append_assoc]

/-- **With enough fuel the search is the recursion.** -/
theorem search_eq (lowers : Lowers visit height) {depth : Nat} {root : α}
    (deep : height root < depth) :
    ∃ n, ∀ fuel, n ≤ fuel → search visit fuel [root] [] = some (traverse visit depth root) := by
  obtain ⟨n, resumes⟩ := search_node lowers deep
  refine ⟨n + 1, fun fuel enough => ?_⟩
  obtain ⟨spare, rfl⟩ : ∃ spare, fuel = (spare + 1) + n := ⟨fuel - (n + 1), by omega⟩
  have went := resumes (spare + 1) [] []
  rw [List.nil_append] at went
  rw [went]
  cases traverse visit depth root <;> rfl

/-- What the search came to it comes to with more fuel. -/
theorem search_more {fuel : Nat} {pending : List α} {found : List β}
    {outcome : Except ε (List β)} (ended : search visit fuel pending found = some outcome)
    {more : Nat} (le : fuel ≤ more) : search visit more pending found = some outcome := by
  induction fuel generalizing more pending found with
  | zero => cases ended
  | succ fuel ih =>
      obtain ⟨more, rfl⟩ : ∃ m, more = m + 1 := ⟨more - 1, by omega⟩
      rw [search] at ended ⊢
      cases last : pending.getLast? with
      | none =>
          simp only [last] at ended ⊢
          exact ended
      | some a =>
          simp only [last] at ended ⊢
          cases visited : visit a with
          | error e =>
              simp only [visited] at ended ⊢
              exact ended
          | ok got =>
              simp only [visited] at ended ⊢
              exact ih ended (by omega)

/-! ## The tree -/

theorem reached_cases {root b : α} : Reached visit root b ↔
    b = root ∨ ∃ below here k, visit root = .ok (below, here) ∧ k ∈ below ∧ Reached visit k b := by
  constructor
  · intro reached
    induction reached with
    | root => exact .inl rfl
    | child above visited inside ih =>
        rcases ih with rfl | ⟨nodes, here, k, first, child, reached⟩
        · exact .inr ⟨_, _, _, visited, inside, .root⟩
        · exact .inr ⟨nodes, here, k, first, child, reached.child visited inside⟩
  · rintro (rfl | ⟨below, here, k, visited, child, reached⟩)
    · exact .root
    · induction reached with
      | root => exact .child .root visited child
      | child _ later inside ih => exact .child ih later inside

theorem traverse_succ {depth : Nat} {a : α} {found : List β} :
    traverse visit (depth + 1) a = .ok found ↔
      ∃ below here parts, visit a = .ok (below, here) ∧
        List.Forall₂ (fun k part => traverse visit depth k = .ok part) below.reverse parts ∧
        found = here ++ parts.flatten := by
  rw [traverse, bind_eq_ok]
  constructor
  · rintro ⟨⟨below, here⟩, visited, rest⟩
    obtain ⟨parts, each, made⟩ := bind_eq_ok.1 rest
    exact ⟨below, here, parts, visited, mapM_eq_ok.1 each, pure_eq_ok.1 made⟩
  · rintro ⟨below, here, parts, visited, each, rfl⟩
    exact ⟨(below, here), visited, bind_eq_ok.2 ⟨parts, mapM_eq_ok.2 each, rfl⟩⟩

/-- **The search succeeds exactly where no visit in the tree fails.** -/
theorem traverse_ok (lowers : Lowers visit height) {depth : Nat} {root : α}
    (deep : height root < depth) : (∃ found, traverse visit depth root = .ok found) ↔
      ∀ a, Reached visit root a → ∃ got, visit a = .ok got := by
  induction depth generalizing root with
  | zero => exact absurd deep (Nat.not_lt_zero _)
  | succ depth ih =>
      have lower : ∀ below here, visit root = .ok (below, here) → ∀ k ∈ below, height k < depth :=
        fun below here visited k inside =>
          lt_of_lt_of_le (lowers root below here visited k inside) (Nat.le_of_lt_succ deep)
      constructor
      · rintro ⟨found, went⟩ a reached
        obtain ⟨below, here, parts, visited, each, -⟩ := traverse_succ.1 went
        rcases reached_cases.1 reached with rfl | ⟨below', here', k, visited', inside, reached⟩
        · exact ⟨_, visited⟩
        · obtain ⟨rfl, rfl⟩ := Prod.mk.inj (Except.ok.inj (visited.symm.trans visited'))
          obtain ⟨part, -, went⟩ := mem_of_forall₂ each (List.mem_reverse.2 inside)
          exact (ih (lower _ _ visited k inside)).1 ⟨part, went⟩ a reached
      · intro all
        obtain ⟨⟨below, here⟩, visited⟩ := all root .root
        have each : ∀ k ∈ below.reverse, ∃ part, traverse visit depth k = .ok part := by
          intro k listed
          have inside := List.mem_reverse.1 listed
          refine (ih (lower _ _ visited k inside)).2 fun a reached => all a ?_
          exact reached_cases.2 (.inr ⟨below, here, k, visited, inside, reached⟩)
        obtain ⟨parts, went⟩ := exists_forall₂ each
        exact ⟨_, traverse_succ.2 ⟨below, here, parts, visited, went, rfl⟩⟩

/-- **What is found is what the nodes of the tree find.** -/
theorem mem_traverse (lowers : Lowers visit height) {depth : Nat} {root : α}
    (deep : height root < depth) {found : List β} (went : traverse visit depth root = .ok found)
    {b : β} : b ∈ found ↔
      ∃ a below here, Reached visit root a ∧ visit a = .ok (below, here) ∧ b ∈ here := by
  induction depth generalizing root found with
  | zero => exact absurd deep (Nat.not_lt_zero _)
  | succ depth ih =>
      obtain ⟨below, here, parts, visited, each, rfl⟩ := traverse_succ.1 went
      have lower : ∀ k ∈ below, height k < depth := fun k inside =>
        lt_of_lt_of_le (lowers root below here visited k inside) (Nat.le_of_lt_succ deep)
      rw [List.mem_append, List.mem_flatten]
      constructor
      · rintro (own | ⟨part, listed, inside⟩)
        · exact ⟨root, below, here, .root, visited, own⟩
        · obtain ⟨k, child, went⟩ := mem_of_forall₂ each.flip listed
          have child := List.mem_reverse.1 child
          obtain ⟨a, below', here', reached, visited', own⟩ := (ih (lower k child) went).1 inside
          exact ⟨a, below', here',
            reached_cases.2 (.inr ⟨below, here, k, visited, child, reached⟩), visited', own⟩
      · rintro ⟨a, below', here', reached, visited', own⟩
        rcases reached_cases.1 reached with rfl | ⟨nodes, finds, k, first, child, reached⟩
        · obtain ⟨rfl, rfl⟩ := Prod.mk.inj (Except.ok.inj (visited.symm.trans visited'))
          exact .inl own
        · obtain ⟨rfl, rfl⟩ := Prod.mk.inj (Except.ok.inj (visited.symm.trans first))
          obtain ⟨part, listed, went⟩ := mem_of_forall₂ each (List.mem_reverse.2 child)
          exact .inr ⟨part, listed, (ih (lower k child) went).2
            ⟨a, below', here', reached, visited', own⟩⟩

/-- Any two finds are related: those of one node, and those of nodes neither of which is below
the other, by where they were found (`At`). -/
structure Keeps (visit : Visit α β ε) (At : α → β → Prop) (R : β → β → Prop) : Prop where
  symm : ∀ b b', R b b' → R b' b
  own : ∀ a below here, visit a = .ok (below, here) → ∀ b ∈ here, At a b
  up : ∀ a below here, visit a = .ok (below, here) → ∀ k ∈ below, ∀ b, At k b → At a b
  here : ∀ a below here, visit a = .ok (below, here) → here.Pairwise R
  apart : ∀ a below here, visit a = .ok (below, here) →
    ∀ b ∈ here, ∀ k ∈ below, ∀ b', At k b' → R b b'
  below : ∀ a below here, visit a = .ok (below, here) →
    below.Pairwise fun k k' => ∀ b b', At k b → At k' b' → R b b'

/-- **Finds that are related where they are made are related in the whole.** -/
theorem traverse_pairwise {At : α → β → Prop} {R : β → β → Prop} (keeps : Keeps visit At R)
    {depth : Nat} {root : α} {found : List β} (went : traverse visit depth root = .ok found) :
    found.Pairwise R ∧ ∀ b ∈ found, At root b := by
  induction depth generalizing root found with
  | zero =>
      obtain rfl := Except.ok.inj went
      exact ⟨.nil, fun _ none => (List.not_mem_nil none).elim⟩
  | succ depth ih =>
      obtain ⟨below, here, parts, visited, each, rfl⟩ := traverse_succ.1 went
      have placed : ∀ part ∈ parts, ∃ k ∈ below, ∀ b ∈ part, At k b := by
        intro part listed
        obtain ⟨k, child, went⟩ := mem_of_forall₂ each.flip listed
        exact ⟨k, List.mem_reverse.1 child, (ih went).2⟩
      have inner : ∀ part ∈ parts, part.Pairwise R := by
        intro part listed
        obtain ⟨k, -, went⟩ := mem_of_forall₂ each.flip listed
        exact (ih went).1
      have subtrees : parts.Pairwise fun part part' => ∀ b ∈ part, ∀ b' ∈ part', R b b' := by
        have reversed : below.reverse.Pairwise
            fun k k' => ∀ b b', At k b → At k' b' → R b b' :=
          List.pairwise_reverse.2 ((keeps.below root below here visited).imp
            fun related b b' at_ at' => keeps.symm _ _ (related b' b at' at_))
        clear placed inner went
        generalize below.reverse = nodes at each reversed
        induction each with
        | nil => exact .nil
        | cons first rest later =>
            obtain ⟨head, tail⟩ := List.pairwise_cons.1 reversed
            refine List.pairwise_cons.2 ⟨fun part listed b inside b' inside' => ?_, later tail⟩
            obtain ⟨k', child, went⟩ := mem_of_forall₂ rest.flip listed
            exact head k' child b b' ((ih first).2 b inside) ((ih went).2 b' inside')
      refine ⟨List.pairwise_append.2 ⟨keeps.here root below here visited,
        List.pairwise_flatten.2 ⟨inner, subtrees⟩, ?_⟩, ?_⟩
      · intro b own b' inside
        obtain ⟨part, listed, inside⟩ := List.mem_flatten.1 inside
        obtain ⟨k, child, at_⟩ := placed part listed
        exact keeps.apart root below here visited b own k child b' (at_ b' inside)
      · intro b inside
        rcases List.mem_append.1 inside with own | inside
        · exact keeps.own root below here visited b own
        · obtain ⟨part, listed, inside⟩ := List.mem_flatten.1 inside
          obtain ⟨k, child, at_⟩ := placed part listed
          exact keeps.up root below here visited k child b (at_ b inside)

end TypstMcp.Theory.Worklist
