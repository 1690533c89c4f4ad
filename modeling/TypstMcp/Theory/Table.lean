/-
Theory.Table -- finite maps whose values are counted

A `Table` is Mathlib's association list at a constant family.  Its `weight` under
a measure is the sum of the measure over its entries; inserting, erasing and
comparing tables move the weight by exactly the entries they touch
(`weight_insert`, `weight_erase`, `weight_congr`).  `tally` reads a table of
counters, an absent key being zero, and `credit` and `debit` move one counter.
`retain` keeps the entries that pass a test.  `eldest` picks an entry of least age,
ties broken by the order in which the environment iterates.
-/
import Mathlib.Data.List.AList
import Mathlib.Data.List.MinMax
import Mathlib.Data.List.Sort
import Mathlib.Tactic

namespace TypstMcp.Theory

set_option autoImplicit false
set_option linter.unusedSectionVars false

abbrev Table (K V : Type) := AList fun _ : K => V

namespace Table

variable {K V : Type} [DecidableEq K]

/-! ## Lookups -/

theorem lookup_insert_eq (m : Table K V) (k k' : K) (v : V) :
    (m.insert k v).lookup k' = if k' = k then some v else m.lookup k' := by
  by_cases same : k' = k
  · subst same; simp
  · simp [same, AList.lookup_insert_ne same]

theorem lookup_erase_eq (m : Table K V) (k k' : K) :
    (m.erase k).lookup k' = if k' = k then none else m.lookup k' := by
  by_cases same : k' = k
  · subst same; simp
  · simp [same, AList.lookup_erase_ne same]

theorem mem_entries_iff {m : Table K V} {k : K} {v : V} :
    (⟨k, v⟩ : Sigma fun _ : K => V) ∈ m.entries ↔ m.lookup k = some v :=
  (AList.mem_lookup_iff (s := m)).symm

theorem erase_of_lookup_none {m : Table K V} {k : K} (absent : m.lookup k = none) :
    m.erase k = m := by
  apply AList.ext
  rw [AList.lookup_eq_none, AList.mem_keys] at absent
  exact List.kerase_of_notMem_keys absent

theorem perm_of_lookup {m m' : Table K V} (same : ∀ k, m.lookup k = m'.lookup k) :
    m.entries.Perm m'.entries := by
  refine List.lookup_ext m.nodupKeys m'.nodupKeys fun k v => ?_
  exact (congrArg (v ∈ ·) (same k)).to_iff

theorem perm_of_lookup_some {m : Table K V} {k : K} {v : V} (found : m.lookup k = some v) :
    m.entries.Perm (⟨k, v⟩ :: (m.erase k).entries) := by
  have inserted : ∀ k', m.lookup k' = ((m.erase k).insert k v).lookup k' := by
    intro k'
    rw [lookup_insert_eq, lookup_erase_eq]
    split
    · subst_vars; exact found
    · rfl
  have fresh : k ∉ m.erase k := by simp [AList.mem_erase]
  exact (perm_of_lookup inserted).trans (by rw [AList.entries_insert_of_notMem fresh])

/-! ## Weights -/

/-- The sum of a measure over the entries of a table. -/
def weight (f : K → V → Nat) (m : Table K V) : Nat :=
  (m.entries.map fun e => f e.1 e.2).sum

variable {f g : K → V → Nat} {m m' : Table K V} {k : K} {v : V}

@[simp] theorem weight_empty (f : K → V → Nat) : weight f (∅ : Table K V) = 0 := rfl

theorem weight_perm (same : m.entries.Perm m'.entries) : weight f m = weight f m' :=
  (same.map _).sum_eq

theorem weight_congr (same : ∀ k, m.lookup k = m'.lookup k) : weight f m = weight f m' :=
  weight_perm (perm_of_lookup same)

theorem weight_of_lookup (f : K → V → Nat) (found : m.lookup k = some v) :
    weight f m = f k v + weight f (m.erase k) := by
  have := ((perm_of_lookup_some found).map fun e => f e.1 e.2).sum_eq
  simpa [weight] using this

theorem weight_insert (f : K → V → Nat) (m : Table K V) (k : K) (v : V) :
    weight f (m.insert k v) = f k v + weight f (m.erase k) := by
  simp only [weight, AList.entries_insert, List.map_cons, List.sum_cons]
  rfl

theorem weight_insert_new (absent : m.lookup k = none) :
    weight f (m.insert k v) = f k v + weight f m := by
  rw [weight_insert, erase_of_lookup_none absent]

theorem weight_erase_le (f : K → V → Nat) (m : Table K V) (k : K) :
    weight f (m.erase k) ≤ weight f m := by
  cases found : m.lookup k with
  | none => rw [erase_of_lookup_none found]
  | some v => rw [weight_of_lookup f found]; omega

theorem le_weight (f : K → V → Nat) (found : m.lookup k = some v) : f k v ≤ weight f m := by
  rw [weight_of_lookup f found]; omega

/-- Entries under distinct keys weigh no more than the table. -/
theorem sum_le_weight {A : Type} {l : List A} {key : A → K} {value : A → V} (f : K → V → Nat)
    (distinct : (l.map key).Nodup) (found : ∀ a ∈ l, m.lookup (key a) = some (value a)) :
    (l.map fun a => f (key a) (value a)).sum ≤ weight f m := by
  induction l generalizing m with
  | nil => exact Nat.zero_le _
  | cons a rest ih =>
      obtain ⟨fresh, distinct⟩ := List.nodup_cons.1 distinct
      rw [List.map_cons, List.sum_cons, weight_of_lookup f (found a (List.mem_cons_self ..))]
      refine Nat.add_le_add_left (ih distinct fun b inside => ?_) _
      have other : key b ≠ key a := fun same => fresh (same ▸ List.mem_map_of_mem inside)
      rw [lookup_erase_eq, if_neg other]
      exact found b (List.mem_cons_of_mem _ inside)

theorem weight_le_weight (le : ∀ k v, m.lookup k = some v → f k v ≤ g k v) :
    weight f m ≤ weight g m :=
  List.sum_le_sum fun e inside => le e.1 e.2 (mem_entries_iff.1 inside)

theorem weight_eq_weight (same : ∀ k v, m.lookup k = some v → f k v = g k v) :
    weight f m = weight g m :=
  le_antisymm (weight_le_weight fun k v found => (same k v found).le)
    (weight_le_weight fun k v found => (same k v found).ge)

theorem weight_eq_zero (zero : ∀ k v, m.lookup k = some v → f k v = 0) : weight f m = 0 := by
  rw [weight_eq_weight (g := fun _ _ => 0) zero]
  simp [weight]

/-- The table with the fewer entries weighs less. -/
theorem weight_le_of_lookup (sub : ∀ k v, m'.lookup k = some v → m.lookup k = some v) :
    weight f m' ≤ weight f m := by
  have subperm : m'.entries.Subperm m.entries := by
    refine List.subperm_of_subset m'.nodupKeys.nodup fun e inside => ?_
    exact mem_entries_iff.2 (sub e.1 e.2 (mem_entries_iff.1 inside))
  obtain ⟨l, perm, sublist⟩ := subperm
  calc weight f m' = (l.map fun e => f e.1 e.2).sum := (perm.symm.map _).sum_eq
    _ ≤ weight f m := (sublist.map _).sum_le_sum fun _ _ => Nat.zero_le _

/-- A measure of keys alone grows with the set of keys. -/
theorem weight_le_of_keys {V' : Type} {m' : Table K V'} (f : K → Nat)
    (sub : ∀ k, (m'.lookup k).isSome → (m.lookup k).isSome) :
    weight (fun k _ => f k) m' ≤ weight (fun k _ => f k) m := by
  have keys : ∀ {V : Type} (m : Table K V), weight (fun k _ => f k) m = (m.keys.map f).sum := by
    intro V m
    rw [weight, AList.keys, List.keys, List.map_map]
    rfl
  have subperm : m'.keys.Subperm m.keys := by
    apply List.subperm_of_subset m'.keys_nodup
    intro k inside
    rw [← AList.mem_keys, ← AList.lookup_isSome] at inside ⊢
    exact sub k inside
  obtain ⟨l, perm, sublist⟩ := subperm
  rw [keys, keys]
  calc (m'.keys.map f).sum = (l.map f).sum := (perm.symm.map f).sum_eq
    _ ≤ (m.keys.map f).sum := (sublist.map f).sum_le_sum fun _ _ => Nat.zero_le _

/-- A measure that is zero outside a set of keys sees only the entries in it. -/
theorem weight_congr_on (inside : K → Prop) [DecidablePred inside]
    (outside : ∀ k v, ¬ inside k → f k v = 0)
    (same : ∀ k, inside k → m.lookup k = m'.lookup k) : weight f m = weight f m' := by
  have trim : ∀ m : Table K V,
      weight f m = ((m.entries.filter fun e => inside e.1).map fun e => f e.1 e.2).sum := by
    intro m
    unfold weight
    induction m.entries with
    | nil => rfl
    | cons e rest ih =>
        by_cases held : inside e.1
        · simp [held, ih]
        · simp [held, ih, outside e.1 e.2 held]
  have nodup : ∀ m : Table K V, (m.entries.filter fun e => inside e.1).Nodup := fun m =>
    m.nodupKeys.nodup.filter _
  have perm : (m.entries.filter fun e => inside e.1).Perm
      (m'.entries.filter fun e => inside e.1) := by
    rw [List.perm_ext_iff_of_nodup (nodup m) (nodup m')]
    rintro ⟨k, v⟩
    simp only [List.mem_filter, decide_eq_true_eq, mem_entries_iff]
    constructor
    · rintro ⟨found, held⟩
      exact ⟨same k held ▸ found, held⟩
    · rintro ⟨found, held⟩
      exact ⟨(same k held).symm ▸ found, held⟩
  rw [trim m, trim m']
  exact (perm.map _).sum_eq

theorem weight_add (f g : K → V → Nat) (m : Table K V) :
    weight (fun k v => f k v + g k v) m = weight f m + weight g m := by
  unfold weight
  induction m.entries with
  | nil => rfl
  | cons e rest ih =>
      simp only [List.map_cons, List.sum_cons, ih]
      omega

/-- Summing one table's weights over the entries of another: the sums trade places. -/
theorem sum_weight {A : Type} (l : List A) (f : A → K → V → Nat) (m : Table K V) :
    (l.map fun a => weight (f a) m).sum = weight (fun k v => (l.map fun a => f a k v).sum) m := by
  induction l with
  | nil => simp [weight]
  | cons a rest ih =>
      simp only [List.map_cons, List.sum_cons, ih]
      exact (weight_add _ _ m).symm

/-- The number of entries. -/
def size (m : Table K V) : Nat := m.entries.length

theorem size_eq_weight (m : Table K V) : size m = weight (fun _ _ => 1) m := by
  simp [size, weight]

theorem size_erase_of_lookup (found : m.lookup k = some v) : size m = size (m.erase k) + 1 := by
  rw [size_eq_weight, size_eq_weight, weight_of_lookup _ found]; omega

theorem eq_empty_of_size (none_ : size m = 0) (k : K) : m.lookup k = none := by
  cases found : m.lookup k with
  | none => rfl
  | some v =>
      have := size_erase_of_lookup found
      omega

theorem size_insert_le (m : Table K V) (k : K) (v : V) : size (m.insert k v) ≤ size m + 1 := by
  have inserted := weight_insert (fun _ _ => 1) m k v
  have erased := weight_erase_le (fun _ _ => 1) m k
  simp only [size_eq_weight]
  omega

theorem size_insert_of_lookup (found : m.lookup k = some v) (v' : V) :
    size (m.insert k v') = size m := by
  have inserted := weight_insert (fun _ _ => 1) m k v'
  have split := size_erase_of_lookup found
  simp only [size_eq_weight] at split ⊢
  omega

/-! ## Retaining -/

/-- The entries for which `keep` holds. -/
def retain (keep : K → V → Bool) (m : Table K V) : Table K V :=
  ⟨m.entries.filter fun e => keep e.1 e.2, m.nodupKeys.sublist List.filter_sublist⟩

theorem lookup_retain_eq_some {keep : K → V → Bool} :
    (retain keep m).lookup k = some v ↔ m.lookup k = some v ∧ keep k v = true := by
  rw [← mem_entries_iff, ← mem_entries_iff, retain, List.mem_filter]

theorem size_retain_le (keep : K → V → Bool) (m : Table K V) : size (retain keep m) ≤ size m :=
  List.length_filter_le _ _

/-! ## Counters -/

section Counters

variable (counts : Table K Nat)

/-- A counter's value; an absent counter is zero. -/
def tally (k : K) : Nat := (counts.lookup k).getD 0

/-- Lower one counter, saturating, and drop it when it reaches zero. -/
def debit (k : K) (amount : Nat) : Table K Nat :=
  match counts.lookup k with
  | none => counts
  | some used => if used - amount = 0 then counts.erase k else counts.insert k (used - amount)

@[simp] theorem tally_empty (k : K) : tally (∅ : Table K Nat) k = 0 := rfl

theorem tally_insert (k k' : K) (n : Nat) :
    tally (counts.insert k n) k' = if k' = k then n else tally counts k' := by
  simp only [tally, lookup_insert_eq]
  split <;> rfl

theorem tally_debit (k k' : K) (amount : Nat) :
    tally (debit counts k amount) k' =
      if k' = k then tally counts k - amount else tally counts k' := by
  unfold debit
  split
  · rename_i absent
    split
    · subst_vars; simp [tally, absent]
    · rfl
  · rename_i used found
    have read : tally counts k = used := by simp [tally, found]
    by_cases spent : used - amount = 0
    · rw [if_pos spent, tally, lookup_erase_eq, read]
      by_cases same : k' = k
      · simp [same, spent]
      · simp [same, tally]
    · rw [if_neg spent, tally_insert, read]

end Counters

/-! ## The eldest entry -/

section Eldest

/-- The entries in the order the environment iterates over them. -/
def iterate (rank : K → Nat) (m : Table K V) : List (K × V) :=
  (m.entries.map fun e => (e.1, e.2)).insertionSort fun a b => rank a.1 ≤ rank b.1

theorem mem_iterate {rank : K → Nat} : (k, v) ∈ iterate rank m ↔ m.lookup k = some v := by
  rw [iterate, List.mem_insertionSort, List.mem_map, ← mem_entries_iff]
  constructor
  · rintro ⟨e, inside, same⟩
    obtain ⟨rfl, rfl⟩ := Prod.mk.inj same
    exact inside
  · intro inside
    exact ⟨⟨k, v⟩, inside, rfl⟩

theorem nodup_iterate (rank : K → Nat) (m : Table K V) : (iterate rank m).Nodup := by
  rw [iterate, (List.perm_insertionSort _ _).nodup_iff]
  refine m.nodupKeys.nodup.map ?_
  rintro ⟨k, v⟩ ⟨k', v'⟩ same
  obtain ⟨rfl, rfl⟩ := Prod.mk.inj same
  rfl

/-- The first entry of least age in iteration order. -/
def eldest (age : V → Nat) (order : List (K × V)) : Option (K × V) :=
  order.argmin fun entry => age entry.2

theorem eldest_spec {age : V → Nat} {order : List (K × V)} {e : K × V}
    (picked : eldest age order = some e) :
    e ∈ order ∧ ∀ other ∈ order, age e.2 ≤ age other.2 := by
  refine ⟨List.argmin_mem picked, fun other inside => ?_⟩
  exact List.le_of_mem_argmin (f := fun entry : K × V => age entry.2) inside picked

theorem eldest_none {age : V → Nat} {order : List (K × V)} (none_ : eldest age order = none) :
    order = [] :=
  List.argmin_eq_none.1 none_

/-- An entry the environment iterates first is picked unless another is strictly
older. -/
theorem eldest_ahead {age : V → Nat} {rank : K → Nat} (found : m.lookup k = some v)
    (ahead : ∀ other, other ≠ k → rank k < rank other) {e : K × V}
    (picked : eldest age (iterate rank m) = some e) (apart : e.1 ≠ k) : age e.2 < age v := by
  have inside : (k, v) ∈ iterate rank m := mem_iterate.2 found
  have sorted : (iterate rank m).Pairwise fun a b => rank a.1 ≤ rank b.1 :=
    have : Std.Total fun a b : K × V => rank a.1 ≤ rank b.1 := ⟨fun _ _ => Nat.le_total _ _⟩
    have : IsTrans (K × V) fun a b => rank a.1 ≤ rank b.1 := ⟨fun _ _ _ => Nat.le_trans⟩
    List.pairwise_insertionSort _ _
  cases shape : iterate rank m with
  | nil => simp [shape] at inside
  | cons first rest =>
      rw [shape] at inside sorted picked
      have head : first = (k, v) := by
        cases List.mem_cons.1 inside with
        | inl same => exact same.symm
        | inr later =>
            have le := (List.pairwise_cons.1 sorted).1 _ later
            have own : first.1 = k := by
              by_contra other
              exact absurd (ahead _ other) (Nat.not_lt.2 le)
            have there : (first.1, first.2) ∈ iterate rank m := by
              rw [shape]
              exact List.mem_cons_self
            have listed := mem_iterate.1 there
            rw [own, found] at listed
            exact Prod.ext own (Option.some.inj listed).symm
      subst head
      unfold eldest at picked
      rw [List.argmin_cons] at picked
      cases least : rest.argmin fun entry => age entry.2 with
      | none =>
          rw [least] at picked
          obtain rfl := Option.some.inj picked
          exact absurd rfl apart
      | some c =>
          simp only [least] at picked
          split at picked
          · rename_i older
            obtain rfl := Option.some.inj picked
            exact older
          · obtain rfl := Option.some.inj picked
            exact absurd rfl apart

end Eldest

end Table

end TypstMcp.Theory
