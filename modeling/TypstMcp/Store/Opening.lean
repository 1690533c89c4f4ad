/-
Store.Opening -- what an opening depends on

An opening takes the entry directories it finds in whatever order the directory lists
them, and evicts in whatever order the map iterates.  So what it rebuilds is one of
several indices; which they are depends only on the directories it takes.

* `Evicts.same`: eviction treats indices that hold the same same.
* `opens_same`: trees with the same entries reopen to the same indices.
-/
import TypstMcp.Store.Lives
import TypstMcp.Store.ReadBack

namespace TypstMcp.Store

open TypstMcp.Theory TypstMcp.Theory.Table TypstMcp.Theory.FileTree
open TypstMcp.Auth (TenantId)

set_option autoImplicit false
set_option linter.unusedSectionVars false

variable {limits : Limits} {codec : MetaCodec}

/-! ## Indices that hold the same -/

/-- The two hold the same entries and count the same; a map has no order. -/
structure Index.Same (index other : Index) : Prop where
  entries : ∀ key, other.entries.lookup key = index.entries.lookup key
  total : other.total = index.total
  tenant : ∀ tenant, tally other.perTenant tenant = tally index.perTenant tenant
  count : ∀ tenant, tally other.perTenantEntries tenant = tally index.perTenantEntries tenant

variable {index index' other : Index} {key : Key} {entry : Entry}

theorem Index.Same.refl (index : Index) : index.Same index := ⟨fun _ => rfl, rfl, fun _ => rfl, fun _ => rfl⟩

theorem Index.Same.size (same : index.Same other) : size other.entries = size index.entries := by
  rw [size_eq_weight, size_eq_weight]
  exact weight_congr same.entries

/-- What a rebuild counts is told from the entries. -/
theorem Index.same_of_wrapped (entries : ∀ key, other.entries.lookup key = index.entries.lookup key)
    (sums : index.Wrapped) (sums' : other.Wrapped) : index.Same other where
  entries := entries
  total := by
    rw [sums.total, sums'.total, Index.stored, Index.stored, weight_congr entries]
  tenant tenant := by
    rw [sums.tenant, sums'.tenant, weight_congr entries]
  count tenant := by
    rw [sums.tenantEntries, sums'.tenantEntries]
    exact weight_congr entries

theorem Index.Same.exceeded (same : index.Same other) :
    other.exceeded limits = index.exceeded limits := by
  unfold Index.exceeded
  rw [same.total, same.size]

theorem Index.Same.remove (same : index.Same other) (key : Key) :
    (index.removeFromIndex key).Same (other.removeFromIndex key) := by
  refine ⟨fun key' => ?_, ?_, fun tenant => ?_, fun tenant => ?_⟩
  · rw [Index.lookup_removeFromIndex, Index.lookup_removeFromIndex, same.entries]
  all_goals
    unfold Index.removeFromIndex
    rw [same.entries]
    cases found : index.entries.lookup key with
    | none => first | exact same.total | exact same.tenant tenant | exact same.count tenant
    | some entry => simp [same.total, same.tenant, same.count, tally_debit]

/-! ## Eviction -/

section Eviction

variable {ranks ranks' : (Key → Nat) → Prop}

/-- An entry that is iterated first among the eldest is the one picked. -/
theorem eldest_foremost (found : index.entries.lookup key = some entry)
    (least : ∀ key' old, index.entries.lookup key' = some old → entry.createdAt ≤ old.createdAt) :
    eldest (·.createdAt) (iterate (foremost key) index.entries) = some (key, entry) := by
  have ahead : ∀ apart, apart ≠ key → foremost key key < foremost key apart := by
    intro apart ne
    simp [foremost, ne]
  cases picked : eldest (·.createdAt) (iterate (foremost key) index.entries) with
  | none =>
      have inside : (key, entry) ∈ iterate (foremost key) index.entries := mem_iterate.2 found
      rw [eldest_none picked] at inside
      cases inside
  | some e =>
      have listed := mem_iterate.1 (eldest_spec picked).1
      by_cases same : e.1 = key
      · rw [same, found] at listed
        exact congrArg some (Prod.ext same (Option.some.inj listed).symm)
      · have older := eldest_ahead found ahead picked same
        have := least _ _ listed
        omega

/-- **Eviction treats them alike**: what it may leave of one, it may leave of the other. -/
theorem Evicts.same (evicts : Evicts limits ranks index index') (same : index.Same other)
    (any : ∀ key, ranks' (foremost key)) :
    ∃ other', Evicts limits ranks' other other' ∧ index'.Same other' := by
  induction evicts generalizing other with
  | done within => exact ⟨other, .done (same.exceeded.trans within), same⟩
  | bare empty => exact ⟨other, .bare fun key => (same.entries key).trans (empty key), same⟩
  | @turn index index' rank key entry exceeded may picked rest ih =>
      obtain ⟨there, least⟩ := eldest_spec picked
      have found := (same.entries key).trans (mem_iterate.1 there)
      obtain ⟨other', evicts, same'⟩ := ih (same.remove key)
      refine ⟨other', .turn (same.exceeded.trans exceeded) (any key)
        (eldest_foremost found fun key' old listed => ?_) evicts, same'⟩
      exact least (key', old) (mem_iterate.2 ((same.entries key').symm.trans listed))

end Eviction

section Opening

variable {T : Type} [DecidableEq T] {allowed : Choice → Prop} {t : T} {w : World T}

/-- A program that never waits comes to its end. -/
theorem walking_runs {choice : Choice} (may : allowed choice) {α : Type} {p : StoreProg α}
    (walking : p.Calls Call.Walking) (w : World T) : ∃ value w', Alone allowed t p w value w' :=
  Prog.exec_total (fun c s walking => by
    refine ⟨_, _, ?_, choice, may, rfl⟩
    rintro purpose rfl
    exact walking.elim) walking w

/-- **What eviction may leave, a run of it leaves.** -/
theorem Evicts.runs {choice : Choice} (may : allowed choice)
    (evicts : Evicts limits (ranksOf allowed) index index') {fuel : Nat}
    (enough : size index.entries ≤ fuel) (w : World T) :
    ∃ w', Alone allowed t (evictLocked limits fuel index) w index' w' := by
  induction evicts generalizing fuel w with
  | @done index within =>
      cases fuel with
      | zero => exact ⟨w, rfl, rfl⟩
      | succ fuel =>
          rw [evictLocked, if_neg (by simp [within])]
          exact ⟨w, rfl, rfl⟩
  | @bare index empty =>
      cases fuel with
      | zero => exact ⟨w, rfl, rfl⟩
      | succ fuel =>
          unfold evictLocked
          split
          · refine ⟨w, alone_quiet (by trivial) may ?_⟩
            simp only [handle, Prog.ret_bind]
            cases picked : eldest (·.createdAt) (iterate choice.keyRank index.entries) with
            | none => exact ⟨rfl, rfl⟩
            | some e =>
                have listed := mem_iterate.1 (eldest_spec picked).1
                rw [empty] at listed
                cases listed
          · exact ⟨w, rfl, rfl⟩
  | @turn index index' rank key entry exceeded ranked picked rest ih =>
      have found := mem_iterate.1 (eldest_spec picked).1
      have fewer := size_erase_of_lookup found
      obtain ⟨order, ordered, rfl⟩ := ranked
      cases fuel with
      | zero => omega
      | succ fuel =>
          rw [evictLocked, if_pos exceeded]
          obtain ⟨_, w1, removed⟩ := walking_runs (t := t) may
            ((scanning_removeDirAll (entryDir key)).mono fun _ => Call.Scanning.walking) w
          have enough : size (index.removeFromIndex key).entries ≤ fuel := by
            rw [Index.removeFromIndex_entries]
            omega
          obtain ⟨w2, later⟩ := ih enough (handle t choice .countQuota w1).2
          refine ⟨w2, alone_quiet (by trivial) ordered ?_⟩
          simp only [handle, Prog.ret_bind, picked]
          exact Prog.exec_bind.2 ⟨_, _, removed, alone_quiet (by trivial) may later⟩

/-- An opening comes to its end where its two directories can be made, and leaves whatever eviction
may leave of what it scanned. -/
theorem opens_of_evicts {P : Index → Prop} (free : w.owner = none)
    (root : ∀ bytes, w.disk.lookup [] ≠ some (.file bytes))
    (tmp : ∀ bytes, w.disk.lookup tmpDir ≠ some (.file bytes))
    (leaves : ∀ start index middle, Prepared w.disk start →
      Scanned codec start (Reached start) index middle →
      ∃ index', Evicts limits (ranksOf anyChoice) index index' ∧ P index') :
    ∃ w', Opens limits codec t w w' ∧ P w'.index := by
  let choice : Choice := ⟨0, "", fun _ => 0, fun _ => 0⟩
  have may : anyChoice choice := trivial
  obtain ⟨disk1, rootMade⟩ := @createDirAll_ok w.disk [] fun q inside bytes => by
    rw [List.prefix_nil.1 inside]
    exact root bytes
  obtain ⟨disk2, tmpMade⟩ := @createDirAll_ok disk1 tmpDir fun q inside bytes => by
    rw [lookup_createDirAll rootMade]
    split
    · simp
    · rename_i below
      obtain rfl : q = tmpDir := by
        obtain same | under := List.prefix_concat_iff.1 (show q <+: [] ++ ["tmp"] from inside)
        · exact same
        · exact absurd under below
      exact tmp bytes
  have prepared : Prepared w.disk disk2 := lookup_prepared rootMade tmpMade
  have isRoot : disk2.isDir [] := by
    rw [isDir_iff, prepared, if_pos (Or.inl rfl)]
  -- the walk, in the order in which the root lists its names
  let names := (children disk2 []).insertionSort fun m n =>
    choice.pathRank ([] ++ [m]) ≤ choice.pathRank ([] ++ [n])
  have perm : names.Perm (children disk2 []) := List.perm_insertionSort _ _
  obtain ⟨index, w1, walked⟩ := walking_runs (t := t) may
    ((show (scanTenants codec names {}).Calls Call.Scanning from scanning_scanTenants names {}).mono
      fun _ => Call.Scanning.walking) { w with disk := disk2 }
  have scanned := scanTenants_exec (scanned_start codec disk2)
    (perm.nodup_iff.2 (children_nodup _ _)) (fun _ _ => not_false) walked
  have reached : Scanned codec disk2 (Reached disk2) index w1.disk := by
    refine scanned.congr fun key => ?_
    unfold Reached
    rw [perm.mem_iff]
    simp
  have shared := (walking_exec ((scanning_scanTenants _ _).mono fun _ => Call.Scanning.walking)
    walked).toShared
  obtain ⟨index', evicts, holds⟩ := leaves disk2 index w1.disk prepared reached
  obtain ⟨w2, evicted⟩ := evicts.runs (t := t) may le_rfl w1
  have owner := (walking_exec (walking_evictLocked _ _) evicted).toShared.owner
  have free : w2.owner = none := owner.trans (shared.owner.trans free)
  refine ⟨{ w2.publish t index' .nothing with up := true }, ?_, holds⟩
  have published : Alone anyChoice t (rebuildIndex limits codec) { w with disk := disk2 } ()
      (w2.publish t index' .nothing) := by
    refine alone_quiet (by trivial) may ?_
    simp only [handle, Prog.ret_bind, FileTree.readDir, isRoot, if_true]
    refine Prog.exec_bind.2 ⟨index, w1, walked, Prog.exec_bind.2 ⟨index', w2, evicted, ?_⟩⟩
    refine alone_call.2 ⟨fun _ _ => free, choice, may, alone_call.2 ⟨?_, choice, may, rfl, rfl⟩⟩
    intro purpose same
    cases same
  refine alone_quiet (by trivial) may ?_
  simp only [handle, World.attempt, rootMade, Prog.ret_bind]
  refine alone_quiet (by trivial) may ?_
  simp only [handle, World.attempt, tmpMade, Prog.ret_bind]
  exact Prog.exec_bind.2 ⟨(), _, published, alone_quiet (by trivial) may ⟨rfl, rfl⟩⟩

/-- The walk takes the directories that can be taken. -/
theorem reached_adopts {disk start : FileTree} (prepared : Prepared disk start)
    (closed : Closed disk) :
    Reached start key ∧ Adopts codec start key entry ↔ Adopts codec disk key entry := by
  constructor
  · rintro ⟨-, adopts⟩
    exact adopts.congr fun p under => (prepared.below under).symm
  · intro adopts
    have taken : Adopts codec start key entry := adopts.congr fun p under => prepared.below under
    refine ⟨(prepared.reached closed key).resolve_right fun bare => ?_, taken⟩
    have there := isDir_iff.1 taken.dir
    rw [bare _ List.prefix_rfl] at there
    cases there

/-- Where a store opens, no file stands in place of its directories. -/
theorem opens_clear {v v' : World T} (opened : Opens limits codec t v v') {p : Path}
    (made : p = [] ∨ p = tmpDir) (bytes : Bytes) : v.disk.lookup p ≠ some (.file bytes) := by
  obtain ⟨disk1, disk2, rootMade, tmpMade, -⟩ := openStore_made opened
  obtain rfl | rfl := made
  · exact createDirAll_clear rootMade List.prefix_rfl bytes
  · have clear := createDirAll_clear tmpMade List.prefix_rfl bytes
    rwa [lookup_createDirAll rootMade, if_neg (by simp [tmpDir])] at clear

/-- **Trees with the same entries reopen to the same indices.** -/
theorem opens_same {v v' u : World T} (closed : Closed v.disk) (closed' : Closed u.disk)
    (free : u.owner = none)
    (adopts : ∀ key entry, Adopts codec u.disk key entry ↔ Adopts codec v.disk key entry)
    (files : ∀ p bytes, p = [] ∨ p = tmpDir → u.disk.lookup p = some (.file bytes) →
      v.disk.lookup p = some (.file bytes))
    (opened : Opens limits codec t v v') :
    ∃ u', Opens limits codec t u u' ∧ v'.index.Same u'.index := by
  obtain ⟨start, index, index', prepared, ⟨⟨middle, scanned, -⟩, evicts⟩, rfl, -⟩ :=
    openStore_exec opened rfl
  have prepared : Prepared v.disk start := prepared
  refine opens_of_evicts free (fun bytes found => ?_) (fun bytes found => ?_) ?_
  · exact opens_clear opened (.inl rfl) bytes (files _ _ (.inl rfl) found)
  · exact opens_clear opened (.inr rfl) bytes (files _ _ (.inr rfl) found)
  intro start' other middle' prepared' scanned'
  have entries : ∀ key, other.entries.lookup key = index.entries.lookup key := by
    intro key
    refine Option.ext fun entry => ?_
    rw [scanned'.listed, scanned.listed, reached_adopts prepared' closed', adopts,
      reached_adopts prepared closed]
  have same := Index.same_of_wrapped entries scanned.wrapped scanned'.wrapped
  exact evicts.same same fun key => ⟨⟨0, "", foremost key, fun _ => 0⟩, trivial, rfl⟩

end Opening

end TypstMcp.Store
