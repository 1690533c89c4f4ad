/-
Store.Working -- removing, evicting and writing, by a thread that may

What the subprograms of a put and of the rebuild do to the disk, said once for a
thread that holds the lock for a put and for the thread that opens the store.  An
assertion `P` of such a thread is carried along as `Held P`.

* `removeDirAll_working`: a recursive removal leaves nothing of the entry.
* `evict_working`: eviction takes entries out of the index and off the disk
  together, oldest first (`Evicts`), and touches no other.
* `writeAtomic_working`: a write lands whole under its name.
-/
import TypstMcp.Store.Upkeep

namespace TypstMcp.Store

open TypstMcp.Theory TypstMcp.Theory.Table TypstMcp.Theory.FileTree
open TypstMcp.Auth (TenantId)

set_option autoImplicit false
set_option linter.unusedSectionVars false

variable {T : Type} [DecidableEq T]

/-- Safety of a program of the store, against the invariant's guarantee. -/
abbrev StoreSafe (codec : MetaCodec) (plain : Prop) (boot : T) (allowed : Choice → Prop) (t : T)
    {α : Type} (post : α → World T → Prop) (p : StoreProg α) (w : World T) : Prop :=
  Safe (calmAnswers allowed) (Guar codec plain boot) t post p w

/-- An assertion of a thread that may write the disk. -/
def Held (codec : MetaCodec) (plain : Prop) (boot t : T) (holds : World T → Prop)
    (w : World T) : Prop :=
  Inv codec plain w ∧ Working boot t w ∧ holds w

variable {codec : MetaCodec} {plain : Prop} {boot : T} {allowed : Choice → Prop} {t : T}
variable {α : Type} {post : α → World T → Prop} {w w' : World T} {holds : World T → Prop}

/-- One call, under an assertion the others respect. -/
theorem world_call (stable : Stable (Guar codec plain boot) t holds) {c : Call}
    {next : Reply c → StoreProg α} (start : holds w)
    (each : ∀ w choice, holds w → Calm t w c → (∀ purpose, c = .lock purpose → w.owner = none) →
      allowed choice → Guar codec plain boot t w (handle t choice c w).2 ∧
        StoreSafe codec plain boot allowed t post (next (handle t choice c w).1)
          (handle t choice c w).2) :
    StoreSafe codec plain boot allowed t post (.call c next) w := by
  refine safe_call stable start fun s reply s' held answered => ?_
  obtain ⟨calm, waits, choice, may, handled⟩ := answered
  have goal := each s choice held calm waits may
  rw [handled] at goal
  exact goal

/-- A call that changes nothing. -/
theorem still_call (stable : Stable (Guar codec plain boot) t holds) {c : Call}
    {next : Reply c → StoreProg α} (start : holds w)
    (still : ∀ choice w, (handle t choice c w).2 = w)
    (alone : ∀ w, holds w → w.up = false → t = boot)
    (each : ∀ w choice, holds w → allowed choice →
      StoreSafe codec plain boot allowed t post (next (handle t choice c w).1) w) :
    StoreSafe codec plain boot allowed t post (.call c next) w := by
  refine world_call stable start fun s choice held _ _ may => ?_
  have goal := each s choice held may
  rw [still choice s]
  exact ⟨guar_refl (alone s held), goal⟩

/-- Assertions of a working thread are stable when what the others leave keeps them. -/
def Lasting (codec : MetaCodec) (plain : Prop) (boot t : T) (holds : World T → Prop) : Prop :=
  ∀ w w', Inv codec plain w' → Working boot t w → Kept t w w' → holds w → holds w'

theorem Lasting.stable (lasting : Lasting codec plain boot t holds) :
    Stable (Guar codec plain boot) t (Held codec plain boot t holds) :=
  stable_working lasting

theorem working_still (lasting : Lasting codec plain boot t holds) {c : Call}
    {next : Reply c → StoreProg α} (start : Held codec plain boot t holds w)
    (still : ∀ choice w, (handle t choice c w).2 = w)
    (each : ∀ w choice, Held codec plain boot t holds w → allowed choice →
      StoreSafe codec plain boot allowed t post (next (handle t choice c w).1) w) :
    StoreSafe codec plain boot allowed t post (.call c next) w :=
  still_call lasting.stable start still (fun _ held => held.2.1.alone) each

theorem working_ret (lasting : Lasting codec plain boot t holds) {value : α}
    (start : Held codec plain boot t holds w)
    (meets : ∀ w, Held codec plain boot t holds w → post value w) :
    StoreSafe codec plain boot allowed t post (.ret value) w :=
  safe_ret lasting.stable start meets

/-! ## Removal -/

theorem startRemoval_working (working : Working boot t w) (p : Path) :
    w.startRemoval t p = w := by
  unfold World.startRemoval
  rw [if_neg]
  rintro ⟨up, free⟩
  rcases working with ⟨-, key, size, owned⟩ | ⟨down, -⟩
  · rw [owned] at free
    exact free rfl
  · rw [up] at down
    exact absurd down (by simp)

theorem fixed_unlinked (t : T) (w : World T) (p : Path) : Fixed t w (w.unlinked p) :=
  fixed_of_disk rfl rfl rfl rfl rfl rfl

theorem guar_unlinked {key : Key} {p : Path} (working : Working boot t w)
    (under : entryDir key <+: p) : Guar codec plain boot t w (w.unlinked p) := by
  refine guar_working working (fun inv => ?_) rfl rfl rfl fun _ _ q _ present => ?_
  · exact inv_unlink inv under fun up idle => absurd (working.storing up) idle
  · obtain ⟨node, found⟩ := Option.isSome_iff_exists.1 present
    rw [lookup_unlink_le found]; rfl

theorem lasting_sweep {key : Key} {left : List Path}
    (lasting : Lasting codec plain boot t holds) :
    Lasting codec plain boot t fun w => Sweep w.disk (entryDir key) left ∧ holds w := by
  rintro w w' inv working kept ⟨sweep, held⟩
  refine ⟨sweep.shrink fun p _ present => ?_, lasting w w' inv working kept held⟩
  obtain ⟨node, found⟩ := Option.isSome_iff_exists.1 present
  rw [kept.le found]; rfl

theorem unlinkAll_working {key : Key} {left : List Path}
    (lasting : Lasting codec plain boot t holds)
    (unlinks : ∀ w p, Inv codec plain w → Working boot t w → entryDir key <+: p →
      holds w → holds (w.unlinked p))
    (start : Held codec plain boot t
      (fun w => Sweep w.disk (entryDir key) left ∧ holds w) w) :
    StoreSafe codec plain boot allowed t
      (fun _ => Held codec plain boot t fun w => Sweep w.disk (entryDir key) [] ∧ holds w)
      (unlinkAll left) w := by
  induction left generalizing w with
  | nil => exact working_ret (lasting_sweep lasting) start fun _ held => held
  | cons p rest ih =>
      refine world_call (lasting_sweep lasting).stable start fun s choice held _ _ _ => ?_
      obtain ⟨inv, working, sweep, more⟩ := held
      have under := sweep.below p (by simp)
      have within : Guar codec plain boot t s (s.unlinked p) := guar_unlinked working under
      refine ⟨within, ih ⟨within.inv inv, working.fixed (fixed_unlinked t s p), ?_, ?_⟩⟩
      · exact sweep.unlink
      · exact unlinks s p inv working under more

/-- **A recursive removal leaves nothing of the entry.** -/
theorem removeDirAll_working {key : Key} (lasting : Lasting codec plain boot t holds)
    (unlinks : ∀ w p, Inv codec plain w → Working boot t w → entryDir key <+: p →
      holds w → holds (w.unlinked p))
    (start : Held codec plain boot t holds w) :
    StoreSafe codec plain boot allowed t
      (fun _ => Held codec plain boot t fun w => Sweep w.disk (entryDir key) [] ∧ holds w)
      (removeDirAll (entryDir key)) w := by
  show StoreSafe codec plain boot allowed t _ (Prog.call (.walk (entryDir key)) _) w
  refine world_call lasting.stable start fun s choice held _ _ _ => ?_
  obtain ⟨inv, working, more⟩ := held
  have same := startRemoval_working working (entryDir key)
  simp only [handle, same]
  exact ⟨guar_refl working.alone, unlinkAll_working lasting unlinks
    ⟨inv, working, sweep_walk _ _ _, more⟩⟩

/-! ## Eviction -/

/-- The runs of the eviction loop over an index, `ranks` being the orders in which
the environment may iterate over the map. -/
inductive Evicts (limits : Limits) (ranks : (Key → Nat) → Prop) : Index → Index → Prop
  | done {index} (within : index.exceeded limits = false) : Evicts limits ranks index index
  | bare {index} (empty : ∀ key, index.entries.lookup key = none) :
      Evicts limits ranks index index
  | turn {index index' rank key entry} (exceeded : index.exceeded limits = true)
      (may : ranks rank)
      (picked : eldest (·.createdAt) (iterate rank index.entries) = some (key, entry))
      (rest : Evicts limits ranks (index.removeFromIndex key) index') :
      Evicts limits ranks index index'

/-- The orders the environment may iterate in. -/
def ranksOf (allowed : Choice → Prop) (rank : Key → Nat) : Prop :=
  ∃ choice, allowed choice ∧ choice.keyRank = rank

theorem Evicts.sub {limits : Limits} {ranks : (Key → Nat) → Prop} {index index' : Index}
    (evicts : Evicts limits ranks index index') (key : Key) :
    index'.entries.lookup key = none ∨
      index'.entries.lookup key = index.entries.lookup key := by
  induction evicts with
  | done _ => exact Or.inr rfl
  | bare _ => exact Or.inr rfl
  | turn _ _ _ _ ih =>
      rcases ih with gone | same
      · exact Or.inl gone
      · rw [Index.lookup_removeFromIndex] at same
        split at same
        · exact Or.inl same
        · exact Or.inr same

/-- Where an eviction that began at `w1` over `index1` stands when `index` is left:
entries taken out are off the disk, and the others are as they were, the one being
removed (`skip`) apart. -/
structure Evicting (t : T) (w1 : World T) (index1 index : Index) (skip : Option Key)
    (w : World T) : Prop where
  fixed : Fixed t w1 w
  kept : ∀ key, some key ≠ skip → w.Undoomed key →
    index.entries.lookup key = index1.entries.lookup key →
    ∀ p, entryDir key <+: p → w.disk.lookup p = w1.disk.lookup p
  gone : ∀ key, some key ≠ skip → w.Undoomed key → index.entries.lookup key = none →
    index1.entries.lookup key ≠ none → Bare w.disk key
  le : ∀ p node, w.disk.lookup p = some node → w1.disk.lookup p = some node

theorem evicting_start (t : T) (w1 : World T) (index1 : Index) :
    Evicting t w1 index1 index1 none w1 :=
  ⟨fixed_refl t w1, fun _ _ _ _ _ _ => rfl, fun _ _ _ absent present => absurd absent present,
    fun _ _ found => found⟩

theorem lasting_evicting {w1 : World T} {index1 index : Index} {skip : Option Key} :
    Lasting codec plain boot t (Evicting t w1 index1 index skip) := by
  intro w w' inv working kept evicting
  refine ⟨evicting.fixed.trans kept.toFixed, fun key ne free same p under => ?_,
    fun key ne free absent before p under => ?_, fun p node found => ?_⟩
  · rw [kept.undoomed free under]
    exact evicting.kept key ne (kept.toFixed.undoomed free) same p under
  · rw [kept.undoomed free under]
    exact evicting.gone key ne (kept.toFixed.undoomed free) absent before p under
  · exact evicting.le p node (kept.le found)

theorem Evicting.skipping {w1 : World T} {index1 index : Index} {key : Key}
    (evicting : Evicting t w1 index1 index none w) : Evicting t w1 index1 index (some key) w :=
  { evicting with
    kept := fun other _ => evicting.kept other (by simp)
    gone := fun other _ => evicting.gone other (by simp) }

theorem Evicting.unlinked {w1 : World T} {index1 index : Index} {key : Key} {p : Path}
    (under : entryDir key <+: p) (evicting : Evicting t w1 index1 index (some key) w) :
    Evicting t w1 index1 index (some key) (w.unlinked p) := by
  have apart : ∀ other, some other ≠ some key → ∀ q, entryDir other <+: q →
      (w.unlinked p).disk.lookup q = w.disk.lookup q := fun other ne q inside =>
    lookup_unlink_ne fun same => ne (congrArg some (entryDir_under (same ▸ inside) under))
  refine ⟨evicting.fixed.trans (fixed_unlinked t w p), fun other ne free same q inside => ?_,
    fun other ne free absent before q inside => ?_, fun q node found => ?_⟩
  · rw [apart other ne q inside]
    exact evicting.kept other ne free same q inside
  · rw [apart other ne q inside]
    exact evicting.gone other ne free absent before q inside
  · exact evicting.le q node (lookup_unlink_le found)

/-- The entry is gone from disk and index alike. -/
theorem Evicting.removed {w1 : World T} {index1 index : Index} {key : Key}
    (evicting : Evicting t w1 index1 index (some key) w)
    (swept : Sweep w.disk (entryDir key) [])
    (present : index.entries.lookup key = index1.entries.lookup key)
    (listed : index.entries.lookup key ≠ none) :
    Evicting t w1 index1 (index.removeFromIndex key) none w := by
  refine ⟨evicting.fixed, fun other _ free same p inside => ?_,
    fun other _ free absent before => ?_, evicting.le⟩
  · by_cases mine : other = key
    · subst mine
      rw [Index.lookup_removeFromIndex, if_pos rfl, ← present] at same
      exact absurd same.symm listed
    · rw [Index.lookup_removeFromIndex, if_neg mine] at same
      exact evicting.kept other (by simpa using mine) free same p inside
  · by_cases mine : other = key
    · subst mine
      exact fun p inside => swept.bare inside
    · rw [Index.lookup_removeFromIndex, if_neg mine] at absent
      exact evicting.gone other (by simpa using mine) free absent before

theorem Evicting.counted {w1 : World T} {index1 index : Index} {skip : Option Key}
    (evicting : Evicting t w1 index1 index skip w) (choice : Choice) :
    Evicting t w1 index1 index skip (handle t choice .countQuota w).2 :=
  ⟨evicting.fixed.trans (fixed_of_disk rfl rfl rfl rfl rfl rfl), evicting.kept, evicting.gone,
    evicting.le⟩

theorem guar_countQuota (working : Working boot t w) (choice : Choice) :
    Guar codec plain boot t w (handle t choice .countQuota w).2 :=
  guar_quiet working.alone (fun inv => { inv with }) rfl rfl rfl rfl rfl rfl rfl

variable {limits : Limits}

/-- **Eviction takes entries out of the index and off the disk together**, and
leaves the others as they were. -/
theorem evictLocked_working {w1 : World T} {index1 index : Index} {fuel : Nat}
    (enough : size index.entries ≤ fuel)
    (sub : ∀ key, index.entries.lookup key = none ∨
      index.entries.lookup key = index1.entries.lookup key)
    (start : Held codec plain boot t (Evicting t w1 index1 index none) w) :
    StoreSafe codec plain boot allowed t
      (fun index' w => Held codec plain boot t (Evicting t w1 index1 index' none) w ∧
        Evicts limits (ranksOf allowed) index index')
      (evictLocked limits fuel index) w := by
  have finish : ∀ {index : Index} {w : World T},
      Held codec plain boot t (Evicting t w1 index1 index none) w →
      Evicts limits (ranksOf allowed) index index →
      StoreSafe codec plain boot allowed t
        (fun index' w => Held codec plain boot t (Evicting t w1 index1 index' none) w ∧
          Evicts limits (ranksOf allowed) index index') (.ret index) w := by
    intro index w now evicts
    exact working_ret lasting_evicting now fun _ later => ⟨later, evicts⟩
  induction fuel generalizing index w with
  | zero => exact finish start (.bare (eq_empty_of_size (by omega)))
  | succ fuel ih =>
      unfold evictLocked
      split
      · rename_i exceeded
        show StoreSafe codec plain boot allowed t _ (Prog.call (.iterate index) _) w
        refine working_still lasting_evicting start (fun _ _ => rfl) fun w2 choice held2 may => ?_
        simp only [handle, Prog.ret_bind]
        cases picked : eldest (·.createdAt) (iterate choice.keyRank index.entries) with
        | none =>
            refine finish held2 (.bare (eq_empty_of_size ?_))
            have := congrArg List.length (eldest_none picked)
            simpa [iterate, List.length_insertionSort, size] using this
        | some oldest =>
            obtain ⟨key, entry⟩ := oldest
            have found : index.entries.lookup key = some entry :=
              mem_iterate.1 (eldest_spec picked).1
            have fewer := size_erase_of_lookup found
            have same : index.entries.lookup key = index1.entries.lookup key := by
              rcases sub key with gone | same
              · rw [gone] at found; exact absurd found (by simp)
              · exact same
            have skipping : Held codec plain boot t (Evicting t w1 index1 index (some key)) w2 :=
              ⟨held2.1, held2.2.1, held2.2.2.skipping⟩
            refine safe_bind (removeDirAll_working lasting_evicting
              (fun _ _ _ _ under => Evicting.unlinked under) skipping) fun _ w3 held3 => ?_
            show StoreSafe codec plain boot allowed t _ (Prog.call .countQuota _) w3
            refine world_call (lasting_sweep lasting_evicting).stable held3
              fun w4 choice' held4 _ _ _ => ?_
            obtain ⟨inv4, working4, swept, evicting4⟩ := held4
            have within : Guar codec plain boot t w4 _ := guar_countQuota working4 choice'
            have removed := evicting4.removed swept same (by rw [found]; simp)
            refine ⟨within, (ih ?_ ?_ ⟨within.inv inv4, working4, removed.counted choice'⟩).mono
              fun index' w final => ⟨final.1, .turn exceeded ⟨choice, may, rfl⟩ picked final.2⟩⟩
            · rw [Index.removeFromIndex_entries]; omega
            · intro other
              rw [Index.lookup_removeFromIndex]
              split
              · exact Or.inl rfl
              · exact sub other
      · rename_i within
        exact finish start (.done (by simpa using within))

theorem evict_working {index1 : Index} (inv : Inv codec plain w) (working : Working boot t w) :
    StoreSafe codec plain boot allowed t
      (fun index' w' => Held codec plain boot t (Evicting t w index1 index' none) w' ∧
        Evicts limits (ranksOf allowed) index1 index')
      (evict limits index1) w :=
  evictLocked_working le_rfl (fun _ => Or.inr rfl) ⟨inv, working, evicting_start t w index1⟩

end TypstMcp.Store
