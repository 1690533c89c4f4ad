/-
Store.Eviction -- the eviction loop, turn by turn

Two ceilings keep the loop going, and each turn takes out an entry that none is older
than.  `Turns` lists what a run took, in the order it took it; the removals on disk may
fail, and the loop goes on.

* `Turns.evicted`: what such a list is worth, read off its end.
* `evict_oldest_first`: of every run, over every index whose total is right.  The loop reads no
  tenant's counters, so what they say does not matter.
-/
import TypstMcp.Store.Faults
import TypstMcp.Store.Opening

namespace TypstMcp.Store

open TypstMcp.Theory TypstMcp.Theory.Table
open TypstMcp.Auth (TenantId)

set_option autoImplicit false
set_option linter.unusedSectionVars false

/-! ## Turns -/

/-- The keys a run takes out: a ceiling is exceeded each time, and none is older. -/
inductive Turns (limits : Limits) : Index → List Key → Index → Prop
  | done {index} (within : index.exceeded limits = false) : Turns limits index [] index
  | turn {index index' key entry removed} (exceeded : index.exceeded limits = true)
      (found : index.entries.lookup key = some entry)
      (eldest : ∀ other old, index.entries.lookup other = some old →
        entry.createdAt ≤ old.createdAt)
      (rest : Turns limits (index.removeFromIndex key) removed index') :
      Turns limits index (key :: removed) index'

variable {limits : Limits} {index index' : Index} {key : Key} {entry : Entry} {removed : List Key}

/-- Taken from `index` are `removed`, oldest first and no more than need be. -/
structure Evicted (limits : Limits) (index : Index) (removed : List Key) (index' : Index) : Prop where
  once : removed.Nodup
  listed : ∀ key ∈ removed, ∃ entry, index.entries.lookup key = some entry
  result : index' = removed.foldl Index.removeFromIndex index
  kept : ∀ key, index'.entries.lookup key =
    if key ∈ removed then none else index.entries.lookup key
  oldest : ∀ key ∈ removed, ∀ old, index.entries.lookup key = some old →
    ∀ other entry, index'.entries.lookup other = some entry → old.createdAt ≤ entry.createdAt
  needed : ∀ earlier key later, removed = earlier ++ key :: later →
    (earlier.foldl Index.removeFromIndex index).exceeded limits = true
  within : index'.Ceilings limits

theorem lookup_of_removed {other : Key} (found : (index.removeFromIndex key).entries.lookup other = some entry) :
    other ≠ key ∧ index.entries.lookup other = some entry := by
  rw [Index.lookup_removeFromIndex] at found
  split at found
  · cases found
  · rename_i ne
    exact ⟨ne, found⟩

/-- **What the turns come to.** -/
theorem Turns.evicted (turns : Turns limits index removed index') :
    Evicted limits index removed index' := by
  induction turns with
  | done within =>
      refine ⟨.nil, by simp, rfl, by simp, by simp, fun earlier key later split => ?_,
        Index.ceilings_iff.2 within⟩
      simp at split
  | @turn index index' key entry removed exceeded found eldest rest ih =>
      have absent : key ∉ removed := by
        intro again
        obtain ⟨old, there⟩ := ih.listed key again
        exact (lookup_of_removed there).1 rfl
      have kept : ∀ other, index'.entries.lookup other =
          if other ∈ key :: removed then none else index.entries.lookup other := by
        intro other
        rw [ih.kept, Index.lookup_removeFromIndex]
        by_cases later : other ∈ removed
        · simp [later]
        · by_cases same : other = key <;> simp [later, same]
      refine ⟨List.nodup_cons.2 ⟨absent, ih.once⟩, ?_, ih.result, kept, ?_, ?_, ih.within⟩
      · intro other taken
        rcases List.mem_cons.1 taken with rfl | later
        · exact ⟨entry, found⟩
        · obtain ⟨old, there⟩ := ih.listed other later
          exact ⟨old, (lookup_of_removed there).2⟩
      · intro taken inside old there other young left
        -- whatever is left was there when this one was picked
        have before : index.entries.lookup other = some young := by
          rw [kept] at left
          split at left
          · cases left
          · exact left
        rcases List.mem_cons.1 inside with rfl | later
        · obtain rfl : entry = old := Option.some.inj (found.symm.trans there)
          exact eldest other young before
        · apply ih.oldest taken later old _ other young left
          rw [Index.lookup_removeFromIndex, if_neg]
          · exact there
          · rintro rfl
            exact absent later
      · intro earlier last later split
        cases earlier with
        | nil => exact exceeded
        | cons first earlier =>
            obtain ⟨rfl, rest⟩ := List.cons.inj split
            exact ih.needed earlier last later rest

/-! ## Runs -/

variable {T : Type} [DecidableEq T] {allowed : Choice → Prop} {t : T} {w w' : World T}

/-- A recursive removal counts nothing. -/
theorem removeDirAll_counts {d : Path} {value : Unit}
    (ran : Faulty allowed t (removeDirAll d) w value w') :
    w'.quotaEvictions = w.quotaEvictions := by
  refine ran.keeps (fun s => s.quotaEvictions = w.quotaEvictions) ?_ (scanning_removeDirAll d) rfl
  intro c s reply s' scanning kept answered
  rw [← kept]
  rcases answered with ⟨_, choice, _, handled⟩ | ⟨disk, -, rfl⟩
  · obtain rfl : (handle t choice c s).2 = s' := congrArg Prod.snd handled
    cases c with
    | walk p =>
        show (s.startRemoval t p).quotaEvictions = _
        unfold World.startRemoval
        split <;> rfl
    | unlink _ | read _ | readDir _ | metadata _ => rfl
    | _ => exact scanning.elim
  · rfl

theorem exceeded_of_bare (total : index.total = index.stored)
    (bare : ∀ key, index.entries.lookup key = none) :
    index.exceeded limits = false := by
  refine Index.ceilings_iff.1 (Index.ceilings_of_bare total ?_)
  rw [size_eq_weight]
  apply weight_eq_zero
  intro key entry found
  rw [bare] at found
  cases found

/-- **Every run takes such turns**, and counts them. -/
theorem evictLocked_turns {fuel : Nat} {out : Index} (total : index.total = index.stored)
    (enough : size index.entries ≤ fuel)
    (ran : Faulty allowed t (evictLocked limits fuel index) w out w') :
    ∃ removed, Turns limits index removed out ∧
      w'.quotaEvictions = w.quotaEvictions + removed.length := by
  induction fuel generalizing index w with
  | zero =>
      obtain ⟨rfl, rfl⟩ := ran
      exact ⟨[], .done (exceeded_of_bare total (eq_empty_of_size (by omega))), rfl⟩
  | succ fuel ih =>
      obtain ⟨within, rfl, rfl⟩ | ⟨bare, rfl, rfl⟩ | ⟨exceeded, rank, key, entry, w1, -, picked,
        cleared, ran⟩ := evictLocked_cases faulty_iterate faulty_countQuota ran
      · exact ⟨[], .done within, rfl⟩
      · exact ⟨[], .done (exceeded_of_bare total bare), rfl⟩
      · obtain ⟨there, least⟩ := eldest_spec picked
        have fewer := size_picked picked
        obtain ⟨removed, turns, counted⟩ := ih (Index.total_remove total key) (by omega) ran
        refine ⟨key :: removed, .turn exceeded (mem_iterate.1 there) (fun other old listed => ?_)
          turns, ?_⟩
        · exact least (other, old) (mem_iterate.2 listed)
        · have still := removeDirAll_counts cleared
          simp only [List.length_cons] at counted ⊢
          omega

/-- The bound on the turns is none: with as many as there are entries, and with more, the loop runs
the same. -/
theorem evictLocked_fuel {fuel fuel' : Nat} {out : Index} (total : index.total = index.stored)
    (enough : size index.entries ≤ fuel) (enough' : size index.entries ≤ fuel')
    (ran : Faulty allowed t (evictLocked limits fuel index) w out w') :
    Faulty allowed t (evictLocked limits fuel' index) w out w' := by
  induction fuel generalizing fuel' index w with
  | zero =>
      obtain ⟨rfl, rfl⟩ := ran
      have within : out.exceeded limits = false :=
        exceeded_of_bare total (eq_empty_of_size (by omega))
      cases fuel' with
      | zero => exact ⟨rfl, rfl⟩
      | succ fuel' =>
          rw [evictLocked, if_neg (by simp [within])]
          exact ⟨rfl, rfl⟩
  | succ fuel ih =>
      cases fuel' with
      | zero =>
          have within : index.exceeded limits = false :=
            exceeded_of_bare total (eq_empty_of_size (by omega))
          rw [evictLocked, if_neg (by simp [within])] at ran
          exact ran
      | succ fuel' =>
          unfold evictLocked at ran ⊢
          split at ran
          · rename_i exceeded
            rw [if_pos exceeded]
            obtain ⟨order, v, answered, ran⟩ := ran
            obtain ⟨-, choice, -, handled⟩ := faulty_iterate _ _ _ _ answered
            obtain ⟨rfl, -⟩ := Prod.mk.inj handled
            refine ⟨_, v, answered, ?_⟩
            simp only [Prog.ret_bind] at ran ⊢
            split at ran
            · exact ran
            · rename_i key entry picked
              have fewer := size_picked picked
              obtain ⟨_, w1, cleared, _, w2, counted, ran⟩ := Prog.exec_bind.1 ran
              refine Prog.exec_bind.2 ⟨_, w1, cleared, _, w2, counted, ?_⟩
              exact ih (Index.total_remove total key) (by omega) (by omega) ran
          · rename_i within
            rw [if_neg within]
            exact ran

/-- **Eviction is oldest first, minimal and ends**, on any file system: over every index whose total
is right, under every limits. -/
theorem evict_oldest_first (total : index.total = index.stored) (limits : Limits) (t : T) (w : World T) :
    (∃ out w', Faulty anyChoice t (evict limits index) w out w') ∧
    (∀ fuel out w', size index.entries ≤ fuel →
      (Faulty anyChoice t (evictLocked limits fuel index) w out w' ↔
        Faulty anyChoice t (evict limits index) w out w')) ∧
    ∀ out w', Faulty anyChoice t (evict limits index) w out w' →
      ∃ removed, Evicted limits index removed out ∧
        w'.quotaEvictions = w.quotaEvictions + removed.length := by
  refine ⟨?_, fun fuel out w' enough => ⟨?_, ?_⟩, fun out w' ran => ?_⟩
  · have may : anyChoice (reading 0) := trivial
    obtain ⟨out, w', ran⟩ := walking_runs (t := t) may (walking_evictLocked _ index) w
    exact ⟨out, w', faulty_of_alone ran⟩
  · exact evictLocked_fuel total enough le_rfl
  · exact evictLocked_fuel total le_rfl enough
  · obtain ⟨removed, turns, counted⟩ := evictLocked_turns total le_rfl ran
    exact ⟨removed, turns.evicted, counted⟩

/-- Two entries that are too large together, and a tenant's counters that have lost both. -/
def crowded : Index :=
  let entry (createdAt : Nat) : Entry :=
    { id := someKey.id, kind := someKey.kind, bytes := 600, createdAt := createdAt, expiresAt := 10 }
  let index := (({} : Index).adopt someKey (entry 2)).adopt { someKey with kind := .asset } (entry 1)
  { index with perTenant := ∅, perTenantEntries := ∅ }

theorem evict_oldest_first_crowded :
    crowded.exceeded smallLimits = true ∧ tally crowded.perTenant someKey.tenant = 0 ∧
    (∃ out w', Faulty anyChoice () (evict smallLimits crowded) World.fresh out w') ∧
    (∀ fuel out w', size crowded.entries ≤ fuel →
      (Faulty anyChoice () (evictLocked smallLimits fuel crowded) World.fresh out w' ↔
        Faulty anyChoice () (evict smallLimits crowded) World.fresh out w')) ∧
    ∀ out w', Faulty anyChoice () (evict smallLimits crowded) World.fresh out w' →
      ∃ removed, Evicted smallLimits crowded removed out ∧
        w'.quotaEvictions = (World.fresh : World Unit).quotaEvictions + removed.length :=
  ⟨by decide +kernel, by decide +kernel,
    evict_oldest_first (by decide +kernel) smallLimits () World.fresh⟩

end TypstMcp.Store
