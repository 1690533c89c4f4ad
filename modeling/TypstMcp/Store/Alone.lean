/-
Store.Alone -- a program with the store to itself

`Alone` runs one program against the store while nobody else takes a step: the
opening of a store, and every call on a store that serves one call at a time.
What a run of each subprogram leaves is said from the tree it found, whatever
that tree is.

* `quiet_exec`: a program that leaves the lock alone leaves the index alone.
* `removeDirAll_exec`: a recursive removal empties its directory and nothing else.
* `evictLocked_exec`: eviction takes entries out of the index and off the disk
  together, oldest first (`Trimmed`).
-/
import TypstMcp.Store.Working
import TypstMcp.Store.Ledger

namespace TypstMcp.Store

open TypstMcp.Theory TypstMcp.Theory.Table
open TypstMcp.Theory.FileTree (Sweep sweep_walk lookup_unlink_ne lookup_unlink_le)
open TypstMcp.Auth (TenantId)

set_option autoImplicit false
set_option linter.unusedSectionVars false

variable {T : Type} [DecidableEq T]

/-- A program run to its end by thread `t`, no other thread taking a step. -/
abbrev Alone (allowed : Choice → Prop) (t : T) {α : Type} (p : StoreProg α) (w : World T)
    (value : α) (w' : World T) : Prop :=
  p.Exec (answers allowed t) w value w'

variable {allowed : Choice → Prop} {t : T} {α : Type} {w w' : World T} {value : α}

theorem alone_call {c : Call} {next : Reply c → StoreProg α} :
    Alone allowed t (.call c next) w value w' ↔
      (∀ purpose, c = .lock purpose → w.owner = none) ∧ ∃ choice, allowed choice ∧
        Alone allowed t (next (handle t choice c w).1) (handle t choice c w).2 value w' := by
  constructor
  · rintro ⟨reply, mid, ⟨waits, choice, may, handled⟩, rest⟩
    refine ⟨waits, choice, may, ?_⟩
    rw [handled]
    exact rest
  · rintro ⟨waits, choice, may, rest⟩
    exact ⟨_, _, ⟨waits, choice, may, rfl⟩, rest⟩

/-! ## What a call leaves alone -/

/-- The fields a call on the tree does not touch. -/
structure Shared (w w' : World T) : Prop where
  index : w'.index = w.index
  owner : w'.owner = w.owner
  acked : w'.acked = w.acked
  stray : w'.stray = w.stray

theorem shared_refl (w : World T) : Shared w w := ⟨rfl, rfl, rfl, rfl⟩

theorem Shared.trans {a b c : World T} (first : Shared a b) (second : Shared b c) : Shared a c :=
  ⟨second.index.trans first.index, second.owner.trans first.owner,
    second.acked.trans first.acked, second.stray.trans first.stray⟩

theorem shared_attempt (w : World T) (outcome : Except ErrorKind FileTree) :
    Shared w (w.attempt outcome).2 := by
  cases outcome <;> exact ⟨rfl, rfl, rfl, rfl⟩

theorem shared_startRemoval (w : World T) (t : T) (p : Path) :
    Shared w (w.startRemoval t p) := by
  unfold World.startRemoval
  split <;> exact ⟨rfl, rfl, rfl, rfl⟩

theorem startRemoval_disk (w : World T) (t : T) (p : Path) :
    (w.startRemoval t p).disk = w.disk := by
  unfold World.startRemoval
  split <;> rfl

theorem quiet_shared {c : Call} (quiet : c.Quiet) (choice : Choice) (w : World T) :
    Shared w (handle t choice c w).2 := by
  cases c with
  | lock _ | unlock _ _ => exact quiet.elim
  | createDirAll p | createFile p | rename p q | removeFile p => exact shared_attempt w _
  | walk p => exact shared_startRemoval w t p
  | _ => exact ⟨rfl, rfl, rfl, rfl⟩

/-- A call that leaves the lock alone waits for nothing. -/
theorem alone_quiet {c : Call} (quiet : c.Quiet) {choice : Choice} (may : allowed choice)
    {next : Reply c → StoreProg α}
    (rest : Alone allowed t (next (handle t choice c w).1) (handle t choice c w).2 value w') :
    Alone allowed t (.call c next) w value w' := by
  refine alone_call.2 ⟨?_, choice, may, rest⟩
  rintro purpose rfl
  exact quiet.elim

/-- A program that leaves the lock alone leaves the index alone. -/
theorem quiet_exec {p : StoreProg α} (quiet : p.Calls Call.Quiet)
    (ran : Alone allowed t p w value w') : Shared w w' := by
  refine Prog.Exec.keeps (Shared w) ?_ quiet (shared_refl w) ran
  intro c s reply s' quiet kept answered
  obtain ⟨_, choice, _, handled⟩ := answered
  obtain rfl : (handle t choice c s).2 = s' := congrArg Prod.snd handled
  exact kept.trans (quiet_shared quiet choice s)

/-! ## Coming to an end -/

/-- Whether the lock is held once the call is answered. -/
def Call.holds (held : Bool) : Call → Bool
  | .lock _ => true
  | .unlock .. => false
  | _ => held

/-- The lock is not asked for by who holds it. -/
def Call.Ready (held : Bool) : Call → Prop
  | .lock _ => held = false
  | _ => True

/-- The program takes the lock only when it does not hold it, and ends without it. -/
def Balanced : Bool → StoreProg α → Prop
  | held, .ret _ => held = false
  | held, .call c next => c.Ready held ∧ ∀ reply, Balanced (c.holds held) (next reply)

variable {β : Type} {held : Bool}

theorem balanced_bind {p : StoreProg α} {f : α → StoreProg β} (first : Balanced held p)
    (rest : ∀ value, Balanced false (f value)) : Balanced held (p.bind f) := by
  induction p generalizing held with
  | ret value =>
      obtain rfl : held = false := first
      exact rest value
  | call c next ih => exact ⟨first.1, fun reply => ih reply (first.2 reply)⟩

theorem balanced_quiet_bind {p : StoreProg α} {f : α → StoreProg β}
    (quiet : p.Calls Call.Quiet) (rest : ∀ value, Balanced held (f value)) :
    Balanced held (p.bind f) := by
  induction p with
  | ret value => exact rest value
  | call c next ih =>
      cases c with
      | lock _ | unlock _ _ => exact quiet.1.elim
      | _ => exact ⟨trivial, fun reply => ih reply (quiet.2 reply)⟩

/-- **A balanced program comes to an end**, and leaves the lock free. -/
theorem balanced_runs {choice : Choice} (may : allowed choice) {p : StoreProg α}
    (balanced : Balanced held p) (free : held = false → w.owner = none) :
    ∃ value w', Alone allowed t p w value w' ∧ w'.owner = none := by
  induction p generalizing held w with
  | ret value => exact ⟨value, w, ⟨rfl, rfl⟩, free balanced⟩
  | call c next ih =>
      obtain ⟨ready, rest⟩ := balanced
      have after : c.holds held = false → (handle t choice c w).2.owner = none := by
        intro released
        cases c with
        | lock _ => simp [Call.holds] at released
        | unlock _ _ => rfl
        | _ =>
            rw [(quiet_shared (by trivial) choice w).owner]
            exact free released
      obtain ⟨value, w', ran, done⟩ := ih _ (rest (handle t choice c w).1) after
      refine ⟨value, w', alone_call.2 ⟨?_, choice, may, ran⟩, done⟩
      rintro purpose rfl
      exact free ready

/-! ## Calm by nature -/

/-- Calls that not only a put makes. -/
def Call.NoPut : Call → Prop
  | .lock (.storing ..) | .newUlid | .createDirAll _ | .pathExists _ | .createFile _
  | .writeAll .. | .rename .. | .removeFile _ => False
  | _ => True

/-- One program alone is calm: no put is at work while it removes. -/
theorem calm_exec {p : StoreProg α} (calls : p.Calls Call.NoPut) (idle : ¬ w.Storing)
    (ran : Alone allowed t p w value w') : p.Exec (calmAnswers allowed t) w value w' := by
  refine (ran.transport (fun s => ¬ s.Storing) ?_ calls idle).1
  intro c s reply s' noPut idle answered
  have calm : Calm t s c := by
    cases c with
    | lock purpose =>
        cases purpose with
        | storing key size => exact noPut.elim
        | other => trivial
    | walk p =>
        show Apart t p s.owner
        cases owned : s.owner with
        | none => trivial
        | some owner =>
            obtain ⟨u, purpose⟩ := owner
            cases purpose with
            | storing key size => exact absurd ⟨u, key, size, owned⟩ idle
            | other => trivial
    | _ => trivial
  refine ⟨⟨calm, answered⟩, ?_⟩
  obtain ⟨_, choice, _, handled⟩ := answered
  obtain rfl : (handle t choice c s).2 = s' := congrArg Prod.snd handled
  rintro ⟨u, key, size, owned⟩
  cases c with
  | lock purpose =>
      cases purpose with
      | storing key size => exact noPut.elim
      | other => exact absurd owned (by simp [handle])
  | unlock index note => exact absurd owned (by simp [handle, World.publish])
  | _ =>
      rw [(quiet_shared (by trivial) choice s).owner] at owned
      exact idle ⟨u, key, size, owned⟩

/-! ## Removal -/

/-- The directory `d` is gone from the tree, and the rest of it is as it was. -/
structure Cleared (d : Path) (disk disk' : FileTree) : Prop where
  gone : ∀ p, d <+: p → disk'.lookup p = none
  kept : ∀ p, ¬ d <+: p → disk'.lookup p = disk.lookup p

theorem unlinkAll_exec {d : Path} {left : List Path} {value : Unit}
    (sweep : Sweep w.disk d left) (ran : Alone allowed t (unlinkAll left) w value w') :
    Cleared d w.disk w'.disk := by
  induction left generalizing w with
  | nil =>
      obtain ⟨-, rfl⟩ := ran
      exact ⟨fun p under => sweep.bare under, fun p _ => rfl⟩
  | cons q rest ih =>
      obtain ⟨_, _, _, ran⟩ := alone_call.1 ran
      have cleared := ih (w := w.unlinked q) sweep.unlink ran
      refine ⟨cleared.gone, ?_⟩
      intro p apart
      rw [cleared.kept p apart]
      apply lookup_unlink_ne
      rintro rfl
      exact apart (sweep.below p List.mem_cons_self)

/-- **A recursive removal empties its directory and nothing else.** -/
theorem removeDirAll_exec {d : Path} {value : Unit}
    (ran : Alone allowed t (removeDirAll d) w value w') : Cleared d w.disk w'.disk := by
  obtain ⟨_, choice, _, ran⟩ := alone_call.1 ran
  have same := startRemoval_disk w t d
  have sweep : Sweep (w.startRemoval t d).disk d (w.disk.walk choice.pathRank d) := by
    rw [same]
    exact sweep_walk _ _ _
  have cleared := unlinkAll_exec (w := w.startRemoval t d) sweep ran
  rwa [same] at cleared

/-! ## Eviction -/

/-- The entries `index'` no longer holds are off the disk, and the rest of it is as it
was. -/
structure Trimmed (index index' : Index) (disk disk' : FileTree) : Prop where
  gone : ∀ key, index.entries.lookup key ≠ none → index'.entries.lookup key = none →
    Bare disk' key
  kept : ∀ p, (∀ key, entryDir key <+: p → index.entries.lookup key ≠ none →
    index'.entries.lookup key ≠ none) → disk'.lookup p = disk.lookup p

theorem trimmed_refl (index : Index) (disk : FileTree) : Trimmed index index disk disk :=
  ⟨fun _ present absent => absurd absent present, fun _ _ => rfl⟩

theorem Trimmed.turn {index index' : Index} {key : Key} {disk disk' disk'' : FileTree}
    (listed : index.entries.lookup key ≠ none)
    (cleared : Cleared (entryDir key) disk disk')
    (rest : Trimmed (index.removeFromIndex key) index' disk' disk'')
    (sub : ∀ other, index'.entries.lookup other = none ∨
      index'.entries.lookup other = (index.removeFromIndex key).entries.lookup other) :
    Trimmed index index' disk disk'' := by
  have dropped : index'.entries.lookup key = none := by
    cases sub key with
    | inl gone => exact gone
    | inr same => rw [same, Index.lookup_removeFromIndex, if_pos rfl]
  have aside : ∀ other p, entryDir other <+: p → other ≠ key → ¬ entryDir key <+: p := by
    intro other p under ne inside
    exact ne (entryDir_under under inside)
  constructor
  · intro other before after p under
    by_cases mine : other = key
    · subst mine
      rw [rest.kept]
      · exact cleared.gone p under
      · intro other' under' present
        obtain rfl := entryDir_under under under'
        simp at present
    · refine rest.gone other ?_ after p under
      rwa [Index.lookup_removeFromIndex, if_neg mine]
  · intro p stays
    have out : ¬ entryDir key <+: p := fun inside => stays key inside listed dropped
    rw [rest.kept]
    · exact cleared.kept p out
    · intro other under present
      apply stays other under
      intro absent
      apply present
      rw [Index.lookup_removeFromIndex]
      split
      · rfl
      · exact absent

/-- Each turn leaves one entry fewer. -/
theorem size_picked {index : Index} {rank : Key → Nat} {key : Key} {entry : Entry}
    (picked : eldest (·.createdAt) (iterate rank index.entries) = some (key, entry)) :
    size (index.removeFromIndex key).entries < size index.entries := by
  have fewer := size_erase_of_lookup (mem_iterate.1 (eldest_spec picked).1)
  rw [Index.removeFromIndex_entries]
  omega

/-- **The turn the eviction loop takes**, or its end, wherever the map and the counter answer. -/
theorem evictLocked_cases {step : (c : Call) → World T → Reply c → World T → Prop}
    (iterates : ∀ index v order v', step (.iterate index) v order v' →
      answers allowed t (.iterate index) v order v')
    (counts : ∀ v value v', step .countQuota v value v' → answers allowed t .countQuota v value v')
    {limits : Limits} {fuel : Nat} {index out : Index}
    (ran : (evictLocked limits (fuel + 1) index).Exec step w out w') :
    (index.exceeded limits = false ∧ out = index ∧ w' = w) ∨
    ((∀ key, index.entries.lookup key = none) ∧ out = index ∧ w' = w) ∨
    (index.exceeded limits = true ∧ ∃ rank key entry w1, ranksOf allowed rank ∧
      eldest (·.createdAt) (iterate rank index.entries) = some (key, entry) ∧
      (removeDirAll (entryDir key)).Exec step w () w1 ∧
      (evictLocked limits fuel (index.removeFromIndex key)).Exec step
        { w1 with quotaEvictions := w1.quotaEvictions + 1 } out w') := by
  unfold evictLocked at ran
  split at ran
  · rename_i exceeded
    obtain ⟨_, _, answered, ran⟩ := ran
    obtain ⟨-, choice, may, handled⟩ := iterates _ _ _ _ answered
    obtain ⟨rfl, rfl⟩ := Prod.mk.inj handled
    simp only [Prog.ret_bind] at ran
    split at ran
    · rename_i none_
      obtain ⟨rfl, rfl⟩ := ran
      refine .inr (.inl ⟨eq_empty_of_size ?_, rfl, rfl⟩)
      have := congrArg List.length (eldest_none none_)
      simpa [iterate, List.length_insertionSort, size] using this
    · rename_i key entry picked
      obtain ⟨_, w1, removed, _, _, counted, ran⟩ := Prog.exec_bind.1 ran
      obtain ⟨-, _, -, handled⟩ := counts _ _ _ counted
      obtain ⟨-, rfl⟩ := Prod.mk.inj handled
      exact .inr (.inr ⟨exceeded, _, key, entry, w1, ⟨choice, may, rfl⟩, picked, removed, ran⟩)
  · rename_i within
    obtain ⟨rfl, rfl⟩ := ran
    exact .inl ⟨by simpa using within, rfl, rfl⟩

/-- **Eviction takes entries out of the index and off the disk together.** -/
theorem evictLocked_exec {limits : Limits} {fuel : Nat} {index index' : Index}
    (enough : size index.entries ≤ fuel)
    (ran : Alone allowed t (evictLocked limits fuel index) w index' w') :
    Evicts limits (ranksOf allowed) index index' ∧ Trimmed index index' w.disk w'.disk := by
  induction fuel generalizing index w with
  | zero =>
      obtain ⟨rfl, rfl⟩ := ran
      exact ⟨.bare (eq_empty_of_size (by omega)), trimmed_refl _ _⟩
  | succ fuel ih =>
      obtain ⟨within, rfl, rfl⟩ | ⟨bare, rfl, rfl⟩ | ⟨exceeded, rank, key, entry, w1, may, picked,
        removed, ran⟩ := evictLocked_cases (fun _ _ _ _ => id) (fun _ _ _ => id) ran
      · exact ⟨.done within, trimmed_refl _ _⟩
      · exact ⟨.bare bare, trimmed_refl _ _⟩
      · have found := mem_iterate.1 (eldest_spec picked).1
        have fewer := size_picked picked
        obtain ⟨evicts, trimmed⟩ := ih (by omega) ran
        refine ⟨.turn exceeded may picked evicts, ?_⟩
        apply Trimmed.turn (by simp [found]) (removeDirAll_exec removed) trimmed
        exact evicts.sub

end TypstMcp.Store
