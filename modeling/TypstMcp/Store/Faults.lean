/-
Store.Faults -- the store on a file system that fails

Any call on the tree may come back with an error, and it may have done part of its
work by then: some of the parents made, part of the bytes written, a path kept that
was to be unlinked.  Nothing is assumed of the tree the calls find.

* `putLocked_faulty`: a put that fails leaves the index and every other entry as they
  were; one that returns `Ok` was let in by the quotas, and has committed and evicted.
-/
import TypstMcp.Store.Sequential

namespace TypstMcp.Store

open TypstMcp.Theory TypstMcp.Theory.Table TypstMcp.Theory.FileTree
open TypstMcp.Auth (TenantId)

set_option autoImplicit false
set_option linter.unusedSectionVars false

variable {T : Type} [DecidableEq T]

/-- How a call on the tree can fail, and the tree it leaves. -/
inductive Faults (disk : FileTree) : (c : Call) → Reply c → FileTree → Prop
  | still {c : Call} {reply : Reply c} (fails : Fails c reply) : Faults disk c reply disk
  | parents {p q : Path} {kind : ErrorKind} {disk' : FileTree} (above : q <+: p)
      (made : disk.createDirAll q = .ok disk') : Faults disk (.createDirAll p) (.error kind) disk'
  | torn {p : Path} {bytes written : Bytes} {kind : ErrorKind} (part : written <+: bytes) :
      Faults disk (.writeAll p bytes) (.error kind) (disk.writeAll p written)
  | kept {p : Path} : Faults disk (.unlink p) () disk

/-- One call of thread `t`: answered by the world, or failing. -/
def faulty (allowed : Choice → Prop) : CallStep Call Reply T (World T) := fun t c w reply w' =>
  answers allowed t c w reply w' ∨
    ∃ disk, Faults w.disk c reply disk ∧ w' = { w with disk := disk }

/-- A program run to its end over a file system that may fail. -/
abbrev Faulty (allowed : Choice → Prop) (t : T) {α : Type} (p : StoreProg α) (w : World T)
    (value : α) (w' : World T) : Prop :=
  p.Exec (faulty allowed t) w value w'

variable {allowed : Choice → Prop} {t : T} {α : Type} {w w' : World T} {value : α}

/-- A file system that may fail need not. -/
theorem faulty_of_alone {p : StoreProg α} (ran : Alone allowed t p w value w') :
    Faulty allowed t p w value w' :=
  ran.mono fun _ _ _ _ => Or.inl

theorem Faults.quiet {disk disk' : FileTree} {c : Call} {reply : Reply c}
    (faults : Faults disk c reply disk') : c.Quiet := by
  cases faults with
  | still fails => exact fails.quiet
  | parents _ _ | torn _ | kept => trivial

/-- The clock, the names, the lock and the map do not fail. -/
theorem faulty_answers {c : Call} {reply : Reply c}
    (never : ∀ disk disk', ¬ Faults disk c reply disk') (answered : faulty allowed t c w reply w') :
    answers allowed t c w reply w' := by
  cases answered with
  | inl answered => exact answered
  | inr failed =>
      obtain ⟨disk, faults, -⟩ := failed
      exact absurd faults (never _ _)

theorem faulty_iterate (index : Index) (v : World T) (order : List (Key × Entry)) (v' : World T)
    (answered : faulty allowed t (.iterate index) v order v') :
    answers allowed t (.iterate index) v order v' :=
  faulty_answers (fun _ _ faults => by cases faults with | still fails => exact fails) answered

theorem faulty_countQuota (v : World T) (value : Unit) (v' : World T)
    (answered : faulty allowed t .countQuota v value v') :
    answers allowed t .countQuota v value v' :=
  faulty_answers (fun _ _ faults => by cases faults with | still fails => exact fails) answered

/-! ## What a call leaves alone -/

/-- Every entry but `key`'s has the same files in both trees. -/
def Aside (key : Key) (disk disk' : FileTree) : Prop :=
  ∀ other, other ≠ key → ∀ p, entryDir other <+: p → disk'.lookup p = disk.lookup p

theorem aside_refl (key : Key) (disk : FileTree) : Aside key disk disk := fun _ _ _ _ => rfl

theorem Aside.trans {key : Key} {a b c : FileTree} (first : Aside key a b)
    (second : Aside key b c) : Aside key a c := fun other apart p under =>
  (second other apart p under).trans (first other apart p under)

/-- The path lies in no entry directory but `key`'s. -/
def Own (key : Key) (p : Path) : Prop := ∀ other, entryDir other <+: p → other = key

theorem own_entry (key : Key) (name : String) : Own key (entryDir key ++ [name]) :=
  fun _ under => entryDir_under under (List.prefix_append _ _)

theorem own_part (key : Key) (ulid : String) : Own key (partPath ulid) :=
  fun _ under => absurd under (tmp_not_entry (List.prefix_append _ _))

/-- What the call changes of the tree lies in no entry directory but `key`'s. -/
def Call.Within (key : Key) : Call → Prop
  | .createDirAll p => p <+: entryDir key
  | .createFile p | .writeAll p _ | .removeFile p | .unlink p => Own key p
  | .rename p q => Own key p ∧ Own key q
  | _ => True

theorem aside_of_ne {key : Key} {p : Path} {disk disk' : FileTree} (own : Own key p)
    (elsewhere : ∀ q, q ≠ p → disk'.lookup q = disk.lookup q) : Aside key disk disk' := by
  intro other apart q under
  apply elsewhere
  rintro rfl
  exact apart (own other under)

theorem aside_createDirAll {key : Key} {p : Path} {disk disk' : FileTree}
    (inside : p <+: entryDir key) (made : disk.createDirAll p = .ok disk') :
    Aside key disk disk' := by
  intro other apart q under
  rw [lookup_createDirAll made, if_neg]
  intro above
  exact apart (entryDir_under (under.trans (above.trans inside)) List.prefix_rfl)

theorem aside_attempt {key : Key} {outcome : Except ErrorKind FileTree}
    (each : ∀ disk, outcome = .ok disk → Aside key w.disk disk) :
    Aside key w.disk (w.attempt outcome).2.disk := by
  cases outcome with
  | error kind => exact aside_refl _ _
  | ok disk => exact each disk rfl

theorem within_aside {key : Key} {c : Call} {reply : Reply c} (within : c.Within key)
    (answered : faulty allowed t c w reply w') : Aside key w.disk w'.disk := by
  rcases answered with ⟨_, choice, _, handled⟩ | ⟨disk, faults, rfl⟩
  · obtain rfl : (handle t choice c w).2 = w' := congrArg Prod.snd handled
    cases c with
    | createDirAll p => exact aside_attempt fun _ made => aside_createDirAll within made
    | createFile p =>
        refine aside_attempt fun _ made => aside_of_ne within fun q ne => ?_
        rw [lookup_createFile made, if_neg ne]
    | writeAll p bytes => exact aside_of_ne within fun q ne => lookup_writeAll_ne bytes ne
    | rename p q =>
        refine aside_attempt fun disk moved other apart r under => ?_
        obtain ⟨_, -, after⟩ := lookup_rename moved r
        rw [after, if_neg, if_neg]
        · rintro rfl
          exact apart (within.1 other under)
        · rintro rfl
          exact apart (within.2 other under)
    | removeFile p =>
        refine aside_attempt fun _ removed => aside_of_ne within fun q ne => ?_
        rw [lookup_removeFile removed, if_neg ne]
    | unlink p => exact aside_of_ne within fun q ne => lookup_unlink_ne ne
    | walk p =>
        show Aside key w.disk (w.startRemoval t p).disk
        rw [startRemoval_disk]
        exact aside_refl _ _
    | _ => exact aside_refl _ _
  · cases faults with
    | still _ | kept => exact aside_refl _ _
    | parents above made => exact aside_createDirAll (above.trans within) made
    | torn _ => exact aside_of_ne within fun q ne => lookup_writeAll_ne _ ne

theorem within_faulty {key : Key} {p : StoreProg α} (calls : p.Calls (Call.Within key))
    (ran : Faulty allowed t p w value w') : Aside key w.disk w'.disk :=
  Prog.Exec.keeps (fun s => Aside key w.disk s.disk)
    (fun _ _ _ _ within kept answered => kept.trans (within_aside within answered)) calls
    (aside_refl _ _) ran

theorem within_writeAtomic (key : Key) (name : String) (bytes : Bytes) :
    (writeAtomic (entryDir key ++ [name]) bytes).Calls (Call.Within key) := by
  refine (writing_writeAtomic _ bytes).mono fun c writing => ?_
  cases c with
  | createFile p | writeAll p _ | removeFile p =>
      obtain ⟨ulid, rfl⟩ := writing
      exact own_part key ulid
  | rename p q =>
      obtain ⟨⟨ulid, rfl⟩, rfl⟩ := writing
      exact ⟨own_part key ulid, own_entry key name⟩
  | newUlid => trivial
  | _ => exact writing.elim

/-! ## A put -/

variable {limits : Limits} {codec : MetaCodec} {key : Key} {name : String} {bytes : Bytes}
variable {info : Meta} {index : Index}

theorem evictLocked_faulty {fuel : Nat} {index index' : Index} (enough : size index.entries ≤ fuel)
    (ran : Faulty allowed t (evictLocked limits fuel index) w index' w') :
    Evicts limits (ranksOf allowed) index index' := by
  induction fuel generalizing index w with
  | zero =>
      obtain ⟨rfl, -⟩ := ran
      exact .bare (eq_empty_of_size (by omega))
  | succ fuel ih =>
      obtain ⟨within, rfl, -⟩ | ⟨bare, rfl, -⟩ | ⟨exceeded, rank, key, entry, w1, may, picked, -,
        ran⟩ := evictLocked_cases faulty_iterate faulty_countQuota ran
      · exact .done within
      · exact .bare bare
      · have fewer := size_picked picked
        exact .turn exceeded may picked (ih (by omega) ran)

/-- **A put on a file system that fails**: it comes back with an error, having changed no entry but
its own; or the quotas let it in, and it has committed and evicted. -/
theorem putLocked_faulty {out : Except StoreError Entry × Index × Note}
    (ran : Faulty allowed t (putLocked limits codec key name bytes info index) w out w') :
    (∃ error, out = (.error error, index, .nothing) ∧ Aside key w.disk w'.disk) ∨
    (index.refusal limits key bytes.length = none ∧ ∃ choice entry index', allowed choice ∧
      entry = index.nextEntry limits key bytes.length choice.now info ∧
      Evicts limits (ranksOf allowed) (index.commit key entry bytes.length) index' ∧
      out = (.ok entry, index', .counted key (safeName name) bytes)) := by
  unfold putLocked at ran
  dsimp only at ran
  split at ran
  · obtain ⟨rfl, rfl⟩ := ran
    exact Or.inl ⟨_, rfl, aside_refl _ _⟩
  · rename_i room
    obtain ⟨made, w1, first, ran⟩ := ran
    have aside1 : Aside key w.disk w1.disk := within_aside (by exact List.prefix_rfl) first
    simp only [Prog.ret_bind] at ran
    split at ran
    · obtain ⟨rfl, rfl⟩ := ran
      exact Or.inl ⟨_, rfl, aside1⟩
    obtain ⟨there, w2, second, ran⟩ := ran
    have aside2 := aside1.trans (within_aside (by trivial) second)
    simp only [Prog.ret_bind] at ran
    split at ran
    · obtain ⟨rfl, rfl⟩ := ran
      exact Or.inl ⟨_, rfl, aside2⟩
    obtain ⟨written, w3, third, ran⟩ := Prog.exec_bind.1 ran
    have aside3 := aside2.trans (within_faulty (within_writeAtomic key _ _) third)
    split at ran
    · obtain ⟨rfl, rfl⟩ := ran
      exact Or.inl ⟨_, rfl, aside3⟩
    obtain ⟨now, w4, fourth, ran⟩ := ran
    have aside4 := aside3.trans (within_aside (by trivial) fourth)
    obtain ⟨_, choice, may, handled⟩ := faulty_answers (fun _ _ faults => by cases faults with | still fails => exact fails) fourth
    obtain ⟨rfl, -⟩ := Prod.mk.inj handled
    simp only [Prog.ret_bind] at ran
    obtain ⟨recorded, w5, fifth, ran⟩ := Prog.exec_bind.1 ran
    have aside5 := aside4.trans (within_faulty (within_writeAtomic key _ _) fifth)
    split at ran
    · obtain ⟨_, w6, sixth, ran⟩ := ran
      have aside6 := aside5.trans (within_aside (by exact own_entry key _) sixth)
      obtain ⟨rfl, rfl⟩ := ran
      exact Or.inl ⟨_, rfl, aside6⟩
    · obtain ⟨index', w6, evicted, ran⟩ := Prog.exec_bind.1 ran
      obtain ⟨rfl, rfl⟩ := ran
      exact Or.inr ⟨room, choice, _, index', may, rfl, evictLocked_faulty le_rfl evicted, rfl⟩

variable {tenant : TenantId} {kind : Kind} {id : String}

theorem putWithId_faulty {result : Except StoreError Entry}
    (ran : Faulty allowed t (putWithId limits codec tenant kind id name bytes info) w result w') :
    (∃ error, result = .error error ∧ w'.index = w.index ∧
      Aside ⟨tenant, kind, id⟩ w.disk w'.disk) ∨
    (w.index.refusal limits ⟨tenant, kind, id⟩ bytes.length = none ∧ ∃ choice entry,
      allowed choice ∧ result = .ok entry ∧
      entry = w.index.nextEntry limits ⟨tenant, kind, id⟩ bytes.length choice.now info ∧
      Evicts limits (ranksOf allowed) (w.index.commit ⟨tenant, kind, id⟩ entry bytes.length)
        w'.index) := by
  unfold putWithId at ran
  split at ran
  · obtain ⟨rfl, rfl⟩ := ran
    exact Or.inl ⟨_, rfl, rfl, aside_refl _ _⟩
  · rename_i id' valid
    obtain rfl := validateId_ok valid
    obtain ⟨_, w1, locked, ran⟩ := ran
    obtain ⟨_, _, _, handled⟩ :=
      faulty_answers (fun _ _ faults => by cases faults with | still fails => exact fails) locked
    obtain ⟨rfl, rfl⟩ := Prod.mk.inj handled
    simp only [Prog.ret_bind] at ran
    obtain ⟨out, w2, put, ran⟩ := Prog.exec_bind.1 ran
    obtain ⟨_, w3, released, rfl, rfl⟩ := ran
    obtain ⟨_, _, _, handled⟩ :=
      faulty_answers (fun _ _ faults => by cases faults with | still fails => exact fails) released
    obtain ⟨-, rfl⟩ := Prod.mk.inj handled
    rcases putLocked_faulty put with ⟨error, rfl, aside⟩ | ⟨room, choice, entry, index', may, made,
      evicts, rfl⟩
    · exact Or.inl ⟨error, rfl, rfl, aside⟩
    · exact Or.inr ⟨room, choice, entry, may, rfl, made, evicts⟩

/-- A put can always fail: the quotas refuse it, or its directory cannot be made. -/
theorem putWithId_fails {choice : Choice} (may : allowed choice) (free : w.owner = none) :
    ∃ error w', Faulty allowed t (putWithId limits codec tenant kind id name bytes info) w
      (.error error) w' ∧ w'.index = w.index := by
  unfold putWithId
  split
  · exact ⟨_, w, ⟨rfl, rfl⟩, rfl⟩
  · rename_i id' _
    have failed : ∃ error w1, Faulty allowed t
        (putLocked limits codec ⟨tenant, kind, id'⟩ name bytes info w.index)
        { w with owner := some (t, .storing ⟨tenant, kind, id'⟩ bytes.length) }
        (.error error, w.index, .nothing) w1 := by
      unfold putLocked
      dsimp only
      split
      · exact ⟨_, _, rfl, rfl⟩
      · exact ⟨_, _, .error .other, _, Or.inr ⟨w.disk, .still trivial, rfl⟩, rfl, rfl⟩
    obtain ⟨error, w1, failed⟩ := failed
    refine ⟨error, w1.publish t w.index .nothing, ?_, rfl⟩
    refine ⟨_, _, Or.inl ⟨fun _ _ => free, choice, may, rfl⟩, ?_⟩
    refine Prog.exec_bind.2 ⟨_, _, ⟨rfl, rfl⟩, Prog.exec_bind.2 ⟨_, _, failed, ?_⟩⟩
    refine ⟨(), _, Or.inl ⟨?_, choice, may, rfl⟩, rfl, rfl⟩
    rintro _ ⟨⟩

end TypstMcp.Store
