/-
Store.Layout -- where the calls of the store may put things

Whatever runs, in any order: each call makes directories only where the store keeps
them, files only under the temporary directory, and renames those into an entry.
So the tree of the store keeps its shape in every run, and in an opening cut short.

* `tidy_program`, `tidy_openStore`: the calls every program makes.
* `laid_call`: what one such call leaves of the tree.
* `info_call`: the metadata of an entry outlasts every call but an unlink below it.
-/
import TypstMcp.Store.Sequential
import TypstMcp.Store.Reopen
import TypstMcp.Store.Serde

namespace TypstMcp.Store

open TypstMcp.Theory TypstMcp.Theory.Table
open TypstMcp.Theory.FileTree (Closed lookup_createDirAll lookup_createFile lookup_writeAll_ne
  lookup_rename lookup_removeFile lookup_unlink_le lookup_unlink_ne isDir_iff)
open TypstMcp.Auth (TenantId)

set_option autoImplicit false
set_option linter.unusedSectionVars false

variable {T : Type} [DecidableEq T]
variable {codec : MetaCodec} {limits : Limits} {plain : Prop} {t : T} {w w' : World T}

/-- A file may be written anew wherever there is one. -/
theorem placed_rewrite {p : Path} {old bytes : Bytes} (placed : Placed p (.file old)) :
    Placed p (.file bytes) := by
  match p, placed with
  | [], same => simp [Placed] at same
  | [_], same => simp [Placed] at same
  | [_, _], same =>
      rcases same with ⟨part, -⟩ | ⟨dir, -⟩
      · exact Or.inl ⟨part, bytes, rfl⟩
      · simp at dir
  | [_, _, _], same => simp [Placed] at same
  | [_, _, _, _], same => exact ⟨⟨bytes, rfl⟩, same.2⟩
  | _ :: _ :: _ :: _ :: _ :: _, same => exact same.elim

/-! ## Tidy calls -/

/-- Directories are made where the store keeps them, files as temporary files, and a
rename goes from there into an entry.  A file is removed by name only from among the
temporary files or the payload files of an entry. -/
def Call.Tidy (plain : Prop) : Call → Prop
  | .createDirAll p => ∀ q, q <+: p → Placed q .dir
  | .createFile p => ∃ name, p = tmpDir ++ [name]
  | .rename p q => (∃ name, p = tmpDir ++ [name]) ∧ ∃ key name, q = entryDir key ++ [name]
  | .removeFile p => (∃ name, p = tmpDir ++ [name]) ∨
      ∃ key name, p = entryDir key ++ [name] ∧ (plain → name ≠ metaName)
  | _ => True

theorem Call.NoPut.tidy {c : Call} (noPut : c.NoPut) : c.Tidy plain := by
  cases c <;> first | exact noPut.elim | trivial

theorem tidy_putLocked (key : Key) {name : String} (valid : validateId key.kind key.id = .ok key.id)
    (named : plain → safeName name ≠ metaName) (bytes : Bytes) (info : Meta) (index : Index) :
    (putLocked limits codec key name bytes info index).Calls (Call.Tidy plain) := by
  refine (storing_putLocked key name bytes info index).mono fun c storing => ?_
  cases c with
  | createDirAll p =>
      obtain rfl : p = entryDir key := storing
      exact fun q inside => placed_ancestor valid inside
  | createFile p =>
      obtain ⟨ulid, rfl⟩ := storing
      exact ⟨_, rfl⟩
  | rename p q =>
      obtain ⟨⟨ulid, rfl⟩, rfl | rfl⟩ := storing
      · exact ⟨⟨_, rfl⟩, key, _, rfl⟩
      · exact ⟨⟨_, rfl⟩, key, _, rfl⟩
  | removeFile p =>
      obtain ⟨ulid, rfl⟩ | rfl := storing
      · exact .inl ⟨_, rfl⟩
      · exact .inr ⟨key, _, rfl, named⟩
  | _ => trivial

theorem tidy_putWithId (tenant : TenantId) (kind : Kind) (id : String) {name : String}
    (named : plain → safeName name ≠ metaName) (bytes : Bytes) (info : Meta) :
    (putWithId limits codec tenant kind id name bytes info).Calls (Call.Tidy plain) := by
  unfold putWithId
  split
  · trivial
  · rename_i id' valid
    obtain rfl := validateId_ok valid
    refine ⟨trivial, fun index => ?_⟩
    simp only [Prog.ret_bind]
    exact Prog.calls_bind (tidy_putLocked ⟨tenant, kind, id'⟩ valid named _ _ _)
      fun _ => ⟨trivial, fun _ => trivial⟩

/-- **Every operation is tidy.** -/
theorem tidy_program (op : Op) (named : plain → op.Plain) :
    (op.program limits codec).Calls (Call.Tidy plain) := by
  by_cases reads : op.storesFor = none
  · exact (noPut_program op reads).mono fun _ => Call.NoPut.tidy
  · cases op with
    | put tenant kind name bytes info =>
        refine Prog.calls_bind ?_ fun _ => trivial
        exact ⟨trivial, fun ulid => tidy_putWithId _ _ _ named _ _⟩
    | putWithId tenant kind id name bytes info =>
        exact Prog.calls_bind (tidy_putWithId _ _ _ named _ _) fun _ => trivial
    | _ => exact absurd rfl reads

theorem Call.Booting.tidy {c : Call} (booting : c.Booting) : c.Tidy plain := by
  cases c with
  | createDirAll p => exact fun q inside => placed_opening booting inside
  | createFile _ | rename _ _ | removeFile _ => exact booting.elim
  | _ => trivial

theorem tidy_openStore (plain : Prop) : (openStore limits codec).Calls (Call.Tidy plain) :=
  (booting_openStore limits codec).mono fun _ => Call.Booting.tidy

/-! ## The shape of the tree -/

/-- Every node is where the store puts one, in a directory. -/
structure Laid (disk : FileTree) : Prop where
  closed : Closed disk
  shape : Shape disk

theorem Inv.laid (inv : Inv codec plain w) : Laid w.disk := ⟨inv.closed, inv.shape⟩

theorem laid_fresh : Laid (World.fresh : World T).disk := by
  have inv : Inv serde True (World.fresh : World T) := inv_fresh serde True
  exact inv.laid

/-- Every call leaves each node in a directory. -/
theorem closed_call (c : Call) (choice : Choice) (closed : Closed w.disk) :
    Closed (handle t choice c w).2.disk := by
  have attempt : ∀ {outcome : Except ErrorKind FileTree},
      (∀ disk, outcome = .ok disk → Closed disk) → Closed (w.attempt outcome).2.disk := by
    intro outcome each
    cases outcome with
    | error kind => exact closed
    | ok disk => exact each disk rfl
  cases c with
  | createDirAll p => exact attempt fun _ => closed.createDirAll
  | createFile p => exact attempt fun _ => closed.createFile
  | writeAll p bytes => exact closed.writeAll p bytes
  | rename p q => exact attempt fun _ => closed.rename
  | removeFile p => exact attempt fun _ => closed.removeFile
  | unlink p => exact closed.unlink p
  | walk p =>
      show Closed (w.startRemoval t p).disk
      rw [startRemoval_disk]
      exact closed
  | _ => exact closed

/-- **A tidy call leaves the tree in shape.** -/
theorem laid_call {c : Call} (tidy : c.Tidy plain) (choice : Choice) (laid : Laid w.disk) :
    Laid (handle t choice c w).2.disk := by
  refine ⟨closed_call c choice laid.closed, ?_⟩
  have attempt : ∀ {outcome : Except ErrorKind FileTree},
      (∀ disk, outcome = .ok disk → Shape disk) → Shape (w.attempt outcome).2.disk := by
    intro outcome each
    cases outcome with
    | error kind => exact laid.shape
    | ok disk => exact each disk rfl
  cases c with
  | createDirAll p =>
      refine attempt fun disk made q node found => ?_
      rw [lookup_createDirAll made] at found
      split at found
      · rename_i inside
        obtain rfl : Node.dir = node := by simpa using found
        exact tidy q inside
      · exact laid.shape q node found
  | createFile p =>
      refine attempt fun disk made q node found => ?_
      rw [lookup_createFile made] at found
      split at found
      · rename_i same
        obtain ⟨name, rfl⟩ := tidy
        obtain rfl : Node.file [] = node := by simpa using found
        rw [same]
        exact Or.inl ⟨rfl, [], rfl⟩
      · exact laid.shape q node found
  | writeAll p bytes =>
      intro q node found
      have found : (w.disk.writeAll p bytes).lookup q = some node := found
      unfold FileTree.writeAll at found
      split at found
      · rename_i old there
        rw [FileTree.lookup_insert_eq] at found
        split at found
        · rename_i same
          obtain rfl : Node.file bytes = node := by simpa using found
          rw [same]
          exact placed_rewrite (laid.shape p _ there)
        · exact laid.shape q node found
      · exact laid.shape q node found
  | rename p q =>
      refine attempt fun disk moved r node found => ?_
      obtain ⟨bytes, there, after⟩ := lookup_rename moved r
      rw [after] at found
      split at found
      · rename_i same
        obtain ⟨-, key, name, rfl⟩ := tidy
        obtain rfl : Node.file bytes = node := by simpa using found
        rw [same]
        exact ⟨⟨bytes, rfl⟩, key, rfl⟩
      · split at found
        · simp at found
        · exact laid.shape r node found
  | removeFile p =>
      refine attempt fun disk removed q node found => ?_
      rw [lookup_removeFile removed] at found
      split at found
      · simp at found
      · exact laid.shape q node found
  | unlink p =>
      exact fun q node found => laid.shape q node (lookup_unlink_le found)
  | walk p =>
      show Shape (w.startRemoval t p).disk
      rw [startRemoval_disk]
      exact laid.shape
  | _ => exact laid.shape

theorem laid_step {allowed : Choice → Prop} {c : Call} {reply : Reply c} (tidy : c.Tidy plain)
    (laid : Laid w.disk) (answered : answers allowed t c w reply w') : Laid w'.disk := by
  obtain ⟨_, choice, _, handled⟩ := answered
  obtain rfl : (handle t choice c w).2 = w' := congrArg Prod.snd handled
  exact laid_call tidy choice laid

/-! ## The metadata of an entry -/

/-- The entry's metadata is on disk. -/
def Recorded (disk : FileTree) (key : Key) : Prop :=
  (disk.lookup (entryDir key ++ [metaName])).isSome

/-- **The metadata outlasts every call but an unlink below its entry.** -/
theorem recorded_call {key : Key} {c : Call} (tidy : c.Tidy True) (choice : Choice)
    (spares : ∀ p, c = .unlink p → ¬ entryDir key <+: p) (recorded : Recorded w.disk key) :
    Recorded (handle t choice c w).2.disk key := by
  have attempt : ∀ {outcome : Except ErrorKind FileTree},
      (∀ disk, outcome = .ok disk → Recorded disk key) → Recorded (w.attempt outcome).2.disk key := by
    intro outcome each
    cases outcome with
    | error kind => exact recorded
    | ok disk => exact each disk rfl
  have part : ∀ name, entryDir key ++ [metaName] ≠ tmpDir ++ [name] :=
    entry_not_part (List.prefix_append _ _)
  unfold Recorded at recorded ⊢
  cases c with
  | createDirAll p =>
      refine attempt fun disk made => ?_
      unfold Recorded
      rw [lookup_createDirAll made]
      split
      · rfl
      · exact recorded
  | createFile p =>
      refine attempt fun disk made => ?_
      unfold Recorded
      rw [lookup_createFile made]
      split
      · rfl
      · exact recorded
  | writeAll p bytes =>
      show ((w.disk.writeAll p bytes).lookup _).isSome
      unfold FileTree.writeAll
      split
      · rw [FileTree.lookup_insert_eq]
        split
        · rfl
        · exact recorded
      · exact recorded
  | rename p q =>
      refine attempt fun disk moved => ?_
      obtain ⟨bytes, there, after⟩ := lookup_rename moved (entryDir key ++ [metaName])
      obtain ⟨⟨name, rfl⟩, -⟩ := tidy
      unfold Recorded
      rw [after, if_neg (part name)]
      split
      · rfl
      · exact recorded
  | removeFile p =>
      refine attempt fun disk removed => ?_
      unfold Recorded
      rw [lookup_removeFile removed, if_neg]
      · exact recorded
      · rintro rfl
        rcases tidy with ⟨name, same⟩ | ⟨other, name, same, safe⟩
        · exact part name same
        · exact safe trivial (file_inj same).2.symm
  | unlink p =>
      show ((w.disk.unlink p).lookup _).isSome
      rw [lookup_unlink_ne]
      · exact recorded
      · rintro rfl
        exact spares _ rfl (List.prefix_append _ _)
  | walk p =>
      show ((w.startRemoval t p).disk.lookup _).isSome
      rw [startRemoval_disk]
      exact recorded
  | _ => exact recorded

end TypstMcp.Store
