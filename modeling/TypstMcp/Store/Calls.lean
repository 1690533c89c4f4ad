/-
Store.Calls -- which calls the programs of the store make

One walk over each program, to the finest description of its calls that any proof
needs; coarser ones follow from it with `Prog.Calls.mono`.

* `unlinking_removeDirAll`, `evicting_evictLocked`, `writing_writeAtomic`,
  `storing_putLocked`, `asking_entry`, `fetching_get`.
-/
import TypstMcp.Store.Program

namespace TypstMcp.Store

open TypstMcp.Theory
open TypstMcp.Auth (TenantId)

set_option autoImplicit false

variable {limits : Limits} {codec : MetaCodec}

/-! ## Removing -/

/-- The calls of a recursive removal of `d`. -/
def Call.Unlinking (d : Path) : Call → Prop
  | .walk p => p = d
  | .unlink _ => True
  | _ => False

theorem unlinking_unlinkAll (d : Path) (paths : List Path) :
    (unlinkAll paths).Calls (Call.Unlinking d) := by
  induction paths with
  | nil => trivial
  | cons p rest ih => exact ⟨trivial, fun _ => ih⟩

theorem unlinking_removeDirAll (d : Path) : (removeDirAll d).Calls (Call.Unlinking d) :=
  ⟨rfl, fun paths => unlinking_unlinkAll d paths⟩

/-- The calls of the eviction loop. -/
def Call.Evicting : Call → Prop
  | .iterate _ | .unlink _ | .countQuota => True
  | .walk p => ∃ key, p = entryDir key
  | _ => False

theorem Call.Unlinking.evicting {key : Key} {c : Call} (unlinking : c.Unlinking (entryDir key)) :
    c.Evicting := by
  cases c with
  | walk p => exact ⟨key, unlinking⟩
  | unlink p => trivial
  | _ => exact unlinking.elim

theorem evicting_evictLocked (fuel : Nat) (index : Index) :
    (evictLocked limits fuel index).Calls Call.Evicting := by
  induction fuel generalizing index with
  | zero => trivial
  | succ fuel ih =>
      unfold evictLocked
      split
      · refine ⟨trivial, fun order => ?_⟩
        simp only [Prog.ret_bind]
        split
        · trivial
        · refine Prog.calls_bind ((unlinking_removeDirAll _).mono fun _ => Call.Unlinking.evicting) ?_
          exact fun _ => ⟨trivial, fun _ => ih _⟩
      · trivial

/-! ## Storing -/

/-- The calls of a write through a temporary file onto `target`. -/
def Call.Writing (target : Path) : Call → Prop
  | .newUlid => True
  | .createFile p | .writeAll p _ | .removeFile p => ∃ ulid, p = partPath ulid
  | .rename p q => (∃ ulid, p = partPath ulid) ∧ q = target
  | _ => False

theorem writing_writeAtomic (target : Path) (bytes : Bytes) :
    (writeAtomic target bytes).Calls (Call.Writing target) := by
  refine ⟨trivial, fun ulid => ?_⟩
  show (Prog.bind (fsWrite (partPath ulid) bytes) _).Calls (Call.Writing target)
  refine Prog.calls_bind ?_ fun written => ?_
  · refine ⟨⟨ulid, rfl⟩, fun opened => ?_⟩
    cases opened with
    | error kind => trivial
    | ok _ => exact ⟨⟨ulid, rfl⟩, fun _ => trivial⟩
  · cases written with
    | error kind => trivial
    | ok _ =>
        refine ⟨⟨⟨ulid, rfl⟩, rfl⟩, fun moved => ?_⟩
        cases moved with
        | error kind => exact ⟨⟨ulid, rfl⟩, fun _ => trivial⟩
        | ok _ => trivial

/-- The calls of a put on `key`, but for the lock. -/
def Call.Storing (key : Key) (name : String) : Call → Prop
  | .createDirAll p => p = entryDir key
  | .pathExists p => p = entryDir key ++ [safeName name]
  | .now | .newUlid | .iterate _ | .unlink _ | .countQuota => True
  | .createFile p | .writeAll p _ => ∃ ulid, p = partPath ulid
  | .rename p q => (∃ ulid, p = partPath ulid) ∧
      (q = entryDir key ++ [safeName name] ∨ q = entryDir key ++ [metaName])
  | .removeFile p => (∃ ulid, p = partPath ulid) ∨ p = entryDir key ++ [safeName name]
  | .walk p => ∃ other, p = entryDir other
  | _ => False

theorem Call.Writing.storing {key : Key} {name : String} {target : Path} {c : Call}
    (inside : target = entryDir key ++ [safeName name] ∨ target = entryDir key ++ [metaName])
    (writing : c.Writing target) : c.Storing key name := by
  cases c with
  | newUlid => trivial
  | createFile p | writeAll p _ => exact writing
  | removeFile p => exact .inl writing
  | rename p q =>
      obtain ⟨part, rfl⟩ := writing
      exact ⟨part, inside⟩
  | _ => exact writing.elim

theorem Call.Evicting.storing {key : Key} {name : String} {c : Call} (evicting : c.Evicting) :
    c.Storing key name := by
  cases c <;> first | exact evicting | exact evicting.elim

/-- **The calls of a put.** -/
theorem storing_putLocked (key : Key) (name : String) (bytes : Bytes) (info : Meta) (index : Index) :
    (putLocked limits codec key name bytes info index).Calls (Call.Storing key name) := by
  unfold putLocked
  dsimp only
  split
  · trivial
  · refine ⟨rfl, fun made => ?_⟩
    simp only [Prog.ret_bind]
    split
    · trivial
    · refine ⟨rfl, fun there => ?_⟩
      simp only [Prog.ret_bind]
      split
      · trivial
      · refine Prog.calls_bind ((writing_writeAtomic _ _).mono fun _ writing =>
          writing.storing (.inl rfl)) fun written => ?_
        split
        · trivial
        · refine ⟨trivial, fun now => ?_⟩
          simp only [Prog.ret_bind]
          refine Prog.calls_bind ((writing_writeAtomic _ _).mono fun _ writing =>
            writing.storing (.inr rfl)) fun recorded => ?_
          split
          · exact ⟨.inr rfl, fun _ => trivial⟩
          · exact Prog.calls_bind ((evicting_evictLocked _ _).mono fun _ => Call.Evicting.storing)
              fun _ => trivial

/-! ## Reading -/

/-- The calls of a look at the index. -/
def Call.Asking : Call → Prop
  | .lock _ | .unlock .. | .now => True
  | _ => False

theorem asking_checkLive (key : Key) : (checkLive key).Calls Call.Asking := by
  refine ⟨trivial, fun index => ?_⟩
  simp only [Prog.ret_bind]
  split
  · exact ⟨trivial, fun _ => trivial⟩
  · refine ⟨trivial, fun now => ?_⟩
    simp only [Prog.ret_bind]
    split <;> exact ⟨trivial, fun _ => trivial⟩

theorem asking_entry (tenant : TenantId) (kind : Kind) (id : String) :
    (Store.entry tenant kind id).Calls Call.Asking := by
  unfold Store.entry
  split
  · trivial
  · exact asking_checkLive _

/-- The calls of a read of the file `p`. -/
def Call.Fetching (p : Path) : Call → Prop
  | .lock _ | .unlock .. | .now => True
  | .read q => q = p
  | _ => False

theorem Call.Asking.fetching {p : Path} {c : Call} (asking : c.Asking) : c.Fetching p := by
  cases c <;> first | exact asking | exact asking.elim

theorem fetching_get (tenant : TenantId) (kind : Kind) (id name : String) :
    (Store.get tenant kind id name).Calls
      (Call.Fetching (entryDir ⟨tenant, kind, id⟩ ++ [safeName name])) := by
  unfold Store.get
  split
  · trivial
  · rename_i id' valid
    obtain rfl := validateId_ok valid
    refine Prog.calls_bind ((asking_checkLive _).mono fun _ => Call.Asking.fetching) fun live => ?_
    split
    · trivial
    · refine ⟨rfl, fun bytes => ?_⟩
      simp only [Prog.ret_bind]
      split <;> trivial

end TypstMcp.Store
