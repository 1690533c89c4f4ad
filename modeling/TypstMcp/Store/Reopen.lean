/-
Store.Reopen -- a store that is not open yet, and what opening it gives

`Down` is the part of the invariant that needs no index: it survives a crash, and
every call of an opening keeps it, wherever the opening is cut short.  An opening
that comes to its end makes it the whole invariant again, when every entry whose
metadata is there has its acknowledged files.

* `down_crash`, `down_begun`: crashes, and openings under way.
* `openStore_inv`: the store an opening hands out.
-/
import TypstMcp.Store.Publishing
import TypstMcp.Store.Rebuild

namespace TypstMcp.Store

open TypstMcp.Theory TypstMcp.Theory.Table
open TypstMcp.Theory.FileTree (Closed isDir_iff mem_children lookup_unlink_le lookup_unlink_ne
  lookup_createDirAll)
open TypstMcp.Auth (TenantId)

set_option autoImplicit false
set_option linter.unusedSectionVars false

variable {T : Type} [DecidableEq T]
variable {allowed : Choice → Prop} {t : T} {w w' : World T} {codec : MetaCodec} {plain : Prop}
variable {limits : Limits}

/-- What holds of a store that is not open: no put is at work, and nothing is said of
an index. -/
structure Down (codec : MetaCodec) (plain : Prop) (w : World T) : Prop where
  inv : Inv codec plain { w with up := false }
  idle : ¬ w.Storing

theorem Down.info (down : Down codec plain w) (key : Key) : InfoAt codec w.disk key :=
  down.inv.info (Or.inr down.idle) key

theorem down_crash (inv : Inv codec plain w) (safe : plain ∨ ¬ w.Storing) :
    Down codec plain w.crash where
  inv :=
    { closed := inv.closed
      shape := inv.shape
      info := fun _ => inv.info safe
      serves := inv.serves
      tornInfo := inv.tornInfo
      tmpFiles := fun _ name present =>
        List.mem_map.2 ⟨name, mem_children.2 present, rfl⟩
      tmpDir := fun up => absurd up (by simp)
      acked := fun up => absurd up (by simp)
      good := fun up => absurd up (by simp) }
  idle := by
    rintro ⟨s, key, size, owned⟩
    simp [World.crash] at owned

/-! ## Each call of an opening -/

theorem down_disk {disk : FileTree} (down : Down codec plain w)
    (inv : Inv codec plain { w with disk := disk, up := false }) :
    Down codec plain { w with disk := disk } := ⟨inv, down.idle⟩

theorem placed_opening {p q : Path} (which : p = [] ∨ p = tmpDir) (inside : q <+: p) :
    Placed q .dir := by
  have short : q = [] ∨ q = tmpDir := by
    rcases which with rfl | rfl
    · exact Or.inl (List.prefix_nil.1 inside)
    · unfold tmpDir at inside ⊢
      rw [List.prefix_cons_iff] at inside
      simpa using inside
  rcases short with rfl | rfl
  · exact rfl
  · exact ⟨rfl, Or.inl rfl⟩

theorem down_createDirAll (t : T) {p : Path} (down : Down codec plain w) (which : p = [] ∨ p = tmpDir)
    (outcome : Except ErrorKind FileTree) (tried : outcome = w.disk.createDirAll p) :
    Down codec plain (w.attempt outcome).2 := by
  cases outcome with
  | error kind => exact down
  | ok disk =>
      have working : Working t t { w with up := false } := Or.inr ⟨rfl, rfl⟩
      exact down_disk down (inv_createDirAll working down.inv tried.symm fun _ inside =>
        placed_opening which inside)

/-- Taking a path out of the tree, whichever it is. -/
theorem down_unlink (down : Down codec plain w) (p : Path) : Down codec plain (w.unlinked p) :=
  ⟨inv_unlinked down.inv (fun up => absurd up (by simp)) fun up => absurd up (by simp), down.idle⟩

/-- Publishing an index acknowledges nothing by itself. -/
theorem mem_acked_publish {index : Index} {key : Key} {file : String × Bytes}
    (inside : file ∈ (w.publish t index .nothing).acked key) : file ∈ w.acked key := by
  have after : file ∈ w.ackedAfter index .nothing key := inside
  unfold World.ackedAfter at after
  split at after
  · exact after
  · simp at after

/-- **Every call of an opening leaves a store that is not open.** -/
theorem down_booting {c : Call} (booting : c.Booting) (choice : Choice)
    (down : Down codec plain w) : Down codec plain (handle t choice c w).2 := by
  cases c with
  | createDirAll p => exact down_createDirAll t down booting _ rfl
  | unlink p => exact down_unlink down p
  | lock purpose =>
      obtain rfl : purpose = .other := booting
      refine ⟨{ down.inv with info := fun _ => down.info, tmpFiles := ?_, good := ?_ }, ?_⟩
      · exact fun _ => down.inv.tmpFiles down.idle
      · exact fun up => absurd up (by simp)
      · rintro ⟨s, key, size, owned⟩
        simp [handle] at owned
  | unlock index note =>
      obtain rfl : note = .nothing := booting
      have inv : Inv codec plain (World.publish { w with up := false } t index .nothing) := by
        refine inv_publish down.inv down.info (down.inv.tmpFiles down.idle) ?_
          fun up => absurd up (by simp)
        intro key
        cases down.inv.serves key with
        | inl torn => exact Or.inl torn
        | inr serves =>
            right
            intro present name bytes inside safe
            exact serves present name bytes (mem_acked_publish inside) safe
      refine ⟨inv, ?_⟩
      rintro ⟨s, key, size, owned⟩
      simp [handle, World.publish] at owned
  | walk p =>
      have same : ∀ {v : World T}, v.disk = w.disk → v.owner = w.owner → v.torn = w.torn →
          v.acked = w.acked → v.stray = w.stray → Down codec plain v := by
        intro v disk owner torn acked stray
        have idle : ¬ v.Storing := by
          unfold World.Storing
          rw [owner]
          exact down.idle
        refine ⟨⟨disk ▸ down.inv.closed, disk ▸ down.inv.shape, ?_, ?_, ?_, ?_,
          fun up => absurd up (by simp), fun up => absurd up (by simp),
          fun up => absurd up (by simp)⟩, idle⟩
        · intro _ key
          show InfoAt codec v.disk key
          rw [disk]
          exact down.info key
        · intro key
          show entryDir key ∈ v.torn ∨ World.Serves { v with up := false } key
          unfold World.Serves
          rw [disk, torn, acked]
          exact down.inv.serves key
        · intro key inside
          show (v.disk.lookup _).isSome
          rw [disk]
          exact down.inv.tornInfo key (torn ▸ inside)
        · intro _ name present
          show _ ∈ v.stray
          rw [stray]
          exact down.inv.tmpFiles down.idle name (disk ▸ present)
      show Down codec plain (w.startRemoval t p)
      unfold World.startRemoval
      split
      · exact same rfl rfl rfl rfl rfl
      · exact down
  | iterate _ | read _ | readDir _ | metadata _ | countQuota | opened =>
      exact ⟨{ down.inv with }, down.idle⟩
  | now | newUlid | pathExists _ | createFile _ | writeAll _ _ | rename _ _ | removeFile _
  | countExpired _ => exact booting.elim

theorem down_answered {c : Call} {reply : Reply c} (booting : c.Booting) (down : Down codec plain w)
    (answered : answers allowed t c w reply w') : Down codec plain w' := by
  obtain ⟨_, choice, _, handled⟩ := answered
  obtain rfl : (handle t choice c w).2 = w' := congrArg Prod.snd handled
  exact down_booting booting choice down

theorem down_exec {α : Type} {p : StoreProg α} {value : α} (booting : p.Calls Call.Booting)
    (down : Down codec plain w) (ran : Alone allowed t p w value w') : Down codec plain w' :=
  Prog.Exec.keeps (Down codec plain) (fun _ _ _ _ => down_answered) booting down ran

/-- An opening cut short anywhere. -/
theorem down_begun {α : Type} {p : StoreProg α} (booting : p.Calls Call.Booting)
    (down : Down codec plain w) (begun : p.Begun (answers allowed t) w w') :
    Down codec plain w' :=
  Prog.Begun.keeps (Down codec plain) (fun _ _ _ _ => down_answered) booting down begun

/-! ## The store an opening hands out -/

section Opened

variable {start : FileTree} {index index' : Index}

/-- The tree an opening walks: the one it found, with the two directories it makes. -/
def Prepared (disk start : FileTree) : Prop :=
  ∀ p, start.lookup p = if p = [] ∨ p = tmpDir then some .dir else disk.lookup p

theorem Prepared.below {disk : FileTree} (prepared : Prepared disk start) {key : Key} {p : Path}
    (under : entryDir key <+: p) : start.lookup p = disk.lookup p := by
  rw [prepared p, if_neg]
  rintro (rfl | rfl)
  · have := under.length_le
    simp at this
  · exact tmp_not_entry List.prefix_rfl under

/-- In a tree where every file lies in its directory, the walk reaches every entry
directory. -/
theorem Prepared.reached {disk : FileTree} (prepared : Prepared disk start) (closed : Closed disk)
    (key : Key) : Reached start key ∨ Bare start key := by
  cases found : disk.lookup (entryDir key) with
  | none =>
      right
      intro p under
      rw [prepared.below under]
      by_contra present
      have there := Option.isSome_iff_ne_none.2 present
      by_cases same : entryDir key = p
      · rw [← same, found] at present
        exact present rfl
      · have := isDir_iff.1 (closed.isDir_of_prefix under there same)
        rw [found] at this
        simp at this
  | some node =>
      left
      have there : (disk.lookup (entryDir key)).isSome := by rw [found]; rfl
      have parent : ∀ q, q <+: entryDir key → q ≠ entryDir key → disk.isDir q :=
        fun q inside ne => closed.isDir_of_prefix inside there ne
      have made : ∀ q, disk.isDir q → start.isDir q := by
        intro q dir
        rw [isDir_iff, prepared q]
        split
        · rfl
        · exact isDir_iff.1 dir
      refine ⟨?_, ?_, ?_⟩
      · rw [mem_children]
        have := made ["t_" ++ key.tenant.str]
          (parent _ ⟨[key.kind.dir, key.id], rfl⟩ (by simp [entryDir]))
        rw [List.nil_append, isDir_iff.1 this]
        rfl
      · exact made _ (parent _ ⟨[key.id], rfl⟩ (by simp [entryDir]))
      · rw [prepared.below List.prefix_rfl]
        exact there

/-- The disk and the index a rebuild leaves agree on every key. -/
theorem Rebuilt.good {disk disk' : FileTree} {files : Key → List (String × Bytes)}
    (rebuilt : Rebuilt limits codec allowed start index index' disk') (prepared : Prepared disk start)
    (closed : Closed disk)
    (serves : ∀ key, (disk.lookup (entryDir key ++ [metaName])).isSome →
      ∀ name bytes, (name, bytes) ∈ files key → name ≠ metaName →
        disk.lookup (entryDir key ++ [name]) = some (.file bytes)) (key : Key) :
    Good codec index' files disk' key := by
  constructor
  · intro entry found
    have same : ∀ name, disk'.lookup (entryDir key ++ [name]) =
        disk.lookup (entryDir key ++ [name]) := by
      intro name
      rw [rebuilt.kept found (List.prefix_append _ _), prepared.below (List.prefix_append _ _)]
    have adopts := (rebuilt.adopts found).2
    obtain ⟨raw, stored, there, decoded, whole⟩ := adopts.recorded
    rw [prepared.below (List.prefix_append _ _)] at there
    refine ⟨⟨raw, (same _).trans there, stored, decoded, ?_⟩, ?_, adopts.id, adopts.kind⟩
    · rw [adopts.bytes]
      exact whole
    · intro name bytes inside safe
      rw [same]
      exact serves key (by rw [there]; rfl) name bytes inside safe
  · intro absent
    exact rebuilt.bare (prepared.reached closed key) absent

end Opened

/-- **The store an opening hands out keeps the whole invariant**, when every entry
whose metadata is there had its acknowledged files. -/
theorem openStore_inv (down : Down codec plain w) (serves : ∀ key, w.Serves key)
    (ran : Alone allowed t (openStore limits codec) w (.ok ()) w') :
    Inv codec plain w' ∧ ∀ key, Good codec w'.index w'.acked w'.disk key := by
  have after := down_exec (booting_openStore limits codec) down ran
  obtain ⟨start, index, index', prepared, rebuilt, published, free, acked, stray, isUp, _, _⟩ :=
    openStore_exec ran rfl
  have good : ∀ key, Good codec w'.index w'.acked w'.disk key := by
    intro key
    rw [published, acked]
    refine (rebuilt.good prepared down.inv.closed serves key).acked ?_
    intro entry found
    rw [ackedAfter_listed found]
  refine ⟨{ after.inv with acked := ?_, tmpDir := ?_, good := ?_ }, good⟩
  · intro _
    rw [isDir_iff, rebuilt.aside fun key => tmp_not_entry List.prefix_rfl, prepared,
      if_pos (Or.inr rfl)]
  · intro _ key absent
    rw [acked]
    exact ackedAfter_unlisted (published ▸ absent)
  · exact fun _ _ key _ => good key

end TypstMcp.Store
