/-
Store.Volume -- no bytes the accounting cannot see

After an opening the files on disk, the metadata apart, should be those of the entries
the index lists, and their sizes its total: then a ceiling on the total is a ceiling on
the volume.  The walk of an opening sees to that below the tenants' directories, and
nowhere else: a temporary file a crash left stays for good.

* `Contained`: every file belongs to a listed entry and is counted.
* `contained_life`: so it is after any number of crashes and openings, none of the
  crashes while a temporary file was there.
-/
import TypstMcp.Store.Accounts
import TypstMcp.Store.Lives

namespace TypstMcp.Store

open TypstMcp.Theory TypstMcp.Theory.Table
open TypstMcp.Theory.FileTree (Closed fileBytes bytesIn bytesIn_congr sizeIn childName childName_iff)
open TypstMcp.Auth (TenantId)

set_option autoImplicit false
set_option linter.unusedSectionVars false

variable {T : Type} [DecidableEq T]

/-! ## What is on the volume -/

/-- What a node takes up, the metadata left out. -/
def payloadSize (p : Path) (node : Node) : Nat :=
  if p.getLast? = some metaName then 0 else node.size

/-- The bytes of the files but the metadata. -/
def payload (disk : FileTree) : Nat := weight payloadSize disk

/-- Every file but the metadata lies in the directory of a listed entry. -/
def Owned (disk : FileTree) (index : Index) : Prop :=
  ∀ p bytes, disk.lookup p = some (.file bytes) → p.getLast? ≠ some metaName →
    ∃ key entry name, p = entryDir key ++ [name] ∧ index.entries.lookup key = some entry

/-- What is on the volume is what the index counts. -/
structure Contained (limits : Limits) (w : World T) : Prop where
  owned : Owned w.disk w.index
  sizes : ∀ key entry, w.index.entries.lookup key = some entry →
    entry.bytes = bytesIn metaName w.disk (entryDir key)
  counted : w.index.total = payload w.disk
  bounded : payload w.disk ≤ limits.maxStoreBytes

section Sizes

variable {disk : FileTree} {index : Index}

/-- In the directory of an entry, a node counts for itself. -/
theorem sizeIn_entry (key : Key) (name : String) (node : Node) :
    sizeIn metaName (entryDir key) (entryDir key ++ [name]) node =
      payloadSize (entryDir key ++ [name]) node := by
  have named : childName (entryDir key) (entryDir key ++ [name]) = some name := childName_iff.2 rfl
  simp [sizeIn, payloadSize, named]

/-- No node counts for more than that. -/
theorem sizeIn_le_payload (key : Key) (p : Path) (node : Node) :
    sizeIn metaName (entryDir key) p node ≤ payloadSize p node := by
  cases named : childName (entryDir key) p with
  | none => simp [sizeIn, named]
  | some name =>
      obtain rfl := childName_iff.1 named
      rw [sizeIn_entry]

/-- **Where every file is owned, each counts once.** -/
theorem sum_sizeIn_eq (owned : Owned disk index) {p : Path} {node : Node}
    (found : disk.lookup p = some node) :
    (index.entries.entries.map fun e => sizeIn metaName (entryDir e.1) p node).sum =
      payloadSize p node := by
  by_cases zero : payloadSize p node = 0
  · rw [zero]
    apply List.sum_eq_zero
    intro size inside
    obtain ⟨e, -, rfl⟩ := List.mem_map.1 inside
    have := sizeIn_le_payload e.1 p node
    omega
  · have whole : payloadSize p node = node.size := by
      unfold payloadSize at zero ⊢
      split
      · rw [if_pos ‹_›] at zero
        exact absurd rfl zero
      · rfl
    have payloadFile : p.getLast? ≠ some metaName := by
      intro named
      exact zero (if_pos named)
    cases node with
    | dir =>
        rw [whole] at zero
        exact absurd rfl zero
    | file bytes =>
        obtain ⟨key, entry, name, rfl, listed⟩ := owned p bytes found payloadFile
        have inside : (⟨key, entry⟩ : Sigma fun _ : Key => Entry) ∈ index.entries.entries :=
          mem_entries_iff.2 listed
        have most := sum_sizeIn_le _ index.entries.nodupKeys (entryDir key ++ [name]) (.file bytes)
        have least : payloadSize (entryDir key ++ [name]) (.file bytes) ≤
            (index.entries.entries.map fun e =>
              sizeIn metaName (entryDir e.1) (entryDir key ++ [name]) (.file bytes)).sum := by
          rw [← sizeIn_entry key]
          exact List.single_le_sum (fun _ _ => Nat.zero_le _) _ (List.mem_map_of_mem inside)
        omega

theorem stored_eq_payload (owned : Owned disk index)
    (sizes : ∀ key entry, index.entries.lookup key = some entry →
      entry.bytes = bytesIn metaName disk (entryDir key)) : index.stored = payload disk := by
  calc index.stored
      = weight (fun key _ => bytesIn metaName disk (entryDir key)) index.entries :=
        weight_eq_weight sizes
    _ = weight (fun p node =>
          (index.entries.entries.map fun e => sizeIn metaName (entryDir e.1) p node).sum) disk :=
        sum_weight index.entries.entries (fun e => sizeIn metaName (entryDir e.1)) disk
    _ = payload disk := weight_eq_weight fun p node found => sum_sizeIn_eq owned found

end Sizes

/-! ## Openings -/

/-- No temporary file is there. -/
def NoParts (disk : FileTree) : Prop := ∀ name, disk.lookup (tmpDir ++ [name]) = none

/-- The process dies while no temporary file is there; a volume holds less than `2 ^ 64` bytes. -/
def Between (w : World T) : Prop := NoParts w.disk ∧ fileBytes w.disk < u64Size

section Openings

variable {limits : Limits} {codec : MetaCodec} {boot : T} {w w' v : World T}

theorem Fallen.between (fallen : Fallen limits codec boot Between w v) :
    NoParts v.disk ∧ fileBytes v.disk < u64Size := by
  cases fallen with
  | crashed may => exact may
  | again _ _ may => exact may

/-- The directories an opening makes hold nothing to count. -/
theorem Prepared.countable {disk start : FileTree} (prepared : Prepared disk start)
    (fits : fileBytes disk < u64Size) : Countable codec start := by
  intro index each
  have stored : index.stored ≤ fileBytes disk := by
    refine stored_le_fileBytes fun key entry found => ?_
    rw [(each key entry found).bytes]
    exact bytesIn_congr fun name _ => prepared.below (List.prefix_append _ _)
  omega

/-- What an opening leaves lies in the directories of the entries it lists. -/
theorem owned_opened {start : FileTree} {index index' : Index} (laid : Laid w'.disk)
    (closed : Closed v.disk) (parts : NoParts v.disk) (prepared : Prepared v.disk start)
    (rebuilt : Rebuilt limits codec anyChoice start index index' w'.disk) : Owned w'.disk index' := by
  intro p bytes found payloadFile
  have placed := laid.shape p _ found
  match p, placed with
  | [], same => cases same
  | [_], same => cases same.1
  | [a, name], same =>
      obtain ⟨rfl, -⟩ | ⟨dir, -⟩ := same
      · have apart : ∀ key, ¬ entryDir key <+: tmpDir ++ [name] :=
          fun key => tmp_not_entry (List.prefix_append _ _)
        have there : start.lookup (tmpDir ++ [name]) = some (.file bytes) :=
          (rebuilt.aside apart).symm.trans found
        rw [prepared, if_neg (by simp [tmpDir]), parts] at there
        cases there
      · cases dir
  | [_, _, _], same => cases same.1
  | [a, b, c, name], same =>
      obtain ⟨-, key, inside⟩ := same
      have path : [a, b, c, name] = entryDir key ++ [name] := by rw [← inside]; rfl
      cases listed : index'.entries.lookup key with
      | some entry => exact ⟨key, entry, name, path, listed⟩
      | none =>
          have bare := rebuilt.bare (prepared.reached closed key) listed
          rw [bare _ (path ▸ List.prefix_append _ _)] at found
          cases found

/-- **An opening leaves nothing the index does not count**, of a tree without temporary files. -/
theorem contained_opened (laid : Laid v.disk) (parts : NoParts v.disk)
    (fits : fileBytes v.disk < u64Size) (opened : Opens limits codec boot v w') :
    Contained limits w' := by
  have laid' := laid_opened laid opened
  obtain ⟨start, index, index', prepared, rebuilt, rfl, -⟩ := openStore_exec opened rfl
  have prepared : Prepared v.disk start := prepared
  have owned := owned_opened laid' laid.closed parts prepared rebuilt
  obtain ⟨middle, scanned, -⟩ := rebuilt.scanned
  have sound := rebuilt.evicts.sound (scanned.accounting (prepared.countable fits))
  have sizes : ∀ key entry, w'.index.entries.lookup key = some entry →
      entry.bytes = bytesIn metaName w'.disk (entryDir key) := by
    intro key entry found
    rw [(rebuilt.adopts found).2.bytes]
    exact bytesIn_congr fun name _ => (rebuilt.kept found (List.prefix_append _ _)).symm
  have counted : w'.index.total = payload w'.disk :=
    sound.accounting.total.trans (stored_eq_payload owned sizes)
  exact ⟨owned, sizes, counted, counted ▸ sound.ceilings.bytes⟩

theorem contained_fresh : Contained limits (World.fresh : World T) where
  owned := by
    intro p bytes found
    simp only [World.fresh, FileTree.lookup_insert_eq] at found
    split_ifs at found <;> cases found
  sizes _ _ found := by cases found
  counted := by
    show 0 = payload (((∅ : FileTree).insert [] .dir).insert tmpDir .dir)
    decide +kernel
  bounded := Nat.zero_le _

end Openings

/-- **After every opening what is on the volume is what the index counts**, if no crash came while
a temporary file was there. -/
theorem contained_life {limits : Limits} {codec : MetaCodec} {boot : T} {w : World T}
    (life : Life limits codec boot Between (answers anyChoice) (starts limits codec) w) :
    Contained limits w := by
  have steps : ∀ t c (s : World T) reply s', answers anyChoice t c s reply s' →
      answers anyChoice t c s reply s' := fun _ _ _ _ _ answered => answered
  have ops : ∀ t p (s : World T), starts limits codec t p s → ∃ op : Op, p = op.program limits codec :=
    fun _ _ _ op => op
  cases life with
  | fresh => exact contained_fresh
  | reopened past run fallen opened =>
      have laid := laid_fallen (laid_run steps ops (laid_life steps ops past) run) fallen
      obtain ⟨parts, fits⟩ := fallen.between
      exact contained_opened laid parts fits opened

/-! ## A crash before and after the rename -/

/-- Thread 0 opens the store once its threads are gone. -/
def reopen (c : StoreConf (Fin 3)) : Option (Except StoreError Unit × World (Fin 3)) :=
  (openStore smallLimits serde).play (handle 0 (reading 1)) (fun c w => unlocked w c) c.state.crash

theorem opens_reopen {c : StoreConf (Fin 3)} {w' : World (Fin 3)}
    (opened : reopen c = some (.ok (), w')) : Opens smallLimits serde 0 c.state.crash w' := by
  have answered : ∀ (c : Call) (w : World (Fin 3)), unlocked w c = true →
      answers anyChoice 0 c w (handle 0 (reading 1) c w).1 (handle 0 (reading 1) c w).2 :=
    fun c w free => answers_of_unlocked trivial free
  exact Prog.exec_of_play answered opened

theorem life_played {mayCrash : World (Fin 3) → Prop} {moves : List StoreMove}
    {c : StoreConf (Fin 3)} {w' : World (Fin 3)} (launches : Launches moves)
    (ended : played anyOrder moves = some c) (may : mayCrash c.state)
    (opened : reopen c = some (.ok (), w')) :
    Life smallLimits serde 0 mayCrash (answers anyChoice) (starts smallLimits serde) w' :=
  .reopened .fresh (reaches_played launches ended) (.crashed may) (opens_reopen opened)

/-- The first `count` calls of a put. -/
def cutPut (count : Nat) : List StoreMove := launch 0 (putOp "a.pdf" [1]) ++ calls 0 count 0

theorem launches_cutPut (count : Nat) : Launches (cutPut count) :=
  (launches_launch _ _).append (launches_calls _ _ _)

theorem noParts_of_children {disk : FileTree} (none_ : FileTree.children disk tmpDir = []) :
    NoParts disk := by
  intro name
  have absent : name ∉ FileTree.children disk tmpDir := by
    rw [none_]
    exact List.not_mem_nil
  rwa [FileTree.mem_children, Option.not_isSome_iff_eq_none] at absent

/-- After the put the crash loses nothing and leaves nothing. -/
theorem contained_life_put : ∃ w : World (Fin 3), (w.index.entries.lookup someKey).isSome ∧
    Contained smallLimits w := by
  obtain ⟨c, ended, checked⟩ : ∃ c, played anyOrder (cutPut 13) = some c ∧
      (decide (FileTree.children c.state.disk tmpDir = []) &&
        decide (fileBytes c.state.disk < u64Size) &&
        (reopen c).any fun x => x.1.isOk && (x.2.index.entries.lookup someKey).isSome) = true :=
    (Option.any_eq_true _ _).1 (by decide +kernel)
  simp only [Bool.and_eq_true, decide_eq_true_eq] at checked
  obtain ⟨⟨none_, fits⟩, checked⟩ := checked
  obtain ⟨⟨result, w'⟩, opened, checked⟩ := (Option.any_eq_true _ _).1 checked
  obtain ⟨ok, listed⟩ := Bool.and_eq_true_iff.1 checked
  cases result with
  | error _ => cases ok
  | ok _ =>
      have life := life_played (launches_cutPut 13) ended
        (show Between c.state from ⟨noParts_of_children none_, fits⟩) opened
      exact ⟨w', listed, contained_life life⟩

/-- **A temporary file outlives the crash that left it**, and every opening after it. -/
theorem part_outlives_crash :
    ¬∀ w : World (Fin 3), Life smallLimits serde 0 (fun _ => True) (answers anyChoice)
      (starts smallLimits serde) w → Contained smallLimits w := by
  intro claimed
  obtain ⟨c, ended, checked⟩ : ∃ c, played anyOrder (cutPut 6) = some c ∧
      ((reopen c).any fun x => x.1.isOk &&
        decide (x.2.disk.lookup (partPath (reading 0).ulid) = some (.file [1]))) = true :=
    (Option.any_eq_true _ _).1 (by decide +kernel)
  obtain ⟨⟨result, w'⟩, opened, checked⟩ := (Option.any_eq_true _ _).1 checked
  obtain ⟨ok, there⟩ := Bool.and_eq_true_iff.1 checked
  cases result with
  | error _ => cases ok
  | ok _ =>
      have contained := claimed w' (life_played (launches_cutPut 6) ended trivial opened)
      obtain ⟨key, -, name, path, -⟩ :=
        contained.owned _ _ (of_decide_eq_true there) (by decide)
      exact absurd (congrArg List.length path) (by simp [partPath, tmpDir])

end TypstMcp.Store
