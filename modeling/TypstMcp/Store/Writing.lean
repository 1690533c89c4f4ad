/-
Store.Writing -- what a put does while it holds the lock

`PutStart` is what a put finds as it takes the lock, and `Mid` what it knows from
then on: what its own entry directory holds, path by path, and that every other
entry nobody is removing is as it was.

* `writeAtomic_working`: a write lands whole under its name, and leaves no
  temporary file.
* `putLocked_working`: the exact outcome of a put (`PutEnd`).  It is refused with
  nothing changed, or it adds its file, writes the entry's metadata and evicts.
-/
import TypstMcp.Store.Working

namespace TypstMcp.Store

open TypstMcp.Theory TypstMcp.Theory.Table TypstMcp.Theory.FileTree
open TypstMcp.Auth (TenantId)

set_option autoImplicit false
set_option linter.unusedSectionVars false

variable {T : Type} [DecidableEq T]
variable {codec : MetaCodec} {plain : Prop} {boot : T} {allowed : Choice → Prop} {t : T}
variable {key : Key} {size : Nat} {w0 w : World T}

/-- What a put finds as it takes the lock. -/
structure PutStart (codec : MetaCodec) (plain : Prop) (t : T) (key : Key) (size : Nat)
    (w0 : World T) : Prop where
  inv : Inv codec plain w0
  up : w0.up = true
  owned : w0.owner = some (t, .storing key size)
  free : w0.Undoomed key
  valid : validateId key.kind key.id = .ok key.id
  info : ∀ key, InfoAt codec w0.disk key
  parts : ∀ name, (w0.disk.lookup (tmpDir ++ [name])).isSome → tmpDir ++ [name] ∈ w0.stray
  good : ∀ key, w0.Undoomed key → Good codec w0.index w0.acked w0.disk key

/-- The disk in the middle of a put that began at `w0`: its own entry directory holds
`content`, and `part` is the temporary file it is writing. -/
structure Mid (t : T) (key : Key) (w0 : World T) (part : Option String)
    (content : Path → Option Node) (w : World T) : Prop where
  fixed : Fixed t w0 w
  here : ∀ p, entryDir key <+: p → w.disk.lookup p = content p
  others : ∀ other, other ≠ key → w.Undoomed other →
    ∀ p, entryDir other <+: p → w.disk.lookup p = w0.disk.lookup p
  le : ∀ other, other ≠ key → ∀ p node, entryDir other <+: p →
    w.disk.lookup p = some node → w0.disk.lookup p = some node
  parts : ∀ name, some name ≠ part → (w.disk.lookup (tmpDir ++ [name])).isSome →
    tmpDir ++ [name] ∈ w0.stray

variable {part part' : Option String} {content content' : Path → Option Node}

theorem mid_start (begun : PutStart codec plain t key size w0) :
    Mid t key w0 none (fun p => w0.disk.lookup p) w0 :=
  ⟨fixed_refl t w0, fun _ _ => rfl, fun _ _ _ _ _ => rfl, fun _ _ _ _ _ found => found,
    fun name _ => begun.parts name⟩

theorem Mid.undoomed (begun : PutStart codec plain t key size w0)
    (mid : Mid t key w0 part content w) : w.Undoomed key :=
  mid.fixed.spares key size begun.owned begun.free

theorem lasting_mid (begun : PutStart codec plain t key size w0) :
    Lasting codec plain boot t (Mid t key w0 part content) := by
  intro w w' inv working kept mid
  have fixed := mid.fixed.trans kept.toFixed
  have free : w'.Undoomed key := fixed.spares key size begun.owned begun.free
  refine ⟨fixed, fun p under => ?_, fun other ne undoomed p under => ?_,
    fun other ne p node under found => mid.le other ne p node under (kept.le found),
    fun name ne present => mid.parts name ne ?_⟩
  · rw [kept.undoomed free under]
    exact mid.here p under
  · rw [kept.undoomed undoomed under]
    exact mid.others other ne (kept.toFixed.undoomed undoomed) p under
  · rwa [kept.tmp (List.prefix_append _ _)] at present

/-- The put changes its own entry, or its temporary file. -/
theorem Mid.step (mid : Mid t key w0 part content w) {disk : FileTree}
    (here : ∀ p, entryDir key <+: p → disk.lookup p = content' p)
    (others : ∀ other, other ≠ key → ∀ p, entryDir other <+: p →
      disk.lookup p = w.disk.lookup p)
    (parts : ∀ name, some name ≠ part' → (disk.lookup (tmpDir ++ [name])).isSome →
      tmpDir ++ [name] ∈ w0.stray) :
    Mid t key w0 part' content' { w with disk := disk } where
  fixed := mid.fixed.trans (fixed_of_disk rfl rfl rfl rfl rfl rfl)
  here := here
  others other ne free p under := (others other ne p under).trans (mid.others other ne free p under)
  le other ne p node under found :=
    mid.le other ne p node under ((others other ne p under).symm.trans found)
  parts := parts

theorem guar_mid (begun : PutStart codec plain t key size w0) (working : Working boot t w)
    (mid : Mid t key w0 part content w) {disk : FileTree}
    (others : ∀ other, other ≠ key → ∀ p, entryDir other <+: p →
      disk.lookup p = w.disk.lookup p)
    (inv : Inv codec plain w → Inv codec plain { w with disk := disk }) :
    Guar codec plain boot t w { w with disk := disk } := by
  refine guar_working working inv rfl rfl rfl fun other doomed p under present => ?_
  have ne : other ≠ key := by
    rintro rfl
    exact doomed (mid.undoomed begun)
  rw [← others other ne p under]
  exact present

theorem Mid.storing (begun : PutStart codec plain t key size w0)
    (mid : Mid t key w0 part content w) : w.Storing :=
  ⟨t, key, size, mid.fixed.owner.trans begun.owned⟩

theorem Mid.isUp (begun : PutStart codec plain t key size w0)
    (mid : Mid t key w0 part content w) : w.up = true :=
  mid.fixed.up.trans begun.up

/-! ## Writing one file -/

/-- The temporary file holds `bytes` so far. -/
def Parted (t : T) (key : Key) (w0 : World T) (part : String) (bytes : Bytes)
    (content : Path → Option Node) (w : World T) : Prop :=
  Mid t key w0 (some part) content w ∧
    w.disk.lookup (tmpDir ++ [part]) = some (.file bytes)

theorem lasting_parted (begun : PutStart codec plain t key size w0) {part : String} {bytes : Bytes} :
    Lasting codec plain boot t (Parted t key w0 part bytes content) := by
  rintro w w' inv working kept ⟨mid, found⟩
  exact ⟨lasting_mid begun w w' inv working kept mid,
    (kept.tmp (List.prefix_append _ _)).trans found⟩

/-- A change of the temporary file alone. -/
theorem Mid.repart (mid : Mid t key w0 part content w) {disk : FileTree} {name : String}
    (only : part = none ∨ part = some name)
    (elsewhere : ∀ p, p ≠ tmpDir ++ [name] → disk.lookup p = w.disk.lookup p) :
    Mid t key w0 (some name) content { w with disk := disk } := by
  refine mid.step (fun p under => ?_) (fun other _ p under => ?_) fun other ne present => ?_
  · rw [elsewhere p (entry_not_part under name)]
    exact mid.here p under
  · exact elsewhere p (entry_not_part under name)
  · have ne' : other ≠ name := fun same => ne (congrArg some same)
    refine mid.parts other ?_ ?_
    · rcases only with none_ | same
      · rw [none_]; simp
      · rw [same]; exact ne
    · rwa [elsewhere _ fun same => ne' (by simpa using same)] at present

theorem guar_part (begun : PutStart codec plain t key size w0) (working : Working boot t w)
    (mid : Mid t key w0 part content w) {disk : FileTree} {name : String}
    (closed : Closed w.disk → Closed disk)
    (elsewhere : ∀ p, p ≠ tmpDir ++ [name] → disk.lookup p = w.disk.lookup p)
    (file : ∀ node, disk.lookup (tmpDir ++ [name]) = some node → IsFile node) :
    Guar codec plain boot t w { w with disk := disk } := by
  refine guar_mid begun working mid
    (fun other _ p under => elsewhere p (entry_not_part under name)) fun inv => ?_
  refine inv_part (mid.storing begun) inv (closed inv.closed)
    (fun p apart => elsewhere p (apart name)) fun other node found => ?_
  by_cases same : other = name
  · subst same; exact file node found
  · rw [elsewhere _ fun eq => same (by simpa using eq)] at found
    rcases placed_tmp (List.prefix_append _ _) (inv.shape _ _ found) with eq | ⟨_, _, isFile⟩
    · simpa using congrArg List.length eq
    · exact isFile

/-- **A write lands whole under its name**, and its temporary file is gone. -/
theorem writeAtomic_working {name : String} {bytes : Bytes}
    (begun : PutStart codec plain t key size w0)
    (dir : content (entryDir key) = some .dir)
    (here : ∀ name bytes, (name, bytes) ∈ w0.acked key → name ≠ metaName →
      content (entryDir key ++ [name]) = some (.file bytes))
    (free : content (entryDir key ++ [name]) = none ∨ name = metaName)
    (decodes : plain → name = metaName →
      ∃ entry, codec.fromSlice bytes = some entry ∧ entry.id = key.id ∧ entry.kind = key.kind)
    (start : Held codec plain boot t (Mid t key w0 none content) w) :
    StoreSafe codec plain boot allowed t
      (fun result w => result = .ok () ∧ Held codec plain boot t
        (Mid t key w0 none
          (Function.update content (entryDir key ++ [name]) (some (.file bytes)))) w)
      (writeAtomic (entryDir key ++ [name]) bytes) w := by
  show StoreSafe codec plain boot allowed t _ (Prog.call .newUlid _) w
  refine working_still (lasting_mid begun) start (fun _ _ => rfl) fun w1 choice held1 _ => ?_
  generalize (handle t choice .newUlid w1).1 = ulid
  have partName : ∃ part, partPath ulid = tmpDir ++ [part] := ⟨_, rfl⟩
  obtain ⟨part, named⟩ := partName
  show StoreSafe codec plain boot allowed t _ (Prog.call (.createFile (partPath ulid)) _) w1
  rw [named]
  -- opening the temporary file
  refine world_call (lasting_mid begun).stable held1 fun w2 _ held2 _ _ _ => ?_
  obtain ⟨inv2, working2, mid2⟩ := held2
  obtain ⟨disk3, opened⟩ : ∃ disk, w2.disk.createFile (tmpDir ++ [part]) = .ok disk := by
    have noDir : ¬ w2.disk.isDir (tmpDir ++ [part]) := fun isDir =>
      part_not_dir (inv2.shape _ _ (isDir_iff.1 isDir))
    have parent : w2.disk.isDir (tmpDir ++ [part]).dropLast := by
      simpa using inv2.tmpDir (mid2.isUp begun)
    exact ⟨_, by simp only [FileTree.createFile, noDir, parent, if_true]; rfl⟩
  have lookup3 := lookup_createFile opened
  have elsewhere3 : ∀ p, p ≠ tmpDir ++ [part] → disk3.lookup p = w2.disk.lookup p :=
    fun p ne => by rw [lookup3, if_neg ne]
  have within3 : Guar codec plain boot t w2 { w2 with disk := disk3 } :=
    guar_part begun working2 mid2 (fun closed => closed.createFile opened) elsewhere3
      fun node found => by rw [lookup3, if_pos rfl] at found; exact ⟨[], (Option.some.inj found).symm⟩
  simp only [handle, World.attempt, opened]
  refine ⟨within3, ?_⟩
  have held3 : Held codec plain boot t (Parted t key w0 part [] content)
      { w2 with disk := disk3 } :=
    ⟨within3.inv inv2, working2, mid2.repart (Or.inl rfl) elsewhere3, by
      show disk3.lookup _ = _
      rw [lookup3, if_pos rfl]⟩
  -- filling it
  show StoreSafe codec plain boot allowed t _ (Prog.call (.writeAll (tmpDir ++ [part]) bytes) _) _
  refine world_call (lasting_parted begun).stable held3 fun w4 _ held4 _ _ _ => ?_
  obtain ⟨inv4, working4, mid4, found4⟩ := held4
  have lookup5 := lookup_writeAll found4 bytes
  have elsewhere5 : ∀ p, p ≠ tmpDir ++ [part] →
      (w4.disk.writeAll (tmpDir ++ [part]) bytes).lookup p = w4.disk.lookup p :=
    fun p ne => by rw [lookup5, if_neg ne]
  have within5 : Guar codec plain boot t w4
      { w4 with disk := w4.disk.writeAll (tmpDir ++ [part]) bytes } :=
    guar_part begun working4 mid4 (fun closed => closed.writeAll _ _) elsewhere5
      fun node found => by
        rw [lookup5, if_pos rfl] at found; exact ⟨bytes, (Option.some.inj found).symm⟩
  refine ⟨within5, ?_⟩
  have held5 : Held codec plain boot t (Parted t key w0 part bytes content)
      { w4 with disk := w4.disk.writeAll (tmpDir ++ [part]) bytes } :=
    ⟨within5.inv inv4, working4, mid4.repart (Or.inr rfl) elsewhere5, by
      show (w4.disk.writeAll _ _).lookup _ = _
      rw [lookup5, if_pos rfl]⟩
  -- moving it into the entry
  show StoreSafe codec plain boot allowed t _
    (Prog.call (.rename (tmpDir ++ [part]) (entryDir key ++ [name])) _) _
  refine world_call (lasting_parted begun).stable held5 fun w6 _ held6 _ _ _ => ?_
  obtain ⟨inv6, working6, mid6, found6⟩ := held6
  have target : ¬ w6.disk.isDir (entryDir key ++ [name]) := fun isDir =>
    file_not_dir (inv6.shape _ _ (isDir_iff.1 isDir))
  have parent : w6.disk.isDir (entryDir key ++ [name]).dropLast := by
    rw [List.dropLast_concat, isDir_iff, mid6.here _ List.prefix_rfl]
    exact dir
  obtain ⟨disk7, moved⟩ : ∃ disk,
      w6.disk.rename (tmpDir ++ [part]) (entryDir key ++ [name]) = .ok disk :=
    ⟨_, by simp only [FileTree.rename, found6, target, parent, if_true]; rfl⟩
  have lookup7 : ∀ p, disk7.lookup p = if p = entryDir key ++ [name] then some (.file bytes)
      else if p = tmpDir ++ [part] then none else w6.disk.lookup p := fun p => by
    obtain ⟨bytes', found, after⟩ := lookup_rename moved p
    rw [found6] at found
    obtain rfl : bytes = bytes' := by simpa using found
    exact after
  have others7 : ∀ other, other ≠ key → ∀ p, entryDir other <+: p →
      disk7.lookup p = w6.disk.lookup p := fun other ne p under => by
    rw [lookup7, if_neg, if_neg (entry_not_part under part)]
    rintro rfl
    exact ne (entryDir_under under (List.prefix_append _ _))
  have within7 : Guar codec plain boot t w6 { w6 with disk := disk7 } := by
    refine guar_mid begun working6 mid6 others7 fun inv => ?_
    refine inv_rename (mid6.storing begun) inv moved found6 (fun n b inside safe => ?_) ?_ decodes
    · rw [mid6.fixed.acked] at inside
      rw [mid6.here _ (List.prefix_append _ _)]
      exact here n b inside safe
    · rw [mid6.here _ (List.prefix_append _ _)]
      exact free
  simp only [handle, World.attempt, moved]
  refine ⟨within7, ?_⟩
  refine working_ret (lasting_mid begun) (w := { w6 with disk := disk7 })
    ⟨within7.inv inv6, working6, mid6.step (fun p under => ?_) others7 fun n _ present => ?_⟩
    fun _ later => ⟨rfl, later⟩
  · rw [lookup7]
    by_cases same : p = entryDir key ++ [name]
    · subst same; simp
    · rw [if_neg same, if_neg (entry_not_part under part), Function.update_of_ne same]
      exact mid6.here p under
  · rw [lookup7, if_neg (Ne.symm (entry_not_part (List.prefix_append _ _) n))] at present
    split at present
    · exact absurd present (by simp)
    · rename_i apart
      exact mid6.parts n (fun same => apart (by rw [Option.some.inj same])) present

/-! ## The whole of a put -/

theorem PutStart.working (begun : PutStart codec plain t key size w0) : Working boot t w0 :=
  Or.inl ⟨begun.up, key, size, begun.owned⟩

/-- The acknowledged files of the entry are there. -/
theorem PutStart.acked (begun : PutStart codec plain t key size w0) (name : String)
    (bytes : Bytes) (inside : (name, bytes) ∈ w0.acked key) (safe : name ≠ metaName) :
    w0.disk.lookup (entryDir key ++ [name]) = some (.file bytes) := by
  cases found : w0.index.entries.lookup key with
  | none =>
      rw [begun.inv.acked begun.up key found] at inside
      exact absurd inside (by simp)
  | some entry => exact ((begun.good key begun.free).listed entry found).files name bytes inside safe

/-- The entry directory made, the rest as the put found it. -/
def dirMade (key : Key) (w0 : World T) : Path → Option Node :=
  Function.update (fun p => w0.disk.lookup p) (entryDir key) (some .dir)

theorem dirMade_file (key key' : Key) (w0 : World T) (name : String) :
    dirMade key w0 (entryDir key' ++ [name]) = w0.disk.lookup (entryDir key' ++ [name]) :=
  Function.update_of_ne file_ne_dir _ _

theorem createDirAll_mid (begun : PutStart codec plain t key size w0)
    (held : Held codec plain boot t (Mid t key w0 none fun p => w0.disk.lookup p) w) :
    ∃ disk, w.disk.createDirAll (entryDir key) = .ok disk ∧
      Guar codec plain boot t w { w with disk := disk } ∧
      Held codec plain boot t (Mid t key w0 none (dirMade key w0)) { w with disk := disk } := by
  obtain ⟨inv, working, mid⟩ := held
  obtain ⟨disk, made⟩ := createDirAll_ok (t := w.disk) (p := entryDir key)
    fun q inside bytes found => not_placed_file inside bytes (inv.shape _ _ found)
  have lookup := lookup_createDirAll made
  have placed := fun q (inside : q <+: entryDir key) => placed_ancestor begun.valid inside
  have others : ∀ other, other ≠ key → ∀ p, entryDir other <+: p →
      disk.lookup p = w.disk.lookup p := fun other ne p under => by
    rw [lookup, if_neg]
    exact fun inside => ne (entryDir_under (under.trans inside) List.prefix_rfl)
  have within : Guar codec plain boot t w { w with disk := disk } :=
    guar_mid begun working mid others fun inv => inv_createDirAll working inv made placed
  refine ⟨disk, made, within, within.inv inv, working, mid.step (fun p under => ?_) others
    fun name ne present => mid.parts name ne ?_⟩
  · rw [lookup]
    by_cases same : p = entryDir key
    · subst same; simp [dirMade]
    · rw [if_neg, dirMade, Function.update_of_ne same]
      · exact mid.here p under
      · exact fun inside => same (inside.eq_of_length_le under.length_le)
  · rwa [lookup, if_neg fun inside => part_not_dir (placed _ inside)] at present

variable {limits : Limits} {name : String} {bytes : Bytes} {info : Meta}

/-- The entry directory after an accepted put. -/
def dirStored (codec : MetaCodec) (key : Key) (name : String) (bytes : Bytes) (entry : Entry)
    (w0 : World T) : Path → Option Node :=
  Function.update
    (Function.update (dirMade key w0) (entryDir key ++ [name]) (some (.file bytes)))
    (entryDir key ++ [metaName]) (some (.file (codec.toVec entry)))

/-- How a put that took the lock at `w0` can end. -/
inductive PutEnd (limits : Limits) (codec : MetaCodec) (allowed : Choice → Prop) (t : T)
    (key : Key) (name : String) (bytes : Bytes) (info : Meta) (w0 : World T) :
    Except StoreError Entry × Index × Note → World T → Prop
  /-- A quota refuses it. -/
  | refused {error : StoreError} {w : World T}
      (full : w0.index.refusal limits key bytes.length = some error)
      (mid : Mid t key w0 none (fun p => w0.disk.lookup p) w) :
      PutEnd limits codec allowed t key name bytes info w0
        (.error error, w0.index, .nothing) w
  /-- The file is there already. -/
  | taken {w : World T} (room : w0.index.refusal limits key bytes.length = none)
      (there : (w0.disk.lookup (entryDir key ++ [safeName name])).isSome)
      (mid : Mid t key w0 none (fun p => w0.disk.lookup p) w) :
      PutEnd limits codec allowed t key name bytes info w0
        (.error (.io (entryDir key ++ [safeName name]) .alreadyExists), w0.index, .nothing) w
  /-- It stores its file under a renewed or fresh entry, and evicts. -/
  | stored {choice : Choice} {entry : Entry} {w1 : World T} {index' : Index} {w : World T}
      (room : w0.index.refusal limits key bytes.length = none)
      (absent : w0.disk.lookup (entryDir key ++ [safeName name]) = none) (may : allowed choice)
      (made : entry = w0.index.nextEntry limits key bytes.length choice.now info)
      (mid : Mid t key w0 none (dirStored codec key (safeName name) bytes entry w0) w1)
      (evicts : Evicts limits (ranksOf allowed) (w0.index.commit key entry bytes.length) index')
      (evicting : Evicting t w1 (w0.index.commit key entry bytes.length) index' none w) :
      PutEnd limits codec allowed t key name bytes info w0
        (.ok entry, index', .counted key (safeName name) bytes) w

/-- The metadata a put writes names its own entry. -/
theorem nextEntry_named (begun : PutStart codec plain t key size w0) (size' now : Nat) :
    (w0.index.nextEntry limits key size' now info).id = key.id ∧
      (w0.index.nextEntry limits key size' now info).kind = key.kind := by
  unfold Index.nextEntry
  cases found : w0.index.entries.lookup key with
  | none => exact ⟨rfl, rfl⟩
  | some entry =>
      have complete := (begun.good key begun.free).listed entry found
      exact ⟨complete.id, complete.kind⟩

/-- **What a put does under the lock.** -/
theorem putLocked_working (begun : PutStart codec plain t key bytes.length w0)
    (named : plain → safeName name ≠ metaName) :
    StoreSafe codec plain boot allowed t
      (fun out w => Inv codec plain w ∧ Working boot t w ∧
        PutEnd limits codec allowed t key name bytes info w0 out w)
      (putLocked limits codec key name bytes info w0.index) w0 := by
  have lasting : ∀ {part : Option String} {content : Path → Option Node},
      Lasting codec plain boot t (Mid t key w0 part content) := lasting_mid begun
  have start : Held codec plain boot t (Mid t key w0 none fun p => w0.disk.lookup p) w0 :=
    ⟨begun.inv, begun.working, mid_start begun⟩
  unfold putLocked
  dsimp only
  cases admitted : w0.index.refusal limits key bytes.length with
  | some error =>
      exact working_ret lasting start fun w held =>
        ⟨held.1, held.2.1, .refused admitted held.2.2⟩
  | none =>
      show StoreSafe codec plain boot allowed t _ (Prog.call (.createDirAll (entryDir key)) _) w0
      refine world_call lasting.stable start fun w1 _ held1 _ _ _ => ?_
      obtain ⟨disk2, made, within, held2⟩ := createDirAll_mid begun held1
      simp only [handle, World.attempt, made]
      refine ⟨within, ?_⟩
      show StoreSafe codec plain boot allowed t _
        (Prog.call (.pathExists (entryDir key ++ [safeName name])) _) _
      refine working_still lasting held2 (fun _ _ => rfl) fun w3 choice held3 _ => ?_
      have there : w3.disk.pathExists (entryDir key ++ [safeName name]) =
          (w0.disk.lookup (entryDir key ++ [safeName name])).isSome := by
        rw [FileTree.pathExists, held3.2.2.here _ (List.prefix_append _ _), dirMade_file]
      simp only [handle, Prog.ret_bind, there]
      split
      · rename_i present
        -- the directory was there with the file in it, so nothing has changed
        have unchanged : dirMade key w0 = fun p => w0.disk.lookup p := by
          funext p
          unfold dirMade
          by_cases same : p = entryDir key
          · subst same
            rw [Function.update_self, begun.inv.dir_of_file present]
          · rw [Function.update_of_ne same]
        rw [unchanged] at held3
        exact working_ret lasting held3 fun w held =>
          ⟨held.1, held.2.1, .taken admitted present held.2.2⟩
      · rename_i absent
        have free : w0.disk.lookup (entryDir key ++ [safeName name]) = none := by
          simpa using absent
        have here : ∀ n b, (n, b) ∈ w0.acked key → n ≠ metaName →
            dirMade key w0 (entryDir key ++ [n]) = some (.file b) := fun n b inside safe =>
          (dirMade_file key key w0 n).trans (begun.acked n b inside safe)
        refine safe_bind (writeAtomic_working begun (by simp [dirMade]) here
          (Or.inl ((dirMade_file key key w0 _).trans free))
          (fun isPlain same => absurd same (named isPlain)) held3) fun written w4 held4 => ?_
        obtain ⟨rfl, held4⟩ := held4
        show StoreSafe codec plain boot allowed t _ (Prog.call .now _) w4
        refine working_still lasting held4 (fun _ _ => rfl) fun w5 choice' held5 may => ?_
        simp only [handle, Prog.ret_bind]
        have entryNamed :
            (w0.index.nextEntry limits key bytes.length choice'.now info).id = key.id ∧
              (w0.index.nextEntry limits key bytes.length choice'.now info).kind = key.kind :=
          nextEntry_named begun _ _
        generalize entryIs : w0.index.nextEntry limits key bytes.length choice'.now info = entry
          at entryNamed ⊢
        have here' : ∀ n b, (n, b) ∈ w0.acked key → n ≠ metaName →
            Function.update (dirMade key w0) (entryDir key ++ [safeName name])
              (some (.file bytes)) (entryDir key ++ [n]) = some (.file b) := by
          intro n b inside safe
          rw [Function.update_of_ne]
          · exact here n b inside safe
          · intro same
            have := begun.acked n b inside safe
            rw [same, free] at this
            exact absurd this (by simp)
        refine safe_bind (writeAtomic_working begun ?_ here' (Or.inr rfl)
          (fun _ _ => ⟨entry, codec.round_trip entry, entryNamed⟩) held5) fun recorded w6 held6 => ?_
        · rw [Function.update_of_ne (Ne.symm file_ne_dir)]
          simp [dirMade]
        · obtain ⟨rfl, inv6, working6, mid6⟩ := held6
          refine safe_bind (evict_working inv6 working6) fun index' w7 final => ?_
          obtain ⟨held7, evicts⟩ := final
          exact working_ret lasting_evicting held7 fun w held =>
            ⟨held.1, held.2.1, .stored admitted free may entryIs.symm mid6 evicts held.2.2⟩

end TypstMcp.Store
