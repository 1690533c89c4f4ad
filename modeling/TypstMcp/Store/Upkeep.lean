/-
Store.Upkeep -- each call keeps the invariant

One lemma for each thing a thread does to the shared state: making a directory,
writing a temporary file, renaming it into an entry, unlinking, and publishing an
index.  What a step leaves alone is read off the lookup lemma of its tree
operation.
-/
import TypstMcp.Store.Coherence

namespace TypstMcp.Store

open TypstMcp.Theory TypstMcp.Theory.Table TypstMcp.Theory.FileTree
open TypstMcp.Auth (TenantId)

set_option autoImplicit false
set_option linter.unusedSectionVars false

variable {T : Type} [DecidableEq T]
variable {codec : MetaCodec} {plain : Prop} {boot t : T} {w w' : World T}

/-! ## Paths apart -/

theorem file_not_dir {key : Key} {name : String} : ¬ Placed (entryDir key ++ [name]) .dir := by
  intro placed
  obtain ⟨bytes, same⟩ := placed_file placed
  exact absurd same (by simp)

theorem part_not_dir {name : String} : ¬ Placed (tmpDir ++ [name]) .dir := by
  intro placed
  rcases placed_tmp (List.prefix_append _ _) placed with same | ⟨_, _, bytes, same⟩
  · exact absurd (congrArg List.length same) (by simp)
  · exact absurd same (by simp)

theorem entry_not_part {key : Key} {p : Path} (under : entryDir key <+: p) (name : String) :
    p ≠ tmpDir ++ [name] := by
  rintro rfl
  exact tmp_not_entry (List.prefix_append tmpDir [name]) under

theorem file_inj {key key' : Key} {name name' : String}
    (same : entryDir key ++ [name] = entryDir key' ++ [name']) : key = key' ∧ name = name' := by
  have := List.append_inj' same rfl
  exact ⟨entryDir_inj this.1, by simpa using this.2⟩

theorem file_ne_dir {key key' : Key} {name : String} :
    entryDir key ++ [name] ≠ entryDir key' := by
  intro same
  exact absurd (congrArg List.length same) (by simp)

/-- A file that is there is a file. -/
theorem Inv.file (inv : Inv codec plain w) {key : Key} {name : String}
    (present : (w.disk.lookup (entryDir key ++ [name])).isSome) :
    ∃ bytes, w.disk.lookup (entryDir key ++ [name]) = some (.file bytes) := by
  obtain ⟨node, found⟩ := Option.isSome_iff_exists.1 present
  obtain ⟨bytes, rfl⟩ := placed_file (inv.shape _ _ found)
  exact ⟨bytes, found⟩

/-- An entry with a file has its directory. -/
theorem Inv.dir_of_file (inv : Inv codec plain w) {key : Key} {name : String}
    (present : (w.disk.lookup (entryDir key ++ [name])).isSome) :
    w.disk.lookup (entryDir key) = some .dir :=
  isDir_iff.1 (inv.closed _ _ present)

/-! ## Making directories -/

theorem inv_createDirAll {disk : FileTree} {p : Path} (working : Working boot t w)
    (inv : Inv codec plain w) (made : w.disk.createDirAll p = .ok disk)
    (placed : ∀ q, q <+: p → Placed q .dir) : Inv codec plain { w with disk := disk } := by
  have lookup := lookup_createDirAll made
  have files : ∀ key name, disk.lookup (entryDir key ++ [name]) =
      w.disk.lookup (entryDir key ++ [name]) := fun key name => by
    rw [lookup, if_neg fun inside => file_not_dir (placed _ inside)]
  refine
    { closed := inv.closed.createDirAll made
      shape := fun q node found => ?_
      info := fun safe key bytes found => inv.info safe key bytes (files key _ ▸ found)
      serves := fun key => ?_
      tornInfo := fun key torn => by rw [files]; exact inv.tornInfo key torn
      tmpFiles := fun idle name present => inv.tmpFiles idle name ?_
      tmpDir := fun up => ?_
      acked := inv.acked
      good := fun up idle => absurd (working.storing up) idle }
  · rw [lookup] at found
    split at found
    · rename_i inside
      obtain rfl : Node.dir = node := by simpa using found
      exact placed q inside
    · exact inv.shape q node found
  · rcases inv.serves key with torn | serves
    · exact Or.inl torn
    · refine Or.inr fun present name bytes inside safe => ?_
      rw [files] at present ⊢
      exact serves present name bytes inside safe
  · rwa [lookup, if_neg fun inside => part_not_dir (placed _ inside)] at present
  · rw [isDir_iff, lookup]
    split
    · rfl
    · exact isDir_iff.1 (inv.tmpDir up)

/-! ## Temporary files -/

/-- A change among the temporary files, in the middle of a put. -/
theorem inv_part {disk : FileTree} (storing : w.Storing) (inv : Inv codec plain w)
    (closed : Closed disk)
    (elsewhere : ∀ p, (∀ name, p ≠ tmpDir ++ [name]) → disk.lookup p = w.disk.lookup p)
    (parts : ∀ name node, disk.lookup (tmpDir ++ [name]) = some node → IsFile node) :
    Inv codec plain { w with disk := disk } := by
  have entries : ∀ key p, entryDir key <+: p → disk.lookup p = w.disk.lookup p :=
    fun key p under => elsewhere p (entry_not_part under)
  have files : ∀ key name, disk.lookup (entryDir key ++ [name]) =
      w.disk.lookup (entryDir key ++ [name]) := fun key name =>
    entries key _ (List.prefix_append _ _)
  refine
    { closed := closed
      shape := fun p node found => ?_
      info := fun safe key bytes found => inv.info safe key bytes (files key _ ▸ found)
      serves := fun key => ?_
      tornInfo := fun key torn => by rw [files]; exact inv.tornInfo key torn
      tmpFiles := fun idle => absurd storing idle
      tmpDir := fun up => ?_
      acked := inv.acked
      good := fun _ idle => absurd storing idle }
  · by_cases part : ∃ name, p = tmpDir ++ [name]
    · obtain ⟨name, rfl⟩ := part
      exact Or.inl ⟨rfl, parts name node found⟩
    · rw [elsewhere p fun name same => part ⟨name, same⟩] at found
      exact inv.shape p node found
  · rcases inv.serves key with torn | serves
    · exact Or.inl torn
    · refine Or.inr fun present name bytes inside safe => ?_
      rw [files] at present ⊢
      exact serves present name bytes inside safe
  · rw [isDir_iff, elsewhere tmpDir fun name same => by
      simpa using congrArg List.length same]
    exact isDir_iff.1 (inv.tmpDir up)

/-! ## Into an entry -/

/-- A temporary file is renamed into the entry of the put that holds the lock: a
payload under a free name, or metadata that decodes. -/
theorem inv_rename {disk : FileTree} {key : Key} {part name : String} {bytes : Bytes}
    (storing : w.Storing) (inv : Inv codec plain w)
    (moved : w.disk.rename (tmpDir ++ [part]) (entryDir key ++ [name]) = .ok disk)
    (written : w.disk.lookup (tmpDir ++ [part]) = some (.file bytes))
    (here : ∀ name bytes, (name, bytes) ∈ w.acked key → name ≠ metaName →
      w.disk.lookup (entryDir key ++ [name]) = some (.file bytes))
    (free : w.disk.lookup (entryDir key ++ [name]) = none ∨ name = metaName)
    (decodes : plain → name = metaName →
      ∃ entry, codec.fromSlice bytes = some entry ∧ entry.id = key.id ∧ entry.kind = key.kind) :
    Inv codec plain { w with disk := disk } := by
  have lookup : ∀ p, disk.lookup p = if p = entryDir key ++ [name] then some (.file bytes)
      else if p = tmpDir ++ [part] then none else w.disk.lookup p := fun p => by
    obtain ⟨bytes', found, after⟩ := lookup_rename moved p
    rw [written] at found
    obtain rfl : bytes = bytes' := by simpa using found
    exact after
  have files : ∀ key' name', disk.lookup (entryDir key' ++ [name']) =
      if key' = key ∧ name' = name then some (.file bytes)
      else w.disk.lookup (entryDir key' ++ [name']) := fun key' name' => by
    rw [lookup]
    by_cases same : key' = key ∧ name' = name
    · obtain ⟨rfl, rfl⟩ := same
      simp
    · rw [if_neg fun eq => same (file_inj eq), if_neg (entry_not_part (List.prefix_append _ _) _),
        if_neg same]
  have stays : ∀ key' name', (w.disk.lookup (entryDir key' ++ [name'])).isSome →
      (disk.lookup (entryDir key' ++ [name'])).isSome := fun key' name' present => by
    rw [files]
    split
    · rfl
    · exact present
  refine
    { closed := inv.closed.rename moved
      shape := fun p node found => ?_
      info := fun safe key' bytes' found => ?_
      serves := fun key' => ?_
      tornInfo := fun key' torn => stays key' _ (inv.tornInfo key' torn)
      tmpFiles := fun idle => absurd storing idle
      tmpDir := fun up => ?_
      acked := inv.acked
      good := fun _ idle => absurd storing idle }
  · rw [lookup] at found
    split at found
    · rename_i same
      subst same
      obtain rfl : Node.file bytes = node := by simpa using found
      exact ⟨⟨bytes, rfl⟩, key, rfl⟩
    · split at found
      · exact absurd found (by simp)
      · exact inv.shape p node found
  · have isPlain : plain := by
      rcases safe with isPlain | idle
      · exact isPlain
      · exact absurd storing idle
    rw [files] at found
    split at found
    · rename_i same
      obtain ⟨rfl, named⟩ := same
      obtain rfl : bytes = bytes' := by simpa using found
      exact decodes isPlain named.symm
    · exact inv.info safe key' bytes' found
  · by_cases same : key' = key
    · subst same
      refine Or.inr fun _ name' bytes' inside safe => ?_
      have before := here name' bytes' inside safe
      rw [files, if_neg]
      · exact before
      · rintro ⟨-, rfl⟩
        rcases free with absent | named
        · rw [absent] at before; exact absurd before (by simp)
        · exact safe named
    · have other : ∀ name', disk.lookup (entryDir key' ++ [name']) =
          w.disk.lookup (entryDir key' ++ [name']) := fun name' => by
        rw [files, if_neg fun both => same both.1]
      rcases inv.serves key' with torn | serves
      · exact Or.inl torn
      · refine Or.inr fun present name' bytes' inside safe => ?_
        rw [other] at present ⊢
        exact serves present name' bytes' inside safe
  · rw [isDir_iff, lookup, if_neg, if_neg]
    · exact isDir_iff.1 (inv.tmpDir up)
    · intro same; simpa using congrArg List.length same
    · intro same; simpa [tmpDir, entryDir] using congrArg List.length same

/-! ## Unlinking -/

/-- A torn directory stays torn until its metadata goes; a payload that goes first tears its own. -/
theorem mem_tornAfter {p d : Path} : d ∈ w.tornAfter p ↔
    d ∈ w.torn ∧ (p.getLast? = some metaName → d ≠ p.dropLast) ∨
      p.getLast? ≠ some metaName ∧ (∃ bytes, w.disk.lookup p = some (.file bytes)) ∧
        w.disk.pathExists (p.dropLast ++ [metaName]) = true ∧ d = p.dropLast := by
  unfold World.tornAfter
  split
  · rename_i last
    simp [last]
  · rename_i last
    split
    · rename_i bytes found
      split
      · rename_i recorded
        simp [last, found, recorded, or_comm]
      · rename_i recorded
        simp [last, recorded]
    · rename_i directory
      have noFile : ¬∃ bytes, w.disk.lookup p = some (.file bytes) := by
        rintro ⟨bytes, found⟩
        exact directory bytes found
      simp [last, noFile]

/-- **Whatever is unlinked, an entry that serves its files serves them still or is torn**: its
metadata going first takes the entry away, and a payload going first is recorded. -/
theorem serves_unlink (inv : Inv codec plain w) (p : Path) (key : Key) :
    entryDir key ∈ w.tornAfter p ∨ (w.unlinked p).Serves key := by
  have le : ∀ q node, (w.unlinked p).disk.lookup q = some node → w.disk.lookup q = some node :=
    fun q node found => lookup_unlink_le found
  by_cases info : p = entryDir key ++ [metaName]
  · -- the metadata goes, and the entry with it
    refine Or.inr fun present => absurd present ?_
    have childless : ∀ n, w.disk.lookup (p ++ [n]) = none := by
      intro n
      by_contra child
      have := inv.closed p n (Option.isSome_iff_ne_none.2 child)
      have placed := inv.shape p .dir (isDir_iff.1 this)
      exact file_not_dir (info ▸ placed)
    have gone := lookup_unlink_self childless
    rw [← info]
    simp only [World.unlinked, gone]
    simp
  have stays : entryDir key ∈ w.torn → entryDir key ∈ w.tornAfter p := by
    intro torn
    refine mem_tornAfter.2 (.inl ⟨torn, fun last same => info ?_⟩)
    rw [same]
    exact (List.dropLast_append_getLast? _ last).symm
  by_cases there : ∃ name bytes, p = entryDir key ++ [name] ∧ w.disk.lookup p = some (.file bytes)
  · obtain ⟨name, bytes, rfl, found⟩ := there
    have named : name ≠ metaName := fun same => info (by rw [same])
    by_cases recorded : w.disk.pathExists (entryDir key ++ [metaName])
    · refine .inl (mem_tornAfter.2 (.inr ⟨by simpa using named, ⟨bytes, found⟩, ?_, by simp⟩))
      rw [List.dropLast_concat]
      exact recorded
    · refine Or.inr fun present => absurd ?_ recorded
      obtain ⟨node, found⟩ := Option.isSome_iff_exists.1 present
      simp [FileTree.pathExists, le _ _ found]
  · -- no file went, so every file that was there is still there
    have kept : ∀ name, (w.unlinked p).disk.lookup (entryDir key ++ [name]) =
        w.disk.lookup (entryDir key ++ [name]) := by
      intro name
      by_cases same : entryDir key ++ [name] = p
      · have absent : w.disk.lookup p = none := by
          by_contra present
          have there' : (w.disk.lookup (entryDir key ++ [name])).isSome := by
            rw [same]; exact Option.isSome_iff_ne_none.2 present
          obtain ⟨bytes, found⟩ := inv.file there'
          exact there ⟨name, bytes, same.symm, same ▸ found⟩
        rw [same, absent]
        by_contra present
        obtain ⟨node, found⟩ := Option.ne_none_iff_exists'.1 present
        rw [le _ _ found] at absent
        exact absurd absent (by simp)
      · exact lookup_unlink_ne same
    rcases inv.serves key with torn | serves
    · exact .inl (stays torn)
    · refine Or.inr fun present name bytes inside safe => ?_
      rw [kept] at present ⊢
      exact serves present name bytes inside safe

/-- What is torn has its metadata. -/
theorem tornInfo_unlink (inv : Inv codec plain w) {p : Path} {key : Key}
    (torn : entryDir key ∈ w.tornAfter p) :
    ((w.unlinked p).disk.lookup (entryDir key ++ [metaName])).isSome := by
  have apart : entryDir key ++ [metaName] ≠ p := by
    rintro rfl
    rcases mem_tornAfter.1 torn with ⟨-, kept⟩ | ⟨payloadFile, -⟩
    · exact kept (by simp) (by simp)
    · exact payloadFile (by simp)
  show ((w.disk.unlink p).lookup _).isSome
  rw [lookup_unlink_ne apart]
  rcases mem_tornAfter.1 torn with ⟨before, -⟩ | ⟨-, -, recorded, same⟩
  · exact inv.tornInfo key before
  · rw [← same] at recorded
    exact recorded

/-- **Taking a path out of the tree keeps the invariant**, when the store holds no promise about
it. -/
theorem inv_unlinked {p : Path} (inv : Inv codec plain w) (temporary : w.up = true → p ≠ tmpDir)
    (unpromised : w.up = true → ¬ w.Storing → ∀ key, w.Undoomed key → ¬ entryDir key <+: p) :
    Inv codec plain (w.unlinked p) := by
  have le : ∀ q node, (w.unlinked p).disk.lookup q = some node → w.disk.lookup q = some node :=
    fun q node found => lookup_unlink_le found
  refine
    { closed := inv.closed.unlink p
      shape := fun q node found => inv.shape q node (le q node found)
      info := fun safe key => (inv.info safe key).of_le le
      serves := serves_unlink inv p
      tornInfo := fun key torn => tornInfo_unlink inv torn
      tmpFiles := fun idle name present => ?_
      tmpDir := fun up => ?_
      acked := inv.acked
      good := fun up idle key free => ?_ }
  · obtain ⟨node, found⟩ := Option.isSome_iff_exists.1 present
    exact inv.tmpFiles idle name (by rw [le _ _ found]; rfl)
  · rw [isDir_iff, show (w.unlinked p).disk.lookup tmpDir = _ from
      lookup_unlink_ne (temporary up).symm]
    exact isDir_iff.1 (inv.tmpDir up)
  · refine (inv.good up idle key free).congr fun q inside => lookup_unlink_ne ?_
    rintro rfl
    exact unpromised up idle key free inside

/-- The same for a path of an entry. -/
theorem inv_unlink {key : Key} {p : Path} (inv : Inv codec plain w) (under : entryDir key <+: p)
    (unpromised : w.up = true → ¬ w.Storing → ¬ w.Undoomed key) :
    Inv codec plain (w.unlinked p) := by
  refine inv_unlinked inv (fun _ same => ?_) fun up idle key' free inside => ?_
  · exact tmp_not_entry (same ▸ List.prefix_rfl : tmpDir <+: p) under
  · rw [entryDir_under inside under] at free
    exact unpromised up idle free

/-! ## The lock -/

theorem inv_lock {purpose : Purpose} (inv : Inv codec plain w) (free : w.owner = none) :
    Inv codec plain { w with owner := some (t, purpose) } := by
  have idle : ¬ w.Storing := by rintro ⟨s, key, size, owned⟩; rw [free] at owned; simp at owned
  exact { inv with
    info := fun _ => inv.info (Or.inr idle)
    tmpFiles := fun _ => inv.tmpFiles idle
    good := fun up _ => inv.good up idle }

theorem guar_lock {purpose : Purpose} (alone : w.up = false → t = boot) (free : w.owner = none) :
    Guar codec plain boot t w { w with owner := some (t, purpose) } := by
  refine ⟨fun inv => inv_lock inv free, alone, fun up => ⟨up, fun _ _ => rfl, ?_, ?_,
    fun _ _ _ _ _ _ present => present⟩⟩
  · intro s other purpose' owned
    exact absurd (Prod.mk.inj (Option.some.inj owned)).1.symm other
  · intro s other purpose' owned
    rw [free] at owned
    exact absurd owned (by simp)

/-- An index is published: every key the new doom leaves alone must agree with it. -/
theorem inv_publish {index : Index} {note : Note} (inv : Inv codec plain w)
    (info : ∀ key, InfoAt codec w.disk key)
    (tmp : ∀ name, (w.disk.lookup (tmpDir ++ [name])).isSome → tmpDir ++ [name] ∈ w.stray)
    (serves : ∀ key, entryDir key ∈ w.torn ∨ (w.publish t index note).Serves key)
    (good : w.up = true → ∀ key, (w.publish t index note).Undoomed key →
      Good codec index (w.ackedAfter index note) w.disk key) :
    Inv codec plain (w.publish t index note) :=
  { inv with
    info := fun _ => info
    serves := serves
    tmpFiles := fun _ => tmp
    acked := fun _ key absent => by
      show w.ackedAfter index note key = []
      unfold World.ackedAfter
      rw [show index.entries.lookup key = none from absent]
      rfl
    good := fun up _ => good up }

theorem guar_publish {index : Index} {note : Note} {purpose : Purpose}
    (alone : w.up = false → t = boot) (owned : w.owner = some (t, purpose))
    (inv : Inv codec plain w → Inv codec plain (w.publish t index note)) :
    Guar codec plain boot t w (w.publish t index note) := by
  refine ⟨inv, alone, fun up => ⟨up, fun s other => ?_, fun s _ purpose' owned' => ?_, ?_,
    fun _ _ _ _ _ _ present => present⟩⟩
  · show w.doomedAfter t note s = w.doomed s
    cases note <;> first | rfl | exact Function.update_of_ne other _ _
  · exact absurd owned' (by simp [World.publish])
  · intro s other purpose' owned'
    rw [owned] at owned'
    exact absurd (Prod.mk.inj (Option.some.inj owned')).1.symm other

end TypstMcp.Store
