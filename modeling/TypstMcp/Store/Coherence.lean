/-
Store.Coherence -- what holds of the disk and the index at every step

`Inv` is the invariant of every run, crashes and all: where files may lie, what a
`meta.json` decodes to, which acknowledged files are there, and, for an entry no
put and no removal is working on, that the disk and the index agree (`Good`).

* `Guar`: what one step of a thread may do.  It keeps `Inv`, and as the other
  threads see it, it leaves alone the lock somebody else holds and adds nothing
  below a directory somebody else is removing (`Frame`).
* `Working`: a thread that may write the disk, because it holds the lock for a put
  or because it is opening the store.  `rely_kept` is all the others can do to it.
-/
import TypstMcp.Store.World

namespace TypstMcp.Store

open TypstMcp.Theory TypstMcp.Theory.Table
open TypstMcp.Theory.FileTree (Closed isDir_iff)
open TypstMcp.Auth (TenantId)

set_option autoImplicit false
set_option linter.unusedSectionVars false

/-! ## Where files lie -/

def IsFile (node : Node) : Prop := ∃ bytes, node = .file bytes

/-- The nodes the store makes, by path. -/
def Placed : Path → Node → Prop
  | [], node => node = .dir
  | [a], node => node = .dir ∧ (a = "tmp" ∨ ∃ tenant : TenantId, a = "t_" ++ tenant.str)
  | [a, b], node => (a = "tmp" ∧ IsFile node) ∨
      (node = .dir ∧ ∃ (tenant : TenantId) (kind : Kind), a = "t_" ++ tenant.str ∧ b = kind.dir)
  | [a, b, c], node => node = .dir ∧
      ∃ key, [a, b, c] = entryDir key ∧ validateId key.kind key.id = .ok key.id
  | [a, b, c, _], node => IsFile node ∧ ∃ key, [a, b, c] = entryDir key
  | _, _ => False

def Shape (disk : FileTree) : Prop := ∀ p node, disk.lookup p = some node → Placed p node

theorem placed_file {key : Key} {name : String} {node : Node}
    (placed : Placed (entryDir key ++ [name]) node) : IsFile node := placed.1

theorem placed_entry {key : Key} {node : Node} (placed : Placed (entryDir key) node) :
    node = .dir ∧ validateId key.kind key.id = .ok key.id := by
  obtain ⟨dir, key', same, valid⟩ := placed
  obtain rfl : key = key' := entryDir_inj same
  exact ⟨dir, valid⟩

theorem placed_tmp {p : Path} {node : Node} (under : tmpDir <+: p) (placed : Placed p node) :
    p = tmpDir ∨ ∃ name, p = tmpDir ++ [name] ∧ IsFile node := by
  obtain ⟨rest, rfl⟩ := under
  cases rest with
  | nil => exact Or.inl rfl
  | cons name rest =>
      refine Or.inr ⟨name, ?_⟩
      cases rest with
      | nil =>
          refine ⟨rfl, ?_⟩
          rcases placed with ⟨-, file⟩ | ⟨-, tenant, kind, same, -⟩
          · exact file
          · exact absurd same (by simp [String.ext_iff, String.toList_append])
      | cons _ rest =>
          exfalso
          have clash : ∀ key, "tmp" ≠ "t_" ++ key := by
            simp [String.ext_iff, String.toList_append]
          cases rest with
          | nil =>
              obtain ⟨-, key, same, -⟩ := placed
              exact clash _ (List.cons.inj same).1
          | cons _ rest =>
              cases rest with
              | nil =>
                  obtain ⟨-, key, same⟩ := placed
                  exact clash _ (List.cons.inj same).1
              | cons _ _ => exact placed

theorem prefix_entryDir {key : Key} {q : Path} (inside : q <+: entryDir key) :
    q = [] ∨ q = ["t_" ++ key.tenant.str] ∨ q = ["t_" ++ key.tenant.str, key.kind.dir] ∨
      q = entryDir key := by
  simp only [entryDir, List.prefix_cons_iff, List.prefix_nil] at inside
  rcases inside with rfl | ⟨_, rfl, rfl | ⟨_, rfl, rfl | ⟨_, rfl, rfl⟩⟩⟩
  · exact Or.inl rfl
  · exact Or.inr (Or.inl rfl)
  · exact Or.inr (Or.inr (Or.inl rfl))
  · exact Or.inr (Or.inr (Or.inr rfl))

theorem placed_ancestor {key : Key} (valid : validateId key.kind key.id = .ok key.id) {q : Path}
    (inside : q <+: entryDir key) : Placed q .dir := by
  rcases prefix_entryDir inside with rfl | rfl | rfl | rfl
  · rfl
  · exact ⟨rfl, Or.inr ⟨_, rfl⟩⟩
  · exact Or.inr ⟨rfl, _, _, rfl, rfl⟩
  · exact ⟨rfl, key, rfl, valid⟩

theorem not_placed_file {key : Key} {q : Path} (inside : q <+: entryDir key) (bytes : Bytes) :
    ¬ Placed q (.file bytes) := by
  intro placed
  rcases prefix_entryDir inside with rfl | rfl | rfl | rfl
  · exact absurd placed (by simp [Placed])
  · exact absurd placed.1 (by simp)
  · rcases placed with ⟨same, -⟩ | ⟨dir, -⟩
    · simp [String.ext_iff, String.toList_append] at same
    · exact absurd dir (by simp)
  · exact absurd placed.1 (by simp)

/-! ## Entries on disk -/

section Entries

variable (codec : MetaCodec)

/-- The metadata `raw` records `entry`, up to its size: a rebuild counts that anew and
does not write it back. -/
def Records (raw : Bytes) (entry : Entry) : Prop :=
  ∃ stored, codec.fromSlice raw = some stored ∧ entry = { stored with bytes := entry.bytes }

/-- The entry directory of `key` holds the metadata of `entry` and the files. -/
structure Complete (disk : FileTree) (files : List (String × Bytes)) (key : Key) (entry : Entry) :
    Prop where
  info : ∃ raw, disk.lookup (entryDir key ++ [metaName]) = some (.file raw) ∧
    Records codec raw entry
  files : ∀ name bytes, (name, bytes) ∈ files → name ≠ metaName →
    disk.lookup (entryDir key ++ [name]) = some (.file bytes)
  id : entry.id = key.id
  kind : entry.kind = key.kind

/-- Nothing of the entry is left. -/
def Bare (disk : FileTree) (key : Key) : Prop := ∀ p, entryDir key <+: p → disk.lookup p = none

/-- The disk and an index agree on one key. -/
structure Good (index : Index) (files : Key → List (String × Bytes)) (disk : FileTree)
    (key : Key) : Prop where
  listed : ∀ entry, index.entries.lookup key = some entry →
    Complete codec disk (files key) key entry
  unlisted : index.entries.lookup key = none → Bare disk key

/-- What the rebuild asks of the metadata it finds. -/
def InfoAt (disk : FileTree) (key : Key) : Prop :=
  ∀ bytes, disk.lookup (entryDir key ++ [metaName]) = some (.file bytes) →
    ∃ entry, codec.fromSlice bytes = some entry ∧ entry.id = key.id ∧ entry.kind = key.kind

variable {codec}

theorem records_toVec (entry : Entry) : Records codec (codec.toVec entry) entry :=
  ⟨entry, codec.round_trip entry, rfl⟩

theorem Complete.congr {disk disk' : FileTree} {files : List (String × Bytes)} {key : Key}
    {entry : Entry} (complete : Complete codec disk files key entry)
    (same : ∀ p, entryDir key <+: p → disk'.lookup p = disk.lookup p) :
    Complete codec disk' files key entry :=
  { complete with
    info := complete.info.imp fun _ found =>
      ⟨(same _ (List.prefix_append _ _)).trans found.1, found.2⟩
    files := fun name bytes inside plain =>
      (same _ (List.prefix_append _ _)).trans (complete.files name bytes inside plain) }

theorem Bare.congr {disk disk' : FileTree} {key : Key} (bare : Bare disk key)
    (same : ∀ p, entryDir key <+: p → disk'.lookup p = disk.lookup p) : Bare disk' key :=
  fun p under => (same p under).trans (bare p under)

theorem Good.congr {index : Index} {files : Key → List (String × Bytes)} {disk disk' : FileTree}
    {key : Key} (good : Good codec index files disk key)
    (same : ∀ p, entryDir key <+: p → disk'.lookup p = disk.lookup p) :
    Good codec index files disk' key :=
  ⟨fun entry found => (good.listed entry found).congr same,
    fun absent => (good.unlisted absent).congr same⟩

theorem Complete.infoAt {disk : FileTree} {files : List (String × Bytes)} {key : Key}
    {entry : Entry} (complete : Complete codec disk files key entry) : InfoAt codec disk key := by
  intro bytes found
  obtain ⟨raw, there, stored, decoded, same⟩ := complete.info
  obtain rfl : raw = bytes := by simpa [there] using found
  have id := complete.id
  have kind := complete.kind
  rw [same] at id kind
  exact ⟨stored, decoded, id, kind⟩

theorem Good.infoAt {index : Index} {files : Key → List (String × Bytes)} {disk : FileTree}
    {key : Key} (good : Good codec index files disk key) : InfoAt codec disk key := by
  cases found : index.entries.lookup key with
  | some entry => exact (good.listed entry found).infoAt
  | none =>
      intro bytes present
      rw [good.unlisted found _ (List.prefix_append _ _)] at present
      exact absurd present (by simp)

/-- Files only went away: the metadata that is left decodes as it did. -/
theorem InfoAt.of_le {disk disk' : FileTree} {key : Key} (info : InfoAt codec disk key)
    (le : ∀ p node, disk'.lookup p = some node → disk.lookup p = some node) :
    InfoAt codec disk' key :=
  fun bytes found => info bytes (le _ _ found)

end Entries

/-! ## The invariant -/

variable {T : Type} [DecidableEq T]

namespace World

/-- Some put holds the lock. -/
def Storing (w : World T) : Prop := ∃ s key size, w.owner = some (s, .storing key size)

/-- No removal has picked the entry. -/
def Undoomed (w : World T) (key : Key) : Prop := ∀ s, entryDir key ∉ w.doomed s

/-- While its metadata is there, the entry has every file it acknowledged. -/
def Serves (w : World T) (key : Key) : Prop :=
  (w.disk.lookup (entryDir key ++ [metaName])).isSome →
    ∀ name bytes, (name, bytes) ∈ w.acked key → name ≠ metaName →
      w.disk.lookup (entryDir key ++ [name]) = some (.file bytes)

end World

/-- What holds at every step of every run.  `plain` says that no put stores a file
under the name of the metadata; without it the metadata may be anything in the
middle of a put. -/
structure Inv (codec : MetaCodec) (plain : Prop) (w : World T) : Prop where
  closed : Closed w.disk
  shape : Shape w.disk
  info : plain ∨ ¬ w.Storing → ∀ key, InfoAt codec w.disk key
  serves : ∀ key, entryDir key ∈ w.torn ∨ w.Serves key
  tornInfo : ∀ key, entryDir key ∈ w.torn →
    (w.disk.lookup (entryDir key ++ [metaName])).isSome
  tmpFiles : ¬ w.Storing → ∀ name, (w.disk.lookup (tmpDir ++ [name])).isSome →
    tmpDir ++ [name] ∈ w.stray
  tmpDir : w.up = true → w.disk.isDir tmpDir
  acked : w.up = true → ∀ key, w.index.entries.lookup key = none → w.acked key = []
  good : w.up = true → ¬ w.Storing → ∀ key, w.Undoomed key →
    Good codec w.index w.acked w.disk key

/-! ## What a step may do -/

/-- What a thread without the lock does while another holds it. -/
structure Outside (t : T) (purpose : Purpose) (w w' : World T) : Prop where
  owner : w'.owner = w.owner
  index : w'.index = w.index
  acked : w'.acked = w.acked
  stray : w'.stray = w.stray
  doomed : w.doomed t ⊆ w'.doomed t
  spares : ∀ key size, purpose = .storing key size →
    entryDir key ∉ w.doomed t → entryDir key ∉ w'.doomed t
  disk : ∀ p, w'.disk.lookup p = w.disk.lookup p ∨
    (w'.disk.lookup p = none ∧ ∃ key, entryDir key ∈ w.doomed t ∧ entryDir key <+: p)

/-- A step of an open store as the other threads see it. -/
structure Frame (t : T) (w w' : World T) : Prop where
  up : w'.up = true
  doomed : ∀ s, s ≠ t → w'.doomed s = w.doomed s
  owner : ∀ s, s ≠ t → ∀ purpose, w'.owner = some (s, purpose) → w.owner = some (s, purpose)
  locked : ∀ s, s ≠ t → ∀ purpose, w.owner = some (s, purpose) → Outside t purpose w w'
  spared : ∀ s, s ≠ t → ∀ key, entryDir key ∈ w.doomed s → ∀ p, entryDir key <+: p →
    (w'.disk.lookup p).isSome → (w.disk.lookup p).isSome

/-- One step of thread `t`; `boot` is the thread that opens the store. -/
structure Guar (codec : MetaCodec) (plain : Prop) (boot t : T) (w w' : World T) : Prop where
  inv : Inv codec plain w → Inv codec plain w'
  alone : w.up = false → t = boot
  frame : w.up = true → Frame t w w'

/-! ## A thread that may write the disk -/

/-- The thread holds the lock for a put, or it is opening the store. -/
def Working (boot t : T) (w : World T) : Prop :=
  (w.up = true ∧ ∃ key size, w.owner = some (t, .storing key size)) ∨
    (w.up = false ∧ t = boot)

/-- What no step of a working thread changes, nor any step of the others. -/
structure Fixed (t : T) (w w' : World T) : Prop where
  up : w'.up = w.up
  owner : w'.owner = w.owner
  index : w'.index = w.index
  acked : w'.acked = w.acked
  stray : w'.stray = w.stray
  own : w'.doomed t = w.doomed t
  doomed : ∀ s, w.doomed s ⊆ w'.doomed s
  spares : ∀ key size, w.owner = some (t, .storing key size) → w.Undoomed key → w'.Undoomed key

/-- What the others leave a working thread. -/
structure Kept (t : T) (w w' : World T) : Prop extends Fixed t w w' where
  disk : ∀ p, w'.disk.lookup p = w.disk.lookup p ∨
    (w'.disk.lookup p = none ∧ ∃ s key, entryDir key ∈ w.doomed s ∧ entryDir key <+: p)

variable {codec : MetaCodec} {plain : Prop} {boot t : T} {w w' w'' : World T}

theorem fixed_refl (t : T) (w : World T) : Fixed t w w :=
  ⟨rfl, rfl, rfl, rfl, rfl, rfl, fun _ _ inside => inside, fun _ _ _ held => held⟩

theorem Fixed.trans (first : Fixed t w w') (second : Fixed t w' w'') : Fixed t w w'' where
  up := second.up.trans first.up
  owner := second.owner.trans first.owner
  index := second.index.trans first.index
  acked := second.acked.trans first.acked
  stray := second.stray.trans first.stray
  own := second.own.trans first.own
  doomed s := fun _ inside => second.doomed s (first.doomed s inside)
  spares key size owned held :=
    second.spares key size (first.owner.trans owned) (first.spares key size owned held)

/-- A change of the disk alone. -/
theorem fixed_of_disk (up : w'.up = w.up) (owner : w'.owner = w.owner)
    (index : w'.index = w.index) (acked : w'.acked = w.acked) (stray : w'.stray = w.stray)
    (doomed : w'.doomed = w.doomed) : Fixed t w w' :=
  ⟨up, owner, index, acked, stray, congrFun doomed t, fun s => by rw [doomed]; exact fun _ h => h,
    fun _ _ _ held => by unfold World.Undoomed; rw [doomed]; exact held⟩

theorem Working.fixed (working : Working boot t w) (fixed : Fixed t w w') :
    Working boot t w' := by
  rcases working with ⟨up, key, size, owned⟩ | ⟨down, same⟩
  · exact Or.inl ⟨fixed.up.trans up, key, size, fixed.owner.trans owned⟩
  · exact Or.inr ⟨fixed.up.trans down, same⟩

/-- An open store a thread may write holds no promise about the index. -/
theorem Working.storing (working : Working boot t w) (up : w.up = true) : w.Storing := by
  rcases working with ⟨-, key, size, owned⟩ | ⟨down, -⟩
  · exact ⟨t, key, size, owned⟩
  · rw [up] at down
    exact absurd down (by simp)

/-- **All the others can do to a working thread**: empty directories they are
removing. -/
theorem rely_kept (working : Working boot t w)
    (moved : Rely (Guar codec plain boot) t w w') : Kept t w w' := by
  obtain ⟨s, other, within⟩ := moved
  rcases working with ⟨up, key, size, owned⟩ | ⟨down, same⟩
  · have frame := within.frame up
    have outside := frame.locked t (Ne.symm other) _ owned
    refine ⟨⟨frame.up.trans up.symm, outside.owner, outside.index, outside.acked,
      outside.stray, frame.doomed t (Ne.symm other), fun u => ?_, fun key' size' owned' held u => ?_⟩,
      fun p => ?_⟩
    · by_cases mine : u = s
      · subst mine; exact outside.doomed
      · rw [frame.doomed u mine]; exact fun _ inside => inside
    · by_cases mine : u = s
      · subst mine
        have purpose : Purpose.storing key size = .storing key' size' := by
          rw [owned] at owned'
          exact (Prod.mk.inj (Option.some.inj owned')).2
        exact outside.spares key' size' purpose (held u)
      · rw [frame.doomed u mine]; exact held u
    · rcases outside.disk p with kept | ⟨gone, key', picked, under⟩
      · exact Or.inl kept
      · exact Or.inr ⟨gone, s, key', picked, under⟩
  · exact absurd ((within.alone down).trans same.symm) other

/-- An assertion of a working thread is stable when what the others leave keeps it. -/
theorem stable_working {holds : World T → Prop}
    (each : ∀ w w', Inv codec plain w' → Working boot t w → Kept t w w' → holds w → holds w') :
    Stable (Guar codec plain boot) t
      (fun w => Inv codec plain w ∧ Working boot t w ∧ holds w) := by
  rintro w w' ⟨inv, working, held⟩ moved
  have kept := rely_kept working moved
  obtain ⟨s, -, within⟩ := moved
  have inv' := within.inv inv
  exact ⟨inv', working.fixed kept.toFixed, each w w' inv' working kept held⟩

/-- The others leave every file of an entry nobody is removing. -/
theorem Kept.undoomed (kept : Kept t w w') {key : Key} (free : w'.Undoomed key) {p : Path}
    (under : entryDir key <+: p) : w'.disk.lookup p = w.disk.lookup p := by
  rcases kept.disk p with same | ⟨-, s, key', picked, under'⟩
  · exact same
  · obtain rfl := entryDir_under under under'
    exact absurd (kept.doomed s picked) (free s)

theorem Kept.tmp (kept : Kept t w w') {p : Path} (temporary : tmpDir <+: p) :
    w'.disk.lookup p = w.disk.lookup p := by
  rcases kept.disk p with same | ⟨-, s, key, -, under⟩
  · exact same
  · exact absurd under (tmp_not_entry temporary)

theorem Kept.le (kept : Kept t w w') {p : Path} {node : Node}
    (found : w'.disk.lookup p = some node) : w.disk.lookup p = some node := by
  rcases kept.disk p with same | ⟨gone, -⟩
  · rw [← same]; exact found
  · rw [gone] at found
    exact absurd found (by simp)

theorem Fixed.undoomed (fixed : Fixed t w w') {key : Key} (free : w'.Undoomed key) :
    w.Undoomed key := fun s picked => free s (fixed.doomed s picked)

/-- A step of a working thread: it keeps the invariant, leaves what is not the disk,
and adds nothing where another thread is removing. -/
theorem guar_working (working : Working boot t w) (inv : Inv codec plain w → Inv codec plain w')
    (up : w'.up = w.up) (owner : w'.owner = w.owner) (doomed : w'.doomed = w.doomed)
    (spared : ∀ key, ¬ w.Undoomed key → ∀ p, entryDir key <+: p →
      (w'.disk.lookup p).isSome → (w.disk.lookup p).isSome) :
    Guar codec plain boot t w w' := by
  refine ⟨inv, fun down => ?_, fun isUp => ⟨up.trans isUp, fun s _ => by rw [doomed],
    fun s _ purpose owned => owner ▸ owned, fun s other purpose owned => ?_,
    fun s _ key picked p under present => spared key (fun free => free s picked) p under present⟩⟩
  · rcases working with ⟨isUp, -⟩ | ⟨-, same⟩
    · rw [isUp] at down; exact absurd down (by simp)
    · exact same
  · rcases working with ⟨-, key, size, mine⟩ | ⟨down, -⟩
    · rw [mine] at owned
      exact absurd (Prod.mk.inj (Option.some.inj owned)).1.symm other
    · rw [isUp] at down; exact absurd down (by simp)

/-- A step that touches none of what is shared. -/
theorem guar_quiet (alone : w.up = false → t = boot) (inv : Inv codec plain w → Inv codec plain w')
    (disk : w'.disk = w.disk) (index : w'.index = w.index) (owner : w'.owner = w.owner)
    (up : w'.up = w.up) (acked : w'.acked = w.acked) (stray : w'.stray = w.stray)
    (doomed : w'.doomed = w.doomed) : Guar codec plain boot t w w' := by
  refine ⟨inv, alone, fun isUp => ⟨up.trans isUp, fun s _ => by rw [doomed],
    fun s _ purpose owned => owner ▸ owned, fun s _ purpose _ => ?_,
    fun s _ key _ p _ present => by rw [disk] at present; exact present⟩⟩
  exact ⟨owner, index, acked, stray, by rw [doomed]; exact fun _ h => h,
    fun _ _ _ free => by rw [doomed]; exact free, fun p => Or.inl (by rw [disk])⟩

theorem guar_refl (alone : w.up = false → t = boot) : Guar codec plain boot t w w :=
  guar_quiet alone id rfl rfl rfl rfl rfl rfl rfl

theorem Working.alone (working : Working boot t w) : w.up = false → t = boot := by
  intro down
  rcases working with ⟨up, -⟩ | ⟨-, same⟩
  · rw [up] at down; exact absurd down (by simp)
  · exact same

end TypstMcp.Store
