/-
Template.Mounted -- a tree of files as a volume

The tree a template is unpacked to names its files by strings and fails in no other way
than that a path is missing.  `mounted` is that tree as a volume, `ranked` the order its
`read_dir` lists names in.

* `load_mounted`: there the loader over volumes is the loader over the tree, error for
  error.
* `load_any_rank`: so loading from a tree does not depend on the order of its directories.
-/
import TypstMcp.Template.Volume

namespace TypstMcp.Template

open TypstMcp.Bundle TypstMcp.Theory TypstMcp.Theory.Json FileTree
open TypstMcp.Theory.FormUrl (fromUtf8Lossy fromUtf8Lossy_utf8)

set_option autoImplicit false
set_option linter.dupNamespace false

variable {F : Type}

/-! ## The volume of a tree -/

/-- The name of every entry is one a directory may list. -/
def WellNamed (t : FileTree) : Prop := ∀ p ∈ t.keys, ∀ name ∈ p.getLast?, Named (utf8 name)

instance (raw : Bytes) : Decidable (Named raw) :=
  decidable_of_iff (raw ≠ [] ∧ 0x2f ∉ raw)
    ⟨fun both => ⟨both.1, both.2⟩, fun named => ⟨named.nonempty, named.plain⟩⟩

instance (t : FileTree) : Decidable (WellNamed t) := by
  unfold WellNamed
  infer_instance

/-- A path of the tree, as the system takes it. -/
def rawPath (p : Path) : RawPath := p.map utf8

/-- What bytes lead to: nothing when they are not those of names. -/
def nodeAt (t : FileTree) (raw : RawPath) : Option Node :=
  if rawPath (shown raw) = raw then t.lookup (shown raw) else none

/-- An entry's bytes. -/
def listed (name : String) : DirEntry := .ok (utf8 name)

/-- No path of the tree is longer. -/
def longest (t : FileTree) : Nat := (t.keys.map List.length).sum

@[simp] theorem shown_rawPath (p : Path) : shown (rawPath p) = p := by
  unfold shown rawPath
  rw [List.map_map]
  have same : fromUtf8Lossy ∘ utf8 = id := funext fromUtf8Lossy_utf8
  rw [same, List.map_id]

@[simp] theorem nodeAt_rawPath (t : FileTree) (p : Path) : nodeAt t (rawPath p) = t.lookup p := by
  unfold nodeAt
  rw [shown_rawPath, if_pos rfl]

@[simp] theorem rawPath_concat (p : Path) (name : String) :
    rawPath p ++ [utf8 name] = rawPath (p ++ [name]) := by
  simp [rawPath]

theorem within_rawPath (p : Path) (name : String) :
    within (rawPath p) name = rawPath (p ++ [name]) := rawPath_concat p name

theorem nodeAt_eq_some {t : FileTree} {raw : RawPath} {node : Node}
    (there : nodeAt t raw = some node) : ∃ p, raw = rawPath p ∧ t.lookup p = some node := by
  unfold nodeAt at there
  split_ifs at there with same
  exact ⟨shown raw, same.symm, there⟩

theorem utf8_injective : Function.Injective utf8 := fun a b same => by
  rw [← fromUtf8Lossy_utf8 a, same, fromUtf8Lossy_utf8]

theorem length_le_longest {t : FileTree} {p : Path} {node : Node} (there : t.lookup p = some node) :
    p.length ≤ longest t := by
  refine List.le_sum_of_mem (List.mem_map_of_mem (mem_keys_iff.2 ?_))
  rw [there]
  rfl

/-- What a directory of the tree lists. -/
def entriesAt (t : FileTree) (raw : RawPath) : Except ErrorKind (List DirEntry) :=
  if nodeAt t raw = some .dir then .ok ((children t (shown raw)).map listed) else .error .notFound

/-- Depth left below a path. -/
def heightAt (t : FileTree) (raw : RawPath) : Nat := longest t - raw.length

variable {t : FileTree}

theorem entriesAt_eq_ok {raw : RawPath} {entries : List DirEntry}
    (read : entriesAt t raw = .ok entries) : entries = (children t (shown raw)).map listed := by
  unfold entriesAt at read
  split_ifs at read
  exact (Except.ok.inj read).symm

theorem entriesAt_distinct (dir : RawPath) (entries : List DirEntry)
    (read : entriesAt t dir = .ok entries) : (entries.filterMap Except.toOption).Nodup := by
  rw [entriesAt_eq_ok read, List.filterMap_map]
  exact (children_nodup t _).filterMap fun a b raw first second =>
    utf8_injective ((Option.some.inj first).trans (Option.some.inj second).symm)

theorem entriesAt_named (wellNamed : WellNamed t) (dir : RawPath) (entries : List DirEntry)
    (raw : Bytes) (read : entriesAt t dir = .ok entries) (inside : .ok raw ∈ entries) :
    Named raw := by
  rw [entriesAt_eq_ok read] at inside
  obtain ⟨name, child, same⟩ := List.mem_map.1 inside
  obtain rfl := Except.ok.inj same
  exact wellNamed _ (mem_keys_iff.2 (mem_children.1 child)) name (by simp)

theorem heightAt_lower {dir : RawPath} {raw : Bytes} {node : Node}
    (is : nodeAt t (dir ++ [raw]) = some node) : heightAt t (dir ++ [raw]) < heightAt t dir := by
  obtain ⟨p, spelled, there⟩ := nodeAt_eq_some is
  have length := congrArg List.length spelled
  have bound := length_le_longest there
  unfold heightAt
  simp only [rawPath, List.length_map, List.length_append, List.length_singleton] at length ⊢
  omega

/-- The tree as a volume. -/
def mounted (t : FileTree) (named : WellNamed t) : Volume where
  readDir := entriesAt t
  fileTypeIsDir raw := .ok (nodeAt t raw = some .dir)
  isDir raw := nodeAt t raw = some .dir
  isFile raw := (nodeAt t raw).any fun node => node != .dir
  read raw :=
    if rawPath (shown raw) = raw then FileTree.read t (shown raw) else .error .notFound
  height := heightAt t
  distinct := entriesAt_distinct
  named := entriesAt_named named
  lower _ _ _ _ _ is := heightAt_lower (of_decide_eq_true (Except.ok.inj is))

/-- The path an entry is ranked by. -/
def entryPath (dir : RawPath) : DirEntry → Path
  | .ok raw => shown (dir ++ [raw])
  | .error _ => shown dir

/-- The order in which a tree with these ranks lists its directories. -/
def ranked (rank : Path → Nat) : Order where
  arrange dir entries :=
    entries.insertionSort fun a b => rank (entryPath dir a) ≤ rank (entryPath dir b)
  perm _ _ := List.perm_insertionSort _ _

/-! ## The same loader -/

variable {named : WellNamed t} {rank : Path → Nat} {name parent : String} {p : Path}

theorem readDir_mounted : (mounted t named).readDir (rawPath p) =
    if isDir t p then .ok ((children t p).map listed) else .error .notFound := by
  simp [mounted, entriesAt, isDir]

theorem arrange_ranked (names : List String) :
    (ranked rank).arrange (rawPath p) (names.map listed) =
      (names.insertionSort fun m n => rank (p ++ [m]) ≤ rank (p ++ [n])).map listed := by
  refine (List.map_insertionSort _ _ _ _ fun a _ b _ => ?_).symm
  simp [entryPath, listed]

theorem read_mounted : (mounted t named).read (rawPath p) = FileTree.read t p := by
  simp [mounted]

theorem isFile_mounted : (mounted t named).isFile (rawPath p) = isFile t p := by
  rcases found : t.lookup p with _ | _ | bytes <;> simp [mounted, isFile, found]

theorem readToString_mounted : readToString (mounted t named) (rawPath p) = readText t p := by
  cases found : FileTree.read t p with
  | error source => simp [readToString, readText, read_mounted, found]
  | ok bytes =>
      cases text : fromUtf8 bytes <;> simp [readToString, readText, read_mounted, found, text]

theorem readOptionalFrom_mounted :
    readOptionalFrom (mounted t named) (rawPath p) = readOptional t p := by
  simp only [readOptionalFrom, readOptional, isFile_mounted, readToString_mounted]

/-- A walk over the tree, as pending directories of the volume. -/
def pendingOf (walk : List (Path × String)) : List Pending :=
  walk.map fun w => (rawPath w.1, w.2)

/-- What a walk has gathered, as a visit keeps it. -/
def gatheredOf (g : Gathered) : List Pending × List BundleFile := (pendingOf g.walk, g.files)

/-- One entry adds the same. -/
theorem collectEntry_mounted (g : Gathered) (fileName : String) :
    collectEntry (mounted t named) name (rawPath p) parent (gatheredOf g) (listed fileName) =
      (gatherEntry name t p parent g fileName).map gatheredOf := by
  unfold collectEntry gatherEntry inspect
  simp only [listed, fromUtf8Lossy_utf8, rawPath_concat, read_mounted, shown_rawPath]
  split_ifs with skip reserved isDirectory
  · simp [Except.map, gatheredOf]
  · rfl
  · have is : (mounted t named).fileTypeIsDir (rawPath (p ++ [fileName])) = .ok true := by
      simpa [mounted, isDir] using isDirectory
    simp only [is]
    simp [Except.map, gatheredOf, pendingOf]
  · have is : (mounted t named).fileTypeIsDir (rawPath (p ++ [fileName])) = .ok false := by
      simpa [mounted, isDir] using isDirectory
    simp only [is]
    cases normalisePath (relative parent fileName) with
    | error source => rfl
    | ok path =>
        cases FileTree.read t (p ++ [fileName]) with
        | error source => rfl
        | ok bytes => simp [Except.map, gatheredOf]

theorem collectEntries_mounted (g : Gathered) (names : List String) :
    (names.map listed).foldlM (collectEntry (mounted t named) name (rawPath p) parent)
      (gatheredOf g) = (names.foldlM (gatherEntry name t p parent) g).map gatheredOf := by
  induction names generalizing g with
  | nil => rfl
  | cons fileName rest ih =>
      rw [List.map_cons, List.foldlM_cons, List.foldlM_cons, collectEntry_mounted]
      cases gatherEntry name t p parent g fileName with
      | error e => rfl
      | ok next => exact ih next

/-- What was gathered before stays in front. -/
def Gathered.after (g : Gathered) (before : Gathered) : Gathered :=
  { files := before.files ++ g.files, walk := before.walk ++ g.walk }

theorem gatherEntry_after (before g : Gathered) (fileName : String) :
    gatherEntry name t p parent (g.after before) fileName =
      (gatherEntry name t p parent g fileName).map (·.after before) := by
  unfold gatherEntry
  simp only []
  split_ifs
  · rfl
  · rfl
  · simp [Gathered.after, Except.map]
  · cases normalisePath (relative parent fileName) with
    | error source => rfl
    | ok path =>
        cases FileTree.read t (p ++ [fileName]) with
        | error source => rfl
        | ok bytes => simp [Gathered.after, Except.map]

theorem gatherEntries_after (before g : Gathered) (names : List String) :
    names.foldlM (gatherEntry name t p parent) (g.after before) =
      (names.foldlM (gatherEntry name t p parent) g).map (·.after before) := by
  induction names generalizing g with
  | nil => rfl
  | cons fileName rest ih =>
      rw [List.foldlM_cons, List.foldlM_cons, gatherEntry_after]
      cases gatherEntry name t p parent g fileName with
      | error e => rfl
      | ok next => exact ih next

/-- A visit is one turn of the loop over the tree. -/
theorem visit_mounted : visit (mounted t named) (ranked rank) name (rawPath p, parent) =
    match FileTree.readDir rank t p with
    | .error source => .error (.io p source)
    | .ok names => (names.foldlM (gatherEntry name t p parent) {}).map gatheredOf := by
  unfold visit FileTree.readDir
  simp only [readDir_mounted]
  split_ifs
  · simp only [arrange_ranked]
    exact collectEntries_mounted {} _
  · simp

/-- **The search of the volume is the loop over the tree.** -/
theorem search_mounted (fuel : Nat) (g : Gathered) :
    (Worklist.search (visit (mounted t named) (ranked rank) name) fuel (pendingOf g.walk) g.files).map
      (·.map sortFiles) = gather name rank t fuel g := by
  induction fuel generalizing g with
  | zero => rfl
  | succ fuel ih =>
      rw [Worklist.search, gather, pendingOf, List.getLast?_map]
      cases g.walk.getLast? with
      | none => rfl
      | some w =>
          obtain ⟨dir, parent⟩ := w
          simp only [Option.map_some, visit_mounted]
          cases FileTree.readDir rank t dir with
          | error source => rfl
          | ok names =>
              have turn := @gatherEntries_after t name parent dir
                { g with walk := g.walk.dropLast } {} names
              simp only [Gathered.after, List.append_nil] at turn
              simp only [turn]
              cases names.foldlM (gatherEntry name t dir parent) {} with
              | error e => rfl
              | ok next =>
                  refine Eq.trans ?_ (ih _)
                  simp [Except.map, gatheredOf, pendingOf, List.map_dropLast]

theorem collectFiles_mounted (fuel : Nat) :
    collectFilesFrom (mounted t named) (ranked rank) (rawPath p) name fuel =
      collectFiles rank t p name fuel :=
  search_mounted fuel { walk := [(p, "")] }

/-- **Loading from the volume is loading from the tree.** -/
theorem load_mounted (crates : Crates F) (fuel : Nat) :
    loadFrom (mounted t named) (ranked rank) crates (rawPath p) fuel =
      Template.load crates rank t p fuel := by
  unfold loadFrom Template.load
  simp only [within_rawPath, isFile_mounted, readToString_mounted, collectFiles_mounted,
    shown_rawPath]
  split_ifs
  · rfl
  · cases readText t (p ++ ["template.toml"]) with
    | error e => rfl
    | ok manifestToml =>
        simp only []
        congr 1
        funext collected
        cases collected with
        | error e => rfl
        | ok files =>
            simp only [ok_bind, finish, within_rawPath, readOptionalFrom_mounted]

/-- **Loading from a tree does not depend on the order of its directories.** -/
theorem load_any_rank (crates : Crates F) (named : WellNamed t) (rank rank' : Path → Nat)
    (dir : Path) :
    ∃ n outcome outcome', outcome.toOption = outcome'.toOption ∧ ∀ fuel, n ≤ fuel →
      Template.load crates rank t dir fuel = some outcome ∧
        Template.load crates rank' t dir fuel = some outcome' := by
  obtain ⟨outcome, ⟨n, ends⟩, is⟩ :=
    loadFrom_ends (mounted t named) (ranked rank) crates (rawPath dir)
  obtain ⟨outcome', ⟨m, ends'⟩, is'⟩ :=
    loadFrom_ends (mounted t named) (ranked rank') crates (rawPath dir)
  refine ⟨max n m, outcome, outcome', toOption_eq is is', fun fuel enough => ?_⟩
  rw [← @load_mounted _ t named rank, ← @load_mounted _ t named rank']
  exact ⟨ends fuel (by omega), ends' fuel (by omega)⟩

end TypstMcp.Template
