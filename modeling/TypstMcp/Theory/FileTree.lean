/-
Theory.FileTree -- a directory tree and the calls a program makes on it

A tree is a finite map from paths (lists of components, the root being `[]`) to
nodes.  Each call is a total function; a call that can fail returns an error
kind and leaves the tree to its caller.  What every call is worth to a proof is
one lookup lemma: `lookup_createDirAll`, `lookup_rename`, `lookup_unlink`.

`walk` lists a subtree children first, the order in which a recursive removal
unlinks it; the order among siblings is the environment's (`rank`).  A `Sweep` is
such a removal under way, and `Sweep.unlink` its step.  `Closed` trees have every
parent; each call keeps them closed.
-/
import Mathlib.Data.List.Infix
import TypstMcp.Theory.Table

namespace TypstMcp.Theory

set_option autoImplicit false

abbrev Path := List String

abbrev Bytes := List UInt8

inductive Node
  | dir
  | file (bytes : Bytes)
  deriving DecidableEq, Repr

def Node.size : Node → Nat
  | .dir => 0
  | .file bytes => bytes.length

/-- The kinds of failure a caller can tell apart. -/
inductive ErrorKind
  | notFound
  | alreadyExists
  /-- What was read is not text. -/
  | invalidData
  | other
  deriving DecidableEq, Repr

abbrev FileTree := Table Path Node

namespace FileTree

/-! ## Reading -/

def isDir (t : FileTree) (p : Path) : Bool := t.lookup p = some .dir

def pathExists (t : FileTree) (p : Path) : Bool := (t.lookup p).isSome

def read (t : FileTree) (p : Path) : Except ErrorKind Bytes :=
  match t.lookup p with
  | some (.file bytes) => .ok bytes
  | some .dir => .error .other
  | none => .error .notFound

/-- The name of `q` inside the directory `p`, when it is one of its children. -/
def childName (p q : Path) : Option String :=
  if q.dropLast = p then q.getLast? else none

def children (t : FileTree) (p : Path) : List String := t.keys.filterMap (childName p)

/-- The names in a directory, in the order the environment's `rank` gives them. -/
def readDir (rank : Path → Nat) (t : FileTree) (p : Path) : Except ErrorKind (List String) :=
  if isDir t p then
    .ok ((children t p).insertionSort fun m n => rank (p ++ [m]) ≤ rank (p ++ [n]))
  else .error .notFound

/-- Deepest first; the environment orders the paths of one depth. -/
def walkOrder (rank : Path → Nat) (p q : Path) : Prop :=
  q.length < p.length ∨ (p.length = q.length ∧ rank p ≤ rank q)

instance (rank : Path → Nat) : DecidableRel (walkOrder rank) := fun p q =>
  inferInstanceAs (Decidable (q.length < p.length ∨ (p.length = q.length ∧ rank p ≤ rank q)))

/-- Every path at or below `p`, children before their parents. -/
def walk (rank : Path → Nat) (t : FileTree) (p : Path) : List Path :=
  (t.keys.filter fun q => p.isPrefixOf q).insertionSort (walkOrder rank)

/-! ## Writing -/

def createDir (t : FileTree) (p : Path) : Except ErrorKind FileTree :=
  match t.lookup p with
  | none => .ok (t.insert p .dir)
  | some .dir => .ok t
  | some (.file _) => .error .other

/-- The directory `p` and every missing parent. -/
def createDirAll (t : FileTree) (p : Path) : Except ErrorKind FileTree :=
  p.inits.foldlM createDir t

/-- Open `p` for writing, truncating it. -/
def createFile (t : FileTree) (p : Path) : Except ErrorKind FileTree :=
  if isDir t p then .error .other
  else if isDir t p.dropLast then .ok (t.insert p (.file []))
  else .error .notFound

/-- Write through an open file; an unlinked file takes the bytes with it. -/
def writeAll (t : FileTree) (p : Path) (bytes : Bytes) : FileTree :=
  match t.lookup p with
  | some (.file _) => t.insert p (.file bytes)
  | _ => t

/-- Move a file over whatever file the target names. -/
def rename (t : FileTree) (p q : Path) : Except ErrorKind FileTree :=
  match t.lookup p with
  | some (.file bytes) =>
      if isDir t q then .error .other
      else if isDir t q.dropLast then .ok ((t.erase p).insert q (.file bytes))
      else .error .notFound
  | some .dir => .error .other
  | none => .error .notFound

def removeFile (t : FileTree) (p : Path) : Except ErrorKind FileTree :=
  match t.lookup p with
  | some (.file _) => .ok (t.erase p)
  | some .dir => .error .other
  | none => .error .notFound

/-- Remove a file or an empty directory; anything else stays. -/
def unlink (t : FileTree) (p : Path) : FileTree :=
  if isDir t p && !(children t p).isEmpty then t else t.erase p

/-! ## Lookups after each call -/

theorem lookup_insert_eq (t : FileTree) (p q : Path) (n : Node) :
    (t.insert p n).lookup q = if q = p then some n else t.lookup q := by
  by_cases same : q = p
  · subst same; simp
  · simp [same, AList.lookup_insert_ne same]

theorem lookup_erase_eq (t : FileTree) (p q : Path) :
    (t.erase p).lookup q = if q = p then none else t.lookup q := by
  by_cases same : q = p
  · subst same; simp
  · simp [same, AList.lookup_erase_ne same]

theorem isDir_iff {t : FileTree} {p : Path} : isDir t p = true ↔ t.lookup p = some .dir := by
  simp [isDir]

theorem mem_keys_iff {t : FileTree} {p : Path} : p ∈ t.keys ↔ (t.lookup p).isSome := by
  rw [AList.lookup_isSome, AList.mem_keys]

theorem childName_iff {p q : Path} {n : String} : childName p q = some n ↔ q = p ++ [n] := by
  unfold childName
  constructor
  · intro named
    split at named
    · rename_i inside
      rw [← inside, List.dropLast_append_getLast? n named]
    · simp at named
  · rintro rfl
    simp

theorem mem_children {t : FileTree} {p : Path} {n : String} :
    n ∈ children t p ↔ (t.lookup (p ++ [n])).isSome := by
  simp only [children, List.mem_filterMap, childName_iff, ← mem_keys_iff]
  constructor
  · rintro ⟨q, present, rfl⟩; exact present
  · intro present; exact ⟨_, present, rfl⟩

theorem children_nodup (t : FileTree) (p : Path) : (children t p).Nodup := by
  refine t.keys_nodup.filterMap fun q q' n first second => ?_
  rw [Option.mem_def, childName_iff] at first second
  rw [first, second]

theorem lookup_createDir {t t' : FileTree} {p : Path} (made : createDir t p = .ok t') (q : Path) :
    t'.lookup q = if q = p then some .dir else t.lookup q := by
  unfold createDir at made
  split at made <;> simp only [Except.ok.injEq, reduceCtorEq] at made
  · rw [← made, lookup_insert_eq]
  · rename_i isdir
    subst made
    by_cases same : q = p
    · subst same; simpa using isdir
    · simp [same]

theorem foldlM_createDir {ps : List Path} {t t' : FileTree}
    (made : ps.foldlM createDir t = .ok t') (q : Path) :
    t'.lookup q = if q ∈ ps then some .dir else t.lookup q := by
  induction ps generalizing t with
  | nil =>
      obtain rfl : t = t' := by simpa [pure, Except.pure] using made
      simp
  | cons p rest ih =>
      rw [List.foldlM_cons] at made
      cases one : createDir t p with
      | error e => simp [one, bind, Except.bind] at made
      | ok next =>
          simp only [one, bind, Except.bind] at made
          rw [ih made]
          by_cases inRest : q ∈ rest <;> by_cases same : q = p <;>
            simp [inRest, same, lookup_createDir one q]

theorem lookup_createDirAll {t t' : FileTree} {p : Path} (made : createDirAll t p = .ok t')
    (q : Path) : t'.lookup q = if q <+: p then some .dir else t.lookup q := by
  have := foldlM_createDir made q
  simpa only [List.mem_inits] using this

theorem foldlM_createDir_ok {ps : List Path} {t : FileTree}
    (clear : ∀ q ∈ ps, ∀ bytes, t.lookup q ≠ some (.file bytes)) :
    ∃ t', ps.foldlM createDir t = .ok t' := by
  induction ps generalizing t with
  | nil => exact ⟨t, rfl⟩
  | cons p rest ih =>
      obtain ⟨next, one, kept⟩ : ∃ next, createDir t p = .ok next ∧
          ∀ q bytes, next.lookup q = some (.file bytes) → t.lookup q = some (.file bytes) := by
        unfold createDir
        cases found : t.lookup p with
        | none =>
            refine ⟨_, rfl, fun q bytes => ?_⟩
            rw [lookup_insert_eq]
            split <;> simp
        | some node =>
            cases node with
            | dir => exact ⟨t, rfl, fun _ _ same => same⟩
            | file bytes => exact absurd found (clear p (by simp) bytes)
      obtain ⟨t', rest_made⟩ := ih (t := next) fun q inRest bytes isFile =>
        clear q (by simp [inRest]) bytes (kept q bytes isFile)
      exact ⟨t', by rw [List.foldlM_cons, one]; exact rest_made⟩

/-- A directory can be made where no prefix of it is a file. -/
theorem createDirAll_ok {t : FileTree} {p : Path}
    (clear : ∀ q, q <+: p → ∀ bytes, t.lookup q ≠ some (.file bytes)) :
    ∃ t', createDirAll t p = .ok t' :=
  foldlM_createDir_ok fun q inside => clear q (by simpa using inside)

theorem foldlM_createDir_clear {ps : List Path} {t t' : FileTree}
    (made : ps.foldlM createDir t = .ok t') :
    ∀ q ∈ ps, ∀ bytes, t.lookup q ≠ some (.file bytes) := by
  induction ps generalizing t with
  | nil => simp
  | cons p rest ih =>
      rw [List.foldlM_cons] at made
      cases one : createDir t p with
      | error e => simp [one, bind, Except.bind] at made
      | ok next =>
          simp only [one, bind, Except.bind] at made
          have here : ∀ bytes, t.lookup p ≠ some (.file bytes) := by
            intro bytes found
            simp [createDir, found] at one
          have kept : ∀ q, q ≠ p → next.lookup q = t.lookup q := by
            intro q ne
            rw [lookup_createDir one q, if_neg ne]
          intro q inside bytes found
          by_cases same : q = p
          · exact here bytes (same ▸ found)
          · rcases List.mem_cons.1 inside with eq | later
            · exact same eq
            · exact ih made q later bytes ((kept q same).trans found)

/-- No directory is made below a file. -/
theorem createDirAll_clear {t t' : FileTree} {p q : Path} (made : createDirAll t p = .ok t')
    (le : q <+: p) (bytes : Bytes) : t.lookup q ≠ some (.file bytes) :=
  foldlM_createDir_clear made q ((List.mem_inits _ _).2 le) bytes

theorem lookup_createFile {t t' : FileTree} {p : Path} (made : createFile t p = .ok t')
    (q : Path) : t'.lookup q = if q = p then some (.file []) else t.lookup q := by
  unfold createFile at made
  split at made
  · simp at made
  · split at made
    · rw [← Except.ok.inj made, lookup_insert_eq]
    · simp at made

theorem lookup_writeAll {t : FileTree} {p : Path} {old : Bytes}
    (isFile : t.lookup p = some (.file old)) (bytes : Bytes) (q : Path) :
    (writeAll t p bytes).lookup q = if q = p then some (.file bytes) else t.lookup q := by
  simp only [writeAll, isFile, lookup_insert_eq]

theorem lookup_writeAll_ne {t : FileTree} {p q : Path} (bytes : Bytes) (ne : q ≠ p) :
    (writeAll t p bytes).lookup q = t.lookup q := by
  unfold writeAll
  split
  · rw [lookup_insert_eq, if_neg ne]
  · rfl

theorem lookup_rename {t t' : FileTree} {p q : Path} (moved : rename t p q = .ok t')
    (r : Path) : ∃ bytes, t.lookup p = some (.file bytes) ∧
      t'.lookup r = if r = q then some (.file bytes) else if r = p then none else t.lookup r := by
  unfold rename at moved
  split at moved
  · rename_i bytes found
    refine ⟨bytes, found, ?_⟩
    split at moved
    · simp at moved
    · split at moved
      · rw [← Except.ok.inj moved, lookup_insert_eq, lookup_erase_eq]
      · simp at moved
  · simp at moved
  · simp at moved

theorem lookup_removeFile {t t' : FileTree} {p : Path} (removed : removeFile t p = .ok t')
    (q : Path) : t'.lookup q = if q = p then none else t.lookup q := by
  unfold removeFile at removed
  split at removed
  · rw [← Except.ok.inj removed, lookup_erase_eq]
  · simp at removed
  · simp at removed

theorem lookup_unlink_ne {t : FileTree} {p q : Path} (ne : q ≠ p) :
    (unlink t p).lookup q = t.lookup q := by
  unfold unlink
  split
  · rfl
  · rw [lookup_erase_eq, if_neg ne]

/-- An unlink takes nodes away and changes no other. -/
theorem lookup_unlink_le {t : FileTree} {p q : Path} {n : Node}
    (kept : (unlink t p).lookup q = some n) : t.lookup q = some n := by
  unfold unlink at kept
  split at kept
  · exact kept
  · rw [lookup_erase_eq] at kept
    split at kept
    · simp at kept
    · exact kept

theorem lookup_unlink_self {t : FileTree} {p : Path}
    (childless : ∀ n, t.lookup (p ++ [n]) = none) : (unlink t p).lookup p = none := by
  have none_inside : children t p = [] := by
    rw [List.eq_nil_iff_forall_not_mem]
    intro n inside
    rw [mem_children, childless n] at inside
    simp at inside
  simp [unlink, none_inside]

/-! ## A walk, and the removal that follows it -/

theorem mem_walk {rank : Path → Nat} {t : FileTree} {p q : Path} :
    q ∈ walk rank t p ↔ p <+: q ∧ (t.lookup q).isSome := by
  simp [walk, List.mem_insertionSort, ← mem_keys_iff, and_comm]

instance walkOrder_total (rank : Path → Nat) : Std.Total (walkOrder rank) :=
  ⟨fun p q => by unfold walkOrder; omega⟩

instance walkOrder_trans (rank : Path → Nat) : IsTrans Path (walkOrder rank) :=
  ⟨fun p q r => by unfold walkOrder; omega⟩

theorem walk_sorted (rank : Path → Nat) (t : FileTree) (p : Path) :
    (walk rank t p).Pairwise (walkOrder rank) :=
  List.pairwise_insertionSort _ _

/-! ## Sizes -/

open Table (weight mem_entries_iff)

/-- The bytes of every file in the tree. -/
def fileBytes (t : FileTree) : Nat := weight (fun _ node => node.size) t

/-- What a node counts for in the directory `d`, files named `skip` left out. -/
def sizeIn (skip : String) (d p : Path) (node : Node) : Nat :=
  match childName d p with
  | some name => if name = skip then 0 else node.size
  | none => 0

/-- The bytes of the files directly in `d`, but for the one named `skip`. -/
def bytesIn (skip : String) (t : FileTree) (d : Path) : Nat := weight (sizeIn skip d) t

theorem sizeIn_le (skip : String) (d p : Path) (node : Node) : sizeIn skip d p node ≤ node.size := by
  unfold sizeIn
  split
  · split <;> omega
  · exact Nat.zero_le _

/-- A directory holds no more than the whole tree. -/
theorem bytesIn_le_fileBytes (skip : String) (t : FileTree) (d : Path) : bytesIn skip t d ≤ fileBytes t :=
  Table.weight_le_weight fun p node _ => sizeIn_le skip d p node

theorem bytesIn_congr {skip : String} {t t' : FileTree} {d : Path}
    (same : ∀ n, n ≠ skip → t.lookup (d ++ [n]) = t'.lookup (d ++ [n])) :
    bytesIn skip t d = bytesIn skip t' d := by
  classical
  refine Table.weight_congr_on (fun p => ∃ n, n ≠ skip ∧ p = d ++ [n]) ?_ ?_
  · intro p node outside
    unfold sizeIn
    split
    · rename_i name named
      rw [if_pos]
      by_contra counted
      exact outside ⟨name, counted, childName_iff.1 named⟩
    · rfl
  · rintro p ⟨n, counted, rfl⟩
    exact same n counted

theorem bytesIn_insert {skip : String} {t : FileTree} {d : Path} {n : String} {bytes : Bytes}
    (absent : t.lookup (d ++ [n]) = none) (counted : n ≠ skip) :
    bytesIn skip (t.insert (d ++ [n]) (.file bytes)) d = bytes.length + bytesIn skip t d := by
  have own : sizeIn skip d (d ++ [n]) (.file bytes) = bytes.length := by
    simp [sizeIn, childName_iff.2 rfl, counted, Node.size]
  rw [bytesIn, Table.weight_insert_new absent, own]
  rfl

theorem bytesIn_eq_zero {skip : String} {t : FileTree} {d : Path}
    (bare : ∀ n, t.lookup (d ++ [n]) = none) : bytesIn skip t d = 0 := by
  apply Table.weight_eq_zero
  intro p node found
  unfold sizeIn
  split
  · rename_i name named
    rw [childName_iff.1 named, bare] at found
    simp at found
  · rfl

/-- The bytes in a directory, summed over its names in any order. -/
theorem sum_children {skip : String} {t : FileTree} {d : Path} {names : List String}
    (listed : names.Perm (children t d)) :
    (names.map fun n => if n = skip then 0 else ((t.lookup (d ++ [n])).map Node.size).getD 0).sum =
      bytesIn skip t d := by
  rw [(listed.map _).sum_eq, children, bytesIn, weight]
  have found : ∀ e ∈ t.entries, t.lookup e.1 = some e.2 := fun e inside =>
    mem_entries_iff.1 inside
  rw [show t.keys = t.entries.map Sigma.fst from rfl]
  generalize t.entries = entries at found
  induction entries with
  | nil => rfl
  | cons e rest ih =>
      have tail := ih fun e' inside => found e' (List.mem_cons_of_mem e inside)
      have head := found e (by simp)
      obtain ⟨p, node⟩ := e
      cases named : childName d p with
      | none =>
          have zero : sizeIn skip d p node = 0 := by simp [sizeIn, named]
          simpa [List.filterMap_cons, named, zero] using tail
      | some name =>
          have own : sizeIn skip d p node = if name = skip then 0 else node.size := by
            simp [sizeIn, named]
          obtain rfl := childName_iff.1 named
          simp only [List.map_cons, List.filterMap_cons, named, List.sum_cons, tail, own] at head ⊢
          simp [head]

/-! ## Sweeps -/

/-- A removal below `d` under way: `left` still lists whatever is there, children
first. -/
structure Sweep (t : FileTree) (d : Path) (left : List Path) : Prop where
  sorted : left.Pairwise fun p q => q.length ≤ p.length
  below : ∀ p ∈ left, d <+: p
  covers : ∀ p, d <+: p → (t.lookup p).isSome → p ∈ left

theorem sweep_walk (rank : Path → Nat) (t : FileTree) (d : Path) : Sweep t d (walk rank t d) where
  sorted := (walk_sorted rank t d).imp fun order => by unfold walkOrder at order; omega
  below p listed := (mem_walk.1 listed).1
  covers p under present := mem_walk.2 ⟨under, present⟩

/-- Nothing added below `d`: the sweep goes on. -/
theorem Sweep.shrink {t t' : FileTree} {d : Path} {left : List Path} (sweep : Sweep t d left)
    (fewer : ∀ p, d <+: p → (t'.lookup p).isSome → (t.lookup p).isSome) : Sweep t' d left :=
  { sweep with covers := fun p under present => sweep.covers p under (fewer p under present) }

/-- The next unlink of a sweep takes its path away: whatever was inside came
before it in the list. -/
theorem Sweep.unlink {t : FileTree} {d q : Path} {left : List Path}
    (sweep : Sweep t d (q :: left)) : Sweep (unlink t q) d left where
  sorted := (List.pairwise_cons.1 sweep.sorted).2
  below p listed := sweep.below p (List.mem_cons_of_mem q listed)
  covers p under present := by
    obtain ⟨node, kept⟩ := Option.isSome_iff_exists.1 present
    have before : (t.lookup p).isSome := by rw [lookup_unlink_le kept]; rfl
    rcases List.mem_cons.1 (sweep.covers p under before) with same | later
    · subst same
      have childless : ∀ n, t.lookup (p ++ [n]) = none := by
        intro n
        by_contra child
        have listed := sweep.covers (p ++ [n]) (under.trans (List.prefix_append p [n]))
          (Option.isSome_iff_ne_none.2 child)
        rcases List.mem_cons.1 listed with same | later
        · simpa using congrArg List.length same
        · have := (List.pairwise_cons.1 sweep.sorted).1 _ later
          simp at this
      rw [lookup_unlink_self childless] at kept
      simp at kept
    · exact later

theorem Sweep.bare {t : FileTree} {d : Path} (sweep : Sweep t d []) {p : Path}
    (under : d <+: p) : t.lookup p = none := by
  by_contra present
  exact absurd (sweep.covers p under (Option.isSome_iff_ne_none.2 present)) (by simp)

/-! ## Closed trees -/

/-- Whatever exists lies in a directory that exists. -/
def Closed (t : FileTree) : Prop :=
  ∀ p n, (t.lookup (p ++ [n])).isSome → isDir t p

theorem Closed.isDir_of_prefix {t : FileTree} (closed : Closed t) {p q : Path}
    (proper : p <+: q) (present : (t.lookup q).isSome) (ne : p ≠ q) : isDir t p := by
  obtain ⟨rest, rfl⟩ := proper
  induction rest using List.reverseRecOn with
  | nil => simp at ne
  | append_singleton rest n ih =>
      rw [← List.append_assoc] at present
      have parent := closed _ _ present
      cases rest with
      | nil => simpa using parent
      | cons m rest => exact ih (by rw [isDir_iff.1 parent]; rfl) (by simp)

/-- Nothing is below what is not there. -/
theorem Closed.lookup_below {t : FileTree} (closed : Closed t) {p : Path} (absent : t.lookup p = none)
    (names : Path) : t.lookup (p ++ names) = none := by
  cases names with
  | nil => rw [List.append_nil, absent]
  | cons n rest =>
      by_contra there
      have parent := closed.isDir_of_prefix (List.prefix_append p (n :: rest))
        (Option.isSome_iff_ne_none.2 there) (by simp)
      rw [isDir_iff, absent] at parent
      cases parent

theorem Closed.createDirAll {t t' : FileTree} {p : Path} (closed : Closed t)
    (made : createDirAll t p = .ok t') : Closed t' := by
  intro q n present
  rw [lookup_createDirAll made] at present
  rw [isDir_iff, lookup_createDirAll made]
  split at present
  · rename_i inside
    rw [if_pos ((List.prefix_append q [n]).trans inside)]
  · have := isDir_iff.1 (closed q n present)
    split
    · rfl
    · exact this

/-- A file put at `p`, in a directory, over no directory. -/
theorem Closed.insertFile {t : FileTree} {p : Path} {bytes : Bytes} (closed : Closed t)
    (parent : isDir t p.dropLast) (target : ¬ isDir t p) :
    Closed (t.insert p (.file bytes)) := by
  intro q n present
  rw [isDir_iff, lookup_insert_eq]
  rw [lookup_insert_eq] at present
  have dir : isDir t q := by
    split at present
    · rename_i same
      have : p.dropLast = q := by rw [← same]; simp
      exact this ▸ parent
    · exact closed q n present
  rw [if_neg fun same : q = p => target (same ▸ dir)]
  exact isDir_iff.1 dir

theorem Closed.eraseFile {t : FileTree} {p : Path} (closed : Closed t) (file : ¬ isDir t p) :
    Closed (t.erase p) := by
  intro q n present
  rw [lookup_erase_eq] at present
  rw [isDir_iff, lookup_erase_eq]
  split at present
  · simp at present
  · have dir := closed q n present
    rw [if_neg fun same : q = p => file (same ▸ dir)]
    exact isDir_iff.1 dir

theorem Closed.createFile {t t' : FileTree} {p : Path} (closed : Closed t)
    (made : createFile t p = .ok t') : Closed t' := by
  unfold FileTree.createFile at made
  split at made
  · simp at made
  · rename_i target
    split at made
    · rename_i parent
      rw [← Except.ok.inj made]
      exact closed.insertFile parent target
    · simp at made

theorem Closed.writeAll {t : FileTree} (closed : Closed t) (p : Path) (bytes : Bytes) :
    Closed (writeAll t p bytes) := by
  intro q n present
  have file_ne : ∀ {r}, isDir t r → r ≠ p ∨ FileTree.writeAll t p bytes = t := by
    intro r dir
    by_cases same : r = p
    · right
      unfold FileTree.writeAll
      rw [← same, isDir_iff.1 dir]
    · exact Or.inl same
  have before : (t.lookup (q ++ [n])).isSome := by
    unfold FileTree.writeAll at present
    split at present
    · rename_i found
      rw [lookup_insert_eq] at present
      split at present
      · rename_i same; rw [same, found]; rfl
      · exact present
    · exact present
  have dir := closed q n before
  rcases file_ne dir with ne | same
  · rw [isDir_iff, lookup_writeAll_ne bytes ne]
    exact isDir_iff.1 dir
  · rw [same]; exact dir

theorem Closed.rename {t t' : FileTree} {p q : Path} (closed : Closed t)
    (moved : rename t p q = .ok t') : Closed t' := by
  unfold FileTree.rename at moved
  split at moved
  · rename_i bytes found
    split at moved
    · simp at moved
    · rename_i target
      split at moved
      · rename_i parent
        have source : ¬ isDir t p := by simp [isDir_iff, found]
        rw [← Except.ok.inj moved]
        refine (closed.eraseFile source).insertFile ?_ ?_
        · rw [isDir_iff, lookup_erase_eq, if_neg fun same : q.dropLast = p => source (same ▸ parent)]
          exact isDir_iff.1 parent
        · rw [isDir_iff, lookup_erase_eq]
          split
          · simp
          · simpa [isDir_iff] using target
      · simp at moved
  · simp at moved
  · simp at moved

theorem Closed.removeFile {t t' : FileTree} {p : Path} (closed : Closed t)
    (removed : removeFile t p = .ok t') : Closed t' := by
  unfold FileTree.removeFile at removed
  split at removed
  · rename_i bytes found
    rw [← Except.ok.inj removed]
    exact closed.eraseFile (by simp [isDir_iff, found])
  · simp at removed
  · simp at removed

theorem Closed.unlink {t : FileTree} (closed : Closed t) (p : Path) : Closed (unlink t p) := by
  intro q n present
  obtain ⟨node, kept⟩ := Option.isSome_iff_exists.1 present
  have dir := closed q n (by rw [lookup_unlink_le kept]; rfl)
  unfold FileTree.unlink at kept ⊢
  split
  · exact dir
  · rename_i removable
    rw [if_neg removable, lookup_erase_eq] at kept
    split at kept
    · simp at kept
    · rw [isDir_iff, lookup_erase_eq]
      split
      · rename_i same
        -- `p` would be a directory with the child `n`, which an unlink leaves alone
        have child : n ∈ children t p := mem_children.2 (by rw [← same, kept]; rfl)
        have full : (children t p).isEmpty = false := by
          rw [List.isEmpty_eq_false_iff_exists_mem]
          exact ⟨n, child⟩
        rw [← same] at full removable
        simp [dir, full] at removable
      · exact isDir_iff.1 dir

end FileTree

end TypstMcp.Theory
