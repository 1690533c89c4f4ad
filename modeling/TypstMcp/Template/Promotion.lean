/-
Template.Promotion -- an accepted template, written to a directory and loaded there

`load` walks a directory behind its own rules: it skips dotfiles and, at the root,
everything named like metadata, and it refuses the reserved prefix in every
component.  `unpack` writes a template's sources under a directory.  The load gives
the template back exactly when the paths of the upload are `Promotable`
(`promotes_iff`).
-/
import TypstMcp.Template.Archive
import TypstMcp.Theory.Frontier

namespace TypstMcp.Template

open TypstMcp.Bundle TypstMcp.Theory TypstMcp.Theory.Json FileTree

set_option autoImplicit false
set_option linter.dupNamespace false

variable {F : Type}

/-! ## Loading a directory -/

/-- The files gathered so far, and the directories still to visit with what their files' paths
start with. -/
structure Gathered where
  files : List BundleFile := []
  walk : List (Path × String) := []

def isHidden (fileName : String) : Bool := ".".toList.isPrefixOf fileName.toList

/-- Dotfiles, and the manifest and fixtures, which are metadata rather than part of the document. -/
def skipped (parent fileName : String) : Bool :=
  isHidden fileName || (parent = "" && (metadataOf fileName).isSome)

def relative (parent fileName : String) : String :=
  if parent = "" then fileName else parent ++ "/" ++ fileName

/-- One turn of the loop over a directory's entries. -/
def gatherEntry (name : String) (t : FileTree) (dir : Path) (parent : String) (gathered : Gathered)
    (fileName : String) : Except TemplateError Gathered :=
  if skipped parent fileName then .ok gathered
  else if isReserved fileName then .error (.reservedName fileName)
  else
    let rel := relative parent fileName
    if isDir t (dir ++ [fileName]) then
      .ok { gathered with walk := gathered.walk ++ [(dir ++ [fileName], rel)] }
    else match normalisePath rel with
      | .error source => .error (.badPath name rel source)
      | .ok _ =>
          match FileTree.read t (dir ++ [fileName]) with
          | .error source => .error (.io (dir ++ [fileName]) source)
          | .ok bytes =>
              .ok { gathered with files := gathered.files ++ [⟨rel, classify rel bytes⟩] }

/-- The loop of `collect_files`; `none` when the fuel is spent. -/
def gather (name : String) (rank : Path → Nat) (t : FileTree) :
    Nat → Gathered → Option (Except TemplateError (List BundleFile))
  | 0, _ => none
  | fuel + 1, gathered =>
      match gathered.walk.getLast? with
      | none => some (.ok (sortFiles gathered.files))
      | some (dir, parent) =>
          match readDir rank t dir with
          | .error source => some (.error (.io dir source))
          | .ok names =>
              match names.foldlM (gatherEntry name t dir parent)
                { gathered with walk := gathered.walk.dropLast } with
              | .error e => some (.error e)
              | .ok next => gather name rank t fuel next

/-- Gather a template's files, rejecting reserved and invalid paths. -/
def collectFiles (rank : Path → Nat) (t : FileTree) (root : Path) (name : String) (fuel : Nat) :
    Option (Except TemplateError (List BundleFile)) :=
  gather name rank t fuel { walk := [(root, "")] }

def isFile (t : FileTree) (path : Path) : Bool :=
  match t.lookup path with
  | some (.file _) => true
  | _ => false

/-- `read`, which reads text. -/
def readText (t : FileTree) (path : Path) : Except TemplateError String :=
  match FileTree.read t path with
  | .error source => .error (.io path source)
  | .ok bytes =>
      match fromUtf8 bytes with
      | none => .error (.io path .invalidData)
      | some text => .ok text

def readOptional (t : FileTree) (path : Path) : Except TemplateError (Option String) :=
  if isFile t path then (readText t path).map some else .ok none

/-- Load a template from a directory. -/
def Template.load (crates : Crates F) (rank : Path → Nat) (t : FileTree) (dir : Path) (fuel : Nat) :
    Option (Except TemplateError (Template F)) :=
  let manifestPath := dir ++ ["template.toml"]
  if isFile t manifestPath = false then some (.error (.noManifest dir))
  else match readText t manifestPath with
    | .error e => some (.error e)
    | .ok manifestToml =>
        (collectFiles rank t dir "<loading>" fuel).map fun collected => do
          let files ← collected
          let schemaJson ← readOptional t (dir ++ ["schema.json"])
          let fixtureJson ← readOptional t (dir ++ ["fixture.json"])
          let fixtureBody ← readOptional t (dir ++ ["fixture.body.typ"])
          assembleFrom crates { manifestToml, files, schemaJson, fixtureJson, fixtureBody }

/-! ## Writing a directory -/

/-- The names a path is made of. -/
def components (path : String) : Path := (segments path).map String.ofList

/-- Write one file at its path under `root`, with the directories above it. -/
def unpackFile (root : Path) (t : FileTree) (file : BundleFile) : Except ErrorKind FileTree := do
  let place := root ++ components file.path
  let t ← createDirAll t place.dropLast
  let t ← createFile t place
  return writeAll t place file.content.asBytes

def unpack (root : Path) (files : List BundleFile) (t : FileTree) : Except ErrorKind FileTree :=
  files.foldlM (unpackFile root) t

/-! ## Paths and names -/

/-- The path these names are joined to. -/
def joined (names : Path) : String := joinSegments (names.map String.toList)

@[simp] theorem joined_components (path : String) : joined (components path) = path := by
  unfold joined components
  rw [List.map_map]
  have same : String.toList ∘ String.ofList = id := funext fun chars => by simp
  rw [same, List.map_id, joinSegments_segments]

theorem components_inj {a b : String} (same : components a = components b) : a = b := by
  rw [← joined_components a, same, joined_components]

theorem components_ne_nil (path : String) : components path ≠ [] := by
  unfold components segments
  simp [List.splitOn_ne_nil]

theorem components_nonempty {path : String} (good : GoodPath path) :
    ∀ name ∈ components path, name ≠ "" := by
  intro name inside
  obtain ⟨segment, given, rfl⟩ := List.mem_map.1 inside
  have := (good.parts segment given).1
  simpa using this

theorem intercalate_snoc {sep last : List Char} :
    ∀ {init : List (List Char)}, init ≠ [] →
      sep.intercalate (init ++ [last]) = sep.intercalate init ++ sep ++ last
  | [_], _ => by simp
  | first :: second :: rest, _ => by
      have := @intercalate_snoc sep last (second :: rest) (by simp)
      simp only [List.cons_append, List.intercalate_cons_cons, List.append_assoc] at this ⊢
      rw [this]

theorem joined_eq_empty {names : Path} (nonempty : ∀ n ∈ names, n ≠ "") :
    joined names = "" ↔ names = [] := by
  constructor
  · intro none
    cases names with
    | nil => rfl
    | cons first rest =>
        have filled : first.toList ≠ [] := by simpa using nonempty first List.mem_cons_self
        obtain ⟨c, chars, spelled⟩ := List.exists_cons_of_ne_nil filled
        unfold joined joinSegments at none
        rw [List.map_cons, spelled] at none
        have := congrArg String.toList none
        simp at this
  · rintro rfl
    rfl

/-- A path grows by a name as the loop joins it. -/
theorem relative_joined {names : Path} {name : String} (nonempty : ∀ n ∈ names, n ≠ "") :
    relative (joined names) name = joined (names ++ [name]) := by
  unfold relative
  split_ifs with none
  · rw [(joined_eq_empty nonempty).1 none]
    simp [joined, joinSegments]
  · have some : names.map String.toList ≠ [] := by
      rintro empty
      exact none ((joined_eq_empty nonempty).2 (List.map_eq_nil_iff.1 empty))
    unfold joined joinSegments
    rw [List.map_append, List.map_singleton, intercalate_snoc some, String.ofList_append,
      String.ofList_append, String.ofList_toList]

/-! ## Unpacking -/

/-- A directory with nothing in it. -/
structure EmptyDir (t : FileTree) (root : Path) : Prop where
  above : ∀ q, q <+: root → t.lookup q = some .dir
  bare : ∀ names, names ≠ [] → t.lookup (root ++ names) = none

/-- The tree below `root` holds these files and the directories above them. -/
structure Unpacked (t : FileTree) (root : Path) (files : List BundleFile) : Prop where
  above : ∀ q, q <+: root → t.lookup q = some .dir
  file : ∀ names bytes, t.lookup (root ++ names) = some (.file bytes) ↔
    ∃ f ∈ files, components f.path = names ∧ f.content.asBytes = bytes
  dir : ∀ names, t.lookup (root ++ names) = some .dir ↔
    names = [] ∨ ∃ f ∈ files, names <+: components f.path ∧ names ≠ components f.path

theorem EmptyDir.unpacked {t : FileTree} {root : Path} (empty : EmptyDir t root) :
    Unpacked t root [] where
  above := empty.above
  file names bytes := by
    cases names with
    | nil => rw [List.append_nil, empty.above root List.prefix_rfl]; simp
    | cons n rest => simp [empty.bare (n :: rest) (by simp)]
  dir names := by
    cases names with
    | nil => rw [List.append_nil, empty.above root List.prefix_rfl]; simp
    | cons n rest => simp [empty.bare (n :: rest) (by simp)]

theorem lookup_unpackFile {t t' : FileTree} {root : Path} {file : BundleFile}
    (made : unpackFile root t file = .ok t') (q : Path) :
    t'.lookup q =
      if q = root ++ components file.path then some (.file file.content.asBytes)
      else if q <+: (root ++ components file.path).dropLast then some .dir else t.lookup q := by
  unfold unpackFile at made
  obtain ⟨t₁, dirs, made⟩ := bind_eq_ok.1 made
  obtain ⟨t₂, created, made⟩ := bind_eq_ok.1 made
  obtain rfl := pure_eq_ok.1 made
  have empty := lookup_createFile created (root ++ components file.path)
  rw [if_pos rfl] at empty
  rw [lookup_writeAll empty, lookup_createFile created, lookup_createDirAll dirs]
  by_cases here : q = root ++ components file.path
  · rw [if_pos here, if_pos here]
  · rw [if_neg here, if_neg here, if_neg here]

section Unpack

variable {t t' : FileTree} {root : Path} {files : List BundleFile} {f : BundleFile}

/-- Where a file goes: below the directory of all its names but the last. -/
theorem place_dropLast (root : Path) (path : String) :
    ∃ init last, components path = init ++ [last] ∧
      (root ++ components path).dropLast = root ++ init := by
  obtain ⟨init, last, split⟩ : ∃ init last, components path = init ++ [last] :=
    ⟨_, _, (List.dropLast_append_getLast (components_ne_nil path)).symm⟩
  refine ⟨init, last, split, ?_⟩
  rw [split, ← List.append_assoc, List.dropLast_concat]

/-- A file that is written is apart from those written before. -/
theorem unpackFile_apart (unpacked : Unpacked t root files)
    (fresh : f.path ∉ files.map BundleFile.path) (made : unpackFile root t f = .ok t') :
    ∀ g ∈ files, Apart (components g.path) (components f.path) := by
  obtain ⟨init, last, split, place⟩ := place_dropLast root f.path
  unfold unpackFile at made
  obtain ⟨t₁, dirs, made⟩ := bind_eq_ok.1 made
  obtain ⟨t₂, created, -⟩ := bind_eq_ok.1 made
  rw [place] at dirs
  intro g inside
  have ne : components g.path ≠ components f.path := fun same =>
    fresh (List.mem_map.2 ⟨g, inside, components_inj same⟩)
  constructor
  · intro le
    rw [split] at le ne
    rcases List.prefix_concat_iff.1 le with same | le
    · exact ne same
    · exact createDirAll_clear dirs ((List.prefix_append_right_inj root).2 le) _
        ((unpacked.file _ _).2 ⟨g, inside, rfl, rfl⟩)
  · intro le
    have old : t.lookup (root ++ components f.path) = some .dir :=
      (unpacked.dir _).2 (.inr ⟨g, inside, le, ne.symm⟩)
    have still : isDir t₁ (root ++ components f.path) = true := by
      rw [isDir_iff, lookup_createDirAll dirs, old]
      split_ifs <;> rfl
    simp [createFile, still] at created

/-- **One file more.** -/
theorem Unpacked.step (unpacked : Unpacked t root files)
    (fresh : f.path ∉ files.map BundleFile.path) (made : unpackFile root t f = .ok t') :
    Unpacked t' root (files ++ [f]) := by
  have apart := unpackFile_apart unpacked fresh made
  obtain ⟨init, last, split, place⟩ := place_dropLast root f.path
  have lookup : ∀ names, t'.lookup (root ++ names) =
      if names = components f.path then some (.file f.content.asBytes)
      else if names <+: init then some .dir else t.lookup (root ++ names) := by
    intro names
    rw [lookup_unpackFile made, place]
    simp only [List.append_cancel_left_eq, List.prefix_append_right_inj]
  have lower : ∀ names, names <+: init → names <+: components f.path ∧
      names ≠ components f.path := by
    intro names le
    refine ⟨split ▸ le.trans (List.prefix_append init [last]), ?_⟩
    rintro rfl
    have := le.length_le
    rw [split, List.length_append] at this
    simp at this
  have proper : ∀ names, names <+: components f.path → names ≠ components f.path →
      names <+: init := by
    intro names le ne
    rw [split] at le ne
    exact (List.prefix_concat_iff.1 le).resolve_left ne
  refine ⟨?_, ?_, ?_⟩
  · intro q le
    have ne : q ≠ root ++ components f.path := by
      rintro rfl
      have := le.length_le
      rw [List.length_append, split] at this
      simp at this
    rw [lookup_unpackFile made, if_neg ne, place, unpacked.above q le]
    split_ifs <;> rfl
  · intro names bytes
    rw [lookup]
    split_ifs with here below
    · subst here
      constructor
      · rintro ⟨⟩
        exact ⟨f, by simp, rfl, rfl⟩
      · rintro ⟨g, inside, same, rfl⟩
        rcases List.mem_append.1 inside with old | new
        · exact absurd (same ▸ List.prefix_rfl) (apart g old).1
        · rw [List.mem_singleton.1 new]
    · constructor
      · rintro ⟨⟩
      · rintro ⟨g, inside, rfl, -⟩
        obtain ⟨le, ne⟩ := lower _ below
        rcases List.mem_append.1 inside with old | new
        · exact absurd le (apart g old).1
        · exact absurd (List.mem_singleton.1 new ▸ rfl) ne
    · rw [unpacked.file]
      constructor
      · rintro ⟨g, inside, same, bytes⟩
        exact ⟨g, List.mem_append_left _ inside, same, bytes⟩
      · rintro ⟨g, inside, same, bytes⟩
        rcases List.mem_append.1 inside with old | new
        · exact ⟨g, old, same, bytes⟩
        · rw [List.mem_singleton.1 new] at same
          exact absurd same.symm here
  · intro names
    rw [lookup]
    split_ifs with here below
    · subst here
      constructor
      · rintro ⟨⟩
      · rintro (none | ⟨g, inside, le, ne⟩)
        · exact absurd none (components_ne_nil _)
        · rcases List.mem_append.1 inside with old | new
          · exact absurd le (apart g old).2
          · exact absurd (List.mem_singleton.1 new ▸ rfl) ne
    · obtain ⟨le, ne⟩ := lower _ below
      exact iff_of_true rfl (.inr ⟨f, by simp, le, ne⟩)
    · rw [unpacked.dir]
      constructor
      · rintro (none | ⟨g, inside, le, ne⟩)
        · exact .inl none
        · exact .inr ⟨g, List.mem_append_left _ inside, le, ne⟩
      · rintro (none | ⟨g, inside, le, ne⟩)
        · exact .inl none
        · rcases List.mem_append.1 inside with old | new
          · exact .inr ⟨g, old, le, ne⟩
          · rw [List.mem_singleton.1 new] at le ne
            exact absurd (proper names le ne) below

/-- A file apart from those written before can be written. -/
theorem unpackFile_ok (unpacked : Unpacked t root files)
    (apart : ∀ g ∈ files, Apart (components g.path) (components f.path)) :
    ∃ t', unpackFile root t f = .ok t' := by
  obtain ⟨init, last, split, place⟩ := place_dropLast root f.path
  have clear : ∀ q, q <+: root ++ init → ∀ bytes, t.lookup q ≠ some (.file bytes) := by
    intro q le bytes found
    rcases List.prefix_or_prefix_of_prefix le (List.prefix_append root init) with above | below
    · rw [unpacked.above q above] at found
      cases found
    · obtain ⟨names, rfl⟩ := below
      obtain ⟨g, inside, rfl, -⟩ := (unpacked.file _ _).1 found
      have le := (List.prefix_append_right_inj root).1 le
      exact (apart g inside).1 (split ▸ le.trans (List.prefix_append init [last]))
  obtain ⟨t₁, dirs⟩ := createDirAll_ok clear
  have notDir : isDir t₁ (root ++ components f.path) = false := by
    rw [Bool.eq_false_iff]
    intro is
    rw [isDir_iff, lookup_createDirAll dirs] at is
    split_ifs at is with low
    · have := ((List.prefix_append_right_inj root).1 low).length_le
      rw [split] at this
      simp at this
    · rcases (unpacked.dir _).1 is with none | ⟨g, inside, le, -⟩
      · exact components_ne_nil _ none
      · exact (apart g inside).2 le
  have parent : isDir t₁ (root ++ components f.path).dropLast = true := by
    rw [isDir_iff, lookup_createDirAll dirs, place, if_pos List.prefix_rfl]
  refine ⟨_, bind_eq_ok.2 ⟨t₁, place ▸ dirs, bind_eq_ok.2
    ⟨t₁.insert (root ++ components f.path) (.file []), ?_, rfl⟩⟩⟩
  simp [createFile, notDir, parent]

theorem path_fresh {done rest : List BundleFile}
    (distinct : ((done ++ f :: rest).map BundleFile.path).Nodup) :
    f.path ∉ done.map BundleFile.path := by
  intro inside
  rw [List.map_append, List.map_cons, List.nodup_append] at distinct
  exact distinct.2.2 _ inside _ List.mem_cons_self rfl

theorem unpack_unpacked {done : List BundleFile} (unpacked : Unpacked t root done)
    (distinct : ((done ++ files).map BundleFile.path).Nodup)
    (made : unpack root files t = .ok t') :
    Unpacked t' root (done ++ files) ∧
      (∀ g ∈ done, ∀ f ∈ files, Apart (components g.path) (components f.path)) ∧
      files.Pairwise fun g f => Apart (components g.path) (components f.path) := by
  induction files generalizing t done with
  | nil =>
      cases made
      rw [List.append_nil]
      exact ⟨unpacked, by simp, .nil⟩
  | cons f rest ih =>
      unfold unpack at made
      rw [List.foldlM_cons, bind_eq_ok] at made
      obtain ⟨next, first, made⟩ := made
      have fresh := path_fresh distinct
      rw [← List.singleton_append, ← List.append_assoc] at distinct ⊢
      obtain ⟨all, before, after⟩ := ih (unpacked.step fresh first) distinct made
      refine ⟨all, ?_, List.pairwise_cons.2 ⟨before f (by simp), after⟩⟩
      intro g inside f' listed
      rcases List.mem_cons.1 listed with rfl | later
      · exact unpackFile_apart unpacked fresh first g inside
      · exact before g (List.mem_append_left _ inside) f' later

theorem unpack_ok {done : List BundleFile} (unpacked : Unpacked t root done)
    (distinct : ((done ++ files).map BundleFile.path).Nodup)
    (before : ∀ g ∈ done, ∀ f ∈ files, Apart (components g.path) (components f.path))
    (after : files.Pairwise fun g f => Apart (components g.path) (components f.path)) :
    ∃ t', unpack root files t = .ok t' := by
  induction files generalizing t done with
  | nil => exact ⟨t, rfl⟩
  | cons f rest ih =>
      obtain ⟨here, later⟩ := List.pairwise_cons.1 after
      obtain ⟨next, first⟩ := unpackFile_ok unpacked fun g inside =>
        before g inside f List.mem_cons_self
      have fresh := path_fresh distinct
      rw [← List.singleton_append, ← List.append_assoc] at distinct
      obtain ⟨t', rest⟩ := ih (unpacked.step fresh first) distinct (by
        intro g inside f' listed
        rcases List.mem_append.1 inside with old | new
        · exact before g old f' (List.mem_cons_of_mem _ listed)
        · exact List.mem_singleton.1 new ▸ here f' listed) later
      exact ⟨t', by rw [unpack, List.foldlM_cons, bind_eq_ok]; exact ⟨next, first, rest⟩⟩

end Unpack

/-! ## What the walk gathers -/

/-- Names no rule of the walk looks at. -/
structure Plain (names : Path) : Prop where
  shown : ∀ name ∈ names, isHidden name = false
  unreserved : ∀ name ∈ names, isReserved name = false
  document : ∀ name ∈ names.head?, metadataOf name = none

theorem Plain.snoc {names : Path} {name : String} (plain : Plain names)
    (shown : isHidden name = false) (unreserved : isReserved name = false)
    (document : names = [] → metadataOf name = none) : Plain (names ++ [name]) where
  shown := by
    intro n inside
    rcases List.mem_append.1 inside with old | new
    · exact plain.shown n old
    · exact List.mem_singleton.1 new ▸ shown
  unreserved := by
    intro n inside
    rcases List.mem_append.1 inside with old | new
    · exact plain.unreserved n old
    · exact List.mem_singleton.1 new ▸ unreserved
  document := by
    cases names with
    | nil =>
        intro n first
        obtain rfl : name = n := Option.some.inj first
        exact document rfl
    | cons first rest => exact plain.document

theorem gatherEntry_eq_ok {name : String} {t : FileTree} {dir : Path} {parent fileName : String}
    {gathered next : Gathered} :
    gatherEntry name t dir parent gathered fileName = .ok next ↔
      if skipped parent fileName then next = gathered
      else isReserved fileName = false ∧
        if isDir t (dir ++ [fileName]) then
          next = { gathered with
            walk := gathered.walk ++ [(dir ++ [fileName], relative parent fileName)] }
        else GoodPath (relative parent fileName) ∧
          ∃ bytes, t.lookup (dir ++ [fileName]) = some (.file bytes) ∧
            next = { gathered with
              files := gathered.files ++
                [⟨relative parent fileName, classify (relative parent fileName) bytes⟩] } := by
  unfold gatherEntry
  by_cases skip : skipped parent fileName = true
  · rw [if_pos skip, if_pos skip, Except.ok.injEq, eq_comm]
  rw [if_neg skip, if_neg skip]
  by_cases reserved : isReserved fileName = true
  · simp [reserved]
  rw [if_neg reserved]
  simp only [reserved, true_and]
  by_cases directory : isDir t (dir ++ [fileName]) = true
  · rw [if_pos directory, if_pos directory, Except.ok.injEq, eq_comm]
  rw [if_neg directory, if_neg directory]
  cases checked : normalisePath (relative parent fileName) with
  | error source =>
      have bad : ¬ GoodPath (relative parent fileName) := fun good => by
        rw [normalisePath_good good] at checked; cases checked
      simp [bad]
  | ok path =>
      simp only [(normalisePath_eq_ok.1 checked).1, true_and]
      cases found : t.lookup (dir ++ [fileName]) with
      | none => simp [FileTree.read, found]
      | some node =>
          cases node with
          | dir => exact absurd (isDir_iff.2 found) directory
          | file bytes => simp [FileTree.read, found, eq_comm]

/-- Every directory on the walk is below `root`, and every file is a source. -/
structure Gathering (t : FileTree) (root : Path) (sources : List BundleFile) (gathered : Gathered) :
    Prop where
  walk : ∀ w ∈ gathered.walk, ∃ names, w = (root ++ names, joined names) ∧ Plain names ∧
    t.lookup (root ++ names) = some .dir
  files : ∀ g ∈ gathered.files, ∃ s ∈ sources, Plain (components s.path) ∧ g = recode (member s)

section Walk

variable {t : FileTree} {root : Path} {sources : List BundleFile} {gathered next : Gathered}
  {name : String} {rank : Path → Nat}

/-- A walk begins at the root. -/
theorem Unpacked.start (unpacked : Unpacked t root sources) :
    Gathering t root sources { walk := [(root, "")] } := by
  refine ⟨?_, by simp⟩
  intro w inside
  obtain rfl := List.mem_singleton.1 inside
  exact ⟨[], by simp [joined, joinSegments], ⟨by simp, by simp, by simp⟩,
    (unpacked.dir []).2 (.inl rfl)⟩

theorem Unpacked.nonempty (unpacked : Unpacked t root sources)
    (good : ∀ s ∈ sources, GoodPath s.path) {names : Path}
    (there : t.lookup (root ++ names) ≠ none) : ∀ n ∈ names, n ≠ "" := by
  obtain ⟨node, found⟩ := Option.ne_none_iff_exists'.1 there
  cases node with
  | dir =>
      rcases (unpacked.dir names).1 found with rfl | ⟨s, inside, le, -⟩
      · simp
      · exact fun n listed => components_nonempty (good s inside) n (le.subset listed)
  | file bytes =>
      obtain ⟨s, inside, rfl, -⟩ := (unpacked.file names bytes).1 found
      exact components_nonempty (good s inside)

theorem Gathering.entry (unpacked : Unpacked t root sources)
    (good : ∀ s ∈ sources, GoodPath s.path) (gathering : Gathering t root sources gathered)
    {names : Path} (plain : Plain names) (is : t.lookup (root ++ names) = some .dir)
    {fileName : String}
    (ok : gatherEntry name t (root ++ names) (joined names) gathered fileName = .ok next) :
    Gathering t root sources next := by
  have nonempty := unpacked.nonempty good (by rw [is]; exact Option.some_ne_none _)
  have ok := gatherEntry_eq_ok.1 ok
  rw [relative_joined nonempty, List.append_assoc] at ok
  split_ifs at ok with skip directory
  · exact ok ▸ gathering
  · obtain ⟨unreserved, rfl⟩ := ok
    obtain ⟨shown, document⟩ : isHidden fileName = false ∧
        (names = [] → metadataOf fileName = none) := by
      simpa [skipped, joined_eq_empty nonempty] using skip
    refine ⟨?_, gathering.files⟩
    intro w inside
    rcases List.mem_append.1 inside with old | new
    · exact gathering.walk w old
    · exact ⟨names ++ [fileName], List.mem_singleton.1 new,
        plain.snoc shown unreserved document, isDir_iff.1 directory⟩
  · obtain ⟨unreserved, -, bytes, found, rfl⟩ := ok
    obtain ⟨shown, document⟩ : isHidden fileName = false ∧
        (names = [] → metadataOf fileName = none) := by
      simpa [skipped, joined_eq_empty nonempty] using skip
    obtain ⟨s, inside, same, rfl⟩ := (unpacked.file _ _).1 found
    refine ⟨gathering.walk, ?_⟩
    intro g listed
    rcases List.mem_append.1 listed with old | new
    · exact gathering.files g old
    · refine ⟨s, inside, same ▸ plain.snoc shown unreserved document, ?_⟩
      rw [List.mem_singleton.1 new, ← same, joined_components]
      rfl

theorem Gathering.entries (unpacked : Unpacked t root sources)
    (good : ∀ s ∈ sources, GoodPath s.path) (gathering : Gathering t root sources gathered)
    {names : Path} (plain : Plain names) (is : t.lookup (root ++ names) = some .dir)
    {listed : List String}
    (ok : listed.foldlM (gatherEntry name t (root ++ names) (joined names)) gathered = .ok next) :
    Gathering t root sources next := by
  induction listed generalizing gathered with
  | nil => cases ok; exact gathering
  | cons n rest ih =>
      rw [List.foldlM_cons, bind_eq_ok] at ok
      obtain ⟨middle, first, ok⟩ := ok
      exact ih (gathering.entry unpacked good plain is first) ok

/-- **Only plain sources are gathered.** -/
theorem gather_sound (unpacked : Unpacked t root sources) (good : ∀ s ∈ sources, GoodPath s.path)
    (gathering : Gathering t root sources gathered) {fuel : Nat} {files : List BundleFile}
    (ok : gather name rank t fuel gathered = some (.ok files)) :
    ∀ g ∈ files, ∃ s ∈ sources, Plain (components s.path) ∧ g = recode (member s) := by
  induction fuel generalizing gathered with
  | zero => cases ok
  | succ fuel ih =>
      rw [gather] at ok
      cases last : gathered.walk.getLast? with
      | none =>
          rw [last] at ok
          obtain rfl : sortFiles gathered.files = files := by simpa using ok
          exact fun g inside => gathering.files g (mem_sortFiles.1 inside)
      | some w =>
          obtain ⟨names, rfl, plain, is⟩ := gathering.walk w (List.mem_of_getLast? last)
          rw [last] at ok
          simp only at ok
          split at ok
          · cases ok
          · split at ok
            · cases ok
            · rename_i next entries
              have left : Gathering t root sources
                  { gathered with walk := gathered.walk.dropLast } :=
                ⟨fun w inside => gathering.walk w (List.dropLast_subset _ inside), gathering.files⟩
              exact ih (left.entries unpacked good plain is entries) ok

end Walk

/-! ## The walk gathers every document file -/

/-- Paths a directory can hold and a load takes: no file where another path has a directory, and
nothing in a document's names that the walk would skip or refuse. -/
structure Promotable (paths : List String) : Prop where
  apart : ∀ p ∈ paths, ∀ q ∈ paths, components p <+: components q → p = q
  plain : ∀ path ∈ paths, metadataOf path = none → Plain (components path)

theorem components_metadata (slot : Metadata) : components slot.path = [slot.path] := by
  cases slot <;> decide +kernel

section Complete

variable {t : FileTree} {root : Path} {sources : List BundleFile} {gathered next : Gathered}
  {name : String} {rank : Path → Nat}

/-- Where the document's files are. -/
def IsDocument (root : Path) (sources : List BundleFile) (place : Path) : Prop :=
  ∃ s ∈ sources, metadataOf s.path = none ∧ place = root ++ components s.path

/-- What the walk has left and has found, as places in the tree. -/
def pending (gathered : Gathered) : List Path := gathered.walk.map Prod.fst

def found (root : Path) (gathered : Gathered) : List Path :=
  gathered.files.map fun g => root ++ components g.path

/-- What a walk over an unpacked template relies on. -/
structure Walkable (t : FileTree) (root : Path) (sources : List BundleFile) : Prop where
  unpacked : Unpacked t root sources
  good : ∀ s ∈ sources, GoodPath s.path
  promotable : Promotable (sources.map BundleFile.path)

theorem Walkable.apart (walkable : Walkable t root sources) {g s : BundleFile} (gs : g ∈ sources)
    (ss : s ∈ sources) (le : components g.path <+: components s.path) : g.path = s.path :=
  walkable.promotable.apart _ (List.mem_map_of_mem gs) _ (List.mem_map_of_mem ss) le

theorem Walkable.plain (walkable : Walkable t root sources) {s : BundleFile} (inside : s ∈ sources)
    (document : metadataOf s.path = none) : Plain (components s.path) :=
  walkable.promotable.plain _ (List.mem_map_of_mem inside) document

/-- A name on the way to a document's file is not skipped and not refused. -/
theorem Plain.seen {names rest : Path} {fileName : String}
    (plain : Plain (names ++ fileName :: rest)) (nonempty : ∀ n ∈ names, n ≠ "") :
    skipped (joined names) fileName = false ∧ isReserved fileName = false := by
  have shown := plain.shown fileName (by simp)
  refine ⟨?_, plain.unreserved fileName (by simp)⟩
  cases names with
  | nil =>
      have document := plain.document fileName rfl
      simp [skipped, shown, document]
  | cons first more =>
      have some : joined (first :: more) ≠ "" := fun none =>
        List.cons_ne_nil _ _ ((joined_eq_empty nonempty).1 none)
      simp [skipped, shown, some]

/-- **One entry.**  It is skipped when it is metadata, put on the walk when it is a directory, and
found when it is a document's file. -/
theorem gatherEntry_ok (walkable : Walkable t root sources) {names : Path} {fileName : String}
    (is : t.lookup (root ++ names) = some .dir)
    (there : t.lookup (root ++ names ++ [fileName]) ≠ none) {rest : List Path}
    (frontier : Frontier (IsDocument root sources)
      ((root ++ names ++ [fileName]) :: (rest ++ pending gathered)) (found root gathered)) :
    ∃ next, gatherEntry name t (root ++ names) (joined names) gathered fileName = .ok next ∧
      Frontier (IsDocument root sources) (rest ++ pending next) (found root next) ∧
      ∀ p ∈ pending next, p ∈ pending gathered ∨ p = root ++ names ++ [fileName] := by
  obtain ⟨unpacked, good, -⟩ := id walkable
  have nonempty := unpacked.nonempty good (by rw [is]; exact Option.some_ne_none _)
  have rel := @relative_joined names fileName nonempty
  rw [List.append_assoc] at there frontier ⊢
  obtain ⟨node, lookup⟩ := Option.ne_none_iff_exists'.1 there
  cases node with
  | dir =>
      rcases (unpacked.dir _).1 lookup with none | ⟨s, inside, le, ne⟩
      · simp at none
      obtain ⟨lower, split⟩ := id le
      have more : lower ≠ [] := by
        rintro rfl
        exact ne (by simpa using split)
      have document : metadataOf s.path = none := by
        rw [Option.eq_none_iff_forall_ne_some]
        intro slot named
        have single := congrArg List.length (components_metadata slot)
        rw [← metadataOf_eq_some.1 named, ← split] at single
        have := List.length_pos_iff.2 more
        simp only [List.length_append, List.length_singleton] at single
        omega
      have plain := walkable.plain inside document
      rw [← split, List.append_assoc] at plain
      obtain ⟨shown, unreserved⟩ := Plain.seen plain nonempty
      refine ⟨{ gathered with
          walk := gathered.walk ++ [(root ++ (names ++ [fileName]), joined (names ++ [fileName]))] },
        gatherEntry_eq_ok.2 ?_, ?_, ?_⟩
      · rw [if_neg (by simp [shown]), List.append_assoc, if_pos (isDir_iff.2 lookup), rel]
        exact ⟨unreserved, rfl⟩
      · refine Frontier.perm frontier ?_
        simp only [pending, List.map_append, List.map_singleton]
        rw [← List.append_assoc rest]
        exact (List.perm_append_singleton _ _).symm
      · intro p listed
        simpa [pending] using listed
  | file bytes =>
      obtain ⟨s, inside, same, rfl⟩ := (unpacked.file _ _).1 lookup
      have only : ∀ g ∈ sources, names ++ [fileName] <+: components g.path → g.path = s.path :=
        fun g listed le => (walkable.apart inside listed (same ▸ le)).symm
      cases document : metadataOf s.path with
      | some slot =>
          have whole := components_metadata slot
          rw [← metadataOf_eq_some.1 document, same] at whole
          obtain ⟨rfl, rfl⟩ : names = [] ∧ fileName = s.path := by
            have length := congrArg List.length whole
            rw [List.length_append, List.length_singleton, List.length_singleton] at length
            obtain rfl := List.length_eq_zero_iff.1 (Nat.add_eq_right.1 length)
            exact ⟨rfl, by simpa using whole⟩
          have skip : skipped (joined []) s.path = true := by
            simp [skipped, joined, joinSegments, document]
          refine ⟨gathered, gatherEntry_eq_ok.2 (by rw [if_pos skip]), ?_, fun p listed => .inl listed⟩
          refine Frontier.skip frontier ?_
          rintro place ⟨g, listed, other, rfl⟩ le
          rw [only g listed ((List.prefix_append_right_inj root).1 le), document] at other
          cases other
      | none =>
          obtain ⟨shown, unreserved⟩ := @Plain.seen names [] fileName
            (same ▸ walkable.plain inside document) nonempty
          have path : joined (names ++ [fileName]) = s.path := by rw [← same, joined_components]
          refine ⟨{ gathered with files := gathered.files ++ [recode (member s)] },
            gatherEntry_eq_ok.2 ?_, ?_, fun p listed => .inl listed⟩
          · rw [if_neg (by simp [shown]), List.append_assoc, rel, path,
              if_neg (by rw [isDir_iff, lookup]; simp)]
            exact ⟨unreserved, good s inside, _, lookup, rfl⟩
          · have placed : found root { gathered with files := gathered.files ++ [recode (member s)] } =
                found root gathered ++ [root ++ (names ++ [fileName])] := by
              simp only [found, List.map_append, List.map_singleton, ← same]
              rfl
            rw [placed]
            refine Frontier.take frontier ⟨s, inside, document, by rw [same]⟩ ?_
            rintro place ⟨g, listed, -, rfl⟩ le
            rw [only g listed ((List.prefix_append_right_inj root).1 le), same]

theorem gatherEntries_ok (walkable : Walkable t root sources) {names : Path}
    (is : t.lookup (root ++ names) = some .dir) {listed : List String}
    (there : ∀ n ∈ listed, t.lookup (root ++ names ++ [n]) ≠ none)
    (frontier : Frontier (IsDocument root sources)
      (listed.map (fun n => root ++ names ++ [n]) ++ pending gathered) (found root gathered)) :
    ∃ next, listed.foldlM (gatherEntry name t (root ++ names) (joined names)) gathered = .ok next ∧
      Frontier (IsDocument root sources) (pending next) (found root next) ∧
      ∀ p ∈ pending next, p ∈ pending gathered ∨ ∃ n, p = root ++ names ++ [n] := by
  induction listed generalizing gathered with
  | nil => exact ⟨gathered, rfl, frontier, fun p inside => .inl inside⟩
  | cons n rest ih =>
      obtain ⟨here, later⟩ := List.forall_mem_cons.1 there
      obtain ⟨middle, first, frontier, added⟩ :=
        @gatherEntry_ok _ _ _ _ name walkable _ _ is here _ frontier
      obtain ⟨next, others, frontier, more⟩ := ih later frontier
      refine ⟨next, ?_, frontier, ?_⟩
      · rw [List.foldlM_cons, bind_eq_ok]
        exact ⟨middle, first, others⟩
      · intro p inside
        rcases more p inside with old | new
        · rcases added p old with old | new
          · exact .inl old
          · exact .inr ⟨n, new⟩
        · exact .inr new

theorem mem_readDir {dir : Path} {listed : List String} (read : readDir rank t dir = .ok listed)
    {n : String} : n ∈ listed ↔ t.lookup (dir ++ [n]) ≠ none := by
  unfold readDir at read
  split_ifs at read
  cases read
  rw [List.mem_insertionSort, mem_children, Option.isSome_iff_ne_none]

theorem readDir_nodup {dir : Path} {listed : List String}
    (read : readDir rank t dir = .ok listed) : listed.Nodup := by
  unfold readDir at read
  split_ifs at read
  cases read
  exact (List.perm_insertionSort _ _).nodup_iff.2 (children_nodup t dir)

/-- A document's file below a directory is below one of its entries. -/
theorem Unpacked.child (unpacked : Unpacked t root sources) {names place : Path}
    (is : t.lookup (root ++ names) = some .dir) (document : IsDocument root sources place)
    (le : root ++ names <+: place) :
    ∃ n, t.lookup (root ++ names ++ [n]) ≠ none ∧ root ++ names ++ [n] <+: place := by
  obtain ⟨s, inside, -, rfl⟩ := document
  have le := (List.prefix_append_right_inj root).1 le
  obtain ⟨lower, split⟩ := id le
  cases lower with
  | nil =>
      rw [List.append_nil] at split
      rw [split, (unpacked.file _ _).2 ⟨s, inside, rfl, rfl⟩] at is
      cases is
  | cons n rest =>
      have down : names ++ [n] <+: components s.path := ⟨rest, by simpa using split⟩
      refine ⟨n, ?_⟩
      rw [List.append_assoc]
      refine ⟨?_, (List.prefix_append_right_inj root).2 down⟩
      by_cases whole : names ++ [n] = components s.path
      · rw [(unpacked.file _ _).2 ⟨s, inside, whole.symm, rfl⟩]
        exact Option.some_ne_none _
      · rw [(unpacked.dir _).2 (.inr ⟨s, inside, down, whole⟩)]
        exact Option.some_ne_none _

/-- **The walk ends, with every document's file found.** -/
theorem gather_ok (walkable : Walkable t root sources)
    (gathering : Gathering t root sources gathered)
    (frontier : Frontier (IsDocument root sources) (pending gathered) (found root gathered))
    {fuel : Nat} (enough : uncovered t (pending gathered) < fuel) :
    ∃ last, gather name rank t fuel gathered = some (.ok (sortFiles last.files)) ∧
      Gathering t root sources last ∧
      Frontier (IsDocument root sources) [] (found root last) := by
  induction fuel generalizing gathered with
  | zero => exact absurd enough (Nat.not_lt_zero _)
  | succ fuel ih =>
      rw [gather]
      cases last : gathered.walk.getLast? with
      | none =>
          have empty := List.getLast?_eq_none_iff.1 last
          rw [pending, empty, List.map_nil] at frontier
          exact ⟨gathered, rfl, gathering, frontier⟩
      | some w =>
          obtain ⟨names, rfl, plain, is⟩ := gathering.walk w (List.mem_of_getLast? last)
          have left : Gathering t root sources { gathered with walk := gathered.walk.dropLast } :=
            ⟨fun w inside => gathering.walk w (List.dropLast_subset _ inside), gathering.files⟩
          have popped : (pending gathered).Perm ((root ++ names) ::
              pending { gathered with walk := gathered.walk.dropLast }) := by
            obtain ⟨init, split⟩ := List.getLast?_eq_some_iff.1 last
            simp only [pending, split, List.dropLast_concat, List.map_append, List.map_singleton]
            exact List.perm_append_singleton _ _
          have frontier := frontier.perm popped
          obtain ⟨listed, read⟩ : ∃ listed, readDir rank t (root ++ names) = .ok listed := by
            rw [readDir, if_pos (isDir_iff.2 is)]
            exact ⟨_, rfl⟩
          have opened := frontier.expand (readDir_nodup read) fun place document le => by
            obtain ⟨n, there, le⟩ := walkable.unpacked.child is document le
            exact ⟨n, (mem_readDir read).2 there, le⟩
          obtain ⟨next, entries, onward, added⟩ := @gatherEntries_ok _ _ _ _ name walkable _ is _
            (fun n inside => (mem_readDir read).1 inside) opened
          have sound := left.entries walkable.unpacked walkable.good plain is entries
          have fewer : uncovered t (pending next) < uncovered t (pending gathered) := by
            refine uncovered_lt (mem_keys_iff.2 (by rw [is]; rfl))
              ⟨root ++ names, popped.mem_iff.2 List.mem_cons_self, List.prefix_rfl⟩ ?_ ?_
            · intro p inside le
              rcases added p inside with old | ⟨n, rfl⟩
              · exact ((List.pairwise_cons.1 frontier.apart).1 p old).2 le
              · have := le.length_le
                simp at this
            · intro p inside
              rcases added p inside with old | ⟨n, rfl⟩
              · exact ⟨p, popped.mem_iff.2 (List.mem_cons_of_mem _ old), List.prefix_rfl⟩
              · exact ⟨root ++ names, popped.mem_iff.2 List.mem_cons_self,
                  List.prefix_append _ _⟩
          simp only [read, entries]
          exact ih sound onward (by omega)

end Complete

/-! ## The way to a directory and back -/

/-- The sources, with their own files coded by the walk. -/
theorem collectFiles_ok {t : FileTree} {root : Path} {sources : List BundleFile} {name : String}
    {rank : Path → Nat} (walkable : Walkable t root sources)
    (distinct : (sources.map BundleFile.path).Nodup) :
    ∃ files, collectFiles rank t root name (t.keys.length + 1) = some (.ok (sortFiles files)) ∧
      files.Perm ((sources.filter fun s => metadataOf s.path = none).map fun s =>
        recode (member s)) := by
  have gathering := walkable.unpacked.start
  have frontier : Frontier (IsDocument root sources) (pending { walk := [(root, "")] })
      (found root { walk := [(root, "")] }) := by
    refine Frontier.start ?_
    rintro place ⟨s, -, -, rfl⟩
    exact List.prefix_append _ _
  obtain ⟨last, ended, sound, whole⟩ := @gather_ok _ _ _ _ name rank walkable gathering frontier _
    (Nat.lt_succ_of_le (uncovered_le_keys t _))
  refine ⟨last.files, ended, ?_⟩
  have same : ∀ {g : BundleFile}, g ∈ last.files → ∃ s ∈ sources, metadataOf s.path = none ∧
      g = recode (member s) := by
    intro g inside
    obtain ⟨s, given, -, rfl⟩ := sound.files g inside
    obtain ⟨s', -, document, place⟩ := whole.only _ (List.mem_map_of_mem inside)
    rw [List.append_cancel_left_eq] at place
    refine ⟨s, given, ?_, rfl⟩
    rw [show s.path = s'.path from components_inj place]
    exact document
  have filtered : ((sources.filter fun s => metadataOf s.path = none).map fun s =>
      recode (member s)).Nodup := by
    refine List.Nodup.of_map BundleFile.path ?_
    rw [List.map_map]
    exact distinct.sublist (List.filter_sublist.map BundleFile.path)
  rw [List.perm_ext_iff_of_nodup (List.Nodup.of_map _ whole.distinct) filtered]
  intro g
  constructor
  · intro inside
    obtain ⟨s, given, document, rfl⟩ := same inside
    exact List.mem_map.2 ⟨s, List.mem_filter.2 ⟨given, by simpa using document⟩, rfl⟩
  · intro inside
    obtain ⟨s, given, rfl⟩ := List.mem_map.1 inside
    obtain ⟨given, document⟩ := List.mem_filter.1 given
    obtain ⟨g, inside, place⟩ := List.mem_map.1
      ((whole.done (root ++ components s.path)).2 ⟨s, given, by simpa using document, rfl⟩)
    obtain ⟨s', given', -, rfl⟩ := same inside
    have path : s'.path = s.path := by
      rw [List.append_cancel_left_eq] at place
      exact components_inj place
    rwa [List.inj_on_of_nodup_map distinct given' given path] at inside

/-- The metadata a template keeps, slot by slot. -/
def Template.metadata (template : Template F) : Metadata → Option String
  | .manifest => some template.manifestToml
  | .schema => template.schemaJson
  | .fixture => template.fixtureJson
  | .body => template.fixtureBody

theorem Template.mem_sourceFiles {template : Template F} {file : BundleFile} :
    file ∈ template.sourceFiles ↔ file ∈ template.files ∨
      ∃ slot text, template.metadata slot = some text ∧ file = ⟨slot.path, .text text⟩ := by
  have slotted : ∀ {slot : Metadata} {given : Option String},
      file ∈ metadataFile slot given ↔ ∃ text, given = some text ∧ file = ⟨slot.path, .text text⟩ := by
    intro slot given
    cases given with
    | none => simp [metadataFile]
    | some text => simp [metadataFile]
  unfold sourceFiles
  rw [mem_sortFiles]
  simp only [List.mem_append, slotted, or_assoc]
  refine or_congr_right ?_
  constructor
  · rintro (⟨text, given, rfl⟩ | ⟨text, given, rfl⟩ | ⟨text, given, rfl⟩ | ⟨text, given, rfl⟩)
    · exact ⟨.manifest, text, given, rfl⟩
    · exact ⟨.schema, text, given, rfl⟩
    · exact ⟨.fixture, text, given, rfl⟩
    · exact ⟨.body, text, given, rfl⟩
  · rintro ⟨slot, text, given, rfl⟩
    cases slot with
    | manifest => exact .inl ⟨text, given, rfl⟩
    | schema => exact .inr (.inl ⟨text, given, rfl⟩)
    | fixture => exact .inr (.inr (.inl ⟨text, given, rfl⟩))
    | body => exact .inr (.inr (.inr ⟨text, given, rfl⟩))

/-- A metadata file is read back when it was written, and absent otherwise. -/
theorem readOptional_ok {t : FileTree} {root : Path} {template : Template F}
    (unpacked : Unpacked t root template.sourceFiles)
    (document : ∀ file ∈ template.files, metadataOf file.path = none) (slot : Metadata) :
    readOptional t (root ++ [slot.path]) = .ok (template.metadata slot) := by
  have place := components_metadata slot
  cases given : template.metadata slot with
  | some text =>
      have here : t.lookup (root ++ [slot.path]) = some (.file (utf8 text)) :=
        (unpacked.file _ _).2 ⟨⟨slot.path, .text text⟩,
          Template.mem_sourceFiles.2 (.inr ⟨slot, text, given, rfl⟩), place, rfl⟩
      simp [readOptional, isFile, readText, FileTree.read, here, fromUtf8_utf8, Except.map]
  | none =>
      have absent : isFile t (root ++ [slot.path]) = false := by
        unfold isFile
        split
        · rename_i bytes found
          obtain ⟨file, inside, same, -⟩ := (unpacked.file _ _).1 found
          have path : file.path = slot.path := components_inj (same.trans place.symm)
          rcases Template.mem_sourceFiles.1 inside with own | ⟨slot', text, given', rfl⟩
          · have := document file own
            rw [metadataOf_eq_some.2 path] at this
            cases this
          · have same : some slot' = some slot := by
              rw [← metadataOf_eq_some.2 (rfl : slot'.path = slot'.path)]
              exact metadataOf_eq_some.2 path
            cases same
            rw [given] at given'
            cases given'
        · rfl
      rw [readOptional, if_neg (by simp [absent])]

theorem Taken.ordered {crates : Crates F} {bundle : Bundle} {template : Template F}
    (taken : Taken crates bundle template) : InPathOrder template.files := by
  rw [taken.files]
  exact (Bundle.fileList_ordered bundle).filter _

/-- An accepted template is assembled from its own parts. -/
theorem Taken.assembled {crates : Crates F} {bundle : Bundle} {template : Template F}
    (taken : Taken crates bundle template) :
    AssembledFrom crates ⟨template.manifestToml, template.files, template.schemaJson,
      template.fixtureJson, template.fixtureBody⟩ template := by
  have settled := sortFiles_settled taken.ordered
  obtain ⟨slots, -, -, -, -, -, is⟩ := taken
  exact { is with
    own := template.own
    hasEntrypoint := template.hasEntrypoint
    files := settled.symm }

theorem recoded_members {files files' : List BundleFile}
    (same : List.Forall₂ Recoded files files') : files.map member = files'.map member := by
  induction same with
  | nil => rfl
  | cons first _ ih =>
      rw [List.map_cons, List.map_cons, ih, member, member, first.path, first.bytes]

theorem SameSource.members {template template' : Template F}
    (same : SameSource template template') :
    template'.sourceFiles.map member = template.sourceFiles.map member := by
  have sorted : ∀ files : List BundleFile, (sortFiles files).map member =
      (files.map member).insertionSort fun a b => a.1 ≤ b.1 := fun files =>
    List.map_insertionSort _ _ _ _ fun _ _ _ _ => Iff.rfl
  have own : template'.files.map member = template.files.map member :=
    (recoded_members same.files).symm
  unfold Template.sourceFiles
  rw [sorted, sorted]
  simp only [List.map_append, own, same.manifestToml, same.schemaJson, same.fixtureJson,
    same.fixtureBody]

theorem load_eq_ok {crates : Crates F} {rank : Path → Nat} {t : FileTree} {root : Path} {fuel : Nat}
    {template loaded : Template F} (unpacked : Unpacked t root template.sourceFiles)
    (document : ∀ file ∈ template.files, metadataOf file.path = none) :
    Template.load crates rank t root fuel = some (.ok loaded) ↔
      ∃ files, collectFiles rank t root "<loading>" fuel = some (.ok files) ∧
        AssembledFrom crates ⟨template.manifestToml, files, template.schemaJson,
          template.fixtureJson, template.fixtureBody⟩ loaded := by
  have here : t.lookup (root ++ ["template.toml"]) = some (.file (utf8 template.manifestToml)) :=
    (unpacked.file _ _).2 ⟨⟨"template.toml", .text template.manifestToml⟩,
      Template.mem_sourceFiles.2 (.inr ⟨.manifest, _, rfl, rfl⟩),
      components_metadata .manifest, rfl⟩
  have schema := readOptional_ok unpacked document .schema
  have fixture := readOptional_ok unpacked document .fixture
  have body := readOptional_ok unpacked document .body
  simp only [Metadata.path, Template.metadata] at schema fixture body
  have manifest : isFile t (root ++ ["template.toml"]) = true := by simp [isFile, here]
  have text : readText t (root ++ ["template.toml"]) = .ok template.manifestToml := by
    simp [readText, FileTree.read, here, fromUtf8_utf8]
  simp only [Template.load, manifest, text, schema, fixture, body, Bool.true_eq_false, if_false,
    Option.map_eq_some_iff, bind_eq_ok, ← assembleFrom_eq_ok]
  constructor
  · rintro ⟨_, walked, files, rfl, _, schemaEq, _, fixtureEq, _, bodyEq, made⟩
    cases schemaEq
    cases fixtureEq
    cases bodyEq
    exact ⟨files, walked, made⟩
  · rintro ⟨files, walked, made⟩
    exact ⟨_, walked, files, rfl, _, rfl, _, rfl, _, rfl, made⟩

/-- An accepted template's sources: the upload's files, each path once and good. -/
theorem sourceFiles_facts {crates : Crates F} {files : List BundleFile} {maxBytes : Nat}
    {template : Template F} (accepted : fromSourceFiles crates files maxBytes = .ok template) :
    template.sourceFiles.Perm files ∧ (template.sourceFiles.map BundleFile.path).Nodup ∧
      ∀ s ∈ template.sourceFiles, GoodPath s.path := by
  obtain ⟨bundle, made, taken⟩ := fromSourceFiles_eq_ok.1 accepted
  have sources := sourceFiles_eq taken
  have perm : template.sourceFiles.Perm files := sources ▸ Bundle.new_fileList made
  exact ⟨perm, sources ▸ (Bundle.fileList_ordered bundle).distinct, fun s inside =>
    (Bundle.new_eq_ok.1 made).1.paths s (perm.mem_iff.1 inside)⟩

/-- **What comes back through a directory was plain.** -/
theorem loaded_plain {crates : Crates F} {files : List BundleFile} {maxBytes : Nat}
    {template loaded : Template F} {rank : Path → Nat} {t t' : FileTree} {root : Path} {fuel : Nat}
    (accepted : fromSourceFiles crates files maxBytes = .ok template) (empty : EmptyDir t root)
    (written : unpack root template.sourceFiles t = .ok t')
    (load : Template.load crates rank t' root fuel = some (.ok loaded))
    (members : loaded.sourceFiles.map member = template.sourceFiles.map member) :
    ∀ file ∈ files, metadataOf file.path = none → Plain (components file.path) := by
  obtain ⟨perm, distinct, good⟩ := sourceFiles_facts accepted
  obtain ⟨bundle, -, taken⟩ := fromSourceFiles_eq_ok.1 accepted
  obtain ⟨unpacked, -, -⟩ :=
    @unpack_unpacked t t' root template.sourceFiles [] empty.unpacked distinct written
  rw [List.nil_append] at unpacked
  obtain ⟨collected, walked, is⟩ := (load_eq_ok unpacked taken.document).1 load
  intro file inside document
  have listed : member file ∈ loaded.sourceFiles.map member :=
    members ▸ List.mem_map_of_mem (perm.mem_iff.2 inside)
  obtain ⟨g, listed, same⟩ := List.mem_map.1 listed
  have path : g.path = file.path := congrArg Prod.fst same
  rcases Template.mem_sourceFiles.1 listed with own | ⟨slot, text, -, rfl⟩
  · rw [is.files, mem_sortFiles] at own
    obtain ⟨s, -, plain, rfl⟩ := gather_sound unpacked good unpacked.start walked g own
    exact path ▸ plain
  · rw [← path, metadataOf_eq_some.2 rfl] at document
    cases document

/-- **When a promoted template comes back.**  Its sources can be written to an empty directory and
loaded from there as the same template exactly when the upload's paths are promotable. -/
theorem promotes_iff (crates : Crates F) (files : List BundleFile) (maxBytes : Nat)
    (template : Template F) (rank : Path → Nat) (t : FileTree) (root : Path)
    (accepted : fromSourceFiles crates files maxBytes = .ok template) (empty : EmptyDir t root) :
    (∃ t', unpack root template.sourceFiles t = .ok t' ∧
        ∃ fuel loaded, Template.load crates rank t' root fuel = some (.ok loaded) ∧
          loaded.sourceFiles.map member = template.sourceFiles.map member ∧
          loaded.manifest = template.manifest ∧ loaded.schema = template.schema ∧
          loaded.fixture = template.fixture ∧ loaded.fixtureBody = template.fixtureBody) ↔
      Promotable (files.map BundleFile.path) := by
  obtain ⟨perm, distinct, good⟩ := sourceFiles_facts accepted
  obtain ⟨bundle, -, taken⟩ := fromSourceFiles_eq_ok.1 accepted
  constructor
  · rintro ⟨t', written, fuel, loaded, load, members, -⟩
    obtain ⟨-, -, apart⟩ :=
      @unpack_unpacked t t' root template.sourceFiles [] empty.unpacked distinct written
    refine ⟨?_, ?_⟩
    · intro p inside q inside' le
      obtain ⟨g, given, rfl⟩ := List.mem_map.1 inside
      obtain ⟨s, given', rfl⟩ := List.mem_map.1 inside'
      by_contra ne
      have : Std.Symm fun g f : BundleFile => Apart (components g.path) (components f.path) :=
        ⟨fun _ _ => Apart.symm⟩
      exact (apart.forall (perm.mem_iff.2 given) (perm.mem_iff.2 given')
        fun same => ne (same ▸ rfl)).1 le
    · intro path inside document
      obtain ⟨file, given, rfl⟩ := List.mem_map.1 inside
      exact loaded_plain accepted empty written load members file given document
  · intro promotable
    have promotable' : Promotable (template.sourceFiles.map BundleFile.path) := by
      have same := fun path => @List.Perm.mem_iff _ path _ _ (perm.map BundleFile.path)
      exact ⟨fun p inside q inside' => promotable.apart p ((same p).1 inside) q ((same q).1 inside'),
        fun path inside => promotable.plain path ((same path).1 inside)⟩
    have apart : template.sourceFiles.Pairwise fun g f =>
        Apart (components g.path) (components f.path) := by
      refine (List.pairwise_map.1 distinct).imp_of_mem ?_
      intro g f given given' ne
      have le := promotable'.apart _ (List.mem_map_of_mem given) _ (List.mem_map_of_mem given')
      have ge := promotable'.apart _ (List.mem_map_of_mem given') _ (List.mem_map_of_mem given)
      exact ⟨fun below => ne (le below), fun below => ne (ge below).symm⟩
    obtain ⟨t', written⟩ :=
      @unpack_ok t root template.sourceFiles [] empty.unpacked distinct (by simp) apart
    obtain ⟨unpacked, -, -⟩ :=
      @unpack_unpacked t t' root template.sourceFiles [] empty.unpacked distinct written
    rw [List.nil_append] at unpacked
    obtain ⟨gathered, walked, whole⟩ := @collectFiles_ok t' root template.sourceFiles "<loading>" rank
      ⟨unpacked, good, promotable'⟩ distinct
    have listed : sortFiles gathered = template.files.map fun file => recode (member file) := by
      have own : (template.sourceFiles.filter fun s => metadataOf s.path = none) =
          template.files := by rw [taken.files, sourceFiles_eq taken]
      rw [own] at whole
      have ordered : InPathOrder (template.files.map fun file => recode (member file)) :=
        List.pairwise_map.2 taken.ordered
      refine InPathOrder.eq_of_perm ?_ ordered ((sortFiles_perm gathered).trans whole)
      exact sortFiles_ordered ((whole.map _).nodup_iff.2 ordered.distinct)
    have same : List.Forall₂ Recoded template.files (sortFiles gathered) := by
      rw [listed, List.forall₂_map_right_iff, List.forall₂_same]
      intro file inside
      refine recoded_recode fun named => ?_
      exact absurd (taken.document file inside) named
    obtain ⟨loaded, is, alike, -⟩ := taken.assembled.recoded same taken.ordered
    exact ⟨t', written, _, loaded, (load_eq_ok unpacked taken.document).2 ⟨_, walked, is⟩,
      alike.members, alike.manifest.symm, alike.schema.symm, alike.fixture.symm,
      alike.fixtureBody.symm⟩

/-- A tree that is one empty directory. -/
def bareTree : FileTree := (∅ : FileTree).insert [] .dir

theorem bareTree_empty : EmptyDir bareTree [] where
  above q le := by
    rw [List.prefix_nil.1 le, bareTree, lookup_insert_eq, if_pos rfl]
  bare names some := by
    rw [List.nil_append, bareTree, lookup_insert_eq, if_neg some]
    rfl

theorem promotes_iff_draft :
    ∃ template, fromSourceFiles draftCrates draftFiles 1024 = .ok template ∧
      ((∃ t', unpack [] template.sourceFiles bareTree = .ok t' ∧
          ∃ fuel loaded, Template.load draftCrates (fun _ => 0) t' [] fuel = some (.ok loaded) ∧
            loaded.sourceFiles.map member = template.sourceFiles.map member ∧
            loaded.manifest = template.manifest ∧ loaded.schema = template.schema ∧
            loaded.fixture = template.fixture ∧ loaded.fixtureBody = template.fixtureBody) ↔
        Promotable (draftFiles.map BundleFile.path)) := by
  obtain ⟨template, accepted⟩ := ok_of_isOk
    (show (fromSourceFiles draftCrates draftFiles 1024).isOk = true by decide +kernel)
  exact ⟨template, accepted, promotes_iff draftCrates draftFiles 1024 template (fun _ => 0) bareTree []
    accepted bareTree_empty⟩

/-- The draft, with a dotfile. -/
def hiddenFiles : List BundleFile := draftFiles ++ [⟨".gitignore", .text "*.pdf\n"⟩]

/-- A dotfile is accepted at upload and lost on the way through a directory. -/
theorem dotfile_not_promoted :
    ¬ ∀ (files : List BundleFile) (template : Template Int),
      fromSourceFiles draftCrates files 1024 = .ok template →
      ∃ t', unpack [] template.sourceFiles bareTree = .ok t' ∧
        ∃ fuel loaded, Template.load draftCrates (fun _ => 0) t' [] fuel = some (.ok loaded) ∧
          loaded.sourceFiles.map member = template.sourceFiles.map member := by
  intro claimed
  obtain ⟨template, accepted⟩ := ok_of_isOk
    (show (fromSourceFiles draftCrates hiddenFiles 1024).isOk = true by decide +kernel)
  obtain ⟨t', written, fuel, loaded, load, members⟩ := claimed hiddenFiles template accepted
  have plain := loaded_plain accepted bareTree_empty written load members
    ⟨".gitignore", .text "*.pdf\n"⟩ (by decide) (by decide +kernel)
  have shown := plain.shown ".gitignore" (by decide +kernel)
  revert shown
  decide +kernel

end TypstMcp.Template
