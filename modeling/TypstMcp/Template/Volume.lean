/-
Template.Volume -- loading a template, whatever the file system holds

A `Volume` is what the calls of the loader see of a file system: names are bytes, links
are followed by some calls and not by others, every call can fail.  An `Order` is one in
which directories may be listed.  `collectFilesFrom` and `loadFrom` are the loader over
both.

* `Collected`, `Holds`: what a directory holds, said without an order.
* `collectFilesFrom_ends`, `loadFrom_ends`: the loader comes to that in every order.
-/
import TypstMcp.Template.Promotion
import TypstMcp.Theory.FormUrl
import TypstMcp.Theory.Pieces
import TypstMcp.Theory.Worklist

namespace TypstMcp.Template

open TypstMcp.Bundle TypstMcp.Theory TypstMcp.Theory.Json
open TypstMcp.Theory.FormUrl (fromUtf8Lossy fromUtf8Lossy_utf8 utf8_fromUtf8Lossy)

set_option autoImplicit false
set_option linter.dupNamespace false

variable {F : Type}

/-! ## File systems -/

/-- A path as the system takes it. -/
abbrev RawPath := List Bytes

/-- One step of `read_dir`'s iterator: a name, or an error. -/
abbrev DirEntry := Except ErrorKind Bytes

/-- A name a directory may list. -/
structure Named (raw : Bytes) : Prop where
  nonempty : raw ≠ []
  plain : 0x2f ∉ raw

/-- A directory tree as the calls on it see it, while it does not change. -/
structure Volume where
  readDir : RawPath → Except ErrorKind (List DirEntry)
  /-- `DirEntry::file_type` and its `is_dir`, which follow no link. -/
  fileTypeIsDir : RawPath → Except ErrorKind Bool
  /-- `Path::is_dir`, which follows links. -/
  isDir : RawPath → Bool
  isFile : RawPath → Bool
  read : RawPath → Except ErrorKind Bytes
  height : RawPath → Nat
  distinct : ∀ dir entries, readDir dir = .ok entries → (entries.filterMap Except.toOption).Nodup
  named : ∀ dir entries raw, readDir dir = .ok entries → .ok raw ∈ entries → Named raw
  lower : ∀ dir entries raw, readDir dir = .ok entries → .ok raw ∈ entries →
    fileTypeIsDir (dir ++ [raw]) = .ok true → height (dir ++ [raw]) < height dir

/-- An order in which `read_dir` yields the entries of each directory. -/
structure Order where
  arrange : RawPath → List DirEntry → List DirEntry
  perm : ∀ dir entries, (arrange dir entries).Perm entries

/-- A path as errors show it. -/
def shown (raw : RawPath) : Path := raw.map fromUtf8Lossy

/-! ## The loader -/

/-- A directory to visit, and what the paths of its files start with. -/
abbrev Pending := RawPath × String

variable (v : Volume) (order : Order)

/-- What one entry adds: directories to visit, and files. -/
def inspect (name : String) (dir : RawPath) (parent : String) :
    DirEntry → Except TemplateError (List Pending × List BundleFile)
  | .error source => .error (.io (shown dir) source)
  | .ok raw =>
      let fileName := fromUtf8Lossy raw
      if skipped parent fileName then .ok ([], [])
      else if isReserved fileName then .error (.reservedName fileName)
      else
        let rel := relative parent fileName
        match v.fileTypeIsDir (dir ++ [raw]) with
        | .error source => .error (.io (shown (dir ++ [raw])) source)
        | .ok true => .ok ([(dir ++ [raw], rel)], [])
        | .ok false =>
            match normalisePath rel with
            | .error source => .error (.badPath name rel source)
            | .ok _ =>
                match v.read (dir ++ [raw]) with
                | .error source => .error (.io (shown (dir ++ [raw])) source)
                | .ok bytes => .ok ([], [⟨rel, classify rel bytes⟩])

/-- One turn of the loop over a directory's entries. -/
def collectEntry (name : String) (dir : RawPath) (parent : String)
    (gathered : List Pending × List BundleFile) (entry : DirEntry) :
    Except TemplateError (List Pending × List BundleFile) := do
  let (dirs, files) ← inspect v name dir parent entry
  return (gathered.1 ++ dirs, gathered.2 ++ files)

/-- The loop over a directory's entries. -/
def visit (name : String) : Worklist.Visit Pending BundleFile TemplateError := fun (dir, parent) =>
  match v.readDir dir with
  | .error source => .error (.io (shown dir) source)
  | .ok entries => (order.arrange dir entries).foldlM (collectEntry v name dir parent) ([], [])

/-- Gather a template's files, rejecting reserved and invalid paths. -/
def collectFilesFrom (root : RawPath) (name : String) (fuel : Nat) :
    Option (Except TemplateError (List BundleFile)) :=
  (Worklist.search (visit v order name) fuel [(root, "")] []).map (·.map sortFiles)

/-- `read_to_string`. -/
def readToString (path : RawPath) : Except TemplateError String :=
  match v.read path with
  | .error source => .error (.io (shown path) source)
  | .ok bytes =>
      match fromUtf8 bytes with
      | none => .error (.io (shown path) .invalidData)
      | some text => .ok text

def readOptionalFrom (path : RawPath) : Except TemplateError (Option String) :=
  if v.isFile path then (readToString v path).map some else .ok none

/-- `dir.join(name)`. -/
def within (dir : RawPath) (name : String) : RawPath := dir ++ [utf8 name]

/-- What is left to do for a template when its manifest was read and its files collected. -/
def finish (crates : Crates F) (dir : RawPath) (manifestToml : String) (files : List BundleFile) :
    Except TemplateError (Template F) := do
  let schemaJson ← readOptionalFrom v (within dir "schema.json")
  let fixtureJson ← readOptionalFrom v (within dir "fixture.json")
  let fixtureBody ← readOptionalFrom v (within dir "fixture.body.typ")
  assembleFrom crates { manifestToml, files, schemaJson, fixtureJson, fixtureBody }

/-- Load a template from a directory. -/
def loadFrom (crates : Crates F) (dir : RawPath) (fuel : Nat) :
    Option (Except TemplateError (Template F)) :=
  if v.isFile (within dir "template.toml") = false then some (.error (.noManifest (shown dir)))
  else match readToString v (within dir "template.toml") with
    | .error e => some (.error e)
    | .ok manifestToml =>
        (collectFilesFrom v order dir "<loading>" fuel).map fun collected =>
          collected >>= finish v crates dir manifestToml

/-! ## What a directory holds, in no order -/

/-- What an accepted entry is, and what it adds. -/
inductive Inspected (dir : RawPath) (parent : String) (raw : Bytes) :
    List Pending × List BundleFile → Prop
  | skipped (skip : skipped parent (fromUtf8Lossy raw) = true) : Inspected dir parent raw ([], [])
  | dir (keep : Template.skipped parent (fromUtf8Lossy raw) = false)
      (own : isReserved (fromUtf8Lossy raw) = false)
      (is : v.fileTypeIsDir (dir ++ [raw]) = .ok true) :
      Inspected dir parent raw ([(dir ++ [raw], relative parent (fromUtf8Lossy raw))], [])
  | file {bytes : Bytes} (keep : Template.skipped parent (fromUtf8Lossy raw) = false)
      (own : isReserved (fromUtf8Lossy raw) = false)
      (is : v.fileTypeIsDir (dir ++ [raw]) = .ok false)
      (good : GoodPath (relative parent (fromUtf8Lossy raw)))
      (content : v.read (dir ++ [raw]) = .ok bytes) :
      Inspected dir parent raw ([], [⟨relative parent (fromUtf8Lossy raw),
        classify (relative parent (fromUtf8Lossy raw)) bytes⟩])

/-- The directory lists this name. -/
def Lists (dir : RawPath) (raw : Bytes) : Prop :=
  ∃ entries, v.readDir dir = .ok entries ∧ .ok raw ∈ entries

/-- The directories of a template, with what the paths of their files start with. -/
inductive Visited (root : RawPath) : Pending → Prop
  | root : Visited root (root, "")
  | sub {dir : RawPath} {parent : String} {raw : Bytes} {part : List Pending × List BundleFile}
      {inner : Pending} (above : Visited root (dir, parent)) (listed : Lists v dir raw)
      (is : Inspected v dir parent raw part) (inside : inner ∈ part.1) : Visited root inner

/-- The directory can be read, and each of its entries is accepted. -/
def Readable (dir : RawPath) (parent : String) : Prop :=
  ∃ entries, v.readDir dir = .ok entries ∧
    ∀ entry ∈ entries, ∃ raw part, entry = .ok raw ∧ Inspected v dir parent raw part

/-- The files of a template, by path. -/
structure Collected (root : RawPath) (files : List BundleFile) : Prop where
  readable : ∀ dir parent, Visited v root (dir, parent) → Readable v dir parent
  ordered : InPathOrder files
  whole : ∀ file, file ∈ files ↔ ∃ dir parent raw part, Visited v root (dir, parent) ∧
    Lists v dir raw ∧ Inspected v dir parent raw part ∧ file ∈ part.2

/-- The directory holds this template. -/
def Holds (crates : Crates F) (dir : RawPath) (template : Template F) : Prop :=
  v.isFile (within dir "template.toml") = true ∧ ∃ manifestToml files,
    readToString v (within dir "template.toml") = .ok manifestToml ∧ Collected v dir files ∧
    finish v crates dir manifestToml files = .ok template

variable {v order}

/-- There is one such list. -/
theorem Collected.unique {root : RawPath} {files files' : List BundleFile}
    (first : Collected v root files) (second : Collected v root files') : files = files' := by
  refine first.ordered.eq_of_perm second.ordered ?_
  refine (List.perm_ext_iff_of_nodup first.ordered.distinct.of_map
    second.ordered.distinct.of_map).2 fun file => ?_
  rw [first.whole, second.whole]

theorem Holds.unique {crates : Crates F} {dir : RawPath} {template template' : Template F}
    (first : Holds v crates dir template) (second : Holds v crates dir template') :
    template = template' := by
  obtain ⟨-, toml, files, read, collected, made⟩ := first
  obtain ⟨-, toml', files', read', collected', made'⟩ := second
  obtain rfl := Except.ok.inj (read.symm.trans read')
  obtain rfl := collected.unique collected'
  exact Except.ok.inj (made.symm.trans made')

/-! ## One directory -/

variable {name parent : String} {dir : RawPath}

/-- **What an entry can come to.** -/
theorem inspect_ok {entry : DirEntry} {part : List Pending × List BundleFile} :
    inspect v name dir parent entry = .ok part ↔
      ∃ raw, entry = .ok raw ∧ Inspected v dir parent raw part := by
  constructor
  · intro inspected
    cases entry with
    | error source => cases inspected
    | ok raw =>
        refine ⟨raw, rfl, ?_⟩
        simp only [inspect] at inspected
        split_ifs at inspected with skip reserved
        · obtain rfl := Except.ok.inj inspected
          exact .skipped skip
        · rw [Bool.not_eq_true] at skip reserved
          split at inspected
          · cases inspected
          next is =>
            obtain rfl := Except.ok.inj inspected
            exact .dir skip reserved is
          next is =>
            split at inspected
            · cases inspected
            next valid =>
              split at inspected
              · cases inspected
              next content =>
                obtain rfl := Except.ok.inj inspected
                exact .file skip reserved is (normalisePath_eq_ok.1 valid).1 content
  · rintro ⟨raw, rfl, is⟩
    cases is with
    | skipped skip => simp [inspect, skip]
    | dir keep own is => simp [inspect, keep, own, is]
    | file keep own is good content =>
        simp [inspect, keep, own, is, normalisePath_good good, content]

theorem collectEntries_ok {entries : List DirEntry} {start ended : List Pending × List BundleFile} :
    entries.foldlM (collectEntry v name dir parent) start = .ok ended ↔
      ∃ parts, List.Forall₂ (fun entry part => inspect v name dir parent entry = .ok part)
        entries parts ∧ ended = (start.1 ++ (parts.map Prod.fst).flatten,
          start.2 ++ (parts.map Prod.snd).flatten) := by
  induction entries generalizing start with
  | nil =>
      rw [List.foldlM_nil, pure_eq_ok]
      simp
  | cons entry rest ih =>
      rw [List.foldlM_cons, bind_eq_ok]
      constructor
      · rintro ⟨next, first, others⟩
        obtain ⟨part, is, made⟩ := bind_eq_ok.1 first
        obtain rfl := pure_eq_ok.1 made
        obtain ⟨parts, each, rfl⟩ := ih.1 others
        exact ⟨part :: parts, .cons is each, by simp⟩
      · rintro ⟨parts, each, rfl⟩
        cases each with
        | cons is each =>
            exact ⟨_, bind_eq_ok.2 ⟨_, is, rfl⟩, ih.2 ⟨_, each, by simp⟩⟩

/-- The entries, in the order of the volume, and what each adds. -/
theorem visit_ok {below : List Pending} {here : List BundleFile} :
    visit v order name (dir, parent) = .ok (below, here) ↔ ∃ entries parts,
      v.readDir dir = .ok entries ∧
      List.Forall₂ (fun entry part => inspect v name dir parent entry = .ok part)
        (order.arrange dir entries) parts ∧
      below = (parts.map Prod.fst).flatten ∧ here = (parts.map Prod.snd).flatten := by
  unfold visit
  simp only []
  cases listed : v.readDir dir with
  | error source => simp
  | ok entries =>
      simp only [collectEntries_ok, List.nil_append, Prod.mk.injEq]
      constructor
      · rintro ⟨parts, each, same⟩
        exact ⟨entries, parts, rfl, each, same⟩
      · rintro ⟨entries', parts, same, each, made⟩
        obtain rfl := Except.ok.inj same
        exact ⟨parts, each, made⟩

/-- What the entries add, an order aside. -/
theorem mem_parts {entries : List DirEntry} {parts : List (List Pending × List BundleFile)}
    (listed : v.readDir dir = .ok entries)
    (each : List.Forall₂ (fun entry part => inspect v name dir parent entry = .ok part)
      (order.arrange dir entries) parts) (part : List Pending × List BundleFile) :
    part ∈ parts ↔ ∃ raw, Lists v dir raw ∧ Inspected v dir parent raw part := by
  constructor
  · intro inside
    obtain ⟨entry, there, is⟩ := mem_of_forall₂ each.flip inside
    obtain ⟨raw, rfl, inspected⟩ := inspect_ok.1 is
    exact ⟨raw, ⟨entries, listed, (order.perm dir entries).mem_iff.1 there⟩, inspected⟩
  · rintro ⟨raw, ⟨entries', listed', there⟩, inspected⟩
    obtain rfl := Except.ok.inj (listed.symm.trans listed')
    obtain ⟨part', inside, is⟩ := mem_of_forall₂ each ((order.perm dir entries).mem_iff.2 there)
    have same := is.symm.trans (inspect_ok.2 ⟨raw, rfl, inspected⟩)
    exact Except.ok.inj same ▸ inside

/-- What a visited directory adds is what its entries add. -/
theorem mem_visit {below : List Pending} {here : List BundleFile}
    (visited : visit v order name (dir, parent) = .ok (below, here)) :
    (∀ inner, inner ∈ below ↔
        ∃ raw part, Lists v dir raw ∧ Inspected v dir parent raw part ∧ inner ∈ part.1) ∧
      ∀ file, file ∈ here ↔
        ∃ raw part, Lists v dir raw ∧ Inspected v dir parent raw part ∧ file ∈ part.2 := by
  obtain ⟨entries, parts, listed, each, rfl, rfl⟩ := visit_ok.1 visited
  have some_part : ∀ P : List Pending × List BundleFile → Prop, (∃ part ∈ parts, P part) ↔
      ∃ raw part, Lists v dir raw ∧ Inspected v dir parent raw part ∧ P part := by
    intro P
    simp only [mem_parts listed each]
    constructor
    · rintro ⟨part, ⟨raw, there, is⟩, inside⟩
      exact ⟨raw, part, there, is, inside⟩
    · rintro ⟨raw, part, there, is, inside⟩
      exact ⟨part, ⟨raw, there, is⟩, inside⟩
  simp only [List.mem_flatten, List.mem_map, exists_exists_and_eq_and]
  exact ⟨fun inner => some_part (inner ∈ ·.1), fun file => some_part (file ∈ ·.2)⟩

theorem visit_readable :
    (∃ got, visit v order name (dir, parent) = .ok got) ↔ Readable v dir parent := by
  constructor
  · rintro ⟨⟨below, here⟩, visited⟩
    obtain ⟨entries, parts, listed, each, -⟩ := visit_ok.1 visited
    refine ⟨entries, listed, fun entry inside => ?_⟩
    obtain ⟨part, -, is⟩ :=
      mem_of_forall₂ each ((order.perm dir entries).mem_iff.2 inside)
    obtain ⟨raw, same, inspected⟩ := inspect_ok.1 is
    exact ⟨raw, part, same, inspected⟩
  · rintro ⟨entries, listed, each⟩
    have accepted : ∀ entry ∈ order.arrange dir entries,
        ∃ part, inspect v name dir parent entry = .ok part := by
      intro entry inside
      obtain ⟨raw, part, same, inspected⟩ := each entry ((order.perm dir entries).mem_iff.1 inside)
      exact ⟨part, inspect_ok.2 ⟨raw, same, inspected⟩⟩
    obtain ⟨parts, all⟩ := exists_forall₂ accepted
    exact ⟨_, visit_ok.2 ⟨entries, parts, listed, all, rfl, rfl⟩⟩

/-! ## No two files alike -/

/-- What the paths below a directory start with. -/
def before (parent : String) : List Char := if parent = "" then [] else parent.toList ++ ['/']

theorem relative_toList (parent fileName : String) :
    (relative parent fileName).toList = before parent ++ fileName.toList := by
  unfold relative before
  split_ifs with root
  · rfl
  · rw [String.toList_append, String.toList_append]
    rfl

theorem before_relative {parent fileName : String} (nonempty : fileName ≠ "") :
    before (relative parent fileName) = before parent ++ fileName.toList ++ ['/'] := by
  have some_ : relative parent fileName ≠ "" := by
    intro none_
    have chars := relative_toList parent fileName
    rw [none_, String.toList_empty, eq_comm, List.append_eq_nil_iff] at chars
    exact nonempty (String.toList_inj.1 chars.2)
  rw [before, if_neg some_, relative_toList]

/-- The characters of a name. -/
def nameOf (raw : Bytes) : List Char := (fromUtf8Lossy raw).toList

/-- The file is at or below the entry `raw` of a directory whose paths start with `parent`. -/
def Under (parent : String) (raw : Bytes) (file : BundleFile) : Prop :=
  ∃ more : RawPath, (∀ r ∈ raw :: more, Named r) ∧ GoodPath file.path ∧
    file.path.toList = before parent ++ ['/'].intercalate ((raw :: more).map nameOf)

theorem nameOf_ne_nil {raw : Bytes} (named : Named raw) : fromUtf8Lossy raw ≠ "" := by
  intro none_
  have bytes := @utf8_fromUtf8Lossy raw (by rw [none_]; decide)
  rw [none_] at bytes
  exact named.nonempty (bytes.symm.trans (by decide))

/-- An allowed name is what its bytes say, and one segment. -/
theorem nameOf_clean {raw : Bytes} (named : Named raw)
    (allowed : ∀ c ∈ nameOf raw, isAllowed c = true) :
    utf8 (fromUtf8Lossy raw) = raw ∧ '/' ∉ nameOf raw := by
  have bytes : utf8 (fromUtf8Lossy raw) = raw := by
    refine utf8_fromUtf8Lossy fun replaced => ?_
    have := allowed _ replaced
    revert this
    decide
  refine ⟨bytes, fun slash => named.plain ?_⟩
  rw [← bytes, utf8_eq, List.mem_flatMap]
  exact ⟨'/', slash, by decide⟩

/-- The path of a file tells the entry it is under. -/
theorem Under.first {raw raw' : Bytes} {file file' : BundleFile} (under : Under parent raw file)
    (under' : Under parent raw' file') (same : file.path = file'.path) : raw = raw' := by
  obtain ⟨more, named, good, path⟩ := under
  obtain ⟨more', named', good', path'⟩ := under'
  have clean : ∀ {raws : RawPath} {file : BundleFile}, GoodPath file.path →
      file.path.toList = before parent ++ ['/'].intercalate (raws.map nameOf) →
      ∀ r ∈ raws, ∀ c ∈ nameOf r, isAllowed c = true := by
    intro raws file good path r inside c there
    refine good.allowed c ?_
    rw [path]
    exact List.mem_append_right _ (Pieces.mem_intercalate_of_mem (List.mem_map_of_mem inside) there)
  have pieces := path.symm.trans ((congrArg String.toList same).trans path')
  have cut := congrArg (List.splitOn '/') (List.append_cancel_left pieces)
  rw [List.splitOn_intercalate '/' ?_ (by simp), List.splitOn_intercalate '/' ?_ (by simp)] at cut
  · have head : nameOf raw = nameOf raw' := (List.cons.inj cut).1
    have own := nameOf_clean (named raw List.mem_cons_self) (clean good path raw List.mem_cons_self)
    have own' := nameOf_clean (named' raw' List.mem_cons_self)
      (clean good' path' raw' List.mem_cons_self)
    rw [← own.1, ← own'.1, String.toList_inj.1 head]
  · intro piece inside
    obtain ⟨r, there, rfl⟩ := List.mem_map.1 inside
    exact (nameOf_clean (named' r there) (clean good' path' r there)).2
  · intro piece inside
    obtain ⟨r, there, rfl⟩ := List.mem_map.1 inside
    exact (nameOf_clean (named r there) (clean good path r there)).2

/-- The file is at or below the directory of a visit. -/
def At (node : Pending) (file : BundleFile) : Prop := ∃ raw, Under node.2 raw file

/-- The file is among what an entry adds, now or when its directory is visited. -/
def Adds (part : List Pending × List BundleFile) (file : BundleFile) : Prop :=
  file ∈ part.2 ∨ ∃ inner ∈ part.1, At inner file

/-- The two add no files of one path. -/
def Differ (part part' : List Pending × List BundleFile) : Prop :=
  ∀ file file', Adds part file → Adds part' file' → file.path ≠ file'.path

theorem Inspected.under {raw : Bytes} {part : List Pending × List BundleFile} {file : BundleFile}
    (is : Inspected v dir parent raw part) (named : Named raw) (adds : Adds part file) :
    Under parent raw file := by
  cases is with
  | skipped skip =>
      rcases adds with own | ⟨inner, none_, -⟩
      · exact (List.not_mem_nil own).elim
      · exact (List.not_mem_nil none_).elim
  | dir keep own is =>
      rcases adds with own | ⟨inner, inside, raw', more, others, good, path⟩
      · exact (List.not_mem_nil own).elim
      · obtain rfl := List.mem_singleton.1 inside
        refine ⟨raw' :: more, List.forall_mem_cons.2 ⟨named, others⟩, good, ?_⟩
        rw [path, before_relative (nameOf_ne_nil named), List.map_cons, List.map_cons,
          List.map_cons, List.intercalate_cons_cons, List.append_assoc, List.append_assoc,
          List.append_assoc]
        rfl
  | file keep own is good content =>
      rcases adds with own | ⟨inner, none_, -⟩
      · obtain rfl := List.mem_singleton.1 own
        refine ⟨[], List.forall_mem_cons.2 ⟨named, fun _ none_ => (List.not_mem_nil none_).elim⟩,
          good, ?_⟩
        rw [relative_toList]
        simp [nameOf]
      · exact (List.not_mem_nil none_).elim

/-- Different entries add files with different paths. -/
theorem parts_differ {entries : List DirEntry} {parts : List (List Pending × List BundleFile)}
    (each : List.Forall₂ (fun entry part => inspect v name dir parent entry = .ok part) entries parts)
    (distinct : (entries.filterMap Except.toOption).Nodup)
    (named : ∀ raw, .ok raw ∈ entries → Named raw) : parts.Pairwise Differ := by
  induction each with
  | nil => exact .nil
  | cons first rest ih =>
      obtain ⟨raw, rfl, is⟩ := inspect_ok.1 first
      rw [List.filterMap_cons_some (show Except.toOption (.ok raw : DirEntry) = some raw from rfl),
        List.nodup_cons] at distinct
      obtain ⟨fresh, distinct⟩ := distinct
      refine List.pairwise_cons.2 ⟨?_,
        ih distinct fun raw inside => named raw (List.mem_cons_of_mem _ inside)⟩
      intro part' inside file file' adds adds' same
      obtain ⟨entry', there, inspected⟩ := mem_of_forall₂ rest.flip inside
      obtain ⟨raw', rfl, is'⟩ := inspect_ok.1 inspected
      have under := is.under (named raw List.mem_cons_self) adds
      have under' := is'.under (named raw' (List.mem_cons_of_mem _ there)) adds'
      rw [under.first under' same] at fresh
      exact fresh (List.mem_filterMap.2 ⟨_, there, rfl⟩)

/-- A visit, entry by entry. -/
theorem visit_parts {node : Pending} {below : List Pending} {here : List BundleFile}
    (visited : visit v order name node = .ok (below, here)) :
    ∃ parts : List (List Pending × List BundleFile), parts.Pairwise Differ ∧
      (∀ part ∈ parts, ∃ raw, Named raw ∧ Inspected v node.1 node.2 raw part) ∧
      (∀ inner, inner ∈ below ↔ ∃ part ∈ parts, inner ∈ part.1) ∧
      (∀ file, file ∈ here ↔ ∃ part ∈ parts, file ∈ part.2) ∧
      below = (parts.map Prod.fst).flatten ∧ here = (parts.map Prod.snd).flatten := by
  obtain ⟨dir, parent⟩ := node
  obtain ⟨entries, parts, listed, each, rfl, rfl⟩ := visit_ok.1 visited
  have arranged := order.perm dir entries
  have named : ∀ raw, .ok raw ∈ order.arrange dir entries → Named raw := fun raw inside =>
    v.named dir entries raw listed (arranged.mem_iff.1 inside)
  refine ⟨parts, parts_differ each
    ((arranged.filterMap _).nodup_iff.2 (v.distinct dir entries listed)) named,
    fun part inside => ?_, fun inner => ?_, fun file => ?_, rfl, rfl⟩
  · obtain ⟨raw, ⟨entries', listed', there⟩, inspected⟩ := (mem_parts listed each part).1 inside
    exact ⟨raw, v.named dir entries' raw listed' there, inspected⟩
  · simp only [List.mem_flatten, List.mem_map, exists_exists_and_eq_and]
  · simp only [List.mem_flatten, List.mem_map, exists_exists_and_eq_and]

/-- An entry is one directory, one file or nothing. -/
theorem Inspected.single {raw : Bytes} {part : List Pending × List BundleFile}
    (is : Inspected v dir parent raw part) :
    part.1.length + part.2.length ≤ 1 := by
  cases is with
  | skipped => exact Nat.zero_le _
  | dir => exact Nat.le_refl _
  | file => exact Nat.le_refl _

theorem pairwise_single {α : Type} {R : α → α → Prop} {l : List α} (short : l.length ≤ 1) :
    l.Pairwise R := by
  cases l with
  | nil => exact .nil
  | cons a rest =>
      obtain rfl := List.length_eq_zero_iff.1 (Nat.le_zero.1 (Nat.le_of_succ_le_succ short))
      exact List.pairwise_singleton R a

/-- **The loader never finds two files of one path.** -/
theorem visit_keeps :
    Worklist.Keeps (visit v order name) At fun file file' => file.path ≠ file'.path where
  symm _ _ := Ne.symm
  own node below here visited file inside := by
    obtain ⟨parts, -, each, -, files, -⟩ := visit_parts visited
    obtain ⟨part, there, own⟩ := (files file).1 inside
    obtain ⟨raw, named, is⟩ := each part there
    exact ⟨raw, is.under named (.inl own)⟩
  up node below here visited inner inside file at_ := by
    obtain ⟨parts, -, each, dirs, -⟩ := visit_parts visited
    obtain ⟨part, there, own⟩ := (dirs inner).1 inside
    obtain ⟨raw, named, is⟩ := each part there
    exact ⟨raw, is.under named (.inr ⟨inner, own, at_⟩)⟩
  here node below here visited := by
    obtain ⟨parts, differ, each, -, -, -, rfl⟩ := visit_parts visited
    refine List.pairwise_flatten.2 ⟨?_, List.pairwise_map.2 (differ.imp ?_)⟩
    · intro files inside
      obtain ⟨part, there, rfl⟩ := List.mem_map.1 inside
      obtain ⟨raw, -, is⟩ := each part there
      exact pairwise_single ((Nat.le_add_left _ _).trans is.single)
    · intro part part' differ file inside file' inside'
      exact differ file file' (.inl inside) (.inl inside')
  below node below here visited := by
    obtain ⟨parts, differ, each, -, -, rfl, -⟩ := visit_parts visited
    refine List.pairwise_flatten.2 ⟨?_, List.pairwise_map.2 (differ.imp ?_)⟩
    · intro dirs inside
      obtain ⟨part, there, rfl⟩ := List.mem_map.1 inside
      obtain ⟨raw, -, is⟩ := each part there
      exact pairwise_single ((Nat.le_add_right _ _).trans is.single)
    · intro part part' differ inner inside inner' inside' file file' at_ at'
      exact differ file file' (.inr ⟨inner, inside, at_⟩) (.inr ⟨inner', inside', at'⟩)
  apart node below here visited file own inner inside file' at_ := by
    obtain ⟨parts, differ, each, dirs, files, -⟩ := visit_parts visited
    obtain ⟨part, there, own⟩ := (files file).1 own
    obtain ⟨part', there', inside⟩ := (dirs inner).1 inside
    have other : part ≠ part' := by
      rintro rfl
      obtain ⟨raw, -, is⟩ := each part there
      have := is.single
      have := List.length_pos_of_mem own
      have := List.length_pos_of_mem inside
      omega
    have symmetric : Std.Symm Differ :=
      ⟨fun _ _ related file file' adds adds' => (related file' file adds' adds).symm⟩
    exact differ.forall there there' other file file' (.inl own) (.inr ⟨inner, inside, at_⟩)

/-! ## The loader comes to what the directory holds -/

/-- With enough fuel the run comes to this outcome. -/
def Ends {α : Type} (run : Nat → Option α) (outcome : α) : Prop :=
  ∃ n, ∀ fuel, n ≤ fuel → run fuel = some outcome

theorem Ends.unique {α : Type} {run : Nat → Option α} {outcome outcome' : α}
    (ends : Ends run outcome) (ends' : Ends run outcome') : outcome = outcome' := by
  obtain ⟨n, first⟩ := ends
  obtain ⟨m, second⟩ := ends'
  exact Option.some.inj ((first (max n m) (Nat.le_max_left _ _)).symm.trans
    (second (max n m) (Nat.le_max_right _ _)))

theorem visit_lowers : Worklist.Lowers (visit v order name) fun node => v.height node.1 := by
  rintro ⟨dir, parent⟩ below here visited inner inside
  obtain ⟨raw, part, ⟨entries, listed, there⟩, is, inside⟩ := ((mem_visit visited).1 inner).1 inside
  cases is with
  | skipped => exact (List.not_mem_nil inside).elim
  | dir _ _ is =>
      obtain rfl := List.mem_singleton.1 inside
      exact v.lower dir entries raw listed there is
  | file => exact (List.not_mem_nil inside).elim

variable {root : RawPath}

theorem reached_visited {node : Pending}
    (reached : Worklist.Reached (visit v order name) (root, "") node) : Visited v root node := by
  induction reached with
  | root => exact .root
  | @child a b below here _ visited inside ih =>
      obtain ⟨raw, part, listed, is, inside⟩ := ((mem_visit visited).1 b).1 inside
      exact .sub ih listed is inside

theorem visited_reached {node : Pending} (visited : Visited v root node)
    (all : ∀ a, Worklist.Reached (visit v order name) (root, "") a →
      ∃ got, visit v order name a = .ok got) :
    Worklist.Reached (visit v order name) (root, "") node := by
  induction visited with
  | root => exact .root
  | @sub dir parent raw part inner _ listed is inside ih =>
      obtain ⟨⟨below, here⟩, went⟩ := all _ ih
      exact .child ih went (((mem_visit went).1 inner).2 ⟨raw, part, listed, is, inside⟩)

theorem collected_of_traverse {depth : Nat} {found : List BundleFile} (deep : v.height root < depth)
    (went : Worklist.traverse (visit v order name) depth (root, "") = .ok found) :
    Collected v root (sortFiles found) := by
  have all := (Worklist.traverse_ok visit_lowers deep).1 ⟨found, went⟩
  refine ⟨fun dir parent visited => ?_, ?_, fun file => ?_⟩
  · exact visit_readable.1 (all _ (visited_reached visited all))
  · exact sortFiles_ordered (List.pairwise_map.2 (Worklist.traverse_pairwise visit_keeps went).1)
  · rw [mem_sortFiles, Worklist.mem_traverse visit_lowers deep went]
    constructor
    · rintro ⟨⟨dir, parent⟩, below, here, reached, visited, own⟩
      obtain ⟨raw, part, listed, is, own⟩ := ((mem_visit visited).2 file).1 own
      exact ⟨dir, parent, raw, part, reached_visited reached, listed, is, own⟩
    · rintro ⟨dir, parent, raw, part, visited, listed, is, own⟩
      have reached := visited_reached visited all
      obtain ⟨⟨below, here⟩, went⟩ := all _ reached
      exact ⟨(dir, parent), below, here, reached, went,
        ((mem_visit went).2 file).2 ⟨raw, part, listed, is, own⟩⟩

/-- **In every order the files are collected that the directory holds.** -/
theorem collectFilesFrom_ends (v : Volume) (order : Order) (root : RawPath) (name : String) :
    ∃ outcome, Ends (collectFilesFrom v order root name) outcome ∧
      ∀ files, outcome = .ok files ↔ Collected v root files := by
  have lowers := @visit_lowers v order name
  have deep : v.height root < v.height root + 1 := Nat.lt_succ_self _
  obtain ⟨n, ends⟩ := @Worklist.search_eq _ _ _ _ _ lowers _ (root, "") deep
  refine ⟨(Worklist.traverse (visit v order name) (v.height root + 1) (root, "")).map sortFiles,
    ⟨n, fun fuel enough => by rw [collectFilesFrom, ends fuel enough]; rfl⟩, fun files => ?_⟩
  constructor
  · intro came
    cases went : Worklist.traverse (visit v order name) (v.height root + 1) (root, "") with
    | error e =>
        rw [went] at came
        cases came
    | ok found =>
        rw [went] at came
        exact Except.ok.inj came ▸ collected_of_traverse deep went
  · intro collected
    obtain ⟨found, went⟩ := (@Worklist.traverse_ok _ _ _ _ _ lowers _ (root, "") deep).2
      fun node reached =>
        visit_readable.2 (collected.readable node.1 node.2 (reached_visited reached))
    rw [went, collected.unique (collected_of_traverse deep went)]
    rfl

/-- **In every order the template is loaded that the directory holds,** and when it holds none the
load fails. -/
theorem loadFrom_ends (v : Volume) (order : Order) (crates : Crates F) (dir : RawPath) :
    ∃ outcome, Ends (loadFrom v order crates dir) outcome ∧
      ∀ template, outcome = .ok template ↔ Holds v crates dir template := by
  unfold loadFrom Holds
  by_cases manifest : v.isFile (within dir "template.toml") = false
  · refine ⟨_, ⟨0, fun _ _ => if_pos manifest⟩, fun template => iff_of_false (by simp) ?_⟩
    rintro ⟨there, -⟩
    rw [manifest] at there
    cases there
  · simp only [if_neg manifest]
    rw [Bool.not_eq_false] at manifest
    cases read : readToString v (within dir "template.toml") with
    | error e =>
        refine ⟨_, ⟨0, fun _ _ => rfl⟩, fun template => iff_of_false (by simp) ?_⟩
        rintro ⟨-, toml, files, same, -⟩
        cases same
    | ok manifestToml =>
        obtain ⟨collected, ⟨n, ends⟩, is⟩ := collectFilesFrom_ends v order dir "<loading>"
        refine ⟨collected >>= finish v crates dir manifestToml, ⟨n, fun fuel enough => ?_⟩,
          fun template => ?_⟩
        · simp only [ends fuel enough, Option.map_some]
        · rw [bind_eq_ok]
          constructor
          · rintro ⟨files, came, made⟩
            exact ⟨manifest, manifestToml, files, rfl, (is files).1 came, made⟩
          · rintro ⟨-, toml, files, same, whole, made⟩
            obtain rfl := Except.ok.inj same
            exact ⟨files, (is files).2 whole, made⟩

/-- What a load came to it comes to with more fuel. -/
theorem loadFrom_more {crates : Crates F} {fuel more : Nat}
    {outcome : Except TemplateError (Template F)} (le : fuel ≤ more)
    (came : loadFrom v order crates dir fuel = some outcome) :
    loadFrom v order crates dir more = some outcome := by
  unfold loadFrom collectFilesFrom at came ⊢
  split_ifs at came ⊢
  · exact came
  · cases read : readToString v (within dir "template.toml") with
    | error e =>
        simp only [read] at came ⊢
        exact came
    | ok manifestToml =>
        simp only [read, Option.map_eq_some_iff] at came ⊢
        obtain ⟨collected, ⟨found, ended, made⟩, finished⟩ := came
        exact ⟨collected, ⟨found, Worklist.search_more ended le, made⟩, finished⟩

theorem toOption_eq {ε α : Type} {x y : Except ε α} {P : α → Prop} (first : ∀ a, x = .ok a ↔ P a)
    (second : ∀ a, y = .ok a ↔ P a) : x.toOption = y.toOption := by
  have same : ∀ a, x = .ok a ↔ y = .ok a := fun a => (first a).trans (second a).symm
  cases x with
  | ok a => rw [(same a).1 rfl]
  | error e =>
      cases y with
      | ok a => cases (same a).2 rfl
      | error e' => rfl

/-- A load of a directory comes to the template it holds. -/
theorem loadFrom_iff {crates : Crates F} {outcome : Except TemplateError (Template F)}
    (ends : Ends (loadFrom v order crates dir) outcome) (template : Template F) :
    outcome = .ok template ↔ Holds v crates dir template := by
  obtain ⟨_, ends', is⟩ := loadFrom_ends v order crates dir
  rw [ends.unique ends']
  exact is template

end TypstMcp.Template
