/-
Bundle.Files -- a validated set of files plus the entrypoint to compile

`Bundle.new` is the only way in, and a `Bundle` carries what it checked.
`Bundle.new_eq_ok` says exactly when it succeeds and which map it builds; the
lemmas on `fileMap` are all that later modules need of the map.
-/
import TypstMcp.Bundle.Path
import TypstMcp.Theory.Json

namespace TypstMcp.Bundle

open TypstMcp.Theory (Bytes)
open TypstMcp.Theory.Json (utf8 fromUtf8)

set_option autoImplicit false
set_option linter.dupNamespace false

abbrev BTreeMap (K V : Type) [Ord K] := Std.ExtTreeMap K V compare

/-- Most files a single bundle may contain. -/
def maxFiles : Nat := 64

inductive FileContent
  | text (text : String)
  | binary (bytes : Bytes)
  deriving DecidableEq, Repr

namespace FileContent

def asBytes : FileContent → Bytes
  | .text t => utf8 t
  | .binary bytes => bytes

def len : FileContent → Nat
  | .text t => t.utf8ByteSize
  | .binary bytes => bytes.length

theorem len_eq (content : FileContent) : content.len = content.asBytes.length := by
  cases content with
  | text t => rfl
  | binary bytes => rfl

end FileContent

/-- One file on its way into a bundle, before validation. -/
structure BundleFile where
  path : String
  content : FileContent
  deriving DecidableEq, Repr

def BundleFile.pair (file : BundleFile) : String × FileContent := (file.path, file.content)

def BundleFile.ofPair (pair : String × FileContent) : BundleFile := ⟨pair.1, pair.2⟩

@[simp] theorem BundleFile.ofPair_pair (file : BundleFile) : .ofPair file.pair = file := rfl

inductive BundleError
  | path (path : String) (source : PathError)
  | tooManyFiles (count : Nat)
  | tooLarge (actual limit : Nat)
  | duplicate (path : String)
  | missingMain (main : String)
  deriving DecidableEq, Repr

/-- `sum` over the lengths: the files are in memory together, so it stays a `usize`. -/
def totalBytes (files : List BundleFile) : Nat := (files.map fun file => file.content.len).sum

/-- The files as a map, a later one over an earlier one of the same path. -/
def fileMap (files : List BundleFile) : BTreeMap String FileContent :=
  files.foldl (fun map file => map.insert file.path file.content) ∅

/-- The loop of `Bundle::new`. -/
def insertFiles :
    List BundleFile → BTreeMap String FileContent → Except BundleError (BTreeMap String FileContent)
  | [], map => .ok map
  | file :: rest, map =>
      match normalisePath file.path with
      | .error source => .error (.path file.path source)
      | .ok path =>
          if path ∈ map then .error (.duplicate path)
          else insertFiles rest (map.insert path file.content)

/-- A validated set of files plus the entrypoint to compile. -/
@[ext] structure Bundle where
  main : String
  files : BTreeMap String FileContent
  inputs : BTreeMap String String
  goodPaths : ∀ path ∈ files, GoodPath path
  count : files.size ≤ maxFiles
  hasMain : main ∈ files

/-! ## The map of a list of files -/

section FileMap

variable {files : List BundleFile} {map : BTreeMap String FileContent}

theorem getElem?_foldl_insert (path : String)
    (distinct : (files.map BundleFile.path).Nodup) (fresh : ∀ file ∈ files, file.path ∉ map) :
    (files.foldl (fun map file => map.insert file.path file.content) map)[path]? =
      ((files.find? (·.path = path)).map BundleFile.content).or map[path]? := by
  induction files generalizing map with
  | nil => rfl
  | cons file rest ih =>
      obtain ⟨notIn, distinct⟩ := List.nodup_cons.1 distinct
      have later : ∀ f ∈ rest, f.path ∉ map.insert file.path file.content := by
        intro f inside
        rw [Std.ExtTreeMap.mem_insert]
        rintro (same | old)
        · have : file.path = f.path := by simpa using same
          exact notIn (this ▸ List.mem_map_of_mem inside)
        · exact fresh f (List.mem_cons_of_mem _ inside) old
      rw [List.foldl_cons, ih distinct later, List.find?_cons]
      by_cases same : file.path = path
      · have gone : rest.find? (·.path = path) = none := by
          rw [List.find?_eq_none]
          intro f inside
          have : f.path ≠ path := fun eq =>
            notIn (same.trans eq.symm ▸ List.mem_map_of_mem inside)
          simpa using this
        simp [gone, same]
      · rw [Std.ExtTreeMap.getElem?_insert, if_neg (by simpa using same)]
        simp [same]

theorem getElem?_fileMap (distinct : (files.map BundleFile.path).Nodup) {path : String}
    {content : FileContent} :
    (fileMap files)[path]? = some content ↔ ⟨path, content⟩ ∈ files := by
  unfold fileMap
  rw [getElem?_foldl_insert path distinct (by simp)]
  cases here : files.find? (·.path = path) with
  | none =>
      have absent : (⟨path, content⟩ : BundleFile) ∉ files := fun inside =>
        absurd (List.find?_eq_none.1 here _ inside) (by simp)
      simp [absent]
  | some file =>
      have same : file.path = path := by simpa using List.find?_some here
      have inside := List.mem_of_find?_eq_some here
      constructor
      · rintro ⟨⟩
        rwa [← same]
      · intro other
        rw [List.inj_on_of_nodup_map distinct inside other same]
        rfl

theorem mem_fileMap (distinct : (files.map BundleFile.path).Nodup) {path : String} :
    path ∈ fileMap files ↔ path ∈ files.map BundleFile.path := by
  rw [Std.ExtTreeMap.mem_iff_isSome_getElem?, Option.isSome_iff_exists]
  constructor
  · rintro ⟨content, found⟩
    exact List.mem_map_of_mem (f := BundleFile.path) ((getElem?_fileMap distinct).1 found)
  · intro inside
    obtain ⟨file, found, rfl⟩ := List.mem_map.1 inside
    exact ⟨file.content, (getElem?_fileMap distinct).2 found⟩

theorem nodup_toList (map : BTreeMap String FileContent) : map.toList.Nodup := by
  refine List.Pairwise.imp ?_ map.ordered_keys_toList
  rintro a b less rfl
  simp at less

/-- The map lists each file once. -/
theorem toList_fileMap (distinct : (files.map BundleFile.path).Nodup) :
    (fileMap files).toList.Perm (files.map BundleFile.pair) := by
  have nodup : (files.map BundleFile.pair).Nodup := by
    refine List.Nodup.of_map Prod.fst ?_
    rw [List.map_map]
    exact distinct
  rw [List.perm_ext_iff_of_nodup (nodup_toList _) nodup]
  rintro ⟨path, content⟩
  rw [Std.ExtTreeMap.mem_toList_iff_getElem?_eq_some, getElem?_fileMap distinct]
  constructor
  · intro inside; exact List.mem_map.2 ⟨_, inside, rfl⟩
  · intro inside
    obtain ⟨file, found, same⟩ := List.mem_map.1 inside
    cases same
    exact found

theorem size_fileMap (distinct : (files.map BundleFile.path).Nodup) :
    (fileMap files).size = files.length := by
  rw [← Std.ExtTreeMap.length_toList, (toList_fileMap distinct).length_eq, List.length_map]

/-- A map is the map of the files it lists. -/
theorem fileMap_toList (map : BTreeMap String FileContent) :
    fileMap (map.toList.map BundleFile.ofPair) = map := by
  have distinct : ((map.toList.map BundleFile.ofPair).map BundleFile.path).Nodup := by
    rw [List.map_map]
    refine List.Pairwise.map _ ?_ map.ordered_keys_toList
    rintro a b less (same : a.1 = b.1)
    rw [same] at less
    simp at less
  refine Std.ExtTreeMap.ext_toList ((toList_fileMap distinct).trans ?_)
  rw [List.map_map]
  exact (List.map_id _).symm ▸ .rfl

end FileMap

/-! ## Path order -/

/-- Path by path, each path once. -/
def InPathOrder (files : List BundleFile) : Prop :=
  files.Pairwise fun a b => a.path < b.path

theorem InPathOrder.distinct {files : List BundleFile} (ordered : InPathOrder files) :
    (files.map BundleFile.path).Nodup :=
  List.pairwise_map.2 (ordered.imp fun less => String.ne_of_lt less)

/-- `files.sort_by(|a, b| a.path.cmp(&b.path))`, which is stable.  The order of strings is
that of their UTF-8 bytes. -/
def sortFiles (files : List BundleFile) : List BundleFile :=
  files.insertionSort fun a b => a.path ≤ b.path

theorem sortFiles_perm (files : List BundleFile) : (sortFiles files).Perm files :=
  List.perm_insertionSort _ _

theorem mem_sortFiles {files : List BundleFile} {file : BundleFile} :
    file ∈ sortFiles files ↔ file ∈ files :=
  (sortFiles_perm files).mem_iff

instance : Std.Total fun a b : BundleFile => a.path ≤ b.path :=
  ⟨fun a b => String.le_total a.path b.path⟩

instance : IsTrans BundleFile fun a b => a.path ≤ b.path :=
  ⟨fun _ _ _ => String.le_trans⟩

theorem sortFiles_ordered {files : List BundleFile} (distinct : (files.map BundleFile.path).Nodup) :
    InPathOrder (sortFiles files) := by
  have sorted := List.pairwise_insertionSort (fun a b : BundleFile => a.path ≤ b.path) files
  have apart : (sortFiles files).Pairwise fun a b => a.path ≠ b.path :=
    List.pairwise_map.1 (((sortFiles_perm files).map _).nodup_iff.2 distinct)
  exact sorted.imp₂ (fun _ _ le ne => Std.lt_of_le_of_ne le ne) apart

theorem InPathOrder.eq_of_perm {files files' : List BundleFile} (ordered : InPathOrder files)
    (ordered' : InPathOrder files') (same : files.Perm files') : files = files' :=
  same.eq_of_pairwise (fun _ _ _ _ less greater => absurd less (String.lt_asymm greater))
    ordered ordered'

/-! ## The constructor -/

section New

variable {files : List BundleFile} {map built : BTreeMap String FileContent}

theorem insertFiles_eq_ok :
    insertFiles files map = .ok built ↔
      (∀ file ∈ files, GoodPath file.path) ∧ (files.map BundleFile.path).Nodup ∧
        (∀ file ∈ files, file.path ∉ map) ∧
        built = files.foldl (fun map file => map.insert file.path file.content) map := by
  induction files generalizing map with
  | nil => simp [insertFiles, eq_comm]
  | cons file rest ih =>
      rw [insertFiles]
      cases checked : normalisePath file.path with
      | error source =>
          have bad : ¬ GoodPath file.path := fun good => by
            rw [normalisePath_good good] at checked; cases checked
          simp [bad]
      | ok path =>
          obtain ⟨good, rfl⟩ := normalisePath_eq_ok.1 checked
          by_cases seen : file.path ∈ map
          · simp [seen]
          · have split : (∀ f ∈ rest, f.path ∉ map.insert file.path file.content) ↔
                file.path ∉ rest.map BundleFile.path ∧ ∀ f ∈ rest, f.path ∉ map := by
              simp only [Std.ExtTreeMap.mem_insert, Std.LawfulEqCmp.compare_eq_iff_eq, not_or,
                List.mem_map, not_exists, not_and]
              exact ⟨fun all => ⟨fun f inside same => (all f inside).1 same.symm,
                  fun f inside => (all f inside).2⟩,
                fun ⟨notIn, fresh⟩ f inside => ⟨fun same => notIn f inside same.symm,
                  fresh f inside⟩⟩
            simp only [seen, if_false, ih, split, List.forall_mem_cons, List.map_cons,
              List.nodup_cons, List.foldl_cons, not_false_eq_true, true_and, good]
            tauto

theorem insertFiles_empty :
    insertFiles files ∅ = .ok built ↔
      (∀ file ∈ files, GoodPath file.path) ∧ (files.map BundleFile.path).Nodup ∧
        built = fileMap files := by
  rw [insertFiles_eq_ok]
  simp [fileMap]

end New

namespace Bundle

/-- Validate `files` and `main`, enforcing the path rules and the size budget. -/
def new (main : String) (files : List BundleFile) (inputs : BTreeMap String String)
    (maxBytes : Nat) : Except BundleError Bundle :=
  if tooMany : maxFiles < files.length then .error (.tooManyFiles files.length)
  else if maxBytes < totalBytes files then .error (.tooLarge (totalBytes files) maxBytes)
  else match normalisePath main with
    | .error source => .error (.path main source)
    | .ok main =>
        match built : insertFiles files ∅ with
        | .error e => .error e
        | .ok map =>
            if hasMain : main ∈ map then
              .ok
                { main
                  files := map
                  inputs
                  goodPaths := by
                    obtain ⟨good, distinct, rfl⟩ := insertFiles_empty.1 built
                    intro path inside
                    obtain ⟨file, found, rfl⟩ := List.mem_map.1 ((mem_fileMap distinct).1 inside)
                    exact good file found
                  count := by
                    obtain ⟨-, distinct, rfl⟩ := insertFiles_empty.1 built
                    rw [size_fileMap distinct]
                    omega
                  hasMain }
            else .error (.missingMain main)

/-- What `Bundle::new` checks. -/
structure Accepts (main : String) (files : List BundleFile) (maxBytes : Nat) : Prop where
  count : files.length ≤ maxFiles
  bytes : totalBytes files ≤ maxBytes
  paths : ∀ file ∈ files, GoodPath file.path
  distinct : (files.map BundleFile.path).Nodup
  hasMain : main ∈ files.map BundleFile.path

variable {main : String} {files : List BundleFile} {inputs : BTreeMap String String}
  {maxBytes : Nat} {bundle : Bundle}

/-- **When a bundle is built, and what it holds.** -/
theorem new_eq_ok :
    new main files inputs maxBytes = .ok bundle ↔
      Accepts main files maxBytes ∧
        bundle.main = main ∧ bundle.inputs = inputs ∧ bundle.files = fileMap files := by
  unfold new
  constructor
  · intro made
    split_ifs at made with tooMany tooLarge
    cases checked : normalisePath main with
    | error source => rw [checked] at made; cases made
    | ok path =>
        obtain ⟨-, rfl⟩ := normalisePath_eq_ok.1 checked
        rw [checked] at made
        simp only at made
        split at made
        · cases made
        · rename_i map built
          split_ifs at made with hasMain
          obtain ⟨good, distinct, rfl⟩ := insertFiles_empty.1 built
          cases made
          exact ⟨⟨by omega, by omega, good, distinct, (mem_fileMap distinct).1 hasMain⟩,
            rfl, rfl, rfl⟩
  · rintro ⟨⟨count, bytes, paths, distinct, hasMain⟩, mainEq, inputsEq, filesEq⟩
    have goodMain : GoodPath main := by
      obtain ⟨file, inside, rfl⟩ := List.mem_map.1 hasMain
      exact paths file inside
    have built : insertFiles files ∅ = .ok (fileMap files) :=
      insertFiles_empty.2 ⟨paths, distinct, rfl⟩
    rw [dif_neg (by omega), if_neg (by omega), normalisePath_good goodMain]
    simp only
    split
    · rename_i failed; rw [built] at failed; cases failed
    · rename_i map again
      obtain rfl : fileMap files = map := by rw [built] at again; cases again; rfl
      rw [dif_pos ((mem_fileMap distinct).2 hasMain)]
      exact congrArg _ (Bundle.ext mainEq.symm filesEq.symm inputsEq.symm)

theorem new_ok (accepts : Accepts main files maxBytes) :
    ∃ bundle, new main files inputs maxBytes = .ok bundle := by
  obtain ⟨map, same⟩ : ∃ map, map = fileMap files := ⟨_, rfl⟩
  refine ⟨⟨main, map, inputs, ?_, ?_, ?_⟩, new_eq_ok.2 ⟨accepts, rfl, rfl, same⟩⟩
  · intro path inside
    rw [same, mem_fileMap accepts.distinct] at inside
    obtain ⟨file, found, rfl⟩ := List.mem_map.1 inside
    exact accepts.paths file found
  · rw [same, size_fileMap accepts.distinct]
    exact accepts.count
  · rw [same, mem_fileMap accepts.distinct]
    exact accepts.hasMain

/-- Attach validated string inputs for `sys.inputs`. -/
def withInputs (bundle : Bundle) (inputs : BTreeMap String String) : Bundle :=
  { bundle with inputs }

/-- The files in path order. -/
def fileList (bundle : Bundle) : List BundleFile := bundle.files.toList.map BundleFile.ofPair

theorem fileList_ordered (bundle : Bundle) : InPathOrder bundle.fileList := by
  unfold InPathOrder fileList
  refine List.pairwise_map.2 (bundle.files.ordered_keys_toList.imp fun less => ?_)
  exact compareOfLessAndEq_eq_lt.1 less

theorem new_fileList (made : new main files inputs maxBytes = .ok bundle) :
    bundle.fileList.Perm files := by
  obtain ⟨accepts, -, -, same⟩ := new_eq_ok.1 made
  unfold fileList
  rw [same]
  refine ((toList_fileMap accepts.distinct).map _).trans ?_
  rw [List.map_map]
  exact (List.map_id files).symm ▸ .rfl

theorem new_fileList_ordered (ordered : InPathOrder files)
    (made : new main files inputs maxBytes = .ok bundle) : bundle.fileList = files :=
  (fileList_ordered bundle).eq_of_perm ordered (new_fileList made)

end Bundle

end TypstMcp.Bundle
