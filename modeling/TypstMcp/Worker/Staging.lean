/-
Worker.Staging -- a bundle, staged as numbered files and put together again

The parent writes every file of a bundle under its index and, when it is named like
a font, once more into a directory of fonts; the worker reads them back by the
paths and kinds of the job and builds its own bundle.  `Staged` is what the loop of
`stage` keeps, and `rebuild_staged` that the worker's bundle is the parent's.
-/
import TypstMcp.Worker.Protocol

namespace TypstMcp.Worker

open TypstMcp.Bundle TypstMcp.Theory TypstMcp.Theory.Json FileTree

set_option autoImplicit false
set_option linter.dupNamespace false

/-! ## Names -/

/-- `Path::extension`: what follows the last dot of the file name, unless nothing precedes it. -/
def extension (path : String) : Option String :=
  let parts := ((segments path).getLastD []).splitOn '.'
  if parts.dropLast = [] ∨ parts.dropLast = [[]] then none
  else parts.getLast?.map String.ofList

/-- `to_ascii_lowercase`. -/
def toAsciiLowercase (text : String) : String := String.ofList (text.toList.map Char.toLower)

def fontExtensions : List String := ["ttf", "otf", "ttc"]

def isFontPath (path : String) : Bool :=
  (extension path).any fun ext => fontExtensions.contains (toAsciiLowercase ext)

/-- The name a font is copied under. -/
def copyName (index : Nat) (path : String) : String :=
  toString index ++ "." ++ toAsciiLowercase ((extension path).getD "ttf")

/-! ## Staging -/

/-- `create_dir`, which makes no parents. -/
def makeDir (t : FileTree) (p : Path) : Except ErrorKind FileTree :=
  if pathExists t p then .error .alreadyExists
  else if isDir t p.dropLast then .ok (t.insert p .dir)
  else .error .notFound

/-- `std::fs::write`. -/
def writeFile (t : FileTree) (p : Path) (bytes : Bytes) : Except ErrorKind FileTree := do
  let t ← createFile t p
  return writeAll t p bytes

/-- The tree, the files listed so far, and the directory of fonts once there is one. -/
structure Staging where
  tree : FileTree
  files : List JobFile := []
  uploadedFontDir : Option Path := none

def kindOf : FileContent → JobFileKind
  | .text _ => .text
  | .binary _ => .binary

def inputDir (workspace : Path) : Path := workspace ++ ["input"]

def outputDir (workspace : Path) : Path := workspace ++ ["output"]

def fontsDir (workspace : Path) : Path := workspace ++ ["fonts"]

/-- The tree with a directory of fonts, made for the first one. -/
def withFontsDir (workspace : Path) (staging : Staging) : Except ErrorKind FileTree :=
  match staging.uploadedFontDir with
  | some _ => .ok staging.tree
  | none => makeDir staging.tree (fontsDir workspace)

/-- Copy a file that is named like a font. -/
def stageFont (workspace : Path) (staging : Staging) (index : Nat) (file : BundleFile) :
    Except ErrorKind Staging :=
  if isFontPath file.path then do
    let tree ← withFontsDir workspace staging
    let dir := staging.uploadedFontDir.getD (fontsDir workspace)
    let tree ← writeFile tree (dir ++ [copyName index file.path]) file.content.asBytes
    return { staging with tree, uploadedFontDir := some dir }
  else .ok staging

/-- One turn of the loop: the file of this index. -/
def stageFile (workspace : Path) (staging : Staging) (index : Nat) (file : BundleFile) :
    Except ErrorKind Staging := do
  let source := inputDir workspace ++ [toString index]
  let tree ← writeFile staging.tree source file.content.asBytes
  let staging ← stageFont workspace { staging with tree } index file
  return { staging with files := staging.files ++ [⟨file.path, source, kindOf file.content⟩] }

/-- The loop over the files, numbered from `index`. -/
def stageFiles (workspace : Path) : Nat → List BundleFile → Staging → Except ErrorKind Staging
  | _, [], staging => .ok staging
  | index, file :: rest, staging => do
      let staging ← stageFile workspace staging index file
      stageFiles workspace (index + 1) rest staging

/-- A staged job and its private directory. -/
structure PreparedJob where
  workspace : Path
  job : Job

/-- Stage an already validated bundle below `workspaceParent`; `name` is the fresh name the
temporary directory gets. -/
def stage (workspaceParent : Path) (name : String) (bundle : Bundle) (fontDirs : List Path)
    (limits : JobLimits) (t : FileTree) : Except ErrorKind (PreparedJob × FileTree) := do
  let t ← createDirAll t workspaceParent
  let workspace := workspaceParent ++ [name]
  let t ← makeDir t workspace
  let t ← makeDir t (inputDir workspace)
  let t ← makeDir t (outputDir workspace)
  let staging ← stageFiles workspace 0 bundle.fileList { tree := t }
  return ({ workspace
            job := {
              main := bundle.main
              files := staging.files
              inputs := bundle.inputs
              fontDirs := fontDirs ++ staging.uploadedFontDir.toList
              outputDir := outputDir workspace
              limits } }, staging.tree)

/-! ## The worker's side -/

/-- Why a worker gives a job up before it compiles; the text goes to its stderr. -/
inductive Internal
  | unreadable (source : Path) (error : ErrorKind)
  | notUtf8
  | invalidBundle (error : BundleError)
  deriving DecidableEq, Repr

def readStaged (t : FileTree) (file : JobFile) : Except Internal BundleFile :=
  match FileTree.read t file.source with
  | .error e => .error (.unreadable file.source e)
  | .ok bytes =>
      match file.kind with
      | .binary => .ok ⟨file.path, .binary bytes⟩
      | .text =>
          match fromUtf8 bytes with
          | none => .error .notUtf8
          | some text => .ok ⟨file.path, .text text⟩

/-- The bundle `execute` compiles. -/
def rebuild (t : FileTree) (job : Job) : Except Internal Bundle := do
  let files ← job.files.mapM (readStaged t)
  (Bundle.new job.main files job.inputs job.limits.maxBundleBytes).mapError .invalidBundle

/-! ## Numbers name files apart -/

theorem toString_digits (n : Nat) : (toString n).toList = Nat.toDigits 10 n := by
  show (Nat.repr n).toList = _
  simp [Nat.repr]

theorem toString_inj {m n : Nat} (same : toString m = toString n) : m = n := by
  have digits := congrArg String.toList same
  rw [toString_digits, toString_digits] at digits
  have value := congrArg (fun chars => Nat.ofDigitChars 10 chars 0) digits
  simpa using value

theorem dot_not_digit (n : Nat) : '.' ∉ (toString n).toList := by
  rw [toString_digits]
  intro inside
  have := Nat.isDigit_of_mem_toDigits (by decide) (by decide) inside
  revert this
  decide

/-- What a font is copied under tells its index. -/
theorem copyName_inj {i j : Nat} {p q : String} (same : copyName i p = copyName j q) : i = j := by
  have chars := congrArg String.toList same
  simp only [copyName, String.toList_append, List.append_assoc] at chars
  have before : ∀ (n : Nat) (more : List Char),
      (((toString n).toList ++ (".".toList ++ more)).takeWhile (· ≠ '.')) = (toString n).toList := by
    intro n more
    have digits : ∀ c ∈ (toString n).toList, decide (c ≠ '.') = true := by
      intro c inside
      simp only [decide_eq_true_eq]
      rintro rfl
      exact dot_not_digit n inside
    rw [List.takeWhile_append_of_pos digits]
    simp
  have := congrArg (List.takeWhile (· ≠ '.')) chars
  rw [before, before] at this
  exact toString_inj (String.toList_inj.1 this)

/-! ## Single calls -/

theorem lookup_writeFile {t t' : FileTree} {p : Path} {bytes : Bytes}
    (made : writeFile t p bytes = .ok t') (q : Path) :
    t'.lookup q = if q = p then some (.file bytes) else t.lookup q := by
  unfold writeFile at made
  obtain ⟨opened, created, made⟩ := bind_eq_ok.1 made
  obtain rfl := pure_eq_ok.1 made
  have empty := lookup_createFile created p
  rw [if_pos rfl] at empty
  rw [lookup_writeAll empty, lookup_createFile created]
  split_ifs <;> rfl

theorem writeFile_ok {t : FileTree} {dir : Path} {name : String} (bytes : Bytes)
    (parent : t.lookup dir = some .dir) (free : t.lookup (dir ++ [name]) ≠ some .dir) :
    ∃ t', writeFile t (dir ++ [name]) bytes = .ok t' := by
  have open_ : createFile t (dir ++ [name]) = .ok (t.insert (dir ++ [name]) (.file [])) := by
    rw [createFile, if_neg (by rwa [isDir_iff]), List.dropLast_concat,
      if_pos (isDir_iff.2 parent)]
  exact ⟨_, bind_eq_ok.2 ⟨_, open_, rfl⟩⟩

theorem makeDir_eq_ok {t t' : FileTree} {dir : Path} {name : String} :
    makeDir t (dir ++ [name]) = .ok t' ↔
      t.lookup (dir ++ [name]) = none ∧ t.lookup dir = some .dir ∧
        t' = t.insert (dir ++ [name]) .dir := by
  unfold makeDir pathExists
  rw [List.dropLast_concat]
  cases there : t.lookup (dir ++ [name]) with
  | some node => simp
  | none =>
      by_cases parent : isDir t dir = true
      · simp [parent, isDir_iff.1 parent, eq_comm]
      · have : t.lookup dir ≠ some .dir := fun is => parent (isDir_iff.2 is)
        simp [parent, this]

/-! ## The loop -/

/-- What a copied font is: its name in the directory of fonts, and its bytes. -/
def IsCopy (files : List BundleFile) (index : Nat) (name : String) (bytes : Bytes) : Prop :=
  ∃ file, files[index]? = some file ∧ isFontPath file.path = true ∧
    name = copyName index file.path ∧ bytes = file.content.asBytes

theorem IsCopy.index {files : List BundleFile} {i j : Nat} {name : String} {a b : Bytes}
    (first : IsCopy files i name a) (second : IsCopy files j name b) : i = j := by
  obtain ⟨_, -, -, named, -⟩ := first
  obtain ⟨_, -, -, named', -⟩ := second
  exact copyName_inj (named.symm.trans named')

theorem isCopy_snoc {files : List BundleFile} {file : BundleFile} {index : Nat} {name : String}
    {bytes : Bytes} :
    IsCopy (files ++ [file]) index name bytes ↔
      IsCopy files index name bytes ∨ (index = files.length ∧ isFontPath file.path = true ∧
        name = copyName files.length file.path ∧ bytes = file.content.asBytes) := by
  unfold IsCopy
  rcases Nat.lt_trichotomy index files.length with less | rfl | more
  · rw [List.getElem?_append_left less]
    simp [Nat.ne_of_lt less]
  · simp
  · rw [List.getElem?_eq_none (by simp; omega), List.getElem?_eq_none (by omega)]
    simp [Nat.ne_of_gt more]

/-- The job's record of the file of this index. -/
def record (workspace : Path) (index : Nat) (file : BundleFile) : JobFile :=
  ⟨file.path, inputDir workspace ++ [toString index], kindOf file.content⟩

/-- **What the loop has staged.**  Every file under its index, every font once more under its
copy's name, and nothing else among the fonts. -/
structure Staged (workspace : Path) (done : List BundleFile) (staging : Staging) : Prop where
  above : staging.tree.lookup workspace = some .dir
  files : staging.files = done.mapIdx (record workspace)
  inputs : staging.tree.lookup (inputDir workspace) = some .dir
  input : ∀ name, staging.tree.lookup (inputDir workspace ++ [name]) ≠ some .dir
  staged : ∀ (index : Nat) (file : BundleFile), done[index]? = some file →
    staging.tree.lookup (inputDir workspace ++ [toString index]) =
      some (.file file.content.asBytes)
  fontDir : staging.uploadedFontDir =
    if done.any fun file => isFontPath file.path then some (fontsDir workspace) else none
  fonts : staging.tree.lookup (fontsDir workspace) =
    if done.any fun file => isFontPath file.path then some .dir else none
  copies : ∀ names, names ≠ [] → ∀ node,
    staging.tree.lookup (fontsDir workspace ++ names) = some node ↔
      ∃ index name bytes, IsCopy done index name bytes ∧ names = [name] ∧ node = .file bytes

section Loop

variable {workspace : Path} {done rest : List BundleFile} {file : BundleFile}
  {staging next : Staging}

theorem input_ne_fonts (workspace : Path) (name : String) (names : Path) :
    inputDir workspace ++ [name] ≠ fontsDir workspace ++ names := by
  simp [inputDir, fontsDir]

/-- A font is copied, and nothing but its copy and the directory changes. -/
theorem stageFont_ok (staged : Staged workspace done staging) {tree : FileTree}
    (fonts : tree.lookup (fontsDir workspace) = staging.tree.lookup (fontsDir workspace))
    (above : tree.lookup workspace = some .dir) (index : Nat)
    (font : isFontPath file.path = true)
    (free : tree.lookup (fontsDir workspace ++ [copyName index file.path]) ≠ some .dir) :
    ∃ next, stageFont workspace { staging with tree } index file = .ok next ∧
      next.files = staging.files ∧ next.uploadedFontDir = some (fontsDir workspace) ∧
      ∀ q, next.tree.lookup q =
        if q = fontsDir workspace ++ [copyName index file.path] then
          some (.file file.content.asBytes)
        else if q = fontsDir workspace then some .dir else tree.lookup q := by
  have copy : fontsDir workspace ++ [copyName index file.path] ≠ fontsDir workspace := by simp
  have given := staged.fontDir
  rw [staged.fonts] at fonts
  -- the directory is there, or it is made
  obtain ⟨made, ready, lookup⟩ : ∃ made,
      withFontsDir workspace { staging with tree } = .ok made ∧
      ∀ q, made.lookup q = if q = fontsDir workspace then some .dir else tree.lookup q := by
    unfold withFontsDir
    split_ifs at given fonts
    · simp only [given]
      refine ⟨tree, rfl, fun q => ?_⟩
      split_ifs with same
      · rw [same, fonts]
      · rfl
    · simp only [given]
      exact ⟨_, makeDir_eq_ok.2 ⟨fonts, above, rfl⟩, fun q => lookup_insert_eq _ _ _ _⟩
  have dir : staging.uploadedFontDir.getD (fontsDir workspace) = fontsDir workspace := by
    rw [given]
    split_ifs <;> rfl
  obtain ⟨written, ok⟩ := @writeFile_ok made (fontsDir workspace) (copyName index file.path)
    file.content.asBytes (by rw [lookup, if_pos rfl]) (by rw [lookup, if_neg copy]; exact free)
  refine ⟨{ staging with tree := written, uploadedFontDir := some (fontsDir workspace) }, ?_, rfl,
    rfl, ?_⟩
  · rw [stageFont, if_pos font]
    refine bind_eq_ok.2 ⟨made, ready, ?_⟩
    simp only [dir]
    exact bind_eq_ok.2 ⟨written, ok, rfl⟩
  · intro q
    rw [lookup_writeFile ok, lookup]

/-- **One file more.** -/
theorem Staged.step (staged : Staged workspace done staging) (file : BundleFile) :
    ∃ next, stageFile workspace staging done.length file = .ok next ∧
      Staged workspace (done ++ [file]) next := by
  obtain ⟨tree, written⟩ := writeFile_ok file.content.asBytes staged.inputs
    (staged.input (toString done.length))
  have lookup := lookup_writeFile written
  have fresh : ∀ (index : Nat) (g : BundleFile), done[index]? = some g →
      toString index ≠ toString done.length := by
    intro index g found same
    have := (List.getElem?_eq_some_iff.1 found).1
    have := toString_inj same
    omega
  have above : tree.lookup workspace = some .dir := by
    rw [lookup, if_neg (by simp [inputDir])]
    exact staged.above
  have inputs : tree.lookup (inputDir workspace) = some .dir := by
    rw [lookup, if_neg (by simp)]
    exact staged.inputs
  have fontsKept : ∀ names, tree.lookup (fontsDir workspace ++ names) =
      staging.tree.lookup (fontsDir workspace ++ names) := fun names => by
    rw [lookup, if_neg (input_ne_fonts workspace _ names).symm]
  have fontsDirKept : tree.lookup (fontsDir workspace) =
      staging.tree.lookup (fontsDir workspace) := by
    have := fontsKept []
    rwa [List.append_nil] at this
  have input : ∀ name, tree.lookup (inputDir workspace ++ [name]) ≠ some .dir := by
    intro name
    rw [lookup]
    split_ifs
    · simp
    · exact staged.input name
  have stagedFile : ∀ (index : Nat) (g : BundleFile), (done ++ [file])[index]? = some g →
      tree.lookup (inputDir workspace ++ [toString index]) = some (.file g.content.asBytes) := by
    intro index g found
    rcases Nat.lt_or_ge index done.length with less | more
    · rw [List.getElem?_append_left less] at found
      rw [lookup, if_neg (by simpa using fresh index g found)]
      exact staged.staged index g found
    · have last : index = done.length := by
        have := (List.getElem?_eq_some_iff.1 found).1
        rw [List.length_append, List.length_singleton] at this
        omega
      subst last
      obtain rfl : file = g := by simpa using found
      rw [lookup, if_pos rfl]
  have files : staging.files ++ [record workspace done.length file] =
      (done ++ [file]).mapIdx (record workspace) := by
    rw [staged.files, List.mapIdx_append]
    simp
  have any : (done ++ [file]).any (fun f => isFontPath f.path) =
      (done.any (fun f => isFontPath f.path) || isFontPath file.path) := by simp
  by_cases font : isFontPath file.path = true
  · have free : tree.lookup (fontsDir workspace ++ [copyName done.length file.path]) ≠
        some .dir := by
      rw [fontsKept]
      intro is
      obtain ⟨_, _, _, -, -, none⟩ := (staged.copies _ (by simp) _).1 is
      cases none
    obtain ⟨next, copied, sameFiles, fontDir, after⟩ :=
      stageFont_ok staged fontsDirKept above done.length font free
    have away : ∀ name, inputDir workspace ++ [name] ≠
          fontsDir workspace ++ [copyName done.length file.path] ∧
        inputDir workspace ++ [name] ≠ fontsDir workspace := by
      intro name
      simp [inputDir, fontsDir]
    refine ⟨{ next with files := next.files ++ [record workspace done.length file] },
      bind_eq_ok.2 ⟨tree, written, bind_eq_ok.2 ⟨next, copied, rfl⟩⟩, ?_⟩
    refine ⟨?_, by rw [sameFiles]; exact files, ?_, ?_, ?_, ?_, ?_, ?_⟩
    · rw [after, if_neg (by simp [fontsDir]), if_neg (by simp [fontsDir])]
      exact above
    · rw [after, if_neg (by simp [fontsDir, inputDir]), if_neg (by simp [fontsDir, inputDir])]
      exact inputs
    · intro name
      rw [after, if_neg (away name).1, if_neg (away name).2]
      exact input name
    · intro index g found
      rw [after, if_neg (away _).1, if_neg (away _).2]
      exact stagedFile index g found
    · rw [any, font, Bool.or_true, if_pos rfl]
      exact fontDir
    · rw [any, font, Bool.or_true, if_pos rfl, after, if_neg (by simp), if_pos rfl]
    · intro names nonempty node
      have inside : fontsDir workspace ++ names ≠ fontsDir workspace := by simpa using nonempty
      rw [after, if_neg inside]
      simp only [List.append_cancel_left_eq, isCopy_snoc]
      split_ifs with here
      · constructor
        · rintro ⟨⟩
          exact ⟨done.length, _, _, .inr ⟨rfl, font, rfl, rfl⟩, here, rfl⟩
        · rintro ⟨index, name, bytes, old | ⟨-, -, -, rfl⟩, named, rfl⟩
          · obtain ⟨g, found, -, rfl, -⟩ := old
            rw [here, List.singleton_inj] at named
            have := (List.getElem?_eq_some_iff.1 found).1
            have := copyName_inj named
            omega
          · rfl
      · rw [fontsKept, staged.copies names nonempty]
        constructor
        · rintro ⟨index, name, bytes, old, named, is⟩
          exact ⟨index, name, bytes, .inl old, named, is⟩
        · rintro ⟨index, name, bytes, old | ⟨-, -, rfl, -⟩, named, is⟩
          · exact ⟨index, name, bytes, old, named, is⟩
          · exact absurd named here
  · have plain : isFontPath file.path = false := by simpa using font
    refine ⟨{ staging with
        tree, files := staging.files ++ [record workspace done.length file] },
      bind_eq_ok.2 ⟨tree, written, bind_eq_ok.2 ⟨{ staging with tree }, ?_, rfl⟩⟩, ?_⟩
    · rw [stageFont, if_neg font]
    · refine ⟨above, files, inputs, input, stagedFile, ?_, ?_, ?_⟩
      · rw [any, plain, Bool.or_false]
        exact staged.fontDir
      · rw [any, plain, Bool.or_false]
        exact fontsDirKept.trans staged.fonts
      · intro names nonempty node
        show tree.lookup _ = _ ↔ _
        rw [fontsKept, staged.copies names nonempty]
        simp [isCopy_snoc, plain]

/-- **The whole loop.** -/
theorem Staged.run (staged : Staged workspace done staging) (rest : List BundleFile) :
    ∃ last, stageFiles workspace done.length rest staging = .ok last ∧
      Staged workspace (done ++ rest) last := by
  induction rest generalizing done staging with
  | nil => exact ⟨staging, rfl, by rwa [List.append_nil]⟩
  | cons file rest ih =>
      obtain ⟨next, first, onward⟩ := staged.step file
      obtain ⟨last, others, whole⟩ := ih onward
      rw [List.length_append, List.length_singleton] at others
      rw [List.append_assoc, List.singleton_append] at whole
      exact ⟨last, bind_eq_ok.2 ⟨next, first, others⟩, whole⟩

end Loop

/-! ## The whole way -/

section Whole

variable {workspaceParent : Path} {name : String} {bundle : Bundle} {fontDirs : List Path}
  {limits : JobLimits} {t t' : FileTree} {prepared : PreparedJob}

/-- The tree with an empty workspace. -/
def withWorkspace (t : FileTree) (workspace : Path) : FileTree :=
  ((t.insert workspace .dir).insert (inputDir workspace) .dir).insert (outputDir workspace) .dir

theorem staged_start {workspace : Path} (closed : Closed t) (fresh : t.lookup workspace = none) :
    Staged workspace [] { tree := withWorkspace t workspace } := by
  have bare := closed.lookup_below fresh
  refine ⟨?_, rfl, ?_, ?_, by simp, rfl, ?_, ?_⟩
  · simp only [withWorkspace, lookup_insert_eq]
    rw [if_neg (by simp [outputDir]), if_neg (by simp [inputDir]), if_pos trivial]
  · simp only [withWorkspace, lookup_insert_eq]
    rw [if_neg (by simp [inputDir, outputDir]), if_pos trivial]
  · intro name
    simp only [withWorkspace, lookup_insert_eq]
    rw [if_neg (by simp [inputDir, outputDir]), if_neg (by simp), if_neg (by simp [inputDir]),
      inputDir, List.append_assoc, bare]
    simp
  · simp only [withWorkspace, lookup_insert_eq]
    rw [if_neg (by simp [fontsDir, outputDir]), if_neg (by simp [fontsDir, inputDir]),
      if_neg (by simp [fontsDir]), fontsDir, bare]
    rfl
  · intro names nonempty node
    simp only [withWorkspace, lookup_insert_eq]
    rw [if_neg (by simp [fontsDir, outputDir]), if_neg (by simp [fontsDir, inputDir]),
      if_neg (by simp [fontsDir]), fontsDir, List.append_assoc, bare]
    simp [IsCopy]

/-- What `stage` did: a fresh workspace, then the loop over the files. -/
theorem stage_looped
    (ok : stage workspaceParent name bundle fontDirs limits t = .ok (prepared, t')) :
    ∃ parents staging, createDirAll t workspaceParent = .ok parents ∧
      parents.lookup (workspaceParent ++ [name]) = none ∧
      stageFiles (workspaceParent ++ [name]) 0 bundle.fileList
        { tree := withWorkspace parents (workspaceParent ++ [name]) } = .ok staging ∧
      t' = staging.tree ∧ prepared = ⟨workspaceParent ++ [name], {
        main := bundle.main
        files := staging.files
        inputs := bundle.inputs
        fontDirs := fontDirs ++ staging.uploadedFontDir.toList
        outputDir := outputDir (workspaceParent ++ [name])
        limits }⟩ := by
  obtain ⟨parents, above, ok⟩ := bind_eq_ok.1 ok
  obtain ⟨_, made, ok⟩ := bind_eq_ok.1 ok
  obtain ⟨_, input, ok⟩ := bind_eq_ok.1 ok
  obtain ⟨_, output, ok⟩ := bind_eq_ok.1 ok
  obtain ⟨staging, looped, ok⟩ := bind_eq_ok.1 ok
  obtain ⟨same, tree⟩ := Prod.mk.inj (pure_eq_ok.1 ok)
  obtain ⟨fresh, -, rfl⟩ := makeDir_eq_ok.1 made
  obtain ⟨-, -, rfl⟩ := makeDir_eq_ok.1 input
  obtain ⟨-, -, rfl⟩ := makeDir_eq_ok.1 output
  exact ⟨parents, staging, above, fresh, looped, tree, same⟩

/-- **A staged job and the tree it leaves.** -/
theorem stage_staged (closed : Closed t)
    (ok : stage workspaceParent name bundle fontDirs limits t = .ok (prepared, t')) :
    ∃ staging, Staged (workspaceParent ++ [name]) bundle.fileList staging ∧ t' = staging.tree ∧
      prepared.workspace = workspaceParent ++ [name] ∧ prepared.job = {
        main := bundle.main
        files := staging.files
        inputs := bundle.inputs
        fontDirs := fontDirs ++ staging.uploadedFontDir.toList
        outputDir := outputDir (workspaceParent ++ [name])
        limits } := by
  obtain ⟨parents, staging, above, fresh, looped, rfl, rfl⟩ := stage_looped ok
  obtain ⟨last, again, staged⟩ :=
    (staged_start (closed.createDirAll above) fresh).run bundle.fileList
  obtain rfl : last = staging := Except.ok.inj (again.symm.trans looped)
  exact ⟨last, staged, rfl, rfl, rfl⟩

theorem readStaged_record {workspace : Path} {index : Nat} {file : BundleFile}
    (there : t.lookup (inputDir workspace ++ [toString index]) =
      some (.file file.content.asBytes)) :
    readStaged t (record workspace index file) = .ok file := by
  obtain ⟨path, content⟩ := file
  unfold readStaged FileTree.read record
  rw [there]
  cases content with
  | text text => simp [kindOf, FileContent.asBytes, fromUtf8_utf8]
  | binary bytes => rfl

/-- A bundle is built again from the files it lists. -/
theorem new_fileList_again {main : String} {files : List BundleFile}
    {inputs : BTreeMap String String} {maxBytes : Nat}
    (made : Bundle.new main files inputs maxBytes = .ok bundle) :
    Bundle.new bundle.main bundle.fileList bundle.inputs maxBytes = .ok bundle := by
  obtain ⟨accepts, mainEq, -, -⟩ := Bundle.new_eq_ok.1 made
  have perm := Bundle.new_fileList made
  refine Bundle.new_eq_ok.2 ⟨?_, rfl, rfl, (fileMap_toList bundle.files).symm⟩
  exact {
    count := perm.length_eq ▸ accepts.count
    bytes := by
      have same : totalBytes bundle.fileList = totalBytes files := (perm.map _).sum_eq
      exact same ▸ accepts.bytes
    paths := fun file inside => accepts.paths file (perm.mem_iff.1 inside)
    distinct := (Bundle.fileList_ordered bundle).distinct
    hasMain := mainEq ▸ (perm.map _).mem_iff.2 accepts.hasMain }

/-- **The worker's bundle is the parent's.** -/
theorem rebuild_staged {main : String} {files : List BundleFile} {inputs : BTreeMap String String}
    {maxBytes : Nat} (made : Bundle.new main files inputs maxBytes = .ok bundle)
    {workspace : Path} {staging : Staging} (staged : Staged workspace bundle.fileList staging)
    {job : Job} (jobMain : job.main = bundle.main) (jobFiles : job.files = staging.files)
    (jobInputs : job.inputs = bundle.inputs) (limit : job.limits.maxBundleBytes = maxBytes) :
    rebuild staging.tree job = .ok bundle := by
  have read : job.files.mapM (readStaged staging.tree) = .ok bundle.fileList := by
    rw [jobFiles, staged.files, mapM_eq_ok, List.forall₂_iff_get]
    refine ⟨List.length_mapIdx, ?_⟩
    intro index inside inside'
    simp only [List.get_eq_getElem, List.getElem_mapIdx]
    exact readStaged_record (staged.staged index _ (List.getElem?_eq_getElem inside'))
  refine bind_eq_ok.2 ⟨_, read, mapError_eq_ok.2 ?_⟩
  rw [jobMain, jobInputs, limit]
  exact new_fileList_again made

/-- What is in the directory of fonts, and when the job names it. -/
structure FontsCopied (t : FileTree) (workspace : Path) (bundle : Bundle) (fontDirs : List Path)
    (job : Job) : Prop where
  dirs : job.fontDirs = fontDirs ++
    if bundle.fileList.any fun file => isFontPath file.path then [fontsDir workspace] else []
  copies : ∀ names, names ≠ [] → ∀ node,
    t.lookup (fontsDir workspace ++ names) = some node ↔
      ∃ index name bytes, IsCopy bundle.fileList index name bytes ∧ names = [name] ∧
        node = .file bytes
  once : ∀ i j name a b, IsCopy bundle.fileList i name a → IsCopy bundle.fileList j name b → i = j

/-- **Parent and worker agree on the bundle.**  The job is read as it was written, the worker builds
the parent's bundle from what is staged, and of the files exactly those named like fonts are
copied, once each, into the directory of fonts. -/
theorem worker_agrees (codec : Codec Job) (main : String) (files : List BundleFile)
    (inputs : BTreeMap String String) (maxBytes : Nat) (bundle : Bundle) (workspaceParent : Path)
    (name : String) (fontDirs : List Path) (limits : JobLimits) (t t' : FileTree)
    (prepared : PreparedJob) (payload : Bytes) (lossless : codec.Lossless) (closed : Closed t)
    (made : Bundle.new main files inputs maxBytes = .ok bundle)
    (limit : limits.maxBundleBytes = maxBytes)
    (staged : stage workspaceParent name bundle fontDirs limits t = .ok (prepared, t'))
    (encoded : codec.toVec prepared.job = .ok payload) (fits : payload.length ≤ maxFrameBytes) :
    ∃ frame, writeFrame codec prepared.job = .ok frame ∧
      ∃ job, readFrame codec frame = .ok (job, []) ∧ rebuild t' job = .ok bundle ∧
        FontsCopied t' prepared.workspace bundle fontDirs job := by
  obtain ⟨frame, written⟩ := writeFrame_ok encoded fits
  have read := readFrame_writeFrame lossless written []
  rw [List.append_nil] at read
  refine ⟨frame, written, prepared.job, read, ?_⟩
  obtain ⟨staging, whole, rfl, workspace, job⟩ := stage_staged closed staged
  rw [workspace, job]
  refine ⟨rebuild_staged made whole rfl rfl rfl limit, ?_, whole.copies, ?_⟩
  · show fontDirs ++ staging.uploadedFontDir.toList = _
    rw [whole.fontDir]
    split_ifs <;> rfl
  · intro i j name a b first second
    exact first.index second

end Whole

/-! ## A job in the text of `serde_json` -/

def quoted (text : String) : String := String.ofList (quote text.toList)

def listText (items : List String) : String := "[" ++ ",".intercalate items ++ "]"

def pathText (path : Path) : String := quoted ("/" ++ "/".intercalate path)

def JobFile.text (file : JobFile) : String :=
  "\x7b\"path\":" ++ quoted file.path ++ ",\"source\":" ++ pathText file.source ++ ",\"kind\":" ++
    (match file.kind with | .text => "\"text\"" | .binary => "\"binary\"") ++ "\x7d"

def JobLimits.text (limits : JobLimits) : String :=
  "\x7b\"max_bundle_bytes\":" ++ toString limits.maxBundleBytes ++
    ",\"max_pages\":" ++ toString limits.maxPages ++
    ",\"preview_pages\":" ++ listText (limits.previewPages.map toString) ++
    ",\"preview_scale_millis\":" ++ toString limits.previewScaleMillis ++
    ",\"preview_max_px\":" ++ toString limits.previewMaxPx ++
    ",\"memory_bytes\":" ++ toString limits.memoryBytes ++ "\x7d"

def Job.text (job : Job) : String :=
  "\x7b\"main\":" ++ quoted job.main ++ ",\"files\":" ++ listText (job.files.map JobFile.text) ++
    ",\"inputs\":\x7b" ++
    ",".intercalate (job.inputs.toList.map fun pair => quoted pair.1 ++ ":" ++ quoted pair.2) ++
    "\x7d,\"font_dirs\":" ++ listText (job.fontDirs.map pathText) ++
    ",\"output_dir\":" ++ pathText job.outputDir ++ ",\"limits\":" ++ job.limits.text ++ "\x7d"

/-- `serde_json` at the one value with this text. -/
def Codec.spelled {T : Type} [DecidableEq T] (text : String) (value : T) : Codec T where
  toVec other := if other = value then .ok (utf8 text) else .error "another value"
  fromSlice payload := if payload = utf8 text then .ok value else .error "expected value"

theorem Codec.spelled_lossless {T : Type} [DecidableEq T] (text : String) (value : T) :
    (spelled text value).Lossless := by
  intro other payload encoded
  simp only [spelled] at encoded ⊢
  split_ifs at encoded with same
  rw [same, if_pos (Except.ok.inj encoded).symm]

/-- The codec at one job. -/
def codecAt (job : Job) : Codec Job := .spelled job.text job

theorem codecAt_lossless (job : Job) : (codecAt job).Lossless := Codec.spelled_lossless job.text job

def letterFiles : List BundleFile :=
  [⟨"main.typ", .text "= Dear reader"⟩, ⟨"fonts/Noto Sans.TTF", .binary [0, 1, 0, 0]⟩,
    ⟨"fonts/readme.txt", .binary [0x41]⟩]

def rootTree : FileTree := (∅ : FileTree).insert [] .dir

theorem rootTree_closed : Closed rootTree := by
  intro p n there
  rw [rootTree, lookup_insert_eq, if_neg (by simp)] at there
  cases there

theorem worker_agrees_letter :
    ∃ bundle, Bundle.new "main.typ" letterFiles ∅ 1024 = .ok bundle ∧
      ∃ prepared t', stage ["work"] "compile-k3v9ab" bundle [["usr", "share", "fonts"]]
          { maxBundleBytes := 1024 } rootTree = .ok (prepared, t') ∧
        ∃ frame, writeFrame (codecAt prepared.job) prepared.job = .ok frame ∧
          ∃ job, readFrame (codecAt prepared.job) frame = .ok (job, []) ∧
            rebuild t' job = .ok bundle ∧
            FontsCopied t' prepared.workspace bundle [["usr", "share", "fonts"]] job := by
  have evaluated : ((Bundle.new "main.typ" letterFiles ∅ 1024).toOption.any fun bundle =>
      (stage ["work"] "compile-k3v9ab" bundle [["usr", "share", "fonts"]]
        { maxBundleBytes := 1024 } rootTree).toOption.any fun staged =>
          (utf8 staged.1.job.text).length ≤ maxFrameBytes) = true := by
    decide +kernel
  cases made : Bundle.new "main.typ" letterFiles ∅ 1024 with
  | error e => rw [made] at evaluated; cases evaluated
  | ok bundle =>
      rw [made] at evaluated
      cases staged : stage ["work"] "compile-k3v9ab" bundle [["usr", "share", "fonts"]]
          { maxBundleBytes := 1024 } rootTree with
      | error e =>
          simp only [Except.toOption, Option.any_some, staged, Option.any_none] at evaluated
          cases evaluated
      | ok out =>
          obtain ⟨prepared, t'⟩ := out
          simp only [staged, Except.toOption, Option.any_some, decide_eq_true_eq] at evaluated
          exact ⟨bundle, rfl, prepared, t', staged, worker_agrees (codecAt prepared.job) "main.typ"
            letterFiles ∅ 1024 bundle ["work"] "compile-k3v9ab" [["usr", "share", "fonts"]] _ _ t'
            prepared (utf8 prepared.job.text) (codecAt_lossless _) rootTree_closed made rfl staged
            (if_pos rfl) evaluated⟩

end TypstMcp.Worker
