/-
Worker.Outputs -- what the worker writes, and what the parent reads back

The worker writes the PDF and a PNG for each page it drew under names both sides
derive, and returns the pages' numbers and sizes.  Of a page asked for twice it
writes one file and returns two entries; the parent takes a number it has seen for a
broken worker.

* `readOutputs_execute`: the parent reads back what the worker wrote exactly when no
  page was asked for twice.
* `execute_staged`: of a staged job the worker returns what its compile came to.
-/
import TypstMcp.Worker.Compile

namespace TypstMcp.Worker

open TypstMcp.Bundle TypstMcp.Theory FileTree
open TypstMcp.Render (Diagnostic)

set_option autoImplicit false

/-! ## The worker's side -/

/-- Fixed PDF filename inside a private job output directory. -/
def pdfName : String := "doc.pdf"

/-- Fixed preview filename inside the job output directory. -/
def previewFilename (page : Nat) : String := "page-" ++ toString page ++ ".png"

/-- A rendered page's metadata.  The PNG itself stays in the job workspace. -/
structure JobPreview where
  page : Nat
  width : Nat
  height : Nat
  deriving DecidableEq, Repr

/-- What a worker sends back. -/
inductive JobResult
  | ok (pages : Nat) (previews : List JobPreview) (diagnostics : List Diagnostic)
  | failed (message : String) (diagnostics : List Diagnostic)
  | internal
  deriving DecidableEq, Repr

def Preview.metadata (preview : Preview) : JobPreview :=
  ⟨preview.page, preview.width, preview.height⟩

/-- Write each preview; `false` where a write failed. -/
def writePreviews (outputDir : Path) : FileTree → List Preview → Bool × FileTree
  | t, [] => (true, t)
  | t, preview :: rest =>
      match writeFile t (outputDir ++ [previewFilename preview.page]) preview.png with
      | .error _ => (false, t)
      | .ok t => writePreviews outputDir t rest

section Execute

variable {F : Type} [F32 F]

def compileOptions (F : Type) [F32 F] (job : Job) : CompileOptions F where
  maxPages := job.limits.maxPages
  previewPages := job.limits.previewPages
  previewScale := F32.ofNat job.limits.previewScaleMillis / F32.ofNat 1000
  previewMaxPx := job.limits.previewMaxPx

/-- What the compile of a job comes to, once the bundle is put together. -/
def compileJob (typst : Typst F) (t : FileTree) (job : Job) (bundle : Bundle) :
    Except (CompileError F) CompileOutput :=
  compile typst (compileOptions F job) bundle (typst.fontLibrary t job.fontDirs)

/-- What is written of a compile that succeeded. -/
def writeOutputs (t : FileTree) (outputDir : Path) (out : CompileOutput) : Bool × FileTree :=
  match writeFile t (outputDir ++ [pdfName]) out.pdf with
  | .error _ => (false, t)
  | .ok t => writePreviews outputDir t out.previews

def execute (typst : Typst F) (t : FileTree) (job : Job) : JobResult × FileTree :=
  match rebuild t job with
  | .error _ => (.internal, t)
  | .ok bundle =>
      match compileJob typst t job bundle with
      | .error error => (.failed error.kind.message error.diagnostics, t)
      | .ok out =>
          match writeOutputs t job.outputDir out with
          | (false, t) => (.internal, t)
          | (true, t) => (.ok out.pages (out.previews.map Preview.metadata) out.diagnostics, t)

end Execute

/-! ## The parent's side -/

/-- Why outputs could not be read: a call failed, or the data was no good. -/
inductive ReadError
  | io (kind : ErrorKind)
  | invalidData (message : String)
  deriving DecidableEq, Repr

/-- One preview read back by the parent. -/
structure JobOutputPreview where
  page : Nat
  width : Nat
  height : Nat
  png : Bytes
  deriving DecidableEq, Repr

/-- Bulk compile output after the parent has read its own fixed paths. -/
structure JobOutputs where
  pdf : Bytes
  previews : List JobOutputPreview
  deriving DecidableEq, Repr

/-- The loop over the previews; `seen` holds the pages of the turns before. -/
def readPreviews (t : FileTree) (outputDir : Path) :
    List Nat → List JobPreview → Except ReadError (List JobOutputPreview)
  | _, [] => .ok []
  | seen, preview :: rest =>
      if preview.page = 0 ∨ preview.page ∈ seen then
        .error (.invalidData "worker returned invalid preview metadata")
      else do
        let png ← (read t (outputDir ++ [previewFilename preview.page])).mapError .io
        let others ← readPreviews t outputDir (preview.page :: seen) rest
        return ⟨preview.page, preview.width, preview.height, png⟩ :: others

/-- Read fixed worker outputs.  No worker-returned path is ever trusted. -/
def readOutputs (t : FileTree) (job : Job) (previews : List JobPreview) :
    Except ReadError JobOutputs := do
  let pdf ← (read t (job.outputDir ++ [pdfName])).mapError .io
  let previews ← readPreviews t job.outputDir [] previews
  return { pdf, previews }

/-- A preview as the parent holds it. -/
def Preview.output (preview : Preview) : JobOutputPreview :=
  ⟨preview.page, preview.width, preview.height, preview.png⟩

/-- The outputs of a compile as the parent holds them. -/
def CompileOutput.outputs (out : CompileOutput) : JobOutputs :=
  ⟨out.pdf, out.previews.map Preview.output⟩

/-! ## Names -/

theorem previewFilename_inj {m n : Nat} (same : previewFilename m = previewFilename n) : m = n := by
  have chars := congrArg String.toList same
  simp only [previewFilename, String.toList_append, List.append_assoc,
    List.append_cancel_left_eq, List.append_cancel_right_eq] at chars
  exact toString_inj (String.toList_inj.1 chars)

theorem previewFilename_ne_pdfName (page : Nat) : previewFilename page ≠ pdfName := by
  intro same
  have first := congrArg (fun name => name.toList.head?) same
  simp only [previewFilename, String.toList_append, List.append_assoc] at first
  revert first
  simp [pdfName]

/-! ## What is written -/

variable {t t' : FileTree}

section Files

variable {outputDir : Path}

/-- The file a preview is written to. -/
def previewPath (outputDir : Path) (preview : Preview) : Path :=
  outputDir ++ [previewFilename preview.page]

theorem previewPath_inj {one other : Preview}
    (same : previewPath outputDir one = previewPath outputDir other) : one.page = other.page := by
  rw [previewPath, previewPath, List.append_cancel_left_eq, List.singleton_inj] at same
  exact previewFilename_inj same

/-- **The loop writes each preview**, and nothing else; one page has one PNG, so that it does not
matter which of two entries for it is written last. -/
theorem writePreviews_lookup {previews : List Preview}
    (same : ∀ one ∈ previews, ∀ other ∈ previews, one.page = other.page → one = other)
    (done : writePreviews outputDir t previews = (true, t')) :
    (∀ preview ∈ previews,
      t'.lookup (previewPath outputDir preview) = some (.file preview.png)) ∧
    ∀ q, (∀ preview ∈ previews, q ≠ previewPath outputDir preview) → t'.lookup q = t.lookup q := by
  induction previews generalizing t with
  | nil =>
      obtain rfl : t = t' := (Prod.mk.inj done).2
      exact ⟨fun _ inside => absurd inside List.not_mem_nil, fun _ _ => rfl⟩
  | cons preview rest ih =>
      rw [writePreviews] at done
      split at done
      · cases done
      next written first =>
        have lookup := lookup_writeFile first
        obtain ⟨later, others⟩ := ih (fun one here other there => same one (.tail _ here) other
          (.tail _ there)) done
        constructor
        · rintro one (_ | ⟨_, here⟩)
          · by_cases again : ∃ other ∈ rest, other.page = preview.page
            · obtain ⟨other, there, page⟩ := again
              rw [← same other (.tail _ there) preview (.head _) page]
              exact later other there
            · rw [others _ fun other there path => again ⟨other, there, (previewPath_inj path).symm⟩]
              exact (lookup _).trans (if_pos rfl)
          · exact later one here
        · intro q away
          rw [others q fun one here => away one (.tail _ here), lookup]
          exact if_neg (away preview (.head _))

/-- The writes of a compile's outputs, all done. -/
theorem writeOutputs_lookup {out : CompileOutput} {pages : List Nat} (drawn : out.Drawn pages)
    (done : writeOutputs t outputDir out = (true, t')) :
    t'.lookup (outputDir ++ [pdfName]) = some (.file out.pdf) ∧
    ∀ preview ∈ out.previews,
      t'.lookup (previewPath outputDir preview) = some (.file preview.png) := by
  unfold writeOutputs at done
  split at done
  · cases done
  next written first =>
    obtain ⟨each, others⟩ := writePreviews_lookup drawn.same done
    refine ⟨?_, each⟩
    have apart : ∀ preview ∈ out.previews, outputDir ++ [pdfName] ≠ previewPath outputDir preview := by
      intro preview _ path
      rw [previewPath, List.append_cancel_left_eq, List.singleton_inj] at path
      exact previewFilename_ne_pdfName _ path.symm
    rw [others _ apart, lookup_writeFile first, if_pos rfl]

/-- In a directory that holds no directories every write succeeds. -/
theorem writePreviews_done {previews : List Preview} (parent : t.lookup outputDir = some .dir)
    (free : ∀ name, t.lookup (outputDir ++ [name]) ≠ some .dir) :
    ∃ t', writePreviews outputDir t previews = (true, t') := by
  induction previews generalizing t with
  | nil => exact ⟨t, rfl⟩
  | cons preview rest ih =>
      obtain ⟨written, first⟩ := writeFile_ok preview.png parent (free (previewFilename preview.page))
      have lookup := lookup_writeFile first
      have parent : written.lookup outputDir = some .dir := by
        rw [lookup, if_neg (by simp)]
        exact parent
      have free : ∀ name, written.lookup (outputDir ++ [name]) ≠ some .dir := by
        intro name
        rw [lookup]
        split_ifs
        · simp
        · exact free name
      obtain ⟨t', later⟩ := ih parent free
      exact ⟨t', by rw [writePreviews, first]; exact later⟩

theorem writeOutputs_done {out : CompileOutput} (parent : t.lookup outputDir = some .dir)
    (free : ∀ name, t.lookup (outputDir ++ [name]) ≠ some .dir) :
    ∃ t', writeOutputs t outputDir out = (true, t') := by
  obtain ⟨written, first⟩ := writeFile_ok out.pdf parent (free pdfName)
  have lookup := lookup_writeFile first
  unfold writeOutputs
  rw [first]
  refine writePreviews_done ?_ fun name => ?_
  · rw [lookup, if_neg (by simp)]
    exact parent
  · rw [lookup]
    split_ifs
    · simp
    · exact free name

/-! ## What is read -/

/-- A preview that was written is read when its page is new and not 0, and so are those after. -/
theorem readPreviews_cons {preview : Preview} {seen : List Nat} {rest : List JobPreview}
    {outputs : List JobOutputPreview}
    (there : t.lookup (previewPath outputDir preview) = some (.file preview.png)) :
    readPreviews t outputDir seen (preview.metadata :: rest) = .ok outputs ↔
      (preview.page ≠ 0 ∧ preview.page ∉ seen) ∧ ∃ others,
        readPreviews t outputDir (preview.page :: seen) rest = .ok others ∧
          outputs = preview.output :: others := by
  have png : (FileTree.read t (outputDir ++ [previewFilename preview.page])).mapError
      ReadError.io = .ok preview.png := by
    rw [FileTree.read, show t.lookup (outputDir ++ [previewFilename preview.page]) = _ from there]
    rfl
  rw [readPreviews, ← not_or]
  by_cases refused : preview.page = 0 ∨ preview.page ∈ seen
  · rw [if_pos (show preview.metadata.page = 0 ∨ preview.metadata.page ∈ seen from refused)]
    exact ⟨fun ok => (nomatch ok), fun both => absurd refused both.1⟩
  · rw [if_neg (show ¬ (preview.metadata.page = 0 ∨ preview.metadata.page ∈ seen) from refused)]
    constructor
    · intro ok
      obtain ⟨bytes, found, ok⟩ := bind_eq_ok.1 ok
      obtain ⟨others, later, ok⟩ := bind_eq_ok.1 ok
      obtain rfl : bytes = preview.png := Except.ok.inj (found.symm.trans png)
      exact ⟨refused, others, later, pure_eq_ok.1 ok⟩
    · rintro ⟨-, others, later, rfl⟩
      exact bind_eq_ok.2 ⟨_, png, bind_eq_ok.2 ⟨others, later, rfl⟩⟩

/-- The loop reads what is there, exactly when its pages are distinct, new and none is page 0. -/
theorem readPreviews_iff {previews : List Preview} {seen : List Nat}
    {outputs : List JobOutputPreview}
    (there : ∀ preview ∈ previews,
      t.lookup (previewPath outputDir preview) = some (.file preview.png)) :
    readPreviews t outputDir seen (previews.map Preview.metadata) = .ok outputs ↔
      outputs = previews.map Preview.output ∧ (previews.map Preview.page).Nodup ∧
        ∀ preview ∈ previews, preview.page ≠ 0 ∧ preview.page ∉ seen := by
  induction previews generalizing seen outputs with
  | nil => simp [readPreviews, eq_comm]
  | cons preview rest ih =>
      rw [List.map_cons, List.map_cons, readPreviews_cons (there preview (.head _)),
        List.map_cons, List.nodup_cons, List.forall_mem_cons]
      simp only [ih fun one here => there one (.tail _ here), List.mem_map, List.mem_cons, not_or,
        not_exists, not_and]
      constructor
      · rintro ⟨new, _, ⟨rfl, distinct, later⟩, rfl⟩
        exact ⟨rfl, ⟨fun one here => (later one here).2.1, distinct⟩, new,
          fun one here => ⟨(later one here).1, (later one here).2.2⟩⟩
      · rintro ⟨rfl, ⟨other, distinct⟩, new, later⟩
        exact ⟨new, _, ⟨rfl, distinct,
          fun one here => ⟨(later one here).1, other one here, (later one here).2⟩⟩, rfl⟩

end Files

theorem readOutputs_iff {job : Job} {out : CompileOutput} {pages : List Nat} {outputs : JobOutputs}
    (drawn : out.Drawn pages) (pdf : t.lookup (job.outputDir ++ [pdfName]) = some (.file out.pdf))
    (pngs : ∀ preview ∈ out.previews,
      t.lookup (previewPath job.outputDir preview) = some (.file preview.png)) :
    readOutputs t job (out.previews.map Preview.metadata) = .ok outputs ↔
      outputs = out.outputs ∧ pages.Nodup := by
  have first : (FileTree.read t (job.outputDir ++ [pdfName])).mapError ReadError.io =
      .ok out.pdf := by
    rw [FileTree.read, pdf]
    rfl
  have numbered : ∀ preview ∈ out.previews, preview.page ≠ 0 ∧ preview.page ∉ ([] : List Nat) :=
    fun preview inside => ⟨by have := (drawn.within preview inside).1; omega, List.not_mem_nil⟩
  constructor
  · intro ok
    obtain ⟨bytes, found, ok⟩ := bind_eq_ok.1 ok
    obtain ⟨read, later, ok⟩ := bind_eq_ok.1 ok
    obtain rfl : bytes = out.pdf := Except.ok.inj (found.symm.trans first)
    obtain ⟨rfl, distinct, -⟩ := (readPreviews_iff pngs).1 later
    exact ⟨pure_eq_ok.1 ok, drawn.asked ▸ distinct⟩
  · rintro ⟨rfl, distinct⟩
    have later := (readPreviews_iff pngs).2 ⟨rfl, drawn.asked.symm ▸ distinct, numbered⟩
    exact bind_eq_ok.2 ⟨_, first, bind_eq_ok.2 ⟨_, later, rfl⟩⟩

/-! ## Both sides -/

section Both

variable {F : Type} [F32 F] {typst : Typst F} {job : Job}

/-- What a worker that succeeded has done. -/
theorem execute_ok {pages : Nat} {previews : List JobPreview} {diagnostics : List Diagnostic}
    (done : execute typst t job = (.ok pages previews diagnostics, t')) :
    ∃ bundle out, rebuild t job = .ok bundle ∧ compileJob typst t job bundle = .ok out ∧
      writeOutputs t job.outputDir out = (true, t') ∧ pages = out.pages ∧
      previews = out.previews.map Preview.metadata ∧ diagnostics = out.diagnostics := by
  unfold execute at done
  split at done
  · cases done
  next bundle built =>
    split at done
    · cases done
    next out compiled =>
      split at done
      · cases done
      next after written =>
        obtain ⟨result, rfl⟩ := Prod.mk.inj done
        obtain ⟨rfl, rfl, rfl⟩ := JobResult.ok.inj result
        exact ⟨bundle, out, built, compiled, written, rfl, rfl, rfl⟩

/-- **What is written is read back**, exactly when no page was asked for twice. -/
theorem readOutputs_execute {out : CompileOutput} {bundle : Bundle} {outputs : JobOutputs}
    (compiled : compileJob typst t job bundle = .ok out)
    (written : writeOutputs t job.outputDir out = (true, t')) :
    readOutputs t' job (out.previews.map Preview.metadata) = .ok outputs ↔
      outputs = out.outputs ∧ job.limits.previewPages.Nodup := by
  have drawn : out.Drawn job.limits.previewPages := compile_drawn compiled
  obtain ⟨pdf, pngs⟩ := writeOutputs_lookup drawn written
  exact readOutputs_iff drawn pdf pngs

end Both

/-! ## A staged job -/

section Staged

variable {workspace workspaceParent : Path} {name : String} {bundle : Bundle}
  {fontDirs : List Path} {limits : JobLimits} {prepared : PreparedJob}

/-- Where a loop's fonts go, once there is such a place. -/
def FontsAt (workspace : Path) (staging : Staging) : Prop :=
  ∀ dir, staging.uploadedFontDir = some dir → dir = fontsDir workspace

/-- A turn of the staging loop leaves the directory of outputs alone. -/
theorem stageFile_output {staging next : Staging} {index : Nat} {file : BundleFile}
    (fonts : FontsAt workspace staging)
    (ok : stageFile workspace staging index file = .ok next) :
    FontsAt workspace next ∧ ∀ names,
      next.tree.lookup (outputDir workspace ++ names) =
        staging.tree.lookup (outputDir workspace ++ names) := by
  obtain ⟨tree, written, ok⟩ := bind_eq_ok.1 ok
  obtain ⟨copied, font, ok⟩ := bind_eq_ok.1 ok
  obtain rfl := pure_eq_ok.1 ok
  have input : ∀ names, tree.lookup (outputDir workspace ++ names) =
      staging.tree.lookup (outputDir workspace ++ names) := fun names => by
    rw [lookup_writeFile written, if_neg (by simp [inputDir, outputDir])]
  unfold stageFont at font
  split_ifs at font
  · obtain ⟨made, dir, font⟩ := bind_eq_ok.1 font
    obtain ⟨copy, copying, font⟩ := bind_eq_ok.1 font
    obtain rfl := pure_eq_ok.1 font
    have at_ : staging.uploadedFontDir.getD (fontsDir workspace) = fontsDir workspace := by
      cases given : staging.uploadedFontDir with
      | none => rfl
      | some dir => exact fonts dir given
    simp only [at_] at copying ⊢
    refine ⟨fun dir is => (Option.some.inj is).symm, fun names => ?_⟩
    rw [lookup_writeFile copying, if_neg (by simp [fontsDir, outputDir]), ← input names]
    unfold withFontsDir at dir
    split at dir
    · rw [← Except.ok.inj dir]
    · obtain ⟨-, -, rfl⟩ := makeDir_eq_ok.1 dir
      rw [lookup_insert_eq, if_neg (by simp [outputDir])]
  · obtain rfl := Except.ok.inj font
    exact ⟨fonts, input⟩

theorem stageFiles_output {files : List BundleFile} {staging last : Staging} {index : Nat}
    (fonts : FontsAt workspace staging)
    (ok : stageFiles workspace index files staging = .ok last) :
    ∀ names, last.tree.lookup (outputDir workspace ++ names) =
      staging.tree.lookup (outputDir workspace ++ names) := by
  induction files generalizing staging index with
  | nil =>
      obtain rfl := Except.ok.inj ok
      exact fun _ => rfl
  | cons file rest ih =>
      obtain ⟨next, first, ok⟩ := bind_eq_ok.1 ok
      obtain ⟨fonts, same⟩ := stageFile_output fonts first
      exact fun names => (ih fonts ok names).trans (same names)

/-- The directory of outputs of a staged job is there, and is empty. -/
theorem stage_output (closed : Closed t)
    (ok : stage workspaceParent name bundle fontDirs limits t = .ok (prepared, t')) :
    t'.lookup prepared.job.outputDir = some .dir ∧
      ∀ name, t'.lookup (prepared.job.outputDir ++ [name]) = none := by
  obtain ⟨parents, staging, above, fresh, looped, rfl, rfl⟩ := stage_looped ok
  have same := stageFiles_output (fun dir given => by cases given) looped
  constructor
  · have here := same []
    rw [List.append_nil] at here
    exact here.trans ((lookup_insert_eq _ _ _ _).trans (if_pos rfl))
  · intro file
    refine (same [file]).trans ?_
    have bare : parents.lookup (workspaceParent ++ [name] ++ ["output"] ++ [file]) = none := by
      rw [List.append_assoc]
      exact (closed.createDirAll above).lookup_below fresh _
    simpa [withWorkspace, lookup_insert_eq, inputDir, outputDir] using bare

variable {F : Type} [F32 F] {typst : Typst F}

/-- **Of a staged job** the worker returns what its compile came to, and never that it could not
process the files. -/
theorem execute_staged {main : String} {files : List BundleFile}
    {inputs : BTreeMap String String} (closed : Closed t)
    (made : Bundle.new main files inputs limits.maxBundleBytes = .ok bundle)
    (staged : stage workspaceParent name bundle fontDirs limits t = .ok (prepared, t')) :
    rebuild t' prepared.job = .ok bundle ∧
    (∀ error, compileJob typst t' prepared.job bundle = .error error →
      execute typst t' prepared.job = (.failed error.kind.message error.diagnostics, t')) ∧
    ∀ out, compileJob typst t' prepared.job bundle = .ok out →
      ∃ t'', writeOutputs t' prepared.job.outputDir out = (true, t'') ∧
        execute typst t' prepared.job =
          (.ok out.pages (out.previews.map Preview.metadata) out.diagnostics, t'') := by
  have built : rebuild t' prepared.job = .ok bundle := by
    obtain ⟨staging, whole, rfl, -, job⟩ := stage_staged closed staged
    rw [job]
    exact rebuild_staged made whole rfl rfl rfl rfl
  obtain ⟨parent, empty⟩ := stage_output closed staged
  refine ⟨built, fun error failed => ?_, fun out compiled => ?_⟩
  · simp only [execute, built, failed]
  · obtain ⟨t'', written⟩ := @writeOutputs_done t' _ out parent fun file => by simp [empty file]
    exact ⟨t'', written, by simp only [execute, built, compiled, written]⟩

end Staged

end TypstMcp.Worker
