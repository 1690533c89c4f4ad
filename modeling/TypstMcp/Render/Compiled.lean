/-
Render.Compiled -- a compile, from the staged bundle to the document

`compileBundle` is the parent's side of one compile, the worker running to its end.
A document that compiled becomes the caller's document exactly when no page was asked
for twice (`compiled_delivered`); otherwise the caller is told of an internal error,
after the compile was paid for.
-/
import TypstMcp.Render.Result
import TypstMcp.Template.Assemble
import TypstMcp.Theory.Separator
import TypstMcp.Worker.Outputs

namespace TypstMcp.Render

open TypstMcp.Bundle TypstMcp.Theory TypstMcp.Theory.Json TypstMcp.Worker FileTree
open TypstMcp.Template (SourceMap)

set_option autoImplicit false

/-! ## The caller's terms -/

/-- Caller-facing filename, caller-facing line; a line in the prelude itself becomes line 1. -/
def remap (map : SourceMap) (diagnostic : Diagnostic) : Diagnostic :=
  match diagnostic.file.bind (map.entries[·]?) with
  | none => diagnostic
  | some (display, offset) =>
      { diagnostic with
        file := some display
        line := diagnostic.line.map fun line => max (line - offset) 1 }

def applyMap (map : SourceMap) (diagnostics : List Diagnostic) : List Diagnostic :=
  diagnostics.map (remap map)

/-! ## Compiling a bundle -/

/-- Why a staged bundle did not become a document. -/
inductive RenderError
  | compile (message : String) (diagnostics : List Diagnostic)
  | workspace (error : ReadError)
  | protocol (message : String)
  deriving DecidableEq, Repr

/-- The errors the caller is shown as an internal one. -/
def RenderError.Internal : RenderError → Prop
  | .compile _ _ => False
  | .workspace _ | .protocol _ => True

structure CompiledDocument where
  pages : Nat
  diagnostics : List Diagnostic
  pdf : Bytes
  previews : List RenderedPreview
  deriving DecidableEq, Repr

def rendered (preview : JobOutputPreview) : RenderedPreview :=
  ⟨preview.page, preview.width, preview.height, preview.png⟩

/-- What the parent makes of a worker's result. -/
def receive (t : FileTree) (job : Job) (sourceMap : SourceMap) :
    JobResult → Except RenderError CompiledDocument
  | .failed message diagnostics => .error (.compile message (applyMap sourceMap diagnostics))
  | .ok pages previews diagnostics => do
      let outputs ← (readOutputs t job previews).mapError .workspace
      return {
        pages
        diagnostics := applyMap sourceMap diagnostics
        pdf := outputs.pdf
        previews := outputs.previews.map rendered }
  | .internal => .error (.protocol "compile worker could not process its staged files")

section Compile

variable {F : Type} [F32 F] (typst : Typst F)

/-- `compile_bundle`, the worker running to its end; `name` is the fresh name of the workspace. -/
def compileBundle (workspaceParent : Path) (name : String) (fontDirs : List Path) (bundle : Bundle)
    (sourceMap : SourceMap) (limits : JobLimits) (t : FileTree) :
    Except RenderError CompiledDocument := do
  let (prepared, t) ← (stage workspaceParent name bundle fontDirs limits t).mapError (.workspace ∘ .io)
  let (result, t) := execute typst t prepared.job
  receive t prepared.job sourceMap result

end Compile

/-- The document a compile made. -/
def documentOf (sourceMap : SourceMap) (out : CompileOutput) : CompiledDocument where
  pages := out.pages
  diagnostics := applyMap sourceMap out.diagnostics
  pdf := out.pdf
  previews := out.previews.map fun preview => rendered preview.output

/-! ## From the compile to the document -/

/-- The parent's document is the compile's, when it reads what the worker wrote. -/
theorem receive_ok {t : FileTree} {job : Job} {out : CompileOutput} (sourceMap : SourceMap)
    (read : readOutputs t job (out.previews.map Preview.metadata) = .ok out.outputs) :
    receive t job sourceMap
        (.ok out.pages (out.previews.map Preview.metadata) out.diagnostics) =
      .ok (documentOf sourceMap out) := by
  refine bind_eq_ok.2 ⟨_, mapError_eq_ok.2 read, ?_⟩
  show Except.ok _ = _
  simp only [CompileOutput.outputs, documentOf, List.map_map, Function.comp_def]

/-- What is not read back is an internal error. -/
theorem receive_internal {t : FileTree} {job : Job} {sourceMap : SourceMap} {pages : Nat}
    {previews : List JobPreview} {diagnostics : List Diagnostic} {error : ReadError}
    (failed : readOutputs t job previews = .error error) :
    receive t job sourceMap (.ok pages previews diagnostics) = .error (.workspace error) := by
  simp only [receive, failed]
  rfl

section Whole

variable {F : Type} [F32 F] {typst : Typst F} {workspaceParent : Path} {name : String}
  {fontDirs : List Path} {bundle : Bundle} {sourceMap : SourceMap} {limits : JobLimits}
  {t t' : FileTree} {prepared : PreparedJob}

theorem compileBundle_staged
    (staged : stage workspaceParent name bundle fontDirs limits t = .ok (prepared, t'))
    {result : JobResult} {t'' : FileTree}
    (ran : execute typst t' prepared.job = (result, t'')) :
    compileBundle typst workspaceParent name fontDirs bundle sourceMap limits t =
      receive t'' prepared.job sourceMap result := by
  unfold compileBundle
  rw [staged]
  show (let (result, t) := execute typst t' prepared.job
    receive t prepared.job sourceMap result) = _
  rw [ran]

/-- The limits of a staged job are those it was staged with. -/
theorem stage_limits (closed : Closed t)
    (staged : stage workspaceParent name bundle fontDirs limits t = .ok (prepared, t')) :
    prepared.job.limits = limits := by
  obtain ⟨_, -, -, -, job⟩ := stage_staged closed staged
  rw [job]

/-- **A document that compiled is delivered**, and what the worker wrote read back, exactly when no
page was asked for twice. -/
theorem compiled_delivered (typst : Typst F) (sourceMap : SourceMap) {main : String} {files : List BundleFile}
    {inputs : BTreeMap String String} (closed : Closed t)
    (made : Bundle.new main files inputs limits.maxBundleBytes = .ok bundle)
    (staged : stage workspaceParent name bundle fontDirs limits t = .ok (prepared, t')) :
    (∀ pages previews diagnostics t'',
      execute typst t' prepared.job = (.ok pages previews diagnostics, t'') →
      ((∃ out, compileJob typst t' prepared.job bundle = .ok out ∧
          readOutputs t'' prepared.job previews = .ok out.outputs) ↔
        limits.previewPages.Nodup)) ∧
    ∀ out, compileJob typst t' prepared.job bundle = .ok out →
      (compileBundle typst workspaceParent name fontDirs bundle sourceMap limits t =
          .ok (documentOf sourceMap out) ↔ limits.previewPages.Nodup) ∧
      ((∃ error, compileBundle typst workspaceParent name fontDirs bundle sourceMap limits t =
          .error error ∧ error.Internal) ↔ ¬ limits.previewPages.Nodup) := by
  obtain ⟨built, -, finishes⟩ := @execute_staged t t' workspaceParent name bundle fontDirs limits
    prepared F _ typst main files inputs closed made staged
  obtain rfl := stage_limits closed staged
  constructor
  · intro pages previews diagnostics t'' finished
    obtain ⟨bundle', out, again, compiled, written, -, rfl, -⟩ := execute_ok finished
    obtain rfl : bundle' = bundle := Except.ok.inj (again.symm.trans built)
    constructor
    · rintro ⟨_, -, read⟩
      exact ((readOutputs_execute compiled written).1 read).2
    · exact fun distinct => ⟨out, compiled,
        (readOutputs_execute compiled written).2 ⟨rfl, distinct⟩⟩
  · intro out compiled
    obtain ⟨t'', written, finished⟩ := finishes out compiled
    have whole := @compileBundle_staged F _ typst workspaceParent name fontDirs bundle sourceMap
      _ t t' prepared staged _ t'' finished
    rw [whole]
    by_cases distinct : prepared.job.limits.previewPages.Nodup
    · have read := (readOutputs_execute compiled written).2 ⟨rfl, distinct⟩
      rw [receive_ok sourceMap read]
      simp [distinct]
    · cases read : readOutputs t'' prepared.job (out.previews.map Preview.metadata) with
      | ok outputs => exact absurd ((readOutputs_execute compiled written).1 read).2 distinct
      | error cause =>
          rw [receive_internal read]
          simp [distinct, RenderError.Internal]

end Whole

/-! ## A document asked for by the page -/

instance : F32 ℚ where
  isFinite _ := true
  lt p q := p < q
  le p q := p ≤ q
  round q := (q + 1 / 2).floor
  ofNat n := n
  toNat q := q.floor.toNat
  fixed q := toString (q + 1 / 2).floor

/-- A compiler of plain text: A4 pages, cut where the main file breaks them. -/
def paged : Typst ℚ where
  Fonts := Unit
  World := Bytes
  Document := List Bytes
  Page := Bytes
  Pixmap := Bytes
  fontLibrary _ _ := ()
  world bundle _ :=
    match bundle.files[bundle.main]? with
    | some content => .ok content.asBytes
    | none => .error "no main file"
  warned text := (.ok (Separator.split (utf8 "#pagebreak()\n") text), [])
  pages document := document
  pdf _ document := .ok (document.flatMap fun page => 37 :: page)
  size _ := (595, 842)
  render page _ := page
  width _ := 595
  height _ := 842
  encodePng page := some (137 :: page)

def letter : List BundleFile := [⟨"main.typ", .text "= Dear reader\n#pagebreak()\n= Yours"⟩]

/-- Limits that ask for these pages. -/
def asking (previewPages : List Nat) : JobLimits := { maxBundleBytes := 1024, previewPages }

/-- A check of the worker's result for the letter, and of what the parent makes of it. -/
def delivers (previewPages : List Nat) (check : JobResult → Except RenderError CompiledDocument →
    Bool) : Bool :=
  (Bundle.new "main.typ" letter ∅ (asking previewPages).maxBundleBytes).toOption.any fun bundle =>
    (stage ["work"] "compile-k3v9ab" bundle [] (asking previewPages) rootTree).toOption.any
      fun staged => check (execute paged staged.2 staged.1.job).1
        (compileBundle paged ["work"] "compile-k3v9ab" [] bundle {} (asking previewPages) rootTree)

theorem delivers_runs {previewPages : List Nat}
    {check : JobResult → Except RenderError CompiledDocument → Bool}
    (evaluated : delivers previewPages check = true) :
    ∃ bundle prepared t,
      Bundle.new "main.typ" letter ∅ (asking previewPages).maxBundleBytes = .ok bundle ∧
      stage ["work"] "compile-k3v9ab" bundle [] (asking previewPages) rootTree =
        .ok (prepared, t) ∧
      check (execute paged t prepared.job).1 (compileBundle paged ["work"] "compile-k3v9ab" []
        bundle {} (asking previewPages) rootTree) = true := by
  obtain ⟨bundle, made, evaluated⟩ := ok_of_any evaluated
  obtain ⟨⟨prepared, t⟩, staged, checked⟩ := ok_of_any evaluated
  exact ⟨bundle, prepared, t, made, staged, checked⟩

/-- The first page asked for twice: the worker succeeds and the caller is told of an internal
error. -/
theorem compiled_not_delivered :
    ∃ bundle prepared t pages previews diagnostics,
      Bundle.new "main.typ" letter ∅ (asking [1, 1]).maxBundleBytes = .ok bundle ∧
      stage ["work"] "compile-k3v9ab" bundle [] (asking [1, 1]) rootTree = .ok (prepared, t) ∧
      (execute paged t prepared.job).1 = .ok pages previews diagnostics ∧
      compileBundle paged ["work"] "compile-k3v9ab" [] bundle {} (asking [1, 1]) rootTree =
        .error (.workspace (.invalidData "worker returned invalid preview metadata")) := by
  obtain ⟨bundle, prepared, t, made, staged, checked⟩ := @delivers_runs [1, 1]
    (fun result document => result = .ok 2 [⟨1, 595, 842⟩, ⟨1, 595, 842⟩] [] &&
      match document with
      | .error error =>
          error = .workspace (.invalidData "worker returned invalid preview metadata")
      | .ok _ => false)
    (by decide +kernel)
  obtain ⟨finished, refused⟩ := (Bool.and_eq_true _ _).mp checked
  refine ⟨bundle, prepared, t, _, _, _, made, staged, of_decide_eq_true finished, ?_⟩
  split at refused
  next error failed => rw [failed, of_decide_eq_true refused]
  next => cases refused

/-- Two pages, the second first. -/
theorem compiled_delivered_letter :
    ∃ bundle prepared t,
      Bundle.new "main.typ" letter ∅ (asking [2, 1]).maxBundleBytes = .ok bundle ∧
      stage ["work"] "compile-k3v9ab" bundle [] (asking [2, 1]) rootTree = .ok (prepared, t) ∧
      ∃ out, compileJob paged t prepared.job bundle = .ok out ∧
        compileBundle paged ["work"] "compile-k3v9ab" [] bundle {} (asking [2, 1]) rootTree =
          .ok (documentOf {} out) := by
  obtain ⟨bundle, prepared, t, made, staged, checked⟩ := @delivers_runs [2, 1]
    (fun result _ => result = .ok 2 [⟨2, 595, 842⟩, ⟨1, 595, 842⟩] []) (by decide +kernel)
  obtain ⟨ran, delivered⟩ := compiled_delivered paged {} rootTree_closed made staged
  have finished := of_decide_eq_true checked
  obtain ⟨out, compiled, -⟩ := (ran _ _ _ _ (Prod.ext finished rfl)).2 (by decide)
  exact ⟨bundle, prepared, t, made, staged, out, compiled,
    (delivered out compiled).1.2 (by decide)⟩

end TypstMcp.Render
