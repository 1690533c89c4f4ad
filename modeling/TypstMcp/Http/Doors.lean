/-
Http.Doors -- one request through every door

A document can be asked for over REST, as a stored result or as the PDF itself, and
through two tools.  The PDF itself is compiled without previews and is not stored; a
tool asks for few previews and answers with the pictures.  It is one document.

* `PageByPage`: what is asked of the compile; `pageByPage_compileBundle`: it is so.
* `compile_pages`: one request compiled at one time, whatever is drawn of it.
* `doors_agree`: what the doors answer.
-/
import TypstMcp.Http.ErrorContract
import TypstMcp.Render.Delivery
import TypstMcp.Render.Previews
import TypstMcp.Theory.Base64

namespace TypstMcp.Http

open TypstMcp.Theory TypstMcp.Theory.Table TypstMcp.Theory.Json
open TypstMcp.Auth (TenantId)
open TypstMcp.Bundle TypstMcp.Store
open TypstMcp.Render (RenderService RenderRequest RenderResult RenderedPreview CompiledDocument
  Diagnostic Failure InputFile documentName resultFiles sizesOf storeResult loadAssets preflight readAssets
  mountName render_cases render_keeps result_whole
  printing dear roomyLimits paged)
open TypstMcp.Template (Value SourceMap)
open TypstMcp.Worker (JobLimits)

set_option autoImplicit false
set_option linter.unusedSectionVars false

/-! ## The doors -/

/-- A result as JSON: its document and its previews are left out. -/
structure ResultJson where
  jobId : String
  url : String
  pages : Nat
  bytes : Nat
  expiresAt : Nat
  diagnostics : List Diagnostic
  deriving DecidableEq

def resultJson (result : RenderResult) : ResultJson where
  jobId := result.jobId
  url := result.url
  pages := result.pages
  bytes := result.bytes
  expiresAt := result.expiresAt
  diagnostics := result.diagnostics

/-- A successful answer to `POST /render`. -/
inductive Rendered
  | json (result : ResultJson)
  | file (contentType contentDisposition : String) (bytes : Bytes)

def pdfFile (pdf : Bytes) : Rendered :=
  .file "application/pdf" ("inline; filename=\"" ++ documentName ++ "\"") pdf

inductive ContentBlock
  | json (result : ResultJson)
  /-- `data` in base64. -/
  | image (data mimeType : String)

/-- One caller-supplied text file, as a tool is given it. -/
structure TemplateTextFile where
  path : String
  text : String

def TemplateTextFile.input (file : TemplateTextFile) : InputFile := ⟨file.path, file.text⟩

section Programs

variable {F : Type} (texts : Texts) (service : RenderService F) (tenant : TenantId)

/-- The REST handler; `output` is the query's. -/
def render (output : Option String) (request : RenderRequest F) :
    StoreProg (Except PublicError Rendered) :=
  if output = none ∨ output = some "json" then do
    match ← service.render tenant request with
    | .error failure => return .error (.ofRender texts failure)
    | .ok result => return .ok (.json (resultJson result))
  else if output = some "pdf" then do
    match ← service.compile tenant { request with previewPages := some [] } with
    | .error failure => return .error (.ofRender texts failure)
    | .ok compiled => return .ok (pdfFile compiled.pdf)
  else return .error (.badRequest "output must be `json` or `pdf`")

def maxPreviewPages : Nat := 4

/-- Bound how many pages a caller can ask to see at once. -/
def clampPages (pages : Option (List Nat)) : Option (List Nat) :=
  pages.map fun pages => pages.take maxPreviewPages

structure RenderArgs (F : Type) where
  template : String
  data : Option (Value F) := none
  body : Option String := none
  inputs : BTreeMap String String := ∅
  overrides : List TemplateTextFile := []
  assets : List String := []
  previewPages : Option (List Nat) := none

def RenderArgs.request (args : RenderArgs F) : RenderRequest F where
  template := some args.template
  data := args.data
  body := args.body
  assets := args.assets
  inputs := args.inputs
  overrides := args.overrides.map TemplateTextFile.input
  previewPages := clampPages args.previewPages

structure CompileArgs (F : Type) where
  source : Option String := none
  files : List TemplateTextFile := []
  main : Option String := none
  data : Option (Value F) := none
  inputs : BTreeMap String String := ∅
  assets : List String := []
  previewPages : Option (List Nat) := none

def CompileArgs.request (args : CompileArgs F) : RenderRequest F where
  source := args.source
  files := args.files.map TemplateTextFile.input
  main := args.main
  data := args.data
  inputs := args.inputs
  assets := args.assets
  previewPages := clampPages args.previewPages

/-- A page as the model is shown it. -/
def picture (preview : RenderedPreview) : ContentBlock :=
  .image (Base64.encodeStandard preview.png) "image/png"

/-- Run a render and shape the result for a model. -/
def run (request : RenderRequest F) : StoreProg (Except PublicError (List ContentBlock)) := do
  match ← service.render tenant request with
  | .error failure => return .error (.ofRender texts failure)
  | .ok result => return .ok (.json (resultJson result) :: result.previews.map picture)

def typstRender (args : RenderArgs F) : StoreProg (Except PublicError (List ContentBlock)) :=
  run texts service tenant args.request

def typstCompile (args : CompileArgs F) : StoreProg (Except PublicError (List ContentBlock)) :=
  run texts service tenant args.request

end Programs

/-! ## At one time -/

/-- Run alone at `now` on an open store the program has one answer, and leaves the store. -/
def Settled (codec : MetaCodec) (plain : Prop) (now : Nat) {α : Type} (p : StoreProg α) : Prop :=
  ∀ w : Solo, Idle codec plain w → ∃ value, ∀ answer w',
    Alone (clock now) () p w answer w' → answer = value ∧ w' = w

variable {codec : MetaCodec} {plain : Prop} {now : Nat} {α β : Type} {w w' : Solo}
variable {tenant : TenantId} {limit : Nat}

theorem settled_ret (value : α) : Settled codec plain now (.ret value) :=
  fun _ _ => ⟨value, fun _ _ ran => ran⟩

theorem settled_bind {p : StoreProg α} {f : α → StoreProg β} (first : Settled codec plain now p)
    (rest : ∀ value, Settled codec plain now (f value)) : Settled codec plain now (p.bind f) := by
  intro w idle
  obtain ⟨middle, before⟩ := first w idle
  obtain ⟨value, after⟩ := rest middle w idle
  refine ⟨value, fun answer w' ran => ?_⟩
  obtain ⟨found, w1, one, other⟩ := Prog.exec_bind.1 ran
  obtain ⟨rfl, rfl⟩ := before found w1 one
  exact after answer w' other

theorem settled_entry (kind : Kind) (id : String) :
    Settled codec plain now (Store.entry tenant kind id) := by
  intro w idle
  cases valid : validateId kind id with
  | error error =>
      refine ⟨.error error, fun answer w' ran => ?_⟩
      obtain ⟨same, ⟨other, invalid, told⟩ | ⟨fine, -⟩⟩ := entry_exec idle ran
      · obtain rfl := Except.error.inj (valid.symm.trans invalid)
        exact ⟨told, same⟩
      · rw [valid] at fine
        cases fine
  | ok id' =>
      refine ⟨liveAt now w.index ⟨tenant, kind, id⟩, fun answer w' ran => ?_⟩
      obtain ⟨same, ⟨other, invalid, -⟩ | ⟨-, choice, clocked, told⟩⟩ := entry_exec idle ran
      · rw [valid] at invalid
        cases invalid
      · have clocked : choice.now = now := clocked
        exact ⟨clocked ▸ told, same⟩

theorem settled_get (kind : Kind) (id name : String) :
    Settled codec plain now (Store.get tenant kind id name) := by
  intro w idle
  refine ⟨getAt now w tenant kind id name, fun answer w' ran => ?_⟩
  obtain ⟨same, ⟨error, invalid, told⟩ | ⟨choice, clocked, told⟩⟩ := get_exec idle ran
  · unfold getAt
    rw [invalid]
    exact ⟨told, same⟩
  · have clocked : choice.now = now := clocked
    exact ⟨clocked ▸ told, same⟩

theorem settled_preflight (ids seen : List String) (total : Nat) (entries : List (String × Entry)) :
    Settled codec plain now (preflight limit tenant ids seen total entries) := by
  induction ids generalizing seen total entries with
  | nil => exact settled_ret _
  | cons id rest ih =>
      unfold preflight
      split
      · exact settled_ret _
      · apply settled_bind (settled_entry _ _)
        intro answer
        cases answer with
        | error source => exact settled_ret _
        | ok entry =>
            dsimp only
            split
            · exact settled_ret _
            · exact ih _ _ _

theorem settled_readAssets (entries : List (String × Entry)) :
    Settled codec plain now (readAssets tenant entries) := by
  induction entries with
  | nil => exact settled_ret _
  | cons asset rest ih =>
      apply settled_bind (settled_get _ _ _)
      intro answer
      cases answer with
      | error source => exact settled_ret _
      | ok bytes =>
          apply settled_bind ih
          intro others
          cases others <;> exact settled_ret _

theorem settled_loadAssets (ids : List String) :
    Settled codec plain now (loadAssets limit tenant ids) := by
  unfold loadAssets
  split
  · exact settled_ret _
  · apply settled_bind (settled_preflight _ _ _ _)
    intro answer
    cases answer with
    | error error => exact settled_ret _
    | ok entries => exact settled_readAssets entries

/-- What two runs at one time are answered. -/
theorem Settled.again {p : StoreProg α} (settled : Settled codec plain now p)
    (idle : Idle codec plain w) {one other : α} {w1 w2 : Solo}
    (first : Alone (clock now) () p w one w1) (second : Alone (clock now) () p w other w2) :
    other = one := by
  obtain ⟨value, each⟩ := settled w idle
  exact (each other w2 second).1.trans (each one w1 first).1.symm

section Compiles

variable {F : Type} {service : RenderService F} {request : RenderRequest F}

theorem template_again (idle : Idle codec plain w) {reference : String}
    {template : TypstMcp.Template.Template F} {answer : Except Failure (TypstMcp.Template.Template F)}
    {w1 w2 : Solo}
    (first : Alone (clock now) () (service.template tenant reference) w (.ok template) w1)
    (again : Alone (clock now) () (service.template tenant reference) w answer w2) :
    answer = .ok template := by
  unfold RenderService.template at first again
  split at first
  next found there =>
    rw [there] at again
    exact again.1.trans first.1.symm
  next absent =>
    rw [absent] at again
    dsimp only at again
    split at first
    next own =>
      rw [if_pos own] at again
      refine Settled.again (settled_bind (settled_get _ _ _) fun answer => ?_) idle first again
      cases answer <;> exact settled_ret _
    next =>
      obtain ⟨_, _, -, first⟩ := Prog.exec_bind.1 first
      cases first.1

/-- The bundle a request is assembled to, at one time. -/
theorem assemble_again (idle : Idle codec plain w) {parts : Bundle × SourceMap}
    {answer : Except Failure (Bundle × SourceMap)} {w1 w2 : Solo}
    (first : Alone (clock now) () (service.assemble tenant request) w (.ok parts) w1)
    (again : Alone (clock now) () (service.assemble tenant request) w answer w2) :
    answer = .ok parts := by
  unfold RenderService.assemble at first again
  split at first
  · cases first.1
  next fine =>
    rw [fine] at again
    obtain ⟨loaded, w3, one, first⟩ := Prog.exec_bind.1 first
    obtain ⟨loaded', w4, other, again⟩ := Prog.exec_bind.1 again
    have same := Settled.again (settled_loadAssets _) idle one other
    subst same
    obtain rfl := (Render.asks_loadAssets _).still _ _ w3 idle one
    obtain rfl := (Render.asks_loadAssets _).still _ _ w4 idle other
    cases loaded' with
    | error error => cases first.1
    | ok assets =>
        dsimp only at first again
        cases named : request.template with
        | none =>
            rw [named] at first again
            exact again.1.trans first.1.symm
        | some name =>
            rw [named] at first again
            obtain ⟨found, w5, one, first⟩ := Prog.exec_bind.1 first
            obtain ⟨found', w6, other, again⟩ := Prog.exec_bind.1 again
            cases found with
            | error failure => cases first.1
            | ok template =>
                obtain rfl := template_again idle one other
                exact again.1.trans first.1.symm

/-! ## Whatever is drawn -/

/-- The compile draws page by page, in every bundle that keeps within its limit. -/
def PageByPage (service : RenderService F) : Prop :=
  ∀ bundle sourceMap (limits : JobLimits),
    (∃ main files inputs, Bundle.new main files inputs limits.maxBundleBytes = .ok bundle) →
    Render.Apart fun pages => service.compileBundle bundle sourceMap { limits with previewPages := pages }

theorem assembleTemplate_within {template : TypstMcp.Template.Template F} {assets : List BundleFile}
    {bundle : Bundle} {sourceMap : SourceMap}
    (made : service.assembleTemplate request template assets = .ok (bundle, sourceMap)) :
    ∃ main files inputs, Bundle.new main files inputs service.maxBundleBytes = .ok bundle := by
  obtain ⟨assembled, put, same⟩ := bind_eq_ok.1 made
  obtain ⟨rfl, rfl⟩ := Prod.mk.inj (Except.ok.inj same)
  obtain ⟨_, -, put⟩ := bind_eq_ok.1 (mapError_eq_ok.1 put)
  obtain ⟨_, -, put⟩ := bind_eq_ok.1 put
  obtain ⟨files, -, put⟩ := bind_eq_ok.1 put
  obtain ⟨main, -, put⟩ := bind_eq_ok.1 put
  obtain ⟨built, placed, same⟩ := bind_eq_ok.1 put
  obtain rfl := Except.ok.inj same
  obtain ⟨accepts, main, -, listed⟩ := Bundle.new_eq_ok.1 (mapError_eq_ok.1 placed)
  exact ⟨_, _, request.inputs, Bundle.new_eq_ok.2 ⟨accepts, main, rfl, listed⟩⟩

theorem assemble_within {bundle : Bundle} {sourceMap : SourceMap} {allowed : Choice → Prop}
    (ran : Alone allowed () (service.assemble tenant request) w (.ok (bundle, sourceMap)) w') :
    ∃ main files inputs, Bundle.new main files inputs service.maxBundleBytes = .ok bundle := by
  unfold RenderService.assemble at ran
  split at ran
  · cases ran.1
  · obtain ⟨loaded, w1, -, ran⟩ := Prog.exec_bind.1 ran
    cases loaded with
    | error error => cases ran.1
    | ok assets =>
        dsimp only at ran
        split at ran
        · obtain ⟨built, made, same⟩ := bind_eq_ok.1 ran.1.symm
          obtain ⟨rfl, rfl⟩ := Prod.mk.inj (Except.ok.inj same)
          exact ⟨_, _, _, mapError_eq_ok.1 made⟩
        · obtain ⟨found, w2, -, ran⟩ := Prog.exec_bind.1 ran
          cases found with
          | error failure => cases ran.1
          | ok template => exact assembleTemplate_within ran.1.symm

/-- The compile of a staged bundle by a worker, over a volume that is the same each time, draws page
by page. -/
theorem pageByPage_compileBundle {G : Type} [Worker.F32 G] (typst : Worker.Typst G)
    {workspaceParent : Path} {name : String} {fontDirs : List Path} {t : FileTree}
    (closed : FileTree.Closed t)
    (is : ∀ bundle sourceMap limits, service.compileBundle bundle sourceMap limits =
      (Render.compileBundle typst workspaceParent name fontDirs bundle sourceMap limits t).mapError
        .compiled) : PageByPage service := by
  rintro bundle sourceMap limits ⟨main, files, inputs, made⟩ pages document
  have apart := @Render.compileBundle_apart G _ workspaceParent name fontDirs bundle limits t typst
    sourceMap main files inputs closed made pages document
  simp only [is, mapError_eq_ok]
  exact apart

/-- A request that compiles, compiled at the same time with other pages drawn. -/
theorem compile_pages (law : PageByPage service) (idle : Idle codec plain w)
    {document : CompiledDocument}
    (ran : Alone (clock now) () (service.compile tenant request) w (.ok document) w') :
    ∃ compile : List Nat → Except Failure CompiledDocument, Render.Apart compile ∧
      compile (request.previewPages.getD [1]) = .ok document ∧
      ∀ drawn answer w1,
        Alone (clock now) () (service.compile tenant { request with previewPages := drawn }) w answer
          w1 →
        answer = compile (drawn.getD [1]) ∧ w1 = w := by
  obtain ⟨assembled, w2, first, made⟩ := Prog.exec_bind.1 ran
  cases assembled with
  | error failure => cases made.1
  | ok parts =>
      obtain ⟨bundle, sourceMap⟩ := parts
      refine ⟨fun pages => service.compileBundle bundle sourceMap
        { service.jobLimits request with previewPages := pages },
        law bundle sourceMap (service.jobLimits request) (assemble_within first), made.1.symm, ?_⟩
      intro drawn answer w1 again
      have still := (Render.asks_compile service _).still w answer w1 idle again
      obtain ⟨assembled, w3, second, compiled⟩ := Prog.exec_bind.1 again
      -- what is drawn has no part in the assembly
      have second : Alone (clock now) () (service.assemble tenant request) w assembled w3 := second
      obtain rfl := assemble_again idle first second
      exact ⟨compiled.1, still⟩

end Compiles

/-! ## What the doors answer -/

section Answers

variable {F : Type} {texts : Texts} {service : RenderService F} {request : RenderRequest F}
variable {tool : StoreProg (Except PublicError (List ContentBlock))}

/-- A tool called for what the request asks for. -/
def ToolFor (texts : Texts) (service : RenderService F) (tenant : TenantId) (request : RenderRequest F)
    (tool : StoreProg (Except PublicError (List ContentBlock))) : Prop :=
  (∃ args : RenderArgs F, request = { args.request with previewPages := args.previewPages } ∧
    tool = typstRender texts service tenant args) ∨
  ∃ args : CompileArgs F, request = { args.request with previewPages := args.previewPages } ∧
    tool = typstCompile texts service tenant args

theorem tool_runs (called : ToolFor texts service tenant request tool) :
    tool = run texts service tenant
      { request with previewPages := clampPages request.previewPages } := by
  rcases called with ⟨args, rfl, rfl⟩ | ⟨args, rfl, rfl⟩
  · rfl
  · rfl

theorem clampPages_getD (pages : Option (List Nat)) :
    (clampPages pages).getD [1] = (pages.getD [1]).take maxPreviewPages := by
  cases pages <;> rfl

/-- The JSON door answers what the service's render comes to. -/
theorem render_json {allowed : Choice → Prop} {output : Option String} {result : RenderResult}
    (json : output = none ∨ output = some "json")
    (ran : Alone allowed () (service.render tenant request) w (.ok result) w') :
    Alone allowed () (render texts service tenant output request) w (.ok (.json (resultJson result)))
      w' := by
  unfold render
  rw [if_pos json]
  exact Prog.exec_bind.2 ⟨_, w', ran, rfl, rfl⟩

/-- What the PDF door answers: the compile that draws nothing. -/
theorem render_pdf {allowed : Choice → Prop} {answer : Except PublicError Rendered}
    (ran : Alone allowed () (render texts service tenant (some "pdf") request) w answer w') :
    ∃ compiled, Alone allowed () (service.compile tenant { request with previewPages := some [] }) w
        compiled w' ∧
      answer = (compiled.map fun compiled => pdfFile compiled.pdf).mapError (.ofRender texts) := by
  unfold render at ran
  rw [if_neg (by decide), if_pos rfl] at ran
  obtain ⟨compiled, w1, made, ran⟩ := Prog.exec_bind.1 ran
  cases compiled with
  | error failure =>
      obtain ⟨rfl, rfl⟩ := ran
      exact ⟨_, made, rfl⟩
  | ok compiled =>
      obtain ⟨rfl, rfl⟩ := ran
      exact ⟨_, made, rfl⟩

/-- Two documents that differ in what is drawn of them, stored. -/
theorem shown_again {allowed : Choice → Prop} {limits : Limits} {codec : MetaCodec}
    {publicUrl : String} {document : CompiledDocument} {previews : List RenderedPreview}
    {one other : RenderResult} {w1 w2 : Solo}
    (first : Alone allowed () (storeResult limits codec publicUrl tenant document.pdf document.pages
      document.previews document.diagnostics) w (.ok one) w1)
    (second : Alone allowed () (storeResult limits codec publicUrl tenant document.pdf document.pages
      previews document.diagnostics) w (.ok other) w2) :
    resultJson other = { resultJson one with
      jobId := other.jobId, url := other.url, expiresAt := other.expiresAt } ∧
    one.previews = document.previews ∧ other.previews = previews := by
  have kept := result_whole first
  have kept' := result_whole second
  have pages : other.pages = one.pages :=
    (congrArg RenderResult.pages kept').trans (congrArg RenderResult.pages kept).symm
  have bytes : other.bytes = one.bytes :=
    (congrArg RenderResult.bytes kept').trans (congrArg RenderResult.bytes kept).symm
  have diagnostics : other.diagnostics = one.diagnostics :=
    (congrArg RenderResult.diagnostics kept').trans (congrArg RenderResult.diagnostics kept).symm
  refine ⟨?_, congrArg RenderResult.previews kept, congrArg RenderResult.previews kept'⟩
  unfold resultJson
  rw [pages, bytes, diagnostics]

/-- A render as a tool asks for it, where the whole list of previews is stored. -/
theorem run_again (idle : Idle codec plain w) {document : CompiledDocument} {result : RenderResult}
    {compile : List Nat → Except Failure CompiledDocument} (apart : Render.Apart compile)
    (whole : compile (request.previewPages.getD [1]) = .ok document)
    (each : ∀ drawn answer w1,
      Alone (clock now) () (service.compile tenant { request with previewPages := drawn }) w answer w1 →
      answer = compile (drawn.getD [1]) ∧ w1 = w)
    (storing : Alone (clock now) () (storeResult service.limits service.codec service.publicUrl tenant
      document.pdf document.pages document.previews document.diagnostics) w (.ok result) w')
    {answer : Except PublicError (List ContentBlock)} {w1 : Solo}
    (served : Alone (clock now) () (run texts service tenant
      { request with previewPages := clampPages request.previewPages }) w answer w1) :
    (∃ source, answer = .error (.plain (.ofStore texts.debug source))) ∨
    ∃ jobId url expiresAt, answer = .ok (.json { resultJson result with jobId, url, expiresAt } ::
      (result.previews.take maxPreviewPages).map picture) := by
  obtain ⟨answered, w2, rendered, served⟩ := Prog.exec_bind.1 served
  rcases render_cases service _ idle rendered with
    ⟨failure, failed, -, -⟩ | ⟨again, stored, drawn, storing', told⟩
  · have refused := (each _ _ _ failed).1
    rw [clampPages_getD, apart.take whole] at refused
    cases refused
  · have cut := (each _ _ _ drawn).1
    rw [clampPages_getD, apart.take whole] at cut
    obtain rfl := Except.ok.inj cut
    subst told
    cases stored with
    | error source => exact .inl ⟨source, served.1⟩
    | ok stored =>
        refine .inr ⟨stored.jobId, stored.url, stored.expiresAt, served.1.trans ?_⟩
        obtain ⟨shown, all, some⟩ := shown_again storing storing'
        rw [all, some, shown]

/-- **The doors agree.**  Every compile is what a worker comes to, over a volume that is the same each
time; none is turned away, out of time or without its worker.  Of a request that renders, over REST as
a stored result: the PDF itself, asked for at the same time, is answered with the bytes that are stored,
and nothing is stored for it; a tool that is called for the same either meets the store's refusal or
answers with the same pages, size and diagnostics, and the pictures of the first four of the previews;
and if the store had room, those bytes are what is read of the stored result, whatever is called
meanwhile that leaves the entry. -/
theorem doors_agree (texts : Texts) {G : Type} [Worker.F32 G] (typst : Worker.Typst G)
    {workspaceParent : Path} {name : String} {fontDirs : List Path} {t : FileTree}
    (closed : FileTree.Closed t)
    (is : ∀ bundle sourceMap limits, service.compileBundle bundle sourceMap limits =
      (Render.compileBundle typst workspaceParent name fontDirs bundle sourceMap limits t).mapError
        .compiled)
    (past : History service.limits service.codec (fun w op => op.Fits w.index) w)
    {result : RenderResult}
    (ran : Alone (clock now) () (service.render tenant request) w (.ok result) w') :
    (∀ output, output = none ∨ output = some "json" →
      Alone (clock now) () (render texts service tenant output request) w
        (.ok (.json (resultJson result))) w') ∧
    (∀ answer w1, Alone (clock now) () (render texts service tenant (some "pdf") request) w answer w1 →
      answer = .ok (pdfFile result.pdf) ∧ w1 = w) ∧
    (∀ tool, ToolFor texts service tenant request tool → ∀ answer w1,
      Alone (clock now) () tool w answer w1 →
      (∃ source, answer = .error (.plain (.ofStore texts.debug source))) ∨
      ∃ jobId url expiresAt, answer = .ok (.json { resultJson result with jobId, url, expiresAt } ::
        (result.previews.take maxPreviewPages).map picture)) ∧
    (w.index.stored + (sizesOf result.pdf result.previews).sum ≤ service.limits.maxStoreBytes →
      size w.index.entries < service.limits.maxStoreEntries →
      ∀ later, later < wrapAdd now (service.limits.ttl .output) → ∀ w1,
        Meanwhile service.limits service.codec ⟨tenant, .output, result.jobId⟩ later w' w1 →
        ∀ name contents, (name, contents) ∈ resultFiles result.pdf result.previews →
        ∀ answer w'', Alone (clock later) () (Store.get tenant .output result.jobId name) w1 answer w'' →
          answer = .ok contents) := by
  have law := pageByPage_compileBundle typst closed is
  have sane : Sane service.limits service.codec False w :=
    history_sane (fun _ _ fits => ⟨fun no => no.elim, fits⟩) past
  have idle := sane.toAtRest.toIdle
  rcases render_cases service request idle ran with ⟨_, -, failed, -⟩ | ⟨document, stored, made, storing, told⟩
  · cases failed
  cases stored with
  | error source => cases told
  | ok stored =>
  obtain rfl := Except.ok.inj told
  obtain ⟨compile, apart, whole, each⟩ := compile_pages law idle made
  have kept := result_whole storing
  have pdf : document.pdf = result.pdf := (congrArg RenderResult.pdf kept).symm
  refine ⟨fun output json => render_json json ran, ?_, ?_, ?_⟩
  · intro answer w1 served
    obtain ⟨_, again, rfl⟩ := render_pdf served
    obtain ⟨rfl, same⟩ := each _ _ _ again
    rw [Option.getD_some, apart.bare whole, pdf]
    exact ⟨rfl, same⟩
  · intro tool called answer w1 served
    obtain rfl := tool_runs called
    exact run_again idle apart whole each storing served
  · intro bytes entries later young w1 meanwhile name contents inside answer w'' read
    obtain ⟨_, files, keeps, listed⟩ := render_keeps service request sane ran bytes entries
      fun choice clocked => by rwa [show choice.now = now from clocked]
    obtain ⟨there, apart⟩ := listed name contents inside
    exact (keeps_meanwhile keeps meanwhile).reads there apart read

end Answers

/-- A service whose compiles are those of a worker that lays out a page for each line. -/
def drawing : RenderService Int := { printing with
  compileBundle := fun bundle sourceMap limits => (Render.compileBundle paged ["work"] "compile-k3v9ab" []
    bundle sourceMap limits Worker.rootTree).mapError .compiled }

/-- A letter through every door. -/
theorem doors_agree_dear : ∃ result w',
    Alone (clock 0) () (drawing.render someTenant dear) World.fresh (.ok result) w' ∧
    result.pdf = 37 :: utf8 "= Dear reader" ∧
    (∀ answer w1, Alone (clock 0) () (render plainTexts drawing someTenant (some "pdf") dear) World.fresh
      answer w1 → answer = .ok (pdfFile result.pdf)) ∧
    ∀ w1, Meanwhile roomyLimits serde ⟨someTenant, .output, result.jobId⟩ 5 w' w1 →
      ∀ answer w'', Alone (clock 5) () (Store.get someTenant .output result.jobId documentName) w1
        answer w'' → answer = .ok result.pdf := by
  obtain ⟨⟨result, w'⟩, played, checked⟩ : ∃ x,
      solo 0 (drawing.render someTenant dear) World.fresh = some x ∧
        (x.1.toOption.any fun result => decide (result.pdf = 37 :: utf8 "= Dear reader" ∧
          (sizesOf result.pdf result.previews).sum ≤ roomyLimits.maxStoreBytes)) = true :=
    (Option.any_eq_true _ _).1 (by decide +kernel)
  cases result with
  | error failure => cases checked
  | ok result =>
      obtain ⟨pdf, small⟩ := of_decide_eq_true checked
      obtain ⟨-, served, -, reads⟩ := @doors_agree 0 World.fresh w' someTenant Int drawing dear plainTexts
        ℚ _ paged ["work"] "compile-k3v9ab" [] Worker.rootTree Worker.rootTree_closed
        (fun _ _ _ => rfl) .fresh result (alone_solo played)
      refine ⟨result, w', alone_solo played, pdf, fun answer w1 ran => (served answer w1 ran).1,
        fun w1 meanwhile => ?_⟩
      exact reads ((Nat.zero_add _).le.trans small) (by decide) 5 (by decide) w1 meanwhile documentName _
        List.mem_cons_self

end TypstMcp.Http
