/-
Render.Delivery -- from the request to the download

A store with room evicts nothing, so every file of a result that was stored is there
for as long as the entry lives.  The rest is what the files are: the document of the
compile, and the compile of the request.

* `inline_assembled`: what a request with its own files is compiled from.
* `render_delivers`: a render that succeeded, and what is downloaded from it.
* `upload_resolves`: an uploaded template is there under its id, file by file.
-/
import TypstMcp.Render.Service
import TypstMcp.Store.Keeping

namespace TypstMcp.Render

open TypstMcp.Theory TypstMcp.Theory.Table TypstMcp.Theory.Json
open TypstMcp.Auth (TenantId)
open TypstMcp.Bundle TypstMcp.Store
open TypstMcp.Template (Template TemplateSet TemplateError TarCrate Value Crates SourceMap fromArchive
  fromSourceFiles SameSource member recode fromArchive_toArchive draftFiles draftCrates gnuTar
  gnuTar_faithful)

set_option autoImplicit false
set_option linter.unusedSectionVars false

variable {limits : Limits} {codec : MetaCodec} {allowed : Choice → Prop} {w w' : Solo}
variable {key : Key} {name : String} {bytes : Bytes} {info : Meta} {entry : Entry}

variable {later : Nat} {card : Card} {files : List (String × Bytes)}

/-! ## The files of a result -/

theorem safeName_letter {c : Char} {rest : List Char} (letter : c.isAlphanum = true)
    (dotless : c ≠ '.') : ∃ kept, safeName (String.ofList (c :: rest)) = String.ofList (c :: kept) := by
  unfold safeName
  rw [String.toList_ofList, List.filter_cons_of_pos (by simp [letter])]
  simp [dotless]

theorem previewName_apart (page : Nat) : safeName (previewName page) ≠ metaName := by
  obtain ⟨kept, named⟩ := @safeName_letter 'p'
    ("age-".toList ++ (toString page).toList ++ ".png".toList) (by decide) (by decide)
  have spelled : previewName page =
      String.ofList ('p' :: ("age-".toList ++ (toString page).toList ++ ".png".toList)) := by
    apply String.toList_injective
    simp [previewName]
  rw [spelled, named]
  intro same
  have heads := congrArg (fun s => s.toList.head?) same
  rw [String.toList_ofList] at heads
  rw [List.head?_cons] at heads
  exact absurd heads (by decide)

variable {tenant : TenantId} {id : String} {previews : List RenderedPreview}

/-- The files a result is stored as. -/
def resultFiles (pdf : Bytes) (previews : List RenderedPreview) : List (String × Bytes) :=
  (documentName, pdf) :: previews.map fun preview => (previewName preview.page, preview.png)

def previewFile (preview : RenderedPreview) : String × Bytes :=
  (safeName (previewName preview.page), preview.png)

/-- Every put of a preview keeps the files before it. -/
theorem previews_keep (keeps : Keeps limits codec later ⟨tenant, .output, id⟩ card files w)
    (spare : Spare limits w.index ⟨tenant, .output, id⟩ (previews.map (·.png.length)).sum)
    (young : ∀ choice, allowed choice → later < wrapAdd choice.now (limits.ttl .output))
    (ran : Alone allowed () (storePreviews limits codec tenant id previews) w (.ok ()) w') :
    ∃ files', Keeps limits codec later ⟨tenant, .output, id⟩ card files' w' ∧ files ⊆ files' ∧
      previews.map previewFile ⊆ files' := by
  induction previews generalizing w files with
  | nil =>
      obtain ⟨-, rfl⟩ := ran
      exact ⟨files, keeps, List.Subset.refl _, List.nil_subset _⟩
  | cons preview rest ih =>
      obtain ⟨result, w1, stored, ran⟩ := Prog.exec_bind.1 ran
      cases result with
      | error error => cases ran.1
      | ok entry =>
          rw [List.map_cons, List.sum_cons] at spare
          obtain ⟨keeps', spare'⟩ := put_keeps ⟨tenant, .output, id⟩ keeps spare young stored
          obtain ⟨files', kept, old, new⟩ := ih keeps' spare' ran
          refine ⟨files', kept, fun file inside => old (List.mem_cons_of_mem _ inside), ?_⟩
          rw [List.map_cons, List.cons_subset]
          exact ⟨old List.mem_cons_self, new⟩

variable {publicUrl : String} {pdf : Bytes} {pages : Nat} {diagnostics : List Diagnostic}
variable {result : RenderResult}

/-- What the store keeps of a result. -/
theorem result_keeps (sane : Sane limits codec False w)
    (bytes : w.index.stored + (sizesOf pdf previews).sum ≤ limits.maxStoreBytes)
    (entries : size w.index.entries < limits.maxStoreEntries)
    (young : ∀ choice, allowed choice → later < wrapAdd choice.now (limits.ttl .output))
    (ran : Alone allowed () (storeResult limits codec publicUrl tenant pdf pages previews diagnostics)
      w (.ok result) w') :
    ∃ card files', Keeps limits codec later ⟨tenant, .output, result.jobId⟩ card files' w' ∧
      ∀ name contents, (name, contents) ∈ resultFiles pdf previews →
        (safeName name, contents) ∈ files' ∧ safeName name ≠ metaName := by
  obtain ⟨answer, w1, stored, ran⟩ := Prog.exec_bind.1 ran
  cases answer with
  | error error => cases ran.1
  | ok entry =>
      obtain ⟨answer, w2, others, ran⟩ := Prog.exec_bind.1 ran
      cases answer with
      | error error => cases ran.1
      | ok _ =>
          obtain ⟨same, rfl⟩ := ran
          obtain rfl := Except.ok.inj same
          obtain ⟨_, choice, -, stored⟩ := alone_call.1 stored
          simp only [handle, Prog.ret_bind] at stored
          obtain ⟨reading, may, told⟩ :=
            put_expiry ⟨tenant, .output, Kind.output.idPrefix ++ choice.ulid⟩ sane stored
          obtain ⟨named, keeps, spare⟩ :=
            put_stores ⟨tenant, .output, Kind.output.idPrefix ++ choice.ulid⟩ sane
              (spare_of_room bytes entries _) (told ▸ young reading may) stored
          dsimp only at named
          rw [← named] at keeps spare
          obtain ⟨files', kept, old, new⟩ := previews_keep keeps spare young others
          refine ⟨_, files', kept, fun name contents inside => ?_⟩
          rcases List.mem_cons.1 inside with main | preview
          · obtain ⟨rfl, rfl⟩ := Prod.mk.inj main
            exact ⟨old List.mem_cons_self, by decide⟩
          · obtain ⟨shown, listed, same⟩ := List.mem_map.1 preview
            obtain ⟨rfl, rfl⟩ := Prod.mk.inj same
            exact ⟨new (List.mem_map_of_mem listed), previewName_apart _⟩

theorem result_whole (ran : Alone allowed () (storeResult limits codec publicUrl tenant pdf pages
      previews diagnostics) w (.ok result) w') :
    result = {
      jobId := result.jobId
      url := configUrl publicUrl
        ("files/" ++ tenant.str ++ "/" ++ result.jobId ++ "/" ++ documentName)
      pages
      bytes := pdf.length
      expiresAt := result.expiresAt
      diagnostics
      pdf
      previews } := by
  obtain ⟨answer, w1, -, ran⟩ := Prog.exec_bind.1 ran
  cases answer with
  | error error => cases ran.1
  | ok entry =>
      obtain ⟨answer, w2, -, ran⟩ := Prog.exec_bind.1 ran
      cases answer with
      | error error => cases ran.1
      | ok _ =>
          obtain rfl := Except.ok.inj ran.1
          rfl

/-! ## What a document is made of -/

variable {F : Type} (service : RenderService F) (request : RenderRequest F)

/-- The bundle of a request with its own files: those, its assets and its data, each under its own
path and nothing else. -/
structure InlineBundle (assets : List BundleFile) (bundle : Bundle) (sourceMap : SourceMap) : Prop where
  main : bundle.main = request.main.getD "main.typ"
  inputs : bundle.inputs = request.inputs
  unmapped : sourceMap = {}
  files : ∀ path content, bundle.files[path]? = some content ↔
    (⟨path, content⟩ : BundleFile) ∈ assets ∨
    (path = "main.typ" ∧ ∃ source, request.source = some source ∧ content = .text source) ∨
    (∃ file ∈ request.files, path = file.path ∧ content = .text file.text) ∨
    (path = "data.json" ∧ ∃ data, request.data = some data ∧
      content = .text ((service.crates.jsonText data).getD "\x7b\x7d"))

theorem mem_inlineFiles {assets : List BundleFile} {path : String} {content : FileContent} :
    (⟨path, content⟩ : BundleFile) ∈ service.inlineFiles request assets ↔
      (⟨path, content⟩ : BundleFile) ∈ assets ∨
      (path = "main.typ" ∧ ∃ source, request.source = some source ∧ content = .text source) ∨
      (∃ file ∈ request.files, path = file.path ∧ content = .text file.text) ∨
      (path = "data.json" ∧ ∃ data, request.data = some data ∧
        content = .text ((service.crates.jsonText data).getD "\x7b\x7d")) := by
  have source : (⟨path, content⟩ : BundleFile) ∈
      (request.source.map fun source => (⟨"main.typ", .text source⟩ : BundleFile)).toList ↔
      path = "main.typ" ∧ ∃ source, request.source = some source ∧ content = .text source := by
    cases request.source with
    | none => simp
    | some source => simp
  have files : (⟨path, content⟩ : BundleFile) ∈ request.files.map InputFile.file ↔
      ∃ file ∈ request.files, path = file.path ∧ content = .text file.text := by
    simp only [List.mem_map, InputFile.file, BundleFile.mk.injEq]
    exact exists_congr fun file => and_congr_right fun _ =>
      and_congr ⟨Eq.symm, Eq.symm⟩ ⟨Eq.symm, Eq.symm⟩
  have data : (⟨path, content⟩ : BundleFile) ∈ (request.data.map fun data =>
      (⟨"data.json", .text ((service.crates.jsonText data).getD "\x7b\x7d")⟩ : BundleFile)).toList ↔
      path = "data.json" ∧ ∃ data, request.data = some data ∧
        content = .text ((service.crates.jsonText data).getD "\x7b\x7d") := by
    cases request.data with
    | none => simp
    | some data => simp
  unfold RenderService.inlineFiles
  rw [List.mem_append, List.mem_append, List.mem_append, source, files, data, or_assoc, or_assoc]

theorem assembleInline_eq_ok {assets : List BundleFile} {bundle : Bundle} {sourceMap : SourceMap}
    (made : service.assembleInline request assets = .ok (bundle, sourceMap)) :
    Bundle.Accepts (request.main.getD "main.typ") (service.inlineFiles request assets)
        service.maxBundleBytes ∧
      InlineBundle service request assets bundle sourceMap := by
  obtain ⟨bundle', built, same⟩ := bind_eq_ok.1 made
  obtain ⟨rfl, rfl⟩ := Prod.mk.inj (Except.ok.inj same)
  obtain ⟨accepts, main, inputs, files⟩ := Bundle.new_eq_ok.1 (mapError_eq_ok.1 built)
  refine ⟨accepts, main, inputs, rfl, fun path content => ?_⟩
  rw [files, getElem?_fileMap accepts.distinct, mem_inlineFiles]

/-- What a request that names no template was assembled from. -/
theorem inline_assembled {bundle : Bundle} {sourceMap : SourceMap} (inline : request.template = none)
    (ran : Alone allowed () (service.assemble tenant request) w (.ok (bundle, sourceMap)) w') :
    ∃ assets, Alone allowed () (loadAssets service.maxBundleBytes tenant request.assets) w
        (.ok assets) w' ∧
      InlineBundle service request assets bundle sourceMap := by
  unfold RenderService.assemble at ran
  split at ran
  · cases ran.1
  · obtain ⟨answer, w1, loaded, ran⟩ := Prog.exec_bind.1 ran
    cases answer with
    | error error => cases ran.1
    | ok assets =>
        simp only [inline] at ran
        obtain ⟨made, rfl⟩ := ran
        exact ⟨assets, loaded, (assembleInline_eq_ok service request made.symm).2⟩

/-! ## From the request to the download -/

/-- What the store keeps of a render it had room for. -/
theorem render_keeps (sane : Sane service.limits service.codec False w)
    (ran : Alone allowed () (service.render tenant request) w (.ok result) w')
    (bytes : w.index.stored + (sizesOf result.pdf result.previews).sum ≤ service.limits.maxStoreBytes)
    (entries : size w.index.entries < service.limits.maxStoreEntries)
    (young : ∀ choice, allowed choice → later < wrapAdd choice.now (service.limits.ttl .output)) :
    ∃ card files,
      Keeps service.limits service.codec later ⟨tenant, .output, result.jobId⟩ card files w' ∧
      ∀ name contents, (name, contents) ∈ resultFiles result.pdf result.previews →
        (safeName name, contents) ∈ files ∧ safeName name ≠ metaName := by
  rcases render_cases service request sane.toAtRest.toIdle ran with
    ⟨_, -, failed, -⟩ | ⟨compiled, stored, -, storing, same⟩
  · cases failed
  cases stored with
  | error source => cases same
  | ok stored =>
      obtain rfl := Except.ok.inj same
      have whole := result_whole storing
      have pdf : result.pdf = compiled.pdf := congrArg RenderResult.pdf whole
      have previews : result.previews = compiled.previews := congrArg RenderResult.previews whole
      rw [pdf, previews] at bytes ⊢
      exact result_keeps sane bytes entries young storing

/-- **A render delivers what it compiled.**  When a render succeeds, its result is the document that
the compile made of the request's bundle; a request with its own files is compiled from those
files, its assets and its data, each unchanged under its own path.  If the store had room for the
document, and the clock did not run back while it was stored, then until the expiry the caller is told,
whatever is called meanwhile that leaves the entry, every download of the PDF or of a preview is
answered with the very bytes the compile made. -/
theorem render_delivers (past : History service.limits service.codec (fun w op => op.Fits w.index) w)
    (ran : Alone allowed () (service.render tenant request) w (.ok result) w') :
    ∃ bundle sourceMap compiled,
      Alone allowed () (service.assemble tenant request) w (.ok (bundle, sourceMap)) w ∧
      (request.template = none → ∃ assets,
        Alone allowed () (loadAssets service.maxBundleBytes tenant request.assets) w (.ok assets) w ∧
        InlineBundle service request assets bundle sourceMap) ∧
      service.compileBundle bundle sourceMap (service.jobLimits request) = .ok compiled ∧
      result = {
        jobId := result.jobId
        url := configUrl service.publicUrl
          ("files/" ++ tenant.str ++ "/" ++ result.jobId ++ "/" ++ documentName)
        pages := compiled.pages
        bytes := compiled.pdf.length
        expiresAt := result.expiresAt
        diagnostics := compiled.diagnostics
        pdf := compiled.pdf
        previews := compiled.previews } ∧
      (w.index.stored + (sizesOf compiled.pdf compiled.previews).sum ≤ service.limits.maxStoreBytes →
        size w.index.entries < service.limits.maxStoreEntries →
        (∀ choice, allowed choice →
          result.expiresAt ≤ wrapAdd choice.now (service.limits.ttl .output)) →
        ∀ later, later < result.expiresAt → ∀ w1,
          Meanwhile service.limits service.codec ⟨tenant, .output, result.jobId⟩ later w' w1 →
          ∀ name contents, (name, contents) ∈ resultFiles compiled.pdf compiled.previews →
          ∀ answer w'', Alone (clock later) () (Store.get tenant .output result.jobId name) w1
            answer w'' → answer = .ok contents) := by
  have sane : Sane service.limits service.codec False w :=
    history_sane (fun _ _ fits => ⟨fun no => no.elim, fits⟩) past
  rcases render_cases service request sane.toAtRest.toIdle ran with
    ⟨_, -, failed, -⟩ | ⟨compiled, stored, made, storing, same⟩
  · cases failed
  obtain ⟨answer, w1, assembled, made⟩ := Prog.exec_bind.1 made
  obtain rfl := (asks_assemble service request).still w answer w1 sane.toAtRest.toIdle assembled
  cases answer with
  | error failure => cases made.1
  | ok parts =>
      obtain ⟨bundle, sourceMap⟩ := parts
      cases stored with
      | error source => cases same
      | ok stored =>
          obtain rfl := Except.ok.inj same
          refine ⟨bundle, sourceMap, compiled, assembled,
            fun inline => inline_assembled service request inline assembled, made.1.symm,
            result_whole storing, ?_⟩
          have whole := result_whole storing
          have pdf : compiled.pdf = result.pdf := (congrArg RenderResult.pdf whole).symm
          have previews : compiled.previews = result.previews :=
            (congrArg RenderResult.previews whole).symm
          rw [pdf, previews]
          intro bytes entries steady later young w2 run name contents inside answer w'' read
          obtain ⟨_, files, keeps, listed⟩ := render_keeps service request sane ran bytes entries
            fun choice may => young.trans_le (steady choice may)
          obtain ⟨there, apart⟩ := listed name contents inside
          exact (keeps_meanwhile keeps run).reads there apart read

theorem render_delivers_dear : ∃ result w',
    Alone (clock 0) () (printing.render someTenant dear) World.fresh (.ok result) w' ∧
    ∀ w1, Meanwhile roomyLimits serde ⟨someTenant, .output, result.jobId⟩ 5 w' w1 →
      ∀ answer w'', Alone (clock 5) () (Store.get someTenant .output result.jobId documentName) w1
        answer w'' → answer = .ok (utf8 "= Dear reader") := by
  obtain ⟨⟨result, w'⟩, played, checked⟩ : ∃ x,
      solo 0 (printing.render someTenant dear) World.fresh = some x ∧
        (x.1.toOption.any fun result => decide (result.pdf = utf8 "= Dear reader" ∧
          (sizesOf result.pdf result.previews).sum ≤ roomyLimits.maxStoreBytes ∧
          result.expiresAt = 10)) = true :=
    (Option.any_eq_true _ _).1 (by decide +kernel)
  cases result with
  | error failure => cases checked
  | ok result =>
      obtain ⟨pdf, small, told⟩ := of_decide_eq_true checked
      refine ⟨result, w', alone_solo played, fun w1 run answer w'' read => ?_⟩
      obtain ⟨bundle, sourceMap, compiled, -, -, -, whole, delivers⟩ :=
        render_delivers printing dear .fresh (alone_solo played)
      have same : compiled.pdf = result.pdf := (congrArg RenderResult.pdf whole).symm
      have shown : compiled.previews = result.previews := (congrArg RenderResult.previews whole).symm
      refine delivers ?_ (by decide) ?_ 5 (by omega) w1 run documentName _ ?_ answer w'' read
      · rw [same, shown]
        exact (Nat.zero_add _).le.trans small
      · intro choice clocked
        rw [told, show choice.now = 0 from clocked]
        decide
      · rw [← pdf, ← same]
        exact List.mem_cons_self

/-! ## Uploading a template -/

theorem checkUpload_eq_ok {requested : Option String} {files : List BundleFile}
    {template : Template F} {warnings : List String} {archive : Bytes}
    (checked : service.checkUpload requested files = .ok (template, warnings, archive)) :
    fromSourceFiles service.crates files service.maxBundleBytes = .ok template ∧
      (∀ name, requested = some name → name = template.manifest.name) ∧
      service.tryExample template = .ok warnings ∧ template.toArchive service.tar = .ok archive := by
  obtain ⟨template', made, checked⟩ := bind_eq_ok.1 checked
  obtain ⟨_, named, checked⟩ := bind_eq_ok.1 checked
  obtain ⟨warnings', tried, checked⟩ := bind_eq_ok.1 checked
  obtain ⟨archive', written, same⟩ := bind_eq_ok.1 checked
  obtain ⟨rfl, rest⟩ := Prod.mk.inj (Except.ok.inj same)
  obtain ⟨rfl, rfl⟩ := Prod.mk.inj rest
  refine ⟨mapError_eq_ok.1 made, ?_, tried, mapError_eq_ok.1 written⟩
  rintro name rfl
  by_contra differs
  have refused : RenderService.checkName template' (some name) =
      .error (.nameMismatch name template'.manifest.name) := if_pos differs
  rw [refused] at named
  cases named

/-- **An uploaded template is there under its id.**  When an upload succeeds it was accepted with
its assets, its example, if it has one, compiled, and the name asked for is its own.  If the store
had room for its archive, then until the expiry the caller is told, whatever is called meanwhile that
leaves the entry, its id resolves, for this tenant, to a template with the same manifest, schema,
fixtures and source files, byte for byte, unless a template of the service's own has that very
name. -/
theorem upload_resolves (faithful : service.tar.Faithful)
    (representable : service.maxBundleBytes + 1 < TypstMcp.Template.usizeSize)
    {requested : Option String} {files : List BundleFile} {ids : List String}
    {uploaded : UploadedTemplate}
    (past : History service.limits service.codec (fun w op => op.Fits w.index) w)
    (ran : Alone allowed () (service.uploadTemplate tenant requested files ids) w (.ok uploaded) w') :
    ∃ mounted template archive,
      Alone allowed () (loadAssets service.maxBundleBytes tenant ids) w (.ok mounted) w ∧
      fromSourceFiles service.crates (files ++ mounted) service.maxBundleBytes = .ok template ∧
      uploaded.name = template.manifest.name ∧
      (∀ name, requested = some name → name = uploaded.name) ∧
      service.tryExample template = .ok uploaded.warnings ∧
      template.toArchive service.tar = .ok archive ∧
      (archive.length < TypstMcp.Template.usizeSize →
        w.index.stored + archive.length ≤ service.limits.maxStoreBytes →
        size w.index.entries < service.limits.maxStoreEntries →
        service.templates[uploaded.id]? = none →
        ∀ later, later < uploaded.expiresAt → ∀ w1,
          Meanwhile service.limits service.codec ⟨tenant, .template, uploaded.id⟩ later w' w1 →
          ∀ answer w'', Alone (clock later) () (service.template tenant uploaded.id) w1 answer w'' →
          ∃ found, answer = .ok found ∧ SameSource template found ∧
            found.sourceFiles.map member = template.sourceFiles.map member) := by
  have sane : Sane service.limits service.codec False w :=
    history_sane (fun _ _ fits => ⟨fun no => no.elim, fits⟩) past
  rcases upload_cases service sane.toAtRest.toIdle ran with
    ⟨⟨_, failed⟩, -⟩ | ⟨mounted, template, warnings, archive, stored, loaded, checked, storing, told⟩
  · cases failed
  cases stored with
  | error source => cases told
  | ok entry =>
      obtain rfl := Except.ok.inj told
      obtain ⟨accepted, named, tried, written⟩ := checkUpload_eq_ok service checked
      refine ⟨mounted, template, archive, loaded, accepted, rfl, named, tried, written, ?_⟩
      intro vec bytes entries unshadowed later young w2 run answer w'' resolved
      obtain ⟨_, choice, -, storing⟩ := alone_call.1 storing
      simp only [handle, Prog.ret_bind] at storing
      obtain ⟨own, keeps, -⟩ :=
        put_stores ⟨tenant, .template, Kind.template.idPrefix ++ choice.ulid⟩ sane
          (@spare_of_room _ _ (archive.length + 0) bytes entries _) young storing
      have own : entry.id = Kind.template.idPrefix ++ choice.ulid := own
      have keeps := keeps_meanwhile keeps (own ▸ run)
      have prefixed : Kind.template.idPrefix.toList <+: entry.id.toList := by
        rw [own, String.toList_append]
        exact List.prefix_append _ _
      unfold RenderService.template at resolved
      simp only [unshadowed, if_pos prefixed] at resolved
      obtain ⟨content, w2, read, resolved⟩ := Prog.exec_bind.1 resolved
      rw [own] at read
      obtain rfl := keeps.reads List.mem_cons_self (by decide) read
      obtain ⟨archive', written', found, decoded, same, sources⟩ :=
        fromArchive_toArchive faithful representable accepted
          (fun other again => by
            obtain rfl := Except.ok.inj (written.symm.trans again)
            exact vec)
      obtain rfl := Except.ok.inj (written.symm.trans written')
      refine ⟨found, ?_, same, ?_⟩
      · rw [resolved.1, decoded]
        rfl
      · rw [sources, List.map_map]
        exact List.map_congr_left fun file _ =>
          Prod.ext rfl (TypstMcp.Template.classify_asBytes _ _)

theorem upload_resolves_draft : ∃ uploaded w' template,
    Alone (clock 0) () (printing.uploadTemplate someTenant none draftFiles []) World.fresh
      (.ok uploaded) w' ∧
    fromSourceFiles draftCrates draftFiles 1024 = .ok template ∧
    ∀ w1, Meanwhile roomyLimits serde ⟨someTenant, .template, uploaded.id⟩ 5 w' w1 →
      ∀ answer w'', Alone (clock 5) () (printing.template someTenant uploaded.id) w1 answer w'' →
      ∃ found, answer = .ok found ∧ SameSource template found ∧
        found.sourceFiles.map member = template.sourceFiles.map member := by
  have evaluated : ((solo 0 (printing.uploadTemplate someTenant none draftFiles [])
      World.fresh).any fun x => x.1.toOption.any fun uploaded => uploaded.expiresAt = 10) = true := by
    decide +kernel
  obtain ⟨⟨result, w'⟩, played, checked⟩ := (Option.any_eq_true _ _).1 evaluated
  cases result with
  | error failure => cases checked
  | ok uploaded =>
      have told : uploaded.expiresAt = 10 := of_decide_eq_true checked
      obtain ⟨mounted, template, archive, loaded, accepted, -, -, -, written, resolves⟩ :=
        upload_resolves printing gnuTar_faithful (by decide) .fresh (alone_solo played)
      obtain rfl : mounted = [] := Except.ok.inj loaded.1
      refine ⟨uploaded, w', template, alone_solo played, accepted, ?_⟩
      have small : ((fromSourceFiles draftCrates draftFiles 1024).toOption.any fun template =>
          (template.toArchive gnuTar).toOption.all (·.length ≤ 65536)) = true := by decide +kernel
      have accepted : fromSourceFiles draftCrates draftFiles 1024 = .ok template := accepted
      have written : template.toArchive gnuTar = .ok archive := written
      rw [accepted] at small
      simp only [Except.toOption, Option.any_some, written, Option.all_some, decide_eq_true_eq] at small
      exact resolves (lt_of_le_of_lt small (by decide)) (by exact (Nat.zero_add _).le.trans small)
        (by decide) rfl 5 (by omega)

end TypstMcp.Render
