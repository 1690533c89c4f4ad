/-
Render.Service -- a request in, a document out

`RenderService` over the store: the assets and the template of a request are read from
it, the bundle is put together and compiled, and only a document is stored.  The compile
itself (`Worker.Run`) is a parameter here: whatever becomes of a bundle.

* `looking_compile`, `compile_still`: a compile asks the store and leaves it as it was.
* `compile_stores_nothing`: what a render or an upload that fails before its put leaves.
-/
import TypstMcp.Render.Assets
import TypstMcp.Render.Compiled
import TypstMcp.Template.TemplateSet
import TypstMcp.Worker.Run

namespace TypstMcp.Render

open TypstMcp.Theory TypstMcp.Theory.Table
open TypstMcp.Auth (TenantId)
open TypstMcp.Bundle TypstMcp.Store
open TypstMcp.Template (Template TemplateSet TemplateError TarCrate Value Crates SourceMap fromArchive
  fromSourceFiles draftCrates gnuTar)
open TypstMcp.Worker (JobLimits)
open TypstMcp.Worker.Run (SpawnError)

set_option autoImplicit false
set_option linter.unusedSectionVars false

/-! ## Requests and errors -/

/-- One caller-supplied text file. -/
structure InputFile where
  path : String
  text : String
  deriving DecidableEq, Repr

def InputFile.file (file : InputFile) : BundleFile := ⟨file.path, .text file.text⟩

/-- What to render. -/
structure RenderRequest (F : Type) where
  template : Option String := none
  data : Option (Value F) := none
  body : Option String := none
  overrides : List InputFile := []
  source : Option String := none
  files : List InputFile := []
  main : Option String := none
  assets : List String := []
  inputs : BTreeMap String String := ∅
  previewPages : Option (List Nat) := none

/-- Why a render did not produce a document, before, during and after the compile. -/
inductive Failure
  | unknownTemplate (name available : String)
  | ambiguous
  | empty
  | overridesWithoutTemplate
  | duplicateAsset (id : String)
  | template (source : TemplateError)
  /-- `TemplateError::NameMismatch`: only an upload meets it. -/
  | nameMismatch (requested manifest : String)
  | bundle (source : BundleError)
  | store (source : StoreError)
  | spawn (source : SpawnError)
  /-- `Compile`, `Workspace` and `Protocol`. -/
  | compiled (source : RenderError)
  deriving DecidableEq, Repr

def Failure.ofAsset : AssetError → Failure
  | .duplicateAsset id => .duplicateAsset id
  | .bundle source => .bundle source
  | .store source => .store source

/-- The stable identity and lifetime of an uploaded template. -/
structure UploadedTemplate where
  id : String
  name : String
  expiresAt : Nat
  warnings : List String
  deriving DecidableEq, Repr

def storedArchive : String := "template.tar"

/-! ## The service -/

/-- What a `RenderService` is put together from. -/
structure RenderService (F : Type) where
  crates : Crates F
  tar : TarCrate
  templates : TemplateSet F
  compileBundle : Bundle → SourceMap → JobLimits → Except Failure CompiledDocument
  limits : Limits
  codec : MetaCodec
  publicUrl : String
  maxBundleBytes : Nat
  maxPages : Nat
  previewMaxPx : Nat
  workerMemoryBytes : Nat

namespace RenderService

variable {F : Type} (service : RenderService F) (tenant : TenantId)

/-- Baked names followed by this tenant's live ephemeral ids. -/
def templateNames : StoreProg (List String) := do
  let entries ← Store.list tenant .template
  return service.templates.keys ++ entries.map (·.id)

/-- Resolve a permanent template name or a tenant-scoped ephemeral id. -/
def template (reference : String) : StoreProg (Except Failure (Template F)) :=
  match service.templates[reference]? with
  | some template => return .ok template
  | none =>
      if Kind.template.idPrefix.toList <+: reference.toList then do
        match ← Store.get tenant .template reference storedArchive with
        | .error source => return .error (.store source)
        | .ok bytes =>
            return (fromArchive service.crates service.tar bytes service.maxBundleBytes).mapError
              .template
      else do
        let names ← templateNames service tenant
        return .error (.unknownTemplate reference (", ".intercalate names))

variable (request : RenderRequest F)

def jobLimits : JobLimits where
  maxBundleBytes := service.maxBundleBytes
  maxPages := service.maxPages
  previewPages := request.previewPages.getD [1]
  previewScaleMillis := 1000
  previewMaxPx := service.previewMaxPx
  memoryBytes := service.workerMemoryBytes

/-- The bundle of a request that names a template. -/
def assembleTemplate (template : Template F) (assets : List BundleFile) :
    Except Failure (Bundle × SourceMap) := do
  let body := match template.manifest.kind with
    | .wrapper => request.body
    | .data => none
  let assembled ← (template.assembleWithOverrides service.crates (request.data.getD (.object [])) body
    assets (request.overrides.map InputFile.file) service.maxBundleBytes).mapError .template
  return (assembled.bundle.withInputs request.inputs, assembled.sourceMap)

/-- The files of a request that brings its own. -/
def inlineFiles (assets : List BundleFile) : List BundleFile :=
  assets ++ (request.source.map fun source => (⟨"main.typ", .text source⟩ : BundleFile)).toList ++
    request.files.map InputFile.file ++
    (request.data.map fun data =>
      (⟨"data.json", .text ((service.crates.jsonText data).getD "\x7b\x7d")⟩ : BundleFile)).toList

def inlineMain : String := request.main.getD "main.typ"

/-- The bundle of a request that brings its own files. -/
def assembleInline (assets : List BundleFile) : Except Failure (Bundle × SourceMap) := do
  let bundle ← (Bundle.new (inlineMain request) (service.inlineFiles request assets) request.inputs
    service.maxBundleBytes).mapError .bundle
  return (bundle, {})

/-- The request brings its own files. -/
def hasInline : Bool := request.source.isSome || !request.files.isEmpty

/-- What is wrong with a request by itself. -/
def checkRequest : Except Failure Unit :=
  if request.template.isSome && hasInline request then .error .ambiguous
  else if request.template.isNone && !hasInline request then .error .empty
  else if request.template.isNone && !request.overrides.isEmpty then
    .error .overridesWithoutTemplate
  else .ok ()

/-- Build the bundle, from a template or from caller-supplied files. -/
def assemble : StoreProg (Except Failure (Bundle × SourceMap)) :=
  match checkRequest request with
  | .error failure => return .error failure
  | .ok () => do
      match ← loadAssets service.maxBundleBytes tenant request.assets with
      | .error error => return .error (.ofAsset error)
      | .ok assets =>
          match request.template with
          | none => return service.assembleInline request assets
          | some name =>
              match ← service.template tenant name with
              | .error failure => return .error failure
              | .ok template => return service.assembleTemplate request template assets

/-- Compile `request` without persisting any output. -/
def compile : StoreProg (Except Failure CompiledDocument) := do
  match ← service.assemble tenant request with
  | .error failure => return .error failure
  | .ok (bundle, sourceMap) =>
      return service.compileBundle bundle sourceMap (service.jobLimits request)

/-- Compile `request`, persist the result, and return stored-document metadata. -/
def render : StoreProg (Except Failure RenderResult) := do
  match ← service.compile tenant request with
  | .error failure => return .error failure
  | .ok compiled =>
      return (← storeResult service.limits service.codec service.publicUrl tenant compiled.pdf
        compiled.pages compiled.previews compiled.diagnostics).mapError .store

/-- The compile an upload is tried with, of a template that brings an example. -/
def tryExample (template : Template F) : Except Failure (List String) :=
  if template.fixture.isSome || template.fixtureBody.isSome then do
    let body := match template.manifest.kind with
      | .wrapper => template.fixtureBody
      | .data => none
    let assembled ← (template.assemble service.crates (template.fixture.getD (.object [])) body []
      service.maxBundleBytes).mapError .template
    let compiled ← service.compileBundle assembled.bundle assembled.sourceMap {
      maxBundleBytes := service.maxBundleBytes
      maxPages := service.maxPages
      previewPages := []
      previewScaleMillis := 1000
      previewMaxPx := service.previewMaxPx
      memoryBytes := service.workerMemoryBytes }
    return compiled.diagnostics.map (·.message)
  else .ok []

/-- The name asked for has to be the manifest's. -/
def checkName (template : Template F) : Option String → Except Failure Unit
  | some requested =>
      if requested ≠ template.manifest.name then
        .error (.nameMismatch requested template.manifest.name)
      else .ok ()
  | none => .ok ()

/-- What an upload is made of: the template, what the compile of its example warned of, and its
archive. -/
def checkUpload (requestedName : Option String) (files : List BundleFile) :
    Except Failure (Template F × List String × Bytes) := do
  let template ← (fromSourceFiles service.crates files service.maxBundleBytes).mapError .template
  checkName template requestedName
  let warnings ← service.tryExample template
  let archive ← (template.toArchive service.tar).mapError .template
  return (template, warnings, archive)

/-- Validate, fixture-compile and atomically persist an ephemeral template. -/
def uploadTemplate (requestedName : Option String) (files : List BundleFile)
    (assets : List String) : StoreProg (Except Failure UploadedTemplate) := do
  match ← loadAssets service.maxBundleBytes tenant assets with
  | .error error => return .error (.ofAsset error)
  | .ok mounted =>
      match service.checkUpload requestedName (files ++ mounted) with
      | .error failure => return .error failure
      | .ok (template, warnings, archive) =>
          match ← Store.put service.limits service.codec tenant .template storedArchive archive
              (metaOf storedArchive "application/x-tar") with
          | .error source => return .error (.store source)
          | .ok entry =>
              return .ok ⟨entry.id, template.manifest.name, entry.expiresAt, warnings⟩

end RenderService

/-! ## Looking -/

/-- The calls that read the store. -/
def Looking : Call → Prop
  | .lock .other | .unlock _ .nothing | .now | .iterate _ | .read _ => True
  | _ => False

/-- The volume and what is counted about it. -/
structure SameVolume {T : Type} (w w' : World T) : Prop where
  disk : w'.disk = w.disk
  up : w'.up = w.up
  expiredEvictions : w'.expiredEvictions = w.expiredEvictions
  quotaEvictions : w'.quotaEvictions = w.quotaEvictions
  doomed : w'.doomed = w.doomed
  torn : w'.torn = w.torn

section Looks

variable {T : Type} [DecidableEq T] {t : T} {w w' : World T} {codec : MetaCodec} {plain : Prop}
variable {allowed : Choice → Prop} {α β : Type} {limit : Nat} {tenant : TenantId}

/-- Whatever the other threads are at. -/
theorem looking_volume {c : Call} (looks : Looking c) (choice : Choice) (w : World T) :
    SameVolume w (handle t choice c w).2 := by
  cases c with
  | lock purpose | now | iterate _ | read _ => exact ⟨rfl, rfl, rfl, rfl, rfl, rfl⟩
  | unlock index note =>
      cases note with
      | nothing => exact ⟨rfl, rfl, rfl, rfl, rfl, rfl⟩
      | counted _ _ _ | doomed _ => exact looks.elim
  | _ => exact looks.elim

theorem looking_checkLive (key : Key) : (checkLive key).Calls Looking := by
  refine ⟨trivial, fun index => ?_⟩
  simp only [Prog.ret_bind]
  split
  · exact ⟨trivial, fun _ => trivial⟩
  · refine ⟨trivial, fun now => ?_⟩
    simp only [Prog.ret_bind]
    split <;> exact ⟨trivial, fun _ => trivial⟩

theorem looking_entry (kind : Kind) (id : String) : (Store.entry tenant kind id).Calls Looking := by
  unfold Store.entry
  split
  · trivial
  · exact looking_checkLive _

theorem looking_get (kind : Kind) (id name : String) :
    (Store.get tenant kind id name).Calls Looking := by
  unfold Store.get
  split
  · trivial
  · refine Prog.calls_bind (looking_checkLive _) fun live => ?_
    split
    · trivial
    · refine ⟨trivial, fun bytes => ?_⟩
      simp only [Prog.ret_bind]
      split <;> trivial

theorem looking_list (kind : Kind) : (Store.list tenant kind).Calls Looking :=
  ⟨trivial, fun _ => ⟨trivial, fun _ => ⟨trivial, fun _ => ⟨trivial, fun _ => trivial⟩⟩⟩⟩

/-- Run alone on an open store, the program leaves it exactly as it was. -/
def Still (codec : MetaCodec) (plain : Prop) (allowed : Choice → Prop) (t : T) (p : StoreProg α) :
    Prop :=
  ∀ w value w', Idle codec plain w → Alone allowed t p w value w' → w' = w

/-- A program that only asks: whatever it is answered, and wherever it runs alone. -/
structure Asks (codec : MetaCodec) (plain : Prop) (allowed : Choice → Prop) (t : T)
    (p : StoreProg α) : Prop where
  looking : p.Calls Looking
  still : Still codec plain allowed t p

theorem asks_ret (value : α) : Asks codec plain allowed t (.ret value) :=
  ⟨trivial, fun _ _ _ _ ran => ran.2⟩

theorem asks_bind {p : StoreProg α} {f : α → StoreProg β} (first : Asks codec plain allowed t p)
    (rest : ∀ value, Asks codec plain allowed t (f value)) :
    Asks codec plain allowed t (p.bind f) := by
  refine ⟨Prog.calls_bind first.looking fun value => (rest value).looking, ?_⟩
  intro w value w' idle ran
  obtain ⟨mid, w1, before, after⟩ := Prog.exec_bind.1 ran
  obtain rfl := first.still w mid w1 idle before
  exact (rest mid).still _ value w' idle after

theorem asks_entry (kind : Kind) (id : String) :
    Asks codec plain allowed t (Store.entry tenant kind id) :=
  ⟨looking_entry kind id, fun _ _ _ idle ran => (entry_exec idle ran).1⟩

theorem asks_get (kind : Kind) (id name : String) :
    Asks codec plain allowed t (Store.get tenant kind id name) :=
  ⟨looking_get kind id name, fun _ _ _ idle ran => (get_exec idle ran).1⟩

theorem asks_list (kind : Kind) : Asks codec plain allowed t (Store.list tenant kind) :=
  ⟨looking_list kind, fun _ _ _ idle ran => (list_exec idle ran).1⟩

theorem asks_preflight (ids seen : List String) (total : Nat) (entries : List (String × Entry)) :
    Asks codec plain allowed t (preflight limit tenant ids seen total entries) := by
  induction ids generalizing seen total entries with
  | nil => exact asks_ret _
  | cons id rest ih =>
      unfold preflight
      split
      · exact asks_ret _
      · refine asks_bind (asks_entry _ _) fun answer => ?_
        cases answer with
        | error source => exact asks_ret _
        | ok entry =>
            dsimp only
            split
            · exact asks_ret _
            · exact ih _ _ _

theorem asks_readAssets (entries : List (String × Entry)) :
    Asks codec plain allowed t (readAssets tenant entries) := by
  induction entries with
  | nil => exact asks_ret _
  | cons asset rest ih =>
      refine asks_bind (asks_get _ _ _) fun answer => ?_
      cases answer with
      | error source => exact asks_ret _
      | ok bytes =>
          refine asks_bind ih fun others => ?_
          cases others <;> exact asks_ret _

theorem asks_loadAssets (ids : List String) :
    Asks codec plain allowed t (loadAssets limit tenant ids) := by
  unfold loadAssets
  split
  · exact asks_ret _
  · refine asks_bind (asks_preflight _ _ _ _) fun answer => ?_
    cases answer with
    | error error => exact asks_ret _
    | ok entries => exact asks_readAssets entries

/-! ## Compiling stores nothing -/

variable {F : Type} (service : RenderService F) (request : RenderRequest F)

theorem asks_template (reference : String) :
    Asks codec plain allowed t (service.template tenant reference) := by
  unfold RenderService.template
  split
  · exact asks_ret _
  · split
    · refine asks_bind (asks_get _ _ _) fun answer => ?_
      cases answer <;> exact asks_ret _
    · exact asks_bind (asks_bind (asks_list _) fun _ => asks_ret _) fun _ => asks_ret _

theorem asks_assemble : Asks codec plain allowed t (service.assemble tenant request) := by
  unfold RenderService.assemble
  split
  · exact asks_ret _
  · refine asks_bind (asks_loadAssets _) fun answer => ?_
    cases answer with
    | error error => exact asks_ret _
    | ok assets =>
        dsimp only
        split
        · exact asks_ret _
        · refine asks_bind (asks_template service _) fun found => ?_
          cases found <;> exact asks_ret _

theorem asks_compile : Asks codec plain allowed t (service.compile tenant request) := by
  refine asks_bind (asks_assemble service request) fun answer => ?_
  cases answer <;> exact asks_ret _

/-- A render is a compile and then, if that made a document, the storing of it. -/
theorem render_cases {result : Except Failure RenderResult} (idle : Idle codec plain w)
    (ran : Alone allowed t (service.render tenant request) w result w') :
    (∃ failure, Alone allowed t (service.compile tenant request) w (.error failure) w ∧
      result = .error failure ∧ w' = w) ∨
    ∃ compiled stored, Alone allowed t (service.compile tenant request) w (.ok compiled) w ∧
      Alone allowed t (storeResult service.limits service.codec service.publicUrl tenant compiled.pdf
        compiled.pages compiled.previews compiled.diagnostics) w stored w' ∧
      result = stored.mapError .store := by
  obtain ⟨answer, w1, first, ran⟩ := Prog.exec_bind.1 ran
  obtain rfl := (asks_compile service request).still w answer w1 idle first
  cases answer with
  | error failure =>
      obtain ⟨rfl, rfl⟩ := ran
      exact .inl ⟨failure, first, rfl, rfl⟩
  | ok compiled =>
      obtain ⟨stored, w2, storing, ran⟩ := Prog.exec_bind.1 ran
      obtain ⟨rfl, rfl⟩ := ran
      exact .inr ⟨compiled, stored, first, storing, rfl⟩

/-- An upload asks for the assets, tries the template and then puts its archive. -/
theorem upload_cases {name : Option String} {files : List BundleFile} {ids : List String}
    {result : Except Failure UploadedTemplate} (idle : Idle codec plain w)
    (ran : Alone allowed t (service.uploadTemplate tenant name files ids) w result w') :
    ((∃ failure, result = .error failure) ∧ w' = w) ∨
    ∃ mounted template warnings archive stored,
      Alone allowed t (loadAssets service.maxBundleBytes tenant ids) w (.ok mounted) w ∧
      service.checkUpload name (files ++ mounted) = .ok (template, warnings, archive) ∧
      Alone allowed t (Store.put service.limits service.codec tenant .template storedArchive archive
        (metaOf storedArchive "application/x-tar")) w stored w' ∧
      match stored with
      | .error source => result = .error (.store source)
      | .ok entry =>
          result = .ok ⟨entry.id, template.manifest.name, entry.expiresAt, warnings⟩ := by
  obtain ⟨answer, w1, first, ran⟩ := Prog.exec_bind.1 ran
  obtain rfl := (asks_loadAssets ids).still w answer w1 idle first
  cases answer with
  | error error => exact .inl ⟨⟨_, ran.1⟩, ran.2⟩
  | ok mounted =>
      dsimp only at ran
      cases checked : service.checkUpload name (files ++ mounted) with
      | error failure =>
          rw [checked] at ran
          exact .inl ⟨⟨_, ran.1⟩, ran.2⟩
      | ok made =>
          obtain ⟨template, warnings, archive⟩ := made
          rw [checked] at ran
          obtain ⟨stored, w2, storing, ran⟩ := Prog.exec_bind.1 ran
          refine .inr ⟨mounted, template, warnings, archive, stored, first, checked, ?_, ?_⟩
          · cases stored <;> exact ran.2 ▸ storing
          · cases stored <;> exact ran.1

/-- **Compiling stores nothing.**  Whatever it is asked to render, with whatever template, assets
and answers, a compile only reads the store, whatever other calls are at work on it; alone on a
store it leaves it as it was.  So a render that makes no document, and an upload that fails
before its archive is put, leave the store as it was. -/
theorem compile_stores_nothing (idle : Idle codec plain w) :
    ((service.compile tenant request).Calls Looking ∧
      ∀ c, Looking c → ∀ choice (v : World T), SameVolume v (handle t choice c v).2) ∧
    (∀ result w', Alone allowed t (service.compile tenant request) w result w' → w' = w) ∧
    (∀ failure w', Alone allowed t (service.render tenant request) w (.error failure) w' →
      w' = w ∨ ∃ source compiled, failure = .store source ∧
        Alone allowed t (service.compile tenant request) w (.ok compiled) w) ∧
    ∀ name files ids failure w',
      Alone allowed t (service.uploadTemplate tenant name files ids) w (.error failure) w' →
      w' = w ∨ ∃ source mounted made, failure = .store source ∧
        service.checkUpload name (files ++ mounted) = .ok made := by
  have asks := @asks_compile T _ t codec plain allowed tenant F service request
  refine ⟨⟨asks.looking, fun c looks choice v => looking_volume looks choice v⟩,
    fun result w' ran => asks.still w result w' idle ran, fun failure w' ran => ?_,
    fun name files ids failure w' ran => ?_⟩
  · rcases render_cases service request idle ran with ⟨_, -, -, same⟩ | ⟨compiled, stored, made, -, failed⟩
    · exact .inl same
    · cases stored with
      | error source => exact .inr ⟨source, compiled, Except.error.inj failed, made⟩
      | ok _ => cases failed
  · rcases upload_cases service idle ran with
      ⟨-, same⟩ | ⟨mounted, template, warnings, archive, stored, -, checked, -, failed⟩
    · exact .inl same
    · cases stored with
      | error source =>
          exact .inr ⟨source, mounted, _, Except.error.inj failed, checked⟩
      | ok _ => cases failed

end Looks

section Sample

/-- Limits that leave room for an archive. -/
def roomyLimits : Limits := { smallLimits with
  maxTenantBytes := 65536
  maxStoreBytes := 65536
  maxTenantBytes_lt := by decide
  maxStoreBytes_lt := by decide }

/-- A service without templates of its own, which prints the main file. -/
def printing : RenderService Int where
  crates := draftCrates
  tar := gnuTar
  templates := ∅
  compileBundle bundle sourceMap _ :=
    match bundle.files[bundle.main]? with
    | some content => .ok ⟨1, applyMap sourceMap [], content.asBytes, [⟨1, 1, 1, content.asBytes⟩]⟩
    | none => .error (.compiled (.compile "no main file" []))
  limits := roomyLimits
  codec := serde
  publicUrl := "https://typst.example"
  maxBundleBytes := 1024
  maxPages := 8
  previewMaxPx := 64
  workerMemoryBytes := 1024

/-- A letter in one file. -/
def dear : RenderRequest Int := { source := some "= Dear reader" }

theorem idle_fresh : Idle serde False (World.fresh : World Unit) := ⟨inv_fresh _ _, rfl, rfl⟩

theorem compile_stores_nothing_dear :
    (∀ result w', Alone anyChoice () (printing.compile someTenant dear) World.fresh result w' →
      w' = World.fresh) ∧
    ∀ failure w', Alone anyChoice () (printing.uploadTemplate someTenant none [] [logo.id])
        World.fresh (.error failure) w' →
      w' = World.fresh ∨ ∃ source mounted made, failure = .store source ∧
        printing.checkUpload none ([] ++ mounted) = .ok made :=
  ⟨(compile_stores_nothing printing dear idle_fresh).2.1,
    fun failure w' ran => (compile_stores_nothing printing dear idle_fresh).2.2.2 none [] [logo.id]
      failure w' ran⟩

end Sample

end TypstMcp.Render
