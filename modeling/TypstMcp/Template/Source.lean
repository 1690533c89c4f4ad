/-
Template.Source -- a template from its source files, and its source files back

`assembleFrom` checks the parts of a template, however they arrived;
`fromSourceFiles` takes them out of a complete set of files, behind the checks of
`Bundle.new`.  `assembleFrom_eq_ok` says exactly what is accepted, and
`sourceFiles_eq` that the accepted files come back as they were, in path order.
-/
import TypstMcp.Template.Manifest

namespace TypstMcp.Template

open TypstMcp.Bundle TypstMcp.Theory

set_option autoImplicit false
set_option linter.dupNamespace false

variable {F : Type}

/-- Prefix reserved for generated files. -/
def reservedPrefix : String := "__"

def isReserved (path : String) : Bool := reservedPrefix.toList.isPrefixOf path.toList

/-- A path a template file may have. -/
structure OwnPath (path : String) : Prop where
  unreserved : isReserved path = false
  good : GoodPath path

/-- The pieces of a template, however they arrived. -/
structure TemplateParts where
  manifestToml : String := ""
  files : List BundleFile := []
  schemaJson : Option String := none
  fixtureJson : Option String := none
  fixtureBody : Option String := none

/-- A loaded template: its manifest, its files, and its optional data schema. -/
@[ext] structure Template (F : Type) where
  manifest : Manifest
  files : List BundleFile
  schema : Option (Value F)
  fixture : Option (Value F)
  fixtureBody : Option String
  manifestToml : String
  schemaJson : Option String
  fixtureJson : Option String
  own : ∀ file ∈ files, OwnPath file.path
  hasEntrypoint : ∃ file ∈ files, file.path = manifest.entrypoint

/-! ## The checks -/

/-- A wrapper's function is emitted in code position. -/
def checkWrapper (manifest : Manifest) : Except TemplateError Unit :=
  match manifest.kind with
  | .data => .ok ()
  | .wrapper =>
      match manifest.wrapperFn with
      | none => .error (.noWrapperFn manifest.name)
      | some f => if isIdent f then .ok () else .error (.badWrapperFn manifest.name f)

/-- The loop over the files, and what it establishes. -/
def checkFiles (name : String) :
    (files : List BundleFile) → Except TemplateError (PLift (∀ file ∈ files, OwnPath file.path))
  | [] => .ok ⟨by simp⟩
  | file :: rest =>
      if reserved : isReserved file.path = true then .error (.reservedName file.path)
      else match checked : normalisePath file.path with
        | .error source => .error (.badPath name file.path source)
        | .ok _ => do
            let later ← checkFiles name rest
            return ⟨List.forall_mem_cons.2
              ⟨⟨by simpa using reserved, (normalisePath_eq_ok.1 checked).1⟩, later.down⟩⟩

/-- Parse optional JSON text the same way a file on disk would be parsed. -/
def parseJson (crates : Crates F) (text : Option String) (name : String) :
    Except TemplateError (Option (Value F)) :=
  match text with
  | none => .ok none
  | some text =>
      match crates.json text with
      | .ok value => .ok (some value)
      | .error e => .error (.badSchema [name] e)

def checkSchema (crates : Crates F) : Option (Value F) → Except TemplateError Unit
  | none => .ok ()
  | some schema =>
      match crates.validatorFor schema with
      | .ok _ => .ok ()
      | .error e => .error (.badSchema ["schema.json"] e)

/-- Build a template from its parts, validating everything. -/
def assembleFrom (crates : Crates F) (parts : TemplateParts) :
    Except TemplateError (Template F) := do
  let manifest ← (crates.manifest parts.manifestToml).mapError (.badManifest ["template.toml"])
  checkWrapper manifest
  let own ← checkFiles manifest.name parts.files
  let files := sortFiles parts.files
  if hasEntrypoint : ∃ file ∈ files, file.path = manifest.entrypoint then
    let schema ← parseJson crates parts.schemaJson "schema.json"
    checkSchema crates schema
    let fixture ← parseJson crates parts.fixtureJson "fixture.json"
    return {
      manifest, files, schema, fixture, hasEntrypoint
      fixtureBody := parts.fixtureBody
      manifestToml := parts.manifestToml
      schemaJson := parts.schemaJson
      fixtureJson := parts.fixtureJson
      own := fun file inside => own.down file (mem_sortFiles.1 inside) }
  else throw (.missingEntrypoint manifest.name manifest.entrypoint)

/-! ## Metadata files -/

/-- The four files that are metadata rather than part of the document. -/
inductive Metadata
  | manifest
  | schema
  | fixture
  | body
  deriving DecidableEq, Repr

def Metadata.path : Metadata → String
  | .manifest => "template.toml"
  | .schema => "schema.json"
  | .fixture => "fixture.json"
  | .body => "fixture.body.typ"

def metadataOf (path : String) : Option Metadata :=
  if path = "template.toml" then some .manifest
  else if path = "schema.json" then some .schema
  else if path = "fixture.json" then some .fixture
  else if path = "fixture.body.typ" then some .body
  else none

/-- The slots of `from_source_files`, filled as its loop goes on. -/
structure Slots where
  manifestToml : Option String := none
  schemaJson : Option String := none
  fixtureJson : Option String := none
  fixtureBody : Option String := none
  files : List BundleFile := []

def Slots.fill (slots : Slots) (text : String) : Metadata → Slots
  | .manifest => { slots with manifestToml := some text }
  | .schema => { slots with schemaJson := some text }
  | .fixture => { slots with fixtureJson := some text }
  | .body => { slots with fixtureBody := some text }

def takeFile (slots : Slots) (file : BundleFile) : Except TemplateError Slots :=
  match metadataOf file.path with
  | none => .ok { slots with files := slots.files ++ [file] }
  | some slot =>
      match file.content with
      | .text text => .ok (slots.fill text slot)
      | .binary _ => .error (.nonTextMetadata file.path)

/-- Build an uploaded template from a complete set of source files. -/
def fromSourceFiles (crates : Crates F) (files : List BundleFile) (maxBytes : Nat) :
    Except TemplateError (Template F) := do
  let bundle ← (Bundle.new "template.toml" files ∅ maxBytes).mapError .bundle
  let slots ← bundle.fileList.foldlM takeFile {}
  -- The bundle required `template.toml`, so that slot is full (`takeFiles_manifest`).
  assembleFrom crates {
    manifestToml := slots.manifestToml.getD ""
    files := slots.files
    schemaJson := slots.schemaJson
    fixtureJson := slots.fixtureJson
    fixtureBody := slots.fixtureBody }

/-- A metadata file, when its text is there. -/
def metadataFile (slot : Metadata) (text : Option String) : List BundleFile :=
  match text with
  | none => []
  | some text => [⟨slot.path, .text text⟩]

/-- Every source file, byte-for-byte, in stable path order. -/
def Template.sourceFiles (template : Template F) : List BundleFile :=
  sortFiles (template.files ++ metadataFile .manifest (some template.manifestToml) ++
    metadataFile .schema template.schemaJson ++ metadataFile .fixture template.fixtureJson ++
    metadataFile .body template.fixtureBody)

/-! ## What is accepted -/

theorem checkWrapper_eq_ok {manifest : Manifest} :
    checkWrapper manifest = .ok () ↔
      (manifest.kind = .wrapper → ∃ f, manifest.wrapperFn = some f ∧ isIdent f = true) := by
  unfold checkWrapper
  cases manifest.kind with
  | data => simp
  | wrapper =>
      cases manifest.wrapperFn with
      | none => simp
      | some f => simp

theorem checkFiles_eq_ok {name : String} {files : List BundleFile} :
    (∃ own, checkFiles name files = .ok own) ↔ ∀ file ∈ files, OwnPath file.path := by
  constructor
  · rintro ⟨own, -⟩; exact own.down
  · intro own
    induction files with
    | nil => exact ⟨_, rfl⟩
    | cons file rest ih =>
        obtain ⟨here, later⟩ := List.forall_mem_cons.1 own
        obtain ⟨tail, checked⟩ := ih later
        rw [checkFiles, dif_neg (by simp [here.unreserved])]
        split
        · rename_i failed
          rw [normalisePath_good here.good] at failed
          cases failed
        · exact ⟨_, bind_eq_ok.2 ⟨tail, checked, rfl⟩⟩

theorem checkSchema_eq_ok {crates : Crates F} {schema : Option (Value F)} :
    checkSchema crates schema = .ok () ↔
      ∀ s, schema = some s → ∃ errors, crates.validatorFor s = .ok errors := by
  cases schema with
  | none => simp [checkSchema]
  | some s =>
      simp only [checkSchema, Option.some.injEq, forall_eq']
      cases crates.validatorFor s <;> simp

/-- What `assembleFrom` checks, and the template it makes of it. -/
structure AssembledFrom (crates : Crates F) (parts : TemplateParts) (template : Template F) :
    Prop where
  parsed : crates.manifest parts.manifestToml = .ok template.manifest
  wrapper : template.manifest.kind = .wrapper →
    ∃ f, template.manifest.wrapperFn = some f ∧ isIdent f = true
  own : ∀ file ∈ parts.files, OwnPath file.path
  hasEntrypoint : ∃ file ∈ parts.files, file.path = template.manifest.entrypoint
  schema : parseJson crates parts.schemaJson "schema.json" = .ok template.schema
  valid : ∀ s, template.schema = some s → ∃ errors, crates.validatorFor s = .ok errors
  fixture : parseJson crates parts.fixtureJson "fixture.json" = .ok template.fixture
  files : template.files = sortFiles parts.files
  fixtureBody : template.fixtureBody = parts.fixtureBody
  manifestToml : template.manifestToml = parts.manifestToml
  schemaJson : template.schemaJson = parts.schemaJson
  fixtureJson : template.fixtureJson = parts.fixtureJson

/-- **When a template is accepted, and what it is made of.** -/
theorem assembleFrom_eq_ok {crates : Crates F} {parts : TemplateParts} {template : Template F} :
    assembleFrom crates parts = .ok template ↔ AssembledFrom crates parts template := by
  unfold assembleFrom
  constructor
  · intro made
    obtain ⟨manifest, parsed, made⟩ := bind_eq_ok.1 made
    obtain ⟨⟨⟩, wrapper, made⟩ := bind_eq_ok.1 made
    obtain ⟨own, checked, made⟩ := bind_eq_ok.1 made
    simp only at made
    split_ifs at made with hasEntrypoint
    · obtain ⟨schema, parsedSchema, made⟩ := bind_eq_ok.1 made
      obtain ⟨⟨⟩, valid, made⟩ := bind_eq_ok.1 made
      obtain ⟨fixture, parsedFixture, made⟩ := bind_eq_ok.1 made
      obtain rfl := pure_eq_ok.1 made
      obtain ⟨file, inside, same⟩ := hasEntrypoint
      exact {
        parsed := mapError_eq_ok.1 parsed
        wrapper := checkWrapper_eq_ok.1 wrapper
        own := own.down
        hasEntrypoint := ⟨file, mem_sortFiles.1 inside, same⟩
        schema := parsedSchema
        valid := checkSchema_eq_ok.1 valid
        fixture := parsedFixture
        files := rfl
        fixtureBody := rfl
        manifestToml := rfl
        schemaJson := rfl
        fixtureJson := rfl }
  · intro is
    obtain ⟨own, checked⟩ := (@checkFiles_eq_ok template.manifest.name _).2 is.own
    have hasEntrypoint : ∃ file ∈ sortFiles parts.files,
        file.path = template.manifest.entrypoint := by
      obtain ⟨file, inside, same⟩ := is.hasEntrypoint
      exact ⟨file, mem_sortFiles.2 inside, same⟩
    refine bind_eq_ok.2 ⟨_, mapError_eq_ok.2 is.parsed, bind_eq_ok.2
      ⟨(), checkWrapper_eq_ok.2 is.wrapper, bind_eq_ok.2 ⟨own, checked, ?_⟩⟩⟩
    rw [dif_pos hasEntrypoint]
    refine bind_eq_ok.2 ⟨_, is.schema, bind_eq_ok.2 ⟨(), checkSchema_eq_ok.2 is.valid,
      bind_eq_ok.2 ⟨_, is.fixture, pure_eq_ok.2 ?_⟩⟩⟩
    exact Template.ext rfl is.files rfl rfl is.fixtureBody is.manifestToml is.schemaJson
      is.fixtureJson

/-! ## The files come back -/

theorem metadataOf_eq_some {path : String} {slot : Metadata} :
    metadataOf path = some slot ↔ path = slot.path := by
  unfold metadataOf
  split_ifs with manifest schema fixture body
  · subst manifest; cases slot <;> decide
  · subst schema; cases slot <;> decide
  · subst fixture; cases slot <;> decide
  · subst body; cases slot <;> decide
  · constructor
    · rintro ⟨⟩
    · rintro rfl
      cases slot <;> contradiction

namespace Slots

/-- Everything in the slots, as files. -/
def all (slots : Slots) : List BundleFile :=
  slots.files ++ metadataFile .manifest slots.manifestToml ++
    metadataFile .schema slots.schemaJson ++ metadataFile .fixture slots.fixtureJson ++
    metadataFile .body slots.fixtureBody

def get (slots : Slots) : Metadata → Option String
  | .manifest => slots.manifestToml
  | .schema => slots.schemaJson
  | .fixture => slots.fixtureJson
  | .body => slots.fixtureBody

theorem mem_all {slots : Slots} {slot : Metadata} {text : String}
    (full : slots.get slot = some text) : slot.path ∈ slots.all.map BundleFile.path := by
  cases slot <;> simp_all [get, all, metadataFile, Metadata.path]

theorem fill_all {slots : Slots} {slot : Metadata} (text : String)
    (empty : slots.get slot = none) :
    (slots.fill text slot).all.Perm (⟨slot.path, .text text⟩ :: slots.all) := by
  obtain ⟨manifest, schema, fixture, body, files⟩ := slots
  cases slot with
  | manifest =>
      obtain rfl : manifest = none := empty
      simp [all, fill, metadataFile]
  | schema =>
      obtain rfl : schema = none := empty
      have := @List.perm_middle _ (⟨Metadata.schema.path, .text text⟩ : BundleFile)
        (files ++ metadataFile .manifest manifest)
        (metadataFile .fixture fixture ++ metadataFile .body body)
      simpa [all, fill, metadataFile] using this
  | fixture =>
      obtain rfl : fixture = none := empty
      have := @List.perm_middle _ (⟨Metadata.fixture.path, .text text⟩ : BundleFile)
        (files ++ metadataFile .manifest manifest ++ metadataFile .schema schema)
        (metadataFile .body body)
      simpa [all, fill, metadataFile] using this
  | body =>
      obtain rfl : body = none := empty
      simp only [all, fill, metadataFile, List.append_nil]
      exact List.perm_append_singleton _ _

end Slots

/-- **One turn of the loop:** a file goes where no file of its path was. -/
theorem takeFile_all {slots slots' : Slots} {file : BundleFile}
    (fresh : file.path ∉ slots.all.map BundleFile.path)
    (taken : takeFile slots file = .ok slots') : slots'.all.Perm (file :: slots.all) := by
  unfold takeFile at taken
  split at taken
  · cases taken
    simp [Slots.all]
  · rename_i slot named
    obtain ⟨path, content⟩ := file
    obtain rfl : path = slot.path := metadataOf_eq_some.1 named
    split at taken
    · rename_i text is
      obtain rfl : content = .text text := is
      cases taken
      have empty : slots.get slot = none := by
        rw [Option.eq_none_iff_forall_ne_some]
        exact fun text full => fresh (Slots.mem_all full)
      exact Slots.fill_all text empty
    · cases taken

theorem takeFiles_all {files : List BundleFile} {slots slots' : Slots}
    (distinct : (files.map BundleFile.path).Nodup)
    (fresh : ∀ file ∈ files, file.path ∉ slots.all.map BundleFile.path)
    (taken : files.foldlM takeFile slots = .ok slots') :
    slots'.all.Perm (files ++ slots.all) := by
  induction files generalizing slots with
  | nil => cases taken; exact .rfl
  | cons file rest ih =>
      rw [List.foldlM_cons, bind_eq_ok] at taken
      obtain ⟨next, first, taken⟩ := taken
      obtain ⟨notIn, distinct⟩ := List.nodup_cons.1 distinct
      have here := takeFile_all (fresh file List.mem_cons_self) first
      have later : ∀ f ∈ rest, f.path ∉ next.all.map BundleFile.path := by
        intro f inside
        rw [(here.map BundleFile.path).mem_iff, List.map_cons, List.mem_cons, not_or]
        exact ⟨fun same => notIn (same ▸ List.mem_map_of_mem inside),
          fresh f (List.mem_cons_of_mem _ inside)⟩
      exact ((ih distinct later taken).trans (here.append_left rest)).trans List.perm_middle

/-- No metadata file is kept among the document's files. -/
theorem takeFiles_document {files : List BundleFile} {slots slots' : Slots}
    (before : ∀ file ∈ slots.files, metadataOf file.path = none)
    (taken : files.foldlM takeFile slots = .ok slots') :
    ∀ file ∈ slots'.files, metadataOf file.path = none := by
  induction files generalizing slots with
  | nil => cases taken; exact before
  | cons file rest ih =>
      rw [List.foldlM_cons, bind_eq_ok] at taken
      obtain ⟨next, first, taken⟩ := taken
      refine ih ?_ taken
      unfold takeFile at first
      split at first
      · rename_i document
        cases first
        exact List.forall_mem_append.2 ⟨before, by simpa using document⟩
      · split at first
        · rename_i slot _ _ text _
          cases first
          cases slot <;> exact before
        · cases first

theorem takeFiles_manifest {files : List BundleFile} {slots : Slots}
    (distinct : (files.map BundleFile.path).Nodup)
    (taken : files.foldlM takeFile {} = .ok slots)
    (given : "template.toml" ∈ files.map BundleFile.path) :
    ∃ text, slots.manifestToml = some text := by
  have all := takeFiles_all distinct (by simp [Slots.all, metadataFile]) taken
  have document := takeFiles_document (by simp) taken
  have inside : "template.toml" ∈ slots.all.map BundleFile.path := by
    rw [(all.map BundleFile.path).mem_iff]
    simpa [Slots.all, metadataFile] using given
  obtain ⟨manifest, schema, fixture, body, files⟩ := slots
  cases manifest with
  | some text => exact ⟨text, rfl⟩
  | none =>
      obtain ⟨file, inside, same⟩ := List.mem_map.1 inside
      have named : metadataOf file.path = some .manifest := by rw [same]; decide
      simp only [Slots.all, metadataFile, List.append_nil, List.mem_append] at inside
      rcases inside with ((inside | inside) | inside) | inside
      · rw [document file inside] at named; cases named
      · cases schema <;> simp_all [Metadata.path]
      · cases fixture <;> simp_all [Metadata.path]
      · cases body <;> simp_all [Metadata.path]

/-! ## An accepted template -/

/-- How a template came out of a bundle. -/
structure Taken (crates : Crates F) (bundle : Bundle) (template : Template F) : Prop where
  slots : ∃ slots, bundle.fileList.foldlM takeFile {} = .ok slots ∧
    slots.manifestToml = some template.manifestToml ∧
    slots.schemaJson = template.schemaJson ∧ slots.fixtureJson = template.fixtureJson ∧
    slots.fixtureBody = template.fixtureBody ∧
    AssembledFrom crates ⟨template.manifestToml, slots.files, template.schemaJson,
      template.fixtureJson, template.fixtureBody⟩ template

theorem fromSourceFiles_eq_ok {crates : Crates F} {files : List BundleFile} {maxBytes : Nat}
    {template : Template F} :
    fromSourceFiles crates files maxBytes = .ok template ↔
      ∃ bundle, Bundle.new "template.toml" files ∅ maxBytes = .ok bundle ∧
        Taken crates bundle template := by
  unfold fromSourceFiles
  rw [bind_eq_ok]
  refine exists_congr fun bundle => ?_
  rw [mapError_eq_ok, bind_eq_ok]
  refine and_congr_right fun made => ?_
  have given : "template.toml" ∈ bundle.fileList.map BundleFile.path := by
    rw [((Bundle.new_fileList made).map BundleFile.path).mem_iff]
    exact (Bundle.new_eq_ok.1 made).1.hasMain
  constructor
  · rintro ⟨slots, taken, assembled⟩
    have is := assembleFrom_eq_ok.1 assembled
    obtain ⟨text, full⟩ := takeFiles_manifest (Bundle.fileList_ordered bundle).distinct taken given
    have manifestToml : slots.manifestToml = some template.manifestToml := by
      rw [is.manifestToml, full]; rfl
    rw [manifestToml] at is
    refine ⟨slots, taken, manifestToml, is.schemaJson.symm, is.fixtureJson.symm,
      is.fixtureBody.symm, ?_⟩
    rw [is.schemaJson, is.fixtureJson, is.fixtureBody]
    exact is
  · rintro ⟨slots, taken, manifestToml, schemaJson, fixtureJson, fixtureBody, is⟩
    refine ⟨slots, taken, assembleFrom_eq_ok.2 ?_⟩
    rw [manifestToml, schemaJson, fixtureJson, fixtureBody]
    exact is

/-- **The accepted files come back as they were, in path order.** -/
theorem sourceFiles_eq {crates : Crates F} {bundle : Bundle} {template : Template F}
    (taken : Taken crates bundle template) : template.sourceFiles = bundle.fileList := by
  obtain ⟨slots, folded, manifestToml, schemaJson, fixtureJson, fixtureBody, is⟩ := taken
  have ordered := Bundle.fileList_ordered bundle
  have all := takeFiles_all ordered.distinct (by simp [Slots.all, metadataFile]) folded
  have same : template.sourceFiles.Perm bundle.fileList := by
    refine (sortFiles_perm _).trans (List.Perm.trans ?_ (all.trans (by
      simp [Slots.all, metadataFile])))
    rw [← manifestToml, ← schemaJson, ← fixtureJson, ← fixtureBody, is.files]
    simp only [Slots.all, List.append_assoc]
    exact (sortFiles_perm slots.files).append_right _
  have distinct : ((template.sourceFiles).map BundleFile.path).Nodup :=
    (same.map _).nodup_iff.2 ordered.distinct
  refine InPathOrder.eq_of_perm ?_ ordered same
  exact sortFiles_ordered (((sortFiles_perm _).map _).nodup_iff.1 distinct)

theorem Taken.document {crates : Crates F} {bundle : Bundle} {template : Template F}
    (taken : Taken crates bundle template) :
    ∀ file ∈ template.files, metadataOf file.path = none := by
  obtain ⟨slots, folded, -, -, -, -, is⟩ := taken
  intro file inside
  rw [is.files, mem_sortFiles] at inside
  exact takeFiles_document (by simp) folded file inside

/-- Metadata is text. -/
theorem Template.metadata_text {template : Template F}
    (document : ∀ file ∈ template.files, metadataOf file.path = none) :
    ∀ file ∈ template.sourceFiles, metadataOf file.path ≠ none →
      ∃ text, file.content = .text text := by
  have text : ∀ {slot : Metadata} {given : Option String} {file : BundleFile},
      file ∈ metadataFile slot given → ∃ text, file.content = .text text := by
    intro slot given file inside
    cases given with
    | none => cases inside
    | some text => exact ⟨text, by rw [List.mem_singleton.1 inside]⟩
  intro file inside metadata
  unfold sourceFiles at inside
  rw [mem_sortFiles] at inside
  simp only [List.mem_append] at inside
  rcases inside with (((inside | inside) | inside) | inside) | inside
  · exact absurd (document file inside) metadata
  · exact text inside
  · exact text inside
  · exact text inside
  · exact text inside

/-! ## The same sources again -/

/-- The same file, whose content may have changed class unless it is metadata. -/
structure Recoded (a b : BundleFile) : Prop where
  path : a.path = b.path
  bytes : a.content.asBytes = b.content.asBytes
  metadata : metadataOf a.path ≠ none → a.content = b.content

theorem Recoded.refl (a : BundleFile) : Recoded a a := ⟨rfl, rfl, fun _ => rfl⟩

theorem recoded_paths {files files' : List BundleFile} (same : List.Forall₂ Recoded files files') :
    files.map BundleFile.path = files'.map BundleFile.path := by
  induction same with
  | nil => rfl
  | cons first _ ih => rw [List.map_cons, List.map_cons, first.path, ih]

theorem recoded_totalBytes {files files' : List BundleFile}
    (same : List.Forall₂ Recoded files files') : totalBytes files = totalBytes files' := by
  induction same with
  | nil => rfl
  | cons first _ ih =>
      simp only [totalBytes, List.map_cons, List.sum_cons, FileContent.len_eq, first.bytes] at ih ⊢
      rw [ih]

theorem recoded_accepts {files files' : List BundleFile} {main : String} {maxBytes : Nat}
    (same : List.Forall₂ Recoded files files') (accepts : Bundle.Accepts main files maxBytes) :
    Bundle.Accepts main files' maxBytes := by
  have paths := recoded_paths same
  exact {
    count := same.length_eq ▸ accepts.count
    bytes := recoded_totalBytes same ▸ accepts.bytes
    paths := by
      intro file inside
      have : file.path ∈ files.map BundleFile.path := paths ▸ List.mem_map_of_mem inside
      obtain ⟨given, inside, same⟩ := List.mem_map.1 this
      exact same ▸ accepts.paths given inside
    distinct := paths ▸ accepts.distinct
    hasMain := paths ▸ accepts.hasMain }

theorem recoded_ordered {files files' : List BundleFile} (same : List.Forall₂ Recoded files files')
    (ordered : InPathOrder files) : InPathOrder files' := by
  have := List.pairwise_map.2 ordered
  rw [recoded_paths same] at this
  exact List.pairwise_map.1 this

/-- Slots that differ only in how the document's files are coded. -/
structure SlotsAlike (slots slots' : Slots) : Prop where
  manifestToml : slots.manifestToml = slots'.manifestToml
  schemaJson : slots.schemaJson = slots'.schemaJson
  fixtureJson : slots.fixtureJson = slots'.fixtureJson
  fixtureBody : slots.fixtureBody = slots'.fixtureBody
  files : List.Forall₂ Recoded slots.files slots'.files

theorem takeFile_recoded {a b : BundleFile} {slots slots' next : Slots} (same : Recoded a b)
    (alike : SlotsAlike slots slots') (taken : takeFile slots a = .ok next) :
    ∃ next', takeFile slots' b = .ok next' ∧ SlotsAlike next next' := by
  unfold takeFile at taken ⊢
  rw [← same.path]
  split at taken
  · cases taken
    exact ⟨_, rfl, { alike with files := List.rel_append alike.files (.cons same .nil) }⟩
  · rename_i slot named
    rw [← same.metadata (by rw [named]; exact Option.some_ne_none slot)]
    split at taken
    · rename_i text _
      cases taken
      refine ⟨_, rfl, ?_⟩
      cases slot with
      | manifest => exact { alike with manifestToml := rfl }
      | schema => exact { alike with schemaJson := rfl }
      | fixture => exact { alike with fixtureJson := rfl }
      | body => exact { alike with fixtureBody := rfl }
    · cases taken

theorem takeFiles_recoded {files files' : List BundleFile} {slots slots' last : Slots}
    (same : List.Forall₂ Recoded files files') (alike : SlotsAlike slots slots')
    (taken : files.foldlM takeFile slots = .ok last) :
    ∃ last', files'.foldlM takeFile slots' = .ok last' ∧ SlotsAlike last last' := by
  induction same generalizing slots slots' with
  | nil => cases taken; exact ⟨slots', rfl, alike⟩
  | cons first _ ih =>
      rw [List.foldlM_cons, bind_eq_ok] at taken
      obtain ⟨next, here, taken⟩ := taken
      obtain ⟨next', here', alike'⟩ := takeFile_recoded first alike here
      obtain ⟨last', taken', done⟩ := ih alike' taken
      exact ⟨last', by rw [List.foldlM_cons, bind_eq_ok]; exact ⟨next', here', taken'⟩, done⟩

theorem sortFiles_settled {files : List BundleFile} (ordered : InPathOrder files) :
    sortFiles files = files :=
  (ordered.imp fun less => Std.le_of_lt less).insertionSort_eq

/-- The same template, but for how its own files are coded. -/
structure SameSource (template template' : Template F) : Prop where
  manifest : template.manifest = template'.manifest
  schema : template.schema = template'.schema
  fixture : template.fixture = template'.fixture
  fixtureBody : template.fixtureBody = template'.fixtureBody
  manifestToml : template.manifestToml = template'.manifestToml
  schemaJson : template.schemaJson = template'.schemaJson
  fixtureJson : template.fixtureJson = template'.fixtureJson
  files : List.Forall₂ Recoded template.files template'.files

theorem AssembledFrom.recoded {crates : Crates F} {parts : TemplateParts} {template : Template F}
    {files : List BundleFile} (is : AssembledFrom crates parts template)
    (same : List.Forall₂ Recoded parts.files files) (ordered : InPathOrder parts.files) :
    ∃ template', AssembledFrom crates { parts with files } template' ∧
      SameSource template template' ∧ template'.files = files := by
  have paths := recoded_paths same
  have ofPath : ∀ file ∈ files, ∃ given ∈ parts.files, given.path = file.path := by
    intro file inside
    have : file.path ∈ parts.files.map BundleFile.path := paths ▸ List.mem_map_of_mem inside
    exact List.mem_map.1 this
  have own : ∀ file ∈ files, OwnPath file.path := by
    intro file inside
    obtain ⟨given, old, path⟩ := ofPath file inside
    exact path ▸ is.own given old
  have entrypoint : ∃ file ∈ files, file.path = template.manifest.entrypoint := by
    obtain ⟨given, inside, path⟩ := is.hasEntrypoint
    have : given.path ∈ files.map BundleFile.path := paths ▸ List.mem_map_of_mem inside
    obtain ⟨file, inside, again⟩ := List.mem_map.1 this
    exact ⟨file, inside, again.trans path⟩
  have settled : template.files = parts.files := is.files.trans (sortFiles_settled ordered)
  refine ⟨{ template with files, own, hasEntrypoint := entrypoint }, ?_, ?_, rfl⟩
  · exact { is with
      own := own
      hasEntrypoint := entrypoint
      files := (sortFiles_settled (recoded_ordered same ordered)).symm }
  · exact ⟨rfl, rfl, rfl, rfl, rfl, rfl, rfl, settled ▸ same⟩

/-- The document's files are the ones the loop leaves out of the slots. -/
theorem takeFiles_files {files : List BundleFile} {slots last : Slots}
    (taken : files.foldlM takeFile slots = .ok last) :
    last.files = slots.files ++ files.filter fun file => metadataOf file.path = none := by
  induction files generalizing slots with
  | nil => cases taken; simp
  | cons file rest ih =>
      rw [List.foldlM_cons, bind_eq_ok] at taken
      obtain ⟨next, here, taken⟩ := taken
      rw [ih taken]
      unfold takeFile at here
      split at here
      · rename_i document
        cases here
        simp [document]
      · rename_i slot named
        split at here
        · cases here
          cases slot <;> simp [named, Slots.fill]
        · cases here

theorem Taken.files {crates : Crates F} {bundle : Bundle} {template : Template F}
    (taken : Taken crates bundle template) :
    template.files = bundle.fileList.filter fun file => metadataOf file.path = none := by
  obtain ⟨slots, folded, -, -, -, -, is⟩ := taken
  have listed := takeFiles_files folded
  have ordered : InPathOrder slots.files := by
    rw [listed]
    exact (Bundle.fileList_ordered bundle).filter _
  rw [is.files, sortFiles_settled ordered, listed]
  rfl

/-- **Sources coded anew are accepted again,** as the same template but for the coding. -/
theorem fromSourceFiles_recoded {crates : Crates F} {files files' : List BundleFile}
    {maxBytes : Nat} {template : Template F}
    (accepted : fromSourceFiles crates files maxBytes = .ok template)
    (same : List.Forall₂ Recoded template.sourceFiles files') :
    ∃ template', fromSourceFiles crates files' maxBytes = .ok template' ∧
      SameSource template template' ∧ template'.sourceFiles = files' := by
  obtain ⟨bundle, made, taken⟩ := fromSourceFiles_eq_ok.1 accepted
  have sources := sourceFiles_eq taken
  rw [sources] at same
  have ordered := Bundle.fileList_ordered bundle
  have ordered' := recoded_ordered same ordered
  have accepts : Bundle.Accepts "template.toml" bundle.fileList maxBytes := by
    have before := (Bundle.new_eq_ok.1 made).1
    have perm := Bundle.new_fileList made
    exact {
      count := perm.length_eq ▸ before.count
      bytes := by
        have : totalBytes bundle.fileList = totalBytes files := (perm.map _).sum_eq
        exact this ▸ before.bytes
      paths := fun file inside => before.paths file (perm.mem_iff.1 inside)
      distinct := ordered.distinct
      hasMain := (perm.map _).mem_iff.2 before.hasMain }
  obtain ⟨bundle', made'⟩ := Bundle.new_ok (recoded_accepts same accepts)
  have listed' : bundle'.fileList = files' := Bundle.new_fileList_ordered ordered' made'
  obtain ⟨slots, folded, manifestToml, schemaJson, fixtureJson, fixtureBody, is⟩ := taken
  have document : InPathOrder slots.files := by
    rw [takeFiles_files folded]
    exact ordered.filter _
  obtain ⟨slots', folded', alike⟩ := takeFiles_recoded same ⟨rfl, rfl, rfl, rfl, .nil⟩ folded
  obtain ⟨template', is', sameSource, filesEq⟩ := is.recoded alike.files document
  have taken' : Taken crates bundle' template' := by
    refine ⟨slots', by rw [listed']; exact folded', ?_, ?_, ?_, ?_, ?_⟩
    · rw [← alike.manifestToml, manifestToml, sameSource.manifestToml]
    · rw [← alike.schemaJson, schemaJson, sameSource.schemaJson]
    · rw [← alike.fixtureJson, fixtureJson, sameSource.fixtureJson]
    · rw [← alike.fixtureBody, fixtureBody, sameSource.fixtureBody]
    · rw [← sameSource.manifestToml, ← sameSource.schemaJson, ← sameSource.fixtureJson,
        ← sameSource.fixtureBody]
      exact is'
  exact ⟨template', fromSourceFiles_eq_ok.2 ⟨bundle', made', taken'⟩, sameSource,
    (sourceFiles_eq taken').trans listed'⟩

/-! ## A draft -/

def draftToml : String :=
  "name = \"draft\"\nkind = \"wrapper\"\nentrypoint = \"draft.typ\"\nwrapper_fn = \"draft\"\n"

def draft : Manifest where
  name := "draft"
  kind := .wrapper
  entrypoint := "draft.typ"
  wrapperFn := some "draft"

def draftCrates : Crates Int := readingCrates draftToml draft

def draftFiles : List BundleFile :=
  [⟨"template.toml", .text draftToml⟩, ⟨"draft.typ", .text "#let draft(body) = body\n"⟩,
    ⟨"assets/logo.bin", .binary [0, 1, 2, 255]⟩]

end TypstMcp.Template
