/-
Template.Assemble -- a compilable bundle from a template and a caller's data

`validate` answers a schema violation with a bounded message
(`schemaMessage_bounded`).  `assemble` mounts the template's files, the generated
entrypoint, the body and the data; `assemble_eq_ok` says when that is a bundle and
which.  An upload is checked without the files generated later, so an accepted
template assembles only exactly when those still have room and `data.json` is free
(`assembles_iff`).
-/
import TypstMcp.Template.Source

namespace TypstMcp.Template

open TypstMcp.Bundle TypstMcp.Theory

set_option autoImplicit false
set_option linter.dupNamespace false

variable {F : Type}

def maxSchemaErrors : Nat := 16

def maxSchemaDiagnosticBytes : Nat := 8 * 1024

/-! ## Bounded messages -/

structure BoundedMessage where
  value : String := ""
  remaining : Nat

namespace BoundedMessage

/-- The characters that fit in `room` bytes of UTF-8. -/
def fitting : Nat → List Char → List Char
  | _, [] => []
  | room, c :: rest => if c.utf8Size ≤ room then c :: fitting (room - c.utf8Size) rest else []

/-- `write_str`, and whether it succeeded. -/
def writeStr (message : BoundedMessage) (text : String) : BoundedMessage × Bool :=
  if text.utf8ByteSize ≤ message.remaining then
    ({ value := message.value ++ text, remaining := message.remaining - text.utf8ByteSize }, true)
  else
    ({ value := message.value ++ String.ofList (fitting message.remaining text.toList)
       remaining := 0 }, false)

/-- `write!`: the pieces in turn, up to the first that does not fit. -/
def writeAll (message : BoundedMessage) : List String → BoundedMessage
  | [] => message
  | text :: rest =>
      let (next, ok) := message.writeStr text
      if ok then next.writeAll rest else next

/-- One error, under its path when it has one. -/
def writeError (message : BoundedMessage) (error : SchemaError) : BoundedMessage :=
  if error.instancePath = "" then message.writeAll [error.message]
  else message.writeAll [error.instancePath, ": ", error.message]

/-- The loop over the errors after the first. -/
def writeErrors (message : BoundedMessage) : List SchemaError → BoundedMessage
  | [] => message
  | error :: rest =>
      let (next, ok) := message.writeStr "; "
      if ok = false then next
      else
        let next := next.writeError error
        if next.remaining = 0 then next else next.writeErrors rest

/-! What is written and what remains never exceed the limit. -/

def spent (message : BoundedMessage) : Nat := message.value.utf8ByteSize + message.remaining

theorem fitting_size (room : Nat) (text : List Char) :
    (String.ofList (fitting room text)).utf8ByteSize ≤ room := by
  induction text generalizing room with
  | nil => simp [fitting]
  | cons c rest ih =>
      rw [fitting]
      split_ifs with fits
      · have := ih (room - c.utf8Size)
        rw [String.ofList_cons, String.utf8ByteSize_append, String.utf8ByteSize_singleton]
        omega
      · simp

theorem writeStr_spent (message : BoundedMessage) (text : String) :
    (message.writeStr text).1.spent ≤ message.spent := by
  unfold writeStr spent
  split_ifs with fits
  · simp only [String.utf8ByteSize_append]; omega
  · have := fitting_size message.remaining text.toList
    simp only [String.utf8ByteSize_append]; omega

theorem writeAll_spent (message : BoundedMessage) (texts : List String) :
    (message.writeAll texts).spent ≤ message.spent := by
  induction texts generalizing message with
  | nil => exact Nat.le_refl _
  | cons text rest ih =>
      have first := writeStr_spent message text
      simp only [writeAll]
      split_ifs
      · exact (ih _).trans first
      · exact first

theorem writeError_spent (message : BoundedMessage) (error : SchemaError) :
    (message.writeError error).spent ≤ message.spent := by
  unfold writeError
  split_ifs <;> exact writeAll_spent _ _

theorem writeErrors_spent (message : BoundedMessage) (errors : List SchemaError) :
    (message.writeErrors errors).spent ≤ message.spent := by
  induction errors generalizing message with
  | nil => exact Nat.le_refl _
  | cons error rest ih =>
      have separator := writeStr_spent message "; "
      have here := (writeError_spent (message.writeStr "; ").1 error).trans separator
      simp only [writeErrors]
      split_ifs
      · exact separator
      · exact here
      · exact (ih _).trans here

end BoundedMessage

/-- The text of a schema violation. -/
def schemaMessage (first : SchemaError) (rest : List SchemaError) : String :=
  let message := BoundedMessage.writeError { remaining := maxSchemaDiagnosticBytes } first
  let message :=
    if message.remaining = 0 then message
    else message.writeErrors (rest.take (maxSchemaErrors - 1))
  if maxSchemaErrors ≤ rest.length ∧ 0 < message.remaining then
    (message.writeStr "; additional validation errors omitted").1.value
  else message.value

/-- **A schema violation is reported in at most 8 KiB,** whatever the validator says. -/
theorem schemaMessage_bounded (first : SchemaError) (rest : List SchemaError) :
    (schemaMessage first rest).utf8ByteSize ≤ maxSchemaDiagnosticBytes := by
  have within : ∀ message : BoundedMessage, message.spent ≤ maxSchemaDiagnosticBytes →
      message.value.utf8ByteSize ≤ maxSchemaDiagnosticBytes := by
    intro message bound
    unfold BoundedMessage.spent at bound
    omega
  have start := BoundedMessage.writeError_spent { remaining := maxSchemaDiagnosticBytes } first
  have fresh : ({ remaining := maxSchemaDiagnosticBytes } : BoundedMessage).spent =
    maxSchemaDiagnosticBytes := by simp [BoundedMessage.spent]
  rw [fresh] at start
  have more := fun message (bound : BoundedMessage.spent message ≤ maxSchemaDiagnosticBytes) =>
    (BoundedMessage.writeErrors_spent message (rest.take (maxSchemaErrors - 1))).trans bound
  have last := fun message (bound : BoundedMessage.spent message ≤ maxSchemaDiagnosticBytes) =>
    (BoundedMessage.writeStr_spent message "; additional validation errors omitted").trans bound
  simp only [schemaMessage]
  split_ifs
  · exact within _ (last _ start)
  · exact within _ start
  · exact within _ (last _ (more _ start))
  · exact within _ (more _ start)

/-! ## Source maps -/

/-- Maps generated files back to what the caller actually wrote. -/
structure SourceMap where
  entries : BTreeMap String (String × Nat) := ∅

def SourceMap.insert (map : SourceMap) (generated display : String) (preludeLines : Nat) :
    SourceMap :=
  { entries := map.entries.insert generated (display, preludeLines) }

/-- A bundle plus the information needed to report errors in the caller's own terms. -/
structure Assembled where
  bundle : Bundle
  sourceMap : SourceMap

/-- What the body file is called when we report a diagnostic in it. -/
def bodyDisplayName : String := "body.typ"

/-- `lines().count()`: a final line break starts no line. -/
def lineCount (text : String) : Nat :=
  let lines := text.toList.splitOn '\n'
  if lines.getLast? = some [] then lines.length - 1 else lines.length

/-! ## Assembly -/

/-- Replace the first file of this path. -/
def replaceFile (replacement : BundleFile) : List BundleFile → Option (List BundleFile)
  | [] => none
  | file :: rest =>
      if file.path = replacement.path then some (replacement :: rest)
      else (replaceFile replacement rest).map (file :: ·)

namespace Template

/-- Validate `data` against the template's schema, if it has one. -/
def validate (template : Template F) (crates : Crates F) (data : Value F) :
    Except TemplateError Unit :=
  match template.schema with
  | none => .ok ()
  | some schema =>
      match crates.validatorFor schema with
      | .error e => .error (.badSchema ["schema.json"] e)
      | .ok errors =>
          match errors data with
          | [] => .ok ()
          | first :: rest => .error (.schemaViolation (schemaMessage first rest))

def checkKind (template : Template F) (body : Option String) : Except TemplateError Unit :=
  match template.manifest.kind, body with
  | .data, some _ =>
      .error (.wrongKind template.manifest.name "data"
        "it renders from `data` alone; remove `body`")
  | .wrapper, none =>
      .error (.wrongKind template.manifest.name "wrapper"
        "it needs a `body` of Typst markup to wrap")
  | _, _ => .ok ()

def overrideFile (template : Template F) (files : List BundleFile) (file : BundleFile) :
    Except TemplateError (List BundleFile) :=
  if isReserved file.path then .error (.reservedName file.path)
  else match normalisePath file.path with
    | .error source => .error (.badPath template.manifest.name file.path source)
    | .ok path =>
        match replaceFile ⟨path, file.content⟩ files with
        | none => .error (.unknownOverride path)
        | some files => .ok files

/-- The import that gives the body the template's own bindings. -/
def prelude (template : Template F) : String :=
  "#import " ++ quote template.manifest.entrypoint ++ ": *\n"

/-- The files generated besides the entrypoint. -/
def bodyFiles (template : Template F) (body : Option String) : List BundleFile :=
  match body with
  | none => []
  | some body => [⟨generatedBody, .text (template.prelude ++ body)⟩]

def sourceMap (template : Template F) (body : Option String) : SourceMap :=
  match body with
  | none => {}
  | some _ =>
      SourceMap.insert {} generatedBody bodyDisplayName (lineCount template.prelude)

/-- Everything mounted after the template's own files and the caller's: the entrypoint, the body,
and the data, so that a template can reach values the manifest does not map. -/
def generatedFiles (template : Template F) (crates : Crates F) (data : Value F)
    (body : Option String) (main : String) : List BundleFile :=
  ⟨generatedMain, .text main⟩ :: (template.bodyFiles body ++
    [⟨"data.json", .text ((crates.jsonText data).getD "\x7b\x7d")⟩])

/-- Build a bundle while replacing explicitly named template files. -/
def assembleWithOverrides (template : Template F) (crates : Crates F) (data : Value F)
    (body : Option String) (extra overrides : List BundleFile) (maxBytes : Nat) :
    Except TemplateError Assembled := do
  template.validate crates data
  template.checkKind body
  let files ← overrides.foldlM template.overrideFile template.files
  let main ← template.manifest.generateMain crates data
  let mounted := files ++ extra ++ template.generatedFiles crates data body main
  let bundle ← (Bundle.new generatedMain mounted ∅ maxBytes).mapError .bundle
  return { bundle, sourceMap := template.sourceMap body }

/-- Build a compilable bundle from caller data and, for wrapper templates, a body. -/
def assemble (template : Template F) (crates : Crates F) (data : Value F) (body : Option String)
    (extra : List BundleFile) (maxBytes : Nat) : Except TemplateError Assembled :=
  template.assembleWithOverrides crates data body extra [] maxBytes

/-! ## When assembly succeeds -/

variable {template : Template F} {crates : Crates F} {data : Value F} {body : Option String}

theorem checkKind_eq_ok :
    template.checkKind body = .ok () ↔ (body.isSome = true ↔ template.manifest.kind = .wrapper) := by
  unfold checkKind
  cases template.manifest.kind <;> cases body <;> simp

/-- **When a template assembles, and what it assembles to.** -/
theorem assemble_eq_ok {extra : List BundleFile} {maxBytes : Nat} {assembled : Assembled} :
    template.assemble crates data body extra maxBytes = .ok assembled ↔
      template.validate crates data = .ok () ∧
        (body.isSome = true ↔ template.manifest.kind = .wrapper) ∧
        ∃ main, template.manifest.generateMain crates data = .ok main ∧
          Bundle.new generatedMain
            (template.files ++ extra ++ template.generatedFiles crates data body main) ∅ maxBytes =
              .ok assembled.bundle ∧
          assembled.sourceMap = template.sourceMap body := by
  unfold assemble assembleWithOverrides
  rw [List.foldlM_nil]
  constructor
  · intro made
    obtain ⟨⟨⟩, valid, made⟩ := bind_eq_ok.1 made
    obtain ⟨⟨⟩, kind, made⟩ := bind_eq_ok.1 made
    obtain ⟨files, given, made⟩ := bind_eq_ok.1 made
    obtain rfl := pure_eq_ok.1 given
    obtain ⟨main, generated, made⟩ := bind_eq_ok.1 made
    obtain ⟨bundle, built, made⟩ := bind_eq_ok.1 made
    obtain rfl := pure_eq_ok.1 made
    exact ⟨valid, checkKind_eq_ok.1 kind, main, generated, mapError_eq_ok.1 built, rfl⟩
  · rintro ⟨valid, kind, main, generated, built, mapped⟩
    obtain ⟨bundle, sourceMap⟩ := assembled
    obtain rfl : sourceMap = template.sourceMap body := mapped
    exact bind_eq_ok.2 ⟨(), valid, bind_eq_ok.2 ⟨(), checkKind_eq_ok.2 kind,
      bind_eq_ok.2 ⟨_, rfl, bind_eq_ok.2 ⟨main, generated,
        bind_eq_ok.2 ⟨bundle, mapError_eq_ok.2 built, rfl⟩⟩⟩⟩⟩

theorem generatedFiles_paths (template : Template F) (crates : Crates F) (data : Value F)
    (body : Option String) (main : String) :
    (template.generatedFiles crates data body main).map BundleFile.path =
      generatedMain :: (body.toList.map fun _ => generatedBody) ++ ["data.json"] := by
  cases body <;> rfl

theorem unreserved_ne {path generated : String} (own : OwnPath path)
    (reserved : isReserved generated = true) : path ≠ generated := by
  rintro rfl
  rw [own.unreserved] at reserved
  cases reserved

/-- No name that is generated is a template's own, `data.json` apart. -/
theorem mounted_distinct {main : String} (distinct : (template.files.map BundleFile.path).Nodup) :
    ((template.files ++ template.generatedFiles crates data body main).map BundleFile.path).Nodup ↔
      "data.json" ∉ template.files.map BundleFile.path := by
  have others : ∀ path ∈ template.files.map BundleFile.path,
      path ≠ generatedMain ∧ path ≠ generatedBody := by
    intro path inside
    obtain ⟨file, listed, rfl⟩ := List.mem_map.1 inside
    have own := template.own file listed
    exact ⟨unreserved_ne own (by decide), unreserved_ne own (by decide)⟩
  have apart : (generatedMain :: (body.toList.map fun _ => generatedBody) ++
      ["data.json"]).Nodup := by
    cases body <;> simp [generatedMain, generatedBody]
  rw [List.map_append, generatedFiles_paths, List.nodup_append]
  constructor
  · rintro ⟨-, -, disjoint⟩ inside
    exact disjoint _ inside "data.json" (by simp) rfl
  · intro free
    refine ⟨distinct, apart, ?_⟩
    rintro path inside path' generated rfl
    cases body with
    | none =>
        rcases (by simpa using generated : path = generatedMain ∨ path = "data.json") with rfl | rfl
        · exact (others _ inside).1 rfl
        · exact free inside
    | some body =>
        rcases (by simpa using generated :
          path = generatedMain ∨ path = generatedBody ∨ path = "data.json") with rfl | rfl | rfl
        · exact (others _ inside).1 rfl
        · exact (others _ inside).2 rfl
        · exact free inside

/-- What is mounted is a bundle when it has room and its names are distinct. -/
theorem mounted_accepts {main : String} {maxBytes : Nat}
    (distinct : (template.files.map BundleFile.path).Nodup) :
    Bundle.Accepts generatedMain
        (template.files ++ [] ++ template.generatedFiles crates data body main) maxBytes ↔
      template.files.length + body.toList.length + 2 ≤ maxFiles ∧
        "data.json" ∉ template.files.map BundleFile.path ∧
        totalBytes (template.files ++ template.generatedFiles crates data body main) ≤ maxBytes := by
  have length : (template.files ++ template.generatedFiles crates data body main).length =
      template.files.length + body.toList.length + 2 := by
    have := congrArg List.length (generatedFiles_paths template crates data body main)
    simp only [List.length_map, List.length_append, List.length_cons, List.length_nil] at this
    rw [List.length_append, this]
    omega
  rw [List.append_nil, ← length, ← @mounted_distinct _ _ crates data body main distinct]
  constructor
  · intro accepts
    exact ⟨accepts.count, accepts.distinct, accepts.bytes⟩
  · rintro ⟨count, distinct, bytes⟩
    refine ⟨count, bytes, ?_, distinct, ?_⟩
    · intro file inside
      rcases List.mem_append.1 inside with inside | inside
      · exact (template.own file inside).good
      · have path := List.mem_map_of_mem (f := BundleFile.path) inside
        rw [generatedFiles_paths] at path
        cases body with
        | none =>
            rcases (by simpa using path : _ = generatedMain ∨ _ = "data.json") with same | same
            · rw [same]; decide
            · rw [same]; decide
        | some body =>
            rcases (by simpa using path :
              _ = generatedMain ∨ _ = generatedBody ∨ _ = "data.json") with same | same | same
            · rw [same]; decide
            · rw [same]; decide
            · rw [same]; decide
    · rw [List.map_append, generatedFiles_paths]
      simp

end Template

/-- The document's files of an upload are the template's own. -/
theorem fromSourceFiles_files {crates : Crates F} {files : List BundleFile} {maxBytes : Nat}
    {template : Template F} (accepted : fromSourceFiles crates files maxBytes = .ok template) :
    template.files.Perm (files.filter fun file => metadataOf file.path = none) ∧
      (template.files.map BundleFile.path).Nodup := by
  obtain ⟨bundle, made, taken⟩ := fromSourceFiles_eq_ok.1 accepted
  rw [taken.files]
  exact ⟨(Bundle.new_fileList made).filter _,
    InPathOrder.distinct ((Bundle.fileList_ordered bundle).filter _)⟩

/-- **When an accepted upload can be rendered.**  The limit on the number of files leaves room
for those generated at assembly, and the name of the mounted data is not taken. -/
theorem assembles_iff (crates : Crates F) (files : List BundleFile) (maxBytes : Nat)
    (template : Template F) (data : Value F) (body : Option String)
    (accepted : fromSourceFiles crates files maxBytes = .ok template)
    (valid : template.validate crates data = .ok ())
    (generated : ∃ main, template.manifest.generateMain crates data = .ok main)
    (kind : body.isSome = true ↔ template.manifest.kind = .wrapper) :
    (∃ enough, ∀ limit, enough ≤ limit →
        ∃ assembled, template.assemble crates data body [] limit = .ok assembled) ↔
      (files.filter fun file => metadataOf file.path = none).length + body.toList.length + 2 ≤
          maxFiles ∧
        "data.json" ∉ files.map BundleFile.path := by
  obtain ⟨perm, distinct⟩ := fromSourceFiles_files accepted
  have free : "data.json" ∉ template.files.map BundleFile.path ↔
      "data.json" ∉ files.map BundleFile.path := by
    rw [(perm.map BundleFile.path).mem_iff]
    refine not_congr ⟨?_, ?_⟩
    · intro inside
      obtain ⟨file, inside, same⟩ := List.mem_map.1 inside
      exact List.mem_map.2 ⟨file, List.mem_of_mem_filter inside, same⟩
    · intro inside
      obtain ⟨file, inside, same⟩ := List.mem_map.1 inside
      exact List.mem_map.2 ⟨file, List.mem_filter.2 ⟨inside, by rw [same]; decide⟩, same⟩
  rw [← perm.length_eq, ← free]
  constructor
  · rintro ⟨enough, assembles⟩
    obtain ⟨assembled, made⟩ := assembles enough (Nat.le_refl _)
    obtain ⟨-, -, main, -, built, -⟩ := Template.assemble_eq_ok.1 made
    obtain ⟨count, free, -⟩ := (Template.mounted_accepts distinct).1 (Bundle.new_eq_ok.1 built).1
    exact ⟨count, free⟩
  · rintro ⟨count, free⟩
    obtain ⟨main, generated⟩ := generated
    refine ⟨totalBytes (template.files ++ template.generatedFiles crates data body main), ?_⟩
    intro limit room
    obtain ⟨bundle, built⟩ := @Bundle.new_ok _ _ ∅ _
      ((Template.mounted_accepts distinct).2 ⟨count, free, room⟩)
    exact ⟨⟨bundle, template.sourceMap body⟩,
      Template.assemble_eq_ok.2 ⟨valid, kind, main, generated, built, rfl⟩⟩

/-- A wrapper template that accepts this body whatever the data. -/
structure Renders (template : Template Int) (data : Value Int) (body : Option String) : Prop where
  valid : template.validate draftCrates data = .ok ()
  generated : ∃ main, template.manifest.generateMain draftCrates data = .ok main
  kind : body.isSome = true ↔ template.manifest.kind = .wrapper

/-- An upload that evaluates to a template which renders. -/
theorem renders_of_any {files : List BundleFile} {data : Value Int} {body : Option String}
    (evaluated : ((fromSourceFiles draftCrates files 1024).toOption.any fun template =>
      template.schema.isNone && (template.manifest.generateMain draftCrates data).isOk &&
        (template.checkKind body).isOk) = true) :
    ∃ template, fromSourceFiles draftCrates files 1024 = .ok template ∧
      Renders template data body := by
  cases accepted : fromSourceFiles draftCrates files 1024 with
  | error e => rw [accepted] at evaluated; cases evaluated
  | ok template =>
      rw [accepted] at evaluated
      obtain ⟨⟨schema, generated⟩, kind⟩ : (template.schema.isNone = true ∧
          (template.manifest.generateMain draftCrates data).isOk = true) ∧
          (template.checkKind body).isOk = true := by
        simpa only [Except.toOption, Option.any_some, Bool.and_eq_true] using evaluated
      obtain ⟨⟨⟩, kind⟩ := ok_of_isOk kind
      refine ⟨template, rfl, ⟨?_, ok_of_isOk generated, Template.checkKind_eq_ok.1 kind⟩⟩
      rw [Template.validate, Option.isNone_iff_eq_none.1 schema]

theorem assembles_iff_draft :
    ∃ template, fromSourceFiles draftCrates draftFiles 1024 = .ok template ∧
      ((∃ enough, ∀ limit, enough ≤ limit →
          ∃ assembled, template.assemble draftCrates .null (some "= Hello") [] limit =
            .ok assembled) ↔
        (draftFiles.filter fun file => metadataOf file.path = none).length + 1 + 2 ≤ maxFiles ∧
          "data.json" ∉ draftFiles.map BundleFile.path) := by
  obtain ⟨template, accepted, renders⟩ := @renders_of_any draftFiles .null (some "= Hello")
    (by decide +kernel)
  exact ⟨template, accepted, assembles_iff draftCrates draftFiles 1024 template .null
    (some "= Hello") accepted renders.valid renders.generated renders.kind⟩

/-- The draft, with a file where the data is mounted. -/
def shadowingFiles : List BundleFile := draftFiles ++ [⟨"data.json", .text "[]"⟩]

/-- An upload with a file of its own at `data.json` is accepted and never renders. -/
theorem own_data_never_renders :
    ¬ ∀ (files : List BundleFile) (maxBytes : Nat) (template : Template Int) (data : Value Int)
        (body : Option String),
      fromSourceFiles draftCrates files maxBytes = .ok template →
      template.validate draftCrates data = .ok () →
      (∃ main, template.manifest.generateMain draftCrates data = .ok main) →
      (body.isSome = true ↔ template.manifest.kind = .wrapper) →
      ∃ enough, ∀ limit, enough ≤ limit →
        ∃ assembled, template.assemble draftCrates data body [] limit = .ok assembled := by
  intro claimed
  obtain ⟨template, accepted, renders⟩ := @renders_of_any shadowingFiles .null (some "= Hello")
    (by decide +kernel)
  obtain ⟨enough, assembles⟩ := claimed shadowingFiles 1024 template .null (some "= Hello") accepted
    renders.valid renders.generated renders.kind
  obtain ⟨assembled, made⟩ := assembles enough (Nat.le_refl _)
  obtain ⟨-, -, main, -, built, -⟩ := Template.assemble_eq_ok.1 made
  obtain ⟨perm, distinct⟩ := fromSourceFiles_files accepted
  obtain ⟨-, free, -⟩ := (Template.mounted_accepts distinct).1 (Bundle.new_eq_ok.1 built).1
  refine free ((perm.map BundleFile.path).mem_iff.2 ?_)
  decide

end TypstMcp.Template
