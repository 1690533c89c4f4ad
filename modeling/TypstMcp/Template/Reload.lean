/-
Template.Reload -- an uploaded template, assembled again from the store

An upload is assembled as its files were classed by the caller's door; later
renders assemble the template that `fromArchive` reads back, its files classed by
extension and content.  The two bundles are the same exactly when the door classed
every file as the decoder does (`reload_same_iff`).
-/
import TypstMcp.Template.Archive
import TypstMcp.Template.Assemble

namespace TypstMcp.Template

open TypstMcp.Bundle TypstMcp.Theory TypstMcp.Theory.Json

set_option autoImplicit false
set_option linter.dupNamespace false

variable {F : Type}

/-! ## What the compiler sees -/

/-- The files of a bundle as `BundleWorld::new` hands them to the compiler. -/
structure BundleWorld where
  main : String
  sources : BTreeMap String String
  files : BTreeMap String Bytes

/-- Only text is parsed, and only under this extension. -/
def typstSource (path : String) : FileContent → Option String
  | .text text => if ".typ".toList.isSuffixOf path.toList then some text else none
  | .binary _ => none

def BundleWorld.new (bundle : Bundle) : BundleWorld where
  main := bundle.main
  sources := bundle.files.filterMap typstSource
  files := bundle.files.map fun _ content => content.asBytes

/-! ## The reloaded template -/

/-- A template's own files are its sources but for the metadata. -/
theorem fromSourceFiles_own {crates : Crates F} {files : List BundleFile} {maxBytes : Nat}
    {template : Template F} (accepted : fromSourceFiles crates files maxBytes = .ok template) :
    template.files = template.sourceFiles.filter fun file => metadataOf file.path = none := by
  obtain ⟨bundle, -, taken⟩ := fromSourceFiles_eq_ok.1 accepted
  rw [taken.files, sourceFiles_eq taken]

theorem fromArchive_accepted {crates : Crates F} {tar : TarCrate} {archive : Bytes} {maxBytes : Nat}
    {template : Template F} (read : fromArchive crates tar archive maxBytes = .ok template) :
    ∃ files, fromSourceFiles crates files maxBytes = .ok template := by
  unfold fromArchive at read
  obtain ⟨_, -, read⟩ := bind_eq_ok.1 read
  obtain ⟨progress, -, read⟩ := bind_eq_ok.1 read
  exact ⟨progress.files, read⟩

/-- The decoder's coding of one file. -/
def reclassed (file : BundleFile) : BundleFile := recode (member file)

@[simp] theorem reclassed_path (file : BundleFile) : (reclassed file).path = file.path := rfl

theorem reclassed_eq {file : BundleFile} :
    reclassed file = file ↔ file.content = classify file.path file.content.asBytes := by
  obtain ⟨path, content⟩ := file
  simp [reclassed, recode, member, eq_comm]

/-- The reloaded template, file by file. -/
theorem reloaded_files {crates : Crates F} {tar : TarCrate} {archive : Bytes} {maxBytes : Nat}
    {files : List BundleFile} {template reloaded : Template F}
    (accepted : fromSourceFiles crates files maxBytes = .ok template)
    (read : fromArchive crates tar archive maxBytes = .ok reloaded)
    (sources : reloaded.sourceFiles = template.sourceFiles.map reclassed) :
    reloaded.files = template.files.map reclassed := by
  obtain ⟨_, again⟩ := fromArchive_accepted read
  rw [fromSourceFiles_own accepted, fromSourceFiles_own again, sources, List.filter_map]
  rfl

/-- A template's own file is in every bundle it assembles to. -/
theorem assemble_content {template : Template F} {crates : Crates F} {data : Value F}
    {body : Option String} {extra : List BundleFile} {maxBytes : Nat} {assembled : Assembled}
    (made : template.assemble crates data body extra maxBytes = .ok assembled) {file : BundleFile}
    (own : file ∈ template.files) :
    assembled.bundle.files[file.path]? = some file.content := by
  obtain ⟨-, -, main, -, built, -⟩ := Template.assemble_eq_ok.1 made
  obtain ⟨accepts, -, -, mapped⟩ := Bundle.new_eq_ok.1 built
  rw [mapped]
  refine (getElem?_fileMap accepts.distinct).2 ?_
  exact List.mem_append_left _ (List.mem_append_left _ own)

theorem SameSource.eq {template template' : Template F} (same : SameSource template template')
    (files : template'.files = template.files) : template' = template :=
  Template.ext same.manifest.symm files same.schema.symm same.fixture.symm same.fixtureBody.symm
    same.manifestToml.symm same.schemaJson.symm same.fixtureJson.symm

/-- **When what was validated is what is rendered.**  The bundle assembled from the stored archive
is the one assembled at upload exactly when every document file was classed at upload as the
decoder classes it. -/
theorem reload_same_iff (crates : Crates F) (tar : TarCrate) (files : List BundleFile)
    (maxBytes : Nat) (template : Template F) (data : Value F) (body : Option String)
    (extra : List BundleFile) (limit : Nat) (assembled : Assembled) (faithful : tar.Faithful)
    (fits : maxBytes + 1 < usizeSize)
    (accepted : fromSourceFiles crates files maxBytes = .ok template)
    (vec : ∀ archive, template.toArchive tar = .ok archive → archive.length < usizeSize)
    (made : template.assemble crates data body extra limit = .ok assembled) :
    (∃ archive reloaded again, template.toArchive tar = .ok archive ∧
        fromArchive crates tar archive maxBytes = .ok reloaded ∧
        reloaded.assemble crates data body extra limit = .ok again ∧
        again.bundle = assembled.bundle ∧
        BundleWorld.new again.bundle = BundleWorld.new assembled.bundle) ↔
      ∀ file ∈ files, metadataOf file.path = none →
        file.content = classify file.path file.content.asBytes := by
  obtain ⟨archive, written, reloaded, read, same, sources⟩ :=
    fromArchive_toArchive faithful fits accepted vec
  have reclass := reloaded_files accepted read sources
  have document : ∀ file, file ∈ template.files ↔ file ∈ files ∧ metadataOf file.path = none := by
    intro file
    rw [(fromSourceFiles_files accepted).1.mem_iff, List.mem_filter, decide_eq_true_eq]
  constructor
  · rintro ⟨archive', reloaded', again, written', read', remade, bundle, -⟩ file inside named
    obtain rfl : archive = archive' := Except.ok.inj (written.symm.trans written')
    obtain rfl : reloaded = reloaded' := Except.ok.inj (read.symm.trans read')
    have own : file ∈ template.files := (document file).2 ⟨inside, named⟩
    have uploaded := assemble_content made own
    have later := @assemble_content _ _ _ _ _ _ _ _ remade (reclassed file)
      (reclass ▸ List.mem_map_of_mem own)
    rw [bundle, reclassed_path, uploaded] at later
    exact Option.some.inj later
  · intro classed
    have kept : reloaded.files = template.files := by
      rw [reclass]
      refine (List.map_congr_left fun file own => ?_).trans (List.map_id template.files)
      obtain ⟨inside, named⟩ := (document file).1 own
      exact reclassed_eq.2 (classed file inside named)
    obtain rfl := same.eq kept
    exact ⟨archive, reloaded, assembled, written, read, made, rfl, rfl⟩

theorem reload_same_iff_draft :
    ∃ template, fromSourceFiles draftCrates draftFiles 1024 = .ok template ∧
      ∃ assembled, template.assemble draftCrates .null (some "= Hello") [] 1024 = .ok assembled ∧
        ((∃ archive reloaded again, template.toArchive gnuTar = .ok archive ∧
            fromArchive draftCrates gnuTar archive 1024 = .ok reloaded ∧
            reloaded.assemble draftCrates .null (some "= Hello") [] 1024 = .ok again ∧
            again.bundle = assembled.bundle ∧
            BundleWorld.new again.bundle = BundleWorld.new assembled.bundle) ↔
          ∀ file ∈ draftFiles, metadataOf file.path = none →
            file.content = classify file.path file.content.asBytes) := by
  have evaluated : ((fromSourceFiles draftCrates draftFiles 1024).toOption.any fun template =>
      (template.assemble draftCrates .null (some "= Hello") [] 1024).isOk &&
        (template.toArchive gnuTar).toOption.all (·.length < usizeSize)) = true := by
    decide +kernel
  cases accepted : fromSourceFiles draftCrates draftFiles 1024 with
  | error e => rw [accepted] at evaluated; cases evaluated
  | ok template =>
      rw [accepted] at evaluated
      obtain ⟨made, small⟩ := (Bool.and_eq_true _ _).mp evaluated
      obtain ⟨assembled, made⟩ := ok_of_isOk made
      refine ⟨template, rfl, assembled, made, reload_same_iff draftCrates gnuTar draftFiles 1024
        template .null (some "= Hello") [] 1024 assembled gnuTar_faithful (by decide) accepted
        (fun archive written => ?_) made⟩
      rw [written] at small
      exact of_decide_eq_true small

/-- The draft, with Typst source uploaded as a binary asset. -/
def assetFiles : List BundleFile := draftFiles ++ [⟨"part.typ", .binary (utf8 "= Part")⟩]

/-- The source `part.typ`, as the upload's own bundle has it and as the stored template's has. -/
def partSources : Option (Option String × Option String) := do
  let template ← (fromSourceFiles draftCrates assetFiles 1024).toOption
  let archive ← (template.toArchive gnuTar).toOption
  let reloaded ← (fromArchive draftCrates gnuTar archive 1024).toOption
  let assembled ← (template.assemble draftCrates .null (some "= Hello") [] 1024).toOption
  let again ← (reloaded.assemble draftCrates .null (some "= Hello") [] 1024).toOption
  return ((BundleWorld.new assembled.bundle).sources["part.typ"]?,
    (BundleWorld.new again.bundle).sources["part.typ"]?)

/-- Source uploaded as a binary asset is no source at upload and one ever after. -/
theorem asset_becomes_source :
    ¬ ∀ (files : List BundleFile) (template : Template Int) (data : Value Int)
        (body : Option String) (assembled : Assembled),
      fromSourceFiles draftCrates files 1024 = .ok template →
      template.assemble draftCrates data body [] 1024 = .ok assembled →
      ∃ archive reloaded again, template.toArchive gnuTar = .ok archive ∧
        fromArchive draftCrates gnuTar archive 1024 = .ok reloaded ∧
        reloaded.assemble draftCrates data body [] 1024 = .ok again ∧
        again.bundle = assembled.bundle ∧
        BundleWorld.new again.bundle = BundleWorld.new assembled.bundle := by
  intro claimed
  have differ : partSources = some (none, some "= Part") := by decide +kernel
  unfold partSources at differ
  cases accepted : fromSourceFiles draftCrates assetFiles 1024 with
  | error e => rw [accepted] at differ; cases differ
  | ok template =>
      rw [accepted] at differ
      cases made : template.assemble draftCrates .null (some "= Hello") [] 1024 with
      | error e =>
          simp only [made, Except.toOption, Option.bind_eq_bind, Option.bind_none,
            Option.bind_some, Option.bind_fun_none] at differ
          cases differ
      | ok assembled =>
          obtain ⟨archive, reloaded, again, written, read, remade, -, worlds⟩ :=
            claimed assetFiles template .null (some "= Hello") assembled accepted made
          simp only [made, written, read, remade, worlds, Except.toOption, Option.bind_eq_bind,
            Option.bind_some] at differ
          obtain ⟨before, after⟩ := Prod.mk.inj (Option.some.inj differ)
          rw [before] at after
          cases after

end TypstMcp.Template
