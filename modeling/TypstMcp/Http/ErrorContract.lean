/-
Http.ErrorContract -- what the public is told of a failed render

`ApiError` with the two fields only a render fills in: the diagnostics of a compile, and
the templates there would have been.  The names of the latter reach the envelope through
a joined text, which is cut again twice.

* `internal_told`, `told_status`: an internal failure is told as such and as nothing else.
* `unknownTemplate_available`: what is left of the names, whatever they are.
* `unknown_template_lists`: which names an unknown template is answered with.
-/
import TypstMcp.Http.ApiError
import TypstMcp.Render.Catalog
import TypstMcp.Theory.Separator

namespace TypstMcp.Http

open TypstMcp.Theory
open TypstMcp.Auth (TenantId)
open TypstMcp.Bundle (PathError BundleError maxPathBytes maxFiles)
open TypstMcp.Store (Solo Choice Alone History Kind Sane Entry Op World Listed listed_valid
  validateId_ok_iff history_sane clock solo alone_solo alone_mono someTenant serde)
open TypstMcp.Template (TemplateError TemplateSet ValueError Template fromSourceFiles draftCrates
  draftFiles)
open TypstMcp.Render (Diagnostic Failure RenderService template_unknown printing
  roomyLimits storedArchive metaOf)

set_option autoImplicit false

/-! ## Texts -/

/-- How the standard library prints what stands in an error. -/
structure Texts where
  /-- `{:?}` of a string. -/
  debug : String → String
  /-- `{:?}` of a character. -/
  debugChar : Char → String
  /-- A path displayed. -/
  path : Theory.Path → String

namespace Texts

variable (texts : Texts)

def pathError : PathError → String
  | .empty => "path is empty"
  | .tooLong => "path is longer than " ++ toString maxPathBytes ++ " bytes"
  | .absolute => "path is absolute; bundle paths are relative to the bundle root"
  | .traversal => "path contains a `..` segment; traversal is rejected, not resolved"
  | .dotSegment => "path contains a `.` segment; write the path without it"
  | .emptySegment => "path contains an empty segment"
  | .badChar ch => "path contains " ++ texts.debugChar ch ++ ", which is not allowed in a bundle path"
  | .paddedSegment segment =>
      "path segment " ++ texts.debug segment ++ " starts or ends with a space, or ends with a dot"

def bundleError : BundleError → String
  | .path path source => "file " ++ texts.debug path ++ ": " ++ texts.pathError source
  | .tooManyFiles count =>
      "bundle has " ++ toString count ++ " files; the limit is " ++ toString maxFiles
  | .tooLarge actual limit =>
      "bundle is " ++ toString actual ++ " bytes; the limit is " ++ toString limit
  | .duplicate path => "duplicate path " ++ texts.debug path
  | .missingMain main => "entrypoint " ++ texts.debug main ++ " is not in the bundle"

def valueError : ValueError → String
  | .nonFinite text => text ++ " is not a finite number; Typst has no literal for it"
  | .badIdent name => texts.debug name ++ " is not a valid Typst identifier"
  | .badKey key => texts.debug key ++ " is not a valid dictionary key"
  | .badDate year month day =>
      "date " ++ toString year ++ "-" ++ toString month ++ "-" ++ toString day ++ " is out of range"

end Texts

/-! ## The envelope -/

/-- The JSON object returned by HTTP and inside an MCP tool-error block. -/
structure PublicEnvelope extends ErrorEnvelope where
  diagnostics : List Diagnostic := []
  available : List String := []
  deriving DecidableEq

/-- A failed render as the public is told of it. -/
structure PublicError where
  status : Nat
  envelope : PublicEnvelope
  deriving DecidableEq

namespace PublicError

variable (texts : Texts)

def plain (error : ApiError) : PublicError := ⟨error.status, { error.envelope with }⟩

def new (status : Nat) (error : ErrorCode) (message : String) : PublicError :=
  plain (ApiError.new status error message)

def badRequest (message : String) : PublicError := new 400 .badRequest message

def invalidPath (message : String) : PublicError := new 400 .invalidPath message

/-- `text.split(", ")`. -/
def splitNames (text : String) : List String :=
  (Separator.split ", ".toList text.toList).map String.ofList

/-- The names as the message has them. -/
def joinNames (available : List String) : String :=
  if available = [] then "none" else ", ".intercalate available

def unknownTemplate (name : String) (available : List String) : PublicError :=
  let available := joinNames available
  let error := new 404 .unknownTemplate
    ("no template named " ++ texts.debug name ++ "; available: " ++ available)
  { error with envelope.available := (splitNames available).filter (· ≠ "none") }

def internal : PublicError := plain ApiError.internal

def ofBundle (error : BundleError) : PublicError :=
  match error with
  | .tooManyFiles _ | .tooLarge _ _ => new 413 .payloadTooLarge (texts.bundleError error)
  | _ => new 422 .invalidBundle (texts.bundleError error)

/-- The template itself is at fault. -/
def invalidBundle (message : String) : PublicError := new 422 .invalidBundle message

/-- What it was given is. -/
def invalidData (message : String) : PublicError := new 422 .invalidData message

def ofTemplate : TemplateError → PublicError
  | .bundle source => ofBundle texts source
  | .schemaViolation message =>
      invalidData ("data does not match the template's schema: " ++ message)
  | .badArg field message => invalidData ("field " ++ texts.debug field ++ ": " ++ message)
  | .wrongKind name kind message =>
      invalidData ("template " ++ texts.debug name ++ " is a " ++ kind ++ " template: " ++ message)
  | .value source => invalidData (texts.valueError source)
  | .badManifest path source =>
      invalidBundle ("template.toml in " ++ texts.path path ++ " is invalid: " ++ source)
  | .missingEntrypoint name entrypoint =>
      invalidBundle ("template " ++ texts.debug name ++ " declares entrypoint " ++
        texts.debug entrypoint ++ ", which is not present")
  | .noWrapperFn name =>
      invalidBundle ("template " ++ texts.debug name ++
        " is a wrapper but does not declare wrapper_fn")
  | .badWrapperFn name value =>
      invalidBundle ("template " ++ texts.debug name ++ " declares wrapper_fn " ++
        texts.debug value ++ ", which is not a valid identifier")
  | .reservedName path =>
      invalidBundle ("template file " ++ texts.debug path ++ " uses the reserved `__` prefix")
  | .unknownOverride path =>
      invalidBundle ("template has no file " ++ texts.debug path ++ " to override")
  | .nonTextMetadata path =>
      invalidBundle ("template metadata file " ++ texts.debug path ++ " must be UTF-8 text")
  | .nonFileMember path =>
      invalidBundle ("template archive member " ++ texts.debug path ++ " is not a regular file")
  | .badArchive message => invalidBundle ("template archive is invalid: " ++ message)
  | .badPath name path source =>
      invalidBundle ("template " ++ texts.debug name ++ " has an invalid file path " ++
        texts.debug path ++ ": " ++ texts.pathError source)
  | .badSchema path message =>
      invalidBundle ("schema.json in " ++ texts.path path ++ " is not valid JSON Schema: " ++ message)
  | .noManifest dir =>
      invalidBundle ("template directory " ++ texts.path dir ++ " has no template.toml")
  | .io _ _ => internal

/-- `Duration::as_secs` of nanoseconds. -/
def asSecs (duration : Nat) : Nat := duration / 1000000000

def ofRender : Failure → PublicError
  | .unknownTemplate name available =>
      unknownTemplate texts name ((splitNames available).filter (· ≠ ""))
  | .ambiguous => badRequest "specify either `template` or `source`/`files`, not both"
  | .empty => badRequest "nothing to render: provide `template`, `source`, or `files`"
  | .overridesWithoutTemplate =>
      badRequest "`overrides` can only be used with a named template"
  | .duplicateAsset id => invalidBundle ("duplicate asset id " ++ texts.debug id)
  | .template source => ofTemplate texts source
  | .nameMismatch requested manifest =>
      invalidBundle ("uploaded template name " ++ texts.debug requested ++
        " does not match manifest name " ++ texts.debug manifest)
  | .bundle source => ofBundle texts source
  | .store source => plain (ApiError.ofStore texts.debug source)
  | .compiled (.compile message diagnostics) =>
      let error := new 422 .compileFailed message
      { error with envelope.diagnostics := diagnostics }
  | .spawn (.timeout after) =>
      new 504 .timeout ("compile exceeded its " ++ toString (asSecs after) ++
        "s deadline and was killed; the document may contain an unbounded or excessively " ++
        "expensive computation")
  | .spawn .overloaded => new 503 .overloaded "too many compiles are in flight; retry shortly"
  | .spawn (.died _ _) | .spawn (.io _) => internal
  | .compiled (.workspace _) | .compiled (.protocol _) => internal

end PublicError

/-! ## What is told of the inside -/

/-- The status that goes with a code. -/
def ErrorCode.status : ErrorCode → Nat
  | .badRequest | .invalidPath => 400
  | .unauthorized => 401
  | .forbidden => 403
  | .unknownTemplate | .notFound => 404
  | .expired => 410
  | .payloadTooLarge => 413
  | .invalidBundle | .invalidData | .compileFailed => 422
  | .internal => 500
  | .providerUnavailable | .overloaded => 503
  | .timeout => 504
  | .quotaExceeded => 507

/-- The server is at fault, and its own files and processes are in the error. -/
def Internal : Failure → Prop
  | .store (.io _ _) | .template (.io _ _) | .spawn (.died _ _) | .spawn (.io _)
  | .compiled (.workspace _) | .compiled (.protocol _) => True
  | _ => False

section Told

variable (texts : Texts)

theorem ofBundle_told (error : BundleError) :
    (PublicError.ofBundle texts error).status = (PublicError.ofBundle texts error).envelope.error.status ∧
      (PublicError.ofBundle texts error).envelope.error ≠ .internal := by
  cases error <;> exact ⟨rfl, by simp [PublicError.ofBundle, PublicError.new, PublicError.plain,
    ApiError.new]⟩

/-- The code decides the status. -/
theorem told_status (failure : Failure) :
    (PublicError.ofRender texts failure).status =
      (PublicError.ofRender texts failure).envelope.error.status := by
  cases failure with
  | template source =>
      cases source with
      | bundle source => exact (ofBundle_told texts source).1
      | _ => rfl
  | bundle source => exact (ofBundle_told texts source).1
  | store source | spawn source | compiled source => cases source <;> rfl
  | _ => rfl

/-- **An internal failure is told as one, and nothing else of it is.** -/
theorem internal_told (failure : Failure) :
    (Internal failure → PublicError.ofRender texts failure = PublicError.internal) ∧
      ((PublicError.ofRender texts failure).envelope.error = .internal → Internal failure) := by
  cases failure with
  | template source =>
      cases source with
      | bundle source => exact ⟨False.elim, fun told => (ofBundle_told texts source).2 told⟩
      | io path source => exact ⟨fun _ => rfl, fun _ => trivial⟩
      | _ => exact ⟨False.elim, fun told => by cases told⟩
  | bundle source => exact ⟨False.elim, fun told => (ofBundle_told texts source).2 told⟩
  | store source =>
      cases source with
      | io path source => exact ⟨fun _ => rfl, fun _ => trivial⟩
      | _ => exact ⟨False.elim, fun told => by cases told⟩
  | spawn source =>
      cases source with
      | died exit stderr => exact ⟨fun _ => rfl, fun _ => trivial⟩
      | io error => exact ⟨fun _ => rfl, fun _ => trivial⟩
      | _ => exact ⟨False.elim, fun told => by cases told⟩
  | compiled source =>
      cases source with
      | compile message diagnostics => exact ⟨False.elim, fun told => by cases told⟩
      | _ => exact ⟨fun _ => rfl, fun _ => trivial⟩
  | _ => exact ⟨False.elim, fun told => by cases told⟩

end Told

/-! ## Names in one text -/

section Names

variable (texts : Texts) {names : List String} {name text : String}

/-- The name has no separator in it, and is not one of the two texts that stand for no name. -/
structure Listable (name : String) : Prop where
  whole : ¬ ", ".toList <:+: name.toList
  nonempty : name ≠ ""
  named : name ≠ "none"

theorem comma_borderless : Separator.Borderless ", ".toList := ⟨by decide, by decide⟩

open PublicError

theorem splitNames_intercalate (some : names ≠ []) :
    splitNames (", ".intercalate names) = names.flatMap splitNames := by
  unfold splitNames
  rw [String.toList_intercalate, Separator.split_intercalate comma_borderless (by simpa using some),
    List.flatMap_map, List.map_flatMap]

theorem splitNames_whole (whole : ¬ ", ".toList <:+: name.toList) : splitNames name = [name] := by
  unfold splitNames
  rw [(Separator.split_eq_singleton comma_borderless.nonempty).2 whole, List.map_singleton,
    String.ofList_toList]

theorem whole_of_mem_splitNames (inside : name ∈ splitNames text) : ¬ ", ".toList <:+: name.toList := by
  obtain ⟨piece, cut, rfl⟩ := List.mem_map.1 inside
  have same : (String.ofList piece).toList = piece := String.toList_ofList
  rw [same]
  exact Separator.not_infix_of_mem_split comma_borderless.nonempty cut

theorem flatMap_splitNames (whole : ∀ name ∈ names, ¬ ", ".toList <:+: name.toList) :
    names.flatMap splitNames = names := by
  rw [List.flatMap_congr fun name inside => splitNames_whole (whole name inside)]
  exact List.flatMap_singleton' names

/-- The envelope's names are the ones it was given, unless one is called `none`. -/
theorem unknownTemplate_given (name : String) (names : List String)
    (whole : ∀ name ∈ names, ¬ ", ".toList <:+: name.toList) :
    (unknownTemplate texts name names).envelope.available = names.filter (· ≠ "none") := by
  show (splitNames (joinNames names)).filter _ = _
  by_cases empty : names = []
  · subst empty
    decide
  · rw [joinNames, if_neg empty, splitNames_intercalate empty, flatMap_splitNames whole]

/-- **What is left of the names**: their pieces, less the two texts that stand for none. -/
theorem unknownTemplate_available (name : String) (names : List String) :
    (ofRender texts (.unknownTemplate name (", ".intercalate names))).envelope.available =
      (names.flatMap splitNames).filter fun piece => piece ≠ "" ∧ piece ≠ "none" := by
  have told := unknownTemplate_given texts name
    ((splitNames (", ".intercalate names)).filter (· ≠ ""))
    fun piece inside => whole_of_mem_splitNames (List.mem_filter.1 inside).1
  refine told.trans ?_
  by_cases empty : names = []
  · subst empty
    decide
  · rw [splitNames_intercalate empty, List.filter_filter]
    exact List.filter_congr fun piece _ => by simp [Bool.and_comm]

theorem pieces_listable (listable : ∀ name ∈ names, Listable name) :
    ((names.flatMap splitNames).filter fun piece => piece ≠ "" ∧ piece ≠ "none") = names := by
  rw [flatMap_splitNames fun name inside => (listable name inside).whole, List.filter_eq_self]
  exact fun name inside => decide_eq_true ⟨(listable name inside).nonempty, (listable name inside).named⟩

/-- The names come through if and only if each of them can stand in a list. -/
theorem pieces_eq_iff :
    ((names.flatMap splitNames).filter fun piece => piece ≠ "" ∧ piece ≠ "none") = names ↔
      ∀ name ∈ names, Listable name := by
  refine ⟨fun same name inside => ?_, pieces_listable⟩
  rw [← same, List.mem_filter] at inside
  obtain ⟨cut, apart⟩ := inside
  obtain ⟨text, -, piece⟩ := List.mem_flatMap.1 cut
  obtain ⟨nonempty, named⟩ := of_decide_eq_true apart
  exact ⟨whole_of_mem_splitNames piece, nonempty, named⟩

/-- An id the store hands out can stand in a list. -/
theorem id_listable {kind : Store.Kind} {id : String}
    (valid : Store.validateId kind id = .ok id) : Listable id := by
  obtain ⟨body, rfl, long, alphanum⟩ := validateId_ok_iff.1 valid
  have spelled : (kind.idPrefix ++ String.ofList body).toList = kind.idPrefix.toList ++ body := by
    rw [String.toList_append, String.toList_ofList]
  have prefixed : ',' ∉ kind.idPrefix.toList ∧ kind.idPrefix.toList.length = 4 := by
    cases kind <;> decide
  have size : (kind.idPrefix ++ String.ofList body).toList.length = 30 := by
    rw [spelled, List.length_append, prefixed.2, long]
  refine ⟨fun infix_ => ?_, ?_, ?_⟩
  · rw [spelled] at infix_
    rcases List.mem_append.1 (infix_.subset (List.mem_cons_self : ',' ∈ ", ".toList)) with front | back
    · exact prefixed.1 front
    · exact absurd (alphanum ',' back) (by decide)
  · intro same
    rw [same] at size
    exact absurd size (by decide)
  · intro same
    rw [same] at size
    exact absurd size (by decide)

end Names

/-! ## An unknown template -/

section Unknown

variable {F : Type} {service : RenderService F} {allowed : Choice → Prop} {tenant : TenantId}
variable {w w' : Solo} {reference name available : String}

/-- **An unknown template is answered with the templates there are.**  In every reachable state, the
answer to a reference that names nothing lists the pieces of the names of the service's own
templates and then the ids of the caller's live uploads, newest first: exactly the names a caller
can use if and only if no template of the service's own has `, ` in its name, an empty name or the
name `none`. -/
theorem unknown_template_lists (texts : Texts)
    (past : History service.limits service.codec (fun w op => op.Fits w.index) w)
    (ran : Alone allowed () (service.template tenant reference) w
      (.error (.unknownTemplate name available)) w') :
    (PublicError.ofRender texts (.unknownTemplate name available)).status = 404 ∧
    ∃ reading, allowed reading ∧ ∃ entries, Listed w tenant .template reading.now entries ∧
      (PublicError.ofRender texts (.unknownTemplate name available)).envelope.available =
        ((service.templates.keys.flatMap PublicError.splitNames).filter
          fun piece => piece ≠ "" ∧ piece ≠ "none") ++ entries.map (·.id) ∧
      ((PublicError.ofRender texts (.unknownTemplate name available)).envelope.available =
          service.templates.keys ++ entries.map (·.id) ↔
        ∀ own ∈ service.templates.keys, Listable own) := by
  have sane : Sane service.limits service.codec False w :=
    history_sane (fun _ _ fits => ⟨fun no => no.elim, fits⟩) past
  obtain ⟨-, -, -, reading, may, entries, listed, rfl⟩ := template_unknown sane ran
  have ids : ∀ id ∈ entries.map (·.id), Listable id := by
    intro id inside
    obtain ⟨entry, there, rfl⟩ := List.mem_map.1 inside
    exact id_listable (listed_valid sane ((listed.mem entry).1 there).1)
  have told := unknownTemplate_available texts name
    (service.templates.keys ++ entries.map (·.id))
  refine ⟨rfl, reading, may, entries, listed, ?_, ?_⟩
  · rw [told, List.flatMap_append, List.filter_append, pieces_listable ids]
  · rw [told, pieces_eq_iff]
    refine ⟨fun each own inside => each own (List.mem_append_left _ inside), fun own each inside => ?_⟩
    rcases List.mem_append.1 inside with front | back
    · exact own each front
    · exact ids each back

/-- A name that nothing goes by fails with a list of names, and nothing else. -/
theorem template_refused {failure : Failure}
    (foreign : ¬ Kind.template.idPrefix.toList <+: reference.toList)
    (unknown : service.templates[reference]? = none)
    (ran : Alone allowed () (service.template tenant reference) w (.error failure) w') :
    ∃ available, failure = .unknownTemplate reference available := by
  unfold RenderService.template at ran
  rw [unknown] at ran
  dsimp only at ran
  rw [if_neg foreign] at ran
  obtain ⟨names, _, -, told, -⟩ := Prog.exec_bind.1 ran
  exact ⟨_, Except.error.inj told⟩

/-- Texts that need no escapes. -/
def plainTexts : Texts where
  debug text := "\"" ++ text ++ "\""
  debugChar ch := "'" ++ String.singleton ch ++ "'"
  path p := "/".intercalate p

/-- A service with one template of its own. -/
def stocked : RenderService Int := { printing with
  templates := (fromSourceFiles draftCrates draftFiles 1024).toOption.elim ∅ fun template =>
    (∅ : TemplateSet Int).insert template.manifest.name template }

/-- The names an answer offers. -/
def offered : Except Failure (Template Int) → List String
  | .error failure => (PublicError.ofRender plainTexts failure).envelope.available
  | .ok _ => []

/-- A letter is asked for where there is a draft and one upload: both are named. -/
theorem unknown_template_lists_letter : ∃ w w' name available entries,
    Alone (clock 5) () (stocked.template someTenant "letter") w
      (.error (.unknownTemplate name available)) w' ∧ Listed w someTenant .template 5 entries ∧
    entries.map (·.id) = ["tpl_01ARZ3NDEKTSV4RRFFQ69G5FAV"] ∧
    (PublicError.ofRender plainTexts (.unknownTemplate name available)).envelope.available =
      ["draft", "tpl_01ARZ3NDEKTSV4RRFFQ69G5FAV"] := by
  have evaluated : ((solo 0 ((Op.put someTenant .template storedArchive [1]
      (metaOf storedArchive "application/x-tar")).program roomyLimits serde) World.fresh).any fun x =>
        (solo 5 (stocked.template someTenant "letter") x.2).any fun y =>
          offered y.1 = ["draft", "tpl_01ARZ3NDEKTSV4RRFFQ69G5FAV"]) = true := by decide +kernel
  obtain ⟨⟨out, w⟩, played, asked⟩ := (Option.any_eq_true _ _).1 evaluated
  obtain ⟨⟨answer, w'⟩, played', both⟩ := (Option.any_eq_true _ _).1 asked
  have fits : (Op.put someTenant .template storedArchive [1]
      (metaOf storedArchive "application/x-tar")).Fits (World.fresh : Solo).index := by
    show 0 + 1 < 2 ^ 64
    omega
  have past : History stocked.limits stocked.codec (fun w op => op.Fits w.index) w :=
    History.served .fresh fits (alone_mono (alone_solo played) fun _ _ => trivial)
  have keys : stocked.templates.keys = ["draft"] := by decide +kernel
  have listable : ∀ own ∈ stocked.templates.keys, Listable own := by
    rw [keys]
    exact fun own inside => (List.mem_singleton.1 inside) ▸ ⟨by decide, by decide, by decide⟩
  cases answer with
  | ok template => cases of_decide_eq_true both
  | error failure =>
      obtain ⟨names, rfl⟩ := template_refused (by decide) (by decide +kernel) (alone_solo played')
      obtain ⟨-, reading, clocked, entries, listed, -, told⟩ :=
        unknown_template_lists plainTexts past (alone_solo played')
      have five : reading.now = 5 := clocked
      have both := of_decide_eq_true both
      have ids := both.symm.trans (told.2 listable)
      rw [keys] at ids
      exact ⟨w, w', "letter", _, entries, alone_solo played', five ▸ listed,
        (List.cons.inj ids).2.symm, both⟩

end Unknown

end TypstMcp.Http
