/-
Template.Manifest -- the manifest of a template and the entrypoint it generates

`generateMain` prints the entrypoint: an import, and one call whose arguments are
the caller's values in manifest order.  `Crates` stands for the parsers and the
schema validator of other crates.
-/
import TypstMcp.Bundle.Files
import TypstMcp.Template.TypstValue

namespace TypstMcp.Template

open TypstMcp.Bundle

set_option autoImplicit false

/-- Generated entrypoint. -/
def generatedMain : String := "__main.typ"

/-- Where a wrapper template's body is mounted. -/
def generatedBody : String := "__body.typ"

/-! ## The manifest -/

inductive TemplateKind
  /-- Caller supplies `body` markup; the template wraps it. -/
  | wrapper
  /-- Caller supplies only data; the template owns the layout. -/
  | data
  deriving DecidableEq, Repr

inductive ArgKind
  | str
  | int
  | float
  | bool
  | date
  | strings
  | ident
  deriving DecidableEq, Repr

/-- How one key of the caller's `data` becomes a Typst argument. -/
structure ArgSpec where
  arg : String
  kind : ArgKind
  /-- For `ident`: the allowed JSON values and the identifier each maps to. -/
  map : BTreeMap String String := ∅

/-- `template.toml`. -/
structure Manifest where
  name : String
  kind : TemplateKind
  version : String := "0.1.0"
  description : String := ""
  entrypoint : String
  wrapperFn : Option String := none
  notice : Option String := none
  args : BTreeMap String ArgSpec := ∅

/-- Why a template could not be loaded or used. -/
inductive TemplateError
  | noManifest (dir : Theory.Path)
  | badManifest (path : Theory.Path) (source : String)
  | missingEntrypoint (name entrypoint : String)
  | noWrapperFn (name : String)
  | badWrapperFn (name value : String)
  | reservedName (path : String)
  | unknownOverride (path : String)
  | nonTextMetadata (path : String)
  | nonFileMember (path : String)
  | badArchive (message : String)
  | badPath (name path : String) (source : PathError)
  | badSchema (path : Theory.Path) (message : String)
  | io (path : Theory.Path) (source : Theory.ErrorKind)
  | schemaViolation (message : String)
  | badArg (field message : String)
  | wrongKind (name kind message : String)
  | bundle (source : BundleError)
  | value (source : ValueError)
  deriving DecidableEq, Repr

/-- One error a schema validator reports. -/
structure SchemaError where
  instancePath : String
  message : String

/-- What other crates do for a template. -/
structure Crates (F : Type) extends Floats F where
  /-- `{:?}` of a string. -/
  debugStr : String → String
  /-- `toml::from_str`. -/
  manifest : String → Except String Manifest
  /-- `serde_json::from_str`. -/
  json : String → Except String (Value F)
  /-- `serde_json::to_string`. -/
  jsonText : Value F → Option String
  /-- `jsonschema::validator_for`, and the validator's `iter_errors`. -/
  validatorFor : Value F → Except String (Value F → List SchemaError)

/-- Crates that read and print whole numbers as floats, and of JSON the empty object. -/
def integralCrates : Crates Int where
  ofInt i := i
  isFinite _ := true
  debug f := toString f ++ ".0"
  display f := toString f
  ofInt_finite _ _ := rfl
  debug_plain f _ := by
    rw [String.toList_append, List.mem_append, not_or]
    exact ⟨int_plain f, by decide⟩
  debugStr s := writeString s
  manifest _ := .error "missing field name"
  json text := if text = "\x7b\x7d" then .ok (.object []) else .error "expected value"
  jsonText
    | .object [] => some "\x7b\x7d"
    | _ => none
  validatorFor _ := .ok fun _ => []

/-- The same, of TOML reading one manifest. -/
def readingCrates (toml : String) (manifest : Manifest) : Crates Int :=
  { integralCrates with
    manifest := fun text => if text = toml then .ok manifest else .error "missing field name" }

variable {F : Type}

/-! ## The arguments -/

/-- The `enumerate` loop over the elements of a strings array. -/
def convertItems (field : String) : Nat → List (Value F) → Except TemplateError (List (TypstValue F))
  | _, [] => .ok []
  | i, item :: rest =>
      match item.asStr with
      | none => .error (.badArg field ("element " ++ toString i ++ " is not a string"))
      | some text => do
          let values ← convertItems field (i + 1) rest
          return .str text :: values

/-- Convert one JSON value per its declared type. -/
def convert (crates : Crates F) (field : String) (spec : ArgSpec) (raw : Value F) :
    Except TemplateError (TypstValue F) :=
  let bad (message : String) : TemplateError := .badArg field message
  match spec.kind with
  | .str =>
      match raw.asStr with
      | some s => .ok (.str s)
      | none => .error (bad "expected a string")
  | .int =>
      match raw.asI64 with
      | some i => .ok (.int i)
      | none => .error (bad "expected an integer")
  | .float =>
      match raw.asF64 crates.toFloats with
      | some f => .ok (.float f)
      | none => .error (bad "expected a number")
  | .bool =>
      match raw.asBool with
      | some b => .ok (.bool b)
      | none => .error (bad "expected true or false")
  | .date =>
      match raw.asStr.bind parseDate with
      | some date => .ok date
      | none => .error (bad "expected a date as YYYY-MM-DD")
  | .strings =>
      match raw.asArray with
      | some items => do
          let values ← convertItems field 0 items
          return .array values
      | none => .error (bad "expected an array of strings")
  | .ident =>
      match raw.asStr with
      | some key =>
          match spec.map[key]? with
          | some mapped => .ok (.ident mapped)
          | none =>
              .error (bad (crates.debugStr key ++ " is not one of: " ++
                ", ".intercalate spec.map.keys))
      | none => .error (bad "expected a string")

/-- The loop of `arguments`. -/
def argumentsFrom (crates : Crates F) (data : Value F) :
    List (String × ArgSpec) → Except TemplateError (List (String × TypstValue F))
  | [] => .ok []
  | (field, spec) :: rest =>
      match data.get field with
      | none => argumentsFrom crates data rest
      | some raw =>
          if raw.isNull then argumentsFrom crates data rest
          else do
            let value ← convert crates field spec raw
            let more ← argumentsFrom crates data rest
            return (spec.arg, value) :: more

namespace Manifest

/-- Convert `data` into Typst arguments, in manifest order. -/
def arguments (manifest : Manifest) (crates : Crates F) (data : Value F) :
    Except TemplateError (List (String × TypstValue F)) :=
  argumentsFrom crates data manifest.args.toList

end Manifest

/-! ## The entrypoint -/

/-- `quote`: a string always has a literal. -/
def quote (value : String) : String := writeString value

/-- The loop that prints one argument a line. -/
def argumentLines (floats : Floats F) : List (String × TypstValue F) → Except TemplateError String
  | [] => .ok ""
  | (arg, value) :: rest =>
      match value.toSource floats with
      | .error source => .error (.value source)
      | .ok source => do
          let more ← argumentLines floats rest
          return "  " ++ arg ++ ": " ++ source ++ ",\n" ++ more

namespace Manifest

def banner (manifest : Manifest) : String :=
  "// Generated by typst-mcp. Do not edit.\n" ++ "#import " ++ quote manifest.entrypoint ++ ": *\n"

/-- The text before the arguments. -/
def opening (manifest : Manifest) : String :=
  match manifest.kind with
  | .wrapper => "#show: " ++ manifest.wrapperFn.getD "" ++ ".with(\n"
  | .data => "#" ++ manifest.wrapperFn.getD "render" ++ "(\n"

/-- The text after them; only a wrapper includes a body. -/
def closing (manifest : Manifest) : String :=
  match manifest.kind with
  | .wrapper => ")\n" ++ "#include " ++ quote generatedBody ++ "\n"
  | .data => ")\n"

/-- The generated entrypoint. -/
def generateMain (manifest : Manifest) (crates : Crates F) (data : Value F) :
    Except TemplateError String := do
  let values ← manifest.arguments crates data
  let lines ← argumentLines crates.toFloats values
  return manifest.banner ++ manifest.opening ++ lines ++ manifest.closing

end Manifest

end TypstMcp.Template
