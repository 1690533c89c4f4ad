/-
Store.Serde -- the metadata file as JSON

The fields serde writes for an entry, in declaration order, an absent option
skipped; and an entry read back from such fields.  `serde` is the codec they make.
-/
import TypstMcp.Store.Basic
import TypstMcp.Theory.Json

namespace TypstMcp.Store

open TypstMcp.Theory TypstMcp.Theory.Json

set_option autoImplicit false

def Kind.name : Kind → String
  | .output => "output"
  | .asset => "asset"
  | .template => "template"

def Kind.ofName : String → Option Kind
  | "output" => some .output
  | "asset" => some .asset
  | "template" => some .template
  | _ => none

def AssetRole.name : AssetRole → String
  | .image => "image"
  | .font => "font"
  | .data => "data"

def AssetRole.ofName : String → Option AssetRole
  | "image" => some .image
  | "font" => some .font
  | "data" => some .data
  | _ => none

@[simp] theorem Kind.ofName_name (kind : Kind) : Kind.ofName kind.name = some kind := by
  cases kind <;> rfl

@[simp] theorem AssetRole.ofName_name (role : AssetRole) :
    AssetRole.ofName role.name = some role := by
  cases role <;> rfl

/-- `skip_serializing_if = "Option::is_none"`. -/
def optional (name : String) : Option String → Fields
  | none => []
  | some value => [(name, .str value)]

def Entry.fields (entry : Entry) : Fields :=
  [("id", .str entry.id), ("kind", .str entry.kind.name), ("bytes", .num entry.bytes),
    ("created_at", .num entry.createdAt), ("expires_at", .num entry.expiresAt)] ++
  optional "filename" entry.filename ++ optional "content_type" entry.contentType ++
  optional "asset_role" (entry.assetRole.map AssetRole.name)

def text (fields : Fields) (name : String) : Option String :=
  match fields.lookup name with
  | some (.str s) => some s
  | _ => none

def number (fields : Fields) (name : String) : Option Nat :=
  match fields.lookup name with
  | some (.num n) => some n
  | _ => none

/-- An optional field: absent and `null` are both none. -/
def optionalText (fields : Fields) (name : String) : Option (Option String) :=
  match fields.lookup name with
  | none => some none
  | some .null => some none
  | some (.str s) => some (some s)
  | some (.num _) => none

def Entry.ofFields (fields : Fields) : Option Entry := do
  let id ← text fields "id"
  let kind ← Kind.ofName (← text fields "kind")
  let bytes ← number fields "bytes"
  let createdAt ← number fields "created_at"
  let expiresAt ← number fields "expires_at"
  let filename ← optionalText fields "filename"
  let contentType ← optionalText fields "content_type"
  let assetRole ← match ← optionalText fields "asset_role" with
    | none => some none
    | some role => (AssetRole.ofName role).map some
  return { id, kind, bytes, createdAt, expiresAt, filename, contentType, assetRole }

theorem Entry.ofFields_fields (entry : Entry) : Entry.ofFields entry.fields = some entry := by
  obtain ⟨id, kind, bytes, createdAt, expiresAt, filename, contentType, assetRole⟩ := entry
  cases filename <;> cases contentType <;> cases assetRole <;>
    simp [Entry.ofFields, Entry.fields, optional, text, number, optionalText, List.lookup_cons]

/-- **serde's encoding of an entry reads back.** -/
def serde : MetaCodec where
  toVec entry := Json.toBytes entry.fields
  fromSlice bytes := (Json.fromBytes bytes).bind Entry.ofFields
  round_trip entry := by rw [Json.fromBytes_toBytes]; exact Entry.ofFields_fields entry

end TypstMcp.Store
