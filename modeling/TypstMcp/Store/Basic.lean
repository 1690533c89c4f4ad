/-
Store.Basic -- what the store keeps, and the names it keeps it under

Kinds, limits, entries and errors as the store declares them, the checks a name
passes before a path is built from it (`validateId`, `safeName`), and the path
itself (`entryDir`).  `entryDir_inj` is the isolation everything else rests on:
two keys that share an entry directory are one key.

`MetaCodec` stands for serde's encoding of an entry in its `meta.json`.
-/
import TypstMcp.Auth.Tenant
import TypstMcp.Theory.FileTree

namespace TypstMcp.Store

open TypstMcp.Theory
open TypstMcp.Auth (TenantId)

set_option autoImplicit false

/-! ## Kinds and limits -/

inductive Kind
  | output
  | asset
  | template
  deriving DecidableEq, Repr

namespace Kind

def dir : Kind → String
  | .output => "out"
  | .asset => "assets"
  | .template => "tpl"

/-- The id prefix, which keeps the namespaces of the kinds disjoint. -/
def idPrefix : Kind → String
  | .output => "job_"
  | .asset => "ast_"
  | .template => "tpl_"

theorem dir_inj {a b : Kind} (same : a.dir = b.dir) : a = b := by
  revert same
  cases a <;> cases b <;> decide

end Kind

/-- One past the largest `u64`. -/
def u64Size : Nat := 2 ^ 64

/-- `u64` addition as the release build does it. -/
def wrapAdd (a b : Nat) : Nat := (a + b) % u64Size

/-- `u64::saturating_add`. -/
def saturatingAdd (a b : Nat) : Nat := min (a + b) (u64Size - 1)

theorem wrapAdd_of_lt {a b : Nat} (fits : a + b < u64Size) : wrapAdd a b = a + b :=
  Nat.mod_eq_of_lt fits

theorem saturatingAdd_of_lt {a b : Nat} (fits : a + b < u64Size) :
    saturatingAdd a b = a + b := by
  unfold saturatingAdd; omega

/-- Retention in seconds and size limits.  The byte ceilings are `u64`. -/
structure Limits where
  outputTtl : Nat
  assetTtl : Nat
  templateTtl : Nat
  maxTenantBytes : Nat
  maxStoreBytes : Nat
  maxTenantEntries : Nat
  maxStoreEntries : Nat
  maxTenantBytes_lt : maxTenantBytes < u64Size := by decide
  maxStoreBytes_lt : maxStoreBytes < u64Size := by decide

def Limits.ttl (limits : Limits) : Kind → Nat
  | .output => limits.outputTtl
  | .asset => limits.assetTtl
  | .template => limits.templateTtl

/-! ## Entries and errors -/

inductive AssetRole
  | image
  | font
  | data
  deriving DecidableEq, Repr

/-- Optional metadata recorded alongside a stored file. -/
structure Meta where
  filename : Option String := none
  contentType : Option String := none
  assetRole : Option AssetRole := none
  deriving DecidableEq, Repr

/-- One stored item; times are Unix seconds. -/
structure Entry where
  id : String
  kind : Kind
  bytes : Nat
  createdAt : Nat
  expiresAt : Nat
  filename : Option String := none
  contentType : Option String := none
  assetRole : Option AssetRole := none
  deriving DecidableEq, Repr

def Entry.isExpired (entry : Entry) (now : Nat) : Bool := entry.expiresAt ≤ now

inductive StoreError
  | notFound (kind : Kind) (id : String)
  | expired (kind : Kind) (id : String)
  | badId (kind : Kind) (id : String)
  | tenantFull (size limit : Nat)
  | tenantEntriesFull (limit : Nat)
  | io (path : Path) (source : ErrorKind)
  deriving DecidableEq, Repr

/-- serde's encoding of an entry, lossless on what it wrote itself. -/
structure MetaCodec where
  toVec : Entry → Bytes
  fromSlice : Bytes → Option Entry
  round_trip : ∀ entry, fromSlice (toVec entry) = some entry

/-! ## Names -/

/-- `str::strip_prefix`. -/
def stripPrefix (value start : String) : Option String :=
  if start.toList.isPrefixOf value.toList then
    some (String.ofList (value.toList.drop start.toList.length))
  else none

theorem stripPrefix_eq_some {value start rest : String} :
    stripPrefix value start = some rest ↔ value = start ++ rest := by
  unfold stripPrefix
  rw [show value = start ++ rest ↔ value.toList = (start ++ rest).toList from String.ext_iff,
    String.toList_append]
  constructor
  · intro stripped
    split at stripped
    · rename_i starts
      obtain ⟨tail, cut⟩ := List.isPrefixOf_iff_prefix.1 starts
      rw [← Option.some.inj stripped, ← cut]
      simp
    · simp at stripped
  · intro whole
    rw [whole, if_pos (by simp)]
    simp

/-- Accept an id that came from outside: the kind's prefix and 26 ASCII
alphanumerics, checked before a path is built from it. -/
def validateId (kind : Kind) (id : String) : Except StoreError String :=
  match stripPrefix id kind.idPrefix with
  | none => .error (.badId kind id)
  | some body =>
      if body.utf8ByteSize ≠ 26 || !body.toList.all Char.isAlphanum then .error (.badId kind id)
      else .ok id

theorem validateId_ok {kind : Kind} {id id' : String} (valid : validateId kind id = .ok id') :
    id' = id := by
  unfold validateId at valid
  split at valid
  · simp at valid
  · split at valid
    · simp at valid
    · exact (Except.ok.inj valid).symm

theorem validateId_error {kind : Kind} {id : String} {error : StoreError}
    (invalid : validateId kind id = .error error) : error = .badId kind id := by
  unfold validateId at invalid
  split at invalid
  · exact (Except.error.inj invalid).symm
  · split at invalid
    · exact (Except.error.inj invalid).symm
    · simp at invalid

/-- Reduce a filename to something that cannot escape its directory. -/
def safeName (name : String) : String :=
  let cleaned := name.toList.filter fun c => c.isAlphanum || c = '.' || c = '-' || c = '_'
  if cleaned.isEmpty || cleaned.head? = some '.' then "file" else String.ofList cleaned

/-- The entry's own metadata file. -/
def metaName : String := "meta.json"

/-! ## Keys and paths -/

/-- `(tenant, kind, id)`, the key of the index. -/
structure Key where
  tenant : TenantId
  kind : Kind
  id : String
  deriving DecidableEq

/-- Both key halves go into the path: this is the tenant isolation. -/
def entryDir (key : Key) : Path := ["t_" ++ key.tenant.str, key.kind.dir, key.id]

def tmpDir : Path := ["tmp"]

@[simp] theorem entryDir_length (key : Key) : (entryDir key).length = 3 := rfl

theorem entryDir_inj {a b : Key} (same : entryDir a = entryDir b) : a = b := by
  simp only [entryDir, List.cons.injEq, String.append_right_inj, and_true] at same
  obtain ⟨tenant, kind, id⟩ := same
  cases a; cases b
  simp only [Key.mk.injEq]
  exact ⟨TenantId.ext tenant, Kind.dir_inj kind, id⟩

/-- An entry directory lies below another only when it is the same one. -/
theorem entryDir_under {a b : Key} {p : Path} (first : entryDir a <+: p)
    (second : entryDir b <+: p) : a = b :=
  entryDir_inj (List.prefix_of_prefix_length_le first second (by simp)
    |>.eq_of_length (by simp))

theorem tmp_not_entry {key : Key} {p : Path} (temporary : tmpDir <+: p) :
    ¬ entryDir key <+: p := by
  rintro ⟨rest, rfl⟩
  obtain ⟨rest', same⟩ := temporary
  simp only [tmpDir, entryDir, List.cons_append, List.cons.injEq] at same
  have := congrArg String.toList same.1
  simp [String.toList_append] at this

end TypstMcp.Store
