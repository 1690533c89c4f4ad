/-
Http.Signing -- short-lived signed links to documents

A link carries the expiry and the first 128 bits of an HMAC over tenant, id and
expiry.  `verifyParams_ok` says what an accepted pair of parameters is, `message_inj`
that no two tuples are signed alike.
-/
import TypstMcp.Auth.Principal
import TypstMcp.Store.Basic
import TypstMcp.Theory.Ascii
import TypstMcp.Theory.Base64
import TypstMcp.Theory.Pieces

namespace TypstMcp.Http

open TypstMcp.Theory TypstMcp.Theory.Json
open TypstMcp.Auth (TenantId Hmac)
open TypstMcp.Store (u64Size)

set_option autoImplicit false

/-- Bytes of HMAC output kept. -/
def signatureBytes : Nat := 16

/-- Domain separator and version. -/
def domain : String := "typst-mcp/file/v1"

/-- Why a signature was not accepted. -/
inductive SignatureError
  | expired
  | invalid
  | missing
  deriving DecidableEq, Repr

/-- The exact bytes that get signed. -/
def message (tenant : TenantId) (id : String) (expiresAt : Nat) : String :=
  domain ++ "|" ++ tenant.str ++ "|" ++ id ++ "|" ++ toString expiresAt

/-! ## The message read back

The tenant has a fixed length and the expiry is digits, so the separators around the id are
found from both ends, whatever the id holds. -/

theorem separator_not_digit (n : Nat) : '|' ∉ (toString n).toList := fun inside =>
  absurd (Ascii.isDigit_of_mem_toString inside) (by decide)

theorem message_toList (tenant : TenantId) (id : String) (expiresAt : Nat) :
    (message tenant id expiresAt).toList =
      (domain.toList ++ ['|']) ++
        (tenant.str.toList ++ ('|' :: id.toList ++ '|' :: (toString expiresAt).toList)) := by
  simp only [message, String.toList_append, List.append_assoc]
  rfl

/-- The message determines the tuple it was made for. -/
theorem message_inj {tenant tenant' : TenantId} {id id' : String} {expiresAt expiresAt' : Nat}
    (same : message tenant id expiresAt = message tenant' id' expiresAt') :
    tenant = tenant' ∧ id = id' ∧ expiresAt = expiresAt' := by
  have chars := congrArg String.toList same
  rw [message_toList, message_toList] at chars
  have fields := List.append_cancel_left chars
  obtain ⟨tenants, rest⟩ := List.append_inj fields (tenant.length.trans tenant'.length.symm)
  obtain ⟨ids, expiries⟩ :=
    Pieces.last_cut (separator_not_digit expiresAt) (separator_not_digit expiresAt') rest
  exact ⟨TenantId.ext (String.toList_inj.1 tenants), String.toList_inj.1 (List.cons.inj ids).2,
    Ascii.toString_inj (String.toList_inj.1 expiries)⟩

/-! ## Signatures -/

/-- `str::parse::<u64>`: digits, with or without a plus in front. -/
def parseU64 (text : String) : Option Nat :=
  let digits := match text.toList with
    | '+' :: rest => rest
    | chars => chars
  if digits ≠ [] ∧ digits.all Char.isDigit ∧ Nat.ofDigitChars 10 digits 0 < u64Size then
    some (Nat.ofDigitChars 10 digits 0)
  else none

/-- Mints and checks document-link signatures. -/
structure Signer where
  hmac : Hmac
  secret : Bytes

namespace Signer

variable (signer : Signer)

/-- Sign `(tenant, id)` until `expiresAt`. -/
def sign (tenant : TenantId) (id : String) (expiresAt : Nat) : String :=
  Base64.encode
    ((signer.hmac.mac signer.secret (utf8 (message tenant id expiresAt))).take signatureBytes)

/-- Check a presented signature. -/
def verify (now : Nat) (tenant : TenantId) (id : String) (expiresAt : Nat) (presented : String) :
    Except SignatureError Unit :=
  if expiresAt ≤ now then .error .expired
  else if signer.sign tenant id expiresAt = presented then .ok ()
  else .error .invalid

/-- Verify from raw query parameters. -/
def verifyParams (now : Nat) (tenant : TenantId) (id : String) (expiresAt signature : Option String) :
    Except SignatureError Unit :=
  match expiresAt, signature with
  | some exp, some sig =>
      match parseU64 exp with
      | none => .error .invalid
      | some exp => signer.verify now tenant id exp sig
  | _, _ => .error .missing

/-- The parameters carry the signature of `(tenant, id)` until a time yet to come. -/
def Signed (now : Nat) (tenant : TenantId) (id : String) (expiresAt signature : Option String) :
    Prop :=
  ∃ exp, expiresAt.bind parseU64 = some exp ∧ signature = some (signer.sign tenant id exp) ∧
    now < exp

theorem verifyParams_ok {signer : Signer} {now : Nat} {tenant : TenantId} {id : String}
    {expiresAt signature : Option String} :
    signer.verifyParams now tenant id expiresAt signature = .ok () ↔
      signer.Signed now tenant id expiresAt signature := by
  unfold verifyParams Signed
  split
  next exp sig =>
    rw [Option.bind_some]
    cases parsed : parseU64 exp with
    | none => simp
    | some time =>
        dsimp only
        unfold verify
        constructor
        · intro accepted
          split at accepted
          · cases accepted
          next late =>
            split at accepted
            next same => exact ⟨time, rfl, congrArg some same.symm, by omega⟩
            · cases accepted
        · rintro ⟨_, same, signed, later⟩
          obtain rfl := Option.some.inj same
          rw [if_neg (by omega), if_pos (Option.some.inj signed).symm]
  next incomplete =>
    constructor
    · nofun
    · rintro ⟨exp, parsed, rfl, -⟩
      cases expiresAt with
      | none => cases parsed
      | some text => exact (incomplete text _ rfl rfl).elim

end Signer

end TypstMcp.Http
