/-
Render.Link -- minting a signed link to a stored document

`link` confirms that the document is there before it signs.  The lifetime asked for
never exceeds the configured one; the expiry is the clock plus it, as the release build
adds (`link_ok`).
-/
import TypstMcp.Http.Signing
import TypstMcp.Render.Result

namespace TypstMcp.Render

open TypstMcp.Theory
open TypstMcp.Auth (TenantId)
open TypstMcp.Http (Signer)
open TypstMcp.Store

set_option autoImplicit false

/-- Mint a signature valid for `ttlSeconds` from now. -/
def signFor (signer : Signer) (tenant : TenantId) (id : String) (ttlSeconds : Nat) :
    StoreProg (String × Nat) := do
  let expiresAt := wrapAdd (← perform .now) ttlSeconds
  return (signer.sign tenant id expiresAt, expiresAt)

/-- The lifetime of a link, given the one asked for. -/
def linkTtl (signedUrlTtl : Nat) (ttlSeconds : Option Nat) : Nat :=
  min (ttlSeconds.getD signedUrlTtl) signedUrlTtl

def linkUrl (publicUrl : String) (tenant : TenantId) (id : String) (expiresAt : Nat)
    (signature : String) : String :=
  configUrl publicUrl ("files/" ++ tenant.str ++ "/" ++ id ++ "/" ++ documentName ++
    "?exp=" ++ toString expiresAt ++ "&sig=" ++ signature)

/-- `RenderService::link`; its error is the store's, passed on. -/
def link (signer : Signer) (publicUrl : String) (signedUrlTtl : Nat) (tenant : TenantId)
    (jobId : String) (ttlSeconds : Option Nat) : StoreProg (Except StoreError (String × Nat)) := do
  match ← entry tenant .output jobId with
  | .error error => return .error error
  | .ok entry =>
      let (signature, expiresAt) ← signFor signer tenant entry.id (linkTtl signedUrlTtl ttlSeconds)
      return .ok (linkUrl publicUrl tenant entry.id expiresAt signature, expiresAt)

/-! ## What is minted -/

variable {S : Type} {step : (c : Call) → S → Reply c → S → Prop}

/-- A reading of the clock, as it is written down. -/
def ClockRead (log : List (Prog.Event Call Reply)) (t : Nat) : Prop := ⟨.now, t⟩ ∈ log

/-- **A link is signed until a reading of the clock plus its lifetime,** as a `u64`. -/
theorem link_ok {signer : Signer} {publicUrl : String} {signedUrlTtl : Nat} {tenant : TenantId}
    {jobId : String} {asked : Option Nat} {url : String} {expiresAt : Nat}
    {s s' : S × List (Prog.Event Call Reply)}
    (minted : (link signer publicUrl signedUrlTtl tenant jobId asked).Exec (Prog.logged step) s
      (.ok (url, expiresAt)) s') :
    ∃ id t, ClockRead s'.2 t ∧ expiresAt = wrapAdd t (linkTtl signedUrlTtl asked) ∧
      url = linkUrl publicUrl tenant id expiresAt (signer.sign tenant id expiresAt) := by
  obtain ⟨found, mid, -, minted⟩ := Prog.exec_bind.1 minted
  cases found with
  | error error =>
      obtain ⟨same, -⟩ := minted
      cases same
  | ok entry =>
      obtain ⟨⟨signature, exp⟩, last, signed, returned⟩ := Prog.exec_bind.1 minted
      obtain ⟨t, now, ⟨-, written⟩, made⟩ := signed
      obtain ⟨same, rfl⟩ := made
      obtain ⟨rfl, rfl⟩ := Prod.mk.inj same
      obtain ⟨same, rfl⟩ := returned
      obtain ⟨rfl, rfl⟩ := Prod.mk.inj (Except.ok.inj same)
      exact ⟨entry.id, t, by rw [ClockRead, written]; simp, rfl, rfl⟩

end TypstMcp.Render
