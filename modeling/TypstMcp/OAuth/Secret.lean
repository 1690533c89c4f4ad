/-
OAuth.Secret -- three kinds of bytes under one secret

Document links, states and codes are all tagged with the signing secret.  A `Context`
is one thing to tag, `Context.input` the bytes that go into the MAC for it.

* `input_injective`: the bytes determine the kind and everything in it.
* `signed_unambiguous`: what one context made and another accepts is a collision of the
  MAC on two different inputs.
-/
import TypstMcp.OAuth.Binding

namespace TypstMcp.OAuth

open TypstMcp.Theory TypstMcp.Theory.Json
open TypstMcp.Auth (TenantId)
open OAuthProxyState

set_option autoImplicit false

/-- What is tagged with the shared secret. -/
inductive Context
  | file (tenant : TenantId) (id : String) (expiresAt : Nat)
  | state (payload : Bytes)
  | code (payload : Bytes)

namespace Context

/-- The bytes that go into the MAC. -/
def input : Context → Bytes
  | .file tenant id expiresAt => utf8 (Http.message tenant id expiresAt)
  | .state payload => stateDomain ++ payload
  | .code payload => codeDomain ++ payload

theorem input_injective : Function.Injective input := by
  intro a b same
  cases a with
  | file tenant id expiresAt =>
      cases b with
      | file tenant' id' expiresAt' =>
          obtain ⟨rfl, rfl, rfl⟩ := Http.message_inj (utf8_inj same)
          rfl
      | state payload => exact (link_ne_state _ _ _ _ same).elim
      | code payload => exact (link_ne_code _ _ _ _ same).elim
  | state payload =>
      cases b with
      | file tenant id expiresAt => exact (link_ne_state _ _ _ _ same.symm).elim
      | state payload' => exact congrArg state (List.append_cancel_left same)
      | code payload' => exact (state_ne_code _ _ same).elim
  | code payload =>
      cases b with
      | file tenant id expiresAt => exact (link_ne_code _ _ _ _ same.symm).elim
      | state payload' => exact (state_ne_code _ _ same.symm).elim
      | code payload' => exact congrArg code (List.append_cancel_left same)

end Context

section Tokens

variable (st : OAuthProxyState)

/-- Document links are signed under the key of the broker. -/
def linkSigner : Http.Signer := ⟨st.hmac, st.stateKey⟩

/-- The text handed out for a context. -/
def token : Context → String
  | .file tenant id expiresAt => (linkSigner st).sign tenant id expiresAt
  | .state payload => st.encodeBlob stateDomain payload
  | .code payload => st.encodeBlob codeDomain payload

/-- A text is accepted as the token of a context, at some time. -/
def Accepts (text : String) : Context → Prop
  | .file tenant id expiresAt => ∃ now, (linkSigner st).verify now tenant id expiresAt text = .ok ()
  | .state payload =>
      ∃ now pending tag, st.decodeState now text = some pending ∧ blobParts text = some (payload, tag)
  | .code payload =>
      ∃ now pending tag, st.decodeCode now text = some pending ∧ blobParts text = some (payload, tag)

/-- The tag a token carries: all of the MAC in a blob, its first half in a link. -/
def tag : Context → Bytes
  | .file tenant id expiresAt =>
      (st.mac (Context.file tenant id expiresAt).input).take Http.signatureBytes
  | .state payload => st.mac (Context.state payload).input
  | .code payload => st.mac (Context.code payload).input

/-- Two different inputs with one tag. -/
def Collide (a b : Context) : Prop := a.input ≠ b.input ∧ tag st a = tag st b

variable {st}

theorem encodeBlob_of_decoded {α : Type} {start payload tag : Bytes} {fromSlice : Bytes → Option α}
    {issuedAt : α → Nat} {now : Nat} {pending : α} {text : String}
    (decoded : st.decodeBlob start fromSlice issuedAt now text = some pending)
    (parts : blobParts text = some (payload, tag)) : text = st.encodeBlob start payload := by
  obtain ⟨read, rfl, -⟩ := decodeBlob_eq_some decoded
  rw [blobParts_encodeBlob] at parts
  rw [(Prod.mk.inj (Option.some.inj parts)).1]

/-- An accepted text is the token the server makes for that context. -/
theorem Accepts.token {text : String} {context : Context} (accepted : Accepts st text context) :
    text = token st context := by
  cases context with
  | file tenant id expiresAt =>
      obtain ⟨now, verified⟩ := accepted
      unfold Http.Signer.verify at verified
      split at verified
      · cases verified
      · split at verified
        next same => exact same.symm
        · cases verified
  | state payload =>
      obtain ⟨now, pending, tag, decoded, parts⟩ := accepted
      exact encodeBlob_of_decoded decoded parts
  | code payload =>
      obtain ⟨now, pending, tag, decoded, parts⟩ := accepted
      exact encodeBlob_of_decoded decoded parts

/-- A link's signature has no dot in it, a blob has. -/
theorem sign_ne_encodeBlob (tenant : TenantId) (id : String) (expiresAt : Nat)
    (start payload : Bytes) :
    (linkSigner st).sign tenant id expiresAt ≠ st.encodeBlob start payload := by
  intro same
  have dotted : '.' ∈ (st.encodeBlob start payload).toList := by
    rw [encodeBlob, String.toList_append, String.toList_append]
    exact List.mem_append_left _ (List.mem_append_right _ (List.mem_singleton_self '.'))
  rw [← same, Http.Signer.sign, Base64.encode, String.toList_ofList] at dotted
  exact absurd (Base64.encodeChars_mem _ '.' dotted) (by decide)

theorem encodeBlob_inj {start start' payload payload' : Bytes}
    (same : st.encodeBlob start payload = st.encodeBlob start' payload') :
    payload = payload' ∧ st.mac (start ++ payload) = st.mac (start' ++ payload') := by
  have parts := congrArg blobParts same
  rw [blobParts_encodeBlob, blobParts_encodeBlob] at parts
  exact Prod.mk.inj (Option.some.inj parts)

/-- Equal tokens carry equal tags. -/
theorem token_tag {a b : Context} (same : token st a = token st b) : tag st a = tag st b := by
  cases a with
  | file tenant id expiresAt =>
      cases b with
      | file tenant' id' expiresAt' =>
          have tags := congrArg Base64.decode same
          rw [token, token, Http.Signer.sign, Http.Signer.sign, Base64.decode_encode,
            Base64.decode_encode] at tags
          exact Option.some.inj tags
      | state payload => exact (sign_ne_encodeBlob _ _ _ _ _ same).elim
      | code payload => exact (sign_ne_encodeBlob _ _ _ _ _ same).elim
  | state payload =>
      cases b with
      | file tenant id expiresAt => exact (sign_ne_encodeBlob _ _ _ _ _ same.symm).elim
      | state payload' => exact (encodeBlob_inj same).2
      | code payload' => exact (encodeBlob_inj same).2
  | code payload =>
      cases b with
      | file tenant id expiresAt => exact (sign_ne_encodeBlob _ _ _ _ _ same.symm).elim
      | state payload' => exact (encodeBlob_inj same).2
      | code payload' => exact (encodeBlob_inj same).2

end Tokens

/-- **Signed bytes are unambiguous.**  The bytes under the MAC determine the context, with its
tenant, id and expiry or its payload; and a token made for one context is accepted for another only
where the MAC collides on two different inputs. -/
theorem signed_unambiguous :
    Function.Injective Context.input ∧
      ∀ (st : OAuthProxyState) (made read : Context), Accepts st (token st made) read →
        made = read ∨ Collide st made read := by
  refine ⟨Context.input_injective, fun st made read accepted => ?_⟩
  by_cases same : made = read
  · exact .inl same
  · exact .inr ⟨fun inputs => same (Context.input_injective inputs), token_tag accepted.token⟩

/-! ## Two links -/

/-- A link to an id with the separator in it. -/
def sampleLink : Context := .file ⟨"00001111aaaabbbb", by decide⟩ "doc|7" 8

/-- What is left of its message once the last field is cut off. -/
def shorterLink : Context := .file ⟨"00001111aaaabbbb", by decide⟩ "doc" 7

/-- The sample deployment, with its key's HMAC at the two links. -/
def linkState : OAuthProxyState :=
  sampleAt (Auth.hmacAt
    (sampleLink.input, [71, 49, 8, 135, 95, 33, 207, 114, 57, 63, 168, 58, 154, 232, 148, 208, 77, 30,
      226, 89, 125, 254, 4, 174, 129, 85, 202, 19, 83, 224, 177, 32])
    (shorterLink.input, [185, 224, 113, 6, 11, 192, 188, 46, 204, 81, 73, 60, 99, 84, 137, 165, 60,
      161, 68, 0, 223, 151, 220, 15, 65, 27, 23, 87, 57, 19, 163, 16])
    ⟨rfl, rfl⟩)

theorem sampleLink_accepted : Accepts linkState (token linkState sampleLink) sampleLink := by
  refine ⟨0, ?_⟩
  rw [Http.Signer.verify, if_neg (by decide)]
  exact if_pos rfl

/-- A link's tag is half as long as a blob's. -/
theorem tag_ne_of_file {tenant : TenantId} {id : String} {expiresAt : Nat} {message : Bytes}
    (st : OAuthProxyState) : tag st (.file tenant id expiresAt) ≠ st.mac message := by
  intro same
  have half := congrArg List.length same
  rw [tag, List.length_take, OAuthProxyState.mac, OAuthProxyState.mac, st.hmac.length, st.hmac.length]
    at half
  exact absurd half (by decide)

/-- The link is accepted as what it is, and neither as the shorter link nor as any state or code. -/
theorem signed_unambiguous_link :
    Accepts linkState (token linkState sampleLink) sampleLink ∧
      ¬Accepts linkState (token linkState sampleLink) shorterLink ∧
      ∀ payload, ¬Accepts linkState (token linkState sampleLink) (.state payload) ∧
        ¬Accepts linkState (token linkState sampleLink) (.code payload) := by
  have apart := signed_unambiguous.2 linkState sampleLink
  refine ⟨sampleLink_accepted, fun accepted => ?_, fun payload => ⟨fun accepted => ?_,
    fun accepted => ?_⟩⟩
  · obtain same | ⟨-, tags⟩ := apart _ accepted
    · exact absurd (Context.file.inj same).2.2 (by decide)
    · exact absurd tags (by decide +kernel)
  · obtain same | ⟨-, tags⟩ := apart _ accepted
    · cases same
    · exact tag_ne_of_file linkState tags
  · obtain same | ⟨-, tags⟩ := apart _ accepted
    · cases same
    · exact tag_ne_of_file linkState tags

end TypstMcp.OAuth
