/-
OAuth.Binding -- a code is redeemed only by the request it was issued for

A run is a list of requests, newest first; the handlers keep nothing between them.
`signs` is the byte string a request makes the server sign, and `Unforgeable` says
that a tag presented in the run verifies only a byte string signed before.

* `code_bound`: a forwarded authorization code came through a callback, whose state
  came from an accepted `authorize`, with the same redirect URI and a challenge for
  the verifier presented, each within its time.
* No state is taken for a code and no code for a state.
-/
import TypstMcp.Auth.Token
import TypstMcp.Http.Signing
import TypstMcp.OAuth.Proxy
import TypstMcp.Store.Serde

namespace TypstMcp.OAuth

open TypstMcp.Theory TypstMcp.Theory.Json TypstMcp.Theory.FormUrl
open TypstMcp.Auth (TenantId Hmac splitOnce splitOnce_eq_some)
open TypstMcp.Store (saturatingAdd)
open OAuthProxyState

set_option autoImplicit false

/-! ## Runs -/

/-- A request, with the clock as its handler reads it.  Document links are signed under the same
secret. -/
inductive Request
  | authorize (now : Nat) (query : Option String)
  | callback (now later : Nat) (query : Option String)
  | token (now : Nat) (body : String)
  | link (tenant : TenantId) (id : String) (expiresAt : Nat)

variable (st : OAuthProxyState)

/-- The byte string a request has signed, if it passes the checks before. -/
def signs : Request → Option Bytes
  | .authorize now query =>
      match st.authorizePending now (parse (query.getD "")) with
      | .ok pending => some (stateDomain ++ pending.toVec)
      | .error _ => none
  | .callback now later query =>
      match st.callbackPending now later (parse (query.getD "")) with
      | .ok (_, some code) => some (codeDomain ++ code.toVec)
      | _ => none
  | .token _ _ => none
  | .link tenant id expiresAt => some (utf8 (Http.message tenant id expiresAt))

/-- The byte string a request asks to verify, with the tag it presents. -/
def presents : Request → Option (Bytes × Bytes)
  | .callback _ _ query =>
      ((exactlyOne (parse (query.getD "")) "state").bind blobParts).map fun (payload, tag) =>
        (stateDomain ++ payload, tag)
  | .token _ body =>
      ((exactlyOne (parse body) "code").bind blobParts).map fun (payload, tag) =>
        (codeDomain ++ payload, tag)
  | .authorize _ _ | .link _ _ _ => none

/-- In no request does a tag verify on a byte string that was not signed before. -/
def Unforgeable : List Request → Prop
  | [] => True
  | request :: past =>
      (∀ message tag, presents request = some (message, tag) → st.mac message = tag →
        ∃ earlier ∈ past, signs st earlier = some message) ∧ Unforgeable past

/-! ## Parameters under a rewrite -/

section Parameters

variable {pairs : Pairs} {name value : String}

def valuesOf (pairs : Pairs) (name : String) : List String :=
  (pairs.filter (·.1 = name)).map (·.2)

theorem exactlyOne_eq_some : exactlyOne pairs name = some value ↔ valuesOf pairs name = [value] := by
  unfold exactlyOne valuesOf
  split
  next other v one => simp [one]
  next none_ =>
    constructor
    · nofun
    · intro one
      obtain ⟨⟨k, v⟩, only, -⟩ := List.map_eq_singleton_iff.1 one
      exact (none_ k v only).elim

theorem valuesOf_append (pairs more : Pairs) (name : String) :
    valuesOf (pairs ++ more) name = valuesOf pairs name ++ valuesOf more name := by
  simp [valuesOf]

theorem valuesOf_map (pairs : Pairs) (rewrite : String → String → String) (name : String) :
    valuesOf (pairs.map fun p => (p.1, rewrite p.1 p.2)) name =
      (valuesOf pairs name).map (rewrite name) := by
  induction pairs with
  | nil => rfl
  | cons pair rest ih =>
      unfold valuesOf at ih ⊢
      rw [List.map_cons, List.filter_cons, List.filter_cons]
      by_cases named : pair.1 = name
      · simp only [named, decide_true, if_true, List.map_cons, ih]
      · simp only [named, decide_false, Bool.false_eq_true, if_false, ih]

theorem valuesOf_keepResource (mcpResource : String) (given rewritten : Pairs)
    (other : name ≠ "resource") :
    valuesOf (keepResource mcpResource given rewritten) name = valuesOf rewritten name := by
  unfold keepResource valuesOf
  split
  · rw [List.filter_filter]
    congr 1
    apply List.filter_congr
    intro pair _
    by_cases named : pair.1 = name
    · simp [named, other]
    · simp [named]
  · rfl

/-- A parameter that is not there has no value. -/
theorem any_eq_false_iff : pairs.any (·.1 = name) = false ↔ valuesOf pairs name = [] := by
  constructor
  · intro absent
    unfold valuesOf
    rw [List.map_eq_nil_iff, List.filter_eq_nil_iff]
    intro pair inside named
    exact Bool.false_ne_true (absent.symm.trans (List.any_eq_true.2 ⟨pair, inside, named⟩))
  · intro none_
    rw [← Bool.not_eq_true, List.any_eq_true]
    rintro ⟨pair, inside, named⟩
    have found : pair.2 ∈ valuesOf pairs name :=
      List.mem_map_of_mem (List.mem_filter.2 ⟨inside, named⟩)
    rw [none_] at found
    cases found

/-- A pair is added under its own name. -/
theorem valuesOf_added (seen : Bool) (name added value : String) :
    valuesOf (if seen then [] else [(added, value)]) name =
      if seen = false ∧ added = name then [value] else [] := by
  cases seen <;> by_cases same : added = name <;> simp [valuesOf, same]

theorem valuesOf_unadded (seen : Bool) {name added : String} (other : added ≠ name) (value : String) :
    valuesOf (if seen then [] else [(added, value)]) name = [] := by
  rw [valuesOf_added, if_neg (fun same => other same.2)]

end Parameters

/-! ## Blobs -/

section Blobs

variable {st} {start payload tag : Bytes} {text : String}

theorem blobParts_eq_some : blobParts text = some (payload, tag) ↔
    text = Base64.encode payload ++ "." ++ Base64.encode tag := by
  have dotless : '.' ∉ (Base64.encode payload).toList := by
    rw [Base64.encode, String.toList_ofList]
    exact fun inside => absurd (Base64.encodeChars_mem payload '.' inside) (by decide)
  constructor
  · intro parts
    obtain ⟨⟨a, b⟩, cut, parts⟩ := Option.bind_eq_some_iff.1 parts
    obtain ⟨first, readFirst, parts⟩ := Option.bind_eq_some_iff.1 parts
    obtain ⟨second, readSecond, same⟩ := Option.map_eq_some_iff.1 parts
    obtain ⟨rfl, rfl⟩ := Prod.mk.inj same
    rw [Base64.encode_of_decode readFirst, Base64.encode_of_decode readSecond]
    apply String.toList_inj.1
    rw [(splitOnce_eq_some.1 cut).2]
    simp
  · intro whole
    have cut : splitOnce '.' text = some (Base64.encode payload, Base64.encode tag) := by
      rw [splitOnce_eq_some]
      refine ⟨dotless, ?_⟩
      rw [whole]
      simp
    simp only [blobParts, cut, Option.bind_some, Base64.decode_encode, Option.map_some]

theorem blobParts_encodeBlob :
    blobParts (st.encodeBlob start payload) = some (payload, st.mac (start ++ payload)) :=
  blobParts_eq_some.2 rfl

/-- An accepted blob is the one that would be made for its payload. -/
theorem decodeBlob_eq_some {α : Type} {fromSlice : Bytes → Option α} {issuedAt : α → Nat} {now : Nat}
    {pending : α} (accepted : st.decodeBlob start fromSlice issuedAt now text = some pending) :
    ∃ payload, text = st.encodeBlob start payload ∧ fromSlice payload = some pending ∧
      issuedAt pending ≤ now + 60 ∧ now < issuedAt pending + 600 := by
  unfold decodeBlob at accepted
  split at accepted
  · cases accepted
  next payload signature parts =>
    split at accepted
    · cases accepted
    next verified =>
      rw [not_not] at verified
      split at accepted
      · cases accepted
      next other read =>
        split at accepted
        · cases accepted
        next fresh =>
          obtain rfl := Option.some.inj accepted
          have ttl : pendingTtl = 600 := rfl
          unfold saturatingAdd at fresh
          refine ⟨payload, ?_, read, by omega, by omega⟩
          rw [blobParts_eq_some.1 parts, encodeBlob, verified]

theorem decodeBlob_encodeBlob {α : Type} {fromSlice : Bytes → Option α} {issuedAt : α → Nat}
    {now : Nat} {pending : α} (read : fromSlice payload = some pending)
    (skew : issuedAt pending ≤ saturatingAdd now 60)
    (recent : now - issuedAt pending < pendingTtl) :
    st.decodeBlob start fromSlice issuedAt now (st.encodeBlob start payload) = some pending := by
  simp only [decodeBlob, blobParts_encodeBlob, ne_eq, not_true_eq_false, if_false, read]
  rw [if_neg (by omega)]

end Blobs

/-! ## Domains -/

theorem append_ne {a b p q : Bytes} (n : Nat) (longP : n ≤ p.length) (longQ : n ≤ q.length)
    (differ : p.take n ≠ q.take n) : p ++ a ≠ q ++ b := by
  intro same
  have first := congrArg (List.take n) same
  rw [List.take_append_of_le_length longP, List.take_append_of_le_length longQ] at first
  exact differ first

theorem state_ne_code (a b : Bytes) : stateDomain ++ a ≠ codeDomain ++ b :=
  append_ne 7 (by decide) (by decide) (by decide)

/-- The message of a document link starts with its own domain. -/
theorem message_starts (tenant : TenantId) (id : String) (expiresAt : Nat) :
    ∃ rest, utf8 (Http.message tenant id expiresAt) = utf8 Http.domain ++ rest := by
  refine ⟨utf8 ("|" ++ tenant.str ++ "|" ++ id ++ "|" ++ toString expiresAt), ?_⟩
  simp [Http.message, utf8_eq]

theorem link_ne_state (tenant : TenantId) (id : String) (expiresAt : Nat) (a : Bytes) :
    utf8 (Http.message tenant id expiresAt) ≠ stateDomain ++ a := by
  obtain ⟨rest, same⟩ := message_starts tenant id expiresAt
  rw [same]
  exact append_ne 1 (by decide) (by decide) (by decide)

theorem link_ne_code (tenant : TenantId) (id : String) (expiresAt : Nat) (a : Bytes) :
    utf8 (Http.message tenant id expiresAt) ≠ codeDomain ++ a := by
  obtain ⟨rest, same⟩ := message_starts tenant id expiresAt
  rw [same]
  exact append_ne 1 (by decide) (by decide) (by decide)

/-- The first field of a state is not the first field of a code. -/
theorem toVec_ne (pending : Pending) (code : PendingCode) : pending.toVec ≠ code.toVec := by
  intro same
  have fields := congrArg Json.fromBytes same
  rw [Pending.toVec, PendingCode.toVec, fromBytes_toBytes, fromBytes_toBytes] at fields
  simp at fields

theorem encodeState_ne_encodeCode (pending : Pending) (code : PendingCode) :
    st.encodeState pending ≠ st.encodeCode code := by
  intro same
  have parts := congrArg blobParts same
  rw [encodeState, encodeCode, blobParts_encodeBlob, blobParts_encodeBlob] at parts
  exact toVec_ne pending code (Prod.mk.inj (Option.some.inj parts)).1

/-! ## What each handler checked -/

/-- What `authorize` passed on was asked for, once each. -/
structure AuthorizeChecked (now : Nat) (pairs : Pairs) (pending : Pending) : Prop where
  redirectUri : exactlyOne pairs "redirect_uri" = some pending.clientRedirectUri
  allowed : isAllowedRedirectUri st.parseUrl st.allowedRedirectUris pending.clientRedirectUri = true
  challenge : exactlyOne pairs "code_challenge" = some pending.codeChallenge
  state : (valuesOf pairs "state").length ≤ 1
  issuedAt : pending.issuedAt = now

/-- What `callback` signed came with a state it accepted. -/
structure CallbackChecked (now later : Nat) (pairs : Pairs) (code : PendingCode) : Prop where
  returned : ∃ state pending, exactlyOne pairs "state" = some state ∧
    st.decodeState now state = some pending ∧
    code.clientRedirectUri = pending.clientRedirectUri ∧ code.codeChallenge = pending.codeChallenge
  issuedAt : code.issuedAt = later
  upstream : exactlyOne pairs "code" = some code.upstreamCode

/-- The code presented was made for the redirect URI and the verifier presented with it. -/
def Redeemed (now : Nat) (pairs : Pairs) (upstreamCode : String) : Prop :=
  ∃ redirectUri code verifier pending,
    exactlyOne pairs "redirect_uri" = some redirectUri ∧ exactlyOne pairs "code" = some code ∧
    exactlyOne pairs "code_verifier" = some verifier ∧
    st.decodeCode now code = some pending ∧ pending.upstreamCode = upstreamCode ∧
    pending.clientRedirectUri = redirectUri ∧
    pending.codeChallenge = Base64.encode (st.sha256 (utf8 verifier))

section Handlers

variable {st} {now later : Nat} {pairs : Pairs}

theorem clientState_ok {state : Option String} (accepted : clientState pairs = .ok state) :
    valuesOf pairs "state" = state.toList := by
  unfold clientState at accepted
  split at accepted
  next none_ =>
    obtain rfl := Except.ok.inj accepted
    rw [valuesOf, List.length_eq_zero_iff.1 none_]
    rfl
  next one =>
    obtain rfl := Except.ok.inj accepted
    obtain ⟨⟨name, value⟩, only⟩ := List.length_eq_one_iff.1 one
    rw [exactlyOne, valuesOf, only]
    rfl
  · cases accepted

/-- What an accepted request gave, and what is signed of it. -/
theorem authorizePending_passed {pending : Pending}
    (passed : st.authorizePending now pairs = .ok pending) :
    ∃ redirectUri client challenge, exactlyOne pairs "redirect_uri" = some redirectUri ∧
      isAllowedRedirectUri st.parseUrl st.allowedRedirectUris redirectUri = true ∧
      clientState pairs = .ok client ∧ exactlyOne pairs "code_challenge" = some challenge ∧
      pending = ⟨redirectUri, client, challenge, now⟩ := by
  unfold authorizePending at passed
  split at passed
  · cases passed
  split at passed
  · cases passed
  split at passed
  · cases passed
  split at passed
  · cases passed
  next redirectUri there =>
    split at passed
    · cases passed
    next allowed =>
      split at passed
      · cases passed
      next client accepted =>
        split at passed
        · cases passed
        split at passed
        · cases passed
        next challenge challenged =>
          split at passed
          · cases passed
          · exact ⟨redirectUri, client, challenge, there, by simpa using allowed, accepted,
              challenged, (Except.ok.inj passed).symm⟩

theorem authorizePending_ok {pending : Pending}
    (passed : st.authorizePending now pairs = .ok pending) :
    AuthorizeChecked st now pairs pending := by
  obtain ⟨redirectUri, client, challenge, there, allowed, accepted, challenged, rfl⟩ :=
    authorizePending_passed passed
  refine ⟨there, allowed, challenged, ?_, rfl⟩
  rw [clientState_ok accepted]
  cases client <;> simp

/-- The values sent under a name that is not dropped. -/
theorem valuesOf_authorizePairs {proxyState name : String} (other : name ≠ "resource") :
    valuesOf (st.authorizePairs proxyState pairs) name =
      (valuesOf pairs name).map (st.authorizeValue proxyState name) ++
        (if pairs.any (·.1 = "state") = false ∧ "state" = name then [proxyState] else []) ++
        if pairs.any (·.1 = "scope") = false ∧ "scope" = name then [rewriteScope "" st.apiScope]
        else [] := by
  unfold authorizePairs
  dsimp only
  rw [valuesOf_append, valuesOf_append, valuesOf_append, valuesOf_added, valuesOf_added,
    valuesOf_unadded _ other.symm, valuesOf_keepResource _ _ _ other, valuesOf_map, List.append_nil]

/-- The state goes out exactly once. -/
theorem authorizePairs_state (proxyState : String)
    (one : (valuesOf pairs "state").length ≤ 1) :
    exactlyOne (st.authorizePairs proxyState pairs) "state" = some proxyState := by
  have noScope : ¬(pairs.any (·.1 = "scope") = false ∧ "scope" = "state") := by
    rintro ⟨-, same⟩
    exact absurd same (by decide)
  rw [exactlyOne_eq_some, valuesOf_authorizePairs (by decide), if_neg noScope, List.append_nil]
  simp only [any_eq_false_iff, and_true]
  by_cases absent : valuesOf pairs "state" = []
  · rw [if_pos absent, absent]
    rfl
  · obtain ⟨value, only⟩ : ∃ value, valuesOf pairs "state" = [value] := by
      rw [← List.length_eq_one_iff]
      have := List.length_pos_of_ne_nil absent
      omega
    rw [if_neg absent, only]
    rfl

theorem callbackPending_ok {pending : Pending} {code : PendingCode}
    (passed : st.callbackPending now later pairs = .ok (pending, some code)) :
    CallbackChecked st now later pairs code := by
  unfold callbackPending at passed
  split at passed
  · cases passed
  next state stated =>
    split at passed
    · cases passed
    next kept decoded =>
      split at passed
      · cases passed
      · split at passed
        · cases passed
        next upstream there =>
          split at passed
          · cases passed
          · obtain ⟨rfl, made⟩ := Prod.mk.inj (Except.ok.inj passed)
            obtain rfl := Option.some.inj made
            exact ⟨⟨state, kept, stated, decoded, rfl, rfl⟩, rfl, there⟩

theorem redeem_ok {upstreamCode : String} (passed : st.redeem now pairs = .ok upstreamCode) :
    Redeemed st now pairs upstreamCode := by
  unfold redeem at passed
  split at passed
  · cases passed
  next redirectUri there =>
    split at passed
    · cases passed
    · split at passed
      · cases passed
      next code coded =>
        split at passed
        · cases passed
        next verifier proven =>
          split at passed
          · cases passed
          · split at passed
            · cases passed
            next pending decoded =>
              split at passed
              · cases passed
              next bound =>
                obtain rfl := Except.ok.inj passed
                obtain ⟨uri, challenge⟩ := not_or.1 bound
                exact ⟨redirectUri, code, verifier, pending, there, coded, proven, decoded, rfl,
                  not_not.1 uri, (not_not.1 challenge).symm⟩

theorem valuesOf_tokenPairs {upstreamCode : Option String} {name : String}
    (resource : name ≠ "resource") (scope : name ≠ "scope") :
    valuesOf (st.tokenPairs upstreamCode pairs) name =
      (valuesOf pairs name).map (st.tokenValue upstreamCode name) := by
  unfold tokenPairs
  dsimp only
  rw [valuesOf_append, valuesOf_keepResource _ _ _ resource, valuesOf_map]
  have none_ : ∀ added : Pairs, (∀ pair ∈ added, pair.1 = "scope") → valuesOf added name = [] := by
    intro added all
    rw [valuesOf, List.map_eq_nil_iff, List.filter_eq_nil_iff]
    intro pair inside named
    exact scope ((of_decide_eq_true named).symm.trans (all pair inside))
  have pushed : ∀ pair ∈ (if pairs.any (·.1 = "scope") ∨ upstreamCode.isSome then []
      else [("scope", rewriteScope "" st.apiScope)] : Pairs), pair.1 = "scope" := by
    intro pair inside
    split at inside
    · cases inside
    · rw [List.mem_singleton.1 inside]
  rw [none_ _ pushed, List.append_nil]

/-- A form with the grant type of an authorization code was redeemed, and carries the upstream code
and the client's verifier. -/
theorem tokenForm_ok {body form : String} (passed : st.tokenForm now body = .ok form)
    (grant : exactlyOne (parse form) "grant_type" = some "authorization_code") :
    ∃ upstreamCode, Redeemed st now (parse body) upstreamCode ∧
      exactlyOne (parse form) "code" = some upstreamCode ∧
      exactlyOne (parse form) "code_verifier" = exactlyOne (parse body) "code_verifier" := by
  unfold tokenForm at passed
  dsimp only at passed
  split at passed
  · cases passed
  split at passed
  · cases passed
  split at passed
  · cases passed
  next grantType given =>
    split at passed
    · split at passed
      · cases passed
      next upstreamCode redeemed =>
        obtain rfl := Except.ok.inj passed
        obtain ⟨redirectUri, code, verifier, pending, there, coded, proven, rest⟩ :=
          redeem_ok redeemed
        refine ⟨upstreamCode, redeem_ok redeemed, ?_, ?_⟩
        · rw [parse_serialize, exactlyOne_eq_some, valuesOf_tokenPairs (by decide) (by decide),
            exactlyOne_eq_some.1 coded]
          rfl
        · rw [parse_serialize, proven, exactlyOne_eq_some,
            valuesOf_tokenPairs (by decide) (by decide), exactlyOne_eq_some.1 proven]
          rfl
    · split at passed
      next other refresh =>
        obtain rfl := Except.ok.inj passed
        rw [parse_serialize, exactlyOne_eq_some, valuesOf_tokenPairs (by decide) (by decide),
          exactlyOne_eq_some.1 given] at grant
        exact absurd (List.singleton_inj.1 grant) other
      · cases passed

end Handlers

/-! ## Tracing a code back -/

/-- An authorize request was answered with a redirect that carries `state`; it had this redirect
URI, which is allowed, and the challenge of this verifier. -/
structure Sent (issued : Nat) (asked : Option String) (redirectUri verifier state : String) :
    Prop where
  answered : ∃ pairs, st.authorize issued asked =
    .redirect (st.entraAuthorize ++ "?" ++ serialize pairs) ∧ exactlyOne pairs "state" = some state
  allowed : isAllowedRedirectUri st.parseUrl st.allowedRedirectUris redirectUri = true
  requested : exactlyOne (parse (asked.getD "")) "redirect_uri" = some redirectUri
  challenge : exactlyOne (parse (asked.getD "")) "code_challenge" =
    some (Base64.encode (st.sha256 (utf8 verifier)))

/-- `state` came back with `code`, less than 600 s after it was issued. -/
structure Returned (issued back : Nat) (returned : Option String) (state code : String) :
    Prop where
  state : exactlyOne (parse (returned.getD "")) "state" = some state
  code : exactlyOne (parse (returned.getD "")) "code" = some code
  skew : issued ≤ back + 60
  inTime : back < issued + 600

/-- The code came through a callback whose state an earlier authorize request had sent, and it is
redeemed less than 600 s after that callback. -/
def Traced (past : List Request) (now : Nat) (code redirectUri verifier : String) : Prop :=
  ∃ (newer older : List Request) (issued back reissued : Nat) (asked returned : Option String)
    (state : String),
    past = newer ++ .callback back reissued returned :: older ∧
      Request.authorize issued asked ∈ older ∧
      Sent st issued asked redirectUri verifier state ∧
      Returned issued back returned state code ∧
      reissued ≤ now + 60 ∧ now < reissued + 600

section Tracing

variable {st}

theorem Unforgeable.older {newer older : List Request} (unforged : Unforgeable st (newer ++ older)) :
    Unforgeable st older := by
  induction newer with
  | nil => exact unforged
  | cons request newer ih => exact ih unforged.2

theorem presents_state {back later : Nat} {returned : Option String} {payload : Bytes}
    (there : exactlyOne (parse (returned.getD "")) "state" =
      some (st.encodeBlob stateDomain payload)) :
    presents (.callback back later returned) =
      some (stateDomain ++ payload, st.mac (stateDomain ++ payload)) := by
  simp only [presents, there, Option.bind_some, blobParts_encodeBlob, Option.map_some]

theorem presents_code {now : Nat} {body : String} {payload : Bytes}
    (there : exactlyOne (parse body) "code" = some (st.encodeBlob codeDomain payload)) :
    presents (.token now body) = some (codeDomain ++ payload, st.mac (codeDomain ++ payload)) := by
  simp only [presents, there, Option.bind_some, blobParts_encodeBlob, Option.map_some]

/-- An accepted state was made by an earlier authorize request. -/
theorem state_sent {back later : Nat} {returned : Option String} {older : List Request}
    {state : String} {pending : Pending}
    (unforged : Unforgeable st (.callback back later returned :: older))
    (there : exactlyOne (parse (returned.getD "")) "state" = some state)
    (accepted : st.decodeState back state = some pending) :
    state = st.encodeState pending ∧ ∃ issued asked, Request.authorize issued asked ∈ older ∧
      st.authorizePending issued (parse (asked.getD "")) = .ok pending := by
  obtain ⟨payload, rfl, read, -⟩ := decodeBlob_eq_some accepted
  obtain ⟨request, inside, signed⟩ := unforged.1 _ _ (presents_state there) rfl
  cases request with
  | authorize issued asked =>
      simp only [signs] at signed
      split at signed
      next made passed =>
        obtain rfl := List.append_cancel_left (Option.some.inj signed)
        obtain rfl := Option.some.inj ((st.pending_round_trip made).symm.trans read)
        exact ⟨rfl, issued, asked, inside, passed⟩
      · cases signed
  | callback back' later' returned' =>
      simp only [signs] at signed
      split at signed
      · exact absurd (Option.some.inj signed).symm (state_ne_code _ _)
      · cases signed
  | token now body => cases signed
  | link tenant id expiresAt => exact absurd (Option.some.inj signed) (link_ne_state _ _ _ _)

/-- An accepted code was made by an earlier callback. -/
theorem code_returned {now : Nat} {body code : String} {past : List Request}
    {pending : PendingCode} (unforged : Unforgeable st (.token now body :: past))
    (there : exactlyOne (parse body) "code" = some code)
    (accepted : st.decodeCode now code = some pending) :
    code = st.encodeCode pending ∧ ∃ back later returned kept,
      Request.callback back later returned ∈ past ∧
        st.callbackPending back later (parse (returned.getD "")) = .ok (kept, some pending) := by
  obtain ⟨payload, rfl, read, -⟩ := decodeBlob_eq_some accepted
  obtain ⟨request, inside, signed⟩ := unforged.1 _ _ (presents_code there) rfl
  cases request with
  | authorize issued asked =>
      simp only [signs] at signed
      split at signed
      · exact absurd (Option.some.inj signed) (state_ne_code _ _)
      · cases signed
  | callback back later returned =>
      simp only [signs] at signed
      split at signed
      next kept made passed =>
        obtain rfl := List.append_cancel_left (Option.some.inj signed)
        obtain rfl := Option.some.inj ((st.pendingCode_round_trip made).symm.trans read)
        exact ⟨rfl, back, later, returned, kept, inside, passed⟩
      · cases signed
  | token now body => cases signed
  | link tenant id expiresAt => exact absurd (Option.some.inj signed) (link_ne_code _ _ _ _)

/-- A redeemed code is traced back. -/
theorem traced {now : Nat} {body upstreamCode redirectUri verifier : String} {past : List Request}
    (unforged : Unforgeable st (.token now body :: past))
    (redeemed : Redeemed st now (parse body) upstreamCode)
    (uri : exactlyOne (parse body) "redirect_uri" = some redirectUri)
    (proof : exactlyOne (parse body) "code_verifier" = some verifier) :
    Traced st past now upstreamCode redirectUri verifier := by
  have ⟨uri', code, verifier', pending, hasUri, hasCode, hasProof, accepted, same, sameUri', bound⟩ :=
    redeemed
  subst same sameUri'
  obtain rfl := Option.some.inj (uri.symm.trans hasUri)
  obtain rfl := Option.some.inj (proof.symm.trans hasProof)
  obtain ⟨-, -, -, notEarly, inTime⟩ := decodeBlob_eq_some accepted
  obtain ⟨-, back, later, returned, kept, inside, passed⟩ := code_returned unforged hasCode accepted
  obtain ⟨newer, older, rfl⟩ := List.append_of_mem inside
  have checked := callbackPending_ok passed
  obtain ⟨state, pended, hasState, decoded, sameUri, sameChallenge⟩ := checked.returned
  have before : Unforgeable st (.callback back later returned :: older) :=
    (unforged.2 : Unforgeable st (newer ++ _)).older
  obtain ⟨made, issued, asked, earlier, authorized⟩ := state_sent before hasState decoded
  obtain ⟨-, -, -, skew, recent⟩ := decodeBlob_eq_some decoded
  have asker := authorizePending_ok authorized
  rw [checked.issuedAt] at notEarly inTime
  rw [asker.issuedAt] at skew recent
  refine ⟨newer, older, issued, back, later, asked, returned, state, rfl, earlier, ?_,
    ⟨hasState, checked.upstream, skew, recent⟩, notEarly, inTime⟩
  refine ⟨⟨st.authorizePairs state (parse (asked.getD "")), ?_, authorizePairs_state _ asker.state⟩,
    ?_, ?_, ?_⟩
  · rw [made]
    unfold authorize
    dsimp only
    rw [authorized]
  · rw [sameUri]
    exact asker.allowed
  · rw [sameUri]
    exact asker.redirectUri
  · rw [← bound, sameChallenge]
    exact asker.challenge

end Tracing

/-- Whatever requests came before, in whatever order: a forwarded authorization code is bound to
the authorize request it goes back to, and no state is accepted as a code nor a code as a state. -/
theorem code_bound {request : Request} {past : List Request}
    (unforged : Unforgeable st (request :: past)) :
    (∀ now body form, request = .token now body → st.tokenForm now body = .ok form →
      exactlyOne (parse form) "grant_type" = some "authorization_code" →
      ∃ code redirectUri verifier, exactlyOne (parse form) "code" = some code ∧
        exactlyOne (parse body) "redirect_uri" = some redirectUri ∧
        exactlyOne (parse form) "code_verifier" = some verifier ∧
        Traced st past now code redirectUri verifier) ∧
    (∀ now body pending, request = .token now body →
      exactlyOne (parse body) "code" = some (st.encodeState pending) →
      st.decodeCode now (st.encodeState pending) = none) ∧
    ∀ now later query pending, request = .callback now later query →
      exactlyOne (parse (query.getD "")) "state" = some (st.encodeCode pending) →
      st.decodeState now (st.encodeCode pending) = none := by
  refine ⟨?_, ?_, ?_⟩
  · rintro now body form rfl passed grant
    obtain ⟨code, redeemed, carried, same⟩ := tokenForm_ok passed grant
    have ⟨redirectUri, _, verifier, _, uri, _, proof, _⟩ := redeemed
    exact ⟨code, redirectUri, verifier, carried, uri, same.trans proof,
      traced unforged redeemed uri proof⟩
  · rintro now body pending rfl there
    by_contra accepted
    obtain ⟨code, accepted⟩ := Option.ne_none_iff_exists'.1 accepted
    exact encodeState_ne_encodeCode st pending code (code_returned unforged there accepted).1
  · rintro now later query pending rfl there
    by_contra accepted
    obtain ⟨state, accepted⟩ := Option.ne_none_iff_exists'.1 accepted
    exact encodeState_ne_encodeCode st state pending (state_sent unforged there accepted).1.symm

/-! ## Requests that pass -/

section Passing

variable {st} {now later : Nat} {pairs : Pairs}

theorem authorize_signs {redirectUri challenge : String}
    (client : exactlyOne pairs "client_id" = some st.clientId)
    (response : exactlyOne pairs "response_type" = some "code")
    (uri : exactlyOne pairs "redirect_uri" = some redirectUri)
    (allowed : isAllowedRedirectUri st.parseUrl st.allowedRedirectUris redirectUri = true)
    (stateless : clientState pairs = .ok none)
    (challenged : exactlyOne pairs "code_challenge" = some challenge)
    (valid : validCodeChallenge challenge = true)
    (method : exactlyOne pairs "code_challenge_method" = some "S256") :
    signs st (.authorize now (some (serialize pairs))) = some (stateDomain ++ Pending.toVec {
      clientRedirectUri := redirectUri
      clientState := none
      codeChallenge := challenge
      issuedAt := now }) := by
  simp [signs, parse_serialize, OAuthProxyState.authorizePending, client, response, uri, allowed,
    stateless, challenged, valid, method]

theorem callback_signs {state code : String} {pending : Pending}
    (returned : exactlyOne pairs "state" = some state)
    (decoded : st.decodeState now state = some pending)
    (known : (st.parseUrl pending.clientRedirectUri).isNone = false)
    (coded : exactlyOne pairs "code" = some code)
    (short : code.utf8ByteSize ≤ maxUpstreamCodeBytes) :
    signs st (.callback now later (some (serialize pairs))) = some (codeDomain ++ PendingCode.toVec {
      upstreamCode := code
      clientRedirectUri := pending.clientRedirectUri
      codeChallenge := pending.codeChallenge
      issuedAt := later }) := by
  simp [signs, parse_serialize, OAuthProxyState.callbackPending, returned, decoded, known, coded,
    Nat.not_lt.2 short]

theorem redeem_passes {redirectUri code verifier : String} {pending : PendingCode}
    (uri : exactlyOne pairs "redirect_uri" = some redirectUri)
    (allowed : isAllowedRedirectUri st.parseUrl st.allowedRedirectUris redirectUri = true)
    (coded : exactlyOne pairs "code" = some code)
    (proof : exactlyOne pairs "code_verifier" = some verifier)
    (valid : validCodeVerifier verifier = true)
    (decoded : st.decodeCode now code = some pending)
    (sameUri : pending.clientRedirectUri = redirectUri)
    (bound : challengeFor st.sha256 verifier = pending.codeChallenge) :
    st.redeem now pairs = .ok pending.upstreamCode := by
  simp [OAuthProxyState.redeem, uri, allowed, coded, proof, valid, decoded, sameUri, bound]

theorem tokenForm_passes {upstreamCode : String}
    (client : exactlyOne pairs "client_id" = some st.clientId)
    (grant : exactlyOne pairs "grant_type" = some "authorization_code")
    (redeemed : st.redeem now pairs = .ok upstreamCode) :
    st.tokenForm now (serialize pairs) = .ok (serialize (st.tokenPairs (some upstreamCode) pairs)) := by
  simp [OAuthProxyState.tokenForm, parse_serialize, client, grant, redeemed]

end Passing

/-! ## One sign-in -/

def Pending.ofFields (fields : Fields) : Option Pending := do
  let clientRedirectUri ← Store.text fields "client_redirect_uri"
  let clientState ← Store.optionalText fields "client_state"
  let codeChallenge ← Store.text fields "code_challenge"
  let issuedAt ← Store.number fields "issued_at"
  return { clientRedirectUri, clientState, codeChallenge, issuedAt }

def PendingCode.ofFields (fields : Fields) : Option PendingCode := do
  let upstreamCode ← Store.text fields "upstream_code"
  let clientRedirectUri ← Store.text fields "client_redirect_uri"
  let codeChallenge ← Store.text fields "code_challenge"
  let issuedAt ← Store.number fields "issued_at"
  return { upstreamCode, clientRedirectUri, codeChallenge, issuedAt }

def sampleVerifier : String := "test-verifier-abcdefghijklmnopqrstuvwxyz-0123456789"

def sampleUri : String := "https://claude.ai/api/mcp/auth_callback"

def samplePending : Pending where
  clientRedirectUri := sampleUri
  clientState := none
  codeChallenge := "QFVFIYowA-CaLwYQKnkBmBcuiBpr_RSxgOKjKtT9nlc"
  issuedAt := 1000

def sampleCode : PendingCode where
  upstreamCode := "upstream-code"
  clientRedirectUri := sampleUri
  codeChallenge := samplePending.codeChallenge
  issuedAt := 1010

/-- The crates, at the values one sign-in asks for. -/
def sampleCrates : Crates where
  hmac := Auth.hmacAt
    (stateDomain ++ samplePending.toVec, [87, 35, 175, 246, 79, 2, 86, 35, 204, 237, 51, 248, 92, 154,
      179, 196, 187, 8, 13, 193, 207, 4, 118, 147, 167, 194, 17, 112, 4, 184, 13, 11])
    (codeDomain ++ sampleCode.toVec, [119, 47, 178, 68, 136, 3, 196, 64, 183, 161, 192, 110, 145, 141,
      25, 231, 9, 113, 182, 32, 119, 28, 23, 81, 251, 3, 89, 245, 104, 2, 227, 213])
    ⟨rfl, rfl⟩
  sha256 text :=
    if text = utf8 sampleVerifier then
      [64, 85, 69, 33, 138, 48, 3, 224, 154, 47, 6, 16, 42, 121, 1, 152, 23, 46, 136, 26, 107, 253, 20,
        177, 128, 226, 163, 42, 212, 253, 158, 87]
    else List.replicate 32 0
  parseUrl text :=
    if text = sampleUri then
      some {
        scheme := "https"
        hostStr := some "claude.ai"
        port := none
        path := "/api/mcp/auth_callback"
        query := none
        fragment := none
        username := ""
        password := none }
    else none
  appendPairs url pairs := url ++ "?" ++ serialize pairs
  pendingFrom bytes := (Json.fromBytes bytes).bind Pending.ofFields
  pendingCodeFrom bytes := (Json.fromBytes bytes).bind PendingCode.ofFields
  pending_round_trip pending := by
    obtain ⟨uri, state, challenge, issuedAt⟩ := pending
    rw [Pending.toVec, fromBytes_toBytes]
    cases state <;>
      simp [Pending.ofFields, Store.text, Store.number, Store.optionalText, List.lookup_cons]
  pendingCode_round_trip pending := by
    rw [PendingCode.toVec, fromBytes_toBytes]
    simp [PendingCode.ofFields, Store.text, Store.number, List.lookup_cons]

def sampleState : OAuthProxyState where
  toCrates := sampleCrates
  entraAuthorize := "https://login.microsoftonline.com/abc/oauth2/v2.0/authorize"
  entraToken := "https://login.microsoftonline.com/abc/oauth2/v2.0/token"
  callbackUrl := "https://typst-mcp.example.test/oauth/callback"
  mcpResource := "https://typst-mcp.example.test/mcp"
  apiScope := "api://typst-mcp/render"
  clientId := "test-client"
  allowedRedirectUris := [sampleUri]
  stateKey := utf8 "test signing key with at least thirty two bytes"

/-- The same, with the HMAC of its key at other messages. -/
def sampleAt (hmac : Auth.Hmac) : OAuthProxyState := { sampleState with hmac }

def sampleAsked : Pairs :=
  [("response_type", "code"), ("client_id", "test-client"), ("redirect_uri", sampleUri),
    ("code_challenge", samplePending.codeChallenge), ("code_challenge_method", "S256")]

def sampleReturned : Pairs :=
  [("code", "upstream-code"), ("state", sampleState.encodeState samplePending)]

def samplePresented : Pairs :=
  [("grant_type", "authorization_code"), ("client_id", "test-client"), ("redirect_uri", sampleUri),
    ("code", sampleState.encodeCode sampleCode), ("code_verifier", sampleVerifier)]

/-- The requests before the code is redeemed. -/
def samplePast : List Request :=
  [.callback 1010 1010 (some (serialize sampleReturned)),
    .authorize 1000 (some (serialize sampleAsked))]

theorem sample_authorize : signs sampleState (.authorize 1000 (some (serialize sampleAsked))) =
    some (stateDomain ++ samplePending.toVec) := by
  apply authorize_signs
  · simp [sampleAsked, exactlyOne, sampleState]
  · simp [sampleAsked, exactlyOne]
  · simp [sampleAsked, exactlyOne]
  · decide +kernel
  · simp [sampleAsked, OAuthProxyState.clientState]
  · simp [sampleAsked, exactlyOne, samplePending]
  · decide +kernel
  · simp [sampleAsked, exactlyOne]

theorem sample_callback : signs sampleState (.callback 1010 1010 (some (serialize sampleReturned))) =
    some (codeDomain ++ sampleCode.toVec) := by
  have decoded : sampleState.decodeState 1010 (sampleState.encodeState samplePending) =
      some samplePending :=
    decodeBlob_encodeBlob (sampleState.pending_round_trip samplePending) (by decide) (by decide)
  apply callback_signs _ decoded
  · decide +kernel
  · simp [sampleReturned, exactlyOne]
  · decide +kernel
  · simp [sampleReturned, exactlyOne]

/-- Both blobs of the sign-in were signed by the request before. -/
theorem sample_unforgeable :
    Unforgeable sampleState (.token 1020 (serialize samplePresented) :: samplePast) := by
  have state : exactlyOne (parse ((some (serialize sampleReturned)).getD "")) "state" =
      some (sampleState.encodeBlob stateDomain samplePending.toVec) := by
    rw [Option.getD_some, parse_serialize]
    simp [sampleReturned, exactlyOne, encodeState]
  have code : exactlyOne (parse (serialize samplePresented)) "code" =
      some (sampleState.encodeBlob codeDomain sampleCode.toVec) := by
    rw [parse_serialize]
    simp [samplePresented, exactlyOne, encodeCode]
  refine ⟨?_, ?_, ?_, trivial⟩
  · intro message tag presented _
    rw [presents_code code] at presented
    obtain ⟨rfl, -⟩ := Prod.mk.inj (Option.some.inj presented)
    exact ⟨_, List.mem_cons_self, sample_callback⟩
  · intro message tag presented _
    rw [presents_state state] at presented
    obtain ⟨rfl, -⟩ := Prod.mk.inj (Option.some.inj presented)
    exact ⟨_, List.mem_cons_self, sample_authorize⟩
  · intro message tag nothing
    cases nothing

theorem sample_verifier : exactlyOne samplePresented "code_verifier" = some sampleVerifier := by
  simp [samplePresented, exactlyOne]

theorem sample_redeem : sampleState.redeem 1020 samplePresented = .ok "upstream-code" := by
  have decoded : sampleState.decodeCode 1020 (sampleState.encodeCode sampleCode) = some sampleCode :=
    decodeBlob_encodeBlob (sampleState.pendingCode_round_trip sampleCode) (by decide) (by decide)
  have allowed : isAllowedRedirectUri sampleState.parseUrl sampleState.allowedRedirectUris sampleUri =
      true := by
    decide +kernel
  have bound : challengeFor sampleState.sha256 sampleVerifier = sampleCode.codeChallenge := by
    decide +kernel
  refine redeem_passes ?_ allowed ?_ sample_verifier (by decide +kernel) decoded rfl bound
  · simp [samplePresented, exactlyOne]
  · simp [samplePresented, exactlyOne]

theorem sample_form : sampleState.tokenForm 1020 (serialize samplePresented) =
    .ok (serialize (sampleState.tokenPairs (some "upstream-code") samplePresented)) := by
  apply tokenForm_passes _ _ sample_redeem
  · simp [samplePresented, exactlyOne, sampleState]
  · simp [samplePresented, exactlyOne]

theorem code_bound_sign_in :
    Traced sampleState samplePast 1020 "upstream-code" sampleUri sampleVerifier := by
  have grant : exactlyOne (sampleState.tokenPairs (some "upstream-code") samplePresented) "grant_type" =
      some "authorization_code" := by
    rw [exactlyOne_eq_some, valuesOf_tokenPairs (by decide) (by decide)]
    simp [samplePresented, valuesOf, OAuthProxyState.tokenValue]
  obtain ⟨code, redirectUri, verifier, coded, uri, proof, traced⟩ :=
    (code_bound sampleState sample_unforgeable).1 1020 (serialize samplePresented) _ rfl sample_form
      (by rw [parse_serialize, grant])
  rw [parse_serialize, exactlyOne_eq_some, valuesOf_tokenPairs (by decide) (by decide)] at coded proof
  rw [parse_serialize] at uri
  have sameCode : code = "upstream-code" := by
    simpa [samplePresented, valuesOf, OAuthProxyState.tokenValue] using coded.symm
  have sameUri : redirectUri = sampleUri := by
    simpa [samplePresented, exactlyOne] using uri.symm
  have sameVerifier : verifier = sampleVerifier := by
    simpa [samplePresented, valuesOf, OAuthProxyState.tokenValue] using proof.symm
  rwa [sameCode, sameUri, sameVerifier] at traced

end TypstMcp.OAuth
