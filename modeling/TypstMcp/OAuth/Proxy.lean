/-
OAuth.Proxy -- the authorization server we broker to the provider

Three handlers without a memory of their own: what `authorize` learns from a client
travels to `callback` inside a signed state, and from there to `token` inside a signed
code.  `Crates` stands for the crates behind them.
-/
import TypstMcp.Auth.Token
import TypstMcp.OAuth.Redirect
import TypstMcp.Store.Basic
import TypstMcp.Theory.Base64
import TypstMcp.Theory.FormUrl

namespace TypstMcp.OAuth

open TypstMcp.Theory TypstMcp.Theory.Json TypstMcp.Theory.FormUrl
open TypstMcp.Auth (Hmac splitOnce splitWhitespace)
open TypstMcp.Store (saturatingAdd)

set_option autoImplicit false

/-! ## What is signed -/

def pendingTtl : Nat := 600

def maxClientStateBytes : Nat := 4096

def maxUpstreamCodeBytes : Nat := 8192

structure Pending where
  clientRedirectUri : String
  clientState : Option String
  codeChallenge : String
  issuedAt : Nat
  deriving DecidableEq, Repr

structure PendingCode where
  upstreamCode : String
  clientRedirectUri : String
  codeChallenge : String
  issuedAt : Nat
  deriving DecidableEq, Repr

/-- `serde_json::to_vec`: the fields in declaration order, an absent state as `null`. -/
def Pending.toVec (pending : Pending) : Bytes :=
  Json.toBytes [("client_redirect_uri", .str pending.clientRedirectUri),
    ("client_state", pending.clientState.elim .null .str),
    ("code_challenge", .str pending.codeChallenge), ("issued_at", .num pending.issuedAt)]

def PendingCode.toVec (pending : PendingCode) : Bytes :=
  Json.toBytes [("upstream_code", .str pending.upstreamCode),
    ("client_redirect_uri", .str pending.clientRedirectUri),
    ("code_challenge", .str pending.codeChallenge), ("issued_at", .num pending.issuedAt)]

/-- The crates the broker rests on: HMAC and SHA-256, URLs, and serde reading back what it wrote. -/
structure Crates where
  hmac : Hmac
  sha256 : Bytes → Bytes
  parseUrl : String → Option Url
  /-- A URL's text with pairs appended to its query. -/
  appendPairs : String → Pairs → String
  pendingFrom : Bytes → Option Pending
  pendingCodeFrom : Bytes → Option PendingCode
  pending_round_trip : ∀ pending, pendingFrom pending.toVec = some pending
  pendingCode_round_trip : ∀ pending, pendingCodeFrom pending.toVec = some pending

structure OAuthProxyState extends Crates where
  entraAuthorize : String
  entraToken : String
  callbackUrl : String
  mcpResource : String
  apiScope : String
  clientId : String
  allowedRedirectUris : List String
  stateKey : Bytes

namespace OAuthProxyState

variable (st : OAuthProxyState)

def mac (message : Bytes) : Bytes := st.hmac.mac st.stateKey message

/-- A payload and its tag under a domain prefix, both in base64. -/
def encodeBlob (start payload : Bytes) : String :=
  Base64.encode payload ++ "." ++ Base64.encode (st.mac (start ++ payload))

/-- The payload and the tag a blob carries. -/
def blobParts (text : String) : Option (Bytes × Bytes) :=
  (splitOnce '.' text).bind fun (payload, signature) =>
    (Base64.decode payload).bind fun payload =>
      (Base64.decode signature).map fun signature => (payload, signature)

/-- A blob is accepted with the right tag, a payload that reads, and a time of issue at most 60 s
ahead and less than `pendingTtl` back. -/
def decodeBlob {α : Type} (start : Bytes) (fromSlice : Bytes → Option α) (issuedAt : α → Nat)
    (now : Nat) (text : String) : Option α :=
  match blobParts text with
  | none => none
  | some (payload, signature) =>
      if st.mac (start ++ payload) ≠ signature then none
      else match fromSlice payload with
        | none => none
        | some pending =>
            if issuedAt pending > saturatingAdd now 60 ∨ now - issuedAt pending ≥ pendingTtl then none
            else some pending

def stateDomain : Bytes := utf8 "oauth-state\x00"

def codeDomain : Bytes := utf8 "oauth-code\x00"

def encodeState (pending : Pending) : String := st.encodeBlob stateDomain pending.toVec

def decodeState (now : Nat) (state : String) : Option Pending :=
  st.decodeBlob stateDomain st.pendingFrom Pending.issuedAt now state

def encodeCode (pending : PendingCode) : String := st.encodeBlob codeDomain pending.toVec

def decodeCode (now : Nat) (code : String) : Option PendingCode :=
  st.decodeBlob codeDomain st.pendingCodeFrom PendingCode.issuedAt now code

end OAuthProxyState

/-! ## Parameters -/

def exactlyOne (pairs : Pairs) (name : String) : Option String :=
  match pairs.filter (·.1 = name) with
  | [(_, value)] => some value
  | _ => none

/-- Letters, digits and `extra`, in ASCII. -/
def charsIn (extra : List Char) (value : String) : Bool :=
  value.toList.all fun c => c.isAlphanum || c ∈ extra

def validCodeChallenge (value : String) : Bool :=
  value.utf8ByteSize = 43 && charsIn ['-', '_'] value

def validCodeVerifier (value : String) : Bool :=
  43 ≤ value.utf8ByteSize && value.utf8ByteSize ≤ 128 && charsIn ['-', '.', '_', '~'] value

def challengeFor (sha256 : Bytes → Bytes) (verifier : String) : String :=
  Base64.encode (sha256 (utf8 verifier))

/-- Qualify scopes: the bare name becomes the API scope, and `openid` and `offline_access` are
always asked for. -/
def rewriteScope (raw apiScope : String) : String :=
  let bare := (apiScope.toList.splitOn '/').getLast?
  let parts := (splitWhitespace raw).map fun s =>
    if s = "render" ∨ bare = some s.toList then apiScope else s
  let parts := if apiScope ∈ parts then parts else parts ++ [apiScope]
  let parts := if "openid" ∈ parts then parts else parts ++ ["openid"]
  let parts := if "offline_access" ∈ parts then parts else parts ++ ["offline_access"]
  " ".intercalate parts

/-- `trim_end_matches`: the suffix goes as often as it is there. -/
def trimEndMatches (last : List Char) : Nat → List Char → List Char
  | 0, text => text
  | fuel + 1, text =>
      if last.isSuffixOf text then trimEndMatches last fuel (text.take (text.length - last.length))
      else text

def trimEnd (last text : String) : String :=
  String.ofList (trimEndMatches last.toList text.toList.length text.toList)

/-- Keep the resource when it is our MCP URL or its origin. -/
def rewriteResource (raw mcpResource : String) : Option String :=
  let trimmed := trimEnd "/" raw
  let origin := trimEnd "/mcp" (trimEnd "/" mcpResource)
  if trimmed = trimEnd "/" mcpResource ∨ trimmed = origin then some mcpResource else none

/-! ## Answers -/

inductive Reply
  | refuse (status : Nat) (text : String)
  | redirect (location : String)
  /-- The provider's answer, passed on. -/
  | relay (status : Nat) (contentType : String) (body : Bytes)
  deriving DecidableEq, Repr

/-- The resource pairs a rewrite keeps: all of them, or none if one is a stranger's. -/
def keepResource (mcpResource : String) (given rewritten : Pairs) : Pairs :=
  if given.any fun (k, v) => k = "resource" && (rewriteResource v mcpResource).isNone then
    rewritten.filter (·.1 ≠ "resource")
  else rewritten

namespace OAuthProxyState

variable (st : OAuthProxyState)

/-! ## authorize -/

/-- The client's own state, if the parameters are not ambiguous about it. -/
def clientState (pairs : Pairs) : Except Reply (Option String) :=
  match (pairs.filter (·.1 = "state")).length with
  | 0 => .ok none
  | 1 => .ok (exactlyOne pairs "state")
  | _ => .error (.refuse 400 "duplicate state\n")

/-- The checks of `authorize`, and what it then signs. -/
def authorizePending (now : Nat) (pairs : Pairs) : Except Reply Pending :=
  match exactlyOne pairs "client_id" with
  | none => .error (.refuse 400 "missing or duplicate client_id\n")
  | some clientId =>
    if clientId ≠ st.clientId then .error (.refuse 400 "unregistered client_id\n")
    else if exactlyOne pairs "response_type" ≠ some "code" then
      .error (.refuse 400 "response_type must be code\n")
    else match exactlyOne pairs "redirect_uri" with
    | none => .error (.refuse 400 "missing redirect_uri\n")
    | some clientRedirectUri =>
      if isAllowedRedirectUri st.parseUrl st.allowedRedirectUris clientRedirectUri = false then
        .error (.refuse 400 "unregistered redirect_uri\n")
      else match clientState pairs with
      | .error reply => .error reply
      | .ok clientState =>
        if clientState.any fun state => maxClientStateBytes < state.utf8ByteSize then
          .error (.refuse 400 "state is too long\n")
        else match exactlyOne pairs "code_challenge" with
        | none => .error (.refuse 400 "missing or duplicate code_challenge\n")
        | some codeChallenge =>
          if validCodeChallenge codeChallenge = false ∨
              exactlyOne pairs "code_challenge_method" ≠ some "S256" then
            .error (.refuse 400 "code_challenge_method must be S256 with a valid challenge\n")
          else .ok { clientRedirectUri, clientState, codeChallenge, issuedAt := now }

def authorizeValue (proxyState k v : String) : String :=
  if k = "redirect_uri" then st.callbackUrl
  else if k = "state" then proxyState
  else if k = "scope" then rewriteScope v st.apiScope
  else if k = "resource" then (rewriteResource v st.mcpResource).getD v
  else v

/-- The parameters the provider is sent to with. -/
def authorizePairs (proxyState : String) (pairs : Pairs) : Pairs :=
  let rewritten := pairs.map fun p => (p.1, st.authorizeValue proxyState p.1 p.2)
  let sawState := pairs.any (·.1 = "state")
  let sawScope := pairs.any (·.1 = "scope")
  let sawResource := pairs.any fun (k, v) =>
    k = "resource" && (rewriteResource v st.mcpResource).isSome
  keepResource st.mcpResource pairs rewritten ++
    (if sawState then [] else [("state", proxyState)]) ++
    (if sawScope then [] else [("scope", rewriteScope "" st.apiScope)]) ++
    if sawResource then [] else [("resource", st.mcpResource)]

/-- HMAC takes a key of any length and the fields serialize, so signing cannot fail. -/
def authorize (now : Nat) (query : Option String) : Reply :=
  let pairs := parse (query.getD "")
  match st.authorizePending now pairs with
  | .error reply => reply
  | .ok pending =>
      .redirect (st.entraAuthorize ++ "?" ++
        serialize (st.authorizePairs (st.encodeState pending) pairs))

/-! ## callback -/

/-- The checks of `callback`: the state it accepts and the code it then signs, if one came. -/
def callbackPending (now later : Nat) (pairs : Pairs) :
    Except Reply (Pending × Option PendingCode) :=
  match exactlyOne pairs "state" with
  | none => .error (.refuse 400 "missing or duplicate state\n")
  | some state =>
    match st.decodeState now state with
    | none => .error (.refuse 400 "unknown or expired state\n")
    | some pending =>
      if (st.parseUrl pending.clientRedirectUri).isNone then
        .error (.refuse 400 "bad client redirect_uri\n")
      else match exactlyOne pairs "code" with
        | none => .ok (pending, none)
        | some code =>
            if maxUpstreamCodeBytes < code.utf8ByteSize then
              .error (.refuse 400 "authorization code is too long\n")
            else .ok (pending, some {
              upstreamCode := code
              clientRedirectUri := pending.clientRedirectUri
              codeChallenge := pending.codeChallenge
              issuedAt := later })

/-- A pair for a value that is there. -/
def pairOf (name : String) (value : Option String) : Pairs :=
  value.elim [] fun value => [(name, value)]

def callback (now later : Nat) (query : Option String) : Reply :=
  let pairs := parse (query.getD "")
  match st.callbackPending now later pairs with
  | .error reply => reply
  | .ok (pending, code) =>
      .redirect (st.appendPairs pending.clientRedirectUri
        (pairOf "code" (code.map st.encodeCode) ++ pairOf "error" (exactlyOne pairs "error") ++
          pairOf "error_description" (exactlyOne pairs "error_description") ++
          pairOf "state" pending.clientState))

/-! ## token -/

/-- What binds a code to the request that redeems it: the upstream code, for the redirect URI and
the verifier the code was issued for. -/
def redeem (now : Nat) (pairs : Pairs) : Except Reply String :=
  match exactlyOne pairs "redirect_uri" with
  | none => .error (.refuse 400 "missing or duplicate redirect_uri\n")
  | some redirectUri =>
    if isAllowedRedirectUri st.parseUrl st.allowedRedirectUris redirectUri = false then
      .error (.refuse 400 "unregistered redirect_uri\n")
    else match exactlyOne pairs "code" with
    | none => .error (.refuse 400 "missing or duplicate code\n")
    | some code =>
      match exactlyOne pairs "code_verifier" with
      | none => .error (.refuse 400 "missing or duplicate code_verifier\n")
      | some verifier =>
        if validCodeVerifier verifier = false then
          .error (.refuse 400 "invalid code_verifier\n")
        else match st.decodeCode now code with
        | none => .error (.refuse 400 "unknown or expired authorization code\n")
        | some pending =>
            if pending.clientRedirectUri ≠ redirectUri ∨
                challengeFor st.sha256 verifier ≠ pending.codeChallenge then
              .error (.refuse 400 "authorization code binding mismatch\n")
            else .ok pending.upstreamCode

def tokenValue (upstreamCode : Option String) (k v : String) : String :=
  if k = "redirect_uri" then st.callbackUrl
  else if k = "code" then upstreamCode.getD v
  else if k = "scope" then rewriteScope v st.apiScope
  else if k = "resource" then (rewriteResource v st.mcpResource).getD v
  else v

/-- The form for the provider; `upstreamCode` is there for an authorization code. -/
def tokenPairs (upstreamCode : Option String) (pairs : Pairs) : Pairs :=
  let rewritten := pairs.map fun p => (p.1, st.tokenValue upstreamCode p.1 p.2)
  keepResource st.mcpResource pairs rewritten ++
    if pairs.any (·.1 = "scope") ∨ upstreamCode.isSome then []
    else [("scope", rewriteScope "" st.apiScope)]

/-- What is posted to the token endpoint of the provider, if the request passes the checks. -/
def tokenForm (now : Nat) (body : String) : Except Reply String :=
  let pairs := parse body
  match exactlyOne pairs "client_id" with
  | none => .error (.refuse 400 "missing or duplicate client_id\n")
  | some clientId =>
    if clientId ≠ st.clientId then .error (.refuse 400 "unregistered client_id\n")
    else match exactlyOne pairs "grant_type" with
    | none => .error (.refuse 400 "missing or duplicate grant_type\n")
    | some grantType =>
      if grantType = "authorization_code" then
        match st.redeem now pairs with
        | .error reply => .error reply
        | .ok upstreamCode => .ok (serialize (st.tokenPairs (some upstreamCode) pairs))
      else if grantType = "refresh_token" then .ok (serialize (st.tokenPairs none pairs))
      else .error (.refuse 400 "unsupported grant_type\n")

/-- `upstream` is the provider: status, content type if readable, and body. -/
def token (upstream : String → String → Option (Nat × Option String × Bytes)) (now : Nat)
    (body : String) : Reply :=
  match st.tokenForm now body with
  | .error reply => reply
  | .ok form =>
      match upstream st.entraToken form with
      | some (status, contentType, bytes) =>
          .relay status (contentType.getD "application/json") bytes
      | none => .refuse 502 "token endpoint upstream error\n"

end OAuthProxyState

end TypstMcp.OAuth
