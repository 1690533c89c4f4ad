/-
OAuth.Onboarding -- from discovery to a token

A remote client starts from the resource's metadata: it reads what the authorization
server supports, registers, is sent to the provider through `authorize`, comes back
through `callback` and redeems its code.  `Asks`, `Returns` and `Presents` are what an
honest client and an honest provider send at each step; they know only what they were
told in the steps before.

* `listed_registers`: a deployment with a client id registers every URI it lists.
* `onboarding_completes`: no step of an honest sign-in is refused.
-/
import TypstMcp.Config.Source
import TypstMcp.OAuth.Forwarding
import TypstMcp.Render.Result
import TypstMcp.Template.Data

namespace TypstMcp.OAuth

open TypstMcp.Theory TypstMcp.Theory.Json TypstMcp.Theory.FormUrl
open TypstMcp.Auth (OidcConfig)
open TypstMcp.Config (Config Platform Source fromSource oauthRedirectUris checkRedirects)
open TypstMcp.Render (configUrl)
open TypstMcp.Store (saturatingAdd)
open TypstMcp.Template (Value)
open OAuthProxyState

set_option autoImplicit false

/-! ## Names of the provider's -/

/-- `api://typst-mcp` and `render` make `api://typst-mcp/render`; a qualified scope stays. -/
def qualifiedApiScope (audience scope : String) : String :=
  if "://".toList <:+: scope.toList ∨ audience.toList <+: scope.toList then scope
  else trimEnd "/" audience ++ "/" ++ scope

/-- The issuer without its version. -/
def entraTenantBase (issuer : String) : String := trimEnd "/v2.0" (trimEnd "/" issuer)

def entraJwksUri (issuer : String) : String := entraTenantBase issuer ++ "/discovery/v2.0/keys"

def entraAuthorizeUrl (issuer : String) : String :=
  entraTenantBase issuer ++ "/oauth2/v2.0/authorize"

def entraTokenUrl (issuer : String) : String := entraTenantBase issuer ++ "/oauth2/v2.0/token"

example : entraTokenUrl "https://login.microsoftonline.com/abc/v2.0/" =
    "https://login.microsoftonline.com/abc/oauth2/v2.0/token" := by decide +kernel

/-! ## Metadata -/

def scopesSupported (oidc : OidcConfig) : List String :=
  ["openid", "profile", "offline_access", oidc.scope]

/-- RFC 9728. -/
structure ProtectedResourceMetadata where
  resource : String
  authorizationServers : List String
  bearerMethodsSupported : List String
  scopesSupported : List String

/-- RFC 8414. -/
structure AuthorizationServerMetadata where
  issuer : String
  authorizationEndpoint : String
  tokenEndpoint : String
  jwksUri : String
  registrationEndpoint : Option String
  responseTypesSupported : List String
  grantTypesSupported : List String
  codeChallengeMethodsSupported : List String
  tokenEndpointAuthMethodsSupported : List String
  scopesSupported : List String
  responseModesSupported : List String
  subjectTypesSupported : List String
  idTokenSigningAlgValuesSupported : List String

variable {Addr : Type}

/-- We name ourselves as the authorization server. -/
def ProtectedResourceMetadata.fromConfig (config : Config Addr) (oidc : OidcConfig) :
    ProtectedResourceMetadata where
  resource := configUrl config.publicUrl "mcp"
  authorizationServers := [config.publicUrl]
  bearerMethodsSupported := ["header"]
  scopesSupported := OAuth.scopesSupported oidc

def AuthorizationServerMetadata.fromConfig (config : Config Addr) (oidc : OidcConfig) :
    AuthorizationServerMetadata where
  issuer := config.publicUrl
  authorizationEndpoint := config.publicUrl ++ "/authorize"
  tokenEndpoint := config.publicUrl ++ "/token"
  jwksUri := entraJwksUri oidc.issuer
  registrationEndpoint := config.dcrClientId.map fun _ => config.publicUrl ++ "/register"
  responseTypesSupported := ["code"]
  grantTypesSupported := ["authorization_code", "refresh_token"]
  codeChallengeMethodsSupported := ["S256"]
  tokenEndpointAuthMethodsSupported := ["none"]
  scopesSupported := OAuth.scopesSupported oidc
  responseModesSupported := ["query"]
  subjectTypesSupported := ["public"]
  idTokenSigningAlgValuesSupported := ["RS256"]

/-! ## Registration -/

/-- What a client is told it is. -/
structure ClientInformation where
  clientId : String
  tokenEndpointAuthMethod : String
  grantTypes : List String
  responseTypes : List String
  redirectUris : List String
  scope : String
  clientIdIssuedAt : Nat

inductive Registration
  | refuse (status : Nat) (text : String)
  | created (client : ClientInformation)

variable {F : Type}

/-- The strings among the redirect URIs of a body. -/
def requestedUris (body : Option (Value F)) : List String :=
  (((body.bind (Value.get "redirect_uris")).bind Value.asArray).map
    (List.filterMap Value.asStr)).getD []

/-- `register`; `now` is a count of seconds, an `i64`. -/
def register (parseUrl : String → Option Url) (config : Config Addr) (body : Option (Value F))
    (now : Nat) : Registration :=
  match config.dcrClientId with
  | none => .refuse 404 "dynamic client registration is not configured\n"
  | some clientId =>
      let redirectUris := requestedUris body
      if redirectUris.any fun uri =>
          isAllowedRedirectUri parseUrl config.oauthRedirectUris uri = false then
        .refuse 400 "unregistered redirect_uri\n"
      else .created {
        clientId
        tokenEndpointAuthMethod := "none"
        grantTypes := ["authorization_code", "refresh_token"]
        responseTypes := ["code"]
        redirectUris
        scope := (config.oidc.map fun oidc =>
          "openid profile offline_access " ++ qualifiedApiScope oidc.audience oidc.scope).getD
            "openid profile offline_access"
        clientIdIssuedAt := min now (2 ^ 63 - 1) }

/-! ## The broker of a deployment -/

structure OAuthClientConfig where
  clientId : String
  allowedRedirectUris : List String
  stateKey : Bytes

/-- `OAuthProxyState::new`. -/
def OAuthProxyState.new (crates : Crates) (issuer publicUrl mcpResource audience apiScope : String)
    (client : OAuthClientConfig) : OAuthProxyState where
  toCrates := crates
  entraAuthorize := entraAuthorizeUrl issuer
  entraToken := entraTokenUrl issuer
  callbackUrl := trimEnd "/" publicUrl ++ "/oauth/callback"
  mcpResource
  apiScope := qualifiedApiScope audience apiScope
  clientId := client.clientId
  allowedRedirectUris := client.allowedRedirectUris
  stateKey := client.stateKey

/-- What the router mounts the three handlers with. -/
def brokerOf (crates : Crates) (config : Config Addr) (oidc : OidcConfig) : OAuthProxyState :=
  .new crates oidc.issuer config.publicUrl (configUrl config.publicUrl "mcp") oidc.audience oidc.scope {
    clientId := config.dcrClientId.getD ""
    allowedRedirectUris := config.oauthRedirectUris
    stateKey := config.signingSecret }

/-! ## Honest parties -/

/-- What is sent by a client that was told this of the resource, of the server and of itself. -/
structure Asks (resource : ProtectedResourceMetadata) (server : AuthorizationServerMetadata)
    (client : ClientInformation) (uri challenge : String) (own : Option String) (asked : Pairs) :
    Prop where
  clientId : exactlyOne asked "client_id" = some client.clientId
  responseType : ∃ type ∈ server.responseTypesSupported, exactlyOne asked "response_type" = some type
  redirectUri : exactlyOne asked "redirect_uri" = some uri
  registered : uri ∈ client.redirectUris
  state : valuesOf asked "state" = own.toList
  short : ∀ text ∈ own, text.utf8ByteSize ≤ maxClientStateBytes
  codeChallenge : exactlyOne asked "code_challenge" = some challenge
  method : ∃ method ∈ server.codeChallengeMethodsSupported,
    exactlyOne asked "code_challenge_method" = some method
  ours : ∀ value ∈ valuesOf asked "resource", value = resource.resource

/-- What the provider sends back for what it was sent. -/
structure Returns (sent : Pairs) (upstreamCode : String) (returned : Pairs) : Prop where
  state : exactlyOne returned "state" = exactlyOne sent "state"
  code : exactlyOne returned "code" = some upstreamCode
  short : upstreamCode.utf8ByteSize ≤ maxUpstreamCodeBytes
  error : exactlyOne returned "error" = none
  description : exactlyOne returned "error_description" = none

/-- How a client redeems a code. -/
structure Presents (client : ClientInformation) (uri proof ours : String) (presented : Pairs) :
    Prop where
  clientId : exactlyOne presented "client_id" = some client.clientId
  grantType : exactlyOne presented "grant_type" = some "authorization_code"
  redirectUri : exactlyOne presented "redirect_uri" = some uri
  code : exactlyOne presented "code" = some ours
  verifier : exactlyOne presented "code_verifier" = some proof

/-- How a client asks for another token. -/
structure Renews (client : ClientInformation) (token : String) (presented : Pairs) : Prop where
  clientId : exactlyOne presented "client_id" = some client.clientId
  grantType : exactlyOne presented "grant_type" = some "refresh_token"
  refreshToken : exactlyOne presented "refresh_token" = some token

/-- What was signed at `issued` is accepted at `now`. -/
def Timely (issued now : Nat) : Prop :=
  issued ≤ saturatingAdd now 60 ∧ now - issued < pendingTtl

instance (issued now : Nat) : Decidable (Timely issued now) := inferInstanceAs (Decidable (_ ∧ _))

/-! ## Each step passes -/

section Steps

variable {st : OAuthProxyState} {now later : Nat} {pairs : Pairs}

theorem clientState_eq_ok {state : Option String} (values : valuesOf pairs "state" = state.toList) :
    clientState pairs = .ok state := by
  have count : (pairs.filter (·.1 = "state")).length = state.toList.length := by
    rw [← values, valuesOf, List.length_map]
  unfold clientState
  rw [count]
  cases state with
  | none => rfl
  | some text => exact congrArg Except.ok (exactlyOne_eq_some.2 values)

theorem validCodeChallenge_of_digest {sha256 : Bytes → Bytes} {verifier : String}
    (digest : (sha256 (utf8 verifier)).length = 32) :
    validCodeChallenge (challengeFor sha256 verifier) = true := by
  have letters : ∀ c ∈ Base64.alphabet, c.utf8Size = 1 ∧ (c.isAlphanum || c ∈ ['-', '_']) = true :=
    fun c inside => by
      have all := List.all_eq_true.1 (show (Base64.alphabet.all fun c =>
        decide (c.utf8Size = 1) && (c.isAlphanum || c ∈ ['-', '_'])) = true by decide) c inside
      rwa [Bool.and_eq_true, decide_eq_true_iff] at all
  have each := Base64.encodeChars_mem (sha256 (utf8 verifier))
  unfold validCodeChallenge challengeFor Base64.encode charsIn
  rw [String.toList_ofList, Bool.and_eq_true, decide_eq_true_iff, List.all_eq_true,
    Auth.utf8ByteSize_of_single fun c inside => (letters c (each c inside)).1,
    Base64.encodeChars_length, digest]
  exact ⟨rfl, fun c inside => (letters c (each c inside)).2⟩

theorem callback_returns {sent : Pairs} {state upstreamCode : String} {pending : Pending}
    {query : Option String} (returns : Returns sent upstreamCode (parse (query.getD "")))
    (stated : exactlyOne sent "state" = some state) (decoded : st.decodeState now state = some pending)
    (allowed : isAllowedRedirectUri st.parseUrl st.allowedRedirectUris pending.clientRedirectUri = true) :
    st.callback now later query = .redirect (st.appendPairs pending.clientRedirectUri
      (("code", st.encodeCode {
        upstreamCode
        clientRedirectUri := pending.clientRedirectUri
        codeChallenge := pending.codeChallenge
        issuedAt := later }) :: pairOf "state" pending.clientState)) := by
  obtain ⟨url, valid⟩ := validateRedirectUri_iff.1 (isAllowedRedirectUri_iff.1 allowed).1
  have parsed : (st.parseUrl pending.clientRedirectUri).isNone = false := by
    rw [valid.parsed]
    rfl
  simp [callback, callbackPending, returns.state, stated, decoded, parsed, returns.code,
    Nat.not_lt.2 returns.short, pairOf, returns.error, returns.description]

theorem tokenForm_redeems {body upstreamCode : String}
    (client : exactlyOne (parse body) "client_id" = some st.clientId)
    (grant : exactlyOne (parse body) "grant_type" = some "authorization_code")
    (redeemed : st.redeem now (parse body) = .ok upstreamCode) :
    st.tokenForm now body = .ok (serialize (st.tokenPairs (some upstreamCode) (parse body))) := by
  simp [tokenForm, client, grant, redeemed]

theorem tokenForm_refreshes {body : String}
    (client : exactlyOne (parse body) "client_id" = some st.clientId)
    (grant : exactlyOne (parse body) "grant_type" = some "refresh_token") :
    st.tokenForm now body = .ok (serialize (st.tokenPairs none (parse body))) := by
  simp [tokenForm, client, grant]

/-- The form goes to the provider's token endpoint, and its answer to the client. -/
def Relays (st : OAuthProxyState) (endpoint : String) (now : Nat) (body : String) (form : Pairs) : Prop :=
  ∀ upstream status contentType bytes,
    upstream endpoint (serialize form) = some (status, contentType, bytes) →
    st.token upstream now body = .relay status (contentType.getD "application/json") bytes

theorem relays_of_form {body : String} {form : Pairs} (passed : st.tokenForm now body = .ok (serialize form)) :
    Relays st st.entraToken now body form := by
  intro upstream status contentType bytes answered
  simp [OAuthProxyState.token, passed, answered]

/-- What the provider is posted of a request that passed. -/
theorem exactlyOne_tokenPairs {upstreamCode : Option String} {name value : String}
    (resource : name ≠ "resource") (scope : name ≠ "scope")
    (given : exactlyOne pairs name = some value) :
    exactlyOne (st.tokenPairs upstreamCode pairs) name =
      some (st.tokenValue upstreamCode name value) := by
  rw [exactlyOne_eq_some] at given ⊢
  rw [valuesOf_tokenPairs resource scope, given]
  rfl

variable {client : ClientInformation}

/-- The provider is asked to redeem its own code for our callback. -/
theorem redemption_relayed {uri proof upstreamCode : String} {reissued : Nat} {presented : String}
    (known : st.clientId = client.clientId)
    (accepted : isAllowedRedirectUri st.parseUrl st.allowedRedirectUris uri = true)
    (verifies : validCodeVerifier proof = true)
    (presents : Presents client uri proof
      (st.encodeCode ⟨upstreamCode, uri, challengeFor st.sha256 proof, reissued⟩) (parse presented))
    (timely : Timely reissued now) :
    ∃ form, Relays st st.entraToken now presented form ∧
      exactlyOne form "code" = some upstreamCode ∧
      exactlyOne form "redirect_uri" = some st.callbackUrl ∧
      exactlyOne form "code_verifier" = some proof ∧
      exactlyOne form "client_id" = some client.clientId := by
  have decoded : st.decodeCode now (st.encodeCode ⟨upstreamCode, uri,
      challengeFor st.sha256 proof, reissued⟩) = some _ :=
    decodeBlob_encodeBlob (st.pendingCode_round_trip _) timely.1 timely.2
  have redeemed := redeem_passes presents.redirectUri accepted presents.code presents.verifier verifies
    decoded rfl rfl
  refine ⟨_, relays_of_form (tokenForm_redeems (known ▸ presents.clientId) presents.grantType redeemed),
    ?_, ?_, ?_, ?_⟩
  · rw [exactlyOne_tokenPairs (by decide) (by decide) presents.code]
    rfl
  · rw [exactlyOne_tokenPairs (by decide) (by decide) presents.redirectUri]
    rfl
  · rw [exactlyOne_tokenPairs (by decide) (by decide) presents.verifier]
    rfl
  · rw [exactlyOne_tokenPairs (by decide) (by decide) presents.clientId]
    rfl

theorem refresh_relayed {token presented : String} (known : st.clientId = client.clientId)
    (renews : Renews client token (parse presented)) :
    ∃ form, Relays st st.entraToken now presented form ∧
      exactlyOne form "refresh_token" = some token ∧
      exactlyOne form "client_id" = some client.clientId := by
  refine ⟨_, relays_of_form (tokenForm_refreshes (known ▸ renews.clientId) renews.grantType), ?_, ?_⟩
  · rw [exactlyOne_tokenPairs (by decide) (by decide) renews.refreshToken]
    rfl
  · rw [exactlyOne_tokenPairs (by decide) (by decide) renews.clientId]
    rfl

end Steps

/-! ## What a client is told -/

section Told

variable {config : Config Addr} {oidc : OidcConfig} {crates : Crates} {body : Option (Value F)}
variable {parseUrl : String → Option Url} {client : ClientInformation} {now : Nat}

/-- A client is told of no URI that `authorize` would refuse. -/
theorem register_created (created : register parseUrl config body now = .created client) :
    config.dcrClientId = some client.clientId ∧ ∀ uri ∈ client.redirectUris,
      isAllowedRedirectUri parseUrl config.oauthRedirectUris uri = true := by
  unfold register at created
  split at created
  · cases created
  next clientId given =>
    dsimp only at created
    split at created
    · cases created
    next none_ =>
      obtain rfl := Registration.created.inj created
      refine ⟨given, fun uri inside => ?_⟩
      simp only [List.any_eq_true, decide_eq_true_eq, not_exists, not_and, Bool.not_eq_false] at none_
      exact none_ uri inside

/-- What a configuration lists is well formed, and something is listed where a client id is set. -/
theorem fromSource_uris {platform : Platform Addr} {get : Source}
    (accepted : fromSource platform get = .ok config) :
    (∀ uri ∈ config.oauthRedirectUris, ∃ url, Valid platform.parseUrl uri url) ∧
      (config.dcrClientId.isSome → config.oauthRedirectUris ≠ []) := by
  unfold fromSource at accepted
  obtain ⟨publicUrl, -, accepted⟩ := bind_eq_ok.1 accepted
  obtain ⟨_, -, accepted⟩ := bind_eq_ok.1 accepted
  obtain ⟨_, -, accepted⟩ := bind_eq_ok.1 accepted
  obtain ⟨_, -, accepted⟩ := bind_eq_ok.1 accepted
  obtain ⟨uris, read, accepted⟩ := bind_eq_ok.1 accepted
  obtain ⟨_, checked, accepted⟩ := bind_eq_ok.1 accepted
  obtain ⟨_, -, accepted⟩ := bind_eq_ok.1 accepted
  obtain ⟨_, -, accepted⟩ := bind_eq_ok.1 accepted
  obtain ⟨_, -, accepted⟩ := bind_eq_ok.1 accepted
  obtain ⟨_, -, accepted⟩ := bind_eq_ok.1 accepted
  obtain ⟨_, -, accepted⟩ := bind_eq_ok.1 accepted
  obtain ⟨_, -, accepted⟩ := bind_eq_ok.1 accepted
  obtain ⟨_, -, accepted⟩ := bind_eq_ok.1 accepted
  obtain ⟨_, -, accepted⟩ := bind_eq_ok.1 accepted
  obtain ⟨_, -, accepted⟩ := bind_eq_ok.1 accepted
  obtain ⟨_, -, accepted⟩ := bind_eq_ok.1 accepted
  obtain ⟨_, -, accepted⟩ := bind_eq_ok.1 accepted
  obtain ⟨_, -, accepted⟩ := bind_eq_ok.1 accepted
  obtain ⟨_, -, accepted⟩ := bind_eq_ok.1 accepted
  obtain ⟨_, -, accepted⟩ := bind_eq_ok.1 accepted
  obtain rfl := pure_eq_ok.1 accepted
  constructor
  · unfold oauthRedirectUris at read
    split at read
    · exact parseAllowlist_valid (mapError_eq_ok.1 read)
    · obtain rfl := Except.ok.inj read
      exact fun _ inside => (List.not_mem_nil inside).elim
  · intro given none_
    unfold checkRedirects at checked
    rw [if_pos ⟨given, none_⟩] at checked
    cases checked

/-- **A deployment that hands out a client id does so for every URI it lists, and lists one.** -/
theorem listed_registers {platform : Platform Addr} {get : Source} {clientId : String}
    (accepted : fromSource platform get = .ok config) (given : config.dcrClientId = some clientId) :
    config.oauthRedirectUris ≠ [] ∧ ∀ now (body : Option (Value F)),
      requestedUris body ⊆ config.oauthRedirectUris →
      ∃ client, register platform.parseUrl config body now = .created client ∧
        client.clientId = clientId ∧ client.redirectUris = requestedUris body := by
  obtain ⟨valid, some_⟩ := fromSource_uris accepted
  refine ⟨some_ (by rw [given]; rfl), fun now body listed => ?_⟩
  have allowed : ¬(requestedUris body).any (fun uri =>
      isAllowedRedirectUri platform.parseUrl config.oauthRedirectUris uri = false) = true := by
    simp only [List.any_eq_true, decide_eq_true_eq, not_exists, not_and, Bool.not_eq_false]
    intro uri inside
    exact isAllowedRedirectUri_iff.2
      ⟨validateRedirectUri_iff.2 (valid uri (listed inside)), .inl (listed inside)⟩
  unfold register
  rw [given]
  dsimp only
  rw [if_neg allowed]
  exact ⟨_, rfl, rfl, rfl⟩

end Told

/-! ## The whole sign-in -/

section SignIn

variable {config : Config Addr} {oidc : OidcConfig} {crates : Crates} {body : Option (Value F)}
variable {client : ClientInformation} {uri proof : String} {own : Option String} {asked : Pairs}
variable {registeredAt issued back reissued now : Nat}

theorem authorize_asks (created : register crates.parseUrl config body registeredAt = .created client)
    (digest : (crates.sha256 (utf8 proof)).length = 32)
    (asks : Asks (.fromConfig config oidc) (.fromConfig config oidc) client uri
      (challengeFor crates.sha256 proof) own asked) :
    (brokerOf crates config oidc).authorizePending issued asked =
      .ok ⟨uri, own, challengeFor crates.sha256 proof, issued⟩ := by
  obtain ⟨given, allowed⟩ := register_created created
  have known : client.clientId = (brokerOf crates config oidc).clientId :=
    (congrArg (·.getD "") given).symm
  have response : exactlyOne asked "response_type" = some "code" := by
    obtain ⟨type, told, sent⟩ := asks.responseType
    rwa [List.mem_singleton.1 told] at sent
  have method : exactlyOne asked "code_challenge_method" = some "S256" := by
    obtain ⟨method, told, sent⟩ := asks.method
    rwa [List.mem_singleton.1 told] at sent
  have accepted : isAllowedRedirectUri (brokerOf crates config oidc).parseUrl
      (brokerOf crates config oidc).allowedRedirectUris uri = true := allowed uri asks.registered
  have short : (own.any fun text => decide (maxClientStateBytes < text.utf8ByteSize)) = false := by
    cases own with
    | none => rfl
    | some text => exact decide_eq_false (Nat.not_lt.2 (asks.short text rfl))
  simp [authorizePending, asks.clientId, known, response, asks.redirectUri, accepted,
    clientState_eq_ok asks.state, short, asks.codeChallenge, validCodeChallenge_of_digest digest, method]

theorem asks_unmixed {challenge : String} (asks : Asks (.fromConfig config oidc) (.fromConfig config oidc)
    client uri challenge own asked) : ¬MixesResources (brokerOf crates config oidc) asked := by
  rintro ⟨-, value, inside, foreign⟩
  obtain rfl := asks.ours value inside
  unfold rewriteResource at foreign
  dsimp only at foreign
  rw [if_pos (.inl rfl)] at foreign
  cases foreign

/-- **An honest sign-in completes**, where the qualified scope is one word.  A client that read the
metadata and was registered is sent to the provider with its request rewritten; once the provider
returns a code with the state it was sent, the client is sent back to its own redirect URI, with its
own state and a code of ours; once it presents that code with its verifier, the provider is asked to
redeem its own code for our callback, and what it answers is the answer; and a refresh is passed on,
whenever it comes.  Both detours may take ten minutes. -/
theorem onboarding_completes {query : Option String}
    (created : register crates.parseUrl config body registeredAt = .created client)
    (digest : (crates.sha256 (utf8 proof)).length = 32) (verifies : validCodeVerifier proof = true)
    (word : Word (qualifiedApiScope oidc.audience oidc.scope))
    (asks : Asks (.fromConfig config oidc) (.fromConfig config oidc) client uri
      (challengeFor crates.sha256 proof) own (parse (query.getD ""))) :
    let st := brokerOf crates config oidc
    (∃ sent, st.authorize issued query =
        .redirect (entraAuthorizeUrl oidc.issuer ++ "?" ++ serialize sent) ∧
      Rewritten st issued (parse (query.getD "")) sent ∧
      ∀ upstreamCode back reissued returned,
        Returns sent upstreamCode (parse (returned.getD "")) → Timely issued back →
        ∃ ours, st.callback back reissued returned =
            .redirect (crates.appendPairs uri (("code", ours) :: pairOf "state" own)) ∧
          ∀ now presented, Presents client uri proof ours (parse presented) → Timely reissued now →
            ∃ form, Relays st (entraTokenUrl oidc.issuer) now presented form ∧
              exactlyOne form "code" = some upstreamCode ∧
              exactlyOne form "redirect_uri" = some st.callbackUrl ∧
              exactlyOne form "code_verifier" = some proof ∧
              exactlyOne form "client_id" = some client.clientId) ∧
    ∀ now token presented, Renews client token (parse presented) →
      ∃ form, Relays st (entraTokenUrl oidc.issuer) now presented form ∧
        exactlyOne form "refresh_token" = some token ∧
        exactlyOne form "client_id" = some client.clientId := by
  obtain ⟨given, allowed⟩ := register_created created
  intro st
  have known : st.clientId = client.clientId := congrArg (·.getD "") given
  have accepted : isAllowedRedirectUri st.parseUrl st.allowedRedirectUris uri = true :=
    allowed uri asks.registered
  have passed : st.authorizePending issued (parse (query.getD "")) = .ok _ :=
    authorize_asks created digest asks
  refine ⟨⟨_, ?_, (rewritten_iff word passed).2 (asks_unmixed asks), ?_⟩, ?_⟩
  · unfold authorize
    dsimp only
    rw [passed]
    rfl
  · intro upstreamCode back reissued returned returns timely
    refine ⟨_, callback_returns returns (exactlyOne_eq_some.2 (state_sent_once passed))
      (decodeState_encodeState timely.1 timely.2) accepted, ?_⟩
    intro now presented presents fresh
    exact redemption_relayed known accepted verifies presents fresh
  · intro now token presented renews
    exact refresh_relayed known renews

end SignIn

/-! ## One sign-in, from the settings on -/

def signInHost : Platform Unit where
  sha256 _ := []
  parseUrl := sampleCrates.parseUrl
  parseAddr _ := some ()
  availableParallelism := none

def signInSettings : Source := fun name =>
  [("PUBLIC_URL", "https://typst-mcp.example.test"),
    ("TENANT_SALT", "0123456789abcdef0123456789abcdef"),
    ("SIGNING_SECRET", "test signing key with at least thirty two bytes"),
    ("OIDC_ISSUER", "https://login.microsoftonline.com/abc/v2.0"), ("OIDC_AUDIENCE", "api://typst-mcp"),
    ("DCR_CLIENT_ID", "test-client"), ("OAUTH_REDIRECT_URIS", sampleUri)].lookup name

/-- The body of a registration. -/
def signInBody : Value Int := .object [("redirect_uris", .array [.string sampleUri])]

def signInPresented (ours : String) : Pairs :=
  [("grant_type", "authorization_code"), ("client_id", "test-client"), ("redirect_uri", sampleUri),
    ("code", ours), ("code_verifier", sampleVerifier)]

theorem onboarding_completes_sign_in : ∃ (config : Config Unit) (oidc : OidcConfig) (state ours : String)
    (form : Pairs), fromSource signInHost signInSettings = .ok config ∧
    (brokerOf sampleCrates config oidc).callback 1010 1010
        (some (serialize [("code", "upstream-code"), ("state", state)])) =
      .redirect (sampleCrates.appendPairs sampleUri [("code", ours)]) ∧
    Relays (brokerOf sampleCrates config oidc)
      "https://login.microsoftonline.com/abc/oauth2/v2.0/token" 1020
      (serialize (signInPresented ours)) form ∧
    exactlyOne form "code" = some "upstream-code" := by
  obtain ⟨config, accepted, checked⟩ := ok_of_any (show ((fromSource signInHost
    signInSettings).toOption.any fun config => decide (config.dcrClientId = some "test-client" ∧
      config.oauthRedirectUris = [sampleUri]) && config.oidc.any fun oidc =>
        decide (entraTokenUrl oidc.issuer = "https://login.microsoftonline.com/abc/oauth2/v2.0/token" ∧
          qualifiedApiScope oidc.audience oidc.scope = "api://typst-mcp/render")) = true by
      decide +kernel)
  rw [Bool.and_eq_true, decide_eq_true_iff] at checked
  obtain ⟨⟨given, listed⟩, provider⟩ := checked
  obtain ⟨oidc, -, endpoint⟩ := (Option.any_eq_true _ _).1 provider
  obtain ⟨tokenUrl, scope⟩ := of_decide_eq_true endpoint
  have known : requestedUris (some signInBody) ⊆ config.oauthRedirectUris := by
    rw [listed]
    decide
  obtain ⟨client, created, named, told⟩ := (listed_registers accepted given).2 990 _ known
  have challenge : challengeFor sampleCrates.sha256 sampleVerifier = samplePending.codeChallenge := by
    decide +kernel
  have asks : Asks (.fromConfig config oidc) (.fromConfig config oidc) client sampleUri
      (challengeFor sampleCrates.sha256 sampleVerifier) none
      (parse ((some (serialize sampleAsked)).getD "")) := by
    rw [Option.getD_some, parse_serialize, challenge]
    constructor
    · simp [sampleAsked, exactlyOne, named]
    · exact ⟨"code", List.mem_cons_self, by simp [sampleAsked, exactlyOne]⟩
    · simp [sampleAsked, exactlyOne]
    · rw [told]
      decide
    · simp [sampleAsked, valuesOf]
    · intro text given
      cases given
    · simp [sampleAsked, exactlyOne]
    · exact ⟨"S256", List.mem_cons_self, by simp [sampleAsked, exactlyOne]⟩
    · simp [sampleAsked, valuesOf]
  obtain ⟨⟨sent, -, rewritten, returns⟩, -⟩ := @onboarding_completes Unit Int config oidc sampleCrates _
    client sampleUri sampleVerifier none 990 1000 _ created (by decide +kernel) (by decide +kernel)
    (by rw [scope]; decide) asks
  obtain ⟨state, -, stated, -⟩ := rewritten.state
  obtain ⟨ours, back, redeems⟩ := returns "upstream-code" 1010 1010
    (some (serialize [("code", "upstream-code"), ("state", state)])) (by
      rw [Option.getD_some, parse_serialize]
      constructor
      · rw [exactlyOne_eq_some.2 stated]
        simp [exactlyOne]
      · simp [exactlyOne]
      · decide
      · simp [exactlyOne]
      · simp [exactlyOne]) (by decide)
  obtain ⟨form, relays, code, -⟩ := redeems 1020 (serialize (signInPresented ours)) (by
      rw [parse_serialize]
      constructor
      · simp [signInPresented, exactlyOne, named]
      · simp [signInPresented, exactlyOne]
      · simp [signInPresented, exactlyOne]
      · simp [signInPresented, exactlyOne]
      · simp [signInPresented, exactlyOne]) (by decide)
  exact ⟨config, oidc, state, ours, form, accepted, back, tokenUrl ▸ relays, code⟩

end TypstMcp.OAuth
