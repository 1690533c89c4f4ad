/-
Auth.Token -- validating an OIDC access token

`validate` judges one token.  `Jwt` stands for the JWT crate, and the lookup of the
signing key is a parameter (`Auth.Keys` models it).  A token is accepted for the
configured issuer only (`validate_issuer`); with `ApiKey.parse` this gives the
principals there can be, whose tenants `tenant_injective` tells apart.
-/
import TypstMcp.Auth.Principal

namespace TypstMcp.Auth

open TypstMcp.Theory TypstMcp.Theory.Bits TypstMcp.Theory.Json

set_option autoImplicit false

/-! ## Tokens -/

structure OidcConfig where
  issuer : String
  /-- The directory GUID, checked against the token's `tid`. -/
  tenantId : Option String := none
  audience : String
  scope : String
  extraAudiences : List String := []

/-- Why a token was not accepted. -/
inductive TokenError
  | malformed
  | unknownKey
  | rejected
  | providerUnavailable
  deriving DecidableEq, Repr

/-- `aud` is a string or an array depending on the provider and flow. -/
inductive Audience
  | one (value : String)
  | many (values : List String)
  | none

def Audience.contains (audience : Audience) (wanted : String) : Bool :=
  match audience with
  | one value => value = wanted
  | many values => values.any (· = wanted)
  | none => false

/-- Claims we care about. -/
structure Claims where
  sub : String
  iss : String
  aud : Audience := .none
  tid : Option String := none
  scp : Option String := none
  roles : List String := []
  name : Option String := none

inductive Algorithm
  | hs256 | hs384 | hs512
  | es256 | es384
  | rs256 | rs384 | rs512
  | ps256 | ps384 | ps512
  | edDSA
  deriving DecidableEq, Repr

structure Header where
  alg : Algorithm
  kid : Option String

structure Validation where
  algorithm : Algorithm
  audiences : List String
  issuers : List String
  validateExp : Bool
  validateNbf : Bool
  leeway : Nat

/-- What the JWT crate does; `Key` is a decoding key. -/
structure Jwt (Key : Type) where
  decodeHeader : String → Option Header
  decode : String → Key → Validation → Option Claims

def maxKidBytes : Nat := 256

/-- Tolerance for clock skew between us and the provider, in seconds. -/
def clockSkewSeconds : Nat := 60

/-- `split_whitespace`. -/
def splitWhitespace (text : String) : List String :=
  ((text.toList.splitOnP isWhiteSpace).filter (· ≠ [])).map String.ofList

/-- Entra prefixes delegated scopes with the App ID URI in some configurations, so match either
the bare name or the qualified form. -/
def scopeMatches (wanted value : String) : Bool :=
  value = wanted || (value.toList.splitOn '/').getLast? = some wanted.toList

/-- Whether the token carries the required permission. -/
def hasScope (config : OidcConfig) (claims : Claims) : Bool :=
  claims.scp.any (fun scp => (splitWhitespace scp).any (scopeMatches config.scope)) ||
    claims.roles.any (scopeMatches config.scope)

variable {Key : Type}

/-- Validate `token` and return who it belongs to. -/
def validate (jwt : Jwt Key) (key : String → Except TokenError (Option Key)) (config : OidcConfig)
    (token : String) : Except TokenError Principal :=
  match jwt.decodeHeader token with
  | none => .error .malformed
  | some header =>
      if header.alg ≠ .rs256 ∧ header.alg ≠ .rs384 ∧ header.alg ≠ .rs512 then .error .rejected
      else match header.kid with
        | none => .error .malformed
        | some kid =>
            if maxKidBytes < kid.utf8ByteSize then .error .malformed
            else match key kid with
              | .error e => .error e
              | .ok none => .error .unknownKey
              | .ok (some key) =>
                  match jwt.decode token key {
                    algorithm := header.alg
                    audiences := config.audience :: config.extraAudiences
                    issuers := [config.issuer]
                    validateExp := true
                    validateNbf := true
                    leeway := clockSkewSeconds } with
                  | none => .error .rejected
                  | some claims =>
                      let audOk := claims.aud.contains config.audience ||
                        config.extraAudiences.any claims.aud.contains
                      if claims.iss ≠ config.issuer ∨ audOk = false then .error .rejected
                      else if config.tenantId.isSome ∧ claims.tid ≠ config.tenantId then
                        .error .rejected
                      else if hasScope config claims = false then .error .rejected
                      else .ok (.user claims.sub claims.iss claims.name)

/-- **Every accepted token is the configured issuer's.** -/
theorem validate_issuer {jwt : Jwt Key} {key : String → Except TokenError (Option Key)}
    {config : OidcConfig} {token : String} {principal : Principal}
    (valid : validate jwt key config token = .ok principal) :
    ∃ subject name, principal = .user subject config.issuer name := by
  unfold validate at valid
  split at valid
  · cases valid
  split_ifs at valid
  split at valid
  · cases valid
  split_ifs at valid
  split at valid
  · cases valid
  · cases valid
  split at valid
  · cases valid
  · rename_i claims _
    simp only at valid
    split_ifs at valid with issuer
    obtain rfl := Except.ok.inj valid
    refine ⟨claims.sub, claims.name, ?_⟩
    rw [not_or, not_not] at issuer
    rw [issuer.1]

/-! ## Tenants -/

/-- The principals the auth layer constructs: users of an issuer without NULs (it comes from an
environment variable), and services of a parsed API key. -/
inductive Authenticated : Principal → Prop
  | user {Key : Type} {jwt : Jwt Key} {key : String → Except TokenError (Option Key)}
      {config : OidcConfig} {token : String} {principal : Principal}
      (env : '\x00' ∉ config.issuer.toList)
      (valid : validate jwt key config token = .ok principal) : Authenticated principal
  | service {fingerprint : String → String} {entry : String} {position : Nat} {key : ApiKey}
      (parsed : ApiKey.parse fingerprint entry position = .ok key) : Authenticated key.principal

theorem Authenticated.separable {principal : Principal} (known : Authenticated principal) :
    principal.Separable := by
  cases known with
  | user env valid =>
      obtain ⟨subject, name, rfl⟩ := validate_issuer valid
      exact env
  | service parsed => trivial

/-- **Tenant partitions are injective.**  Two callers share a partition only if they are one caller
or the HMAC of two different identity strings agrees on its first eighty bits; and every id
parses, has sixteen characters and denotes exactly those bits. -/
theorem tenant_injective (hmac : Hmac) (salt : Bytes) (p q : Principal)
    (knownP : Authenticated p) (knownQ : Authenticated q) :
    (p.tenant hmac salt = q.tenant hmac salt →
      p.SameCaller q ∨ p.identity ≠ q.identity ∧
        (ofBytes (hmac.mac salt (utf8 p.identity))).take 80 =
          (ofBytes (hmac.mac salt (utf8 q.identity))).take 80) ∧
      TenantId.parse (p.tenant hmac salt).str = some (p.tenant hmac salt) ∧
      (p.tenant hmac salt).str.length = tenantLen ∧
      TenantId.bits (p.tenant hmac salt).str =
        (ofBytes (hmac.mac salt (utf8 p.identity))).take 80 := by
  have denotes := fun principal : Principal =>
    TenantId.derive_denotes hmac salt (utf8 principal.identity)
  refine ⟨?_, TenantId.parse_eq_some.2 rfl, (denotes p).1, (denotes p).2⟩
  intro same
  by_cases one : p.identity = q.identity
  · exact .inl (Principal.identity_inj knownP.separable knownQ.separable one)
  · refine .inr ⟨one, ?_⟩
    rw [← (denotes p).2, ← (denotes q).2]
    exact congrArg (fun id : TenantId => TenantId.bits id.str) same

/-! ## Two configured services -/

/-- HMAC-SHA256 under one salt at two messages. -/
def hmacAt (first second : Bytes × Bytes) (length : first.2.length = 32 ∧ second.2.length = 32) :
    Hmac where
  mac _ message :=
    if message = first.1 then first.2
    else if message = second.1 then second.2
    else List.replicate 32 0
  length _ message := by
    split_ifs
    · exact length.1
    · exact length.2
    · rfl

def sampleHmac : Hmac :=
  hmacAt
    (utf8 "key\x00cardmunk", [113, 232, 130, 56, 194, 251, 185, 211, 75, 60, 148, 51, 255, 228, 173,
      130, 241, 57, 152, 208, 127, 74, 75, 201, 197, 250, 139, 77, 242, 185, 18, 163])
    (utf8 "key\x00billing", [15, 138, 121, 207, 185, 220, 10, 14, 126, 243, 173, 17, 35, 211, 127, 96,
      99, 9, 227, 222, 47, 204, 101, 152, 36, 167, 128, 180, 207, 63, 74, 165])
    ⟨rfl, rfl⟩

def sampleSalt : Bytes := utf8 "a-test-salt-of-at-least-32-bytes!!"

/-- `fingerprint` of the two secrets. -/
def sampleFingerprint (secret : String) : String :=
  if secret = "sk_11111111111111111111111111111111" then "efd84f14546f3a7e" else "ad4108c74485492c"

example : (Principal.tenant sampleHmac sampleSalt (.service "cardmunk")).str = "e7m84e62zewx6jsw" := by
  decide +kernel

theorem tenant_injective_services :
    (Principal.tenant sampleHmac sampleSalt (.service "cardmunk") =
        Principal.tenant sampleHmac sampleSalt (.service "billing") →
      Principal.SameCaller (.service "cardmunk") (.service "billing") ∨
        Principal.identity (.service "cardmunk") ≠ Principal.identity (.service "billing") ∧
          (ofBytes (sampleHmac.mac sampleSalt (utf8 (Principal.identity (.service "cardmunk"))))).take
              80 =
            (ofBytes (sampleHmac.mac sampleSalt (utf8 (Principal.identity (.service "billing"))))).take
              80) ∧
      TenantId.parse (Principal.tenant sampleHmac sampleSalt (.service "cardmunk")).str =
        some (Principal.tenant sampleHmac sampleSalt (.service "cardmunk")) ∧
      (Principal.tenant sampleHmac sampleSalt (.service "cardmunk")).str.length = tenantLen ∧
      TenantId.bits (Principal.tenant sampleHmac sampleSalt (.service "cardmunk")).str =
        (ofBytes (sampleHmac.mac sampleSalt (utf8 (Principal.identity (.service "cardmunk"))))).take
          80 := by
  have first : Authenticated (.service "cardmunk") := by
    have parsed : ApiKey.parse sampleFingerprint
        " cardmunk:sk_11111111111111111111111111111111" 1 =
          .ok ⟨"cardmunk", "sk_11111111111111111111111111111111", "efd84f14546f3a7e"⟩ := by
      decide +kernel
    exact .service parsed
  have second : Authenticated (.service "billing") := by
    have parsed : ApiKey.parse sampleFingerprint "billing:sk_22222222222222222222222222222222" 2 =
        .ok ⟨"billing", "sk_22222222222222222222222222222222", "ad4108c74485492c"⟩ := by
      decide +kernel
    exact .service parsed
  exact tenant_injective sampleHmac sampleSalt (.service "cardmunk") (.service "billing") first second

end TypstMcp.Auth
