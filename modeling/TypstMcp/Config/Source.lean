/-
Config.Source -- configuration, read once at startup

`fromSource` reads the settings by name and refuses to start without the secrets or
with no door at all.  A number or a duration that is set is what its text says, in
range of its type (`number_ok`, `duration_ok`); nothing else is checked of it.

The platform's hash, its URL and socket address parsers and its processor count are a
parameter.
-/
import TypstMcp.Auth.Token
import TypstMcp.Http.ApiKeys
import TypstMcp.OAuth.Redirect
import TypstMcp.Template.Dates

namespace TypstMcp.Config

open TypstMcp.Theory TypstMcp.Theory.Json
open TypstMcp.Auth (trim ApiKeyConfigError OidcConfig)
open TypstMcp.Http (ApiKeys parseU64)
open TypstMcp.OAuth (Url parseAllowlist)
open TypstMcp.Store (Limits u64Size)
open TypstMcp.Template (Numeral digitsValue digitsValue_eq numeral_plus numeral_plain)

set_option autoImplicit false
set_option linter.dupNamespace false

/-- Prefix for every variable this reads. -/
def varPrefix : String := "TYPST_MCP_"

/-- Minimum length for a secret, in bytes. -/
def minSecretBytes : Nat := 32

/-- Why the process cannot start. -/
inductive ConfigError
  | missing (name : String)
  | secretTooShort (name : String) (actual : Nat)
  | invalid (name value expected : String)
  | apiKeys (error : ApiKeyConfigError)
  | noCredentials

/-- An unsigned integer below `size`. -/
abbrev Word (size : Nat) := { n : Nat // n < size }

/-- A `u64`, and a `usize`. -/
abbrev U64 := Word u64Size

abbrev U32 := Word (2 ^ 32)

/-- `FromStr` of an unsigned integer no wider than a `u64`. -/
def Word.fromStr (size : Nat) (text : String) : Option (Word size) :=
  (parseU64 text).bind fun n => if fits : n < size then some ⟨n, fits⟩ else none

/-- `u64::checked_mul`. -/
def checkedMul (a b : Nat) : Option U64 :=
  if fits : a * b < u64Size then some ⟨a * b, fits⟩ else none

/-- What the process runs on. -/
structure Platform (Addr : Type) where
  sha256 : Bytes → Bytes
  /-- `Url::parse`. -/
  parseUrl : String → Option Url
  /-- `SocketAddr::from_str`. -/
  parseAddr : String → Option Addr
  availableParallelism : Option Nat

/-- Everything the server needs to run; durations are seconds. -/
structure Config (Addr : Type) where
  publicUrl : String
  bindAddr : Addr
  metricsBindAddr : Addr
  dataDir : String
  templateDir : String
  fontDirs : List String
  tenantSalt : Bytes
  signingSecret : Bytes
  signedUrlTtl : U64
  apiKeys : ApiKeys
  oidc : Option OidcConfig
  dcrClientId : Option String
  oauthRedirectUris : List String
  workerExe : Option String
  compileTimeout : U64
  maxConcurrentCompiles : U64
  maxMcpSessions : U64
  workerMemoryBytes : U64
  maxBundleBytes : U64
  maxUploadBytes : U64
  maxPages : U64
  previewMaxPx : U32
  limits : Limits

/-! ## One setting -/

/-- Where the settings come from: the environment, without the prefix. -/
abbrev Source := String → Option String

/-- A setting that is more than white space. -/
def given (get : Source) (name : String) : Option String := (get name).filter (trim · ≠ "")

def required (get : Source) (name : String) : Except ConfigError String :=
  match ((get name).map trim).filter (· ≠ "") with
  | some value => .ok value
  | none => .error (.missing name)

def secret (get : Source) (name : String) : Except ConfigError Bytes := do
  let value ← required get name
  if value.utf8ByteSize < minSecretBytes then .error (.secretTooShort name value.utf8ByteSize)
  else return utf8 value

def path (get : Source) (name default : String) : String := (given get name).getD default

def number {size : Nat} (get : Source) (name : String) (default : Word size) :
    Except ConfigError (Word size) :=
  match given get name with
  | none => .ok default
  | some value =>
      match Word.fromStr size (trim value) with
      | some n => .ok n
      | none => .error (.invalid name value "number")

def parse {α : Type} (fromStr : String → Option α) (get : Source) (name default expected : String) :
    Except ConfigError α :=
  let value := (given get name).getD default
  match fromStr (trim value) with
  | some parsed => .ok parsed
  | none => .error (.invalid name value expected)

/-- The digits of a duration and the seconds they count.  A unit is one byte, so it is the last
byte exactly when it is the last character. -/
def digitsAndMultiplier (value : List Char) : List Char × Nat :=
  match value.getLast? with
  | some 's' => (value.dropLast, 1)
  | some 'm' => (value.dropLast, 60)
  | some 'h' => (value.dropLast, 60 * 60)
  | some 'd' => (value.dropLast, 24 * 60 * 60)
  | _ => (value, 1)

/-- A duration written as a bare number of seconds or with a unit suffix. -/
def duration (get : Source) (name : String) (defaultSecs : U64) : Except ConfigError U64 :=
  match given get name with
  | none => .ok defaultSecs
  | some raw =>
      let (digits, multiplier) := digitsAndMultiplier (trim raw).toList
      match (parseU64 (String.ofList digits)).bind (checkedMul · multiplier) with
      | some secs => .ok secs
      | none => .error (.invalid name raw "duration such as 30s, 15m, 2h or 7d")

/-! ## What a setting says -/

/-- The units of a duration, and their seconds. -/
def units : List (List Char × Nat) :=
  [([], 1), (['s'], 1), (['m'], 60), (['h'], 60 * 60), (['d'], 24 * 60 * 60)]

/-- The text, but for white space around it, is a numeral and a unit worth this many seconds. -/
def Means (raw : String) (secs : Nat) : Prop :=
  ∃ digits unit scale n, (unit, scale) ∈ units ∧ (trim raw).toList = digits ++ unit ∧
    Numeral digits n ∧ secs = n * scale

theorem given_eq_some {get : Source} {name value : String} :
    given get name = some value ↔ get name = some value ∧ trim value ≠ "" := by
  unfold given
  rw [Option.filter_eq_some_iff, decide_eq_true_iff]

theorem parseU64_eq {text : String} {n : Nat} :
    parseU64 text = some n ↔ Numeral text.toList n ∧ n < u64Size := by
  have digits : ∀ chars : List Char,
      (if chars ≠ [] ∧ chars.all Char.isDigit = true ∧ Nat.ofDigitChars 10 chars 0 < u64Size then
        some (Nat.ofDigitChars 10 chars 0) else none) = some n ↔
      digitsValue chars = some n ∧ n < u64Size := by
    intro chars
    rw [digitsValue_eq]
    split_ifs with all
    · rw [Option.some_inj]
      constructor
      · rintro rfl
        exact ⟨⟨all.1, all.2.1, rfl⟩, all.2.2⟩
      · exact fun same => same.1.2.2
    · simp only [false_iff, not_and]
      rintro ⟨some_, each, rfl⟩ small
      exact all ⟨some_, each, small⟩
  unfold parseU64
  simp only [digits]
  split
  next rest signed => rw [signed, numeral_plus]
  next unsigned => rw [numeral_plain unsigned]

theorem Word.fromStr_eq {size : Nat} {text : String} {n : Word size} (narrow : size ≤ u64Size) :
    Word.fromStr size text = some n ↔ Numeral text.toList n := by
  unfold Word.fromStr
  rw [Option.bind_eq_some_iff]
  constructor
  · rintro ⟨k, parsed, fits⟩
    split_ifs at fits
    obtain rfl := Option.some.inj fits
    exact (parseU64_eq.1 parsed).1
  · intro numeral
    exact ⟨n, parseU64_eq.2 ⟨numeral, n.property.trans_le narrow⟩, dif_pos n.property⟩

/-- **A number is what its text says, in the range of its type.** -/
theorem number_ok {size : Nat} {get : Source} {name : String} {default n : Word size}
    (narrow : size ≤ u64Size) : number get name default = .ok n ↔
      (given get name = none ∧ n = default) ∨
        ∃ value, given get name = some value ∧ Numeral (trim value).toList n := by
  unfold number
  cases given get name with
  | none => simp [eq_comm]
  | some value =>
      simp only [reduceCtorEq, false_and, false_or, Option.some_inj, exists_eq_left']
      rw [← Word.fromStr_eq narrow]
      cases Word.fromStr size (trim value) <;> simp

/-- No digit is a unit. -/
theorem digitsAndMultiplier_plain {value : List Char} {n : Nat} (numeral : Numeral value n) :
    digitsAndMultiplier value = (value, 1) := by
  have last : ∀ c, value.getLast? = some c → c.isDigit = true := by
    obtain ⟨digits, signed, some_, all, -⟩ := numeral
    have same : value.getLast? = digits.getLast? := by
      rcases signed with rfl | rfl
      · rfl
      · exact List.getLast?_cons_of_ne_nil some_
    intro c ends
    exact List.all_eq_true.1 all c (List.mem_of_getLast? (same ▸ ends))
  unfold digitsAndMultiplier
  split
  next ends => cases last _ ends
  next ends => cases last _ ends
  next ends => cases last _ ends
  next ends => cases last _ ends
  · rfl

theorem digitsAndMultiplier_unit (value : List Char) :
    ∃ unit, (unit, (digitsAndMultiplier value).2) ∈ units ∧
      value = (digitsAndMultiplier value).1 ++ unit := by
  unfold digitsAndMultiplier
  split
  next ends => exact ⟨['s'], by simp [units], (List.dropLast_append_getLast? _ ends).symm⟩
  next ends => exact ⟨['m'], by simp [units], (List.dropLast_append_getLast? _ ends).symm⟩
  next ends => exact ⟨['h'], by simp [units], (List.dropLast_append_getLast? _ ends).symm⟩
  next ends => exact ⟨['d'], by simp [units], (List.dropLast_append_getLast? _ ends).symm⟩
  · exact ⟨[], by simp [units], (List.append_nil _).symm⟩

/-- A numeral with its unit is taken apart into the two. -/
theorem digitsAndMultiplier_append {digits unit : List Char} {scale n : Nat}
    (known : (unit, scale) ∈ units) (numeral : Numeral digits n) :
    digitsAndMultiplier (digits ++ unit) = (digits, scale) := by
  simp only [units, List.mem_cons, Prod.mk.injEq, List.not_mem_nil, or_false] at known
  rcases known with ⟨rfl, rfl⟩ | ⟨rfl, rfl⟩ | ⟨rfl, rfl⟩ | ⟨rfl, rfl⟩ | ⟨rfl, rfl⟩
  · rw [List.append_nil, digitsAndMultiplier_plain numeral]
  all_goals simp [digitsAndMultiplier]

theorem means_iff {raw : String} {secs : Nat} :
    Means raw secs ↔ ∃ n, Numeral (digitsAndMultiplier (trim raw).toList).1 n ∧
      secs = n * (digitsAndMultiplier (trim raw).toList).2 := by
  constructor
  · rintro ⟨digits, unit, scale, n, known, text, numeral, rfl⟩
    rw [text, digitsAndMultiplier_append known numeral]
    exact ⟨n, numeral, rfl⟩
  · rintro ⟨n, numeral, rfl⟩
    obtain ⟨unit, known, text⟩ := digitsAndMultiplier_unit (trim raw).toList
    exact ⟨_, unit, _, n, known, text, numeral, rfl⟩

theorem checkedMul_eq {a b : Nat} {c : U64} : checkedMul a b = some c ↔ c.val = a * b := by
  unfold checkedMul
  split_ifs with fits
  · rw [Option.some_inj, eq_comm, Subtype.ext_iff]
  · simp only [false_iff]
    intro same
    exact fits (same ▸ c.property)

/-- **A duration is what its text says, when that is a `u64`.** -/
theorem duration_ok {get : Source} {name : String} {defaultSecs secs : U64} :
    duration get name defaultSecs = .ok secs ↔
      (given get name = none ∧ secs = defaultSecs) ∨
        ∃ raw, given get name = some raw ∧ Means raw secs := by
  unfold duration
  cases given get name with
  | none => simp [eq_comm]
  | some raw =>
      have read : (parseU64 (String.ofList (digitsAndMultiplier (trim raw).toList).1)).bind
          (checkedMul · (digitsAndMultiplier (trim raw).toList).2) = some secs ↔ Means raw secs := by
        rw [Option.bind_eq_some_iff, means_iff]
        simp only [parseU64_eq, checkedMul_eq, String.toList_ofList]
        constructor
        · rintro ⟨n, ⟨numeral, -⟩, product⟩
          exact ⟨n, numeral, product⟩
        · rintro ⟨n, numeral, product⟩
          refine ⟨n, ⟨numeral, ?_⟩, product⟩
          have scale : 0 < (digitsAndMultiplier (trim raw).toList).2 := by
            unfold digitsAndMultiplier
            split <;> simp
          calc n ≤ n * (digitsAndMultiplier (trim raw).toList).2 := Nat.le_mul_of_pos_right _ scale
            _ = secs.val := product.symm
            _ < u64Size := secs.property
      simp only [reduceCtorEq, false_and, false_or, Option.some_inj, exists_eq_left', ← read]
      cases (parseU64 (String.ofList (digitsAndMultiplier (trim raw).toList).1)).bind
        (checkedMul · (digitsAndMultiplier (trim raw).toList).2) <;> simp

/-! ## All of them -/

/-- `trim_end_matches('/')`. -/
def trimSlashes (text : String) : String := String.ofList (text.toList.rdropWhile (· = '/'))

theorem four_fits : 4 < u64Size := by decide

theorem atMostFour_fits (n : Nat) : min n 4 < u64Size := (Nat.min_le_right n 4).trans_lt four_fits

variable {Addr : Type} (platform : Platform Addr) (get : Source)

def defaultConcurrency : U64 :=
  match platform.availableParallelism with
  | none => ⟨4, four_fits⟩
  | some n => ⟨min n 4, atMostFour_fits n⟩

/-- The keys of `API_KEYS`, none when it is not set. -/
def apiKeys : Except ConfigError ApiKeys :=
  match given get "API_KEYS" with
  | some value => (ApiKeys.parse platform.sha256 value).mapError .apiKeys
  | none => .ok ⟨[]⟩

def oauthRedirectUris : Except ConfigError (List String) :=
  match given get "OAUTH_REDIRECT_URIS" with
  | some raw =>
      (parseAllowlist platform.parseUrl raw (varPrefix ++ "OAUTH_REDIRECT_URIS")).mapError fun _ =>
        .invalid "OAUTH_REDIRECT_URIS" raw "comma-separated redirect URIs"
  | none => .ok []

/-- The first audience qualifies scopes; the others, and the resource itself, are accepted too. -/
def oidc (publicUrl : String) : Except ConfigError (Option OidcConfig) :=
  match given get "OIDC_ISSUER" with
  | none => .ok none
  | some issuer => do
      let value ← required get "OIDC_AUDIENCE"
      let audiences := (value.toList.splitOn ',').map fun part => trim (String.ofList part)
      match audiences.filter (· ≠ "") with
      | [] => .error (.invalid "OIDC_AUDIENCE" "" "at least one audience")
      | audience :: extra =>
          return some {
            issuer := trimSlashes (trim issuer)
            tenantId := given get "OIDC_TENANT_ID"
            audience
            scope := (get "OIDC_SCOPE").getD "render"
            extraAudiences := extra ++ [publicUrl ++ "/mcp"] }

/-- Retention and ceilings of the store. -/
def limits : Except ConfigError Limits := do
  let outputTtl ← duration get "OUTPUT_TTL" ⟨2 * 60 * 60, by decide⟩
  let assetTtl ← duration get "ASSET_TTL" ⟨24 * 60 * 60, by decide⟩
  let templateTtl ← duration get "TEMPLATE_TTL" ⟨7 * 24 * 60 * 60, by decide⟩
  let maxTenantBytes : U64 ← number get "MAX_TENANT_BYTES" ⟨512 * 1024 * 1024, by decide⟩
  let maxStoreBytes : U64 ← number get "MAX_STORE_BYTES" ⟨2 * 1024 * 1024 * 1024, by decide⟩
  let maxTenantEntries : U64 ← number get "MAX_TENANT_ENTRIES" ⟨10000, by decide⟩
  let maxStoreEntries : U64 ← number get "MAX_STORE_ENTRIES" ⟨50000, by decide⟩
  return {
    outputTtl := outputTtl.val
    assetTtl := assetTtl.val
    templateTtl := templateTtl.val
    maxTenantBytes := maxTenantBytes.val
    maxStoreBytes := maxStoreBytes.val
    maxTenantEntries := maxTenantEntries.val
    maxStoreEntries := maxStoreEntries.val
    maxTenantBytes_lt := maxTenantBytes.property
    maxStoreBytes_lt := maxStoreBytes.property }

def checkRedirects (dcrClientId : Option String) (uris : List String) : Except ConfigError Unit :=
  if dcrClientId.isSome ∧ uris = [] then
    .error (.invalid "OAUTH_REDIRECT_URIS" "" "at least one redirect URI when DCR_CLIENT_ID is set")
  else .ok ()

/-- Refusing to start beats starting open. -/
def checkCredentials (keys : ApiKeys) (oidc : Option OidcConfig) : Except ConfigError Unit :=
  if keys.keys = [] ∧ oidc.isNone then .error .noCredentials else .ok ()

/-- Read from an arbitrary source. -/
def fromSource : Except ConfigError (Config Addr) := do
  let publicUrl := trimSlashes (← required get "PUBLIC_URL")
  let tenantSalt ← secret get "TENANT_SALT"
  let signingSecret ← secret get "SIGNING_SECRET"
  let apiKeys ← apiKeys platform get
  let dcrClientId := given get "DCR_CLIENT_ID"
  let oauthRedirectUris ← oauthRedirectUris platform get
  checkRedirects dcrClientId oauthRedirectUris
  let oidc ← oidc get publicUrl
  checkCredentials apiKeys oidc
  let bindAddr ← parse platform.parseAddr get "BIND_ADDR" "0.0.0.0:3000" "socket address"
  let metricsBindAddr ←
    parse platform.parseAddr get "METRICS_BIND_ADDR" "0.0.0.0:9090" "socket address"
  let signedUrlTtl ← duration get "SIGNED_URL_TTL" ⟨15 * 60, by decide⟩
  let compileTimeout ← duration get "COMPILE_TIMEOUT" ⟨20, by decide⟩
  let maxConcurrentCompiles ←
    number get "MAX_CONCURRENT_COMPILES" (defaultConcurrency platform)
  let maxMcpSessions ← number get "MAX_MCP_SESSIONS" ⟨256, by decide⟩
  let workerMemoryBytes ← number get "WORKER_MEMORY_BYTES" ⟨512 * 1024 * 1024, by decide⟩
  let maxBundleBytes ← number get "MAX_BUNDLE_BYTES" ⟨8 * 1024 * 1024, by decide⟩
  let maxUploadBytes ← number get "MAX_UPLOAD_BYTES" ⟨16 * 1024 * 1024, by decide⟩
  let maxPages ← number get "MAX_PAGES" ⟨200, by decide⟩
  let previewMaxPx ← number get "PREVIEW_MAX_PX" ⟨2000, by decide⟩
  let limits ← limits get
  return {
    publicUrl, bindAddr, metricsBindAddr
    dataDir := path get "DATA_DIR" "/data"
    templateDir := path get "TEMPLATE_DIR" "/usr/share/typst-mcp/templates"
    fontDirs := match given get "FONT_DIRS" with
      | some value => (value.toList.splitOn ':').map String.ofList
      | none => ["/usr/share/fonts/typst"]
    tenantSalt, signingSecret, signedUrlTtl, apiKeys, oidc, dcrClientId, oauthRedirectUris
    workerExe := given get "WORKER_EXE"
    compileTimeout, maxConcurrentCompiles, maxMcpSessions, workerMemoryBytes, maxBundleBytes
    maxUploadBytes, maxPages, previewMaxPx, limits }

/-! ## What an accepted configuration was read from -/

variable {platform get}

theorem limits_read {read : Limits} (accepted : limits get = .ok read) :
    (∃ secs, duration get "OUTPUT_TTL" ⟨2 * 60 * 60, by decide⟩ = .ok secs ∧
        read.ttl .output = secs.val) ∧
      (∃ secs, duration get "ASSET_TTL" ⟨24 * 60 * 60, by decide⟩ = .ok secs ∧
        read.ttl .asset = secs.val) ∧
      ∃ secs, duration get "TEMPLATE_TTL" ⟨7 * 24 * 60 * 60, by decide⟩ = .ok secs ∧
        read.ttl .template = secs.val := by
  unfold limits at accepted
  obtain ⟨output, ofOutput, accepted⟩ := bind_eq_ok.1 accepted
  obtain ⟨asset, ofAsset, accepted⟩ := bind_eq_ok.1 accepted
  obtain ⟨template, ofTemplate, accepted⟩ := bind_eq_ok.1 accepted
  obtain ⟨_, -, accepted⟩ := bind_eq_ok.1 accepted
  obtain ⟨_, -, accepted⟩ := bind_eq_ok.1 accepted
  obtain ⟨_, -, accepted⟩ := bind_eq_ok.1 accepted
  obtain ⟨_, -, accepted⟩ := bind_eq_ok.1 accepted
  obtain rfl := pure_eq_ok.1 accepted
  exact ⟨⟨output, ofOutput, rfl⟩, ⟨asset, ofAsset, rfl⟩, ⟨template, ofTemplate, rfl⟩⟩

theorem fromSource_read {config : Config Addr} (accepted : fromSource platform get = .ok config) :
    duration get "SIGNED_URL_TTL" ⟨15 * 60, by decide⟩ = .ok config.signedUrlTtl ∧
      number get "MAX_BUNDLE_BYTES" ⟨8 * 1024 * 1024, by decide⟩ = .ok config.maxBundleBytes ∧
      limits get = .ok config.limits := by
  unfold fromSource at accepted
  obtain ⟨publicUrl, -, accepted⟩ := bind_eq_ok.1 accepted
  obtain ⟨salt, -, accepted⟩ := bind_eq_ok.1 accepted
  obtain ⟨signing, -, accepted⟩ := bind_eq_ok.1 accepted
  obtain ⟨keys, -, accepted⟩ := bind_eq_ok.1 accepted
  obtain ⟨uris, -, accepted⟩ := bind_eq_ok.1 accepted
  obtain ⟨_, -, accepted⟩ := bind_eq_ok.1 accepted
  obtain ⟨oidc, -, accepted⟩ := bind_eq_ok.1 accepted
  obtain ⟨_, -, accepted⟩ := bind_eq_ok.1 accepted
  obtain ⟨bindAddr, -, accepted⟩ := bind_eq_ok.1 accepted
  obtain ⟨metricsBindAddr, -, accepted⟩ := bind_eq_ok.1 accepted
  obtain ⟨signedUrlTtl, link, accepted⟩ := bind_eq_ok.1 accepted
  obtain ⟨_, -, accepted⟩ := bind_eq_ok.1 accepted
  obtain ⟨_, -, accepted⟩ := bind_eq_ok.1 accepted
  obtain ⟨_, -, accepted⟩ := bind_eq_ok.1 accepted
  obtain ⟨_, -, accepted⟩ := bind_eq_ok.1 accepted
  obtain ⟨maxBundleBytes, bundle, accepted⟩ := bind_eq_ok.1 accepted
  obtain ⟨_, -, accepted⟩ := bind_eq_ok.1 accepted
  obtain ⟨_, -, accepted⟩ := bind_eq_ok.1 accepted
  obtain ⟨_, -, accepted⟩ := bind_eq_ok.1 accepted
  obtain ⟨read, kept, accepted⟩ := bind_eq_ok.1 accepted
  obtain rfl := pure_eq_ok.1 accepted
  exact ⟨link, bundle, kept⟩

end TypstMcp.Config
