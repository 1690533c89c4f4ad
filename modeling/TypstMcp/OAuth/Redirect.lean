/-
OAuth.Redirect -- which client redirect URIs are accepted

An allowlist of exact URIs, except that a cleartext loopback entry matches any port.
`parseUrl` is the URL parser.

* `isAllowedRedirectUri_exact`: of a parsed allowlist, what is accepted is an entry or
  differs from a cleartext loopback entry in its port alone.
-/
import TypstMcp.Auth.Principal
import TypstMcp.Theory.Checked

namespace TypstMcp.OAuth

open TypstMcp.Auth (trim)

set_option autoImplicit false

/-- The components of a parsed URL. -/
structure Url where
  scheme : String
  hostStr : Option String
  port : Option Nat
  path : String
  query : Option String
  fragment : Option String
  username : String
  password : Option String
  deriving DecidableEq, Repr

/-- Loopback hosts accepted for cleartext `http://` redirect URIs. -/
def isLoopbackHost (host : String) : Bool :=
  host ∈ ["localhost", "127.0.0.1", "[::1]", "::1"]

/-- What a redirect URI must look like; `key` names its setting in the error. -/
def validateRedirectUri (parseUrl : String → Option Url) (uri key : String) : Except String Unit :=
  if trim uri ≠ uri ∨ uri = "" then
    .error (key ++ " entries must be non-empty absolute URLs without surrounding whitespace")
  else match parseUrl uri with
    | none => .error ("invalid " ++ key ++ " redirect URI: " ++ uri)
    | some url =>
        if url.scheme = "https" ∧ url.hostStr = none then
          .error (key ++ " https entries must include a host: " ++ uri)
        else if url.scheme = "http" ∧ isLoopbackHost (url.hostStr.getD "") = false then
          .error (key ++ " http entries are only allowed on loopback hosts " ++
            "(localhost, 127.0.0.1, [::1]): " ++ uri)
        else if url.scheme = "" then
          .error (key ++ " entries must have a scheme: " ++ uri)
        else if url.fragment.isSome then
          .error (key ++ " entries must not contain URI fragments: " ++ uri)
        else if url.username ≠ "" ∨ url.password.isSome then
          .error (key ++ " entries must not contain user info: " ++ uri)
        else .ok ()

/-- The loop over the entries: each is checked, and kept once. -/
def collectUris (parseUrl : String → Option Url) (key : String) :
    List String → List String → Except String (List String)
  | uris, [] => .ok uris
  | uris, uri :: rest =>
      match validateRedirectUri parseUrl uri key with
      | .error message => .error message
      | .ok () => collectUris parseUrl key (if uri ∈ uris then uris else uris ++ [uri]) rest

/-- A comma-separated allowlist. -/
def parseAllowlist (parseUrl : String → Option Url) (raw key : String) :
    Except String (List String) :=
  let entries := ((raw.toList.splitOn ',').map fun uri => trim (String.ofList uri)).filter (· ≠ "")
  match collectUris parseUrl key [] entries with
  | .error message => .error message
  | .ok uris =>
      if uris = [] then .error (key ++ " must contain at least one redirect URI") else .ok uris

/-- A cleartext `http` URL on a loopback host. -/
def parseLoopbackHttp (parseUrl : String → Option Url) (uri : String) : Option Url :=
  (parseUrl uri).filter fun url => url.scheme = "http" && url.hostStr.any isLoopbackHost

def loopbackMatchesIgnoringPort (entry requested : Url) : Bool :=
  entry.hostStr = requested.hostStr && entry.path = requested.path &&
    entry.query = requested.query

def isAllowedRedirectUri (parseUrl : String → Option Url) (allowed : List String) (uri : String) :
    Bool :=
  if (validateRedirectUri parseUrl uri "redirect_uri").isOk = false then false
  else if uri ∈ allowed then true
  else match parseLoopbackHttp parseUrl uri with
    | none => false
    | some requested =>
        (allowed.filterMap (parseLoopbackHttp parseUrl)).any
          (loopbackMatchesIgnoringPort · requested)

/-- An accepted URI is listed, or is a loopback URI that differs from a listed one in its port
alone. -/
theorem isAllowedRedirectUri_iff {parseUrl : String → Option Url} {allowed : List String}
    {uri : String} : isAllowedRedirectUri parseUrl allowed uri = true ↔
      (validateRedirectUri parseUrl uri "redirect_uri").isOk = true ∧
        (uri ∈ allowed ∨ ∃ listed ∈ allowed, ∃ entry requested,
          parseLoopbackHttp parseUrl listed = some entry ∧
          parseLoopbackHttp parseUrl uri = some requested ∧
          loopbackMatchesIgnoringPort entry requested = true) := by
  unfold isAllowedRedirectUri
  split
  next refused => simp [refused]
  next valid =>
    rw [Bool.not_eq_false] at valid
    split
    next listed => simp [valid, listed]
    next unlisted =>
      cases parsed : parseLoopbackHttp parseUrl uri with
      | none => simp [unlisted]
      | some requested =>
          simp only [valid, unlisted, List.any_eq_true, List.mem_filterMap, true_and, false_or,
            Option.some.injEq]
          constructor
          · rintro ⟨entry, ⟨listed, inside, isEntry⟩, same⟩
            exact ⟨listed, inside, entry, requested, isEntry, rfl, same⟩
          · rintro ⟨listed, inside, entry, other, isEntry, rfl, same⟩
            exact ⟨entry, ⟨listed, inside, isEntry⟩, same⟩

/-! ## What passes -/

section Valid

variable {parseUrl : String → Option Url}

/-- A URL without user info or fragment. -/
structure Url.Plain (url : Url) : Prop where
  fragment : url.fragment = none
  username : url.username = ""
  password : url.password = none

/-- A plain `http` URL on a loopback host. -/
structure Url.Loopback (url : Url) : Prop extends url.Plain where
  scheme : url.scheme = "http"
  host : url.hostStr.any isLoopbackHost = true

/-- A redirect URI that passes, whichever setting it is from. -/
structure Valid (parseUrl : String → Option Url) (uri : String) (url : Url) : Prop where
  trimmed : trim uri = uri
  nonempty : uri ≠ ""
  parsed : parseUrl uri = some url
  https : url.scheme = "https" → url.hostStr ≠ none
  http : url.scheme = "http" → isLoopbackHost (url.hostStr.getD "") = true
  scheme : url.scheme ≠ ""
  plain : url.Plain

theorem validateRedirectUri_iff {uri key : String} :
    (validateRedirectUri parseUrl uri key).isOk = true ↔ ∃ url, Valid parseUrl uri url := by
  unfold validateRedirectUri
  constructor
  · intro passed
    split at passed
    · cases passed
    next shaped =>
      split at passed
      · cases passed
      next url parsed =>
        split_ifs at passed with https http scheme fragment user
        · cases passed
        · cases passed
        · cases passed
        · cases passed
        · cases passed
        · simp only [ne_eq, not_or, not_not] at shaped
          simp only [ne_eq, not_or, not_not, Bool.not_eq_true, Option.isSome_eq_false_iff,
            Option.isNone_iff_eq_none] at user fragment
          refine ⟨url, shaped.1, shaped.2, parsed, ?_, ?_, scheme, fragment, user.1, user.2⟩
          · exact fun is none_ => https ⟨is, none_⟩
          · exact fun is => Bool.of_not_eq_false fun remote => http ⟨is, remote⟩
  · rintro ⟨url, valid⟩
    have plain := valid.plain
    rw [if_neg (by simp [valid.trimmed, valid.nonempty]), valid.parsed]
    dsimp only
    rw [if_neg (fun wrong => valid.https wrong.1 wrong.2), if_neg, if_neg valid.scheme,
      if_neg (by simp [plain.fragment]), if_neg (by simp [plain.username, plain.password])]
    · rfl
    · rintro ⟨is, remote⟩
      rw [valid.http is] at remote
      cases remote

theorem isLoopbackHost_getD {host : Option String} :
    isLoopbackHost (host.getD "") = host.any isLoopbackHost := by
  cases host <;> rfl

/-- A valid `http` URI is on a loopback host. -/
theorem Valid.loopback {uri : String} {url : Url} (valid : Valid parseUrl uri url)
    (http : url.scheme = "http") : url.Loopback :=
  ⟨valid.plain, http, isLoopbackHost_getD ▸ valid.http http⟩

theorem Url.Loopback.valid {uri : String} {url : Url} (loopback : url.Loopback)
    (trimmed : trim uri = uri) (nonempty : uri ≠ "") (parsed : parseUrl uri = some url) :
    Valid parseUrl uri url := by
  have scheme := loopback.scheme
  refine ⟨trimmed, nonempty, parsed, ?_, ?_, ?_, loopback.toPlain⟩
  · intro https
    rw [scheme] at https
    exact absurd https (by decide)
  · exact fun _ => isLoopbackHost_getD.trans loopback.host
  · rw [scheme]
    decide

theorem parseLoopbackHttp_eq_some {uri : String} {url : Url} :
    parseLoopbackHttp parseUrl uri = some url ↔
      parseUrl uri = some url ∧ url.scheme = "http" ∧ url.hostStr.any isLoopbackHost = true := by
  rw [parseLoopbackHttp, Option.filter_eq_some_iff]
  simp

/-- Two loopback URLs that differ in the port alone. -/
theorem loopbackMatchesIgnoringPort_iff {entry requested : Url} (listed : entry.Loopback)
    (asked : requested.Loopback) : loopbackMatchesIgnoringPort entry requested = true ↔
      { entry with port := requested.port } = requested := by
  obtain ⟨scheme, host, port, path, query, fragment, username, password⟩ := entry
  obtain ⟨scheme', host', port', path', query', fragment', username', password'⟩ := requested
  obtain ⟨⟨rfl, rfl, rfl⟩, rfl, -⟩ := listed
  obtain ⟨⟨rfl, rfl, rfl⟩, rfl, -⟩ := asked
  simp [loopbackMatchesIgnoringPort, and_assoc]

/-! ## The allowlist -/

/-- The loop keeps what passed. -/
theorem collectUris_valid {key : String} {entries uris allowed : List String}
    (kept : ∀ uri ∈ uris, ∃ url, Valid parseUrl uri url)
    (collected : collectUris parseUrl key uris entries = .ok allowed) :
    ∀ uri ∈ allowed, ∃ url, Valid parseUrl uri url := by
  induction entries generalizing uris with
  | nil =>
      obtain rfl := Except.ok.inj collected
      exact kept
  | cons entry rest ih =>
      rw [collectUris] at collected
      split at collected
      · cases collected
      next passed =>
        have valid : ∃ url, Valid parseUrl entry url :=
          (@validateRedirectUri_iff parseUrl entry key).1 (by rw [passed]; rfl)
        refine ih ?_ collected
        intro uri inside
        split at inside
        · exact kept uri inside
        · rcases List.mem_append.1 inside with inside | inside
          · exact kept uri inside
          · rwa [List.mem_singleton.1 inside]

theorem parseAllowlist_valid {raw key : String} {allowed : List String}
    (listed : parseAllowlist parseUrl raw key = .ok allowed) :
    ∀ uri ∈ allowed, ∃ url, Valid parseUrl uri url := by
  unfold parseAllowlist at listed
  dsimp only at listed
  split at listed
  · cases listed
  next uris collected =>
    split_ifs at listed
    obtain rfl := Except.ok.inj listed
    exact collectUris_valid (by simp) collected

/-- A URI that a listed one stands for: the same, but for the port. -/
def Relaxed (parseUrl : String → Option Url) (allowed : List String) (uri : String) : Prop :=
  trim uri = uri ∧ ∃ listed ∈ allowed, ∃ entry requested,
    parseUrl listed = some entry ∧ parseUrl uri = some requested ∧
    entry.Loopback ∧ requested.Loopback ∧ { entry with port := requested.port } = requested

variable {allowed : List String} {uri : String}

/-- An accepted URI is valid itself. -/
theorem valid_of_accepted (accepted : isAllowedRedirectUri parseUrl allowed uri = true) :
    ∃ url, Valid parseUrl uri url :=
  validateRedirectUri_iff.1 (isAllowedRedirectUri_iff.1 accepted).1

theorem accepted_iff (empty : parseUrl "" = none)
    (valid : ∀ listed ∈ allowed, ∃ url, Valid parseUrl listed url) :
    isAllowedRedirectUri parseUrl allowed uri = true ↔
      uri ∈ allowed ∨ Relaxed parseUrl allowed uri := by
  rw [isAllowedRedirectUri_iff, validateRedirectUri_iff]
  constructor
  · rintro ⟨⟨url, asked⟩, inside | ⟨listed, inside, entry, requested, isEntry, isRequested, same⟩⟩
    · exact .inl inside
    · obtain ⟨parsed, http, -⟩ := parseLoopbackHttp_eq_some.1 isEntry
      obtain ⟨parsed', http', -⟩ := parseLoopbackHttp_eq_some.1 isRequested
      obtain ⟨url', known⟩ := valid listed inside
      obtain rfl : url' = entry := Option.some.inj (known.parsed.symm.trans parsed)
      obtain rfl : url = requested := Option.some.inj (asked.parsed.symm.trans parsed')
      have loopback := known.loopback http
      have loopback' := asked.loopback http'
      exact .inr ⟨asked.trimmed, listed, inside, url', url, parsed, parsed', loopback, loopback',
        (loopbackMatchesIgnoringPort_iff loopback loopback').1 same⟩
  · rintro (inside | ⟨trimmed, listed, inside, entry, requested, parsed, parsed', loopback, loopback',
      same⟩)
    · exact ⟨valid uri inside, .inl inside⟩
    · have nonempty : uri ≠ "" := by
        rintro rfl
        rw [empty] at parsed'
        cases parsed'
      refine ⟨⟨requested, loopback'.valid trimmed nonempty parsed'⟩, .inr ⟨listed, inside, entry,
        requested, ?_, ?_, (loopbackMatchesIgnoringPort_iff loopback loopback').2 same⟩⟩
      · exact parseLoopbackHttp_eq_some.2 ⟨parsed, loopback.scheme, loopback.host⟩
      · exact parseLoopbackHttp_eq_some.2 ⟨parsed', loopback'.scheme, loopback'.host⟩

/-- An entry that is no `http` URL stands for no other. -/
theorem Relaxed.without (relaxed : Relaxed parseUrl allowed uri) {exact_ : String} {url : Url}
    (parsed : parseUrl exact_ = some url) (scheme : url.scheme ≠ "http") :
    Relaxed parseUrl (allowed.filter (· ≠ exact_)) uri := by
  obtain ⟨trimmed, listed, inside, entry, requested, isEntry, rest⟩ := relaxed
  refine ⟨trimmed, listed, List.mem_filter.2 ⟨inside, ?_⟩, entry, requested, isEntry, rest⟩
  rw [decide_eq_true_eq]
  rintro rfl
  obtain rfl : url = entry := Option.some.inj (parsed.symm.trans isEntry)
  exact scheme rest.2.1.scheme

/-- **The allowlist is exact up to the loopback port.**  A URL parser reads nothing from the empty
string. -/
theorem isAllowedRedirectUri_exact (parseUrl : String → Option Url) (empty : parseUrl "" = none)
    {raw key : String} {allowed : List String}
    (listed : parseAllowlist parseUrl raw key = .ok allowed) (uri : String) :
    (isAllowedRedirectUri parseUrl allowed uri = true ↔
      uri ∈ allowed ∨ Relaxed parseUrl allowed uri) ∧
    -- An `http` URI is on a loopback host.
    (isAllowedRedirectUri parseUrl allowed uri = true →
      ∃ url, parseUrl uri = some url ∧ (url.scheme = "http" → url.hostStr.any isLoopbackHost = true)) ∧
    -- Every other entry admits itself alone.
    ∀ entry ∈ allowed, ∀ url, parseUrl entry = some url → url.scheme ≠ "http" →
      isAllowedRedirectUri parseUrl allowed uri = true → uri ≠ entry →
      isAllowedRedirectUri parseUrl (allowed.filter (· ≠ entry)) uri = true := by
  have valid := parseAllowlist_valid listed
  refine ⟨accepted_iff empty valid, ?_, ?_⟩
  · intro accepted
    obtain ⟨url, asked⟩ := valid_of_accepted accepted
    exact ⟨url, asked.parsed, fun http => (asked.loopback http).host⟩
  · intro entry inside url parsed scheme accepted other
    rw [accepted_iff empty fun uri kept => valid uri (List.mem_of_mem_filter kept)]
    rcases (accepted_iff empty valid).1 accepted with known | relaxed
    · exact .inl (List.mem_filter.2 ⟨known, by simpa using other⟩)
    · exact .inr (relaxed.without parsed scheme)

end Valid

/-- A parser for these URLs. -/
def portsUrl (text : String) : Option Url :=
  [("https://claude.ai/cb", "https", "claude.ai", none),
    ("http://localhost:8787/cb", "http", "localhost", some 8787),
    ("http://localhost:3118/cb", "http", "localhost", some 3118)].lookup text |>.map
      fun (scheme, host, port) => {
        scheme
        hostStr := some host
        port
        path := "/cb"
        query := none
        fragment := none
        username := ""
        password := none }

theorem isAllowedRedirectUri_exact_port :
    isAllowedRedirectUri portsUrl ["https://claude.ai/cb", "http://localhost:8787/cb"]
      "http://localhost:3118/cb" = true := by
  have listed : parseAllowlist portsUrl "https://claude.ai/cb, http://localhost:8787/cb" "TEST" =
      .ok ["https://claude.ai/cb", "http://localhost:8787/cb"] := by
    decide +kernel
  refine (isAllowedRedirectUri_exact portsUrl rfl listed _).1.2 (.inr ?_)
  refine ⟨by decide +kernel, "http://localhost:8787/cb", by simp, _, _, rfl, rfl, ?_, ?_, rfl⟩
  · exact ⟨⟨rfl, rfl, rfl⟩, rfl, rfl⟩
  · exact ⟨⟨rfl, rfl, rfl⟩, rfl, rfl⟩

end TypstMcp.OAuth
