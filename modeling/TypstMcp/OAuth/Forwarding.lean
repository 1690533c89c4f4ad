/-
OAuth.Forwarding -- what the provider is asked on a client's behalf

`authorize` rewrites the query of an accepted request in one loop and passes it on.
`Rewritten` says what the client and the provider may then rely on: our callback and no
other, one signed state that leads back to the client, scopes with the API's among them,
our own resource, and everything else as the client sent it.

* `authorize_rewrites_iff`: exactly the requests that name our resource beside a
  stranger's are not rewritten so.  The stranger's has all of them dropped, and ours,
  having been seen, is not put back.
-/
import TypstMcp.OAuth.Binding

namespace TypstMcp.OAuth

open TypstMcp.Theory TypstMcp.Theory.FormUrl
open TypstMcp.Auth (splitWhitespace isWhiteSpace)
open TypstMcp.Store (saturatingAdd)
open OAuthProxyState

set_option autoImplicit false

/-! ## Words -/

section Words

variable {α : Type} {p : α → Bool}

theorem splitOnP_mem (text : List α) : ∀ part ∈ text.splitOnP p, ∀ c ∈ part, p c = false := by
  induction text with
  | nil => simp
  | cons c rest ih =>
      rw [List.splitOnP_cons_eq_if_modifyHead]
      split
      · simpa using ih
      next plain =>
        rw [Bool.not_eq_true] at plain
        cases parts : rest.splitOnP p with
        | nil => simp
        | cons first more =>
            rw [parts] at ih
            simp only [List.modifyHead_cons, List.mem_cons, forall_eq_or_imp] at ih ⊢
            exact ⟨⟨plain, ih.1⟩, ih.2⟩

/-- Parts joined at a cut come apart again. -/
theorem splitOnP_join {sep : α} (cut : p sep = true) {parts : List (List α)}
    (each : ∀ part ∈ parts, ∀ c ∈ part, p c = false) (any : parts ≠ []) :
    ([sep].intercalate parts).splitOnP p = parts := by
  induction parts with
  | nil => exact absurd rfl any
  | cons part rest ih =>
      simp only [List.mem_cons, forall_eq_or_imp] at each
      cases rest with
      | nil => simpa using List.splitOnP_eq_singleton each.1
      | cons next more =>
          rw [List.intercalate_cons_cons, List.append_assoc, List.singleton_append,
            List.splitOnP_append_cons_of_forall_mem each.1 _ cut, ih each.2 (by simp)]

end Words

/-- A text that splitting at whitespace leaves whole. -/
def Word (text : String) : Prop := text ≠ "" ∧ ∀ c ∈ text.toList, isWhiteSpace c = false

instance (text : String) : Decidable (Word text) :=
  decidable_of_iff (text ≠ "" ∧ text.toList.all (fun c => !isWhiteSpace c) = true) (by simp [Word])

theorem splitWhitespace_words (text : String) : ∀ word ∈ splitWhitespace text, Word word := by
  intro word inside
  obtain ⟨part, kept, rfl⟩ := List.mem_map.1 inside
  obtain ⟨cut, some⟩ := List.mem_filter.1 kept
  refine ⟨by simpa using some, ?_⟩
  rw [String.toList_ofList]
  exact splitOnP_mem _ part cut

theorem splitWhitespace_join {words : List String} (each : ∀ word ∈ words, Word word) :
    splitWhitespace (" ".intercalate words) = words := by
  by_cases any : words = []
  · subst any
    decide
  have plain : ∀ part ∈ words.map String.toList, ∀ c ∈ part, isWhiteSpace c = false := by
    simpa using fun word inside => (each word inside).2
  have nonempty : ∀ part ∈ words.map String.toList, decide (part ≠ []) = true := by
    simpa using fun word inside => (each word inside).1
  rw [splitWhitespace, String.toList_intercalate]
  rw [show " ".toList = [' '] from rfl, splitOnP_join (by decide) plain (by simpa using any),
    List.filter_eq_self.2 nonempty, List.map_map]
  simp

/-! ## Scopes -/

/-- The short names of the API's scope. -/
def namesApiScope (apiScope s : String) : Bool :=
  s = "render" || (apiScope.toList.splitOn '/').getLast? = some s.toList

/-- What becomes of a scope value. -/
structure ScopeSent (apiScope asked sent : String) : Prop where
  api : apiScope ∈ splitWhitespace sent
  openid : "openid" ∈ splitWhitespace sent
  offline : "offline_access" ∈ splitWhitespace sent
  /-- The other scopes asked for, in their order. -/
  kept : ((splitWhitespace asked).filter (! namesApiScope apiScope ·)).Sublist (splitWhitespace sent)

/-- A scope that is always asked for. -/
def including (scope : String) (parts : List String) : List String :=
  if scope ∈ parts then parts else parts ++ [scope]

theorem mem_including (scope : String) (parts : List String) : scope ∈ including scope parts := by
  unfold including
  split
  · assumption
  · simp

theorem sublist_including (scope : String) (parts : List String) :
    parts.Sublist (including scope parts) := by
  unfold including
  split
  · exact .refl _
  · exact List.sublist_append_left _ _

theorem including_words {scope : String} {parts : List String} (word : Word scope)
    (each : ∀ part ∈ parts, Word part) : ∀ part ∈ including scope parts, Word part := by
  unfold including
  split
  · exact each
  · simpa [or_imp, forall_and, word] using each

/-- A scope under its full name. -/
def qualify (apiScope s : String) : String := if namesApiScope apiScope s then apiScope else s

theorem rewriteScope_eq (asked apiScope : String) : rewriteScope asked apiScope = " ".intercalate
    (including "offline_access" (including "openid"
      (including apiScope ((splitWhitespace asked).map (qualify apiScope))))) := by
  have same : qualify apiScope = fun s => if s = "render" ∨
      (apiScope.toList.splitOn '/').getLast? = some s.toList then apiScope else s := by
    funext s
    simp [qualify, namesApiScope]
  rw [same]
  rfl

theorem rewriteScope_sent {apiScope : String} (word : Word apiScope) (asked : String) :
    ScopeSent apiScope asked (rewriteScope asked apiScope) := by
  have plain : ∀ part ∈ (splitWhitespace asked).map (qualify apiScope), Word part := by
    intro part inside
    obtain ⟨s, asks, rfl⟩ := List.mem_map.1 inside
    unfold qualify
    split
    · exact word
    · exact splitWhitespace_words asked s asks
  have apart := splitWhitespace_join
    (including_words (by decide : Word "offline_access")
      (including_words (by decide : Word "openid") (including_words word plain)))
  rw [← rewriteScope_eq] at apart
  have others : ((splitWhitespace asked).filter (! namesApiScope apiScope ·)).map (qualify apiScope) =
      (splitWhitespace asked).filter (! namesApiScope apiScope ·) := by
    refine (List.map_congr_left fun s inside => ?_).trans (List.map_id _)
    have other := (List.mem_filter.1 inside).2
    rw [Bool.not_eq_true'] at other
    simp [qualify, other]
  have first := sublist_including apiScope ((splitWhitespace asked).map (qualify apiScope))
  have second := sublist_including "openid" (including apiScope ((splitWhitespace asked).map
    (qualify apiScope)))
  have third := sublist_including "offline_access" (including "openid" (including apiScope
    ((splitWhitespace asked).map (qualify apiScope))))
  refine ⟨?_, ?_, ?_, ?_⟩ <;> rw [apart]
  · exact third.subset (second.subset (mem_including apiScope _))
  · exact third.subset (mem_including "openid" _)
  · exact mem_including "offline_access" _
  · rw [← others]
    exact (List.filter_sublist.map _).trans (first.trans (second.trans third))

/-! ## The pairs -/

/-- The parameters `authorize` has a say in. -/
def rewrittenNames : List String := ["redirect_uri", "state", "scope", "resource"]

/-- The scope values of a request; one that has none asks for no more than it must. -/
def askedScopes (asked : Pairs) : List String :=
  if valuesOf asked "scope" = [] then [""] else valuesOf asked "scope"

variable (st : OAuthProxyState)

/-- What the provider is sent for what a client asked. -/
structure Rewritten (now : Nat) (asked sent : Pairs) : Prop where
  redirectUri : valuesOf sent "redirect_uri" = [st.callbackUrl]
  /-- The one state leads back to the client for as long as it is fresh. -/
  state : ∃ proxyState pending, valuesOf sent "state" = [proxyState] ∧
    (∀ later, now ≤ saturatingAdd later 60 → later - now < pendingTtl →
      st.decodeState later proxyState = some pending) ∧
    valuesOf asked "redirect_uri" = [pending.clientRedirectUri] ∧
    valuesOf asked "state" = pending.clientState.toList ∧
    valuesOf asked "code_challenge" = [pending.codeChallenge]
  scopes : List.Forall₂ (ScopeSent st.apiScope) (askedScopes asked) (valuesOf sent "scope")
  resource : valuesOf sent "resource" ≠ []
  ours : ∀ value ∈ valuesOf sent "resource", value = st.mcpResource
  others : sent.filter (·.1 ∉ rewrittenNames) = asked.filter (·.1 ∉ rewrittenNames)

/-- Our resource is asked for, and a stranger's too. -/
def MixesResources (asked : Pairs) : Prop :=
  (∃ value ∈ valuesOf asked "resource", (rewriteResource value st.mcpResource).isSome = true) ∧
    ∃ value ∈ valuesOf asked "resource", rewriteResource value st.mcpResource = none

section Sent

variable {st} {now : Nat} {asked : Pairs} {proxyState : String}

theorem redirectUri_sent {uri : String} (one : valuesOf asked "redirect_uri" = [uri]) :
    valuesOf (st.authorizePairs proxyState asked) "redirect_uri" = [st.callbackUrl] := by
  rw [valuesOf_authorizePairs (by decide), one]
  simp [authorizeValue]

theorem scopes_sent : valuesOf (st.authorizePairs proxyState asked) "scope" =
    (askedScopes asked).map (rewriteScope · st.apiScope) := by
  have rewrites : st.authorizeValue proxyState "scope" = (rewriteScope · st.apiScope) := by
    funext value
    simp [authorizeValue]
  rw [valuesOf_authorizePairs (by decide), rewrites, if_neg (by simp), List.append_nil, askedScopes]
  simp only [any_eq_false_iff, and_true]
  split_ifs with none_
  · rw [none_]
    rfl
  · exact List.append_nil _

/-- Whether some value of a parameter is such. -/
theorem any_value {q : String → Bool} {name : String} :
    (asked.any fun (k, v) => k = name && q v) = (valuesOf asked name).any q := by
  unfold valuesOf
  rw [List.any_map, List.any_filter]
  rfl

theorem valuesOf_dropped (pairs : Pairs) (name : String) :
    valuesOf (pairs.filter (·.1 ≠ name)) name = [] := by
  unfold valuesOf
  rw [List.filter_filter, List.map_eq_nil_iff, List.filter_eq_nil_iff]
  simp

/-- A stranger's resource takes them all. -/
theorem resources_kept (mcpResource : String) (rewritten : Pairs) :
    valuesOf (keepResource mcpResource asked rewritten) "resource" =
      if (valuesOf asked "resource").any fun v => (rewriteResource v mcpResource).isNone then []
      else valuesOf rewritten "resource" := by
  have foreign := @any_value asked (fun v => (rewriteResource v mcpResource).isNone) "resource"
  unfold keepResource
  rw [foreign]
  split
  · exact valuesOf_dropped rewritten "resource"
  · rfl

/-- What is sent as resources, by what was seen among those asked for. -/
theorem resources_sent : valuesOf (st.authorizePairs proxyState asked) "resource" =
    (if (valuesOf asked "resource").any fun v => (rewriteResource v st.mcpResource).isNone then []
      else (valuesOf asked "resource").map fun v => (rewriteResource v st.mcpResource).getD v) ++
    if (valuesOf asked "resource").any fun v => (rewriteResource v st.mcpResource).isSome then []
      else [st.mcpResource] := by
  have rewrites : st.authorizeValue proxyState "resource" =
      fun v => (rewriteResource v st.mcpResource).getD v := by
    funext value
    simp [authorizeValue]
  have seen := @any_value asked (fun v => (rewriteResource v st.mcpResource).isSome) "resource"
  unfold authorizePairs
  dsimp only
  rw [valuesOf_append, valuesOf_append, valuesOf_append, valuesOf_unadded _ (by decide),
    valuesOf_unadded _ (by decide), resources_kept, valuesOf_map, rewrites, List.append_nil,
    List.append_nil, seen]
  congr 1
  split <;> rfl

theorem rewriteResource_own {value mcpResource : String}
    (own : (rewriteResource value mcpResource).isSome = true) :
    rewriteResource value mcpResource = some mcpResource := by
  unfold rewriteResource at own ⊢
  dsimp only at own ⊢
  split at own
  next same => rw [if_pos same]
  · cases own

/-- Every value is ours where none is a stranger's, and one is sent. -/
theorem resources_ours (unmixed : ¬MixesResources st asked) :
    valuesOf (st.authorizePairs proxyState asked) "resource" ≠ [] ∧
      ∀ value ∈ valuesOf (st.authorizePairs proxyState asked) "resource", value = st.mcpResource := by
  rw [resources_sent]
  by_cases own : (valuesOf asked "resource").any (fun v => (rewriteResource v st.mcpResource).isSome)
  · obtain ⟨first, inside, seen⟩ := List.any_eq_true.1 own
    have all : ∀ value ∈ valuesOf asked "resource",
        (rewriteResource value st.mcpResource).isSome = true := by
      intro value inside'
      by_contra foreign
      exact unmixed ⟨⟨first, inside, seen⟩, value, inside', by simpa using foreign⟩
    have none_ : ¬(valuesOf asked "resource").any
        (fun v => (rewriteResource v st.mcpResource).isNone) = true := by
      rw [List.any_eq_true]
      rintro ⟨value, inside', foreign⟩
      rw [Option.isNone_iff_eq_none] at foreign
      have seen' := all value inside'
      rw [foreign] at seen'
      cases seen'
    rw [if_pos own, if_neg none_, List.append_nil]
    refine ⟨?_, ?_⟩
    · rw [Ne, List.map_eq_nil_iff]
      exact List.ne_nil_of_mem inside
    · intro value sent
      obtain ⟨given, inside', rfl⟩ := List.mem_map.1 sent
      rw [rewriteResource_own (all given inside'), Option.getD_some]
  · have first : (if (valuesOf asked "resource").any fun v => (rewriteResource v st.mcpResource).isNone
        then [] else (valuesOf asked "resource").map fun v =>
          (rewriteResource v st.mcpResource).getD v) = [] := by
      cases values : valuesOf asked "resource" with
      | nil => rfl
      | cons value rest =>
          -- The first is not ours, so it drops all.
          rw [values, List.any_cons, Bool.or_eq_true, not_or, Bool.not_eq_true,
            Option.isSome_eq_false_iff] at own
          rw [List.any_cons, own.1, Bool.true_or, if_pos rfl]
    rw [first, if_neg own, List.nil_append]
    simp

/-- None is sent where both are asked for. -/
theorem resources_mixed (mixed : MixesResources st asked) :
    valuesOf (st.authorizePairs proxyState asked) "resource" = [] := by
  obtain ⟨⟨own, inside, seen⟩, other, inside', dropped⟩ := mixed
  rw [resources_sent, if_pos (List.any_eq_true.2 ⟨other, inside', by rw [dropped]; rfl⟩),
    if_pos (List.any_eq_true.2 ⟨own, inside, seen⟩), List.append_nil]

/-- What `authorize` has no say in passes, in its order. -/
theorem others_sent : (st.authorizePairs proxyState asked).filter (·.1 ∉ rewrittenNames) =
    asked.filter (·.1 ∉ rewrittenNames) := by
  have added : ∀ (seen : Bool) {name : String} (value : String), name ∈ rewrittenNames →
      ((if seen then [] else [(name, value)]) : Pairs).filter (·.1 ∉ rewrittenNames) = [] := by
    intro seen name value inside
    cases seen <;> simp [inside]
  have kept : ∀ rewritten : Pairs, (keepResource st.mcpResource asked rewritten).filter
      (·.1 ∉ rewrittenNames) = rewritten.filter (·.1 ∉ rewrittenNames) := by
    intro rewritten
    unfold keepResource
    split
    · rw [List.filter_filter]
      apply List.filter_congr
      intro pair _
      by_cases resource : pair.1 = "resource"
      · simp [resource, rewrittenNames]
      · simp [resource]
    · rfl
  unfold authorizePairs
  dsimp only
  rw [List.filter_append, List.filter_append, List.filter_append, added _ _ (by decide),
    added _ _ (by decide), added _ _ (by decide), kept, List.append_nil, List.append_nil,
    List.append_nil]
  clear kept
  induction asked with
  | nil => rfl
  | cons pair rest ih =>
      rw [List.map_cons, List.filter_cons, List.filter_cons, ih]
      by_cases other : pair.1 ∈ rewrittenNames
      · simp [other]
      · have same : st.authorizeValue proxyState pair.1 pair.2 = pair.2 := by
          simp only [rewrittenNames, List.mem_cons, List.not_mem_nil, or_false, not_or] at other
          simp [authorizeValue, other]
        rw [same]

theorem clientState_refuses {reply : Reply} (refused : clientState asked = .error reply) :
    ∃ status text, reply = .refuse status text := by
  unfold clientState at refused
  split at refused
  · cases refused
  · cases refused
  · exact ⟨_, _, (Except.error.inj refused).symm⟩

/-- What fails a check is refused, not sent on. -/
theorem authorizePending_refuses {reply : Reply}
    (refused : st.authorizePending now asked = .error reply) :
    ∃ status text, reply = .refuse status text := by
  unfold authorizePending at refused
  split at refused
  · exact ⟨_, _, (Except.error.inj refused).symm⟩
  split at refused
  · exact ⟨_, _, (Except.error.inj refused).symm⟩
  split at refused
  · exact ⟨_, _, (Except.error.inj refused).symm⟩
  split at refused
  · exact ⟨_, _, (Except.error.inj refused).symm⟩
  split at refused
  · exact ⟨_, _, (Except.error.inj refused).symm⟩
  split at refused
  next ambiguous =>
    obtain rfl := Except.error.inj refused
    exact clientState_refuses ambiguous
  split at refused
  · exact ⟨_, _, (Except.error.inj refused).symm⟩
  split at refused
  · exact ⟨_, _, (Except.error.inj refused).symm⟩
  split at refused
  · exact ⟨_, _, (Except.error.inj refused).symm⟩
  · cases refused

/-- The state signed is the client's own. -/
theorem authorizePending_state {pending : Pending}
    (passed : st.authorizePending now asked = .ok pending) :
    valuesOf asked "state" = pending.clientState.toList := by
  obtain ⟨redirectUri, client, challenge, -, -, accepted, -, rfl⟩ := authorizePending_passed passed
  exact clientState_ok accepted

theorem state_sent_once {pending : Pending} (passed : st.authorizePending now asked = .ok pending) :
    valuesOf (st.authorizePairs proxyState asked) "state" = [proxyState] :=
  exactlyOne_eq_some.1 (authorizePairs_state proxyState (authorizePending_ok passed).state)

theorem decodeState_encodeState {pending : Pending} {later : Nat}
    (skew : pending.issuedAt ≤ saturatingAdd later 60)
    (recent : later - pending.issuedAt < pendingTtl) :
    st.decodeState later (st.encodeState pending) = some pending :=
  decodeBlob_encodeBlob (st.pending_round_trip pending) skew recent

/-- All of it, but for the resource. -/
theorem rewritten_iff {pending : Pending} (word : Word st.apiScope)
    (passed : st.authorizePending now asked = .ok pending) :
    Rewritten st now asked (st.authorizePairs (st.encodeState pending) asked) ↔
      ¬MixesResources st asked := by
  have checked := authorizePending_ok passed
  constructor
  · intro rewritten mixed
    exact rewritten.resource (resources_mixed mixed)
  · intro unmixed
    obtain ⟨resource, ours⟩ := @resources_ours st asked (st.encodeState pending) unmixed
    refine ⟨redirectUri_sent (exactlyOne_eq_some.1 checked.redirectUri), ?_, ?_, resource, ours,
      others_sent⟩
    · refine ⟨st.encodeState pending, pending, state_sent_once passed, ?_,
        exactlyOne_eq_some.1 checked.redirectUri, authorizePending_state passed,
        exactlyOne_eq_some.1 checked.challenge⟩
      intro later skew recent
      rw [← checked.issuedAt] at skew recent
      exact decodeState_encodeState skew recent
    · rw [scopes_sent, List.forall₂_map_right_iff]
      exact List.forall₂_same.2 fun asked _ => rewriteScope_sent word asked

end Sent

/-- **What is forwarded is rewritten completely**, unless our resource is asked for beside a
stranger's. -/
theorem authorize_rewrites_iff (now : Nat) (query : Option String) {location : String}
    (word : Word st.apiScope) (answered : st.authorize now query = .redirect location) :
    ∃ forwarded, location = st.entraAuthorize ++ "?" ++ forwarded ∧
      (Rewritten st now (parse (query.getD "")) (parse forwarded) ↔
        ¬MixesResources st (parse (query.getD ""))) := by
  unfold authorize at answered
  dsimp only at answered
  cases passed : st.authorizePending now (parse (query.getD "")) with
  | error reply =>
      rw [passed] at answered
      obtain ⟨status, text, rfl⟩ := authorizePending_refuses passed
      cases answered
  | ok pending =>
      rw [passed] at answered
      obtain rfl := Reply.redirect.inj answered
      refine ⟨_, rfl, ?_⟩
      rw [parse_serialize]
      exact rewritten_iff word passed

/-! ## Two requests -/

section Requests

variable {st} {now : Nat} {asked : Pairs}

theorem authorize_redirects {pending : Pending} (passed : st.authorizePending now asked = .ok pending) :
    st.authorize now (some (serialize asked)) = .redirect (st.entraAuthorize ++ "?" ++
      serialize (st.authorizePairs (st.encodeState pending) asked)) := by
  simp [authorize, parse_serialize, passed]

theorem passed_of_signs {message : Bytes}
    (signed : signs st (.authorize now (some (serialize asked))) = some message) :
    ∃ pending, st.authorizePending now asked = .ok pending := by
  simp only [signs, Option.getD_some, parse_serialize] at signed
  cases passed : st.authorizePending now asked with
  | ok pending => exact ⟨pending, rfl⟩
  | error reply =>
      rw [passed] at signed
      cases signed

/-- What is forwarded is what follows the question mark. -/
theorem forwarded_inj {base sent forwarded : String}
    (same : base ++ "?" ++ sent = base ++ "?" ++ forwarded) : sent = forwarded := by
  have chars := congrArg String.toList same
  simp only [String.toList_append] at chars
  exact String.toList_inj.1 (List.append_cancel_left chars)

end Requests

/-- A sign-in with a scope, a state and a resource of the client's, beside a parameter of its own. -/
def fullAsked : Pairs :=
  [("response_type", "code"), ("client_id", "test-client"), ("redirect_uri", sampleUri),
    ("scope", "profile render"), ("state", "a&b c"), ("prompt", "consent"),
    ("resource", "https://typst-mcp.example.test/"),
    ("code_challenge", samplePending.codeChallenge), ("code_challenge_method", "S256")]

def fullPending : Pending := { samplePending with clientState := some "a&b c" }

/-- The sample deployment, with its key's HMAC at the state of that sign-in. -/
def fullState : OAuthProxyState :=
  sampleAt (Auth.hmacAt
    (stateDomain ++ fullPending.toVec, [222, 104, 152, 188, 98, 248, 107, 145, 60, 167, 128, 187, 44,
      145, 93, 224, 221, 233, 233, 135, 72, 235, 179, 125, 33, 226, 121, 82, 107, 110, 153, 121])
    (stateDomain ++ samplePending.toVec, [87, 35, 175, 246, 79, 2, 86, 35, 204, 237, 51, 248, 92, 154,
      179, 196, 187, 8, 13, 193, 207, 4, 118, 147, 167, 194, 17, 112, 4, 184, 13, 11])
    ⟨rfl, rfl⟩)

/-- What the provider is sent for it, with our state in it. -/
def fullSent (proxyState : String) : Pairs :=
  [("response_type", "code"), ("client_id", "test-client"),
    ("redirect_uri", "https://typst-mcp.example.test/oauth/callback"),
    ("scope", "profile api://typst-mcp/render openid offline_access"),
    ("state", proxyState), ("prompt", "consent"), ("resource", "https://typst-mcp.example.test/mcp"),
    ("code_challenge", samplePending.codeChallenge), ("code_challenge_method", "S256")]

theorem authorize_rewrites_full :
    fullState.authorize 1000 (some (serialize fullAsked)) =
      .redirect (fullState.entraAuthorize ++ "?" ++
        serialize (fullSent (fullState.encodeState fullPending))) ∧
    Rewritten fullState 1000 fullAsked (fullSent (fullState.encodeState fullPending)) := by
  have passed : fullState.authorizePending 1000 fullAsked = .ok fullPending := by
    rfl
  have answered := authorize_redirects passed
  have sent : ∀ state, fullState.authorizePairs state fullAsked = fullSent state := fun _ => rfl
  rw [sent] at answered
  obtain ⟨forwarded, same, rewritten⟩ := authorize_rewrites_iff fullState 1000
    (some (serialize fullAsked)) (by decide) answered
  obtain rfl := forwarded_inj same
  rw [Option.getD_some, parse_serialize, parse_serialize] at rewritten
  refine ⟨answered, rewritten.2 ?_⟩
  rintro ⟨-, value, inside, foreign⟩
  obtain rfl : value = "https://typst-mcp.example.test/" := by
    simpa [fullAsked, valuesOf] using inside
  exact absurd foreign (by decide +kernel)

/-- The request with our resource and another's. -/
def mixedAsked : Pairs :=
  sampleAsked ++ [("resource", sampleState.mcpResource), ("resource", "https://other.example.test")]

/-- Of two resources asked for, none is forwarded. -/
theorem authorize_mixes_resources :
    ¬∀ (st : OAuthProxyState) (now : Nat) (query : Option String) (location : String),
      Word st.apiScope → st.authorize now query = .redirect location →
      ∃ forwarded, location = st.entraAuthorize ++ "?" ++ forwarded ∧
        Rewritten st now (parse (query.getD "")) (parse forwarded) := by
  intro claimed
  have signed : (signs sampleState (.authorize 1000 (some (serialize mixedAsked)))).isSome = true := by
    rw [authorize_signs]
    · rfl
    · simp [mixedAsked, sampleAsked, exactlyOne, sampleState]
    · simp [mixedAsked, sampleAsked, exactlyOne]
    · simp [mixedAsked, sampleAsked, exactlyOne]
      rfl
    · decide +kernel
    · simp [mixedAsked, sampleAsked, OAuthProxyState.clientState]
    · simp [mixedAsked, sampleAsked, exactlyOne, samplePending]
      rfl
    · decide +kernel
    · simp [mixedAsked, sampleAsked, exactlyOne]
  obtain ⟨message, signed⟩ := Option.isSome_iff_exists.1 signed
  obtain ⟨pending, passed⟩ := passed_of_signs signed
  have mixed : MixesResources sampleState mixedAsked := by
    refine ⟨⟨sampleState.mcpResource, ?_, ?_⟩, "https://other.example.test", ?_, ?_⟩
    · simp [mixedAsked, sampleAsked, valuesOf]
    · decide +kernel
    · simp [mixedAsked, sampleAsked, valuesOf]
    · decide +kernel
  obtain ⟨forwarded, same, rewritten⟩ :=
    claimed sampleState 1000 _ _ (by decide) (authorize_redirects passed)
  rw [← forwarded_inj same, Option.getD_some, parse_serialize, parse_serialize] at rewritten
  exact (rewritten_iff (by decide) passed).1 rewritten mixed

end TypstMcp.OAuth
