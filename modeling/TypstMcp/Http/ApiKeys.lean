/-
Http.ApiKeys -- the configured set of API keys

`parse` reads a comma-separated list and refuses a label or a secret seen before; the
door scans all of it and keeps the last match.

* `parseEntries_ok`: what the loop over the entries establishes.
* `find_eq_some`: with no two secrets alike the last match is the only one.
* `api_keys_unambiguous`: both for every accepted configuration.
-/
import TypstMcp.Http.Download

namespace TypstMcp.Http

open TypstMcp.Theory TypstMcp.Theory.Json
open TypstMcp.Auth

set_option autoImplicit false

def hexByte (byte : UInt8) : List Char :=
  [Nat.digitChar (byte.toNat / 16), Nat.digitChar (byte.toNat % 16)]

/-- A short, non-reversible handle for a secret. -/
def fingerprint (sha256 : Bytes → Bytes) (secret : String) : String :=
  String.ofList (((sha256 (utf8 secret)).flatMap hexByte).take 16)

/-- The configured set of API keys. -/
structure ApiKeys where
  keys : List ApiKey
  deriving DecidableEq

namespace ApiKeys

variable (sha256 : Bytes → Bytes)

/-- `value.split(',')`. -/
def entries (value : String) : List String := (value.toList.splitOn ',').map String.ofList

/-- The loop over the entries; `labels` and `secrets` are those seen so far. -/
def parseEntries (labels : List String) (secrets : List Bytes) (position : Nat) :
    List String → Except ApiKeyConfigError (List ApiKey)
  | [] => .ok []
  | entry :: rest => do
      let key ← ApiKey.parse (fingerprint sha256) entry position
      if key.label ∈ labels then .error (.duplicateLabel key.label)
      else if sha256 (utf8 key.secret) ∈ secrets then .error (.duplicateSecret position)
      else
        let keys ← parseEntries (key.label :: labels) (sha256 (utf8 key.secret) :: secrets)
          (position + 1) rest
        return key :: keys

/-- Parse a comma-separated `TYPST_MCP_API_KEYS` value. -/
def parse (value : String) : Except ApiKeyConfigError ApiKeys :=
  if trim value = "" then .ok ⟨[]⟩ else (parseEntries sha256 [] [] 1 (entries value)).map ApiKeys.mk

/-- The door these keys open. -/
def door (keys : ApiKeys) : ApiKeyAuth where
  keys := keys.keys
  sha256 := sha256

end ApiKeys

/-! ## One entry -/

theorem mem_trim {text : String} {c : Char} (inside : c ∈ (trim text).toList) : c ∈ text.toList := by
  rw [trim, String.toList_ofList] at inside
  exact (List.dropWhile_sublist _).subset ((List.rdropWhile_prefix _ _).subset inside)

/-- A key as its entry says it. -/
structure Configured (entry : String) (key : ApiKey) : Prop where
  text : trim entry = key.label ++ ":" ++ key.secret
  label : key.label ≠ "" ∧ ∀ c ∈ key.label.toList, isLabelChar c = true
  secret : 32 ≤ key.secret.utf8ByteSize

theorem parse_ok {handle : String → String} {entry : String} {position : Nat} {key : ApiKey}
    (parsed : ApiKey.parse handle entry position = .ok key) : Configured entry key := by
  unfold ApiKey.parse at parsed
  simp only at parsed
  split_ifs at parsed with empty
  split at parsed
  · cases parsed
  next label secret cut =>
    split_ifs at parsed with bad short
    obtain rfl := Except.ok.inj parsed
    simp only [not_or, Bool.not_eq_false] at bad
    obtain ⟨some, -, -, -, -, chars⟩ := bad
    refine ⟨?_, ⟨some, List.all_eq_true.1 chars⟩, Nat.le_of_not_lt short⟩
    apply String.toList_inj.1
    rw [(splitOnce_eq_some.1 cut).2]
    simp

/-- The secret is a part of its entry. -/
theorem Configured.mem_entry {entry : String} {key : ApiKey} (configured : Configured entry key)
    {c : Char} (inside : c ∈ key.secret.toList) : c ∈ entry.toList := by
  apply mem_trim
  rw [configured.text, String.toList_append]
  exact List.mem_append_right _ inside

namespace ApiKeys

theorem comma_not_mem {value entry : String} (inside : entry ∈ entries value) :
    ',' ∉ entry.toList := by
  obtain ⟨piece, cut, rfl⟩ := List.mem_map.1 inside
  rw [String.toList_ofList]
  exact Pieces.not_mem_of_mem_splitOn cut

variable {sha256 : Bytes → Bytes}

/-! ## The loop -/

/-- What the keys of a list have, given what was seen before it. -/
structure Parsed (sha256 : Bytes → Bytes) (labels : List String) (secrets : List Bytes)
    (given : List String) (keys : List ApiKey) : Prop where
  inOrder : List.Forall₂ Configured given keys
  labels : (keys.map ApiKey.label).Nodup ∧ ∀ label ∈ keys.map ApiKey.label, label ∉ labels
  secrets : (keys.map fun key => sha256 (utf8 key.secret)).Nodup ∧
    ∀ digest ∈ keys.map fun key => sha256 (utf8 key.secret), digest ∉ secrets

theorem parseEntries_ok {labels : List String} {secrets : List Bytes} {position : Nat}
    {given : List String} {keys : List ApiKey}
    (parsed : parseEntries sha256 labels secrets position given = .ok keys) :
    Parsed sha256 labels secrets given keys := by
  induction given generalizing labels secrets position keys with
  | nil =>
      obtain rfl := Except.ok.inj parsed
      exact ⟨.nil, by simp, by simp⟩
  | cons entry rest ih =>
      obtain ⟨key, read, parsed⟩ := bind_eq_ok.1 parsed
      split_ifs at parsed with label secret
      obtain ⟨more, tail, made⟩ := bind_eq_ok.1 parsed
      obtain rfl := pure_eq_ok.1 made
      obtain ⟨inOrder, ⟨labelsApart, freshLabels⟩, secretsApart, freshSecrets⟩ := ih tail
      refine ⟨.cons (parse_ok read) inOrder, ⟨?_, ?_⟩, ?_, ?_⟩
      · exact List.nodup_cons.2 ⟨fun again => freshLabels _ again List.mem_cons_self, labelsApart⟩
      · exact List.forall_mem_cons.2
          ⟨label, fun l inside old => freshLabels l inside (List.mem_cons_of_mem _ old)⟩
      · exact List.nodup_cons.2 ⟨fun again => freshSecrets _ again List.mem_cons_self, secretsApart⟩
      · exact List.forall_mem_cons.2
          ⟨secret, fun d inside old => freshSecrets d inside (List.mem_cons_of_mem _ old)⟩

/-! ## The scan -/

/-- The last match, if there is one; else what was found before. -/
theorem scan_eq (accepts : ApiKey → Bool) (keys : List ApiKey) (found : Option ApiKey) :
    keys.foldl (fun found key => if accepts key then some key else found) found =
      (keys.filter accepts).getLast?.or found := by
  induction keys generalizing found with
  | nil => rfl
  | cons key rest ih =>
      rw [List.foldl_cons, ih, List.filter_cons]
      split_ifs with taken
      · rw [List.getLast?_cons]
        cases (rest.filter accepts).getLast? <;> rfl
      · rfl

/-- Only its own secret finds a key, and finds it, when no two keys share a digest. -/
theorem find_eq_some {keys : ApiKeys} {presented : String} {key : ApiKey}
    (injective : Function.Injective sha256)
    (apart : (keys.keys.map fun key => sha256 (utf8 key.secret)).Nodup) :
    (door sha256 keys).find presented = some key ↔ key ∈ keys.keys ∧ presented = key.secret := by
  have accepts : ∀ key, (door sha256 keys).matches_ presented key = true ↔ presented = key.secret := by
    intro key
    rw [ApiKeyAuth.matches_, decide_eq_true_iff]
    exact ⟨fun same => (utf8_inj (injective same)).symm, fun same => by rw [same]⟩
  rw [ApiKeyAuth.find, scan_eq, Option.or_none]
  constructor
  · intro last
    obtain ⟨inside, accepted⟩ := List.mem_filter.1 (List.mem_of_getLast? last)
    exact ⟨inside, (accepts key).1 accepted⟩
  · rintro ⟨inside, same⟩
    have there := List.mem_filter.2 ⟨inside, (accepts key).2 same⟩
    obtain ⟨other, last⟩ : ∃ other,
        (keys.keys.filter ((door sha256 keys).matches_ presented)).getLast? = some other :=
      ⟨_, List.getLast?_eq_some_getLast (List.ne_nil_of_mem there)⟩
    obtain ⟨inside', accepted⟩ := List.mem_filter.1 (List.mem_of_getLast? last)
    -- the secret of the last match was presented too
    have digests : sha256 (utf8 other.secret) = sha256 (utf8 key.secret) := by
      rw [← (accepts other).1 accepted, same]
    rw [← List.inj_on_of_nodup_map apart inside' inside digests]
    exact last

/-- Every credential has one tenant at most, and every tenant's identity one key. -/
structure Unambiguous (sha256 : Bytes → Bytes) (value : String) (keys : ApiKeys) : Prop where
  /-- One key for each entry, in order. -/
  inOrder : List.Forall₂ Configured (entries value) keys.keys
  labels : (keys.keys.map ApiKey.label).Nodup
  secrets : (keys.keys.map ApiKey.secret).Nodup
  comma : ∀ key ∈ keys.keys, ',' ∉ key.secret.toList
  authenticate : ∀ presented key,
    (door sha256 keys).find presented = some key ↔ key ∈ keys.keys ∧ presented = key.secret
  identities : (keys.keys.map fun key => key.principal.identity).Nodup

/-- **API keys are unambiguous,** SHA-256 being taken as injective. -/
theorem api_keys_unambiguous (sha256 : Bytes → Bytes) (injective : Function.Injective sha256)
    (value : String) (keys : ApiKeys) (given : trim value ≠ "")
    (parsed : parse sha256 value = .ok keys) : Unambiguous sha256 value keys := by
  rw [parse, if_neg given] at parsed
  cases read : parseEntries sha256 [] [] 1 (entries value) with
  | error e => rw [read] at parsed; cases parsed
  | ok made =>
      rw [read] at parsed
      obtain rfl : ApiKeys.mk made = keys := Except.ok.inj parsed
      obtain ⟨inOrder, ⟨labels, -⟩, digests, -⟩ := parseEntries_ok read
      refine ⟨inOrder, labels, ?_, fun key inside comma => ?_,
        fun presented key => find_eq_some injective digests, ?_⟩
      · refine List.Nodup.of_map (fun secret => sha256 (utf8 secret)) ?_
        rw [List.map_map]
        exact digests
      · obtain ⟨entry, listed, configured⟩ := mem_of_forall₂ inOrder.flip inside
        exact comma_not_mem listed (configured.mem_entry comma)
      · have names : made.map (fun key => key.principal.identity) =
            (made.map ApiKey.label).map (fun label => "key\x00" ++ label) := by
          rw [List.map_map]
          rfl
        rw [names]
        refine labels.map fun a b same => String.toList_inj.1 ?_
        have chars := congrArg String.toList same
        rw [String.toList_append, String.toList_append] at chars
        exact List.append_cancel_left chars

/-- Two keys, one with a colon in its secret. -/
def sampleKeys : String :=
  " alice:sk_11111111111111111111111111111111, bob:sk:2222222222222222222222222222222 "

theorem digestAt_injective {first second : Bytes × Bytes} (length : first.2.length = 32)
    (length' : second.2.length = 32) (apart : first.2 ≠ second.2) :
    Function.Injective (digestAt first second) := by
  have longer : ∀ message : Bytes, (List.replicate 33 0 ++ message).length ≠ 32 := by
    intro message
    simp only [List.length_append, List.length_replicate]
    omega
  intro a b same
  unfold digestAt at same
  split_ifs at same with a1 b1 b2 a2 b1 b2 b1 b2
  · exact a1.trans b1.symm
  · exact absurd same apart
  · exact absurd (same ▸ length) (longer b)
  · exact absurd same.symm apart
  · exact a2.trans b2.symm
  · exact absurd (same ▸ length') (longer b)
  · exact absurd (same ▸ length) (longer a)
  · exact absurd (same ▸ length') (longer a)
  · exact List.append_cancel_left same

/-- The digests of the two secrets. -/
def sampleDigest : Bytes → Bytes :=
  digestAt
    (utf8 "sk_11111111111111111111111111111111", [239, 216, 79, 20, 84, 111, 58, 126, 76, 80, 180, 122,
      0, 3, 227, 163, 151, 30, 184, 231, 7, 177, 101, 171, 213, 186, 70, 158, 124, 234, 202, 47])
    (utf8 "sk:2222222222222222222222222222222", [192, 216, 103, 195, 225, 240, 10, 177, 150, 178, 111,
      116, 30, 71, 30, 96, 248, 145, 170, 4, 51, 254, 29, 57, 139, 90, 99, 201, 200, 112, 7, 88])

theorem api_keys_unambiguous_sample :
    ∃ keys, parse sampleDigest sampleKeys = .ok keys ∧
      keys.keys.map ApiKey.label = ["alice", "bob"] ∧ Unambiguous sampleDigest sampleKeys keys := by
  obtain ⟨keys, parsed, labels⟩ := ok_of_any (show ((parse sampleDigest sampleKeys).toOption.any
    fun keys => decide (keys.keys.map ApiKey.label = ["alice", "bob"])) = true by decide +kernel)
  exact ⟨keys, parsed, of_decide_eq_true labels, api_keys_unambiguous sampleDigest
    (digestAt_injective rfl rfl (by decide)) sampleKeys keys (by decide +kernel) parsed⟩

end ApiKeys

end TypstMcp.Http
