/-
Auth.Principal -- who is calling, and the partition their data lives in

A principal's identity string keeps its fields apart (`identity_inj`).  `derive`
reads the first bits of an HMAC five at a time through a small buffer;
`derive_denotes` says that its sixteen characters are exactly the first eighty
bits.  `tenant_injective` puts the two together.
-/
import Mathlib.Data.List.DropRight
import TypstMcp.Auth.Tenant
import TypstMcp.Theory.Bits
import TypstMcp.Theory.Checked
import TypstMcp.Theory.Json
import TypstMcp.Theory.Pieces
import Mathlib.Data.Bool.AllAny

namespace TypstMcp.Auth

open TypstMcp.Theory TypstMcp.Theory.Bits TypstMcp.Theory.Json

set_option autoImplicit false

/-! ## Text -/

/-- The characters `str::trim` takes off: Unicode's `White_Space`. -/
def isWhiteSpace (c : Char) : Bool :=
  (0x09 ≤ c.toNat && c.toNat ≤ 0x0d) || c = ' ' || c.toNat = 0x85 || c.toNat = 0xa0 ||
    c.toNat = 0x1680 || (0x2000 ≤ c.toNat && c.toNat ≤ 0x200a) || c.toNat = 0x2028 ||
    c.toNat = 0x2029 || c.toNat = 0x202f || c.toNat = 0x205f || c.toNat = 0x3000

def trim (text : String) : String :=
  String.ofList ((text.toList.dropWhile isWhiteSpace).rdropWhile isWhiteSpace)

/-- What precedes and what follows the first `sep`. -/
def splitOnce (sep : Char) (text : String) : Option (String × String) :=
  if sep ∈ text.toList then
    some (String.ofList (text.toList.takeWhile (· ≠ sep)),
      String.ofList (text.toList.dropWhile (· ≠ sep)).tail)
  else none

theorem splitOnce_eq_some {sep : Char} {text a b : String} :
    splitOnce sep text = some (a, b) ↔ sep ∉ a.toList ∧ text.toList = a.toList ++ sep :: b.toList := by
  unfold splitOnce
  constructor
  · intro cut
    split at cut
    next inside =>
      obtain ⟨rfl, rfl⟩ := Prod.mk.inj (Option.some.inj cut)
      rw [String.toList_ofList, String.toList_ofList]
      refine ⟨fun before => ?_, ?_⟩
      · simpa using List.mem_takeWhile_imp before
      · have whole := List.takeWhile_append_dropWhile (p := (· ≠ sep)) (l := text.toList)
        cases left : text.toList.dropWhile (· ≠ sep) with
        | nil =>
            have all := List.dropWhile_eq_nil_iff.1 left sep inside
            simp at all
        | cons c rest =>
            have stops := List.head?_dropWhile_not (· ≠ sep) text.toList
            rw [left] at stops whole
            obtain rfl : c = sep := by simpa using stops
            exact whole.symm
    · cases cut
  · rintro ⟨free, parts⟩
    have clean : ∀ c ∈ a.toList, decide (c ≠ sep) = true := by
      rintro c inside
      rw [decide_eq_true_iff]
      rintro rfl
      exact free inside
    rw [if_pos (by rw [parts]; simp), parts, List.takeWhile_append_of_pos clean,
      List.dropWhile_append_of_pos clean]
    simp

/-! ## Principals -/

/-- An authenticated caller. -/
inductive Principal
  /-- A person, authenticated by an OIDC token. -/
  | user (subject issuer : String) (name : Option String)
  /-- A service, authenticated by a static API key. -/
  | service (label : String)
  deriving DecidableEq, Repr

namespace Principal

/-- The string the tenant id is derived from. -/
def identity : Principal → String
  | user subject issuer _ => "oidc\x00" ++ issuer ++ "\x00" ++ subject
  | service label => "key\x00" ++ label

/-- How this caller appears in logs and metrics. -/
def display : Principal → String
  | user subject _ _ => subject
  | service label => label

end Principal

/-! ## Tenant ids -/

/-- HMAC-SHA256: a digest of 32 bytes for every key and message. -/
structure Hmac where
  mac : Bytes → Bytes → Bytes
  length : ∀ key message, (mac key message).length = 32

namespace TenantId

/-- The inner loop: characters while five bits are left and the id is short. -/
def emit (buffer : Nat) : Nat → List Char → Nat × List Char
  | bits + 5, out =>
      if out.length < tenantLen then
        emit buffer bits (out ++ [alphabet.getD ((buffer >>> bits) &&& 0x1f) '0'])
      else (bits + 5, out)
  | bits, out => (bits, out)

/-- The loop over the digest; `buffer` is a `u16`. -/
def deriveLoop : Bytes → Nat → Nat → List Char → List Char
  | [], _, _, out => out
  | byte :: rest, buffer, bits, out =>
      let buffer := (buffer <<< 8 ||| byte.toNat) % 2 ^ 16
      let (bits, out) := emit buffer (bits + 8) out
      if out.length = tenantLen then out else deriveLoop rest buffer bits out

/-- The bits a character of an id stands for. -/
def charBits (c : Char) : List Bool := msb 5 (alphabet.idxOf c)

/-- The bits an id denotes. -/
def bits (id : String) : List Bool := id.toList.flatMap charBits

theorem alphabet_idxOf : ∀ i < 32, alphabet.idxOf (alphabet.getD i '0') = i := by decide

/-- One character stands for five bits of the buffer. -/
theorem charBits_getD (buffer shift : Nat) :
    charBits (alphabet.getD ((buffer >>> shift) &&& 0x1f) '0') = msb 5 (buffer >>> shift) := by
  have mask : (buffer >>> shift) &&& 0x1f = buffer >>> shift % 2 ^ 5 :=
    Nat.and_two_pow_sub_one_eq_mod _ 5
  have small : buffer >>> shift % 2 ^ 5 < 32 := Nat.mod_lt _ (by decide)
  rw [mask, charBits, alphabet_idxOf (buffer >>> shift % 2 ^ 5) small, msb_mod (Nat.le_refl 5)]

theorem getD_mem (i : Nat) : alphabet.getD (i &&& 0x1f) '0' ∈ alphabet := by
  have small : i &&& 0x1f < 32 := Nat.lt_succ_of_le Nat.and_le_right
  have all : ∀ j < 32, alphabet.getD j '0' ∈ alphabet := by decide
  exact all _ small

/-- What is out, with what is left in the buffer behind it. -/
def written (buffer : Nat) (state : Nat × List Char) : List Bool :=
  state.2.flatMap charBits ++ msb state.1 buffer

/-- What the inner loop keeps, and when it stops. -/
structure Emitted (buffer bits : Nat) (out : List Char) (state : Nat × List Char) : Prop where
  written : written buffer state = written buffer (bits, out)
  short : state.2.length ≤ tenantLen
  chars : ∀ c ∈ state.2, c ∈ alphabet
  stopped : state.2.length < tenantLen → state.1 < 5
  le : state.1 ≤ bits

theorem emit_emitted (buffer : Nat) {bits : Nat} {out : List Char} (short : out.length ≤ tenantLen)
    (chars : ∀ c ∈ out, c ∈ alphabet) : Emitted buffer bits out (emit buffer bits out) := by
  fun_induction emit buffer bits out with
  | case1 bits out room ih =>
      have next := ih (by rw [List.length_append, List.length_singleton]; exact room) (by
        intro c inside
        rcases List.mem_append.1 inside with old | new
        · exact chars c old
        · exact List.mem_singleton.1 new ▸ getD_mem _)
      refine ⟨?_, next.short, next.chars, next.stopped, next.le.trans (Nat.le_add_right _ 5)⟩
      have split : msb (bits + 5) buffer = msb 5 (buffer >>> bits) ++ msb bits buffer := by
        rw [Nat.add_comm, msb_add]
      rw [next.written]
      simp only [written, List.flatMap_append, List.flatMap_singleton, charBits_getD,
        List.append_assoc]
      rw [← split]
  | case2 bits out full => exact ⟨rfl, short, chars, fun room => absurd room full, Nat.le_refl _⟩
  | case3 bits out few =>
      refine ⟨rfl, short, chars, fun _ => ?_, Nat.le_refl _⟩
      by_contra many
      exact few (bits - 5) (by omega)

/-- **What the loop writes:** the first bits of the digest, as many as there is room for. -/
theorem deriveLoop_spec (digest : Bytes) {buffer bits : Nat} {out : List Char}
    (few : bits < 5) (room : out.length < tenantLen) (chars : ∀ c ∈ out, c ∈ alphabet)
    (enough : 5 * tenantLen ≤ 5 * out.length + bits + 8 * digest.length) :
    (deriveLoop digest buffer bits out).length = tenantLen ∧
      (∀ c ∈ deriveLoop digest buffer bits out, c ∈ alphabet) ∧
      (deriveLoop digest buffer bits out).flatMap charBits <+:
        written buffer (bits, out) ++ ofBytes digest := by
  induction digest generalizing buffer bits out with
  | nil =>
      rw [List.length_nil] at enough
      omega
  | cons byte rest ih =>
      obtain ⟨next, word⟩ : ∃ next, next = (buffer <<< 8 ||| byte.toNat) % 2 ^ 16 := ⟨_, rfl⟩
      have shifted : written next (bits + 8, out) = written buffer (bits, out) ++ msb 8 byte.toNat := by
        simp only [written, List.append_assoc]
        rw [word, msb_shiftIn (by omega) byte.toNat_lt]
      have emitted := @emit_emitted next (bits + 8) out (Nat.le_of_lt room) chars
      have total : (written next (emit next (bits + 8) out)).length =
          (written next (bits + 8, out)).length := by rw [emitted.written]
      have size : ∀ state : Nat × List Char,
          (written next state).length = 5 * state.2.length + state.1 := by
        intro state
        have : (state.2.flatMap charBits).length = 5 * state.2.length := by
          induction state.2 with
          | nil => rfl
          | cons c more ih =>
              rw [List.flatMap_cons, List.length_append, ih, charBits, msb_length,
                List.length_cons]
              omega
        rw [written, List.length_append, this, msb_length]
      rw [size, size] at total
      simp only at total
      rw [List.length_cons] at enough
      rw [deriveLoop, ← word, ofBytes_cons, ← List.append_assoc, ← shifted, ← emitted.written]
      simp only
      split_ifs with full
      · refine ⟨full, emitted.chars, ?_⟩
        rw [written, List.append_assoc]
        exact List.prefix_append _ _
      · have left : (emit next (bits + 8) out).2.length < tenantLen :=
          Nat.lt_of_le_of_ne emitted.short full
        exact ih (emitted.stopped left) left emitted.chars (by omega)

theorem shape_of_chars {chars : List Char} (length : chars.length = tenantLen)
    (inside : ∀ c ∈ chars, c ∈ alphabet) : tenantShape (String.ofList chars) = true := by
  unfold tenantShape
  rw [utf8ByteSize_of_single fun c listed => alphabet_single c (inside c listed), length,
    String.toList_ofList]
  simpa using inside

/-- The characters of a derived id. -/
def derivedChars (digest : Bytes) : List Char := deriveLoop digest 0 0 []

theorem derivedChars_spec {digest : Bytes} (long : 10 ≤ digest.length) :
    (derivedChars digest).length = tenantLen ∧ (∀ c ∈ derivedChars digest, c ∈ alphabet) ∧
      (derivedChars digest).flatMap charBits <+: ofBytes digest := by
  have spec := @deriveLoop_spec digest 0 0 [] (by decide) (by decide) (by simp) (by
    unfold tenantLen
    simp only [List.length_nil]
    omega)
  rwa [written, msb, List.flatMap_nil, List.nil_append, List.nil_append] at spec

/-- `base32(hmac_sha256(salt, identity))`, truncated. -/
def derive (hmac : Hmac) (salt identity : Bytes) : TenantId where
  str := String.ofList (derivedChars (hmac.mac salt identity))
  shape := by
    have long : 10 ≤ (hmac.mac salt identity).length := by rw [hmac.length]; decide
    obtain ⟨length, chars, -⟩ := derivedChars_spec long
    exact shape_of_chars length chars

/-- **An id denotes the first eighty bits of the digest,** the most significant first. -/
theorem derive_denotes (hmac : Hmac) (salt identity : Bytes) :
    (derive hmac salt identity).str.length = tenantLen ∧
      bits (derive hmac salt identity).str = (ofBytes (hmac.mac salt identity)).take 80 := by
  have long : 10 ≤ (hmac.mac salt identity).length := by rw [hmac.length]; decide
  obtain ⟨length, -, first⟩ := derivedChars_spec long
  refine ⟨by rw [derive, String.length_ofList]; exact length, ?_⟩
  have eighty : ((derivedChars (hmac.mac salt identity)).flatMap charBits).length = 80 := by
    rw [List.length_flatMap]
    simp [charBits, length, tenantLen]
  have := List.prefix_iff_eq_take.1 first
  rw [eighty] at this
  rw [bits, derive, String.toList_ofList]
  exact this

end TenantId

/-- Derive this caller's tenant id under `salt`. -/
def Principal.tenant (hmac : Hmac) (salt : Bytes) (principal : Principal) : TenantId :=
  TenantId.derive hmac salt (utf8 principal.identity)

/-! ## Identities -/

namespace Principal

/-- The caller two principals stand for is one: the same door, and the same name there. -/
def SameCaller : Principal → Principal → Prop
  | user subject issuer _, user subject' issuer' _ => subject = subject' ∧ issuer = issuer'
  | service label, service label' => label = label'
  | _, _ => False

/-- The issuer has no separator; a subject may have any. -/
def Separable : Principal → Prop
  | user _ issuer _ => '\x00' ∉ issuer.toList
  | service _ => True

/-- **No two callers have one identity string.** -/
theorem identity_inj {p q : Principal} (separableP : p.Separable) (separableQ : q.Separable)
    (same : p.identity = q.identity) : p.SameCaller q := by
  have chars := congrArg String.toList same
  cases p with
  | user subject issuer name =>
      cases q with
      | user subject' issuer' name' =>
          simp only [identity, String.toList_append, List.append_assoc,
            List.append_cancel_left_eq] at chars
          obtain ⟨issuers, subjects⟩ := Pieces.first_cut separableP separableQ chars
          exact ⟨String.toList_inj.1 subjects, String.toList_inj.1 issuers⟩
      | service label => simp [identity] at chars
  | service label =>
      cases q with
      | user subject issuer name => simp [identity] at chars
      | service label' =>
          simp only [identity, String.toList_append, List.append_cancel_left_eq] at chars
          exact String.toList_inj.1 chars

end Principal

/-! ## API keys -/

/-- Static API keys need the same minimum as other configured secrets. -/
def minApiKeyBytes : Nat := 32

def maxApiKeyLabelBytes : Nat := 64

/-- One configured API key. -/
structure ApiKey where
  label : String
  secret : String
  fingerprint : String
  deriving DecidableEq

/-- A safe-to-log API-key configuration error. -/
inductive ApiKeyConfigError
  | emptyEntry (position : Nat)
  | malformed (position : Nat)
  | secretTooShort (position actual : Nat)
  | duplicateLabel (label : String)
  | duplicateSecret (position : Nat)
  deriving DecidableEq, Repr

/-- The test on a label's bytes admits only ASCII, so it is the same test on characters. -/
def isLabelChar (c : Char) : Bool := c.isAlphanum || c = '.' || c = '_' || c = '-'

namespace ApiKey

/-- Parse one required `label:secret` entry. -/
def parse (fingerprint : String → String) (entry : String) (position : Nat) :
    Except ApiKeyConfigError ApiKey :=
  let entry := trim entry
  if entry = "" then .error (.emptyEntry position)
  else match splitOnce ':' entry with
    | none => .error (.malformed position)
    | some (label, secret) =>
        if label = "" ∨ secret = "" ∨ trim label ≠ label ∨ trim secret ≠ secret ∨
            maxApiKeyLabelBytes < label.utf8ByteSize ∨ label.toList.all isLabelChar = false then
          .error (.malformed position)
        else if secret.utf8ByteSize < minApiKeyBytes then
          .error (.secretTooShort position secret.utf8ByteSize)
        else .ok { label, secret, fingerprint := fingerprint secret }

def principal (key : ApiKey) : Principal := .service key.label

end ApiKey

end TypstMcp.Auth
