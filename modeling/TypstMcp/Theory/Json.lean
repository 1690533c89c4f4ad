/-
Theory.Json -- records as JSON text

A flat record is a list of named scalars.  `write` prints it as a serializer
does, without white space, and `read` accepts what `write` prints.

* `readString_quoted`: a quoted string reads back, whatever characters it has.
* `read_write`: a record reads back from its own text (`fromBytes_toBytes`: from its
  own UTF-8 bytes).
-/
import Mathlib.Tactic
import TypstMcp.Theory.FileTree

namespace TypstMcp.Theory.Json

set_option autoImplicit false

inductive Scalar
  | null
  | str (s : String)
  | num (n : Nat)
  deriving DecidableEq, Repr

abbrev Fields := List (String × Scalar)

/-! ## Writing -/

def hexDigit (n : Nat) : Char := "0123456789abcdef".toList.getD n '0'

/-- One character of a string literal; control characters are escaped. -/
def escapeChar (c : Char) : List Char :=
  if c = '"' then ['\\', '"']
  else if c = '\\' then ['\\', '\\']
  else if c = '\x08' then ['\\', 'b']
  else if c = '\x0c' then ['\\', 'f']
  else if c = '\n' then ['\\', 'n']
  else if c = '\r' then ['\\', 'r']
  else if c = '\t' then ['\\', 't']
  else if c.toNat < 32 then
    ['\\', 'u', '0', '0', hexDigit (c.toNat / 16), hexDigit (c.toNat % 16)]
  else [c]

def quote (s : List Char) : List Char := '"' :: (s.flatMap escapeChar ++ ['"'])

def writeScalar : Scalar → List Char
  | .null => "null".toList
  | .str s => quote s.toList
  | .num n => Nat.toDigits 10 n

def writeMember (member : String × Scalar) : List Char :=
  quote member.1.toList ++ ':' :: writeScalar member.2

/-- Members after the first, each behind a comma, and the closing brace. -/
def writeRest : Fields → List Char
  | [] => ['}']
  | member :: rest => ',' :: (writeMember member ++ writeRest rest)

def write : Fields → List Char
  | [] => ['{', '}']
  | member :: rest => '{' :: (writeMember member ++ writeRest rest)

/-! ## Reading -/

def hexValue (c : Char) : Option Nat :=
  let digits := "0123456789abcdef".toList
  if c ∈ digits then some (digits.idxOf c) else none

/-- The characters of a literal, up to its closing quote. -/
def readString : List Char → Option (List Char × List Char)
  | [] => none
  | '"' :: rest => some ([], rest)
  | '\\' :: '"' :: rest => (readString rest).map fun (s, more) => ('"' :: s, more)
  | '\\' :: '\\' :: rest => (readString rest).map fun (s, more) => ('\\' :: s, more)
  | '\\' :: 'b' :: rest => (readString rest).map fun (s, more) => ('\x08' :: s, more)
  | '\\' :: 'f' :: rest => (readString rest).map fun (s, more) => ('\x0c' :: s, more)
  | '\\' :: 'n' :: rest => (readString rest).map fun (s, more) => ('\n' :: s, more)
  | '\\' :: 'r' :: rest => (readString rest).map fun (s, more) => ('\r' :: s, more)
  | '\\' :: 't' :: rest => (readString rest).map fun (s, more) => ('\t' :: s, more)
  | '\\' :: 'u' :: '0' :: '0' :: high :: low :: rest => do
      let high ← hexValue high
      let low ← hexValue low
      (readString rest).map fun (s, more) => (Char.ofNat (16 * high + low) :: s, more)
  | '\\' :: _ => none
  | c :: rest => (readString rest).map fun (s, more) => (c :: s, more)

def readScalar : List Char → Option (Scalar × List Char)
  | '"' :: rest => (readString rest).map fun (s, more) => (.str (String.ofList s), more)
  | 'n' :: 'u' :: 'l' :: 'l' :: rest => some (.null, rest)
  | text =>
      let digits := text.takeWhile Char.isDigit
      if digits = [] then none
      else some (.num (Nat.ofDigitChars 10 digits 0), text.dropWhile Char.isDigit)

def readMember : List Char → Option ((String × Scalar) × List Char)
  | '"' :: rest => do
      match ← readString rest with
      | (name, ':' :: rest) =>
          let (value, rest) ← readScalar rest
          return ((String.ofList name, value), rest)
      | _ => none
  | _ => none

/-- The members after the first; every turn reads one, so the length of the text
bounds the turns. -/
def readRest : Nat → List Char → Option Fields
  | _, ['}'] => some []
  | fuel + 1, ',' :: rest => do
      let (member, rest) ← readMember rest
      let more ← readRest fuel rest
      return member :: more
  | _, _ => none

def read : List Char → Option Fields
  | ['{', '}'] => some []
  | '{' :: rest => do
      let (member, rest) ← readMember rest
      let more ← readRest rest.length rest
      return member :: more
  | _ => none

/-! ## A string reads back -/

theorem hexValue_hexDigit : ∀ n, n < 16 → hexValue (hexDigit n) = some n := by decide

theorem readString_escapeChar (c : Char) (rest : List Char) :
    readString (escapeChar c ++ rest) = (readString rest).map fun (s, more) => (c :: s, more) := by
  unfold escapeChar
  split_ifs with quoted backslash b f n r t control
  · subst quoted; simp [readString]
  · subst backslash; simp [readString]
  · subst b; simp [readString]
  · subst f; simp [readString]
  · subst n; simp [readString]
  · subst r; simp [readString]
  · subst t; simp [readString]
  · have high := hexValue_hexDigit (c.toNat / 16) (by omega)
    have low := hexValue_hexDigit (c.toNat % 16) (by omega)
    have same : Char.ofNat (16 * (c.toNat / 16) + c.toNat % 16) = c := by
      rw [Nat.div_add_mod, Char.ofNat_toNat]
    simp [readString, high, low, same]
  · show readString (c :: rest) = _
    rw [readString.eq_def]
    split <;> simp_all

theorem readString_escaped (s rest : List Char) :
    readString (s.flatMap escapeChar ++ '"' :: rest) = some (s, rest) := by
  induction s with
  | nil => simp [readString]
  | cons c s ih =>
      rw [List.flatMap_cons, List.append_assoc, readString_escapeChar, ih]
      rfl

theorem readString_quoted (s rest : List Char) :
    ∃ body, quote s ++ rest = '"' :: body ∧ readString body = some (s, rest) :=
  ⟨s.flatMap escapeChar ++ '"' :: rest, by simp [quote], readString_escaped s rest⟩

/-! ## A record reads back -/

theorem digits_end (n : Nat) {rest : List Char} (stop : ∀ c, rest.head? = some c → ¬ c.isDigit) :
    (Nat.toDigits 10 n ++ rest).takeWhile Char.isDigit = Nat.toDigits 10 n ∧
      (Nat.toDigits 10 n ++ rest).dropWhile Char.isDigit = rest := by
  have all : ∀ c ∈ Nat.toDigits 10 n, Char.isDigit c = true := fun c inside =>
    Nat.isDigit_of_mem_toDigits (by decide) (by decide) inside
  rw [List.takeWhile_append_of_pos all, List.dropWhile_append_of_pos all]
  cases rest with
  | nil => simp
  | cons c more =>
      have := stop c rfl
      simp [this]

theorem readScalar_write (value : Scalar) {rest : List Char}
    (stop : ∀ c, rest.head? = some c → ¬ c.isDigit) :
    readScalar (writeScalar value ++ rest) = some (value, rest) := by
  cases value with
  | null => rfl
  | str s =>
      obtain ⟨body, text, found⟩ := readString_quoted s.toList rest
      show readScalar (quote s.toList ++ rest) = _
      rw [text]
      simp [readScalar, found]
  | num n =>
      obtain ⟨taken, left⟩ := digits_end n stop
      obtain ⟨d, more, digits⟩ := List.exists_cons_of_ne_nil (Nat.toDigits_ne_nil (n := n) (b := 10))
      have isDigit : d.isDigit = true :=
        Nat.isDigit_of_mem_toDigits (by decide) (by decide) (digits ▸ List.mem_cons_self)
      show readScalar (Nat.toDigits 10 n ++ rest) = _
      rw [readScalar.eq_def]
      split
      · rename_i text
        rw [digits] at text
        obtain rfl : d = '"' := (List.cons.inj text).1
        exact absurd isDigit (by decide)
      · rename_i text
        rw [digits] at text
        obtain rfl : d = 'n' := (List.cons.inj text).1
        exact absurd isDigit (by decide)
      · simp only [taken, left]
        rw [if_neg (by rw [digits]; simp), Nat.ofDigitChars_ten_toDigits]

theorem readMember_write (member : String × Scalar) {rest : List Char}
    (stop : ∀ c, rest.head? = some c → ¬ c.isDigit) :
    readMember (writeMember member ++ rest) = some (member, rest) := by
  obtain ⟨body, text, found⟩ :=
    readString_quoted member.1.toList (':' :: (writeScalar member.2 ++ rest))
  have whole : writeMember member ++ rest = '"' :: body := by
    rw [← text]; simp [writeMember]
  rw [whole]
  simp [readMember, found, readScalar_write member.2 stop]

theorem writeRest_head (fields : Fields) :
    ∀ c, (writeRest fields).head? = some c → ¬ c.isDigit := by
  intro c first
  cases fields with
  | nil =>
      obtain rfl : '}' = c := by simpa [writeRest] using first
      decide
  | cons member rest =>
      obtain rfl : ',' = c := by simpa [writeRest] using first
      decide

theorem readRest_write (fields : Fields) {fuel : Nat} (enough : fields.length ≤ fuel) :
    readRest fuel (writeRest fields) = some fields := by
  induction fields generalizing fuel with
  | nil => cases fuel <;> rfl
  | cons member rest ih =>
      obtain ⟨fuel, rfl⟩ : ∃ k, fuel = k + 1 := ⟨fuel - 1, by simp at enough; omega⟩
      have tail := @ih fuel (by simpa using enough)
      simp [writeRest, readRest, readMember_write member (writeRest_head rest), tail]

theorem length_le_writeRest (fields : Fields) : fields.length ≤ (writeRest fields).length := by
  induction fields with
  | nil => simp
  | cons member rest ih =>
      simp only [writeRest, List.length_cons, List.length_append]
      omega

/-- **A record reads back from its own text.** -/
theorem read_write (fields : Fields) : read (write fields) = some fields := by
  cases fields with
  | nil => rfl
  | cons member rest =>
      have first : ∃ body, writeMember member ++ writeRest rest = '"' :: body := by
        obtain ⟨body, text, _⟩ :=
          readString_quoted member.1.toList (':' :: (writeScalar member.2 ++ writeRest rest))
        exact ⟨body, by rw [← text]; simp [writeMember]⟩
      obtain ⟨body, text⟩ := first
      have head := readMember_write member (writeRest_head rest)
      have tail := readRest_write rest (length_le_writeRest rest)
      rw [text] at head
      show read ('{' :: (writeMember member ++ writeRest rest)) = _
      rw [text]
      simp [read, head, tail]

/-! ## As bytes -/

def utf8 (s : String) : Bytes := s.toByteArray.data.toList

def fromUtf8 (bytes : Bytes) : Option String := String.fromUTF8? ⟨bytes.toArray⟩

theorem utf8_eq (s : String) : utf8 s = s.toList.flatMap String.utf8EncodeChar := by
  obtain ⟨chars, rfl⟩ : ∃ chars, s = String.ofList chars := ⟨s.toList, by simp⟩
  simp [utf8, List.utf8Encode]

theorem fromUtf8_utf8 (s : String) : fromUtf8 (utf8 s) = some s := by
  have same : (⟨(utf8 s).toArray⟩ : ByteArray) = s.toByteArray := by simp [utf8]
  unfold fromUtf8 String.fromUTF8?
  rw [same, dif_pos s.isValidUTF8]
  rfl

theorem utf8_of_fromUtf8 {bytes : Bytes} {s : String} (valid : fromUtf8 bytes = some s) :
    utf8 s = bytes := by
  unfold fromUtf8 String.fromUTF8? at valid
  split_ifs at valid with is
  rw [← Option.some.inj valid]
  rfl

theorem utf8_inj {a b : String} (same : utf8 a = utf8 b) : a = b := by
  have := fromUtf8_utf8 a
  rw [same, fromUtf8_utf8 b] at this
  exact (Option.some.inj this).symm

def toBytes (fields : Fields) : Bytes := utf8 (String.ofList (write fields))

def fromBytes (bytes : Bytes) : Option Fields := do
  let text ← fromUtf8 bytes
  read text.toList

theorem fromBytes_toBytes (fields : Fields) : fromBytes (toBytes fields) = some fields := by
  simp [fromBytes, toBytes, fromUtf8_utf8, read_write]

end TypstMcp.Theory.Json
