/-
Theory.FormUrl -- application/x-www-form-urlencoded

`serialize` writes pairs, percent-encoding every byte but letters, digits and
`* - . _`; `parse` reads any text, decoding what is percent-encoded and replacing
what is not UTF-8.  `parse_serialize` says that what was written reads back.
-/
import TypstMcp.Theory.Json

namespace TypstMcp.Theory.FormUrl

open TypstMcp.Theory.Json

set_option autoImplicit false

abbrev Pairs := List (String × String)

/-! ## Text that may not be UTF-8 -/

/-- The ranges of the bytes that follow a first byte in well-formed UTF-8. -/
def follow (lead : Nat) : Option (List (Nat × Nat)) :=
  if lead < 0x80 then some []
  else if 0xc2 ≤ lead ∧ lead ≤ 0xdf then some [(0x80, 0xbf)]
  else if lead = 0xe0 then some [(0xa0, 0xbf), (0x80, 0xbf)]
  else if lead = 0xed then some [(0x80, 0x9f), (0x80, 0xbf)]
  else if 0xe1 ≤ lead ∧ lead ≤ 0xef then some [(0x80, 0xbf), (0x80, 0xbf)]
  else if lead = 0xf0 then some [(0x90, 0xbf), (0x80, 0xbf), (0x80, 0xbf)]
  else if 0xf1 ≤ lead ∧ lead ≤ 0xf3 then some [(0x80, 0xbf), (0x80, 0xbf), (0x80, 0xbf)]
  else if lead = 0xf4 then some [(0x80, 0x8f), (0x80, 0xbf), (0x80, 0xbf)]
  else none

/-- How many bytes are in their ranges. -/
def matched : List (Nat × Nat) → Bytes → Nat
  | (low, high) :: ranges, b :: rest =>
      if low ≤ b.toNat ∧ b.toNat ≤ high then matched ranges rest + 1 else 0
  | _, _ => 0

/-- Each longest ill-formed piece becomes one replacement character; `fuel` bounds the bytes. -/
def substitute : Nat → Bytes → List Char
  | 0, _ => []
  | _ + 1, [] => []
  | fuel + 1, b :: rest =>
      match follow b.toNat with
      | none => '\ufffd' :: substitute fuel rest
      | some ranges =>
          let n := matched ranges rest
          let read := if n = ranges.length then fromUtf8 (b :: rest.take n) else none
          (read.getD "\ufffd").toList ++ substitute fuel (rest.drop n)

/-- `String::from_utf8_lossy`. -/
def fromUtf8Lossy (bytes : Bytes) : String :=
  (fromUtf8 bytes).getD (String.ofList (substitute bytes.length bytes))

theorem fromUtf8Lossy_utf8 (s : String) : fromUtf8Lossy (utf8 s) = s := by
  rw [fromUtf8Lossy, fromUtf8_utf8, Option.getD_some]

/-- Where nothing is replaced, the bytes are the text's own. -/
theorem encode_substitute {fuel : Nat} {bytes : Bytes} (enough : bytes.length ≤ fuel)
    (clean : '\ufffd' ∉ substitute fuel bytes) :
    (substitute fuel bytes).flatMap String.utf8EncodeChar = bytes := by
  induction fuel generalizing bytes with
  | zero =>
      obtain rfl := List.length_eq_zero_iff.1 (Nat.le_zero.1 enough)
      rfl
  | succ fuel ih =>
      cases bytes with
      | nil => rfl
      | cons b rest =>
          rw [List.length_cons] at enough
          rw [substitute] at clean ⊢
          cases ranges : follow b.toNat with
          | none =>
              simp only [ranges] at clean
              exact (clean List.mem_cons_self).elim
          | some ranges' =>
              simp only [ranges, List.mem_append, not_or] at clean ⊢
              obtain ⟨kept, later⟩ := clean
              rw [List.flatMap_append, ih (by rw [List.length_drop]; omega) later]
              -- a piece that reads as no text is replaced
              cases piece : (if matched ranges' rest = ranges'.length then
                  fromUtf8 (b :: rest.take (matched ranges' rest)) else none) with
              | none =>
                  rw [piece, Option.getD_none] at kept
                  exact (kept (by decide)).elim
              | some text =>
                  split_ifs at piece
                  rw [Option.getD_some, ← utf8_eq, utf8_of_fromUtf8 piece, List.cons_append,
                    List.take_append_drop]

/-- A text read without a replacement has the bytes it was read from. -/
theorem utf8_fromUtf8Lossy {bytes : Bytes} (clean : '\ufffd' ∉ (fromUtf8Lossy bytes).toList) :
    utf8 (fromUtf8Lossy bytes) = bytes := by
  unfold fromUtf8Lossy at clean ⊢
  cases read : fromUtf8 bytes with
  | some text =>
      rw [Option.getD_some]
      exact utf8_of_fromUtf8 read
  | none =>
      rw [read, Option.getD_none, String.toList_ofList] at clean
      rw [Option.getD_none, utf8_eq, String.toList_ofList]
      exact encode_substitute (Nat.le_refl _) clean

/-! ## Writing -/

def hexUpper (n : Nat) : Char := "0123456789ABCDEF".toList.getD n '0'

/-- The bytes that stand for themselves. -/
def plain (b : UInt8) : Bool :=
  b.toNat < 128 && ((Char.ofNat b.toNat).isAlphanum || Char.ofNat b.toNat ∈ ['*', '-', '.', '_'])

def writeByte (b : UInt8) : List Char :=
  if plain b then [Char.ofNat b.toNat]
  else if b = 0x20 then ['+']
  else ['%', hexUpper (b.toNat / 16), hexUpper (b.toNat % 16)]

def writeText (text : String) : List Char := (utf8 text).flatMap writeByte

def writePair (pair : String × String) : List Char := writeText pair.1 ++ '=' :: writeText pair.2

def serialize (pairs : Pairs) : String := String.ofList (['&'].intercalate (pairs.map writePair))

/-! ## Reading -/

def hexAny (c : Char) : Option Nat := hexValue c.toLower

/-- The bytes of a component; a `%` without two digits behind it stands for itself. -/
def readBytes : List Char → Bytes
  | [] => []
  | '+' :: rest => 0x20 :: readBytes rest
  | '%' :: high :: low :: rest =>
      match hexAny high, hexAny low with
      | some h, some l => UInt8.ofNat (h * 16 + l) :: readBytes rest
      | _, _ => 0x25 :: readBytes (high :: low :: rest)
  | c :: rest => String.utf8EncodeChar c ++ readBytes rest

def readText (chars : List Char) : String := fromUtf8Lossy (readBytes chars)

def readPair (chars : List Char) : String × String :=
  (readText (chars.takeWhile (· ≠ '=')), readText (chars.dropWhile (· ≠ '=')).tail)

def parse (text : String) : Pairs :=
  ((text.toList.splitOn '&').filter (· ≠ [])).map readPair

/-! ## What was written reads back -/

theorem hexAny_hexUpper : ∀ n < 16, hexAny (hexUpper n) = some n := by decide +kernel

theorem plain_char : ∀ n < 256, plain (UInt8.ofNat n) = true →
    String.utf8EncodeChar (Char.ofNat n) = [UInt8.ofNat n] ∧ Char.ofNat n ≠ '+' ∧
      Char.ofNat n ≠ '%' ∧ Char.ofNat n ≠ '&' ∧ Char.ofNat n ≠ '=' := by
  decide +kernel

theorem hexUpper_char : ∀ n < 16, hexUpper n ≠ '&' ∧ hexUpper n ≠ '=' := by decide

theorem plain_byte {b : UInt8} (is : plain b = true) :
    String.utf8EncodeChar (Char.ofNat b.toNat) = [b] ∧ Char.ofNat b.toNat ≠ '+' ∧
      Char.ofNat b.toNat ≠ '%' ∧ Char.ofNat b.toNat ≠ '&' ∧ Char.ofNat b.toNat ≠ '=' := by
  have table := plain_char b.toNat b.toNat_lt
  rw [UInt8.ofNat_toNat] at table
  exact table is

theorem readBytes_other {c : Char} (plus : c ≠ '+') (percent : c ≠ '%') (rest : List Char) :
    readBytes (c :: rest) = String.utf8EncodeChar c ++ readBytes rest := by
  rw [readBytes.eq_def]
  split <;> simp_all

theorem readBytes_writeByte (b : UInt8) (rest : List Char) :
    readBytes (writeByte b ++ rest) = b :: readBytes rest := by
  unfold writeByte
  split
  next is =>
    obtain ⟨encoded, plus, percent, -⟩ := plain_byte is
    rw [List.singleton_append, readBytes_other plus percent, encoded, List.singleton_append]
  · split
    next space =>
      subst space
      rfl
    next =>
      have small := b.toNat_lt
      have whole : b.toNat / 16 * 16 + b.toNat % 16 = b.toNat := by omega
      simp only [List.cons_append, List.nil_append, readBytes,
        hexAny_hexUpper _ (show b.toNat / 16 < 16 by omega),
        hexAny_hexUpper _ (show b.toNat % 16 < 16 by omega), whole, UInt8.ofNat_toNat]

theorem writeByte_mem (b : UInt8) : ∀ c ∈ writeByte b, c ≠ '&' ∧ c ≠ '=' := by
  have small := b.toNat_lt
  intro c inside
  unfold writeByte at inside
  split at inside
  next is =>
    obtain rfl := List.mem_singleton.1 inside
    exact (plain_byte is).2.2.2
  · split at inside
    · obtain rfl := List.mem_singleton.1 inside
      decide
    · simp only [List.mem_cons, List.not_mem_nil, or_false] at inside
      obtain rfl | rfl | rfl := inside
      · decide
      · exact hexUpper_char _ (by omega)
      · exact hexUpper_char _ (by omega)

theorem writeText_mem (text : String) : ∀ c ∈ writeText text, c ≠ '&' ∧ c ≠ '=' := by
  intro c inside
  obtain ⟨b, -, inside⟩ := List.mem_flatMap.1 inside
  exact writeByte_mem b c inside

theorem readText_writeText (text : String) : readText (writeText text) = text := by
  have bytes : ∀ bs : Bytes, readBytes (bs.flatMap writeByte) = bs := by
    intro bs
    induction bs with
    | nil => rfl
    | cons b rest ih => rw [List.flatMap_cons, readBytes_writeByte, ih]
  rw [readText, writeText, bytes, fromUtf8Lossy_utf8]

theorem readPair_writePair (pair : String × String) : readPair (writePair pair) = pair := by
  have clean : ∀ c ∈ writeText pair.1, (decide (c ≠ '=')) = true := fun c inside =>
    decide_eq_true (writeText_mem pair.1 c inside).2
  have name : (writePair pair).takeWhile (· ≠ '=') = writeText pair.1 := by
    rw [writePair, List.takeWhile_append_of_pos clean]
    simp
  have value : (writePair pair).dropWhile (· ≠ '=') = '=' :: writeText pair.2 := by
    rw [writePair, List.dropWhile_append_of_pos clean]
    simp
  rw [readPair, name, value, List.tail_cons, readText_writeText, readText_writeText]

theorem parse_serialize (pairs : Pairs) : parse (serialize pairs) = pairs := by
  rw [parse, serialize, String.toList_ofList]
  cases pairs with
  | nil => rfl
  | cons first others =>
      rw [List.splitOn_intercalate]
      · have full : ∀ text ∈ (first :: others).map writePair, decide (text ≠ []) = true := by
          intro text inside
          obtain ⟨pair, -, rfl⟩ := List.mem_map.1 inside
          simp [writePair]
        rw [List.filter_eq_self.2 full, List.map_map]
        exact List.map_id'' readPair_writePair _
      · intro text inside amp
        obtain ⟨pair, -, rfl⟩ := List.mem_map.1 inside
        obtain name | value := List.mem_append.1 amp
        · exact (writeText_mem pair.1 _ name).1 rfl
        · obtain other | value := List.mem_cons.1 value
          · exact absurd other (by decide)
          · exact (writeText_mem pair.2 _ value).1 rfl
      · simp

/-! ## Text that needs no encoding -/

/-- A character that stands for itself. -/
def plainChar (c : Char) : Bool := c.toNat < 128 && plain (UInt8.ofNat c.toNat)

theorem writeByte_plainChar {c : Char} (is : plainChar c = true) :
    (String.utf8EncodeChar c).flatMap writeByte = [c] := by
  unfold plainChar at is
  rw [Bool.and_eq_true, decide_eq_true_eq] at is
  obtain ⟨small, plain⟩ := is
  have encoded := (plain_char c.toNat (by omega) plain).1
  rw [Char.ofNat_toNat] at encoded
  have back : (UInt8.ofNat c.toNat).toNat = c.toNat := by
    rw [UInt8.toNat_ofNat']
    omega
  rw [encoded, List.flatMap_singleton, writeByte, if_pos plain, back, Char.ofNat_toNat]

theorem writeText_of_plain {text : String} (each : ∀ c ∈ text.toList, plainChar c = true) :
    writeText text = text.toList := by
  rw [writeText, utf8_eq, List.flatMap_assoc]
  generalize text.toList = chars at each ⊢
  induction chars with
  | nil => rfl
  | cons c rest ih =>
      rw [List.flatMap_cons, writeByte_plainChar (each c List.mem_cons_self),
        ih fun other inside => each other (List.mem_cons_of_mem _ inside), List.singleton_append]

end TypstMcp.Theory.FormUrl
