/-
Theory.Base64 -- base64 with the URL alphabet and without padding

`encodeChars` writes three bytes as four characters, and one or two bytes at the end
as two or three.  `decodeChars` takes back exactly what `encodeChars` writes: no
padding, no character outside the alphabet, no bit set behind the last byte
(`decode_encode`, `encode_of_decode`).
-/
import Mathlib.Data.List.GetD
import TypstMcp.Theory.FileTree

namespace TypstMcp.Theory.Base64

set_option autoImplicit false

def alphabet : List Char := "ABCDEFGHIJKLMNOPQRSTUVWXYZabcdefghijklmnopqrstuvwxyz0123456789-_".toList

def digit (n : Nat) : Char := alphabet.getD n 'A'

def value (c : Char) : Option Nat := if c ∈ alphabet then some (alphabet.idxOf c) else none

def encodeChars : Bytes → List Char
  | [] => []
  | [a] => [digit (a.toNat / 4), digit (a.toNat % 4 * 16)]
  | [a, b] =>
      [digit (a.toNat / 4), digit (a.toNat % 4 * 16 + b.toNat / 16), digit (b.toNat % 16 * 4)]
  | a :: b :: c :: rest =>
      digit (a.toNat / 4) :: digit (a.toNat % 4 * 16 + b.toNat / 16) ::
        digit (b.toNat % 16 * 4 + c.toNat / 64) :: digit (c.toNat % 64) :: encodeChars rest

def decodeChars : List Char → Option Bytes
  | [] => some []
  | [_] => none
  | [c, d] =>
      match value c, value d with
      | some w, some x => if x % 16 = 0 then some [UInt8.ofNat (w * 4 + x / 16)] else none
      | _, _ => none
  | [c, d, e] =>
      match value c, value d, value e with
      | some w, some x, some y =>
          if y % 4 = 0 then
            some [UInt8.ofNat (w * 4 + x / 16), UInt8.ofNat (x % 16 * 16 + y / 4)]
          else none
      | _, _, _ => none
  | c :: d :: e :: f :: rest =>
      match value c, value d, value e, value f, decodeChars rest with
      | some w, some x, some y, some z, some tail =>
          some (UInt8.ofNat (w * 4 + x / 16) :: UInt8.ofNat (x % 16 * 16 + y / 4) ::
            UInt8.ofNat (y % 4 * 64 + z) :: tail)
      | _, _, _, _, _ => none

def encode (bytes : Bytes) : String := String.ofList (encodeChars bytes)

def decode (text : String) : Option Bytes := decodeChars text.toList

/-- The standard alphabet spells two characters otherwise. -/
def standardChar (c : Char) : Char := if c = '-' then '+' else if c = '_' then '/' else c

/-- With the standard alphabet, padded. -/
def encodeStandard (bytes : Bytes) : String :=
  String.ofList ((encodeChars bytes).map standardChar ++
    List.replicate ((3 - bytes.length % 3) % 3) '=')

example : encodeStandard [77, 251, 255, 251] = "Tfv/+w==" := by decide

/-! ## Digits -/

theorem value_digit : ∀ n < 64, value (digit n) = some n := by decide +kernel

theorem digit_mem : ∀ n < 64, digit n ∈ alphabet := by decide +kernel

theorem digit_value {c : Char} {n : Nat} (read : value c = some n) : digit n = c ∧ n < 64 := by
  unfold value at read
  split at read
  next inside =>
    obtain rfl := Option.some.inj read
    have small : alphabet.idxOf c < alphabet.length := List.idxOf_lt_length_of_mem inside
    refine ⟨?_, small⟩
    rw [digit, List.getD_eq_getElem _ _ small, List.getElem_idxOf]
  · cases read

/-- Every byte is written with characters of the alphabet. -/
theorem encodeChars_mem (bytes : Bytes) : ∀ c ∈ encodeChars bytes, c ∈ alphabet := by
  fun_induction encodeChars bytes with
  | case1 => nofun
  | case2 a =>
      have := a.toNat_lt
      intro c inside
      simp only [List.mem_cons, List.not_mem_nil, or_false] at inside
      obtain rfl | rfl := inside <;> exact digit_mem _ (by omega)
  | case3 a b =>
      have := a.toNat_lt
      have := b.toNat_lt
      intro c inside
      simp only [List.mem_cons, List.not_mem_nil, or_false] at inside
      obtain rfl | rfl | rfl := inside <;> exact digit_mem _ (by omega)
  | case4 a b c rest ih =>
      have := a.toNat_lt
      have := b.toNat_lt
      have := c.toNat_lt
      intro d inside
      simp only [List.mem_cons] at inside
      obtain rfl | rfl | rfl | rfl | inside := inside
      · exact digit_mem _ (by omega)
      · exact digit_mem _ (by omega)
      · exact digit_mem _ (by omega)
      · exact digit_mem _ (by omega)
      · exact ih d inside

theorem encodeChars_length (bytes : Bytes) :
    (encodeChars bytes).length = (4 * bytes.length + 2) / 3 := by
  fun_induction encodeChars bytes with
  | case1 => rfl
  | case2 a => simp
  | case3 a b => simp
  | case4 a b c rest ih =>
      simp only [List.length_cons, ih]
      omega

/-! ## Round trips -/

theorem decodeChars_encodeChars (bytes : Bytes) : decodeChars (encodeChars bytes) = some bytes := by
  fun_induction encodeChars bytes with
  | case1 => rfl
  | case2 a =>
      have := a.toNat_lt
      have whole : a.toNat % 4 * 16 % 16 = 0 := by omega
      have back : a.toNat / 4 * 4 + a.toNat % 4 * 16 / 16 = a.toNat := by omega
      simp only [decodeChars, value_digit _ (show a.toNat / 4 < 64 by omega),
        value_digit _ (show a.toNat % 4 * 16 < 64 by omega), whole, back, if_true,
        UInt8.ofNat_toNat]
  | case3 a b =>
      have := a.toNat_lt
      have := b.toNat_lt
      have whole : b.toNat % 16 * 4 % 4 = 0 := by omega
      have first : a.toNat / 4 * 4 + (a.toNat % 4 * 16 + b.toNat / 16) / 16 = a.toNat := by omega
      have second : (a.toNat % 4 * 16 + b.toNat / 16) % 16 * 16 + b.toNat % 16 * 4 / 4 =
          b.toNat := by omega
      simp only [decodeChars, value_digit _ (show a.toNat / 4 < 64 by omega),
        value_digit _ (show a.toNat % 4 * 16 + b.toNat / 16 < 64 by omega),
        value_digit _ (show b.toNat % 16 * 4 < 64 by omega), whole, first, second, if_true,
        UInt8.ofNat_toNat]
  | case4 a b c rest ih =>
      have := a.toNat_lt
      have := b.toNat_lt
      have := c.toNat_lt
      have first : a.toNat / 4 * 4 + (a.toNat % 4 * 16 + b.toNat / 16) / 16 = a.toNat := by omega
      have second : (a.toNat % 4 * 16 + b.toNat / 16) % 16 * 16 +
          (b.toNat % 16 * 4 + c.toNat / 64) / 4 = b.toNat := by omega
      have third : (b.toNat % 16 * 4 + c.toNat / 64) % 4 * 64 + c.toNat % 64 = c.toNat := by omega
      simp only [decodeChars, value_digit _ (show a.toNat / 4 < 64 by omega),
        value_digit _ (show a.toNat % 4 * 16 + b.toNat / 16 < 64 by omega),
        value_digit _ (show b.toNat % 16 * 4 + c.toNat / 64 < 64 by omega),
        value_digit _ (show c.toNat % 64 < 64 by omega), ih, first, second, third,
        UInt8.ofNat_toNat]

theorem toNat_ofNat_of_lt {n : Nat} (small : n < 256) : (UInt8.ofNat n).toNat = n := by
  rw [UInt8.toNat_ofNat', Nat.mod_eq_of_lt small]

theorem encodeChars_of_decodeChars {chars : List Char} {bytes : Bytes}
    (read : decodeChars chars = some bytes) : encodeChars bytes = chars := by
  fun_induction decodeChars chars generalizing bytes with
  | case1 => obtain rfl := Option.some.inj read; rfl
  | case3 c d w x hd hc whole =>
      obtain rfl := Option.some.inj read
      obtain ⟨rfl, _⟩ := digit_value hc
      obtain ⟨rfl, _⟩ := digit_value hd
      rw [encodeChars, toNat_ofNat_of_lt (by omega)]
      rw [show (w * 4 + x / 16) / 4 = w by omega, show (w * 4 + x / 16) % 4 * 16 = x by omega]
  | case6 c d e w x y he hd hc whole =>
      obtain rfl := Option.some.inj read
      obtain ⟨rfl, _⟩ := digit_value hc
      obtain ⟨rfl, _⟩ := digit_value hd
      obtain ⟨rfl, _⟩ := digit_value he
      rw [encodeChars, toNat_ofNat_of_lt (by omega), toNat_ofNat_of_lt (by omega)]
      rw [show (w * 4 + x / 16) / 4 = w by omega,
        show (w * 4 + x / 16) % 4 * 16 + (x % 16 * 16 + y / 4) / 16 = x by omega,
        show (x % 16 * 16 + y / 4) % 16 * 4 = y by omega]
  | case9 c d e f rest w x y z tail ht hf he hd hc ih =>
      obtain rfl := Option.some.inj read
      obtain ⟨rfl, _⟩ := digit_value hc
      obtain ⟨rfl, _⟩ := digit_value hd
      obtain ⟨rfl, _⟩ := digit_value he
      obtain ⟨rfl, _⟩ := digit_value hf
      rw [encodeChars, toNat_ofNat_of_lt (by omega), toNat_ofNat_of_lt (by omega),
        toNat_ofNat_of_lt (by omega), ih ht]
      rw [show (w * 4 + x / 16) / 4 = w by omega,
        show (w * 4 + x / 16) % 4 * 16 + (x % 16 * 16 + y / 4) / 16 = x by omega,
        show (x % 16 * 16 + y / 4) % 16 * 4 + (y % 4 * 64 + z) / 64 = y by omega,
        show (y % 4 * 64 + z) % 64 = z by omega]
  | case2 | case4 | case5 | case7 | case8 | case10 => cases read

theorem decode_encode (bytes : Bytes) : decode (encode bytes) = some bytes := by
  rw [decode, encode, String.toList_ofList, decodeChars_encodeChars]

/-- A text that decodes is the one that was encoded. -/
theorem encode_of_decode {text : String} {bytes : Bytes} (read : decode text = some bytes) :
    encode bytes = text := by
  rw [encode, encodeChars_of_decodeChars read, String.ofList_toList]

example : encode [0x66, 0x6f, 0x6f, 0xff] = "Zm9v_w" := by decide

end TypstMcp.Theory.Base64
