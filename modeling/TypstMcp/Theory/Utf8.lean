/-
Theory.Utf8 -- where a UTF-8 text may be cut

An index is a boundary of a text where a character begins, and at its end.  `searchBack`
goes down to one; `searchBack_cons` follows it character by character, so it ends at 0
at the latest and never goes below.
-/
import TypstMcp.Theory.Json

namespace TypstMcp.Theory.Utf8

open TypstMcp.Theory.Json

set_option autoImplicit false

/-! ## Boundaries -/

/-- Not one of the bytes `10xxxxxx`, which continue a character. -/
def startsChar (b : UInt8) : Bool := b.toNat < 0x80 || 0xc0 ≤ b.toNat

/-- `str::is_char_boundary`, on the bytes. -/
def isBoundary (bytes : Bytes) (index : Nat) : Bool :=
  index = 0 || (bytes[index]?.map startsChar).getD (index = bytes.length)

/-- `while !boundary(end) { end -= 1 }`; `none` when it would go below 0. -/
def searchBack (bytes : Bytes) : Nat → Option Nat
  | 0 => if isBoundary bytes 0 then some 0 else none
  | index + 1 =>
      if isBoundary bytes (index + 1) then some (index + 1) else searchBack bytes index

@[simp] theorem isBoundary_zero (bytes : Bytes) : isBoundary bytes 0 = true := rfl

/-- The first byte of a character starts it, and no other one does. -/
theorem encode_shape (c : Char) : ∃ first more, String.utf8EncodeChar c = first :: more ∧
    startsChar first = true ∧ ∀ b ∈ more, startsChar b = false := by
  have value : ∀ n, n < 256 → (UInt8.ofNat n).toNat = n := by
    intro n small
    rw [UInt8.toNat_ofNat']
    omega
  have starts : ∀ n, n < 256 → (n < 0x80 ∨ 0xc0 ≤ n) → startsChar (UInt8.ofNat n) = true := by
    intro n small range
    simpa [startsChar, value n small] using range
  have continues : ∀ n, startsChar (UInt8.ofNat (n % 0x40 + 0x80)) = false := by
    intro n
    unfold startsChar
    rw [value _ (by omega)]
    simp
    omega
  have shape : String.utf8EncodeChar c =
      if c.val.toNat ≤ 0x7f then [UInt8.ofNat c.val.toNat]
      else if c.val.toNat ≤ 0x7ff then
        [UInt8.ofNat (c.val.toNat / 64 % 0x20 + 0xc0), UInt8.ofNat (c.val.toNat % 0x40 + 0x80)]
      else if c.val.toNat ≤ 0xffff then
        [UInt8.ofNat (c.val.toNat / 4096 % 0x10 + 0xe0),
          UInt8.ofNat (c.val.toNat / 64 % 0x40 + 0x80), UInt8.ofNat (c.val.toNat % 0x40 + 0x80)]
      else
        [UInt8.ofNat (c.val.toNat / 262144 % 0x08 + 0xf0),
          UInt8.ofNat (c.val.toNat / 4096 % 0x40 + 0x80),
          UInt8.ofNat (c.val.toNat / 64 % 0x40 + 0x80),
          UInt8.ofNat (c.val.toNat % 0x40 + 0x80)] := rfl
  have none_ : ∀ b ∈ ([] : Bytes), startsChar b = false := fun _ inside => (List.not_mem_nil inside).elim
  have and_ : ∀ n (more : Bytes), (∀ b ∈ more, startsChar b = false) →
      ∀ b ∈ UInt8.ofNat (n % 0x40 + 0x80) :: more, startsChar b = false :=
    fun n _ rest => List.forall_mem_cons.2 ⟨continues n, rest⟩
  rw [shape]
  split_ifs with one two three
  · exact ⟨_, _, rfl, starts _ (by omega) (by omega), none_⟩
  · exact ⟨_, _, rfl, starts _ (by omega) (by omega), and_ _ _ none_⟩
  · exact ⟨_, _, rfl, starts _ (by omega) (by omega), and_ _ _ (and_ _ _ none_)⟩
  · exact ⟨_, _, rfl, starts _ (by omega) (by omega), and_ _ _ (and_ _ _ (and_ _ _ none_))⟩

/-! ## Character by character -/

def encode (chars : List Char) : Bytes := chars.flatMap String.utf8EncodeChar

theorem utf8_ofList (chars : List Char) : utf8 (String.ofList chars) = encode chars := by
  rw [utf8_eq, String.toList_ofList, encode]

theorem utf8_toList (text : String) : utf8 text = encode text.toList := utf8_eq text

@[simp] theorem encode_nil : encode [] = [] := rfl

@[simp] theorem encode_cons (c : Char) (rest : List Char) :
    encode (c :: rest) = String.utf8EncodeChar c ++ encode rest := List.flatMap_cons

theorem encode_append (front back : List Char) : encode (front ++ back) = encode front ++ encode back :=
  List.flatMap_append

theorem encode_length (chars : List Char) :
    (encode chars).length = (String.ofList chars).utf8ByteSize := by
  induction chars with
  | nil => simp
  | cons c rest ih =>
      rw [encode_cons, List.length_append, String.length_utf8EncodeChar, ih, String.ofList_cons,
        String.utf8ByteSize_append, String.utf8ByteSize_singleton]

/-- A text begins with a byte that starts a character. -/
theorem encode_starts {chars : List Char} {b : UInt8} (first : (encode chars)[0]? = some b) :
    startsChar b = true := by
  cases chars with
  | nil => simp at first
  | cons c rest =>
      obtain ⟨head, more, shape, starts, -⟩ := encode_shape c
      rw [encode_cons, shape] at first
      exact Option.some.inj first ▸ starts

/-- Inside its first character a text has no boundary. -/
theorem isBoundary_inside {c : Char} {rest : List Char} {index : Nat} (some_ : 0 < index)
    (inside : index < c.utf8Size) : isBoundary (encode (c :: rest)) index = false := by
  obtain ⟨head, more, shape, -, continues⟩ := encode_shape c
  have length := String.length_utf8EncodeChar c
  rw [shape, List.length_cons] at length
  obtain ⟨k, rfl⟩ : ∃ k, index = k + 1 := ⟨index - 1, by omega⟩
  have short : k < more.length := by omega
  have at_ : (encode (c :: rest))[k + 1]? = some more[k] := by
    rw [encode_cons, shape, List.cons_append, List.getElem?_cons_succ,
      List.getElem?_append_left short, List.getElem?_eq_getElem short]
  unfold isBoundary
  rw [at_]
  simp [continues more[k] (List.getElem_mem short)]

/-- Behind its first character a text has the boundaries of the rest. -/
theorem isBoundary_behind (c : Char) (rest : List Char) (index : Nat) :
    isBoundary (encode (c :: rest)) (c.utf8Size + index) = isBoundary (encode rest) index := by
  have positive := c.utf8Size_pos
  have length := String.length_utf8EncodeChar c
  have at_ : (encode (c :: rest))[c.utf8Size + index]? = (encode rest)[index]? := by
    rw [encode_cons, List.getElem?_append_right (by omega), length, Nat.add_sub_cancel_left]
  unfold isBoundary
  rw [at_]
  cases found : (encode rest)[index]? with
  | none =>
      have beyond := List.getElem?_eq_none_iff.1 found
      have total : (encode (c :: rest)).length = c.utf8Size + (encode rest).length := by
        rw [encode_cons, List.length_append, length]
      simp only [Option.map_none, Option.getD_none, total]
      by_cases zero : index = 0
      · subst zero
        have empty : (encode rest).length = 0 := by omega
        simp [empty]
      · simp only [zero, Nat.add_eq_zero_iff, and_false, decide_false, Bool.false_or,
          Nat.add_left_cancel_iff]
  | some b =>
      by_cases zero : index = 0
      · subst zero
        simp [encode_starts found]
      · simp [zero]

/-- **The search, character by character.** -/
theorem searchBack_cons (c : Char) (rest : List Char) (index : Nat) :
    searchBack (encode (c :: rest)) index =
      if index < c.utf8Size then some 0
      else (searchBack (encode rest) (index - c.utf8Size)).map (c.utf8Size + ·) := by
  have positive := c.utf8Size_pos
  by_cases inside : index < c.utf8Size
  · rw [if_pos inside]
    induction index with
    | zero => rfl
    | succ index ih =>
        rw [searchBack, isBoundary_inside (Nat.succ_pos _) inside]
        exact ih (by omega)
  · rw [if_neg inside]
    obtain ⟨k, rfl⟩ : ∃ k, index = c.utf8Size + k := ⟨index - c.utf8Size, by omega⟩
    rw [Nat.add_sub_cancel_left]
    induction k with
    | zero =>
        obtain ⟨less, size⟩ : ∃ less, c.utf8Size = less + 1 := ⟨c.utf8Size - 1, by omega⟩
        have boundary := isBoundary_behind c rest 0
        rw [Nat.add_zero] at boundary ⊢
        rw [size] at boundary ⊢
        show (if isBoundary (encode (c :: rest)) (less + 1) then some (less + 1)
          else searchBack (encode (c :: rest)) less) = _
        rw [boundary]
        rfl
    | succ k ih =>
        rw [← Nat.add_assoc, searchBack, searchBack, Nat.add_assoc, isBoundary_behind]
        split
        · rfl
        · exact ih (by omega)

end TypstMcp.Theory.Utf8
