/-
Theory.Frame -- length-prefixed frames

A frame is a payload behind its length, little endian in a fixed number of bytes.
`write` and `read` take the same limit, so what is written is read back, whatever
follows it (`read_write`), and a frame cut short is refused (`read_truncated`).
-/
import TypstMcp.Theory.FileTree

namespace TypstMcp.Theory.Frame

set_option autoImplicit false

/-! ## Little endian numbers -/

def littleEndian : Nat → Nat → Bytes
  | 0, _ => []
  | width + 1, n => UInt8.ofNat (n % 256) :: littleEndian width (n / 256)

def ofLittleEndian : Bytes → Nat
  | [] => 0
  | byte :: rest => byte.toNat + 256 * ofLittleEndian rest

@[simp] theorem littleEndian_length (width n : Nat) : (littleEndian width n).length = width := by
  induction width generalizing n with
  | zero => rfl
  | succ width ih => rw [littleEndian, List.length_cons, ih]

theorem ofLittleEndian_littleEndian {width n : Nat} (fits : n < 256 ^ width) :
    ofLittleEndian (littleEndian width n) = n := by
  induction width generalizing n with
  | zero =>
      rw [pow_zero] at fits
      rw [littleEndian, ofLittleEndian]
      omega
  | succ width ih =>
      have high : n / 256 < 256 ^ width := by
        rw [Nat.div_lt_iff_lt_mul (by omega), ← Nat.pow_succ]
        exact fits
      have low : (UInt8.ofNat (n % 256)).toNat = n % 256 := by
        rw [UInt8.toNat_ofNat']
        omega
      rw [littleEndian, ofLittleEndian, ih high, low]
      omega

/-! ## Frames -/

/-- How a length is written, and the longest payload either side takes. -/
structure Format where
  width : Nat
  limit : Nat
  fits : limit < 256 ^ width

inductive Failure
  | tooLong (bytes : Nat)
  | unexpectedEof
  deriving DecidableEq, Repr

variable {format : Format}

def write (format : Format) (payload : Bytes) : Except Failure Bytes :=
  if payload.length ≤ format.limit then
    .ok (littleEndian format.width payload.length ++ payload)
  else .error (.tooLong payload.length)

/-- The first `n` bytes and the rest, when there are that many. -/
def readExact (n : Nat) (input : Bytes) : Except Failure (Bytes × Bytes) :=
  if n ≤ input.length then .ok (input.take n, input.drop n) else .error .unexpectedEof

/-- A frame's payload, and what follows the frame. -/
def read (format : Format) (input : Bytes) : Except Failure (Bytes × Bytes) := do
  let (length, input) ← readExact format.width input
  let length := ofLittleEndian length
  if format.limit < length then .error (.tooLong length) else readExact length input

theorem readExact_append (a b : Bytes) : readExact a.length (a ++ b) = .ok (a, b) := by
  rw [readExact, if_pos (by simp), List.take_left, List.drop_left]

/-- A payload behind its length. -/
def IsFrame (format : Format) (payload frame : Bytes) : Prop :=
  ∃ header, header.length = format.width ∧ ofLittleEndian header = payload.length ∧
    frame = header ++ payload

variable {payload frame : Bytes}

theorem isFrame_littleEndian (fits : payload.length < 256 ^ format.width) :
    IsFrame format payload (littleEndian format.width payload.length ++ payload) :=
  ⟨_, littleEndian_length _ _, ofLittleEndian_littleEndian fits, rfl⟩

/-- What is written is a frame, and within the limit. -/
theorem write_eq_ok (written : write format payload = .ok frame) :
    payload.length ≤ format.limit ∧ IsFrame format payload frame := by
  unfold write at written
  split_ifs at written with short
  obtain rfl := Except.ok.inj written
  exact ⟨short, isFrame_littleEndian (Nat.lt_of_le_of_lt short format.fits)⟩

/-- The header of a frame is read first. -/
theorem read_isFrame (framed : IsFrame format payload frame) (rest : Bytes) :
    read format (frame ++ rest) =
      if format.limit < payload.length then .error (.tooLong payload.length)
      else .ok (payload, rest) := by
  obtain ⟨header, width, length, rfl⟩ := framed
  have first := readExact_append header (payload ++ rest)
  rw [width] at first
  simp only [read, List.append_assoc, first, bind, Except.bind, length]
  rw [readExact_append payload rest]

/-- **A written frame is read back,** and nothing behind it is touched. -/
theorem read_write (written : write format payload = .ok frame) (rest : Bytes) :
    read format (frame ++ rest) = .ok (payload, rest) := by
  obtain ⟨short, framed⟩ := write_eq_ok written
  rw [read_isFrame framed, if_neg (Nat.not_lt.2 short)]

/-- A frame cut short is refused. -/
theorem read_truncated {cut : Bytes} (framed : IsFrame format payload frame) (kept : cut <+: frame)
    (strict : cut ≠ frame) : ∃ failure, read format cut = .error failure := by
  obtain ⟨header, width, length, rfl⟩ := framed
  have fewer : cut.length < header.length + payload.length := by
    rw [← List.length_append]
    exact Nat.lt_of_le_of_ne kept.length_le fun same => strict (kept.eq_of_length same)
  by_cases whole : format.width ≤ cut.length
  · obtain ⟨tail, rfl⟩ : header <+: cut :=
      List.prefix_of_prefix_length_le (List.prefix_append _ _) kept (width ▸ whole)
    have first := readExact_append header tail
    rw [width] at first
    rw [List.length_append] at fewer
    simp only [read, first, bind, Except.bind, length]
    split
    · exact ⟨_, rfl⟩
    · exact ⟨_, by rw [readExact, if_neg (by omega)]⟩
  · exact ⟨.unexpectedEof, by simp only [read, readExact, if_neg whole, bind, Except.bind]⟩

end TypstMcp.Theory.Frame
