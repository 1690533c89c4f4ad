/-
Theory.Bits -- numbers and bytes as bits, the highest first

`msb w n` are the low `w` bits of `n`.  A shift splits them (`msb_add`), and a byte
shifted in from below extends them (`msb_shiftIn`).
-/
import TypstMcp.Theory.FileTree

namespace TypstMcp.Theory.Bits

set_option autoImplicit false

/-- The low `w` bits of `n`, the highest first. -/
def msb : Nat → Nat → List Bool
  | 0, _ => []
  | w + 1, n => n.testBit w :: msb w n

@[simp] theorem msb_length (w n : Nat) : (msb w n).length = w := by
  induction w with
  | zero => rfl
  | succ w ih => rw [msb, List.length_cons, ih]

/-- Bits above the width do not matter. -/
theorem msb_congr {w m n : Nat} (same : ∀ i < w, m.testBit i = n.testBit i) :
    msb w m = msb w n := by
  induction w with
  | zero => rfl
  | succ w ih =>
      rw [msb, msb, same w (Nat.lt_succ_self w), ih fun i less => same i (by omega)]

/-- A shift splits the bits. -/
theorem msb_add (a b n : Nat) : msb (a + b) n = msb a (n >>> b) ++ msb b n := by
  induction a with
  | zero => rw [Nat.zero_add, msb, List.nil_append]
  | succ a ih =>
      rw [Nat.add_right_comm, msb, msb, List.cons_append, ih, Nat.testBit_shiftRight,
        Nat.add_comm b a]

/-- A mask or a modulus no narrower than the width changes nothing. -/
theorem msb_mod {w k n : Nat} (le : w ≤ k) : msb w (n % 2 ^ k) = msb w n := by
  refine msb_congr fun i less => ?_
  rw [Nat.testBit_mod_two_pow]
  simp [Nat.lt_of_lt_of_le less le]

/-- A byte shifted in from below extends the bits, as long as the word has room. -/
theorem msb_shiftIn {bits word buffer byte : Nat} (room : bits + 8 ≤ word) (small : byte < 2 ^ 8) :
    msb (bits + 8) ((buffer <<< 8 ||| byte) % 2 ^ word) = msb bits buffer ++ msb 8 byte := by
  rw [msb_mod room, msb_add]
  have zero : ∀ i, 8 ≤ i → byte.testBit i = false := fun i le =>
    Nat.testBit_lt_two_pow (small.trans_le (Nat.pow_le_pow_right (by omega) le))
  congr 1
  · refine msb_congr fun i _ => ?_
    rw [Nat.testBit_shiftRight, Nat.testBit_or, Nat.testBit_shiftLeft, zero _ (by omega)]
    simp
  · refine msb_congr fun i less => ?_
    rw [Nat.testBit_or, Nat.testBit_shiftLeft]
    simp [Nat.not_le.2 less]

/-- The bits of a byte string. -/
def ofBytes (bytes : Bytes) : List Bool := bytes.flatMap fun byte => msb 8 byte.toNat

@[simp] theorem ofBytes_nil : ofBytes [] = [] := rfl

theorem ofBytes_cons (byte : UInt8) (rest : Bytes) :
    ofBytes (byte :: rest) = msb 8 byte.toNat ++ ofBytes rest := rfl

end TypstMcp.Theory.Bits
