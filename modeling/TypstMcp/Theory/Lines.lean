/-
Theory.Lines -- a text cut at the Unicode line terminators

LF, VT, FF, CR, NEL, LS and PS each end a line, and CR with LF after it ends one.
`lines_line` takes a first line off, so a header of one line shifts every line of
what follows by one (`lines_shift`).
-/
import Mathlib.Tactic

namespace TypstMcp.Theory.Lines

set_option autoImplicit false

def isNewline (c : Char) : Bool :=
  (0x0a ≤ c.toNat && c.toNat ≤ 0x0d) || c.toNat = 0x85 || c.toNat = 0x2028 || c.toNat = 0x2029

/-- The lines of a text; there is one more than it has terminators. -/
def lines : List Char → List (List Char)
  | [] => [[]]
  | c :: rest =>
      -- a CR before LF is a part of the terminator the LF closes
      if c = '\r' ∧ rest.head? = some '\n' then lines rest
      else if isNewline c then [] :: lines rest
      else (lines rest).modifyHead (c :: ·)

theorem lines_line {line : List Char} (plain : ∀ c ∈ line, isNewline c = false) (rest : List Char) :
    lines (line ++ '\n' :: rest) = line :: lines rest := by
  induction line with
  | nil =>
      rw [List.nil_append, lines, if_neg (fun crlf => absurd crlf.1 (by decide)),
        if_pos (by decide)]
  | cons c more ih =>
      obtain ⟨here, later⟩ := List.forall_mem_cons.1 plain
      have other : c ≠ '\r' := by
        rintro rfl
        exact absurd here (by decide)
      rw [List.cons_append, lines, if_neg (fun crlf => other crlf.1),
        if_neg (by rw [here]; exact Bool.false_ne_true), ih later]
      rfl

/-- Below a header of one line, a text's line `n` is the whole's line `n + 1`. -/
theorem lines_shift {header : List Char} (plain : ∀ c ∈ header, isNewline c = false)
    (rest : List Char) (n : Nat) :
    (lines (header ++ '\n' :: rest))[n + 1]? = (lines rest)[n]? := by
  rw [lines_line plain, List.getElem?_cons_succ]

example : lines "a\r\nb\u2028\rc".toList = [['a'], ['b'], [], ['c']] := by decide

end TypstMcp.Theory.Lines
