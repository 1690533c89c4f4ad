/-
Theory.Quoted -- text made of code and string literals

`codePositions` deletes every quoted literal of a text and `literals` keeps their
bodies, both honouring backslash escapes.  A text is written from pieces, code
and literals; `escape` is how a character of a literal is written.

When every escaped character is a literal's `Body`, no literal ends early:
`codePositions_write` and `literals_write` read the pieces back.
-/
import Mathlib.Tactic

namespace TypstMcp.Theory.Quoted

set_option autoImplicit false

inductive Mode
  | code
  | literal
  | escaped
  deriving DecidableEq, Repr

/-- The characters outside string literals. -/
def scan : Mode → List Char → List Char
  | _, [] => []
  | .code, c :: rest => if c = '"' then scan .literal rest else c :: scan .code rest
  | .literal, c :: rest =>
      if c = '\\' then scan .escaped rest
      else if c = '"' then scan .code rest
      else scan .literal rest
  | .escaped, _ :: rest => scan .literal rest

def codePositions (text : List Char) : List Char := scan .code text

/-- The bodies of the string literals, `body` being read so far. -/
def collect : Mode → List Char → List Char → List (List Char)
  | _, _, [] => []
  | .code, _, c :: rest =>
      if c = '"' then collect .literal [] rest else collect .code [] rest
  | .literal, body, c :: rest =>
      if c = '\\' then collect .escaped (body ++ [c]) rest
      else if c = '"' then body :: collect .code [] rest
      else collect .literal (body ++ [c]) rest
  | .escaped, body, c :: rest => collect .literal (body ++ [c]) rest

def literals (text : List Char) : List (List Char) := collect .code [] text

/-! ## A literal's body -/

/-- Plain characters and escape pairs: what may stand between two quotes. -/
inductive Body : List Char → Prop
  | nil : Body []
  | plain {c : Char} {rest : List Char} (quote : c ≠ '"') (backslash : c ≠ '\\') :
      Body rest → Body (c :: rest)
  | pair (c : Char) {rest : List Char} : Body rest → Body ('\\' :: c :: rest)

namespace Body

theorem append {a b : List Char} (left : Body a) (right : Body b) : Body (a ++ b) := by
  induction left with
  | nil => exact right
  | plain quote backslash _ ih => exact .plain quote backslash ih
  | pair c _ ih => exact .pair c ih

theorem flatMap {escape : Char → List Char} (inert : ∀ c, Body (escape c)) (value : List Char) :
    Body (value.flatMap escape) := by
  induction value with
  | nil => exact .nil
  | cons c rest ih => exact (inert c).append ih

theorem of_plain {text : List Char} (plain : ∀ c ∈ text, c ≠ '"' ∧ c ≠ '\\') : Body text := by
  induction text with
  | nil => exact .nil
  | cons c rest ih =>
      obtain ⟨here, later⟩ := List.forall_mem_cons.1 plain
      exact .plain here.1 here.2 (ih later)

theorem scan_close {body : List Char} (is : Body body) (rest : List Char) :
    scan .literal (body ++ '"' :: rest) = scan .code rest := by
  induction is with
  | nil => simp [scan]
  | plain quote backslash _ ih => simpa [scan, quote, backslash] using ih
  | pair c _ ih => simpa [scan] using ih

theorem collect_close {body : List Char} (is : Body body) (before rest : List Char) :
    collect .literal before (body ++ '"' :: rest) =
      (before ++ body) :: collect .code [] rest := by
  induction is generalizing before with
  | nil => simp [collect]
  | plain quote backslash _ ih => simp [collect, quote, backslash, ih]
  | pair c _ ih => simp [collect, ih]

end Body

theorem scan_code {text : List Char} (plain : '"' ∉ text) (rest : List Char) :
    scan .code (text ++ rest) = text ++ scan .code rest := by
  induction text with
  | nil => rfl
  | cons c more ih =>
      obtain ⟨first, later⟩ : '"' ≠ c ∧ '"' ∉ more := by simpa using plain
      simp [scan, Ne.symm first, ih later]

theorem collect_code {text : List Char} (plain : '"' ∉ text) (rest : List Char) :
    collect .code [] (text ++ rest) = collect .code [] rest := by
  induction text with
  | nil => rfl
  | cons c more ih =>
      obtain ⟨first, later⟩ : '"' ≠ c ∧ '"' ∉ more := by simpa using plain
      simp [collect, Ne.symm first, ih later]

/-! ## Pieces -/

inductive Piece
  | code (text : List Char)
  | literal (value : List Char)
  deriving DecidableEq, Repr

namespace Piece

def codeText : Piece → List Char
  | .code text => text
  | .literal _ => []

def value? : Piece → Option (List Char)
  | .code _ => none
  | .literal value => some value

/-- A piece of code must not open a literal of its own. -/
def Plain (piece : Piece) : Prop := '"' ∉ piece.codeText

end Piece

section Writing

variable (escape : Char → List Char)

def writeLiteral (value : List Char) : List Char := '"' :: (value.flatMap escape ++ ['"'])

def Piece.write : Piece → List Char
  | .code text => text
  | .literal value => writeLiteral escape value

def write (pieces : List Piece) : List Char := pieces.flatMap (Piece.write escape)

@[simp] theorem write_nil : write escape [] = [] := rfl

@[simp] theorem write_append (a b : List Piece) :
    write escape (a ++ b) = write escape a ++ write escape b := List.flatMap_append

@[simp] theorem write_cons (piece : Piece) (rest : List Piece) :
    write escape (piece :: rest) = piece.write escape ++ write escape rest := rfl

variable {escape} (inert : ∀ c, Body (escape c))

include inert

/-- **Outside its literals a text is its pieces of code.** -/
theorem codePositions_write (pieces : List Piece) (plain : ∀ piece ∈ pieces, piece.Plain) :
    codePositions (write escape pieces) = pieces.flatMap Piece.codeText := by
  induction pieces with
  | nil => rfl
  | cons piece rest ih =>
      obtain ⟨here, later⟩ := List.forall_mem_cons.1 plain
      rw [write_cons, List.flatMap_cons, ← ih later]
      cases piece with
      | code text => exact scan_code here _
      | literal value =>
          have closed := (Body.flatMap inert value).scan_close (write escape rest)
          simpa [Piece.write, writeLiteral, Piece.codeText, codePositions, scan] using closed

/-- **The literals of a text are its values, escaped, in order.** -/
theorem literals_write (pieces : List Piece) (plain : ∀ piece ∈ pieces, piece.Plain) :
    literals (write escape pieces) =
      (pieces.filterMap Piece.value?).map (·.flatMap escape) := by
  induction pieces with
  | nil => rfl
  | cons piece rest ih =>
      obtain ⟨here, later⟩ := List.forall_mem_cons.1 plain
      cases piece with
      | code text =>
          rw [write_cons, List.filterMap_cons_none rfl, ← ih later]
          exact collect_code here _
      | literal value =>
          have closed := (Body.flatMap inert value).collect_close [] (write escape rest)
          have values : (Piece.literal value :: rest).filterMap Piece.value? =
              value :: rest.filterMap Piece.value? := rfl
          rw [write_cons, values, List.map_cons, ← ih later]
          simpa [Piece.write, writeLiteral, literals, collect] using closed

end Writing

end TypstMcp.Theory.Quoted
