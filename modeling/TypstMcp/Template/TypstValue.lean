/-
Template.TypstValue -- emitting caller data as Typst literals

`toSource` prints a value as Typst source.  `toSource_eq` splits what it prints
into pieces: code without a quote, and one literal for each string.
`readLiteral_escaped` undoes `escapeChar`, so a literal denotes the string it was
written from.
-/
import TypstMcp.Template.Data
import TypstMcp.Theory.Checked
import TypstMcp.Theory.Json
import TypstMcp.Theory.Quoted

namespace TypstMcp.Template

open TypstMcp.Theory TypstMcp.Theory.Quoted

set_option autoImplicit false

/-- A value that can be written into generated Typst source. -/
inductive TypstValue (F : Type)
  | none
  | bool (b : Bool)
  | int (i : Int)
  | float (f : F)
  | str (s : String)
  | ident (name : String)
  | array (items : List (TypstValue F))
  | dict (pairs : List (String × TypstValue F))
  | date (year : Int) (month day : Nat)
  deriving Repr

/-- A value that cannot be represented in Typst source. -/
inductive ValueError
  | nonFinite (text : String)
  | badIdent (name : String)
  | badKey (key : String)
  | badDate (year : Int) (month day : Nat)
  deriving DecidableEq, Repr

/-! ## Identifiers -/

def isAsciiAlphabetic (c : Char) : Bool := c.isAlpha

/-- Whether `name` is a Typst identifier we are willing to emit bare. -/
def isIdent (name : String) : Bool :=
  match name.toList with
  | [] => false
  | first :: _ =>
      (isAsciiAlphabetic first || first = '_') &&
        name.toList.all fun c => c.isAlphanum || c = '_' || c = '-'

theorem isIdent_plain {name : String} (ident : isIdent name = true) : '"' ∉ name.toList := by
  intro quote
  unfold isIdent at ident
  split at ident
  · cases ident
  · rw [Bool.and_eq_true] at ident
    exact absurd (List.all_eq_true.1 ident.2 _ quote) (by decide)

/-! ## String literals -/

/-- `char::is_control`: the general category Cc. -/
def isControl (c : Char) : Bool := c.toNat < 0x20 || (0x7f ≤ c.toNat && c.toNat < 0xa0)

/-- Characters written as `\u{..}` besides the controls. -/
def isSeparator (c : Char) : Bool := c = '\u2028' || c = '\u2029' || c = '\ufeff'

/-- One character of a Typst string literal. -/
def escapeChar (c : Char) : List Char :=
  if c = '"' then ['\\', '"']
  else if c = '\\' then ['\\', '\\']
  else if c = '\n' then ['\\', 'n']
  else if c = '\r' then ['\\', 'r']
  else if c = '\t' then ['\\', 't']
  else if isControl c || isSeparator c then
    '\\' :: 'u' :: '\x7b' :: (Nat.toDigits 16 c.toNat ++ ['\x7d'])
  else [c]

/-- `write_string`. -/
def writeString (value : String) : String := String.ofList (writeLiteral escapeChar value.toList)

/-! ## Values -/

mutual

/-- `TypstValue::write`; an error drops what was written so far. -/
def TypstValue.toSource {F : Type} (floats : Floats F) : TypstValue F → Except ValueError String
  | .none => .ok "none"
  | .bool b => .ok (if b then "true" else "false")
  | .int i => .ok (toString i)
  | .float f =>
      if floats.isFinite f then .ok (floats.debug f) else .error (.nonFinite (floats.display f))
  | .str s => .ok (writeString s)
  | .ident name => if isIdent name then .ok name else .error (.badIdent name)
  | .array items => do
      let body ← itemsToSource floats items
      return "(" ++ body ++ ")"
  | .dict [] => .ok "(:)"
  | .dict pairs => do
      let body ← pairsToSource floats pairs
      return "(" ++ body ++ ")"
  | .date year month day =>
      if 1 ≤ month ∧ month ≤ 12 ∧ 1 ≤ day ∧ day ≤ 31 then
        .ok ("datetime(year: " ++ toString year ++ ", month: " ++ toString month ++
          ", day: " ++ toString day ++ ")")
      else .error (.badDate year month day)

def itemsToSource {F : Type} (floats : Floats F) : List (TypstValue F) → Except ValueError String
  | [] => .ok ""
  | item :: rest => do
      let first ← item.toSource floats
      let more ← itemsToSource floats rest
      return first ++ ", " ++ more

def pairsToSource {F : Type} (floats : Floats F) :
    List (String × TypstValue F) → Except ValueError String
  | [] => .ok ""
  | (key, value) :: rest =>
      if isIdent key then do
        let first ← value.toSource floats
        let more ← pairsToSource floats rest
        return key ++ ": " ++ first ++ ", " ++ more
      else .error (.badKey key)

end

section Inversion

variable {F : Type} {floats : Floats F} {source : String}

theorem ident_toSource {name : String} : (TypstValue.ident name).toSource floats = .ok source ↔
    isIdent name = true ∧ source = name := by
  rw [TypstValue.toSource]
  constructor
  · intro ok
    split_ifs at ok with ident
    exact ⟨ident, (Except.ok.inj ok).symm⟩
  · rintro ⟨ident, rfl⟩
    exact if_pos ident

theorem array_toSource {items : List (TypstValue F)} :
    (TypstValue.array items).toSource floats = .ok source ↔
      ∃ body, itemsToSource floats items = .ok body ∧ source = "(" ++ body ++ ")" := by
  rw [TypstValue.toSource, bind_eq_ok]
  exact exists_congr fun body => and_congr_right fun _ => pure_eq_ok

theorem dict_toSource {pair : String × TypstValue F} {pairs : List (String × TypstValue F)} :
    (TypstValue.dict (pair :: pairs)).toSource floats = .ok source ↔
      ∃ body, pairsToSource floats (pair :: pairs) = .ok body ∧ source = "(" ++ body ++ ")" := by
  rw [TypstValue.toSource, bind_eq_ok]
  · exact exists_congr fun body => and_congr_right fun _ => pure_eq_ok
  · exact fun same => by cases same

theorem itemsToSource_cons {item : TypstValue F} {rest : List (TypstValue F)} :
    itemsToSource floats (item :: rest) = .ok source ↔
      ∃ first more, item.toSource floats = .ok first ∧ itemsToSource floats rest = .ok more ∧
        source = first ++ ", " ++ more := by
  rw [itemsToSource]
  constructor
  · intro ok
    obtain ⟨first, head, ok⟩ := bind_eq_ok.1 ok
    obtain ⟨more, tail, done⟩ := bind_eq_ok.1 ok
    exact ⟨first, more, head, tail, pure_eq_ok.1 done⟩
  · rintro ⟨first, more, head, tail, rfl⟩
    exact bind_eq_ok.2 ⟨first, head, bind_eq_ok.2 ⟨more, tail, rfl⟩⟩

theorem pairsToSource_cons {key : String} {value : TypstValue F}
    {rest : List (String × TypstValue F)} :
    pairsToSource floats ((key, value) :: rest) = .ok source ↔
      isIdent key = true ∧ ∃ first more, value.toSource floats = .ok first ∧
        pairsToSource floats rest = .ok more ∧ source = key ++ ": " ++ first ++ ", " ++ more := by
  rw [pairsToSource]
  constructor
  · intro ok
    split_ifs at ok with ident
    obtain ⟨first, head, ok⟩ := bind_eq_ok.1 ok
    obtain ⟨more, tail, done⟩ := bind_eq_ok.1 ok
    exact ⟨ident, first, more, head, tail, pure_eq_ok.1 done⟩
  · rintro ⟨ident, first, more, head, tail, rfl⟩
    rw [if_pos ident]
    exact bind_eq_ok.2 ⟨first, head, bind_eq_ok.2 ⟨more, tail, rfl⟩⟩

end Inversion

/-! ## Dates -/

def digitsValue (text : List Char) : Option Nat :=
  if text ≠ [] ∧ text.all Char.isDigit then some (Nat.ofDigitChars 10 text 0) else none

/-- `str::parse` for an integer type: an optional sign, then decimal digits in range. -/
def parseInteger (least greatest : Int) (text : List Char) : Option Int :=
  let signed : Option Int := match text with
    | '+' :: digits => (digitsValue digits).map Int.ofNat
    | '-' :: digits => if least < 0 then (digitsValue digits).map fun n => -(n : Int) else none
    | digits => (digitsValue digits).map Int.ofNat
  signed.filter fun n => least ≤ n ∧ n ≤ greatest

def parseI32 (text : List Char) : Option Int := parseInteger (-2 ^ 31) (2 ^ 31 - 1) text

def parseU8 (text : List Char) : Option Nat := (parseInteger 0 255 text).map Int.toNat

/-- Parse an ISO 8601 calendar date (`YYYY-MM-DD`). -/
def parseDate {F : Type} (text : String) : Option (TypstValue F) :=
  match text.toList.splitOn '-' with
  | [year, month, day] => do
      let year ← parseI32 year
      let month ← parseU8 month
      let day ← parseU8 day
      if 1 ≤ month ∧ month ≤ 12 ∧ 1 ≤ day ∧ day ≤ 31 then some (.date year month day) else none
  | _ => none

theorem parseDate_date {F : Type} {text : String} {value : TypstValue F}
    (parsed : parseDate text = some value) : ∃ year month day, value = .date year month day := by
  unfold parseDate at parsed
  split at parsed
  · obtain ⟨year, -, parsed⟩ := Option.bind_eq_some_iff.1 parsed
    obtain ⟨month, -, parsed⟩ := Option.bind_eq_some_iff.1 parsed
    obtain ⟨day, -, parsed⟩ := Option.bind_eq_some_iff.1 parsed
    split_ifs at parsed
    exact ⟨year, month, day, (Option.some.inj parsed).symm⟩
  · cases parsed

/-! ## Reading a literal back -/

theorem mem_toDigits {n : Nat} {c : Char} (inside : c ∈ Nat.toDigits 16 n) :
    ∃ d < 16, c = Nat.digitChar d := by
  induction n using Nat.strongRecOn with
  | _ n ih =>
      by_cases small : n < 16
      · rw [Nat.toDigits_of_lt_base small, List.mem_singleton] at inside
        exact ⟨n, small, inside⟩
      · rw [Nat.toDigits_of_base_le (by decide) (by omega), List.mem_append, List.mem_singleton] at inside
        rcases inside with inside | last
        · exact ih (n / 16) (by omega) inside
        · exact ⟨n % 16, by omega, last⟩

/-- Where a reader of a string literal's body stands. -/
inductive Reading
  | plain
  | backslash
  | unicode
  | digits (value : Nat)

/-- The string a literal's body denotes. -/
def readFrom : Reading → List Char → Option (List Char)
  | .plain, [] => some []
  | .plain, c :: rest =>
      if c = '\\' then readFrom .backslash rest else (readFrom .plain rest).map (c :: ·)
  | .backslash, c :: rest =>
      if c = '"' ∨ c = '\\' then (readFrom .plain rest).map (c :: ·)
      else if c = 'n' then (readFrom .plain rest).map ('\n' :: ·)
      else if c = 'r' then (readFrom .plain rest).map ('\r' :: ·)
      else if c = 't' then (readFrom .plain rest).map ('\t' :: ·)
      else if c = 'u' then readFrom .unicode rest
      else none
  | .unicode, c :: rest => if c = '\x7b' then readFrom (.digits 0) rest else none
  | .digits value, c :: rest =>
      if c = '\x7d' then (readFrom .plain rest).map (Char.ofNat value :: ·)
      else match Theory.Json.hexValue c with
        | some digit => readFrom (.digits (16 * value + digit)) rest
        | none => none
  | _, [] => none

def readLiteral (body : List Char) : Option (List Char) := readFrom .plain body

theorem hexValue_digitChar : ∀ d, d < 16 → Theory.Json.hexValue (Nat.digitChar d) = some d := by
  decide

theorem digitChar_plain : ∀ d, d < 16 →
    Nat.digitChar d ≠ '"' ∧ Nat.digitChar d ≠ '\\' ∧ Nat.digitChar d ≠ '\x7d' := by
  decide

theorem readFrom_digit {d : Nat} (digit : d < 16) (value : Nat) (rest : List Char) :
    readFrom (.digits value) (Nat.digitChar d :: rest) =
      readFrom (.digits (16 * value + d)) rest := by
  simp [readFrom, hexValue_digitChar d digit, (digitChar_plain d digit).2.2]

theorem readFrom_digits (n : Nat) (rest : List Char) :
    readFrom (.digits 0) (Nat.toDigits 16 n ++ rest) = readFrom (.digits n) rest := by
  induction n using Nat.strongRecOn generalizing rest with
  | _ n ih =>
      by_cases small : n < 16
      · rw [Nat.toDigits_of_lt_base small, List.singleton_append, readFrom_digit small]
        simp
      · have last : n % 16 < 16 := Nat.mod_lt n (by decide)
        rw [Nat.toDigits_of_base_le (by decide) (by omega), List.append_assoc, ih (n / 16) (by omega),
          List.singleton_append, readFrom_digit last, Nat.div_add_mod]

theorem readFrom_escapeChar (c : Char) (rest : List Char) :
    readFrom .plain (escapeChar c ++ rest) = (readFrom .plain rest).map (c :: ·) := by
  unfold escapeChar
  split_ifs with quote backslash newline cr tab control
  · subst quote; simp [readFrom]
  · subst backslash; simp [readFrom]
  · subst newline; simp [readFrom]
  · subst cr; simp [readFrom]
  · subst tab; simp [readFrom]
  · have digits := readFrom_digits c.toNat ('\x7d' :: rest)
    simp [readFrom, digits]
  · simp [readFrom, backslash]

theorem readLiteral_escaped (value : List Char) :
    readLiteral (value.flatMap escapeChar) = some value := by
  induction value with
  | nil => rfl
  | cons c rest ih =>
      rw [List.flatMap_cons]
      show readFrom .plain (escapeChar c ++ _) = _
      rw [readFrom_escapeChar]
      exact congrArg (Option.map (c :: ·)) ih

/-! ## What is code and what is literal -/

theorem escapeChar_body (c : Char) : Body (escapeChar c) := by
  unfold escapeChar
  split_ifs with quote backslash newline cr tab control
  · exact .pair _ .nil
  · exact .pair _ .nil
  · exact .pair _ .nil
  · exact .pair _ .nil
  · exact .pair _ .nil
  · refine .pair _ (.of_plain fun d inside => ?_)
    simp only [List.mem_cons, List.mem_append, List.not_mem_nil, or_false] at inside
    rcases inside with rfl | inside | rfl
    · decide
    · obtain ⟨digit, small, rfl⟩ := mem_toDigits inside
      exact ⟨(digitChar_plain digit small).1, (digitChar_plain digit small).2.1⟩
    · decide
  · exact .plain quote backslash .nil

mutual

def TypstValue.pieces {F : Type} (floats : Floats F) : TypstValue F → List Piece
  | .none => [.code "none".toList]
  | .bool b => [.code (if b then "true" else "false").toList]
  | .int i => [.code (toString i).toList]
  | .float f => [.code (floats.debug f).toList]
  | .str s => [.literal s.toList]
  | .ident name => [.code name.toList]
  | .array items => .code ['('] :: (itemsPieces floats items ++ [.code [')']])
  | .dict [] => [.code "(:)".toList]
  | .dict pairs => .code ['('] :: (pairsPieces floats pairs ++ [.code [')']])
  | .date year month day =>
      [.code ("datetime(year: " ++ toString year ++ ", month: " ++ toString month ++
        ", day: " ++ toString day ++ ")").toList]

def itemsPieces {F : Type} (floats : Floats F) : List (TypstValue F) → List Piece
  | [] => []
  | item :: rest => item.pieces floats ++ .code [',', ' '] :: itemsPieces floats rest

def pairsPieces {F : Type} (floats : Floats F) : List (String × TypstValue F) → List Piece
  | [] => []
  | (key, value) :: rest =>
      .code (key ++ ": ").toList ::
        (value.pieces floats ++ .code [',', ' '] :: pairsPieces floats rest)

end

theorem nat_plain (n : Nat) : '"' ∉ (toString n).toList := by
  intro quote
  rw [Nat.toString_eq_repr, Nat.toList_repr] at quote
  exact absurd (Nat.isDigit_of_mem_toDigits (by decide) (by decide) quote) (by decide)

theorem int_plain (i : Int) : '"' ∉ (toString i).toList := by
  rw [Int.toString_eq_repr, Int.repr_eq_if]
  split_ifs with sign
  · rw [← Nat.toString_eq_repr]
    exact nat_plain _
  · rw [String.toList_append, List.mem_append, not_or, ← Nat.toString_eq_repr]
    exact ⟨by decide, nat_plain _⟩

/-- Source written from these pieces, none of whose code opens a literal. -/
def Written (text : String) (pieces : List Piece) : Prop :=
  text.toList = write escapeChar pieces ∧ ∀ piece ∈ pieces, piece.Plain

namespace Written

variable {text more : String} {pieces rest : List Piece}

theorem code (text : String) (plain : '"' ∉ text.toList) : Written text [.code text.toList] :=
  ⟨by simp [write, Piece.write], by simpa [Piece.Plain, Piece.codeText] using plain⟩

theorem literal (value : String) : Written (writeString value) [.literal value.toList] :=
  ⟨by simp [write, Piece.write, writeString], by simp [Piece.Plain, Piece.codeText]⟩

theorem empty : Written "" [] := ⟨rfl, by simp⟩

theorem append (left : Written text pieces) (right : Written more rest) :
    Written (text ++ more) (pieces ++ rest) := by
  refine ⟨by rw [String.toList_append, left.1, right.1, write_append], ?_⟩
  exact List.forall_mem_append.2 ⟨left.2, right.2⟩

end Written

theorem date_plain (year : Int) (month day : Nat) :
    '"' ∉ ("datetime(year: " ++ toString year ++ ", month: " ++ toString month ++
      ", day: " ++ toString day ++ ")").toList := by
  simp only [String.toList_append, List.mem_append, not_or]
  exact ⟨⟨⟨⟨⟨⟨by decide, int_plain year⟩, by decide⟩, nat_plain month⟩, by decide⟩,
    nat_plain day⟩, by decide⟩

mutual

theorem TypstValue.toSource_written {F : Type} (floats : Floats F) (value : TypstValue F)
    {text : String} (ok : value.toSource floats = .ok text) :
    Written text (value.pieces floats) := by
  cases value with
  | none => cases ok; exact .code _ (by decide)
  | bool b => cases ok; cases b <;> exact .code _ (by decide)
  | int i => cases ok; exact .code _ (int_plain i)
  | float f =>
      simp only [TypstValue.toSource] at ok
      split_ifs at ok with finite
      cases ok
      exact .code _ (floats.debug_plain f finite)
  | str s => cases ok; exact .literal s
  | ident name =>
      obtain ⟨ident, rfl⟩ := ident_toSource.1 ok
      exact .code _ (isIdent_plain ident)
  | array items =>
      obtain ⟨body, inner, rfl⟩ := array_toSource.1 ok
      have := itemsToSource_written floats items inner
      exact ((Written.code "(" (by decide)).append this).append (.code ")" (by decide))
  | dict pairs =>
      cases pairs with
      | nil => cases ok; exact .code "(:)" (by decide)
      | cons pair rest =>
          obtain ⟨body, inner, rfl⟩ := dict_toSource.1 ok
          have := pairsToSource_written floats (pair :: rest) inner
          exact ((Written.code "(" (by decide)).append this).append (.code ")" (by decide))
  | date year month day =>
      simp only [TypstValue.toSource] at ok
      split_ifs at ok with range
      cases ok
      exact .code _ (date_plain year month day)

theorem itemsToSource_written {F : Type} (floats : Floats F) (items : List (TypstValue F))
    {text : String} (ok : itemsToSource floats items = .ok text) :
    Written text (itemsPieces floats items) := by
  cases items with
  | nil => cases ok; exact .empty
  | cons item rest =>
      obtain ⟨head, tail, first, more, rfl⟩ := itemsToSource_cons.1 ok
      have left := TypstValue.toSource_written floats item first
      have right := itemsToSource_written floats rest more
      simpa [itemsPieces] using (left.append (.code ", " (by decide))).append right

theorem pairsToSource_written {F : Type} (floats : Floats F)
    (pairs : List (String × TypstValue F))
    {text : String} (ok : pairsToSource floats pairs = .ok text) :
    Written text (pairsPieces floats pairs) := by
  cases pairs with
  | nil => cases ok; exact .empty
  | cons pair rest =>
      obtain ⟨key, value⟩ := pair
      obtain ⟨ident, head, tail, first, more, rfl⟩ := pairsToSource_cons.1 ok
      have keyPlain : '"' ∉ (key ++ ": ").toList := by
        rw [String.toList_append, List.mem_append, not_or]
        exact ⟨isIdent_plain ident, by decide⟩
      have left := TypstValue.toSource_written floats value first
      have right := pairsToSource_written floats rest more
      have whole := ((Written.code _ keyPlain).append
        (left.append (.code ", " (by decide)))).append right
      simpa [pairsPieces, String.append_assoc] using whole

end

end TypstMcp.Template
