/-
Template.TypstReader -- reading a Typst literal back

A reader for the literals that values are printed as: numbers with their sign, strings
with their escapes, parenthesised arrays and dictionaries, dates, and words.  It takes
the longest literal at the front of a text and returns what follows it.

Reading what `toSource` printed gives the value back, up to the words that are
constants (`settled`), and leaves what follows: `source_round_trip`.
-/
import TypstMcp.Template.Manifest
import TypstMcp.Theory.Ascii

namespace TypstMcp.Template

open TypstMcp.Theory TypstMcp.Theory.Quoted

set_option autoImplicit false

/-! ## The reader -/

def isIdentChar (c : Char) : Bool := c.isAlphanum || c = '_' || c = '-'

def readWord (text : List Char) : Option (String × List Char) :=
  let name := String.ofList (text.takeWhile isIdentChar)
  if isIdent name then some (name, text.dropWhile isIdentChar) else none

/-- A word and its colon. -/
def readKey (text : List Char) : Option (String × List Char) :=
  match readWord text with
  | some (key, ':' :: rest) => some (key, rest)
  | _ => none

def readNat (text : List Char) : Option (Nat × List Char) :=
  (digitsValue (text.takeWhile Char.isDigit)).map fun n => (n, text.dropWhile Char.isDigit)

def readInt : List Char → Option (Int × List Char)
  | '-' :: text => (readNat text).map fun (n, rest) => (-(n : Int), rest)
  | text => (readNat text).map fun (n, rest) => ((n : Int), rest)

/-- The body of a string literal, up to the quote that closes it. -/
def closeLiteral : List Char → Option (List Char × List Char)
  | [] => none
  | '"' :: rest => some ([], rest)
  | '\\' :: c :: rest => (closeLiteral rest).map fun (body, rest) => ('\\' :: c :: body, rest)
  | c :: rest => (closeLiteral rest).map fun (body, rest) => (c :: body, rest)

def readString (text : List Char) : Option (String × List Char) := do
  let (body, rest) ← closeLiteral text
  let value ← readLiteral body
  return (String.ofList value, rest)

/-- What follows this text. -/
def expect (start : String) (text : List Char) : Option (List Char) :=
  if start.toList.isPrefixOf text then some (text.drop start.toList.length) else none

/-- The bare words that are constants. -/
def ofWord {F : Type} (name : String) : TypstValue F :=
  if name = "none" then .none
  else if name = "true" then .bool true
  else if name = "false" then .bool false
  else .ident name

section Reader

variable {F : Type}

/-- The arguments of `datetime`. -/
def readDate (text : List Char) : Option (TypstValue F × List Char) := do
  let text ← expect "year: " text
  let (year, text) ← readInt text
  let text ← expect ", month: " text
  let (month, text) ← readNat text
  let text ← expect ", day: " text
  let (day, text) ← readNat text
  let text ← expect ")" text
  return (.date year month day, text)

/-- A bare word, or a date; no other function is called. -/
def readName (text : List Char) : Option (TypstValue F × List Char) := do
  let (name, rest) ← readWord text
  match rest with
  | '(' :: arguments => if name = "datetime" then readDate arguments else none
  | _ => return (ofWord name, rest)

def skipSpaces (text : List Char) : List Char := text.dropWhile (· = ' ')

mutual

/-- The literal at the front of a text. -/
def readValue : Nat → List Char → Option (TypstValue F × List Char)
  | 0, _ => none
  | _, [] => none
  | fuel + 1, c :: rest =>
      if c = '"' then (readString rest).map fun (value, rest) => (.str value, rest)
      else if c = '(' then readParen fuel rest
      else if c = '-' || c.isDigit then (readInt (c :: rest)).map fun (i, rest) => (.int i, rest)
      else readName (c :: rest)

/-- After an opening parenthesis: a colon or a key makes it a dictionary, a comma an array; `(x)`
is `x`. -/
def readParen : Nat → List Char → Option (TypstValue F × List Char)
  | 0, _ => none
  | _, ':' :: ')' :: rest => some (.dict [], rest)
  | _, ')' :: rest => some (.array [], rest)
  | fuel + 1, text =>
      if (readKey text).isSome then
        (readPairs fuel text).map fun (pairs, rest) => (.dict pairs, rest)
      else
        match readValue fuel text with
        | some (value, ')' :: rest) => some (value, rest)
        | some (first, ',' :: rest) =>
            (readItems fuel (skipSpaces rest)).map fun (items, rest) =>
              (.array (first :: items), rest)
        | _ => none

/-- The items left of an array. -/
def readItems : Nat → List Char → Option (List (TypstValue F) × List Char)
  | 0, _ => none
  | _, ')' :: rest => some ([], rest)
  | fuel + 1, text =>
      match readValue fuel text with
      | some (item, ')' :: rest) => some ([item], rest)
      | some (item, ',' :: rest) =>
          (readItems fuel (skipSpaces rest)).map fun (items, rest) => (item :: items, rest)
      | _ => none

/-- The pairs left of a dictionary. -/
def readPairs : Nat → List Char → Option (List (String × TypstValue F) × List Char)
  | 0, _ => none
  | _, ')' :: rest => some ([], rest)
  | fuel + 1, text =>
      match readKey text with
      | none => none
      | some (key, rest) =>
          match readValue fuel (skipSpaces rest) with
          | some (value, ')' :: rest) => some ([(key, value)], rest)
          | some (value, ',' :: rest) =>
              (readPairs fuel (skipSpaces rest)).map fun (pairs, rest) => ((key, value) :: pairs, rest)
          | _ => none

end

/-- A literal is no deeper than its text is long. -/
def readTypst (text : List Char) : Option (TypstValue F × List Char) :=
  readValue (text.length + 1) text

end Reader

/-! ## Words and numbers -/

/-- What may follow a literal: a comma, a closing parenthesis, or a line break. -/
def Stops (following : List Char) : Prop :=
  ∃ c rest, following = c :: rest ∧ (c = ',' ∨ c = ')' ∨ c = '\n')

theorem stops_comma (rest : List Char) : Stops (',' :: rest) := ⟨',', rest, rfl, .inl rfl⟩

/-- The front of a text that a reader of such characters takes. -/
theorem span_of {p : Char → Bool} {front rest : List Char} (each : ∀ c ∈ front, p c = true)
    (stop : ∀ c, rest.head? = some c → p c = false) :
    (front ++ rest).takeWhile p = front ∧ (front ++ rest).dropWhile p = rest := by
  rw [List.takeWhile_append_of_pos each, List.dropWhile_append_of_pos each]
  cases rest with
  | nil => simp
  | cons c more =>
      have ends := stop c rfl
      simp [ends]

theorem isIdent_chars {name : String} (ident : isIdent name = true) :
    ∀ c ∈ name.toList, isIdentChar c = true := by
  intro c inside
  unfold isIdent at ident
  split at ident
  · cases ident
  · rw [Bool.and_eq_true] at ident
    exact List.all_eq_true.1 ident.2 c inside

theorem readWord_word {name : String} (ident : isIdent name = true) {rest : List Char}
    (stop : ∀ c, rest.head? = some c → isIdentChar c = false) :
    readWord (name.toList ++ rest) = some (name, rest) := by
  obtain ⟨taken, left⟩ := span_of (isIdent_chars ident) stop
  rw [readWord, taken, left, String.ofList_toList, if_pos ident]

theorem Stops.word {following : List Char} (stops : Stops following) :
    ∀ c, following.head? = some c → isIdentChar c = false := by
  obtain ⟨c, rest, rfl, ends⟩ := stops
  intro c' same
  obtain rfl : c = c' := Option.some.inj same
  rcases ends with rfl | rfl | rfl <;> decide

theorem readNat_digits (n : Nat) {rest : List Char}
    (stop : ∀ c, rest.head? = some c → c.isDigit = false) :
    readNat ((toString n).toList ++ rest) = some (n, rest) := by
  have each : ∀ c ∈ Nat.toDigits 10 n, c.isDigit = true := fun c inside =>
    Nat.isDigit_of_mem_toDigits (by decide) (by decide) inside
  obtain ⟨taken, left⟩ := span_of each stop
  have all : (Nat.toDigits 10 n).all Char.isDigit = true := List.all_eq_true.2 each
  rw [Ascii.toString_toList, readNat, taken, left, digitsValue, if_pos ⟨Nat.toDigits_ne_nil, all⟩,
    Nat.ofDigitChars_ten_toDigits]
  rfl

theorem readInt_digits (i : Int) {rest : List Char}
    (stop : ∀ c, rest.head? = some c → c.isDigit = false) :
    readInt ((toString i).toList ++ rest) = some (i, rest) := by
  rw [Int.toString_eq_repr, Int.repr_eq_if]
  split_ifs with sign
  · rw [← Nat.toString_eq_repr]
    have read := readNat_digits i.toNat stop
    have unsigned : ∀ text, (toString i.toNat).toList ++ rest ≠ '-' :: text := by
      intro text same
      obtain ⟨d, more, cut⟩ := List.exists_cons_of_ne_nil
        (Nat.toDigits_ne_nil (n := i.toNat) (b := 10))
      have isDigit : d.isDigit = true :=
        Nat.isDigit_of_mem_toDigits (by decide) (by decide) (cut ▸ List.mem_cons_self)
      rw [Ascii.toString_toList, cut] at same
      obtain rfl : d = '-' := (List.cons.inj same).1
      exact absurd isDigit (by decide)
    rw [readInt.eq_2 _ unsigned, read]
    simp [Int.toNat_of_nonneg sign]
  · rw [String.toList_append, ← Nat.toString_eq_repr]
    show (readNat ((toString (-i).toNat).toList ++ rest)).map _ = _
    rw [readNat_digits _ stop]
    simp
    omega

theorem Stops.digit {following : List Char} (stops : Stops following) :
    ∀ c, following.head? = some c → c.isDigit = false := by
  obtain ⟨c, rest, rfl, ends⟩ := stops
  intro c' same
  obtain rfl : c = c' := Option.some.inj same
  rcases ends with rfl | rfl | rfl <;> decide

theorem expect_append (start : String) (rest : List Char) :
    expect start (start.toList ++ rest) = some rest := by
  rw [expect, if_pos (by simp), List.drop_left]

/-! ## Strings -/

theorem closeLiteral_body {body : List Char} (is : Body body) (rest : List Char) :
    closeLiteral (body ++ '"' :: rest) = some (body, rest) := by
  induction is with
  | nil => rfl
  | @plain c more quote backslash _ ih =>
      rw [List.cons_append, closeLiteral, ih]
      · rfl
      · exact quote
      · exact fun c' rest' same => absurd same backslash
  | pair c _ ih =>
      rw [List.cons_append, List.cons_append, closeLiteral, ih]
      rfl

theorem readString_written (value : String) (rest : List Char) :
    ∃ text, (writeString value).toList ++ rest = '"' :: text ∧
      readString text = some (value, rest) := by
  refine ⟨value.toList.flatMap escapeChar ++ '"' :: rest, ?_, ?_⟩
  · simp [writeString, writeLiteral]
  · rw [readString, closeLiteral_body (Body.flatMap escapeChar_body value.toList)]
    simp [readLiteral_escaped]

/-! ## What is read back -/

section Values

variable {F : Type}

mutual

/-- The value holds no floating-point number. -/
def TypstValue.floatless : TypstValue F → Bool
  | .float _ => false
  | .array items => floatlessItems items
  | .dict pairs => floatlessPairs pairs
  | _ => true

def floatlessItems : List (TypstValue F) → Bool
  | [] => true
  | item :: rest => item.floatless && floatlessItems rest

def floatlessPairs : List (String × TypstValue F) → Bool
  | [] => true
  | (_, value) :: rest => value.floatless && floatlessPairs rest

end

mutual

/-- The value with the words that are constants read as these. -/
def TypstValue.settled : TypstValue F → TypstValue F
  | .ident name => ofWord name
  | .array items => .array (settledItems items)
  | .dict pairs => .dict (settledPairs pairs)
  | value => value

def settledItems : List (TypstValue F) → List (TypstValue F)
  | [] => []
  | item :: rest => item.settled :: settledItems rest

def settledPairs : List (String × TypstValue F) → List (String × TypstValue F)
  | [] => []
  | (key, value) :: rest => (key, value.settled) :: settledPairs rest

end

theorem isIdent_head {name : String} (ident : isIdent name = true) :
    ∃ c more, name.toList = c :: more ∧ (c.isAlpha = true ∨ c = '_') := by
  unfold isIdent at ident
  split at ident
  · cases ident
  · rename_i c more text
    rw [Bool.and_eq_true] at ident
    exact ⟨c, more, text, by simpa [isAsciiAlphabetic] using ident.1⟩

/-- A letter begins no other literal. -/
theorem letter_ne {c : Char} (letter : c.isAlpha = true ∨ c = '_') :
    c ≠ '"' ∧ c ≠ '(' ∧ c ≠ '-' ∧ c.isDigit = false ∧ c ≠ ' ' ∧ c ≠ ')' ∧ c ≠ ':' := by
  rcases letter with letter | rfl
  · have range := Ascii.isAlpha_iff.1 letter
    have apart : ∀ d : Char, d.toNat < 65 → c ≠ d := by
      rintro d small rfl
      omega
    have digit : c.isDigit = false := by
      rw [← Bool.not_eq_true, Ascii.isDigit_iff]
      omega
    exact ⟨apart _ (by decide), apart _ (by decide), apart _ (by decide), digit,
      apart _ (by decide), apart _ (by decide), apart _ (by decide)⟩
  · decide

theorem readValue_name {name : String} (ident : isIdent name = true) (fuel : Nat) (rest : List Char) :
    (readValue (fuel + 1) (name.toList ++ rest) : Option (TypstValue F × List Char)) =
      readName (name.toList ++ rest) := by
  obtain ⟨c, more, text, letter⟩ := isIdent_head ident
  obtain ⟨quote, paren, minus, digit, -⟩ := letter_ne letter
  rw [text, List.cons_append, readValue, if_neg quote, if_neg paren, if_neg (by simp [minus, digit])]

theorem readValue_word {name : String} (ident : isIdent name = true) (fuel : Nat) {rest : List Char}
    (stops : Stops rest) :
    (readValue (fuel + 1) (name.toList ++ rest) : Option (TypstValue F × List Char)) =
      some (ofWord name, rest) := by
  rw [readValue_name ident, readName, readWord_word ident stops.word]
  obtain ⟨c, tail, rfl, ends⟩ := stops
  rcases ends with rfl | rfl | rfl <;> rfl

theorem readDate_printed (year : Int) (month day : Nat) (rest : List Char) :
    (readDate (("year: " ++ toString year ++ ", month: " ++ toString month ++ ", day: " ++
      toString day ++ ")").toList ++ rest) : Option (TypstValue F × List Char)) =
      some (.date year month day, rest) := by
  have comma : ∀ text c, (", month: ".toList ++ text).head? = some c → c.isDigit = false := by
    intro text c first
    obtain rfl : ',' = c := Option.some.inj first
    decide
  have comma' : ∀ text c, (", day: ".toList ++ text).head? = some c → c.isDigit = false := by
    intro text c first
    obtain rfl : ',' = c := Option.some.inj first
    decide
  have close : ∀ text c, (")".toList ++ text).head? = some c → c.isDigit = false := by
    intro text c first
    obtain rfl : ')' = c := Option.some.inj first
    decide
  simp only [String.toList_append, List.append_assoc]
  simp only [readDate, expect_append, readInt_digits year (comma _), readNat_digits month (comma' _),
    readNat_digits day (close _), Option.bind_eq_bind, Option.bind_some, Option.pure_def]

theorem readValue_date (year : Int) (month day : Nat) (fuel : Nat) (rest : List Char) :
    (readValue (fuel + 1) (("datetime(year: " ++ toString year ++ ", month: " ++ toString month ++
      ", day: " ++ toString day ++ ")").toList ++ rest) : Option (TypstValue F × List Char)) =
      some (.date year month day, rest) := by
  have cut : ("datetime(year: " ++ toString year ++ ", month: " ++ toString month ++ ", day: " ++
      toString day ++ ")").toList ++ rest = "datetime".toList ++ '(' ::
        (("year: " ++ toString year ++ ", month: " ++ toString month ++ ", day: " ++
          toString day ++ ")").toList ++ rest) := by
    simp [String.toList_append]
  have ident : isIdent "datetime" = true := by decide
  have stop : ∀ (text : List Char) c, ('(' :: text).head? = some c → isIdentChar c = false := by
    intro text c first
    obtain rfl : '(' = c := Option.some.inj first
    decide
  rw [cut, readValue_name ident, readName, readWord_word ident (stop _)]
  simp only [Option.bind_eq_bind, Option.bind_some, if_true]
  exact readDate_printed year month day rest

theorem int_chars (i : Int) : ∀ c ∈ (toString i).toList, c = '-' ∨ c.isDigit = true := by
  intro c inside
  rw [Int.toString_eq_repr, Int.repr_eq_if] at inside
  split_ifs at inside with sign
  · rw [← Nat.toString_eq_repr] at inside
    exact .inr (Ascii.isDigit_of_mem_toString inside)
  · rw [String.toList_append, List.mem_append, ← Nat.toString_eq_repr] at inside
    rcases inside with minus | inside
    · exact .inl (List.mem_singleton.1 minus)
    · exact .inr (Ascii.isDigit_of_mem_toString inside)

theorem int_head (i : Int) :
    ∃ c more, (toString i).toList = c :: more ∧ (c = '-' ∨ c.isDigit = true) := by
  have some : (toString i).toList ≠ [] := by
    rw [Int.toString_eq_repr, Int.repr_eq_if]
    split_ifs with sign
    · rw [Nat.toList_repr]
      exact Nat.toDigits_ne_nil
    · simp
  obtain ⟨c, more, text⟩ := List.exists_cons_of_ne_nil some
  exact ⟨c, more, text, int_chars i c (text ▸ List.mem_cons_self)⟩

/-- Neither does a digit or a sign. -/
theorem number_ne {c : Char} (number : c = '-' ∨ c.isDigit = true) :
    c ≠ '"' ∧ c ≠ '(' ∧ isIdentChar c = true ∧ c ≠ ' ' ∧ c ≠ ')' ∧ c ≠ ':' := by
  rcases number with rfl | digit
  · decide
  · have range := Ascii.isDigit_iff.1 digit
    have apart : ∀ d : Char, d.toNat < 48 ∨ 57 < d.toNat → c ≠ d := by
      rintro d outside rfl
      omega
    have ident : isIdentChar c = true := by
      simp [isIdentChar, Ascii.isAlphanum_iff.2 (.inr digit)]
    exact ⟨apart _ (by decide), apart _ (by decide), ident, apart _ (by decide),
      apart _ (by decide), apart _ (by decide)⟩

theorem readValue_int (i : Int) (fuel : Nat) {rest : List Char} (stops : Stops rest) :
    (readValue (fuel + 1) ((toString i).toList ++ rest) : Option (TypstValue F × List Char)) =
      some (.int i, rest) := by
  obtain ⟨c, more, text, number⟩ := int_head i
  obtain ⟨quote, paren, -⟩ := number_ne number
  have read := readInt_digits i stops.digit
  rw [text, List.cons_append] at read ⊢
  rw [readValue, if_neg quote, if_neg paren, if_pos (by simpa using number), read]
  rfl

theorem readValue_str (value : String) (fuel : Nat) (rest : List Char) :
    (readValue (fuel + 1) ((writeString value).toList ++ rest) :
      Option (TypstValue F × List Char)) = some (.str value, rest) := by
  obtain ⟨text, written, read⟩ := readString_written value rest
  rw [written, readValue, if_pos rfl, read]
  rfl

/-! ## The front of what is printed -/

/-- How a printed value begins. -/
theorem source_head (floats : Floats F) {value : TypstValue F} {source : String}
    (floatless : value.floatless = true) (ok : value.toSource floats = .ok source) :
    ∃ c more, source.toList = c :: more ∧ c ≠ ' ' ∧ c ≠ ')' ∧ c ≠ ':' := by
  cases value with
  | none => cases ok; exact ⟨_, _, rfl, by decide⟩
  | bool b => cases ok; cases b <;> exact ⟨_, _, rfl, by decide⟩
  | int i =>
      cases ok
      obtain ⟨c, more, text, number⟩ := int_head i
      exact ⟨c, more, text, (number_ne number).2.2.2⟩
  | float f => cases floatless
  | str s => cases ok; exact ⟨'"', _, by simp [writeString, writeLiteral]; rfl, by decide⟩
  | ident name =>
      obtain ⟨ident, rfl⟩ := ident_toSource.1 ok
      obtain ⟨c, more, text, letter⟩ := isIdent_head ident
      exact ⟨c, more, text, (letter_ne letter).2.2.2.2⟩
  | array items =>
      obtain ⟨body, -, rfl⟩ := array_toSource.1 ok
      exact ⟨'(', _, by simp [String.toList_append]; rfl, by decide⟩
  | dict pairs =>
      cases pairs with
      | nil => cases ok; exact ⟨_, _, rfl, by decide⟩
      | cons pair rest =>
          obtain ⟨body, -, rfl⟩ := dict_toSource.1 ok
          exact ⟨'(', _, by simp [String.toList_append]; rfl, by decide⟩
  | date year month day =>
      simp only [TypstValue.toSource] at ok
      split_ifs at ok with range
      cases ok
      exact ⟨'d', _, by simp [String.toList_append]; rfl, by decide⟩

/-- No key is read where such characters end before a colon. -/
theorem readKey_none {front rest : List Char} {c : Char} (each : ∀ d ∈ front, isIdentChar d = true)
    (stop : isIdentChar c = false) (ne : c ≠ ':') : readKey (front ++ c :: rest) = none := by
  have ends : ∀ d, (c :: rest).head? = some d → isIdentChar d = false := by
    intro d same
    obtain rfl : c = d := Option.some.inj same
    exact stop
  obtain ⟨taken, left⟩ := span_of each ends
  rw [readKey, readWord, taken, left]
  by_cases ident : isIdent (String.ofList front) = true
  · rw [if_pos ident]
    split
    · rename_i same
      simp only [Option.some.injEq, Prod.mk.injEq, List.cons.injEq] at same
      exact absurd same.2.1 ne
    · rfl
  · rw [if_neg ident]

/-- **A printed value is no key.** -/
theorem readKey_source (floats : Floats F) {value : TypstValue F} {source : String}
    (floatless : value.floatless = true) (ok : value.toSource floats = .ok source)
    (rest : List Char) : readKey (source.toList ++ ',' :: rest) = none := by
  have word : ∀ name, isIdent name = true → readKey (name.toList ++ ',' :: rest) = none :=
    fun name ident => readKey_none (isIdent_chars ident) (by decide) (by decide)
  have opened : ∀ {c : Char} {text more : List Char}, text = c :: more → isIdentChar c = false →
      c ≠ ':' → readKey (text ++ ',' :: rest) = none := by
    intro c text more same stop ne
    rw [same, List.cons_append]
    exact @readKey_none [] (more ++ ',' :: rest) c (by simp) stop ne
  cases value with
  | none => cases ok; exact word "none" (by decide)
  | bool b => cases ok; cases b <;> exact word _ (by decide)
  | int i =>
      cases ok
      exact readKey_none (fun c inside => (number_ne (int_chars i c inside)).2.2.1) (by decide)
        (by decide)
  | float f => cases floatless
  | str s =>
      cases ok
      exact opened (c := '"') (by simp [writeString, writeLiteral]; rfl) (by decide) (by decide)
  | ident name =>
      obtain ⟨ident, rfl⟩ := ident_toSource.1 ok
      exact word _ ident
  | array items =>
      obtain ⟨body, -, rfl⟩ := array_toSource.1 ok
      exact opened (c := '(') (by simp [String.toList_append]; rfl) (by decide) (by decide)
  | dict pairs =>
      cases pairs with
      | nil =>
          cases ok
          exact opened (c := '(') rfl (by decide) (by decide)
      | cons pair more =>
          obtain ⟨body, -, rfl⟩ := dict_toSource.1 ok
          exact opened (c := '(') (by simp [String.toList_append]; rfl) (by decide) (by decide)
  | date year month day =>
      simp only [TypstValue.toSource] at ok
      split_ifs at ok with range
      cases ok
      have cut : ("datetime(year: " ++ toString year ++ ", month: " ++ toString month ++
          ", day: " ++ toString day ++ ")").toList ++ ',' :: rest = "datetime".toList ++ '(' ::
            (("year: " ++ toString year ++ ", month: " ++ toString month ++ ", day: " ++
              toString day ++ ")").toList ++ ',' :: rest) := by
        simp [String.toList_append]
      rw [cut]
      exact readKey_none (List.all_eq_true.1 (by decide)) (by decide) (by decide)

/-! ## Reading what was printed -/

theorem skipSpaces_of {text : List Char} {c : Char} {more : List Char} (start : text = c :: more)
    (ne : c ≠ ' ') : skipSpaces (' ' :: text) = text := by
  subst start
  simp [skipSpaces, ne]

theorem isIdent_key {key : String} (ident : isIdent key = true) (rest : List Char) :
    readKey (key.toList ++ ':' :: rest) = some (key, rest) := by
  have stop : ∀ c, (':' :: rest).head? = some c → isIdentChar c = false := by
    intro c first
    obtain rfl : ':' = c := Option.some.inj first
    decide
  rw [readKey, readWord_word ident stop]
  rfl

theorem readParen_pairs {text more : List Char} {c : Char} (start : text = c :: more) (close : c ≠ ')')
    (colon : c ≠ ':') (key : (readKey text).isSome = true) (fuel : Nat) :
    (readParen (fuel + 1) text : Option (TypstValue F × List Char)) =
      (readPairs fuel text).map fun (pairs, rest) => (.dict pairs, rest) := by
  subst start
  rw [readParen, if_pos key]
  · exact fun rest same => colon (List.cons.inj same).1
  · exact fun rest same => close (List.cons.inj same).1

theorem readParen_items {text more rest : List Char} {c : Char} {first : TypstValue F}
    (start : text = c :: more) (close : c ≠ ')') (colon : c ≠ ':') (key : readKey text = none)
    {fuel : Nat} (read : readValue fuel text = some (first, ',' :: rest)) :
    readParen (fuel + 1) text = (readItems fuel (skipSpaces rest)).map fun (items, rest) =>
      (.array (first :: items), rest) := by
  subst start
  rw [readParen, if_neg (by simp [key]), read]
  · rfl
  · exact fun rest same => colon (List.cons.inj same).1
  · exact fun rest same => close (List.cons.inj same).1

theorem readItems_item {text more rest : List Char} {c : Char} {item : TypstValue F}
    (start : text = c :: more) (close : c ≠ ')') {fuel : Nat}
    (read : readValue fuel text = some (item, ',' :: rest)) :
    readItems (fuel + 1) text = (readItems fuel (skipSpaces rest)).map fun (items, rest) =>
      (item :: items, rest) := by
  subst start
  rw [readItems, read]
  · rfl
  · exact fun rest same => close (List.cons.inj same).1

theorem readPairs_pair {text more rest rest' : List Char} {c : Char} {key : String}
    {value : TypstValue F} (start : text = c :: more) (close : c ≠ ')')
    (named : readKey text = some (key, rest)) {fuel : Nat}
    (read : readValue fuel (skipSpaces rest) = some (value, ',' :: rest')) :
    readPairs (fuel + 1) text = (readPairs fuel (skipSpaces rest')).map fun (pairs, rest) =>
      ((key, value) :: pairs, rest) := by
  subst start
  rw [readPairs, named]
  · simp only [read]
  · exact fun rest same => close (List.cons.inj same).1

theorem parens_toList (body : String) (rest : List Char) :
    ("(" ++ body ++ ")").toList ++ rest = '(' :: (body.toList ++ ')' :: rest) := by
  simp [String.toList_append]

theorem parens_length (body : String) :
    ("(" ++ body ++ ")").toList.length = body.toList.length + 2 := by
  simp [String.toList_append]

theorem item_toList (head tail : String) (rest : List Char) :
    (head ++ ", " ++ tail).toList ++ rest = head.toList ++ ',' :: ' ' :: (tail.toList ++ rest) := by
  simp [String.toList_append]

theorem item_length (head tail : String) :
    (head ++ ", " ++ tail).toList.length = head.toList.length + 2 + tail.toList.length := by
  simp [String.toList_append]
  omega

theorem pair_toList (key head tail : String) (rest : List Char) :
    (key ++ ": " ++ head ++ ", " ++ tail).toList ++ rest =
      key.toList ++ ':' :: ' ' :: (head.toList ++ ',' :: ' ' :: (tail.toList ++ rest)) := by
  simp [String.toList_append]

theorem pair_length (key head tail : String) :
    (key ++ ": " ++ head ++ ", " ++ tail).toList.length =
      key.toList.length + 2 + head.toList.length + 2 + tail.toList.length := by
  simp [String.toList_append]
  omega

/-- Behind a comma comes no second space. -/
theorem items_head (floats : Floats F) {items : List (TypstValue F)} {body : String}
    (floatless : floatlessItems items = true) (ok : itemsToSource floats items = .ok body)
    (rest : List Char) : skipSpaces (' ' :: (body.toList ++ ')' :: rest)) = body.toList ++ ')' :: rest := by
  cases items with
  | nil => cases ok; rfl
  | cons item more =>
      obtain ⟨head, tail, first, -, rfl⟩ := itemsToSource_cons.1 ok
      simp only [floatlessItems, Bool.and_eq_true] at floatless
      obtain ⟨c, text, start, ne, -⟩ := source_head floats floatless.1 first
      have starts : (head ++ ", " ++ tail).toList ++ ')' :: rest =
          c :: (text ++ ',' :: ' ' :: (tail.toList ++ ')' :: rest)) := by
        rw [item_toList, start, List.cons_append]
      exact skipSpaces_of starts ne

theorem pairs_head (floats : Floats F) {pairs : List (String × TypstValue F)} {body : String}
    (ok : pairsToSource floats pairs = .ok body) (rest : List Char) :
    skipSpaces (' ' :: (body.toList ++ ')' :: rest)) = body.toList ++ ')' :: rest := by
  cases pairs with
  | nil => cases ok; rfl
  | cons pair more =>
      obtain ⟨key, value⟩ := pair
      obtain ⟨ident, head, tail, -, -, rfl⟩ := pairsToSource_cons.1 ok
      obtain ⟨c, text, start, letter⟩ := isIdent_head ident
      have starts : (key ++ ": " ++ head ++ ", " ++ tail).toList ++ ')' :: rest =
          c :: (text ++ ':' :: ' ' :: (head.toList ++ ',' :: ' ' :: (tail.toList ++ ')' :: rest))) := by
        rw [pair_toList, start, List.cons_append]
      exact skipSpaces_of starts (letter_ne letter).2.2.2.2.1

/-- A dictionary begins with a key. -/
theorem pairs_start (floats : Floats F) {pair : String × TypstValue F}
    {more : List (String × TypstValue F)} {body : String}
    (ok : pairsToSource floats (pair :: more) = .ok body) (rest : List Char) :
    ∃ c text, body.toList ++ ')' :: rest = c :: text ∧ c ≠ ')' ∧ c ≠ ':' ∧
      (readKey (body.toList ++ ')' :: rest)).isSome = true := by
  obtain ⟨key, value⟩ := pair
  obtain ⟨ident, head, tail, -, -, rfl⟩ := pairsToSource_cons.1 ok
  obtain ⟨c, text, start, letter⟩ := isIdent_head ident
  obtain ⟨-, -, -, -, -, close, colon⟩ := letter_ne letter
  have cut := pair_toList key head tail (')' :: rest)
  refine ⟨c, text ++ ':' :: ' ' :: (head.toList ++ ',' :: ' ' :: (tail.toList ++ ')' :: rest)), ?_,
    close, colon, ?_⟩
  · rw [cut, start, List.cons_append]
  · rw [cut, isIdent_key ident]
    rfl

mutual

/-- **A printed value reads back**, whatever stops it. -/
theorem TypstValue.read_source (floats : Floats F) (value : TypstValue F) {source : String}
    (floatless : value.floatless = true) (ok : value.toSource floats = .ok source) {fuel : Nat}
    (enough : source.toList.length < fuel) {rest : List Char} (stops : Stops rest) :
    readValue fuel (source.toList ++ rest) = some (value.settled, rest) := by
  obtain ⟨fuel, rfl⟩ : ∃ less, fuel = less + 1 := ⟨fuel - 1, by omega⟩
  cases value with
  | none => cases ok; exact readValue_word (by decide) fuel stops
  | bool b => cases ok; cases b <;> exact readValue_word (by decide) fuel stops
  | int i => cases ok; exact readValue_int i fuel stops
  | float f => cases floatless
  | str s => cases ok; exact readValue_str s fuel rest
  | ident name =>
      obtain ⟨ident, rfl⟩ := ident_toSource.1 ok
      exact readValue_word ident fuel stops
  | array items =>
      obtain ⟨body, inner, rfl⟩ := array_toSource.1 ok
      simp only [TypstValue.floatless] at floatless
      rw [parens_length] at enough
      obtain ⟨fuel, rfl⟩ : ∃ less, fuel = less + 1 := ⟨fuel - 1, by omega⟩
      rw [parens_toList, readValue, if_neg (by decide), if_pos rfl]
      cases items with
      | nil =>
          cases inner
          rfl
      | cons item more =>
          obtain ⟨head, tail, first, later, rfl⟩ := itemsToSource_cons.1 inner
          simp only [floatlessItems, Bool.and_eq_true] at floatless
          obtain ⟨c, text, start, -, close, colon⟩ := source_head floats floatless.1 first
          rw [item_length] at enough
          have shorter : head.toList.length < fuel := by omega
          have read := TypstValue.read_source floats item floatless.1 first shorter
            (stops_comma (' ' :: (tail.toList ++ ')' :: rest)))
          have starts : head.toList ++ ',' :: ' ' :: (tail.toList ++ ')' :: rest) =
              c :: (text ++ ',' :: ' ' :: (tail.toList ++ ')' :: rest)) := by
            rw [start, List.cons_append]
          rw [item_toList, readParen_items starts close colon (readKey_source floats floatless.1 first _) read,
            items_head floats floatless.2 later,
            read_items floats more floatless.2 later (by omega) rest]
          rfl
  | dict pairs =>
      cases pairs with
      | nil =>
          cases ok
          obtain ⟨fuel, rfl⟩ : ∃ less, fuel = less + 1 := ⟨fuel - 1, by
            have : "(:)".toList.length = 3 := rfl
            omega⟩
          rfl
      | cons pair more =>
          obtain ⟨body, inner, rfl⟩ := dict_toSource.1 ok
          simp only [TypstValue.floatless] at floatless
          rw [parens_length] at enough
          obtain ⟨fuel, rfl⟩ : ∃ less, fuel = less + 1 := ⟨fuel - 1, by omega⟩
          have shorter : body.toList.length < fuel := by omega
          have read := read_pairs floats (pair :: more) floatless inner shorter rest
          obtain ⟨c, text, start, close, colon, named⟩ := pairs_start floats inner rest
          rw [parens_toList, readValue, if_neg (by decide), if_pos rfl,
            readParen_pairs start close colon named, read]
          rfl
  | date year month day =>
      simp only [TypstValue.toSource] at ok
      split_ifs at ok with range
      cases ok
      exact readValue_date year month day fuel rest

theorem read_items (floats : Floats F) (items : List (TypstValue F)) {body : String}
    (floatless : floatlessItems items = true) (ok : itemsToSource floats items = .ok body) {fuel : Nat}
    (enough : body.toList.length < fuel) (rest : List Char) :
    readItems fuel (body.toList ++ ')' :: rest) = some (settledItems items, rest) := by
  obtain ⟨fuel, rfl⟩ : ∃ less, fuel = less + 1 := ⟨fuel - 1, by omega⟩
  cases items with
  | nil => cases ok; rfl
  | cons item more =>
      obtain ⟨head, tail, first, later, rfl⟩ := itemsToSource_cons.1 ok
      simp only [floatlessItems, Bool.and_eq_true] at floatless
      obtain ⟨c, text, start, -, close, -⟩ := source_head floats floatless.1 first
      rw [item_length] at enough
      have shorter : head.toList.length < fuel := by omega
      have read := TypstValue.read_source floats item floatless.1 first shorter
        (stops_comma (' ' :: (tail.toList ++ ')' :: rest)))
      have starts : head.toList ++ ',' :: ' ' :: (tail.toList ++ ')' :: rest) =
          c :: (text ++ ',' :: ' ' :: (tail.toList ++ ')' :: rest)) := by
        rw [start, List.cons_append]
      rw [item_toList, readItems_item starts close read, items_head floats floatless.2 later,
        read_items floats more floatless.2 later (by omega) rest]
      rfl

theorem read_pairs (floats : Floats F) (pairs : List (String × TypstValue F)) {body : String}
    (floatless : floatlessPairs pairs = true) (ok : pairsToSource floats pairs = .ok body) {fuel : Nat}
    (enough : body.toList.length < fuel) (rest : List Char) :
    readPairs fuel (body.toList ++ ')' :: rest) = some (settledPairs pairs, rest) := by
  obtain ⟨fuel, rfl⟩ : ∃ less, fuel = less + 1 := ⟨fuel - 1, by omega⟩
  cases pairs with
  | nil => cases ok; rfl
  | cons pair more =>
      obtain ⟨key, value⟩ := pair
      obtain ⟨ident, head, tail, first, later, rfl⟩ := pairsToSource_cons.1 ok
      simp only [floatlessPairs, Bool.and_eq_true] at floatless
      obtain ⟨c, text, start, letter⟩ := isIdent_head ident
      obtain ⟨d, text', start', space, -⟩ := source_head floats floatless.1 first
      have close : c ≠ ')' := (letter_ne letter).2.2.2.2.2.1
      rw [pair_length] at enough
      have shorter : head.toList.length < fuel := by omega
      have read := TypstValue.read_source floats value floatless.1 first shorter
        (stops_comma (' ' :: (tail.toList ++ ')' :: rest)))
      have spaced : skipSpaces (' ' :: (head.toList ++ ',' :: ' ' :: (tail.toList ++ ')' :: rest))) =
          head.toList ++ ',' :: ' ' :: (tail.toList ++ ')' :: rest) := by
        have starts : head.toList ++ ',' :: ' ' :: (tail.toList ++ ')' :: rest) =
            d :: (text' ++ ',' :: ' ' :: (tail.toList ++ ')' :: rest)) := by
          rw [start', List.cons_append]
        exact skipSpaces_of starts space
      have starts : key.toList ++ ':' :: ' ' ::
            (head.toList ++ ',' :: ' ' :: (tail.toList ++ ')' :: rest)) =
          c :: (text ++ ':' :: ' ' :: (head.toList ++ ',' :: ' ' :: (tail.toList ++ ')' :: rest))) := by
        rw [start, List.cons_append]
      rw [← spaced] at read
      rw [pair_toList, readPairs_pair starts close (isIdent_key ident _) read, pairs_head floats later,
        read_pairs floats more floatless.2 later (by omega) rest]
      rfl

end

theorem readTypst_source (floats : Floats F) (value : TypstValue F) {source : String}
    (floatless : value.floatless = true) (printed : value.toSource floats = .ok source)
    {following : List Char} (stops : Stops following) :
    readTypst (source.toList ++ following) = some (value.settled, following) := by
  have enough : source.toList.length < (source.toList ++ following).length + 1 := by
    simp only [List.length_append]
    omega
  exact TypstValue.read_source floats value floatless printed enough stops

/-- **Printing loses nothing.**  A printed value reads back as itself, its constants' names apart,
and leaves what followed it; so two values that print alike are alike. -/
theorem source_round_trip (floats : Floats F) (value : TypstValue F) {source : String}
    (floatless : value.floatless = true) (printed : value.toSource floats = .ok source) :
    (∀ following, Stops following →
      readTypst (source.toList ++ following) = some (value.settled, following)) ∧
    ∀ other : TypstValue F, other.floatless = true → other.toSource floats = .ok source →
      other.settled = value.settled := by
  refine ⟨fun _ => readTypst_source floats value floatless printed, ?_⟩
  intro other floatless' printed'
  have first := readTypst_source floats value floatless printed (stops_comma [])
  have second := readTypst_source floats other floatless' printed' (stops_comma [])
  rw [first] at second
  exact (Prod.mk.inj (Option.some.inj second)).1.symm

end Values

/-- A trailing backslash and an array of one item. -/
def nestedValue : TypstValue Int :=
  .dict [("title", .str "Bob\\"), ("rows", .array [.array [.int (-1)], .dict [], .ident "none"])]

theorem source_round_trip_nested :
    readTypst ("(title: \"Bob\\\\\", rows: ((-1, ), (:), none, ), )".toList ++ "\nx".toList) =
      some (nestedValue.settled, "\nx".toList) := by
  have printed : nestedValue.toSource integralCrates.toFloats =
      .ok "(title: \"Bob\\\\\", rows: ((-1, ), (:), none, ), )" := by
    decide +kernel
  exact (source_round_trip integralCrates.toFloats nestedValue rfl printed).1 _
    ⟨'\n', ['x'], rfl, .inr (.inr rfl)⟩

end TypstMcp.Template
