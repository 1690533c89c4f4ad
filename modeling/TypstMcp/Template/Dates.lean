/-
Template.Dates -- which texts are taken for a date

`parseDate` splits at the hyphens and leaves the rest to the integer parsers, which
take an optional sign and any number of digits, and it asks of the day only that some
month has it.

* `parseDate_iff`: exactly what it accepts.
* `parse_date_exact`: it accepts exactly the calendar dates `YYYY-MM-DD`, but for the
  texts it misreads (`Misread`).
-/
import TypstMcp.Template.Manifest
import TypstMcp.Theory.Ascii
import TypstMcp.Theory.Calendar
import TypstMcp.Theory.Pieces

namespace TypstMcp.Template

open TypstMcp.Theory TypstMcp.Theory.Calendar

set_option autoImplicit false

/-! ## Texts -/

/-- The number decimal digits write. -/
abbrev decimal (digits : List Char) : Nat := Nat.ofDigitChars 10 digits 0

/-- Decimal digits and nothing else, this many. -/
def Digits (width : Nat) (text : List Char) : Prop :=
  text.length = width ∧ text.all Char.isDigit = true

/-- The text is this day, as `YYYY-MM-DD`. -/
def Names (text : String) (date : Date) : Prop :=
  ∃ year month day, text.toList = year ++ '-' :: (month ++ '-' :: day) ∧
    Digits 4 year ∧ Digits 2 month ∧ Digits 2 day ∧
    date.year = decimal year ∧ date.month = decimal month ∧ date.day = decimal day

/-- A number as the integer parsers take it: an optional plus sign and digits. -/
def Numeral (text : List Char) (n : Nat) : Prop :=
  ∃ digits, (text = digits ∨ text = '+' :: digits) ∧ digits ≠ [] ∧
    digits.all Char.isDigit = true ∧ decimal digits = n

/-- Three numerals between hyphens, each in the range of its field. -/
structure Fields (text : String) (year month day : List Char) (y m d : Nat) : Prop where
  text : text.toList = year ++ '-' :: (month ++ '-' :: day)
  year : Numeral year y
  month : Numeral month m
  day : Numeral day d
  year_lt : y < 2 ^ 31
  month_range : 1 ≤ m ∧ m ≤ 12
  day_range : 1 ≤ d ∧ d ≤ 31

/-- The texts that are misread. -/
inductive Misread (text : String) : Prop
  /-- A sign, or fields that are not four, two and two digits wide. -/
  | unpadded {year month day : List Char} {y m d : Nat} (fields : Fields text year month day y m d)
      (shape : ¬(Digits 4 year ∧ Digits 2 month ∧ Digits 2 day))
  /-- A day the month does not have. -/
  | missing {year month day : List Char} {y m d : Nat} (fields : Fields text year month day y m d)
      (beyond : daysInMonth y m < d)

/-! ## Numerals -/

theorem digitsValue_eq {text : List Char} {n : Nat} :
    digitsValue text = some n ↔ text ≠ [] ∧ text.all Char.isDigit = true ∧ decimal text = n := by
  unfold digitsValue
  split_ifs with digits
  · simp [digits.1, digits.2]
  · simp only [false_iff, not_and]
    intro some_ all
    exact absurd ⟨some_, all⟩ digits

theorem numeral_plus {digits : List Char} {n : Nat} :
    Numeral ('+' :: digits) n ↔ digitsValue digits = some n := by
  rw [digitsValue_eq]
  constructor
  · rintro ⟨found, rfl | same, some_, all, value⟩
    · cases all
    · obtain rfl := (List.cons.inj same).2
      exact ⟨some_, all, value⟩
  · rintro ⟨some_, all, value⟩
    exact ⟨digits, .inr rfl, some_, all, value⟩

theorem numeral_plain {text : List Char} {n : Nat} (unsigned : ∀ rest, text ≠ '+' :: rest) :
    Numeral text n ↔ digitsValue text = some n := by
  rw [digitsValue_eq]
  constructor
  · rintro ⟨digits, rfl | signed, some_, all, value⟩
    · exact ⟨some_, all, value⟩
    · exact (unsigned _ signed).elim
  · rintro ⟨some_, all, value⟩
    exact ⟨text, .inl rfl, some_, all, value⟩

/-- Without a minus sign the integer parsers take the numerals in range. -/
theorem parseInteger_eq {least greatest n : Int} {text : List Char} (negative : least ≤ 0)
    (unsigned : '-' ∉ text) : parseInteger least greatest text = some n ↔
      ∃ k : Nat, Numeral text k ∧ n = k ∧ (k : Int) ≤ greatest := by
  have ranged : ∀ {value : Option Nat},
      ((value.map Int.ofNat).filter fun n => least ≤ n ∧ n ≤ greatest) = some n ↔
        ∃ k : Nat, value = some k ∧ n = k ∧ (k : Int) ≤ greatest := by
    intro value
    rw [Option.filter_eq_some_iff, Option.map_eq_some_iff]
    constructor
    · rintro ⟨⟨k, rfl, rfl⟩, bounds⟩
      exact ⟨k, rfl, rfl, (of_decide_eq_true bounds).2⟩
    · rintro ⟨k, rfl, rfl, most⟩
      exact ⟨⟨k, rfl, rfl⟩, decide_eq_true ⟨by omega, most⟩⟩
  unfold parseInteger
  split
  · simp only [ranged, numeral_plus]
  · exact (unsigned (List.mem_cons_self ..)).elim
  · rename_i plus _
    rw [ranged]
    simp only [numeral_plain plus]

theorem parseI32_eq {text : List Char} {n : Int} (unsigned : '-' ∉ text) :
    parseI32 text = some n ↔ ∃ k : Nat, Numeral text k ∧ n = k ∧ k < 2 ^ 31 := by
  unfold parseI32
  rw [parseInteger_eq (by decide) unsigned]
  refine exists_congr fun k => and_congr_right fun _ => and_congr_right fun _ => ?_
  omega

theorem parseU8_eq {text : List Char} {n : Nat} (unsigned : '-' ∉ text) :
    parseU8 text = some n ↔ Numeral text n ∧ n ≤ 255 := by
  unfold parseU8
  rw [Option.map_eq_some_iff]
  simp only [parseInteger_eq le_rfl unsigned]
  constructor
  · rintro ⟨_, ⟨k, numeral, rfl, most⟩, rfl⟩
    exact ⟨numeral, by omega⟩
  · rintro ⟨numeral, most⟩
    exact ⟨n, ⟨n, numeral, rfl, by omega⟩, rfl⟩

theorem Numeral.unique {text : List Char} {m n : Nat} (first : Numeral text m)
    (second : Numeral text n) : m = n := by
  by_cases signed : ∃ rest, text = '+' :: rest
  · obtain ⟨rest, rfl⟩ := signed
    exact Option.some.inj ((numeral_plus.1 first).symm.trans (numeral_plus.1 second))
  · have plain : ∀ rest, text ≠ '+' :: rest := fun rest same => signed ⟨rest, same⟩
    exact Option.some.inj ((numeral_plain plain).1 first ▸ (numeral_plain plain).1 second)

theorem hyphen_not_digit {digits : List Char} (all : digits.all Char.isDigit = true) :
    '-' ∉ digits := fun inside => absurd (List.all_eq_true.1 all _ inside) (by decide)

theorem Numeral.unsigned {text : List Char} {n : Nat} (numeral : Numeral text n) : '-' ∉ text := by
  obtain ⟨digits, rfl | rfl, _, all, _⟩ := numeral
  · exact hyphen_not_digit all
  · intro inside
    rcases List.mem_cons.1 inside with same | later
    · exact absurd same (by decide)
    · exact hyphen_not_digit all later

theorem Digits.numeral {width : Nat} {text : List Char} (digits : Digits (width + 1) text) :
    Numeral text (decimal text) := by
  refine ⟨text, .inl rfl, ?_, digits.2, rfl⟩
  rintro rfl
  cases digits.1

/-! ## What is accepted -/

variable {F : Type} {text : String}

/-- **What `parseDate` accepts.** -/
theorem parseDate_iff {value : TypstValue F} : parseDate text = some value ↔
    ∃ year month day y m d, Fields text year month day y m d ∧ value = .date y m d := by
  constructor
  · intro parsed
    unfold parseDate at parsed
    split at parsed
    · rename_i year month day cut
      obtain ⟨whole, freeY, freeM, freeD⟩ := Pieces.splitOn_three.1 cut
      obtain ⟨y, readY, parsed⟩ := Option.bind_eq_some_iff.1 parsed
      obtain ⟨m, readM, parsed⟩ := Option.bind_eq_some_iff.1 parsed
      obtain ⟨d, readD, parsed⟩ := Option.bind_eq_some_iff.1 parsed
      split_ifs at parsed with ranges
      obtain ⟨k, numeral, rfl, fits⟩ := (parseI32_eq freeY).1 readY
      exact ⟨year, month, day, k, m, d,
        ⟨whole, numeral, ((parseU8_eq freeM).1 readM).1, ((parseU8_eq freeD).1 readD).1, fits,
          ⟨ranges.1, ranges.2.1⟩, ranges.2.2⟩, (Option.some.inj parsed).symm⟩
    · cases parsed
  · rintro ⟨year, month, day, y, m, d, fields, rfl⟩
    have freeY := fields.year.unsigned
    have freeM := fields.month.unsigned
    have freeD := fields.day.unsigned
    have cut : text.toList.splitOn '-' = [year, month, day] :=
      Pieces.splitOn_three.2 ⟨fields.text, freeY, freeM, freeD⟩
    have readY : parseI32 year = some y := (parseI32_eq freeY).2 ⟨y, fields.year, rfl, fields.year_lt⟩
    have readM : parseU8 month = some m :=
      (parseU8_eq freeM).2 ⟨fields.month, by have := fields.month_range; omega⟩
    have readD : parseU8 day = some d :=
      (parseU8_eq freeD).2 ⟨fields.day, by have := fields.day_range; omega⟩
    unfold parseDate
    rw [cut]
    dsimp only
    rw [readY, readM, readD]
    exact if_pos ⟨fields.month_range.1, fields.month_range.2, fields.day_range⟩

/-- The fields of a text are determined by it. -/
theorem Fields.unique {year month day year' month' day' : List Char} {y m d y' m' d' : Nat}
    (first : Fields text year month day y m d) (second : Fields text year' month' day' y' m' d') :
    (year = year' ∧ month = month' ∧ day = day') ∧ y = y' ∧ m = m' ∧ d = d' := by
  have same := first.text.symm.trans second.text
  obtain ⟨rfl, rest⟩ := Pieces.first_cut first.year.unsigned second.year.unsigned same
  obtain ⟨rfl, rfl⟩ := Pieces.first_cut first.month.unsigned second.month.unsigned rest
  exact ⟨⟨rfl, rfl, rfl⟩, first.year.unique second.year, first.month.unique second.month,
    first.day.unique second.day⟩

/-- A calendar date has its fields in range. -/
theorem Names.fields {date : Date} (names : Names text date) :
    ∃ year month day y, (Digits 4 year ∧ Digits 2 month ∧ Digits 2 day) ∧
      Fields text year month day y date.month date.day ∧ date.year = y := by
  obtain ⟨year, month, day, whole, years, months, days, sameYear, sameMonth, sameDay⟩ := names
  have small : decimal year < 10 ^ 4 := by
    have bound := Ascii.ofDigitChars_lt years.2 0
    rwa [years.1, Nat.zero_add, Nat.one_mul] at bound
  have last := date.last
  have most := daysInMonth_le date.year date.month
  refine ⟨year, month, day, decimal year, ⟨years, months, days⟩, ?_, sameYear⟩
  exact {
    text := whole
    year := years.numeral
    month := sameMonth ▸ months.numeral
    day := sameDay ▸ days.numeral
    year_lt := by omega
    month_range := date.month_range
    day_range := ⟨date.first, by omega⟩ }

/-! ## Where it is right -/

/-- The text is accepted exactly if it is a calendar date, with its numbers, which can be written;
and if it is none, that is reported against the caller's field. -/
structure Faithful (crates : Crates F) (text : String) : Prop where
  accepted : (∃ value : TypstValue F, parseDate text = some value) ↔ ∃ date, Names text date
  carried : ∀ (value : TypstValue F) date, parseDate text = some value → Names text date →
    value = .date date.year date.month date.day ∧
      ∃ source, value.toSource crates.toFloats = .ok source
  reported : (¬∃ date, Names text date) → ∀ field spec, spec.kind = .date →
    convert crates field spec (.string text) =
      .error (.badArg field "expected a date as YYYY-MM-DD")

theorem convert_refused {crates : Crates F} {field : String} {spec : ArgSpec}
    (kind : spec.kind = .date) (refused : ¬∃ value : TypstValue F, parseDate text = some value) :
    convert crates field spec (.string text) =
      .error (.badArg field "expected a date as YYYY-MM-DD") := by
  have none_ : (parseDate text : Option (TypstValue F)) = none :=
    Option.eq_none_iff_forall_ne_some.2 fun value parsed => refused ⟨value, parsed⟩
  unfold convert
  simp only [kind, Value.asStr, Option.bind_some, none_]

/-- A calendar date is accepted. -/
theorem Names.parsed {date : Date} (names : Names text date) :
    ∃ value : TypstValue F, parseDate text = some value := by
  obtain ⟨_, _, _, _, _, fields, _⟩ := names.fields
  exact ⟨_, parseDate_iff.2 ⟨_, _, _, _, _, _, fields, rfl⟩⟩

/-- What is accepted and not misread is a calendar date. -/
theorem names_of_parsed {value : TypstValue F} (right : ¬Misread text)
    (parsed : parseDate text = some value) : ∃ date, Names text date := by
  obtain ⟨year, month, day, y, m, d, fields, rfl⟩ := parseDate_iff.1 parsed
  have shape : Digits 4 year ∧ Digits 2 month ∧ Digits 2 day :=
    Classical.byContradiction fun unshaped => right (.unpadded fields unshaped)
  have there : d ≤ daysInMonth y m :=
    Nat.le_of_not_lt fun beyond => right (.missing fields beyond)
  refine ⟨⟨y, m, d, fields.day_range.1, there⟩, year, month, day, fields.text, shape.1,
    shape.2.1, shape.2.2, ?_, ?_, ?_⟩
  · exact congrArg Int.ofNat (fields.year.unique shape.1.numeral)
  · exact fields.month.unique shape.2.1.numeral
  · exact fields.day.unique shape.2.2.numeral

/-- The numbers of a calendar date are the ones carried. -/
theorem Names.carried {date : Date} {value : TypstValue F} (names : Names text date)
    (parsed : parseDate text = some value) (floats : Floats F) :
    value = .date date.year date.month date.day ∧ ∃ source, value.toSource floats = .ok source := by
  obtain ⟨_, _, _, _, _, _, fields, rfl⟩ := parseDate_iff.1 parsed
  obtain ⟨_, _, _, _, _, fields', sameYear⟩ := names.fields
  obtain ⟨_, rfl, rfl, rfl⟩ := fields.unique fields'
  exact ⟨by rw [sameYear], _,
    if_pos ⟨fields.month_range.1, fields.month_range.2, fields.day_range⟩⟩

/-- What is misread is accepted. -/
theorem Misread.parsed (misread : Misread text) :
    ∃ value : TypstValue F, parseDate text = some value := by
  cases misread with
  | unpadded fields _ | missing fields _ =>
      exact ⟨_, parseDate_iff.2 ⟨_, _, _, _, _, _, fields, rfl⟩⟩

/-- What is misread is no calendar date. -/
theorem Misread.unnamed (misread : Misread text) (date : Date) : ¬Names text date := by
  intro names
  obtain ⟨_, _, _, _, shape, fields', sameYear⟩ := names.fields
  cases misread with
  | unpadded fields unshaped =>
      obtain ⟨⟨rfl, rfl, rfl⟩, _⟩ := fields.unique fields'
      exact unshaped shape
  | missing fields beyond =>
      obtain ⟨_, rfl, rfl, rfl⟩ := fields.unique fields'
      have last := date.last
      rw [sameYear] at last
      omega

/-- **The calendar dates and nothing else, but for the texts that are misread.** -/
theorem parse_date_exact (crates : Crates F) (text : String) :
    Faithful crates text ↔ ¬Misread text := by
  constructor
  · intro faithful misread
    obtain ⟨date, names⟩ := faithful.accepted.1 misread.parsed
    exact misread.unnamed date names
  · intro right
    have named : (∃ value : TypstValue F, parseDate text = some value) → ∃ date, Names text date := by
      rintro ⟨value, parsed⟩
      exact names_of_parsed right parsed
    refine ⟨⟨named, ?_⟩, ?_, ?_⟩
    · rintro ⟨date, names⟩
      exact names.parsed
    · intro value date parsed names
      exact names.carried parsed crates.toFloats
    · intro unnamed field spec kind
      exact convert_refused kind fun parsed => unnamed (named parsed)

/-- The thirtieth of February passes for a date. -/
theorem february_thirtieth :
    (parseDate "2026-02-30" : Option (TypstValue Int)) = some (.date 2026 2 30) ∧
      ¬∀ text, Faithful integralCrates text := by
  have parsed : (parseDate "2026-02-30" : Option (TypstValue Int)) = some (.date 2026 2 30) := rfl
  refine ⟨parsed, fun faithful => ?_⟩
  obtain ⟨date, names⟩ := (faithful "2026-02-30").accepted.1 ⟨_, parsed⟩
  obtain ⟨_, _, _, y, m, d, fields, same⟩ := parseDate_iff.1 parsed
  obtain ⟨_, _, _, _, _, fields', sameYear⟩ := names.fields
  obtain ⟨_, rfl, rfl, rfl⟩ := fields.unique fields'
  obtain ⟨year, month, day⟩ := TypstValue.date.inj same
  have last := date.last
  rw [sameYear, ← year, ← month, ← day] at last
  exact absurd last (by decide)

end TypstMcp.Template
