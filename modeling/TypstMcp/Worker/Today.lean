/-
Worker.Today -- the date a document is rendered on

`civilFromDays` is the source's conversion from a day count to a date, operation by
operation.  What an operation answers when its result does not fit its type is a
parameter: a release build wraps (`wrapping`), a debug build stops (`checked`).

* `civil_exact`: on a day whose year fits an `i32`, no operation comes near its bounds,
  and the conversion gives that day.
-/
import TypstMcp.Theory.Calendar

namespace TypstMcp.Worker

open TypstMcp.Theory.Calendar

set_option autoImplicit false

/-! ## Machine integers -/

inductive IntType
  | u8
  | i32
  | i64
  | u64
  deriving DecidableEq, Repr

namespace IntType

def least : IntType → Int
  | .u8 | .u64 => 0
  | .i32 => -2 ^ 31
  | .i64 => -2 ^ 63

def size : IntType → Int
  | .u8 => 2 ^ 8
  | .i32 => 2 ^ 32
  | .i64 | .u64 => 2 ^ 64

end IntType

/-- The number is one of the type. -/
def Fits (type : IntType) (n : Int) : Prop := type.least ≤ n ∧ n < type.least + type.size

instance (type : IntType) (n : Int) : Decidable (Fits type n) :=
  inferInstanceAs (Decidable (type.least ≤ n ∧ n < type.least + type.size))

theorem fits_i64 {n : Int} (least : -9223372036854775808 ≤ n) (most : n < 9223372036854775808) :
    Fits .i64 n := ⟨least, most⟩

theorem fits_u64 {n : Int} (least : 0 ≤ n) (most : n < 18446744073709551616) : Fits .u64 n :=
  ⟨least, most⟩

theorem fits_u8 {n : Int} (least : 0 ≤ n) (most : n < 256) : Fits .u8 n := ⟨least, most⟩

/-- What an operation answers whose exact result is `n`. -/
abbrev Fit := IntType → Int → Option Int

/-- A release build, and `as` in every build. -/
def wrapping : Fit := fun type n => some ((n - type.least) % type.size + type.least)

/-- A result that does not fit stops the program. -/
def checked : Fit := fun type n => if Fits type n then some n else none

/-! ## The conversion -/

/-- Days since the Unix epoch to (year, month, day). -/
def civilFromDays (fit : Fit) (days : Int) : Option (Int × Int × Int) := do
  let z ← fit .i64 (days + 719468)
  let base ← fit .i64 (if 0 ≤ z then z else z - 146096)
  let era := base.tdiv 146097
  let eraStart ← fit .i64 (era * 146097)
  let offset ← fit .i64 (z - eraStart)
  let doe ← fit .u64 offset
  let a ← fit .u64 (doe - doe / 1460)
  let b ← fit .u64 (a + doe / 36524)
  let c ← fit .u64 (b - doe / 146096)
  let yoe := c / 365
  let yearInEra ← fit .i64 yoe
  let eraYears ← fit .i64 (era * 400)
  let y ← fit .i64 (yearInEra + eraYears)
  let p ← fit .u64 (365 * yoe)
  let q ← fit .u64 (p + yoe / 4)
  let r ← fit .u64 (q - yoe / 100)
  let doy ← fit .u64 (doe - r)
  let fives ← fit .u64 (5 * doy)
  let scaled ← fit .u64 (fives + 2)
  let mp := scaled / 153
  let months ← fit .u64 (153 * mp)
  let monthDays ← fit .u64 (months + 2)
  let dayOfMonth ← fit .u64 (doy - monthDays / 5)
  let counted ← fit .u64 (dayOfMonth + 1)
  let d ← fit .u8 counted
  let shifted ← fit .u64 (if mp < 10 then mp + 3 else mp - 9)
  let m ← fit .u8 shifted
  let year ← fit .i64 (y + if m ≤ 2 then 1 else 0)
  let year ← fit .i32 year
  return (year, m, d)

example : civilFromDays wrapping 0 = some (1970, 1, 1) := by decide
example : civilFromDays wrapping 19782 = some (2024, 2, 29) := by decide
example : civilFromDays checked (-1) = some (1969, 12, 31) := by decide

/-! ## No operation leaves its type -/

/-- A result that fits is the result. -/
def Exact (fit : Fit) : Prop := ∀ type n, Fits type n → fit type n = some n

theorem exact_checked : Exact checked := fun _ _ fits => if_pos fits

theorem exact_wrapping : Exact wrapping := by
  rintro type n ⟨least, most⟩
  unfold wrapping
  rw [Int.emod_eq_of_lt (by omega) (by omega)]
  exact congrArg some (by omega)

variable {fit : Fit}

theorem Exact.step {α : Type} (exact : Exact fit) {type : IntType} {n : Int}
    {f : Int → Option α} {out : Option α} (fits : Fits type n) (rest : f n = out) :
    (fit type n >>= f) = out := by
  rw [exact type n fits]
  exact rest

/-! ## Eras, years and months -/

/-- The era of a day, the division rounding towards zero. -/
theorem era_tdiv {era doe : Int} (first : 0 ≤ doe) (last : doe ≤ 146096) :
    (if 0 ≤ 146097 * era + doe then 146097 * era + doe
      else 146097 * era + doe - 146096).tdiv 146097 = era := by
  split
  · rename_i later
    rw [Int.tdiv_eq_ediv_of_nonneg later]
    omega
  · rename_i earlier
    have negative : 146097 * era + doe - 146096 = -(146096 - 146097 * era - doe) := by omega
    rw [negative, Int.neg_tdiv, Int.tdiv_eq_ediv_of_nonneg (by omega)]
    omega

/-- The year of a day in its era. -/
theorem yoe_eq {yoe doy doe : Int} (first : 0 ≤ yoe) (last : yoe < 400) (day : 0 ≤ doy)
    (within : doy ≤ 364 ∨ (doy = 365 ∧ IsLeap (yoe + 1)))
    (counted : doe = 365 * yoe + yoe / 4 - yoe / 100 + doy) :
    (doe - doe / 1460 + doe / 36524 - doe / 146096) / 365 = yoe := by
  obtain ⟨c, q, r, rfl, hc, hq, hr⟩ : ∃ c q r, yoe = 100 * c + 4 * q + r ∧ (0 ≤ c ∧ c ≤ 3) ∧
      (0 ≤ q ∧ q ≤ 24) ∧ 0 ≤ r ∧ r ≤ 3 :=
    ⟨yoe / 100, yoe % 100 / 4, yoe % 4, by omega, by omega, by omega, by omega⟩
  have linear : doe = 36524 * c + 1461 * q + 365 * r + doy := by omega
  -- the leap day comes last in a year that begins in March
  have leap : doy ≤ 364 ∨ (doy = 365 ∧ r = 3 ∧ (q ≠ 24 ∨ c = 3)) := by
    rcases within with short | ⟨long, four, centuries⟩
    · exact .inl short
    · exact .inr ⟨long, by omega, by omega⟩
  clear counted within
  by_cases final : doe = 146096
  · subst final
    omega
  · have eras : doe / 146096 = 0 := by omega
    have centuries : doe / 36524 = c := by omega
    have fours : doe / 1460 = 25 * c + q + (24 * c + q + 365 * r + doy) / 1460 := by omega
    rw [eras, centuries, fours]
    omega

/-- The month of a day in its year. -/
theorem mp_eq (date : Date) : (5 * date.marchDay + 2) / 153 = date.marchMonth := by
  obtain ⟨year, month, day, first, last⟩ := date
  obtain ⟨atLeast, atMost⟩ := month_of_days (lt_of_lt_of_le first last)
  have shortest : month = 2 → day ≤ 29 := by
    rintro rfl
    refine last.trans ?_
    simp only [daysInMonth]
    split <;> omega
  simp only [Date.marchDay, Date.marchMonth]
  interval_cases month <;> simp [daysInMonth] at last shortest ⊢ <;> omega

/-- The conversion, from the parts of the day count on. -/
theorem civil_parts (exact : Exact fit) {era yoe doe doy mp : Int}
    (eras : -6000000 ≤ era ∧ era ≤ 6000000) (years : 0 ≤ yoe ∧ yoe < 400)
    (days : 0 ≤ doy ∧ doy ≤ 365) (within : doy ≤ 364 ∨ (doy = 365 ∧ IsLeap (yoe + 1)))
    (counted : doe = 365 * yoe + yoe / 4 - yoe / 100 + doy) (month : (5 * doy + 2) / 153 = mp)
    (fits : Fits .i32 (400 * era + yoe + if mp < 10 then 0 else 1)) :
    civilFromDays fit (146097 * era + doe - 719468) =
      some (400 * era + yoe + (if mp < 10 then 0 else 1), if mp < 10 then mp + 3 else mp - 9,
        doy - (153 * mp + 2) / 5 + 1) := by
  have year := yoe_eq years.1 years.2 days.1 within counted
  have inEra : 0 ≤ doe ∧ doe ≤ 146096 := by
    rcases within with short | ⟨long, four, centuries⟩ <;> omega
  have base := @era_tdiv era doe inEra.1 inEra.2
  have z : 146097 * era + doe - 719468 + 719468 = 146097 * era + doe := by omega
  unfold civilFromDays
  refine exact.step (fits_i64 (by omega) (by omega)) ?_
  rw [z]
  refine exact.step (fits_i64 (by split <;> omega) (by split <;> omega)) ?_
  rw [base]
  refine exact.step (fits_i64 (by omega) (by omega)) ?_
  refine exact.step (fits_i64 (by omega) (by omega)) ?_
  rw [show 146097 * era + doe - era * 146097 = doe by omega]
  refine exact.step (fits_u64 (by omega) (by omega)) ?_
  refine exact.step (fits_u64 (by omega) (by omega)) ?_
  refine exact.step (fits_u64 (by omega) (by omega)) ?_
  refine exact.step (fits_u64 (by omega) (by omega)) ?_
  rw [year]
  refine exact.step (fits_i64 (by omega) (by omega)) ?_
  refine exact.step (fits_i64 (by omega) (by omega)) ?_
  refine exact.step (fits_i64 (by omega) (by omega)) ?_
  refine exact.step (fits_u64 (by omega) (by omega)) ?_
  refine exact.step (fits_u64 (by omega) (by omega)) ?_
  refine exact.step (fits_u64 (by omega) (by omega)) ?_
  rw [show doe - (365 * yoe + yoe / 4 - yoe / 100) = doy by omega]
  refine exact.step (fits_u64 (by omega) (by omega)) ?_
  refine exact.step (fits_u64 (by omega) (by omega)) ?_
  refine exact.step (fits_u64 (by omega) (by omega)) ?_
  rw [month]
  refine exact.step (fits_u64 (by omega) (by omega)) ?_
  refine exact.step (fits_u64 (by omega) (by omega)) ?_
  refine exact.step (fits_u64 (by omega) (by omega)) ?_
  refine exact.step (fits_u64 (by omega) (by omega)) ?_
  refine exact.step (fits_u8 (by omega) (by omega)) ?_
  refine exact.step (fits_u64 (by split <;> omega) (by split <;> omega)) ?_
  refine exact.step (fits_u8 (by split <;> omega) (by split <;> omega)) ?_
  rw [show yoe + era * 400 + (if (if mp < 10 then mp + 3 else mp - 9) ≤ 2 then 1 else 0) =
    400 * era + yoe + (if mp < 10 then 0 else 1) by split_ifs <;> omega]
  refine exact.step (fits_i64 (by split <;> omega) (by split <;> omega)) ?_
  refine exact.step fits ?_
  rfl

/-- The numbers of a date, as the source returns them. -/
def fieldsOf (date : Date) : Int × Int × Int := (date.year, date.month, date.day)

/-- **The conversion is exact, and no operation leaves its type.** -/
theorem civil_exact (exact : Exact fit) (date : Date) (fits : Fits .i32 date.year) :
    civilFromDays fit date.dayNumber = some (fieldsOf date) := by
  have counted := date.dayNumber_march
  have length := date.marchDay_le
  have month := mp_eq date
  have range := date.month_range
  have first := date.first
  obtain ⟨least, most⟩ : -2147483648 ≤ date.year ∧ date.year < 2147483648 := fits
  have march : (date.marchMonth < 10 ∧ date.month = date.marchMonth + 3 ∧ date.marchYear = date.year) ∨
      (10 ≤ date.marchMonth ∧ date.month = date.marchMonth - 9 ∧ date.marchYear = date.year - 1) := by
    unfold Date.marchMonth Date.marchYear
    split <;> omega
  have within : (date.marchDay : Int) ≤ 364 ∨
      ((date.marchDay : Int) = 365 ∧ IsLeap (date.marchYear % 400 + 1)) := by
    rcases length with short | ⟨long, leap⟩
    · exact .inl (by omega)
    · refine .inr ⟨by omega, ?_⟩
      rw [← isLeap_shift _ (date.marchYear / 400)]
      rwa [show date.marchYear % 400 + 1 + 400 * (date.marchYear / 400) = date.marchYear + 1 by omega]
  have year : 400 * (date.marchYear / 400) + date.marchYear % 400 +
      (if (date.marchMonth : Int) < 10 then 0 else 1) = date.year := by
    split <;> omega
  have parts := @civil_parts fit exact (date.marchYear / 400) (date.marchYear % 400) _ date.marchDay
    date.marchMonth (by omega) (by omega) (by omega) within rfl (by omega) (by rw [year]; exact ⟨least, most⟩)
  rw [counted, parts, year]
  have monthDay : (if (date.marchMonth : Int) < 10 then (date.marchMonth : Int) + 3
      else date.marchMonth - 9) = date.month := by
    split <;> omega
  have day : (date.marchDay : Int) - (153 * date.marchMonth + 2) / 5 + 1 = date.day := by
    unfold Date.marchDay
    push_cast
    omega
  rw [monthDay, day]
  rfl

/-! ## Every day of the range -/

/-- The day's year is an `i32`. -/
def YearFits (days : Int) : Prop :=
  ∃ date : Date, date.dayNumber = days ∧ Fits .i32 date.year

/-- The last day of the last year that is an `i32`. -/
def lastDay : Date := ⟨2147483647, 12, 31, by decide, by decide⟩

/-- The day after is in the range as well, but for the very last. -/
theorem next_fits {date : Date} (fits : Fits .i32 date.year)
    (more : date.dayNumber ≠ lastDay.dayNumber) : Fits .i32 date.next.year := by
  obtain ⟨least, most⟩ : -2147483648 ≤ date.year ∧ date.year < 2147483648 := fits
  rcases date.next_year with same | ⟨december, thirtyFirst, later⟩
  · rw [same]
    exact ⟨least, most⟩
  · have earlier : date.year ≠ 2147483647 := fun last =>
      more (congrArg Date.dayNumber (Date.ext last december thirtyFirst))
    rw [later]
    exact ⟨show -2147483648 ≤ _ by omega, show _ < (2147483648 : Int) by omega⟩

/-- **The conversion is the calendar's.** -/
theorem civil_from_days_exact :
    (∀ days, YearFits days → ∃ date : Date, date.dayNumber = days ∧
      civilFromDays checked days = some (fieldsOf date) ∧
      civilFromDays wrapping days = some (fieldsOf date)) ∧
    civilFromDays wrapping 0 = some (1970, 1, 1) ∧
    (∀ days, YearFits days → days ≠ lastDay.dayNumber →
      ∃ date : Date, civilFromDays wrapping days = some (fieldsOf date) ∧
        civilFromDays wrapping (days + 1) = some (fieldsOf date.next)) ∧
    (∀ date : Date, Fits .i32 date.year →
      civilFromDays wrapping date.dayNumber = some (fieldsOf date)) ∧
    Function.Bijective Date.dayNumber := by
  refine ⟨?_, ?_, ?_, fun date => civil_exact exact_wrapping date, Date.dayNumber_bijective⟩
  · rintro days ⟨date, rfl, fits⟩
    exact ⟨date, rfl, civil_exact exact_checked date fits, civil_exact exact_wrapping date fits⟩
  · decide
  · rintro days ⟨date, rfl, fits⟩ more
    refine ⟨date, civil_exact exact_wrapping date fits, ?_⟩
    rw [← date.dayNumber_next]
    exact civil_exact exact_wrapping date.next (next_fits fits more)

/-- One day on from the last, the year wraps. -/
theorem last_day_wraps :
    ¬∀ days, YearFits days → ∃ date : Date, civilFromDays wrapping days = some (fieldsOf date) ∧
      civilFromDays wrapping (days + 1) = some (fieldsOf date.next) := by
  intro succeeds
  obtain ⟨date, now, after⟩ := succeeds lastDay.dayNumber ⟨lastDay, rfl, by decide⟩
  rw [civil_exact exact_wrapping lastDay (by decide)] at now
  have same : lastDay = date := by
    obtain ⟨year, month, day⟩ : _ ∧ _ ∧ _ := by simpa [fieldsOf] using now
    exact Date.ext year month day
  subst same
  revert after
  decide

end TypstMcp.Worker
