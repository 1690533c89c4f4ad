/-
Theory.Calendar -- the Gregorian calendar, extended both ways

A `Date` is a day that exists: its month has that many days.  `Date.next` is the day
after it, and `Date.dayNumber` the usual count of days, with 1970-01-01 as day 0.

* `dayNumber_next`: the day after is counted one further.
* `dayNumber_march`: the same count over years that begin in March, where the leap day
  comes last and every month begins at a linear function of its number.
* `dayNumber_bijective`: every number is the number of exactly one day.
-/
import Mathlib.Tactic

namespace TypstMcp.Theory.Calendar

set_option autoImplicit false

/-! ## Days that exist -/

/-- Every fourth year, but of the centuries only every fourth. -/
def IsLeap (year : Int) : Prop := year % 4 = 0 ∧ (year % 100 ≠ 0 ∨ year % 400 = 0)

instance (year : Int) : Decidable (IsLeap year) :=
  inferInstanceAs (Decidable (year % 4 = 0 ∧ (year % 100 ≠ 0 ∨ year % 400 = 0)))

/-- The length of a month; no day is in a month that does not exist. -/
def daysInMonth (year : Int) : Nat → Nat
  | 2 => if IsLeap year then 29 else 28
  | 4 | 6 | 9 | 11 => 30
  | 1 | 3 | 5 | 7 | 8 | 10 | 12 => 31
  | _ => 0

@[ext] structure Date where
  year : Int
  month : Nat
  day : Nat
  first : 1 ≤ day
  last : day ≤ daysInMonth year month
  deriving DecidableEq

/-- The months that exist are those that have days. -/
theorem month_of_days {year : Int} {month : Nat} (has : 0 < daysInMonth year month) :
    1 ≤ month ∧ month ≤ 12 := by
  unfold daysInMonth at has
  split at has <;> omega

theorem daysInMonth_pos {year : Int} {month : Nat} (first : 1 ≤ month) (last : month ≤ 12) :
    1 ≤ daysInMonth year month := by
  interval_cases month <;> simp [daysInMonth]
  split <;> omega

theorem daysInMonth_le (year : Int) (month : Nat) : daysInMonth year month ≤ 31 := by
  unfold daysInMonth
  split
  · split <;> omega
  all_goals omega

/-- The leap years come again after four centuries. -/
theorem isLeap_shift (year eras : Int) : IsLeap (year + 400 * eras) ↔ IsLeap year := by
  unfold IsLeap
  omega

theorem daysInMonth_shift (year eras : Int) (month : Nat) :
    daysInMonth (year + 400 * eras) month = daysInMonth year month := by
  unfold daysInMonth
  simp only [isLeap_shift]

namespace Date

variable (date : Date)

theorem month_range : 1 ≤ date.month ∧ date.month ≤ 12 :=
  month_of_days (lt_of_lt_of_le date.first date.last)

/-- The day after. -/
def next : Date :=
  if more : date.day < daysInMonth date.year date.month then
    ⟨date.year, date.month, date.day + 1, Nat.le_add_left 1 _, more⟩
  else if later : date.month < 12 then
    ⟨date.year, date.month + 1, 1, le_rfl, daysInMonth_pos (Nat.le_add_left 1 _) later⟩
  else ⟨date.year + 1, 1, 1, le_rfl, daysInMonth_pos le_rfl (by omega)⟩

/-- The year is over with the last of December only. -/
theorem next_year : date.next.year = date.year ∨
    (date.month = 12 ∧ date.day = 31 ∧ date.next.year = date.year + 1) := by
  have last := date.last
  have range := date.month_range
  unfold next
  split
  · exact .inl rfl
  · rename_i full
    split
    · exact .inl rfl
    · have december : date.month = 12 := by omega
      rw [december] at full last
      have days : daysInMonth date.year 12 = 31 := rfl
      exact .inr ⟨december, by omega, rfl⟩

/-! ## The count of days -/

/-- The days of a year before a month. -/
def daysBefore (year : Int) (month : Nat) : Nat :=
  ((List.range month).map (daysInMonth year)).sum

/-- The days before a year, from the first of year 1 on. -/
def yearStart (year : Int) : Int :=
  365 * (year - 1) + (year - 1) / 4 - (year - 1) / 100 + (year - 1) / 400

/-- Days since 1970-01-01. -/
def dayNumber : Int :=
  yearStart date.year + daysBefore date.year date.month + date.day - 719163

theorem daysBefore_succ (year : Int) (month : Nat) :
    daysBefore year (month + 1) = daysBefore year month + daysInMonth year month := by
  simp [daysBefore, List.range_succ]

theorem yearStart_succ (year : Int) :
    yearStart (year + 1) = yearStart year + daysBefore year 13 := by
  have days : daysBefore year 13 = if IsLeap year then 366 else 365 := by
    simp only [daysBefore_succ]
    simp only [daysBefore, List.range_zero, List.map_nil, List.sum_nil, daysInMonth]
    split <;> rfl
  rw [days]
  unfold yearStart
  by_cases leap : IsLeap year
  · rw [if_pos leap]
    unfold IsLeap at leap
    push_cast
    omega
  · rw [if_neg leap]
    unfold IsLeap at leap
    push_cast
    omega

/-- **The day after is counted one further.** -/
theorem dayNumber_next : date.next.dayNumber = date.dayNumber + 1 := by
  have range := date.month_range
  have last := date.last
  unfold next
  split
  · simp only [dayNumber]
    push_cast
    omega
  · rename_i full
    split
    · simp only [dayNumber, daysBefore_succ]
      push_cast
      omega
    · have december : date.month = 12 := by omega
      have whole : daysBefore date.year 13 = _ := daysBefore_succ date.year 12
      have january : daysBefore (date.year + 1) 1 = 0 := rfl
      rw [december] at full last
      simp only [dayNumber, yearStart_succ, january, december]
      push_cast
      omega

/-! ## One number for each day -/

theorem daysBefore_mono {year : Int} {m n : Nat} (le : m ≤ n) :
    daysBefore year m ≤ daysBefore year n := by
  induction le with
  | refl => exact le_rfl
  | step _ ih =>
      rw [daysBefore_succ]
      omega

theorem yearStart_mono {y z : Int} (le : y ≤ z) : yearStart y ≤ yearStart z := by
  unfold yearStart
  omega

/-- A day is within its month. -/
theorem dayNumber_month : yearStart date.year + daysBefore date.year date.month <
      date.dayNumber + 719163 ∧
    date.dayNumber + 719163 ≤ yearStart date.year + daysBefore date.year (date.month + 1) := by
  have first := date.first
  have last := date.last
  rw [daysBefore_succ]
  unfold dayNumber
  push_cast
  omega

/-- A day is within its year. -/
theorem dayNumber_year : yearStart date.year < date.dayNumber + 719163 ∧
    date.dayNumber + 719163 ≤ yearStart (date.year + 1) := by
  have month := date.dayNumber_month
  have whole : daysBefore date.year (date.month + 1) ≤ daysBefore date.year 13 :=
    daysBefore_mono (Nat.succ_le_succ date.month_range.2)
  rw [yearStart_succ]
  omega

theorem dayNumber_injective : Function.Injective dayNumber := by
  intro a b same
  have inA := a.dayNumber_year
  have inB := b.dayNumber_year
  have year : a.year = b.year := by
    rcases lt_trichotomy a.year b.year with less | eq | more
    · have apart := yearStart_mono (Int.add_one_le_of_lt less)
      omega
    · exact eq
    · have apart := yearStart_mono (Int.add_one_le_of_lt more)
      omega
  have withinA := a.dayNumber_month
  have withinB := b.dayNumber_month
  rw [year] at withinA
  have month : a.month = b.month := by
    rcases lt_trichotomy a.month b.month with less | eq | more
    · have apart : daysBefore b.year (a.month + 1) ≤ daysBefore b.year b.month :=
        daysBefore_mono less
      omega
    · exact eq
    · have apart : daysBefore b.year (b.month + 1) ≤ daysBefore b.year a.month :=
        daysBefore_mono more
      omega
  refine Date.ext year month ?_
  unfold dayNumber at same
  rw [year, month] at same
  omega

/-- The same day four centuries on, that many times. -/
def shift (eras : Int) : Date :=
  ⟨date.year + 400 * eras, date.month, date.day, date.first,
    daysInMonth_shift date.year eras date.month ▸ date.last⟩

theorem dayNumber_shift (eras : Int) :
    (date.shift eras).dayNumber = date.dayNumber + 146097 * eras := by
  have months : daysBefore (date.year + 400 * eras) date.month = daysBefore date.year date.month := by
    unfold daysBefore
    simp only [funext (daysInMonth_shift date.year eras)]
  have years : yearStart (date.year + 400 * eras) = yearStart date.year + 146097 * eras := by
    unfold yearStart
    omega
  show yearStart (date.year + 400 * eras) + daysBefore (date.year + 400 * eras) date.month +
    date.day - 719163 = _
  rw [months, years]
  unfold dayNumber
  omega

def epoch : Date := ⟨1970, 1, 1, by decide, by decide⟩

theorem dayNumber_epoch : epoch.dayNumber = 0 := by decide

theorem dayNumber_iterate (n : Nat) : (next^[n] epoch).dayNumber = n := by
  induction n with
  | zero => exact dayNumber_epoch
  | succ n ih =>
      rw [Function.iterate_succ_apply', dayNumber_next, ih]
      push_cast
      rfl

/-- **Every number is the number of exactly one day.** -/
theorem dayNumber_bijective : Function.Bijective dayNumber := by
  refine ⟨dayNumber_injective, fun d => ?_⟩
  refine ⟨(next^[(d + 146097 * d.natAbs).toNat] epoch).shift (-d.natAbs), ?_⟩
  rw [dayNumber_shift, dayNumber_iterate]
  omega

/-! ## Years that begin in March -/

/-- The year that begins in March and holds the day. -/
def marchYear : Int := if date.month ≤ 2 then date.year - 1 else date.year

/-- The month, March being 0. -/
def marchMonth : Nat := if date.month ≤ 2 then date.month + 9 else date.month - 3

/-- The days since the first of March. -/
def marchDay : Nat := (153 * date.marchMonth + 2) / 5 + (date.day - 1)

/-- The months before a month of the second kind follow the linear rule. -/
theorem daysBefore_eq {year : Int} {month : Nat} (first : 1 ≤ month) (last : month ≤ 12) :
    daysBefore year month = if month ≤ 2 then 31 * (month - 1)
      else (if IsLeap year then 60 else 59) + (153 * (month - 3) + 2) / 5 := by
  have none_ : daysBefore year 0 = 0 := rfl
  by_cases leap : IsLeap year
  · interval_cases month <;> simp [daysBefore_succ, none_, daysInMonth, leap]
  · interval_cases month <;> simp [daysBefore_succ, none_, daysInMonth, leap]

/-- A year that begins in March ends with February. -/
theorem marchDay_le : date.marchDay ≤ 364 ∨ (date.marchDay = 365 ∧ IsLeap (date.marchYear + 1)) := by
  obtain ⟨year, month, day, first, last⟩ := date
  obtain ⟨atLeast, atMost⟩ := month_of_days (lt_of_lt_of_le first last)
  simp only [marchDay, marchMonth, marchYear]
  by_cases leap : IsLeap year
  · interval_cases month <;> simp [daysInMonth, leap] at last ⊢ <;> omega
  · interval_cases month <;> simp [daysInMonth, leap] at last ⊢ <;> omega

/-- **The count by eras of 400 years that begin in March.** -/
theorem dayNumber_march : date.dayNumber =
    146097 * (date.marchYear / 400) + (365 * (date.marchYear % 400) +
      date.marchYear % 400 / 4 - date.marchYear % 400 / 100 + date.marchDay) - 719468 := by
  have range := date.month_range
  have first := date.first
  unfold dayNumber
  rw [daysBefore_eq range.1 range.2]
  unfold marchDay marchMonth marchYear yearStart
  by_cases early : date.month ≤ 2
  · simp only [if_pos early]
    obtain january | february : date.month = 1 ∨ date.month = 2 := by omega
    · rw [january]
      push_cast
      omega
    · rw [february]
      push_cast
      omega
  · simp only [if_neg early]
    by_cases leap : IsLeap date.year
    · rw [if_pos leap]
      unfold IsLeap at leap
      push_cast
      omega
    · rw [if_neg leap]
      unfold IsLeap at leap
      push_cast
      omega

end Date

end TypstMcp.Theory.Calendar
