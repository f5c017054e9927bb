import QuantproCollector.Lib.FixedWidth
import Mathlib.Algebra.Order.Floor.Semiring
import Mathlib.Algebra.Order.Field.Rat
import Mathlib.Data.Prod.Lex
import Mathlib.Data.Rat.Floor
import Mathlib.Data.String.Basic

/-!
# Moments of the calendar

A moment is a date and a time of the UTC calendar, with the part of the second that has passed
(`Moment`); of two moments the later one has the greater key (`Moment.key`). `toISOString` keeps three
digits of that part, so its texts are ordered by the milliseconds of the moments, up to the year 9999
(`toISOString_lt_iff`), and below the texts of the years from 10000 on none is left
(`toISOString_lt_of_expanded`).
-/

namespace Calendar

def isLeapYear (year : ℕ) : Bool :=
  decide (year % 4 = 0) && (decide (year % 100 ≠ 0) || decide (year % 400 = 0))

def daysInMonth (year month : ℕ) : ℕ :=
  if month = 2 then if isLeapYear year then 29 else 28
  else if month = 4 ∨ month = 6 ∨ month = 9 ∨ month = 11 then 30
  else 31

/-- A date and a time of the UTC calendar, in the years that a date can have. -/
structure Moment where
  year : ℕ
  month : ℕ
  day : ℕ
  hour : ℕ
  minute : ℕ
  second : ℕ
  /-- The part of the second that has passed. -/
  fraction : ℚ
  date : year < 1000000 ∧ 1 ≤ month ∧ month ≤ 12 ∧ 1 ≤ day ∧ day ≤ daysInMonth year month
  time : hour < 24 ∧ minute < 60 ∧ second < 60
  fraction_mem : 0 ≤ fraction ∧ fraction < 1
deriving DecidableEq

namespace Moment

/-- The moment up to its second. -/
def civil (m : Moment) : List ℕ := [m.year, m.month, m.day, m.hour, m.minute, m.second]

/-- The later of two moments has the greater key. -/
def key (m : Moment) : List ℕ ×ₗ ℚ := toLex (m.civil, m.fraction)

def milli (m : Moment) : ℕ := ⌊m.fraction * 1000⌋₊

/-- The moment up to its millisecond. -/
def millisecond (m : Moment) : List ℕ := m.civil ++ [m.milli]

/-! ## Texts -/

def isoLayout (yearWidth : ℕ) : FixedWidth.Layout :=
  [(yearWidth, '-'), (2, '-'), (2, 'T'), (2, ':'), (2, ':'), (2, '.'), (3, 'Z')]

/-- `YYYY-MM-DDTHH:mm:ss.sssZ`, or `+YYYYYY-…` from the year 10000 on. -/
def toISOChars (m : Moment) : List Char :=
  if m.year ≤ 9999 then FixedWidth.line (isoLayout 4) m.millisecond
  else '+' :: FixedWidth.line (isoLayout 6) m.millisecond

def toISOString (m : Moment) : String := String.ofList m.toISOChars

theorem milli_lt (m : Moment) : m.milli < 1000 := by
  unfold milli
  rw [Nat.floor_lt (by linarith [m.fraction_mem.1])]
  push_cast
  linarith [m.fraction_mem.2]

theorem daysInMonth_le (year month : ℕ) : daysInMonth year month ≤ 31 := by
  unfold daysInMonth
  split_ifs <;> decide

theorem one_le_daysInMonth (year month : ℕ) : 1 ≤ daysInMonth year month := by
  unfold daysInMonth
  split_ifs <;> decide

theorem fits {m : Moment} {width : ℕ} (h : m.year < 10 ^ width) :
    FixedWidth.Fits (isoLayout width) m.millisecond := by
  obtain ⟨-, -, hmonth, -, hday⟩ := m.date
  obtain ⟨hhour, hminute, hsecond⟩ := m.time
  have hday := hday.trans (daysInMonth_le m.year m.month)
  refine ⟨h, ?_, ?_, ?_, ?_, ?_, m.milli_lt, trivial⟩ <;> norm_num <;> omega

theorem millisecond_lt_iff {a b : Moment} :
    a.millisecond < b.millisecond ↔ a.civil < b.civil ∨ a.civil = b.civil ∧ a.milli < b.milli := by
  unfold millisecond
  have hlength : a.civil.length = b.civil.length := rfl
  rw [FixedWidth.append_lt_append_iff hlength, List.cons_lt_cons_iff]
  simp

/-- Up to the year 9999, and from the year 10000 on, the texts are ordered by the milliseconds. -/
theorem toISOChars_lt_iff {a b : Moment} (h : a.year ≤ 9999 ↔ b.year ≤ 9999) :
    a.toISOChars < b.toISOChars ↔ a.millisecond < b.millisecond := by
  unfold toISOChars
  by_cases ha : a.year ≤ 9999
  · rw [if_pos ha, if_pos (h.1 ha),
      FixedWidth.line_lt_line_iff (fits (by omega)) (fits (by have := h.1 ha; omega))]
  · rw [if_neg ha, if_neg (mt h.2 ha), List.cons_lt_cons_iff,
      FixedWidth.line_lt_line_iff (fits a.date.1) (fits b.date.1)]
    simp

theorem toISOChars_inj {a b : Moment} (h : a.year ≤ 9999 ↔ b.year ≤ 9999) :
    a.toISOChars = b.toISOChars ↔ a.millisecond = b.millisecond := by
  unfold toISOChars
  by_cases ha : a.year ≤ 9999
  · rw [if_pos ha, if_pos (h.1 ha)]
    exact ⟨FixedWidth.line_inj (fits (by omega)) (fits (by have := h.1 ha; omega)),
      fun heq => by rw [heq]⟩
  · rw [if_neg ha, if_neg (mt h.2 ha), List.cons.injEq]
    exact ⟨fun heq => FixedWidth.line_inj (fits a.date.1) (fits b.date.1) heq.2,
      fun heq => ⟨rfl, by rw [heq]⟩⟩

/-- A plus sign precedes the digits, so the text of a year from 10000 on precedes the others. -/
theorem toISOChars_lt_of_expanded {a b : Moment} (ha : 9999 < a.year) (hb : b.year ≤ 9999) :
    a.toISOChars < b.toISOChars := by
  have hsign : ∀ n < 10, '+' < Nat.digitChar n := by decide
  unfold toISOChars
  rw [if_neg (by omega), if_pos hb]
  exact List.cons_lt_cons_iff.2 (.inl (hsign _ (Nat.mod_lt _ (by decide))))

theorem toISOString_lt_iff {a b : Moment} (h : a.year ≤ 9999 ↔ b.year ≤ 9999) :
    a.toISOString < b.toISOString ↔ a.millisecond < b.millisecond := by
  rw [String.lt_iff_toList_lt, toISOString, toISOString, String.toList_ofList, String.toList_ofList,
    toISOChars_lt_iff h]

theorem toISOString_inj {a b : Moment} (h : a.year ≤ 9999 ↔ b.year ≤ 9999) :
    a.toISOString = b.toISOString ↔ a.millisecond = b.millisecond := by
  rw [← String.toList_inj, toISOString, toISOString, String.toList_ofList, String.toList_ofList,
    toISOChars_inj h]

theorem toISOString_lt_of_expanded {a b : Moment} (ha : 9999 < a.year) (hb : b.year ≤ 9999) :
    a.toISOString < b.toISOString := by
  rw [String.lt_iff_toList_lt, toISOString, toISOString, String.toList_ofList, String.toList_ofList]
  exact toISOChars_lt_of_expanded ha hb

theorem milli_le {a b : Moment} (h : a.fraction ≤ b.fraction) : a.milli ≤ b.milli :=
  Nat.floor_mono (by linarith)

/-- An earlier moment is in no later millisecond. -/
theorem not_millisecond_lt {a b : Moment} (h : a.key ≤ b.key) : ¬ b.millisecond < a.millisecond := by
  rw [millisecond_lt_iff]
  rcases Prod.Lex.le_iff.1 h with hlt | ⟨heq, hle⟩
  · rintro (hgt | ⟨heq, -⟩)
    · exact lt_asymm hlt hgt
    · exact hlt.ne heq.symm
  · rintro (hgt | ⟨-, hgt⟩)
    · exact hgt.ne heq.symm
    · exact absurd hgt (not_lt.2 (milli_le hle))

theorem year_le {a b : Moment} (h : a.key ≤ b.key) : a.year ≤ b.year := by
  by_contra hlt
  have hcivil : b.civil < a.civil := List.cons_lt_cons_iff.2 (.inl (not_le.1 hlt))
  rcases Prod.Lex.le_iff.1 h with hgt | ⟨heq, -⟩
  · exact lt_asymm hcivil hgt
  · exact hcivil.ne heq.symm

/-! ## Reading -/

/-- A number of `width` digits, and what follows it. -/
def readNumber (width : ℕ) (text : List Char) : Option (ℕ × List Char) :=
  let digits := text.take width
  if digits.length = width ∧ digits.all Char.isDigit then
    some (digits.foldl (fun n c => 10 * n + (c.toNat - 48)) 0, text.drop width)
  else none

/-- The fields of a layout, and what follows them. -/
def readFields : FixedWidth.Layout → List Char → Option (List ℕ × List Char)
  | [], text => some ([], text)
  | (width, stop) :: layout, text =>
    match readNumber width text with
    | some (n, c :: text) =>
      if c = stop then (readFields layout text).map fun found => (n :: found.1, found.2) else none
    | _ => none

/-- The fraction after the seconds, of any number of digits, and what follows it. -/
def readFraction : List Char → Option (ℚ × List Char)
  | '.' :: text =>
    let digits := text.takeWhile Char.isDigit
    if digits = [] then none
    else
      (readNumber digits.length text).map fun found =>
        ((found.1 : ℚ) / 10 ^ digits.length, found.2)
  | text => some (0, text)

/-- The seconds, which may be left out, and what follows them. -/
def readSeconds : List Char → Option (ℕ × ℚ × List Char)
  | ':' :: text => do
    let (second, text) ← readNumber 2 text
    let (fraction, text) ← readFraction text
    return (second, fraction, text)
  | text => some (0, 0, text)

/-- The moment with these fields, where there is one; midnight may be written as the hour 24 of the
day before. -/
def ofFields (year month day hour minute second : ℕ) (fraction : ℚ) : Option Moment :=
  if hfraction : 0 ≤ fraction ∧ fraction < 1 then
    if hdate : year < 1000000 ∧ 1 ≤ month ∧ month ≤ 12 ∧ 1 ≤ day ∧ day ≤ daysInMonth year month then
      if htime : hour < 24 ∧ minute < 60 ∧ second < 60 then
        some ⟨year, month, day, hour, minute, second, fraction, hdate, htime, hfraction⟩
      else if hour = 24 ∧ minute = 0 ∧ second = 0 ∧ fraction < 1 / 1000 then
        if hnext : day < daysInMonth year month then
          some ⟨year, month, day + 1, 0, 0, 0, fraction, by omega, by decide, hfraction⟩
        else if hmonth : month < 12 then
          some ⟨year, month + 1, 1, 0, 0, 0, fraction, by
            have := one_le_daysInMonth year (month + 1)
            omega, by decide, hfraction⟩
        else if hyear : year + 1 < 1000000 then
          some ⟨year + 1, 1, 1, 0, 0, 0, fraction, by
            have := one_le_daysInMonth (year + 1) 1
            omega, by decide, hfraction⟩
        else none
      else none
    else none
  else none

/-- The moment that a text of the form `YYYY-MM-DDTHH:mm`, with seconds and their fraction or without,
names at the offset zero. -/
def ofISOChars (text : List Char) : Option Moment := do
  let (fields, text) ← readFields [(4, '-'), (2, '-'), (2, 'T'), (2, ':')] text
  let (minute, text) ← readNumber 2 text
  let (second, fraction, zone) ← readSeconds text
  match fields with
  | [year, month, day, hour] =>
    if zone = ['Z'] ∨ zone = "+00:00".toList ∨ zone = "-00:00".toList then
      ofFields year month day hour minute second fraction
    else none
  | _ => none

example : (ofISOChars "9999-12-31T24:00Z".toList).map toISOString =
    some "+010000-01-01T00:00:00.000Z" := by decide +kernel

example : (ofISOChars "2026-09-18T10:00:00.123456+00:00".toList).map toISOString =
    some "2026-09-18T10:00:00.123Z" := by decide +kernel

end Moment

end Calendar
