import Mathlib.Data.List.Count
import QuantproCollector.Lib.FixedWidth

/-!
# Instants in milliseconds and their texts

An instant is a number of milliseconds since 1970-01-01. `toISOString` writes its date and its time of the
UTC calendar; each text has one point. Two such texts that are joined by two points are read back from the
joined text (`joinedByDots_inj`).
-/

namespace Calendar

namespace Instant

/-- The year, month and day of a number of days since 1970-01-01. The count is of the 400-year eras and of
the years that begin in March. -/
def civilOfDays (days : ℤ) : ℤ × ℤ × ℤ :=
  let shifted := days + 719468
  let era := shifted / 146097
  let dayOfEra := shifted % 146097
  let yearOfEra := (dayOfEra - dayOfEra / 1460 + dayOfEra / 36524 - dayOfEra / 146096) / 365
  let dayOfYear := dayOfEra - (365 * yearOfEra + yearOfEra / 4 - yearOfEra / 100)
  let fromMarch := (5 * dayOfYear + 2) / 153
  let day := dayOfYear - (153 * fromMarch + 2) / 5 + 1
  let month := if fromMarch < 10 then fromMarch + 3 else fromMarch - 9
  (yearOfEra + 400 * era + (if month ≤ 2 then 1 else 0), month, day)

/-- Four digits of a year up to 9999, and a sign and six digits of the others. -/
def yearChars (year : ℤ) : List Char :=
  if 0 ≤ year ∧ year ≤ 9999 then FixedWidth.pad 4 year.toNat
  else (if year < 0 then '-' else '+') :: FixedWidth.pad 6 year.natAbs

/-- `YYYY-MM-DD`. -/
def dateChars (t : ℤ) : List Char :=
  let date := civilOfDays (t / 86400000)
  yearChars date.1 ++ '-' :: FixedWidth.pad 2 date.2.1.toNat ++ '-' :: FixedWidth.pad 2 date.2.2.toNat

/-- `THH:mm:ss`. -/
def timeChars (t : ℤ) : List Char :=
  let ms := (t % 86400000).toNat
  'T' :: FixedWidth.pad 2 (ms / 3600000) ++ ':' :: FixedWidth.pad 2 (ms / 60000 % 60) ++
    ':' :: FixedWidth.pad 2 (ms / 1000 % 60)

def toISOChars (t : ℤ) : List Char :=
  dateChars t ++ timeChars t ++ '.' :: FixedWidth.pad 3 ((t % 1000).toNat) ++ ['Z']

/-- `new Date(t).toISOString()`. -/
def toISOString (t : ℤ) : String := String.ofList (toISOChars t)

example : toISOString 1790899200000 = "2026-10-02T00:00:00.000Z" := by decide

example : toISOString (-62198755200001) = "-000002-12-31T23:59:59.999Z" := by decide

/-- The largest time value of a date. -/
def maxTime : ℤ := 8640000000000000

/-! ## The points of a text -/

theorem count_pad (width n : ℕ) : (FixedWidth.pad width n).count '.' = 0 := by
  have hdigit : ∀ d < 10, Nat.digitChar d ≠ '.' := by decide
  induction width generalizing n with
  | zero => rfl
  | succ width ih =>
    have hne : (Nat.digitChar (n % 10) == '.') = false :=
      beq_eq_false_iff_ne.2 (hdigit _ (Nat.mod_lt n (by decide)))
    rw [FixedWidth.pad, List.count_append, ih, List.count_singleton, hne]
    rfl

theorem count_yearChars (year : ℤ) : (yearChars year).count '.' = 0 := by
  unfold yearChars
  split_ifs <;> simp [count_pad]

theorem count_toISOChars (t : ℤ) : (toISOChars t).count '.' = 1 := by
  simp [toISOChars, dateChars, timeChars, count_yearChars, count_pad]

theorem getLast?_toISOChars (t : ℤ) : (toISOChars t).getLast? = some 'Z' := by
  rw [toISOChars, List.getLast?_append]
  rfl

/-- A text begins with a digit or a sign. -/
theorem head?_toISOChars (t : ℤ) : (toISOChars t).head? ≠ some '.' := by
  have hyear : ∀ year, yearChars year ≠ [] := by
    intro year
    unfold yearChars
    split_ifs
    · exact List.ne_nil_of_length_pos (by rw [FixedWidth.length_pad]; decide)
    · exact List.cons_ne_nil _ _
    · exact List.cons_ne_nil _ _
  intro hhead
  obtain ⟨c, rest, hcons⟩ := List.exists_cons_of_ne_nil (hyear (civilOfDays (t / 86400000)).1)
  have hpoint : c = '.' := by
    simpa [toISOChars, dateChars, hcons] using hhead
  have hcount := count_yearChars (civilOfDays (t / 86400000)).1
  rw [hcons, hpoint, List.count_cons_self] at hcount
  cases hcount

/-- The two texts of a joined text. Another cut at two points would leave a text with two points of its
own, one that ends in a point, or one that begins with a point. -/
theorem joinedByDots_inj {a b c d : List Char} (ha : a.count '.' ≤ 1) (hlast : a.getLast? ≠ some '.')
    (hb : b.count '.' ≤ 1) (hhead : b.head? ≠ some '.')
    (h : c ++ '.' :: '.' :: d = a ++ '.' :: '.' :: b) : c = a ∧ d = b := by
  obtain ⟨e, rfl, hrest⟩ | ⟨e, rfl, hrest⟩ := List.append_eq_append_iff.1 h
  · match e with
    | [] => simpa using hrest
    | [x] =>
      simp only [List.cons_append, List.nil_append, List.cons.injEq] at hrest
      rw [← hrest.1] at hlast
      exact absurd List.getLast?_concat hlast
    | x :: y :: e =>
      simp only [List.cons_append, List.cons.injEq] at hrest
      rw [List.count_append, ← hrest.1, ← hrest.2.1, List.count_cons_self, List.count_cons_self] at ha
      omega
  · match e with
    | [] => simpa [eq_comm] using hrest
    | [x] =>
      simp only [List.cons_append, List.nil_append, List.cons.injEq] at hrest
      rw [hrest.2.2] at hhead
      exact absurd rfl hhead
    | x :: y :: e =>
      simp only [List.cons_append, List.cons.injEq] at hrest
      rw [hrest.2.2, List.count_append, List.count_cons_self, List.count_cons_self] at hb
      omega

end Instant

end Calendar
