import Mathlib.Algebra.Order.Field.Rat
import Mathlib.Algebra.Order.Ring.Abs
import Mathlib.Data.List.Sort
import Mathlib.Data.List.TakeWhile
import QuantproCollector.Lib.JsonNumber

/-!
# Floats in the canonical text

The producer of a record is Python, and the spelling of its floats takes part in the message id.
`pythonFloatJson` restores that spelling from the number; `floatRepr` is the `repr` of CPython. Both
start from the shortest digits that read back as the double, which the two languages share.

A finite double is given as these digits. The order of two doubles is that of their shortest decimals, and
in the range where `Number.isInteger` is asked a double is an integer where its shortest decimal is.
-/

namespace QuantproCollector.ResearchOutbound

open Decimal (digits layout)

/-- A finite double: the negative zero, or the decimal of its shortest digits. -/
inductive FiniteDouble where
  | negZero
  | decimal (x : Decimal)
deriving DecidableEq

/-! ## The spelling of the consumer -/

/-- Digits with the point after the first one. -/
def pointed : List Char → List Char
  | [] => []
  | [d] => [d]
  | d :: rest => d :: '.' :: rest

/-- `value.toExponential()`. -/
def toExponential (x : Decimal) : List Char :=
  let ds := digits x.mantissa.natAbs
  let e : ℤ := if x.mantissa = 0 then 0 else ds.length + x.exponent - 1
  (if x.mantissa < 0 then ['-'] else []) ++ pointed ds ++
    'e' :: (if e < 0 then '-' else '+') :: digits e.natAbs

/-- The first two parts of `text.split("e")`. -/
def splitAtE (text : List Char) : List Char × List Char :=
  (text.takeWhile (· ≠ 'e'), ((text.dropWhile (· ≠ 'e')).drop 1).takeWhile (· ≠ 'e'))

/-- `Number(text)` of a signed integer. -/
def numberOfText : List Char → ℤ
  | '-' :: ds => -(Nat.ofDigitChars 10 ds 0 : ℤ)
  | '+' :: ds => Nat.ofDigitChars 10 ds 0
  | ds => Nat.ofDigitChars 10 ds 0

/-- `text.padStart(2, "0")`. -/
def padStartTwo (text : List Char) : List Char :=
  List.replicate (2 - text.length) '0' ++ text

/-- `JSON.stringify(value)` and the text of a template. -/
def FiniteDouble.text : FiniteDouble → List Char
  | negZero => ['0']
  | decimal x => x.text

def pythonFloatJson : FiniteDouble → List Char
  | .negZero => ['-', '0', '.', '0']
  | .decimal x =>
    let absolute := |x.value|
    if absolute ≠ 0 ∧ (absolute < 1 / 10 ^ 4 ∨ 10 ^ 16 ≤ absolute) then
      let (mantissa, rawExponent) := splitAtE (toExponential x)
      let exponent := numberOfText rawExponent
      let sign := if exponent < 0 then '-' else '+'
      mantissa ++ 'e' :: sign :: padStartTwo (digits exponent.natAbs)
    else if x.isInteger then x.text ++ ['.', '0']
    else x.text

/-! ## The spelling of the producer -/

/-- `repr` of a positive float with the digits `ds` and the point after `decpt` of them: scientific from
`10 ^ 16` on and below `10 ^ (-4)`, with a sign and two digits of the exponent at least, and positional
with a digit after the point otherwise. -/
def reprDigits (ds : List Char) (decpt : ℤ) : List Char :=
  if decpt ≤ -4 ∨ 16 < decpt then
    let exp := decpt - 1
    pointed ds ++ 'e' :: (if exp < 0 then '-' else '+') :: padStartTwo (digits exp.natAbs)
  else if decpt ≤ 0 then '0' :: '.' :: List.replicate (-decpt).toNat '0' ++ ds
  else if decpt < ds.length then ds.take decpt.toNat ++ '.' :: ds.drop decpt.toNat
  else ds ++ List.replicate (decpt - ds.length).toNat '0' ++ ['.', '0']

/-- CPython's `repr` of a float. -/
def floatRepr : FiniteDouble → List Char
  | .negZero => '-' :: reprDigits ['0'] 1
  | .decimal x =>
    let ds := digits x.mantissa.natAbs
    (if x.mantissa < 0 then ['-'] else []) ++ reprDigits ds (ds.length + x.exponent)

/-! ## The magnitude and the position of the point -/

section Magnitude

variable {x : Decimal}

/-- The power of ten above the number: the position of the point from the first digit on. -/
def pointAt (x : Decimal) : ℤ := (digits x.mantissa.natAbs).length + x.exponent

theorem abs_value (x : Decimal) : |x.value| = x.mantissa.natAbs * (10 : ℚ) ^ x.exponent := by
  have hpow : (0 : ℚ) < 10 ^ x.exponent := zpow_pos (by norm_num) _
  rw [Decimal.value, abs_mul, abs_of_pos hpow, Nat.cast_natAbs, Int.cast_abs]

theorem digits_length_pos (n : ℕ) : 0 < (digits n).length :=
  List.length_pos_iff.2 Nat.toDigits_ne_nil

theorem lt_pow_digits (n : ℕ) : n < 10 ^ (digits n).length :=
  (Nat.length_toDigits_le_iff (by decide) (digits_length_pos n)).1 le_rfl

theorem pow_digits_le {n : ℕ} (hn : n ≠ 0) : 10 ^ ((digits n).length - 1) ≤ n := by
  by_contra hlt
  have hpos := digits_length_pos n
  obtain hone | hmore := Nat.eq_zero_or_pos ((digits n).length - 1)
  · rw [hone] at hlt
    omega
  · have hle := (Nat.length_toDigits_le_iff (by decide) hmore).2 (not_le.1 hlt)
    change (digits n).length ≤ _ at hle
    omega

theorem abs_value_lt (x : Decimal) : |x.value| < (10 : ℚ) ^ pointAt x := by
  have hpow : (0 : ℚ) < 10 ^ x.exponent := zpow_pos (by norm_num) _
  rw [abs_value, pointAt, zpow_add₀ (by norm_num), zpow_natCast]
  refine mul_lt_mul_of_pos_right ?_ hpow
  exact_mod_cast lt_pow_digits x.mantissa.natAbs

theorem le_abs_value (hx : x.mantissa ≠ 0) : (10 : ℚ) ^ (pointAt x - 1) ≤ |x.value| := by
  have hpow : (0 : ℚ) < 10 ^ x.exponent := zpow_pos (by norm_num) _
  have hpos := digits_length_pos x.mantissa.natAbs
  have hsplit : pointAt x - 1 = ((digits x.mantissa.natAbs).length - 1 : ℕ) + x.exponent := by
    rw [pointAt]
    omega
  rw [abs_value, hsplit, zpow_add₀ (by norm_num), zpow_natCast]
  refine mul_le_mul_of_nonneg_right ?_ hpow.le
  exact_mod_cast pow_digits_le (Int.natAbs_ne_zero.2 hx)

/-- The magnitude of a number against a power of ten is the position of its point. -/
theorem abs_value_lt_iff (hx : x.mantissa ≠ 0) (n : ℤ) : |x.value| < (10 : ℚ) ^ n ↔ pointAt x ≤ n := by
  constructor
  · intro h
    have hpow := (le_abs_value hx).trans_lt h
    have := (zpow_lt_zpow_iff_right₀ (by norm_num : (1 : ℚ) < 10)).1 hpow
    omega
  · intro h
    exact (abs_value_lt x).trans_le (zpow_le_zpow_right₀ (by norm_num) h)

/-- The guard of the scientific branch is CPython's. -/
theorem scientific_iff (hx : x.mantissa ≠ 0) :
    (|x.value| ≠ 0 ∧ (|x.value| < 1 / 10 ^ 4 ∨ 10 ^ 16 ≤ |x.value|)) ↔
      pointAt x ≤ -4 ∨ 16 < pointAt x := by
  have hne : |x.value| ≠ 0 := by
    have hpow : (0 : ℚ) < 10 ^ (pointAt x - 1) := zpow_pos (by norm_num) _
    exact (hpow.trans_le (le_abs_value hx)).ne'
  have hsmall : (1 / 10 ^ 4 : ℚ) = 10 ^ (-4 : ℤ) := by norm_num
  have hlarge : (10 ^ 16 : ℚ) ≤ |x.value| ↔ 16 < pointAt x := by
    have hbound : (10 ^ 16 : ℚ) = 10 ^ (16 : ℤ) := by norm_num
    rw [hbound, ← not_lt, abs_value_lt_iff hx, not_le]
  rw [hsmall, hlarge, abs_value_lt_iff hx]
  exact and_iff_right hne

end Magnitude

/-! ## The two spellings agree -/

theorem ne_e_of_digit {c : Char} (h : c.isDigit = true) : c ≠ 'e' := by
  rintro rfl
  revert h
  decide

theorem digits_ne_e (n : ℕ) : ∀ c ∈ digits n, c ≠ 'e' := fun _ hc =>
  ne_e_of_digit (Nat.isDigit_of_mem_toDigits (by decide) (by decide) hc)

theorem pointed_ne_e {ds : List Char} (h : ∀ c ∈ ds, c ≠ 'e') : ∀ c ∈ pointed ds, c ≠ 'e' := by
  match ds with
  | [] => exact h
  | [d] => exact h
  | d :: e :: rest =>
    intro c hc
    obtain rfl | hc := List.mem_cons.1 hc
    · exact h _ List.mem_cons_self
    · obtain rfl | hc := List.mem_cons.1 hc
      · decide
      · exact h c (List.mem_cons_of_mem d hc)

/-- A text is split at its only `e`. -/
theorem splitAtE_append {a b : List Char} (ha : ∀ c ∈ a, c ≠ 'e') (hb : ∀ c ∈ b, c ≠ 'e') :
    splitAtE (a ++ 'e' :: b) = (a, b) := by
  have hkeep : ∀ c ∈ a, (decide (c ≠ 'e')) = true := fun c hc => decide_eq_true (ha c hc)
  have hall : b.takeWhile (· ≠ 'e') = b :=
    List.takeWhile_eq_self_iff.2 fun c hc => decide_eq_true (hb c hc)
  have htake : (a ++ 'e' :: b).takeWhile (· ≠ 'e') = a := by
    rw [List.takeWhile_append_of_pos hkeep, List.takeWhile_cons_of_neg (by decide), List.append_nil]
  have hdrop : (a ++ 'e' :: b).dropWhile (· ≠ 'e') = 'e' :: b := by
    rw [List.dropWhile_append_of_pos hkeep, List.dropWhile_cons_of_neg (by decide)]
  rw [splitAtE, htake, hdrop, List.drop_one, List.tail_cons, hall]

/-- The exponent that `toExponential` writes is read back. -/
theorem numberOfText_signed (e : ℤ) :
    numberOfText ((if e < 0 then '-' else '+') :: digits e.natAbs) = e := by
  split_ifs with he
  · rw [numberOfText, digits, Nat.ofDigitChars_ten_toDigits]
    omega
  · rw [numberOfText, digits, Nat.ofDigitChars_ten_toDigits]
    omega

theorem splitAtE_toExponential {x : Decimal} (hx : x.mantissa ≠ 0) :
    splitAtE (toExponential x) =
      ((if x.mantissa < 0 then ['-'] else []) ++ pointed (digits x.mantissa.natAbs),
        (if pointAt x - 1 < 0 then '-' else '+') :: digits (pointAt x - 1).natAbs) := by
  have hform : toExponential x =
      ((if x.mantissa < 0 then ['-'] else []) ++ pointed (digits x.mantissa.natAbs)) ++
        'e' :: (if pointAt x - 1 < 0 then '-' else '+') :: digits (pointAt x - 1).natAbs := by
    simp only [toExponential, if_neg hx, pointAt]
    rfl
  rw [hform]
  refine splitAtE_append (fun c hc => ?_) fun c hc => ?_
  · obtain hc | hc := List.mem_append.1 hc
    · split_ifs at hc
      · obtain rfl := List.mem_singleton.1 hc
        decide
      · cases hc
    · exact pointed_ne_e (digits_ne_e _) c hc
  · obtain rfl | hc := List.mem_cons.1 hc
    · split_ifs <;> decide
    · exact digits_ne_e _ c hc

/-- Between the bounds the text of ECMAScript is positional, and only lacks the digit after the point of
an integer. -/
theorem layout_eq_reprDigits {x : Decimal} (hlow : -4 < pointAt x) (hhigh : pointAt x ≤ 16) :
    layout (digits x.mantissa.natAbs) (pointAt x) ++ (if x.isInteger then ['.', '0'] else []) =
      reprDigits (digits x.mantissa.natAbs) (pointAt x) := by
  have hpos := digits_length_pos x.mantissa.natAbs
  have hpoint : pointAt x = (digits x.mantissa.natAbs).length + x.exponent := rfl
  simp only [layout, reprDigits]
  rw [if_neg (show ¬ (pointAt x ≤ -4 ∨ 16 < pointAt x) by omega)]
  by_cases hint : 0 ≤ x.exponent
  · have hinteger : x.isInteger = true := decide_eq_true hint
    rw [hinteger, if_pos (by omega), if_pos rfl, if_neg (by omega), if_neg (by omega)]
  · have hinteger : x.isInteger = false := decide_eq_false hint
    rw [hinteger, if_neg (by omega), if_neg Bool.false_ne_true, List.append_nil]
    by_cases hfront : 0 < pointAt x
    · rw [if_pos (by omega), if_neg (by omega), if_pos (by omega)]
    · rw [if_neg (by omega), if_pos (by omega), if_pos (by omega)]

theorem floatRepr_decimal (x : Decimal) : floatRepr (.decimal x) =
    (if x.mantissa < 0 then ['-'] else []) ++ reprDigits (digits x.mantissa.natAbs) (pointAt x) := rfl

/-- Every finite double is spelled as CPython spells it. -/
theorem pythonFloatJson_eq_floatRepr (value : FiniteDouble) : pythonFloatJson value = floatRepr value := by
  cases value with
  | negZero => rfl
  | decimal x =>
    by_cases hx : x.mantissa = 0
    · obtain ⟨-, hexponent⟩ | hreduced := x.reduced
      · have hzero : x.value = 0 := by rw [Decimal.value, hx, Int.cast_zero, zero_mul]
        have hinteger : x.isInteger = true := decide_eq_true hexponent.ge
        simp only [pythonFloatJson, floatRepr, hzero, hinteger, abs_zero, Decimal.text, hx, hexponent]
        rfl
      · rw [hx] at hreduced
        exact absurd rfl hreduced
    · rw [floatRepr_decimal]
      by_cases hscientific : pointAt x ≤ -4 ∨ 16 < pointAt x
      · rw [pythonFloatJson, if_pos ((scientific_iff hx).2 hscientific), splitAtE_toExponential hx,
          reprDigits, if_pos hscientific]
        simp only [numberOfText_signed, List.append_assoc]
      · rw [pythonFloatJson, if_neg (mt (scientific_iff hx).1 hscientific),
          ← layout_eq_reprDigits (by omega) (by omega), Decimal.text, if_neg hx]
        split_ifs <;> simp [pointAt]

/-! ## The canonical text -/

/-- What `JSON.parse` gives, with its numbers as doubles. The keys of a record are distinct. -/
inductive Value where
  | null
  | bool (b : Bool)
  | number (value : FiniteDouble)
  | string (s : String)
  | array (items : List Value)
  | record (fields : List (String × Value))

def marketSignalWindows : List String := ["1D", "3D", "5D", "10D"]

def PYTHON_FLOAT_PATHS : List String :=
  ["confidence", "claim.extraction_confidence", "total_weight"] ++
    marketSignalWindows.flatMap (fun window =>
      ["returns." ++ window ++ ".subject_return", "returns." ++ window ++ ".primary_benchmark_return",
        "returns." ++ window ++ ".secondary_benchmark_return",
        "relative_strength.primary_pct_points." ++ window,
        "relative_strength.secondary_pct_points." ++ window]) ++
    ["volume_price_structure.up_volume_ratio_5d", "volume_price_structure.pullback_volume_ratio_5d"]

/-- `texts.join(",")`. -/
def commaJoined (texts : List (List Char)) : List Char :=
  [','].intercalate texts

/-- The members of a record in the order of their keys. -/
def sortedMembers (members : List (String × List Char)) : List Char :=
  commaJoined ((members.insertionSort fun a b => Json.keyLe a.1 b.1).map fun member =>
    Json.quote member.1 ++ ':' :: member.2)

section Canonical

variable (spelling : FiniteDouble → List Char)

mutual

/-- `canonicalJson`, with the spelling of the floats at the listed paths. -/
def canonicalJsonWith (path : List String) : Value → List Char
  | .null => ['n', 'u', 'l', 'l']
  | .bool true => ['t', 'r', 'u', 'e']
  | .bool false => ['f', 'a', 'l', 's', 'e']
  | .number value => if ".".intercalate path ∈ PYTHON_FLOAT_PATHS then spelling value else value.text
  | .string s => Json.quote s
  | .array items => '[' :: commaJoined (canonicalItems path items) ++ [']']
  | .record fields => '\x7b' :: sortedMembers (canonicalMembers path fields) ++ ['\x7d']

def canonicalItems (path : List String) : List Value → List (List Char)
  | [] => []
  | item :: items => canonicalJsonWith path item :: canonicalItems path items

def canonicalMembers (path : List String) : List (String × Value) → List (String × List Char)
  | [] => []
  | (key, value) :: fields =>
    (key, canonicalJsonWith (path ++ [key]) value) :: canonicalMembers path fields

end

end Canonical

def canonicalJson (path : List String) (value : Value) : List Char :=
  canonicalJsonWith pythonFloatJson path value

/-- The two spellings are one, and so are the canonical texts that are hashed with them. -/
theorem canonical_float_spelling :
    (∀ value, pythonFloatJson value = floatRepr value) ∧
      ∀ path value, canonicalJson path value = canonicalJsonWith floatRepr path value := by
  have hspelling : pythonFloatJson = floatRepr := by
    funext value
    exact pythonFloatJson_eq_floatRepr value
  refine ⟨pythonFloatJson_eq_floatRepr, fun path value => ?_⟩
  rw [canonicalJson, hspelling]

end QuantproCollector.ResearchOutbound
