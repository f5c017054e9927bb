import Mathlib.Data.List.Sort
import Mathlib.Data.Nat.Digits.Defs
import Mathlib.Data.Rat.Cast.Defs

/-!
# JSON values

The values that `JSON.parse` produces and `JSON.stringify` writes: numbers as exact decimals, object
fields in their order of insertion. Text is measured and ordered in UTF-16 code units, as ECMAScript
does.

* `Json.stringify` is the compact serialisation; `Json.canonicalize` sorts every object's fields by
  key. `Json.canonicalText` is the text of the sorted value; `Json.rebuiltText` is that of an object
  built anew with sorted keys, in which array indices come before other keys.
-/

/-! ## Text in UTF-16 code units -/

namespace Utf16

/-- The code units of one character. -/
def ofChar (c : Char) : List ℕ :=
  if c.toNat < 0x10000 then [c.toNat]
  else [0xD800 + (c.toNat - 0x10000) / 0x400, 0xDC00 + (c.toNat - 0x10000) % 0x400]

/-- The code units of a text. -/
def units (s : String) : List ℕ :=
  s.toList.flatMap ofChar

/-- `s.length` of ECMAScript. -/
def length (s : String) : ℕ :=
  (units s).length

/-- The order of `Array.prototype.sort` on texts. -/
def le : List ℕ → List ℕ → Bool
  | [], _ => true
  | _ :: _, [] => false
  | a :: as, b :: bs => decide (a < b) || (decide (a = b) && le as bs)

theorem le_total (as bs : List ℕ) : le as bs = true ∨ le bs as = true := by
  induction as generalizing bs with
  | nil => exact .inl rfl
  | cons a as ih =>
    cases bs with
    | nil => exact .inr rfl
    | cons b bs =>
      rcases lt_trichotomy a b with h | rfl | h
      · simp [le, h]
      · simpa [le] using ih bs
      · simp [le, h]

theorem le_trans {as bs cs : List ℕ} (hab : le as bs = true) (hbc : le bs cs = true) :
    le as cs = true := by
  induction as generalizing bs cs with
  | nil => rfl
  | cons a as ih =>
    obtain _ | ⟨b, bs⟩ := bs
    · simp [le] at hab
    obtain _ | ⟨c, cs⟩ := cs
    · simp [le] at hbc
    simp only [le, Bool.or_eq_true, Bool.and_eq_true, decide_eq_true_eq] at hab hbc ⊢
    rcases hab with hab | ⟨rfl, hab⟩ <;> rcases hbc with hbc | ⟨rfl, hbc⟩
    · exact .inl (hab.trans hbc)
    · exact .inl hab
    · exact .inl hbc
    · exact .inr ⟨rfl, ih hab hbc⟩

theorem le_antisymm {as bs : List ℕ} (hab : le as bs = true) (hba : le bs as = true) :
    as = bs := by
  induction as generalizing bs with
  | nil =>
    cases bs with
    | nil => rfl
    | cons b bs => simp [le] at hba
  | cons a as ih =>
    obtain _ | ⟨b, bs⟩ := bs
    · simp [le] at hab
    simp only [le, Bool.or_eq_true, Bool.and_eq_true, decide_eq_true_eq] at hab hba
    have hne : a = b := by omega
    subst hne
    simp only [lt_irrefl, false_or, true_and] at hab hba
    rw [ih hab hba]

/-- A first unit outside the surrogates is a character by itself, a high surrogate is the first
half of one. -/
theorem ofChar_append_inj {a b : Char} {as bs : List ℕ} (h : ofChar a ++ as = ofChar b ++ bs) :
    a = b ∧ as = bs := by
  have hval : ∀ c : Char, c.toNat < 0xD800 ∨ 0xDFFF < c.toNat ∧ c.toNat < 0x110000 := fun c => c.valid
  have ha := hval a
  have hb := hval b
  unfold ofChar at h
  split_ifs at h with h1 h2 h2
  · simp only [List.cons_append, List.nil_append, List.cons.injEq] at h
    exact ⟨Char.toNat_inj.1 h.1, h.2⟩
  · simp only [List.cons_append, List.nil_append, List.cons.injEq] at h
    omega
  · simp only [List.cons_append, List.nil_append, List.cons.injEq] at h
    omega
  · simp only [List.cons_append, List.nil_append, List.cons.injEq] at h
    exact ⟨Char.toNat_inj.1 (by omega), h.2.2⟩

theorem ofChar_ne_nil (c : Char) : ofChar c ≠ [] := by
  unfold ofChar
  split_ifs <;> simp

theorem flatMap_ofChar_injective {as bs : List Char} (h : as.flatMap ofChar = bs.flatMap ofChar) :
    as = bs := by
  induction as generalizing bs with
  | nil =>
    cases bs with
    | nil => rfl
    | cons b bs =>
      exact absurd (List.append_eq_nil_iff.1 (h.symm.trans List.flatMap_nil)).1 (ofChar_ne_nil b)
  | cons a as ih =>
    cases bs with
    | nil => exact absurd (List.append_eq_nil_iff.1 h).1 (ofChar_ne_nil a)
    | cons b bs =>
      obtain ⟨rfl, hrest⟩ := ofChar_append_inj h
      rw [ih hrest]

/-- The units give the text back. -/
theorem units_injective {s t : String} (h : units s = units t) : s = t :=
  String.toList_inj.1 (flatMap_ofChar_injective h)

end Utf16

/-- The bytes of a text under `TextEncoder`. -/
def utf8Length (s : String) : ℕ :=
  (s.toList.map Char.utf8Size).sum

/-! ## Numbers -/

/-- A finite decimal `mantissa · 10 ^ exponent` with no trailing zero in the mantissa. -/
structure Decimal where
  mantissa : ℤ
  exponent : ℤ
  reduced : mantissa = 0 ∧ exponent = 0 ∨ mantissa % 10 ≠ 0
deriving DecidableEq

namespace Decimal

/-- Strip at most `fuel` trailing zeros. -/
def strip : ℕ → ℤ → ℤ → ℤ × ℤ
  | 0, m, e => (m, e)
  | fuel + 1, m, e => if m % 10 = 0 then strip fuel (m / 10) (e + 1) else (m, e)

/-- The reduced form of `m · 10 ^ e`. -/
def ofParts (m e : ℤ) : Decimal :=
  if h : (strip m.natAbs m e).1 % 10 ≠ 0 then
    ⟨(strip m.natAbs m e).1, (strip m.natAbs m e).2, .inr h⟩
  else ⟨0, 0, .inl ⟨rfl, rfl⟩⟩

/-- An integer as a number. -/
def ofInt (n : ℤ) : Decimal := ofParts n 0

/-- The number itself. -/
def value (x : Decimal) : ℚ := x.mantissa * (10 : ℚ) ^ x.exponent

/-- `Math.trunc`. -/
def trunc (x : Decimal) : ℤ := Int.tdiv x.value.num x.value.den

theorem strip_value (fuel : ℕ) (m e : ℤ) :
    ((strip fuel m e).1 : ℚ) * (10 : ℚ) ^ (strip fuel m e).2 = m * (10 : ℚ) ^ e := by
  induction fuel generalizing m e with
  | zero => rfl
  | succ fuel ih =>
    unfold strip
    split_ifs with h
    · have hm : m = m / 10 * 10 := by omega
      rw [ih, zpow_add₀ (by norm_num), zpow_one]
      calc ((m / 10 : ℤ) : ℚ) * (10 ^ e * 10) = ((m / 10 * 10 : ℤ) : ℚ) * 10 ^ e := by
            push_cast
            ring
        _ = m * 10 ^ e := by rw [← hm]
    · rfl

theorem strip_eq_zero {fuel : ℕ} {m e : ℤ} (hfuel : m.natAbs ≤ fuel)
    (h : (strip fuel m e).1 % 10 = 0) : m = 0 := by
  induction fuel generalizing m e with
  | zero => omega
  | succ fuel ih =>
    unfold strip at h
    split_ifs at h with hm
    · have := ih (by omega) h
      omega
    · exact absurd h hm

theorem value_ofParts (m e : ℤ) : (ofParts m e).value = m * (10 : ℚ) ^ e := by
  unfold ofParts value
  split_ifs with h
  · exact strip_value m.natAbs m e
  · simp [strip_eq_zero le_rfl (not_not.1 h)]

@[simp] theorem trunc_ofInt (n : ℤ) : (ofInt n).trunc = n := by
  have h : (ofInt n).value = n := by simp [ofInt, value_ofParts]
  simp [trunc, h]

/-- `Number.isInteger`. -/
def isInteger (x : Decimal) : Bool := decide (0 ≤ x.exponent)

def isNeg (x : Decimal) : Bool := decide (x.mantissa < 0)

/-- The value of an integer; the integral part is not needed elsewhere. -/
def toInt (x : Decimal) : ℤ := x.mantissa * 10 ^ x.exponent.toNat

/-- The decimal digits of a natural number. -/
def digits (n : ℕ) : List Char := Nat.toDigits 10 n

/-- `Number::toString` of ECMAScript, from the digits and the position `n` of the point. -/
def layout (ds : List Char) (n : ℤ) : List Char :=
  let k : ℤ := ds.length
  if k ≤ n ∧ n ≤ 21 then ds ++ List.replicate (n - k).toNat '0'
  else if 0 < n ∧ n ≤ 21 then ds.take n.toNat ++ '.' :: ds.drop n.toNat
  else if -6 < n ∧ n ≤ 0 then '0' :: '.' :: List.replicate (-n).toNat '0' ++ ds
  else
    let e := n - 1
    let sign := if e < 0 then '-' else '+'
    let head := match ds with
      | [] => []
      | [d] => [d]
      | d :: rest => d :: '.' :: rest
    head ++ 'e' :: sign :: digits e.natAbs

/-- The text of a number. -/
def text (x : Decimal) : List Char :=
  if x.mantissa = 0 then ['0']
  else
    let ds := digits x.mantissa.natAbs
    (if x.mantissa < 0 then ['-'] else []) ++ layout ds (ds.length + x.exponent)

theorem layout_ne_nil {ds : List Char} (hds : ds ≠ []) (n : ℤ) : layout ds n ≠ [] := by
  unfold layout
  dsimp only
  split_ifs <;> simp [hds]

theorem text_ne_nil (x : Decimal) : x.text ≠ [] := by
  have hds : digits x.mantissa.natAbs ≠ [] := Nat.toDigits_ne_nil
  unfold text
  split_ifs
  · exact List.cons_ne_nil _ _
  · exact List.cons_ne_nil _ _
  · exact layout_ne_nil hds _

end Decimal

/-! ## Values -/

/-- A JSON value; the keys of an object are distinct, in order of insertion. -/
inductive Json where
  | null
  | bool (b : Bool)
  | num (x : Decimal)
  | str (s : String)
  | arr (xs : List Json)
  | obj (fields : List (String × Json))
deriving Inhabited

namespace Json

/-! ### Equality -/

mutual

def beq : Json → Json → Bool
  | null, null => true
  | bool a, bool b => a == b
  | num x, num y => decide (x = y)
  | str s, str t => decide (s = t)
  | arr xs, arr ys => beqElements xs ys
  | obj fs, obj gs => beqFields fs gs
  | _, _ => false

def beqElements : List Json → List Json → Bool
  | [], [] => true
  | x :: xs, y :: ys => beq x y && beqElements xs ys
  | _, _ => false

def beqFields : List (String × Json) → List (String × Json) → Bool
  | [], [] => true
  | (k, x) :: fs, (l, y) :: gs => decide (k = l) && beq x y && beqFields fs gs
  | _, _ => false

end

mutual

theorem beq_self : ∀ v : Json, beq v v = true
  | null => rfl
  | bool b => by simp [beq]
  | num x => by simp [beq]
  | str s => by simp [beq]
  | arr xs => beqElements_self xs
  | obj fs => beqFields_self fs

theorem beqElements_self : ∀ xs : List Json, beqElements xs xs = true
  | [] => rfl
  | x :: xs => by simp [beqElements, beq_self x, beqElements_self xs]

theorem beqFields_self : ∀ fs : List (String × Json), beqFields fs fs = true
  | [] => rfl
  | (k, x) :: fs => by simp [beqFields, beq_self x, beqFields_self fs]

end

mutual

theorem eq_of_beq : ∀ v w : Json, beq v w = true → v = w
  | null, w, h => by cases w <;> simp_all [beq]
  | bool b, w, h => by cases w <;> simp_all [beq]
  | num x, w, h => by cases w <;> simp_all [beq]
  | str s, w, h => by cases w <;> simp_all [beq]
  | arr xs, w, h => by
    cases w with
    | arr ys => rw [eq_of_beqElements xs ys (by simpa [beq] using h)]
    | _ => simp [beq] at h
  | obj fs, w, h => by
    cases w with
    | obj gs => rw [eq_of_beqFields fs gs (by simpa [beq] using h)]
    | _ => simp [beq] at h

theorem eq_of_beqElements : ∀ xs ys : List Json, beqElements xs ys = true → xs = ys
  | [], ys, h => by cases ys <;> simp_all [beqElements]
  | x :: xs, ys, h => by
    cases ys with
    | nil => simp [beqElements] at h
    | cons y ys =>
      simp only [beqElements, Bool.and_eq_true] at h
      rw [eq_of_beq x y h.1, eq_of_beqElements xs ys h.2]

theorem eq_of_beqFields : ∀ fs gs : List (String × Json), beqFields fs gs = true → fs = gs
  | [], gs, h => by cases gs <;> simp_all [beqFields]
  | (k, x) :: fs, gs, h => by
    cases gs with
    | nil => simp [beqFields] at h
    | cons g gs =>
      obtain ⟨l, y⟩ := g
      simp only [beqFields, Bool.and_eq_true, decide_eq_true_eq] at h
      rw [h.1.1, eq_of_beq x y h.1.2, eq_of_beqFields fs gs h.2]

end

instance : DecidableEq Json := fun v w =>
  decidable_of_iff (beq v w = true) ⟨eq_of_beq v w, fun h => h ▸ beq_self v⟩

/-- The value of a key of an object. -/
def get? : Json → String → Option Json
  | obj fields, k => fields.lookup k
  | _, _ => none

/-- The keys of an object. -/
def keys : Json → List String
  | obj fields => fields.map Prod.fst
  | _ => []

/-- The text of a JSON string value. -/
def str? : Json → Option String
  | str s => some s
  | _ => none

/-! ### Serialisation -/

def hexDigit (n : ℕ) : Char :=
  ("0123456789abcdef".toList)[n]?.getD '0'

/-- One character inside a JSON text (`QuoteJSONString`). -/
def escape (c : Char) : List Char :=
  if c = '"' then ['\\', '"']
  else if c = '\\' then ['\\', '\\']
  else if c.toNat = 8 then ['\\', 'b']
  else if c.toNat = 12 then ['\\', 'f']
  else if c = '\n' then ['\\', 'n']
  else if c = '\r' then ['\\', 'r']
  else if c = '\t' then ['\\', 't']
  else if c.toNat < 0x20 then
    ['\\', 'u', '0', '0', hexDigit (c.toNat / 16), hexDigit (c.toNat % 16)]
  else [c]

def quote (s : String) : List Char :=
  '"' :: s.toList.flatMap escape ++ ['"']

mutual

/-- The characters of `JSON.stringify`. -/
def chars : Json → List Char
  | null => "null".toList
  | bool true => "true".toList
  | bool false => "false".toList
  | num x => x.text
  | str s => quote s
  | arr xs => '[' :: elements xs ++ [']']
  | obj fields => '{' :: members fields ++ ['}']

/-- Array elements, separated by commas. -/
def elements : List Json → List Char
  | [] => []
  | [x] => x.chars
  | x :: y :: xs => x.chars ++ ',' :: elements (y :: xs)

/-- Object members, separated by commas. -/
def members : List (String × Json) → List Char
  | [] => []
  | [(k, x)] => quote k ++ ':' :: x.chars
  | (k, x) :: m :: ms => quote k ++ ':' :: x.chars ++ ',' :: members (m :: ms)

end

/-- `JSON.stringify(value)`. -/
def stringify (v : Json) : String :=
  String.ofList v.chars

mutual

/-- The characters of `String(value)`. -/
def textChars : Json → List Char
  | null => "null".toList
  | bool true => "true".toList
  | bool false => "false".toList
  | num x => x.text
  | str s => s.toList
  | arr xs => joined xs
  | obj _ => "[object Object]".toList

/-- `xs.join(",")`, where `null` leaves nothing. -/
def joined : List Json → List Char
  | [] => []
  | [null] => []
  | [x] => x.textChars
  | null :: y :: xs => ',' :: joined (y :: xs)
  | x :: y :: xs => x.textChars ++ ',' :: joined (y :: xs)

end

/-- `String(value)`. -/
def text (v : Json) : String :=
  String.ofList v.textChars

/-! ### Canonical form -/

/-- The order of two keys under `sort()`. -/
def keyLe (a b : String) : Bool :=
  Utf16.le (Utf16.units a) (Utf16.units b)

/-- The array index that a key spells, if it spells one. -/
def arrayIndex? (k : String) : Option ℕ :=
  let ds := k.toList
  let n := ds.foldl (fun n c => n * 10 + (c.toNat - '0'.toNat)) 0
  if ds ≠ [] ∧ ds.all Char.isDigit = true ∧ (ds = ['0'] ∨ ds.head? ≠ some '0') ∧ n < 2 ^ 32 - 1 then
    some n
  else none

/-- The order of two properties of an object whose keys were added in sorted order: array indices
come first, by their value. -/
def propertyLe (a b : String) : Bool :=
  match arrayIndex? a, arrayIndex? b with
  | some m, some n => decide (m ≤ n)
  | some _, none => true
  | none, some _ => false
  | none, none => keyLe a b

/-- Fields in the order of their keys. -/
def sortFields (le : String → String → Bool) (fields : List (String × Json)) :
    List (String × Json) :=
  fields.insertionSort fun a b => le a.1 b.1 = true

section Canonicalize

variable (le : String → String → Bool)

mutual

/-- Every object's fields sorted by key, at every depth. -/
def canonicalize : Json → Json
  | arr xs => arr (canonicalizeElements xs)
  | obj fields => obj (sortFields le (canonicalizeFields fields))
  | v => v

def canonicalizeElements : List Json → List Json
  | [] => []
  | x :: xs => x.canonicalize :: canonicalizeElements xs

def canonicalizeFields : List (String × Json) → List (String × Json)
  | [] => []
  | (k, x) :: fs => (k, x.canonicalize) :: canonicalizeFields fs

end

end Canonicalize

/-- The serialisation of the value with sorted keys, written key by key. -/
def canonicalText (v : Json) : String :=
  (v.canonicalize keyLe).stringify

/-- `JSON.stringify` of the object rebuilt with sorted keys. -/
def rebuiltText (v : Json) : String :=
  (v.canonicalize propertyLe).stringify

end Json

example : (Json.obj [("b", .num (.ofInt (-120))), ("a", .arr [.str "x\"y", .null])]).canonicalText =
    "\x7b\"a\":[\"x\\\"y\",null],\"b\":-120\x7d" := by decide

example : String.ofList (Decimal.ofParts 12345 (-3)).text = "12.345" := by decide
