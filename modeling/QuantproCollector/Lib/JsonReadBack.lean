import Mathlib.Data.List.TakeDrop
import QuantproCollector.Lib.JsonFlat
import QuantproCollector.Lib.JsonUnique
import QuantproCollector.Lib.JsonUpdate
import QuantproCollector.Lib.Schema

/-!
# Reading back what was written

Reading undoes writing: `readText` undoes the quoting of a text, `readMagnitude` the text of a number in
each of its layouts, and `parse` the indented serialisation of a value whose keys are distinct
(`parse_pretty`). The text of a number therefore determines it.
-/

/-! ## Numbers by their value -/

namespace Decimal

/-- A mantissa without a trailing zero has only one exponent. -/
theorem exponent_le {m n e f : ℤ} (hm : m % 10 ≠ 0) (h : (m : ℚ) * 10 ^ e = n * 10 ^ f) : f ≤ e := by
  by_contra hlt
  obtain ⟨k, hk⟩ := Int.eq_ofNat_of_zero_le (show 0 ≤ f - e - 1 by omega)
  have hf : f = e + ((k + 1 : ℕ) : ℤ) := by
    push_cast
    omega
  have hpos : (10 : ℚ) ^ e ≠ 0 := zpow_ne_zero _ (by norm_num)
  have hq : (m : ℚ) = n * 10 ^ (k + 1) := by
    rw [hf, zpow_add₀ (by norm_num), zpow_natCast, mul_left_comm, mul_comm (m : ℚ)] at h
    exact mul_left_cancel₀ hpos h
  have hz : m = n * 10 ^ (k + 1) := by exact_mod_cast hq
  rw [pow_succ, ← mul_assoc] at hz
  omega

/-- A number has one reduced form. -/
theorem value_injective {x y : Decimal} (h : x.value = y.value) : x = y := by
  have hpos : ∀ e : ℤ, (10 : ℚ) ^ e ≠ 0 := fun e => zpow_ne_zero _ (by norm_num)
  obtain ⟨m, e, hx⟩ := x
  obtain ⟨n, f, hy⟩ := y
  rcases hx with ⟨rfl, rfl⟩ | hx
  · rcases hy with ⟨rfl, rfl⟩ | hy
    · rfl
    · have hzero : n = 0 := by simpa [value, hpos f] using h.symm
      omega
  · rcases hy with ⟨rfl, rfl⟩ | hy
    · have hzero : m = 0 := by simpa [value, hpos e] using h
      omega
    · have hef : e = f := le_antisymm (exponent_le hy h.symm) (exponent_le hx h)
      subst hef
      have hmn : m = n := by exact_mod_cast mul_right_cancel₀ (hpos e) h
      subst hmn
      rfl

/-- The reduced form is found from any other one. -/
theorem ofParts_eq {x : Decimal} {m e : ℤ} (h : (m : ℚ) * 10 ^ e = x.value) : ofParts m e = x :=
  value_injective ((value_ofParts m e).trans h)

/-! ### Digits -/

/-- A positive number does not begin with a zero. -/
theorem head?_digits {n : ℕ} (hn : 0 < n) : (digits n).head? ≠ some '0' := by
  induction n using Nat.strongRecOn with
  | ind n ih =>
    unfold digits
    rw [Nat.toDigits_eq_if (by decide)]
    split_ifs with hlt
    · have hdigit : ∀ k < 10, 0 < k → (Nat.digitChar k) ≠ '0' := by decide
      simpa using hdigit n hlt hn
    · have hrest := ih (n / 10) (by omega) (by omega)
      have hne : digits (n / 10) ≠ [] := Nat.toDigits_ne_nil
      show (digits (n / 10) ++ _).head? ≠ some '0'
      rw [List.head?_append_of_ne_nil _ hne]
      exact hrest

theorem isDigit_digits {n : ℕ} : ∀ c ∈ digits n, c.isDigit = true := fun _ hc =>
  Nat.isDigit_of_mem_toDigits (by decide) (by decide) hc

end Decimal

namespace Json

theorem digitsValue_eq (ds : List Char) : digitsValue ds = Nat.ofDigitChars 10 ds 0 := by
  rw [Nat.ofDigitChars_eq_foldl]
  unfold digitsValue
  congr 1
  funext n c
  rw [Nat.mul_comm]

@[simp] theorem digitsValue_digits (n : ℕ) : digitsValue (Decimal.digits n) = n := by
  rw [digitsValue_eq, Decimal.digits, Nat.ofDigitChars_ten_toDigits]

theorem digitsValue_append_zeros (ds : List Char) (k : ℕ) :
    digitsValue (ds ++ List.replicate k '0') = digitsValue ds * 10 ^ k := by
  rw [digitsValue_eq, Nat.ofDigitChars_append, Nat.ofDigitChars_replicate_zero, digitsValue_eq,
    Nat.mul_comm]

theorem digitsValue_zeros_append (ds : List Char) (k : ℕ) :
    digitsValue (List.replicate k '0' ++ ds) = digitsValue ds := by
  rw [digitsValue_eq, Nat.ofDigitChars_append, Nat.ofDigitChars_replicate_zero, digitsValue_eq,
    Nat.mul_zero]

/-- The digits end where a text goes on with something else. -/
theorem readDigits_append {ds rest : List Char} (hds : ∀ c ∈ ds, c.isDigit = true)
    (hrest : ∀ c ∈ rest.head?, c.isDigit = false) : readDigits (ds ++ rest) = (ds, rest) := by
  unfold readDigits
  rw [List.span_eq_takeWhile_dropWhile, List.takeWhile_append_of_pos hds, List.dropWhile_append_of_pos hds]
  cases rest with
  | nil => simp
  | cons c rest =>
    have hc : c.isDigit = false := hrest c rfl
    simp [hc]

/-! ## Reading a number -/

section Magnitude

variable {negative : Bool} {rest : List Char}

theorem not_isDigit_of_not_isNumeric {c : Char} (h : isNumeric c = false) : c.isDigit = false := by
  by_contra hd
  rw [isNumeric_of_isDigit (by simpa using hd)] at h
  cases h

theorem readFraction_of_ne {s : List Char} (h : s.head? ≠ some '.') : readFraction s = some ([], s) := by
  cases s with
  | nil => rfl
  | cons c s =>
    rw [readFraction]
    rintro rest ⟨⟩
    exact h rfl

theorem readExponent_of_delimited (h : Delimited rest) (hE : rest.head? ≠ some 'E') :
    readExponent rest = some (0, rest) := by
  cases rest with
  | nil => rfl
  | cons c rest =>
    have hc : isNumeric c = false := h c rfl
    have he : c ≠ 'e' := by
      rintro rfl
      cases hc
    have hne : ¬ (c = 'e' ∨ c = 'E') := by
      rintro (rfl | rfl)
      · exact he rfl
      · exact hE rfl
    exact if_neg hne

/-- What may follow a number's text: no numeric character, nor an upper-case exponent. -/
def Ends (rest : List Char) : Prop :=
  Delimited rest ∧ rest.head? ≠ some 'E'

theorem Ends.digit (h : Ends rest) : ∀ c ∈ rest.head?, c.isDigit = false := fun c hc =>
  not_isDigit_of_not_isNumeric (h.1 c hc)

theorem Ends.point (h : Ends rest) : rest.head? ≠ some '.' := by
  intro hpoint
  exact absurd (h.1 '.' hpoint) (by decide)

/-- The parts of a number, read one after the other. -/
theorem readMagnitude_of {s ds fs tail tail' : List Char} {e : ℤ} (hdigits : readDigits s = (ds, tail))
    (hne : ds ≠ []) (hhead : ds.head? = some '0' → ds = ['0'])
    (hfraction : readFraction tail = some (fs, tail')) (hexponent : readExponent tail' = some (e, rest)) :
    readMagnitude negative s = some (num (.ofParts
      (if negative then -(digitsValue (ds ++ fs) : ℤ) else digitsValue (ds ++ fs)) (e - fs.length)),
        rest) := by
  unfold readMagnitude
  rw [hdigits]
  cases ds with
  | nil => exact absurd rfl hne
  | cons d ds =>
    dsimp only
    rw [if_neg fun h => h.2 (hhead h.1), hfraction]
    dsimp only [Option.bind_eq_bind, Option.bind_some]
    rw [hexponent]
    rfl

theorem readFraction_point {fs : List Char} (hne : fs ≠ []) (hfs : ∀ c ∈ fs, c.isDigit = true)
    (hrest : ∀ c ∈ rest.head?, c.isDigit = false) :
    readFraction ('.' :: (fs ++ rest)) = some (fs, rest) := by
  rw [readFraction, readDigits_append hfs hrest]
  cases fs with
  | nil => exact absurd rfl hne
  | cons c fs => rfl

/-- The exponent that a layout writes. -/
theorem readExponent_sign (e : ℤ) (hrest : ∀ c ∈ rest.head?, c.isDigit = false) :
    readExponent ('e' :: (if e < 0 then '-' else '+') :: (Decimal.digits e.natAbs ++ rest)) =
      some (e, rest) := by
  have hne : Decimal.digits e.natAbs ≠ [] := Nat.toDigits_ne_nil
  have hread : readDigits (Decimal.digits e.natAbs ++ rest) = (Decimal.digits e.natAbs, rest) :=
    readDigits_append Decimal.isDigit_digits hrest
  by_cases he : e < 0
  · rw [if_pos he, readExponent, if_pos (.inl rfl)]
    rw [hread]
    cases hds : Decimal.digits e.natAbs with
    | nil => exact absurd hds hne
    | cons d ds =>
      dsimp only
      rw [← hds, digitsValue_digits, if_pos rfl]
      congr 2
      omega
  · rw [if_neg he, readExponent, if_pos (.inl rfl)]
    rw [hread]
    cases hds : Decimal.digits e.natAbs with
    | nil => exact absurd hds hne
    | cons d ds =>
      dsimp only
      rw [← hds, digitsValue_digits, if_neg (by decide)]
      congr 2
      omega

/-- The signed mantissa of the digits. -/
def signed (negative : Bool) (n : ℕ) : ℤ := if negative then -(n : ℤ) else n

/-- Reading undoes the layout of a positive number's digits. -/
theorem readMagnitude_layout {n : ℕ} (hn : 0 < n) (e : ℤ) (hrest : Ends rest) :
    ∃ m f, readMagnitude negative
        (Decimal.layout (Decimal.digits n) ((Decimal.digits n).length + e) ++ rest) =
          some (num (.ofParts (signed negative m) f), rest) ∧
      (m : ℚ) * 10 ^ f = (n : ℚ) * 10 ^ e := by
  set ds := Decimal.digits n with hdsdef
  have hne : ds ≠ [] := Nat.toDigits_ne_nil
  have hds : ∀ c ∈ ds, c.isDigit = true := Decimal.isDigit_digits
  have hhead : ds.head? ≠ some '0' := Decimal.head?_digits hn
  have hvalue : digitsValue ds = n := digitsValue_digits n
  have hlen : 0 < ds.length := List.length_pos_iff.2 hne
  have hzeros : ∀ k, ∀ c ∈ List.replicate k '0', c.isDigit = true := by
    intro k c hc
    rw [(List.mem_replicate.1 hc).2]
    decide
  have hfraction : readFraction rest = some ([], rest) := readFraction_of_ne hrest.point
  have hexponent : readExponent rest = some (0, rest) := readExponent_of_delimited hrest.1 hrest.2
  unfold Decimal.layout
  dsimp only
  by_cases h1 : (ds.length : ℤ) ≤ ds.length + e ∧ (ds.length : ℤ) + e ≤ 21
  · -- an integer: the digits and zeros
    rw [if_pos h1]
    refine ⟨digitsValue (ds ++ List.replicate e.toNat '0' ++ []), 0 - (0 : ℕ), ?_, ?_⟩
    · have hk : ((ds.length : ℤ) + e - ds.length).toNat = e.toNat := by congr 1; omega
      rw [hk]
      refine readMagnitude_of (readDigits_append ?_ hrest.digit) (by simp [hne]) ?_ hfraction hexponent
      · simp only [List.forall_mem_append]
        exact ⟨hds, hzeros _⟩
      · intro h
        rw [List.head?_append_of_ne_nil _ hne] at h
        exact absurd h hhead
    · obtain ⟨k, hk⟩ := Int.eq_ofNat_of_zero_le (show 0 ≤ e by omega)
      rw [List.append_nil, digitsValue_append_zeros, hvalue, hk, zpow_natCast, Int.toNat_natCast]
      push_cast
      simp
  by_cases h2 : 0 < (ds.length : ℤ) + e ∧ (ds.length : ℤ) + e ≤ 21
  · -- the point is inside the digits
    rw [if_neg h1, if_pos h2]
    obtain ⟨k, hk⟩ := Int.eq_ofNat_of_zero_le (show 0 ≤ (ds.length : ℤ) + e by omega)
    have hklen : k < ds.length := by omega
    have hktoNat : ((ds.length : ℤ) + e).toNat = k := by omega
    rw [hktoNat]
    refine ⟨digitsValue (ds.take k ++ ds.drop k), 0 - ((ds.drop k).length : ℤ), ?_, ?_⟩
    · have hdrop : ds.drop k ≠ [] := by simp [hklen]
      have htake : ds.take k ≠ [] := by
        simp only [ne_eq, List.take_eq_nil_iff, not_or]
        exact ⟨by omega, hne⟩
      rw [List.append_assoc, List.cons_append]
      refine readMagnitude_of (readDigits_append (fun c hc => hds c (List.mem_of_mem_take hc))
        (by rintro c ⟨⟩; decide)) htake ?_ (readFraction_point hdrop
          (fun c hc => hds c (List.mem_of_mem_drop hc)) hrest.digit) hexponent
      intro h
      rw [List.head?_take, if_neg (by omega)] at h
      exact absurd h hhead
    · have he : (0 : ℤ) - ((ds.drop k).length : ℤ) = e := by
        rw [List.length_drop]
        omega
      rw [List.take_append_drop, hvalue, he]
  by_cases h3 : -6 < (ds.length : ℤ) + e ∧ (ds.length : ℤ) + e ≤ 0
  · -- zeros before the digits
    rw [if_neg h1, if_neg h2, if_pos h3]
    refine ⟨digitsValue (['0'] ++ (List.replicate (-((ds.length : ℤ) + e)).toNat '0' ++ ds)),
      0 - ((List.replicate (-((ds.length : ℤ) + e)).toNat '0' ++ ds).length : ℤ), ?_, ?_⟩
    · have hsplit : '0' :: '.' :: List.replicate (-((ds.length : ℤ) + e)).toNat '0' ++ ds ++ rest =
          ['0'] ++ '.' :: ((List.replicate (-((ds.length : ℤ) + e)).toNat '0' ++ ds) ++ rest) := by
        simp
      rw [hsplit]
      refine readMagnitude_of (readDigits_append (by simp) (by rintro c ⟨⟩; decide)) (by simp)
        (fun _ => rfl) (readFraction_point (by simp [hne]) ?_ hrest.digit) hexponent
      simp only [List.forall_mem_append]
      exact ⟨hzeros _, hds⟩
    · have he : (0 : ℤ) - ((List.replicate (-((ds.length : ℤ) + e)).toNat '0' ++ ds).length : ℤ) = e := by
        rw [List.length_append, List.length_replicate]
        omega
      have hzero : digitsValue (['0'] ++ (List.replicate (-((ds.length : ℤ) + e)).toNat '0' ++ ds)) = n := by
        rw [show (['0'] : List Char) = List.replicate 1 '0' from rfl, digitsValue_zeros_append,
          digitsValue_zeros_append, hvalue]
      rw [hzero, he]
  · -- an exponent
    rw [if_neg h1, if_neg h2, if_neg h3]
    have hexp : readExponent ('e' :: (if (ds.length : ℤ) + e - 1 < 0 then '-' else '+') ::
        (Decimal.digits ((ds.length : ℤ) + e - 1).natAbs ++ rest)) =
          some ((ds.length : ℤ) + e - 1, rest) := readExponent_sign _ hrest.digit
    match hdscases : ds, hne with
    | [d], _ =>
      refine ⟨digitsValue ([d] ++ []), (1 : ℕ) + e - 1 - (0 : ℕ), ?_, ?_⟩
      · refine readMagnitude_of (readDigits_append hds (by rintro c ⟨⟩; decide)) (by simp)
          (fun h => absurd h hhead) (readFraction_of_ne (by simp)) ?_
        exact hexp
      · rw [List.append_nil, hvalue]
        congr 2
        push_cast
        omega
    | d :: d' :: rest', _ =>
      refine ⟨digitsValue ([d] ++ (d' :: rest')), ((d :: d' :: rest').length : ℤ) + e - 1 -
        ((d' :: rest').length : ℤ), ?_, ?_⟩
      · have hfirst : ∀ c ∈ [d], c.isDigit = true := by simpa using hds d (by simp)
        have hrest' : ∀ c ∈ d' :: rest', c.isDigit = true := fun c hc => hds c (List.mem_cons_of_mem d hc)
        obtain ⟨tail, htail⟩ : ∃ tail, tail = 'e' ::
            (if ((d :: d' :: rest').length : ℤ) + e - 1 < 0 then '-' else '+') ::
              (Decimal.digits (((d :: d' :: rest').length : ℤ) + e - 1).natAbs ++ rest) := ⟨_, rfl⟩
        rw [← htail] at hexp
        have hpoint : readFraction ('.' :: ((d' :: rest') ++ tail)) = some (d' :: rest', tail) := by
          refine readFraction_point (by simp) hrest' ?_
          rw [htail]
          rintro c ⟨⟩
          decide
        have hdigits : readDigits ([d] ++ '.' :: ((d' :: rest') ++ tail)) =
            ([d], '.' :: ((d' :: rest') ++ tail)) :=
          readDigits_append hfirst (by rintro c ⟨⟩; decide)
        have hread : readMagnitude negative ([d] ++ '.' :: ((d' :: rest') ++ tail)) = _ :=
          readMagnitude_of hdigits (by simp) (fun h => absurd h hhead) hpoint hexp
        rw [htail] at hread
        simpa [signed] using hread
      · rw [List.singleton_append, hvalue]
        congr 2
        simp only [List.length_cons]
        push_cast
        omega

/-- What is read as a number begins with a digit. -/
theorem isDigit_of_readMagnitude {s : List Char} {r : Json × List Char}
    (h : readMagnitude negative s = some r) : ∃ c s', s = c :: s' ∧ c.isDigit = true := by
  unfold readMagnitude readDigits at h
  rw [List.span_eq_takeWhile_dropWhile] at h
  cases s with
  | nil => cases h
  | cons c s =>
    refine ⟨c, s, rfl, ?_⟩
    by_contra hc
    rw [List.takeWhile_cons_of_neg hc] at h
    cases h

theorem skipBlank_cons {c : Char} (hc : isBlank c = false) (s : List Char) :
    skipBlank (c :: s) = c :: s :=
  List.dropWhile_cons_of_neg (by simp [hc])

/-- A digit begins a number. -/
theorem readValue_digit {c : Char} (hc : c.isDigit = true) (fuel : ℕ) (s : List Char) :
    readValue (fuel + 1) (c :: s) = readMagnitude false (c :: s) := by
  have hne : ∀ d : Char, d.isDigit = false → c ≠ d := by
    rintro d hd rfl
    rw [hc] at hd
    cases hd
  have hblank : isBlank c = false := by
    simp only [isBlank, Bool.or_eq_false_iff, decide_eq_false_iff_not]
    exact ⟨⟨⟨hne _ (by decide), hne _ (by decide)⟩, hne _ (by decide)⟩, hne _ (by decide)⟩
  rw [readValue, skipBlank_cons hblank]
  split
  · rename_i heq
    exact absurd (List.cons.inj heq).1 (hne _ (by decide))
  · rename_i heq
    exact absurd (List.cons.inj heq).1 (hne _ (by decide))
  · rename_i heq
    exact absurd (List.cons.inj heq).1 (hne _ (by decide))
  · rename_i heq
    exact absurd (List.cons.inj heq).1 (hne _ (by decide))
  · rename_i heq
    exact absurd (List.cons.inj heq).1 (hne _ (by decide))
  · rename_i heq
    exact absurd (List.cons.inj heq).1 (hne _ (by decide))
  · rename_i heq
    exact absurd (List.cons.inj heq).1 (hne _ (by decide))
  · rfl

/-- Reading undoes the text of a number. -/
theorem readValue_num (x : Decimal) (fuel : ℕ) (hrest : Ends rest) :
    readValue (fuel + 1) (x.text ++ rest) = some (num x, rest) := by
  unfold Decimal.text
  by_cases hzero : x.mantissa = 0
  · have hread : readMagnitude false ('0' :: rest) = _ :=
      readMagnitude_of (@readDigits_append ['0'] rest (by simp) hrest.digit) (by simp) (fun _ => rfl)
        (readFraction_of_ne hrest.point) (readExponent_of_delimited hrest.1 hrest.2)
    have hx : Decimal.ofParts 0 0 = x := Decimal.ofParts_eq (by simp [Decimal.value, hzero])
    rw [if_pos hzero]
    show readValue (fuel + 1) ('0' :: rest) = _
    rw [readValue_digit (by decide), hread]
    exact congrArg (fun y => some (num y, rest)) hx
  have hpos : 0 < x.mantissa.natAbs := Int.natAbs_pos.2 hzero
  rw [if_neg hzero]
  by_cases hneg : x.mantissa < 0
  · obtain ⟨m, f, hread, hvalue⟩ := @readMagnitude_layout true rest _ hpos x.exponent hrest
    have hx : Decimal.ofParts (signed true m) f = x := by
      refine Decimal.ofParts_eq ?_
      have habs : x.mantissa = -(x.mantissa.natAbs : ℤ) := by omega
      have hmantissa : (x.mantissa : ℚ) = -(x.mantissa.natAbs : ℚ) := by
        rw [← Int.cast_natCast, ← Int.cast_neg, ← habs]
      rw [Decimal.value, hmantissa, neg_mul, ← hvalue]
      simp [signed]
    rw [hx] at hread
    rw [if_pos hneg]
    exact hread
  · obtain ⟨m, f, hread, hvalue⟩ := @readMagnitude_layout false rest _ hpos x.exponent hrest
    have hx : Decimal.ofParts (signed false m) f = x := by
      refine Decimal.ofParts_eq ?_
      have habs : x.mantissa = (x.mantissa.natAbs : ℤ) := by omega
      have hmantissa : (x.mantissa : ℚ) = (x.mantissa.natAbs : ℚ) := by
        rw [← Int.cast_natCast, ← habs]
      rw [Decimal.value, hmantissa, ← hvalue]
      simp [signed]
    rw [if_neg hneg, List.nil_append]
    obtain ⟨c, s, hs, hc⟩ := isDigit_of_readMagnitude hread
    rw [hs, readValue_digit hc, ← hs, hread, hx]

end Magnitude

/-- The text of a number determines it. -/
theorem text_injective {x y : Decimal} (h : x.text = y.text) : x = y := by
  have hends : Ends [] := ⟨by simp [Delimited], by simp⟩
  have hx := readValue_num x 0 hends
  rw [h, readValue_num y 0 hends] at hx
  exact (Json.num.inj (Prod.mk.inj (Option.some.inj hx)).1).symm

/-! ## Texts -/

theorem ofUnits_ofChar_append (c : Char) (us : List ℕ) :
    ofUnits (Utf16.ofChar c ++ us) = c :: ofUnits us := by
  have hvalid : c.toNat < 0xD800 ∨ 0xDFFF < c.toNat ∧ c.toNat < 0x110000 := c.valid
  unfold Utf16.ofChar
  split_ifs with hsmall
  · have hone : (if 0xD800 ≤ c.toNat ∧ c.toNat < 0xE000 then Char.ofNat 0xFFFD else Char.ofNat c.toNat) =
        c := by
      rw [if_neg (by omega), Char.ofNat_toNat]
    cases us with
    | nil => exact congrArg (fun d => [d]) hone
    | cons u us =>
      show ofUnits (c.toNat :: u :: us) = _
      rw [ofUnits, if_neg (by omega), hone]
  · have hchar : Char.ofNat (0x10000 + (0xD800 + (c.toNat - 0x10000) / 0x400 - 0xD800) * 0x400 +
        (0xDC00 + (c.toNat - 0x10000) % 0x400 - 0xDC00)) = c := by
      have hnat : 0x10000 + (0xD800 + (c.toNat - 0x10000) / 0x400 - 0xD800) * 0x400 +
          (0xDC00 + (c.toNat - 0x10000) % 0x400 - 0xDC00) = c.toNat := by omega
      rw [hnat, Char.ofNat_toNat]
    show ofUnits ((0xD800 + (c.toNat - 0x10000) / 0x400) :: (0xDC00 + (c.toNat - 0x10000) % 0x400) :: us) = _
    rw [ofUnits, if_pos (by omega), hchar]

theorem ofUnits_flatMap (cs : List Char) : ofUnits (cs.flatMap Utf16.ofChar) = cs := by
  induction cs with
  | nil => rfl
  | cons c cs ih => rw [List.flatMap_cons, ofUnits_ofChar_append, ih]

/-- Reading undoes the quoting of a text. -/
theorem readText_quoted (s : String) (rest : List Char) :
    readText (s.toList.flatMap escape ++ '"' :: rest) = some (s, rest) := by
  unfold readText
  rw [readUnits_quoted]
  show some (String.ofList (ofUnits (s.toList.flatMap Utf16.ofChar)), rest) = _
  rw [ofUnits_flatMap, String.ofList_toList]

/-! ## Values -/

mutual

/-- The keys of every object in the value are distinct. -/
def Distinct : Json → Prop
  | arr xs => DistinctElements xs
  | obj fields => (fields.map Prod.fst).Nodup ∧ DistinctFields fields
  | _ => True

def DistinctElements : List Json → Prop
  | [] => True
  | x :: xs => x.Distinct ∧ DistinctElements xs

def DistinctFields : List (String × Json) → Prop
  | [] => True
  | (_, x) :: fs => x.Distinct ∧ DistinctFields fs

end

theorem setField_of_not_mem {fields : List (String × Json)} {k : String} (v : Json)
    (h : k ∉ fields.map Prod.fst) : setField fields k v = fields ++ [(k, v)] := by
  induction fields with
  | nil => rfl
  | cons f fields ih =>
    simp only [List.map_cons, List.mem_cons, not_or] at h
    rw [setField, if_neg (Ne.symm h.1), ih h.2]
    rfl

theorem skipBlank_lineBreak (depth : ℕ) (s : List Char) :
    skipBlank (lineBreak depth ++ s) = skipBlank s := by
  refine List.dropWhile_append_of_pos fun c hc => ?_
  rcases List.mem_cons.1 hc with rfl | hc
  · rfl
  · rw [(List.mem_replicate.1 hc).2]
    rfl

/-- A value is written from a character on that is neither blank nor a closing bracket. -/
theorem prettyChars_eq_cons (depth : ℕ) (v : Json) :
    ∃ c s, prettyChars depth v = c :: s ∧ isBlank c = false ∧ c ≠ ']' := by
  cases v with
  | null => exact ⟨_, _, rfl, rfl, by decide⟩
  | bool b => cases b <;> exact ⟨_, _, rfl, rfl, by decide⟩
  | num x =>
    obtain ⟨c, s, h, hc⟩ := chars_eq_cons (num x)
    refine ⟨c, s, h, ?_, ?_⟩
    · by_contra hblank
      simp only [isBlank, Bool.not_eq_false, Bool.or_eq_true, decide_eq_true_eq] at hblank
      rcases hblank with ((rfl | rfl) | rfl) | rfl <;> cases hc
    · rintro rfl
      cases hc
  | str s => exact ⟨_, _, rfl, rfl, by decide⟩
  | arr xs => cases xs <;> exact ⟨_, _, rfl, rfl, by decide⟩
  | obj fields => rcases fields with _ | ⟨⟨k, x⟩, fields⟩ <;> exact ⟨_, _, rfl, rfl, by decide⟩

theorem skipBlank_skipBlank (s : List Char) : skipBlank (skipBlank s) = skipBlank s := by
  induction s with
  | nil => rfl
  | cons c s ih =>
    by_cases hc : isBlank c = true
    · have hskip : skipBlank (c :: s) = skipBlank s := List.dropWhile_cons_of_pos hc
      rw [hskip, ih]
    · rw [skipBlank_cons (by simpa using hc), skipBlank_cons (by simpa using hc)]

/-- White space before a value is skipped. -/
theorem readValue_skip (fuel : ℕ) {s t : List Char} (h : skipBlank s = skipBlank t) :
    readValue fuel s = readValue fuel t := by
  cases fuel with
  | zero => rfl
  | succ fuel => rw [readValue, readValue, h]

theorem ends_lineBreak (depth : ℕ) (s : List Char) : Ends (lineBreak depth ++ s) :=
  ⟨delimited_cons (by decide) _, by simp [lineBreak]⟩

theorem ends_comma (s : List Char) : Ends (',' :: s) :=
  ⟨delimited_cons (by decide) _, by simp⟩

theorem ends_elements (depth : ℕ) (xs : List Json) (s : List Char) :
    Ends (prettyElements depth xs ++ (lineBreak depth ++ s)) := by
  cases xs with
  | nil => exact ends_lineBreak depth s
  | cons x xs => exact ends_comma _

theorem ends_members (depth : ℕ) (fields : List (String × Json)) (s : List Char) :
    Ends (prettyMembers depth fields ++ (lineBreak depth ++ s)) := by
  rcases fields with _ | ⟨⟨k, x⟩, fields⟩
  · exact ends_lineBreak depth s
  · exact ends_comma _

/-- The elements of an array, in order. -/
def prettyList (depth : ℕ) : List Json → List Char
  | [] => []
  | x :: xs => prettyChars (depth + 1) x ++ prettyElements depth xs

/-- The members of an object, in order. -/
def prettyFields (depth : ℕ) : List (String × Json) → List Char
  | [] => []
  | (k, x) :: fields => quote k ++ (':' :: ' ' :: (prettyChars (depth + 1) x ++ prettyMembers depth fields))

theorem prettyChars_arr (depth : ℕ) (x : Json) (xs : List Json) (rest : List Char) :
    prettyChars depth (arr (x :: xs)) ++ rest = '[' :: (lineBreak (depth + 1) ++
      (prettyList depth (x :: xs) ++ (lineBreak depth ++ ']' :: rest))) := by
  simp [prettyChars, prettyList]

theorem prettyChars_obj (depth : ℕ) (k : String) (x : Json) (fields : List (String × Json))
    (rest : List Char) :
    prettyChars depth (obj ((k, x) :: fields)) ++ rest = '\x7b' :: (lineBreak (depth + 1) ++
      (prettyFields depth ((k, x) :: fields) ++ (lineBreak depth ++ '\x7d' :: rest))) := by
  simp [prettyChars, prettyFields]

theorem readElements_skip (fuel : ℕ) {s t : List Char} (h : skipBlank s = skipBlank t) :
    readElements fuel s = readElements fuel t := by
  cases fuel with
  | zero => rfl
  | succ fuel => rw [readElements, readElements, readValue_skip fuel h]

theorem readMembers_skip (fuel : ℕ) (fields : List (String × Json)) {s t : List Char}
    (h : skipBlank s = skipBlank t) : readMembers fuel fields s = readMembers fuel fields t := by
  cases fuel with
  | zero => rfl
  | succ fuel => rw [readMembers, readMembers, h]

/-- An array that has elements. -/
theorem readValue_elements {fuel : ℕ} {s rest : List Char} {xs : List Json}
    (hs : ∃ c s', skipBlank s = c :: s' ∧ c ≠ ']') (h : readElements fuel s = some (xs, rest)) :
    readValue (fuel + 1) ('[' :: s) = some (arr xs, rest) := by
  obtain ⟨c, s', hskip, hc⟩ := hs
  rw [readElements_skip fuel (skipBlank_skipBlank s).symm, hskip] at h
  rw [readValue, skipBlank_cons (by decide)]
  simp only [hskip]
  split
  · rename_i heq
    exact absurd (List.cons.inj heq).1 hc
  · rw [h]
    rfl

/-- An object that has members. -/
theorem readValue_fields {fuel : ℕ} {s rest : List Char} {fields : List (String × Json)}
    (hs : ∃ s', skipBlank s = '"' :: s') (h : readMembers fuel [] s = some (fields, rest)) :
    readValue (fuel + 1) ('\x7b' :: s) = some (obj fields, rest) := by
  obtain ⟨s', hskip⟩ := hs
  rw [readMembers_skip fuel [] (skipBlank_skipBlank s).symm, hskip] at h
  rw [readValue, skipBlank_cons (by decide)]
  simp only [hskip]
  show (readMembers fuel [] ('"' :: s')).map _ = _
  rw [h]
  rfl

/-- A member of an object, up to what follows its value. -/
theorem readMembers_member (fuel : ℕ) (fields : List (String × Json)) (k : String) {x : Json}
    {s t : List Char} (h : readValue fuel s = some (x, t)) :
    readMembers (fuel + 1) fields (quote k ++ (':' :: ' ' :: s)) =
      match skipBlank t with
      | ',' :: rest => readMembers fuel (setField fields k x) rest
      | '\x7d' :: rest => some (setField fields k x, rest)
      | _ => none := by
  have hskip : skipBlank (' ' :: s) = skipBlank s := rfl
  have hspace : readValue fuel (' ' :: s) = some (x, t) := (readValue_skip fuel hskip).trans h
  rw [quote_append, readMembers]
  show (readText (k.toList.flatMap escape ++ '"' :: ':' :: ' ' :: s) >>= _) = _
  rw [readText_quoted]
  show (readValue fuel (' ' :: s) >>= _) = _
  rw [hspace]
  rfl

mutual

/-- Reading undoes the writing of a value, whatever the depth. -/
theorem readValue_pretty (v : Json) (depth fuel : ℕ) (rest : List Char) (hv : v.Distinct)
    (hfuel : (prettyChars depth v).length < fuel) (hrest : Ends rest) :
    readValue fuel (prettyChars depth v ++ rest) = some (v, rest) := by
  obtain ⟨fuel, rfl⟩ : ∃ n, fuel = n + 1 := ⟨fuel - 1, by omega⟩
  match v, hv, hfuel with
  | null, _, _ => rfl
  | bool true, _, _ => rfl
  | bool false, _, _ => rfl
  | num x, _, _ => exact readValue_num x fuel hrest
  | str s, _, _ =>
    show readValue (fuel + 1) (quote s ++ rest) = _
    rw [quote_append, readValue]
    show (readText (s.toList.flatMap escape ++ '"' :: rest)).map _ = _
    rw [readText_quoted]
    rfl
  | arr [], _, _ => rfl
  | arr (x :: xs), hv, hfuel =>
    have hlength := congrArg List.length (prettyChars_arr depth x xs [])
    simp only [List.length_append, List.length_cons, List.length_nil] at hlength
    have hread := readElements_pretty (x :: xs) depth fuel rest (by simp) hv (by omega)
    rw [prettyChars_arr]
    refine readValue_elements ?_ ((readElements_skip fuel (skipBlank_lineBreak _ _)).trans hread)
    obtain ⟨c, s, hs, hblank, hc⟩ := prettyChars_eq_cons (depth + 1) x
    rw [skipBlank_lineBreak, prettyList, hs]
    exact ⟨c, _, skipBlank_cons hblank _, hc⟩
  | obj [], _, _ => rfl
  | obj ((k, x) :: fields), hv, hfuel =>
    have hlength := congrArg List.length (prettyChars_obj depth k x fields [])
    simp only [List.length_append, List.length_cons, List.length_nil] at hlength
    have hread := readMembers_pretty ((k, x) :: fields) [] depth fuel rest (by simp) hv.2
      (by simpa using hv.1) (by omega)
    rw [prettyChars_obj]
    refine readValue_fields ?_ ((readMembers_skip fuel [] (skipBlank_lineBreak _ _)).trans hread)
    rw [skipBlank_lineBreak, prettyFields, quote]
    exact ⟨_, skipBlank_cons (by decide) _⟩

theorem readElements_pretty (xs : List Json) (depth fuel : ℕ) (rest : List Char) (hne : xs ≠ [])
    (hxs : DistinctElements xs) (hfuel : (prettyList depth xs).length + 1 < fuel) :
    readElements fuel (prettyList depth xs ++ (lineBreak depth ++ ']' :: rest)) = some (xs, rest) := by
  obtain ⟨fuel, rfl⟩ : ∃ n, fuel = n + 1 := ⟨fuel - 1, by omega⟩
  match xs, hne, hxs, hfuel with
  | [x], _, hxs, hfuel =>
    have hlength : (prettyList depth [x]).length = (prettyChars (depth + 1) x).length := by
      simp [prettyList, prettyElements]
    have hread := readValue_pretty x (depth + 1) fuel (lineBreak depth ++ ']' :: rest) hxs.1 (by omega)
      (ends_lineBreak _ _)
    rw [prettyList, prettyElements, List.append_nil, readElements, hread]
    dsimp only [Option.bind_eq_bind, Option.bind_some]
    rw [skipBlank_lineBreak, skipBlank_cons (by decide)]
    rfl
  | x :: y :: ys, _, hxs, hfuel =>
    have hcomma : prettyElements depth (y :: ys) ++ (lineBreak depth ++ ']' :: rest) =
        ',' :: (lineBreak (depth + 1) ++
          (prettyList depth (y :: ys) ++ (lineBreak depth ++ ']' :: rest))) := by
      simp [prettyElements, prettyList]
    have hlength : (prettyList depth (x :: y :: ys)).length = (prettyChars (depth + 1) x).length + 1 +
        (lineBreak (depth + 1)).length + (prettyList depth (y :: ys)).length := by
      simp [prettyElements, prettyList]
      omega
    have hread := readValue_pretty x (depth + 1) fuel
      (prettyElements depth (y :: ys) ++ (lineBreak depth ++ ']' :: rest)) hxs.1 (by omega)
      (ends_elements _ _ _)
    have hrest := readElements_pretty (y :: ys) depth fuel rest (by simp) hxs.2 (by omega)
    rw [prettyList, List.append_assoc, readElements, hread]
    dsimp only [Option.bind_eq_bind, Option.bind_some]
    rw [hcomma, skipBlank_cons (by decide)]
    simp only [(readElements_skip fuel (skipBlank_lineBreak _ _)).trans hrest]
    rfl

theorem readMembers_pretty (fields acc : List (String × Json)) (depth fuel : ℕ) (rest : List Char)
    (hne : fields ≠ []) (hfields : DistinctFields fields)
    (hkeys : ((acc ++ fields).map Prod.fst).Nodup) (hfuel : (prettyFields depth fields).length + 1 < fuel) :
    readMembers fuel acc (prettyFields depth fields ++ (lineBreak depth ++ '\x7d' :: rest)) =
      some (acc ++ fields, rest) := by
  obtain ⟨fuel, rfl⟩ : ∃ n, fuel = n + 1 := ⟨fuel - 1, by omega⟩
  match fields, hne, hfields, hkeys, hfuel with
  | [(k, x)], _, hfields, hkeys, hfuel =>
    have hlength : (prettyFields depth [(k, x)]).length = (quote k).length + 2 +
        (prettyChars (depth + 1) x).length := by
      simp [prettyFields, prettyMembers]
      omega
    have hread := readValue_pretty x (depth + 1) fuel (lineBreak depth ++ '\x7d' :: rest) hfields.1
      (by omega) (ends_lineBreak _ _)
    have hnew : k ∉ acc.map Prod.fst := by
      intro hk
      rw [List.map_append] at hkeys
      exact List.disjoint_of_nodup_append hkeys hk (by simp)
    have htext : prettyFields depth [(k, x)] ++ (lineBreak depth ++ '\x7d' :: rest) =
        quote k ++ (':' :: ' ' :: (prettyChars (depth + 1) x ++ (lineBreak depth ++ '\x7d' :: rest))) := by
      simp [prettyFields, prettyMembers]
    rw [htext, readMembers_member fuel acc k hread, skipBlank_lineBreak, skipBlank_cons (by decide),
      setField_of_not_mem x hnew]
    rfl
  | (k, x) :: (l, y) :: fields, _, hfields, hkeys, hfuel =>
    have hlength : (prettyFields depth ((k, x) :: (l, y) :: fields)).length = (quote k).length + 2 +
        (prettyChars (depth + 1) x).length + 1 + (lineBreak (depth + 1)).length +
          (prettyFields depth ((l, y) :: fields)).length := by
      simp [prettyFields, prettyMembers]
      omega
    have hread := readValue_pretty x (depth + 1) fuel
      (prettyMembers depth ((l, y) :: fields) ++ (lineBreak depth ++ '\x7d' :: rest)) hfields.1
      (by omega) (ends_members _ _ _)
    have hnew : k ∉ acc.map Prod.fst := by
      intro hk
      rw [List.map_append] at hkeys
      exact List.disjoint_of_nodup_append hkeys hk (by simp)
    have hrest := readMembers_pretty ((l, y) :: fields) (acc ++ [(k, x)]) depth fuel rest (by simp)
      hfields.2 (by simpa using hkeys) (by omega)
    have htext : prettyFields depth ((k, x) :: (l, y) :: fields) ++ (lineBreak depth ++ '\x7d' :: rest) =
        quote k ++ (':' :: ' ' :: (prettyChars (depth + 1) x ++
          (prettyMembers depth ((l, y) :: fields) ++ (lineBreak depth ++ '\x7d' :: rest)))) := by
      simp [prettyFields]
    have hcomma : prettyMembers depth ((l, y) :: fields) ++ (lineBreak depth ++ '\x7d' :: rest) =
        ',' :: (lineBreak (depth + 1) ++
          (prettyFields depth ((l, y) :: fields) ++ (lineBreak depth ++ '\x7d' :: rest))) := by
      simp [prettyMembers, prettyFields]
    rw [htext, readMembers_member fuel acc k hread, hcomma, skipBlank_cons (by decide),
      setField_of_not_mem x hnew]
    show readMembers fuel (acc ++ [(k, x)]) (lineBreak (depth + 1) ++ _) = _
    rw [(readMembers_skip fuel _ (skipBlank_lineBreak _ _)).trans hrest]
    simp

end

/-- **Reading back.** The indented text of a value with distinct keys is read as that value. -/
theorem parse_pretty {v : Json} (hv : v.Distinct) : parse v.pretty = some v := by
  have hread := readValue_pretty v 0 ((prettyChars 0 v).length + 1) [] hv (by omega)
    ⟨by simp [Delimited], by simp⟩
  rw [List.append_nil] at hread
  unfold parse pretty
  rw [hread]
  rfl

/-! ## Distinct keys -/

theorem distinctElements_iff {xs : List Json} : DistinctElements xs ↔ ∀ x ∈ xs, x.Distinct := by
  induction xs with
  | nil => simp [DistinctElements]
  | cons x xs ih => simp [DistinctElements, ih]

theorem distinctFields_iff {fields : List (String × Json)} :
    DistinctFields fields ↔ ∀ f ∈ fields, f.2.Distinct := by
  induction fields with
  | nil => simp [DistinctFields]
  | cons f fields ih => simp [DistinctFields, ih]

theorem Distinct.get? {v x : Json} {k : String} (hv : v.Distinct) (h : v.get? k = some x) : x.Distinct := by
  cases v with
  | obj fields =>
    obtain ⟨f, hf, rfl⟩ : ∃ f ∈ fields, f.2 = x := by
      have hmem := List.lookup_eq_some_iff.1 h
      obtain ⟨before, after, hsplit, -⟩ := hmem
      exact ⟨(k, x), by simp [hsplit], rfl⟩
    exact distinctFields_iff.1 hv.2 f hf
  | _ => cases h

end Json

namespace Schema

open Json

/-- What the schema returns has distinct keys where the value had. -/
def KeepsDistinct (s : Schema) : Prop :=
  ∀ v d, s v = some d → v.Distinct → d.Distinct

theorem Exact.keepsDistinct {s : Schema} (hs : Exact s) : KeepsDistinct s := by
  intro v d h hv
  rwa [hs v d h]

theorem keepsDistinct_text (ok : String → Bool) : KeepsDistinct (text ok) :=
  (exact_text ok).keepsDistinct

theorem keepsDistinct_number (ok : Decimal → Bool) : KeepsDistinct (number ok) := by
  intro v d h _
  cases v with
  | num x =>
    simp only [number] at h
    split_ifs at h
    obtain rfl := Option.some.inj h
    trivial
  | _ => cases h

theorem keepsDistinct_boolean : KeepsDistinct boolean := by
  intro v d h _
  cases v with
  | bool b =>
    obtain rfl := Option.some.inj h
    trivial
  | _ => cases h

theorem keepsDistinct_orNull {s : Schema} (hs : KeepsDistinct s) : KeepsDistinct (orNull s) := by
  intro v d h hv
  cases v with
  | null =>
    obtain rfl := Option.some.inj h
    trivial
  | _ => exact hs _ d h hv

theorem keepsDistinct_array {s : Schema} (hs : KeepsDistinct s) (min max : ℕ) :
    KeepsDistinct (array s min max) := by
  intro v d h hv
  cases v with
  | arr xs =>
    simp only [array] at h
    split_ifs at h
    obtain ⟨ys, hys, rfl⟩ := Option.map_eq_some_iff.1 h
    refine distinctElements_iff.2 fun y hy => ?_
    obtain ⟨x, hx, hxy⟩ := mem_of_mapM hys y hy
    exact hs x y hxy (distinctElements_iff.1 hv x hx)
  | _ => cases h

theorem distinct_parseFields {shape : List Field} (hnodup : (shape.map Field.name).Nodup)
    (hshape : ∀ f ∈ shape, KeepsDistinct f.schema) {v : Json} (hv : v.Distinct)
    {ys : List (String × Json)} (h : parseFields shape v = some ys) :
    (ys.map Prod.fst).Nodup ∧ DistinctFields ys := by
  induction shape generalizing ys with
  | nil =>
    obtain rfl : [] = ys := by simpa [parseFields] using h
    exact ⟨List.nodup_nil, trivial⟩
  | cons f shape ih =>
    obtain ⟨hf, hnodup⟩ := List.nodup_cons.1 hnodup
    have hrest := fun {zs} => @ih hnodup (fun g hg => hshape g (List.mem_cons_of_mem _ hg)) zs
    simp only [parseFields] at h
    split at h
    · split_ifs at h
      exact hrest h
    · rename_i x hget
      obtain ⟨y, hy, h⟩ := Option.bind_eq_some_iff.1 h
      obtain ⟨zs, hzs, h⟩ := Option.bind_eq_some_iff.1 h
      obtain rfl : (f.name, y) :: zs = ys := Option.some.inj h
      obtain ⟨hkeys, hdistinct⟩ := hrest hzs
      refine ⟨List.nodup_cons.2 ⟨fun hmem => ?_, hkeys⟩,
        hshape f List.mem_cons_self x y hy (hv.get? hget), hdistinct⟩
      obtain ⟨z, hz, hname⟩ := List.mem_map.1 hmem
      have hname : z.1 = f.name := hname
      exact hf (hname ▸ name_mem_of_parseFields hzs z hz)

theorem keepsDistinct_object {strict : Bool} {shape : List Field}
    (hnodup : (shape.map Field.name).Nodup) (hshape : ∀ f ∈ shape, KeepsDistinct f.schema) :
    KeepsDistinct (object strict shape) := by
  intro v d h hv
  cases v with
  | obj fields =>
    simp only [object] at h
    split_ifs at h
    obtain ⟨ys, hys, rfl⟩ := Option.map_eq_some_iff.1 h
    exact distinct_parseFields hnodup hshape hv hys
  | _ => cases h

end Schema
