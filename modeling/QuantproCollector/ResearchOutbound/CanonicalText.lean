import QuantproCollector.Lib.JsonReadBack
import QuantproCollector.Lib.Separated
import QuantproCollector.ResearchOutbound.FloatSpelling

/-!
# The canonical text is read back

`canonicalJson_inj`: two values that have one canonical text have one normal form, in which the members of
records are in the order of their keys and only the zeros at the paths of floats have a sign.

A float is read back from its spelling by its digits, the position of its point and its exponent
(`magnitudeOf_reprDigits`), and any value by the first character of its text and the texts of its parts.
-/

namespace QuantproCollector.ResearchOutbound

open Decimal (digits)
open Json (digitsValue isNumeric Delimited)

/-! ## A float is read back from its spelling -/

/-- The digits of a mantissa as a number, and how many of them are behind the point. -/
def mantissaOf (text : List Char) : ℕ × ℕ :=
  (digitsValue (text.filter (· ≠ '.')), (text.dropWhile (· ≠ '.')).length - 1)

/-- The number that a spelling without a sign stands for. -/
def magnitudeOf (text : List Char) : ℚ :=
  let (mantissa, exponent) := splitAtE text
  (mantissaOf mantissa).1 * 10 ^ (numberOfText exponent - (mantissaOf mantissa).2)

def IsDigits (ds : List Char) : Prop := ∀ c ∈ ds, c.isDigit = true

theorem isDigits_digits (n : ℕ) : IsDigits (digits n) := fun _ hc =>
  Nat.isDigit_of_mem_toDigits (by decide) (by decide) hc

theorem isDigits_zeros (n : ℕ) : IsDigits (List.replicate n '0') := by
  intro c hc
  rw [(List.mem_replicate.1 hc).2]
  decide

theorem IsDigits.append {as bs : List Char} (has : IsDigits as) (hbs : IsDigits bs) :
    IsDigits (as ++ bs) := by
  intro c hc
  rcases List.mem_append.1 hc with hc | hc
  · exact has c hc
  · exact hbs c hc

theorem IsDigits.ne_point {ds : List Char} (h : IsDigits ds) : ∀ c ∈ ds, decide (c ≠ '.') = true := by
  intro c hc
  apply decide_eq_true
  rintro rfl
  have hdigit := h _ hc
  revert hdigit
  decide

theorem IsDigits.ne_e {ds : List Char} (h : IsDigits ds) : ∀ c ∈ ds, c ≠ 'e' := fun c hc =>
  ne_e_of_digit (h c hc)

theorem mantissaOf_digits {as : List Char} (has : IsDigits as) : mantissaOf as = (digitsValue as, 0) := by
  have hfilter : as.filter (· ≠ '.') = as := List.filter_eq_self.2 has.ne_point
  have hdrop : as.dropWhile (· ≠ '.') = [] := List.dropWhile_eq_nil_iff.2 has.ne_point
  rw [mantissaOf, hfilter, hdrop]
  rfl

theorem mantissaOf_point {as bs : List Char} (has : IsDigits as) (hbs : IsDigits bs) :
    mantissaOf (as ++ '.' :: bs) = (digitsValue (as ++ bs), bs.length) := by
  have hfilter : (as ++ '.' :: bs).filter (· ≠ '.') = as ++ bs := by
    rw [List.filter_append, List.filter_cons_of_neg (by decide), List.filter_eq_self.2 has.ne_point,
      List.filter_eq_self.2 hbs.ne_point]
  have hdrop : (as ++ '.' :: bs).dropWhile (· ≠ '.') = '.' :: bs := by
    rw [List.dropWhile_append_of_pos has.ne_point, List.dropWhile_cons_of_neg (by decide)]
  rw [mantissaOf, hfilter, hdrop]
  rfl

theorem mantissaOf_pointed {ds : List Char} (hds : IsDigits ds) :
    mantissaOf (pointed ds) = (digitsValue ds, ds.length - 1) := by
  rcases ds with _ | ⟨d, _ | ⟨d', ds⟩⟩
  · exact mantissaOf_digits hds
  · exact mantissaOf_digits hds
  · have hd : IsDigits [d] := fun c hc => hds c (List.mem_singleton.1 hc ▸ List.mem_cons_self)
    have hrest : IsDigits (d' :: ds) := fun c hc => hds c (List.mem_cons_of_mem d hc)
    exact mantissaOf_point hd hrest

theorem magnitudeOf_positional {text : List Char} (h : ∀ c ∈ text, c ≠ 'e') :
    magnitudeOf text = (mantissaOf text).1 * (10 : ℚ) ^ (-((mantissaOf text).2 : ℤ)) := by
  have hall : ∀ c ∈ text, decide (c ≠ 'e') = true := fun c hc => decide_eq_true (h c hc)
  have hsplit : splitAtE text = (text, []) := by
    rw [splitAtE, List.takeWhile_eq_self_iff.2 hall, List.dropWhile_eq_nil_iff.2 hall]
    rfl
  rw [magnitudeOf, hsplit]
  simp [numberOfText]

theorem numberOfText_padded (e : ℤ) :
    numberOfText ((if e < 0 then '-' else '+') :: padStartTwo (digits e.natAbs)) = e := by
  have hvalue : Nat.ofDigitChars 10 (padStartTwo (digits e.natAbs)) 0 = e.natAbs := by
    rw [← Json.digitsValue_eq, padStartTwo, Json.digitsValue_zeros_append, Json.digitsValue_digits]
  split_ifs with he
  · rw [numberOfText, hvalue]
    omega
  · rw [numberOfText, hvalue]
    omega

/-- The digits and the position of the point are read back. -/
theorem magnitudeOf_reprDigits {ds : List Char} (hds : IsDigits ds) (hne : ds ≠ []) (decpt : ℤ) :
    magnitudeOf (reprDigits ds decpt) = digitsValue ds * (10 : ℚ) ^ (decpt - ds.length) := by
  have hlength : 0 < ds.length := List.length_pos_of_ne_nil hne
  have hten : (10 : ℚ) ≠ 0 := by norm_num
  unfold reprDigits
  split_ifs with hscientific hsmall hmiddle
  · have hpad : ∀ c ∈ (if decpt - 1 < 0 then '-' else '+') :: padStartTwo (digits (decpt - 1).natAbs),
        c ≠ 'e' := by
      intro c hc
      rcases List.mem_cons.1 hc with rfl | hc
      · split_ifs <;> decide
      · exact ((isDigits_zeros _).append (isDigits_digits _)).ne_e c hc
    rw [magnitudeOf, splitAtE_append (pointed_ne_e hds.ne_e) hpad]
    simp only [mantissaOf_pointed hds, numberOfText_padded]
    congr 2
    omega
  · have hzeros := isDigits_zeros (-decpt).toNat
    have hzero : IsDigits ['0'] := isDigits_zeros 1
    have hform : '0' :: '.' :: List.replicate (-decpt).toNat '0' ++ ds =
        ['0'] ++ '.' :: (List.replicate (-decpt).toNat '0' ++ ds) := rfl
    have hvalue : digitsValue (['0'] ++ (List.replicate (-decpt).toNat '0' ++ ds)) = digitsValue ds := by
      rw [show ['0'] = List.replicate 1 '0' from rfl, Json.digitsValue_zeros_append,
        Json.digitsValue_zeros_append]
    rw [hform, magnitudeOf_positional, mantissaOf_point hzero (hzeros.append hds), hvalue]
    · simp only [List.length_append, List.length_replicate]
      congr 2
      omega
    · intro c hc
      rcases List.mem_append.1 hc with hc | hc
      · exact hzero.ne_e c hc
      · rcases List.mem_cons.1 hc with rfl | hc
        · decide
        · exact (hzeros.append hds).ne_e c hc
  · have htake : IsDigits (ds.take decpt.toNat) := fun c hc => hds c (List.mem_of_mem_take hc)
    have hdrop : IsDigits (ds.drop decpt.toNat) := fun c hc => hds c (List.mem_of_mem_drop hc)
    rw [magnitudeOf_positional, mantissaOf_point htake hdrop, List.take_append_drop]
    · simp only [List.length_drop]
      congr 2
      omega
    · intro c hc
      rcases List.mem_append.1 hc with hc | hc
      · exact htake.ne_e c hc
      · rcases List.mem_cons.1 hc with rfl | hc
        · decide
        · exact hdrop.ne_e c hc
  · have hzeros := isDigits_zeros (decpt - ds.length).toNat
    have hzero : IsDigits ['0'] := isDigits_zeros 1
    have hvalue : digitsValue (ds ++ List.replicate (decpt - ds.length).toNat '0' ++ ['0']) =
        digitsValue ds * 10 ^ ((decpt - ds.length).toNat + 1) := by
      rw [List.append_assoc, show ['0'] = List.replicate 1 '0' from rfl, List.replicate_append_replicate,
        Json.digitsValue_append_zeros]
    rw [magnitudeOf_positional, mantissaOf_point (hds.append hzeros) hzero, hvalue]
    · have hpower : decpt - ds.length = (((decpt - ds.length).toNat + 1 : ℕ) : ℤ) + -1 := by omega
      push_cast
      rw [hpower, zpow_add₀ hten, zpow_natCast]
      simp [mul_assoc]
    · intro c hc
      rcases List.mem_append.1 hc with hc | hc
      · exact (hds.append hzeros).ne_e c hc
      · rcases List.mem_cons.1 hc with rfl | hc
        · decide
        · exact hzero.ne_e c hc

theorem digits_ne_nil (n : ℕ) : digits n ≠ [] :=
  List.ne_nil_of_length_pos (digits_length_pos n)

/-- A spelling begins with a digit. -/
theorem head?_reprDigits {ds : List Char} (hds : IsDigits ds) (hne : ds ≠ []) (decpt : ℤ) :
    (reprDigits ds decpt).head? ≠ some '-' := by
  obtain ⟨d, rest, rfl⟩ := List.exists_cons_of_ne_nil hne
  have hd : d ≠ '-' := by
    rintro rfl
    have hdigit := hds '-' List.mem_cons_self
    revert hdigit
    decide
  unfold reprDigits
  split_ifs with hscientific hsmall hmiddle
  · cases rest <;> simpa [pointed] using hd
  · simp
  · obtain ⟨n, hn⟩ : ∃ n, decpt.toNat = n + 1 := ⟨decpt.toNat - 1, by omega⟩
    simpa [hn] using hd
  · simpa using hd

/-- The sign and the rest of a spelling are found in it. -/
theorem signed_inj {negative negative' : Bool} {as bs : List Char} (has : as.head? ≠ some '-')
    (hbs : bs.head? ≠ some '-')
    (h : (if negative then ['-'] else []) ++ as = (if negative' then ['-'] else []) ++ bs) :
    negative = negative' ∧ as = bs := by
  cases negative <;> cases negative'
  · exact ⟨rfl, h⟩
  · rw [show as = '-' :: bs from h] at has
    exact absurd rfl has
  · rw [← show '-' :: as = bs from h] at hbs
    exact absurd rfl hbs
  · exact ⟨rfl, (List.cons.inj h).2⟩

theorem value_eq_signed (x : Decimal) : x.value =
    (if x.mantissa < 0 then -1 else 1) * ((x.mantissa.natAbs : ℚ) * (10 : ℚ) ^ x.exponent) := by
  split_ifs with hneg
  · have hcast : (x.mantissa : ℚ) = -(x.mantissa.natAbs : ℚ) := by
      rw [← Int.cast_natCast, ← Int.cast_neg]
      congr 1
      omega
    rw [Decimal.value, hcast]
    ring
  · have hcast : (x.mantissa : ℚ) = (x.mantissa.natAbs : ℚ) := by
      rw [← Int.cast_natCast]
      congr 1
      omega
    rw [Decimal.value, hcast]
    ring

theorem floatRepr_eq_signed (x : Decimal) : floatRepr (.decimal x) =
    (if decide (x.mantissa < 0) then ['-'] else []) ++
      reprDigits (digits x.mantissa.natAbs) ((digits x.mantissa.natAbs).length + x.exponent) := by
  rw [floatRepr]
  simp

/-- A float has a spelling of its own. -/
theorem floatRepr_injective {x y : FiniteDouble} (h : floatRepr x = floatRepr y) : x = y := by
  have hdecimal : ∀ x y : Decimal, floatRepr (.decimal x) = floatRepr (.decimal y) → x = y := by
    intro x y h
    rw [floatRepr_eq_signed, floatRepr_eq_signed] at h
    obtain ⟨hsign, hrest⟩ := signed_inj (head?_reprDigits (isDigits_digits _) (digits_ne_nil _) _)
      (head?_reprDigits (isDigits_digits _) (digits_ne_nil _) _) h
    have hmagnitude := congrArg magnitudeOf hrest
    rw [magnitudeOf_reprDigits (isDigits_digits _) (digits_ne_nil _),
      magnitudeOf_reprDigits (isDigits_digits _) (digits_ne_nil _), Json.digitsValue_digits,
      Json.digitsValue_digits, add_sub_cancel_left, add_sub_cancel_left] at hmagnitude
    have hsign : (x.mantissa < 0) ↔ (y.mantissa < 0) := by simpa using hsign
    apply Decimal.value_injective
    rw [value_eq_signed, value_eq_signed, hmagnitude]
    simp only [hsign]
  -- The negative zero is the one zero with a sign.
  have hzero : ∀ x : Decimal, floatRepr .negZero ≠ floatRepr (.decimal x) := by
    intro x h
    rw [floatRepr_eq_signed] at h
    have hform : floatRepr .negZero = (if true then ['-'] else []) ++ reprDigits ['0'] 1 := rfl
    rw [hform] at h
    obtain ⟨hsign, hrest⟩ := signed_inj (head?_reprDigits (isDigits_zeros 1) (by simp) _)
      (head?_reprDigits (isDigits_digits _) (digits_ne_nil _) _) h
    have hmagnitude := congrArg magnitudeOf hrest
    rw [magnitudeOf_reprDigits (isDigits_zeros 1) (by simp),
      magnitudeOf_reprDigits (isDigits_digits _) (digits_ne_nil _), Json.digitsValue_digits,
      show digitsValue (List.replicate 1 '0') = 0 from rfl] at hmagnitude
    have hmantissa : x.mantissa = 0 := by
      have hpow : (10 : ℚ) ^ x.exponent ≠ 0 := zpow_ne_zero _ (by norm_num)
      simpa [hpow] using hmagnitude.symm
    simp [hmantissa] at hsign
  cases x with
  | negZero =>
    cases y with
    | negZero => rfl
    | decimal y => exact absurd h (hzero y)
  | decimal x =>
    cases y with
    | negZero => exact absurd h.symm (hzero x)
    | decimal y => rw [hdecimal x y h]

theorem isNumeric_reprDigits {ds : List Char} (hds : IsDigits ds) (decpt : ℤ) :
    ∀ c ∈ reprDigits ds decpt, isNumeric c = true := by
  have hdigits : ∀ {as : List Char}, IsDigits as → ∀ c ∈ as, isNumeric c = true := fun has c hc =>
    Json.isNumeric_of_isDigit (has c hc)
  have hpoint : isNumeric '.' = true := by decide
  have hzeros : ∀ n, ∀ c ∈ List.replicate n '0', isNumeric c = true := fun n =>
    hdigits (isDigits_zeros n)
  unfold reprDigits
  split_ifs with hscientific hsmall hmiddle
  · have hpointed : ∀ c ∈ pointed ds, isNumeric c = true := by
      rcases ds with _ | ⟨d, _ | ⟨d', ds⟩⟩
      · exact hdigits hds
      · exact hdigits hds
      · intro c hc
        rcases List.mem_cons.1 hc with rfl | hc
        · exact hdigits hds _ List.mem_cons_self
        · rcases List.mem_cons.1 hc with rfl | hc
          · exact hpoint
          · exact hdigits hds _ (List.mem_cons_of_mem _ hc)
    have hpadded : ∀ c ∈ padStartTwo (digits (decpt - 1).natAbs), isNumeric c = true :=
      hdigits ((isDigits_zeros _).append (isDigits_digits _))
    simp only [List.forall_mem_append, List.forall_mem_cons]
    refine ⟨hpointed, by decide, ?_, hpadded⟩
    split_ifs <;> decide
  · simp only [List.forall_mem_append, List.forall_mem_cons, List.cons_append]
    exact ⟨by decide, hpoint, hzeros _, hdigits hds⟩
  · simp only [List.forall_mem_append, List.forall_mem_cons]
    exact ⟨fun c hc => hdigits hds c (List.mem_of_mem_take hc), hpoint,
      fun c hc => hdigits hds c (List.mem_of_mem_drop hc)⟩
  · simp only [List.forall_mem_append, List.forall_mem_cons]
    exact ⟨⟨hdigits hds, hzeros _⟩, hpoint, by decide, by simp⟩

theorem isNumeric_floatRepr (x : FiniteDouble) : ∀ c ∈ floatRepr x, isNumeric c = true := by
  cases x with
  | negZero =>
    simp only [floatRepr, List.forall_mem_cons]
    exact ⟨by decide, isNumeric_reprDigits (isDigits_zeros 1) 1⟩
  | decimal x =>
    rw [floatRepr_eq_signed]
    simp only [List.forall_mem_append]
    refine ⟨?_, isNumeric_reprDigits (isDigits_digits _) _⟩
    split_ifs
    · simp only [List.forall_mem_cons]
      exact ⟨by decide, by simp⟩
    · simp

/-! ## A value is read back from its canonical text -/

/-- The float without the sign of a zero. -/
def FiniteDouble.unsigned : FiniteDouble → FiniteDouble
  | .negZero => .decimal (.ofInt 0)
  | x => x

def isFloatPath (path : List String) : Bool :=
  decide (".".intercalate path ∈ PYTHON_FLOAT_PATHS)

abbrev fieldLe (f g : String × Value) : Prop :=
  Json.keyLe f.1 g.1 = true

mutual

/-- The value with its members in the order of their keys, and with no sign of a zero but at the paths of
floats. -/
def normal (path : List String) : Value → Value
  | .null => .null
  | .bool b => .bool b
  | .number x => .number (if isFloatPath path then x else x.unsigned)
  | .string s => .string s
  | .array items => .array (normalItems path items)
  | .record fields => .record ((normalFields path fields).insertionSort fieldLe)

def normalItems (path : List String) : List Value → List Value
  | [] => []
  | item :: items => normal path item :: normalItems path items

def normalFields (path : List String) : List (String × Value) → List (String × Value)
  | [] => []
  | (key, value) :: fields => (key, normal (path ++ [key]) value) :: normalFields path fields

end

theorem Value.induct {P : Value → Prop} (null : P .null) (bool : ∀ b, P (.bool b))
    (number : ∀ x, P (.number x)) (string : ∀ s, P (.string s))
    (array : ∀ items, (∀ item ∈ items, P item) → P (.array items))
    (record : ∀ fields, (∀ field ∈ fields, P field.2) → P (.record fields)) (v : Value) : P v :=
  @Value.rec P (fun items => ∀ item ∈ items, P item) (fun fields => ∀ field ∈ fields, P field.2)
    (fun field => P field.2) null bool number string array record (by simp)
    (fun _ _ hitem hitems => List.forall_mem_cons.2 ⟨hitem, hitems⟩) (by simp)
    (fun _ _ hfield hfields => List.forall_mem_cons.2 ⟨hfield, hfields⟩) (fun _ _ h => h) v

section Equations

variable (path : List String)

/-- The text of a member. -/
def memberText (field : String × Value) : List Char :=
  Json.quote field.1 ++ ':' :: canonicalJson (path ++ [field.1]) field.2

theorem canonicalItems_eq_map (items : List Value) :
    canonicalItems pythonFloatJson path items = items.map (canonicalJson path) := by
  induction items with
  | nil => rfl
  | cons item items ih => rw [canonicalItems, ih, List.map_cons, canonicalJson]

theorem canonicalMembers_eq_map (fields : List (String × Value)) :
    canonicalMembers pythonFloatJson path fields =
      fields.map fun field => (field.1, canonicalJson (path ++ [field.1]) field.2) := by
  induction fields with
  | nil => rfl
  | cons field fields ih =>
    obtain ⟨key, value⟩ := field
    rw [canonicalMembers, ih, List.map_cons, canonicalJson]

theorem normalItems_eq_map (items : List Value) : normalItems path items = items.map (normal path) := by
  induction items with
  | nil => rfl
  | cons item items ih => rw [normalItems, ih, List.map_cons]

theorem normalFields_eq_map (fields : List (String × Value)) :
    normalFields path fields = fields.map fun field => (field.1, normal (path ++ [field.1]) field.2) := by
  induction fields with
  | nil => rfl
  | cons field fields ih =>
    obtain ⟨key, value⟩ := field
    rw [normalFields, ih, List.map_cons]

theorem canonicalJson_number (x : FiniteDouble) : canonicalJson path (.number x) =
    if isFloatPath path then floatRepr x else x.text := by
  rw [canonicalJson, canonicalJsonWith, pythonFloatJson_eq_floatRepr]
  simp only [isFloatPath, decide_eq_true_eq]

theorem canonicalJson_array (items : List Value) : canonicalJson path (.array items) =
    '[' :: commaJoined (items.map (canonicalJson path)) ++ [']'] := by
  rw [canonicalJson, canonicalJsonWith, canonicalItems_eq_map]

/-- The members are written in the order of their keys. -/
theorem canonicalJson_record (fields : List (String × Value)) : canonicalJson path (.record fields) =
    '\x7b' :: commaJoined ((fields.insertionSort fieldLe).map (memberText path)) ++ ['\x7d'] := by
  have hsort := List.map_insertionSort (r := fieldLe) (s := fun a b => Json.keyLe a.1 b.1 = true)
    (fun field : String × Value => (field.1, canonicalJson (path ++ [field.1]) field.2)) fields
    (fun _ _ _ _ => Iff.rfl)
  rw [canonicalJson, canonicalJsonWith, canonicalMembers_eq_map, sortedMembers, ← hsort, List.map_map]
  rfl

theorem normal_record (fields : List (String × Value)) : normal path (.record fields) =
    .record ((fields.insertionSort fieldLe).map fun field =>
      (field.1, normal (path ++ [field.1]) field.2)) := by
  have hsort := List.map_insertionSort (r := fieldLe) (s := fieldLe)
    (fun field : String × Value => (field.1, normal (path ++ [field.1]) field.2)) fields
    (fun _ _ _ _ => Iff.rfl)
  rw [normal, normalFields_eq_map, ← hsort]

end Equations

/-- The kind of a value. -/
def kind : Value → ℕ
  | .null => 0
  | .bool true => 1
  | .bool false => 2
  | .number _ => 3
  | .string _ => 4
  | .array _ => 5
  | .record _ => 6

/-- The kind of the values that begin with a character. -/
def kindOf (c : Char) : ℕ :=
  if c = 'n' then 0 else if c = 't' then 1 else if c = 'f' then 2 else if c = '"' then 4
  else if c = '[' then 5 else if c = '\x7b' then 6 else if c = ']' then 7 else 3

theorem kindOf_numeric {c : Char} (h : isNumeric c = true) : kindOf c = 3 := by
  have hne : ∀ d, isNumeric d = false → c ≠ d := by
    rintro d hd rfl
    rw [h] at hd
    cases hd
  unfold kindOf
  rw [if_neg (hne _ (by decide)), if_neg (hne _ (by decide)), if_neg (hne _ (by decide)),
    if_neg (hne _ (by decide)), if_neg (hne _ (by decide)), if_neg (hne _ (by decide)),
    if_neg (hne _ (by decide))]

theorem isNumeric_numberText (path : List String) (x : FiniteDouble) :
    ∀ c ∈ canonicalJson path (.number x), isNumeric c = true := by
  rw [canonicalJson_number]
  split_ifs
  · exact isNumeric_floatRepr x
  · cases x with
    | negZero =>
      simp only [FiniteDouble.text, List.forall_mem_cons]
      exact ⟨by decide, by simp⟩
    | decimal x => exact Json.isNumeric_text x

theorem floatRepr_ne_nil (x : FiniteDouble) : floatRepr x ≠ [] := by
  have hne : ∀ {ds : List Char} (decpt : ℤ), ds ≠ [] → reprDigits ds decpt ≠ [] := by
    intro ds decpt hds
    unfold reprDigits
    split_ifs <;> simp
  cases x with
  | negZero => exact List.cons_ne_nil _ _
  | decimal x =>
    rw [floatRepr_eq_signed]
    intro hnil
    exact hne _ (digits_ne_nil _) (List.append_eq_nil_iff.1 hnil).2

/-- The first character tells the kind. -/
theorem canonicalJson_eq_cons (path : List String) (v : Value) :
    ∃ c rest, canonicalJson path v = c :: rest ∧ kindOf c = kind v := by
  cases v with
  | null => exact ⟨'n', _, rfl, by decide⟩
  | bool b =>
    cases b with
    | true => exact ⟨'t', _, rfl, by decide⟩
    | false => exact ⟨'f', _, rfl, by decide⟩
  | number x =>
    have hne : canonicalJson path (.number x) ≠ [] := by
      rw [canonicalJson_number]
      split_ifs
      · exact floatRepr_ne_nil x
      · cases x with
        | negZero => simp [FiniteDouble.text]
        | decimal x => exact Decimal.text_ne_nil x
    obtain ⟨c, rest, h⟩ := List.exists_cons_of_ne_nil hne
    exact ⟨c, rest, h, kindOf_numeric (isNumeric_numberText path x c (h ▸ List.mem_cons_self))⟩
  | string s => exact ⟨'"', _, rfl, rfl⟩
  | array items => exact ⟨'[', _, canonicalJson_array path items, rfl⟩
  | record fields => exact ⟨'\x7b', _, canonicalJson_record path fields, rfl⟩

theorem kind_eq {path : List String} {v w : Value} {rest rest' : List Char}
    (h : canonicalJson path v ++ rest = canonicalJson path w ++ rest') : kind v = kind w := by
  obtain ⟨c, cs, hv, hc⟩ := canonicalJson_eq_cons path v
  obtain ⟨d, ds, hw, hd⟩ := canonicalJson_eq_cons path w
  rw [hv, hw, List.cons_append, List.cons_append] at h
  rw [← hc, ← hd, (List.cons.inj h).1]

theorem kind_inv (w : Value) : kind w ≠ 7 ∧ (kind w = 0 → w = .null) ∧ (kind w = 1 → w = .bool true) ∧
    (kind w = 2 → w = .bool false) ∧ (kind w = 3 → ∃ x, w = .number x) ∧
    (kind w = 4 → ∃ s, w = .string s) ∧ (kind w = 5 → ∃ items, w = .array items) ∧
    (kind w = 6 → ∃ fields, w = .record fields) := by
  cases w with
  | bool b => cases b <;> simp [kind]
  | _ => simp [kind]

/-- No value begins as an array ends. -/
theorem canonicalJson_ne_close (path : List String) (v : Value) (rest rest' : List Char) :
    canonicalJson path v ++ rest ≠ ']' :: rest' := by
  obtain ⟨c, cs, hv, hc⟩ := canonicalJson_eq_cons path v
  rw [hv]
  intro h
  obtain rfl := (List.cons.inj h).1
  exact (kind_inv v).1 hc.symm

theorem memberText_ne_close (path : List String) (field : String × Value) (rest rest' : List Char) :
    memberText path field ++ rest ≠ '\x7d' :: rest' := by
  rw [memberText, Json.quote]
  intro h
  exact absurd (List.cons.inj h).1 (by decide)

/-- A number is read back up to the sign of a zero. -/
theorem number_inj {path : List String} {x y : FiniteDouble}
    (h : canonicalJson path (.number x) = canonicalJson path (.number y)) :
    normal path (.number x) = normal path (.number y) := by
  rw [canonicalJson_number, canonicalJson_number] at h
  rw [normal, normal]
  cases hpath : isFloatPath path with
  | true =>
    simp only [hpath, if_true] at h
    rw [floatRepr_injective h]
  | false =>
    have htext : ∀ z : FiniteDouble, ∃ d : Decimal, z.unsigned = .decimal d ∧ z.text = d.text := by
      intro z
      cases z with
      | negZero => exact ⟨.ofInt 0, rfl, rfl⟩
      | decimal d => exact ⟨d, rfl, rfl⟩
    obtain ⟨d, hx, hxtext⟩ := htext x
    obtain ⟨e, hy, hytext⟩ := htext y
    simp only [hpath, Bool.false_eq_true, if_false] at h
    rw [hxtext, hytext] at h
    simp only [Bool.false_eq_true, if_false, hx, hy, Json.text_injective h]

/-- Two values that are written alike are one value, and the texts go on alike after them. -/
theorem canonicalJson_inj (v : Value) : ∀ (path : List String) (w : Value) (rest rest' : List Char),
    Delimited rest → Delimited rest' → canonicalJson path v ++ rest = canonicalJson path w ++ rest' →
      normal path v = normal path w ∧ rest = rest' := by
  have hcomma : ∀ rest, Delimited (',' :: rest) := Json.delimited_cons (by decide)
  have hbracket : ∀ rest, Delimited (']' :: rest) := Json.delimited_cons (by decide)
  have hbrace : ∀ rest, Delimited ('\x7d' :: rest) := Json.delimited_cons (by decide)
  induction v using Value.induct with
  | null =>
    intro path w rest rest' _ _ h
    obtain rfl := (kind_inv w).2.1 (kind_eq h).symm
    exact ⟨rfl, List.append_cancel_left h⟩
  | bool b =>
    intro path w rest rest' _ _ h
    obtain rfl : w = .bool b := by
      cases b with
      | true => exact (kind_inv w).2.2.1 (kind_eq h).symm
      | false => exact (kind_inv w).2.2.2.1 (kind_eq h).symm
    exact ⟨rfl, List.append_cancel_left h⟩
  | number x =>
    intro path w rest rest' hrest hrest' h
    obtain ⟨y, rfl⟩ := (kind_inv w).2.2.2.2.1 (kind_eq h).symm
    obtain ⟨htext, hend⟩ := Json.numeric_append_inj (isNumeric_numberText path x)
      (isNumeric_numberText path y) hrest hrest' h
    exact ⟨number_inj htext, hend⟩
  | string s =>
    intro path w rest rest' _ _ h
    obtain ⟨t, rfl⟩ := (kind_inv w).2.2.2.2.2.1 (kind_eq h).symm
    obtain ⟨rfl, hend⟩ := Json.quote_append_inj h
    exact ⟨rfl, hend⟩
  | array items ih =>
    intro path w rest rest' _ _ h
    obtain ⟨items', rfl⟩ := (kind_inv w).2.2.2.2.2.2.1 (kind_eq h).symm
    rw [canonicalJson_array, canonicalJson_array, List.cons_append, List.cons_append, List.append_assoc,
      List.append_assoc] at h
    obtain ⟨hitems, hend⟩ := Separated.intercalate_inj (D := Delimited) (by decide) hcomma hbracket
      (fun y => canonicalJson_ne_close path y)
      (fun x hx y rest rest' hd hd' htext => ih x hx path y rest rest' hd hd' htext) (List.cons.inj h).2
    refine ⟨?_, hend⟩
    have hmap : items.map (normal path) = items'.map (normal path) := by
      rw [← List.forall₂_eq_eq_eq, List.forall₂_map_left_iff, List.forall₂_map_right_iff]
      exact hitems
    rw [normal, normal, normalItems_eq_map, normalItems_eq_map, hmap]
  | record fields ih =>
    intro path w rest rest' _ _ h
    obtain ⟨fields', rfl⟩ := (kind_inv w).2.2.2.2.2.2.2 (kind_eq h).symm
    rw [canonicalJson_record, canonicalJson_record, List.cons_append, List.cons_append, List.append_assoc,
      List.append_assoc] at h
    have hmember : ∀ f ∈ fields.insertionSort fieldLe, ∀ g rest rest', Delimited rest → Delimited rest' →
        memberText path f ++ rest = memberText path g ++ rest' →
        (f.1, normal (path ++ [f.1]) f.2) = (g.1, normal (path ++ [g.1]) g.2) ∧ rest = rest' := by
      intro f hf g rest rest' hd hd' htext
      rw [memberText, memberText, List.append_assoc, List.append_assoc] at htext
      obtain ⟨hkey, hvalue⟩ := Json.quote_append_inj htext
      rw [← hkey] at hvalue
      obtain ⟨hnormal, hend⟩ := ih f ((List.mem_insertionSort fieldLe).1 hf) (path ++ [f.1]) g.2 rest rest'
        hd hd' (List.cons.inj hvalue).2
      exact ⟨by rw [← hkey, hnormal], hend⟩
    obtain ⟨hfields, hend⟩ := Separated.intercalate_inj (D := Delimited) (by decide) hcomma hbrace
      (fun g => memberText_ne_close path g) hmember (List.cons.inj h).2
    refine ⟨?_, hend⟩
    have hmap : (fields.insertionSort fieldLe).map (fun f => (f.1, normal (path ++ [f.1]) f.2)) =
        (fields'.insertionSort fieldLe).map fun f => (f.1, normal (path ++ [f.1]) f.2) := by
      rw [← List.forall₂_eq_eq_eq, List.forall₂_map_left_iff, List.forall₂_map_right_iff]
      exact hfields
    rw [normal_record, normal_record, hmap]

end QuantproCollector.ResearchOutbound
