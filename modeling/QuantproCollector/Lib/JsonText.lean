import QuantproCollector.Lib.Json

/-!
# JSON texts

Reading and writing JSON texts: `Json.parse` is `JSON.parse`, `Json.pretty` is `JSON.stringify` with
an indent of two, and `Json.fenced?` finds the first fenced `json` block of a Markdown text. A text is a
list of characters here; numbers are kept exact.

A quoted text is a prefix code (`quote_append_inj`), so of two equal serialisations that begin with a
quoted text, both that text and the rest are equal.
-/

namespace Json

/-! ## Reading -/

/-- Insignificant white space. -/
def isBlank (c : Char) : Bool :=
  c = ' ' || c = '\t' || c = '\n' || c = '\r'

def skipBlank (s : List Char) : List Char :=
  s.dropWhile isBlank

/-- The value of a hexadecimal digit of either case. -/
def hexValue (c : Char) : Option ℕ :=
  if c.isDigit then some (c.toNat - '0'.toNat)
  else if 'a' ≤ c ∧ c ≤ 'f' then some (c.toNat - 'a'.toNat + 10)
  else if 'A' ≤ c ∧ c ≤ 'F' then some (c.toNat - 'A'.toNat + 10)
  else none

def hexUnit (a b c d : Char) : Option ℕ := do
  let a ← hexValue a
  let b ← hexValue b
  let c ← hexValue c
  let d ← hexValue d
  return ((a * 16 + b) * 16 + c) * 16 + d

/-- The characters of code units; a lone surrogate becomes the replacement character. -/
def ofUnits : List ℕ → List Char
  | [] => []
  | [u] => [if 0xD800 ≤ u ∧ u < 0xE000 then Char.ofNat 0xFFFD else Char.ofNat u]
  | u :: v :: rest =>
    if 0xD800 ≤ u ∧ u < 0xDC00 ∧ 0xDC00 ≤ v ∧ v < 0xE000 then
      Char.ofNat (0x10000 + (u - 0xD800) * 0x400 + (v - 0xDC00)) :: ofUnits rest
    else (if 0xD800 ≤ u ∧ u < 0xE000 then Char.ofNat 0xFFFD else Char.ofNat u) ::
      ofUnits (v :: rest)

/-- The character that a one-letter escape stands for. -/
def shortEscape (c : Char) : Option Char :=
  if c = '"' ∨ c = '\\' ∨ c = '/' then some c
  else if c = 'b' then some (Char.ofNat 8)
  else if c = 'f' then some (Char.ofNat 12)
  else if c = 'n' then some '\n'
  else if c = 'r' then some '\r'
  else if c = 't' then some '\t'
  else none

/-- The code units of a text up to its closing quote, and what follows it. -/
def readUnits : List Char → Option (List ℕ × List Char)
  | [] => none
  | '"' :: rest => some ([], rest)
  | '\\' :: 'u' :: a :: b :: c :: d :: rest => do
    let u ← hexUnit a b c d
    let (us, rest) ← readUnits rest
    return (u :: us, rest)
  | '\\' :: e :: rest => do
    let c ← shortEscape e
    let (us, rest) ← readUnits rest
    return (Utf16.ofChar c ++ us, rest)
  | c :: rest =>
    if c.toNat < 0x20 ∨ c = '\\' then none
    else do
      let (us, rest) ← readUnits rest
      return (Utf16.ofChar c ++ us, rest)

/-- A text after its opening quote. -/
def readText (s : List Char) : Option (String × List Char) := do
  let (us, rest) ← readUnits s
  return (String.ofList (ofUnits us), rest)

def digitsValue (ds : List Char) : ℕ :=
  ds.foldl (fun n c => n * 10 + (c.toNat - '0'.toNat)) 0

/-- The digits at the head of a text. -/
def readDigits (s : List Char) : List Char × List Char :=
  s.span Char.isDigit

/-- The fraction of a number: its digits. -/
def readFraction : List Char → Option (List Char × List Char)
  | '.' :: rest =>
    match readDigits rest with
    | ([], _) => none
    | (ds, rest) => some (ds, rest)
  | rest => some ([], rest)

/-- The exponent of a number. -/
def readExponent : List Char → Option (ℤ × List Char)
  | c :: rest =>
    if c = 'e' ∨ c = 'E' then
      let (negative, rest) := match rest with
        | '-' :: rest => (true, rest)
        | '+' :: rest => (false, rest)
        | rest => (false, rest)
      match readDigits rest with
      | ([], _) => none
      | (ds, rest) => some (if negative then -(digitsValue ds : ℤ) else digitsValue ds, rest)
    else some (0, c :: rest)
  | [] => some (0, [])

/-- A number without its sign. -/
def readMagnitude (negative : Bool) (s : List Char) : Option (Json × List Char) :=
  match readDigits s with
  | ([], _) => none
  | (ds, rest) =>
    if ds.head? = some '0' ∧ ds ≠ ['0'] then none
    else do
      let (fs, rest) ← readFraction rest
      let (e, rest) ← readExponent rest
      let m : ℤ := digitsValue (ds ++ fs)
      return (num (.ofParts (if negative then -m else m) (e - fs.length)), rest)

/-- An object with the value of one key set; a new key goes last. -/
def setField (fields : List (String × Json)) (k : String) (v : Json) : List (String × Json) :=
  match fields with
  | [] => [(k, v)]
  | (k', v') :: rest => if k' = k then (k, v) :: rest else (k', v') :: setField rest k v

/-- A fixed word. -/
def readWord (word : List Char) (v : Json) (s : List Char) : Option (Json × List Char) :=
  if s.take word.length = word then some (v, s.drop word.length) else none

mutual

/-- A value at the head of a text, and what follows it. -/
def readValue : ℕ → List Char → Option (Json × List Char)
  | 0, _ => none
  | fuel + 1, s =>
    match skipBlank s with
    | '\x7b' :: rest =>
      match skipBlank rest with
      | '\x7d' :: rest => some (obj [], rest)
      | rest => (readMembers fuel [] rest).map fun p => (obj p.1, p.2)
    | '[' :: rest =>
      match skipBlank rest with
      | ']' :: rest => some (arr [], rest)
      | rest => (readElements fuel rest).map fun p => (arr p.1, p.2)
    | '"' :: rest => (readText rest).map fun p => (str p.1, p.2)
    | 't' :: rest => readWord "true".toList (bool true) ('t' :: rest)
    | 'f' :: rest => readWord "false".toList (bool false) ('f' :: rest)
    | 'n' :: rest => readWord "null".toList null ('n' :: rest)
    | '-' :: rest => readMagnitude true rest
    | s => readMagnitude false s

/-- The elements of an array up to its bracket. -/
def readElements : ℕ → List Char → Option (List Json × List Char)
  | 0, _ => none
  | fuel + 1, s => do
    let (x, rest) ← readValue fuel s
    match skipBlank rest with
    | ',' :: rest => do
      let (xs, rest) ← readElements fuel rest
      return (x :: xs, rest)
    | ']' :: rest => return ([x], rest)
    | _ => none

/-- The members of an object up to its brace, after the fields read so far. -/
def readMembers : ℕ → List (String × Json) → List Char → Option (List (String × Json) × List Char)
  | 0, _, _ => none
  | fuel + 1, fields, s =>
    match skipBlank s with
    | '"' :: rest => do
      let (k, rest) ← readText rest
      match skipBlank rest with
      | ':' :: rest => do
        let (x, rest) ← readValue fuel rest
        match skipBlank rest with
        | ',' :: rest => readMembers fuel (setField fields k x) rest
        | '\x7d' :: rest => return (setField fields k x, rest)
        | _ => none
      | _ => none
    | _ => none

end

/-- `JSON.parse`, or `none` where it raises. -/
def parse (s : List Char) : Option Json :=
  match readValue (s.length + 1) s with
  | some (v, rest) => if rest.all isBlank then some v else none
  | none => none

/-! ## Writing -/

/-- A line break and the indent of a depth. -/
def lineBreak (depth : ℕ) : List Char :=
  '\n' :: List.replicate (2 * depth) ' '

mutual

/-- The characters of `JSON.stringify(value, null, 2)` at a depth. -/
def prettyChars (depth : ℕ) : Json → List Char
  | arr [] => ['[', ']']
  | arr (x :: xs) =>
    '[' :: lineBreak (depth + 1) ++ prettyChars (depth + 1) x ++ prettyElements depth xs ++
      lineBreak depth ++ [']']
  | obj [] => ['\x7b', '\x7d']
  | obj ((k, x) :: fields) =>
    '\x7b' :: lineBreak (depth + 1) ++ quote k ++ [':', ' '] ++ prettyChars (depth + 1) x ++
      prettyMembers depth fields ++ lineBreak depth ++ ['\x7d']
  | v => v.chars

/-- The elements after the first one. -/
def prettyElements (depth : ℕ) : List Json → List Char
  | [] => []
  | x :: xs => ',' :: lineBreak (depth + 1) ++ prettyChars (depth + 1) x ++ prettyElements depth xs

/-- The members after the first one. -/
def prettyMembers (depth : ℕ) : List (String × Json) → List Char
  | [] => []
  | (k, x) :: fields =>
    ',' :: lineBreak (depth + 1) ++ quote k ++ [':', ' '] ++ prettyChars (depth + 1) x ++
      prettyMembers depth fields

end

/-- `JSON.stringify(value, null, 2)`. -/
def pretty (v : Json) : List Char :=
  prettyChars 0 v

/-! ## Fenced blocks -/

def fence : List Char := ['\x60', '\x60', '\x60']

/-- What precedes the first fence of a text. -/
def untilFence : List Char → Option (List Char)
  | [] => none
  | c :: rest =>
    if (c :: rest).take 3 = fence then some [] else (untilFence rest).map (c :: ·)

/-- The text without its outer white space. -/
def trimChars (isSpace : Char → Bool) (s : List Char) : List Char :=
  (((s.dropWhile isSpace).reverse).dropWhile isSpace).reverse

/-- The content of the first block that opens with a fence and the word `json`, in either case. -/
def fenced? (isSpace : Char → Bool) : List Char → Option (List Char)
  | [] => none
  | c :: rest =>
    if (c :: rest).take 3 = fence ∧
        (((c :: rest).drop 3).take 4).map Char.toLower = "json".toList then
      (untilFence (((c :: rest).drop 7).dropWhile isSpace)).map (trimChars isSpace)
    else fenced? isSpace rest

/-! ## Quoted texts -/

theorem hexValue_hexDigit : ∀ n < 16, hexValue (hexDigit n) = some n := by
  decide

theorem hexUnit_control {n : ℕ} (h : n < 0x20) :
    hexUnit '0' '0' (hexDigit (n / 16)) (hexDigit (n % 16)) = some n := by
  have hhigh := hexValue_hexDigit (n / 16) (by omega)
  have hlow := hexValue_hexDigit (n % 16) (by omega)
  have hzero : hexValue '0' = some 0 := by decide
  simp only [hexUnit, hhigh, hlow, hzero]
  show some (((0 * 16 + 0) * 16 + n / 16) * 16 + n % 16) = some n
  congr 1
  omega

theorem ofChar_of_lt {c : Char} (h : c.toNat < 0x10000) : Utf16.ofChar c = [c.toNat] :=
  if_pos h

theorem readUnits_short {e c : Char} (he : e ≠ 'u') (hc : shortEscape e = some c)
    (rest : List Char) : readUnits ('\\' :: e :: rest) =
      (readUnits rest).map fun p => (Utf16.ofChar c ++ p.1, p.2) := by
  rw [readUnits.eq_4]
  · rw [hc]
    cases readUnits rest <;> rfl
  · intro a b c d rest' hu
    exact absurd hu he

theorem readUnits_control {c : Char} (h : c.toNat < 0x20) (rest : List Char) :
    readUnits ('\\' :: 'u' :: '0' :: '0' :: hexDigit (c.toNat / 16) :: hexDigit (c.toNat % 16) ::
        rest) = (readUnits rest).map fun p => (Utf16.ofChar c ++ p.1, p.2) := by
  rw [readUnits.eq_3, hexUnit_control h, ofChar_of_lt (by omega)]
  cases readUnits rest <;> rfl

theorem readUnits_plain {c : Char} (hq : c ≠ '"') (hb : c ≠ '\\') (h : ¬ c.toNat < 0x20)
    (rest : List Char) : readUnits (c :: rest) =
      (readUnits rest).map fun p => (Utf16.ofChar c ++ p.1, p.2) := by
  rw [readUnits.eq_5]
  · rw [if_neg (by simp [hb, h])]
    cases readUnits rest <;> rfl
  · exact hq
  · intro a b c' d rest' hc
    exact absurd hc hb
  · intro e rest' hc
    exact absurd hc hb

/-- Reading undoes the escape of one character. -/
theorem readUnits_escape (c : Char) (rest : List Char) :
    readUnits (escape c ++ rest) =
      (readUnits rest).map fun p => (Utf16.ofChar c ++ p.1, p.2) := by
  have hcode : ∀ n : ℕ, c.toNat = n → c = Char.ofNat n := fun n hn => by
    rw [← hn, Char.ofNat_toNat]
  unfold escape
  split_ifs with h1 h2 h3 h4 h5 h6 h7 h8
  · subst h1
    exact readUnits_short (by decide) (by decide) rest
  · subst h2
    exact readUnits_short (by decide) (by decide) rest
  · rw [hcode _ h3]
    exact readUnits_short (by decide) (by decide) rest
  · rw [hcode _ h4]
    exact readUnits_short (by decide) (by decide) rest
  · subst h5
    exact readUnits_short (by decide) (by decide) rest
  · subst h6
    exact readUnits_short (by decide) (by decide) rest
  · subst h7
    exact readUnits_short (by decide) (by decide) rest
  · exact readUnits_control h8 rest
  · exact readUnits_plain h1 h2 h8 rest

/-- Reading undoes the quoting of a text. -/
theorem readUnits_quoted (cs rest : List Char) :
    readUnits (cs.flatMap escape ++ '"' :: rest) = some (cs.flatMap Utf16.ofChar, rest) := by
  induction cs with
  | nil => rfl
  | cons c cs ih =>
    rw [List.flatMap_cons, List.append_assoc, readUnits_escape, ih]
    rfl

/-- A quoted text ends where it ends: it is a prefix of one text only. -/
theorem quote_append_inj {s t : String} {rest rest' : List Char}
    (h : quote s ++ rest = quote t ++ rest') : s = t ∧ rest = rest' := by
  simp only [quote, List.cons_append, List.append_assoc, List.nil_append, List.cons.injEq,
    true_and] at h
  have hs := readUnits_quoted s.toList rest
  rw [h, readUnits_quoted t.toList rest'] at hs
  obtain ⟨hunits, hrest⟩ := Prod.mk.inj (Option.some.inj hs)
  exact ⟨(Utf16.units_injective hunits).symm, hrest.symm⟩

end Json
