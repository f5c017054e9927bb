import QuantproCollector.Lib.JsonText

/-!
# Reading flat objects

Reading undoes the writing of an object member by member: a member whose value is read back leaves
the rest of the object to be read.
-/

namespace Json

/-- A text of characters below the surrogates. -/
def Plain (s : String) : Prop :=
  ∀ c ∈ s.toList, c.toNat < 0xD800

theorem plain_iff_all (s : String) :
    (s.toList.all fun c => decide (c.toNat < 0xD800)) = true ↔ Plain s := by
  simp only [List.all_eq_true, decide_eq_true_eq, Plain]

instance (s : String) : Decidable (Plain s) :=
  decidable_of_iff _ (plain_iff_all s)

theorem ofUnits_map {cs : List Char} (h : ∀ c ∈ cs, c.toNat < 0xD800) :
    ofUnits (cs.map Char.toNat) = cs := by
  have hone : ∀ c : Char, c.toNat < 0xD800 →
      (if 0xD800 ≤ c.toNat ∧ c.toNat < 0xE000 then Char.ofNat 0xFFFD else Char.ofNat c.toNat) = c := by
    intro c hc
    rw [if_neg (by omega), Char.ofNat_toNat]
  induction cs with
  | nil => rfl
  | cons c cs ih =>
    have hc := h c (by simp)
    have hrest := ih fun d hd => h d (by simp [hd])
    cases cs with
    | nil => exact congrArg (fun d => [d]) (hone c hc)
    | cons d cs =>
      change (if 0xD800 ≤ c.toNat ∧ _ then _ else _) = _
      rw [if_neg (by omega), hone c hc]
      exact congrArg (List.cons c) hrest

/-- Reading undoes the quoting of a plain text. -/
theorem readText_quote {s : String} (h : Plain s) (rest : List Char) :
    readText (s.toList.flatMap escape ++ '"' :: rest) = some (s, rest) := by
  have hunits : s.toList.flatMap Utf16.ofChar = s.toList.map Char.toNat := by
    rw [List.map_eq_flatMap]
    exact List.flatMap_congr fun c hc => ofChar_of_lt (by have := h c hc; omega)
  unfold readText
  rw [readUnits_quoted, hunits]
  change some (String.ofList (ofUnits (s.toList.map Char.toNat)), rest) = _
  rw [ofUnits_map h, String.ofList_toList]

theorem quote_append (s : String) (rest : List Char) :
    quote s ++ rest = '"' :: (s.toList.flatMap escape ++ '"' :: rest) := by
  simp [quote]

theorem readValue_quote {s : String} (h : Plain s) (fuel : ℕ) (rest : List Char) :
    readValue (fuel + 1) (quote s ++ rest) = some (str s, rest) := by
  rw [quote_append, readValue]
  change (readText (s.toList.flatMap escape ++ '"' :: rest)).map _ = _
  rw [readText_quote h rest]
  rfl

section Members

variable {k : String} {x : Json} {xs rest : List Char} {fuel : ℕ}

/-- An object that has members. -/
theorem readValue_members {fields : List (String × Json)} {tail : List Char}
    (h : readMembers fuel [] (quote k ++ tail) = some (fields, rest)) :
    readValue (fuel + 1) ('\x7b' :: (quote k ++ tail)) = some (obj fields, rest) := by
  rw [quote_append] at h ⊢
  rw [readValue]
  change (readMembers fuel [] ('"' :: (k.toList.flatMap escape ++ '"' :: tail))).map _ = _
  rw [h]
  rfl

/-- A member that is not the last one. -/
theorem readMembers_cons (hk : Plain k) (fields : List (String × Json))
    (hx : readValue fuel (xs ++ ',' :: rest) = some (x, ',' :: rest)) :
    readMembers (fuel + 1) fields (quote k ++ ':' :: (xs ++ ',' :: rest)) =
      readMembers fuel (setField fields k x) rest := by
  rw [quote_append, readMembers]
  change (readText (k.toList.flatMap escape ++ '"' :: ':' :: (xs ++ ',' :: rest)) >>= _) = _
  rw [readText_quote hk]
  change (readValue fuel (xs ++ ',' :: rest) >>= _) = _
  rw [hx]
  rfl

/-- The last member. -/
theorem readMembers_last (hk : Plain k) (fields : List (String × Json))
    (hx : readValue fuel (xs ++ '\x7d' :: rest) = some (x, '\x7d' :: rest)) :
    readMembers (fuel + 1) fields (quote k ++ ':' :: (xs ++ '\x7d' :: rest)) =
      some (setField fields k x, rest) := by
  rw [quote_append, readMembers]
  change (readText (k.toList.flatMap escape ++ '"' :: ':' :: (xs ++ '\x7d' :: rest)) >>= _) = _
  rw [readText_quote hk]
  change (readValue fuel (xs ++ '\x7d' :: rest) >>= _) = _
  rw [hx]
  rfl

end Members

end Json
