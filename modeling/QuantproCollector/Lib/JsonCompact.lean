import QuantproCollector.Lib.JsonReadBack

/-!
# Reading back the compact text

`parse` undoes `JSON.stringify` of a value whose keys are distinct (`parse_chars`).
-/

namespace Json

/-- A value is written from a character on that is neither blank nor a closing bracket. -/
theorem chars_first (v : Json) : ∃ c s, v.chars = c :: s ∧ isBlank c = false ∧ c ≠ ']' := by
  cases v with
  | arr xs => exact ⟨_, _, rfl, rfl, by decide⟩
  | obj fields => exact ⟨_, _, rfl, rfl, by decide⟩
  | null => exact prettyChars_eq_cons 0 null
  | bool b =>
    obtain ⟨c, s, h, hc⟩ := prettyChars_eq_cons 0 (bool b)
    refine ⟨c, s, ?_, hc⟩
    rw [← h]
    cases b <;> rfl
  | num x => exact prettyChars_eq_cons 0 (num x)
  | str s => exact prettyChars_eq_cons 0 (str s)

theorem ends_bracket (s : List Char) : Ends (']' :: s) :=
  ⟨delimited_cons (by decide) _, by simp⟩

theorem ends_brace (s : List Char) : Ends ('\x7d' :: s) :=
  ⟨delimited_cons (by decide) _, by simp⟩

/-- A member of an object, up to what follows its value. -/
theorem readMembers_compact (fuel : ℕ) (fields : List (String × Json)) (k : String) {x : Json}
    {s t : List Char} (h : readValue fuel s = some (x, t)) :
    readMembers (fuel + 1) fields (quote k ++ ':' :: s) =
      match skipBlank t with
      | ',' :: rest => readMembers fuel (setField fields k x) rest
      | '\x7d' :: rest => some (setField fields k x, rest)
      | _ => none := by
  rw [quote_append, readMembers]
  show (readText (k.toList.flatMap escape ++ '"' :: ':' :: s) >>= _) = _
  rw [readText_quoted]
  show (readValue fuel s >>= _) = _
  rw [h]
  rfl

theorem elements_cons_cons (x y : Json) (xs : List Json) :
    elements (x :: y :: xs) = x.chars ++ ',' :: elements (y :: xs) := rfl

theorem members_cons_cons (k : String) (x : Json) (m : String × Json) (ms : List (String × Json)) :
    members ((k, x) :: m :: ms) = quote k ++ ':' :: x.chars ++ ',' :: members (m :: ms) := rfl

mutual

/-- Reading undoes the writing of a value. -/
theorem readValue_chars (v : Json) (fuel : ℕ) (rest : List Char) (hv : v.Distinct)
    (hfuel : v.chars.length < fuel) (hrest : Ends rest) :
    readValue fuel (v.chars ++ rest) = some (v, rest) := by
  obtain ⟨fuel, rfl⟩ : ∃ n, fuel = n + 1 := ⟨fuel - 1, by omega⟩
  match v, hv, hfuel with
  | null, _, _ => rfl
  | bool true, _, _ => rfl
  | bool false, _, _ => rfl
  | num x, _, _ => exact readValue_num x fuel hrest
  | str s, _, _ =>
    show readValue (fuel + 1) (quote s ++ rest) = _
    rw [quote_append, readValue]
    show (readText (s.toList.flatMap escape ++ '"' :: rest)).map _ = _
    rw [readText_quoted]
    rfl
  | arr [], _, _ => rfl
  | arr (x :: xs), hv, hfuel =>
    have htext : (arr (x :: xs)).chars = '[' :: (elements (x :: xs) ++ [']']) := rfl
    rw [htext, List.length_cons, List.length_append, List.length_singleton] at hfuel
    have hread := readElements_chars (x :: xs) fuel rest (by simp) hv (by omega)
    rw [htext, List.cons_append, List.append_assoc, List.singleton_append]
    refine readValue_elements ?_ hread
    obtain ⟨c, s, hs, hblank, hc⟩ := chars_first x
    have hfirst : ∃ s', elements (x :: xs) = c :: s' := by
      cases xs with
      | nil => exact ⟨s, hs⟩
      | cons y ys => exact ⟨_, by rw [elements_cons_cons, hs, List.cons_append]⟩
    obtain ⟨s', hs'⟩ := hfirst
    rw [hs', List.cons_append]
    exact ⟨c, _, skipBlank_cons hblank _, hc⟩
  | obj [], _, _ => rfl
  | obj ((k, x) :: fields), hv, hfuel =>
    have htext : (obj ((k, x) :: fields)).chars = '\x7b' :: (members ((k, x) :: fields) ++ ['\x7d']) := rfl
    rw [htext, List.length_cons, List.length_append, List.length_singleton] at hfuel
    have hread := readMembers_chars ((k, x) :: fields) [] fuel rest (by simp) hv.2
      (by simpa using hv.1) (by omega)
    rw [htext, List.cons_append, List.append_assoc, List.singleton_append]
    refine readValue_fields ?_ hread
    have hfirst : ∃ s', members ((k, x) :: fields) = '"' :: s' := by
      cases fields with
      | nil => exact ⟨_, rfl⟩
      | cons m ms => exact ⟨_, rfl⟩
    obtain ⟨s', hs'⟩ := hfirst
    rw [hs', List.cons_append]
    exact ⟨_, skipBlank_cons (by decide) _⟩

theorem readElements_chars (xs : List Json) (fuel : ℕ) (rest : List Char) (hne : xs ≠ [])
    (hxs : DistinctElements xs) (hfuel : (elements xs).length + 1 < fuel) :
    readElements fuel (elements xs ++ ']' :: rest) = some (xs, rest) := by
  obtain ⟨fuel, rfl⟩ : ∃ n, fuel = n + 1 := ⟨fuel - 1, by omega⟩
  match xs, hne, hxs, hfuel with
  | [x], _, hxs, hfuel =>
    have hlength : (elements [x]).length = x.chars.length := rfl
    have hread := readValue_chars x fuel (']' :: rest) hxs.1 (by omega) (ends_bracket _)
    rw [show elements [x] = x.chars from rfl, readElements, hread]
    dsimp only [Option.bind_eq_bind, Option.bind_some]
    rw [skipBlank_cons (by decide)]
    rfl
  | x :: y :: ys, _, hxs, hfuel =>
    rw [elements_cons_cons, List.length_append, List.length_cons] at hfuel
    have hread := readValue_chars x fuel (',' :: (elements (y :: ys) ++ ']' :: rest)) hxs.1 (by omega)
      (ends_comma _)
    have hrest := readElements_chars (y :: ys) fuel rest (by simp) hxs.2 (by omega)
    rw [elements_cons_cons, List.append_assoc, List.cons_append, readElements, hread]
    dsimp only [Option.bind_eq_bind, Option.bind_some]
    rw [skipBlank_cons (by decide)]
    simp only [hrest]
    rfl

theorem readMembers_chars (fields acc : List (String × Json)) (fuel : ℕ) (rest : List Char)
    (hne : fields ≠ []) (hfields : DistinctFields fields)
    (hkeys : ((acc ++ fields).map Prod.fst).Nodup) (hfuel : (members fields).length + 1 < fuel) :
    readMembers fuel acc (members fields ++ '\x7d' :: rest) = some (acc ++ fields, rest) := by
  obtain ⟨fuel, rfl⟩ : ∃ n, fuel = n + 1 := ⟨fuel - 1, by omega⟩
  match fields, hne, hfields, hkeys, hfuel with
  | [(k, x)], _, hfields, hkeys, hfuel =>
    have htext : members [(k, x)] = quote k ++ ':' :: x.chars := rfl
    rw [htext, List.length_append, List.length_cons] at hfuel
    have hread := readValue_chars x fuel ('\x7d' :: rest) hfields.1 (by omega) (ends_brace _)
    have hnew : k ∉ acc.map Prod.fst := by
      intro hk
      rw [List.map_append] at hkeys
      exact List.disjoint_of_nodup_append hkeys hk (by simp)
    rw [htext, List.append_assoc, List.cons_append, readMembers_compact fuel acc k hread,
      skipBlank_cons (by decide), setField_of_not_mem x hnew]
    rfl
  | (k, x) :: (l, y) :: fields, _, hfields, hkeys, hfuel =>
    rw [members_cons_cons, List.length_append, List.length_append, List.length_cons,
      List.length_cons] at hfuel
    have hread := readValue_chars x fuel (',' :: (members ((l, y) :: fields) ++ '\x7d' :: rest)) hfields.1
      (by omega) (ends_comma _)
    have hnew : k ∉ acc.map Prod.fst := by
      intro hk
      rw [List.map_append] at hkeys
      exact List.disjoint_of_nodup_append hkeys hk (by simp)
    have hrest := readMembers_chars ((l, y) :: fields) (acc ++ [(k, x)]) fuel rest (by simp) hfields.2
      (by simpa using hkeys) (by omega)
    have htext : members ((k, x) :: (l, y) :: fields) ++ '\x7d' :: rest =
        quote k ++ ':' :: (x.chars ++ ',' :: (members ((l, y) :: fields) ++ '\x7d' :: rest)) := by
      simp [members_cons_cons]
    rw [htext, readMembers_compact fuel acc k hread, skipBlank_cons (by decide),
      setField_of_not_mem x hnew]
    simp only [hrest]
    rw [List.append_assoc, List.singleton_append]

end

/-- **Reading back.** The compact text of a value with distinct keys is read as that value. -/
theorem parse_chars {v : Json} (hv : v.Distinct) : parse v.chars = some v := by
  have hread := readValue_chars v (v.chars.length + 1) [] hv (by omega) ⟨by simp [Delimited], by simp⟩
  rw [List.append_nil] at hread
  unfold parse
  rw [hread]
  rfl

end Json
