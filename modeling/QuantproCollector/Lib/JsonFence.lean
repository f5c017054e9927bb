import QuantproCollector.Lib.JsonReadBack

/-!
# Values in a fenced block

An object written into a fenced block is found again where none of its texts has a fence of its own
(`fenced_pretty`). Otherwise the block ends at the first such fence (`fenced_cut`), and what precedes it is
no JSON text: a value that was read to its end is read alike whatever follows (`read_append`), so an object
that ended early would end early in its own full text too.
-/

namespace Json

/-! ## The end of a block -/

theorem take_fence_of_append {s t : List Char} (hs : 3 ≤ s.length) :
    (s ++ t).take 3 = fence ↔ fence <+: s := by
  rw [List.take_append_of_le_length hs, List.prefix_iff_eq_take]
  exact eq_comm

/-- The first fence of a text ends the block, whatever follows. -/
theorem untilFence_of_infix {s : List Char} (h : fence <:+: s) :
    ∃ before after, s = before ++ fence ++ after ∧ ∀ t, untilFence (s ++ t) = some before := by
  induction s with
  | nil =>
    have := List.eq_nil_of_infix_nil h
    cases this
  | cons c s ih =>
    have hlen : 3 ≤ (c :: s).length := h.length_le
    by_cases hfence : fence <+: c :: s
    · obtain ⟨after, hafter⟩ := hfence
      refine ⟨[], after, hafter.symm, fun t => ?_⟩
      rw [List.cons_append, untilFence, ← List.cons_append, if_pos]
      exact (take_fence_of_append hlen).2 ⟨after, hafter⟩
    · obtain ⟨before, after, hs, hread⟩ := ih ((List.infix_cons_iff.1 h).resolve_left hfence)
      refine ⟨c :: before, after, by rw [hs]; rfl, fun t => ?_⟩
      rw [List.cons_append, untilFence, ← List.cons_append, if_neg, hread]
      · rfl
      · rwa [take_fence_of_append hlen]

/-- Without a fence in the text, the block ends at the fence of its own line. -/
theorem untilFence_line {s : List Char} (h : ¬ fence <:+: s) (t : List Char) :
    untilFence (s ++ '\n' :: (fence ++ t)) = some (s ++ ['\n']) := by
  induction s with
  | nil => rfl
  | cons c s ih =>
    have hrest : ¬ fence <:+: s := fun hs => h (List.infix_cons_iff.2 (.inr hs))
    have hnot : (c :: (s ++ '\n' :: (fence ++ t))).take 3 ≠ fence := by
      intro htake
      match s, h, htake with
      | [], _, htake => cases htake
      | [d], _, htake => cases htake
      | d :: e :: s, h, htake =>
        refine h (List.IsPrefix.isInfix ⟨s, ?_⟩)
        rw [← htake]
        rfl
    rw [List.cons_append, untilFence, if_neg hnot, ih hrest]
    rfl

theorem trimChars_of {isSpace : Char → Bool} {s : List Char} {c : Char}
    (hfirst : ∀ d ∈ s.head?, isSpace d = false)
    (hc : isSpace c = false) (t : List Char) (ht : ∀ d ∈ t, isSpace d = true) :
    trimChars isSpace (s ++ c :: t) = s ++ [c] := by
  have hstart : (s ++ c :: t).dropWhile isSpace = s ++ c :: t := by
    cases s with
    | nil => exact List.dropWhile_cons_of_neg (by simp [hc])
    | cons d s => exact List.dropWhile_cons_of_neg (by simp [hfirst d rfl])
  unfold trimChars
  rw [hstart, List.reverse_append, List.reverse_cons, List.append_assoc,
    List.dropWhile_append_of_pos (by simpa using ht), List.singleton_append,
    List.dropWhile_cons_of_neg (by simp [hc])]
  simp

/-! ## Reading on -/

section Append

variable {rest t : List Char}

theorem readUnits_append {s : List Char} {us : List ℕ} (h : readUnits s = some (us, rest)) :
    readUnits (s ++ t) = some (us, rest ++ t) := by
  induction s using readUnits.induct generalizing us rest with
  | case1 => cases h
  | case2 s =>
    cases h
    rfl
  | case3 a b c d s ih =>
    simp only [readUnits, Option.bind_eq_bind, Option.bind_eq_some_iff] at h
    obtain ⟨u, hu, ⟨vs, r⟩, hvs, hr⟩ := h
    cases hr
    simp only [List.cons_append, readUnits, Option.bind_eq_bind, hu, ih hvs, Option.bind_some]
    rfl
  | case4 e s hu ih =>
    rw [readUnits.eq_4 _ _ hu] at h
    simp only [Option.bind_eq_bind, Option.bind_eq_some_iff] at h
    obtain ⟨c, hc, ⟨vs, r⟩, hvs, hr⟩ := h
    cases hr
    have he : e ≠ 'u' := by
      rintro rfl
      cases hc
    rw [List.cons_append, List.cons_append, readUnits.eq_4 _ _ fun _ _ _ _ _ heq => absurd heq he, hc,
      ih hvs]
    rfl
  | case5 c s hq hu hs hbad =>
    rw [readUnits.eq_5 _ _ hq hu hs, if_pos hbad] at h
    cases h
  | case6 c s hq hu hs hgood ih =>
    rw [readUnits.eq_5 _ _ hq hu hs, if_neg hgood] at h
    simp only [Option.bind_eq_bind, Option.bind_eq_some_iff] at h
    obtain ⟨⟨vs, r⟩, hvs, hr⟩ := h
    cases hr
    have hslash : c ≠ '\\' := fun hc => hgood (.inr hc)
    rw [List.cons_append, readUnits.eq_5 _ _ hq (fun _ _ _ _ _ heq => absurd heq hslash)
      (fun _ _ heq => absurd heq hslash), if_neg hgood, ih hvs]
    rfl

theorem readText_append {s : List Char} {x : String} (h : readText s = some (x, rest)) :
    readText (s ++ t) = some (x, rest ++ t) := by
  unfold readText at h ⊢
  simp only [Option.bind_eq_bind, Option.bind_eq_some_iff] at h
  obtain ⟨⟨us, r⟩, hus, hr⟩ := h
  cases hr
  rw [readUnits_append hus]
  rfl

theorem readWord_append {word s : List Char} {v w : Json} (h : readWord word v s = some (w, rest)) :
    readWord word v (s ++ t) = some (w, rest ++ t) := by
  unfold readWord at h ⊢
  split_ifs at h with hword
  cases h
  have hlen : word.length ≤ s.length := by
    have := congrArg List.length hword
    rw [List.length_take] at this
    omega
  rw [List.take_append_of_le_length hlen, if_pos hword, List.drop_append_of_le_length hlen]

theorem readDigits_append_of {s ds : List Char} (h : readDigits s = (ds, rest)) (hrest : rest ≠ []) :
    readDigits (s ++ t) = (ds, rest ++ t) := by
  unfold readDigits at h ⊢
  rw [List.span_eq_takeWhile_dropWhile] at h ⊢
  obtain ⟨rfl, rfl⟩ := Prod.mk.inj h
  rw [List.takeWhile_append, List.dropWhile_append]
  have hne : (s.takeWhile Char.isDigit).length ≠ s.length := by
    intro heq
    have hlen := congrArg List.length (List.takeWhile_append_dropWhile (p := Char.isDigit) (l := s))
    rw [List.length_append] at hlen
    exact hrest (List.length_eq_zero_iff.1 (by omega))
  rw [if_neg hne, if_neg (by simpa using hrest)]

theorem readFraction_append {s fs : List Char} (h : readFraction s = some (fs, rest)) (hrest : rest ≠ []) :
    readFraction (s ++ t) = some (fs, rest ++ t) := by
  cases s with
  | nil =>
    cases h
    exact absurd rfl hrest
  | cons c s =>
    by_cases hc : c = '.'
    · subst hc
      rw [readFraction] at h
      rw [List.cons_append, readFraction]
      cases hdigits : readDigits s with
      | mk ds r =>
        rw [hdigits] at h
        cases ds with
        | nil => cases h
        | cons d ds =>
          cases h
          rw [readDigits_append_of hdigits hrest]
    · rw [readFraction_of_ne (by simpa using hc)] at h
      cases h
      rw [readFraction_of_ne (by simpa using hc)]

/-- The digits of an exponent, under its sign, in a longer text. -/
theorem readSigned_append (negative : Bool) (s : List Char) {e : ℤ} (hrest : rest ≠ [])
    (h : (match readDigits s with
      | ([], _) => none
      | (ds, r) => some (if negative then -(digitsValue ds : ℤ) else digitsValue ds, r)) = some (e, rest)) :
    (match readDigits (s ++ t) with
      | ([], _) => none
      | (ds, r) => some (if negative then -(digitsValue ds : ℤ) else digitsValue ds, r)) =
        some (e, rest ++ t) := by
  cases hdigits : readDigits s with
  | mk ds r =>
    rw [hdigits] at h
    cases ds with
    | nil => cases h
    | cons d ds =>
      cases h
      rw [readDigits_append_of hdigits hrest]

theorem readExponent_append {s : List Char} {e : ℤ} (h : readExponent s = some (e, rest))
    (hrest : rest ≠ []) : readExponent (s ++ t) = some (e, rest ++ t) := by
  cases s with
  | nil =>
    cases h
    exact absurd rfl hrest
  | cons c s =>
    by_cases hc : c = 'e' ∨ c = 'E'
    · by_cases hminus : ∃ s', s = '-' :: s'
      · obtain ⟨s, rfl⟩ := hminus
        rw [readExponent, if_pos hc] at h
        rw [List.cons_append, List.cons_append, readExponent, if_pos hc]
        exact readSigned_append true s hrest h
      by_cases hplus : ∃ s', s = '+' :: s'
      · obtain ⟨s, rfl⟩ := hplus
        rw [readExponent, if_pos hc] at h
        rw [List.cons_append, List.cons_append, readExponent, if_pos hc]
        exact readSigned_append false s hrest h
      rw [readExponent.eq_3 c s (fun s' heq => hminus ⟨s', heq⟩) (fun s' heq => hplus ⟨s', heq⟩),
        if_pos hc] at h
      have hne : s ≠ [] := by
        rintro rfl
        cases h
      obtain ⟨d, s, rfl⟩ := List.exists_cons_of_ne_nil hne
      rw [List.cons_append, readExponent.eq_3 c (d :: s ++ t), if_pos hc]
      · exact readSigned_append false _ hrest h
      · intro s' heq
        exact hminus ⟨s, by rw [(List.cons.inj heq).1]⟩
      · intro s' heq
        exact hplus ⟨s, by rw [(List.cons.inj heq).1]⟩
    · have hread : ∀ s' : List Char, readExponent (c :: s') = some (0, c :: s') := fun s' => if_neg hc
      rw [hread] at h
      cases h
      rw [List.cons_append, hread]

theorem readMagnitude_append {negative : Bool} {s : List Char} {v : Json}
    (h : readMagnitude negative s = some (v, rest)) (hrest : rest ≠ []) :
    readMagnitude negative (s ++ t) = some (v, rest ++ t) := by
  unfold readMagnitude at h ⊢
  cases hdigits : readDigits s with
  | mk ds tail =>
    rw [hdigits] at h
    cases ds with
    | nil => cases h
    | cons d ds =>
      dsimp only at h
      by_cases hhead : (d :: ds).head? = some '0' ∧ d :: ds ≠ ['0']
      · rw [if_pos hhead] at h
        cases h
      rw [if_neg hhead] at h
      simp only [Option.bind_eq_bind, Option.bind_eq_some_iff] at h
      obtain ⟨⟨fs, tail'⟩, hfraction, ⟨e, r⟩, hexponent, hr⟩ := h
      cases hr
      have htail' : tail' ≠ [] := by
        rintro rfl
        cases hexponent
        exact hrest rfl
      have htail : tail ≠ [] := by
        rintro rfl
        cases hfraction
        exact htail' rfl
      rw [readDigits_append_of hdigits htail]
      dsimp only
      rw [if_neg hhead, readFraction_append hfraction htail']
      dsimp only [Option.bind_eq_bind, Option.bind_some]
      rw [readExponent_append hexponent hrest]
      rfl

theorem num_of_readMagnitude {negative : Bool} {s : List Char} {v : Json}
    (h : readMagnitude negative s = some (v, rest)) : ∃ x, v = num x := by
  unfold readMagnitude at h
  cases hdigits : readDigits s with
  | mk ds tail =>
    rw [hdigits] at h
    cases ds with
    | nil => cases h
    | cons d ds =>
      dsimp only at h
      by_cases hhead : (d :: ds).head? = some '0' ∧ d :: ds ≠ ['0']
      · rw [if_pos hhead] at h
        cases h
      rw [if_neg hhead] at h
      simp only [Option.bind_eq_bind, Option.bind_eq_some_iff] at h
      obtain ⟨⟨fs, tail'⟩, -, ⟨e, r⟩, -, hr⟩ := h
      cases hr
      exact ⟨_, rfl⟩

theorem skipBlank_append {c : Char} {s s' : List Char} (h : skipBlank s = c :: s') (t : List Char) :
    skipBlank (s ++ t) = c :: (s' ++ t) := by
  unfold skipBlank at h ⊢
  rw [List.dropWhile_append, h]
  rfl

theorem ne_nil_of_skipBlank {c : Char} {s s' : List Char} (h : skipBlank s = c :: s') : s ≠ [] := by
  rintro rfl
  cases h

/-- What follows an opening brace. -/
theorem readValue_brace {s u : List Char} (h : skipBlank s = '\x7b' :: u) (fuel : ℕ) :
    readValue (fuel + 1) s = match skipBlank u with
      | '\x7d' :: rest => some (obj [], rest)
      | rest => (readMembers fuel [] rest).map fun p => (obj p.1, p.2) := by
  rw [readValue, h]
  rfl

/-- What follows an opening bracket. -/
theorem readValue_bracket {s u : List Char} (h : skipBlank s = '[' :: u) (fuel : ℕ) :
    readValue (fuel + 1) s = match skipBlank u with
      | ']' :: rest => some (arr [], rest)
      | rest => (readElements fuel rest).map fun p => (arr p.1, p.2) := by
  rw [readValue, h]
  rfl

theorem readValue_text {s u : List Char} (h : skipBlank s = '"' :: u) (fuel : ℕ) :
    readValue (fuel + 1) s = (readText u).map fun p => (str p.1, p.2) := by
  rw [readValue, h]
  rfl

/-- A value that was read to its end is read alike whatever follows; only a number may go on. -/
theorem read_append (t : List Char) (fuel : ℕ) :
    (∀ fuel' s v rest, fuel ≤ fuel' → readValue fuel s = some (v, rest) → (rest = [] → ∀ x, v ≠ num x) →
      readValue fuel' (s ++ t) = some (v, rest ++ t)) ∧
    (∀ fuel' s xs rest, fuel ≤ fuel' → readElements fuel s = some (xs, rest) →
      readElements fuel' (s ++ t) = some (xs, rest ++ t)) ∧
    (∀ fuel' acc s fields rest, fuel ≤ fuel' → readMembers fuel acc s = some (fields, rest) →
      readMembers fuel' acc (s ++ t) = some (fields, rest ++ t)) := by
  induction fuel with
  | zero =>
    refine ⟨?_, ?_, ?_⟩
    · intro fuel' s v rest _ h
      cases h
    · intro fuel' s xs rest _ h
      cases h
    · intro fuel' acc s fields rest _ h
      cases h
  | succ fuel ih =>
    obtain ⟨ihvalue, ihelements, ihmembers⟩ := ih
    refine ⟨?_, ?_, ?_⟩
    · intro fuel' s v rest hle h hend
      obtain ⟨fuel', rfl⟩ : ∃ n, fuel' = n + 1 := ⟨fuel' - 1, by omega⟩
      have hle' : fuel ≤ fuel' := by omega
      have hmagnitude : ∀ {negative : Bool} {s : List Char},
          readMagnitude negative s = some (v, rest) →
            readMagnitude negative (s ++ t) = some (v, rest ++ t) := by
        intro negative s h
        obtain ⟨x, hx⟩ := num_of_readMagnitude h
        exact readMagnitude_append h fun hnil => hend hnil x hx
      rw [readValue] at h
      cases hskip : skipBlank s with
      | nil =>
        rw [hskip] at h
        cases h
      | cons c u =>
        rw [hskip] at h
        have hskip' := skipBlank_append hskip t
        split at h
        · rename_i u' heq
          obtain ⟨rfl, rfl⟩ := List.cons.inj heq
          rw [readValue_brace hskip']
          cases hinner : skipBlank u with
          | nil =>
            rw [hinner] at h
            cases fuel <;> cases h
          | cons d w =>
            rw [hinner] at h
            rw [skipBlank_append hinner t]
            split at h
            · rename_i heq
              obtain ⟨rfl, rfl⟩ := List.cons.inj heq
              cases h
              rfl
            · rename_i hne
              simp only [Option.map_eq_some_iff] at h
              obtain ⟨p, hp, hr⟩ := h
              cases hr
              split
              · rename_i heq
                exact absurd (by rw [(List.cons.inj heq).1]) (hne w)
              · rw [← List.cons_append, ihmembers fuel' [] _ _ _ hle' hp]
                rfl
        · rename_i u' heq
          obtain ⟨rfl, rfl⟩ := List.cons.inj heq
          rw [readValue_bracket hskip']
          cases hinner : skipBlank u with
          | nil =>
            rw [hinner] at h
            cases fuel with
            | zero => cases h
            | succ fuel => cases fuel <;> cases h
          | cons d w =>
            rw [hinner] at h
            rw [skipBlank_append hinner t]
            split at h
            · rename_i heq
              obtain ⟨rfl, rfl⟩ := List.cons.inj heq
              cases h
              rfl
            · rename_i hne
              simp only [Option.map_eq_some_iff] at h
              obtain ⟨p, hp, hr⟩ := h
              cases hr
              split
              · rename_i heq
                exact absurd (by rw [(List.cons.inj heq).1]) (hne w)
              · rw [← List.cons_append, ihelements fuel' _ _ _ hle' hp]
                rfl
        · rename_i u' heq
          obtain ⟨rfl, rfl⟩ := List.cons.inj heq
          simp only [Option.map_eq_some_iff] at h
          obtain ⟨p, hp, hr⟩ := h
          cases hr
          rw [readValue_text hskip', readText_append hp]
          rfl
        · rename_i u' heq
          obtain ⟨rfl, rfl⟩ := List.cons.inj heq
          rw [readValue, hskip']
          exact readWord_append h
        · rename_i u' heq
          obtain ⟨rfl, rfl⟩ := List.cons.inj heq
          rw [readValue, hskip']
          exact readWord_append h
        · rename_i u' heq
          obtain ⟨rfl, rfl⟩ := List.cons.inj heq
          rw [readValue, hskip']
          exact readWord_append h
        · rename_i u' heq
          obtain ⟨rfl, rfl⟩ := List.cons.inj heq
          rw [readValue, hskip']
          exact hmagnitude h
        · rename_i h1 h2 h3 h4 h5 h6 h7
          rw [readValue, hskip']
          split
          · rename_i heq
            exact absurd (by rw [(List.cons.inj heq).1]) (h1 u)
          · rename_i heq
            exact absurd (by rw [(List.cons.inj heq).1]) (h2 u)
          · rename_i heq
            exact absurd (by rw [(List.cons.inj heq).1]) (h3 u)
          · rename_i heq
            exact absurd (by rw [(List.cons.inj heq).1]) (h4 u)
          · rename_i heq
            exact absurd (by rw [(List.cons.inj heq).1]) (h5 u)
          · rename_i heq
            exact absurd (by rw [(List.cons.inj heq).1]) (h6 u)
          · rename_i heq
            exact absurd (by rw [(List.cons.inj heq).1]) (h7 u)
          · exact hmagnitude h
    · intro fuel' s xs rest hle h
      obtain ⟨fuel', rfl⟩ : ∃ n, fuel' = n + 1 := ⟨fuel' - 1, by omega⟩
      have hle' : fuel ≤ fuel' := by omega
      rw [readElements] at h ⊢
      simp only [Option.bind_eq_bind, Option.bind_eq_some_iff] at h ⊢
      obtain ⟨⟨x, r⟩, hvalue, h⟩ := h
      dsimp only at h
      split at h
      · rename_i r' hskip
        simp only [Option.bind_eq_some_iff] at h
        obtain ⟨⟨ys, r''⟩, hys, hr⟩ := h
        cases hr
        refine ⟨_, ihvalue fuel' _ _ _ hle' hvalue fun hnil => absurd hnil (ne_nil_of_skipBlank hskip), ?_⟩
        dsimp only
        rw [skipBlank_append hskip t]
        simp only [ihelements fuel' _ _ _ hle' hys, Option.bind_some]
        rfl
      · rename_i r' hskip
        cases h
        refine ⟨_, ihvalue fuel' _ _ _ hle' hvalue fun hnil => absurd hnil (ne_nil_of_skipBlank hskip), ?_⟩
        dsimp only
        rw [skipBlank_append hskip t]
        rfl
      · cases h
    · intro fuel' acc s fields rest hle h
      obtain ⟨fuel', rfl⟩ : ∃ n, fuel' = n + 1 := ⟨fuel' - 1, by omega⟩
      have hle' : fuel ≤ fuel' := by omega
      rw [readMembers] at h ⊢
      split at h
      · rename_i u hskip
        rw [skipBlank_append hskip t]
        simp only [Option.bind_eq_bind, Option.bind_eq_some_iff] at h ⊢
        obtain ⟨⟨k, r⟩, hkey, h⟩ := h
        refine ⟨_, readText_append hkey, ?_⟩
        dsimp only at h ⊢
        split at h
        · rename_i r' hcolon
          rw [skipBlank_append hcolon t]
          simp only [Option.bind_eq_some_iff] at h ⊢
          obtain ⟨⟨x, r''⟩, hvalue, h⟩ := h
          dsimp only at h
          split at h
          · rename_i w hcomma
            refine ⟨_, ihvalue fuel' _ _ _ hle' hvalue
              fun hnil => absurd hnil (ne_nil_of_skipBlank hcomma), ?_⟩
            dsimp only
            rw [skipBlank_append hcomma t]
            exact ihmembers fuel' _ _ _ _ hle' h
          · rename_i w hbrace
            cases h
            refine ⟨_, ihvalue fuel' _ _ _ hle' hvalue
              fun hnil => absurd hnil (ne_nil_of_skipBlank hbrace), ?_⟩
            dsimp only
            rw [skipBlank_append hbrace t]
            rfl
          · cases h
        · cases h
      · cases h

end Append

/-! ## Fences in a text -/

section Infix

variable {p : List Char}

theorem prefix_append_cons {a b : List Char} {c : Char} (hc : c ∉ p) :
    p <+: a ++ c :: b ↔ p <+: a := by
  constructor
  · intro h
    have hlen : p.length ≤ a.length := by
      by_contra hlt
      have htake := List.prefix_iff_eq_take.1 h
      have hmem : c ∈ (a ++ c :: b).take p.length := by
        rw [List.take_append, show p.length - a.length = (p.length - a.length - 1) + 1 by omega]
        simp
      exact hc (htake ▸ hmem)
    exact List.prefix_of_prefix_length_le h (List.prefix_append a _) hlen
  · intro h
    exact h.trans (List.prefix_append a _)

/-- A pattern does not cross a character that it does not have. -/
theorem infix_append_cons (hp : p ≠ []) {a b : List Char} {c : Char} (hc : c ∉ p) :
    p <:+: a ++ c :: b ↔ p <:+: a ∨ p <:+: b := by
  induction a with
  | nil =>
    have hnil : ¬ p <+: [] ++ c :: b := by
      rw [prefix_append_cons hc]
      exact fun h => hp (List.prefix_nil.1 h)
    have hnil' : ¬ p <:+: [] := fun h => hp (List.infix_nil.1 h)
    rw [List.nil_append] at hnil ⊢
    rw [List.infix_cons_iff, or_iff_right hnil, or_iff_right hnil']
  | cons x a ih =>
    rw [List.cons_append, List.infix_cons_iff, ih, ← List.cons_append, prefix_append_cons hc,
      @List.infix_cons_iff _ p x a, or_assoc]

theorem infix_cons (hp : p ≠ []) {b : List Char} {c : Char} (hc : c ∉ p) : p <:+: c :: b ↔ p <:+: b := by
  have h := @infix_append_cons p hp [] b c hc
  rw [List.nil_append] at h
  exact h.trans (or_iff_right fun hnil => hp (List.infix_nil.1 hnil))

theorem infix_append_of_clean (hp : p ≠ []) {a b : List Char} (ha : ∀ c ∈ a, c ∉ p) :
    p <:+: a ++ b ↔ p <:+: b := by
  induction a with
  | nil => rfl
  | cons c a ih =>
    rw [List.cons_append, infix_cons hp (ha c (by simp)), ih fun d hd => ha d (by simp [hd])]

end Infix

theorem not_mem_fence {c : Char} (h : c ≠ '\x60') : c ∉ fence := by
  simp [fence, h]

theorem fence_ne_nil : fence ≠ [] := by
  decide

theorem escape_backquote : escape '\x60' = ['\x60'] := by
  decide

theorem escape_clean {c : Char} (h : c ≠ '\x60') : ∀ d ∈ escape c, d ≠ '\x60' := by
  have hhex : ∀ n < 16, hexDigit n ≠ '\x60' := by decide
  have hcontrol : ∀ n < 0x20, hexDigit (n / 16) ≠ '\x60' ∧ hexDigit (n % 16) ≠ '\x60' := fun n hn =>
    ⟨hhex _ (by omega), hhex _ (by omega)⟩
  unfold escape
  split_ifs with h1 h2 h3 h4 h5 h6 h7 h8
  all_goals simp only [List.mem_cons, List.not_mem_nil, or_false, forall_eq_or_imp, forall_eq]
  · decide
  · decide
  · decide
  · decide
  · decide
  · decide
  · decide
  · exact ⟨by decide, by decide, by decide, by decide, hcontrol _ h8⟩
  · exact h

theorem prefix_escape (n : ℕ) (cs : List Char) :
    List.replicate n '\x60' <+: cs.flatMap escape ↔ List.replicate n '\x60' <+: cs := by
  induction n generalizing cs with
  | zero => simp
  | succ n ih =>
    cases cs with
    | nil => rfl
    | cons c cs =>
      rw [List.flatMap_cons, List.replicate_succ]
      by_cases hc : c = '\x60'
      · rw [hc, escape_backquote, List.singleton_append, List.cons_prefix_cons, List.cons_prefix_cons, ih]
      · have hne : escape c ≠ [] := by
          unfold escape
          split_ifs <;> exact List.cons_ne_nil _ _
        obtain ⟨d, ds, hds⟩ := List.exists_cons_of_ne_nil hne
        have hd : d ≠ '\x60' := escape_clean hc d (by simp [hds])
        rw [hds, List.cons_append, List.cons_prefix_cons, List.cons_prefix_cons]
        exact ⟨fun h => absurd h.1.symm hd, fun h => absurd h.1.symm hc⟩

/-- Quoting neither adds nor hides a fence. -/
theorem fence_escape (cs : List Char) : fence <:+: cs.flatMap escape ↔ fence <:+: cs := by
  induction cs with
  | nil => rfl
  | cons c cs ih =>
    by_cases hc : c = '\x60'
    · have hprefix := prefix_escape 3 (c :: cs)
      rw [List.flatMap_cons, hc, escape_backquote, List.singleton_append] at hprefix ⊢
      rw [List.infix_cons_iff, List.infix_cons_iff, ih]
      exact or_congr_left hprefix
    · rw [List.flatMap_cons, infix_append_of_clean fence_ne_nil fun d hd => not_mem_fence
        (escape_clean hc d hd), infix_cons fence_ne_nil (not_mem_fence hc), ih]

mutual

/-- Some text of the value, a key or a value at any depth, has the property. -/
def AnyText (q : String → Prop) : Json → Prop
  | str s => q s
  | arr xs => AnyElement q xs
  | obj fields => AnyField q fields
  | _ => False

def AnyElement (q : String → Prop) : List Json → Prop
  | [] => False
  | x :: xs => x.AnyText q ∨ AnyElement q xs

def AnyField (q : String → Prop) : List (String × Json) → Prop
  | [] => False
  | (k, x) :: fields => q k ∨ x.AnyText q ∨ AnyField q fields

end

/-- The text contains a fence. -/
def HasFence (s : String) : Prop :=
  fence <:+: s.toList

theorem lineBreak_clean (depth : ℕ) : ∀ c ∈ lineBreak depth, c ∉ fence := by
  intro c hc
  rcases List.mem_cons.1 hc with rfl | hc
  · decide
  · rw [(List.mem_replicate.1 hc).2]
    decide

theorem fence_lineBreak (depth : ℕ) (rest : List Char) :
    fence <:+: lineBreak depth ++ rest ↔ fence <:+: rest :=
  infix_append_of_clean fence_ne_nil (lineBreak_clean depth)

/-- A pattern does not cross a line break. -/
theorem fence_append_lineBreak (a : List Char) (depth : ℕ) (rest : List Char) :
    fence <:+: a ++ (lineBreak depth ++ rest) ↔ fence <:+: a ∨ fence <:+: rest := by
  have hbreak : lineBreak depth ++ rest = '\n' :: (List.replicate (2 * depth) ' ' ++ rest) := rfl
  have hclean : ∀ c ∈ List.replicate (2 * depth) ' ', c ∉ fence := fun c hc =>
    lineBreak_clean depth c (List.mem_cons_of_mem _ hc)
  rw [hbreak, infix_append_cons fence_ne_nil (by decide), infix_append_of_clean fence_ne_nil hclean]

theorem fence_quote (k : String) (rest : List Char) :
    fence <:+: quote k ++ rest ↔ HasFence k ∨ fence <:+: rest := by
  rw [quote_append, infix_cons fence_ne_nil (by decide), infix_append_cons fence_ne_nil (by decide),
    fence_escape]
  rfl

mutual

/-- The text of a value contains a fence where one of the value's texts does. -/
theorem fence_prettyChars (depth : ℕ) (v : Json) : fence <:+: prettyChars depth v ↔ v.AnyText HasFence := by
  match v with
  | null => exact iff_of_false (show ¬ fence <:+: "null".toList by decide) id
  | bool true => exact iff_of_false (show ¬ fence <:+: "true".toList by decide) id
  | bool false => exact iff_of_false (show ¬ fence <:+: "false".toList by decide) id
  | num x =>
    refine iff_of_false ?_ id
    intro h
    have hmem : '\x60' ∈ x.text := h.subset (by decide)
    exact absurd (isNumeric_text x _ hmem) (by decide)
  | str s =>
    have h := fence_quote s []
    rw [List.append_nil] at h
    exact h.trans (or_iff_left (by decide))
  | arr [] => exact iff_of_false (show ¬ fence <:+: ['[', ']'] by decide) id
  | arr (x :: xs) =>
    have hsplit := prettyChars_arr depth x xs []
    rw [List.append_nil, prettyList, List.append_assoc] at hsplit
    rw [hsplit, infix_cons fence_ne_nil (by decide), fence_lineBreak, fence_elements,
      fence_prettyChars (depth + 1) x, or_iff_left (by decide : ¬ fence <:+: [']'])]
    rfl
  | obj [] => exact iff_of_false (show ¬ fence <:+: ['\x7b', '\x7d'] by decide) id
  | obj ((k, x) :: fields) =>
    have hsplit := prettyChars_obj depth k x fields []
    rw [List.append_nil, prettyFields, List.append_assoc, List.cons_append, List.cons_append,
      List.append_assoc] at hsplit
    rw [hsplit, infix_cons fence_ne_nil (by decide), fence_lineBreak, fence_quote,
      infix_cons fence_ne_nil (by decide), infix_cons fence_ne_nil (by decide), fence_members,
      fence_prettyChars (depth + 1) x, or_iff_left (by decide : ¬ fence <:+: ['\x7d'])]
    rfl

theorem fence_elements (depth : ℕ) (a : List Char) (xs : List Json) (rest : List Char) :
    fence <:+: a ++ (prettyElements depth xs ++ (lineBreak depth ++ rest)) ↔
      (fence <:+: a ∨ AnyElement HasFence xs) ∨ fence <:+: rest := by
  match xs with
  | [] =>
    rw [prettyElements, List.nil_append, fence_append_lineBreak]
    simp only [AnyElement, or_false]
  | x :: xs =>
    have hcomma : prettyElements depth (x :: xs) ++ (lineBreak depth ++ rest) =
        ',' :: (lineBreak (depth + 1) ++ (prettyChars (depth + 1) x ++
          (prettyElements depth xs ++ (lineBreak depth ++ rest)))) := by
      simp [prettyElements]
    rw [hcomma, infix_append_cons fence_ne_nil (by decide), fence_lineBreak, fence_elements depth _ xs,
      fence_prettyChars (depth + 1) x, ← or_assoc]
    rfl

theorem fence_members (depth : ℕ) (a : List Char) (fields : List (String × Json)) (rest : List Char) :
    fence <:+: a ++ (prettyMembers depth fields ++ (lineBreak depth ++ rest)) ↔
      (fence <:+: a ∨ AnyField HasFence fields) ∨ fence <:+: rest := by
  match fields with
  | [] =>
    rw [prettyMembers, List.nil_append, fence_append_lineBreak]
    simp only [AnyField, or_false]
  | (k, x) :: fields =>
    have hcomma : prettyMembers depth ((k, x) :: fields) ++ (lineBreak depth ++ rest) =
        ',' :: (lineBreak (depth + 1) ++ (quote k ++ (':' :: ' ' :: (prettyChars (depth + 1) x ++
          (prettyMembers depth fields ++ (lineBreak depth ++ rest)))))) := by
      simp [prettyMembers]
    rw [hcomma, infix_append_cons fence_ne_nil (by decide), fence_lineBreak, fence_quote,
      infix_cons fence_ne_nil (by decide), infix_cons fence_ne_nil (by decide), fence_members depth _ fields,
      fence_prettyChars (depth + 1) x, AnyField]
    simp only [or_assoc]

end

/-! ## The block of a value -/

theorem pretty_obj (fields : List (String × Json)) :
    ∃ inner, (obj fields).pretty = '\x7b' :: (inner ++ ['\x7d']) := by
  rcases fields with _ | ⟨⟨k, x⟩, fields⟩
  · exact ⟨[], rfl⟩
  · have h := prettyChars_obj 0 k x fields []
    rw [List.append_nil] at h
    exact ⟨_, by rw [pretty, h, ← List.append_assoc, ← List.append_assoc]⟩

theorem ne_num_of_readValue {fuel : ℕ} {s rest : List Char} {v : Json}
    (h : readValue fuel ('\x7b' :: s) = some (v, rest)) (x : Decimal) : v ≠ num x := by
  cases fuel with
  | zero => cases h
  | succ fuel =>
    rw [readValue_brace (skipBlank_cons (by decide) s)] at h
    rintro rfl
    split at h
    · cases h
    · simp only [Option.map_eq_some_iff] at h
      obtain ⟨p, -, hp⟩ := h
      cases hp

/-- What precedes the end of an object's text is no JSON text. -/
theorem parse_prefix {fields : List (String × Json)} (hdistinct : (obj fields).Distinct) {s t : List Char}
    (hs : (obj fields).pretty = s ++ t) (ht : t ≠ []) : parse s = none := by
  cases s with
  | nil => rfl
  | cons c s =>
    obtain ⟨inner, hinner⟩ := pretty_obj fields
    have hc : c = '\x7b' := by
      rw [hinner, List.cons_append] at hs
      exact (List.cons.inj hs).1.symm
    subst hc
    unfold parse
    cases hread : readValue (('\x7b' :: s).length + 1) ('\x7b' :: s) with
    | none => rfl
    | some p =>
      obtain ⟨v, rest⟩ := p
      have hlen : ('\x7b' :: s).length + 1 ≤ (obj fields).pretty.length + 1 := by
        rw [hs, List.length_append]
        omega
      have hfull := (read_append t _).1 _ _ _ _ hlen hread fun _ => ne_num_of_readValue hread
      have hpretty := readValue_pretty (obj fields) 0 ((obj fields).pretty.length + 1) [] hdistinct
        (Nat.lt_succ_self _) ⟨by simp [Delimited], by simp⟩
      rw [List.append_nil] at hpretty
      rw [← hs] at hfull
      have hrest := (Prod.mk.inj (Option.some.inj (hfull.symm.trans hpretty))).2
      exact absurd (List.append_eq_nil_iff.1 hrest).2 ht

section Block

variable {isSpace : Char → Bool} {fields : List (String × Json)}

/-- The block starts right after its opening line. -/
theorem fenced_block (hline : isSpace '\n' = true) (hopen : isSpace '\x7b' = false) :
    fenced? isSpace (fence ++ "json\n".toList ++ (obj fields).pretty ++ '\n' :: fence) =
      (untilFence ((obj fields).pretty ++ '\n' :: (fence ++ []))).map (trimChars isSpace) := by
  obtain ⟨inner, hinner⟩ := pretty_obj fields
  rw [List.append_nil, hinner]
  have hdrop : ('\n' :: ('\x7b' :: (inner ++ ['\x7d'])) ++ '\n' :: fence).dropWhile isSpace =
      '\x7b' :: (inner ++ ['\x7d']) ++ '\n' :: fence := by
    rw [List.cons_append, List.dropWhile_cons_of_pos hline, List.cons_append,
      List.dropWhile_cons_of_neg (by simp [hopen])]
  rw [← hdrop]
  exact if_pos ⟨rfl, rfl⟩

/-- The fenced text of an object is found again where none of its texts has a fence. -/
theorem fenced_pretty (hline : isSpace '\n' = true) (hopen : isSpace '\x7b' = false)
    (hclose : isSpace '\x7d' = false) (h : ¬ (obj fields).AnyText HasFence) :
    fenced? isSpace (fence ++ "json\n".toList ++ (obj fields).pretty ++ '\n' :: fence) =
      some (obj fields).pretty := by
  obtain ⟨inner, hinner⟩ := pretty_obj fields
  have hfence : ¬ fence <:+: (obj fields).pretty := fun hf => h ((fence_prettyChars 0 _).1 hf)
  rw [fenced_block hline hopen, untilFence_line hfence, Option.map_some, hinner, ← List.cons_append,
    List.append_assoc, List.singleton_append,
    trimChars_of (by simpa using hopen) hclose _ (by simpa using hline)]

/-- Where a text of the object has a fence, the block ends there and is no JSON text. -/
theorem fenced_cut (hline : isSpace '\n' = true) (hopen : isSpace '\x7b' = false)
    (hdistinct : (obj fields).Distinct) (h : (obj fields).AnyText HasFence) :
    ∃ block, fenced? isSpace (fence ++ "json\n".toList ++ (obj fields).pretty ++ '\n' :: fence) =
      some block ∧ parse block = none := by
  obtain ⟨before, after, hsplit, hread⟩ := untilFence_of_infix ((fence_prettyChars 0 _).2 h)
  refine ⟨trimChars isSpace before, ?_, ?_⟩
  · rw [fenced_block hline hopen, pretty, hread, Option.map_some]
  · have hbefore : before.dropWhile isSpace = before := by
      obtain ⟨inner, hinner⟩ := pretty_obj fields
      cases before with
      | nil => rfl
      | cons c before =>
        rw [← pretty, hinner, List.cons_append, List.cons_append] at hsplit
        rw [← (List.cons.inj hsplit).1]
        exact List.dropWhile_cons_of_neg (by simp [hopen])
    have htrim : before = trimChars isSpace before ++ (before.reverse.takeWhile isSpace).reverse := by
      unfold trimChars
      rw [hbefore, ← List.reverse_append, List.takeWhile_append_dropWhile, List.reverse_reverse]
    refine parse_prefix hdistinct
      (t := (before.reverse.takeWhile isSpace).reverse ++ (fence ++ after)) ?_ (by simp [fence])
    rw [← List.append_assoc, ← htrim, ← List.append_assoc]
    exact hsplit

end Block

end Json
