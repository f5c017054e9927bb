import Mathlib.Data.List.TakeWhile

/-!
# Patterns that look around, and the global replacement

A pattern is matched at a position of a text: it sees the unit before the position and the units
after it. `ends` lists the lengths it can match there, in the order a backtracking matcher tries them.
`replaceAll` is the global replacement: leftmost matches first, each one consumed whole.

`replaceAll_clean`: a pattern of delimited words leaves no match behind, whatever the text is, as long
as its placeholder cannot be read as a part of a word.
-/

namespace Rewriting

variable {α : Type*}

inductive Pattern (α : Type*) where
  | set (p : α → Bool)
  /-- `p{least,most}`, greedy. -/
  | times (p : α → Bool) (least most : ℕ)
  /-- `(?<!p)`. -/
  | notBehind (p : α → Bool)
  /-- `(?!p)`. -/
  | notAhead (p : α → Bool)
  | seq (r s : Pattern α)
  | alt (r s : Pattern α)

/-- The unit before the position `n` units further on. -/
def before (prev : Option α) (text : List α) (n : ℕ) : Option α :=
  (text.take n).getLast?.or prev

namespace Pattern

/-- The lengths the pattern can match, the preferred one first. -/
def ends : Pattern α → Option α → List α → List ℕ
  | set p, _, text => if text.head?.any p then [1] else []
  | times p least most, _, text =>
    let run := ((text.take most).takeWhile p).length
    (List.range' least (run + 1 - least)).reverse
  | notBehind p, prev, _ => if prev.any p then [] else [0]
  | notAhead p, _, text => if text.head?.any p then [] else [0]
  | seq r s, prev, text =>
    (r.ends prev text).flatMap fun n => (s.ends (before prev text n) (text.drop n)).map (n + ·)
  | alt r s, prev, text => r.ends prev text ++ s.ends prev text

/-- The pattern matches `u` between the unit `prev` and the text `rest`. -/
def Matches : Pattern α → Option α → List α → List α → Prop
  | set p, _, u, _ => ∃ c, u = [c] ∧ p c = true
  | times p least most, _, u, _ => least ≤ u.length ∧ u.length ≤ most ∧ ∀ c ∈ u, p c = true
  | notBehind p, prev, u, _ => u = [] ∧ prev.any p = false
  | notAhead p, _, u, rest => u = [] ∧ rest.head?.any p = false
  | seq r s, prev, u, rest =>
    ∃ a b, u = a ++ b ∧ r.Matches prev a (b ++ rest) ∧ s.Matches (a.getLast?.or prev) b rest
  | alt r s, prev, u, rest => r.Matches prev u rest ∨ s.Matches prev u rest

theorem before_append (prev : Option α) (u rest : List α) :
    before prev (u ++ rest) u.length = u.getLast?.or prev := by
  rw [before, List.take_left]

/-- A run of `p` of at most `most` units at the head of a text. -/
theorem le_run_iff (p : α → Bool) (most n : ℕ) (text : List α) :
    n ≤ ((text.take most).takeWhile p).length ↔
      n ≤ most ∧ ∃ u rest, text = u ++ rest ∧ u.length = n ∧ ∀ c ∈ u, p c = true := by
  constructor
  · intro hn
    have hrun : (text.take most).takeWhile p <+: text.take most := List.takeWhile_prefix p
    have hmost := Nat.le_trans hrun.length_le (List.length_take_le most text)
    have htake : text.take most <+: text := List.take_prefix most text
    obtain ⟨rest, hrest⟩ := hrun.trans htake
    refine ⟨Nat.le_trans hn hmost, ((text.take most).takeWhile p).take n,
      ((text.take most).takeWhile p).drop n ++ rest, ?_, List.length_take_of_le hn, fun c hc => ?_⟩
    · rw [← List.append_assoc, List.take_append_drop, hrest]
    · exact List.mem_takeWhile_imp (List.mem_of_mem_take hc)
  · rintro ⟨hmost, u, rest, rfl, rfl, hu⟩
    rw [List.take_append, List.take_of_length_le hmost, List.takeWhile_append_of_pos hu,
      List.length_append]
    exact Nat.le_add_right _ _

/-- The matcher finds the lengths of the matches. -/
theorem mem_ends (r : Pattern α) (prev : Option α) (text : List α) (n : ℕ) :
    n ∈ r.ends prev text ↔ ∃ u rest, text = u ++ rest ∧ u.length = n ∧ r.Matches prev u rest := by
  induction r generalizing prev text n with
  | set p =>
    cases text with
    | nil => simp [ends, Matches]
    | cons c text =>
      by_cases hc : p c = true
      · have hends : (set p).ends prev (c :: text) = [1] := if_pos hc
        rw [hends, List.mem_singleton]
        constructor
        · rintro rfl
          exact ⟨[c], text, rfl, rfl, c, rfl, hc⟩
        · rintro ⟨u, rest, -, rfl, d, rfl, -⟩
          rfl
      · have hends : (set p).ends prev (c :: text) = [] := if_neg hc
        simp only [hends, List.not_mem_nil, false_iff]
        rintro ⟨u, rest, hsplit, -, d, rfl, hd⟩
        obtain ⟨rfl, -⟩ := List.cons.inj hsplit
        exact hc hd
  | times p least most =>
    have hrange : n ∈ (times p least most).ends prev text ↔
        least ≤ n ∧ n ≤ ((text.take most).takeWhile p).length := by
      simp only [ends, List.mem_reverse, List.mem_range'_1]
      omega
    rw [hrange, le_run_iff]
    constructor
    · rintro ⟨hleast, hmost, u, rest, hsplit, rfl, hu⟩
      exact ⟨u, rest, hsplit, rfl, hleast, hmost, hu⟩
    · rintro ⟨u, rest, hsplit, rfl, hleast, hmost, hu⟩
      exact ⟨hleast, hmost, u, rest, hsplit, rfl, hu⟩
  | notBehind p =>
    by_cases hp : prev.any p = true
    · simp [ends, Matches, hp]
    · simp only [ends, if_neg hp, List.mem_singleton]
      constructor
      · rintro rfl
        exact ⟨[], text, rfl, rfl, rfl, by simpa using hp⟩
      · rintro ⟨u, rest, -, rfl, rfl, -⟩
        rfl
  | notAhead p =>
    by_cases hp : text.head?.any p = true
    · simp only [ends, if_pos hp, List.not_mem_nil, false_iff]
      rintro ⟨u, rest, rfl, -, rfl, hfree⟩
      exact Bool.false_ne_true (hfree.symm.trans hp)
    · simp only [ends, if_neg hp, List.mem_singleton]
      constructor
      · rintro rfl
        exact ⟨[], text, rfl, rfl, rfl, by simpa using hp⟩
      · rintro ⟨u, rest, -, rfl, rfl, -⟩
        rfl
  | seq r s ihr ihs =>
    simp only [ends, List.mem_flatMap, List.mem_map]
    constructor
    · rintro ⟨k, hk, m, hm, rfl⟩
      obtain ⟨a, after, rfl, rfl, ha⟩ := (ihr prev text k).1 hk
      rw [before_append, List.drop_left] at hm
      obtain ⟨b, rest, rfl, rfl, hb⟩ := (ihs _ after m).1 hm
      exact ⟨a ++ b, rest, (List.append_assoc a b rest).symm, List.length_append, a, b, rfl, ha, hb⟩
    · rintro ⟨u, rest, rfl, rfl, a, b, rfl, ha, hb⟩
      rw [List.append_assoc]
      refine ⟨a.length, (ihr prev _ _).2 ⟨a, b ++ rest, rfl, rfl, ha⟩, b.length, ?_,
        List.length_append.symm⟩
      rw [before_append, List.drop_left]
      exact (ihs _ _ _).2 ⟨b, rest, rfl, rfl, hb⟩
  | alt r s ihr ihs =>
    simp only [ends, List.mem_append, ihr, ihs]
    constructor
    · rintro (⟨u, rest, hsplit, hlength, hu⟩ | ⟨u, rest, hsplit, hlength, hu⟩)
      · exact ⟨u, rest, hsplit, hlength, .inl hu⟩
      · exact ⟨u, rest, hsplit, hlength, .inr hu⟩
    · rintro ⟨u, rest, hsplit, hlength, hu | hu⟩
      · exact .inl ⟨u, rest, hsplit, hlength, hu⟩
      · exact .inr ⟨u, rest, hsplit, hlength, hu⟩

end Pattern

/-- The replacement from a position on: `skip` units of the last match are still to be consumed. -/
def replaceFrom (r : Pattern α) (placeholder : List α) : Option α → ℕ → List α → List α
  | prev, 0, [] => if (r.ends prev []).head?.isSome then placeholder else []
  | _, _ + 1, [] => []
  | _, skip + 1, c :: text => replaceFrom r placeholder (some c) skip text
  | prev, 0, c :: text =>
    match (r.ends prev (c :: text)).head? with
    | none => c :: replaceFrom r placeholder (some c) 0 text
    | some 0 => placeholder ++ c :: replaceFrom r placeholder (some c) 0 text
    | some (n + 1) => placeholder ++ replaceFrom r placeholder (some c) n text

/-- `text.replace(/r/g, placeholder)`. -/
def replaceAll (r : Pattern α) (placeholder text : List α) : List α :=
  replaceFrom r placeholder none 0 text

/-- The pattern matches nowhere in the text that follows `prev`. -/
def Clean (r : Pattern α) (prev : Option α) (text : List α) : Prop :=
  ∀ front rest, text = front ++ rest → r.ends (front.getLast?.or prev) rest = []

section Clean

variable {r : Pattern α}

theorem Clean.not_matches {prev : Option α} {text : List α} (h : Clean r prev text)
    {front u rest : List α} (hsplit : text = front ++ u ++ rest) :
    ¬ r.Matches (front.getLast?.or prev) u rest := by
  intro hmatches
  have hnone := h front (u ++ rest) (by rw [hsplit, List.append_assoc])
  exact List.ne_nil_of_mem ((r.mem_ends _ _ _).2 ⟨u, rest, rfl, rfl, hmatches⟩) hnone

theorem Clean.ends_eq {prev : Option α} {text : List α} (h : Clean r prev text) : r.ends prev text = [] :=
  h [] text rfl

theorem getLast?_cons_or (c : α) (front : List α) (prev : Option α) :
    (c :: front).getLast?.or prev = front.getLast?.or (some c) := by
  rw [List.getLast?_cons]
  cases front.getLast? <;> rfl

theorem clean_nil {prev : Option α} (h : r.ends prev [] = []) : Clean r prev [] := by
  intro front rest hsplit
  obtain ⟨rfl, rfl⟩ := List.append_eq_nil_iff.1 hsplit.symm
  exact h

theorem clean_cons {prev : Option α} {c : α} {text : List α} :
    Clean r prev (c :: text) ↔ r.ends prev (c :: text) = [] ∧ Clean r (some c) text := by
  constructor
  · intro h
    refine ⟨h.ends_eq, fun front rest hsplit => ?_⟩
    have hat := h (c :: front) rest (by rw [hsplit, List.cons_append])
    rwa [getLast?_cons_or] at hat
  · rintro ⟨hhere, hafter⟩ front rest hsplit
    cases front with
    | nil =>
      obtain rfl : c :: text = rest := hsplit
      exact hhere
    | cons d front =>
      obtain ⟨rfl, rfl⟩ := List.cons.inj hsplit
      rw [getLast?_cons_or]
      exact hafter front rest rfl

/-- Where the pattern matches nowhere, the replacement changes nothing. -/
theorem replaceFrom_of_clean {placeholder : List α} : ∀ {prev : Option α} {text : List α},
    Clean r prev text → replaceFrom r placeholder prev 0 text = text := by
  intro prev text
  induction text generalizing prev with
  | nil =>
    intro h
    rw [replaceFrom, h.ends_eq]
    rfl
  | cons c text ih =>
    intro h
    obtain ⟨hhere, hafter⟩ := clean_cons.1 h
    rw [replaceFrom, hhere]
    exact congrArg (c :: ·) (ih hafter)

end Clean

/-- A pattern of delimited words: it matches the words that no unit of `glue` precedes and no unit of
`tail` follows. -/
structure Delimited (r : Pattern α) (word : List α → Prop) (glue tail : α → Bool) : Prop where
  matches_iff : ∀ prev u rest, r.Matches prev u rest ↔
    word u ∧ prev.any glue = false ∧ rest.head?.any tail = false
  /-- A word starts with a unit that cannot follow a word. -/
  head : ∀ u, word u → u.head?.any tail = true
  units : ∀ u, word u → ∀ c ∈ u, glue c = true

namespace Delimited

variable {r : Pattern α} {word : List α → Prop} {glue tail : α → Bool} (h : Delimited r word glue tail)
include h

theorem ne_nil {u : List α} (hu : word u) : u ≠ [] := by
  rintro rfl
  cases h.head [] hu

theorem mem_ends (prev : Option α) (text : List α) (n : ℕ) : n ∈ r.ends prev text ↔
    ∃ u rest, text = u ++ rest ∧ u.length = n ∧ word u ∧ prev.any glue = false ∧
      rest.head?.any tail = false := by
  simp only [Pattern.mem_ends, h.matches_iff]

theorem ends_nil (prev : Option α) : r.ends prev [] = [] := by
  rw [List.eq_nil_iff_forall_not_mem]
  intro n hn
  obtain ⟨u, rest, hsplit, -, hu, -⟩ := (h.mem_ends prev [] n).1 hn
  exact h.ne_nil hu (List.append_eq_nil_iff.1 hsplit.symm).1

/-- No match starts right after a unit of `glue`. -/
theorem ends_of_glue {prev : Option α} (hprev : prev.any glue = true) (text : List α) :
    r.ends prev text = [] := by
  rw [List.eq_nil_iff_forall_not_mem]
  intro n hn
  obtain ⟨-, -, -, -, -, hfree, -⟩ := (h.mem_ends prev text n).1 hn
  rw [hprev] at hfree
  cases hfree

/-- No match starts with a unit that can follow a word. -/
theorem ends_of_head {text : List α} (hhead : text.head?.any tail = false) (prev : Option α) :
    r.ends prev text = [] := by
  rw [List.eq_nil_iff_forall_not_mem]
  intro n hn
  obtain ⟨u, rest, rfl, -, hu, -⟩ := (h.mem_ends prev text n).1 hn
  have hword := h.head u hu
  cases u with
  | nil => exact h.ne_nil hu rfl
  | cons c u => exact Bool.false_ne_true (hhead.symm.trans hword)

theorem ends_of_word {prev : Option α} {u rest : List α} (hu : word u) (hprev : prev.any glue = false)
    (hrest : rest.head?.any tail = false) : r.ends prev (u ++ rest) ≠ [] :=
  List.ne_nil_of_mem ((h.mem_ends prev _ u.length).2 ⟨u, rest, rfl, rfl, hu, hprev, hrest⟩)

end Delimited

/-- What is left of a match is dropped. -/
theorem replaceFrom_skip (r : Pattern α) (placeholder : List α) (u rest : List α) (prev : Option α) :
    replaceFrom r placeholder prev u.length (u ++ rest) =
      replaceFrom r placeholder (u.getLast?.or prev) 0 rest := by
  induction u generalizing prev with
  | nil => rfl
  | cons c u ih =>
    rw [List.length_cons, List.cons_append, replaceFrom, ih, getLast?_cons_or]

/-- A placeholder that no part of a word can be read from: its first unit belongs to no word, nothing
that starts in it matches, and a word may follow it. -/
structure Inert (r : Pattern α) (glue : α → Bool) (placeholder : List α) : Prop where
  head : ∃ c rest, placeholder = c :: rest ∧ glue c = false
  inside : ∀ front rest, rest ≠ [] → placeholder = front ++ rest →
    ∀ prev text, r.ends (front.getLast?.or prev) (rest ++ text) = []

section Replace

variable {r : Pattern α} {word : List α → Prop} {glue tail : α → Bool} {placeholder : List α}

/-- One step of the scan: either nothing matches here, or a word is replaced. -/
theorem replaceFrom_cases (placeholder : List α) (h : Delimited r word glue tail) (prev : Option α) (c : α)
    (text : List α) :
    (r.ends prev (c :: text) = [] ∧ replaceFrom r placeholder prev 0 (c :: text) =
        c :: replaceFrom r placeholder (some c) 0 text) ∨
      ∃ u rest, c :: text = u ++ rest ∧ word u ∧ prev.any glue = false ∧ rest.head?.any tail = false ∧
        replaceFrom r placeholder prev 0 (c :: text) =
          placeholder ++ replaceFrom r placeholder (u.getLast?.or prev) 0 rest := by
  cases hfirst : (r.ends prev (c :: text)).head? with
  | none =>
    refine .inl ⟨List.head?_eq_none_iff.1 hfirst, ?_⟩
    rw [replaceFrom, hfirst]
  | some n =>
    obtain ⟨u, rest, hsplit, hlength, hu, hprev, hrest⟩ :=
      (h.mem_ends prev _ n).1 (List.mem_of_mem_head? hfirst)
    refine .inr ⟨u, rest, hsplit, hu, hprev, hrest, ?_⟩
    cases u with
    | nil => exact absurd rfl (h.ne_nil hu)
    | cons d u =>
      rw [List.cons_append] at hsplit
      obtain ⟨rfl, rfl⟩ := List.cons.inj hsplit
      rw [replaceFrom, hfirst, ← hlength, List.length_cons]
      simp only
      rw [replaceFrom_skip, getLast?_cons_or]

/-- The units of words at the head of the result are units of the text: the scan has replaced nothing
up to there. By induction on these units. -/
theorem replaceFrom_prefix (h : Delimited r word glue tail) (hinert : Inert r glue placeholder) :
    ∀ (u v : List α) (prev : Option α) (text : List α), (∀ c ∈ u, glue c = true) →
      replaceFrom r placeholder prev 0 text = u ++ v →
      ∃ rest, text = u ++ rest ∧ v = replaceFrom r placeholder (u.getLast?.or prev) 0 rest := by
  intro u
  induction u with
  | nil =>
    intro v prev text _ hresult
    exact ⟨text, rfl, hresult.symm⟩
  | cons d u ih =>
    intro v prev text hunits hresult
    cases text with
    | nil =>
      rw [replaceFrom, h.ends_nil] at hresult
      cases hresult
    | cons c text =>
      obtain ⟨-, hkept⟩ | ⟨w, rest, -, -, -, -, hreplaced⟩ :=
        replaceFrom_cases placeholder h prev c text
      · rw [hkept, List.cons_append] at hresult
        obtain ⟨rfl, htail⟩ := List.cons.inj hresult
        obtain ⟨rest, rfl, rfl⟩ :=
          ih v (some c) text (fun e he => hunits e (List.mem_cons_of_mem c he)) htail
        exact ⟨rest, rfl, by rw [getLast?_cons_or]⟩
      · obtain ⟨e, more, rfl, he⟩ := hinert.head
        rw [hreplaced, List.cons_append, List.cons_append] at hresult
        obtain ⟨rfl, -⟩ := List.cons.inj hresult
        rw [hunits e List.mem_cons_self] at he
        cases he

/-- What follows a unit of `glue` starts in the result as it does in the text. -/
theorem replaceFrom_head (h : Delimited r word glue tail) {prev : Option α} (hprev : prev.any glue = true)
    (text : List α) : (replaceFrom r placeholder prev 0 text).head? = text.head? := by
  cases text with
  | nil => rw [replaceFrom, h.ends_nil]; rfl
  | cons c text =>
    obtain ⟨-, hkept⟩ | ⟨w, rest, -, -, hfree, -⟩ :=
      replaceFrom_cases placeholder h prev c text
    · rw [hkept, List.head?_cons, List.head?_cons]
    · rw [hprev] at hfree
      cases hfree

/-- Where the scan finds nothing, nothing matches in the result either. -/
theorem ends_replaceFrom (h : Delimited r word glue tail) (hinert : Inert r glue placeholder)
    {prev : Option α} {text : List α} (hnone : r.ends prev text = []) :
    r.ends prev (replaceFrom r placeholder prev 0 text) = [] := by
  rw [List.eq_nil_iff_forall_not_mem]
  intro n hn
  obtain ⟨u, v, hresult, -, hu, hprev, hv⟩ := (h.mem_ends prev _ n).1 hn
  obtain ⟨rest, rfl, rfl⟩ := replaceFrom_prefix h hinert u v prev text (h.units u hu) hresult
  have hlast : (u.getLast?.or prev).any glue = true := by
    cases hl : u.getLast? with
    | none => exact absurd (List.getLast?_eq_none_iff.1 hl) (h.ne_nil hu)
    | some c => exact h.units u hu c (List.mem_of_getLast? hl)
  rw [replaceFrom_head h hlast] at hv
  exact h.ends_of_word hu hprev hv hnone

theorem clean_append {front text : List α} {prev : Option α}
    (hfront : ∀ a b, b ≠ [] → front = a ++ b → r.ends (a.getLast?.or prev) (b ++ text) = [])
    (htext : Clean r (front.getLast?.or prev) text) : Clean r prev (front ++ text) := by
  induction front generalizing prev with
  | nil => exact htext
  | cons c front ih =>
    rw [List.cons_append, clean_cons]
    refine ⟨hfront [] (c :: front) (List.cons_ne_nil _ _) rfl, ih (fun a b hb hsplit => ?_) ?_⟩
    · have hat := hfront (c :: a) b hb (by rw [hsplit, List.cons_append])
      rwa [getLast?_cons_or] at hat
    · rwa [getLast?_cons_or] at htext

/-- The result of the scan matches nowhere. After a replacement the result has the placeholder where
the text has the word, so there the context of the result (`shown`) is not the one of the scan; the
text goes on with a unit that starts no word. By strong induction on the text. -/
theorem clean_replaceFrom (h : Delimited r word glue tail) (hinert : Inert r glue placeholder) :
    ∀ (length : ℕ) (text : List α) (prev shown : Option α), text.length ≤ length →
      shown = prev ∨ text.head?.any tail = false →
      Clean r shown (replaceFrom r placeholder prev 0 text) := by
  intro length
  induction length with
  | zero =>
    intro text prev shown hlength _
    obtain rfl := List.eq_nil_of_length_eq_zero (Nat.le_zero.1 hlength)
    rw [replaceFrom, h.ends_nil]
    exact clean_nil (h.ends_nil shown)
  | succ length ih =>
    intro text prev shown hlength hcontext
    cases text with
    | nil =>
      rw [replaceFrom, h.ends_nil]
      exact clean_nil (h.ends_nil shown)
    | cons c text =>
      obtain ⟨hnone, hkept⟩ | ⟨u, rest, hsplit, hu, hprev, hrest, hreplaced⟩ :=
        replaceFrom_cases placeholder h prev c text
      · have hshown : r.ends shown (replaceFrom r placeholder prev 0 (c :: text)) = [] := by
          obtain rfl | hhead := hcontext
          · exact ends_replaceFrom h hinert hnone
          · rw [hkept]
            have hc : tail c = false := hhead
            exact h.ends_of_head (by rw [List.head?_cons]; exact hc) shown
        rw [hkept] at hshown ⊢
        exact clean_cons.2 ⟨hshown, ih text (some c) (some c) (Nat.le_of_succ_le_succ hlength) (.inl rfl)⟩
      · rw [hreplaced]
        refine clean_append (fun a b hb hab => hinert.inside a b hb hab shown _) (ih rest _ _ ?_ (.inr hrest))
        have hcount := congrArg List.length hsplit
        have hpos := List.length_pos_iff.2 (h.ne_nil hu)
        rw [List.length_append] at hcount
        omega

/-- A pattern of delimited words leaves no match behind. -/
theorem replaceAll_clean (h : Delimited r word glue tail) (hinert : Inert r glue placeholder)
    (text : List α) : Clean r none (replaceAll r placeholder text) :=
  clean_replaceFrom h hinert text.length text none none (Nat.le_refl _) (.inl rfl)

/-- Replacing again changes nothing. -/
theorem replaceAll_idempotent (h : Delimited r word glue tail) (hinert : Inert r glue placeholder)
    (text : List α) :
    replaceAll r placeholder (replaceAll r placeholder text) = replaceAll r placeholder text :=
  replaceFrom_of_clean (replaceAll_clean h hinert text)

end Replace

end Rewriting
