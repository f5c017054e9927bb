import Mathlib.Data.List.Forall2
import Mathlib.Data.List.Infix

/-!
# Patterns and occurrences

`Occurs ps text`: some characters in a row satisfy the conditions `ps`, one each. Two lists of conditions
that can be met have the same occurrences in all texts exactly where they are equivalent one by one
(`occurs_congr_iff`). The `LIKE` of SQL, in which `%` stands for any characters, `_` for one, and ASCII
letters match in either case, finds the occurrences of a pattern that has neither of the two and stands
between two `%` (`like_literal`).
-/

namespace SqlLike

/-! ## Occurrences -/

/-- Some characters in a row, of which each satisfies its condition. -/
def Occurs {α : Type} (ps : List (α → Prop)) (text : List α) : Prop :=
  ∃ s, s <:+: text ∧ List.Forall₂ (fun p a => p a) ps s

section Occurs

variable {α : Type} {ps qs : List (α → Prop)}

theorem occurs_self {s : List α} (h : List.Forall₂ (fun p a => p a) ps s) : Occurs ps s :=
  ⟨s, List.infix_rfl, h⟩

theorem Occurs.length_le {s : List α} (h : Occurs ps s) : ps.length ≤ s.length := by
  obtain ⟨t, hinfix, hforall⟩ := h
  exact hforall.length_eq ▸ hinfix.length_le

/-- In a text of its own length a pattern occurs as the whole. -/
theorem Occurs.of_length {s : List α} (h : Occurs ps s) (hlength : s.length ≤ ps.length) :
    List.Forall₂ (fun p a => p a) ps s := by
  obtain ⟨t, hinfix, hforall⟩ := h
  have hwhole : t = s := hinfix.eq_of_length_le (hforall.length_eq ▸ hlength)
  exact hwhole ▸ hforall

theorem exists_forall₂ (hps : ∀ p ∈ ps, ∃ a, p a) : ∃ s, List.Forall₂ (fun p a => p a) ps s := by
  induction ps with
  | nil => exact ⟨[], .nil⟩
  | cons p ps ih =>
    rw [List.forall_mem_cons] at hps
    obtain ⟨a, ha⟩ := hps.1
    obtain ⟨s, hs⟩ := ih hps.2
    exact ⟨a :: s, .cons ha hs⟩

/-- Conditions that the same texts satisfy are equivalent one by one. -/
theorem forall₂_iff_of_texts (hps : ∀ p ∈ ps, ∃ a, p a)
    (h : ∀ s, List.Forall₂ (fun p a => p a) ps s ↔ List.Forall₂ (fun p a => p a) qs s) :
    List.Forall₂ (fun p q : α → Prop => ∀ a, p a ↔ q a) ps qs := by
  induction ps generalizing qs with
  | nil =>
    cases (h []).1 .nil
    exact .nil
  | cons p ps ih =>
    rw [List.forall_mem_cons] at hps
    obtain ⟨a, ha⟩ := hps.1
    obtain ⟨s, hs⟩ := exists_forall₂ hps.2
    rcases (h (a :: s)).1 (.cons ha hs) with _ | ⟨ha', hs'⟩
    rename_i q qs
    refine .cons (fun b => ⟨fun hb => ?_, fun hb => ?_⟩) (ih hps.2 fun t => ⟨fun ht => ?_, fun ht => ?_⟩)
    · exact (List.forall₂_cons.1 ((h (b :: s)).1 (.cons hb hs))).1
    · exact (List.forall₂_cons.1 ((h (b :: s)).2 (.cons hb hs'))).1
    · exact (List.forall₂_cons.1 ((h (a :: t)).1 (.cons ha ht))).2
    · exact (List.forall₂_cons.1 ((h (a :: t)).2 (.cons ha' ht))).2

theorem forall₂_congr_texts (h : List.Forall₂ (fun p q : α → Prop => ∀ a, p a ↔ q a) ps qs)
    (s : List α) : List.Forall₂ (fun p a => p a) ps s ↔ List.Forall₂ (fun p a => p a) qs s := by
  induction h generalizing s with
  | nil => exact Iff.rfl
  | cons hhead _ ih =>
    cases s with
    | nil => simp
    | cons a s => rw [List.forall₂_cons, List.forall₂_cons, hhead a, ih s]

/-- Two patterns have the same occurrences exactly where they are equivalent one by one. -/
theorem occurs_congr_iff (hps : ∀ p ∈ ps, ∃ a, p a) (hqs : ∀ q ∈ qs, ∃ a, q a) :
    (∀ text, Occurs ps text ↔ Occurs qs text) ↔
      List.Forall₂ (fun p q : α → Prop => ∀ a, p a ↔ q a) ps qs := by
  constructor
  · intro h
    obtain ⟨s, hs⟩ := exists_forall₂ hps
    obtain ⟨t, ht⟩ := exists_forall₂ hqs
    have hle : qs.length ≤ ps.length :=
      hs.length_eq ▸ ((h s).1 (occurs_self hs)).length_le
    have hge : ps.length ≤ qs.length :=
      ht.length_eq ▸ ((h t).2 (occurs_self ht)).length_le
    refine forall₂_iff_of_texts hps fun u => ⟨fun hu => ?_, fun hu => ?_⟩
    · exact ((h u).1 (occurs_self hu)).of_length (hu.length_eq ▸ hge)
    · exact ((h u).2 (occurs_self hu)).of_length (hu.length_eq ▸ hle)
  · intro h text
    exact exists_congr fun s => and_congr_right fun _ => forall₂_congr_texts h s

end Occurs

/-! ## `LIKE` -/

/-- `text LIKE pattern`, without an escape character. -/
def like : List Char → List Char → Bool
  | [], text => text.isEmpty
  | c :: pattern, text =>
    if c = '%' then text.tails.any (like pattern)
    else
      match text with
      | [] => false
      | d :: text => (decide (c = '_') || decide (c.toLower = d.toLower)) && like pattern text

/-- A pattern without the two wildcards. -/
def Literal (pattern : List Char) : Prop :=
  '%' ∉ pattern ∧ '_' ∉ pattern

/-- The conditions that a literal pattern puts on characters. -/
def conditions (pattern : List Char) : List (Char → Prop) :=
  pattern.map fun c d => c.toLower = d.toLower

theorem like_percent (pattern text : List Char) :
    like ('%' :: pattern) text = true ↔ ∃ s, s <:+ text ∧ like pattern s = true := by
  simp only [like, if_true, List.any_eq_true, List.mem_tails]

theorem like_cons {c : Char} (hc : c ≠ '%') (pattern : List Char) (d : Char) (text : List Char) :
    like (c :: pattern) (d :: text) =
      ((decide (c = '_') || decide (c.toLower = d.toLower)) && like pattern text) := by
  rw [like, if_neg hc]

theorem literal_cons {c : Char} {pattern : List Char} (h : Literal (c :: pattern)) :
    c ≠ '%' ∧ c ≠ '_' ∧ Literal pattern := by
  simp only [Literal, List.mem_cons, not_or] at h
  exact ⟨Ne.symm h.1.1, Ne.symm h.2.1, h.1.2, h.2.2⟩

theorem like_of_literal_tail {pattern : List Char} (h : Literal pattern) (text : List Char) :
    like (pattern ++ ['%']) text = true ↔
      ∃ s, s <+: text ∧ List.Forall₂ (fun p a => p a) (conditions pattern) s := by
  induction pattern generalizing text with
  | nil =>
    refine iff_of_true ((like_percent [] text).2 ⟨[], List.nil_suffix, rfl⟩) ⟨[], List.nil_prefix, .nil⟩
  | cons c pattern ih =>
    obtain ⟨hpercent, hunderscore, hrest⟩ := literal_cons h
    cases text with
    | nil =>
      refine iff_of_false (by simp [like, hpercent]) ?_
      rintro ⟨s, hs, hforall⟩
      rw [List.prefix_nil.1 hs] at hforall
      cases hforall
    | cons d text =>
      rw [List.cons_append, like_cons hpercent, decide_eq_false hunderscore, Bool.false_or,
        Bool.and_eq_true, decide_eq_true_eq, ih hrest]
      constructor
      · rintro ⟨hcd, s, hs, hforall⟩
        exact ⟨d :: s, List.cons_prefix_cons.2 ⟨rfl, hs⟩, .cons hcd hforall⟩
      · rintro ⟨s, hs, hforall⟩
        rcases hforall with _ | ⟨hcd, hforall⟩
        obtain ⟨rfl, hprefix⟩ := List.cons_prefix_cons.1 hs
        exact ⟨hcd, _, hprefix, hforall⟩

/-- Between two `%` a literal pattern is found where it occurs. -/
theorem like_literal {pattern : List Char} (h : Literal pattern) (text : List Char) :
    like ('%' :: pattern ++ ['%']) text = true ↔ Occurs (conditions pattern) text := by
  rw [List.cons_append, like_percent]
  constructor
  · rintro ⟨t, ht, hlike⟩
    obtain ⟨s, hs, hforall⟩ := (like_of_literal_tail h t).1 hlike
    exact ⟨s, hs.isInfix.trans ht.isInfix, hforall⟩
  · rintro ⟨s, hs, hforall⟩
    obtain ⟨t, hst, ht⟩ := List.infix_iff_prefix_suffix.1 hs
    exact ⟨t, ht, (like_of_literal_tail h t).2 ⟨s, hst, hforall⟩⟩

theorem toLower_of_not_upper {c : Char} (h : ¬('A'.val ≤ c.val ∧ c.val ≤ 'Z'.val)) : c.toLower = c := by
  delta Char.toLower
  rw [dif_neg h]

theorem toLower_val_of_upper {c : Char} (h : 'A'.val ≤ c.val ∧ c.val ≤ 'Z'.val) :
    c.toLower.val = c.val + 32 := by
  delta Char.toLower
  rw [dif_pos h]
  rfl

theorem toLower_toLower (c : Char) : c.toLower.toLower = c.toLower := by
  by_cases h : 'A'.val ≤ c.val ∧ c.val ≤ 'Z'.val
  · have hval := toLower_val_of_upper h
    refine toLower_of_not_upper fun hupper => ?_
    rw [hval] at hupper
    simp only [UInt32.le_iff_toNat_le, UInt32.toNat_add] at h hupper
    have hA : 'A'.val.toNat = 65 := rfl
    have hZ : 'Z'.val.toNat = 90 := rfl
    have hstep : (32 : UInt32).toNat = 32 := rfl
    omega
  · rw [toLower_of_not_upper h, toLower_of_not_upper h]

/-- A text matches as its lower case does. -/
theorem like_map_toLower (pattern text : List Char) :
    like pattern (text.map Char.toLower) = like pattern text := by
  induction pattern generalizing text with
  | nil => cases text <;> rfl
  | cons c pattern ih =>
    by_cases hpercent : c = '%'
    · subst hpercent
      rw [Bool.eq_iff_iff, like_percent, like_percent]
      constructor
      · rintro ⟨s, ⟨before, hsplit⟩, hlike⟩
        obtain ⟨first, rest, hfirst, -, rfl⟩ := List.map_eq_append_iff.1 hsplit.symm
        exact ⟨rest, ⟨first, hfirst.symm⟩, (ih rest) ▸ hlike⟩
      · rintro ⟨s, hs, hlike⟩
        exact ⟨s.map Char.toLower, hs.map _, (ih s).trans hlike⟩
    · cases text with
      | nil => rfl
      | cons d text => rw [List.map_cons, like_cons hpercent, like_cons hpercent, toLower_toLower, ih]

/-- A text without wildcards that a pattern matches. -/
def plain (pattern : List Char) : List Char :=
  (pattern.filter fun c => decide (c ≠ '%')).map fun c => if c = '_' then 'a' else c

theorem literal_plain (pattern : List Char) : Literal (plain pattern) := by
  have hmem : ∀ c ∈ plain pattern, c ≠ '%' ∧ c ≠ '_' := by
    intro c hc
    obtain ⟨d, hd, rfl⟩ := List.mem_map.1 hc
    have hpercent : d ≠ '%' := of_decide_eq_true (List.mem_filter.1 hd).2
    split_ifs with hunderscore
    · decide
    · exact ⟨hpercent, hunderscore⟩
  exact ⟨fun h => (hmem _ h).1 rfl, fun h => (hmem _ h).2 rfl⟩

theorem like_plain_tail (pattern : List Char) : like (pattern ++ ['%']) (plain pattern) = true := by
  induction pattern with
  | nil => exact (like_percent [] []).2 ⟨[], List.suffix_rfl, rfl⟩
  | cons c pattern ih =>
    by_cases hpercent : c = '%'
    · subst hpercent
      have hskip : plain ('%' :: pattern) = plain pattern := by simp [plain]
      rw [hskip, List.cons_append]
      exact (like_percent _ _).2 ⟨plain pattern, List.suffix_rfl, ih⟩
    · have hkeep : plain (c :: pattern) = (if c = '_' then 'a' else c) :: plain pattern := by
        simp [plain, hpercent]
      rw [hkeep, List.cons_append, like_cons hpercent, ih, Bool.and_true]
      split_ifs with hunderscore
      · rw [decide_eq_true hunderscore, Bool.true_or]
      · rw [decide_eq_true rfl, Bool.or_true]

theorem like_plain (pattern : List Char) : like ('%' :: pattern ++ ['%']) (plain pattern) = true := by
  rw [List.cons_append]
  exact (like_percent _ _).2 ⟨plain pattern, List.suffix_rfl, like_plain_tail pattern⟩

end SqlLike
