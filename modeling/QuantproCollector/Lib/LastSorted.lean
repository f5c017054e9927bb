import Mathlib.Data.List.Sort

/-!
# The last of a sorted list

Sorting by a total preorder commutes with filtering (`filter_insertionSort`); the last element of the
sorted list follows every other (`rel_of_getLast?`), and an element that follows every other is the last
one where it was listed last (`getLast?_insertionSort_append`), since the sort is stable.
-/

namespace List

variable {α : Type} {r : α → α → Prop} [DecidableRel r] {p : α → Bool} {l : List α}

theorem orderedInsert_of_forall {a : α} (h : ∀ b ∈ l, r a b) : l.orderedInsert r a = a :: l := by
  cases l with
  | nil => rfl
  | cons b l => exact List.orderedInsert_cons_of_le r l (h b List.mem_cons_self)

theorem filter_orderedInsert (htrans : ∀ a b c, r a b → r b c → r a c) {a : α} (hl : l.Pairwise r) :
    (l.orderedInsert r a).filter p =
      if p a then (l.filter p).orderedInsert r a else l.filter p := by
  induction l with
  | nil =>
    by_cases ha : p a = true
    · simp [ha]
    · simp [ha]
  | cons b l ih =>
    obtain ⟨hb, hl⟩ := List.pairwise_cons.1 hl
    rw [List.orderedInsert_cons]
    by_cases hab : r a b
    · rw [if_pos hab]
      by_cases ha : p a = true
      · rw [if_pos ha, List.filter_cons_of_pos ha, orderedInsert_of_forall fun c hc => ?_]
        rcases List.mem_cons.1 (List.mem_filter.1 hc).1 with rfl | hc
        · exact hab
        · exact htrans a b c hab (hb c hc)
      · rw [if_neg ha, List.filter_cons_of_neg ha]
    · rw [if_neg hab]
      by_cases hpb : p b = true
      · rw [List.filter_cons_of_pos hpb, List.filter_cons_of_pos hpb, ih hl]
        by_cases ha : p a = true
        · rw [if_pos ha, if_pos ha, List.orderedInsert_of_not_le r _ hab]
        · rw [if_neg ha, if_neg ha]
      · rw [List.filter_cons_of_neg hpb, List.filter_cons_of_neg hpb, ih hl]

/-- Filtering a sorted list sorts the filtered list. -/
theorem filter_insertionSort (htotal : ∀ a b, r a b ∨ r b a) (htrans : ∀ a b c, r a b → r b c → r a c) :
    (l.insertionSort r).filter p = (l.filter p).insertionSort r := by
  have : Std.Total r := ⟨htotal⟩
  have : IsTrans α r := ⟨htrans⟩
  induction l with
  | nil => rfl
  | cons a l ih =>
    rw [List.insertionSort_cons, filter_orderedInsert htrans (List.pairwise_insertionSort r l), ih]
    by_cases ha : p a = true
    · rw [if_pos ha, List.filter_cons_of_pos ha, List.insertionSort_cons]
    · rw [if_neg ha, List.filter_cons_of_neg ha]

/-- The last element of a sorted list follows every element. -/
theorem rel_of_getLast? (htotal : ∀ a b, r a b ∨ r b a) (htrans : ∀ a b c, r a b → r b c → r a c)
    {a : α} (h : (l.insertionSort r).getLast? = some a) : ∀ b ∈ l, r b a := by
  have : Std.Total r := ⟨htotal⟩
  have : IsTrans α r := ⟨htrans⟩
  intro b hb
  have hsorted := List.pairwise_insertionSort r l
  obtain ⟨before, heq⟩ := List.getLast?_eq_some_iff.1 h
  have hmem := (List.mem_insertionSort r).2 hb
  rw [heq] at hsorted hmem
  rcases List.mem_append.1 hmem with hmem | hmem
  · exact (List.pairwise_append.1 hsorted).2.2 b hmem a (List.mem_singleton_self a)
  · obtain rfl := List.mem_singleton.1 hmem
    exact (htotal b b).elim id id

/-- What follows every element and is listed last stays last. -/
theorem getLast?_insertionSort_append {a : α} (h : ∀ b ∈ l, r b a) :
    ((l ++ [a]).insertionSort r).getLast? = some a := by
  suffices ∃ before, (l ++ [a]).insertionSort r = before ++ [a] by
    obtain ⟨before, heq⟩ := this
    rw [heq]
    simp
  induction l with
  | nil => exact ⟨[], rfl⟩
  | cons b l ih =>
    obtain ⟨before, heq⟩ := ih fun c hc => h c (List.mem_cons_of_mem b hc)
    rw [List.cons_append, List.insertionSort_cons, heq]
    have hb := h b List.mem_cons_self
    clear heq
    induction before with
    | nil => exact ⟨[b], List.orderedInsert_cons_of_le r [] hb⟩
    | cons c before ih =>
      rw [List.cons_append, List.orderedInsert_cons]
      by_cases hbc : r b c
      · rw [if_pos hbc]
        exact ⟨b :: c :: before, rfl⟩
      · rw [if_neg hbc]
        obtain ⟨rest, hrest⟩ := ih
        exact ⟨c :: rest, by rw [hrest]; rfl⟩

end List
