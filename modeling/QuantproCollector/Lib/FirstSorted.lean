import Mathlib.Data.List.Sort

/-!
# The first of a sorted list

A list sorted by a total preorder and searched for a property: the first element that has it precedes
all that have it (`rel_of_find?`), and where all that have it are alike, it is the first of them in the
list that was sorted (`find?_insertionSort_of_alike`), since the sort is stable.
-/

namespace List

variable {α : Type} {r : α → α → Prop} [DecidableRel r] {p : α → Bool} {l : List α}

/-- The first element of a sorted list that has the property precedes every one that has it. -/
theorem rel_of_find? (htotal : ∀ a b, r a b ∨ r b a) (htrans : ∀ a b c, r a b → r b c → r a c)
    {a : α} (h : (l.insertionSort r).find? p = some a) : ∀ b ∈ l, p b = true → r a b := by
  have : Std.Total r := ⟨htotal⟩
  have : IsTrans α r := ⟨htrans⟩
  intro b hb hp
  have hsorted := List.pairwise_insertionSort r l
  obtain ⟨-, before, after, heq, hbefore⟩ := List.find?_eq_some_iff_append.1 h
  rw [heq] at hsorted
  have hmem : b ∈ before ++ a :: after := heq ▸ (List.mem_insertionSort r).2 hb
  rcases List.mem_append.1 hmem with hmem | hmem
  · simpa [hp] using hbefore b hmem
  · rcases List.mem_cons.1 hmem with rfl | hmem
    · exact (htotal b b).elim id id
    · exact List.rel_of_pairwise_cons (List.pairwise_append.1 hsorted).2.1 hmem

/-- The head of a sorted list precedes every element. -/
theorem rel_of_head? (htotal : ∀ a b, r a b ∨ r b a) (htrans : ∀ a b c, r a b → r b c → r a c) {a : α}
    (h : (l.insertionSort r).head? = some a) : ∀ b ∈ l, r a b := by
  intro b hb
  refine rel_of_find? (p := fun _ => true) htotal htrans ?_ b hb rfl
  cases hl : l.insertionSort r with
  | nil =>
    rw [hl] at h
    cases h
  | cons c rest =>
    rw [hl] at h
    exact h

theorem find?_orderedInsert_of_not {a : α} (ha : p a = false) :
    (l.orderedInsert r a).find? p = l.find? p := by
  induction l with
  | nil => simp [ha]
  | cons b l ih =>
    rw [List.orderedInsert_cons]
    split_ifs
    · rw [List.find?_cons, ha]
    · rw [List.find?_cons, List.find?_cons, ih]

theorem find?_orderedInsert_of_alike {a : α} (ha : p a = true) (halike : ∀ b ∈ l, p b = true → r a b) :
    (l.orderedInsert r a).find? p = some a := by
  induction l with
  | nil => simp [ha]
  | cons b l ih =>
    rw [List.orderedInsert_cons]
    split_ifs with hab
    · rw [List.find?_cons, ha]
    · have hb : p b = false := by
        by_contra hb
        exact hab (halike b List.mem_cons_self (by simpa using hb))
      rw [List.find?_cons, hb, ih fun c hc => halike c (List.mem_cons_of_mem b hc)]

/-- Where all that have the property are alike, sorting leaves the first of them the first. -/
theorem find?_insertionSort_of_alike
    (halike : ∀ a ∈ l, ∀ b ∈ l, p a = true → p b = true → r a b) :
    (l.insertionSort r).find? p = l.find? p := by
  induction l with
  | nil => rfl
  | cons a l ih =>
    have hrest := ih fun b hb c hc => halike b (List.mem_cons_of_mem a hb) c (List.mem_cons_of_mem a hc)
    rw [List.insertionSort_cons, List.find?_cons]
    cases ha : p a with
    | true =>
      rw [find?_orderedInsert_of_alike ha fun b hb hpb => ?_]
      exact halike a List.mem_cons_self b
        (List.mem_cons_of_mem a ((List.mem_insertionSort r).1 hb)) ha hpb
    | false => rw [find?_orderedInsert_of_not ha, hrest]

/-- A sorted list has an element with the property where the list has. -/
theorem find?_insertionSort_eq_none : (l.insertionSort r).find? p = none ↔ l.find? p = none := by
  simp only [List.find?_eq_none, List.mem_insertionSort]

end List
