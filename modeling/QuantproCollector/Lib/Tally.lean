import Mathlib.Algebra.BigOperators.Group.List.Basic
import Mathlib.Data.List.Dedup
import QuantproCollector.Lib.Table

/-!
# Tables that add up

A table with one index whose rows are added to by upserts. `find?_upsert` is what an upsert makes of the
row of a key, and `find?_tally` what a sequence of them does: the row of a key is what the amounts under
that key make of it, one after another, and the amounts under other keys take no part in it.

`sum_groups`: the sums of the groups of a list add up to the sum of the list.
-/

namespace Relational

namespace Table

variable {ρ κ α : Type} [DecidableEq κ] {key : ρ → κ}

/-- The row of a key. -/
def rowOf (t : Table ρ κ [fun r => some (key r)]) (k : κ) : Option ρ :=
  t.find? fun r => decide (key r = k)

theorem rowOf_eq_some {t : Table ρ κ [fun r => some (key r)]} {k : κ} {r : ρ} :
    t.rowOf k = some r ↔ r ∈ t ∧ key r = k := by
  constructor
  · intro h
    obtain ⟨hr, hk⟩ := mem_of_find? h
    exact ⟨hr, by simpa using hk⟩
  · rintro ⟨hr, rfl⟩
    apply find?_of_mem (i := fun r => some (key r)) (by simp) hr (by simp)
    intro a _ ha
    exact ⟨by simp, by simpa using ha⟩

theorem rowOf_eq_none {t : Table ρ κ [fun r => some (key r)]} {k : κ} :
    t.rowOf k = none ↔ ∀ r ∈ t, key r ≠ k := by
  simp [rowOf, find?_eq_none]

@[simp] theorem rowOf_empty (k : κ) : (empty : Table ρ κ [fun r => some (key r)]).rowOf k = none := rfl

/-- An upsert merges into the row of its key, or inserts it. -/
theorem rowOf_upsert {t : Table ρ κ [fun r => some (key r)]} {r : ρ} {merge : ρ → ρ}
    {h : ∀ a, key (merge a) = key a} (k : κ) :
    (t.upsert r merge h).rowOf k =
      if key r = k then some ((t.rowOf k).elim r merge) else t.rowOf k := by
  split_ifs with hk
  · subst hk
    rw [rowOf_eq_some, mem_upsert]
    cases ht : t.rowOf (key r) with
    | none => exact ⟨.inr (.inr ⟨rfl, rowOf_eq_none.1 ht⟩), rfl⟩
    | some a =>
      obtain ⟨ha, hak⟩ := rowOf_eq_some.1 ht
      exact ⟨.inr (.inl ⟨a, ha, hak, rfl⟩), (h a).trans hak⟩
  · have hsame : ∀ x : ρ, key x = k → (x ∈ t.upsert r merge h ↔ x ∈ t) := by
      intro x hx
      rw [mem_upsert]
      constructor
      · rintro (⟨hx', -⟩ | ⟨a, -, hak, rfl⟩ | ⟨rfl, -⟩)
        · exact hx'
        · exact absurd ((h a).symm.trans hx ▸ hak.symm) hk
        · exact absurd hx hk
      · intro hx'
        exact .inl ⟨hx', fun hxr => hk (hxr.symm.trans hx)⟩
    cases ht : t.rowOf k with
    | none =>
      rw [rowOf_eq_none]
      intro x hx hxk
      exact rowOf_eq_none.1 ht x ((hsame x hxk).1 hx) hxk
    | some a =>
      obtain ⟨ha, hak⟩ := rowOf_eq_some.1 ht
      exact rowOf_eq_some.2 ⟨(hsame a hak).2 ha, hak⟩

section Tally

variable (fresh : α → ρ) (add : ρ → α → ρ) (hkey : ∀ r a, key (add r a) = key r)

/-- What an amount makes of the row of its key. -/
def accrue (row : Option ρ) (a : α) : Option ρ :=
  some (row.elim (fresh a) fun r => add r a)

/-- The table after upserts of the amounts, one after another. -/
def tally (t : Table ρ κ [fun r => some (key r)]) (amounts : List α) :
    Table ρ κ [fun r => some (key r)] :=
  amounts.foldl (fun t a => t.upsert (fresh a) (fun r => add r a) fun r => hkey r a) t

theorem tally_append (t : Table ρ κ [fun r => some (key r)]) (amounts more : List α) :
    t.tally fresh add hkey (amounts ++ more) =
      (t.tally fresh add hkey amounts).tally fresh add hkey more :=
  List.foldl_append

/-- The row of a key is what the amounts under the key make of it, in their order. -/
theorem rowOf_tally (amounts : List α) (t : Table ρ κ [fun r => some (key r)]) (k : κ) :
    (t.tally fresh add hkey amounts).rowOf k =
      (amounts.filter fun a => decide (key (fresh a) = k)).foldl (accrue fresh add) (t.rowOf k) := by
  induction amounts generalizing t with
  | nil => rfl
  | cons a amounts ih =>
    have hstep := ih (t.upsert (fresh a) (fun r => add r a) fun r => hkey r a)
    rw [rowOf_upsert] at hstep
    by_cases hk : key (fresh a) = k
    · rw [if_pos hk] at hstep
      rw [List.filter_cons_of_pos (by simpa using hk)]
      exact hstep
    · rw [if_neg hk] at hstep
      rw [List.filter_cons_of_neg (by simpa using hk)]
      exact hstep

end Tally

end Table

/-! ## Groups -/

section Groups

variable {α κ M : Type} [DecidableEq κ] [AddCommMonoid M]

/-- The sum of the amounts of one group. -/
theorem sum_group_cons (f : α → κ) (g : α → M) (a : α) (xs : List α) (k : κ) :
    (((a :: xs).filter fun x => decide (f x = k)).map g).sum =
      (if f a = k then g a else 0) + ((xs.filter fun x => decide (f x = k)).map g).sum := by
  by_cases hk : f a = k
  · rw [List.filter_cons_of_pos (by simpa using hk), List.map_cons, List.sum_cons, if_pos hk]
  · rw [List.filter_cons_of_neg (by simpa using hk), if_neg hk, zero_add]

/-- One of the keys, once. -/
theorem sum_ite_key {ks : List κ} (hks : ks.Nodup) {k : κ} (hk : k ∈ ks) (m : M) :
    (ks.map fun k' => if k = k' then m else 0).sum = m := by
  induction ks with
  | nil => cases hk
  | cons k' ks ih =>
    obtain ⟨hk', hnodup⟩ := List.nodup_cons.1 hks
    rw [List.map_cons, List.sum_cons]
    by_cases h : k = k'
    · subst h
      have hzero : (ks.map fun k' => if k = k' then m else 0) = ks.map fun _ => 0 := by
        apply List.map_congr_left
        intro x hx
        apply if_neg
        rintro rfl
        exact hk' hx
      rw [if_pos rfl, hzero, List.map_const', List.sum_replicate, nsmul_zero, add_zero]
    · rw [if_neg h, zero_add]
      exact ih hnodup ((List.mem_cons.1 hk).resolve_left h)

/-- The sums of the groups add up to the sum of all. -/
theorem sum_groups (f : α → κ) (g : α → M) {ks : List κ} (hks : ks.Nodup) (xs : List α)
    (hall : ∀ x ∈ xs, f x ∈ ks) :
    (ks.map fun k => ((xs.filter fun x => decide (f x = k)).map g).sum).sum = (xs.map g).sum := by
  induction xs with
  | nil => simp
  | cons a xs ih =>
    have ih := ih fun x hx => hall x (List.mem_cons_of_mem a hx)
    have ha := sum_ite_key hks (hall a List.mem_cons_self) (g a)
    calc (ks.map fun k => (((a :: xs).filter fun x => decide (f x = k)).map g).sum).sum
        = (ks.map fun k => (if f a = k then g a else 0) +
            ((xs.filter fun x => decide (f x = k)).map g).sum).sum := by
          simp only [sum_group_cons]
      _ = g a + (xs.map g).sum := by rw [List.sum_map_add, ha, ih]
      _ = ((a :: xs).map g).sum := by rw [List.map_cons, List.sum_cons]

end Groups

end Relational
