import Mathlib.Data.List.Basic

/-!
# Header fields

A header is a list of fields, of which several may have one name. Deleting a name leaves the values of the
other names as they were, and setting one leaves its own value alone. The words of a value stand between
separators (`words`): they are those of a list of words put together with a separator (`words_intercalate`),
and separators at either end of the value do not add to them (`words_trim`).
-/

namespace HeaderFields

/-! ## Fields -/

section Fields

variable {κ ν : Type} [DecidableEq κ]

/-- The values of a name, in the order of their fields. -/
def values (fields : List (κ × ν)) (name : κ) : List ν :=
  (fields.filter fun f => f.1 = name).map Prod.snd

/-- Delete the fields of a name. -/
def delete (fields : List (κ × ν)) (name : κ) : List (κ × ν) :=
  fields.filter fun f => f.1 ≠ name

/-- Make a value the only one of its name. -/
def set (fields : List (κ × ν)) (name : κ) (value : ν) : List (κ × ν) :=
  delete fields name ++ [(name, value)]

variable (fields : List (κ × ν)) {name other : κ} (value : ν)

@[simp] theorem values_delete_self : values (delete fields name) name = [] := by
  simp [values, delete, List.filter_filter]

theorem values_delete_of_ne (h : other ≠ name) :
    values (delete fields name) other = values fields other := by
  unfold values delete
  rw [List.filter_filter]
  congr 1
  refine List.filter_congr fun f _ => ?_
  by_cases hf : f.1 = other
  · simp [hf, h]
  · simp [hf]

@[simp] theorem values_set_self : values (set fields name value) name = [value] := by
  have hdelete := @values_delete_self κ ν _ fields name
  unfold values at hdelete ⊢
  rw [set, List.filter_append, List.map_append, hdelete]
  simp

theorem values_set_of_ne (h : other ≠ name) :
    values (set fields name value) other = values fields other := by
  have hdelete := values_delete_of_ne fields h
  unfold values at hdelete ⊢
  rw [set, List.filter_append, List.map_append, hdelete]
  simp [Ne.symm h]

end Fields

/-! ## Words -/

section Words

variable {α : Type}

/-- The pieces of a value between separators, except the empty ones. -/
def words (isSep : α → Bool) (value : List α) : List (List α) :=
  (value.splitOnP isSep).filter fun w => !w.isEmpty

/-- A value without what its two ends have of some characters. -/
def trim (isBlank : α → Bool) (value : List α) : List α :=
  (((value.dropWhile isBlank).reverse).dropWhile isBlank).reverse

variable {isSep isBlank : α → Bool}

@[simp] theorem words_nil : words isSep ([] : List α) = [] := by
  simp [words]

theorem words_of_forall {w : List α} (h : ∀ c ∈ w, isSep c = false) :
    words isSep w = [w].filter fun w => !w.isEmpty := by
  rw [words, List.splitOnP_eq_singleton h]

theorem words_append_cons (v w : List α) {c : α} (hc : isSep c = true) :
    words isSep (v ++ c :: w) = words isSep v ++ words isSep w := by
  rw [words, List.splitOnP_append_cons v w hc, List.filter_append]
  rfl

theorem words_cons {c : α} (hc : isSep c = true) (w : List α) : words isSep (c :: w) = words isSep w := by
  simpa using words_append_cons [] w hc

theorem words_concat {c : α} (hc : isSep c = true) (w : List α) :
    words isSep (w ++ [c]) = words isSep w := by
  simpa using words_append_cons w [] hc

theorem words_intercalate {sep : α} (hsep : isSep sep = true) {ws : List (List α)}
    (h : ∀ w ∈ ws, ∀ c ∈ w, isSep c = false) :
    words isSep ([sep].intercalate ws) = ws.filter fun w => !w.isEmpty := by
  induction ws with
  | nil => simp
  | cons w ws ih =>
    have hw := words_of_forall (h w List.mem_cons_self)
    have hws := ih fun v hv => h v (List.mem_cons_of_mem _ hv)
    cases ws with
    | nil => rwa [List.intercalate_singleton]
    | cons v ws =>
      rw [List.intercalate_cons_cons, List.append_assoc, List.singleton_append,
        words_append_cons _ _ hsep, hw, hws, ← List.filter_append, List.singleton_append]

theorem words_dropWhile (h : ∀ c, isBlank c = true → isSep c = true) (w : List α) :
    words isSep (w.dropWhile isBlank) = words isSep w := by
  induction w with
  | nil => rfl
  | cons c w ih =>
    cases hc : isBlank c with
    | false => rw [List.dropWhile_cons_of_neg (by simp [hc])]
    | true => rw [List.dropWhile_cons_of_pos hc, ih, words_cons (h c hc)]

theorem words_reverse_dropWhile (h : ∀ c, isBlank c = true → isSep c = true) (w : List α) :
    words isSep (w.dropWhile isBlank).reverse = words isSep w.reverse := by
  induction w with
  | nil => rfl
  | cons c w ih =>
    cases hc : isBlank c with
    | false => rw [List.dropWhile_cons_of_neg (by simp [hc])]
    | true => rw [List.dropWhile_cons_of_pos hc, ih, List.reverse_cons, words_concat (h c hc)]

theorem dropWhile_of_forall {w : List α} (h : ∀ c ∈ w, isBlank c = false) : w.dropWhile isBlank = w := by
  cases w with
  | nil => rfl
  | cons c w => exact List.dropWhile_cons_of_neg (by simp [h c List.mem_cons_self])

theorem trim_of_forall {w : List α} (h : ∀ c ∈ w, isBlank c = false) : trim isBlank w = w := by
  rw [trim, dropWhile_of_forall h, dropWhile_of_forall fun c hc => h c (List.mem_reverse.1 hc),
    List.reverse_reverse]

theorem words_trim (h : ∀ c, isBlank c = true → isSep c = true) (w : List α) :
    words isSep (trim isBlank w) = words isSep w := by
  rw [trim, words_reverse_dropWhile h, List.reverse_reverse, words_dropWhile h]

end Words

end HeaderFields
