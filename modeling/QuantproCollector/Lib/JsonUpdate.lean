import QuantproCollector.Lib.JsonText

/-!
# Updates of JSON objects

`{...value, key: x}`: a key that the object has keeps its place, a new key comes last.
-/

namespace Decimal

theorem le_strip_exponent (fuel : ℕ) (m e : ℤ) : e ≤ (strip fuel m e).2 := by
  induction fuel generalizing m e with
  | zero => exact le_rfl
  | succ fuel ih =>
    unfold strip
    split_ifs
    · have := ih (m / 10) (e + 1)
      omega
    · exact le_rfl

theorem strip_mantissa_nonneg (fuel : ℕ) {m : ℤ} (hm : 0 ≤ m) (e : ℤ) :
    0 ≤ (strip fuel m e).1 := by
  induction fuel generalizing m e with
  | zero => exact hm
  | succ fuel ih =>
    unfold strip
    split_ifs
    · exact ih (by omega) _
    · exact hm

@[simp] theorem isInteger_ofInt (n : ℤ) : (ofInt n).isInteger = true := by
  unfold isInteger ofInt ofParts
  split_ifs
  · exact decide_eq_true (le_strip_exponent n.natAbs n 0)
  · rfl

@[simp] theorem isNeg_ofInt_natCast (n : ℕ) : (ofInt n).isNeg = false := by
  unfold isNeg ofInt ofParts
  split_ifs
  · exact decide_eq_false (not_lt.2 (strip_mantissa_nonneg _ (by omega) 0))
  · rfl

theorem ofInt_injective {m n : ℤ} (h : ofInt m = ofInt n) : m = n := by
  rw [← trunc_ofInt m, h, trunc_ofInt]

end Decimal

namespace Json

/-- `{...value, key: x}`. -/
def set : Json → String → Json → Json
  | obj fields, key, x => obj (setField fields key x)
  | _, key, x => obj [(key, x)]

/-- `{...value, key: x, ...}`, the updates from left to right. -/
def assign (value : Json) (updates : List (String × Json)) : Json :=
  updates.foldl (fun value f => value.set f.1 f.2) value

theorem lookup_setField (fields : List (String × Json)) (key k : String) (x : Json) :
    (setField fields key x).lookup k = if k = key then some x else fields.lookup k := by
  induction fields with
  | nil =>
    rw [setField, List.lookup_cons]
    split_ifs with hk
    · rw [hk, beq_self_eq_true]
    · rw [beq_eq_false_iff_ne.2 hk]
  | cons f fields ih =>
    obtain ⟨l, y⟩ := f
    rw [setField]
    split_ifs with hl hk hk
    · rw [hk, List.lookup_cons_self]
    · have hne : (k == key) = false := beq_eq_false_iff_ne.2 hk
      rw [List.lookup_cons, List.lookup_cons, hl, hne]
    · have hne : (k == l) = false := beq_eq_false_iff_ne.2 fun h => hl (h.symm.trans hk)
      rw [List.lookup_cons, hne, ih, if_pos hk]
    · rw [List.lookup_cons, List.lookup_cons, ih, if_neg hk]

theorem keys_setField {fields : List (String × Json)} {key : String}
    (h : key ∈ fields.map Prod.fst) (x : Json) :
    (setField fields key x).map Prod.fst = fields.map Prod.fst := by
  induction fields with
  | nil => exact absurd h List.not_mem_nil
  | cons f fields ih =>
    obtain ⟨l, y⟩ := f
    rw [setField]
    split_ifs with hl
    · rw [List.map_cons, List.map_cons, ← hl]
    · have hmem : key ∈ fields.map Prod.fst := (List.mem_cons.1 h).resolve_left (Ne.symm hl)
      rw [List.map_cons, List.map_cons, ih hmem]

theorem lookup_isSome_iff (fields : List (String × Json)) (key : String) :
    (fields.lookup key).isSome = fields.any fun f => f.1 == key := by
  induction fields with
  | nil => rfl
  | cons f fields ih =>
    obtain ⟨l, y⟩ := f
    by_cases hl : key = l <;> grind

theorem get?_set {value : Json} (h : ∃ fields, value = obj fields) (key k : String) (x : Json) :
    (value.set key x).get? k = if k = key then some x else value.get? k := by
  obtain ⟨fields, rfl⟩ := h
  exact lookup_setField fields key k x

theorem set_isObj (value : Json) (key : String) (x : Json) : ∃ fields, value.set key x = obj fields := by
  cases value with
  | obj fields => exact ⟨_, rfl⟩
  | _ => exact ⟨_, rfl⟩

theorem assign_isObj {value : Json} (h : ∃ fields, value = obj fields)
    (updates : List (String × Json)) : ∃ fields, value.assign updates = obj fields := by
  induction updates generalizing value with
  | nil => exact h
  | cons f updates ih => exact ih (set_isObj value f.1 f.2)

/-- A key that no update names keeps its value. -/
theorem get?_assign_of_notMem {value : Json} (h : ∃ fields, value = obj fields)
    {updates : List (String × Json)} {k : String} (hk : k ∉ updates.map Prod.fst) :
    (value.assign updates).get? k = value.get? k := by
  induction updates generalizing value with
  | nil => rfl
  | cons f updates ih =>
    rw [List.map_cons, List.mem_cons, not_or] at hk
    have hrest := ih (set_isObj value f.1 f.2) hk.2
    exact hrest.trans ((get?_set h f.1 k f.2).trans (if_neg hk.1))

/-- A key that one update names has its value. -/
theorem get?_assign_of_mem {value : Json} (h : ∃ fields, value = obj fields)
    {updates : List (String × Json)} (hnodup : (updates.map Prod.fst).Nodup) {k : String} {x : Json}
    (hk : (k, x) ∈ updates) : (value.assign updates).get? k = some x := by
  induction updates generalizing value with
  | nil => exact absurd hk List.not_mem_nil
  | cons f updates ih =>
    rw [List.map_cons, List.nodup_cons] at hnodup
    rcases List.mem_cons.1 hk with rfl | hk
    · exact (get?_assign_of_notMem (set_isObj value k x) hnodup.1).trans
        ((get?_set h k k x).trans (if_pos rfl))
    · exact ih (set_isObj value f.1 f.2) hnodup.2 hk

theorem set_self {value : Json} {key : String} {x : Json} (h : value.get? key = some x) :
    value.set key x = value := by
  cases value with
  | obj fields =>
    refine congrArg obj ?_
    replace h : fields.lookup key = some x := h
    induction fields with
    | nil => cases h
    | cons f fields ih =>
      obtain ⟨l, y⟩ := f
      rw [setField]
      split_ifs with hl
      · subst hl
        rw [List.lookup_cons_self] at h
        rw [Option.some.inj h]
      · rw [List.lookup_cons, beq_eq_false_iff_ne.2 (Ne.symm hl)] at h
        rw [ih h]
  | _ => cases h

/-- Updates that write what is there change nothing. -/
theorem assign_self {value : Json} {updates : List (String × Json)}
    (h : ∀ f ∈ updates, value.get? f.1 = some f.2) : value.assign updates = value := by
  induction updates with
  | nil => rfl
  | cons f updates ih =>
    rw [List.forall_mem_cons] at h
    rw [assign, List.foldl_cons, set_self h.1]
    exact ih h.2

theorem keys_set_of_mem {value : Json} {key : String} (h : key ∈ value.keys) (x : Json) :
    (value.set key x).keys = value.keys := by
  cases value with
  | obj fields => exact keys_setField h x
  | _ => exact absurd h List.not_mem_nil

/-- Updates of keys that the object has leave its keys in place. -/
theorem keys_assign {value : Json} {updates : List (String × Json)}
    (h : ∀ f ∈ updates, f.1 ∈ value.keys) : (value.assign updates).keys = value.keys := by
  induction updates generalizing value with
  | nil => rfl
  | cons f updates ih =>
    have hset := keys_set_of_mem (h f List.mem_cons_self) f.2
    have hkeys : ∀ g ∈ updates, g.1 ∈ (value.set f.1 f.2).keys :=
      fun g hg => hset ▸ h g (List.mem_cons_of_mem f hg)
    exact (ih hkeys).trans hset

end Json
