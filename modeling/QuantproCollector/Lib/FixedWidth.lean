import Mathlib.Data.List.Lex
import Mathlib.Data.Nat.Basic
import Mathlib.Tactic.IntervalCases
import Mathlib.Tactic.SplitIfs

/-!
# Numbers of fixed width

Numbers that are written with a fixed number of decimal digits are ordered as texts the way they are
ordered as numbers (`pad_lt_pad_iff`), and so are lines of such fields (`line_lt_line_iff`).
-/

namespace FixedWidth

/-- The last `width` decimal digits of a number. -/
def pad : ℕ → ℕ → List Char
  | 0, _ => []
  | width + 1, n => pad width (n / 10) ++ [Nat.digitChar (n % 10)]

@[simp] theorem length_pad (width n : ℕ) : (pad width n).length = width := by
  induction width generalizing n with
  | zero => rfl
  | succ width ih => rw [pad, List.length_append, ih, List.length_singleton]

/-- Texts that begin with as many characters are ordered by these first. -/
theorem append_lt_append_iff {α : Type} [LT α] {p q s t : List α} (h : p.length = q.length) :
    p ++ s < q ++ t ↔ p < q ∨ p = q ∧ s < t := by
  induction p generalizing q with
  | nil =>
    obtain rfl := List.length_eq_zero_iff.1 h.symm
    simp
  | cons a p ih =>
    obtain ⟨b, q, rfl⟩ := List.exists_cons_of_length_eq_add_one h.symm
    have hlength : p.length = q.length := by simpa using h
    rw [List.cons_append, List.cons_append, List.cons_lt_cons_iff, List.cons_lt_cons_iff, ih hlength,
      List.cons.injEq]
    tauto

theorem digitChar_lt_iff : ∀ a < 10, ∀ b < 10, Nat.digitChar a < Nat.digitChar b ↔ a < b := by
  decide

theorem digitChar_inj : ∀ a < 10, ∀ b < 10, Nat.digitChar a = Nat.digitChar b → a = b := by
  decide

theorem pad_inj {width m n : ℕ} (hm : m < 10 ^ width) (hn : n < 10 ^ width)
    (h : pad width m = pad width n) : m = n := by
  induction width generalizing m n with
  | zero => omega
  | succ width ih =>
    obtain ⟨hinit, hlast⟩ := List.append_inj h (by rw [length_pad, length_pad])
    have hdiv := ih (by omega) (by omega) hinit
    have hmod := digitChar_inj _ (Nat.mod_lt m (by decide)) _ (Nat.mod_lt n (by decide))
      (List.singleton_inj.1 hlast)
    omega

theorem pad_lt_pad_iff {width m n : ℕ} (hm : m < 10 ^ width) (hn : n < 10 ^ width) :
    pad width m < pad width n ↔ m < n := by
  induction width generalizing m n with
  | zero =>
    obtain ⟨rfl, rfl⟩ : m = 0 ∧ n = 0 := by omega
    simp
  | succ width ih =>
    have hdiv : m / 10 < 10 ^ width ∧ n / 10 < 10 ^ width := by omega
    have hlast : [Nat.digitChar (m % 10)] < [Nat.digitChar (n % 10)] ↔ m % 10 < n % 10 := by
      rw [List.cons_lt_cons_iff,
        digitChar_lt_iff _ (Nat.mod_lt m (by decide)) _ (Nat.mod_lt n (by decide))]
      simp
    have heq : pad width (m / 10) = pad width (n / 10) ↔ m / 10 = n / 10 :=
      ⟨pad_inj hdiv.1 hdiv.2, fun h => by rw [h]⟩
    rw [pad, pad, append_lt_append_iff (by rw [length_pad, length_pad]), ih hdiv.1 hdiv.2, heq, hlast]
    omega

/-! ## Lines -/

/-- The width of each field of a line, and the character that ends it. -/
abbrev Layout := List (ℕ × Char)

/-- The fields, each in its width. -/
def line : Layout → List ℕ → List Char
  | (width, stop) :: layout, n :: fields => pad width n ++ stop :: line layout fields
  | _, _ => []

/-- There is a field for each width, and it fits. -/
def Fits : Layout → List ℕ → Prop
  | [], [] => True
  | (width, _) :: layout, n :: fields => n < 10 ^ width ∧ Fits layout fields
  | _, _ => False

theorem line_inj {layout : Layout} {fields fields' : List ℕ} (h : Fits layout fields)
    (h' : Fits layout fields') (heq : line layout fields = line layout fields') : fields = fields' := by
  induction layout generalizing fields fields' with
  | nil =>
    cases fields with
    | nil =>
      cases fields' with
      | nil => rfl
      | cons n fields' => cases h'
    | cons m fields => cases h
  | cons column layout ih =>
    cases fields with
    | nil => cases h
    | cons m fields =>
      cases fields' with
      | nil => cases h'
      | cons n fields' =>
        obtain ⟨hpad, hrest⟩ := List.append_inj heq (by rw [length_pad, length_pad])
        rw [pad_inj h.1 h'.1 hpad, ih h.2 h'.2 (List.cons_inj_right column.2 |>.1 hrest)]

/-- Lines are ordered as their fields are, the first field that differs deciding. -/
theorem line_lt_line_iff {layout : Layout} {fields fields' : List ℕ} (h : Fits layout fields)
    (h' : Fits layout fields') : line layout fields < line layout fields' ↔ fields < fields' := by
  induction layout generalizing fields fields' with
  | nil =>
    cases fields with
    | nil =>
      cases fields' with
      | nil => simp [line]
      | cons n fields' => cases h'
    | cons m fields => cases h
  | cons column layout ih =>
    cases fields with
    | nil => cases h
    | cons m fields =>
      cases fields' with
      | nil => cases h'
      | cons n fields' =>
        have heq : pad column.1 m = pad column.1 n ↔ m = n :=
          ⟨pad_inj h.1 h'.1, fun h => by rw [h]⟩
        rw [line, line, append_lt_append_iff (by rw [length_pad, length_pad]),
          pad_lt_pad_iff h.1 h'.1, heq, List.cons_lt_cons_iff, List.cons_lt_cons_iff, ih h.2 h'.2]
        simp

end FixedWidth
