import Mathlib.Data.List.Sort
import Mathlib.Tactic.SplitIfs

/-!
# Pages by key

A listing served in pages: a page holds the first `limit` rows whose key lies after the cursor, in
key order, and names the last of them as the next cursor when there are more. Where keys are
distinct, following the cursors from the start serves every row once and in key order
(`walk_eq_ordered`), whatever the page size.
-/

namespace Keyset

variable {α κ : Type} [LinearOrder κ] (key : α → κ)

/-- One page and the cursor of the next one. -/
structure Page (α κ : Type) where
  items : List α
  next : Option κ

/-- The rows in key order. -/
def ordered (rows : List α) : List α :=
  rows.insertionSort fun a b => key a ≤ key b

/-- The rows after a cursor. -/
def after (cursor : Option κ) (rows : List α) : List α :=
  rows.filter fun r => decide (∀ k ∈ cursor, k < key r)

/-- The page at a cursor. One row more than the page is read, to see whether there is a next one. -/
def page (limit : ℕ) (rows : List α) (cursor : Option κ) : Page α κ :=
  let fetched := (ordered key (after key cursor rows)).take (limit + 1)
  let items := fetched.take limit
  { items
    next := if limit < fetched.length then items.getLast?.map key else none }

/-- The rows of at most `fuel` pages, following the cursors. -/
def walk (limit : ℕ) (rows : List α) : ℕ → Option κ → List α
  | 0, _ => []
  | fuel + 1, cursor =>
    let p := page key limit rows cursor
    match p.next with
    | none => p.items
    | some k => p.items ++ walk limit rows fuel (some k)

/-- The rows of the pages up to the last one, each page of its own size; `none` where more than
`fuel` pages are needed. -/
def walkBy (rows : List α) : (limits : ℕ → ℕ) → ℕ → Option κ → Option (List α)
  | _, 0, _ => none
  | limits, fuel + 1, cursor =>
    let p := page key (limits 0) rows cursor
    match p.next with
    | none => some p.items
    | some k => (walkBy rows (fun n => limits (n + 1)) fuel (some k)).map (p.items ++ ·)

variable {key}

theorem perm_ordered (rows : List α) : (ordered key rows).Perm rows :=
  List.perm_insertionSort _ _

@[simp] theorem mem_ordered {rows : List α} {r : α} : r ∈ ordered key rows ↔ r ∈ rows :=
  (perm_ordered rows).mem_iff

@[simp] theorem length_ordered (rows : List α) : (ordered key rows).length = rows.length :=
  (perm_ordered rows).length_eq

theorem pairwise_ordered (rows : List α) :
    (ordered key rows).Pairwise fun a b => key a ≤ key b := by
  have : Std.Total fun a b : α => key a ≤ key b := ⟨fun a b => le_total _ _⟩
  have : IsTrans α fun a b => key a ≤ key b := ⟨fun _ _ _ => le_trans⟩
  exact List.pairwise_insertionSort _ _

/-- Rows of distinct keys stand in strict order. -/
theorem strict_ordered {rows : List α} (h : (rows.map key).Nodup) :
    (ordered key rows).Pairwise fun a b => key a < key b := by
  have hne : (ordered key rows).Pairwise fun a b => key a ≠ key b :=
    List.pairwise_map.1 (((perm_ordered rows).map key).nodup_iff.2 h)
  exact (pairwise_ordered rows).imp₂ (fun _ _ hle hne => lt_of_le_of_ne hle hne) hne

/-- A list in strict order is determined by its members. -/
theorem ordered_eq_of_mem {rows l : List α} (h : (rows.map key).Nodup)
    (hl : l.Pairwise fun a b => key a < key b) (hmem : ∀ r, r ∈ l ↔ r ∈ rows) :
    ordered key rows = l := by
  have hnodup : rows.Nodup := h.of_map key
  have hlnodup : l.Nodup := hl.imp fun hlt heq => absurd (heq ▸ hlt) (lt_irrefl _)
  have hperm : (ordered key rows).Perm l :=
    (perm_ordered rows).trans ((List.perm_ext_iff_of_nodup hnodup hlnodup).2 fun r => (hmem r).symm)
  refine hperm.eq_of_pairwise (fun a b _ _ hab hba => ?_) (strict_ordered h) hl
  exact absurd hab (lt_asymm hba)

/-- What comes after the last row of a page is the rest of the listing. -/
theorem ordered_after_page {rows page rest : List α} {last : α} (h : (rows.map key).Nodup)
    {cursor : Option κ} (hsplit : ordered key (after key cursor rows) = page ++ last :: rest) :
    ordered key (after key (some (key last)) rows) = rest := by
  have hstrict : (page ++ last :: rest).Pairwise fun a b => key a < key b := by
    rw [← hsplit]
    exact strict_ordered (h.sublist ((List.filter_sublist).map key))
  obtain ⟨-, htail, hpage⟩ := List.pairwise_append.1 hstrict
  obtain ⟨hlast, hrest⟩ := List.pairwise_cons.1 htail
  have hin : ∀ r, r ∈ page ++ last :: rest ↔ r ∈ rows ∧ ∀ k ∈ cursor, k < key r := by
    intro r
    rw [← hsplit, mem_ordered]
    simp [after]
  refine ordered_eq_of_mem (h.sublist ((List.filter_sublist).map key)) hrest fun r => ?_
  simp only [after, List.mem_filter, Option.mem_some_iff, forall_eq', decide_eq_true_eq]
  constructor
  · intro hr
    exact ⟨((hin r).1 (by simp [hr])).1, hlast r hr⟩
  · rintro ⟨hr, hlt⟩
    have hlastIn := ((hin last).1 (by simp)).2
    have hrIn := (hin r).2 ⟨hr, fun k hk => (hlastIn k hk).trans hlt⟩
    rcases List.mem_append.1 hrIn with hp | ht
    · exact absurd hlt (lt_asymm (hpage r hp last (by simp)))
    · rcases List.mem_cons.1 ht with rfl | hr
      · exact absurd hlt (lt_irrefl _)
      · exact hr

/-- Rows appended to an ascending listing do not disturb a page that was taken before: the rows after
its cursor are the page and the rows after its last row. -/
theorem after_eq_page_append {rows rows' : List α} {cursor : Option κ} {limit : ℕ} {last : α}
    (hasc : rows'.Pairwise fun a b => key a < key b) (hpre : rows <+: rows')
    (hlast : ((after key cursor rows).take limit).getLast? = some last) :
    after key cursor rows' =
      (after key cursor rows).take limit ++ after key (some (key last)) rows' := by
  obtain ⟨tail, rfl⟩ := hpre
  obtain ⟨front, hfront⟩ := List.getLast?_eq_some_iff.1 hlast
  obtain ⟨rest, hrest⟩ : ∃ rest, after key cursor (rows ++ tail) = front ++ [last] ++ rest := by
    refine ⟨(after key cursor rows).drop limit ++ after key cursor tail, ?_⟩
    rw [← hfront, ← List.append_assoc, List.take_append_drop]
    exact List.filter_append ..
  have hsub : (front ++ [last] ++ rest).Pairwise fun a b => key a < key b := by
    rw [← hrest]
    exact hasc.sublist List.filter_sublist
  obtain ⟨hpage, -, hafter⟩ := List.pairwise_append.1 hsub
  obtain ⟨-, -, hbefore⟩ := List.pairwise_append.1 hpage
  have hcursor : ∀ k ∈ cursor, k < key last := by
    have hmem : last ∈ after key cursor (rows ++ tail) := by
      rw [hrest]
      simp
    exact of_decide_eq_true (List.mem_filter.1 hmem).2
  -- the rows after the last one are among those after the cursor
  have hagain : after key (some (key last)) (rows ++ tail) =
      after key (some (key last)) (front ++ [last] ++ rest) := by
    rw [← hrest]
    unfold after
    rw [List.filter_filter]
    refine List.filter_congr fun r _ => ?_
    by_cases hr : key last < key r
    · have hall : ∀ k ∈ cursor, k < key r := fun k hk => (hcursor k hk).trans hr
      rw [decide_eq_true hall, Bool.and_true]
    · simp [hr]
  have hnone : after key (some (key last)) (front ++ [last]) = [] := by
    refine List.filter_eq_nil_iff.2 fun r hr => ?_
    rcases List.mem_append.1 hr with hr | hr
    · have := hbefore r hr last (List.mem_singleton_self _)
      simpa using le_of_lt this
    · rw [List.mem_singleton.1 hr]
      simp
  have hall : after key (some (key last)) rest = rest := by
    refine List.filter_eq_self.2 fun r hr => ?_
    simpa using hafter last (by simp) r hr
  rw [hagain, hrest, hfront]
  congr 1
  unfold after at hnone hall ⊢
  rw [List.filter_append, hnone, hall, List.nil_append]

variable (key) in
/-- A page holds everything that is left, or it is cut at its last row. -/
theorem page_cases {limit : ℕ} (hlimit : 0 < limit) (rows : List α) (cursor : Option κ) :
    page key limit rows cursor = ⟨ordered key (after key cursor rows), none⟩ ∨
      ∃ front last rest, ordered key (after key cursor rows) = front ++ last :: rest ∧
        page key limit rows cursor = ⟨front ++ [last], some (key last)⟩ := by
  generalize hO : ordered key (after key cursor rows) = O
  by_cases hlen : O.length ≤ limit
  · refine .inl ?_
    have htake : (O.take (limit + 1)).take limit = O := by
      rw [List.take_take, List.take_of_length_le (by omega)]
    have hshort : ¬ limit < (O.take (limit + 1)).length := by
      rw [List.length_take]
      omega
    simp only [page, hO, htake, if_neg hshort]
  · refine .inr ?_
    have htake : (O.take (limit + 1)).take limit = O.take limit := by
      rw [List.take_take, Nat.min_eq_left (by omega)]
    have hlong : limit < (O.take (limit + 1)).length := by
      rw [List.length_take]
      omega
    have hne : O.take limit ≠ [] := by
      rw [← List.length_pos_iff, List.length_take]
      omega
    obtain ⟨front, last, hfront⟩ := List.eq_nil_or_concat' (O.take limit) |>.resolve_left hne
    refine ⟨front, last, O.drop limit, ?_, ?_⟩
    · rw [← List.singleton_append, ← List.append_assoc, ← hfront, List.take_append_drop]
    · simp only [page, hO, htake, if_pos hlong, hfront]
      simp

theorem walk_eq {limit : ℕ} (hlimit : 0 < limit) {rows : List α} (h : (rows.map key).Nodup)
    (fuel : ℕ) (cursor : Option κ) (hfuel : (after key cursor rows).length < fuel) :
    walk key limit rows fuel cursor = ordered key (after key cursor rows) := by
  induction fuel generalizing cursor with
  | zero => omega
  | succ fuel ih =>
    rcases page_cases key hlimit rows cursor with hp | ⟨front, last, rest, hsplit, hp⟩
    · simp only [walk, hp]
    · have hrest := ordered_after_page h hsplit
      have hlen : (after key (some (key last)) rows).length < fuel := by
        have h1 := congrArg List.length hsplit
        have h2 := congrArg List.length hrest
        simp only [length_ordered, List.length_append, List.length_cons] at h1 h2
        omega
      simp only [walk, hp, ih _ hlen, hrest]
      rw [hsplit, List.append_assoc, List.singleton_append]

/-- Following the cursors from the start serves every row once, in key order. -/
theorem walk_eq_ordered {limit : ℕ} (hlimit : 0 < limit) {rows : List α}
    (h : (rows.map key).Nodup) {fuel : ℕ} (hfuel : rows.length < fuel) :
    walk key limit rows fuel none = ordered key rows := by
  have hall : after key none rows = rows := by simp [after]
  rw [walk_eq hlimit h fuel none (by rwa [hall]), hall]

theorem walkBy_eq {rows : List α} (h : (rows.map key).Nodup) (fuel : ℕ) {limits : ℕ → ℕ}
    (hlimits : ∀ n, 0 < limits n) (cursor : Option κ) (hfuel : (after key cursor rows).length < fuel) :
    walkBy key rows limits fuel cursor = some (ordered key (after key cursor rows)) := by
  induction fuel generalizing limits cursor with
  | zero => omega
  | succ fuel ih =>
    rcases page_cases key (hlimits 0) rows cursor with hp | ⟨front, last, rest, hsplit, hp⟩
    · simp only [walkBy, hp]
    · have hrest := ordered_after_page h hsplit
      have hlen : (after key (some (key last)) rows).length < fuel := by
        have h1 := congrArg List.length hsplit
        have h2 := congrArg List.length hrest
        simp only [length_ordered, List.length_append, List.length_cons] at h1 h2
        omega
      simp only [walkBy, hp, ih (fun n => hlimits (n + 1)) _ hlen, hrest, Option.map_some]
      rw [hsplit, List.append_assoc, List.singleton_append]

/-- The same with a page size of its own for each page. -/
theorem walkBy_eq_ordered {rows : List α} (h : (rows.map key).Nodup) {limits : ℕ → ℕ}
    (hlimits : ∀ n, 0 < limits n) {fuel : ℕ} (hfuel : rows.length < fuel) :
    walkBy key rows limits fuel none = some (ordered key rows) := by
  have hall : after key none rows = rows := by simp [after]
  rw [walkBy_eq h fuel hlimits none (by rwa [hall]), hall]

end Keyset
