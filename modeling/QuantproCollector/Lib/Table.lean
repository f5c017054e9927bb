import Mathlib.Data.List.Pairwise
import Mathlib.Tactic.SplitIfs

/-!
# Tables with unique indexes

A `Table` is a list of rows together with the proof that no two rows share a key of any of its
indexes. An index may be partial: a row it maps to `none` takes no place in it. The writes return
`none` where the database would raise a constraint error, so a table that breaks an index cannot be
built: `Table.unique_of_mem` is the one fact later proofs need.
-/

namespace Relational

variable {ρ κ : Type}

/-- Rows, no two of which have the same key in one of the indexes. -/
structure Table (ρ κ : Type) (indexes : List (ρ → Option κ)) where
  rows : List ρ
  unique : ∀ ix ∈ indexes, rows.Pairwise fun a b => ix a ≠ none → ix a ≠ ix b

namespace Table

variable {indexes : List (ρ → Option κ)}

instance : Membership ρ (Table ρ κ indexes) := ⟨fun t r => r ∈ t.rows⟩

theorem mem_rows {t : Table ρ κ indexes} {r : ρ} : r ∈ t.rows ↔ r ∈ t := Iff.rfl

theorem ext' {t u : Table ρ κ indexes} (h : t.rows = u.rows) : t = u := by
  cases t
  cases u
  cases h
  rfl

/-- The table with no rows. -/
def empty : Table ρ κ indexes := ⟨[], fun _ _ => .nil⟩

@[simp] theorem not_mem_empty (r : ρ) : ¬ r ∈ (empty : Table ρ κ indexes) :=
  List.not_mem_nil

/-- The first row with the property (`SELECT … LIMIT 1`). -/
def find? (t : Table ρ κ indexes) (p : ρ → Bool) : Option ρ :=
  t.rows.find? p

/-- `DELETE … WHERE p`. -/
def deleteWhere (t : Table ρ κ indexes) (p : ρ → Bool) : Table ρ κ indexes where
  rows := t.rows.filter fun r => !p r
  unique ix hix := (t.unique ix hix).filter _

/-- Two rows that no index lets stand together. -/
def Clash (indexes : List (ρ → Option κ)) (a b : ρ) : Prop :=
  ∃ ix ∈ indexes, ix a ≠ none ∧ ix a = ix b

instance [DecidableEq κ] (a b : ρ) : Decidable (Clash indexes a b) :=
  inferInstanceAs (Decidable (∃ ix ∈ indexes, ix a ≠ none ∧ ix a = ix b))

/-- `INSERT`; `none` where a unique index already holds a key of the row. -/
def insert? [DecidableEq κ] (t : Table ρ κ indexes) (r : ρ) : Option (Table ρ κ indexes) :=
  if h : ∀ a ∈ t.rows, ¬ Clash indexes a r then
    some
      { rows := t.rows ++ [r]
        unique := fun ix hix => List.pairwise_append.2
          ⟨t.unique ix hix, List.pairwise_singleton _ _, fun a ha b hb hne heq =>
            h a ha ⟨ix, hix, hne, by rwa [List.mem_singleton.1 hb] at heq⟩⟩ }
  else none

/-- `UPDATE … SET f WHERE p`; `none` where the new rows would share a key. -/
def update? [DecidableEq κ] (t : Table ρ κ indexes) (p : ρ → Bool) (f : ρ → ρ) :
    Option (Table ρ κ indexes) :=
  if h : ∀ ix ∈ indexes, (t.rows.map fun r => if p r then f r else r).Pairwise
      fun a b => ix a ≠ none → ix a ≠ ix b then
    some ⟨t.rows.map fun r => if p r then f r else r, h⟩
  else none

/-- `UPDATE … SET f WHERE p` of columns that no index reads. -/
def modify (t : Table ρ κ indexes) (p : ρ → Bool) (f : ρ → ρ)
    (h : ∀ ix ∈ indexes, ∀ r, ix (f r) = ix r) : Table ρ κ indexes where
  rows := t.rows.map fun r => if p r then f r else r
  unique ix hix := by
    have hkey : ∀ r, ix (if p r then f r else r) = ix r := by
      intro r
      split_ifs
      · exact h ix hix r
      · rfl
    simpa only [List.pairwise_map, hkey] using t.unique ix hix

/-- `INSERT … ON CONFLICT (key) DO UPDATE SET merge`, on a table whose one index is the key. -/
def upsert [DecidableEq κ] {key : ρ → κ} (t : Table ρ κ [fun r => some (key r)]) (r : ρ)
    (merge : ρ → ρ) (h : ∀ a, key (merge a) = key a) : Table ρ κ [fun r => some (key r)] :=
  if hc : ∃ a ∈ t.rows, key a = key r then
    t.modify (fun a => decide (key a = key r)) merge (by simp [h])
  else
    { rows := t.rows ++ [r]
      unique := fun ix hix => List.pairwise_append.2
        ⟨t.unique ix hix, List.pairwise_singleton _ _, fun a ha b hb _ heq => hc ⟨a, ha, by
          rw [List.mem_singleton.1 hix, List.mem_singleton.1 hb] at heq
          exact Option.some.inj heq⟩⟩ }

/-- Two rows with one key are one row. -/
theorem unique_of_mem {t : Table ρ κ indexes} {i : ρ → Option κ} (hi : i ∈ indexes) {a b : ρ}
    (ha : a ∈ t) (hb : b ∈ t) (hne : i a ≠ none) (heq : i a = i b) : a = b := by
  by_contra hab
  have : Std.Symm fun x y : ρ => i x ≠ none → i x ≠ i y :=
    ⟨fun x y h hy e => h (e ▸ hy) e.symm⟩
  exact (t.unique i hi).forall ha hb hab hne heq

/-- A selection by key holds the one row that has the key. -/
theorem filter_eq_singleton {t : Table ρ κ indexes} {i : ρ → Option κ} (hi : i ∈ indexes)
    {p : ρ → Bool} {r : ρ} (hr : r ∈ t) (hp : p r = true) (hne : i r ≠ none)
    (hkey : ∀ a ∈ t, p a = true → i a = i r) : t.rows.filter p = [r] := by
  have hmem : ∀ a ∈ t.rows.filter p, a = r := by
    intro a ha
    obtain ⟨ha, hpa⟩ := List.mem_filter.1 ha
    exact (unique_of_mem hi hr ha hne (hkey a ha hpa).symm).symm
  have hr' : r ∈ t.rows.filter p := List.mem_filter.2 ⟨hr, hp⟩
  have hpw := (t.unique i hi).filter p
  generalize t.rows.filter p = l at hmem hr' hpw
  match l with
  | [] => simp at hr'
  | [a] => rw [hmem a (by simp)]
  | a :: b :: rest =>
    obtain rfl := hmem a (by simp)
    obtain rfl := hmem b (by simp)
    exact absurd rfl (List.rel_of_pairwise_cons hpw (by simp) hne)

/-- The table with its rows in another order. -/
def reorder (t : Table ρ κ indexes) (rows : List ρ) (h : rows.Perm t.rows) : Table ρ κ indexes where
  rows := rows
  unique ix hix := h.symm.pairwise (t.unique ix hix) fun hab hb heq => hab (heq ▸ hb) heq.symm

theorem mem_of_find? {t : Table ρ κ indexes} {p : ρ → Bool} {r : ρ} (h : t.find? p = some r) :
    r ∈ t ∧ p r = true :=
  ⟨List.mem_of_find?_eq_some h, List.find?_some h⟩

theorem find?_eq_none {t : Table ρ κ indexes} {p : ρ → Bool} :
    t.find? p = none ↔ ∀ r ∈ t, p r = false := by
  simp [find?, mem_rows]

/-- A key lookup finds the row that has the key. -/
theorem find?_of_mem {t : Table ρ κ indexes} {i : ρ → Option κ} (hi : i ∈ indexes)
    {p : ρ → Bool} {r : ρ} (hr : r ∈ t) (hp : p r = true)
    (hkey : ∀ a ∈ t, p a = true → i a ≠ none ∧ i a = i r) : t.find? p = some r := by
  cases hf : t.find? p with
  | none => simp [find?_eq_none.1 hf r hr] at hp
  | some a =>
    obtain ⟨ha, hpa⟩ := mem_of_find? hf
    obtain ⟨hne, heq⟩ := hkey a ha hpa
    rw [unique_of_mem hi ha hr hne heq]

@[simp] theorem mem_deleteWhere {t : Table ρ κ indexes} {p : ρ → Bool} {r : ρ} :
    r ∈ t.deleteWhere p ↔ r ∈ t ∧ p r = false := by
  simp [deleteWhere, ← mem_rows]

/-- A delete that selects nothing changes nothing. -/
theorem deleteWhere_eq_self {t : Table ρ κ indexes} {p : ρ → Bool} (h : ∀ r ∈ t, p r = false) :
    t.deleteWhere p = t :=
  ext' (List.filter_eq_self.2 fun r hr => by simp [h r hr])

theorem mem_modify {t : Table ρ κ indexes} {p : ρ → Bool} {f : ρ → ρ}
    {h : ∀ ix ∈ indexes, ∀ r, ix (f r) = ix r} {a : ρ} :
    a ∈ t.modify p f h ↔ ∃ r ∈ t, (if p r then f r else r) = a := by
  simp [modify, ← mem_rows]

/-- An update leaves the keys as they are. -/
theorem exists_key_modify {i : ρ → Option κ} (hi : i ∈ indexes) {t : Table ρ κ indexes}
    {p : ρ → Bool} {f : ρ → ρ} {h : ∀ ix ∈ indexes, ∀ r, ix (f r) = ix r} {k : Option κ} :
    (∃ y ∈ t.modify p f h, i y = k) ↔ ∃ a ∈ t, i a = k := by
  have hkey : ∀ r, i (if p r then f r else r) = i r := by
    intro r
    split_ifs
    · exact h i hi r
    · rfl
  constructor
  · rintro ⟨y, hy, rfl⟩
    obtain ⟨a, ha, rfl⟩ := mem_modify.1 hy
    exact ⟨a, ha, (hkey a).symm⟩
  · rintro ⟨a, ha, rfl⟩
    exact ⟨_, mem_modify.2 ⟨a, ha, rfl⟩, hkey a⟩

/-- A lookup that the update does not disturb finds the row, updated where it was selected. -/
theorem find?_modify {t : Table ρ κ indexes} {p q : ρ → Bool} {f : ρ → ρ}
    {h : ∀ ix ∈ indexes, ∀ r, ix (f r) = ix r} (hq : ∀ r, q (f r) = q r) :
    (t.modify p f h).find? q = (t.find? q).map fun r => if p r then f r else r := by
  have hcomp : (q ∘ fun r => if p r then f r else r) = q := by
    funext r
    by_cases hp : p r = true
    · simp [hp, hq]
    · simp [hp]
  simp only [find?, modify, List.find?_map, hcomp]

section Writes

variable [DecidableEq κ]

theorem insert?_eq_some {t t' : Table ρ κ indexes} {r : ρ} (h : t.insert? r = some t') :
    t'.rows = t.rows ++ [r] ∧ ∀ a ∈ t, ¬ Clash indexes a r := by
  unfold insert? at h
  split_ifs at h with hc
  cases h
  exact ⟨rfl, hc⟩

theorem mem_insert? {t t' : Table ρ κ indexes} {r a : ρ} (h : t.insert? r = some t') :
    a ∈ t' ↔ a ∈ t ∨ a = r := by
  rw [← mem_rows, (insert?_eq_some h).1]
  simp [mem_rows]

theorem update?_eq_some {t t' : Table ρ κ indexes} {p : ρ → Bool} {f : ρ → ρ}
    (h : t.update? p f = some t') : t'.rows = t.rows.map fun r => if p r then f r else r := by
  unfold update? at h
  split_ifs at h with hc
  cases h
  rfl

theorem mem_update? {t t' : Table ρ κ indexes} {p : ρ → Bool} {f : ρ → ρ}
    (h : t.update? p f = some t') {a : ρ} :
    a ∈ t' ↔ ∃ r ∈ t, (if p r then f r else r) = a := by
  rw [← mem_rows, update?_eq_some h]
  simp [mem_rows]

/-- After an upsert: the rows of other keys, and at its key the merged row or the new one. -/
theorem mem_upsert {key : ρ → κ} {t : Table ρ κ [fun r => some (key r)]} {r : ρ} {merge : ρ → ρ}
    {h : ∀ a, key (merge a) = key a} {x : ρ} :
    x ∈ t.upsert r merge h ↔
      x ∈ t ∧ key x ≠ key r ∨ (∃ a ∈ t, key a = key r ∧ merge a = x) ∨
        x = r ∧ ∀ a ∈ t, key a ≠ key r := by
  unfold upsert
  split_ifs with hc
  · obtain ⟨b, hb, hbr⟩ := hc
    rw [mem_modify]
    constructor
    · rintro ⟨a, ha, rfl⟩
      by_cases hk : key a = key r
      · exact .inr (.inl ⟨a, ha, hk, by simp [hk]⟩)
      · exact .inl (by simpa [hk] using ha)
    · rintro (⟨hx, hk⟩ | ⟨a, ha, hk, rfl⟩ | ⟨-, hno⟩)
      · exact ⟨x, hx, by simp [hk]⟩
      · exact ⟨a, ha, by simp [hk]⟩
      · exact absurd hbr (hno b hb)
  · have hno : ∀ a ∈ t, key a ≠ key r := fun a ha hk => hc ⟨a, ha, hk⟩
    rw [← mem_rows]
    simp only [List.mem_append, mem_rows, List.mem_singleton]
    constructor
    · rintro (hx | rfl)
      · exact .inl ⟨hx, hno x hx⟩
      · exact .inr (.inr ⟨rfl, hno⟩)
    · rintro (⟨hx, -⟩ | ⟨a, ha, hk, -⟩ | ⟨rfl, -⟩)
      · exact .inl hx
      · exact absurd hk (hno a ha)
      · exact .inr rfl

/-- An upsert adds the row's key. -/
theorem exists_key_upsert {key : ρ → κ} {t : Table ρ κ [fun r => some (key r)]} {r : ρ}
    {merge : ρ → ρ} {h : ∀ a, key (merge a) = key a} {k : κ} :
    (∃ y ∈ t.upsert r merge h, key y = k) ↔ (∃ a ∈ t, key a = k) ∨ key r = k := by
  constructor
  · rintro ⟨y, hy, rfl⟩
    rcases mem_upsert.1 hy with ⟨hy, -⟩ | ⟨a, ha, -, rfl⟩ | ⟨rfl, -⟩
    · exact .inl ⟨y, hy, rfl⟩
    · exact .inl ⟨a, ha, (h a).symm⟩
    · exact .inr rfl
  · intro hk
    by_cases hr : ∃ a ∈ t, key a = key r
    · by_cases hkr : k = key r
      · obtain ⟨a, ha, hak⟩ := hr
        exact ⟨merge a, mem_upsert.2 (.inr (.inl ⟨a, ha, hak, rfl⟩)), by rw [h, hak, hkr]⟩
      · obtain ⟨a, ha, rfl⟩ := hk.resolve_right (Ne.symm hkr)
        exact ⟨a, mem_upsert.2 (.inl ⟨ha, hkr⟩), rfl⟩
    · rcases hk with ⟨a, ha, rfl⟩ | rfl
      · exact ⟨a, mem_upsert.2 (.inl ⟨ha, fun hak => hr ⟨a, ha, hak⟩⟩), rfl⟩
      · exact ⟨r, mem_upsert.2 (.inr (.inr ⟨rfl, fun a ha hak => hr ⟨a, ha, hak⟩⟩)), rfl⟩

/-- Upserting a row whose key is there, keeping the row that has it, changes nothing. -/
theorem upsert_id_of_mem {key : ρ → κ} {t : Table ρ κ [fun r => some (key r)]} {r a : ρ}
    {h : ∀ a, key (id a) = key a} (ha : a ∈ t) (hk : key a = key r) : t.upsert r id h = t := by
  unfold upsert
  rw [dif_pos ⟨a, ha, hk⟩]
  exact ext' (by simp [modify])

/-- Upserting a row whose key is not there appends it. -/
theorem rows_upsert_of_not_mem {key : ρ → κ} {t : Table ρ κ [fun r => some (key r)]} {r : ρ}
    {merge : ρ → ρ} {h : ∀ a, key (merge a) = key a} (hno : ∀ a ∈ t, key a ≠ key r) :
    (t.upsert r merge h).rows = t.rows ++ [r] := by
  unfold upsert
  rw [dif_neg (by rintro ⟨a, ha, hk⟩; exact hno a ha hk)]

end Writes

end Table

end Relational
