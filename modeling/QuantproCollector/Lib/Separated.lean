import Mathlib.Data.List.Basic
import Mathlib.Tactic.SplitIfs

/-!
# Texts in parts

A text whose parts are joined by a sign that only the last of them may contain has its parts in one way
(`join_inj`), and so has a text of items between brackets, each of which ends where it ends
(`intercalate_inj`). A text that is split at every sign is its parts, none of which has the sign.
-/

namespace Separated

variable {α : Type} {sep : α}

/-- The first sign ends the first part. -/
theorem cons_inj {a a' x x' : List α} (ha : sep ∉ a) (ha' : sep ∉ a')
    (h : a ++ sep :: x = a' ++ sep :: x') : a = a' ∧ x = x' := by
  induction a generalizing a' with
  | nil =>
    cases a' with
    | nil => exact ⟨rfl, (List.cons.inj h).2⟩
    | cons c a' =>
      have hc : sep = c := (List.cons.inj h).1
      exact absurd (hc ▸ List.mem_cons_self) ha'
  | cons c a ih =>
    cases a' with
    | nil =>
      have hc : c = sep := (List.cons.inj h).1
      exact absurd (hc ▸ List.mem_cons_self) ha
    | cons c' a' =>
      obtain ⟨rfl, hrest⟩ := List.cons.inj h
      obtain ⟨rfl, rfl⟩ := ih (fun hm => ha (List.mem_cons_of_mem c hm))
        (fun hm => ha' (List.mem_cons_of_mem c hm)) hrest
      exact ⟨rfl, rfl⟩

/-- The last sign begins the last part. -/
theorem concat_inj {a a' x x' : List α} (hx : sep ∉ x) (hx' : sep ∉ x')
    (h : a ++ sep :: x = a' ++ sep :: x') : a = a' ∧ x = x' := by
  have hreverse : x.reverse ++ sep :: a.reverse = x'.reverse ++ sep :: a'.reverse := by
    simpa using congrArg List.reverse h
  obtain ⟨hparts, hheads⟩ := cons_inj (by simpa using hx) (by simpa using hx') hreverse
  exact ⟨List.reverse_inj.1 hheads, List.reverse_inj.1 hparts⟩

/-- Three parts joined by the sign. -/
def join (sep : α) (a b c : List α) : List α :=
  a ++ sep :: (b ++ sep :: c)

theorem join_inj {a b c a' b' c' : List α} (ha : sep ∉ a) (hb : sep ∉ b) (ha' : sep ∉ a') (hb' : sep ∉ b')
    (h : join sep a b c = join sep a' b' c') : a = a' ∧ b = b' ∧ c = c' := by
  obtain ⟨rfl, hrest⟩ := cons_inj ha ha' h
  obtain ⟨rfl, rfl⟩ := cons_inj hb hb' hrest
  exact ⟨rfl, rfl, rfl⟩

/-! ## Items between brackets -/

section Items

variable {β : Type*} {text : β → List α} {R : β → β → Prop} {D : List α → Prop} {close : α}

/-- What follows the first of some items. -/
def tailOf (sep : α) (text : β → List α) (xs : List β) : List α :=
  xs.flatMap fun x => sep :: text x

theorem intercalate_cons (x : β) (xs : List β) :
    [sep].intercalate ((x :: xs).map text) = text x ++ tailOf sep text xs := by
  induction xs generalizing x with
  | nil => simp [tailOf]
  | cons y ys ih =>
    have ih := ih y
    rw [List.map_cons] at ih
    rw [List.map_cons, List.map_cons, List.intercalate_cons_cons, ih]
    simp [tailOf]

theorem mem_intercalate {texts : List (List α)} {c : α} (h : c ∈ [sep].intercalate texts) :
    c = sep ∨ ∃ text ∈ texts, c ∈ text := by
  cases texts with
  | nil => cases h
  | cons t ts =>
    have hform : [sep].intercalate (t :: ts) = t ++ tailOf sep id ts := by
      have hcons : [sep].intercalate ((t :: ts).map id) = id t ++ tailOf sep id ts := intercalate_cons t ts
      rwa [List.map_id] at hcons
    rw [hform] at h
    rcases List.mem_append.1 h with ht | ht
    · exact .inr ⟨t, List.mem_cons_self, ht⟩
    · obtain ⟨x, hx, hc⟩ := List.mem_flatMap.1 ht
      rcases List.mem_cons.1 hc with rfl | hc
      · exact .inl rfl
      · exact .inr ⟨x, List.mem_cons_of_mem t hx, hc⟩

theorem delimited_tailOf (hsep : ∀ rest, D (sep :: rest)) (hclose : ∀ rest, D (close :: rest)) (xs : List β)
    (rest : List α) : D (tailOf sep text xs ++ close :: rest) := by
  cases xs with
  | nil => exact hclose rest
  | cons x xs => exact hsep _

theorem tailOf_inj (hne : sep ≠ close) (hsep : ∀ rest, D (sep :: rest)) (hclose : ∀ rest, D (close :: rest))
    {xs : List β} (hinj : ∀ x ∈ xs, ∀ y rest rest', D rest → D rest' → text x ++ rest = text y ++ rest' →
      R x y ∧ rest = rest') (ys : List β) (rest rest' : List α)
    (h : tailOf sep text xs ++ close :: rest = tailOf sep text ys ++ close :: rest') :
    List.Forall₂ R xs ys ∧ rest = rest' := by
  induction xs generalizing ys with
  | nil =>
    cases ys with
    | nil => exact ⟨.nil, (List.cons.inj h).2⟩
    | cons y ys => exact absurd (List.cons.inj h).1 hne.symm
  | cons x xs ih =>
    cases ys with
    | nil => exact absurd (List.cons.inj h).1 hne
    | cons y ys =>
      have htexts : text x ++ (tailOf sep text xs ++ close :: rest) =
          text y ++ (tailOf sep text ys ++ close :: rest') := by
        simpa [tailOf] using h
      obtain ⟨hxy, htail⟩ := hinj x List.mem_cons_self y _ _ (delimited_tailOf hsep hclose xs rest)
        (delimited_tailOf hsep hclose ys rest') htexts
      obtain ⟨hxs, hrest⟩ := ih (fun x' hx' => hinj x' (List.mem_cons_of_mem x hx')) ys htail
      exact ⟨.cons hxy hxs, hrest⟩

/-- Items that are found at the head of any delimited text are found in their list. -/
theorem intercalate_inj (hne : sep ≠ close) (hsep : ∀ rest, D (sep :: rest))
    (hclose : ∀ rest, D (close :: rest)) (hstart : ∀ y rest rest', text y ++ rest ≠ close :: rest')
    {xs : List β} (hinj : ∀ x ∈ xs, ∀ y rest rest', D rest → D rest' → text x ++ rest = text y ++ rest' →
      R x y ∧ rest = rest') {ys : List β} {rest rest' : List α}
    (h : [sep].intercalate (xs.map text) ++ close :: rest =
      [sep].intercalate (ys.map text) ++ close :: rest') :
    List.Forall₂ R xs ys ∧ rest = rest' := by
  cases xs with
  | nil =>
    cases ys with
    | nil => exact ⟨.nil, by simpa using h⟩
    | cons y ys =>
      rw [intercalate_cons, List.append_assoc] at h
      exact absurd h.symm (hstart y _ _)
  | cons x xs =>
    cases ys with
    | nil =>
      rw [intercalate_cons, List.append_assoc] at h
      exact absurd h (hstart x _ _)
    | cons y ys =>
      rw [intercalate_cons, intercalate_cons, List.append_assoc, List.append_assoc] at h
      obtain ⟨hxy, htail⟩ := hinj x List.mem_cons_self y _ _ (delimited_tailOf hsep hclose xs rest)
        (delimited_tailOf hsep hclose ys rest') h
      obtain ⟨hxs, hrest⟩ := tailOf_inj hne hsep hclose
        (fun x' hx' => hinj x' (List.mem_cons_of_mem x hx')) ys _ _ htail
      exact ⟨.cons hxy hxs, hrest⟩

end Items

/-! ## Splitting -/

variable [BEq α] [LawfulBEq α]

theorem not_mem_splitOn (xs : List α) : ∀ part ∈ xs.splitOn sep, sep ∉ part := by
  induction xs with
  | nil => simp
  | cons x xs ih =>
    rw [List.splitOn_cons_eq_if_modifyHead]
    split_ifs with hx
    · intro part hpart
      rcases List.mem_cons.1 hpart with rfl | hpart
      · exact List.not_mem_nil
      · exact ih part hpart
    · obtain ⟨first, rest, hsplit⟩ := List.exists_cons_of_ne_nil (List.splitOn_ne_nil sep xs)
      rw [hsplit] at ih ⊢
      intro part hpart
      rcases List.mem_cons.1 hpart with rfl | hpart
      · intro hm
        rcases List.mem_cons.1 hm with rfl | hm
        · exact hx (BEq.refl _)
        · exact ih first List.mem_cons_self hm
      · exact ih part (List.mem_cons_of_mem first hpart)

/-- A text in three parts is their join. -/
theorem join_of_splitOn {xs a b c : List α} (h : xs.splitOn sep = [a, b, c]) :
    xs = join sep a b c ∧ sep ∉ a ∧ sep ∉ b ∧ sep ∉ c := by
  have hmem : ∀ part ∈ xs.splitOn sep, sep ∉ part := not_mem_splitOn xs
  rw [h] at hmem
  refine ⟨?_, hmem a (by simp), hmem b (by simp), hmem c (by simp)⟩
  calc xs = [sep].intercalate (xs.splitOn sep) := (List.intercalate_splitOn sep).symm
    _ = join sep a b c := by
      rw [h]
      simp [join]

/-- Three parts without the sign are what their join is split into. -/
theorem splitOn_join {a b c : List α} (ha : sep ∉ a) (hb : sep ∉ b) (hc : sep ∉ c) :
    (join sep a b c).splitOn sep = [a, b, c] := by
  rw [join, List.splitOn_append_cons_self_of_not_mem ha, List.splitOn_append_cons_self_of_not_mem hb,
    List.splitOn_eq_singleton hc]

end Separated
