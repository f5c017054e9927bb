import Mathlib.Data.List.Chain
import Mathlib.Data.List.Infix
import Mathlib.Tactic.SplitIfs

/-!
# Texts that are cut at separators

A property of texts is local at some separators if it passes to parts, and if two texts that have it have it
joined by a separator. Rewriting separators by separators then keeps the property, however many of them
there are. A bound on the length of the runs of a class is local at every element outside the class.
-/

namespace Boundary

variable {α : Type}

/-- The property passes to parts, and is kept where two texts are joined by a separator. -/
structure LocalAt (sep : α → Prop) (N : List α → Prop) : Prop where
  part : ∀ a b c, N (a ++ b ++ c) → N b
  join : ∀ a c b, sep c → N a → N b → N (a ++ c :: b)

section LocalAt

variable {sep : α → Prop} {N : List α → Prop}

theorem LocalAt.left (h : LocalAt sep N) {a b : List α} (hab : N (a ++ b)) : N a :=
  h.part [] a b hab

theorem LocalAt.right (h : LocalAt sep N) {a b : List α} (hab : N (a ++ b)) : N b :=
  h.part a b [] (by rwa [List.append_nil])

theorem LocalAt.nil (h : LocalAt sep N) {a : List α} (ha : N a) : N [] :=
  h.part [] [] a ha

theorem LocalAt.keepsPart (h : LocalAt sep N) {a b : List α} (hb : N b) (hab : a <:+: b) : N a := by
  obtain ⟨s, t, rfl⟩ := hab
  exact h.part s a t hb

/-- Any number of separators joins two texts. -/
theorem LocalAt.joins (h : LocalAt sep N) {a b s : List α} (hs : s ≠ []) (hsep : ∀ c ∈ s, sep c) (ha : N a)
    (hb : N b) : N (a ++ s ++ b) := by
  induction s generalizing a with
  | nil => exact absurd rfl hs
  | cons c s ih =>
    have hc := hsep c List.mem_cons_self
    cases s with
    | nil =>
      rw [List.append_assoc]
      exact h.join a c b hc ha hb
    | cons d s =>
      have hac : N (a ++ [c]) := h.join a c [] hc ha (h.nil ha)
      have hrest := ih (List.cons_ne_nil _ _) (fun e he => hsep e (List.mem_cons_of_mem c he)) hac
      rwa [List.append_assoc a [c], List.singleton_append] at hrest

/-- Separators can be replaced by others. -/
theorem LocalAt.swap (h : LocalAt sep N) {a b s t : List α} (ht : t ≠ []) (hsep : ∀ c ∈ t, sep c)
    (hN : N (a ++ s ++ b)) : N (a ++ t ++ b) :=
  h.joins ht hsep (h.left (h.left hN)) (h.right hN)

/-- Each separator can be mapped to one. -/
theorem LocalAt.map (h : LocalAt sep N) {f : α → α} (hf : ∀ c, f c = c ∨ sep (f c)) (a l : List α)
    (hN : N (a ++ l)) : N (a ++ l.map f) := by
  induction l generalizing a with
  | nil => exact hN
  | cons c l ih =>
    have hrest : N ((a ++ [c]) ++ l) := by rwa [List.append_assoc, List.singleton_append]
    rcases hf c with hc | hc
    · have hmapped := ih (a ++ [c]) hrest
      rw [List.append_assoc, List.singleton_append] at hmapped
      rwa [List.map_cons, hc]
    · have hl : N ([] ++ l) := h.right hrest
      exact h.join a (f c) (l.map f) hc (h.left hN) (ih [] hl)

end LocalAt

/-! ## Runs -/

/-- No part of the text that is all of the class is that long. -/
def RunsBelow (inClass : α → Bool) (bound : ℕ) (l : List α) : Prop :=
  ∀ w, w <:+: l → (∀ c ∈ w, inClass c = true) → w.length < bound

/-- A part of two texts joined by an element of neither is in one of them. -/
theorem part_of_avoids {a b w : List α} {c : α} (hw : w <:+: a ++ c :: b) (hc : c ∉ w) :
    w <:+: a ∨ w <:+: b := by
  obtain ⟨s, t, h⟩ := hw
  rw [List.append_assoc] at h
  rcases List.append_eq_append_iff.1 h with ⟨r, rfl, hr⟩ | ⟨r, rfl, hr⟩
  · rcases List.append_eq_append_iff.1 hr with ⟨q, rfl, -⟩ | ⟨q, rfl, hq⟩
    · exact .inl ⟨s, q, by rw [List.append_assoc]⟩
    · cases q with
      | nil => exact .inl ⟨s, [], by simp⟩
      | cons d q =>
        obtain ⟨rfl, -⟩ := List.cons.inj hq
        exact absurd (by simp) hc
  · cases r with
    | nil =>
      cases w with
      | nil => exact .inr ⟨[], b, rfl⟩
      | cons d w =>
        obtain ⟨rfl, -⟩ := List.cons.inj hr
        exact absurd List.mem_cons_self hc
    | cons d r =>
      obtain ⟨-, hb⟩ := List.cons.inj hr
      exact .inr ⟨r, t, (List.append_assoc r w t).trans hb.symm⟩

theorem localAt_runsBelow (inClass : α → Bool) (bound : ℕ) :
    LocalAt (fun c => inClass c = false) (RunsBelow inClass bound) where
  part a b c h w hw := h w (hw.trans ⟨a, c, rfl⟩)
  join a c b hc ha hb w hw hall := by
    have havoid : c ∉ w := by
      intro hmem
      rw [hall c hmem] at hc
      cases hc
    rcases part_of_avoids hw havoid with hw | hw
    · exact ha w hw hall
    · exact hb w hw hall

/-- A part of a chain is one. -/
theorem isChain_part {r : α → α → Prop} {l w : List α} (h : l.IsChain r) (hw : w <:+: l) : w.IsChain r := by
  obtain ⟨a, b, rfl⟩ := hw
  exact (List.isChain_append.1 (List.isChain_append.1 h).1).2.1

/-- The neighbours of a text are related, at elements that are related to every other. -/
theorem localAt_isChain (r : α → α → Prop) :
    LocalAt (fun c => (∀ d, r d c) ∧ ∀ d, r c d) (List.IsChain r) where
  part a b c h := isChain_part h ⟨a, c, rfl⟩
  join a c b hc ha hb := by
    refine List.isChain_append.2 ⟨ha, ?_, fun x _ y hy => ?_⟩
    · exact List.isChain_cons.2 ⟨fun d _ => hc.2 d, hb⟩
    · obtain rfl : c = y := by simpa using hy
      exact hc.1 x

theorem localAt_all (p : α → Prop) : LocalAt p (fun l => ∀ c ∈ l, p c) where
  part a b c h d hd := h d (by simp [hd])
  join a c b hc ha hb := by
    refine List.forall_mem_append.2 ⟨ha, List.forall_mem_cons.2 ⟨hc, hb⟩⟩

end Boundary
