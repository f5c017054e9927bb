import Mathlib.Data.List.Basic

/-!
# Loops that can fail

What a loop with an early exit has established where it came to its end: an invariant of the elements it has
been through (`foldlM_ok`), or of each element by itself (`forM_ok`, `mapM_ok`).
-/

namespace Fallible

variable {ε σ α β : Type}

theorem ok_bind (a : α) (f : α → Except ε β) : (Except.ok a >>= f) = f a := rfl

theorem bind_eq_ok {x : Except ε α} {f : α → Except ε β} {b : β} :
    (x >>= f) = .ok b ↔ ∃ a, x = .ok a ∧ f a = .ok b := by
  cases x with
  | error e =>
    constructor
    · rintro ⟨⟩
    · rintro ⟨a, ⟨⟩, -⟩
  | ok a =>
    constructor
    · exact fun h => ⟨a, rfl, h⟩
    · rintro ⟨a', ⟨⟩, hf⟩
      exact hf

/-- **Loop rule.** What holds before the loop, and is kept by each of its turns, holds of the whole list. -/
theorem foldlM_ok {f : σ → α → Except ε σ} {I : List α → σ → Prop} {l : List α} {s s' : σ}
    (h0 : I [] s) (hstep : ∀ done a s s', a ∈ l → I done s → f s a = .ok s' → I (done ++ [a]) s')
    (h : l.foldlM f s = .ok s') : I l s' := by
  have hloop : ∀ todo done s, (∀ a ∈ todo, a ∈ l) → I done s → todo.foldlM f s = .ok s' →
      I (done ++ todo) s' := by
    intro todo
    induction todo with
    | nil =>
      intro done s _ hs h
      cases h
      rwa [List.append_nil]
    | cons a todo ih =>
      intro done s hmem hs h
      obtain ⟨t, ht, hrest⟩ := bind_eq_ok.1 (List.foldlM_cons.symm.trans h)
      have hdone := ih (done ++ [a]) t (fun b hb => hmem b (List.mem_cons_of_mem a hb))
        (hstep done a s t (hmem a List.mem_cons_self) hs ht) hrest
      rwa [List.append_assoc, List.singleton_append] at hdone
  exact hloop l [] s (fun _ ha => ha) h0 h

theorem forM_ok {f : α → Except ε Unit} {l : List α} (h : l.forM f = .ok ()) :
    ∀ a ∈ l, f a = .ok () := by
  induction l with
  | nil => exact List.forall_mem_nil _
  | cons a l ih =>
    obtain ⟨_, ha, hrest⟩ := bind_eq_ok.1 (show (f a >>= fun _ => l.forM f) = .ok () from h)
    exact List.forall_mem_cons.2 ⟨ha, ih hrest⟩

/-- A list that a function is mapped over gives one value for each element, in order. -/
theorem mapM_ok {f : α → Except ε β} {l : List α} {r : List β} (h : l.mapM f = .ok r) :
    List.Forall₂ (fun a b => f a = .ok b) l r := by
  induction l generalizing r with
  | nil =>
    cases h
    exact .nil
  | cons a l ih =>
    rw [List.mapM_cons] at h
    obtain ⟨b, hb, hrest⟩ := bind_eq_ok.1 h
    obtain ⟨bs, hbs, hr⟩ := bind_eq_ok.1 hrest
    cases hr
    exact .cons hb (ih hbs)

end Fallible
