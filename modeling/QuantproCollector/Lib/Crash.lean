import QuantproCollector.Lib.Run

/-!
# Programs that are stopped

`Throughout Q s`: run alone, whatever fails, the program can be stopped only in worlds with `Q`.
-/

namespace Async

namespace Machine

variable {ε Op : Type} {Res : Op → Type} {World Choice α β : Type}
  (M : Machine ε Op Res World Choice)

/-- Alone, wherever the program is stopped, the world has `Q`. -/
def Throughout (Q : World → Prop) : Script ε Op Res α → World → Prop
  | .halt _, w => Q w
  | .call op next, w =>
    Q w ∧ ∀ ch, Throughout Q (next (M.perform ch op w).1) (M.perform ch op w).2

variable {M} {Q : World → Prop}

theorem Throughout.here {s : Script ε Op Res α} {w : World} (h : M.Throughout Q s w) : Q w := by
  cases s with
  | halt r => exact h
  | call op next => exact h.1

/-- In every run in which no other thread has anything to do, `Q` holds after every step. -/
theorem throughout_exec {t : ℕ} {c : Config ε Op Res World Choice α}
    (hothers : ∀ u ≠ t, ∃ r, c.script u = .halt r) (h : M.Throughout Q (c.script t) c.world)
    (es : List (ℕ × Choice)) : Q (M.exec c es).world := by
  refine (exec_induction (P := fun c => (∀ u ≠ t, ∃ r, c.script u = .halt r) ∧
    M.Throughout Q (c.script t) c.world) ?_ es ⟨hothers, h⟩).2.here
  rintro c e ⟨hothers, h⟩
  rcases step_cases (M := M) c e with hs | ⟨op, next, hcall, hs⟩
  · rw [hs]
    exact ⟨hothers, h⟩
  · obtain rfl : e.1 = t := by
      by_contra hne
      obtain ⟨r, hr⟩ := hothers _ hne
      rw [hr] at hcall
      cases hcall
    rw [hcall] at h
    rw [hs]
    refine ⟨fun u hu => ?_, ?_⟩
    · simpa [Function.update_of_ne hu] using hothers u hu
    · simpa using h.2 e.2

end Machine

end Async
