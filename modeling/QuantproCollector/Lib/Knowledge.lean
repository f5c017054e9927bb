import QuantproCollector.Lib.Run

/-!
# What threads know during a run

`Script.Upholds` says that a program follows a discipline, given what it knows at its start. A run of
threads that each follow it is safe where knowledge stays true: a call makes true what its thread
learns by it (`Sound.learn`), and leaves true what the other threads know (`Sound.frame`), provided
that the caller knew what it must. `informed_exec` then holds of every run: each thread's knowledge
is true, and each call was made by a thread that knew what it must.
-/

namespace Async

variable {ε Op : Type} {Res : Op → Type} {World Choice α σ : Type}

/-- A program of calls that need nothing and teach nothing ends with what it knew. -/
theorem Script.upholds_of_quiet {D : Script.Discipline ε Op Res σ} {S : Op → Prop} {κ : σ}
    (hpre : ∀ op, S op → D.pre κ op) (hlearn : ∀ op r, S op → D.learn κ op r = κ)
    {s : Script ε Op Res α} (hs : s.Issues S) : s.Upholds D (fun κ' _ => κ' = κ) κ := by
  induction s with
  | halt r => rfl
  | call op next ih =>
    refine ⟨hpre op hs.1, fun r _ => ?_⟩
    rw [hlearn op r hs.1]
    exact ih r (hs.2 r)

namespace Machine

/-- The meaning `T` of knowledge, in terms of the log and the world, is sound for a discipline. -/
structure Sound (M : Machine ε Op Res World Choice) (D : Script.Discipline ε Op Res σ)
    (T : ℕ → σ → List (Call Op World Choice) → World → Prop) : Prop where
  may : ∀ t κ ch op log w, T t κ log w → D.pre κ op → D.may op (M.perform ch op w).1
  learn : ∀ t κ ch op log w, T t κ log w → D.pre κ op →
    T t (D.learn κ op (M.perform ch op w).1) (⟨t, op, ch, w⟩ :: log) (M.perform ch op w).2
  frame : ∀ t u κ κ' ch op log w, u ≠ t → T t κ log w → T u κ' log w → D.pre κ' op →
    T t κ (⟨u, op, ch, w⟩ :: log) (M.perform ch op w).2

/-- Every thread knows enough for the rest of its program, and every caller knew enough. -/
structure Informed (D : Script.Discipline ε Op Res σ) (Q : ℕ → σ → Except ε α → Prop)
    (T : ℕ → σ → List (Call Op World Choice) → World → Prop)
    (c : Config ε Op Res World Choice α) : Prop where
  known : ∀ t, ∃ κ, (c.script t).Upholds D (Q t) κ ∧ T t κ c.log c.world
  calls : Along (fun past k => ∃ κ, T k.thread κ past k.before ∧ D.pre κ k.op) c.log

variable {M : Machine ε Op Res World Choice} {D : Script.Discipline ε Op Res σ}
  {Q : ℕ → σ → Except ε α → Prop} {T : ℕ → σ → List (Call Op World Choice) → World → Prop}

theorem informed_step (hM : M.Sound D T) {c : Config ε Op Res World Choice α}
    (h : Informed D Q T c) (e : ℕ × Choice) : Informed D Q T (M.step c e) := by
  rcases step_cases (M := M) c e with hs | ⟨op, next, hcall, hs⟩
  · rwa [hs]
  obtain ⟨κ, hκ, hT⟩ := h.known e.1
  rw [hcall] at hκ
  rw [hs]
  refine ⟨fun t => ?_, along_cons.2 ⟨⟨κ, hT, hκ.1⟩, h.calls⟩⟩
  by_cases ht : t = e.1
  · subst ht
    refine ⟨_, ?_, hM.learn e.1 κ e.2 op c.log c.world hT hκ.1⟩
    simpa using hκ.2 _ (hM.may e.1 κ e.2 op c.log c.world hT hκ.1)
  · obtain ⟨κ', hκ', hT'⟩ := h.known t
    refine ⟨κ', ?_, hM.frame t e.1 κ' κ e.2 op c.log c.world (Ne.symm ht) hT' hT hκ.1⟩
    simpa [Function.update_of_ne ht] using hκ'

/-- **Knowledge rule.** In every run of threads that follow the discipline, knowledge is true. -/
theorem informed_exec (hM : M.Sound D T) {c : Config ε Op Res World Choice α}
    (h : Informed D Q T c) (es : List (ℕ × Choice)) : Informed D Q T (M.exec c es) :=
  exec_induction (P := Informed D Q T) (fun _ e hc => informed_step hM hc e) es h

/-- Threads that follow the discipline from what is true of the initial world. -/
theorem informed_start {w : World} {s : ℕ → Script ε Op Res α} (κ : ℕ → σ)
    (hs : ∀ t, (s t).Upholds D (Q t) (κ t)) (hT : ∀ t, T t (κ t) [] w) :
    Informed D Q T (Config.start w s : Config ε Op Res World Choice α) :=
  ⟨fun t => ⟨κ t, hs t, hT t⟩, .nil⟩

/-! ## Relations that every operation keeps -/

section Evolution

variable {R : World → World → Prop}

/-- What every operation makes of a world, every run makes of it. -/
theorem evolves_exec (hrefl : ∀ w, R w w) (htrans : ∀ u v w, R u v → R v w → R u w)
    (hR : ∀ ch op w, R w (M.perform ch op w).2) (c : Config ε Op Res World Choice α)
    (es : List (ℕ × Choice)) : R c.world (M.exec c es).world := by
  refine exec_induction (P := fun c' => R c.world c'.world) (fun c' e h => ?_) es (hrefl _)
  rcases step_cases (M := M) c' e with hs | ⟨op, next, -, hs⟩
  · rwa [hs]
  · rw [hs]
    exact htrans _ _ _ h (hR _ _ _)

/-- The world that a logged call left has evolved to the present one. -/
theorem evolves_log (hrefl : ∀ w, R w w) (htrans : ∀ u v w, R u v → R v w → R u w)
    (hR : ∀ ch op w, R w (M.perform ch op w).2) {w : World} {s : ℕ → Script ε Op Res α}
    (es : List (ℕ × Choice)) :
    ∀ k ∈ (M.exec (Config.start w s) es).log, R (M.after k) (M.exec (Config.start w s) es).world := by
  refine exec_induction (P := fun c => ∀ k ∈ c.log, R (M.after k) c.world) (fun c e h => ?_) es
    (List.forall_mem_nil _)
  rcases step_cases (M := M) c e with hs | ⟨op, next, -, hs⟩
  · rwa [hs]
  · rw [hs]
    exact List.forall_mem_cons.2 ⟨hrefl _, fun k hk => htrans _ _ _ (h k hk) (hR _ _ _)⟩

/-- The calls of a run find worlds to which the world at its start has evolved. -/
theorem evolves_before (hrefl : ∀ w, R w w) (htrans : ∀ u v w, R u v → R v w → R u w)
    (hR : ∀ ch op w, R w (M.perform ch op w).2) (c : Config ε Op Res World Choice α)
    (es : List (ℕ × Choice)) : ∀ k ∈ (M.exec c es).log, k ∈ c.log ∨ R c.world k.before := by
  refine (exec_induction (P := fun c' => R c.world c'.world ∧
    ∀ k ∈ c'.log, k ∈ c.log ∨ R c.world k.before) (fun c' e h => ?_) es
      ⟨hrefl _, fun k hk => .inl hk⟩).2
  rcases step_cases (M := M) c' e with hs | ⟨op, next, -, hs⟩
  · rwa [hs]
  · rw [hs]
    exact ⟨htrans _ _ _ h.1 (hR _ _ _), List.forall_mem_cons.2 ⟨.inr h.1, h.2⟩⟩

end Evolution

end Machine

end Async
