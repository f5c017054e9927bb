import Mathlib.Data.List.Basic
import Mathlib.Logic.Function.Basic
import QuantproCollector.Lib.Script

/-!
# Runs of several programs on one world

A `Machine` says what an operation answers and what it makes of the world, given a `Choice` for
everything the program does not decide (a fault, a clock reading, a drawn identifier). Any number
of threads, each a `Script`, take steps in any order: `step` performs the next operation of one
thread atomically and appends it to the log, `exec` folds `step` over a schedule. A thread that the
schedule stops mentioning has crashed.

Two ways to reason about every run:

* **World invariants.** `exec_inv`: a predicate kept by every operation that the threads can issue
  holds after every run, and held before every logged call.
* **Rely reasoning.** `Ensures M t R Q s`: however the other threads change the world within the
  relation `R` between two of its own calls, the thread `t` running `s` halts only with `Q`.
  `ensures_exec` transports this to every run whose steps stay within `R`.

`run` is the run of one program alone; there `R` is equality (`Ensures.run`).
-/

namespace Async

/-- What the operations answer and do, the undetermined part given by a choice. -/
structure Machine (ε Op : Type) (Res : Op → Type) (World Choice : Type) where
  perform : Choice → (op : Op) → World → Except ε (Res op) × World

/-- One performed operation: who called it, under which choice, in which world. -/
structure Call (Op World Choice : Type) where
  thread : ℕ
  op : Op
  choice : Choice
  before : World

/-- The world, what each thread has left to do, and the calls so far, newest first. -/
structure Config (ε Op : Type) (Res : Op → Type) (World Choice α : Type) where
  world : World
  script : ℕ → Script ε Op Res α
  log : List (Call Op World Choice)

variable {ε Op : Type} {Res : Op → Type} {World Choice α β : Type}

/-- The calls of one thread, newest first. -/
def Config.trace (c : Config ε Op Res World Choice α) (t : ℕ) : List (Call Op World Choice) :=
  c.log.filter (·.thread = t)

/-- The result of a thread that has halted. -/
def Config.result? (c : Config ε Op Res World Choice α) (t : ℕ) : Option (Except ε α) :=
  match c.script t with
  | .halt r => some r
  | .call _ _ => none

theorem Config.result?_eq_some {c : Config ε Op Res World Choice α} {t : ℕ} {r : Except ε α} :
    c.result? t = some r ↔ c.script t = .halt r := by
  unfold Config.result?
  split <;> simp_all

/-- Every call of a log (newest first) satisfies `p`, given the calls before it. -/
inductive Along (p : List (Call Op World Choice) → Call Op World Choice → Prop) :
    List (Call Op World Choice) → Prop
  | nil : Along p []
  | cons {k : Call Op World Choice} {log : List (Call Op World Choice)} (hk : p log k)
      (hlog : Along p log) : Along p (k :: log)

theorem along_cons {p : List (Call Op World Choice) → Call Op World Choice → Prop}
    {k : Call Op World Choice} {log : List (Call Op World Choice)} :
    Along p (k :: log) ↔ p log k ∧ Along p log :=
  ⟨fun | .cons hk hlog => ⟨hk, hlog⟩, fun h => .cons h.1 h.2⟩

theorem Along.of_append {p : List (Call Op World Choice) → Call Op World Choice → Prop}
    {later log : List (Call Op World Choice)} (h : Along p (later ++ log)) : Along p log := by
  induction later with
  | nil => exact h
  | cons k later ih => exact ih (along_cons.1 h).2

theorem Along.mono {p q : List (Call Op World Choice) → Call Op World Choice → Prop}
    (hpq : ∀ past k, p past k → q past k) {log : List (Call Op World Choice)} (h : Along p log) :
    Along q log := by
  induction h with
  | nil => exact .nil
  | cons hk _ ih => exact .cons (hpq _ _ hk) ih

instance decidableAlong {p : List (Call Op World Choice) → Call Op World Choice → Prop}
    [∀ past k, Decidable (p past k)] : ∀ log, Decidable (Along p log)
  | [] => isTrue .nil
  | _ :: log =>
    have : Decidable (Along p log) := decidableAlong log
    decidable_of_iff _ along_cons.symm

/-- The threads before their first step. -/
def Config.start (w : World) (s : ℕ → Script ε Op Res α) : Config ε Op Res World Choice α :=
  ⟨w, s, []⟩

namespace Machine

variable (M : Machine ε Op Res World Choice)

/-- What a call was answered. -/
def answer (k : Call Op World Choice) : Except ε (Res k.op) :=
  (M.perform k.choice k.op k.before).1

/-- The world a call left. -/
def after (k : Call Op World Choice) : World :=
  (M.perform k.choice k.op k.before).2

/-- The thread `e.1` performs its next operation under the choice `e.2`. -/
def step (c : Config ε Op Res World Choice α) (e : ℕ × Choice) : Config ε Op Res World Choice α :=
  match c.script e.1 with
  | .halt _ => c
  | .call op next =>
    let r := M.perform e.2 op c.world
    { world := r.2
      script := Function.update c.script e.1 (next r.1)
      log := ⟨e.1, op, e.2, c.world⟩ :: c.log }

/-- A run: the threads step in the order of the schedule. -/
def exec (c : Config ε Op Res World Choice α) (es : List (ℕ × Choice)) :
    Config ε Op Res World Choice α :=
  es.foldl M.step c

@[simp] theorem exec_nil (c : Config ε Op Res World Choice α) : M.exec c [] = c := rfl

@[simp] theorem exec_cons (c : Config ε Op Res World Choice α) (e : ℕ × Choice)
    (es : List (ℕ × Choice)) : M.exec c (e :: es) = M.exec (M.step c e) es := rfl

theorem exec_append (c : Config ε Op Res World Choice α) (es fs : List (ℕ × Choice)) :
    M.exec c (es ++ fs) = M.exec (M.exec c es) fs :=
  List.foldl_append

variable {M}

theorem step_halt {c : Config ε Op Res World Choice α} {e : ℕ × Choice} {r : Except ε α}
    (h : c.script e.1 = .halt r) : M.step c e = c := by
  simp only [step, h]

theorem step_call {c : Config ε Op Res World Choice α} {e : ℕ × Choice} {op : Op}
    {next : Except ε (Res op) → Script ε Op Res α} (h : c.script e.1 = .call op next) :
    M.step c e =
      { world := (M.perform e.2 op c.world).2
        script := Function.update c.script e.1 (next (M.perform e.2 op c.world).1)
        log := ⟨e.1, op, e.2, c.world⟩ :: c.log } := by
  simp only [step, h]

/-- A step changes nothing, or performs the next operation of its thread. -/
theorem step_cases (c : Config ε Op Res World Choice α) (e : ℕ × Choice) :
    M.step c e = c ∨ ∃ op next, c.script e.1 = .call op next ∧
      M.step c e =
        { world := (M.perform e.2 op c.world).2
          script := Function.update c.script e.1 (next (M.perform e.2 op c.world).1)
          log := ⟨e.1, op, e.2, c.world⟩ :: c.log } := by
  cases h : c.script e.1 with
  | halt r => exact .inl (step_halt h)
  | call op next => exact .inr ⟨op, next, rfl, step_call h⟩

/-- **Run induction.** What every step keeps, every run keeps. -/
theorem exec_induction {P : Config ε Op Res World Choice α → Prop}
    (hstep : ∀ c e, P c → P (M.step c e)) (es : List (ℕ × Choice))
    {c : Config ε Op Res World Choice α} (h0 : P c) : P (M.exec c es) := by
  induction es generalizing c with
  | nil => exact h0
  | cons e es ih => exact ih (hstep c e h0)

/-! ## World invariants -/

/-- Each thread can issue only the operations allowed to it. -/
def Issued (S : ℕ → Op → Prop) (c : Config ε Op Res World Choice α) : Prop :=
  ∀ t, (c.script t).Issues (S t)

variable {S : ℕ → Op → Prop}

theorem issued_step {c : Config ε Op Res World Choice α} (h : Issued S c) (e : ℕ × Choice) :
    Issued S (M.step c e) := by
  rcases step_cases (M := M) c e with hs | ⟨op, next, hcall, hs⟩
  · rwa [hs]
  · rw [hs]
    intro t
    by_cases ht : t = e.1
    · subst ht
      have hi := h e.1
      rw [hcall] at hi
      simpa using hi.2 _
    · simpa [Function.update_of_ne ht] using h t

theorem issued_exec {c : Config ε Op Res World Choice α} (h : Issued S c)
    (es : List (ℕ × Choice)) : Issued S (M.exec c es) :=
  exec_induction (P := Issued S) (fun _ e hc => issued_step hc e) es h

theorem issued_next {c : Config ε Op Res World Choice α} (h : Issued S c) {t : ℕ} {op : Op}
    {next : Except ε (Res op) → Script ε Op Res α} (hcall : c.script t = .call op next) :
    S t op := by
  have hi := h t
  rw [hcall] at hi
  exact hi.1

/-- A world predicate kept by the operations that the threads may issue. -/
def Keeps (M : Machine ε Op Res World Choice) (S : ℕ → Op → Prop) (I : World → Prop) : Prop :=
  ∀ t ch op w, S t op → I w → I (M.perform ch op w).2

/-- **Invariant rule.** An invariant of the issued operations holds after every run. -/
theorem exec_inv {I : World → Prop} (hI : M.Keeps S I) {c : Config ε Op Res World Choice α}
    (hS : Issued S c) (h0 : I c.world) (es : List (ℕ × Choice)) : I (M.exec c es).world := by
  refine (exec_induction (P := fun c => Issued S c ∧ I c.world) ?_ es ⟨hS, h0⟩).2
  rintro c e ⟨hS, hw⟩
  refine ⟨issued_step hS e, ?_⟩
  rcases step_cases (M := M) c e with hs | ⟨op, next, hcall, hs⟩
  · rwa [hs]
  · rw [hs]
    exact hI e.1 e.2 op c.world (issued_next hS hcall) hw

/-- Every logged call was allowed to its thread, and was made in a world with the invariant. -/
theorem exec_log {I : World → Prop} (hI : M.Keeps S I) {c : Config ε Op Res World Choice α}
    (hS : Issued S c) (h0 : I c.world) (hlog : ∀ k ∈ c.log, S k.thread k.op ∧ I k.before)
    (es : List (ℕ × Choice)) : ∀ k ∈ (M.exec c es).log, S k.thread k.op ∧ I k.before := by
  refine (exec_induction (P := fun c => Issued S c ∧ I c.world ∧
    ∀ k ∈ c.log, S k.thread k.op ∧ I k.before) ?_ es ⟨hS, h0, hlog⟩).2.2
  rintro c e ⟨hS, hw, hl⟩
  rcases step_cases (M := M) c e with hs | ⟨op, next, hcall, hs⟩
  · rw [hs]
    exact ⟨hS, hw, hl⟩
  · have hop := issued_next hS hcall
    refine ⟨issued_step hS e, ?_, ?_⟩
    · rw [hs]
      exact hI e.1 e.2 op c.world hop hw
    · rw [hs]
      intro k hk
      rcases List.mem_cons.mp hk with rfl | hk
      · exact ⟨hop, hw⟩
      · exact hl k hk

/-! ## Rely reasoning about one thread -/

/-- Running `s` as thread `t`, with the world changed within `R` by others before each of its calls
and before it halts, ends only with `Q` of its result, its calls (newest first) and the world. -/
def Ensures (M : Machine ε Op Res World Choice) (t : ℕ) (R : World → World → Prop)
    (Q : Except ε α → List (Call Op World Choice) → World → Prop) :
    Script ε Op Res α → List (Call Op World Choice) → World → Prop
  | .halt r, tr, w => ∀ w', R w w' → Q r tr w'
  | .call op next, tr, w => ∀ w', R w w' → ∀ ch,
      Ensures M t R Q (next (M.perform ch op w').1) (⟨t, op, ch, w'⟩ :: tr) (M.perform ch op w').2

section Rules

variable {t : ℕ} {R : World → World → Prop}
  {Q Q' : Except ε α → List (Call Op World Choice) → World → Prop}

/-- Interference may strike at any time. -/
theorem Ensures.rely (htrans : ∀ u v w, R u v → R v w → R u w) {s : Script ε Op Res α}
    {tr : List (Call Op World Choice)} {w w' : World} (h : M.Ensures t R Q s tr w)
    (hR : R w w') : M.Ensures t R Q s tr w' := by
  cases s with
  | halt r => exact fun v hv => h v (htrans _ _ _ hR hv)
  | call op next => exact fun v hv => h v (htrans _ _ _ hR hv)

theorem Ensures.mono (hQ : ∀ r tr w, Q r tr w → Q' r tr w) {s : Script ε Op Res α}
    {tr : List (Call Op World Choice)} {w : World} (h : M.Ensures t R Q s tr w) :
    M.Ensures t R Q' s tr w := by
  induction s generalizing tr w with
  | halt r => exact fun v hv => hQ _ _ _ (h v hv)
  | call op next ih => exact fun v hv ch => ih _ (h v hv ch)

theorem Ensures.and {s : Script ε Op Res α} {tr : List (Call Op World Choice)} {w : World}
    (h : M.Ensures t R Q s tr w) (h' : M.Ensures t R Q' s tr w) :
    M.Ensures t R (fun r tr w => Q r tr w ∧ Q' r tr w) s tr w := by
  induction s generalizing tr w with
  | halt r => exact fun v hv => ⟨h v hv, h' v hv⟩
  | call op next ih => exact fun v hv ch => ih _ (h v hv ch) (h' v hv ch)

/-- A postcondition stays true under later interference. -/
theorem Ensures.stable (htrans : ∀ u v w, R u v → R v w → R u w) {s : Script ε Op Res α}
    {tr : List (Call Op World Choice)} {w : World} (h : M.Ensures t R Q s tr w) :
    M.Ensures t R (fun r tr w => ∀ w', R w w' → Q r tr w') s tr w := by
  induction s generalizing tr w with
  | halt r => exact fun v hv w' hw' => h w' (htrans _ _ _ hv hw')
  | call op next ih => exact fun v hv ch => ih _ (h v hv ch)

theorem Ensures.of_forall (hQ : ∀ r tr w, Q r tr w) (s : Script ε Op Res α)
    (tr : List (Call Op World Choice)) (w : World) : M.Ensures t R Q s tr w := by
  induction s generalizing tr w with
  | halt r => exact fun v _ => hQ _ _ v
  | call op next ih => exact fun v _ ch => ih _ _ _

/-- **Sequencing rule.** -/
theorem Ensures.bind (hrefl : ∀ w, R w w) {s : Script ε Op Res α} {f : α → Script ε Op Res β}
    {Q : Except ε β → List (Call Op World Choice) → World → Prop}
    {tr : List (Call Op World Choice)} {w : World}
    (h : M.Ensures t R (fun r tr w => match r with
      | .ok a => M.Ensures t R Q (f a) tr w
      | .error e => Q (.error e) tr w) s tr w) : M.Ensures t R Q (s >>= f) tr w := by
  induction s generalizing tr w with
  | halt r =>
    cases r with
    | ok a => exact h w (hrefl w)
    | error e => exact fun v hv => h v hv
  | call op next ih => exact fun v hv ch => ih _ (h v hv ch)

/-- **Handler rule.** -/
theorem Ensures.tryCatch (hrefl : ∀ w, R w w) {s : Script ε Op Res α}
    {f : ε → Script ε Op Res α} {tr : List (Call Op World Choice)} {w : World}
    (h : M.Ensures t R (fun r tr w => match r with
      | .ok a => Q (.ok a) tr w
      | .error e => M.Ensures t R Q (f e) tr w) s tr w) :
    M.Ensures t R Q (MonadExcept.tryCatch s f) tr w := by
  induction s generalizing tr w with
  | halt r =>
    cases r with
    | ok a => exact fun v hv => h v hv
    | error e => exact h w (hrefl w)
  | call op next ih => exact fun v hv ch => ih _ (h v hv ch)

end Rules

/-- **Parallel rule.** If every operation that the threads may issue stays within `R`, then what
`Ensures` promises of thread `t` against `R` is true of it in every run. -/
theorem ensures_exec {t : ℕ} {R : World → World → Prop}
    {Q : Except ε α → List (Call Op World Choice) → World → Prop} (hrefl : ∀ w, R w w)
    (htrans : ∀ u v w, R u v → R v w → R u w)
    (hR : ∀ u ch op w, S u op → R w (M.perform ch op w).2) {c : Config ε Op Res World Choice α}
    (hS : Issued S c) (h0 : M.Ensures t R Q (c.script t) (c.trace t) c.world)
    (es : List (ℕ × Choice)) :
    M.Ensures t R Q ((M.exec c es).script t) ((M.exec c es).trace t) (M.exec c es).world := by
  refine (exec_induction (P := fun c => Issued S c ∧
    M.Ensures t R Q (c.script t) (c.trace t) c.world) ?_ es ⟨hS, h0⟩).2
  rintro c e ⟨hS, h⟩
  refine ⟨issued_step hS e, ?_⟩
  rcases step_cases (M := M) c e with hs | ⟨op, next, hcall, hs⟩
  · rwa [hs]
  · by_cases ht : e.1 = t
    · subst ht
      rw [hcall] at h
      simpa [hs, Config.trace] using h c.world (hrefl _) e.2
    · have hw := h.rely htrans (hR e.1 e.2 op c.world (issued_next hS hcall))
      simpa [hs, Config.trace, ht, Function.update_of_ne (Ne.symm ht)] using hw

/-- In every run of freshly started threads, a halted thread has its postcondition. -/
theorem halted_exec {t : ℕ} {R : World → World → Prop}
    {Q : Except ε α → List (Call Op World Choice) → World → Prop} (hrefl : ∀ w, R w w)
    (htrans : ∀ u v w, R u v → R v w → R u w)
    (hR : ∀ u ch op w, S u op → R w (M.perform ch op w).2) {w : World}
    {s : ℕ → Script ε Op Res α} (hS : ∀ u, (s u).Issues (S u))
    (h0 : M.Ensures t R Q (s t) [] w) (es : List (ℕ × Choice)) {r : Except ε α}
    (hr : (M.exec (Config.start w s) es).script t = .halt r) :
    Q r ((M.exec (Config.start w s) es).trace t) (M.exec (Config.start w s) es).world := by
  have h := ensures_exec hrefl htrans hR (c := Config.start w s) hS h0 es
  rw [hr] at h
  exact h _ (hrefl _)

/-! ## Complete executions -/

/-- The calls, oldest first, are all that the program makes before it halts with the result. -/
inductive Completes (M : Machine ε Op Res World Choice) :
    Script ε Op Res α → List (Call Op World Choice) → Except ε α → Prop
  | halt (r : Except ε α) : Completes M (.halt r) [] r
  | call {k : Call Op World Choice} {next : Except ε (Res k.op) → Script ε Op Res α}
      {ks : List (Call Op World Choice)} {r : Except ε α}
      (h : Completes M (next (M.answer k)) ks r) : Completes M (.call k.op next) (k :: ks) r

section Completes

variable {ks : List (Call Op World Choice)} {s : Script ε Op Res α} {r : Except ε α}

@[simp] theorem completes_halt {r' : Except ε α} :
    M.Completes (.halt r') ks r ↔ ks = [] ∧ r = r' := by
  constructor
  · rintro ⟨⟩
    exact ⟨rfl, rfl⟩
  · rintro ⟨rfl, rfl⟩
    exact .halt _

theorem completes_call {op : Op} {next : Except ε (Res op) → Script ε Op Res α} :
    M.Completes (.call op next) ks r ↔ ∃ t ch w ks', ks = ⟨t, op, ch, w⟩ :: ks' ∧
      M.Completes (next (M.perform ch op w).1) ks' r := by
  constructor
  · intro h
    cases h with
    | @call k _ ks' _ h => exact ⟨k.thread, k.choice, k.before, ks', rfl, h⟩
  · rintro ⟨t, ch, w, ks', rfl, h⟩
    exact .call (k := ⟨t, op, ch, w⟩) h

theorem completes_bind {f : α → Script ε Op Res β} {r : Except ε β} :
    M.Completes (s >>= f) ks r ↔ (∃ e, M.Completes s ks (.error e) ∧ r = .error e) ∨
      ∃ a ks₁ ks₂, ks = ks₁ ++ ks₂ ∧ M.Completes s ks₁ (.ok a) ∧ M.Completes (f a) ks₂ r := by
  induction s generalizing ks with
  | halt r' =>
    cases r' with
    | ok a => simp
    | error e => simp
  | call op next ih =>
    simp only [Script.call_bind, completes_call, ih]
    constructor
    · rintro ⟨t, ch, w, ks', rfl, ⟨e, h, rfl⟩ | ⟨a, ks₁, ks₂, rfl, h, hf⟩⟩
      · exact .inl ⟨e, ⟨t, ch, w, ks', rfl, h⟩, rfl⟩
      · exact .inr ⟨a, ⟨t, op, ch, w⟩ :: ks₁, ks₂, rfl, ⟨t, ch, w, ks₁, rfl, h⟩, hf⟩
    · rintro (⟨e, ⟨t, ch, w, ks', rfl, h⟩, rfl⟩ | ⟨a, _, ks₂, rfl, ⟨t, ch, w, ks', rfl, h⟩, hf⟩)
      · exact ⟨t, ch, w, ks', rfl, .inl ⟨e, h, rfl⟩⟩
      · exact ⟨t, ch, w, ks' ++ ks₂, rfl, .inr ⟨a, ks', ks₂, rfl, h, hf⟩⟩

theorem completes_tryCatch {f : ε → Script ε Op Res α} :
    M.Completes (MonadExcept.tryCatch s f) ks r ↔ (∃ a, M.Completes s ks (.ok a) ∧ r = .ok a) ∨
      ∃ e ks₁ ks₂, ks = ks₁ ++ ks₂ ∧ M.Completes s ks₁ (.error e) ∧ M.Completes (f e) ks₂ r := by
  induction s generalizing ks with
  | halt r' =>
    cases r' with
    | ok a => simp
    | error e => simp
  | call op next ih =>
    simp only [Script.tryCatch_call, completes_call, ih]
    constructor
    · rintro ⟨t, ch, w, ks', rfl, ⟨a, h, rfl⟩ | ⟨e, ks₁, ks₂, rfl, h, hf⟩⟩
      · exact .inl ⟨a, ⟨t, ch, w, ks', rfl, h⟩, rfl⟩
      · exact .inr ⟨e, ⟨t, op, ch, w⟩ :: ks₁, ks₂, rfl, ⟨t, ch, w, ks₁, rfl, h⟩, hf⟩
    · rintro (⟨a, ⟨t, ch, w, ks', rfl, h⟩, rfl⟩ | ⟨e, _, ks₂, rfl, ⟨t, ch, w, ks', rfl, h⟩, hf⟩)
      · exact ⟨t, ch, w, ks', rfl, .inl ⟨a, h, rfl⟩⟩
      · exact ⟨t, ch, w, ks' ++ ks₂, rfl, .inr ⟨e, ks', ks₂, rfl, h, hf⟩⟩

theorem Completes.issues {S : Op → Prop} (h : M.Completes s ks r) (hs : s.Issues S) :
    ∀ k ∈ ks, S k.op := by
  induction h with
  | halt r => simp
  | @call k next ks r _ ih =>
    intro k' hk'
    rcases List.mem_cons.1 hk' with rfl | hk'
    · exact hs.1
    · exact ih (hs.2 _) k' hk'

theorem ensures_completes {t : ℕ} {R : World → World → Prop} (s : Script ε Op Res α)
    (tr : List (Call Op World Choice)) (w : World) :
    M.Ensures t R (fun r tr' _ => ∃ ks, tr' = ks.reverse ++ tr ∧ M.Completes s ks r) s tr w := by
  induction s generalizing tr w with
  | halt r => exact fun _ _ => ⟨[], rfl, .halt r⟩
  | call op next ih =>
    refine fun w' _ ch => (ih (M.perform ch op w').1 _ _).mono ?_
    rintro r tr' _ ⟨ks, rfl, h⟩
    exact ⟨⟨t, op, ch, w'⟩ :: ks, by simp, .call (k := ⟨t, op, ch, w'⟩) h⟩

/-- A thread that has halted has completed its program. -/
theorem completes_exec {t : ℕ} {w : World} {s : ℕ → Script ε Op Res α} (es : List (ℕ × Choice))
    {r : Except ε α} (hr : (M.exec (Config.start w s) es).result? t = some r) :
    M.Completes (s t) ((M.exec (Config.start w s) es).trace t).reverse r := by
  have hens := ensures_completes (M := M) (t := t) (R := fun _ _ => True) (s t) [] w
  have hall : ∀ u, (s u).Issues fun _ => True := fun u => Script.issues_of_forall (fun _ => trivial) _
  obtain ⟨ks, htr, h⟩ := halted_exec (S := fun _ _ => True) (fun _ => trivial)
    (fun _ _ _ _ _ => trivial) (fun _ _ _ _ _ => trivial) hall hens es
    (Config.result?_eq_some.1 hr)
  rw [htr, List.append_nil, List.reverse_reverse]
  exact h

/-- Every run goes on to one in which the thread has halted. -/
theorem exists_exec_halt (ch : Choice) (c : Config ε Op Res World Choice α) (t : ℕ) :
    ∃ es r, (M.exec c es).result? t = some r ∧ ∃ later, (M.exec c es).trace t = later ++ c.trace t := by
  obtain ⟨s, hs⟩ : ∃ s, c.script t = s := ⟨_, rfl⟩
  induction s generalizing c with
  | halt r => exact ⟨[], r, Config.result?_eq_some.2 hs, [], rfl⟩
  | call op next ih =>
    have hstep := step_call (M := M) (e := (t, ch)) hs
    obtain ⟨es, r, hr, later, hlater⟩ := ih (M.perform ch op c.world).1 (M.step c (t, ch)) (by simp [hstep])
    refine ⟨(t, ch) :: es, r, hr, later ++ [⟨t, op, ch, c.world⟩], ?_⟩
    rw [exec_cons, hlater, hstep]
    simp [Config.trace]

end Completes

/-! ## One program alone -/

/-- Run a program alone; its `k`-th call takes the `k`-th choice. -/
def run (M : Machine ε Op Res World Choice) (t : ℕ) (choices : ℕ → Choice) :
    Script ε Op Res α → ℕ → List (Call Op World Choice) → World →
      Except ε α × List (Call Op World Choice) × World
  | .halt r, _, tr, w => (r, tr, w)
  | .call op next, k, tr, w =>
    run M t choices (next (M.perform (choices k) op w).1) (k + 1)
      (⟨t, op, choices k, w⟩ :: tr) (M.perform (choices k) op w).2

/-- Alone, a program meets what it ensures against an unchanging world. -/
theorem Ensures.run {t : ℕ} {Q : Except ε α → List (Call Op World Choice) → World → Prop}
    (choices : ℕ → Choice) {s : Script ε Op Res α} {tr : List (Call Op World Choice)} {w : World}
    (k : ℕ) (h : M.Ensures t Eq Q s tr w) :
    Q (M.run t choices s k tr w).1 (M.run t choices s k tr w).2.1
      (M.run t choices s k tr w).2.2 := by
  induction s generalizing tr w k with
  | halt r => exact h w rfl
  | call op next ih => exact ih _ (k + 1) (h w rfl (choices k))

/-- Where every call takes the same choice, the count of the calls does not matter. -/
theorem run_constant {t : ℕ} (ch : Choice) (s : Script ε Op Res α) (j k : ℕ)
    (tr : List (Call Op World Choice)) (w : World) :
    M.run t (fun _ => ch) s j tr w = M.run t (fun _ => ch) s k tr w := by
  induction s generalizing j k tr w with
  | halt r => rfl
  | call op next ih => exact ih _ _ _ _ _

/-- The calls before a program are not its own. -/
theorem run_append {t : ℕ} (choices : ℕ → Choice) (s : Script ε Op Res α) (k : ℕ)
    (new tr : List (Call Op World Choice)) (w : World) :
    M.run t choices s k (new ++ tr) w =
      ((M.run t choices s k new w).1, (M.run t choices s k new w).2.1 ++ tr,
        (M.run t choices s k new w).2.2) := by
  induction s generalizing k new w with
  | halt r => rfl
  | call op next ih => exact ih _ (k + 1) (_ :: new) _

/-- A program that answers goes on with what follows it, in the world that it leaves. -/
theorem run_constant_bind {β : Type} {t : ℕ} (ch : Choice) (f : α → Script ε Op Res β)
    (s : Script ε Op Res α) {a : α} {tr : List (Call Op World Choice)} {w w' : World} {k : ℕ}
    (h : (M.run t (fun _ => ch) s k tr w).1 = .ok a)
    (hw : (M.run t (fun _ => ch) s k tr w).2.2 = w') :
    M.run t (fun _ => ch) (s >>= f) k tr w =
      ((M.run t (fun _ => ch) (f a) k [] w').1,
        (M.run t (fun _ => ch) (f a) k [] w').2.1 ++ (M.run t (fun _ => ch) s k tr w).2.1,
        (M.run t (fun _ => ch) (f a) k [] w').2.2) := by
  induction s generalizing k tr w with
  | halt r =>
    change r = .ok a at h
    change w = w' at hw
    rw [h, hw]
    exact run_append (fun _ => ch) (f a) k [] tr w'
  | call op next ih =>
    rw [Script.call_bind, run_constant ch (f a) k (k + 1)]
    exact ih _ h hw

/-- What a program's operations keep, each of its calls found, and its end finds. -/
theorem ensures_of_issues {t : ℕ} {S : Op → Prop} {I : World → Prop}
    (hI : ∀ ch op w, S op → I w → I (M.perform ch op w).2) {s : Script ε Op Res α}
    (hs : s.Issues S) {tr : List (Call Op World Choice)} {w : World} (hw : I w) :
    M.Ensures t Eq (fun _ tr' w' => I w' ∧ ∃ new, tr' = new ++ tr ∧ ∀ k ∈ new, S k.op ∧ I k.before)
      s tr w := by
  induction s generalizing tr w with
  | halt r =>
    rintro w' rfl
    exact ⟨hw, [], rfl, by simp⟩
  | call op next ih =>
    rintro w' rfl ch
    refine (ih _ (hs.2 _) (hI ch op w hs.1 hw)).mono fun r tr' w' h => ?_
    obtain ⟨hw', new, rfl, hnew⟩ := h
    refine ⟨hw', new ++ [⟨t, op, ch, w⟩], by simp, fun k hk => ?_⟩
    rcases List.mem_append.1 hk with hk | hk
    · exact hnew k hk
    · rw [List.mem_singleton.1 hk]
      exact ⟨hs.1, hw⟩

section Calls

variable {t : ℕ} {p : Call Op World Choice → Prop} {s : Script ε Op Res α}
  {tr : List (Call Op World Choice)} {w : World}

/-- A call that was made stays made. -/
theorem ensures_of_call {R : World → World → Prop} (h : ∃ k ∈ tr, p k) (s : Script ε Op Res α)
    (w : World) : M.Ensures t R (fun _ tr' _ => ∃ k ∈ tr', p k) s tr w := by
  induction s generalizing tr w with
  | halt r => exact fun _ _ => h
  | call op next ih =>
    intro w' _ ch
    obtain ⟨k, hk, hp⟩ := h
    exact ih _ ⟨k, List.mem_cons_of_mem _ hk, hp⟩ _

theorem Ensures.bind_call {f : α → Script ε Op Res β}
    (h : M.Ensures t Eq (fun _ tr' _ => ∃ k ∈ tr', p k) s tr w) :
    M.Ensures t Eq (fun _ tr' _ => ∃ k ∈ tr', p k) (s >>= f) tr w := by
  refine .bind (fun _ => rfl) (h.mono fun r tr' w' hk => ?_)
  cases r with
  | ok a => exact ensures_of_call hk _ _
  | error e => exact hk

theorem Ensures.tryCatch_call {f : ε → Script ε Op Res α}
    (h : M.Ensures t Eq (fun _ tr' _ => ∃ k ∈ tr', p k) s tr w) :
    M.Ensures t Eq (fun _ tr' _ => ∃ k ∈ tr', p k) (MonadExcept.tryCatch s f) tr w := by
  refine .tryCatch (fun _ => rfl) (h.mono fun r tr' w' hk => ?_)
  cases r with
  | ok a => exact hk
  | error e => exact ensures_of_call hk _ _

end Calls

/-! ## Programs that only read -/

/-- The machine under some of its choices. -/
def among (M : Machine ε Op Res World Choice) (C : Choice → Prop) :
    Machine ε Op Res World {ch // C ch} where
  perform ch := M.perform ch.1

/-- Restricted choices run as the choices they are. -/
theorem run_among {C : Choice → Prop} {t : ℕ} (choices : ℕ → {ch // C ch})
    (s : Script ε Op Res α) (k : ℕ) (tr : List (Call Op World {ch // C ch}))
    (tr' : List (Call Op World Choice)) (w : World) :
    ((M.among C).run t choices s k tr w).1 = (M.run t (fun i => (choices i).1) s k tr' w).1 ∧
      ((M.among C).run t choices s k tr w).2.2 =
        (M.run t (fun i => (choices i).1) s k tr' w).2.2 := by
  induction s generalizing k tr tr' w with
  | halt r => exact ⟨rfl, rfl⟩
  | call op next ih => exact ih _ _ _ _ _

/-- In the world `w` the program halts with `r`, whatever the choices are; it calls only operations
of `S`, and none of them changes the world. -/
def Reads (M : Machine ε Op Res World Choice) (S : Op → Prop) (w : World) :
    Script ε Op Res α → Except ε α → Prop
  | .halt r', r => r' = r
  | .call op next, r => S op ∧ ∀ ch, (M.perform ch op w).2 = w ∧
      Reads M S w (next (M.perform ch op w).1) r

section Reads

variable {S : Op → Prop} {w : World} {s : Script ε Op Res α} {r : Except ε α}

@[simp] theorem reads_halt {r' : Except ε α} : M.Reads S w (.halt r') r ↔ r' = r := Iff.rfl

theorem Reads.bind {f : α → Script ε Op Res β} {g : α → Except ε β} (hs : M.Reads S w s r)
    (hf : ∀ a, r = .ok a → M.Reads S w (f a) (g a)) : M.Reads S w (s >>= f) (r >>= g) := by
  induction s with
  | halt r' =>
    obtain rfl : r' = r := hs
    cases r' with
    | ok a => exact hf a rfl
    | error e => rfl
  | call op next ih => exact ⟨hs.1, fun ch => ⟨(hs.2 ch).1, ih _ (hs.2 ch).2⟩⟩

theorem Reads.bind_ok {a : α} {f : α → Script ε Op Res β} {q : Except ε β}
    (hs : M.Reads S w s (.ok a)) (hf : M.Reads S w (f a) q) : M.Reads S w (s >>= f) q :=
  hs.bind (g := fun _ => q) fun _ ha => Except.ok.inj ha ▸ hf

theorem Reads.bind_error {e : ε} {f : α → Script ε Op Res β} (hs : M.Reads S w s (.error e)) :
    M.Reads S w (s >>= f) (.error e) :=
  hs.bind (g := fun _ => .error e) fun _ ha => absurd ha (by simp)

theorem Reads.tryCatch {h : ε → Script ε Op Res α} {g : ε → Except ε α} (hs : M.Reads S w s r)
    (hh : ∀ e, r = .error e → M.Reads S w (h e) (g e)) :
    M.Reads S w (MonadExcept.tryCatch s h) (MonadExcept.tryCatch r g) := by
  induction s with
  | halt r' =>
    obtain rfl : r' = r := hs
    cases r' with
    | ok a => rfl
    | error e => exact hh e rfl
  | call op next ih => exact ⟨hs.1, fun ch => ⟨(hs.2 ch).1, ih _ (hs.2 ch).2⟩⟩

/-- A program that only reads is met by its answer in the unchanged world. -/
theorem Reads.ensures {t : ℕ} {Q : Except ε α → List (Call Op World Choice) → World → Prop}
    {tr : List (Call Op World Choice)} (hs : M.Reads S w s r)
    (hQ : ∀ new, (∀ k ∈ new, S k.op) → Q r (new ++ tr) w) : M.Ensures t Eq Q s tr w := by
  induction s generalizing tr with
  | halt r' =>
    obtain rfl : r' = r := hs
    rintro w' rfl
    exact hQ [] (by simp)
  | call op next ih =>
    rintro w' rfl ch
    rw [(hs.2 ch).1]
    refine ih _ (hs.2 ch).2 fun new hnew => ?_
    have h := hQ (new ++ [⟨t, op, ch, w⟩]) fun k hk => by
      rcases List.mem_append.1 hk with hk | hk
      · exact hnew k hk
      · rw [List.mem_singleton.1 hk]
        exact hs.1
    simpa using h

/-- Run alone, a program that only reads returns its answer and leaves the world. -/
theorem Reads.run {t : ℕ} (choices : ℕ → Choice) (k : ℕ) (hs : M.Reads S w s r) :
    (M.run t choices s k [] w).1 = r ∧ (∀ c ∈ (M.run t choices s k [] w).2.1, S c.op) ∧
      (M.run t choices s k [] w).2.2 = w := by
  refine Ensures.run (Q := fun r' tr' w' => r' = r ∧ (∀ c ∈ tr', S c.op) ∧ w' = w) choices k ?_
  exact hs.ensures fun new hnew => ⟨rfl, by simpa using hnew, rfl⟩

end Reads

end Machine

end Async
