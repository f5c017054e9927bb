import Mathlib.Data.List.Basic

/-!
# Asynchronous programs

A `Script` is a program that reaches the outside world only through operations: it either halts,
with a value or with a raised error, or calls one operation and continues with what the operation
answered. An operation can itself fail, and the failure is raised in the caller, where `tryCatch`
may handle it.

* `Script` is a lawful monad with exceptions, so programs are written in `do` notation.
* `Issues S s`: every operation that `s` can ever call satisfies `S`, whatever it is answered.
-/

namespace Async

variable {ε Op : Type} {Res : Op → Type} {α β γ : Type}

/-- A program over the operations `Op`, where `op` answers a `Res op` or raises an `ε`. -/
inductive Script (ε Op : Type) (Res : Op → Type) (α : Type) : Type where
  | halt (r : Except ε α)
  | call (op : Op) (next : Except ε (Res op) → Script ε Op Res α)

namespace Script

/-- Sequencing: an error halts, and so skips what follows. -/
def bind : Script ε Op Res α → (α → Script ε Op Res β) → Script ε Op Res β
  | halt (.ok a), f => f a
  | halt (.error e), _ => halt (.error e)
  | call op next, f => call op fun r => (next r).bind f

/-- Run the handler where the program raises. -/
def handle : Script ε Op Res α → (ε → Script ε Op Res α) → Script ε Op Res α
  | halt (.ok a), _ => halt (.ok a)
  | halt (.error e), h => h e
  | call op next, h => call op fun r => (next r).handle h

instance : Monad (Script ε Op Res) where
  pure a := halt (.ok a)
  bind := bind

instance : MonadExceptOf ε (Script ε Op Res) where
  throw e := halt (.error e)
  tryCatch := handle

/-- Call one operation and return its answer. -/
def perform (op : Op) : Script ε Op Res (Res op) :=
  call op halt

@[simp] theorem pure_eq (a : α) : (pure a : Script ε Op Res α) = halt (.ok a) := rfl

@[simp] theorem throw_eq (e : ε) : (throw e : Script ε Op Res α) = halt (.error e) := rfl

@[simp] theorem halt_ok_bind (a : α) (f : α → Script ε Op Res β) :
    (halt (.ok a) >>= f) = f a := rfl

@[simp] theorem halt_error_bind (e : ε) (f : α → Script ε Op Res β) :
    (halt (.error e) >>= f) = halt (.error e) := rfl

@[simp] theorem call_bind (op : Op) (next : Except ε (Res op) → Script ε Op Res α)
    (f : α → Script ε Op Res β) : (call op next >>= f) = call op fun r => next r >>= f := rfl

@[simp] theorem perform_bind (op : Op) (f : Res op → Script ε Op Res β) :
    (perform op >>= f) = call op fun r => halt r >>= f := rfl

@[simp] theorem tryCatch_halt_ok (a : α) (h : ε → Script ε Op Res α) :
    tryCatch (halt (.ok a)) h = halt (.ok a) := rfl

@[simp] theorem tryCatch_halt_error (e : ε) (h : ε → Script ε Op Res α) :
    tryCatch (halt (.error e)) h = h e := rfl

@[simp] theorem tryCatch_call (op : Op) (next : Except ε (Res op) → Script ε Op Res α)
    (h : ε → Script ε Op Res α) :
    tryCatch (call op next) h = call op fun r => tryCatch (next r) h := rfl

theorem bind_halt (s : Script ε Op Res α) : (s >>= fun a => halt (.ok a)) = s := by
  induction s with
  | halt r => cases r <;> rfl
  | call op next ih => simp only [call_bind, ih]

theorem bind_assoc' (s : Script ε Op Res α) (f : α → Script ε Op Res β)
    (g : β → Script ε Op Res γ) : (s >>= f >>= g) = s >>= fun a => f a >>= g := by
  induction s with
  | halt r => cases r <;> rfl
  | call op next ih => simp only [call_bind, ih]

instance : LawfulMonad (Script ε Op Res) :=
  LawfulMonad.mk' (Script ε Op Res) bind_halt (fun _ _ => rfl) bind_assoc'

/-! ## The operations a program can call -/

/-- Every operation the program can ever call satisfies `S`, whatever the earlier ones answered. -/
def Issues (S : Op → Prop) : Script ε Op Res α → Prop
  | halt _ => True
  | call op next => S op ∧ ∀ r, (next r).Issues S

variable {S : Op → Prop}

@[simp] theorem issues_halt (r : Except ε α) : (halt r : Script ε Op Res α).Issues S := trivial

@[simp] theorem issues_call (op : Op) (next : Except ε (Res op) → Script ε Op Res α) :
    (call op next).Issues S ↔ S op ∧ ∀ r, (next r).Issues S := Iff.rfl

@[simp] theorem issues_perform {op : Op} : (perform op : Script ε Op Res _).Issues S ↔ S op := by
  simp [perform]

theorem Issues.bind {s : Script ε Op Res α} {f : α → Script ε Op Res β} (hs : s.Issues S)
    (hf : ∀ a, (f a).Issues S) : (s >>= f).Issues S := by
  induction s with
  | halt r =>
    cases r with
    | ok a => exact hf a
    | error e => trivial
  | call op next ih => exact ⟨hs.1, fun r => ih r (hs.2 r)⟩

theorem issues_of_forall (h : ∀ op, S op) (s : Script ε Op Res α) : s.Issues S := by
  induction s with
  | halt r => trivial
  | call op next ih => exact ⟨h op, ih⟩

theorem Issues.map {s : Script ε Op Res α} (f : α → β) (hs : s.Issues S) : (f <$> s).Issues S :=
  hs.bind fun _ => trivial

theorem Issues.tryCatch {s : Script ε Op Res α} {h : ε → Script ε Op Res α} (hs : s.Issues S)
    (hh : ∀ e, (h e).Issues S) : (MonadExcept.tryCatch s h).Issues S := by
  induction s with
  | halt r =>
    cases r with
    | ok a => trivial
    | error e => exact hh e
  | call op next ih => exact ⟨hs.1, fun r => ih r (hs.2 r)⟩

theorem Issues.mono {S' : Op → Prop} {s : Script ε Op Res α} (hs : s.Issues S)
    (h : ∀ op, S op → S' op) : s.Issues S' := by
  induction s with
  | halt r => trivial
  | call op next ih => exact ⟨h op hs.1, fun r => ih r (hs.2 r)⟩

/-! ## Programs that raise nothing of their own -/

/-- Where every operation answers, the program returns. -/
def Answered : Script ε Op Res α → Prop
  | halt r => ∃ a, r = .ok a
  | call _ next => ∀ a, (next (.ok a)).Answered

theorem Answered.bind {s : Script ε Op Res α} {f : α → Script ε Op Res β} (hs : s.Answered)
    (hf : ∀ a, (f a).Answered) : (s >>= f).Answered := by
  induction s with
  | halt r =>
    obtain ⟨a, rfl⟩ := hs
    exact hf a
  | call op next ih => exact fun a => ih _ (hs a)

theorem answered_pure (a : α) : (pure a : Script ε Op Res α).Answered := ⟨a, rfl⟩

theorem answered_perform (op : Op) : (perform op : Script ε Op Res _).Answered :=
  fun a => ⟨a, rfl⟩

/-! ## What a program knows when it calls -/

/-- A discipline on calls: what a caller must know to call an operation, what an answer adds to what
it knows, and which answers it can be given. -/
structure Discipline (ε Op : Type) (Res : Op → Type) (σ : Type) where
  pre : σ → Op → Prop
  learn : σ → (op : Op) → Except ε (Res op) → σ
  may : (op : Op) → Except ε (Res op) → Prop

section Upholds

variable {σ : Type} (D : Discipline ε Op Res σ)

/-- A program that knows `k` at its start calls only what it may, and ends with `Q` of what it knows
then and of its result. -/
def Upholds (Q : σ → Except ε α → Prop) : σ → Script ε Op Res α → Prop
  | k, halt r => Q k r
  | k, call op next => D.pre k op ∧ ∀ r, D.may op r → Upholds Q (D.learn k op r) (next r)

variable {D} {Q Q' : σ → Except ε α → Prop} {k : σ}

theorem Upholds.mono (hQ : ∀ k r, Q k r → Q' k r) {s : Script ε Op Res α}
    (h : s.Upholds D Q k) : s.Upholds D Q' k := by
  induction s generalizing k with
  | halt r => exact hQ k r h
  | call op next ih => exact ⟨h.1, fun r hr => ih r (h.2 r hr)⟩

theorem Upholds.bind {Q : σ → Except ε β → Prop} {s : Script ε Op Res α}
    {f : α → Script ε Op Res β}
    (h : s.Upholds D (fun k r => match r with
      | .ok a => (f a).Upholds D Q k
      | .error e => Q k (.error e)) k) : (s >>= f).Upholds D Q k := by
  induction s generalizing k with
  | halt r =>
    cases r with
    | ok a => exact h
    | error e => exact h
  | call op next ih => exact ⟨h.1, fun r hr => ih r (h.2 r hr)⟩

theorem Upholds.tryCatch {s : Script ε Op Res α} {f : ε → Script ε Op Res α}
    (h : s.Upholds D (fun k r => match r with
      | .ok a => Q k (.ok a)
      | .error e => (f e).Upholds D Q k) k) : (MonadExcept.tryCatch s f).Upholds D Q k := by
  induction s generalizing k with
  | halt r =>
    cases r with
    | ok a => exact h
    | error e => exact h
  | call op next ih => exact ⟨h.1, fun r hr => ih r (h.2 r hr)⟩

/-- A program of calls that need no knowledge keeps what knowledge never loses. -/
theorem Upholds.of_issues {I : σ → Prop} (hlearn : ∀ k op r, I k → I (D.learn k op r))
    (hpre : ∀ k op, S op → D.pre k op) {s : Script ε Op Res α} (hs : s.Issues S) (hk : I k) :
    s.Upholds D (fun k _ => I k) k := by
  induction s generalizing k with
  | halt r => exact hk
  | call op next ih => exact ⟨hpre k op hs.1, fun r _ => ih r (hs.2 r) (hlearn k op r hk)⟩

end Upholds

end Script

end Async
