import QuantproCollector.Lib.Knowledge
import QuantproCollector.PromptRelease.Effect

/-!
# Two promotions at once

What a run knows when it replaces the control file (`Phase`): the two texts it read, and that the file was
still the first of them when it was compared. A run that fails has replaced nothing. The comparison covers
every change that the other run makes before it, also one between the two readings: the other run replaces
the file once, so a file that has changed since the first reading stays changed. What it does not cover is a
replacement after it (`Undisturbed`); without one, a run replaces the very file it read.
-/

namespace QuantproCollector.PromptRelease
open Async

abbrev PromoteCall : Type := Call Op World Choice

/-! ## Calls that replace the file -/

/-- The call has replaced the file. -/
def Replaces (k : PromoteCall) : Prop :=
  (∃ text, k.op = .replaceControl text) ∧ k.choice.fault = none

instance decidableReplaces (k : PromoteCall) : Decidable (Replaces k) :=
  match h : k.op with
  | .replaceControl text => decidable_of_iff (k.choice.fault = none)
      ⟨fun hfault => ⟨⟨text, h⟩, hfault⟩, fun hk => hk.2⟩
  | .readControl | .compareControl _ | .compileAll _ _ | .emit | .writeReceipt =>
    isFalse fun ⟨⟨text, hop⟩, _⟩ => by
      rw [h] at hop
      cases hop

def Replaced (t : ℕ) (log : List PromoteCall) : Prop :=
  ∃ k ∈ log, k.thread = t ∧ Replaces k

/-- The call is a comparison of its thread. -/
def compares (t : ℕ) (k : PromoteCall) : Bool :=
  decide (k.thread = t) && match k.op with
    | .compareControl _ => true
    | _ => false

/-- The calls since the last comparison of a thread. -/
def sinceCompare (t : ℕ) (log : List PromoteCall) : List PromoteCall :=
  log.takeWhile fun k => !compares t k

/-- The readings of a thread found one of these texts. -/
def ReadsOnly (t : ℕ) (texts : List World) (log : List PromoteCall) : Prop :=
  ∀ j ∈ log, j.thread = t → j.op = .readControl → j.choice.fault = none → j.before ∈ texts

section Calls

variable {t u : ℕ} {k : PromoteCall} {log : List PromoteCall} {ch : Choice} {op : Op} {w : World}
  {texts : List World} {text : List Char}

theorem perform_quiet (h : ¬ Replaces ⟨t, op, ch, w⟩) : (files.perform ch op w).2 = w := by
  cases hfault : ch.fault with
  | some e => simp only [files, hfault]
  | none =>
    simp only [files, hfault]
    cases op with
    | replaceControl text => exact absurd ⟨⟨text, rfl⟩, hfault⟩ h
    | _ => rfl

theorem after_of_not_replaces (h : ¬ Replaces k) : files.after k = k.before :=
  perform_quiet h

theorem perform_fault {e : String} (h : ch.fault = some e) : files.perform ch op w = (.error e, w) := by
  simp [files, h]

theorem replaced_cons : Replaced t (k :: log) ↔ (k.thread = t ∧ Replaces k) ∨ Replaced t log := by
  simp [Replaced]

theorem replaced_cons_quiet (h : ¬ Replaces k) : Replaced t (k :: log) ↔ Replaced t log := by
  rw [replaced_cons]
  exact ⟨fun hor => hor.resolve_left fun hk => h hk.2, .inr⟩

theorem sinceCompare_cons (h : compares t k = false) :
    sinceCompare t (k :: log) = k :: sinceCompare t log := by
  simp [sinceCompare, h]

theorem readsOnly_cons (hk : k.thread = t → k.op = .readControl → k.choice.fault = none → k.before ∈ texts)
    (h : ReadsOnly t texts log) : ReadsOnly t texts (k :: log) :=
  List.forall_mem_cons.2 ⟨hk, h⟩

theorem ReadsOnly.mono {texts' : List World} (h : ReadsOnly t texts log) (hsub : texts ⊆ texts') :
    ReadsOnly t texts' log :=
  fun j hj ht hop hfault => hsub (h j hj ht hop hfault)

end Calls

/-! ## What a run knows -/

/-- Where a run is: with nothing to do, before its readings, after one and after both, with the comparison
made, and with the file replaced. -/
inductive Phase where
  | idle
  | unread
  | once (original : World)
  | twice (original text : World)
  | compared (original text : World)
  | replaced

structure Knows where
  args : Args
  phase : Phase

section Discipline

variable (P : Python)

def Knows.may (κ : Knows) : Op → Prop
  | .readControl => κ.phase = .unread ∨ ∃ x, κ.phase = .once x
  | .compareControl x => ∃ y, κ.phase = .twice x y
  | .replaceControl new => ∃ x y, κ.phase = .compared x y ∧ Promotes P κ.args y new
  | .compileAll _ _ | .emit | .writeReceipt => κ.phase ≠ .idle

def Phase.learn : Phase → (op : Op) → Except String op.Res → Phase
  | .unread, .readControl, .ok x => .once x
  | .once x, .readControl, .ok y => .twice x y
  | .twice x y, .compareControl _, .ok true => .compared x y
  | .compared _ _, .replaceControl _, .ok () => .replaced
  | φ, _, _ => φ

/-- The compiled prompts are those of the selection. -/
def Compiled : (op : Op) → Except String op.Res → Prop
  | .compileAll ref keys, .ok m => ∃ compiled, compile_all ref keys compiled = .ok m
  | _, _ => True

def discipline : Script.Discipline String Op Op.Res Knows where
  pre κ op := κ.may P op
  learn κ op r := { κ with phase := κ.phase.learn op r }
  may := Compiled

end Discipline

/-- What the phase of a run says of the calls so far and the file. -/
def Meaning (t : ℕ) (log : List PromoteCall) (w : World) : Phase → Prop
  | .idle => ¬ Replaced t log
  | .unread => t < 2 ∧ ¬ Replaced t log ∧ ReadsOnly t [] log
  | .once x => t < 2 ∧ ¬ Replaced t log ∧ ReadsOnly t [x] log ∧ (w = x ∨ Replaced (1 - t) log)
  | .twice x y => t < 2 ∧ ¬ Replaced t log ∧ ReadsOnly t [x, y] log ∧
      (x = y ∧ (w = x ∨ Replaced (1 - t) log) ∨ Replaced (1 - t) log ∧ w = y)
  | .compared x y => t < 2 ∧ ¬ Replaced t log ∧ ReadsOnly t [x, y] log ∧ x = y ∧
      (w = x ∨ ∃ j ∈ sinceCompare t log, Replaces j)
  | .replaced => t < 2 ∧ Replaced t log

/-- The knowledge of thread `t` is true. -/
def Holds (args : ℕ → Args) (t : ℕ) (κ : Knows) (log : List PromoteCall) (w : World) : Prop :=
  κ.args = args t ∧ Meaning t log w κ.phase

section Soundness

variable {P : Python} {t u : ℕ} {κ κ' : Knows} {ch : Choice} {op : Op} {log : List PromoteCall} {w : World}
  {φ : Phase} {k : PromoteCall}

/-- A call that replaces nothing, and is no reading or comparison of the thread, leaves its knowledge true. -/
theorem meaning_quiet (h : Meaning t log w φ) (hk : ¬ Replaces k)
    (hreads : k.thread = t → k.op = .readControl → k.choice.fault ≠ none)
    (hcompares : (∃ x y, φ = .compared x y) → compares t k = false) : Meaning t (k :: log) w φ := by
  have hread : ∀ texts, ReadsOnly t texts log → ReadsOnly t texts (k :: log) :=
    fun texts => readsOnly_cons fun ht hop hfault => absurd hfault (hreads ht hop)
  cases φ with
  | idle => exact mt (replaced_cons_quiet hk).1 h
  | unread => exact ⟨h.1, mt (replaced_cons_quiet hk).1 h.2.1, hread _ h.2.2⟩
  | once x =>
    obtain ⟨ht, hnot, hr, hw⟩ := h
    exact ⟨ht, mt (replaced_cons_quiet hk).1 hnot, hread _ hr, hw.imp_right (replaced_cons_quiet hk).2⟩
  | twice x y =>
    obtain ⟨ht, hnot, hr, hw⟩ := h
    refine ⟨ht, mt (replaced_cons_quiet hk).1 hnot, hread _ hr, hw.imp ?_ ?_⟩
    · exact fun hx => ⟨hx.1, hx.2.imp_right (replaced_cons_quiet hk).2⟩
    · exact fun hy => ⟨(replaced_cons_quiet hk).2 hy.1, hy.2⟩
  | compared x y =>
    obtain ⟨ht, hnot, hr, hxy, hw⟩ := h
    refine ⟨ht, mt (replaced_cons_quiet hk).1 hnot, hread _ hr, hxy, hw.imp_right ?_⟩
    rintro ⟨j, hj, hrep⟩
    rw [sinceCompare_cons (hcompares ⟨x, y, rfl⟩)]
    exact ⟨j, List.mem_cons_of_mem _ hj, hrep⟩
  | replaced => exact ⟨h.1, (replaced_cons_quiet hk).2 h.2⟩

theorem Meaning.not_replaced (h : Meaning t log w φ) (hφ : φ ≠ .replaced) : ¬ Replaced t log := by
  cases φ with
  | idle => exact h
  | unread => exact h.2.1
  | once x => exact h.2.1
  | twice x y => exact h.2.1
  | compared x y => exact h.2.1
  | replaced => exact absurd rfl hφ

/-- A replacement by the other run leaves the knowledge of a run true: it is the only one. -/
theorem meaning_other (h : Meaning t log w φ) (hne : u ≠ t) (hu : u < 2) (hnot : ¬ Replaced u log)
    (hk : Replaces k) (hthread : k.thread = u) (w' : World) : Meaning t (k :: log) w' φ := by
  have hown : ¬ Replaced t log → ¬ Replaced t (k :: log) := by
    rw [replaced_cons, hthread]
    exact fun hn => not_or.2 ⟨fun hor => hne hor.1, hn⟩
  have hread : ∀ texts, ReadsOnly t texts log → ReadsOnly t texts (k :: log) :=
    fun texts => readsOnly_cons fun ht => absurd (hthread.symm.trans ht) hne
  have hother : t < 2 → Replaced (1 - t) (k :: log) := fun ht =>
    replaced_cons.2 (.inl ⟨by omega, hk⟩)
  cases φ with
  | idle => exact hown h
  | unread => exact ⟨h.1, hown h.2.1, hread _ h.2.2⟩
  | once x =>
    obtain ⟨ht, hn, hr, -⟩ := h
    exact ⟨ht, hown hn, hread _ hr, .inr (hother ht)⟩
  | twice x y =>
    obtain ⟨ht, hn, hr, hw⟩ := h
    refine ⟨ht, hown hn, hread _ hr, .inl ?_⟩
    rcases hw with ⟨hxy, -⟩ | ⟨hrep, -⟩
    · exact ⟨hxy, .inr (hother ht)⟩
    · rw [show 1 - t = u from by omega] at hrep
      exact absurd hrep hnot
  | compared x y =>
    obtain ⟨ht, hn, hr, hxy, -⟩ := h
    refine ⟨ht, hown hn, hread _ hr, hxy, .inr ⟨k, ?_, hk⟩⟩
    rw [sinceCompare_cons (by simp [compares, hthread, hne])]
    exact List.mem_cons_self
  | replaced => exact ⟨h.1, replaced_cons.2 (.inr h.2)⟩

@[simp] theorem learn_error (φ : Phase) (op : Op) (e : String) : φ.learn op (.error e) = φ := by
  cases φ <;> cases op <;> rfl

/-- What a run knows allows no comparison after the one that has made it ready. -/
theorem compares_of_may (h : κ.may P op) (hφ : ∃ x y, κ.phase = .compared x y) :
    compares t ⟨t, op, ch, w⟩ = false := by
  obtain ⟨x, y, hφ⟩ := hφ
  cases op with
  | compareControl z =>
    obtain ⟨y', h⟩ := h
    rw [hφ] at h
    cases h
  | _ => simp [compares]

/-- The calls that do not touch the control file. -/
def Op.Unrelated : Op → Prop
  | .compileAll _ _ | .emit | .writeReceipt => True
  | _ => False

theorem learn_unrelated (h : op.Unrelated) (φ : Phase) (r : Except String op.Res) : φ.learn op r = φ := by
  cases op with
  | compileAll ref keys => cases φ <;> rfl
  | emit => cases φ <;> rfl
  | writeReceipt => cases φ <;> rfl
  | _ => exact absurd h id

theorem meaning_unrelated (hm : Meaning t log w φ) (h : op.Unrelated) :
    Meaning t (⟨t, op, ch, w⟩ :: log) w φ := by
  refine meaning_quiet hm ?_ (fun _ hop _ => ?_) fun _ => ?_
  · rintro ⟨⟨text, hop⟩, -⟩
    obtain rfl : op = .replaceControl text := hop
    exact h
  · obtain rfl : op = .readControl := hop
    exact h
  · cases op with
    | compareControl x => exact absurd h id
    | _ => simp [compares]

theorem not_replaces_of_ne (h : ∀ text, op ≠ .replaceControl text) :
    ¬ Replaces (⟨t, op, ch, w⟩ : PromoteCall) := by
  rintro ⟨⟨text, hop⟩, -⟩
  exact h text hop

theorem meaning_first_reading (hm : Meaning t log w .unread) :
    Meaning t (⟨t, .readControl, ch, w⟩ :: log) w (.once w) := by
  obtain ⟨ht, hnot, hr⟩ := hm
  refine ⟨ht, mt (replaced_cons_quiet (not_replaces_of_ne fun _ => by simp)).1 hnot, ?_, .inl rfl⟩
  exact readsOnly_cons (fun _ _ _ => List.mem_singleton_self w) (hr.mono (List.nil_subset _))

/-- If the file has changed between the two readings, the other run has replaced it, and will not do so
again. -/
theorem meaning_second_reading {x : World} (hm : Meaning t log w (.once x)) :
    Meaning t (⟨t, .readControl, ch, w⟩ :: log) w (.twice x w) := by
  obtain ⟨ht, hnot, hr, hw⟩ := hm
  have hquiet : ¬ Replaces (⟨t, .readControl, ch, w⟩ : PromoteCall) := not_replaces_of_ne fun _ => by simp
  refine ⟨ht, mt (replaced_cons_quiet hquiet).1 hnot,
    readsOnly_cons (fun _ _ _ => by simp) (hr.mono (by simp)), ?_⟩
  rcases hw with hw | hrep
  · exact .inl ⟨hw.symm, .inl hw⟩
  · exact .inr ⟨(replaced_cons_quiet hquiet).2 hrep, rfl⟩

/-- A file that is found as it was read first is also as it was read second. -/
theorem meaning_comparison {y : World} (hm : Meaning t log w (.twice w y)) :
    Meaning t (⟨t, .compareControl w, ch, w⟩ :: log) w (.compared w y) := by
  obtain ⟨ht, hnot, hr, hw⟩ := hm
  refine ⟨ht, mt (replaced_cons_quiet (not_replaces_of_ne fun _ => by simp)).1 hnot,
    readsOnly_cons (fun _ hop => by cases hop) hr, ?_, .inl rfl⟩
  rcases hw with ⟨hxy, -⟩ | ⟨-, hy⟩
  · exact hxy
  · exact hy

theorem meaning_learn (hm : Meaning t log w κ.phase) (hpre : κ.may P op) :
    Meaning t (⟨t, op, ch, w⟩ :: log) (files.perform ch op w).2
      (κ.phase.learn op (files.perform ch op w).1) := by
  cases hfault : ch.fault with
  | some e =>
    rw [perform_fault hfault, learn_error]
    refine meaning_quiet hm (fun h => ?_) (fun _ _ h => ?_) (compares_of_may hpre)
    · cases hfault.symm.trans h.2
    · cases hfault.symm.trans h
  | none =>
    simp only [files, hfault]
    cases op with
    | readControl =>
      rcases hpre with hφ | ⟨x, hφ⟩ <;> rw [hφ] at hm ⊢
      · exact meaning_first_reading hm
      · exact meaning_second_reading hm
    | compareControl z =>
      obtain ⟨y, hφ⟩ := hpre
      by_cases hz : w = z
      · subst hz
        rw [hφ] at hm ⊢
        simp only [answer, decide_true]
        exact meaning_comparison hm
      · have hlearn : κ.phase.learn (.compareControl z) (answer ch w (.compareControl z)) = κ.phase := by
          rw [hφ]
          simp only [answer, hz, decide_false]
          rfl
        rw [hlearn]
        exact meaning_quiet hm (not_replaces_of_ne fun _ => by simp) (fun _ hop => by cases hop)
          (compares_of_may (P := P) ⟨y, hφ⟩)
    | replaceControl new =>
      obtain ⟨x, y, hφ, -⟩ := hpre
      rw [hφ] at hm ⊢
      exact ⟨hm.1, replaced_cons.2 (.inl ⟨rfl, ⟨new, rfl⟩, hfault⟩)⟩
    | compileAll ref keys =>
      rw [learn_unrelated (by trivial)]
      exact meaning_unrelated hm (by trivial)
    | emit =>
      rw [learn_unrelated (by trivial)]
      exact meaning_unrelated hm (by trivial)
    | writeReceipt =>
      rw [learn_unrelated (by trivial)]
      exact meaning_unrelated hm (by trivial)

theorem sound_promotions (P : Python) (args : ℕ → Args) : files.Sound (discipline P) (Holds args) where
  may t κ ch op log w _ _ := by
    cases op with
    | compileAll ref keys =>
      cases hfault : ch.fault with
      | some e => simp [files, hfault, discipline, Compiled]
      | none =>
        simp only [files, hfault, discipline, answer]
        cases hc : compile_all ref keys ch.compiled with
        | error e => trivial
        | ok m => exact ⟨_, hc⟩
    | _ => cases hfault : ch.fault <;> simp [files, hfault, discipline, Compiled]
  learn t κ ch op log w hT hpre := ⟨hT.1, meaning_learn hT.2 hpre⟩
  frame t u κ κ' ch op log w hne hT hT' hpre := by
    refine ⟨hT.1, ?_⟩
    by_cases hrep : Replaces (⟨u, op, ch, w⟩ : PromoteCall)
    · obtain ⟨⟨text, hop⟩, -⟩ := id hrep
      obtain rfl : op = .replaceControl text := hop
      obtain ⟨x, y, hφ, -⟩ := hpre
      have hm := hT'.2
      rw [hφ] at hm
      exact meaning_other hT.2 hne hm.1 hm.2.1 hrep rfl _
    · rw [perform_quiet hrep]
      exact meaning_quiet hT.2 hrep (fun h => absurd h hne) (fun _ => by simp [compares, hne])

end Soundness

/-! ## The program of a run -/

section Program

variable {P : Python} {a : Args} {φ : Phase} {α β : Type}

/-- A run ends with the file replaced exactly where it reports so. -/
def Ends (a : Args) (κ : Knows) (r : Except String Status) : Prop :=
  κ.args = a ∧ (κ.phase = .replaced ↔ r = .ok .VERIFIED)

theorem upholds_lift {Q : Knows → Except String β → Prop} {κ : Knows} {r : Except String α}
    {f : α → Program β} (herror : ∀ e, Q κ (.error e))
    (hok : ∀ x, r = .ok x → (f x).Upholds (discipline P) Q κ) :
    (lift r >>= f).Upholds (discipline P) Q κ := by
  cases r with
  | error e => exact herror e
  | ok x => exact hok x rfl

theorem upholds_perform {Q : Knows → Except String β → Prop} {κ : Knows} {op : Op} {f : op.Res → Program β}
    (hpre : κ.may P op) (herror : ∀ e, Q κ (.error e))
    (hok : ∀ x, Compiled op (.ok x) →
      (f x).Upholds (discipline P) Q { κ with phase := κ.phase.learn op (.ok x) }) :
    (Script.perform op >>= f).Upholds (discipline P) Q κ := by
  rw [Script.perform_bind]
  refine ⟨hpre, fun r hr => ?_⟩
  cases r with
  | error e =>
    show Q { κ with phase := κ.phase.learn op (.error e) } (.error e)
    rw [learn_error]
    exact herror e
  | ok x => exact hok x hr

theorem upholds_whenOut {Q : Knows → Except String β → Prop} {κ : Knows} {s : Program Unit}
    {f : Unit → Program β} (hs : (s >>= f).Upholds (discipline P) Q κ)
    (hok : (f ()).Upholds (discipline P) Q κ) : (whenOut a s >>= f).Upholds (discipline P) Q κ := by
  unfold whenOut
  split_ifs
  · exact hs
  · exact hok

/-- A call that does not touch the control file teaches nothing. -/
theorem upholds_unrelated {Q : Knows → Except String β → Prop} {κ : Knows} {op : Op} (hop : op.Unrelated)
    {f : op.Res → Program β} (hidle : κ.phase ≠ .idle) (herror : ∀ e, Q κ (.error e))
    (hok : ∀ x, Compiled op (.ok x) → (f x).Upholds (discipline P) Q κ) :
    (Script.perform op >>= f).Upholds (discipline P) Q κ := by
  refine upholds_perform ?_ herror fun x hx => ?_
  · cases op with
    | compileAll ref keys => exact hidle
    | emit => exact hidle
    | writeReceipt => exact hidle
    | _ => exact absurd hop id
  · rw [learn_unrelated hop]
    exact hok x hx

theorem ends_error (hφ : φ ≠ .replaced) (e : String) : Ends a ⟨a, φ⟩ (.error e) :=
  ⟨rfl, fun h => absurd h hφ, fun h => by cases h⟩

theorem applyManifest_upholds {original text : World} {control : Json} {manifest : Manifest}
    {prompts : List (String × String)} (hcontrol : read_control P text = .ok control)
    (hcompiled : ∃ compiled, compile_all a.ref a.keys compiled = .ok (manifest, prompts))
    (hvalid : (manifest.registry.forM fun e => validateEntry P control e.1 e.2) = .ok ()) :
    (applyManifest P a original control manifest prompts).Upholds (discipline P) (Ends a)
      ⟨a, .twice original text⟩ := by
  refine upholds_lift (ends_error (by simp)) fun receipt hreceipt => ?_
  refine upholds_lift (ends_error (by simp)) fun updated hupdated => ?_
  refine upholds_perform ⟨text, rfl⟩ (ends_error (by simp)) fun same _ => ?_
  cases same with
  | false => exact ends_error (by simp [Phase.learn]) _
  | true =>
    refine upholds_lift (ends_error (by simp [Phase.learn])) fun _ _ => ?_
    obtain ⟨compiled, hcompiled⟩ := hcompiled
    have hreplace : (replaceControl (P.dumps updated) >>= fun _ => (pure .VERIFIED : Program Status)).Upholds
        (discipline P) (Ends a) ⟨a, .compared original text⟩ := by
      refine upholds_perform ⟨original, text, rfl, control, compiled, manifest, prompts, receipt, updated,
        hcontrol, hcompiled, hvalid, hreceipt, hupdated, rfl⟩ (ends_error (by simp)) fun _ _ => ?_
      exact ⟨rfl, fun _ => rfl, fun _ => rfl⟩
    refine upholds_whenOut ?_ hreplace
    exact upholds_unrelated (by trivial) (by simp [Phase.learn]) (ends_error (by simp [Phase.learn]))
      fun _ _ => hreplace

theorem promote_upholds (P : Python) (a : Args) :
    (promote P a).Upholds (discipline P) (Ends a) ⟨a, .unread⟩ := by
  refine upholds_lift (ends_error (by simp)) fun _ _ => ?_
  refine upholds_perform (.inl rfl) (ends_error (by simp)) fun original _ => ?_
  refine upholds_perform (.inr ⟨original, rfl⟩) (ends_error (by simp [Phase.learn])) fun text _ => ?_
  refine upholds_lift (ends_error (by simp [Phase.learn])) fun control hcontrol => ?_
  refine upholds_unrelated (by trivial) (by simp [Phase.learn]) (ends_error (by simp [Phase.learn]))
    fun compiled hcompiled => ?_
  refine upholds_lift (ends_error (by simp [Phase.learn])) fun _ hvalid => ?_
  have hrest : (if a.apply then applyManifest P a original control compiled.1 compiled.2
      else pure Status.PREPARED).Upholds (discipline P) (Ends a) ⟨a, .twice original text⟩ := by
    split_ifs
    · exact applyManifest_upholds hcontrol hcompiled hvalid
    · exact ⟨rfl, ⟨fun h => (by cases h), fun h => (by cases h)⟩⟩
  refine upholds_whenOut ?_ hrest
  exact upholds_unrelated (by trivial) (by simp [Phase.learn]) (ends_error (by simp [Phase.learn]))
    fun _ _ => hrest

end Program

/-! ## Runs of two promotions -/

section Runs

variable {P : Python} {a₀ a₁ : Args} {w : World} {t : ℕ}

/-- The arguments of the two runs. -/
def argsOf (a₀ a₁ : Args) (t : ℕ) : Args :=
  if t = 0 then a₀ else a₁

/-- Two promotions; no other thread has anything to do. -/
def promotions (P : Python) (a₀ a₁ : Args) (t : ℕ) : Program Status :=
  if t < 2 then promote P (argsOf a₀ a₁ t) else pure .PREPARED

/-- The state that a run of two promotions reaches from a control file. -/
def runOf (P : Python) (a₀ a₁ : Args) (w : World) (es : List (ℕ × Choice)) :
    Config String Op Op.Res World Choice Status :=
  files.exec (Config.start w (promotions P a₀ a₁)) es

/-- No file is replaced between the comparison of another run and its replacement. -/
def Undisturbed (log : List PromoteCall) : Prop :=
  Along (fun past k => Replaces k → ∀ j ∈ sinceCompare k.thread past, ¬ Replaces j) log

/-- How a run ends: with the file replaced exactly where it reports so, or with nothing to do. -/
def EndsWell (a₀ a₁ : Args) (t : ℕ) (κ : Knows) (r : Except String Status) : Prop :=
  if t < 2 then Ends (argsOf a₀ a₁ t) κ r else r = .ok .PREPARED ∧ κ.phase = .idle

theorem informed_promotions (P : Python) (a₀ a₁ : Args) (w : World) (es : List (ℕ × Choice)) :
    Machine.Informed (discipline P) (EndsWell a₀ a₁) (Holds (argsOf a₀ a₁)) (runOf P a₀ a₁ w es) := by
  refine Machine.informed_exec (sound_promotions P (argsOf a₀ a₁)) (Machine.informed_start
    (fun t => if t < 2 then ⟨argsOf a₀ a₁ t, .unread⟩ else ⟨argsOf a₀ a₁ t, .idle⟩)
    (fun t => ?_) fun t => ?_) es
  · unfold promotions
    by_cases ht : t < 2
    · simp only [if_pos ht]
      exact (promote_upholds P _).mono fun κ r h => by rwa [EndsWell, if_pos ht]
    · simp only [if_neg ht]
      show EndsWell a₀ a₁ t _ _
      rw [EndsWell, if_neg ht]
      exact ⟨rfl, rfl⟩
  · by_cases ht : t < 2
    · simp only [if_pos ht]
      exact ⟨rfl, ht, by simp [Replaced], List.forall_mem_nil _⟩
    · simp only [if_neg ht]
      exact ⟨rfl, by simp [Replaced, Meaning]⟩

/-- A run that ends with an error has left the file as every one of its calls found it. -/
theorem failed_unchanged {es : List (ℕ × Choice)} {e : String}
    (h : (runOf P a₀ a₁ w es).result? t = some (.error e)) :
    ∀ k ∈ (runOf P a₀ a₁ w es).log, k.thread = t → files.after k = k.before := by
  obtain ⟨κ, hends, hholds⟩ := (informed_promotions P a₀ a₁ w es).known t
  rw [Config.result?_eq_some.1 h] at hends
  have hphase : κ.phase ≠ .replaced := by
    intro hφ
    replace hends : EndsWell a₀ a₁ t κ (.error e) := hends
    unfold EndsWell at hends
    split_ifs at hends
    · cases hends.2.1 hφ
    · cases hends.1
  intro k hk ht
  refine after_of_not_replaces fun hrep => ?_
  exact hholds.2.not_replaced hphase ⟨k, hk, ht, hrep⟩

/-- A run that reports success has replaced the file. -/
theorem verified_replaced {es : List (ℕ × Choice)}
    (h : (runOf P a₀ a₁ w es).result? t = some (.ok .VERIFIED)) :
    Replaced t (runOf P a₀ a₁ w es).log := by
  obtain ⟨κ, hends, hholds⟩ := (informed_promotions P a₀ a₁ w es).known t
  rw [Config.result?_eq_some.1 h] at hends
  replace hends : EndsWell a₀ a₁ t κ (.ok .VERIFIED) := hends
  unfold EndsWell at hends
  split_ifs at hends
  · have hm := hholds.2
    rw [hends.2.2 rfl] at hm
    exact hm.2
  · cases hends.1

/-- What a run knew when it replaced the file. -/
theorem replacement_known {es : List (ℕ × Choice)} {past later : List PromoteCall} {k : PromoteCall}
    {new : List Char} (hlog : (runOf P a₀ a₁ w es).log = later ++ k :: past)
    (hop : k.op = .replaceControl new)
    (hundisturbed : Undisturbed (runOf P a₀ a₁ w es).log) (hrep : Replaces k) :
    ReadsOnly k.thread [k.before] past ∧ Promotes P (argsOf a₀ a₁ k.thread) k.before new := by
  have hcalls := (informed_promotions P a₀ a₁ w es).calls
  rw [hlog] at hcalls
  rw [Undisturbed, hlog] at hundisturbed
  obtain ⟨κ, ⟨hargs, hm⟩, hpre⟩ := (along_cons.1 hcalls.of_append).1
  have hquiet := (along_cons.1 hundisturbed.of_append).1 hrep
  obtain ⟨thread, op, ch, before⟩ := k
  obtain rfl : op = .replaceControl new := hop
  obtain ⟨x, y, hφ, hpromotes⟩ := hpre
  rw [hφ] at hm
  obtain ⟨-, -, hreads, rfl, hw⟩ := hm
  obtain rfl : before = x := hw.resolve_right fun ⟨j, hj, hjrep⟩ => hquiet j hj hjrep
  rw [hargs] at hpromotes
  exact ⟨hreads.mono (by simp), hpromotes⟩

/-- The file that a run replaces is the one it has read, and of this file it changes only the entries that it
selects and has verified. -/
def KeepsUpdates (P : Python) (a₀ a₁ : Args) (log : List PromoteCall) : Prop :=
  ∀ past later k new, log = later ++ k :: past → k.op = .replaceControl new → k.choice.fault = none →
    ReadsOnly k.thread [k.before] past ∧ Changes P (argsOf a₀ a₁ k.thread) k.before new

/-- **Two promotions.** A run that fails leaves the file as it is; one that reports success has replaced it;
and where no file is replaced between the comparison of another run and its replacement, no run undoes an
update. -/
theorem promotions_keep_updates (P : Python) (a₀ a₁ : Args) (w : World) (es : List (ℕ × Choice)) :
    (∀ t e, (runOf P a₀ a₁ w es).result? t = some (.error e) →
        ∀ k ∈ (runOf P a₀ a₁ w es).log, k.thread = t → files.after k = k.before) ∧
      (∀ t, (runOf P a₀ a₁ w es).result? t = some (.ok .VERIFIED) →
        Replaced t (runOf P a₀ a₁ w es).log) ∧
      (Undisturbed (runOf P a₀ a₁ w es).log → KeepsUpdates P a₀ a₁ (runOf P a₀ a₁ w es).log) := by
  refine ⟨fun t e h => failed_unchanged h, fun t h => verified_replaced h,
    fun hundisturbed past later k new hlog hop hfault => ?_⟩
  obtain ⟨hreads, hpromotes⟩ := replacement_known hlog hop hundisturbed ⟨⟨new, hop⟩, hfault⟩
  exact ⟨hreads, promotes_changes hpromotes⟩

/-! ## An update that is lost -/

/-- The last call replaces another file than its run has read. -/
def replacesUnread : List PromoteCall → Bool
  | ⟨t, .replaceControl _, ch, before⟩ :: past => ch.fault.isNone && past.any fun j =>
      decide (j.thread = t) && decide (j.op = .readControl) && j.choice.fault.isNone &&
        decide (j.before ≠ before)
  | _ => false

theorem not_keepsUpdates {log : List PromoteCall} (h : replacesUnread log = true) :
    ¬ KeepsUpdates P a₀ a₁ log := by
  intro hkeeps
  unfold replacesUnread at h
  split at h
  · rename_i t new ch before past
    simp only [Bool.and_eq_true, List.any_eq_true, decide_eq_true_eq, Option.isNone_iff_eq_none] at h
    obtain ⟨hfault, j, hj, ⟨⟨ht, hop⟩, hjfault⟩, hne⟩ := h
    have hreads := (hkeeps past [] ⟨t, .replaceControl new, ch, before⟩ new rfl rfl hfault).1
    exact hne (List.mem_singleton.1 (hreads j hj ht hop hjfault))
  · cases h

/-- JSON as Python reads and writes it, for texts and truth values. -/
def plainPython : Python where
  loads text :=
    match Json.parse text with
    | some value => .ok value
    | none => .error "JSONDecodeError"
  dumps value := value.pretty ++ ['\n']
  digest text := text
  eq := (· == ·)
  sameType := (· == ·)

def plainEntry (key : String) : Json :=
  .obj [("prompt_id", .str key), ("write_scope", .str "READ_ONLY"), ("mode", .null),
    ("production_ref", .str "r0")]

def plainControl : Json :=
  .obj [("status", .str "PRODUCTION"), ("registry",
    .obj [("central-policy", plainEntry "central-policy"), ("company-facts", plainEntry "company-facts")])]

def plainSnapshot : Json :=
  .obj [("id", .str "1"), ("title", .str "t"), ("schedule", .str "s"), ("is_enabled", .bool true),
    ("default_timezone", .str "z"), ("timing_mode", .str "m"), ("notifications_enabled", .bool true),
    ("email_enabled", .bool false), ("prompt", .str "p")]

def plainArgs (key : String) : Args :=
  ⟨"r1", some [key], true, plainSnapshot, plainSnapshot, false⟩

/-- No failure, and a prompt of one character for each key. -/
def plainChoice : Choice :=
  ⟨none, fun key => .ok (⟨key, "", "READ_ONLY", none, "1", [], [], 9, "", "p", 1, []⟩, "p")⟩

/-- The calls of two runs in the order of their threads. -/
def plainRun (threads : List ℕ) : Config String Op Op.Res World Choice Status :=
  runOf plainPython (plainArgs "central-policy") (plainArgs "company-facts") (plainPython.dumps plainControl)
    (threads.map fun t => (t, plainChoice))

/-- One run after the other. -/
theorem promotions_keep_updates_serial :
    KeepsUpdates plainPython (plainArgs "central-policy") (plainArgs "company-facts")
      (plainRun [0, 0, 0, 0, 0, 1, 1, 1, 1, 1]).log :=
  (promotions_keep_updates plainPython (plainArgs "central-policy") (plainArgs "company-facts")
    (plainPython.dumps plainControl) ([0, 0, 0, 0, 0, 1, 1, 1, 1, 1].map fun t => (t, plainChoice))).2.2
      (by unfold Undisturbed; decide +kernel)

def reportsSuccess : Option (Except String Status) → Bool
  | some (.ok .VERIFIED) => true
  | _ => false

/-- Both runs read and compare, then both replace: the second one replaces the file of the first, which it has
not read, and both report success. -/
theorem update_lost :
    reportsSuccess ((plainRun [0, 0, 0, 0, 1, 1, 1, 1, 0, 1]).result? 0) = true ∧
      reportsSuccess ((plainRun [0, 0, 0, 0, 1, 1, 1, 1, 0, 1]).result? 1) = true ∧
      ¬ KeepsUpdates plainPython (plainArgs "central-policy") (plainArgs "company-facts")
        (plainRun [0, 0, 0, 0, 1, 1, 1, 1, 0, 1]).log := by
  have hrun : reportsSuccess ((plainRun [0, 0, 0, 0, 1, 1, 1, 1, 0, 1]).result? 0) = true ∧
      reportsSuccess ((plainRun [0, 0, 0, 0, 1, 1, 1, 1, 0, 1]).result? 1) = true ∧
      replacesUnread (plainRun [0, 0, 0, 0, 1, 1, 1, 1, 0, 1]).log = true := by
    decide +kernel
  exact ⟨hrun.1, hrun.2.1, not_keepsUpdates hrun.2.2⟩

end Runs

end QuantproCollector.PromptRelease
