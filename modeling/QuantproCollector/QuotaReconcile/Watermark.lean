import QuantproCollector.Lib.Knowledge
import QuantproCollector.QuotaReconcile.Reconcile

/-!
# The watermark

A run writes the larger of the watermark that it read and of what it measured, by a statement that
overwrites what is stored. `watermark_monotone`: in every run of any number of reconciles, the stored
values never decrease, provided that nothing raises the watermark of a cycle between the read and the
write of a reconcile.
-/

namespace QuantproCollector.QuotaReconcile

open Relational Async

abbrev Log := List (Call Op World Choice)

/-! ## Order -/

/-- Every row is there with values that are no less. -/
def Raised (w w' : World) : Prop :=
  ∀ r ∈ w, ∃ r' ∈ w', r'.key = r.key ∧ r.used ≤ r'.used ∧
    r.unobserved_upper_bound ≤ r'.unobserved_upper_bound

theorem Raised.refl (w : World) : Raised w w :=
  fun r hr => ⟨r, hr, rfl, le_rfl, le_rfl⟩

theorem Raised.trans {u v w : World} (h₁ : Raised u v) (h₂ : Raised v w) : Raised u w := by
  intro r hr
  obtain ⟨r', hr', hkey, hused, htail⟩ := h₁ r hr
  obtain ⟨r'', hr'', hkey', hused', htail'⟩ := h₂ r' hr'
  exact ⟨r'', hr'', hkey'.trans hkey, hused.trans hused', htail.trans htail'⟩

instance (w w' : World) : Decidable (Raised w w') :=
  inferInstanceAs (Decidable (∀ r ∈ w.rows, ∃ r' ∈ w'.rows, r'.key = r.key ∧ r.used ≤ r'.used ∧
    r.unobserved_upper_bound ≤ r'.unobserved_upper_bound))

/-- The row is no less than what is stored under its key. -/
def Above (w : World) (row : BaselineRow) : Prop :=
  ∀ r ∈ w, r.key = row.key → r.used ≤ row.used ∧
    r.unobserved_upper_bound ≤ row.unobserved_upper_bound

theorem raised_upsertRow {w : World} {row : BaselineRow} (h : Above w row) :
    Raised w (upsertRow w row) := by
  intro r hr
  by_cases hkey : r.key = row.key
  · exact ⟨_, Table.mem_upsert.2 (.inr (.inl ⟨r, hr, hkey, rfl⟩)), rfl, h r hr hkey⟩
  · exact ⟨r, Table.mem_upsert.2 (.inl ⟨hr, hkey⟩), rfl, le_rfl, le_rfl⟩

/-- A row of another key stays above what is stored. -/
theorem above_upsertRow {w : World} {row row' : BaselineRow} (h : Above w row')
    (hne : row'.key ≠ row.key) : Above (upsertRow w row) row' := by
  intro r hr hkey
  rcases Table.mem_upsert.1 hr with ⟨hr, -⟩ | ⟨a, -, hak, rfl⟩ | ⟨rfl, -⟩
  · exact h r hr hkey
  · exact absurd (hkey.symm.trans hak) hne
  · exact absurd hkey.symm hne

theorem raised_upsertRows {rows : List BaselineRow} {w : World} (h : ∀ row ∈ rows, Above w row)
    (hkeys : (rows.map BaselineRow.key).Nodup) : Raised w (upsertRows w rows) := by
  induction rows generalizing w with
  | nil => exact .refl w
  | cons row rows ih =>
    obtain ⟨hrow, hrows⟩ := List.forall_mem_cons.1 h
    rw [List.map_cons, List.nodup_cons] at hkeys
    refine (raised_upsertRow hrow).trans (ih (fun row' hrow' => ?_) hkeys.2)
    refine above_upsertRow (hrows row' hrow') fun heq => hkeys.1 ?_
    exact List.mem_map.2 ⟨row', hrow', heq⟩

/-! ## What a reconcile knows -/

/-- Nothing, or the watermark of a cycle that it read. -/
inductive Known where
  | fresh
  | read (periodKey : String) (previous : List (String × ℤ × ℤ))

/-- The row is no less than the watermark that was read. -/
def Conservative (periodKey : String) (previous : List (String × ℤ × ℤ)) (row : BaselineRow) :
    Prop :=
  row.period_key = periodKey ∧ (previousOf previous row.dimension_key).1 ≤ row.used ∧
    (previousOf previous row.dimension_key).2 ≤ row.unobserved_upper_bound

/-- A reconcile writes no less than it has read. -/
def reconciling : Script.Discipline Thrown Op Res Known where
  pre κ op := match op with
    | .upsert periodKey rows => (rows.map BaselineRow.key).Nodup ∧
        ∃ previous, κ = .read periodKey previous ∧
          ∀ row ∈ rows, Conservative periodKey previous row
    | _ => True
  learn κ op r := match op, r with
    | .selectWatermark periodKey, .ok previous => .read periodKey previous
    | _, _ => κ
  may _ _ := True

/-- The thread read the watermark in the world of one of its calls. -/
def Known.Means (t : ℕ) : Known → Log → World → Prop
  | .fresh, _, _ => True
  | .read periodKey previous, log, _ => ∃ k ∈ log, k.thread = t ∧
      k.op = .selectWatermark periodKey ∧ previous = watermark k.before periodKey

theorem Known.Means.cons {t : ℕ} {κ : Known} {log : Log} {w w' : World} (h : κ.Means t log w)
    (k : Call Op World Choice) : κ.Means t (k :: log) w' := by
  cases κ with
  | fresh => trivial
  | read periodKey previous =>
    obtain ⟨k', hk', h⟩ := h
    exact ⟨k', List.mem_cons_of_mem _ hk', h⟩

theorem sound_reconciling : machine.Sound reconciling Known.Means where
  may _ _ _ _ _ _ _ _ := trivial
  frame _ _ _ _ _ _ _ _ _ h _ _ := h.cons _
  learn t κ ch op log w h _ := by
    cases op with
    | selectWatermark periodKey =>
      by_cases hf : ch.fault = .none
      · have hanswer : machine.perform ch (.selectWatermark periodKey) w =
            (.ok (watermark w periodKey), w) := by
          simp [machine, perform, Choice.reads, hf]
        rw [hanswer]
        exact ⟨_, List.mem_cons_self, rfl, rfl, rfl⟩
      · have hanswer : machine.perform ch (.selectWatermark periodKey) w =
            (.error transportFailed, w) := by
          simp [machine, perform, Choice.reads, hf]
        rw [hanswer]
        exact h.cons _
    | _ => exact h.cons _

/-! ## The program -/

/-- Requests that neither read nor write the watermark. -/
def quiet (op : Op) : Prop :=
  (∀ p, op ≠ .selectWatermark p) ∧ ∀ p rows, op ≠ .upsert p rows

theorem upholds_quiet {α : Type} {s : Program α} (hs : s.Issues quiet) (κ : Known) :
    s.Upholds reconciling (fun κ' _ => κ' = κ) κ := by
  refine Script.upholds_of_quiet (fun op hop => ?_) (fun op r hop => ?_) hs
  · cases op with
    | upsert p rows => exact absurd rfl (hop.2 p rows)
    | _ => trivial
  · cases op with
    | selectWatermark p => exact absurd rfl (hop.1 p)
    | _ => rfl

/-- What follows a quiet program. -/
theorem upholds_quiet_bind {α β : Type} {s : Program α} {f : α → Program β} {κ : Known}
    (hs : s.Issues quiet) (hf : ∀ a, (f a).Upholds reconciling (fun _ _ => True) κ) :
    (s >>= f).Upholds reconciling (fun _ _ => True) κ := by
  refine .bind ((upholds_quiet hs κ).mono fun κ' r hκ => ?_)
  subst hκ
  cases r with
  | ok a => exact hf a
  | error e => trivial

theorem issues_orRaise {α : Type} (t : Thrown) (a : Option α) : (orRaise t a).Issues quiet := by
  cases a with
  | none => trivial
  | some a => trivial

theorem issues_read_cycle_anchor : read_cycle_anchor.Issues quiet := by
  refine ⟨⟨by simp, by simp⟩, fun r => ?_⟩
  refine Script.Issues.bind (s := .halt r) trivial fun entries => ?_
  refine (issues_orRaise _ _).bind fun entries => ?_
  dsimp only
  split
  · trivial
  · trivial
  · trivial

theorem issues_gql (dataset : Dataset) (start now : String) :
    (gql dataset start now).Issues quiet := by
  refine Script.Issues.bind (Script.issues_perform.2 ⟨by simp, by simp⟩) fun rows => ?_
  exact issues_orRaise _ _

theorem issues_maxOf (f : MeterRow → ℤ) (rows : List MeterRow) : (maxOf f rows).Issues quiet := by
  cases rows with
  | nil => trivial
  | cons row rows => trivial

theorem issues_observe (P : Runtime) (cycle : Cycle) (now : String) :
    (observe P cycle now).Issues quiet := by
  unfold observe
  refine (issues_gql ..).bind fun workers => (issues_gql ..).bind fun analytics => ?_
  refine (issues_gql ..).bind fun queries => (issues_gql ..).bind fun d1 => ?_
  refine (issues_maxOf ..).bind fun d1Bytes => (issues_gql ..).bind fun kv => ?_
  refine (issues_gql ..).bind fun kvStored => (issues_maxOf ..).bind fun kvBytes => ?_
  refine (issues_gql ..).bind fun r2 => (issues_gql ..).bind fun r2Stored => ?_
  refine (issues_maxOf ..).bind fun r2Bytes => (issues_gql ..).bind fun vectorize => ?_
  refine (issues_orRaise ..).bind fun d1Storage => (issues_orRaise ..).bind fun kvStorage => ?_
  exact (issues_orRaise ..).bind fun r2Storage => trivial

section Rows

variable {P : Runtime} {cycle : Cycle} {now : String} {previous : List (String × ℤ × ℤ)}
  {observed : List (String × ℤ)}

/-- What a run computes is no less than what it read. -/
theorem le_computeRow {key : String} {fresh : ℤ} {c : Computed}
    (h : computeRow P cycle now previous key fresh = some c) : c.dimension_key = key ∧
      (previousOf previous key).1 ≤ c.used ∧
        (previousOf previous key).2 ≤ c.unobserved_upper_bound := by
  obtain ⟨ruleTail, -, h⟩ := Option.bind_eq_some_iff.1 h
  obtain rfl := Option.some.inj h
  exact ⟨rfl, le_max_left _ _, le_max_left _ _⟩

theorem le_computeRows {keys : List String} {rows : List Computed}
    (h : computeRows P cycle now previous observed keys = some rows) :
    (rows.map Computed.dimension_key).Sublist keys ∧
      ∀ c ∈ rows, (previousOf previous c.dimension_key).1 ≤ c.used ∧
        (previousOf previous c.dimension_key).2 ≤ c.unobserved_upper_bound := by
  induction keys generalizing rows with
  | nil =>
    obtain rfl := Option.some.inj h
    exact ⟨.slnil, by simp⟩
  | cons key keys ih =>
    rw [computeRows] at h
    split at h
    · obtain ⟨hsub, hall⟩ := ih h
      exact ⟨hsub.cons _, hall⟩
    · obtain ⟨c, hc, h⟩ := Option.bind_eq_some_iff.1 h
      obtain ⟨cs, hcs, h⟩ := Option.bind_eq_some_iff.1 h
      obtain rfl := Option.some.inj h
      obtain ⟨rfl, hle⟩ := le_computeRow hc
      obtain ⟨hsub, hall⟩ := ih hcs
      exact ⟨hsub.cons_cons _, List.forall_mem_cons.2 ⟨hle, hall⟩⟩

theorem nodup_DIMENSIONS : DIMENSIONS.Nodup := by decide

/-- The rows of a write satisfy what a write must. -/
theorem conservative_computeRows {rows : List Computed}
    (h : computeRows P cycle now previous observed DIMENSIONS = some rows) (periodKey : String) :
    ((rows.map (baselineRow periodKey now)).map BaselineRow.key).Nodup ∧
      ∀ row ∈ rows.map (baselineRow periodKey now), Conservative periodKey previous row := by
  obtain ⟨hsub, hall⟩ := le_computeRows h
  constructor
  · have hkeys : (rows.map (baselineRow periodKey now)).map BaselineRow.key =
        (rows.map Computed.dimension_key).map (·, periodKey) := by
      simp [baselineRow, BaselineRow.key]
    rw [hkeys]
    exact (hsub.nodup nodup_DIMENSIONS).map fun a b hab => (Prod.mk.inj hab).1
  · intro row hrow
    obtain ⟨c, hc, rfl⟩ := List.mem_map.1 hrow
    exact ⟨rfl, hall c hc⟩

end Rows

theorem build_upsert_cases (P : Runtime) (cycle : Cycle) (now : String)
    (previous : List (String × ℤ × ℤ)) (observed : List (String × ℤ)) :
    (∃ t, build_upsert P cycle now previous observed = .halt (.error t)) ∨
      ∃ rows, computeRows P cycle now previous observed DIMENSIONS = some rows ∧
        build_upsert P cycle now previous observed = .halt (.ok rows) := by
  unfold build_upsert
  cases isInstant now with
  | false => exact .inl ⟨_, rfl⟩
  | true =>
    cases isPeriodKey cycle.key with
    | false => exact .inl ⟨_, rfl⟩
    | true =>
      cases hrows : computeRows P cycle now previous observed DIMENSIONS with
      | none => exact .inl ⟨_, rfl⟩
      | some rows => exact .inr ⟨rows, rfl, rfl⟩

theorem upholds_reconcile (P : Runtime) (dryRun : Bool) :
    (reconcile P dryRun).Upholds reconciling (fun _ _ => True) .fresh := by
  unfold reconcile
  refine upholds_quiet_bind (Script.issues_perform.2 ⟨by simp, by simp⟩) fun now => ?_
  refine upholds_quiet_bind issues_read_cycle_anchor fun cycle => ?_
  refine upholds_quiet_bind (issues_orRaise _ _) fun within => ?_
  cases within with
  | false => trivial
  | true =>
    refine ⟨trivial, fun r _ => ?_⟩
    cases r with
    | error t => trivial
    | ok previous =>
      refine upholds_quiet_bind (s := observe P cycle now) (issues_observe ..) fun observed => ?_
      rcases build_upsert_cases P cycle now previous observed with ⟨t, ht⟩ | ⟨rows, hrows, hbuild⟩
      · rw [ht]
        trivial
      · rw [hbuild, Script.halt_ok_bind]
        by_cases hpartial : rows.length ≠ DIMENSIONS.length
        · rw [if_pos hpartial]
          trivial
        · rw [if_neg hpartial]
          cases dryRun with
          | true => trivial
          | false =>
            obtain ⟨hnodup, hconservative⟩ := conservative_computeRows hrows cycle.key
            refine ⟨⟨hnodup, previous, rfl, hconservative⟩, fun r _ => ?_⟩
            cases r with
            | error t => trivial
            | ok written =>
              refine ⟨trivial, fun r _ => ?_⟩
              cases r with
              | error t => trivial
              | ok bad =>
                change Script.Upholds reconciling _ _ (if bad ≠ 0 then throw _ else pure ())
                split_ifs
                · trivial
                · trivial

theorem upholds_main (P : Runtime) (hasToken dryRun : Bool) :
    (main P hasToken dryRun).Upholds reconciling (fun _ _ => True) .fresh := by
  cases hasToken with
  | false => trivial
  | true =>
    refine Script.Upholds.tryCatch (.bind ((upholds_reconcile P dryRun).mono fun κ r _ => ?_))
    cases r with
    | ok _ => trivial
    | error t => trivial

/-! ## Runs -/

/-- The cycle that the call writes. -/
def writtenPeriod (k : Call Op World Choice) : Option String :=
  match k.op with
  | .upsert periodKey _ => some periodKey
  | _ => none

/-- The cycle whose watermark the call reads. -/
def readPeriod (k : Call Op World Choice) : Option String :=
  match k.op with
  | .selectWatermark periodKey => some periodKey
  | _ => none

/-- When a reconcile writes, nothing that is stored for the cycle is above what it read. -/
def NotOvertaken (log : Log) : Prop :=
  ∀ k ∈ log, ∀ k' ∈ log, k'.thread = k.thread → ∀ r ∈ k.before.rows,
    writtenPeriod k = some r.period_key → readPeriod k' = some r.period_key →
      r.used ≤ (previousOf (watermark k'.before r.period_key) r.dimension_key).1 ∧
        r.unobserved_upper_bound ≤
          (previousOf (watermark k'.before r.period_key) r.dimension_key).2

instance : DecidablePred NotOvertaken := fun log => by
  unfold NotOvertaken
  infer_instance

theorem NotOvertaken.tail {k : Call Op World Choice} {log : Log} (h : NotOvertaken (k :: log)) :
    NotOvertaken log :=
  fun k₁ hk₁ k₂ hk₂ => h k₁ (List.mem_cons_of_mem _ hk₁) k₂ (List.mem_cons_of_mem _ hk₂)

abbrev Run := Config Thrown Op Res World Choice ℕ

abbrev Following (c : Run) : Prop :=
  Machine.Informed reconciling (fun _ _ _ => True) Known.Means c

/-- A write that was not overtaken raises the watermark. -/
theorem raised_upsert {t : ℕ} {κ : Known} {log : Log} {w : World} {periodKey : String}
    {rows : List BaselineRow} {ch : Choice} (hκ : κ.Means t log w)
    (hpre : reconciling.pre κ (.upsert periodKey rows))
    (h : NotOvertaken (⟨t, .upsert periodKey rows, ch, w⟩ :: log)) :
    Raised w (upsertRows w rows) := by
  obtain ⟨hnodup, previous, rfl, hrows⟩ := hpre
  obtain ⟨k', hk', hthread, hop, rfl⟩ := hκ
  refine raised_upsertRows (fun row hrow r hr hkey => ?_) hnodup
  obtain ⟨hperiod, hused, htail⟩ := hrows row hrow
  obtain ⟨hdimension, hsame⟩ := Prod.mk.inj hkey
  have hr' : r.period_key = periodKey := hsame.trans hperiod
  obtain ⟨hused', htail'⟩ := h _ List.mem_cons_self k' (List.mem_cons_of_mem _ hk') hthread r hr
    (by rw [hr']; rfl) (by simp [readPeriod, hop, hr'])
  rw [hdimension, hr'] at hused' htail'
  exact ⟨hused'.trans hused, htail'.trans htail⟩

theorem raised_step {c : Run} (hc : Following c) (e : ℕ × Choice)
    (h : NotOvertaken (machine.step c e).log) :
    Raised c.world (machine.step c e).world ∧ NotOvertaken c.log := by
  rcases Machine.step_cases (M := machine) c e with hs | ⟨op, next, hcall, hs⟩
  · rw [hs] at h ⊢
    exact ⟨.refl _, h⟩
  obtain ⟨κ, hκ, hmeans⟩ := hc.known e.1
  rw [hcall] at hκ
  rw [hs] at h ⊢
  refine ⟨?_, h.tail⟩
  cases op with
  | upsert periodKey rows =>
    have hraised := raised_upsert hmeans hκ.1 h
    cases hf : e.2.fault <;> simp only [machine, perform, hf]
    · exact hraised
    · exact .refl _
    · exact hraised
  | _ => exact .refl _

theorem raised_exec {c : Run} (hc : Following c) (es : List (ℕ × Choice))
    (h : NotOvertaken (machine.exec c es).log) :
    Raised c.world (machine.exec c es).world ∧ NotOvertaken c.log := by
  induction es generalizing c with
  | nil => exact ⟨.refl _, h⟩
  | cons e es ih =>
    obtain ⟨hraised, hlog⟩ := ih (Machine.informed_step sound_reconciling hc e) h
    obtain ⟨hraised', hlog'⟩ := raised_step hc e hlog
    exact ⟨hraised'.trans hraised, hlog'⟩

/-- **Monotone watermark.** In every run of any number of reconciles whose writes are not overtaken,
what is stored for a dimension and a cycle never decreases from one moment to a later one. -/
theorem watermark_monotone (P : Runtime) (w : World) (options : ℕ → Bool × Bool)
    (es fs : List (ℕ × Choice))
    (h : NotOvertaken (machine.exec (Config.start w fun t => main P (options t).1 (options t).2)
      (es ++ fs)).log) :
    Raised
      (machine.exec (Config.start w fun t => main P (options t).1 (options t).2) es).world
      (machine.exec (Config.start w fun t => main P (options t).1 (options t).2)
        (es ++ fs)).world := by
  have hstart : Following (Config.start w fun t => main P (options t).1 (options t).2) :=
    Machine.informed_start (fun _ => Known.fresh) (fun t => upholds_main P _ _) fun _ => trivial
  rw [Machine.exec_append] at h ⊢
  exact (raised_exec (Machine.informed_exec sound_reconciling hstart es) fs h).1

/-! ## An overtaken write -/

/-- Rounding down, and no tail beyond a quarter of what is used. -/
def exampleRuntime : Runtime where
  within _ _ := some true
  cpuMs us := us / 1000
  storageUnits bytes _ _ := some (bytes / 1000000)
  ruleTail _ used _ _ := some ((used + 3) / 4)

/-- Every meter answers one group of the amount. -/
def meterChoice (amount : ℤ) : Choice where
  now := "2026-10-01T12:00:00.000Z"
  fault := .none
  subscriptions := some [(some "2026-09-29T00:00:00Z", some "2026-10-29T00:00:00Z")]
  meters := some [⟨some "read", amount, 0⟩]
  unreadable := 0

/-- The first reconcile reads and measures; the second runs from its start to its end, with newer
meters. -/
def overtakingRun : List (ℕ × Choice) :=
  List.replicate 12 (0, meterChoice 100) ++ List.replicate 14 (1, meterChoice 500)

/-- Two reconciles one after the other. -/
theorem watermark_monotone_sequential :
    Raised
      (machine.exec (Config.start Table.empty fun _ => main exampleRuntime true false)
        (List.replicate 14 (0, meterChoice 100))).world
      (machine.exec (Config.start Table.empty fun _ => main exampleRuntime true false)
        (List.replicate 14 (0, meterChoice 100) ++ List.replicate 14 (1, meterChoice 50))).world :=
  watermark_monotone exampleRuntime Table.empty (fun _ => (true, false))
    (List.replicate 14 (0, meterChoice 100)) (List.replicate 14 (1, meterChoice 50))
    (by decide +kernel)

/-- The first reconcile then writes what it computed from the watermark that it had read. -/
theorem watermark_lowered :
    ¬ ∀ (P : Runtime) (w : World) (options : ℕ → Bool × Bool) (es fs : List (ℕ × Choice)),
      Raised
        (machine.exec (Config.start w fun t => main P (options t).1 (options t).2) es).world
        (machine.exec (Config.start w fun t => main P (options t).1 (options t).2)
          (es ++ fs)).world := by
  intro h
  have hrun := h exampleRuntime Table.empty (fun _ => (true, false)) overtakingRun
    [(0, meterChoice 100)]
  revert hrun
  decide +kernel

end QuantproCollector.QuotaReconcile
