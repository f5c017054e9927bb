import Mathlib.Data.Int.ConditionallyCompleteOrder
import QuantproCollector.Lib.Crash
import QuantproCollector.Portfolio.Reducer

/-!
# Observers of the portfolio

A call of `recordPortfolioUniverseObservation` reads the baseline and the delta, reduces, and writes
the delta before the baseline. One call alone can be stopped between its writes and repeated
(`delta_stream`). Several calls can overtake each other: the reducer refuses an old observation only
against the baseline that its call read (`baseline_run`).
-/

namespace QuantproCollector.Portfolio

open Async

variable {P : Runtime}

/-! ## The reads and writes of a call -/

/-- What a stored value is read as. -/
def readAs {α : Type} (validate : Json → Except String α) (description : String) :
    Option (Option Json) → Except Thrown (Option α)
  | none | some (some .null) => .ok none
  | some none => .error (.error s!"{description} is invalid JSON")
  | some (some value) =>
    match validate value with
    | .ok a => .ok (some a)
    | .error message => .error (.error message)

def baselineOf (P : Runtime) : Option (Option Json) → Except Thrown (Option PortfolioCompleteBaseline) :=
  readAs (validatePortfolioCompleteBaseline P) "stored portfolio baseline"

def storedDelta (P : Runtime) : Option (Option Json) → Except Thrown (Option PortfolioUniverseDelta) :=
  readAs (validatePortfolioUniverseDelta P) "stored portfolio delta"

theorem read_eq {α : Type} (validate : Json → Except String α) (description : String)
    (raw : Option (Option Json)) :
    (readJson raw description >>= fun parsed => match parsed with
      | none | some .null => pure none
      | some value => some <$> orThrow (validate value)) =
        Script.halt (readAs validate description raw) := by
  obtain _ | _ | value := raw
  · rfl
  · rfl
  · have horThrow : ∀ value, (some <$> orThrow (validate value) : Program (Option α)) =
        Script.halt (match validate value with
          | .ok a => .ok (some a)
          | .error message => .error (.error message)) := by
      intro value
      cases validate value <;> rfl
    cases value with
    | null => rfl
    | _ => exact horThrow _

theorem readBaseline_eq : readPortfolioCompleteBaseline P =
    Script.call Op.getBaseline fun r => Script.halt (r >>= baselineOf P) := by
  unfold readPortfolioCompleteBaseline
  rw [Script.perform_bind]
  congr 1
  funext r
  cases r with
  | error e => rfl
  | ok raw => exact read_eq _ _ raw

theorem readDelta_eq : readPortfolioUniverseDelta P =
    Script.call Op.getDelta fun r => Script.halt (r >>= storedDelta P) := by
  unfold readPortfolioUniverseDelta
  rw [Script.perform_bind]
  congr 1
  funext r
  cases r with
  | error e => rfl
  | ok raw => exact read_eq _ _ raw

theorem wellFormed_baselineOf {raw : Option (Option Json)}
    {previous : Option PortfolioCompleteBaseline} (h : baselineOf P raw = .ok previous) :
    ∀ b ∈ previous, WellFormed P b := by
  unfold baselineOf readAs at h
  split at h
  · cases h
    simp
  · cases h
    simp
  · cases h
  · split at h
    · rename_i b hvalid
      cases h
      rintro _ ⟨⟩
      exact wellFormed_of_validate hvalid
    · cases h

theorem writeBaseline_eq {b : PortfolioCompleteBaseline} (h : WellFormed P b) :
    writePortfolioCompleteBaseline P b = Script.perform (Op.putBaseline b.toJson) := by
  unfold writePortfolioCompleteBaseline
  rw [validate_toJson h]
  rfl

theorem writeDelta_eq {d : PortfolioUniverseDelta} (h : DeltaFormed P d) :
    writePortfolioUniverseDelta P d = Script.perform (Op.putDelta d.toJson) := by
  unfold writePortfolioUniverseDelta
  rw [validateDelta_toJson h]
  rfl

/-- What is to be written after a successful reduction. -/
structure Writable (P : Runtime) (reduction : PortfolioDeltaReduction) : Prop where
  baseline : ∀ b ∈ reduction.baseline, WellFormed P b
  delta : ∀ d ∈ reduction.delta, DeltaFormed P d

theorem writable_of_reduce {previous : Option PortfolioCompleteBaseline} {current : Json}
    {reduction : PortfolioDeltaReduction} (hb : ∀ b ∈ previous, WellFormed P b)
    (h : reducePortfolioUniverseDelta P previous current = .ok reduction) :
    Writable P reduction ∧ ∀ b ∈ previous, ∃ b' ∈ reduction.baseline,
      instant P b.last_observed_at ≤ instant P b'.last_observed_at := by
  rw [reduce_eq hb] at h
  cases hvalid : validateObservation P current with
  | error e =>
    rw [hvalid] at h
    cases h
  | ok o =>
    rw [hvalid] at h
    cases h
    have ho := observed_of_validate hvalid
    refine ⟨⟨fun b hb' => (wellFormed_advance hb ho b hb').1, fun d hd => ?_⟩, fun b hprevious => ?_⟩
    · obtain ⟨b, rfl, -, hhash, rfl⟩ := contiguous_of_delta hd
      exact deltaFormed_deltaOf (hb b rfl) ho hhash
    · have hsome : (advance P previous o).baseline.isSome = true := by
        obtain rfl : previous = some b := hprevious
        unfold advance
        dsimp only
        split_ifs <;> rfl
      obtain ⟨b', hb'⟩ := Option.isSome_iff_exists.1 hsome
      exact ⟨b', hb', (wellFormed_advance hb ho b' hb').2 b hprevious⟩

/-- The world after the writes of a reduction. -/
def World.written (w : World) (reduction : PortfolioDeltaReduction) : World where
  baseline := match reduction.baseline with
    | none => w.baseline
    | some b => some (some b.toJson)
  delta := match reduction.delta with
    | none => w.delta
    | some d => some (some d.toJson)

/-- What a call makes of what it reads. -/
def reductionOf (P : Runtime) (w : World) (observation : Json) :
    Except Thrown PortfolioDeltaReduction :=
  match baselineOf P w.baseline, storedDelta P w.delta with
  | .error e, _ => .error e
  | .ok _, .error e => .error e
  | .ok previous, .ok _ =>
    match reducePortfolioUniverseDelta P previous observation with
    | .error message => .error (.error message)
    | .ok reduction => .ok reduction

theorem writable_reductionOf {w : World} {observation : Json}
    {reduction : PortfolioDeltaReduction} (h : reductionOf P w observation = .ok reduction) :
    Writable P reduction := by
  unfold reductionOf at h
  split at h
  · cases h
  · cases h
  · rename_i previous _ hprevious _
    split at h
    · cases h
    · rename_i r hreduce
      cases h
      exact (writable_of_reduce (wellFormed_baselineOf hprevious) hreduce).1

/-- The writes of a reduction, as operations. -/
theorem writeReduction_eq {reduction : PortfolioDeltaReduction} (h : Writable P reduction) :
    writeReduction P reduction =
      match reduction.delta, reduction.baseline with
      | none, none => pure none
      | none, some b => Script.perform (Op.putBaseline b.toJson) >>= fun _ => pure none
      | some d, none => Script.perform (Op.putDelta d.toJson) >>= fun _ => pure (some d)
      | some d, some b => Script.perform (Op.putDelta d.toJson) >>= fun _ =>
          Script.perform (Op.putBaseline b.toJson) >>= fun _ => pure (some d) := by
  obtain ⟨baseline, delta⟩ := reduction
  unfold writeReduction
  cases delta with
  | none =>
    cases baseline with
    | none => rfl
    | some b =>
      dsimp only
      rw [writeBaseline_eq (h.baseline b rfl)]
  | some d =>
    dsimp only
    rw [writeDelta_eq (h.delta d rfl)]
    cases baseline with
    | none => rfl
    | some b =>
      dsimp only
      rw [writeBaseline_eq (h.baseline b rfl)]

/-! ## One call alone -/

/-- A call in which nothing fails writes its reduction. -/
theorem run_record (t k : ℕ) (tr : List (Call Op World Fault)) (w : World) (observation : Json) :
    let run := machine.run t (fun _ => .none) (recordPortfolioUniverseObservation P observation) k
      tr w
    (run.1, run.2.2) =
      match reductionOf P w observation with
      | .error e => (.error e, w)
      | .ok reduction => (.ok reduction.delta, w.written reduction) := by
  have hwritable : ∀ reduction, reductionOf P w observation = .ok reduction →
      Writable P reduction := fun _ => writable_reductionOf
  unfold reductionOf at hwritable ⊢
  unfold recordPortfolioUniverseObservation
  rw [readBaseline_eq, readDelta_eq]
  change (let run := machine.run t (fun _ => .none) (Script.halt (baselineOf P w.baseline) >>= _) _ _ w
    (run.1, run.2.2)) = _
  cases hbaseline : baselineOf P w.baseline with
  | error e => rfl
  | ok previous =>
    simp only [Script.halt_ok_bind, Script.call_bind, Machine.run, machine, perform, answer, effect]
    change (let run := machine.run t (fun _ => .none) (Script.halt (storedDelta P w.delta) >>= _) _ _ w
      (run.1, run.2.2)) = _
    cases hdelta : storedDelta P w.delta with
    | error e => rfl
    | ok latest =>
      rw [hbaseline, hdelta] at hwritable
      dsimp only at hwritable ⊢
      rw [Script.halt_ok_bind]
      cases hreduce : reducePortfolioUniverseDelta P previous observation with
      | error message => rfl
      | ok reduction =>
        rw [hreduce] at hwritable
        have hw := hwritable reduction rfl
        change (let run := machine.run t (fun _ => .none) (writeReduction P reduction) _ _ w
          (run.1, run.2.2)) = _
        rw [writeReduction_eq hw]
        obtain ⟨baseline, delta⟩ := reduction
        cases delta <;> cases baseline <;> rfl

/-- Where the world has been left by a call that did not get to its baseline. -/
def LeftBy (P : Runtime) (observation : Json) (w w' : World) : Prop :=
  w'.baseline = w.baseline → w' = w ∨ ∃ reduction d, reductionOf P w observation = .ok reduction ∧
    reduction.delta = some d ∧ w' = { w with delta := some (some d.toJson) }

/-- Wherever a call alone is stopped, it has left the world as it was, or with its delta, or with its
baseline. -/
theorem throughout_record (w : World) (observation : Json) :
    machine.Throughout (LeftBy P observation w) (recordPortfolioUniverseObservation P observation)
      w := by
  have hself : LeftBy P observation w w := fun _ => .inl rfl
  unfold recordPortfolioUniverseObservation
  rw [readBaseline_eq, readDelta_eq]
  refine ⟨hself, fun f => ?_⟩
  obtain hf | hf : f ≠ .none ∨ f = .none := by tauto
  · cases f with
    | none => exact absurd rfl hf
    | before => exact hself
    | after => exact hself
  subst hf
  change machine.Throughout _ (Script.halt (baselineOf P w.baseline) >>= _) w
  cases hbaseline : baselineOf P w.baseline with
  | error e => exact hself
  | ok previous =>
    refine ⟨hself, fun f => ?_⟩
    obtain hf | hf : f ≠ .none ∨ f = .none := by tauto
    · cases f with
      | none => exact absurd rfl hf
      | before => exact hself
      | after => exact hself
    subst hf
    change machine.Throughout _ (Script.halt (storedDelta P w.delta) >>= _) w
    cases hdelta : storedDelta P w.delta with
    | error e => exact hself
    | ok latest =>
      rw [Script.halt_ok_bind]
      cases hreduce : reducePortfolioUniverseDelta P previous observation with
      | error message => exact hself
      | ok reduction =>
        have hreduction : reductionOf P w observation = .ok reduction := by
          unfold reductionOf
          rw [hbaseline, hdelta]
          dsimp only
          rw [hreduce]
        have hdone : ∀ d, reduction.delta = some d →
            LeftBy P observation w { w with delta := some (some d.toJson) } :=
          fun d hd _ => .inr ⟨reduction, d, hreduction, hd, rfl⟩
        change machine.Throughout _ (writeReduction P reduction) w
        rw [writeReduction_eq (writable_reductionOf hreduction)]
        obtain ⟨baseline, delta⟩ := reduction
        dsimp only at hdone ⊢
        cases delta with
        | none =>
          cases baseline with
          | none => exact hself
          | some b =>
            have hlast : LeftBy P observation w { w with baseline := some (some b.toJson) } := by
              intro h
              exact .inl (congrArg (World.mk · w.delta) h)
            refine ⟨hself, fun f => ?_⟩
            cases f with
            | none => exact hlast
            | before => exact hself
            | after => exact hlast
        | some d =>
          have hdelta := hdone d rfl
          cases baseline with
          | none =>
            refine ⟨hself, fun f => ?_⟩
            cases f with
            | none => exact hdelta
            | before => exact hself
            | after => exact hdelta
          | some b =>
            have hlast : LeftBy P observation w ⟨some (some b.toJson), some (some d.toJson)⟩ := by
              intro h
              have hb : some (some b.toJson) = w.baseline := h
              refine .inr ⟨_, d, hreduction, rfl, ?_⟩
              rw [← hb]
            refine ⟨hself, fun f => ?_⟩
            cases f with
            | none =>
              refine ⟨hdelta, fun f => ?_⟩
              cases f with
              | none => exact hlast
              | before => exact hdelta
              | after => exact hlast
            | before => exact hself
            | after => exact hdelta

/-- The threads of some calls. -/
def observers (P : Runtime) (observations : List Json) (t : ℕ) :
    Program (Option PortfolioUniverseDelta) :=
  (observations[t]?).elim (throw .raw) (recordPortfolioUniverseObservation P)

/-- **A call that stopped before its baseline was written can be repeated**: the repetition ends as a
call that was not stopped does. -/
theorem repeated_record (w : World) (observation : Json) (es : List (ℕ × Fault))
    (hstopped : (machine.exec (Config.start w (observers P [observation])) es).world.baseline =
      w.baseline) :
    let repeated := machine.run 0 (fun _ => .none) (recordPortfolioUniverseObservation P observation)
      0 [] (machine.exec (Config.start w (observers P [observation])) es).world
    let uninterrupted := machine.run 0 (fun _ => .none)
      (recordPortfolioUniverseObservation P observation) 0 [] w
    repeated.1 = uninterrupted.1 ∧ repeated.2.2 = uninterrupted.2.2 := by
  have hleft := Machine.throughout_exec (M := machine) (t := 0)
    (c := Config.start w (observers P [observation])) (fun u hu => ⟨.error .raw, by
      obtain ⟨n, rfl⟩ := Nat.exists_eq_succ_of_ne_zero hu
      rfl⟩) (throughout_record w observation) es
  have hrun := fun w => run_record (P := P) 0 0 [] w observation
  dsimp only at hrun ⊢
  rcases hleft hstopped with h | ⟨reduction, d, hreduction, hd, h⟩
  · rw [h]
    exact ⟨rfl, rfl⟩
  · rw [h]
    have hwritable := writable_reductionOf hreduction
    have hagain : reductionOf P { w with delta := some (some d.toJson) } observation =
        .ok reduction := by
      have hstored : storedDelta P (some (some d.toJson)) = .ok (some d) := by
        change readAs (validatePortfolioUniverseDelta P) _ (some (some d.toJson)) = _
        unfold readAs
        simp only [PortfolioUniverseDelta.toJson]
        have hvalid := validateDelta_toJson (hwritable.delta d hd)
        rw [PortfolioUniverseDelta.toJson] at hvalid
        rw [hvalid]
      unfold reductionOf at hreduction ⊢
      rw [hstored]
      cases hbaseline : baselineOf P w.baseline with
      | error e =>
        rw [hbaseline] at hreduction
        cases hreduction
      | ok previous =>
        rw [hbaseline] at hreduction
        cases hdelta : storedDelta P w.delta with
        | error e =>
          rw [hdelta] at hreduction
          cases hreduction
        | ok latest =>
          rw [hdelta] at hreduction
          exact hreduction
    have h1 := hrun { w with delta := some (some d.toJson) }
    have h2 := hrun w
    rw [hagain] at h1
    rw [hreduction] at h2
    have hworld : ({ w with delta := some (some d.toJson) } : World).written reduction =
        w.written reduction := by
      simp [World.written, hd]
    dsimp only at h1 h2
    rw [hworld] at h1
    exact Prod.mk.inj (h1.trans h2.symm)

/-! ## The stream -/

/-- Observations of one complete hash have the same codes. -/
def HashDetermines (P : Runtime) (observations : List Json) : Prop :=
  ∀ v ∈ observations, ∀ v' ∈ observations, ∀ o o', validateObservation P v = .ok o →
    validateObservation P v' = .ok o' → o.state = .LIVE_COMPLETE → o'.state = .LIVE_COMPLETE →
      o.current_complete_hash = o'.current_complete_hash →
        ∀ c, c ∈ o.active_codes ↔ c ∈ o'.active_codes

/-- What the reducer makes of a validated observation. -/
structure Reduced (P : Runtime) (baseline : Option PortfolioCompleteBaseline)
    (o : PortfolioUniverseObservation) (reduction : PortfolioDeltaReduction) : Prop where
  /-- An older observation changes nothing. -/
  older : ∀ b ∈ baseline, instant P o.observed_at < instant P b.last_observed_at →
    reduction = ⟨some b, none⟩
  /-- No delta across a gap, from a conflict or from an incomplete observation. -/
  emitted : ∀ d ∈ reduction.delta, ∃ b ∈ baseline, Contiguous P b o
  /-- A complete observation that is not older becomes the baseline. -/
  rebased : o.state = .LIVE_COMPLETE → (∀ b ∈ baseline, Current P b o) →
    reduction.baseline = some (nextBaseline o)
  /-- A contiguous one leads from the codes before to its own. -/
  composed : ∀ b ∈ baseline, Contiguous P b o →
    ∀ c, c ∈ applyDelta reduction.delta b.codes ↔ c ∈ o.active_codes

theorem reduced_advance {baseline : Option PortfolioCompleteBaseline}
    {o : PortfolioUniverseObservation}
    (hcodes : ∀ b ∈ baseline, o.state = .LIVE_COMPLETE →
      b.current_complete_hash = o.current_complete_hash → ∀ c, c ∈ b.codes ↔ c ∈ o.active_codes) :
    Reduced P baseline o (advance P baseline o) where
  older := by
    rintro b rfl h
    exact if_pos (not_le.2 h)
  emitted := by
    intro d hd
    obtain ⟨b, hb, hcontiguous, -⟩ := contiguous_of_delta hd
    exact ⟨b, hb, hcontiguous⟩
  rebased := by
    intro hstate hcurrent
    unfold advance
    cases baseline with
    | none => exact if_pos hstate
    | some b =>
      dsimp only
      rw [if_neg (not_not.2 (hcurrent b rfl)), if_neg (not_not.2 hstate)]
      split_ifs <;> rfl
  composed := by
    rintro b rfl h
    exact (advance_contiguous h (hcodes b rfl h.complete)).2

theorem stream_append (before : List Json) (current : Json) :
    stream P none (before ++ [current]) = feed P (stream P none before) current := by
  simp [stream]

/-- **The delta stream is compositional.** After every prefix of a stream the baseline is well
formed; the reducer refuses an observation only where its validation does, and else reduces it as
`Reduced` says; and a call that was stopped before its baseline was written can be repeated. -/
theorem delta_stream (P : Runtime) (observations : List Json)
    (hdetermines : HashDetermines P observations) :
    (∀ before after, observations = before ++ after →
      ∀ b ∈ stream P none before, validatePortfolioCompleteBaseline P b.toJson = .ok b) ∧
    (∀ before current after, observations = before ++ current :: after →
      ∀ o, validateObservation P current = .ok o →
        ∃ reduction,
          reducePortfolioUniverseDelta P (stream P none before) current = .ok reduction ∧
            stream P none (before ++ [current]) = reduction.baseline ∧
              Reduced P (stream P none before) o reduction) ∧
    ∀ (w : World) (observation : Json) (es : List (ℕ × Fault)),
      (machine.exec (Config.start w (observers P [observation])) es).world.baseline = w.baseline →
        let repeated := machine.run 0 (fun _ => .none)
          (recordPortfolioUniverseObservation P observation) 0 []
          (machine.exec (Config.start w (observers P [observation])) es).world
        let uninterrupted := machine.run 0 (fun _ => .none)
          (recordPortfolioUniverseObservation P observation) 0 [] w
        repeated.1 = uninterrupted.1 ∧ repeated.2.2 = uninterrupted.2.2 := by
  have hwell : ∀ before, ∀ b ∈ stream P none before, WellFormed P b :=
    fun before => wellFormed_stream before (by simp)
  refine ⟨fun before _ _ b hb => validate_toJson (hwell before b hb), ?_, repeated_record⟩
  intro before current after hsplit o hvalid
  have hreduce : reducePortfolioUniverseDelta P (stream P none before) current =
      .ok (advance P (stream P none before) o) := by
    rw [reduce_eq (hwell before), hvalid]
    rfl
  refine ⟨_, hreduce, ?_, reduced_advance fun b hb hstate hhash => ?_⟩
  · rw [stream_append]
    unfold feed
    rw [hreduce]
  · -- the codes of the baseline are those of an earlier observation
    obtain ⟨first, hfirst, o₁, hvalid₁, hstate₁, hhash₁, hcodes₁⟩ := exists_observation hb
    rw [← hcodes₁]
    refine hdetermines first ?_ current ?_ o₁ o hvalid₁ hvalid hstate₁ hstate (hhash₁.trans hhash)
    · rw [hsplit]
      exact List.mem_append_left _ hfirst
    · rw [hsplit]
      simp

/-! ## Calls that overtake each other -/

/-- The last observed instant of a stored baseline; below all instants where there is none. -/
def lastObserved (P : Runtime) (raw : Option (Option Json)) : WithBot ℤ :=
  match baselineOf P raw with
  | .ok (some b) => (instant P b.last_observed_at : ℤ)
  | _ => ⊥

/-- A baseline is written where the one that its call read still stands. -/
def Unraced (past : List (Call Op World Fault)) (k : Call Op World Fault) : Prop :=
  match k.op with
  | .putBaseline _ => ∀ k' ∈ past, k'.thread = k.thread → k'.op = .getBaseline →
    k'.before.baseline = k.before.baseline
  | _ => True

instance (past : List (Call Op World Fault)) (k : Call Op World Fault) :
    Decidable (Unraced past k) := by
  unfold Unraced
  split <;> infer_instance

/-- A call knows the baseline that it read, and writes none that is older. -/
def reading (P : Runtime) : Script.Discipline Thrown Op Res (Option (Option (Option Json))) where
  pre known op := match op with
    | .putBaseline value => ∃ raw, known = some raw ∧
      lastObserved P raw ≤ lastObserved P (some (some value))
    | _ => True
  learn known op r := match op, r with
    | .getBaseline, .ok raw => some raw
    | _, _ => known
  may _ _ := True

theorem lastObserved_toJson {b : PortfolioCompleteBaseline} (h : WellFormed P b) :
    lastObserved P (some (some b.toJson)) = (instant P b.last_observed_at : ℤ) := by
  have hread : baselineOf P (some (some b.toJson)) = .ok (some b) := by
    have hvalid := validate_toJson h
    change readAs (validatePortfolioCompleteBaseline P) _ (some (some b.toJson)) = _
    unfold readAs
    simp only [PortfolioCompleteBaseline.toJson] at hvalid ⊢
    rw [hvalid]
  unfold lastObserved
  rw [hread]

theorem upholds_writeReduction {reduction : PortfolioDeltaReduction} (hw : Writable P reduction)
    {raw : Option (Option Json)}
    (hlast : ∀ b ∈ reduction.baseline, lastObserved P raw ≤ (instant P b.last_observed_at : ℤ)) :
    (writeReduction P reduction).Upholds (reading P) (fun _ _ => True) (some raw) := by
  rw [writeReduction_eq hw]
  obtain ⟨baseline, delta⟩ := reduction
  have hpre : ∀ b, baseline = some b → (reading P).pre (some raw) (.putBaseline b.toJson) := by
    rintro b rfl
    exact ⟨raw, rfl, (hlast b rfl).trans (lastObserved_toJson (hw.baseline b rfl)).ge⟩
  cases delta with
  | none =>
    cases baseline with
    | none => trivial
    | some b => exact ⟨hpre b rfl, fun r _ => by cases r <;> trivial⟩
  | some d =>
    cases baseline with
    | none => exact ⟨trivial, fun r _ => by cases r <;> trivial⟩
    | some b =>
      refine ⟨trivial, fun r _ => ?_⟩
      cases r with
      | error e => trivial
      | ok u => exact ⟨hpre b rfl, fun r _ => by cases r <;> trivial⟩

theorem upholds_record (observation : Json) (known : Option (Option (Option Json))) :
    (recordPortfolioUniverseObservation P observation).Upholds (reading P) (fun _ _ => True)
      known := by
  unfold recordPortfolioUniverseObservation
  rw [readBaseline_eq, readDelta_eq]
  refine ⟨trivial, fun r _ => ?_⟩
  cases r with
  | error e => trivial
  | ok raw =>
    change (Script.halt (baselineOf P raw) >>= _ : Program _).Upholds _ _ (some raw)
    cases hbaseline : baselineOf P raw with
    | error e => trivial
    | ok previous =>
      refine ⟨trivial, fun r _ => ?_⟩
      cases r with
      | error e => trivial
      | ok stored =>
        change (Script.halt (storedDelta P stored) >>= _ : Program _).Upholds _ _ (some raw)
        cases storedDelta P stored with
        | error e => trivial
        | ok latest =>
          rw [Script.halt_ok_bind]
          cases hreduce : reducePortfolioUniverseDelta P previous observation with
          | error message => trivial
          | ok reduction =>
            obtain ⟨hw, hlast⟩ := writable_of_reduce (wellFormed_baselineOf hbaseline) hreduce
            change (writeReduction P reduction).Upholds _ _ _
            refine upholds_writeReduction hw fun b hb => ?_
            unfold lastObserved
            rw [hbaseline]
            cases previous with
            | none => exact bot_le
            | some b₀ =>
              obtain ⟨b', hb', hle⟩ := hlast b₀ rfl
              obtain rfl : b' = b := Option.some.inj (hb'.symm.trans hb)
              exact WithBot.coe_le_coe.2 hle

/-- Every thread keeps the discipline, and knows only what it read. -/
def Disciplined (P : Runtime)
    (c : Config Thrown Op Res World Fault (Option PortfolioUniverseDelta)) : Prop :=
  ∀ t, ∃ known, (c.script t).Upholds (reading P) (fun _ _ => True) known ∧
    ∀ raw, known = some raw → ∃ k ∈ c.log, k.thread = t ∧ k.op = .getBaseline ∧
      k.before.baseline = raw

theorem disciplined_start (w : World) (observations : List Json) :
    Disciplined P (Config.start w (observers P observations)) := by
  intro t
  refine ⟨none, ?_, by simp⟩
  change ((observations[t]?).elim (throw .raw) (recordPortfolioUniverseObservation P)).Upholds _ _ _
  cases observations[t]? with
  | none => trivial
  | some observation => exact upholds_record observation none

/-- A step keeps the discipline; where it overtakes no other call, the last observed instant does not
decrease. -/
theorem disciplined_step {c : Config Thrown Op Res World Fault (Option PortfolioUniverseDelta)}
    (h : Disciplined P c) (e : ℕ × Fault) :
    Disciplined P (machine.step c e) ∧
      (Along Unraced (machine.step c e).log →
        lastObserved P c.world.baseline ≤ lastObserved P (machine.step c e).world.baseline) := by
  rcases Machine.step_cases (M := machine) c e with hs | ⟨op, next, hcall, hs⟩
  · rw [hs]
    exact ⟨h, fun _ => le_refl _⟩
  obtain ⟨known, hup, hknown⟩ := h e.1
  rw [hcall] at hup
  have hlog : (machine.step c e).log = ⟨e.1, op, e.2, c.world⟩ :: c.log := by rw [hs]
  refine ⟨fun t => ?_, fun halong => ?_⟩
  · by_cases ht : t = e.1
    · subst ht
      refine ⟨(reading P).learn known op (machine.perform e.2 op c.world).1, ?_, ?_⟩
      · rw [hs]
        simpa using hup.2 _ trivial
      · intro raw hraw
        rw [hlog]
        have hold : known = some raw → ∃ k ∈ (⟨e.1, op, e.2, c.world⟩ :: c.log :
            List (Call Op World Fault)), k.thread = e.1 ∧ k.op = .getBaseline ∧
              k.before.baseline = raw := by
          intro hr
          obtain ⟨k, hk, hspec⟩ := hknown raw hr
          exact ⟨k, List.mem_cons_of_mem _ hk, hspec⟩
        cases op with
        | getBaseline =>
          obtain ⟨t, f⟩ := e
          cases f with
          | none =>
            refine ⟨_, List.mem_cons_self, rfl, rfl, ?_⟩
            exact Option.some.inj hraw
          | before => exact hold hraw
          | after => exact hold hraw
        | _ => exact hold hraw
    · obtain ⟨known', hup', hknown'⟩ := h t
      refine ⟨known', ?_, fun raw hraw => ?_⟩
      · rw [hs]
        simpa [Function.update_of_ne ht] using hup'
      · obtain ⟨k, hk, hspec⟩ := hknown' raw hraw
        rw [hlog]
        exact ⟨k, List.mem_cons_of_mem _ hk, hspec⟩
  · rw [hlog] at halong
    have hk := (along_cons.1 halong).1
    rw [hs]
    cases op with
    | putBaseline value =>
      obtain ⟨raw, rfl, hle⟩ := hup.1
      obtain ⟨k, hmem, hthread, hop, hraw⟩ := hknown raw rfl
      have hstands : k.before.baseline = c.world.baseline := hk k hmem hthread hop
      obtain ⟨t, f⟩ := e
      rw [← hraw, hstands] at hle
      cases f with
      | none => exact hle
      | before => exact le_refl _
      | after => exact hle
    | _ =>
      obtain ⟨t, f⟩ := e
      cases f <;> exact le_refl _

/-- **The baseline never regresses unless calls overtake each other.** In every run of calls in which
each baseline is written where the one that its call read still stands, the last observed instant of
the stored baseline never decreases. -/
theorem baseline_run (P : Runtime) (observations : List Json) (w : World)
    (before after : List (ℕ × Fault))
    (h : Along Unraced
      (machine.exec (Config.start w (observers P observations)) (before ++ after)).log) :
    lastObserved P
        (machine.exec (Config.start w (observers P observations)) before).world.baseline ≤
      lastObserved P
        (machine.exec (Config.start w (observers P observations)) (before ++ after)).world.baseline := by
  rw [Machine.exec_append] at h ⊢
  have hdisciplined : Disciplined P (machine.exec (Config.start w (observers P observations)) before) :=
    Machine.exec_induction (P := Disciplined P) (fun c e hc => (disciplined_step hc e).1) before
      (disciplined_start w observations)
  obtain ⟨c, hc⟩ : ∃ c, machine.exec (Config.start w (observers P observations)) before = c :=
    ⟨_, rfl⟩
  rw [hc] at h hdisciplined ⊢
  -- by induction on the later steps, from the last one
  induction after using List.reverseRecOn with
  | nil => exact le_refl _
  | append_singleton rest e ih =>
    rw [Machine.exec_append] at h ⊢
    have hrest : Disciplined P (machine.exec c rest) :=
      Machine.exec_induction (P := Disciplined P) (fun c e hc => (disciplined_step hc e).1) rest
        hdisciplined
    have hstep := (disciplined_step hrest e).2 h
    refine (ih ?_).trans hstep
    rcases Machine.step_cases (M := machine) (machine.exec c rest) e with hs | ⟨op, next, -, hs⟩
    · change Along Unraced (machine.step (machine.exec c rest) e).log at h
      rwa [hs] at h
    · change Along Unraced (machine.step (machine.exec c rest) e).log at h
      rw [hs] at h
      exact (along_cons.1 h).2

/-! ## Two observers -/

/-- Texts in the order of their code units. -/
def compareUnits (a b : String) : Ordering :=
  if a = b then .eq else if Json.keyLe a b then .lt else .gt

theorem isLE_compareUnits {a b : String} :
    (compareUnits a b).isLE = true ↔ Json.keyLe a b = true := by
  have hself : ∀ a, Json.keyLe a a = true := fun a => by
    rcases Utf16.le_total (Utf16.units a) (Utf16.units a) with h | h
    · exact h
    · exact h
  unfold compareUnits
  split_ifs with hab hle
  · subst hab
    simp [hself]
  · simp [hle]
  · simp [hle]

def exampleRuntime : Runtime where
  dateParse text := ["t0", "t1", "t2"].findIdx? (· = text) |>.map Int.ofNat
  localeCompare := compareUnits
  swap_localeCompare a b := by
    unfold compareUnits
    by_cases hab : a = b
    · simp [hab]
    · rw [if_neg hab, if_neg (Ne.symm hab)]
      by_cases h : Json.keyLe a b = true
      · have hnot : ¬ Json.keyLe b a = true := fun h' =>
          hab (Utf16.units_injective (Utf16.le_antisymm h h'))
        rw [if_pos h, if_neg hnot]
        rfl
      · have h' : Json.keyLe b a = true :=
          (Utf16.le_total (Utf16.units a) (Utf16.units b)).resolve_left h
        rw [if_neg h, if_pos h']
        rfl
  trans_localeCompare a b c hab hbc := by
    rw [isLE_compareUnits] at hab hbc ⊢
    exact Utf16.le_trans hab hbc

/-- A complete observation of one code. -/
def exampleObservation (hash code observedAt : String) : Json :=
  .obj [("state", .str "LIVE_COMPLETE"), ("current_complete_hash", .str hash),
    ("active_codes", .arr [.str code]), ("observed_at", .str observedAt)]

def exampleObservations : List Json :=
  [exampleObservation "sha256:aaaaaaaaaaaaaaaaaaaaaaaaaaaaaaaaaaaaaaaaaaaaaaaaaaaaaaaaaaaaaaaa"
      "CN:600000" "t1",
    exampleObservation "sha256:bbbbbbbbbbbbbbbbbbbbbbbbbbbbbbbbbbbbbbbbbbbbbbbbbbbbbbbbbbbbbbbb"
      "HK:00700" "t2"]

def repeatedObservation : Json :=
  exampleObservation "sha256:aaaaaaaaaaaaaaaaaaaaaaaaaaaaaaaaaaaaaaaaaaaaaaaaaaaaaaaaaaaaaaaa"
    "CN:600000" "t1"

theorem hashDetermines_repeated :
    HashDetermines exampleRuntime [repeatedObservation, repeatedObservation] := by
  intro v hv v' hv' o o' hvalid hvalid' _ _ _ c
  obtain rfl : v = repeatedObservation := by simpa using hv
  obtain rfl : v' = repeatedObservation := by simpa using hv'
  obtain rfl : o = o' := Except.ok.inj (hvalid.symm.trans hvalid')
  exact Iff.rfl

/-- One observation, fed twice. -/
theorem delta_stream_repeated :
    (∀ before after, [repeatedObservation, repeatedObservation] = before ++ after →
      ∀ b ∈ stream exampleRuntime none before,
        validatePortfolioCompleteBaseline exampleRuntime b.toJson = .ok b) ∧
    (∀ before current after,
      [repeatedObservation, repeatedObservation] = before ++ current :: after →
      ∀ o, validateObservation exampleRuntime current = .ok o →
        ∃ reduction, reducePortfolioUniverseDelta exampleRuntime
            (stream exampleRuntime none before) current = .ok reduction ∧
          stream exampleRuntime none (before ++ [current]) = reduction.baseline ∧
            Reduced exampleRuntime (stream exampleRuntime none before) o reduction) ∧
    ∀ (w : World) (observation : Json) (es : List (ℕ × Fault)),
      (machine.exec (Config.start w (observers exampleRuntime [observation])) es).world.baseline =
          w.baseline →
        let repeated := machine.run 0 (fun _ => .none)
          (recordPortfolioUniverseObservation exampleRuntime observation) 0 []
          (machine.exec (Config.start w (observers exampleRuntime [observation])) es).world
        let uninterrupted := machine.run 0 (fun _ => .none)
          (recordPortfolioUniverseObservation exampleRuntime observation) 0 [] w
        repeated.1 = uninterrupted.1 ∧ repeated.2.2 = uninterrupted.2.2 :=
  delta_stream exampleRuntime _ hashDetermines_repeated

/-- Steps of one thread in which nothing fails. -/
def alone (t n : ℕ) : List (ℕ × Fault) :=
  List.replicate n (t, .none)

theorem baseline_run_sequential :
    lastObserved exampleRuntime (machine.exec (Config.start World.empty
        (observers exampleRuntime exampleObservations)) (alone 0 4)).world.baseline ≤
      lastObserved exampleRuntime (machine.exec (Config.start World.empty
        (observers exampleRuntime exampleObservations)) (alone 0 4 ++ alone 1 4)).world.baseline :=
  baseline_run exampleRuntime exampleObservations World.empty (alone 0 4) (alone 1 4)
    (by decide +kernel)

/-- The first call reads, the second call reads and writes the later baseline, and then the first
writes its own. -/
theorem baseline_regresses :
    ¬ lastObserved exampleRuntime (machine.exec (Config.start World.empty
        (observers exampleRuntime exampleObservations)) (alone 0 2 ++ alone 1 4)).world.baseline ≤
      lastObserved exampleRuntime (machine.exec (Config.start World.empty
        (observers exampleRuntime exampleObservations))
          (alone 0 2 ++ alone 1 4 ++ alone 0 2)).world.baseline := by
  decide +kernel

end QuantproCollector.Portfolio
