import QuantproCollector.AutomationRun.Ledger
import QuantproCollector.Lib.Knowledge

/-!
# Runs of the automation ledger

What begins and ends do to each other, whatever their interleaving and wherever they fail. Rows are
never deleted, and a finished row never changes (`Evolves`); a row that is finished has the payload of
an end of its run, with the digest of that payload (`Means`). A begin answers with the row of its
invocation, an end with what the row of its run holds (`BeginPost`, `EndPost`).
-/

namespace QuantproCollector.AutomationRun

open Relational Async

abbrev Log := List (Call Op World Choice)

abbrev Run := Config Thrown Op Res World Choice Answer

/-! ## What becomes of rows -/

/-- The columns that nothing changes. -/
structure SameRun (r r' : StoredAutomationRun) : Prop where
  task_name : r'.task_name = r.task_name
  run_id : r'.run_id = r.run_id
  principal : r'.principal = r.principal
  invocation_key : r'.invocation_key = r.invocation_key
  source_contract : r'.source_contract = r.source_contract

theorem SameRun.refl (r : StoredAutomationRun) : SameRun r r := ⟨rfl, rfl, rfl, rfl, rfl⟩

theorem SameRun.trans {r r' r'' : StoredAutomationRun} (h : SameRun r r') (h' : SameRun r' r'') :
    SameRun r r'' :=
  ⟨h'.1.trans h.1, h'.2.trans h.2, h'.3.trans h.3, h'.4.trans h.4, h'.5.trans h.5⟩

/-- Rows stay, with their keys, and finished ones as they are. -/
def Evolves (w w' : World) : Prop :=
  ∀ r ∈ w, ∃ r' ∈ w', SameRun r r' ∧ (r.final_payload_sha256 ≠ none → r' = r)

theorem Evolves.refl (w : World) : Evolves w w :=
  fun r hr => ⟨r, hr, .refl r, fun _ => rfl⟩

theorem Evolves.trans (u v w : World) (h : Evolves u v) (h' : Evolves v w) : Evolves u w := by
  intro r hr
  obtain ⟨r', hr', hsame, hkept⟩ := h r hr
  obtain ⟨r'', hr'', hsame', hkept'⟩ := h' r' hr'
  refine ⟨r'', hr'', hsame.trans hsame', fun hfinal => ?_⟩
  obtain rfl := hkept hfinal
  exact hkept' hfinal

theorem mem_insertRun {w : World} {row r : StoredAutomationRun} (h : r ∈ insertRun w row) :
    r ∈ w ∨ r = row := by
  unfold insertRun at h
  cases hinsert : w.insert? row with
  | none =>
    rw [hinsert] at h
    exact .inl h
  | some w' =>
    rw [hinsert] at h
    exact (Table.mem_insert? hinsert).1 h

theorem evolves_insertRun (w : World) (row : StoredAutomationRun) : Evolves w (insertRun w row) := by
  intro r hr
  refine ⟨r, ?_, .refl r, fun _ => rfl⟩
  unfold insertRun
  cases hinsert : w.insert? row with
  | none => exact hr
  | some w' => exact (Table.mem_insert? hinsert).2 (.inl hr)

theorem sameRun_apply (f : Finish) (r : StoredAutomationRun) : SameRun r (f.apply r) :=
  ⟨rfl, rfl, rfl, rfl, rfl⟩

theorem evolves_finishRun (w : World) (f : Finish) : Evolves w (finishRun w f) := by
  intro r hr
  refine ⟨_, Table.mem_modify.2 ⟨r, hr, rfl⟩, ?_, fun hfinal => ?_⟩
  · split_ifs
    · exact sameRun_apply f r
    · exact .refl r
  · rw [if_neg]
    simp [Finish.applies, hfinal]

theorem evolves_statement {α : Type} {f : Fault} {a : α} {w w' : World} (h : Evolves w w') :
    Evolves w (f.statement a w w').2 := by
  cases f with
  | none => exact h
  | before => exact .refl w
  | after => exact h

theorem evolves_perform (ch : Choice) (op : Op) (w : World) : Evolves w (machine.perform ch op w).2 := by
  cases op with
  | insertRun row => exact evolves_statement (evolves_insertRun w row)
  | finishRun f => exact evolves_statement (evolves_finishRun w f)
  | clock => exact .refl w
  | randomUUID => exact .refl w
  | ensureTable => exact evolves_statement (.refl w)
  | selectInvocation principal task key => exact evolves_statement (.refl w)
  | selectRuns runId => exact evolves_statement (.refl w)
  | readRun task runId => exact evolves_statement (.refl w)

/-! ## What rows hold -/

/-- The row holds the payload. -/
structure Holds (P : Runtime) (r : StoredAutomationRun) (p : FinalPayload) : Prop where
  outcome : r.outcome = some p.outcome
  fresh_delta_count : r.fresh_delta_count = some p.fresh_delta_count
  notification_intended : r.notification_intended = some p.notification_intended
  reason : r.reason = p.reason
  digest : r.final_payload_sha256 = some (p.digest P)

/-- The thread ends a run. -/
def Ends (P : Runtime) (requests : ℕ → Request) (t : ℕ) (e : AutomationRunEndInput) : Prop :=
  ∃ input, requests t = .finish input ∧ parseEnd P input.finish = .ok e

/-- Finished rows hold what an end of their run gave. -/
def Finished (P : Runtime) (requests : ℕ → Request) (w : World) : Prop :=
  ∀ r ∈ w, r.final_payload_sha256 ≠ none → r.source_contract = .runV2 ∧
    ∃ t e, Ends P requests t e ∧ e.run_id = r.run_id ∧ Holds P r e.payload

/-- The identifier that the call draws. -/
def drawn (k : Call Op World Choice) : Option String :=
  match k.op with
  | .randomUUID => some k.choice.uuid
  | _ => none

/-- No identifier is drawn twice. -/
def DistinctDraws (log : Log) : Prop :=
  log.Pairwise fun k k' => ∀ u, drawn k = some u → drawn k' ≠ some u

/-- Rows of runs have identifiers that were drawn. -/
def Drawn (log : Log) (w : World) : Prop :=
  ∀ r ∈ w, r.source_contract = .runV2 → ∃ k ∈ log, ∃ u, drawn k = some u ∧ r.run_id = "run_" ++ u

/-- No two rows of runs have one identifier. -/
def UniqueRuns (w : World) : Prop :=
  ∀ r ∈ w, ∀ r' ∈ w, r.source_contract = .runV2 → r'.source_contract = .runV2 →
    r.run_id = r'.run_id → r = r'

theorem runId_inj {u v : String} (h : "run_" ++ u = "run_" ++ v) : u = v := by
  have hlist := congrArg String.toList h
  rw [String.toList_append, String.toList_append] at hlist
  exact String.toList_inj.1 (List.append_cancel_left hlist)

/-! ## What a call of the ledger knows -/

/-- Its request, and an identifier that it has drawn and not used. -/
structure Known where
  request : Request
  drawn : Option String

/-- Inserts use a drawn identifier, and an UPDATE writes the payload of its end. -/
def auditing (P : Runtime) : Script.Discipline Thrown Op Res Known where
  pre κ op := match op with
    | .insertRun row => row.final_payload_sha256 = none ∧ row.source_contract = .runV2 ∧
        ∃ u, κ.drawn = some u ∧ row.run_id = "run_" ++ u
    | .finishRun f => ∃ input e, κ.request = .finish input ∧ parseEnd P input.finish = .ok e ∧
        f.run_id = e.run_id ∧ f.payload = e.payload ∧ f.final_payload_sha256 = e.payload.digest P
    | _ => True
  learn κ op r := match op, r with
    | .randomUUID, .ok u => { κ with drawn := some u }
    | .insertRun _, _ => { κ with drawn := none }
    | _, _ => κ
  may op r := match op, r with
    | .selectRuns runId, .ok rows => ∀ row ∈ rows, row.run_id = runId
    | _, _ => True

/-- An identifier that a thread has drawn and not used, no row has. -/
def Unused (t : ℕ) (κ : Known) (log : Log) (w : World) : Prop :=
  ∀ u, κ.drawn = some u → (∃ k ∈ log, k.thread = t ∧ drawn k = some u) ∧
    (DistinctDraws log → ∀ r ∈ w, r.source_contract = .runV2 → r.run_id ≠ "run_" ++ u)

/-- What is true of the table. -/
structure Facts (P : Runtime) (requests : ℕ → Request) (log : Log) (w : World) : Prop where
  finished : Finished P requests w
  drawn : Drawn log w
  unique : DistinctDraws log → UniqueRuns w

structure Known.Means (P : Runtime) (requests : ℕ → Request) (t : ℕ) (κ : Known) (log : Log)
    (w : World) : Prop where
  request : κ.request = requests t
  facts : Facts P requests log w
  unused : Unused t κ log w

section Sound

variable {P : Runtime} {requests : ℕ → Request} {log : Log} {w : World}

theorem DistinctDraws.tail {k : Call Op World Choice} (h : DistinctDraws (k :: log)) :
    DistinctDraws log :=
  (List.pairwise_cons.1 h).2

/-- Two calls that draw one identifier are one call. -/
theorem DistinctDraws.eq (h : DistinctDraws log) {k k' : Call Op World Choice} (hk : k ∈ log)
    (hk' : k' ∈ log) {u : String} (hu : AutomationRun.drawn k = some u)
    (hu' : AutomationRun.drawn k' = some u) : k = k' := by
  by_contra hne
  have : Std.Symm fun k k' : Call Op World Choice =>
      ∀ u, AutomationRun.drawn k = some u → AutomationRun.drawn k' ≠ some u :=
    ⟨fun x y h u hy hx => h u hx hy⟩
  exact h.forall hk hk' hne u hu hu'

theorem Drawn.cons (h : Drawn log w) (k : Call Op World Choice) : Drawn (k :: log) w := by
  intro r hr hrun
  obtain ⟨k', hk', h⟩ := h r hr hrun
  exact ⟨k', List.mem_cons_of_mem _ hk', h⟩

theorem finished_insertRun {row : StoredAutomationRun} (h : Finished P requests w)
    (hrow : row.final_payload_sha256 = none) : Finished P requests (insertRun w row) := by
  intro r hr hfinal
  rcases mem_insertRun hr with hr | rfl
  · exact h r hr hfinal
  · exact absurd hrow hfinal

theorem finished_finishRun {f : Finish} {t : ℕ} {e : AutomationRunEndInput}
    (h : Finished P requests w) (hends : Ends P requests t e) (hrun : f.run_id = e.run_id)
    (hpayload : f.payload = e.payload) (hsha : f.final_payload_sha256 = e.payload.digest P) :
    Finished P requests (finishRun w f) := by
  intro r hr hfinal
  obtain ⟨a, ha, rfl⟩ := Table.mem_modify.1 hr
  split_ifs at hfinal ⊢ with happlies
  · obtain ⟨-, hid, hcontract, -⟩ : a.task_name = f.task_name ∧ a.run_id = f.run_id ∧
        a.source_contract = .runV2 ∧ a.final_payload_sha256 = none := by
      simpa [Finish.applies] using happlies
    refine ⟨hcontract, t, e, hends, hrun.symm.trans hid.symm, ?_⟩
    rw [← hpayload]
    exact ⟨rfl, rfl, rfl, rfl, by rw [hpayload]; exact congrArg some hsha⟩
  · exact h a ha hfinal

/-- The rows that the UPDATE leaves are the rows that were there. -/
theorem exists_sameRun_finishRun {f : Finish} {r : StoredAutomationRun} (h : r ∈ finishRun w f) :
    ∃ a ∈ w, SameRun a r := by
  obtain ⟨a, ha, rfl⟩ := Table.mem_modify.1 h
  refine ⟨a, ha, ?_⟩
  split_ifs
  · exact sameRun_apply f a
  · exact .refl a

theorem drawn_finishRun {f : Finish} (h : Drawn log w) : Drawn log (finishRun w f) := by
  intro r hr hrun
  obtain ⟨a, ha, hsame⟩ := exists_sameRun_finishRun hr
  obtain ⟨k, hk, u, hu, hid⟩ := h a ha (hsame.source_contract ▸ hrun)
  exact ⟨k, hk, u, hu, hsame.run_id.trans hid⟩

theorem unique_finishRun {f : Finish} (h : UniqueRuns w) : UniqueRuns (finishRun w f) := by
  intro r hr r' hr' hrun hrun' hid
  obtain ⟨a, ha, rfl⟩ := Table.mem_modify.1 hr
  obtain ⟨a', ha', rfl⟩ := Table.mem_modify.1 hr'
  have hsame : ∀ b : StoredAutomationRun, SameRun b (if f.applies b then f.apply b else b) := by
    intro b
    split_ifs
    · exact sameRun_apply f b
    · exact .refl b
  obtain rfl := h a ha a' ha' ((hsame a).source_contract ▸ hrun) ((hsame a').source_contract ▸ hrun')
    (((hsame a).run_id.symm.trans hid).trans (hsame a').run_id)
  rfl

theorem Facts.cons (h : Facts P requests log w) (k : Call Op World Choice) :
    Facts P requests (k :: log) w :=
  ⟨h.finished, h.drawn.cons k, fun hdistinct => h.unique hdistinct.tail⟩

theorem facts_insertRun {t : ℕ} {κ : Known} {row : StoredAutomationRun}
    (h : κ.Means P requests t log w) (hpre : (auditing P).pre κ (.insertRun row))
    (k : Call Op World Choice) : Facts P requests (k :: log) (insertRun w row) := by
  obtain ⟨hfinal, -, u, hu, hid⟩ := hpre
  obtain ⟨⟨k', hk', -, hdrawn⟩, hunused⟩ := h.unused u hu
  refine ⟨finished_insertRun h.facts.finished hfinal, fun r hr hrun => ?_, fun hdistinct => ?_⟩
  · rcases mem_insertRun hr with hr | rfl
    · exact h.facts.drawn.cons k r hr hrun
    · exact ⟨k', List.mem_cons_of_mem _ hk', u, hdrawn, hid⟩
  · have hold := h.facts.unique hdistinct.tail
    have hnew := hunused hdistinct.tail
    intro r hr r' hr' hrun hrun' heq
    rcases mem_insertRun hr with hmem | hrow
    · rcases mem_insertRun hr' with hmem' | hrow'
      · exact hold r hmem r' hmem' hrun hrun' heq
      · exact absurd (heq.trans (hrow' ▸ hid)) (hnew r hmem hrun)
    · rcases mem_insertRun hr' with hmem' | hrow'
      · exact absurd (heq.symm.trans (hrow ▸ hid)) (hnew r' hmem' hrun')
      · exact hrow.trans hrow'.symm

theorem facts_finishRun {t : ℕ} {κ : Known} {f : Finish} (h : κ.Means P requests t log w)
    (hpre : (auditing P).pre κ (.finishRun f)) (k : Call Op World Choice) :
    Facts P requests (k :: log) (finishRun w f) := by
  obtain ⟨input, e, hrequest, hparse, hid, hpayload, hsha⟩ := hpre
  have hends : Ends P requests t e := ⟨input, h.request.symm.trans hrequest, hparse⟩
  exact ⟨finished_finishRun h.facts.finished hends hid hpayload hsha,
    drawn_finishRun (h.facts.drawn.cons k),
    fun hdistinct => unique_finishRun (h.facts.unique hdistinct.tail)⟩

theorem facts_statement {α : Type} {f : Fault} {a : α} {w' : World} (h : Facts P requests log w)
    (h' : Facts P requests log w') : Facts P requests log (f.statement a w w').2 := by
  cases f with
  | none => exact h'
  | before => exact h
  | after => exact h'

theorem facts_perform {t : ℕ} {κ : Known} {op : Op} (h : κ.Means P requests t log w)
    (hpre : (auditing P).pre κ op) (ch : Choice) :
    Facts P requests (⟨t, op, ch, w⟩ :: log) (machine.perform ch op w).2 := by
  have hsame := h.facts.cons ⟨t, op, ch, w⟩
  cases op with
  | insertRun row => exact facts_statement hsame (facts_insertRun h hpre _)
  | finishRun f => exact facts_statement hsame (facts_finishRun h hpre _)
  | clock => exact hsame
  | randomUUID => exact hsame
  | ensureTable => exact facts_statement hsame hsame
  | selectInvocation principal task key => exact facts_statement hsame hsame
  | selectRuns runId => exact facts_statement hsame hsame
  | readRun task runId => exact facts_statement hsame hsame

/-- The rows of runs after a call have the identifiers of those before it, or that of an insert. -/
theorem runId_perform {κ : Known} {op : Op} (hpre : (auditing P).pre κ op) {ch : Choice}
    {r : StoredAutomationRun} (hr : r ∈ (machine.perform ch op w).2)
    (hrun : r.source_contract = .runV2) :
    (∃ a ∈ w, a.source_contract = .runV2 ∧ r.run_id = a.run_id) ∨
      ∃ u, κ.drawn = some u ∧ r.run_id = "run_" ++ u := by
  have hstatement : ∀ {α : Type} {f : Fault} {a : α} {w' : World},
      r ∈ (f.statement a w w').2 → r ∈ w ∨ r ∈ w' := by
    intro α f a w' h
    cases f with
    | none => exact .inr h
    | before => exact .inl h
    | after => exact .inr h
  have hold : r ∈ w → ∃ a ∈ w, a.source_contract = .runV2 ∧ r.run_id = a.run_id :=
    fun h => ⟨r, h, hrun, rfl⟩
  cases op with
  | insertRun row =>
    rcases hstatement hr with hr | hr
    · exact .inl (hold hr)
    · rcases mem_insertRun hr with hr | rfl
      · exact .inl (hold hr)
      · exact .inr hpre.2.2
  | finishRun f =>
    rcases hstatement hr with hr | hr
    · exact .inl (hold hr)
    · obtain ⟨a, ha, hsame⟩ := exists_sameRun_finishRun hr
      exact .inl ⟨a, ha, hsame.source_contract ▸ hrun, hsame.run_id⟩
  | clock => exact .inl (hold hr)
  | randomUUID => exact .inl (hold hr)
  | ensureTable => exact .inl (hold ((hstatement hr).elim id id))
  | selectInvocation principal task key => exact .inl (hold ((hstatement hr).elim id id))
  | selectRuns runId => exact .inl (hold ((hstatement hr).elim id id))
  | readRun task runId => exact .inl (hold ((hstatement hr).elim id id))

/-- A call of another thread leaves an identifier unused. -/
theorem unused_frame {t v : ℕ} {κ κ' : Known} {op : Op} {ch : Choice} (hne : v ≠ t)
    (h : Unused t κ log w) (h' : κ'.Means P requests v log w) (hpre : (auditing P).pre κ' op) :
    Unused t κ (⟨v, op, ch, w⟩ :: log) (machine.perform ch op w).2 := by
  intro u hu
  obtain ⟨⟨k, hk, hthread, hdrawn⟩, hunused⟩ := h u hu
  refine ⟨⟨k, List.mem_cons_of_mem _ hk, hthread, hdrawn⟩, fun hdistinct r hr hrun => ?_⟩
  rcases runId_perform hpre hr hrun with ⟨a, ha, harun, hid⟩ | ⟨u', hu', hid⟩
  · exact hid ▸ hunused hdistinct.tail a ha harun
  · obtain ⟨⟨k', hk', hthread', hdrawn'⟩, -⟩ := h'.unused u' hu'
    rintro heq
    obtain rfl := runId_inj (hid.symm.trans heq)
    obtain rfl := hdistinct.tail.eq hk hk' hdrawn hdrawn'
    exact hne (hthread'.symm.trans hthread)

/-- The thread's own calls, where they neither draw nor insert. -/
theorem unused_own {t : ℕ} {κ : Known} {op : Op} {ch : Choice} (h : Unused t κ log w)
    (hpre : (auditing P).pre κ op) (hinsert : ∀ row, op ≠ .insertRun row) :
    Unused t κ (⟨t, op, ch, w⟩ :: log) (machine.perform ch op w).2 := by
  intro u hu
  obtain ⟨⟨k, hk, hthread, hdrawn⟩, hunused⟩ := h u hu
  refine ⟨⟨k, List.mem_cons_of_mem _ hk, hthread, hdrawn⟩, fun hdistinct r hr hrun => ?_⟩
  have hpre' : (auditing P).pre ⟨κ.request, none⟩ op := by
    cases op with
    | insertRun row => exact absurd rfl (hinsert row)
    | finishRun f => exact hpre
    | _ => trivial
  rcases runId_perform hpre' hr hrun with ⟨a, ha, harun, hid⟩ | ⟨u', hu', -⟩
  · exact hid ▸ hunused hdistinct.tail a ha harun
  · cases hu'

theorem sound_auditing (P : Runtime) (requests : ℕ → Request) :
    machine.Sound (auditing P) (Known.Means P requests) where
  may t κ ch op log w _ _ := by
    cases op with
    | selectRuns runId =>
      cases hf : ch.fault with
      | none =>
        have hanswer : (machine.perform ch (.selectRuns runId) w).1 = .ok (runRows w runId) := by
          simp [machine, perform, Fault.statement, hf]
        rw [hanswer]
        intro row hrow
        have hmem := List.mem_filter.1 hrow
        simp only [decide_eq_true_eq] at hmem
        exact hmem.2.1
      | before =>
        have hanswer : (machine.perform ch (.selectRuns runId) w).1 = .error .raw := by
          simp [machine, perform, Fault.statement, hf]
        rw [hanswer]
        trivial
      | after =>
        have hanswer : (machine.perform ch (.selectRuns runId) w).1 = .error .raw := by
          simp [machine, perform, Fault.statement, hf]
        rw [hanswer]
        trivial
    | _ => trivial
  frame t v κ κ' ch op log w hne h h' hpre :=
    ⟨h.request, facts_perform h' hpre ch, unused_frame hne h.unused h' hpre⟩
  learn t κ ch op log w h hpre := by
    have hfacts := facts_perform h hpre ch
    cases op with
    | randomUUID =>
      refine ⟨h.request, hfacts, fun u hu => ?_⟩
      obtain rfl : ch.uuid = u := Option.some.inj hu
      refine ⟨⟨_, List.mem_cons_self, rfl, rfl⟩, fun hdistinct r hr hrun heq => ?_⟩
      obtain ⟨k, hk, u, hu, hid⟩ := h.facts.drawn r hr hrun
      obtain rfl := runId_inj (hid.symm.trans heq)
      exact (List.pairwise_cons.1 hdistinct).1 k hk _ rfl hu
    | insertRun row => exact ⟨h.request, hfacts, fun u hu => nomatch hu⟩
    | finishRun f => exact ⟨h.request, hfacts, unused_own h.unused hpre (by simp)⟩
    | clock => exact ⟨h.request, hfacts, unused_own h.unused hpre (by simp)⟩
    | ensureTable => exact ⟨h.request, hfacts, unused_own h.unused hpre (by simp)⟩
    | selectInvocation principal task key =>
      exact ⟨h.request, hfacts, unused_own h.unused hpre (by simp)⟩
    | selectRuns runId => exact ⟨h.request, hfacts, unused_own h.unused hpre (by simp)⟩
    | readRun task runId => exact ⟨h.request, hfacts, unused_own h.unused hpre (by simp)⟩

end Sound

/-! ## The programs keep the discipline -/

section Upholds

variable {P : Runtime} {κ : Known}

/-- Nothing is asked of the end of a program. -/
abbrev Keeps (P : Runtime) {α : Type} (κ : Known) (s : Program α) : Prop :=
  s.Upholds (auditing P) (fun _ _ => True) κ

theorem Keeps.map {α β : Type} {s : Program α} (f : α → β) (h : Keeps P κ s) :
    Keeps P κ (f <$> s) := by
  refine Script.Upholds.bind (h.mono fun κ' r _ => ?_)
  cases r with
  | ok a => trivial
  | error t => trivial

theorem Keeps.guarded {α : Type} {s : Program α} {requestId : String} (h : Keeps P κ s) :
    Keeps P κ (guarded requestId s) := by
  refine Script.Upholds.tryCatch (h.mono fun κ' r _ => ?_)
  match r with
  | .ok a => trivial
  | .error (.ledger e) => trivial
  | .error .raw => trivial

theorem keeps_insertBegin (input : BeginInput) (begin : AutomationRunBeginInput)
    (requestId now : String) : Keeps P κ (insertBegin input begin requestId now) := by
  refine ⟨trivial, fun r _ => ?_⟩
  cases r with
  | error t => trivial
  | ok uuid =>
    refine ⟨⟨rfl, rfl, uuid, rfl, rfl⟩, fun r _ => ?_⟩
    cases r with
    | error t => trivial
    | ok inserted =>
      cases inserted with
      | true => trivial
      | false =>
        obtain ⟨task, invocation, prompt⟩ := begin
        cases invocation with
        | none => trivial
        | some key =>
          refine ⟨trivial, fun r _ => ?_⟩
          cases r with
          | error t => trivial
          | ok found =>
            cases found with
            | none => trivial
            | some replay => trivial

theorem keeps_beginRow (input : BeginInput) (begin : AutomationRunBeginInput)
    (requestId now : String) : Keeps P κ (beginRow input begin requestId now) := by
  refine ⟨trivial, fun r _ => ?_⟩
  cases r with
  | error t => trivial
  | ok _ =>
    obtain ⟨task, invocation, prompt⟩ := begin
    cases invocation with
    | none => exact keeps_insertBegin ..
    | some key =>
      refine ⟨trivial, fun r _ => ?_⟩
      cases r with
      | error t => trivial
      | ok found =>
        cases found with
        | none => exact keeps_insertBegin ..
        | some existing => trivial

/-- What an end answers once it has read its row again. -/
theorem keeps_finished (finalHash requestId : String) (finished : Option StoredAutomationRun) :
    Keeps P κ (match finished.bind fun row => (present row.final_payload_sha256).map (row, ·) with
      | none => throw (unavailable "end_run update/read failed" requestId)
      | some (row, sha) =>
        if sha ≠ finalHash then throw (differentOutcome requestId)
        else return endResult .RECORDED row) := by
  split
  · trivial
  · split_ifs
    · trivial
    · trivial

theorem keeps_endRow {input : EndInput} {finish : AutomationRunEndInput}
    (hrequest : κ.request = .finish input) (hparse : parseEnd P input.finish = .ok finish)
    (requestId now : String) {existing : StoredAutomationRun}
    (hid : existing.run_id = finish.run_id) :
    Keeps P κ (endRow finish (finish.payload.digest P) requestId now existing) := by
  unfold endRow
  split
  · split_ifs
    · trivial
    · trivial
  · refine ⟨⟨input, finish, hrequest, hparse, hid, rfl, rfl⟩, fun r _ => ?_⟩
    cases r with
    | error t => trivial
    | ok _ =>
      refine ⟨trivial, fun r _ => ?_⟩
      cases r with
      | error t => trivial
      | ok finished => exact keeps_finished _ requestId finished

theorem keeps_endRows {input : EndInput} {finish : AutomationRunEndInput}
    (hrequest : κ.request = .finish input) (hparse : parseEnd P input.finish = .ok finish)
    (requestId now : String) :
    Keeps P κ (endRows finish (finish.payload.digest P) requestId now) := by
  refine ⟨trivial, fun r _ => ?_⟩
  cases r with
  | error t => trivial
  | ok _ =>
    refine ⟨trivial, fun r hmay => ?_⟩
    match r, hmay with
    | .error t, _ => trivial
    | .ok [], _ => trivial
    | .ok [existing], hmay =>
      exact keeps_endRow hrequest hparse requestId now (hmay existing List.mem_cons_self)
    | .ok (_ :: _ :: _), _ => trivial

/-- What follows a given value or a drawn one. -/
theorem keeps_givenOr_bind {β : Type} {given : Option String} {s : Program String}
    {f : String → Program β} (hs : Keeps P κ (s >>= f)) (hf : ∀ value, Keeps P κ (f value)) :
    Keeps P κ (givenOr given s >>= f) := by
  cases given with
  | some value => exact hf value
  | none => exact hs

theorem keeps_beginAt (input : BeginInput) (κ : Known) (requestId : String) : Keeps P κ (do
    match parseBegin P input.begin with
    | .error t => throw t
    | .ok begin =>
      let now ← givenOr input.now (Script.perform Op.clock)
      if validIso P now then guarded requestId (beginRow input begin requestId now)
      else throw (.ledger ⟨.AUTOMATION_RUN_VALIDATION_FAILED, "server run timestamp is invalid",
        false, some requestId⟩)) := by
  split
  · trivial
  · rename_i begin _
    have hnow : ∀ now, Keeps P κ (if validIso P now
        then guarded requestId (beginRow input begin requestId now)
        else throw (.ledger ⟨.AUTOMATION_RUN_VALIDATION_FAILED,
          "server run timestamp is invalid", false, some requestId⟩)) := by
      intro now
      split_ifs
      · exact (keeps_beginRow ..).guarded
      · trivial
    refine keeps_givenOr_bind ⟨trivial, fun r _ => ?_⟩ hnow
    cases r with
    | ok now => exact hnow now
    | error t => trivial

theorem keeps_endAt {input : EndInput} {κ : Known} (hκ : κ.request = .finish input) (requestId : String) :
    Keeps P κ (do
      match parseEnd P input.finish with
      | .error t => throw t
      | .ok finish =>
        let now ← givenOr input.now (Script.perform Op.clock)
        guarded requestId (endRows finish (finish.payload.digest P) requestId now)) := by
  split
  · trivial
  · rename_i finish hparse
    refine keeps_givenOr_bind ⟨trivial, fun r _ => ?_⟩
      fun now => (keeps_endRows hκ hparse requestId now).guarded
    cases r with
    | ok now => exact (keeps_endRows hκ hparse requestId now).guarded
    | error t => trivial

theorem keeps_program (P : Runtime) (request : Request) :
    Keeps P ⟨request, none⟩ (request.program P) := by
  cases request with
  | begin input =>
    refine Keeps.map _ (keeps_givenOr_bind ⟨trivial, fun r _ => ?_⟩ (keeps_beginAt input _))
    cases r with
    | ok uuid => exact keeps_beginAt input _ uuid
    | error t => trivial
  | finish input =>
    refine Keeps.map _ (keeps_givenOr_bind ⟨trivial, fun r _ => ?_⟩ (keeps_endAt rfl))
    cases r with
    | ok uuid => exact keeps_endAt rfl uuid
    | error t => trivial

end Upholds

/-! ## Payloads and their texts -/

theorem AutomationRunOutcome.text_inj {o o' : AutomationRunOutcome} (h : o.text = o'.text) : o = o' := by
  cases o <;> cases o' <;> first | rfl | exact absurd h (by decide)

theorem FinalPayload.json_eq (p : FinalPayload) :
    p.json = .obj [("outcome", .str p.outcome.text),
      ("fresh_delta_count", .num (.ofInt p.fresh_delta_count)),
      ("notification_intended", .bool p.notification_intended),
      ("reason", p.reason.elim .null .str)] := by
  obtain ⟨outcome, count, intended, reason⟩ := p
  cases reason <;> rfl

/-- Two payloads are digested from one text only where they are one payload. -/
theorem FinalPayload.text_inj {p q : FinalPayload} (h : p.json.rebuiltText = q.json.rebuiltText) :
    p = q := by
  rw [p.json_eq, q.json_eq] at h
  have hpaired := Json.rebuiltText_paired [("outcome", .str p.outcome.text, .str q.outcome.text),
    ("fresh_delta_count", .num (.ofInt p.fresh_delta_count), .num (.ofInt q.fresh_delta_count)),
    ("notification_intended", .bool p.notification_intended, .bool q.notification_intended),
    ("reason", p.reason.elim .null .str, q.reason.elim .null .str)]
  have hfields := hpaired.1 h
  simp only [List.forall_mem_cons, Json.rebuiltText_str, Json.rebuiltText_num,
    Json.rebuiltText_bool] at hfields
  obtain ⟨houtcome, hcount, hintended, hreason, -⟩ := hfields
  have hlt : ∀ n : Fin 10001, (n : ℕ) < 10 ^ 21 := fun n => n.isLt.trans (by decide)
  have hcount' : p.fresh_delta_count = q.fresh_delta_count :=
    Fin.ext (Decimal.text_ofInt_inj (hlt _) (hlt _) hcount)
  have hreason' : p.reason = q.reason := by
    cases hp : p.reason with
    | none =>
      cases hq : q.reason with
      | none => rfl
      | some reason =>
        rw [hp, hq] at hreason
        exact absurd hreason Json.rebuiltText_null_str
    | some reason =>
      cases hq : q.reason with
      | none =>
        rw [hp, hq] at hreason
        exact absurd hreason.symm Json.rebuiltText_null_str
      | some reason' =>
        rw [hp, hq] at hreason
        exact congrArg some (Json.rebuiltText_str.1 hreason)
  obtain ⟨o, n, b, r⟩ := p
  obtain ⟨o', n', b', r'⟩ := q
  obtain rfl := AutomationRunOutcome.text_inj houtcome
  obtain rfl : n = n' := hcount'
  obtain rfl : b = b' := hintended
  obtain rfl : r = r' := hreason'
  rfl

/-! ## How a request has come to its answer -/

section Answers

variable {P : Runtime} {ks : Log}

theorem statement_ok {α : Type} {f : Fault} {a b : α} {w w' : World}
    (h : .ok b = (f.statement a w w').1) : f = .none ∧ b = a := by
  cases f with
  | none => exact ⟨rfl, Except.ok.inj h⟩
  | before => cases h
  | after => cases h

theorem statement_error {α : Type} {f : Fault} {a : α} {w w' : World} {t : Thrown}
    (h : .error t = (f.statement a w w').1) : f ≠ .none ∧ t = .raw := by
  cases f with
  | none => cases h
  | before => exact ⟨nofun, Except.error.inj h⟩
  | after => exact ⟨nofun, Except.error.inj h⟩

theorem statement_self {α : Type} (f : Fault) (a : α) (w : World) : (f.statement a w w).2 = w := by
  cases f <;> rfl

/-- One operation that is performed, then the rest. -/
theorem completes_perform {β : Type} {op : Op} {f : Res op → Program β} {r : Except Thrown β}
    (h : machine.Completes (Script.perform op >>= f) ks r) :
    ∃ t ch w ks', ks = ⟨t, op, ch, w⟩ :: ks' ∧
      ((∃ thrown, .error thrown = (machine.perform ch op w).1 ∧ ks' = [] ∧ r = .error thrown) ∨
        ∃ a, .ok a = (machine.perform ch op w).1 ∧ machine.Completes (f a) ks' r) := by
  rw [Script.perform_bind] at h
  obtain ⟨t, ch, w, ks', rfl, h'⟩ := Machine.completes_call.1 h
  refine ⟨t, ch, w, ks', rfl, ?_⟩
  cases hanswer : (machine.perform ch op w).1 with
  | error thrown =>
    rw [hanswer] at h'
    obtain ⟨rfl, rfl⟩ := Machine.completes_halt.1 h'
    exact .inl ⟨thrown, rfl, rfl, rfl⟩
  | ok a =>
    rw [hanswer] at h'
    exact .inr ⟨a, rfl, h'⟩

theorem completes_clock {r : Except Thrown String}
    (h : machine.Completes (Script.perform Op.clock) ks r) : ∃ now, r = .ok now := by
  obtain ⟨t, ch, w, ks', rfl, hend⟩ := Machine.completes_call.1 h
  exact ⟨ch.now, (Machine.completes_halt.1 hend).2⟩

theorem completes_randomUUID {r : Except Thrown String}
    (h : machine.Completes (Script.perform Op.randomUUID) ks r) : ∃ uuid, r = .ok uuid := by
  obtain ⟨t, ch, w, ks', rfl, hend⟩ := Machine.completes_call.1 h
  exact ⟨ch.uuid, (Machine.completes_halt.1 hend).2⟩

/-- A value is given or drawn, and the rest follows. -/
theorem completes_givenOr {β : Type} {given : Option String} {s : Program String}
    {f : String → Program β} {r : Except Thrown β}
    (hs : ∀ ks r, machine.Completes s ks r → ∃ value, r = .ok value)
    (h : machine.Completes (givenOr given s >>= f) ks r) :
    ∃ value ks', ks' ⊆ ks ∧ machine.Completes (f value) ks' r := by
  cases given with
  | some value => exact ⟨value, ks, List.Subset.refl ks, h⟩
  | none =>
    rcases Machine.completes_bind.1 h with ⟨t, h, -⟩ | ⟨value, ks₁, ks₂, rfl, -, h⟩
    · obtain ⟨value, hvalue⟩ := hs _ _ h
      cases hvalue
    · exact ⟨value, ks₂, List.subset_append_right ks₁ ks₂, h⟩

/-- A guarded program has the answer of the program, or hides an error that is not the ledger's. -/
theorem completes_guarded {α : Type} {s : Program α} {requestId : String} {r : Except Thrown α}
    (h : machine.Completes (guarded requestId s) ks r) :
    machine.Completes s ks r ∨ machine.Completes s ks (.error .raw) ∧
      r = .error (unavailable "automation run audit storage is unavailable" requestId) := by
  rcases Machine.completes_tryCatch.1 h with ⟨a, hs, rfl⟩ | ⟨t, ks₁, ks₂, rfl, hs, hrest⟩
  · exact .inl hs
  · cases t with
    | ledger e =>
      obtain ⟨rfl, rfl⟩ := Machine.completes_halt.1 hrest
      exact .inl (by simpa using hs)
    | raw =>
      obtain ⟨rfl, rfl⟩ := Machine.completes_halt.1 hrest
      exact .inr ⟨by simpa using hs, rfl⟩

/-- A begin answers with a row of its invocation. -/
def BeginAnswer (principal task key : String) (ks : Log) (result : BeginResult) : Prop :=
  ∃ k ∈ ks, ∃ row ∈ machine.after k, row.principal = some principal ∧ row.task_name = task ∧
    row.invocation_key = some key ∧ row.run_id = result.run_id

theorem BeginAnswer.mono {principal task key : String} {ks' : Log} {result : BeginResult}
    (h : BeginAnswer principal task key ks result) (hks : ks ⊆ ks') :
    BeginAnswer principal task key ks' result :=
  let ⟨k, hk, hrow⟩ := h
  ⟨k, hks hk, hrow⟩

theorem beginAnswer_select {t : ℕ} {ch : Choice} {w : World} {principal task key : String}
    {row : StoredAutomationRun}
    (h : .ok (some row) = (machine.perform ch (.selectInvocation principal task key) w).1) :
    BeginAnswer principal task key (⟨t, .selectInvocation principal task key, ch, w⟩ :: ks)
      (replayBegin row) := by
  obtain ⟨hmem, hrow⟩ := Table.mem_of_find? (statement_ok h).2.symm
  obtain ⟨hprincipal, htask, hkey⟩ := of_decide_eq_true hrow
  refine ⟨_, List.mem_cons_self, row, ?_, hprincipal, htask, hkey, rfl⟩
  change row ∈ (ch.fault.statement _ w w).2
  rwa [statement_self]

theorem beginAnswer_insertBegin {input : BeginInput} {begin : AutomationRunBeginInput} {key : String}
    (hkey : begin.invocation_key = some key) {requestId now : String} {result : BeginResult}
    (h : machine.Completes (insertBegin input begin requestId now) ks (.ok result)) :
    BeginAnswer input.principal begin.task key ks result := by
  unfold insertBegin at h
  obtain ⟨t, ch, w, ks₁, rfl, ⟨_, _, _, hr⟩ | ⟨uuid, -, h⟩⟩ := completes_perform h
  · cases hr
  obtain ⟨t', ch', w', ks₂, rfl, ⟨_, _, _, hr⟩ | ⟨inserted, hinserted, h⟩⟩ := completes_perform h
  · cases hr
  refine BeginAnswer.mono ?_ (List.subset_cons_self _ _)
  obtain ⟨hfault, hsome⟩ := statement_ok hinserted
  cases inserted with
  | true =>
    obtain ⟨rfl, hr⟩ := Machine.completes_halt.1 h
    obtain ⟨w'', hinsert⟩ := Option.isSome_iff_exists.1 hsome.symm
    obtain rfl := Except.ok.inj hr
    refine ⟨_, List.mem_cons_self, begunRow begin ("run_" ++ uuid) input.principal now
      input.collectorBuildSha input.cloudflareVersionId, ?_, rfl, rfl, hkey, rfl⟩
    simp only [Machine.after, machine, perform, Fault.statement, hfault, insertRun, hinsert]
    exact (Table.mem_insert? hinsert).2 (.inr rfl)
  | false =>
    simp only [hkey, Bool.false_eq_true, if_false] at h
    obtain ⟨t'', ch'', w'', ks₃, rfl, ⟨_, _, _, hr⟩ | ⟨replay, hreplay, h⟩⟩ := completes_perform h
    · cases hr
    refine BeginAnswer.mono ?_ (List.subset_cons_self _ _)
    cases replay with
    | none => cases (Machine.completes_halt.1 h).2
    | some row =>
      obtain ⟨rfl, hr⟩ := Machine.completes_halt.1 h
      obtain rfl := Except.ok.inj hr
      exact beginAnswer_select hreplay

theorem beginAnswer_beginAutomationRun {input : BeginInput} {begin : AutomationRunBeginInput}
    {key : String} (hparse : parseBegin P input.begin = .ok begin)
    (hkey : begin.invocation_key = some key) {result : BeginResult}
    (h : machine.Completes (beginAutomationRun P input) ks (.ok result)) :
    BeginAnswer input.principal begin.task key ks result := by
  obtain ⟨requestId, ks₁, hks₁, h⟩ := completes_givenOr (fun _ _ => completes_randomUUID) h
  simp only [hparse] at h
  obtain ⟨now, ks₂, hks₂, h⟩ := completes_givenOr (fun _ _ => completes_clock) h
  refine BeginAnswer.mono ?_ (List.Subset.trans hks₂ hks₁)
  split_ifs at h
  · rcases completes_guarded h with h | ⟨-, hr⟩
    · unfold beginRow at h
      obtain ⟨t, ch, w, ks₃, rfl, ⟨_, _, _, hr⟩ | ⟨-, -, h⟩⟩ := completes_perform h
      · cases hr
      refine BeginAnswer.mono ?_ (List.subset_cons_self _ _)
      simp only [hkey] at h
      obtain ⟨t, ch, w, ks₄, rfl, ⟨_, _, _, hr⟩ | ⟨existing, hexisting, h⟩⟩ := completes_perform h
      · cases hr
      cases existing with
      | some row =>
        obtain ⟨rfl, hr⟩ := Machine.completes_halt.1 h
        obtain rfl := Except.ok.inj hr
        exact beginAnswer_select hexisting
      | none => exact (beginAnswer_insertBegin hkey h).mono (List.subset_cons_self _ _)
    · cases hr
  · cases (Machine.completes_halt.1 h).2

def IsConflict (t : Thrown) : Prop :=
  ∃ e, t = .ledger e ∧ e.code = .AUTOMATION_RUN_CONFLICT

/-- How an end has come to its answer. -/
inductive EndAnswer (P : Runtime) (e : AutomationRunEndInput) (ks : Log) :
    Except Thrown EndResult → Prop
  | ended {k : Call Op World Choice} {row : StoredAutomationRun} (status : AuditStatus) (hk : k ∈ ks)
      (hrow : row ∈ machine.after k) (hid : row.run_id = e.run_id)
      (hsha : row.final_payload_sha256 = some (e.payload.digest P)) :
      EndAnswer P e ks (.ok (endResult status row))
  | different {k : Call Op World Choice} {row : StoredAutomationRun} {sha : String}
      (requestId : String) (hk : k ∈ ks) (hrow : row ∈ machine.after k) (hid : row.run_id = e.run_id)
      (hsha : row.final_payload_sha256 = some sha) (hne : sha ≠ e.payload.digest P) :
      EndAnswer P e ks (.error (differentOutcome requestId))
  | ambiguous {k : Call Op World Choice} {a b : StoredAutomationRun} {rows : List StoredAutomationRun}
      (requestId : String) (hk : k ∈ ks) (hop : k.op = .selectRuns e.run_id)
      (hrows : runRows k.before e.run_id = a :: b :: rows) :
      EndAnswer P e ks (.error (conflict "run_id is not unique" requestId))
  | unfinished {k : Call Op World Choice} {t : Thrown} (hk : k ∈ ks) (hop : k.op = .selectRuns e.run_id)
      (hrows : ∀ row ∈ runRows k.before e.run_id, present row.final_payload_sha256 = none)
      (ht : ¬ IsConflict t) : EndAnswer P e ks (.error t)
  | failed {k : Call Op World Choice} {t : Thrown} (hk : k ∈ ks) (hfault : k.choice.fault ≠ .none)
      (ht : ¬ IsConflict t) : EndAnswer P e ks (.error t)

theorem EndAnswer.mono {e : AutomationRunEndInput} {ks' : Log} {r : Except Thrown EndResult}
    (h : EndAnswer P e ks r) (hks : ks ⊆ ks') : EndAnswer P e ks' r := by
  cases h with
  | ended status hk hrow hid hsha => exact .ended status (hks hk) hrow hid hsha
  | different requestId hk hrow hid hsha hne =>
    exact .different requestId (hks hk) hrow hid hsha hne
  | ambiguous requestId hk hop hrows => exact .ambiguous requestId (hks hk) hop hrows
  | unfinished hk hop hrows ht => exact .unfinished (hks hk) hop hrows ht
  | failed hk hfault ht => exact .failed (hks hk) hfault ht

theorem not_isConflict_raw : ¬ IsConflict .raw := by
  rintro ⟨e, h, -⟩
  cases h

theorem not_isConflict_unavailable (message requestId : String) :
    ¬ IsConflict (unavailable message requestId) := by
  rintro ⟨e, h, hcode⟩
  cases h
  cases hcode

theorem eq_some_of_present {sha : Option String} {s : String} (h : present sha = some s) :
    sha = some s :=
  (Option.filter_eq_some_iff.1 h).1

/-- From the one row of the run on. -/
theorem endAnswer_endRow {e : AutomationRunEndInput} {requestId now : String}
    {existing : StoredAutomationRun} {k : Call Op World Choice} (hop : k.op = .selectRuns e.run_id)
    (hrows : runRows k.before e.run_id = [existing]) {r : Except Thrown EndResult}
    (h : machine.Completes (endRow e (e.payload.digest P) requestId now existing) ks r) :
    EndAnswer P e (k :: ks) r := by
  have hmem := List.mem_filter.1 (hrows ▸ List.mem_singleton_self existing :
    existing ∈ runRows k.before e.run_id)
  have hid : existing.run_id = e.run_id := (of_decide_eq_true hmem.2).1
  have hafter : machine.after k = k.before := by
    obtain ⟨t, op, ch, w⟩ := k
    obtain rfl : op = .selectRuns e.run_id := hop
    exact statement_self ch.fault _ w
  unfold endRow at h
  cases hpresent : present existing.final_payload_sha256 with
  | some sha =>
    have hsha := eq_some_of_present hpresent
    have hrow : existing ∈ machine.after k := hafter ▸ hmem.1
    simp only [hpresent] at h
    split_ifs at h with hne
    · obtain ⟨rfl, rfl⟩ := Machine.completes_halt.1 h
      exact .different requestId List.mem_cons_self hrow hid hsha hne
    · obtain ⟨rfl, rfl⟩ := Machine.completes_halt.1 h
      exact .ended _ List.mem_cons_self hrow hid (hsha.trans (congrArg some (not_not.1 hne)))
  | none =>
    have hunfinished : ∀ row ∈ runRows k.before e.run_id, present row.final_payload_sha256 = none := by
      rw [hrows]
      exact List.forall_mem_singleton.2 hpresent
    simp only [hpresent] at h
    obtain ⟨t, ch, w, ks₁, rfl, ⟨thrown, hfail, rfl, rfl⟩ | ⟨-, -, h⟩⟩ := completes_perform h
    · obtain ⟨hfault, rfl⟩ := statement_error hfail
      exact .failed (List.mem_cons_of_mem _ List.mem_cons_self) hfault not_isConflict_raw
    obtain ⟨t', ch', w', ks₂, rfl, ⟨thrown, hfail, rfl, rfl⟩ | ⟨finished, hfinished, h⟩⟩ :=
      completes_perform h
    · obtain ⟨hfault, rfl⟩ := statement_error hfail
      exact .failed (List.mem_cons_of_mem _ (List.mem_cons_of_mem _ List.mem_cons_self)) hfault
        not_isConflict_raw
    cases hfound : finished.bind fun row => (present row.final_payload_sha256).map (row, ·) with
    | none =>
      simp only [hfound] at h
      obtain ⟨rfl, rfl⟩ := Machine.completes_halt.1 h
      exact .unfinished List.mem_cons_self hop hunfinished (not_isConflict_unavailable _ _)
    | some found =>
      obtain ⟨row, sha⟩ := found
      obtain ⟨row', hrow', hmap⟩ := Option.bind_eq_some_iff.1 hfound
      obtain ⟨sha', hsha', heq⟩ := Option.map_eq_some_iff.1 hmap
      obtain ⟨rfl, rfl⟩ := Prod.mk.inj heq
      have hsha := eq_some_of_present hsha'
      obtain ⟨hmem', hread⟩ := Table.mem_of_find? ((statement_ok hfinished).2.symm.trans hrow')
      have hid' : row'.run_id = e.run_id := (of_decide_eq_true hread).2.trans hid
      have hk : (⟨t', .readRun existing.task_name existing.run_id, ch', w'⟩ :
          Call Op World Choice) ∈ k :: ⟨t, .finishRun ⟨existing.task_name, existing.run_id, now,
            e.payload, e.payload.digest P⟩, ch, w⟩ ::
              ⟨t', .readRun existing.task_name existing.run_id, ch', w'⟩ :: ks₂ :=
        List.mem_cons_of_mem _ (List.mem_cons_of_mem _ List.mem_cons_self)
      have hrow : row' ∈ machine.after ⟨t', .readRun existing.task_name existing.run_id, ch', w'⟩ := by
        change row' ∈ (ch'.fault.statement _ w' w').2
        rwa [statement_self]
      simp only [hfound] at h
      split_ifs at h with hne
      · obtain ⟨-, rfl⟩ := Machine.completes_halt.1 h
        exact .different requestId hk hrow hid' hsha hne
      · obtain ⟨-, rfl⟩ := Machine.completes_halt.1 h
        exact .ended _ hk hrow hid' (hsha.trans (congrArg some (not_not.1 hne)))

theorem endAnswer_endRows {e : AutomationRunEndInput} {requestId now : String}
    {r : Except Thrown EndResult}
    (h : machine.Completes (endRows e (e.payload.digest P) requestId now) ks r) :
    EndAnswer P e ks r := by
  unfold endRows at h
  obtain ⟨t, ch, w, ks₁, rfl, ⟨thrown, hfail, rfl, rfl⟩ | ⟨-, -, h⟩⟩ := completes_perform h
  · obtain ⟨hfault, rfl⟩ := statement_error hfail
    exact .failed List.mem_cons_self hfault not_isConflict_raw
  refine EndAnswer.mono ?_ (List.subset_cons_self _ _)
  obtain ⟨t, ch, w, ks₂, rfl, ⟨thrown, hfail, rfl, rfl⟩ | ⟨rows, hrows, h⟩⟩ := completes_perform h
  · obtain ⟨hfault, rfl⟩ := statement_error hfail
    exact .failed List.mem_cons_self hfault not_isConflict_raw
  have hfound : runRows w e.run_id = rows := (statement_ok hrows).2.symm
  match rows, hfound, h with
  | [], hfound, h =>
    obtain ⟨rfl, rfl⟩ := Machine.completes_halt.1 h
    refine .unfinished List.mem_cons_self rfl (fun row hrow => ?_) ?_
    · simp only [hfound, List.not_mem_nil] at hrow
    · rintro ⟨e, he, hcode⟩
      cases he
      cases hcode
  | [existing], hfound, h =>
    exact endAnswer_endRow (k := ⟨t, .selectRuns e.run_id, ch, w⟩) rfl hfound h
  | a :: b :: rows, hfound, h =>
    obtain ⟨rfl, rfl⟩ := Machine.completes_halt.1 h
    exact .ambiguous requestId List.mem_cons_self rfl hfound

theorem endAnswer_endAutomationRun {input : EndInput} {e : AutomationRunEndInput}
    (hparse : parseEnd P input.finish = .ok e) {r : Except Thrown EndResult}
    (h : machine.Completes (endAutomationRun P input) ks r) : EndAnswer P e ks r := by
  obtain ⟨requestId, ks₁, hks₁, h⟩ := completes_givenOr (fun _ _ => completes_randomUUID) h
  simp only [hparse] at h
  obtain ⟨now, ks₂, hks₂, h⟩ := completes_givenOr (fun _ _ => completes_clock) h
  refine EndAnswer.mono ?_ (List.Subset.trans hks₂ hks₁)
  rcases completes_guarded h with hrows | ⟨hraw, rfl⟩
  · exact endAnswer_endRows hrows
  · cases endAnswer_endRows hraw with
    | unfinished hk hop hrows ht => exact .unfinished hk hop hrows (not_isConflict_unavailable _ _)
    | failed hk hfault ht => exact .failed hk hfault (not_isConflict_unavailable _ _)

end Answers

/-! ## Runs -/

section Settled

variable {P : Runtime} {w : World} {requests : ℕ → Request}

/-- Before the ledger's first run the table has the rows of its predecessor, none of them finished
by an end. -/
def Initial (w : World) : Prop :=
  ∀ r ∈ w, r.source_contract = .legacyEventV1 ∧ r.final_payload_sha256 = none

theorem facts_exec (hw : Initial w) (es : List (ℕ × Choice)) :
    let c : Run := machine.exec (Config.start w fun t => (requests t).program P) es
    Facts P requests c.log c.world := by
  have hfacts : Facts P requests [] w :=
    ⟨fun r hr hfinal => absurd (hw r hr).2 hfinal,
      fun r hr hrun => absurd hrun (by rw [(hw r hr).1]; exact nofun),
      fun _ r hr _ _ hrun => absurd hrun (by rw [(hw r hr).1]; exact nofun)⟩
  have hinformed := Machine.informed_exec (sound_auditing P requests)
    (Machine.informed_start (fun t => ⟨requests t, none⟩) (fun t => keeps_program P (requests t))
      fun t => ⟨rfl, hfacts, nofun⟩) es
  obtain ⟨κ, -, hmeans⟩ := hinformed.known 0
  exact hmeans.facts

theorem evolves_exec (c : Run) (es : List (ℕ × Choice)) : Evolves c.world (machine.exec c es).world :=
  Machine.evolves_exec Evolves.refl Evolves.trans evolves_perform c es

theorem evolves_log (es : List (ℕ × Choice)) :
    let c : Run := machine.exec (Config.start w fun t => (requests t).program P) es
    ∀ k ∈ c.log, Evolves (machine.after k) c.world :=
  Machine.evolves_log Evolves.refl Evolves.trans evolves_perform es

/-- The thread begins a run for the invocation. -/
def Begins (P : Runtime) (requests : ℕ → Request) (t : ℕ) (principal task key : String) : Prop :=
  ∃ input begin, requests t = .begin input ∧ parseBegin P input.begin = .ok begin ∧
    input.principal = principal ∧ begin.task = task ∧ begin.invocation_key = some key

variable {es : List (ℕ × Choice)} {t : ℕ}

/-- A begin that answers, answers with a row that is there. -/
theorem begun_row {principal task key : String} {result : BeginResult}
    (hbegins : Begins P requests t principal task key)
    (hresult : (machine.exec (Config.start w fun t => (requests t).program P) es).result? t =
      some (.ok (.begun result))) :
    ∃ row ∈ (machine.exec (Config.start w fun t => (requests t).program P) es).world,
      row.principal = some principal ∧ row.task_name = task ∧ row.invocation_key = some key ∧
        row.run_id = result.run_id := by
  obtain ⟨input, begin, hrequest, hparse, rfl, rfl, hkey⟩ := hbegins
  have hcompletes := Machine.completes_exec es hresult
  rw [hrequest] at hcompletes
  rcases Machine.completes_bind.1 hcompletes with ⟨_, -, hr⟩ | ⟨result', ks₁, ks₂, hks, h, hend⟩
  · cases hr
  obtain ⟨rfl, hr⟩ := Machine.completes_halt.1 hend
  obtain rfl := Answer.begun.inj (Except.ok.inj hr)
  obtain ⟨k, hk, row, hrow, hprincipal, htask, hkey', hid⟩ :=
    beginAnswer_beginAutomationRun hparse hkey h
  have hlog := List.mem_of_mem_filter (List.mem_reverse.1 (hks ▸ List.mem_append_left [] hk))
  obtain ⟨row', hrow', hsame, -⟩ := evolves_log es k hlog row hrow
  exact ⟨row', hrow', hsame.principal.trans hprincipal, hsame.task_name.trans htask,
    hsame.invocation_key.trans hkey', hsame.run_id.trans hid⟩

/-- An answer of an end, or the same error. -/
def endResult? : Except Thrown Answer → Option (Except Thrown EndResult)
  | .ok (.ended result) => some (.ok result)
  | .ok (.begun _) => none
  | .error t => some (.error t)

theorem end_answer {e : AutomationRunEndInput} (hends : Ends P requests t e)
    {r : Except Thrown Answer}
    (hresult : (machine.exec (Config.start w fun t => (requests t).program P) es).result? t = some r) :
    ∃ r', endResult? r = some r' ∧ EndAnswer P e
      ((machine.exec (Config.start w fun t => (requests t).program P) es).trace t) r' := by
  obtain ⟨input, hrequest, hparse⟩ := hends
  have hcompletes := Machine.completes_exec es hresult
  rw [hrequest] at hcompletes
  rcases Machine.completes_bind.1 hcompletes with ⟨thrown, h, rfl⟩ | ⟨result, ks₁, ks₂, hks, h, hend⟩
  · exact ⟨_, rfl, (endAnswer_endAutomationRun hparse h).mono fun _ => List.mem_reverse.1⟩
  · obtain ⟨rfl, rfl⟩ := Machine.completes_halt.1 hend
    rw [List.append_nil] at hks
    subst hks
    exact ⟨_, rfl, (endAnswer_endAutomationRun hparse h).mono fun _ => List.mem_reverse.1⟩

/-- An accepted end finished the row of its run, with its payload's digest. -/
theorem ended_row {e : AutomationRunEndInput} {result : EndResult} (hends : Ends P requests t e)
    (hresult : (machine.exec (Config.start w fun t => (requests t).program P) es).result? t =
      some (.ok (.ended result))) :
    ∃ row ∈ (machine.exec (Config.start w fun t => (requests t).program P) es).world,
      row.run_id = e.run_id ∧ row.final_payload_sha256 = some (e.payload.digest P) := by
  obtain ⟨r', hr', hanswer⟩ := end_answer hends hresult
  obtain rfl := Option.some.inj hr'
  cases hanswer with
  | ended status hk hrow hid hsha =>
    obtain ⟨row', hrow', hsame, hkept⟩ := evolves_log es _ (List.mem_of_mem_filter hk) _ hrow
    refine ⟨row', hrow', hsame.run_id.trans hid, ?_⟩
    rw [hkept (by rw [hsha]; exact nofun), hsha]

/-- An end that meets a conflict found its run's row with another digest. -/
theorem conflict_row (hw : Initial w) {e : AutomationRunEndInput} {thrown : Thrown}
    (hends : Ends P requests t e)
    (hdistinct : DistinctDraws (machine.exec (Config.start w fun t => (requests t).program P) es).log)
    (hresult : (machine.exec (Config.start w fun t => (requests t).program P) es).result? t =
      some (.error thrown)) (hconflict : IsConflict thrown) :
    ∃ row ∈ (machine.exec (Config.start w fun t => (requests t).program P) es).world,
      row.run_id = e.run_id ∧ ∃ sha, row.final_payload_sha256 = some sha ∧
        sha ≠ e.payload.digest P := by
  obtain ⟨r', hr', hanswer⟩ := end_answer hends hresult
  obtain rfl := Option.some.inj hr'
  cases hanswer with
  | different requestId hk hrow hid hsha hne =>
    obtain ⟨row', hrow', hsame, hkept⟩ := evolves_log es _ (List.mem_of_mem_filter hk) _ hrow
    obtain rfl := hkept (by rw [hsha]; exact nofun)
    exact ⟨_, hrow', hid, _, hsha, hne⟩
  | @ambiguous k a b rows requestId hk hop hrows =>
    -- two rows of the run would be two rows of one identifier
    have hmem : ∀ r ∈ [a, b], r ∈ k.before ∧ r.run_id = e.run_id ∧ r.source_contract = .runV2 := by
      intro r hr
      have hfound : r ∈ runRows k.before e.run_id := by
        rw [hrows]
        rcases List.mem_pair.1 hr with rfl | rfl
        · exact List.mem_cons_self
        · exact List.mem_cons_of_mem _ List.mem_cons_self
      obtain ⟨hr, hfilter⟩ := List.mem_filter.1 hfound
      exact ⟨hr, of_decide_eq_true hfilter⟩
    have hafter : machine.after k = k.before := by
      obtain ⟨t, op, ch, w⟩ := k
      obtain rfl : op = .selectRuns e.run_id := hop
      exact statement_self ch.fault _ w
    have hevolves := evolves_log es k (List.mem_of_mem_filter hk)
    rw [hafter] at hevolves
    obtain ⟨ha, haid, harun⟩ := hmem a List.mem_cons_self
    obtain ⟨hb, hbid, hbrun⟩ := hmem b (List.mem_cons_of_mem _ List.mem_cons_self)
    obtain ⟨a', ha', hasame, -⟩ := hevolves a ha
    obtain ⟨b', hb', hbsame, -⟩ := hevolves b hb
    have hab : a' = b' := (facts_exec hw es).unique hdistinct a' ha' b' hb'
      (hasame.source_contract.trans harun) (hbsame.source_contract.trans hbrun)
      ((hasame.run_id.trans haid).trans (hbsame.run_id.trans hbid).symm)
    have hkeys : a.primaryKey = b.primaryKey := by
      unfold StoredAutomationRun.primaryKey
      rw [haid, hbid, ← hasame.task_name, ← hbsame.task_name, hab]
    have hpairwise := (k.before.unique StoredAutomationRun.primaryKey List.mem_cons_self).filter
      fun r => decide (r.run_id = e.run_id ∧ r.source_contract = .runV2)
    change (runRows k.before e.run_id).Pairwise _ at hpairwise
    rw [hrows] at hpairwise
    exact absurd hkeys (List.rel_of_pairwise_cons hpairwise List.mem_cons_self nofun)
  | unfinished hk hop hrows ht => exact absurd hconflict ht
  | failed hk hfault ht => exact absurd hconflict ht

/-- Digests of the payloads that the run's ends give are apart, and never empty. -/
structure Digests (P : Runtime) (requests : ℕ → Request) : Prop where
  nonempty : ∀ text, P.sha256Hex text ≠ ""
  injective : ∀ t u e e', Ends P requests t e → Ends P requests u e' →
    P.sha256Hex e.payload.json.rebuiltText = P.sha256Hex e'.payload.json.rebuiltText →
      e.payload.json.rebuiltText = e'.payload.json.rebuiltText

/-- A finished row that has the digest of an end's payload holds the payload. -/
theorem holds_of_digest (hdigests : Digests P requests) {world : World}
    (hfinished : Finished P requests world) {e : AutomationRunEndInput} (hends : Ends P requests t e)
    {row : StoredAutomationRun} (hrow : row ∈ world)
    (hsha : row.final_payload_sha256 = some (e.payload.digest P)) : Holds P row e.payload := by
  obtain ⟨-, u, e', hends', -, hholds⟩ := hfinished row hrow (by rw [hsha]; exact nofun)
  have hdigest : e'.payload.digest P = e.payload.digest P :=
    Option.some.inj (hholds.digest.symm.trans hsha)
  rwa [← FinalPayload.text_inj (hdigests.injective u t e' e hends' hends hdigest)]

/-- How two moments `c` and `c'` of a run of the ledger stand to its begins and ends. -/
structure Settles (P : Runtime) (requests : ℕ → Request) (c c' : Run) : Prop where
  /-- There is one row for an invocation that a begin has answered. -/
  begun : ∀ principal task key t result, Begins P requests t principal task key →
    c'.result? t = some (.ok (.begun result)) →
      ∃ row ∈ c'.world, row.run_id = result.run_id ∧ ∀ row' ∈ c'.world,
        (row'.principal = some principal ∧ row'.task_name = task ∧ row'.invocation_key = some key ↔
          row' = row)
  /-- Begins of one invocation answer with one run. -/
  agreed : ∀ principal task key t t' result result', Begins P requests t principal task key →
    Begins P requests t' principal task key → c'.result? t = some (.ok (.begun result)) →
      c'.result? t' = some (.ok (.begun result')) → result'.run_id = result.run_id
  /-- What a run was finished with, stays. -/
  kept : ∀ row ∈ c.world, row.final_payload_sha256 ≠ none → row ∈ c'.world
  /-- The payload of an accepted end is what its run holds. -/
  accepted : ∀ t e result, Ends P requests t e → c'.result? t = some (.ok (.ended result)) →
    ∃ row ∈ c'.world, row.run_id = e.run_id ∧ Holds P row e.payload
  /-- An end with the payload that its run holds meets no conflict. -/
  identical : ∀ t e, Ends P requests t e → ∀ row ∈ c'.world, row.run_id = e.run_id →
    Holds P row e.payload → ∀ thrown, IsConflict thrown → c'.result? t ≠ some (.error thrown)
  /-- An end with another payload is not accepted. -/
  refused : ∀ t e, Ends P requests t e → ∀ row ∈ c'.world, row.run_id = e.run_id →
    row.final_payload_sha256 ≠ none → ¬ Holds P row e.payload →
      ∀ result, c'.result? t ≠ some (.ok (.ended result))
  /-- An end with another payload meets a conflict, where it comes after its run was finished and
  none of its own statements fails. -/
  conflict : ∀ t e r, Ends P requests t e → ∀ row ∈ c.world, row.run_id = e.run_id →
    row.final_payload_sha256 ≠ none → ¬ Holds P row e.payload → c.trace t = [] →
      (∀ k ∈ c'.trace t, k.choice.fault = .none) → c'.result? t = some r →
        row ∈ c'.world ∧ ∃ thrown, IsConflict thrown ∧ r = .error thrown

/-- **Begins and ends of runs.** However begins and ends interleave and wherever they fail, begins of
one invocation answer with the one row that it has, what a run is finished with stays, and an end is
accepted or meets a conflict as its payload is what its run holds or not. -/
theorem runs_settle (hw : Initial w) (es fs : List (ℕ × Choice)) (hdigests : Digests P requests)
    (hdistinct : DistinctDraws
      (machine.exec (Config.start w fun t => (requests t).program P) (es ++ fs)).log) :
    Settles P requests (machine.exec (Config.start w fun t => (requests t).program P) es)
      (machine.exec (Config.start w fun t => (requests t).program P) (es ++ fs)) := by
  let c : Run := machine.exec (Config.start w fun t => (requests t).program P) es
  let c' : Run := machine.exec (Config.start w fun t => (requests t).program P) (es ++ fs)
  change Settles P requests c c'
  have hfacts : Facts P requests c'.log c'.world := facts_exec hw (es ++ fs)
  have hexec : c' = machine.exec c fs := Machine.exec_append ..
  have hkept : ∀ row ∈ c.world, row.final_payload_sha256 ≠ none → row ∈ c'.world := by
    intro row hrow hfinal
    obtain ⟨row', hrow', -, heq⟩ := evolves_exec c fs row hrow
    rw [hexec, ← heq hfinal]
    exact hrow'
  have hone : ∀ principal task key row row', row ∈ c'.world → row' ∈ c'.world →
      row.principal = some principal ∧ row.task_name = task ∧ row.invocation_key = some key →
      row'.principal = some principal ∧ row'.task_name = task ∧ row'.invocation_key = some key →
      row' = row := by
    rintro principal task key row row' hrow hrow' ⟨hp, ht, hk⟩ ⟨hp', ht', hk'⟩
    have hinvocation : ∀ r : StoredAutomationRun, r.principal = some principal → r.task_name = task →
        r.invocation_key = some key → r.invocation = some (.invocation principal task key) := by
      intro r hp ht hk
      simp [StoredAutomationRun.invocation, hp, ht, hk]
    refine Table.unique_of_mem (i := StoredAutomationRun.invocation)
      (List.mem_cons_of_mem _ List.mem_cons_self) hrow' hrow ?_ ?_
    · rw [hinvocation row' hp' ht' hk']
      exact nofun
    · rw [hinvocation row' hp' ht' hk', hinvocation row hp ht hk]
  -- one finished row for a run
  have hsame : ∀ row row', row ∈ c'.world → row' ∈ c'.world → row.run_id = row'.run_id →
      row.final_payload_sha256 ≠ none → row'.final_payload_sha256 ≠ none → row = row' :=
    fun row row' hrow hrow' hid hfinal hfinal' => hfacts.unique hdistinct row hrow row' hrow'
      (hfacts.finished row hrow hfinal).1 (hfacts.finished row' hrow' hfinal').1 hid
  have haccepted : ∀ t e result, Ends P requests t e → c'.result? t = some (.ok (.ended result)) →
      ∃ row ∈ c'.world, row.run_id = e.run_id ∧ Holds P row e.payload := by
    intro t e result hends hresult
    obtain ⟨row, hrow, hid, hsha⟩ := ended_row hends hresult
    exact ⟨row, hrow, hid, holds_of_digest hdigests hfacts.finished hends hrow hsha⟩
  have hidentical : ∀ t e, Ends P requests t e → ∀ row ∈ c'.world, row.run_id = e.run_id →
      Holds P row e.payload → ∀ thrown, IsConflict thrown → c'.result? t ≠ some (.error thrown) := by
    intro t e hends row hrow hid hholds thrown hthrown hresult
    obtain ⟨row', hrow', hid', sha, hsha, hne⟩ := conflict_row hw hends hdistinct hresult hthrown
    obtain rfl := hsame row row' hrow hrow' (hid.trans hid'.symm) (by rw [hholds.digest]; exact nofun)
      (by rw [hsha]; exact nofun)
    exact hne (Option.some.inj (hsha.symm.trans hholds.digest))
  have hother : ∀ t e, Ends P requests t e → ∀ row ∈ c'.world, row.run_id = e.run_id →
      row.final_payload_sha256 ≠ none → ¬ Holds P row e.payload →
        ∀ result, c'.result? t ≠ some (.ok (.ended result)) := by
    intro t e hends row hrow hid hfinal hholds result hresult
    obtain ⟨row', hrow', hid', hholds'⟩ := haccepted t e result hends hresult
    obtain rfl := hsame row row' hrow hrow' (hid.trans hid'.symm) hfinal
      (by rw [hholds'.digest]; exact nofun)
    exact hholds hholds'
  refine ⟨?_, ?_, hkept, haccepted, hidentical, hother, ?_⟩
  · intro principal task key t result hbegins hresult
    obtain ⟨row, hrow, hp, ht, hk, hid⟩ := begun_row hbegins hresult
    refine ⟨row, hrow, hid, fun row' hrow' => ⟨fun h => hone principal task key row row' hrow hrow'
      ⟨hp, ht, hk⟩ h, ?_⟩⟩
    rintro rfl
    exact ⟨hp, ht, hk⟩
  · intro principal task key t t' result result' hbegins hbegins' hresult hresult'
    obtain ⟨row, hrow, hp, ht, hk, hid⟩ := begun_row hbegins hresult
    obtain ⟨row', hrow', hp', ht', hk', hid'⟩ := begun_row hbegins' hresult'
    rw [← hid, ← hid', hone principal task key row row' hrow hrow' ⟨hp, ht, hk⟩ ⟨hp', ht', hk'⟩]
  · intro t e r hends row hrow hid hfinal hholds htrace hfaults hresult
    have hrow' := hkept row hrow hfinal
    refine ⟨hrow', ?_⟩
    obtain ⟨r', hr', hanswer⟩ := end_answer hends hresult
    have hno := hother t e hends row hrow' hid hfinal hholds
    match r, hr' with
    | .ok (.ended result), _ => exact absurd hresult (hno result)
    | .error thrown, hr' =>
      obtain rfl := Option.some.inj hr'
      cases hanswer with
      | different => exact ⟨_, ⟨_, rfl, rfl⟩, rfl⟩
      | ambiguous => exact ⟨_, ⟨_, rfl, rfl⟩, rfl⟩
      | failed hk hfault ht => exact absurd (hfaults _ hk) hfault
      | @unfinished k _ hk hop hrows ht =>
        -- the end found the row that was finished before it began
        have hk' := List.mem_filter.1 hk
        have hbefore : row ∈ k.before := by
          have hlog : k ∈ (machine.exec c fs).log := hexec ▸ hk'.1
          rcases Machine.evolves_before Evolves.refl Evolves.trans evolves_perform c fs k hlog
            with hold | hevolves
          · have : k ∈ c.trace t := List.mem_filter.2 ⟨hold, hk'.2⟩
            rw [htrace] at this
            cases this
          · obtain ⟨row'', hrow'', -, heq⟩ := hevolves row hrow
            exact heq hfinal ▸ hrow''
        have hpresent := hrows row (List.mem_filter.2 ⟨hbefore, by
          simp [hid, (hfacts.finished row hrow' hfinal).1]⟩)
        obtain ⟨-, u, e', -, -, hholds'⟩ := hfacts.finished row hrow' hfinal
        rw [hholds'.digest] at hpresent
        simp [present, FinalPayload.digest, hdigests.nonempty] at hpresent

end Settled

/-! ## A run that is begun twice and ended with two payloads -/

def completedPayload : FinalPayload := ⟨.COMPLETED, 1, true, none⟩

def silentPayload : FinalPayload := ⟨.SILENT, 0, false, none⟩

/-- The SHA-256 digests of the two payloads. -/
def ledgerRuntime : Runtime where
  sha256Hex text :=
    if text = completedPayload.json.rebuiltText then
      "a4b4e488e3edbb2ce83c4f4166d1fd499ef22a341cf65ecd87fe71b7946b04c0"
    else "1d1c94f26fe2c3bf6769c9a8881de691d9e4517b421cf544f54ff6764ba8156b"
  isoOfText := some
  addSeconds _ _ := none
  numberOfText _ := none
  validationSummary _ _ := ""

def ledgerNow : String := "2026-09-30T02:00:00.000Z"

def beginRequest : Request :=
  .begin ⟨.obj [("task", .str "company-facts"), ("invocation_key", .str "company-facts:2026-09-30")],
    "automation", none, none, some ledgerNow, some "begin"⟩

def completedInput : Json :=
  .obj [("run_id", .str "run_0f3c"), ("outcome", .str "COMPLETED"),
    ("fresh_delta_count", .num (.ofInt 1)), ("notification_intended", .bool true)]

def silentInput : Json :=
  .obj [("run_id", .str "run_0f3c"), ("outcome", .str "SILENT"),
    ("fresh_delta_count", .num (.ofInt 0)), ("notification_intended", .bool false)]

/-- Threads one and two end the run; the others begin it. -/
def ledgerRequests (t : ℕ) : Request :=
  if t = 1 then .finish ⟨completedInput, some ledgerNow, some "end"⟩
  else if t = 2 then .finish ⟨silentInput, some ledgerNow, some "end"⟩
  else beginRequest

def ledgerChoice : Choice := ⟨ledgerNow, "0f3c", .none⟩

theorem digests_ledgerRequests : Digests ledgerRuntime ledgerRequests := by
  have hpayload : ∀ t e, Ends ledgerRuntime ledgerRequests t e →
      e.payload = completedPayload ∨ e.payload = silentPayload := by
    rintro t e ⟨input, hrequest, hparse⟩
    unfold ledgerRequests at hrequest
    split_ifs at hrequest
    · obtain rfl := Request.finish.inj hrequest
      have hcompleted : parseEnd ledgerRuntime completedInput = .ok ⟨"run_0f3c", completedPayload⟩ := by
        decide
      obtain rfl := Except.ok.inj (hcompleted.symm.trans hparse)
      exact .inl rfl
    · obtain rfl := Request.finish.inj hrequest
      have hsilent : parseEnd ledgerRuntime silentInput = .ok ⟨"run_0f3c", silentPayload⟩ := by
        decide
      obtain rfl := Except.ok.inj (hsilent.symm.trans hparse)
      exact .inr rfl
    · cases hrequest
  have hapart : silentPayload.digest ledgerRuntime ≠ completedPayload.digest ledgerRuntime := by
    decide
  refine ⟨fun text => ?_, fun t u e e' hends hends' h => ?_⟩
  · change (if _ then _ else _) ≠ _
    split_ifs
    · decide
    · decide
  · rcases hpayload t e hends with he | he
    · rcases hpayload u e' hends' with he' | he'
      · rw [he, he']
      · rw [he, he'] at h
        exact absurd h.symm hapart
    · rcases hpayload u e' hends' with he' | he'
      · rw [he, he'] at h
        exact absurd h hapart
      · rw [he, he']

theorem runs_settle_two_payloads :
    Settles ledgerRuntime ledgerRequests
      (machine.exec (Config.start Table.empty fun t => (ledgerRequests t).program ledgerRuntime)
        (List.replicate 4 (0, ledgerChoice) ++ List.replicate 4 (1, ledgerChoice)))
      (machine.exec (Config.start Table.empty fun t => (ledgerRequests t).program ledgerRuntime)
        (List.replicate 4 (0, ledgerChoice) ++ List.replicate 4 (1, ledgerChoice) ++
          List.replicate 4 (2, ledgerChoice))) :=
  runs_settle (fun r hr => absurd hr (Table.not_mem_empty r)) _ _ digests_ledgerRequests
    (by unfold DistinctDraws; decide)

end QuantproCollector.AutomationRun
