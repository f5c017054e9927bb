import QuantproCollector.AutomationRun.History

/-!
# The order of a history

From one run or two, and from a thousand copies of one, that stamps allow, follows what the stamps have
to be like for every answer to have the newest runs; and with such stamps every answer has them.
-/

namespace QuantproCollector.AutomationRun

open NewestWindow
open StateGateway (StoredRunV3Row RunEnvelopeOutcome Timeliness computeTimeliness isProductionRef)

variable {P : StateGateway.Runtime} {stamps : Stamp → Prop} {task since : Option String}

/-! ## Runs and their entries -/

/-- The answer's rows are the merge of the rows that the statements ask for. -/
theorem historyRuns_eq (n : ℕ) (tables : RunTables) :
    historyRuns P task since n tables =
      mergeNewest (fun run : HistoryRun => run.stamp.column) (fun run => run.stamp.key P)
        HISTORY_READ_CAP n
        (tables.v2Runs.filter fun run => clauses task since run.task_name run.stamp.column)
        (tables.v3Runs.filter fun run => clauses task since run.task_name run.stamp.column) := by
  have htable : ∀ {ρ : Type} (f : ρ → HistoryRun) (rows : List ρ),
      ((byDescending (fun r => (f r).stamp.column) (rows.filter fun r =>
          clauses task since (f r).task_name (f r).stamp.column)).take HISTORY_READ_CAP).map f =
        (byDescending (fun run : HistoryRun => run.stamp.column) ((rows.map f).filter fun run =>
          clauses task since run.task_name run.stamp.column)).take HISTORY_READ_CAP := by
    intro ρ f rows
    rw [List.map_take, map_byDescending (fun run : HistoryRun => run.stamp.column) f, List.filter_map]
    rfl
  exact congrArg (fun merged => (byDescending _ merged).take n)
    (congrArg₂ (· ++ ·) (htable HistoryRun.v2 tables.v2) (htable HistoryRun.v3 tables.v3))

theorem v2Entry_ids {a b : RunV2Row} (h : v2Entry a = v2Entry b) :
    (a.task_name, a.run_id) = (b.task_name, b.run_id) := by
  have hfields := Json.obj.inj h
  simp only [List.cons.injEq, Prod.mk.injEq, Json.str.injEq, true_and] at hfields
  rw [hfields.1, hfields.2.1]

theorem v3Entry_ids {a b : StoredRunV3Row} (h : v3Entry P a = v3Entry P b) :
    (a.task_name, a.run_id) = (b.task_name, b.run_id) := by
  have hfields := Json.obj.inj h
  simp only [List.cons.injEq, Prod.mk.injEq, Json.str.injEq, true_and] at hfields
  rw [hfields.1, hfields.2.1]

theorem v2Entry_ne_v3Entry (a : RunV2Row) (b : StoredRunV3Row) : v2Entry a ≠ v3Entry P b := by
  intro h
  have hfields := Json.obj.inj h
  simp only [List.cons.injEq, Prod.mk.injEq] at hfields
  exact absurd hfields.2.2.2.2.2.1.1 (by decide)

/-- A run of the tables is known by its entry. -/
theorem entry_injOn {tables : RunTables} {a b : HistoryRun} (ha : a ∈ tables.runs) (hb : b ∈ tables.runs)
    (h : a.entry P = b.entry P) : a = b := by
  have hsource : ∀ {run : HistoryRun}, run ∈ tables.runs →
      (∃ r ∈ tables.v2, .v2 r = run) ∨ ∃ r ∈ tables.v3, .v3 r = run := by
    intro run hrun
    rcases List.mem_append.1 hrun with hrun | hrun
    · exact .inl (List.mem_map.1 hrun)
    · exact .inr (List.mem_map.1 hrun)
  rcases hsource ha with ⟨r, hr, rfl⟩ | ⟨r, hr, rfl⟩
  · rcases hsource hb with ⟨r', hr', rfl⟩ | ⟨r', hr', rfl⟩
    · exact congrArg _ (List.inj_on_of_nodup_map tables.v2_keys hr hr' (v2Entry_ids h))
    · exact absurd h (v2Entry_ne_v3Entry r r')
  · rcases hsource hb with ⟨r', hr', rfl⟩ | ⟨r', hr', rfl⟩
    · exact absurd h.symm (v2Entry_ne_v3Entry r' r)
    · exact congrArg _ (List.inj_on_of_nodup_map tables.v3_keys hr hr' (v3Entry_ids h))

theorem map_entry_inj {tables : RunTables} {w w' : List HistoryRun} (hw : ∀ a ∈ w, a ∈ tables.runs)
    (hw' : ∀ a ∈ w', a ∈ tables.runs) (h : w.map (HistoryRun.entry P) = w'.map (HistoryRun.entry P)) :
    w = w' := by
  induction w generalizing w' with
  | nil => exact (List.map_eq_nil_iff.1 h.symm).symm
  | cons a w ih =>
    cases w' with
    | nil => cases h
    | cons b w' =>
      rw [List.forall_mem_cons] at hw hw'
      obtain ⟨hhead, htail⟩ := List.cons.inj h
      rw [entry_injOn hw.1 hw'.1 hhead, ih hw.2 hw'.2 htail]

theorem mem_of_mem_historyRuns {n : ℕ} {tables : RunTables} {a : HistoryRun}
    (h : a ∈ historyRuns P task since n tables) : a ∈ tables.runs := by
  rw [historyRuns_eq] at h
  rcases List.mem_append.1 (mem_byDescending.1 (List.mem_of_mem_take h)) with h | h
  · exact List.mem_append_left _
      (List.mem_of_mem_filter (mem_byDescending.1 (List.mem_of_mem_take h)))
  · exact List.mem_append_right _
      (List.mem_of_mem_filter (mem_byDescending.1 (List.mem_of_mem_take h)))

/-- With a `since` and a clock that are dates, the answer has the newest runs exactly where its rows are
the newest. -/
theorem newestRuns_iff {input : HistoryInput} {n : ℕ} (htask : trimmedOrNull input.taskName = task)
    (hsince : trimmedOrNull input.since = since) (hdate : ∀ s ∈ since, (P.dateParse s).isSome = true)
    (hnow : ∀ s ∈ present input.now, (P.dateParse s).isSome = true)
    (hlimit : (max 1 (min 100 (input.limit.getD 20))).toNat = n) (tables : RunTables) :
    NewestRuns P input n tables ↔ Window (fun run => run.stamp.time P) n
      (askedRuns P task since tables) (historyRuns P task since n tables) := by
  have hvalid : ∀ {value : Option String}, (∀ s ∈ value, (P.dateParse s).isSome = true) →
      value.any (fun s => (P.dateParse s).isNone) = false := by
    intro value hvalue
    cases value with
    | none => rfl
    | some s => rw [Option.any_some, Option.isNone_eq_false_iff, hvalue s rfl]
  have hanswer : getAutomationRunHistory P input (some tables) =
      .ok ⟨"OK", task, since, (historyRuns P task since n tables).map (HistoryRun.entry P)⟩ := by
    unfold getAutomationRunHistory
    rw [htask, hsince]
    dsimp only
    rw [hvalid hdate, hvalid hnow, hlimit]
    rfl
  rw [NewestRuns, htask, hsince, hanswer]
  constructor
  · rintro ⟨window, hequal, hwindow⟩
    have hentries : (historyRuns P task since n tables).map (HistoryRun.entry P) =
        window.map (HistoryRun.entry P) := by
      injection hequal with hequal
      injection hequal
    have hmem : ∀ a ∈ window, a ∈ tables.runs := by
      intro a ha
      obtain ⟨rest, hperm, -⟩ := hwindow.newest
      exact List.mem_of_mem_filter (hperm.mem_iff.2 (List.mem_append_left _ ha))
    rw [map_entry_inj (fun a ha => mem_of_mem_historyRuns ha) hmem hentries]
    exact hwindow
  · exact fun h => ⟨_, rfl, h⟩

/-! ## Faithful stamps -/

/-- With faithful stamps a statement asks for the runs that are asked for. -/
theorem filter_clauses (hfaithful : Faithful P stamps since) {runs : List HistoryRun}
    (hruns : ∀ run ∈ runs, stamps run.stamp) :
    (runs.filter fun run => clauses task since run.task_name run.stamp.column) =
      runs.filter fun run =>
        decide (∀ t ∈ task, run.task_name = t) && decide (run.stamp.NotBefore P since) := by
  refine List.filter_congr fun run hrun => ?_
  have hclause : (∀ s ∈ since, s ≤ run.stamp.column) ↔ run.stamp.NotBefore P since :=
    forall₂_congr fun s hs => hfaithful.clause run.stamp (hruns run hrun) s hs
  rw [clauses, decide_eq_decide.2 hclause]

/-- With faithful stamps the rows of the answer are the newest runs. -/
theorem window_of_faithful (hfaithful : Faithful P stamps since) {tables : RunTables}
    (htables : ∀ run ∈ tables.runs, stamps run.stamp) {n : ℕ} (hn : n ≤ HISTORY_READ_CAP) :
    Window (fun run => run.stamp.time P) n (askedRuns P task since tables)
      (historyRuns P task since n tables) := by
  have hv2 : ∀ run ∈ tables.v2Runs, stamps run.stamp ∧ run.stamp.isV2 = true := by
    intro run hrun
    refine ⟨htables run (List.mem_append_left _ hrun), ?_⟩
    obtain ⟨r, -, rfl⟩ := List.mem_map.1 hrun
    rfl
  have hv3 : ∀ run ∈ tables.v3Runs, stamps run.stamp ∧ run.stamp.isV2 = false := by
    intro run hrun
    refine ⟨htables run (List.mem_append_right _ hrun), ?_⟩
    obtain ⟨r, -, rfl⟩ := List.mem_map.1 hrun
    rfl
  rw [historyRuns_eq, filter_clauses hfaithful fun run hrun => (hv2 run hrun).1,
    filter_clauses hfaithful fun run hrun => (hv3 run hrun).1, askedRuns, RunTables.runs,
    List.filter_append]
  have hshown : ∀ {runs : List HistoryRun} {flag : Bool},
      (∀ run ∈ runs, stamps run.stamp ∧ run.stamp.isV2 = flag) → ∀ run ∈ runs.filter fun run =>
        decide (∀ t ∈ task, run.task_name = t) && decide (run.stamp.NotBefore P since),
      Shown P stamps since run.stamp ∧ run.stamp.isV2 = flag := by
    intro runs flag hruns run hrun
    obtain ⟨hmem, hasked⟩ := List.mem_filter.1 hrun
    exact ⟨⟨(hruns run hmem).1, of_decide_eq_true ((Bool.and_eq_true _ _).mp hasked).2⟩,
      (hruns run hmem).2⟩
  have hshownAll : ∀ run ∈ tables.v2Runs.filter _ ++ tables.v3Runs.filter _,
      Shown P stamps since run.stamp := fun run hrun =>
    (List.mem_append.1 hrun).elim (fun h => (hshown hv2 run h).1) fun h => (hshown hv3 run h).1
  refine window_mergeNewest hn ?_ ?_ ?_ ?_
  · intro a ha b hb
    obtain ⟨ha, hatable⟩ := hshown hv2 a ha
    obtain ⟨hb, hbtable⟩ := hshown hv2 b hb
    exact hfaithful.columns _ _ ha hb (hatable.trans hbtable.symm)
  · intro a ha b hb
    obtain ⟨ha, hatable⟩ := hshown hv3 a ha
    obtain ⟨hb, hbtable⟩ := hshown hv3 b hb
    exact hfaithful.columns _ _ ha hb (hatable.trans hbtable.symm)
  · exact fun a ha b hb => hfaithful.keys _ _ (hshownAll a ha) (hshownAll b hb)
  · intro a ha b hb
    obtain ⟨ha, hatable⟩ := hshown hv2 a ha
    obtain ⟨hb, hbtable⟩ := hshown hv3 b hb
    exact hfaithful.ties _ _ ha hb hatable hbtable

/-- Texts whose order is that of their instants make faithful stamps, where every run finished or
started. -/
theorem faithful_of_ordered {texts : String → Prop}
    (hordered : ∀ s t, texts s → texts t →
      (s ≤ t ↔ timeKeyMs P (some s) ≤ timeKeyMs P (some t)))
    (hstamps : ∀ a, stamps a → texts a.column ∧ a.key P = a.time P) (hsince : ∀ s ∈ since, texts s) :
    Faithful P stamps since where
  clause a ha s hs := hordered s a.column (hsince s hs) (hstamps a ha).1
  columns a b ha hb _ hlt := by
    rw [← not_le, hordered _ _ (hstamps b hb.1).1 (hstamps a ha.1).1]
    exact not_le.2 hlt
  keys a b ha hb hlt := by
    rw [(hstamps a ha.1).2, (hstamps b hb.1).2]
    exact hlt.le
  ties a b ha hb _ _ hlt := by
    rw [(hstamps a ha.1).2, (hstamps b hb.1).2]
    exact hlt

/-! ## Tables of given stamps -/

/-- Run ids of their own for the rows of a table. -/
def runName (i : ℕ) : String := String.ofList (List.replicate i 'r')

theorem runName_inj {i j : ℕ} (h : runName i = runName j) : i = j := by
  have hlengths := congrArg (fun s : String => s.toList.length) h
  simpa [runName] using hlengths

def v2At (task : Option String) (a : Stamp) (i : ℕ) : RunV2Row where
  task_name := task.getD "industry-research"
  run_id := runName i
  scheduled_for := none
  started_at := match a with
    | .v2 _ started_at _ => started_at
    | .v3 _ => none
  finished_at := match a with
    | .v2 finished_at _ _ => finished_at
    | .v3 _ => none
  outcome := none
  fresh_delta_count := none
  notification_intended := none
  notification_sent_legacy := none
  reason := none
  prompt_version := none
  collector_build_sha := none
  cloudflare_version_id := none
  source_contract := .runV2
  legacy_trace_id := none
  updated_at := match a with
    | .v2 _ _ updated_at => updated_at
    | .v3 received_at => received_at

def v3At (task : Option String) (a : Stamp) (i : ℕ) : StoredRunV3Row where
  task_name := task.getD "industry-research"
  run_id := runName i
  envelope_key := runName i
  channel := none
  write_key := none
  as_of := none
  received_at := a.column
  slot := none
  slot_date := none
  fresh_delta_count := none
  event_count := none
  outcome := .SILENT
  blocker_code := none
  summary := none
  prompt_version := none
  collector_build_sha := none
  cloudflare_version_id := none
  created_at := a.column
  updated_at := a.column

theorem nodup_names {ρ : Type} (row : Stamp → ℕ → ρ) {name : String} {key : ρ → String × String}
    (hkey : ∀ a i, key (row a i) = (name, runName i)) (l : List Stamp) :
    ((l.zipIdx.map fun p => row p.1 p.2).map key).Nodup := by
  have hnames : (l.zipIdx.map fun p => row p.1 p.2).map key =
      (l.zipIdx.map Prod.snd).map fun i => (name, runName i) := by
    rw [List.map_map, List.map_map]
    exact List.map_congr_left fun p _ => hkey p.1 p.2
  rw [hnames, List.zipIdx_map_snd]
  exact List.Nodup.map (fun i j h => runName_inj (congrArg Prod.snd h)) List.nodup_range'

/-- Tables with rows of these stamps. -/
def tablesOf (task : Option String) (v2 v3 : List Stamp) : RunTables where
  v2 := v2.zipIdx.map fun p => v2At task p.1 p.2
  v3 := v3.zipIdx.map fun p => v3At task p.1 p.2
  v2_keys := nodup_names (v2At task) (fun _ _ => rfl) v2
  v3_keys := nodup_names (v3At task) (fun _ _ => rfl) v3
  v3_envelopes := nodup_names (v3At task) (fun _ _ => rfl) v3

theorem stamp_v2At (task : Option String) {a : Stamp} (ha : a.isV2 = true) (i : ℕ) :
    (HistoryRun.v2 (v2At task a i)).stamp = a := by
  cases a with
  | v2 => rfl
  | v3 => cases ha

theorem stamp_v3At (task : Option String) {a : Stamp} (ha : a.isV2 = false) (i : ℕ) :
    (HistoryRun.v3 (v3At task a i)).stamp = a := by
  cases a with
  | v2 => cases ha
  | v3 => rfl

theorem map_stamp_zipIdx {run : Stamp → ℕ → HistoryRun} {l : List Stamp}
    (h : ∀ a ∈ l, ∀ i, (run a i).stamp = a) :
    (l.zipIdx.map fun p => run p.1 p.2).map HistoryRun.stamp = l := by
  have hfirst : (l.zipIdx.map fun p => run p.1 p.2).map HistoryRun.stamp = l.zipIdx.map Prod.fst := by
    rw [List.map_map]
    exact List.map_congr_left fun p hp => h p.1 (List.fst_mem_of_mem_zipIdx hp) p.2
  rw [hfirst, List.zipIdx_map_fst]

section Tables

variable {A B : List Stamp} (hA : ∀ a ∈ A, a.isV2 = true) (hB : ∀ b ∈ B, b.isV2 = false)

include hA in
theorem stamps_v2Runs : (tablesOf task A B).v2Runs.map HistoryRun.stamp = A := by
  have hruns : (tablesOf task A B).v2Runs = A.zipIdx.map fun p => .v2 (v2At task p.1 p.2) := List.map_map
  rw [hruns]
  exact map_stamp_zipIdx fun a ha i => stamp_v2At task (hA a ha) i

include hB in
theorem stamps_v3Runs : (tablesOf task A B).v3Runs.map HistoryRun.stamp = B := by
  have hruns : (tablesOf task A B).v3Runs = B.zipIdx.map fun p => .v3 (v3At task p.1 p.2) := List.map_map
  rw [hruns]
  exact map_stamp_zipIdx fun a ha i => stamp_v3At task (hB a ha) i

theorem task_tablesOf {run : HistoryRun} (hrun : run ∈ (tablesOf task A B).runs) :
    ∀ t ∈ task, run.task_name = t := by
  intro t ht
  have htask : task.getD "industry-research" = t := by
    rw [Option.mem_def.1 ht]
    rfl
  rcases List.mem_append.1 hrun with hrun | hrun
  · obtain ⟨r, hr, rfl⟩ := List.mem_map.1 hrun
    obtain ⟨p, -, rfl⟩ := List.mem_map.1 hr
    exact htask
  · obtain ⟨r, hr, rfl⟩ := List.mem_map.1 hrun
    obtain ⟨p, -, rfl⟩ := List.mem_map.1 hr
    exact htask

/-- A filter of runs of the task, by stamps. -/
theorem map_stamp_filter {runs : List HistoryRun} (hruns : ∀ run ∈ runs, ∀ t ∈ task, run.task_name = t)
    (p : Stamp → Prop) [DecidablePred p] :
    (runs.filter fun run => decide (∀ t ∈ task, run.task_name = t) && decide (p run.stamp)).map
      HistoryRun.stamp = (runs.map HistoryRun.stamp).filter fun a => decide (p a) := by
  rw [List.filter_map]
  refine congrArg _ (List.filter_congr fun run hrun => ?_)
  rw [decide_eq_true (hruns run hrun), Bool.true_and]
  rfl

include hA hB in
/-- What the answer of such tables is, by stamps. -/
theorem window_stamps {n : ℕ} (h : Window (fun run => run.stamp.time P) n
    (askedRuns P task since (tablesOf task A B)) (historyRuns P task since n (tablesOf task A B))) :
    Window (Stamp.time P) n ((A ++ B).filter fun a => decide (a.NotBefore P since))
      (mergeNewest Stamp.column (Stamp.key P) HISTORY_READ_CAP n
        (A.filter fun a => decide (∀ s ∈ since, s ≤ a.column))
        (B.filter fun a => decide (∀ s ∈ since, s ≤ a.column))) := by
  have hmap := h.map
  rw [historyRuns_eq, map_mergeNewest Stamp.column (Stamp.key P)] at hmap
  simp only [clauses] at hmap
  rw [askedRuns, map_stamp_filter (fun run hrun => task_tablesOf hrun) fun a => a.NotBefore P since,
    map_stamp_filter (fun run hrun => task_tablesOf (List.mem_append_left _ hrun))
      fun a => ∀ s ∈ since, s ≤ a.column,
    map_stamp_filter (fun run hrun => task_tablesOf (List.mem_append_right _ hrun))
      fun a => ∀ s ∈ since, s ≤ a.column, stamps_v2Runs hA, stamps_v3Runs hB, RunTables.runs,
    List.map_append, stamps_v2Runs hA, stamps_v3Runs hB] at hmap
  exact hmap

end Tables

/-! ## What the answers show of the stamps -/

/-- Whatever rows of these stamps the tables have, the answer to a limit of one has a newest run. -/
def Newest (P : StateGateway.Runtime) (stamps : Stamp → Prop) (since : Option String) : Prop :=
  ∀ A B : List Stamp, (∀ a ∈ A, stamps a ∧ a.isV2 = true) → (∀ b ∈ B, stamps b ∧ b.isV2 = false) →
    Window (Stamp.time P) 1 ((A ++ B).filter fun a => decide (a.NotBefore P since))
      (mergeNewest Stamp.column (Stamp.key P) HISTORY_READ_CAP 1
        (A.filter fun a => decide (∀ s ∈ since, s ≤ a.column))
        (B.filter fun a => decide (∀ s ∈ since, s ≤ a.column)))

/-- A table of one run. -/
theorem clause_of_newest (h : Newest P stamps since) {a : Stamp} (ha : stamps a) :
    (∀ s ∈ since, s ≤ a.column) ↔ a.NotBefore P since := by
  -- Both sides of the answer have the run or not.
  have hiff : ∀ {asked kept : Prop} [Decidable asked] [Decidable kept],
      Window (Stamp.time P) 1 ([a].filter fun _ => decide asked) ([a].filter fun _ => decide kept) →
        (kept ↔ asked) := by
    intro asked kept _ _ hwindow
    have hlength := hwindow.length
    by_cases hasked : asked <;> by_cases hkept : kept <;> simp_all
  have hmerge : ∀ l : List Stamp, l.length ≤ 1 →
      mergeNewest Stamp.column (Stamp.key P) HISTORY_READ_CAP 1 l [] = l ∧
        mergeNewest Stamp.column (Stamp.key P) HISTORY_READ_CAP 1 [] l = l := by
    intro l hl
    match l, hl with
    | [], _ => exact ⟨rfl, rfl⟩
    | [b], _ => exact ⟨rfl, rfl⟩
  have hone : ([a].filter fun a => decide (∀ s ∈ since, s ≤ a.column)).length ≤ 1 :=
    List.length_filter_le _ _
  cases htable : a.isV2 with
  | true =>
    have hwindow := h [a] [] (by simp [ha, htable]) (by simp)
    rw [List.filter_nil, (hmerge _ hone).1, List.append_nil] at hwindow
    exact hiff (by simpa only [List.filter_cons, List.filter_nil] using hwindow)
  | false =>
    have hwindow := h [] [a] (by simp) (by simp [ha, htable])
    rw [List.filter_nil, (hmerge _ hone).2, List.nil_append] at hwindow
    exact hiff (by simpa only [List.filter_cons, List.filter_nil] using hwindow)

/-- Tables of shown runs: the merge has one of them that no other is newer than. -/
theorem newest_of_shown (h : Newest P stamps since) {A B : List Stamp}
    (hA : ∀ a ∈ A, Shown P stamps since a ∧ a.isV2 = true)
    (hB : ∀ b ∈ B, Shown P stamps since b ∧ b.isV2 = false) (hne : A ++ B ≠ []) :
    ∃ a, mergeNewest Stamp.column (Stamp.key P) HISTORY_READ_CAP 1 A B = [a] ∧
      ∀ b ∈ A ++ B, b.time P ≤ a.time P := by
  have hwindow := h A B (fun a ha => ⟨(hA a ha).1.1, (hA a ha).2⟩) fun b hb => ⟨(hB b hb).1.1, (hB b hb).2⟩
  have hclause : ∀ {l : List Stamp}, (∀ a ∈ l, Shown P stamps since a) →
      (l.filter fun a => decide (∀ s ∈ since, s ≤ a.column)) = l := fun {l} hl =>
    List.filter_eq_self.2 fun a ha =>
      decide_eq_true ((clause_of_newest h (hl a ha).1).2 (hl a ha).2)
  have hasked : ((A ++ B).filter fun a => decide (a.NotBefore P since)) = A ++ B := by
    refine List.filter_eq_self.2 fun a ha => decide_eq_true ?_
    rcases List.mem_append.1 ha with ha | ha
    · exact (hA a ha).1.2
    · exact (hB a ha).1.2
  rw [hclause fun a ha => (hA a ha).1, hclause fun b hb => (hB b hb).1, hasked] at hwindow
  exact hwindow.exists_newest hne

/-- Two runs, each in its table. -/
theorem keys_of_newest (h : Newest P stamps since) {a b : Stamp} (ha : Shown P stamps since a)
    (hb : Shown P stamps since b) (hlt : a.time P < b.time P) : a.key P ≤ b.key P := by
  have hmem : ∀ x, x ∈ [a, b].filter (fun x => x.isV2) ++ [a, b].filter (fun x => !x.isV2) ↔
      x = a ∨ x = b := by
    intro x
    rw [List.mem_append, List.mem_filter, List.mem_filter]
    cases x.isV2 <;> simp
  have hshown : ∀ x ∈ [a, b], Shown P stamps since x := by simp [ha, hb]
  obtain ⟨c, hc, hnewest⟩ := newest_of_shown h
    (A := [a, b].filter fun x => x.isV2) (B := [a, b].filter fun x => !x.isV2)
    (fun x hx => ⟨hshown x (List.mem_of_mem_filter hx), (List.mem_filter.1 hx).2⟩)
    (fun x hx => ⟨hshown x (List.mem_of_mem_filter hx), by simpa using (List.mem_filter.1 hx).2⟩)
    (List.ne_nil_of_mem ((hmem a).2 (.inl rfl)))
  obtain ⟨hin, hkey⟩ := key_le_of_mergeNewest hc
  have hall : ∀ l : List Stamp, l.length ≤ 2 → (byDescending Stamp.column l).take HISTORY_READ_CAP =
      byDescending Stamp.column l := by
    intro l hl
    refine List.take_of_length_le ?_
    rw [(perm_byDescending _ l).length_eq]
    exact hl.trans (by decide)
  rw [hall _ (List.length_filter_le _ _), hall _ (List.length_filter_le _ _)] at hin hkey
  have hmerged : ∀ x, x ∈ byDescending Stamp.column ([a, b].filter fun x => x.isV2) ++
      byDescending Stamp.column ([a, b].filter fun x => !x.isV2) ↔ x = a ∨ x = b := by
    intro x
    rw [List.mem_append, mem_byDescending, mem_byDescending, ← List.mem_append, hmem x]
  have hbc := hnewest b ((hmem b).2 (.inr rfl))
  rcases (hmerged c).1 hin with rfl | rfl
  · exact absurd hbc (not_le.2 hlt)
  · exact hkey a ((hmerged a).2 (.inl rfl))

theorem ties_of_newest (h : Newest P stamps since) {a b : Stamp} (ha : Shown P stamps since a)
    (hb : Shown P stamps since b) (hatable : a.isV2 = true) (hbtable : b.isV2 = false)
    (hlt : a.time P < b.time P) : a.key P < b.key P := by
  by_contra hle
  obtain ⟨c, hc, hnewest⟩ := newest_of_shown h (A := [a]) (B := [b]) (by simp [ha, hatable])
    (by simp [hb, hbtable]) (by simp)
  have hfirst : mergeNewest Stamp.column (Stamp.key P) HISTORY_READ_CAP 1 [a] [b] = [a] := by
    change ((if b.key P ≤ a.key P then [a, b] else [b, a]) : List Stamp).take 1 = [a]
    rw [if_pos (not_lt.1 hle)]
    rfl
  obtain rfl := (List.cons.inj (hfirst.symm.trans hc)).1
  exact absurd (hnewest b (by simp)) (not_le.2 hlt)

/-- Of one table a newest run is among the first by the column. -/
theorem newest_of_table (h : Newest P stamps since) {l : List Stamp} {flag : Bool}
    (hl : ∀ a ∈ l, Shown P stamps since a ∧ a.isV2 = flag) (hne : l ≠ []) :
    ∃ c ∈ (byDescending Stamp.column l).take HISTORY_READ_CAP, ∀ b ∈ l, b.time P ≤ c.time P := by
  have hnone : ∀ {c : Stamp}, c ∉ (byDescending Stamp.column ([] : List Stamp)).take HISTORY_READ_CAP :=
    fun hc => absurd (mem_byDescending.1 (List.mem_of_mem_take hc)) List.not_mem_nil
  cases flag with
  | true =>
    obtain ⟨c, hc, hnewest⟩ := newest_of_shown h (B := []) hl (by simp) (by simpa using hne)
    rcases List.mem_append.1 (key_le_of_mergeNewest hc).1 with hin | hin
    · exact ⟨c, hin, fun b hb => hnewest b (List.mem_append_left _ hb)⟩
    · exact absurd hin hnone
  | false =>
    obtain ⟨c, hc, hnewest⟩ := newest_of_shown h (A := []) (by simp) hl hne
    rcases List.mem_append.1 (key_le_of_mergeNewest hc).1 with hin | hin
    · exact absurd hin hnone
    · exact ⟨c, hin, fun b hb => hnewest b hb⟩

/-- A thousand copies of one run above another in the column. -/
theorem columns_of_newest (h : Newest P stamps since) {a b : Stamp} (ha : Shown P stamps since a)
    (hb : Shown P stamps since b) (htable : a.isV2 = b.isV2) (hlt : a.time P < b.time P) :
    a.column < b.column := by
  by_contra hle
  have hne : b.column ≠ a.column := by
    intro heq
    rw [Stamp.time, Stamp.time, heq] at hlt
    exact lt_irrefl _ hlt
  have hbelow : b.column < a.column := lt_of_le_of_ne (not_lt.1 hle) hne
  have hlength : (byDescending Stamp.column (List.replicate HISTORY_READ_CAP a)).length =
      HISTORY_READ_CAP := by
    rw [(perm_byDescending _ _).length_eq, List.length_replicate]
  have hshown : ∀ c ∈ b :: List.replicate HISTORY_READ_CAP a, Shown P stamps since c ∧
      c.isV2 = a.isV2 := by
    intro c hc
    rcases List.mem_cons.1 hc with rfl | hc
    · exact ⟨hb, htable.symm⟩
    · rw [List.eq_of_mem_replicate hc]
      exact ⟨ha, rfl⟩
  obtain ⟨c, hc, hnewest⟩ := newest_of_table h hshown (List.cons_ne_nil _ _)
  rw [byDescending_cons_of_lt fun c hc => (List.eq_of_mem_replicate hc).symm ▸ hbelow,
    List.take_left' hlength, mem_byDescending] at hc
  rw [List.eq_of_mem_replicate hc] at hnewest
  exact absurd (hnewest b List.mem_cons_self) (not_le.2 hlt)

theorem faithful_of_newest (h : Newest P stamps since) : Faithful P stamps since where
  clause a ha s hs := by
    have hiff := clause_of_newest h ha
    rw [Option.mem_def.1 hs] at hiff
    simpa [Stamp.NotBefore] using hiff
  columns _ _ ha hb htable hlt := columns_of_newest h ha hb htable hlt
  keys _ _ ha hb hlt := keys_of_newest h ha hb hlt
  ties _ _ ha hb hatable hbtable hlt := ties_of_newest h ha hb hatable hbtable hlt

def historyRuntime : StateGateway.Runtime :=
  StateGateway.tableRuntime []
    [("2026-09-30T02:00:00.000Z", 1790733600000), ("2026-09-30T03:00:00.000Z", 1790737200000),
      ("2026-09-30T04:00:00.000Z", 1790740800000), ("2026-09-30T10:00:00+08:00", 1790733600000)] []

/-- Texts in one spelling. -/
def historyTexts : List String :=
  ["2026-09-30T02:00:00.000Z", "2026-09-30T03:00:00.000Z", "2026-09-30T04:00:00.000Z"]

/-- A run that finished and one that was received. -/
def twoStamps (a : Stamp) : Prop :=
  a = .v2 (some "2026-09-30T03:00:00.000Z") (some "2026-09-30T02:00:00.000Z") "2026-09-30T03:00:00.000Z" ∨
    a = .v3 "2026-09-30T04:00:00.000Z"

theorem faithful_twoStamps : Faithful historyRuntime twoStamps (some "2026-09-30T02:00:00.000Z") := by
  have hordered : ∀ s ∈ historyTexts, ∀ t ∈ historyTexts,
      (s ≤ t ↔ timeKeyMs historyRuntime (some s) ≤ timeKeyMs historyRuntime (some t)) := by
    decide
  refine faithful_of_ordered (fun s t hs ht => hordered s hs t ht) (fun a ha => ?_) fun s hs => ?_
  · rcases ha with rfl | rfl <;> decide
  · obtain rfl := Option.mem_some.1 hs
    decide

end QuantproCollector.AutomationRun
