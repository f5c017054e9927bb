import QuantproCollector.Retention.Renewal

/-!
# The quota of R2 writes

The usage row counts the stored bytes, and the writes of one month: a reservation of another month
resets the count. The bytes never pass their cap. The writes admitted for a month stay under theirs
as long as the row's month only moves on and a reservation is booked in its own month
(`admission_run`); a worker whose clock still reads the old month takes the row back, and the next
reset forgets what the new month has used (`month_exceeded`).
-/

namespace QuantproCollector.Retention

open Relational Async SemanticIndex

/-! ## Admitted writes -/

/-- The month that a thread last asked the row to be reset to. -/
def reservedMonth (t : ℕ) : List (Call Op World Fault) → Option String
  | [] => none
  | k :: past =>
    match k.op with
    | .resetUsage period => if k.thread = t then some period else reservedMonth t past
    | _ => reservedMonth t past

/-- The writes that a call admits. -/
def admittedBy (k : Call Op World Fault) : ℕ :=
  match k.op with
  | .bookUsage bytes writes =>
    if k.choice = .none ∧ k.before.usage.any (·.admits bytes writes) = true then writes else 0
  | _ => 0

/-- The writes that were admitted for a month. -/
def admitted (month : String) : List (Call Op World Fault) → ℕ
  | [] => 0
  | k :: past =>
    admitted month past + if reservedMonth k.thread past = some month then admittedBy k else 0

/-- A reset does not move the row's month back, and a booking finds the row in its own month. -/
def InMonth (past : List (Call Op World Fault)) (k : Call Op World Fault) : Prop :=
  match k.op with
  | .resetUsage period => ∀ u ∈ k.before.usage, u.usage_period ≤ period
  | .bookUsage .. => ∀ u ∈ k.before.usage, reservedMonth k.thread past = some u.usage_period
  | _ => True

instance (past : List (Call Op World Fault)) (k : Call Op World Fault) :
    Decidable (InMonth past k) := by
  obtain ⟨thread, op, choice, before⟩ := k
  delta InMonth
  rcases op with _ | _ <;> dsimp only <;> infer_instance

/-! ## The usage row -/

/-- The usage row changes at the statements of a reservation only. -/
theorem effect_usage (P : Runtime) (op : Op) (w : World) (h1 : ∀ p, op ≠ .insertUsage p)
    (h2 : ∀ p, op ≠ .resetUsage p) (h3 : ∀ b n, op ≠ .bookUsage b n) :
    (effect P op w).usage = w.usage := by
  cases op with
  | insertUsage p => exact absurd rfl (h1 p)
  | resetUsage p => exact absurd rfl (h2 p)
  | bookUsage b n => exact absurd rfl (h3 b n)
  | ingestBatch record key now =>
    exact ingestBatch_keeps P w record key now (·.usage) (fun _ _ => rfl) fun _ _ => rfl
  | _ => rfl

theorem stored_bytes_book {u : ReplicaUsage} {bytes writes : ℕ}
    (h : u.stored_bytes ≤ RESEARCH_REPLICA_MAX_STORED_BYTES) :
    (u.book bytes writes).stored_bytes ≤ RESEARCH_REPLICA_MAX_STORED_BYTES := by
  unfold ReplicaUsage.book
  split_ifs with hadmits
  · exact (of_decide_eq_true hadmits).1
  · exact h

/-- The recorded bytes never pass their cap. -/
theorem stored_bytes_effect {P : Runtime} {op : Op} {w : World}
    (h : ∀ u ∈ w.usage, u.stored_bytes ≤ RESEARCH_REPLICA_MAX_STORED_BYTES) :
    ∀ u ∈ (effect P op w).usage, u.stored_bytes ≤ RESEARCH_REPLICA_MAX_STORED_BYTES := by
  cases op with
  | insertUsage p =>
    rintro _ ⟨⟩
    cases hu : w.usage with
    | none => exact Nat.zero_le _
    | some u => exact h u hu
  | resetUsage p =>
    intro u hu
    obtain ⟨u₀, hu₀, rfl⟩ := Option.map_eq_some_iff.1 hu
    split_ifs
    · exact h u₀ hu₀
    · exact h u₀ hu₀
  | bookUsage b n =>
    intro u hu
    obtain ⟨u₀, hu₀, rfl⟩ := Option.map_eq_some_iff.1 hu
    exact stored_bytes_book (h u₀ hu₀)
  | _ =>
    rw [effect_usage P _ w (by simp) (by simp) (by simp)]
    exact h

/-- What the row says about the admitted writes. -/
structure Accounted (log : List (Call Op World Fault)) (usage : Option ReplicaUsage) : Prop where
  unused : usage = none → ∀ month, admitted month log = 0
  current : ∀ u ∈ usage, admitted u.usage_period log ≤ u.r2_write_ops
  capped : ∀ u ∈ usage, u.r2_write_ops ≤ RESEARCH_REPLICA_MAX_MONTHLY_R2_WRITES
  later : ∀ u ∈ usage, ∀ month, u.usage_period < month → admitted month log = 0
  month : ∀ month, admitted month log ≤ RESEARCH_REPLICA_MAX_MONTHLY_R2_WRITES

theorem admitted_cons_of_zero {k : Call Op World Fault} {log : List (Call Op World Fault)}
    (h : admittedBy k = 0) (month : String) : admitted month (k :: log) = admitted month log := by
  simp [admitted, h]

theorem Accounted.of_zero {k : Call Op World Fault} {log : List (Call Op World Fault)}
    {usage : Option ReplicaUsage} (h : Accounted log usage) (hk : admittedBy k = 0) :
    Accounted (k :: log) usage := by
  have heq : ∀ month, admitted month (k :: log) = admitted month log := admitted_cons_of_zero hk
  exact ⟨fun hu m => (heq m).trans (h.unused hu m), fun u hu => (heq _).trans_le (h.current u hu),
    h.capped, fun u hu m hm => (heq m).trans (h.later u hu m hm), fun m => (heq m).trans_le (h.month m)⟩

theorem accounted_insertUsage {log : List (Call Op World Fault)} {w : World} {period : String}
    (h : Accounted log w.usage) : Accounted log (some (w.usage.getD ⟨period, 0, 0⟩)) := by
  cases hu : w.usage with
  | none =>
    have hzero := h.unused hu
    refine ⟨by simp, ?_, ?_, ?_, h.month⟩
    · rintro _ ⟨⟩
      exact (hzero _).le
    · rintro _ ⟨⟩
      exact Nat.zero_le _
    · rintro _ ⟨⟩ m -
      exact hzero m
  | some u =>
    rw [hu] at h
    exact h

/-- A reset that does not move back meets no admitted writes of the new month. -/
theorem accounted_resetUsage {log : List (Call Op World Fault)} {w : World} {period : String}
    (hmonth : ∀ u ∈ w.usage, u.usage_period ≤ period) (h : Accounted log w.usage) :
    Accounted log (w.usage.map fun u =>
      if u.usage_period = period then u
      else { u with usage_period := period, r2_write_ops := 0 }) := by
  cases hu : w.usage with
  | none =>
    rw [hu] at h
    exact h
  | some u =>
    rw [Option.map_some]
    by_cases heq : u.usage_period = period
    · rw [if_pos heq, ← hu]
      exact h
    · rw [if_neg heq]
      have hlt : u.usage_period < period := lt_of_le_of_ne (hmonth u hu) heq
      refine ⟨by simp, ?_, ?_, ?_, h.month⟩
      · rintro _ ⟨⟩
        exact (h.later u hu period hlt).le
      · rintro _ ⟨⟩
        exact Nat.zero_le _
      · rintro _ ⟨⟩ m hm
        exact h.later u hu m (hlt.trans hm)

/-- A booking in the row's own month counts what it admits. -/
theorem accounted_bookUsage {log : List (Call Op World Fault)} {w : World} {t bytes writes : ℕ}
    {f : Fault} (hmonth : ∀ u ∈ w.usage, reservedMonth t log = some u.usage_period)
    (h : Accounted log w.usage) :
    Accounted (⟨t, .bookUsage bytes writes, f, w⟩ :: log) (w.usage.map (·.book bytes writes)) := by
  cases hu : w.usage with
  | none =>
    have hzero : admittedBy ⟨t, .bookUsage bytes writes, f, w⟩ = 0 := by simp [admittedBy, hu]
    rw [hu] at h
    exact h.of_zero hzero
  | some u =>
    have hreserved := hmonth u hu
    rw [Option.map_some]
    unfold ReplicaUsage.book
    by_cases hadmits : u.admits bytes writes = true
    · have hby : admittedBy ⟨t, .bookUsage bytes writes, f, w⟩ ≤ writes := by
        unfold admittedBy
        dsimp only
        split_ifs
        · exact le_refl _
        · exact Nat.zero_le _
      have hcap := (of_decide_eq_true hadmits).2
      have hcurrent := h.current u hu
      have hother : ∀ m ≠ u.usage_period,
          admitted m (⟨t, .bookUsage bytes writes, f, w⟩ :: log) = admitted m log := by
        intro m hm
        rw [admitted, if_neg, Nat.add_zero]
        rw [hreserved]
        exact fun heq => hm (Option.some.inj heq).symm
      have hown : admitted u.usage_period (⟨t, .bookUsage bytes writes, f, w⟩ :: log) ≤
          u.r2_write_ops + writes := by
        rw [admitted, if_pos hreserved]
        omega
      rw [if_pos hadmits]
      refine ⟨by simp, ?_, ?_, ?_, fun m => ?_⟩
      · rintro _ ⟨⟩
        exact hown
      · rintro _ ⟨⟩
        exact hcap
      · rintro _ ⟨⟩ m hm
        rw [hother m (ne_of_gt hm)]
        exact h.later u hu m hm
      · by_cases hm : m = u.usage_period
        · rw [hm]
          exact hown.trans hcap
        · rw [hother m hm]
          exact h.month m
    · have hzero : admittedBy ⟨t, .bookUsage bytes writes, f, w⟩ = 0 := by
        simp [admittedBy, hu, hadmits]
      rw [if_neg hadmits, ← hu]
      exact h.of_zero hzero

/-- One call keeps the account. -/
theorem accounted_call {P : Runtime} {log : List (Call Op World Fault)} {k : Call Op World Fault}
    (hmonth : InMonth log k) (h : Accounted log k.before.usage) :
    Accounted (k :: log) ((machine P).after k).usage := by
  obtain ⟨t, op, f, w⟩ := k
  have hbefore : f = .before → Accounted (⟨t, op, f, w⟩ :: log) w.usage := by
    rintro rfl
    refine h.of_zero ?_
    unfold admittedBy
    split
    · simp
    · rfl
  cases f with
  | before => exact hbefore rfl
  | _ =>
    change Accounted _ (effect P op w).usage
    cases op with
    | insertUsage period => exact (accounted_insertUsage h).of_zero rfl
    | resetUsage period => exact (accounted_resetUsage hmonth h).of_zero rfl
    | bookUsage bytes writes => exact accounted_bookUsage hmonth h
    | _ =>
      rw [effect_usage P _ w (by simp) (by simp) (by simp)]
      exact h.of_zero rfl

/-- **The quota.** In every run of ingests and sweeps the recorded bytes stay under their cap; and
where no reset moves the month back and every booking finds its own month, the writes admitted for
any one month stay under theirs. -/
theorem admission_run (P : Runtime) (tasks : List Task) (es : List (ℕ × Fault))
    (h : Along InMonth ((machine P).exec (start P tasks) es).log) :
    (∀ u ∈ ((machine P).exec (start P tasks) es).world.usage,
      u.stored_bytes ≤ RESEARCH_REPLICA_MAX_STORED_BYTES) ∧
    ∀ month, admitted month ((machine P).exec (start P tasks) es).log ≤
      RESEARCH_REPLICA_MAX_MONTHLY_R2_WRITES := by
  have hstart : (∀ u ∈ (start P tasks).world.usage,
      u.stored_bytes ≤ RESEARCH_REPLICA_MAX_STORED_BYTES) ∧
      (Along InMonth (start P tasks).log →
        Accounted (start P tasks).log (start P tasks).world.usage) := by
    refine ⟨?_, fun _ => ⟨fun _ _ => rfl, ?_, ?_, ?_, fun _ => Nat.zero_le _⟩⟩
    all_goals
      rintro _ ⟨⟩
  have hrun := Machine.exec_induction (M := machine P) (P := fun c =>
    (∀ u ∈ c.world.usage, u.stored_bytes ≤ RESEARCH_REPLICA_MAX_STORED_BYTES) ∧
      (Along InMonth c.log → Accounted c.log c.world.usage)) (fun c e hc => ?_) es hstart
  · exact ⟨hrun.1, (hrun.2 h).month⟩
  obtain ⟨hbytes, haccount⟩ := hc
  rcases Machine.step_cases (M := machine P) c e with hs | ⟨op, next, -, hs⟩
  · rw [hs]
    exact ⟨hbytes, haccount⟩
  · rw [hs]
    refine ⟨?_, fun halong => ?_⟩
    · rw [machine_perform]
      rcases perform_world P e.2 op c.world with hw | hw
      · rw [hw]
        exact hbytes
      · rw [hw]
        exact stored_bytes_effect hbytes
    · obtain ⟨hk, hpast⟩ := along_cons.1 halong
      exact accounted_call (k := ⟨e.1, op, e.2, c.world⟩) hk (haccount hpast)

/-! ## A month that is counted twice -/

/-- A message without an object. -/
def quotaRecord : OutboundV2Record where
  record_type := "job"
  message_id := "m1"
  schema_version := "collector-outbound-v2"
  policy_version := "p"
  visibility := .PRIVATE
  payload := .obj [("job_id", .str "j1")]
  generated_at := none

/-- A delivery at a time; its worker stops once its reservation is answered. -/
def quotaTask (now : String) : Task := .ingest quotaRecord 0 now

/-- As many deliveries in February as the month admits, one at a clock that still reads January, and
one more in February. -/
def quotaTasks (n : ℕ) : List Task :=
  List.replicate n (quotaTask "2026-02-01T") ++
    [quotaTask "2026-01-31T", quotaTask "2026-02-01T"]

def reservations (n : ℕ) : List (ℕ × Fault) :=
  (List.range n).flatMap fun t => alone t 4

/-- One delivery alone. -/
theorem admission_run_one :
    (∀ u ∈ ((machine exampleRuntime).exec (start exampleRuntime (quotaTasks 1))
        (reservations 1)).world.usage, u.stored_bytes ≤ RESEARCH_REPLICA_MAX_STORED_BYTES) ∧
      ∀ month, admitted month ((machine exampleRuntime).exec (start exampleRuntime (quotaTasks 1))
        (reservations 1)).log ≤ RESEARCH_REPLICA_MAX_MONTHLY_R2_WRITES :=
  admission_run exampleRuntime (quotaTasks 1) (reservations 1) (by decide)

/-- What a delivery reserves. -/
@[irreducible] def quotaBytes : ℕ := journalBytes quotaRecord + 0

theorem quotaBytes_eq : journalBytes quotaRecord + 0 = quotaBytes := by
  unfold quotaBytes
  rfl

/-- The four calls of a reservation, newest first. -/
def reservationCalls (t : ℕ) (month : String) (w : World) : List (Call Op World Fault) :=
  let inserted := effect exampleRuntime (.insertUsage month) w
  let reset := effect exampleRuntime (.resetUsage month) inserted
  [⟨t, .bookUsage quotaBytes 1, .none, reset⟩, ⟨t, .resetUsage month, .none, inserted⟩,
    ⟨t, .insertUsage month, .none, w⟩, ⟨t, .selectMessage "m1", .none, w⟩]

/-- A world in which only the usage row is written. -/
def usageWorld (usage : Option ReplicaUsage) : World := { World.empty with usage := usage }

section Reservations

variable {c : Config Thrown Op Res World Fault Unit} {t : ℕ} {now month : String}
  {usage : Option ReplicaUsage}

/-- The first four calls of a delivery. -/
theorem calls_quotaTask (hmonth : usagePeriod now = pure month) :
    ∃ n₁, (quotaTask now).program exampleRuntime = .call (.selectMessage "m1") n₁ ∧
      ∃ n₂, n₁ (.ok false) = .call (.insertUsage month) n₂ ∧
        ∃ n₃, n₂ (.ok ()) = .call (.resetUsage month) n₃ ∧
          ∃ n₄, n₃ (.ok ()) = .call (.bookUsage quotaBytes 1) n₄ := by
  have hkey : outboundV2RecordKey quotaRecord = some "j1" := by decide
  unfold quotaTask Task.program
  dsimp only
  unfold ingestResearchReplicaRecord
  rw [hkey]
  refine ⟨_, rfl, ?_⟩
  change ∃ n₂, (tryCatch (reserveR2Quota (journalBytes quotaRecord + 0) 1 now >>= _) _ >>= _) = _ ∧ _
  rw [quotaBytes_eq]
  unfold reserveR2Quota
  rw [hmonth]
  exact ⟨_, rfl, _, rfl, _, rfl⟩

/-- One undisturbed step of a thread. -/
theorem exec_next {P : Runtime} {script : ℕ → Program Unit} {s : Program Unit} {op : Op}
    {next : Except Thrown (Res op) → Program Unit} {w : World} {log : List (Call Op World Fault)}
    {n : ℕ} (h : s = .call op next) :
    (machine P).exec ⟨w, Function.update script t s, log⟩ (alone t (n + 1)) =
      (machine P).exec ⟨effect P op w, Function.update script t (next (.ok (answer op w))),
        ⟨t, op, .none, w⟩ :: log⟩ (alone t n) := by
  have hcall : (⟨w, Function.update script t s, log⟩ :
      Config Thrown Op Res World Fault Unit).script t = .call op next :=
    (Function.update_self ..).trans h
  change (machine P).exec _ ((t, .none) :: alone t n) = _
  rw [Machine.exec_cons, Machine.step_call (e := (t, .none)) hcall]
  simp only [Function.update_idem]
  rfl

/-- A delivery that stops after its reservation. -/
theorem exec_reservation (hmonth : usagePeriod now = pure month)
    (hscript : c.script t = (quotaTask now).program exampleRuntime)
    (hworld : c.world = usageWorld usage) :
    ∃ s, (machine exampleRuntime).exec c (alone t 4) =
      ⟨effect exampleRuntime (.bookUsage quotaBytes 1)
          (effect exampleRuntime (.resetUsage month)
            (effect exampleRuntime (.insertUsage month) c.world)),
        Function.update c.script t s, reservationCalls t month c.world ++ c.log⟩ := by
  obtain ⟨n₁, h₁, n₂, h₂, n₃, h₃, n₄, h₄⟩ := calls_quotaTask hmonth
  obtain ⟨w, script, log⟩ := c
  have hanswer : answer (.selectMessage "m1") w = false := by
    rw [show w = usageWorld usage from hworld]
    rfl
  have hself : Function.update script t ((quotaTask now).program exampleRuntime) = script := by
    rw [← show script t = _ from hscript]
    exact Function.update_eq_self t script
  have hexec : (machine exampleRuntime).exec ⟨w, script, log⟩ (alone t 4) =
      (machine exampleRuntime).exec ⟨w, Function.update script t
        ((quotaTask now).program exampleRuntime), log⟩ (alone t 4) := by
    rw [hself]
  rw [exec_next h₁, hanswer, exec_next h₂, exec_next h₃, exec_next h₄] at hexec
  exact ⟨_, hexec⟩

/-- The usage row as a reservation for a month finds it. -/
def prepared (usage : Option ReplicaUsage) (month : String) : ReplicaUsage :=
  let u := usage.getD ⟨month, 0, 0⟩
  if u.usage_period = month then u else { u with usage_period := month, r2_write_ops := 0 }

theorem prepared_of_ne {u : ReplicaUsage} (h : u.usage_period ≠ month) :
    prepared (some u) month = ⟨month, u.stored_bytes, 0⟩ :=
  if_neg h

/-- A reservation for which there is room. -/
theorem reserve (hmonth : usagePeriod now = pure month)
    (hscript : c.script t = (quotaTask now).program exampleRuntime)
    (hworld : c.world = usageWorld usage)
    (hroom : (prepared usage month).admits quotaBytes 1 = true) :
    ∃ s log, (machine exampleRuntime).exec c (alone t 4) =
        ⟨usageWorld (some ((prepared usage month).book quotaBytes 1)),
          Function.update c.script t s, log⟩ ∧
      ∀ m, admitted m log = admitted m c.log + if month = m then 1 else 0 := by
  obtain ⟨s, hexec⟩ := exec_reservation hmonth hscript hworld
  have hreset : effect exampleRuntime (.resetUsage month)
      (effect exampleRuntime (.insertUsage month) c.world) =
        usageWorld (some (prepared usage month)) := by
    rw [hworld]
    rfl
  rw [hreset] at hexec
  refine ⟨s, _, hexec, fun m => ?_⟩
  have hbooked : admittedBy ⟨t, .bookUsage quotaBytes 1, .none,
      usageWorld (some (prepared usage month))⟩ = 1 := by
    unfold admittedBy
    dsimp only
    rw [if_pos ⟨rfl, hroom⟩]
  unfold reservationCalls
  dsimp only
  rw [hreset]
  have hreset₀ : ∀ w, admittedBy ⟨t, .resetUsage month, .none, w⟩ = 0 := fun _ => rfl
  have hinsert₀ : ∀ w, admittedBy ⟨t, .insertUsage month, .none, w⟩ = 0 := fun _ => rfl
  have hselect₀ : ∀ w, admittedBy ⟨t, .selectMessage "m1", .none, w⟩ = 0 := fun _ => rfl
  simp [admitted, reservedMonth, hbooked, hreset₀, hinsert₀, hselect₀]

end Reservations

theorem usagePeriod_february : usagePeriod "2026-02-01T" = pure "2026-02" := by
  unfold usagePeriod
  rw [if_pos (by decide), show String.ofList ("2026-02-01T".toList.take 7) = "2026-02" by
    decide]

theorem usagePeriod_january : usagePeriod "2026-01-31T" = pure "2026-01" := by
  unfold usagePeriod
  rw [if_pos (by decide), show String.ofList ("2026-01-31T".toList.take 7) = "2026-01" by
    decide]

theorem quotaBytes_le : quotaBytes ≤ 9000 := by
  unfold quotaBytes
  decide +kernel

theorem reservations_succ (n : ℕ) : reservations (n + 1) = reservations n ++ alone n 4 := by
  simp [reservations, List.range_succ]

/-- The usage after some deliveries in February. -/
def februaryUsage (n : ℕ) : Option ReplicaUsage :=
  if n = 0 then none else some ⟨"2026-02", n * quotaBytes, n⟩

theorem admits_of_le {period : String} {n ops : ℕ}
    (hn : n ≤ RESEARCH_REPLICA_MAX_MONTHLY_R2_WRITES + 1)
    (hops : ops < RESEARCH_REPLICA_MAX_MONTHLY_R2_WRITES) :
    (⟨period, n * quotaBytes, ops⟩ : ReplicaUsage).admits
      quotaBytes 1 = true := by
  have hmul : (n + 1) * quotaBytes ≤ (RESEARCH_REPLICA_MAX_MONTHLY_R2_WRITES + 2) * 9000 :=
    Nat.mul_le_mul (by omega) quotaBytes_le
  rw [Nat.succ_mul] at hmul
  unfold ReplicaUsage.admits
  rw [decide_eq_true_iff]
  unfold RESEARCH_REPLICA_MAX_MONTHLY_R2_WRITES at hmul hops ⊢
  unfold RESEARCH_REPLICA_MAX_STORED_BYTES
  dsimp only
  omega

theorem book_of_admits {u : ReplicaUsage} {bytes writes : ℕ} (h : u.admits bytes writes = true) :
    u.book bytes writes =
      { u with stored_bytes := u.stored_bytes + bytes, r2_write_ops := u.r2_write_ops + writes } :=
  if_pos h

/-- After some deliveries in February, each has been admitted. -/
theorem exec_reservations {tasks : List Task} (n : ℕ)
    (htasks : ∀ t < n, tasks[t]? = some (quotaTask "2026-02-01T"))
    (hn : n ≤ RESEARCH_REPLICA_MAX_MONTHLY_R2_WRITES) :
    ∃ script log, (machine exampleRuntime).exec (start exampleRuntime tasks) (reservations n) =
        ⟨usageWorld (februaryUsage n), script, log⟩ ∧
      (∀ t, n ≤ t → script t = (start exampleRuntime tasks).script t) ∧
        admitted "2026-02" log = n := by
  induction n with
  | zero => exact ⟨_, _, rfl, fun _ _ => rfl, rfl⟩
  | succ n ih =>
    obtain ⟨script, log, hexec, hscript, hadmitted⟩ :=
      ih (fun t ht => htasks t (Nat.lt_succ_of_lt ht)) (Nat.le_of_succ_le hn)
    have htask : script n = (quotaTask "2026-02-01T").program exampleRuntime := by
      rw [hscript n (le_refl n)]
      change (tasks[n]?).elim _ _ = _
      rw [htasks n (Nat.lt_succ_self n)]
      rfl
    have hprepared : prepared (februaryUsage n) "2026-02" =
        ⟨"2026-02", n * quotaBytes, n⟩ := by
      unfold prepared februaryUsage
      by_cases h0 : n = 0
      · subst h0
        rw [if_pos rfl, Nat.zero_mul]
        rfl
      · rw [if_neg h0]
        rfl
    have hroom : (prepared (februaryUsage n) "2026-02").admits quotaBytes 1 =
        true := by
      rw [hprepared]
      exact admits_of_le (by omega) (by omega)
    obtain ⟨s, log', hstep, hlog'⟩ := reserve (c := ⟨usageWorld (februaryUsage n), script, log⟩)
      usagePeriod_february htask rfl hroom
    refine ⟨Function.update script n s, log', ?_, fun t ht => ?_, ?_⟩
    · rw [reservations_succ, Machine.exec_append, hexec, hstep, book_of_admits hroom, hprepared]
      unfold februaryUsage
      rw [if_neg (Nat.succ_ne_zero n), Nat.succ_mul]
    · rw [Function.update_of_ne (by omega)]
      exact hscript t (by omega)
    · rw [hlog', if_pos rfl]
      exact congrArg (· + 1) hadmitted

/-- **A month that is counted twice**: February's cap is used up; a delivery at a clock that still
reads January takes the row back; and February admits another write. -/
theorem month_exceeded : RESEARCH_REPLICA_MAX_MONTHLY_R2_WRITES <
    admitted "2026-02" ((machine exampleRuntime).exec
      (start exampleRuntime (quotaTasks RESEARCH_REPLICA_MAX_MONTHLY_R2_WRITES))
      (reservations (RESEARCH_REPLICA_MAX_MONTHLY_R2_WRITES + 2))).log := by
  have hpos : 1 < RESEARCH_REPLICA_MAX_MONTHLY_R2_WRITES := by decide
  obtain ⟨N, hN⟩ : ∃ N, N = RESEARCH_REPLICA_MAX_MONTHLY_R2_WRITES := ⟨_, rfl⟩
  rw [← hN] at hpos ⊢
  have htasks : ∀ t < N, (quotaTasks N)[t]? = some (quotaTask "2026-02-01T") := by
    intro t ht
    unfold quotaTasks
    rw [List.getElem?_append_left (by simpa using ht)]
    simp [ht]
  obtain ⟨script, log, hexec, hscript, hadmitted⟩ := exec_reservations N htasks hN.le
  have htask : ∀ t now, (quotaTasks N)[t]? = some (quotaTask now) →
      (start exampleRuntime (quotaTasks N)).script t = (quotaTask now).program exampleRuntime := by
    intro t now h
    change ((quotaTasks N)[t]?).elim _ _ = _
    rw [h]
    rfl
  have hjanuary : (quotaTasks N)[N]? = some (quotaTask "2026-01-31T") := by simp [quotaTasks]
  have hfebruary : (quotaTasks N)[N + 1]? = some (quotaTask "2026-02-01T") := by simp [quotaTasks]
  -- the late clock
  have hprepared : prepared (februaryUsage N) "2026-01" =
      ⟨"2026-01", N * quotaBytes, 0⟩ := by
    have hsome : februaryUsage N = some ⟨"2026-02", N * quotaBytes, N⟩ := if_neg (by omega)
    rw [hsome]
    exact prepared_of_ne (show "2026-02" ≠ "2026-01" by decide)
  have hroom : (prepared (februaryUsage N) "2026-01").admits quotaBytes 1 =
      true := by
    rw [hprepared]
    exact admits_of_le (by omega) (by omega)
  obtain ⟨s, log₁, hexec₁, hlog₁⟩ := reserve (c := ⟨usageWorld (februaryUsage N), script, log⟩)
    usagePeriod_january ((hscript N (le_refl N)).trans (htask N _ hjanuary)) rfl hroom
  rw [book_of_admits hroom, hprepared] at hexec₁
  -- February again
  have hprepared₂ : prepared (some ⟨"2026-01", N * quotaBytes +
      quotaBytes, 0 + 1⟩) "2026-02" =
        ⟨"2026-02", (N + 1) * quotaBytes, 0⟩ := by
    rw [Nat.succ_mul]
    exact prepared_of_ne (show "2026-01" ≠ "2026-02" by decide)
  have hroom₂ : (prepared (some ⟨"2026-01", N * quotaBytes +
      quotaBytes, 0 + 1⟩) "2026-02").admits quotaBytes 1 =
        true := by
    rw [hprepared₂]
    exact admits_of_le (by omega) (by omega)
  have hnext : Function.update script N s (N + 1) =
      (quotaTask "2026-02-01T").program exampleRuntime := by
    rw [Function.update_of_ne (by omega)]
    exact (hscript (N + 1) (by omega)).trans (htask (N + 1) _ hfebruary)
  obtain ⟨s₂, log₂, hexec₂, hlog₂⟩ := reserve (c := ⟨usageWorld (some ⟨"2026-01",
    N * quotaBytes + quotaBytes, 0 + 1⟩),
    Function.update script N s, log₁⟩) usagePeriod_february hnext rfl hroom₂
  rw [reservations_succ, reservations_succ, Machine.exec_append, Machine.exec_append, hexec, hexec₁,
    hexec₂]
  change N < admitted "2026-02" log₂
  rw [hlog₂, hlog₁, if_pos rfl, if_neg (show ¬ "2026-01" = "2026-02" by decide)]
  change N < admitted "2026-02" log + 0 + 1
  omega

end QuantproCollector.Retention
