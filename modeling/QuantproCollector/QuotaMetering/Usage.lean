import Mathlib.Algebra.GroupWithZero.Nat
import Mathlib.Data.List.Induction
import QuantproCollector.Lib.Run
import QuantproCollector.Lib.Tally

/-!
# The client usage ledger

Model of `recordClientUsage` of `src/src/quota-metering.ts` and of `settleQuotaMetering` of
`src/src/index.ts`: every finished request adds its measured usage to the hourly row of its client and
route.

A number is of any type that has an addition and can be divided by 1024; nothing else of it is used, so the
sums of floats are those that the additions make, in their order. An instant is its ISO text. The upsert is
one statement, which can fail before or after it takes effect.

* `charges_exec`: after every run, the row of a key holds what the landed upserts of that key charge, each
  request having charged at most once and only what it measured.
* `settled_exec`: a settle never raises; a charge that did not land is named on the console.
-/

namespace QuantproCollector.QuotaMetering

open Async Relational

/-! ## The code -/

/-- A total of a finished request. -/
structure ObservedDimension (N : Type) where
  dimension_key : String
  units : N
deriving DecidableEq

/-- A row of `quota_client_usage_hourly`. -/
structure UsageRow (N : Type) where
  period_hour : String
  client_id : String
  route : String
  call_count : ℕ
  d1_rows_read : N
  d1_rows_written : N
  ai_neurons : N
  vectorize_queries : N
  created_at : String
  updated_at : String
deriving DecidableEq

/-- The primary key. -/
def UsageRow.key {N : Type} (r : UsageRow N) : String × String × String :=
  (r.period_hour, r.client_id, r.route)

/-- The values that are bound to `UPSERT_USAGE_SQL`. -/
structure Charge (N : Type) where
  period_hour : String
  client_id : String
  route : String
  d1_rows_read : N
  d1_rows_written : N
  ai_neurons : N
  vectorize_queries : N
  now : String
deriving DecidableEq

def Charge.key {N : Type} (c : Charge N) : String × String × String :=
  (c.period_hour, c.client_id, c.route)

/-- The inserted row. -/
def Charge.row {N : Type} (c : Charge N) : UsageRow N where
  period_hour := c.period_hour
  client_id := c.client_id
  route := c.route
  call_count := 1
  d1_rows_read := c.d1_rows_read
  d1_rows_written := c.d1_rows_written
  ai_neurons := c.ai_neurons
  vectorize_queries := c.vectorize_queries
  created_at := c.now
  updated_at := c.now

section Code

variable {N : Type} [Add N] [Zero N] [Div N] [OfNat N 1024]

/-- `DO UPDATE SET`. -/
def UsageRow.charge (r : UsageRow N) (c : Charge N) : UsageRow N :=
  { r with
    call_count := r.call_count + 1
    d1_rows_read := r.d1_rows_read + c.d1_rows_read
    d1_rows_written := r.d1_rows_written + c.d1_rows_written
    ai_neurons := r.ai_neurons + c.ai_neurons
    vectorize_queries := r.vectorize_queries + c.vectorize_queries
    updated_at := c.now }

omit [Zero N] [Div N] [OfNat N 1024] in
theorem UsageRow.key_charge (r : UsageRow N) (c : Charge N) : (r.charge c).key = r.key := rfl

/-- The UTC hour of an ISO text. -/
def quotaPeriodHour (now : String) : String :=
  String.ofList (now.toList.take 13) ++ ":00:00Z"

def sumDimension (observed : List (ObservedDimension N)) (key : String) : N :=
  observed.foldl (fun total entry =>
    if entry.dimension_key = key then total + entry.units else total) 0

structure ClientUsageInput (N : Type) where
  route : String
  client_id : String
  observed : List (ObservedDimension N)
  now : String

def ClientUsageInput.charge (input : ClientUsageInput N) : Charge N where
  period_hour := quotaPeriodHour input.now
  client_id := input.client_id
  route := input.route
  d1_rows_read := sumDimension input.observed "d1.rows_read"
  d1_rows_written := sumDimension input.observed "d1.rows_written"
  ai_neurons := sumDimension input.observed "ai.neurons"
  vectorize_queries := sumDimension input.observed "vectorize.queried_dims" / 1024
  now := input.now

/-- What D1 throws: an `Error` of a name, or something else. -/
inductive Thrown where
  | error (name : String)
  | other
deriving DecidableEq

/-- `error instanceof Error ? error.name : "Error"`. -/
def Thrown.name : Thrown → String
  | .error name => name
  | .other => "Error"

/-- A line of the console. -/
inductive Event (N : Type) where
  | quota_observation (timestamp route client_id : String) (observed : List (ObservedDimension N))
  | quota_metering_failed (timestamp route error_name : String)
deriving DecidableEq

inductive Op (N : Type) where
  | clock
  | log (event : Event N)
  | upsertUsage (charge : Charge N)
deriving DecidableEq

abbrev Res : Op N → Type
  | .clock => String
  | .log _ => Unit
  | .upsertUsage _ => Unit

abbrev Program (N : Type) (α : Type) := Script Thrown (Op N) Res α

/-- `new Date()`. -/
def clock : Program N String := Script.perform (Op.clock : Op N)

/-- `console.log`. -/
def log (event : Event N) : Program N Unit := Script.perform (Op.log event)

def recordClientUsage (input : ClientUsageInput N) : Program N Unit :=
  Script.perform (Op.upsertUsage input.charge)

/-- The options of a settle; `db` is whether the binding is there, `observed` what the observer totals. -/
structure Settlement (N : Type) where
  route : String
  clientId : String
  observed : List (ObservedDimension N)
  db : Bool

def Settlement.usage (o : Settlement N) (now : String) : ClientUsageInput N :=
  ⟨o.route, o.clientId, o.observed, now⟩

/-- The `try` block, of a request that measured something. -/
def account (o : Settlement N) : Program N Unit := do
  let timestamp ← clock
  log (.quota_observation timestamp o.route o.clientId o.observed)
  if o.db then
    let now ← clock
    recordClientUsage (o.usage now)
  else pure ()

/-- The `catch` block. -/
def nameFailure (o : Settlement N) (error : Thrown) : Program N Unit := do
  let timestamp ← clock
  log (.quota_metering_failed timestamp o.route error.name)

def settleQuotaMetering (o : Settlement N) : Program N Unit :=
  if o.observed = [] then pure () else tryCatch (account o) (nameFailure o)

end Code

/-! ## The world -/

abbrev UsageTable (N : Type) : Type :=
  Table (UsageRow N) (String × String × String) [fun r => some r.key]

structure World (N : Type) where
  usage : UsageTable N
  console : List (Event N)

/-- Whether and where the statement fails. -/
inductive Fault where
  | none
  | before (error : Thrown)
  | after (error : Thrown)
deriving DecidableEq

/-- The statement took effect. -/
def Fault.landed : Fault → Bool
  | .before _ => false
  | _ => true

def Fault.answer : Fault → Except Thrown Unit
  | .none => .ok ()
  | .before e => .error e
  | .after e => .error e

structure Choice where
  clock : String
  fault : Fault

section World

variable {N : Type} [Add N]

def World.upsertUsage (w : World N) (c : Charge N) : World N :=
  { w with usage := w.usage.upsert c.row (fun r => r.charge c) fun r => r.key_charge c }

def perform (ch : Choice) : (op : Op N) → World N → Except Thrown (Res op) × World N
  | .clock, w => (.ok ch.clock, w)
  | .log event, w => (.ok (), { w with console := w.console ++ [event] })
  | .upsertUsage c, w => (ch.fault.answer, if ch.fault.landed then w.upsertUsage c else w)

def machine : Machine Thrown (Op N) Res (World N) Choice where
  perform := perform

/-- The request that a call charges, and what it charges, where it took effect. -/
def landedCharge (k : Call (Op N) (World N) Choice) : Option (ℕ × Charge N) :=
  match k.op with
  | .upsertUsage c => if k.choice.fault.landed then some (k.thread, c) else none
  | _ => none

/-- The charges that took effect, oldest first; a log is newest first. -/
def landed (log : List (Call (Op N) (World N) Choice)) : List (ℕ × Charge N) :=
  log.reverse.filterMap landedCharge

end World

/-! ## Rows -/

section Rows

variable {N : Type} [Add N]

/-- Added up, in their order. -/
def inTurn [Zero N] : List N → N
  | [] => 0
  | x :: xs => xs.foldl (fun total y => total + y) x

/-- What the charges under a key make of its row. -/
def accrued (before : Option (UsageRow N)) (charges : List (Charge N)) : Option (UsageRow N) :=
  charges.foldl (Table.accrue Charge.row UsageRow.charge) before

theorem accrued_concat (before : Option (UsageRow N)) (charges : List (Charge N)) (c : Charge N) :
    accrued before (charges ++ [c]) =
      some ((accrued before charges).elim c.row fun r => r.charge c) := by
  rw [accrued, List.foldl_append]
  rfl

theorem accrued_eq_none {before : Option (UsageRow N)} {charges : List (Charge N)} :
    accrued before charges = none ↔ before = none ∧ charges = [] := by
  rcases List.eq_nil_or_concat charges with rfl | ⟨charges, c, rfl⟩
  · simp [accrued]
  · simp [accrued_concat]

theorem accrued_call_count {before : Option (UsageRow N)} {charges : List (Charge N)} {r : UsageRow N}
    (h : accrued before charges = some r) :
    r.call_count = before.elim 0 UsageRow.call_count + charges.length := by
  induction charges using List.reverseRecOn generalizing r with
  | nil =>
    obtain rfl : before = some r := h
    rfl
  | append_singleton charges c ih =>
    rw [accrued_concat] at h
    cases ha : accrued before charges with
    | none =>
      obtain ⟨rfl, rfl⟩ := accrued_eq_none.1 ha
      rw [ha] at h
      cases h
      rfl
    | some a =>
      rw [ha] at h
      cases h
      have hcount := ih ha
      simp only [Option.elim_some, UsageRow.charge, List.length_append, List.length_singleton]
      omega

variable [Zero N]

theorem inTurn_concat (xs : List N) (hxs : xs ≠ []) (y : N) : inTurn (xs ++ [y]) = inTurn xs + y := by
  cases xs with
  | nil => exact absurd rfl hxs
  | cons x xs => simp [inTurn]

/-- A column that an insert sets and an update adds to holds its amounts, in their order. -/
theorem accrued_column {column : UsageRow N → N} {amount : Charge N → N}
    (hrow : ∀ c, column c.row = amount c) (hcharge : ∀ r c, column (r.charge c) = column r + amount c)
    {before : Option (UsageRow N)} {charges : List (Charge N)} {r : UsageRow N}
    (h : accrued before charges = some r) :
    column r = inTurn ((before.map column).toList ++ charges.map amount) := by
  induction charges using List.reverseRecOn generalizing r with
  | nil =>
    obtain rfl : before = some r := h
    rfl
  | append_singleton charges c ih =>
    rw [accrued_concat] at h
    rw [List.map_append, ← List.append_assoc]
    cases ha : accrued before charges with
    | none =>
      obtain ⟨rfl, rfl⟩ := accrued_eq_none.1 ha
      rw [ha] at h
      cases h
      exact hrow c
    | some a =>
      have hne : (before.map column).toList ++ charges.map amount ≠ [] := by
        intro hnil
        have hnone : accrued before charges = none := by
          apply accrued_eq_none.2
          simpa using hnil
        rw [ha] at hnone
        cases hnone
      rw [ha] at h
      cases h
      rw [List.map_singleton, inTurn_concat _ hne, ← ih ha]
      exact hcharge a c

/-- The row of a key, from the row before and the charges under the key, in their order. -/
structure Accounts (before : Option (UsageRow N)) (charges : List (Charge N))
    (row : Option (UsageRow N)) : Prop where
  absent : row = none ↔ before = none ∧ charges = []
  call_count : ∀ r ∈ row, r.call_count = before.elim 0 UsageRow.call_count + charges.length
  d1_rows_read : ∀ r ∈ row, r.d1_rows_read =
    inTurn ((before.map UsageRow.d1_rows_read).toList ++ charges.map Charge.d1_rows_read)
  d1_rows_written : ∀ r ∈ row, r.d1_rows_written =
    inTurn ((before.map UsageRow.d1_rows_written).toList ++ charges.map Charge.d1_rows_written)
  ai_neurons : ∀ r ∈ row, r.ai_neurons =
    inTurn ((before.map UsageRow.ai_neurons).toList ++ charges.map Charge.ai_neurons)
  vectorize_queries : ∀ r ∈ row, r.vectorize_queries =
    inTurn ((before.map UsageRow.vectorize_queries).toList ++ charges.map Charge.vectorize_queries)

theorem accounts_accrued (before : Option (UsageRow N)) (charges : List (Charge N)) :
    Accounts before charges (accrued before charges) where
  absent := accrued_eq_none
  call_count _ h := accrued_call_count h
  d1_rows_read _ h := accrued_column (fun _ => rfl) (fun _ _ => rfl) h
  d1_rows_written _ h := accrued_column (fun _ => rfl) (fun _ _ => rfl) h
  ai_neurons _ h := accrued_column (fun _ => rfl) (fun _ _ => rfl) h
  vectorize_queries _ h := accrued_column (fun _ => rfl) (fun _ _ => rfl) h

end Rows

/-! ## Runs -/

section Runs

variable {N : Type} [Add N]

omit [Add N] in
theorem landed_cons (k : Call (Op N) (World N) Choice) (log : List (Call (Op N) (World N) Choice)) :
    landed (k :: log) = landed log ++ (landedCharge k).toList := by
  rw [landed, List.reverse_cons, List.filterMap_append]
  cases hk : landedCharge k with
  | none => simp [landed, hk]
  | some p => simp [landed, hk]

/-- A call adds to the ledger what it charges. -/
theorem usage_perform (t : ℕ) (ch : Choice) (op : Op N) (w : World N) :
    (machine.perform ch op w).2.usage = w.usage.tally Charge.row UsageRow.charge UsageRow.key_charge
      ((landedCharge ⟨t, op, ch, w⟩).toList.map Prod.snd) := by
  cases op with
  | clock => rfl
  | log event => rfl
  | upsertUsage c =>
    cases hl : ch.fault.landed with
    | false =>
      simp only [machine, perform, landedCharge, hl]
      rfl
    | true =>
      simp only [machine, perform, landedCharge, hl]
      rfl

/-- The ledger after a run is the ledger before it and the charges that landed. -/
theorem usage_exec {α : Type} (s : ℕ → Program N α) (w : World N) (es : List (ℕ × Choice)) :
    (machine.exec (Config.start w s) es).world.usage =
      w.usage.tally Charge.row UsageRow.charge UsageRow.key_charge
        ((landed (machine.exec (Config.start w s) es).log).map Prod.snd) := by
  refine Machine.exec_induction (P := fun c => c.world.usage =
    w.usage.tally Charge.row UsageRow.charge UsageRow.key_charge ((landed c.log).map Prod.snd)) ?_ es rfl
  intro c e hc
  rcases Machine.step_cases (M := machine) c e with hs | ⟨op, next, -, hs⟩
  · rw [hs]
    exact hc
  · rw [hs, landed_cons, List.map_append, Table.tally_append, ← hc]
    exact usage_perform e.1 e.2 op c.world

end Runs

/-! ## One settle -/

section Settle

variable {N : Type} [Add N] [Zero N] [Div N] [OfNat N 1024]

/-- What the calls of a settle come to. -/
structure Settled (o : Settlement N) (ks : List (Call (Op N) (World N) Choice)) : Prop where
  once : (ks.filterMap landedCharge).length ≤ 1
  measured : ∀ p ∈ ks.filterMap landedCharge,
    o.db = true ∧ o.observed ≠ [] ∧ ∃ now, p.2 = (o.usage now).charge
  quiet : o.observed = [] → ks = []
  named : o.observed ≠ [] → o.db = true → ks.filterMap landedCharge = [] →
    ∃ k ∈ ks, ∃ timestamp name, k.op = .log (.quota_metering_failed timestamp o.route name)

/-- The calls of the `try` block. -/
theorem completes_account {o : Settlement N} {ks : List (Call (Op N) (World N) Choice)}
    {r : Except Thrown Unit} (h : machine.Completes (account o) ks r) :
    (∃ t₁ ch₁ w₁ t₂ ch₂ w₂, ks = [⟨t₁, .clock, ch₁, w₁⟩,
        ⟨t₂, .log (.quota_observation ch₁.clock o.route o.clientId o.observed), ch₂, w₂⟩] ∧
      o.db = false ∧ r = .ok ()) ∨
      ∃ t₁ ch₁ w₁ t₂ ch₂ w₂ t₃ ch₃ w₃ t₄ ch₄ w₄, ks = [⟨t₁, .clock, ch₁, w₁⟩,
          ⟨t₂, .log (.quota_observation ch₁.clock o.route o.clientId o.observed), ch₂, w₂⟩,
          ⟨t₃, .clock, ch₃, w₃⟩, ⟨t₄, .upsertUsage (o.usage ch₃.clock).charge, ch₄, w₄⟩] ∧
        o.db = true ∧ r = ch₄.fault.answer := by
  cases hdb : o.db with
  | false =>
    simp only [account, clock, log, hdb, Script.perform_bind, Script.halt_ok_bind, Machine.completes_call,
      machine, perform, Bool.false_eq_true, if_false, Script.pure_eq, Machine.completes_halt] at h
    obtain ⟨t₁, ch₁, w₁, _, rfl, t₂, ch₂, w₂, _, rfl, rfl, rfl⟩ := h
    exact .inl ⟨t₁, ch₁, w₁, t₂, ch₂, w₂, rfl, rfl, rfl⟩
  | true =>
    simp only [account, clock, log, recordClientUsage, Script.perform, hdb, Script.call_bind,
      Script.halt_ok_bind, Machine.completes_call, machine, perform, if_true,
      Machine.completes_halt] at h
    obtain ⟨t₁, ch₁, w₁, _, rfl, t₂, ch₂, w₂, _, rfl, t₃, ch₃, w₃, _, rfl, t₄, ch₄, w₄, _, rfl, rfl, rfl⟩ := h
    exact .inr ⟨t₁, ch₁, w₁, t₂, ch₂, w₂, t₃, ch₃, w₃, t₄, ch₄, w₄, rfl, rfl, rfl⟩

omit [Zero N] [Div N] [OfNat N 1024] in
theorem completes_nameFailure {o : Settlement N} {e : Thrown} {ks : List (Call (Op N) (World N) Choice)}
    {r : Except Thrown Unit} (h : machine.Completes (nameFailure o e) ks r) :
    ∃ t₁ ch₁ w₁ t₂ ch₂ w₂, ks = [⟨t₁, .clock, ch₁, w₁⟩,
        ⟨t₂, .log (.quota_metering_failed ch₁.clock o.route e.name), ch₂, w₂⟩] ∧ r = .ok () := by
  simp only [nameFailure, clock, log, Script.perform, Script.call_bind, Script.halt_ok_bind,
    Machine.completes_call, machine, perform, Machine.completes_halt] at h
  obtain ⟨t₁, ch₁, w₁, _, rfl, t₂, ch₂, w₂, _, rfl, rfl, rfl⟩ := h
  exact ⟨t₁, ch₁, w₁, t₂, ch₂, w₂, rfl, rfl⟩

/-- A settle answers, whatever fails, and charges at most once. -/
theorem completes_settle {o : Settlement N} {ks : List (Call (Op N) (World N) Choice)}
    {r : Except Thrown Unit} (h : machine.Completes (settleQuotaMetering o) ks r) :
    r = .ok () ∧ Settled o ks := by
  unfold settleQuotaMetering at h
  split_ifs at h with hobs
  · obtain ⟨rfl, rfl⟩ := Machine.completes_halt.1 h
    exact ⟨rfl, by simp, by simp, fun _ => rfl, fun hne => absurd hobs hne⟩
  · rcases Machine.completes_tryCatch.1 h with ⟨a, ha, rfl⟩ | ⟨e, ks₁, ks₂, rfl, ha, hf⟩
    · refine ⟨rfl, ?_⟩
      rcases completes_account ha with ⟨t₁, ch₁, w₁, t₂, ch₂, w₂, rfl, hdb, -⟩ |
        ⟨t₁, ch₁, w₁, t₂, ch₂, w₂, t₃, ch₃, w₃, t₄, ch₄, w₄, rfl, hdb, hr⟩
      · exact ⟨by simp [List.filterMap_cons, landedCharge], by simp [List.filterMap_cons, landedCharge],
          fun hnil => absurd hnil hobs, fun _ hdb' => by simp [hdb] at hdb'⟩
      · have hl : ch₄.fault.landed = true := by
          cases hfault : ch₄.fault with
          | none => rfl
          | before e => simp [hfault, Fault.answer] at hr
          | after e => rfl
        refine ⟨by simp [List.filterMap_cons, landedCharge, hl], ?_, fun hnil => absurd hnil hobs,
          by simp [List.filterMap_cons, landedCharge, hl]⟩
        intro p hp
        obtain rfl : p = (t₄, (o.usage ch₃.clock).charge) := by
          simpa [List.filterMap_cons, landedCharge, hl] using hp
        exact ⟨hdb, hobs, ch₃.clock, rfl⟩
    · obtain ⟨t₅, ch₅, w₅, t₆, ch₆, w₆, rfl, rfl⟩ := completes_nameFailure hf
      refine ⟨rfl, ?_⟩
      rcases completes_account ha with ⟨t₁, ch₁, w₁, t₂, ch₂, w₂, rfl, hdb, hr⟩ |
        ⟨t₁, ch₁, w₁, t₂, ch₂, w₂, t₃, ch₃, w₃, t₄, ch₄, w₄, rfl, hdb, hr⟩
      · cases hr
      · refine ⟨?_, ?_, fun hnil => absurd hnil hobs, ?_⟩
        · cases hl : ch₄.fault.landed <;> simp [List.filterMap_cons, landedCharge, hl]
        · intro p hp
          obtain rfl : p = (t₄, (o.usage ch₃.clock).charge) := by
            cases hl : ch₄.fault.landed with
            | false => simp [List.filterMap_cons, landedCharge, hl] at hp
            | true => simpa [List.filterMap_cons, landedCharge, hl] using hp
          exact ⟨hdb, hobs, ch₃.clock, rfl⟩
        · intro _ _ _
          exact ⟨⟨t₆, .log (.quota_metering_failed ch₅.clock o.route e.name), ch₆, w₆⟩, by simp, ch₅.clock,
            e.name, rfl⟩

end Settle

/-! ## Any settles, in any order -/

section Account

variable {N : Type} [Add N] [Zero N] [Div N] [OfNat N 1024]

omit [Zero N] [Div N] [OfNat N 1024] [Add N] in
/-- The charges of a thread are those of its own calls. -/
theorem landed_thread (log : List (Call (Op N) (World N) Choice)) (t : ℕ) :
    (landed log).filter (fun p => decide (p.1 = t)) =
      ((log.filter fun k => decide (k.thread = t)).reverse).filterMap landedCharge := by
  rw [landed, ← List.filter_reverse, List.filter_filterMap, List.filterMap_filter]
  apply List.filterMap_congr
  intro k _
  unfold landedCharge
  cases k.op with
  | clock => simp
  | log event => simp
  | upsertUsage c =>
    cases hl : k.choice.fault.landed with
    | false => simp
    | true => by_cases ht : k.thread = t <;> simp [ht]

/-- What a thread has charged at any moment, it has charged when it has halted. -/
theorem settled_thread (requests : ℕ → Settlement N) (w : World N) (es : List (ℕ × Choice)) (t : ℕ) :
    ∃ ks, Settled (requests t) ks ∧
      (landed (machine.exec (Config.start w fun t => settleQuotaMetering (requests t)) es).log).filter
        (fun p => decide (p.1 = t)) <+: ks.filterMap landedCharge := by
  obtain ⟨es', r, hr, later, hlater⟩ := Machine.exists_exec_halt ⟨"", .none⟩
    (machine.exec (Config.start w fun t => settleQuotaMetering (requests t)) es) t
  rw [← Machine.exec_append] at hr hlater
  refine ⟨_, (completes_settle (Machine.completes_exec _ hr)).2, ?_⟩
  rw [hlater, List.reverse_append, List.filterMap_append, landed_thread]
  exact List.prefix_append _ _

/-- A charge that landed is what its request measured, at one instant. -/
theorem landed_measured (requests : ℕ → Settlement N) (w : World N) (es : List (ℕ × Choice)) :
    ∀ p ∈ landed (machine.exec (Config.start w fun t => settleQuotaMetering (requests t)) es).log,
      (requests p.1).db = true ∧ (requests p.1).observed ≠ [] ∧
        ∃ now, p.2 = ((requests p.1).usage now).charge := by
  intro p hp
  obtain ⟨ks, hks, hpre⟩ := settled_thread requests w es p.1
  exact hks.measured p (hpre.subset (List.mem_filter.2 ⟨hp, by simp⟩))

/-- After every run, the row of a key is accounted for by the charges that landed on it; a request has
charged at most once, and what it measured at one instant. -/
theorem charges_exec (requests : ℕ → Settlement N) (w : World N) (es : List (ℕ × Choice))
    (key : String × String × String) :
    let c := machine.exec (Config.start w fun t => settleQuotaMetering (requests t)) es
    Accounts (w.usage.rowOf key) (((landed c.log).map Prod.snd).filter fun ch => decide (ch.key = key))
        (c.world.usage.rowOf key) ∧
      ((landed c.log).map Prod.fst).Nodup ∧
      ∀ p ∈ landed c.log, (requests p.1).db = true ∧ (requests p.1).observed ≠ [] ∧
        ∃ now, p.2 = ((requests p.1).usage now).charge := by
  intro c
  refine ⟨?_, ?_, landed_measured requests w es⟩
  · rw [usage_exec, Table.rowOf_tally]
    exact accounts_accrued _ _
  · rw [List.nodup_iff_count_le_one]
    intro t
    obtain ⟨ks, hks, hpre⟩ := settled_thread requests w es t
    calc ((landed c.log).map Prod.fst).count t
        = ((landed c.log).filter fun p => decide (p.1 = t)).length := by
          rw [List.count, List.countP_map, List.countP_eq_length_filter]
          rfl
      _ ≤ (ks.filterMap landedCharge).length := hpre.length_le
      _ ≤ 1 := hks.once

omit [Zero N] [Div N] [OfNat N 1024] in
/-- What was logged stays on the console. -/
theorem console_exec {α : Type} (s : ℕ → Program N α) (w : World N) (es : List (ℕ × Choice)) :
    ∀ k ∈ (machine.exec (Config.start w s) es).log, ∀ event, k.op = .log event →
      event ∈ (machine.exec (Config.start w s) es).world.console := by
  refine Machine.exec_induction (P := fun c : Config Thrown (Op N) Res (World N) Choice α =>
    ∀ k ∈ c.log, ∀ event, k.op = .log event → event ∈ c.world.console) ?_ es (by simp [Config.start])
  intro c e hc
  rcases Machine.step_cases (M := machine) c e with hs | ⟨op, next, -, hs⟩
  · rw [hs]
    exact hc
  · have hkeep : ∀ event ∈ c.world.console, event ∈ (machine.perform e.2 op c.world).2.console := by
      intro event hevent
      cases op with
      | clock => exact hevent
      | log event' => exact List.mem_append_left _ hevent
      | upsertUsage charge =>
        show event ∈ (if e.2.fault.landed then c.world.upsertUsage charge else c.world).console
        split_ifs <;> exact hevent
    rw [hs]
    intro k hk event hevent
    rcases List.mem_cons.1 hk with rfl | hk
    · obtain rfl : op = .log event := hevent
      exact List.mem_append_right _ List.mem_cons_self
    · exact hkeep event (hc k hk event hevent)

/-- A settle never raises, nothing is called for a request that measured nothing, and a charge that did not
land is named on the console. -/
theorem settled_exec (requests : ℕ → Settlement N) (w : World N) (es : List (ℕ × Choice)) (t : ℕ)
    (r : Except Thrown Unit)
    (h : (machine.exec (Config.start w fun t => settleQuotaMetering (requests t)) es).result? t = some r) :
    let c := machine.exec (Config.start w fun t => settleQuotaMetering (requests t)) es
    r = .ok () ∧ ((requests t).observed = [] → c.trace t = []) ∧
      ((requests t).observed ≠ [] → (requests t).db = true →
        t ∈ (landed c.log).map Prod.fst ∨ ∃ timestamp name,
          .quota_metering_failed timestamp (requests t).route name ∈ c.world.console) := by
  intro c
  obtain ⟨hr, hsettled⟩ := completes_settle (Machine.completes_exec es h)
  refine ⟨hr, ?_, ?_⟩
  · intro hnil
    exact List.reverse_eq_nil_iff.1 (hsettled.quiet hnil)
  · intro hobs hdb
    by_cases hland : t ∈ (landed c.log).map Prod.fst
    · exact .inl hland
    · right
      have hnone : (c.trace t).reverse.filterMap landedCharge = [] := by
        rw [Config.trace, ← landed_thread, List.filter_eq_nil_iff]
        intro p hp hpt
        exact hland (List.mem_map.2 ⟨p, hp, by simpa using hpt⟩)
      obtain ⟨k, hk, timestamp, name, hop⟩ := hsettled.named hobs hdb hnone
      have hlog : k ∈ c.log := (List.mem_filter.1 (List.mem_reverse.1 hk)).1
      exact ⟨timestamp, name, console_exec _ w es k hlog _ hop⟩

def lostSettlement : Settlement ℕ := ⟨"mcp:get_document", "runner", [⟨"d1.rows_read", 3⟩], true⟩

def lostChoice : Choice := ⟨"2026-10-02T03:04:05.000Z", .before (.error "D1_ERROR")⟩

/-- A statement that fails before it takes effect. -/
def lostRun : List (ℕ × Choice) := List.replicate 6 (0, lostChoice)

theorem settled_exec_lost :
    let c := machine.exec (Config.start ⟨Table.empty, []⟩ fun _ => settleQuotaMetering lostSettlement) lostRun
    Except.ok () = (Except.ok () : Except Thrown Unit) ∧ (lostSettlement.observed = [] → c.trace 0 = []) ∧
      (lostSettlement.observed ≠ [] → lostSettlement.db = true →
        0 ∈ (landed c.log).map Prod.fst ∨ ∃ timestamp name,
          .quota_metering_failed timestamp lostSettlement.route name ∈ c.world.console) :=
  settled_exec (fun _ => lostSettlement) ⟨Table.empty, []⟩ lostRun 0 (.ok ()) rfl

end Account

end QuantproCollector.QuotaMetering
