import Mathlib.Algebra.GroupWithZero.Nat
import Mathlib.Algebra.Order.Group.Nat
import Mathlib.Data.List.Dedup
import Mathlib.Data.String.Basic
import QuantproCollector.QuotaMetering.Usage

/-!
# The allocation that the reconcile reports

Model of `read_client_allocation` of `src/scripts/cf_quota_meter_reconcile.py`, over the ledger that
`Usage` fills: the calls of each client, and of the most called routes, in the hours from a cutoff on.

The runtime takes the sums of a column, converts them to the numbers of the report, and compares them; the
calls are counted in whole numbers.

`allocation_exec`: in every run from an empty ledger, the report of the reached ledger has each client with a
charge in the window once, with as many calls as requests of the client have charged there, and in all as
many as have charged there.
-/

namespace QuantproCollector.QuotaMetering

open Async Relational

/-- What SQLite and Python make of the numbers of the ledger. -/
structure Numbers (N : Type) where
  /-- `SUM(column)`. -/
  sum : List N → N
  /-- `int(value or 0)`. -/
  int : N → ℤ
  /-- `float(value or 0.0)`. -/
  float : N → N
  /-- `a >= b` of `ORDER BY`. -/
  ge : N → N → Bool
  /-- `round(100.0 * calls / total, 2)`. -/
  percent : ℕ → ℕ → N
  zero : N

section Code

variable {N : Type} (S : Numbers N)

structure ClientAllocation (N : Type) where
  client_id : String
  call_count : ℕ
  d1_rows_read : ℤ
  d1_rows_written : ℤ
  ai_neurons : N
  call_share_pct : N

structure RouteAllocation (N : Type) where
  route : String
  calls : ℕ
  ai_neurons : N

inductive Allocation (N : Type) where
  | unavailable (reason : String)
  | available (window_start : String) (clients : List (ClientAllocation N))
      (routes : List (RouteAllocation N))

/-- A row of a `GROUP BY` query. -/
structure Group (N : Type) where
  value : String
  call_count : ℕ
  d1_rows_read : N
  d1_rows_written : N
  ai_neurons : N

/-- The rows of the window; hours are compared by their code points. -/
def window (cutoff_hour : String) (rows : List (UsageRow N)) : List (UsageRow N) :=
  rows.filter fun r => decide (cutoff_hour ≤ r.period_hour)

def groupOf (column : UsageRow N → String) (rows : List (UsageRow N)) (value : String) : Group N :=
  let members := rows.filter fun r => decide (column r = value)
  { value := value
    call_count := (members.map UsageRow.call_count).sum
    d1_rows_read := S.sum (members.map UsageRow.d1_rows_read)
    d1_rows_written := S.sum (members.map UsageRow.d1_rows_written)
    ai_neurons := S.sum (members.map UsageRow.ai_neurons) }

/-- `GROUP BY column`. -/
def groupBy (column : UsageRow N → String) (rows : List (UsageRow N)) : List (Group N) :=
  (rows.map column).dedup.map (groupOf S column rows)

/-- `ORDER BY ai_neurons DESC, call_count DESC`. -/
def byNeurons (a b : Group N) : Bool :=
  if S.ge a.ai_neurons b.ai_neurons && S.ge b.ai_neurons a.ai_neurons then
    decide (b.call_count ≤ a.call_count)
  else S.ge a.ai_neurons b.ai_neurons

/-- `ORDER BY calls DESC`. -/
def byCalls (a b : Group N) : Bool :=
  decide (b.call_count ≤ a.call_count)

def per_client (cutoff_hour : String) (rows : List (UsageRow N)) : List (Group N) :=
  (groupBy S UsageRow.client_id (window cutoff_hour rows)).mergeSort (byNeurons S)

def per_route (cutoff_hour : String) (rows : List (UsageRow N)) : List (Group N) :=
  ((groupBy S UsageRow.route (window cutoff_hour rows)).mergeSort byCalls).take 20

/-- The last characters of a text. -/
def lastChars (n : ℕ) (s : String) : String :=
  String.ofList (s.toList.drop (s.toList.length - n))

/-- An entry of the report. -/
def clientOf (total_calls : ℕ) (g : Group N) : ClientAllocation N where
  client_id := g.value
  call_count := g.call_count
  d1_rows_read := S.int g.d1_rows_read
  d1_rows_written := S.int g.d1_rows_written
  ai_neurons := S.float g.ai_neurons
  call_share_pct := if total_calls = 0 then S.zero else S.percent g.call_count total_calls

/-- The report of a ledger; a query fails with a message, of which `missing` tells whether it names a missing
table. -/
def read_client_allocation (missing : String → Bool) (failure : Option String) (cutoff_hour : String)
    (rows : List (UsageRow N)) : Allocation N :=
  match failure with
  | some message =>
    if missing message then
      .unavailable "quota_client_usage_hourly table missing (Phase 2 middleware not deployed yet)"
    else .unavailable (lastChars 300 message)
  | none =>
    let clients := per_client S cutoff_hour rows
    let total_calls := (clients.map Group.call_count).sum
    .available cutoff_hour (clients.map (clientOf S total_calls))
      ((per_route S cutoff_hour rows).map fun g => ⟨g.value, g.call_count, S.float g.ai_neurons⟩)

end Code

/-! ## Groups -/

section Groups

variable {N : Type} {S : Numbers N} {cutoff : String} {rows : List (UsageRow N)}

theorem mem_per_client {g : Group N} :
    g ∈ per_client S cutoff rows ↔
      ∃ r ∈ window cutoff rows, g = groupOf S UsageRow.client_id (window cutoff rows) r.client_id := by
  rw [per_client, List.mem_mergeSort, groupBy, List.mem_map]
  constructor
  · rintro ⟨v, hv, rfl⟩
    obtain ⟨r, hr, rfl⟩ := List.mem_map.1 (List.mem_dedup.1 hv)
    exact ⟨r, hr, rfl⟩
  · rintro ⟨r, hr, rfl⟩
    exact ⟨r.client_id, List.mem_dedup.2 (List.mem_map.2 ⟨r, hr, rfl⟩), rfl⟩

theorem values_groupBy (column : UsageRow N → String) (rows : List (UsageRow N)) :
    (groupBy S column rows).map Group.value = (rows.map column).dedup := by
  rw [groupBy, List.map_map]
  exact List.map_id _

theorem nodup_per_client : ((per_client S cutoff rows).map Group.value).Nodup := by
  have hperm : (per_client S cutoff rows).Perm (groupBy S UsageRow.client_id (window cutoff rows)) :=
    List.mergeSort_perm _ _
  rw [(hperm.map Group.value).nodup_iff, values_groupBy]
  exact List.nodup_dedup _

/-- The groups of all clients have the calls of the window. -/
theorem sum_per_client :
    ((per_client S cutoff rows).map Group.call_count).sum =
      ((window cutoff rows).map UsageRow.call_count).sum := by
  have hperm : (per_client S cutoff rows).Perm (groupBy S UsageRow.client_id (window cutoff rows)) :=
    List.mergeSort_perm _ _
  rw [(hperm.map Group.call_count).sum_eq, groupBy, List.map_map]
  apply sum_groups UsageRow.client_id UsageRow.call_count (List.nodup_dedup _)
  intro r hr
  exact List.mem_dedup.2 (List.mem_map.2 ⟨r, hr, rfl⟩)

theorem mem_per_route {g : Group N} (hg : g ∈ per_route S cutoff rows) :
    ∃ r ∈ window cutoff rows, g = groupOf S UsageRow.route (window cutoff rows) r.route := by
  have hg := List.mem_of_mem_take hg
  rw [List.mem_mergeSort, groupBy, List.mem_map] at hg
  obtain ⟨v, hv, rfl⟩ := hg
  obtain ⟨r, hr, rfl⟩ := List.mem_map.1 (List.mem_dedup.1 hv)
  exact ⟨r, hr, rfl⟩

end Groups

/-! ## Calls -/

section Calls

variable {N : Type} [Add N]

/-- The ledger that the charges make of an empty one. -/
abbrev ledgerOf (charges : List (Charge N)) : UsageTable N :=
  (Table.empty : UsageTable N).tally Charge.row UsageRow.charge UsageRow.key_charge charges

theorem rowOf_ledgerOf (charges : List (Charge N)) (key : String × String × String) :
    (ledgerOf charges).rowOf key = accrued none (charges.filter fun c => decide (c.key = key)) := by
  rw [ledgerOf, Table.rowOf_tally]
  rfl

/-- A row counts the charges under its key. -/
theorem call_count_ledgerOf {charges : List (Charge N)} {r : UsageRow N} (hr : r ∈ ledgerOf charges) :
    r.call_count = (charges.filter fun c => decide (c.key = r.key)).length := by
  have hrow : (ledgerOf charges).rowOf r.key = some r := Table.rowOf_eq_some.2 ⟨hr, rfl⟩
  rw [rowOf_ledgerOf] at hrow
  simpa using accrued_call_count hrow

theorem exists_row_ledgerOf {charges : List (Charge N)} {c : Charge N} (hc : c ∈ charges) :
    ∃ r ∈ ledgerOf charges, r.key = c.key := by
  cases hrow : (ledgerOf charges).rowOf c.key with
  | some r =>
    obtain ⟨hr, hkey⟩ := Table.rowOf_eq_some.1 hrow
    exact ⟨r, hr, hkey⟩
  | none =>
    rw [rowOf_ledgerOf] at hrow
    have hnil := (accrued_eq_none.1 hrow).2
    have hmem : c ∈ charges.filter fun c' => decide (c'.key = c.key) := List.mem_filter.2 ⟨hc, by simp⟩
    rw [hnil] at hmem
    cases hmem

/-- A row has a charge under its key. -/
theorem exists_charge_ledgerOf {charges : List (Charge N)} {r : UsageRow N} (hr : r ∈ ledgerOf charges) :
    ∃ c ∈ charges, c.key = r.key := by
  have hrow : (ledgerOf charges).rowOf r.key = some r := Table.rowOf_eq_some.2 ⟨hr, rfl⟩
  rw [rowOf_ledgerOf] at hrow
  have hne : (charges.filter fun c => decide (c.key = r.key)) ≠ [] := by
    intro hnil
    rw [hnil] at hrow
    cases hrow
  obtain ⟨c, hc⟩ := List.exists_mem_of_ne_nil _ hne
  obtain ⟨hc, hkey⟩ := List.mem_filter.1 hc
  exact ⟨c, hc, by simpa using hkey⟩

/-- The clients of the window are those of its charges. -/
theorem exists_client_ledgerOf {charges : List (Charge N)} {cutoff v : String} :
    (∃ r ∈ window cutoff (ledgerOf charges).rows, r.client_id = v) ↔
      ∃ c ∈ charges, cutoff ≤ c.period_hour ∧ c.client_id = v := by
  constructor
  · rintro ⟨r, hr, rfl⟩
    obtain ⟨hr, hhour⟩ := List.mem_filter.1 hr
    obtain ⟨c, hc, hkey⟩ := exists_charge_ledgerOf hr
    have hparts : c.period_hour = r.period_hour ∧ c.client_id = r.client_id ∧ c.route = r.route := by
      simpa [Charge.key, UsageRow.key] using hkey
    exact ⟨c, hc, by simpa [hparts.1] using hhour, hparts.2.1⟩
  · rintro ⟨c, hc, hhour, rfl⟩
    obtain ⟨r, hr, hkey⟩ := exists_row_ledgerOf hc
    have hparts : r.period_hour = c.period_hour ∧ r.client_id = c.client_id ∧ r.route = c.route := by
      simpa [Charge.key, UsageRow.key] using hkey
    exact ⟨r, List.mem_filter.2 ⟨hr, by simpa [hparts.1] using hhour⟩, hparts.2.1⟩

omit [Add N] in
theorem nodup_keys (t : UsageTable N) : (t.rows.map UsageRow.key).Nodup := by
  have hunique := t.unique (fun r => some r.key) (by simp)
  rw [List.Nodup, List.pairwise_map]
  apply hunique.imp
  intro a b hab heq
  exact hab (by simp) (congrArg some heq)

/-- The rows whose keys have a property count the charges whose keys have it. -/
theorem calls_ledgerOf (charges : List (Charge N)) (q : String × String × String → Bool) :
    (((ledgerOf charges).rows.filter fun r => q r.key).map UsageRow.call_count).sum =
      (charges.filter fun c => q c.key).length := by
  have hnodup : (((ledgerOf charges).rows.filter fun r => q r.key).map UsageRow.key).Nodup :=
    (nodup_keys (ledgerOf charges)).sublist (List.filter_sublist.map UsageRow.key)
  have hcount : ∀ r ∈ (ledgerOf charges).rows.filter fun r => q r.key, r.call_count =
      (((charges.filter fun c => q c.key).filter fun c => decide (c.key = r.key)).map fun _ => 1).sum := by
    intro r hr
    obtain ⟨hr, hq⟩ := List.mem_filter.1 hr
    have hones : ∀ cs : List (Charge N), (cs.map fun _ => 1).sum = cs.length := by
      intro cs
      simp
    rw [call_count_ledgerOf hr, List.filter_filter, hones]
    congr 1
    apply List.filter_congr
    intro c _
    by_cases hkey : c.key = r.key
    · simp [hkey, hq]
    · simp [hkey]
  have hall : ∀ c ∈ charges.filter fun c => q c.key,
      c.key ∈ ((ledgerOf charges).rows.filter fun r => q r.key).map UsageRow.key := by
    intro c hc
    obtain ⟨hc, hq⟩ := List.mem_filter.1 hc
    obtain ⟨r, hr, hkey⟩ := exists_row_ledgerOf hc
    exact List.mem_map.2 ⟨r, List.mem_filter.2 ⟨hr, by simpa [hkey] using hq⟩, hkey⟩
  have hsum := sum_groups Charge.key (fun _ => 1) hnodup (charges.filter fun c => q c.key) hall
  rw [List.map_congr_left hcount]
  rw [List.map_map] at hsum
  calc _ = ((charges.filter fun c => q c.key).map fun _ => 1).sum := hsum
    _ = (charges.filter fun c => q c.key).length := by simp

/-- The calls of the window, of one value of a column that the key has. -/
theorem calls_group (charges : List (Charge N)) (cutoff : String) {S : Numbers N}
    (column : UsageRow N → String) (part : String × String × String → String)
    (hcolumn : ∀ r, column r = part r.key) (value : String) :
    (groupOf S column (window cutoff (ledgerOf charges).rows) value).call_count =
      ((charges.filter fun c => decide (cutoff ≤ c.period_hour)).filter fun c =>
        decide (part c.key = value)).length := by
  have hcalls := calls_ledgerOf charges fun key => decide (part key = value) && decide (cutoff ≤ key.1)
  simp only [groupOf, window, List.filter_filter, hcolumn]
  exact hcalls

end Calls

/-! ## The report of a run -/

section Report

variable {N : Type} [Add N] [Zero N] [Div N] [OfNat N 1024]

/-- The charges of a run at the cutoff or later, with the requests that made them. -/
def landedSince (cutoff : String) (log : List (Call (Op N) (World N) Choice)) : List (ℕ × Charge N) :=
  (landed log).filter fun p => decide (cutoff ≤ p.2.period_hour)

omit [Add N] [Zero N] [Div N] [OfNat N 1024] in
/-- The charges of one value are those of the requests that have it. -/
theorem length_landedSince (cutoff : String) (log : List (Call (Op N) (World N) Choice))
    (part : String × String × String → String) (owner : ℕ → String)
    (howner : ∀ p ∈ landed log, part p.2.key = owner p.1) (value : String) :
    ((((landed log).map Prod.snd).filter fun c => decide (cutoff ≤ c.period_hour)).filter fun c =>
        decide (part c.key = value)).length =
      ((landedSince cutoff log).filter fun p => decide (owner p.1 = value)).length := by
  rw [List.filter_map, List.filter_map, List.length_map]
  congr 1
  apply List.filter_congr
  intro p hp
  simp only [Function.comp_apply, howner p (List.mem_of_mem_filter hp)]

/-- The clients of the report are those that have charged in the window, each once and with the calls of its
requests; the routes have the calls of theirs. -/
theorem allocation_exec (S : Numbers N) (missing : String → Bool) (requests : ℕ → Settlement N)
    (console : List (Event N)) (es : List (ℕ × Choice)) (cutoff : String) :
    let c := machine.exec (Config.start ⟨Table.empty, console⟩ fun t => settleQuotaMetering (requests t)) es
    ∃ clients routes, read_client_allocation S missing none cutoff c.world.usage.rows =
        .available cutoff clients routes ∧
      (clients.map ClientAllocation.client_id).Nodup ∧
      (∀ v, v ∈ clients.map ClientAllocation.client_id ↔
        ∃ p ∈ landedSince cutoff c.log, (requests p.1).clientId = v) ∧
      (∀ e ∈ clients, e.call_count = ((landedSince cutoff c.log).filter fun p =>
        decide ((requests p.1).clientId = e.client_id)).length) ∧
      (clients.map ClientAllocation.call_count).sum = (landedSince cutoff c.log).length ∧
      ∀ e ∈ routes, e.calls = ((landedSince cutoff c.log).filter fun p =>
        decide ((requests p.1).route = e.route)).length := by
  intro c
  obtain ⟨charges, hcharges⟩ : ∃ charges, (landed c.log).map Prod.snd = charges := ⟨_, rfl⟩
  have husage : c.world.usage = ledgerOf charges := by
    rw [← hcharges]
    exact usage_exec _ _ es
  have hmeasured := landed_measured requests ⟨Table.empty, console⟩ es
  have hclient : ∀ p ∈ landed c.log, p.2.key.2.1 = (requests p.1).clientId := by
    intro p hp
    obtain ⟨-, -, now, hnow⟩ := hmeasured p hp
    rw [hnow]
    rfl
  have hroute : ∀ p ∈ landed c.log, p.2.key.2.2 = (requests p.1).route := by
    intro p hp
    obtain ⟨-, -, now, hnow⟩ := hmeasured p hp
    rw [hnow]
    rfl
  have hids : ∀ total : ℕ, ((per_client S cutoff c.world.usage.rows).map (clientOf S total)).map
      ClientAllocation.client_id = (per_client S cutoff c.world.usage.rows).map Group.value := by
    intro total
    rw [List.map_map]
    rfl
  have hcounts : ∀ total : ℕ, ((per_client S cutoff c.world.usage.rows).map (clientOf S total)).map
      ClientAllocation.call_count = (per_client S cutoff c.world.usage.rows).map Group.call_count := by
    intro total
    rw [List.map_map]
    rfl
  refine ⟨_, _, rfl, ?_, ?_, ?_, ?_, ?_⟩
  · rw [hids]
    exact nodup_per_client
  · intro v
    have hv : v ∈ (per_client S cutoff c.world.usage.rows).map Group.value ↔
        ∃ r ∈ window cutoff c.world.usage.rows, r.client_id = v := by
      rw [List.mem_map]
      constructor
      · rintro ⟨g, hg, rfl⟩
        obtain ⟨r, hr, rfl⟩ := mem_per_client.1 hg
        exact ⟨r, hr, rfl⟩
      · rintro ⟨r, hr, rfl⟩
        exact ⟨_, mem_per_client.2 ⟨r, hr, rfl⟩, rfl⟩
    rw [hids, hv, husage, exists_client_ledgerOf, ← hcharges]
    constructor
    · rintro ⟨ch, hch, hhour, rfl⟩
      obtain ⟨p, hp, rfl⟩ := List.mem_map.1 hch
      exact ⟨p, List.mem_filter.2 ⟨hp, by simpa using hhour⟩, (hclient p hp).symm⟩
    · rintro ⟨p, hp, rfl⟩
      obtain ⟨hp, hhour⟩ := List.mem_filter.1 hp
      exact ⟨p.2, List.mem_map.2 ⟨p, hp, rfl⟩, by simpa using hhour, hclient p hp⟩
  · intro e he
    obtain ⟨g, hg, rfl⟩ := List.mem_map.1 he
    obtain ⟨r, -, rfl⟩ := mem_per_client.1 hg
    have hgroup := calls_group charges cutoff (S := S) UsageRow.client_id (fun key => key.2.1)
      (fun _ => rfl) r.client_id
    have hlength := length_landedSince cutoff c.log (fun key => key.2.1)
      (fun t => (requests t).clientId) hclient r.client_id
    rw [← husage, ← hcharges] at hgroup
    exact hgroup.trans hlength
  · have hcalls := calls_ledgerOf charges fun key => decide (cutoff ≤ key.1)
    rw [hcounts, sum_per_client]
    calc ((window cutoff c.world.usage.rows).map UsageRow.call_count).sum
        = (charges.filter fun ch => decide (cutoff ≤ ch.period_hour)).length := by
          rw [husage]
          exact hcalls
      _ = (landedSince cutoff c.log).length := by
          rw [← hcharges, List.filter_map, List.length_map]
          rfl
  · intro e he
    obtain ⟨g, hg, rfl⟩ := List.mem_map.1 he
    obtain ⟨r, -, rfl⟩ := mem_per_route hg
    have hgroup := calls_group charges cutoff (S := S) UsageRow.route (fun key => key.2.2)
      (fun _ => rfl) r.route
    have hlength := length_landedSince cutoff c.log (fun key => key.2.2)
      (fun t => (requests t).route) hroute r.route
    rw [← husage, ← hcharges] at hgroup
    exact hgroup.trans hlength

end Report

end QuantproCollector.QuotaMetering
