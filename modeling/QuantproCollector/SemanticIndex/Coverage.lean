import Mathlib.Algebra.BigOperators.Group.List.Basic
import Mathlib.Data.List.Dedup
import QuantproCollector.SemanticIndex.Currency
import QuantproCollector.SemanticIndex.Search

/-!
# The coverage of the semantic index

The coverage counters that operators read, beside the work queue. The counters and the status filter
the rows as the queue does; the oldest pending time does not, and counts rows of EXPIRED documents
(`pendingAgrees_iff`).
-/

namespace QuantproCollector.SemanticIndex.Search

open Relational

/-- The state's text, by which the counters are sorted. -/
def stateText : SemanticState → String
  | .PENDING => "PENDING"
  | .READY => "READY"
  | .FAILED => "FAILED"

/-- A row of `GROUP BY state, retired_at`. -/
structure GroupedRow where
  state : SemanticState
  retired_at : Option String
  n : ℕ
  chunks : ℕ
  active_n : ℕ
  active_chunks : ℕ

structure StateCoverage where
  state : SemanticState
  active : ℕ
  total : ℕ
deriving DecidableEq

structure FailureCode where
  last_error_code : String
  count : ℕ
deriving DecidableEq

structure SemanticIndexCoverage where
  index_status : IndexStatus
  model_id : String
  states : List StateCoverage
  failure_codes : List FailureCode
  oldest_pending_at : Option String
  indexed_chunks : ℕ

/-- `CASE WHEN NOT_EXPIRED_BY_RETENTION THEN n ELSE 0 END`. -/
def whenNotExpired (s : Replica) (n : SemanticIndexStateRow → ℕ) (r : SemanticIndexStateRow) : ℕ :=
  if expiredByRetention s r.document_id then 0 else n r

def groupOf (r : SemanticIndexStateRow) : SemanticState × Option String :=
  (r.state, r.retired_at)

/-- The counters of one group of rows. -/
def groupedRow (s : Replica) (group : SemanticState × Option String) : GroupedRow :=
  let rows := s.semantic.rows.filter fun r => groupOf r = group
  { state := group.1
    retired_at := group.2
    n := rows.length
    chunks := (rows.map (·.confirmed_chunks)).sum
    active_n := (rows.map (whenNotExpired s fun _ => 1)).sum
    active_chunks := (rows.map (whenNotExpired s (·.confirmed_chunks))).sum }

/-- The groups; their order is not observed. -/
def groupedRows (s : Replica) : List GroupedRow :=
  (s.semantic.rows.map groupOf).dedup.map (groupedRow s)

/-- The bucket that a grouped row is added to, or a new one at the end. -/
def addToBucket (row : GroupedRow) : List StateCoverage → List StateCoverage
  | [] => [⟨row.state, if row.retired_at = none then row.active_n else 0, row.n⟩]
  | bucket :: rest =>
    if bucket.state = row.state then
      ⟨bucket.state, bucket.active + (if row.retired_at = none then row.active_n else 0),
        bucket.total + row.n⟩ :: rest
    else bucket :: addToBucket row rest

def buckets (groups : List GroupedRow) : List StateCoverage :=
  groups.foldl (fun grouped row => addToBucket row grouped) []

/-- The chunks of the READY rows that are served. -/
def indexedChunks (groups : List GroupedRow) : ℕ :=
  (groups.map fun row => if row.retired_at = none ∧ row.state = .READY then row.active_chunks
    else 0).sum

/-- The failures not retired, by error code, the most frequent first, at most twenty. -/
def failureCodes (s : Replica) : List FailureCode :=
  let failed := s.semantic.rows.filter fun r => decide (r.state = .FAILED ∧ r.retired_at = none)
  let codes := (failed.map (·.last_error_code)).dedup.map fun code =>
    (⟨code.getD "UNKNOWN", failed.countP (·.last_error_code = code)⟩ : FailureCode)
  (codes.insertionSort fun a b =>
    a.count > b.count ∨ a.count = b.count ∧ a.last_error_code ≤ b.last_error_code).take 20

/-- `WHERE visibility='PUBLIC' AND state='PENDING' AND retired_at IS NULL`: the rows whose oldest
time is read, EXPIRED documents included. -/
def unretiredPending (s : Replica) : List SemanticIndexStateRow :=
  s.semantic.rows.filter fun r => decide (r.state = .PENDING ∧ r.retired_at = none)

/-- `MIN(updated_at)`. -/
def oldestOf (times : List String) : Option String := times.min?

def readSemanticIndexCoverage (s : Replica) : SemanticIndexCoverage where
  index_status := semanticIndexStatus s
  model_id := SEMANTIC_MODEL_ID
  states := (buckets (groupedRows s)).insertionSort fun a b => stateText a.state ≤ stateText b.state
  failure_codes := failureCodes s
  oldest_pending_at := oldestOf ((unretiredPending s).map (·.updated_at))
  indexed_chunks := indexedChunks (groupedRows s)

/-- The active count of a state, zero where it has no bucket. -/
def SemanticIndexCoverage.active (coverage : SemanticIndexCoverage) (state : SemanticState) : ℕ :=
  ((coverage.states.find? (·.state = state)).map (·.active)).getD 0

/-- The items of the pages up to the last one, each page with a limit of its own; `none` where more
than `fuel` pages are needed. -/
def followPagesBy (s : Replica) (state : SemanticState) :
    (limits : ℕ → Option Decimal) → ℕ → Option (String ×ₗ String) →
      Option (List SemanticPendingVersion)
  | _, 0, _ => none
  | limits, fuel + 1, after =>
    let page := listPendingSemanticVersions s (limits 0) state after
    match page.next with
    | none => some page.items
    | some cursor =>
      (followPagesBy s state (fun n => limits (n + 1)) fuel (some cursor)).map (page.items ++ ·)

/-! ## The enumeration of the queue -/

theorem nodup_keys (s : Replica) : (s.semantic.rows.map SemanticIndexStateRow.key).Nodup := by
  have hunique := s.semantic.unique _ (List.mem_singleton.2 rfl)
  exact List.pairwise_map.2 (hunique.imp fun h he => h (by simp) (by rw [he]))

theorem followPagesBy_eq (s : Replica) {state : SemanticState} (hstate : state ≠ .FAILED)
    (limits : ℕ → Option Decimal) (fuel : ℕ) (after : Option (String ×ₗ String)) :
    followPagesBy s state limits fuel after =
      (Keyset.walkBy SemanticIndexStateRow.key (queuedRows s state)
        (fun n => clampInt (limits n) 128 1 128) fuel after).map
        (List.map SemanticIndexStateRow.pendingVersion) := by
  induction fuel generalizing limits after with
  | zero => rfl
  | succ fuel ih =>
    have hqueue : (if state = .READY then SemanticState.READY else .PENDING) = state := by
      cases state <;> first | rfl | exact absurd rfl hstate
    have hpage : listPendingSemanticVersions s (limits 0) state after =
        ⟨(Keyset.page SemanticIndexStateRow.key (clampInt (limits 0) 128 1 128)
            (queuedRows s state) after).items.map SemanticIndexStateRow.pendingVersion,
          (Keyset.page SemanticIndexStateRow.key (clampInt (limits 0) 128 1 128)
            (queuedRows s state) after).next⟩ := by
      simp only [listPendingSemanticVersions, hqueue]
    simp only [followPagesBy, Keyset.walkBy, hpage]
    cases (Keyset.page SemanticIndexStateRow.key (clampInt (limits 0) 128 1 128)
      (queuedRows s state) after).next with
    | none => rfl
    | some cursor =>
      simp only [ih, Option.map_map]
      congr 1
      funext rows
      simp

/-- The pages end, and hold every row of the queue in one state once. -/
structure Enumerates (s : Replica) (limits : ℕ → Option Decimal) (state : SemanticState)
    (items : List SemanticPendingVersion) : Prop where
  ends : ∃ fuel, followPagesBy s state limits fuel none = some items
  every : items.Perm ((queuedRows s state).map SemanticIndexStateRow.pendingVersion)
  once : (items.map fun item => (item.document_id, item.version_id)).Nodup

theorem enumerates_queue (s : Replica) (limits : ℕ → Option Decimal) (state : SemanticState)
    (hstate : state ≠ .FAILED) :
    Enumerates s limits state ((Keyset.ordered SemanticIndexStateRow.key (queuedRows s state)).map
      SemanticIndexStateRow.pendingVersion) := by
  have hsub : (queuedRows s state).Sublist s.semantic.rows := List.filter_sublist
  have hnodup := (nodup_keys s).sublist (hsub.map _)
  have hordered : (Keyset.ordered SemanticIndexStateRow.key (queuedRows s state)).Perm
      (queuedRows s state) := Keyset.perm_ordered _
  have hperm := hordered.map SemanticIndexStateRow.pendingVersion
  have hkeys : (((queuedRows s state).map SemanticIndexStateRow.pendingVersion).map
      fun item => (item.document_id, item.version_id)).Nodup := by
    rw [List.map_map]
    exact hnodup
  refine ⟨⟨s.semantic.rows.length + 1, ?_⟩, hperm, ((hperm.map _).nodup_iff).2 hkeys⟩
  rw [followPagesBy_eq s hstate, Keyset.walkBy_eq_ordered hnodup
    (fun n => clampInt_pos _ (by omega) (by omega) (by omega)) (Nat.lt_succ_of_le hsub.length_le)]
  rfl

/-! ## The counters -/

/-- The active counts of the buckets of a state. -/
def activeSum (state : SemanticState) (grouped : List StateCoverage) : ℕ :=
  (grouped.map fun bucket => if bucket.state = state then bucket.active else 0).sum

/-- What a grouped row adds to the active count of a state. -/
def activeOf (state : SemanticState) (row : GroupedRow) : ℕ :=
  if row.state = state ∧ row.retired_at = none then row.active_n else 0

theorem activeSum_addToBucket (state : SemanticState) (row : GroupedRow)
    (grouped : List StateCoverage) :
    activeSum state (addToBucket row grouped) = activeSum state grouped + activeOf state row := by
  induction grouped with
  | nil =>
    by_cases hs : row.state = state <;> by_cases hr : row.retired_at = none <;>
      simp [addToBucket, activeSum, activeOf, hs, hr]
  | cons bucket rest ih =>
    unfold addToBucket
    split_ifs with hsame hretired
    · by_cases hs : row.state = state
      · simp only [activeSum, activeOf, hsame, hs, List.map_cons, List.sum_cons, hretired]
        simp only [and_self, if_true]
        omega
      · simp [activeSum, activeOf, hsame, hs]
    · simp [activeSum, activeOf, hretired]
    · have hcons : ∀ l, activeSum state (bucket :: l) =
          (if bucket.state = state then bucket.active else 0) + activeSum state l := fun _ => rfl
      rw [hcons, hcons, ih]
      omega

theorem states_addToBucket (row : GroupedRow) (grouped : List StateCoverage) :
    (addToBucket row grouped).map (·.state) =
      if row.state ∈ grouped.map (·.state) then grouped.map (·.state)
      else grouped.map (·.state) ++ [row.state] := by
  induction grouped with
  | nil => rfl
  | cons bucket rest ih =>
    unfold addToBucket
    by_cases hsame : bucket.state = row.state
    · simp [hsame]
    · rw [if_neg hsame, List.map_cons, ih, List.map_cons]
      by_cases hmem : row.state ∈ rest.map (·.state)
      · rw [if_pos hmem, if_pos (List.mem_cons_of_mem _ hmem)]
      · rw [if_neg hmem, if_neg (by
          rw [List.mem_cons, not_or]
          exact ⟨fun h => hsame h.symm, hmem⟩)]
        rfl

theorem nodup_addToBucket {row : GroupedRow} {grouped : List StateCoverage}
    (h : (grouped.map (·.state)).Nodup) : ((addToBucket row grouped).map (·.state)).Nodup := by
  rw [states_addToBucket]
  split_ifs with hmem
  · exact h
  · exact List.Nodup.append h (List.nodup_singleton _)
      (List.disjoint_singleton.2 hmem)

/-- The buckets of a run over the groups: distinct states, and the active counts added up. -/
theorem buckets_run (state : SemanticState) (groups : List GroupedRow) (grouped : List StateCoverage)
    (h : (grouped.map (·.state)).Nodup) :
    ((groups.foldl (fun grouped row => addToBucket row grouped) grouped).map (·.state)).Nodup ∧
      activeSum state (groups.foldl (fun grouped row => addToBucket row grouped) grouped) =
        activeSum state grouped + (groups.map (activeOf state)).sum := by
  induction groups generalizing grouped with
  | nil => exact ⟨h, rfl⟩
  | cons row groups ih =>
    obtain ⟨hnodup, hsum⟩ := ih (addToBucket row grouped) (nodup_addToBucket h)
    refine ⟨hnodup, ?_⟩
    rw [List.foldl_cons, hsum, activeSum_addToBucket, List.map_cons, List.sum_cons]
    omega

theorem active_eq_activeSum {grouped : List StateCoverage} (h : (grouped.map (·.state)).Nodup)
    (state : SemanticState) :
    ((grouped.find? (·.state = state)).map (·.active)).getD 0 = activeSum state grouped := by
  induction grouped with
  | nil => rfl
  | cons bucket rest ih =>
    obtain ⟨hnot, hrest⟩ := List.nodup_cons.1 h
    by_cases hs : bucket.state = state
    · have hzero : activeSum state rest = 0 := by
        refine List.sum_eq_zero fun n hn => ?_
        obtain ⟨other, hother, rfl⟩ := List.mem_map.1 hn
        exact if_neg fun heq => hnot (List.mem_map.2 ⟨other, hother, heq.trans hs.symm⟩)
      have hcons : activeSum state (bucket :: rest) = bucket.active + activeSum state rest := by
        simp [activeSum, hs]
      rw [hcons, hzero, List.find?_cons_of_pos (by simp [hs])]
      rfl
    · have hcons : activeSum state (bucket :: rest) = activeSum state rest := by
        simp [activeSum, hs]
      rw [hcons, List.find?_cons_of_neg (by simp [hs]), ih hrest]

theorem sum_ite_of_nodup {α : Type} [DecidableEq α] {l : List α} (h : l.Nodup) (a : α)
    (f : α → ℕ) : (l.map fun k => if k = a then f k else 0).sum = if a ∈ l then f a else 0 := by
  induction l with
  | nil => rfl
  | cons k l ih =>
    obtain ⟨hnot, hrest⟩ := List.nodup_cons.1 h
    rw [List.map_cons, List.sum_cons, ih hrest]
    by_cases hk : k = a
    · subst hk
      simp [hnot]
    · simp [hk, Ne.symm hk]

theorem sum_whenNotExpired (s : Replica) (rows : List SemanticIndexStateRow) :
    (rows.map (whenNotExpired s fun _ => 1)).sum =
      (rows.filter fun r => !expiredByRetention s r.document_id).length := by
  induction rows with
  | nil => rfl
  | cons r rows ih =>
    rw [List.map_cons, List.sum_cons, ih]
    cases hr : expiredByRetention s r.document_id <;> simp [whenNotExpired, hr, Nat.add_comm]

/-- The groups' active counts of a state are the rows of the queue in that state. -/
theorem sum_activeOf (s : Replica) (state : SemanticState) :
    ((groupedRows s).map (activeOf state)).sum = (queuedRows s state).length := by
  have hgroup : ∀ group : SemanticState × Option String,
      activeOf state (groupedRow s group) =
        if group = (state, none) then (groupedRow s group).active_n else 0 := by
    rintro ⟨st, retired⟩
    simp [activeOf, groupedRow, Prod.ext_iff]
  have hcount : (groupedRow s (state, none)).active_n = (queuedRows s state).length := by
    have hrows : queuedRows s state = (s.semantic.rows.filter fun r => groupOf r = (state, none)).filter
        fun r => !expiredByRetention s r.document_id := by
      rw [List.filter_filter]
      refine List.filter_congr fun r _ => ?_
      simp [groupOf, Prod.ext_iff, Bool.and_comm]
    rw [hrows, ← sum_whenNotExpired]
    rfl
  rw [groupedRows, List.map_map]
  have hmap : (activeOf state ∘ groupedRow s) = fun group =>
      if group = (state, none) then (groupedRow s group).active_n else 0 := funext hgroup
  rw [hmap, sum_ite_of_nodup (List.nodup_dedup _), hcount]
  split_ifs with hmem
  · rfl
  · refine (List.length_eq_zero_iff.2 (List.filter_eq_nil_iff.2 fun r hr hq => hmem ?_)).symm
    simp only [Bool.and_eq_true, decide_eq_true_eq] at hq
    refine List.mem_dedup.2 (List.mem_map.2 ⟨r, hr, ?_⟩)
    exact Prod.ext hq.1.1 hq.1.2

theorem active_coverage (s : Replica) (state : SemanticState) :
    (readSemanticIndexCoverage s).active state = (queuedRows s state).length := by
  obtain ⟨hnodup, hsum⟩ := buckets_run state (groupedRows s) [] List.nodup_nil
  have hperm : (readSemanticIndexCoverage s).states.Perm (buckets (groupedRows s)) :=
    List.perm_insertionSort _ _
  unfold SemanticIndexCoverage.active
  rw [active_eq_activeSum ((hperm.map _).nodup_iff.2 hnodup)]
  have hactive : activeSum state (readSemanticIndexCoverage s).states =
      activeSum state (buckets (groupedRows s)) := (hperm.map _).sum_eq
  rw [hactive]
  refine hsum.trans ?_
  rw [sum_activeOf]
  exact Nat.zero_add _

/-! ## Status and oldest time -/

theorem activeRows_eq (s : Replica) (state : SemanticState) :
    activeRows s state = (queuedRows s state).length := by
  unfold activeRows queuedRows
  rw [List.countP_eq_length_filter]
  refine congrArg List.length (List.filter_congr fun r _ => ?_)
  by_cases hret : r.retired_at = none <;> by_cases hs : r.state = state <;> simp [hret, hs]

theorem status_ready_iff (s : Replica) :
    (readSemanticIndexCoverage s).index_status = .READY ↔
      queuedRows s .PENDING = [] ∧ queuedRows s .READY ≠ [] := by
  have hstatus : (readSemanticIndexCoverage s).index_status = semanticIndexStatus s := rfl
  rw [hstatus, semanticIndexStatus, activeRows_eq, activeRows_eq]
  split_ifs with h
  · refine iff_of_false (by decide) fun ⟨hpending, hready⟩ => ?_
    rw [hpending, List.length_eq_zero_iff] at h
    exact h.elim (lt_irrefl 0) hready
  · rw [not_or, List.length_eq_zero_iff, not_lt, Nat.le_zero, List.length_eq_zero_iff] at h
    exact iff_of_true rfl h

/-- The least of some texts and of some of them agree where those reach below all. -/
theorem oldestOf_eq_iff {all some_ : List String} (hsub : ∀ t ∈ some_, t ∈ all) :
    oldestOf all = oldestOf some_ ↔ ∀ t ∈ all, ∃ u ∈ some_, u ≤ t := by
  unfold oldestOf
  constructor
  · intro h t ht
    cases hmin : all.min? with
    | none =>
      rw [List.min?_eq_none_iff.1 hmin] at ht
      cases ht
    | some u =>
      rw [hmin] at h
      exact ⟨u, (List.min?_eq_some_iff.1 h.symm).1, (List.min?_eq_some_iff.1 hmin).2 t ht⟩
  · intro h
    cases hmin : some_.min? with
    | none =>
      rw [List.min?_eq_none_iff] at hmin ⊢
      refine List.eq_nil_iff_forall_not_mem.2 fun t ht => ?_
      obtain ⟨u, hu, -⟩ := h t ht
      rw [hmin] at hu
      cases hu
    | some u =>
      obtain ⟨hu, hleast⟩ := List.min?_eq_some_iff.1 hmin
      refine List.min?_eq_some_iff.2 ⟨hsub u hu, fun t ht => ?_⟩
      obtain ⟨w, hw, hwt⟩ := h t ht
      exact (hleast w hw).trans hwt

/-- No unretired pending row of an EXPIRED document is older than all the rows of the queue. -/
def OldestQueued (s : Replica) : Prop :=
  ∀ r ∈ unretiredPending s, expiredByRetention s r.document_id = true →
    ∃ q ∈ queuedRows s .PENDING, q.updated_at ≤ r.updated_at

instance (s : Replica) : Decidable (OldestQueued s) :=
  inferInstanceAs (Decidable (∀ r ∈ unretiredPending s, expiredByRetention s r.document_id = true →
    ∃ q ∈ queuedRows s .PENDING, q.updated_at ≤ r.updated_at))

theorem mem_queued_iff {s : Replica} {r : SemanticIndexStateRow} :
    r ∈ queuedRows s .PENDING ↔
      r ∈ unretiredPending s ∧ expiredByRetention s r.document_id = false := by
  simp [queuedRows, unretiredPending, and_assoc]

theorem oldest_eq_iff (s : Replica) :
    (readSemanticIndexCoverage s).oldest_pending_at =
        oldestOf ((queuedRows s .PENDING).map (·.updated_at)) ↔ OldestQueued s := by
  have hsub : ∀ t ∈ (queuedRows s .PENDING).map (·.updated_at),
      t ∈ (unretiredPending s).map (·.updated_at) := by
    intro t ht
    obtain ⟨r, hr, rfl⟩ := List.mem_map.1 ht
    exact List.mem_map_of_mem (mem_queued_iff.1 hr).1
  refine (oldestOf_eq_iff hsub).trans ⟨fun h r hr _ => ?_, fun h t ht => ?_⟩
  · obtain ⟨u, hu, hle⟩ := h r.updated_at (List.mem_map_of_mem hr)
    obtain ⟨q, hq, rfl⟩ := List.mem_map.1 hu
    exact ⟨q, hq, hle⟩
  · obtain ⟨r, hr, rfl⟩ := List.mem_map.1 ht
    cases hexpired : expiredByRetention s r.document_id with
    | true =>
      obtain ⟨q, hq, hle⟩ := h r hr hexpired
      exact ⟨q.updated_at, List.mem_map_of_mem hq, hle⟩
    | false =>
      exact ⟨r.updated_at, List.mem_map_of_mem (mem_queued_iff.2 ⟨hr, hexpired⟩), le_refl _⟩

/-- The pages of the queue end and hold every row once, and the coverage says of them what they
are. -/
structure PendingAgrees (s : Replica) (limits : ℕ → Option Decimal) : Prop where
  ready : ∃ items, Enumerates s limits .READY items
  pending : ∃ items, Enumerates s limits .PENDING items ∧
    ((readSemanticIndexCoverage s).index_status = .READY ↔
      items = [] ∧ ∃ ready, Enumerates s limits .READY ready ∧ ready ≠ []) ∧
    (readSemanticIndexCoverage s).active .PENDING = items.length ∧
    (readSemanticIndexCoverage s).oldest_pending_at = oldestOf (items.map (·.updated_at))

theorem oldestOf_items {s : Replica} {limits : ℕ → Option Decimal}
    {items : List SemanticPendingVersion} (h : Enumerates s limits .PENDING items) :
    oldestOf (items.map (·.updated_at)) =
      oldestOf ((queuedRows s .PENDING).map (·.updated_at)) := by
  have hperm : (items.map (·.updated_at)).Perm ((queuedRows s .PENDING).map (·.updated_at)) := by
    refine (h.every.map (·.updated_at)).trans (List.Perm.of_eq ?_)
    rw [List.map_map]
    rfl
  refine (oldestOf_eq_iff fun t ht => hperm.mem_iff.2 ht).2 fun t ht => ?_
  exact ⟨t, hperm.mem_iff.1 ht, le_refl t⟩

theorem PendingAgrees.oldestQueued {s : Replica} {limits : ℕ → Option Decimal}
    (h : PendingAgrees s limits) : OldestQueued s := by
  obtain ⟨items, hitems, -, -, holdest⟩ := h.pending
  rw [oldestOf_items hitems] at holdest
  exact (oldest_eq_iff s).1 holdest

/-- Queue and coverage agree exactly where the oldest time is that of a queued row. -/
theorem pendingAgrees_iff (s : Replica) (limits : ℕ → Option Decimal) :
    PendingAgrees s limits ↔ OldestQueued s := by
  have hpending := enumerates_queue s limits .PENDING (by decide)
  have hready := enumerates_queue s limits .READY (by decide)
  have hempty : ∀ {state items}, Enumerates s limits state items →
      (items = [] ↔ queuedRows s state = []) := fun h => by
    rw [← List.length_eq_zero_iff, h.every.length_eq, List.length_map, List.length_eq_zero_iff]
  refine ⟨PendingAgrees.oldestQueued, fun hoq => ⟨⟨_, hready⟩, _, hpending, ?_, ?_, ?_⟩⟩
  · rw [status_ready_iff, hempty hpending]
    refine and_congr_right fun _ => ⟨fun h => ⟨_, hready, fun hnil => h ((hempty hready).1 hnil)⟩, ?_⟩
    rintro ⟨ready, henum, hne⟩ hnil
    exact hne ((hempty henum).2 hnil)
  · rw [active_coverage, hpending.every.length_eq, List.length_map]
  · rw [oldestOf_items hpending]
    exact (oldest_eq_iff s).2 hoq

/-! A pending row that a re-ingest brought back after its document was marked EXPIRED. -/

def expiredPending : Replica where
  messages := .empty
  records := .empty
  semantic := Table.empty.upsert (pendingRow ⟨"doc-1", "v1"⟩ none "2026-10-02T00:00:00.000Z") id
    fun _ => rfl
  retention := Table.empty.upsert ⟨"doc-1", .EXPIRED⟩ id fun _ => rfl

theorem oldest_pending_disagrees : ¬ PendingAgrees expiredPending fun _ => none := by
  intro h
  exact absurd h.oldestQueued (by decide)

end QuantproCollector.SemanticIndex.Search
