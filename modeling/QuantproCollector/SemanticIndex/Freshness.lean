import QuantproCollector.SemanticIndex.Currency
import QuantproCollector.SemanticIndex.Push

/-!
# Freshness of READY rows

A push reads its row and the current version, stores its vectors and marks the row READY, in
requests of their own; an ingest of the version in between changes the body under it
(`stale_ready`). And an ingest keeps a READY row whose stored hash is the version's own content hash,
though the body that it serves can be another. Where neither happens, every unretired row is READY
for the body its version serves, or waits in the queue (`ready_fresh`).
-/

namespace QuantproCollector.SemanticIndex.Push

open Relational Async

/-- The hash of the body that a payload serves; none for a title alone. -/
def bodyHash (payload : Json) : Option String :=
  (servableBody payload).map (·.contentSha256)

/-- The version's own content hash, which an ingest registers. -/
def ownHash (record : OutboundV2Record) : Option String :=
  hexSha256? ((record.payload.get? "version").bind (·.get? "content_sha256"))

/-- The version of the document is stored, and serves a body with the hash. -/
def Serves (s : Replica) (documentId versionId : String) (hash : Option String) : Prop :=
  ∃ r ∈ s.records.rows, r.key = ("document_version", versionId) ∧ r.isVersionOf documentId = true ∧
    bodyHash r.payload = hash

instance (s : Replica) (documentId versionId : String) (hash : Option String) :
    Decidable (Serves s documentId versionId hash) :=
  inferInstanceAs (Decidable (∃ r ∈ s.records.rows, _))

/-- The rows that are READY and not retired. -/
def readyRows (s : Replica) : List SemanticIndexStateRow :=
  s.semantic.rows.filter fun r => decide (r.state = .READY ∧ r.retired_at = none)

/-- An ingest stores a READY version again: for the same document, and keeps the row READY only
where the version's own hash is that of the body it serves. -/
def KeepsFresh (record : OutboundV2Record) (key : String) (row : SemanticIndexStateRow) : Prop :=
  semanticIndexIngestTarget record = some ⟨row.document_id, key⟩ ∧
    (keepReady row (pendingRow ⟨row.document_id, key⟩ (ownHash record) "") = true →
      bodyHash record.payload = ownHash record)

instance (record : OutboundV2Record) (key : String) (row : SemanticIndexStateRow) :
    Decidable (KeepsFresh record key row) :=
  inferInstanceAs (Decidable (_ ∧ _))

/-- The row update finds the body that the push was checked against; a READY version is stored again
only as `KeepsFresh` says. -/
def Fresh (k : Call Op IndexWorld Fault) : Prop :=
  match k.op with
  | .markRow row contentSha256 .. =>
    k.choice = .before ∨ Serves k.before.replica row.document_id row.version_id contentSha256 ∨
      ∀ r ∈ k.before.replica.semantic.rows, isLiveRow row r = false
  | .ingestBatch record key _ =>
    k.choice = .before ∨ (record.record_type = "document_version" →
      ∀ r ∈ readyRows k.before.replica, r.version_id = key → KeepsFresh record key r)
  | _ => True

instance : DecidablePred Fresh
  | ⟨_, .markRow _ _ _ _ _, _, _⟩ => inferInstanceAs (Decidable (_ ∨ _ ∨ _))
  | ⟨_, .ingestBatch _ _ _, _, _⟩ => inferInstanceAs (Decidable (_ ∨ _))
  | ⟨_, .selectRow _ _, _, _⟩ | ⟨_, .selectVersions _, _, _⟩ | ⟨_, .reviveRow _ _ _, _, _⟩
  | ⟨_, .getByIds _, _, _⟩ | ⟨_, .upsertVectors _, _, _⟩ | ⟨_, .selectMessage _, _, _⟩ =>
    isTrue trivial

/-- An ingest stores its record under its own key. -/
def KeyedBatch (op : Op) : Prop :=
  ∀ record key now, op = .ingestBatch record key now → outboundV2RecordKey record = some key

/-! ## The invariant -/

/-- A READY row is not retired and is of the body its version serves; a row that is not retired is
READY or PENDING. -/
structure RowFresh (s : Replica) (r : SemanticIndexStateRow) : Prop where
  ready : r.state = .READY →
    r.retired_at = none ∧ Serves s r.document_id r.version_id r.content_sha256
  live : r.retired_at = none → r.state ≠ .FAILED

def AllFresh (s : Replica) : Prop :=
  ∀ r ∈ s.semantic, RowFresh s r

variable {P : Platform} {s : Replica} {record : OutboundV2Record} {key now : String}

theorem mem_readyRows {r : SemanticIndexStateRow} :
    r ∈ readyRows s ↔ r ∈ s.semantic ∧ r.state = .READY ∧ r.retired_at = none := by
  rw [readyRows, List.mem_filter, decide_eq_true_iff, Table.mem_rows]

/-- A row that waits is fresh. -/
theorem RowFresh.of_pending {r : SemanticIndexStateRow} (h : r.state = .PENDING) : RowFresh s r :=
  ⟨fun hready => by simp [h] at hready, fun _ => by simp [h]⟩

/-- The row of `research_records` that an ingest of a record inserts. -/
def recordRow (record : OutboundV2Record) (key now : String) : ReplicaRecordRow where
  record_type := record.record_type
  record_key := key
  message_id := record.message_id
  visibility := record.visibility
  schema_version := record.schema_version
  payload := record.payload
  generated_at := record.generated_at
  updated_at := now

/-- A stored record of another key is still stored after an ingest. -/
theorem serves_of_ne {documentId versionId : String} {hash : Option String}
    (h : Serves s documentId versionId hash)
    (hne : (record.record_type, key) ≠ ("document_version", versionId)) :
    Serves (ingestBatch P s record key now) documentId versionId hash := by
  obtain ⟨r, hr, hkey, hversion, hhash⟩ := h
  exact ⟨r, record_of_other hr fun heq => hne (heq.symm.trans hkey), hkey, hversion, hhash⟩

theorem isVersionOf_of_target {documentId : String} {row : ReplicaRecordRow}
    (htype : row.record_type = record.record_type) (hvisibility : row.visibility = record.visibility)
    (hpayload : row.payload = record.payload)
    (h : semanticIndexIngestTarget record = some ⟨documentId, key⟩) :
    row.isVersionOf documentId = true := by
  obtain ⟨⟨hrecord, hpublic⟩, hdocument, -⟩ := target_eq_some h
  rw [ReplicaRecordRow.isVersionOf, htype, hvisibility, hpayload, hdocument, hrecord, hpublic]
  simp [Json.str?]

/-- An ingested version serves its body. -/
theorem serves_ingested {documentId : String}
    (h : semanticIndexIngestTarget record = some ⟨documentId, key⟩) :
    Serves (ingestBatch P s record key now) documentId key (bodyHash record.payload) := by
  have htype : record.record_type = "document_version" := (target_eq_some h).1.1
  obtain ⟨r, hr, hkey, hpayload, hvisibility⟩ : ∃ r ∈ (ingestBatch P s record key now).records,
      r.key = (record.record_type, key) ∧ r.payload = record.payload ∧
        r.visibility = record.visibility := record_of_own (by rw [htype]; decide)
  refine ⟨r, hr, hkey.trans (by rw [htype]),
    isVersionOf_of_target (congrArg Prod.fst hkey) hvisibility hpayload h, ?_⟩
  rw [hpayload]

/-- The key of a document version is its version's id. -/
theorem key_eq_of_target {documentId versionId : String} (hkey : outboundV2RecordKey record = some key)
    (h : semanticIndexIngestTarget record = some ⟨documentId, versionId⟩) : versionId = key := by
  obtain ⟨⟨htype, -⟩, -, hversion, hne⟩ := target_eq_some h
  rw [outboundV2RecordKey, htype] at hkey
  simpa [hversion, stringField, hne] using hkey

/-- A row that the ingest of a record leaves as it is stays fresh. -/
theorem rowFresh_kept {r : SemanticIndexStateRow} (h : RowFresh s r)
    (hkept : r.state = .READY → (record.record_type, key) ≠ ("document_version", r.version_id)) :
    RowFresh (ingestBatch P s record key now) r :=
  ⟨fun hready => ⟨(h.ready hready).1, serves_of_ne (h.ready hready).2 (hkept hready)⟩, h.live⟩

/-- One ingest keeps the rows fresh. -/
theorem allFresh_ingestBatch (hkey : outboundV2RecordKey record = some key)
    (hfresh : record.record_type = "document_version" →
      ∀ r ∈ readyRows s, r.version_id = key → KeepsFresh record key r)
    (h : AllFresh s) : AllFresh (ingestBatch P s record key now) := by
  intro x hx
  change x ∈ semanticIndexIngestStatements s.semantic record now at hx
  have hother : ∀ r ∈ s.semantic, r.state = .READY →
      (∀ target, semanticIndexIngestTarget record = some target →
        r.key ≠ toLex (target.documentId, target.versionId)) →
      (record.record_type, key) ≠ ("document_version", r.version_id) := by
    intro r hr hready hne heq
    obtain ⟨htype, hversion⟩ := Prod.mk.inj heq
    have hmem : r ∈ readyRows s := mem_readyRows.2 ⟨hr, hready, ((h r hr).ready hready).1⟩
    obtain ⟨htarget, -⟩ := hfresh htype r hmem hversion.symm
    exact hne _ htarget (key_eq.2 ⟨rfl, hversion.symm⟩)
  unfold semanticIndexIngestStatements at hx
  cases htarget : semanticIndexIngestTarget record with
  | none =>
    rw [htarget] at hx
    refine rowFresh_kept (h x hx) fun hready => hother x hx hready fun target ht => ?_
    rw [htarget] at ht
    cases ht
  | some target =>
    obtain ⟨documentId, versionId⟩ := target
    obtain rfl := key_eq_of_target hkey htarget
    rw [htarget] at hx
    dsimp only at hx
    have hregistered : ∀ y ∈ s.semantic.upsert (pendingRow ⟨documentId, versionId⟩ (ownHash record) now)
        (refreshedRow (pendingRow ⟨documentId, versionId⟩ (ownHash record) now)) (fun _ => rfl),
        RowFresh (ingestBatch P s record versionId now) y := by
      intro y hy
      rcases Table.mem_upsert.1 hy with ⟨hy, hne⟩ | ⟨b, hb, hbkey, rfl⟩ | ⟨rfl, -⟩
      · refine rowFresh_kept (h y hy) fun hready => hother y hy hready fun target ht => ?_
        rw [htarget] at ht
        obtain rfl := Option.some.inj ht
        exact hne
      · -- the version's own row: READY only where its hash is the body's
        cases hkeep : keepReady b (pendingRow ⟨documentId, versionId⟩ (ownHash record) now) with
        | false =>
          refine RowFresh.of_pending ?_
          simp [refreshedRow, hkeep]
        | true =>
          obtain ⟨hbd, hbv⟩ := key_eq.1 hbkey
          have hready : b.state = .READY := by
            simp only [keepReady, decide_eq_true_eq] at hkeep
            exact hkeep.1
          have hmem : b ∈ readyRows s := mem_readyRows.2 ⟨hb, hready, ((h b hb).ready hready).1⟩
          have hbv' : b.version_id = versionId := hbv
          have hbd' : b.document_id = documentId := hbd
          obtain ⟨-, hbody⟩ := hfresh (target_eq_some htarget).1.1 b hmem hbv'
          have hhash : bodyHash record.payload = ownHash record := hbody hkeep
          have hserves : Serves (ingestBatch P s record versionId now) documentId versionId
              (bodyHash record.payload) := serves_ingested htarget
          refine ⟨fun _ => ⟨rfl, ?_⟩, fun _ => by simp [refreshedRow, hkeep]⟩
          change Serves _ b.document_id b.version_id (ownHash record)
          rw [hbd', hbv', ← hhash]
          exact hserves
      · exact RowFresh.of_pending rfl
    split at hx
    · obtain ⟨y, hy, rfl⟩ := Table.mem_modify.1 hx
      by_cases hs : supersedes ⟨documentId, versionId⟩ y = true
      · rw [if_pos hs]
        exact ⟨fun hready => by simp [supersededRow] at hready,
          fun hlive => by simp [supersededRow] at hlive⟩
      · rw [if_neg hs]
        exact hregistered y hy
    · exact hregistered x hx

theorem mem_reviveRow {w : IndexWorld} {documentId versionId : String} {x : SemanticIndexStateRow} :
    x ∈ (effect P (.reviveRow documentId versionId now) w).replica.semantic ↔
      ∃ y ∈ w.replica.semantic,
        (if isRow documentId versionId y then revivedRow now y else y) = x :=
  Table.mem_modify (h := revivedRow_keys)

theorem mem_markRow {w : IndexWorld} {row : SemanticIndexStateRow} {contentSha256 : Option String}
    {titleOnly : Bool} {chunks : ℕ} {x : SemanticIndexStateRow} :
    x ∈ (effect P (.markRow row contentSha256 titleOnly chunks now) w).replica.semantic ↔
      ∃ y ∈ w.replica.semantic,
        (if isLiveRow row y then readyRow row contentSha256 titleOnly chunks now y else y) = x :=
  Table.mem_modify (h := readyRow_keys)

/-- One call that is fresh keeps the rows fresh. -/
theorem allFresh_call {k : Call Op IndexWorld Fault} (hkeyed : KeyedBatch k.op) (hk : Fresh k)
    (h : AllFresh k.before.replica) : AllFresh ((machine P).after k).replica := by
  obtain ⟨t, op, f, w⟩ := k
  cases f with
  | before => exact h
  | _ =>
    change AllFresh (effect P op w).replica
    cases op with
    | reviveRow documentId versionId now =>
      intro x hx
      obtain ⟨y, hy, rfl⟩ := mem_reviveRow.1 hx
      by_cases hrow : isRow documentId versionId y = true
      · rw [if_pos hrow]
        exact .of_pending rfl
      · rw [if_neg hrow]
        exact ⟨(h y hy).ready, (h y hy).live⟩
    | markRow row contentSha256 titleOnly chunks now =>
      intro x hx
      obtain ⟨y, hy, rfl⟩ := mem_markRow.1 hx
      by_cases hrow : isLiveRow row y = true
      · rw [if_pos hrow]
        have hkey : (y.document_id = row.document_id ∧ y.version_id = row.version_id) ∧
            y.retired_at = none := by
          simpa [isLiveRow, isRow] using hrow
        refine ⟨fun _ => ⟨hkey.2, ?_⟩, fun _ => by simp [readyRow]⟩
        rcases hk with hbefore | hserves | hnone
        · cases hbefore
        · change Serves w.replica y.document_id y.version_id contentSha256
          rw [hkey.1.1, hkey.1.2]
          exact hserves
        · exact absurd hrow (by simp [hnone y hy])
      · rw [if_neg hrow]
        exact ⟨(h y hy).ready, (h y hy).live⟩
    | ingestBatch record key now =>
      rcases hk with hbefore | hfresh
      · cases hbefore
      · exact allFresh_ingestBatch (hkeyed record key now rfl) hfresh h
    | _ => exact h

/-! ## Runs -/

theorem issues_probeVectors (R : Runtime) (documentId versionId : String)
    (vectors : List (List Decimal)) (ordinal : ℕ) (scores : List Decimal) (missing : ℕ) :
    (probeVectors R documentId versionId ordinal vectors scores missing).Issues KeyedBatch := by
  induction vectors generalizing ordinal scores missing with
  | nil => trivial
  | cons values vectors ih =>
    refine Script.Issues.bind (Script.issues_perform.2 (by rintro _ _ _ ⟨⟩)) fun stored => ?_
    cases stored with
    | none => exact ih _ _ _
    | some stored =>
      dsimp only
      split_ifs
      · exact ih _ _ _
      · exact ih _ _ _

theorem issues_pushVectors (R : Runtime) (payload : PrecomputedVectorIngestPayload)
    (row : SemanticIndexStateRow) (servable : Bool) (candidate : VersionCandidate) (now : String) :
    (pushVectors R payload row servable candidate now).Issues KeyedBatch := by
  have hstore : ∀ contentSha256 titleOnly,
      (storeVectors R payload row contentSha256 titleOnly now).Issues KeyedBatch := by
    intro contentSha256 titleOnly
    unfold storeVectors
    split_ifs
    · exact issues_probeVectors R _ _ _ _ _ _
    · refine Script.Issues.bind (Script.issues_perform.2 (by rintro _ _ _ ⟨⟩)) fun _ => ?_
      refine Script.Issues.bind (Script.issues_perform.2 (by rintro _ _ _ ⟨⟩)) fun outcome => ?_
      split_ifs <;> trivial
  unfold pushVectors
  split
  · split_ifs
    · trivial
    · exact hstore _ _
  · split_ifs
    · trivial
    · exact hstore _ _

theorem issues_program (R : Runtime) (task : Task) : (task.program R).Issues KeyedBatch := by
  cases task with
  | ingest record now =>
    refine Script.Issues.bind ?_ fun _ => trivial
    unfold storeRecord
    split
    · trivial
    · rename_i key hkey
      refine Script.Issues.bind (Script.issues_perform.2 (by rintro _ _ _ ⟨⟩)) fun replay => ?_
      split_ifs
      · trivial
      · refine Script.Issues.bind (Script.issues_perform.2 ?_) fun _ => trivial
        rintro _ _ _ ⟨⟩
        exact hkey
  | push payload now =>
    refine Script.Issues.bind ?_ fun _ => trivial
    unfold ingestPrecomputedVectors
    split
    · trivial
    · refine Script.Issues.bind (Script.issues_perform.2 (by rintro _ _ _ ⟨⟩)) fun found => ?_
      split
      · trivial
      · split_ifs
        · trivial
        · refine Script.Issues.bind (Script.issues_perform.2 (by rintro _ _ _ ⟨⟩)) fun current => ?_
          split
          · trivial
          · split_ifs
            · trivial
            · refine Script.Issues.bind (Script.issues_perform.2 (by rintro _ _ _ ⟨⟩)) fun revived => ?_
              split_ifs
              · trivial
              · exact issues_pushVectors R _ _ _ _ _
            · exact issues_pushVectors R _ _ _ _ _

theorem issued_start (R : Runtime) (tasks : List Task) :
    Machine.Issued (fun _ => KeyedBatch) (start R tasks) := by
  intro t
  change ((tasks[t]?).elim (pure ()) (Task.program R)).Issues KeyedBatch
  cases tasks[t]? with
  | none => trivial
  | some task => exact issues_program R task

theorem retention_after (k : Call Op IndexWorld Fault) :
    ((machine P).after k).replica.retention = k.before.replica.retention := by
  obtain ⟨t, op, f, w⟩ := k
  cases f <;> cases op <;> rfl

/-- The work queue offers a row that waits, where nothing has expired. -/
theorem offered_of_pending {r : SemanticIndexStateRow} (hr : r ∈ s.semantic)
    (hpending : r.state = .PENDING) (hlive : r.retired_at = none)
    (hretention : s.retention = .empty) (limit : Option Decimal) :
    r.pendingVersion ∈ followPages s limit .PENDING (s.semantic.rows.length + 1) none := by
  have hexpired : expiredByRetention s r.document_id = false := by
    rw [expiredByRetention, hretention]
    rfl
  have hqueued : r ∈ queuedRows s .PENDING := by
    simp [queuedRows, ← Table.mem_rows, hpending, hlive, hexpired] at hr ⊢
    exact hr
  rw [followPages_all]
  exact List.mem_map_of_mem (Keyset.mem_ordered.2 hqueued)

/-- **READY rows are fresh.** In a run of ingests and pushes whose calls are all fresh, every row
that is not retired is READY for the body that its version serves, or it is PENDING, and the pages of the
work queue offer it. -/
theorem ready_fresh (R : Runtime) (tasks : List Task) (es : List (ℕ × Fault))
    (h : ∀ k ∈ ((machine R.toPlatform).exec (start R tasks) es).log, Fresh k) :
    let s := ((machine R.toPlatform).exec (start R tasks) es).world.replica
    ∀ r ∈ s.semantic, r.retired_at = none →
      r.state = .READY ∧ Serves s r.document_id r.version_id r.content_sha256 ∨
        r.state = .PENDING ∧ ∀ limit,
          r.pendingVersion ∈ followPages s limit .PENDING (s.semantic.rows.length + 1) none := by
  intro s r hr hlive
  have hrun := Machine.exec_induction (M := machine R.toPlatform) (P := fun c =>
    Machine.Issued (fun _ => KeyedBatch) c ∧ c.world.replica.retention = .empty ∧
      ((∀ k ∈ c.log, Fresh k) → AllFresh c.world.replica))
    (fun c e hc => ?_) es
    ⟨issued_start R tasks, rfl, fun _ r hr => absurd hr (Table.not_mem_empty r)⟩
  · have hfresh : RowFresh s r := hrun.2.2 h r hr
    cases hstate : r.state with
    | READY => exact .inl ⟨rfl, (hfresh.ready hstate).2⟩
    | PENDING =>
      exact .inr ⟨rfl, offered_of_pending hr hstate hlive hrun.2.1⟩
    | FAILED => exact absurd hstate (hfresh.live hlive)
  · obtain ⟨hissued, hretention, hc⟩ := hc
    refine ⟨Machine.issued_step hissued e, ?_⟩
    rcases Machine.step_cases (M := machine R.toPlatform) c e with hs | ⟨op, next, hcall, hs⟩
    · rw [hs]
      exact ⟨hretention, hc⟩
    · rw [hs]
      refine ⟨(retention_after ⟨e.1, op, e.2, c.world⟩).trans hretention, fun hlog => ?_⟩
      rw [List.forall_mem_cons] at hlog
      exact allFresh_call (k := ⟨e.1, op, e.2, c.world⟩) (Machine.issued_next hissued hcall) hlog.1
        (hc hlog.2)

/-! ## An ingest during a push -/

def pushRuntime : Runtime where
  toPlatform := indexPlatform
  nfc := id
  cosine _ _ := none

/-- One vector for the body of the first payload. -/
def pushPayload : Json :=
  .obj [
    ("document_id", .str "doc-1"), ("version_id", .str "v1"),
    ("content_sha256", .str "7692c3ad3540bb803c020b3aee66cd8887123234ea0c6e7143c0add73ff431ed"),
    ("vectors", .arr [.obj [("ordinal", .num (.ofInt 0)),
      ("values", .arr (List.replicate SEMANTIC_VECTOR_DIMENSIONS (.num (.ofInt 1))))]])]

/-- Version 1, its push, and version 1 with another body. -/
def pushTasks : List Task :=
  [.ingest (exampleRecord "m1" firstPayload) "2026-10-02T00:00:00.000Z",
    .push pushPayload "2026-10-03T00:00:00.000Z",
    .ingest (exampleRecord "m2" (examplePayload "v1" 1
      "3fc4ccfe745870e2c0d99f71f30ff0656c8dedd41cc1d7d3d376b0dbe685e2f3"))
      "2026-10-03T00:00:00.000Z"]

/-- The other body arrives after the push: its row waits again. -/
theorem ready_fresh_reingested :
    let s := ((machine pushRuntime.toPlatform).exec (start pushRuntime pushTasks)
      (List.replicate 2 (0, .none) ++ List.replicate 4 (1, .none) ++
        List.replicate 2 (2, .none))).world.replica
    ∀ r ∈ s.semantic, r.retired_at = none →
      r.state = .READY ∧ Serves s r.document_id r.version_id r.content_sha256 ∨
        r.state = .PENDING ∧ ∀ limit,
          r.pendingVersion ∈ followPages s limit .PENDING (s.semantic.rows.length + 1) none :=
  ready_fresh pushRuntime pushTasks _ (by decide +kernel)

/-- The other body arrives between the vectors and the row update of the push: the row is READY for
a body that its version no longer serves. -/
theorem stale_ready :
    ¬ ∀ (R : Runtime) (tasks : List Task) (es : List (ℕ × Fault)),
      let s := ((machine R.toPlatform).exec (start R tasks) es).world.replica
      ∀ r ∈ s.semantic, r.retired_at = none → r.state = .READY →
        Serves s r.document_id r.version_id r.content_sha256 := by
  intro h
  have hstale := h pushRuntime pushTasks (List.replicate 2 (0, .none) ++
    List.replicate 3 (1, .none) ++ List.replicate 2 (2, .none) ++ [(1, .none)])
  exact absurd hstale (by decide +kernel)

end QuantproCollector.SemanticIndex.Push
