import QuantproCollector.Retention.Progress

/-!
# Stored versions and their semantic rows

An ingest stores a version and registers its semantic row in one transaction, and nothing but the
purge of its document deletes the row. The purge deletes the versions that the mark captured, but
the semantic rows of the whole document: a version that an ingest stored between the mark and that
delete loses its row. `indexed_run` says that this is the only way.
-/

namespace QuantproCollector.Retention

open Relational Async SemanticIndex

/-- A PUBLIC document version with a readable body. -/
def Servable (r : ReplicaRecordRow) : Prop :=
  publicVersion r = true ∧ isVersionServable r.payload = true

instance (r : ReplicaRecordRow) : Decidable (Servable r) :=
  inferInstanceAs (Decidable (_ ∧ _))

/-- The document id of a payload, where it is a text. -/
def documentText (payload : Json) : Option String :=
  ((payload.get? "document").bind (·.get? "document_id")).bind Json.str?

/-- A payload names a document. -/
def NamesDocument (payload : Json) (D : String) : Prop :=
  documentText payload = some D

instance (payload : Json) (D : String) : Decidable (NamesDocument payload D) :=
  inferInstanceAs (Decidable (_ = _))

/-- A mark has captured the version. -/
def Captured (w : World) (versionId : String) : Prop :=
  ∃ row ∈ w.retention, versionId ∈ row.version_ids

instance (w : World) (versionId : String) : Decidable (Captured w versionId) :=
  inferInstanceAs (Decidable (∃ row ∈ w.retention.rows, versionId ∈ row.version_ids))

/-- The version has its row in the semantic state. -/
def Registered (w : World) (r : ReplicaRecordRow) : Prop :=
  ∃ s ∈ w.semantic, s.version_id = r.record_key ∧ NamesDocument r.payload s.document_id

instance (w : World) (r : ReplicaRecordRow) : Decidable (Registered w r) :=
  inferInstanceAs (Decidable (∃ s ∈ w.semantic.rows,
    s.version_id = r.record_key ∧ NamesDocument r.payload s.document_id))

/-- Every stored servable version that no mark has captured has its semantic row. -/
def Indexable (w : World) : Prop :=
  ∀ r ∈ w.records, Servable r → ¬ Captured w r.record_key → Registered w r

instance (w : World) : Decidable (Indexable w) :=
  inferInstanceAs (Decidable (∀ r ∈ w.records.rows, _ → ¬ _ → _))

/-- A call is not one of the two that can leave a version without its row: a purge that deletes
the semantic rows of a document while a servable version of it is stored that no mark has captured,
and an ingest of a servable PUBLIC version whose document id is not a non-empty text. -/
def Harmless (k : Call Op World Fault) : Prop :=
  match k.op with
  | .deleteSemantic D => ∀ r ∈ k.before.records, Servable r → NamesDocument r.payload D →
      Captured k.before r.record_key
  | .ingestBatch record _ _ => record.record_type = "document_version" →
      record.visibility = .PUBLIC → isVersionServable record.payload = true →
      ∃ D ∈ documentText record.payload, D ≠ ""
  | _ => True

instance (k : Call Op World Fault) : Decidable (Harmless k) := by
  unfold Harmless
  split
  · exact inferInstanceAs (Decidable (∀ r ∈ k.before.records.rows, _ → _ → _))
  · exact inferInstanceAs (Decidable (_ → _ → _ → _))
  · exact inferInstanceAs (Decidable True)

theorem namesDocument_iff {payload : Json} {D : String} : NamesDocument payload D ↔
    (payload.get? "document").bind (·.get? "document_id") = some (.str D) := by
  unfold NamesDocument documentText
  cases (payload.get? "document").bind (·.get? "document_id") with
  | none => simp
  | some v => cases v <;> simp [Json.str?]

/-! ## The semantic rows of an ingest -/

section Statements

variable {rows : Table SemanticIndexStateRow (String ×ₗ String) [fun r => some r.key]}
  {record : OutboundV2Record} {now : String}

/-- An ingest adds the key of the version that it registers. -/
theorem exists_key_ingestStatements {k : String ×ₗ String} :
    (∃ s ∈ semanticIndexIngestStatements rows record now, s.key = k) ↔
      (∃ s ∈ rows, s.key = k) ∨
        ∃ target, semanticIndexIngestTarget record = some target ∧
          toLex (target.documentId, target.versionId) = k := by
  unfold semanticIndexIngestStatements
  cases htarget : semanticIndexIngestTarget record with
  | none => simp
  | some target =>
    have hkey : ∀ t : SemanticIndexTarget, (some target = some t ∧
        toLex (t.documentId, t.versionId) = k) ↔
          target = t ∧ toLex (t.documentId, t.versionId) = k := by simp
    simp only [hkey, exists_eq_left']
    obtain ⟨row, hrow⟩ : ∃ row, row = pendingRow target
      (hexSha256? ((record.payload.get? "version").bind (·.get? "content_sha256"))) now := ⟨_, rfl⟩
    have hup : (∃ s ∈ rows.upsert row (refreshedRow row) (fun _ => rfl), s.key = k) ↔
        (∃ s ∈ rows, s.key = k) ∨ row.key = k := Table.exists_key_upsert
    subst hrow
    split_ifs
    · refine Iff.trans ?_ hup
      have hmod := fun t p h => Table.exists_key_modify (t := t) (p := p) (f := supersededRow now)
        (h := h) (List.mem_singleton_self fun r : SemanticIndexStateRow => some r.key) (k := some k)
      simp only [Option.some.injEq] at hmod
      exact hmod _ _ _
    · exact hup

/-- A servable version that names its document is registered under its record key. -/
theorem target_of_servable {key D : String} (htype : record.record_type = "document_version")
    (hvis : record.visibility = .PUBLIC) (hkey : outboundV2RecordKey record = some key)
    (hD : D ≠ "") (hnames : NamesDocument record.payload D) :
    semanticIndexIngestTarget record = some ⟨D, key⟩ := by
  rw [namesDocument_iff] at hnames
  simp only [outboundV2RecordKey, htype] at hkey
  unfold stringField at hkey
  split at hkey
  · rename_i versionId hversion
    split_ifs at hkey with hempty
    cases hkey
    simp [semanticIndexIngestTarget, htype, hvis, hnames, hversion, hD, hempty]
  · cases hkey

end Statements

/-! ## The invariant -/

section Steps

variable {P : Runtime} {w : World}

/-- What a step of the invariant needs: the records come from before, the captures stay, and so do
the semantic rows of the records that are not captured. -/
theorem Indexable.mono {w' : World} (h : Indexable w) (hrecords : ∀ r ∈ w'.records, r ∈ w.records)
    (hcaptured : ∀ v, Captured w v → Captured w' v)
    (hrow : ∀ r ∈ w'.records, Servable r → ¬ Captured w' r.record_key → Registered w r →
      Registered w' r) : Indexable w' :=
  fun r hr hs hc => hrow r hr hs hc (h r (hrecords r hr) hs fun hcap => hc (hcaptured _ hcap))

theorem captured_insertRetention {row : RetentionRow} {v : String} (h : Captured w v) :
    Captured (w.insertRetention row) v := by
  obtain ⟨a, ha, hv⟩ := h
  by_cases hrow : Recorded w row.document_id
  · rw [insertRetention_of_recorded hrow]
    exact ⟨a, ha, hv⟩
  · refine ⟨a, ?_, hv⟩
    rw [← Table.mem_rows, rows_insertRetention hrow]
    exact List.mem_append_left _ ha

theorem captured_markPurged {D now : String} {detail : RetentionPurgeDetail} {v : String}
    (h : Captured w v) : Captured (w.markPurged D now detail) v := by
  obtain ⟨a, ha, hv⟩ := h
  refine ⟨_, List.mem_map.2 ⟨a, ha, rfl⟩, ?_⟩
  dsimp only
  split_ifs
  · exact hv
  · exact hv

theorem registered_retireSemantic {D now : String} {r : ReplicaRecordRow} (h : Registered w r) :
    Registered (w.retireSemantic D now) r := by
  obtain ⟨s, hs, hv, hD⟩ := h
  refine ⟨_, List.mem_map.2 ⟨s, hs, rfl⟩, ?_⟩
  dsimp only
  split_ifs
  · exact ⟨hv, hD⟩
  · exact ⟨hv, hD⟩

theorem indexable_ingestBatch {record : OutboundV2Record} {key now : String}
    (hkey : outboundV2RecordKey record = some key)
    (hnames : record.record_type = "document_version" → record.visibility = .PUBLIC →
      isVersionServable record.payload = true → ∃ D ∈ documentText record.payload, D ≠ "")
    (h : Indexable w) : Indexable (w.ingestBatch P record key now) := by
  intro r hr hs hc
  have hsemantic : ∀ s ∈ semanticIndexIngestStatements w.semantic record now,
      s ∈ (w.ingestBatch P record key now).semantic := by
    intro s hs
    rwa [ingestBatch_semantic]
  have hcap : ¬ Captured w r.record_key := by simpa [Captured] using hc
  obtain ⟨hpublic, hbody⟩ := hs
  simp only [publicVersion, decide_eq_true_eq] at hpublic
  rcases mem_ingestBatch_records P w record key now hr with ⟨hr, -⟩ | ⟨hrkey, hvis, hpayload⟩
  · -- an older record keeps its row
    obtain ⟨s, hs, hv, hD⟩ := h r hr ⟨by simpa [publicVersion] using hpublic, hbody⟩ hcap
    obtain ⟨s', hs', hk⟩ := exists_key_ingestStatements.2 (.inl ⟨s, hs, rfl⟩)
    obtain ⟨hd', hv'⟩ := key_eq.1 hk
    exact ⟨s', hsemantic s' hs', hv'.trans hv, hd' ▸ hD⟩
  · -- the ingested one is registered in the same transaction
    have htype : record.record_type = "document_version" :=
      (congrArg Prod.fst hrkey).symm.trans hpublic.1
    obtain ⟨D, hnamed, hD⟩ := hnames htype (hvis ▸ hpublic.2) (hpayload ▸ hbody)
    have htarget := target_of_servable htype (hvis ▸ hpublic.2) hkey hD hnamed
    obtain ⟨s, hs, hk⟩ := exists_key_ingestStatements.2 (.inr ⟨_, htarget, rfl⟩)
    obtain ⟨hd, hv⟩ := key_eq.1 hk
    refine ⟨s, hsemantic s hs, hv.trans (congrArg Prod.snd hrkey).symm, ?_⟩
    rw [hd, hpayload]
    exact hnamed

theorem indexable_deleteSemantic {D : String}
    (hcap : ∀ r ∈ w.records, Servable r → NamesDocument r.payload D → Captured w r.record_key)
    (h : Indexable w) : Indexable (effect P (.deleteSemantic D) w) := by
  refine h.mono (fun r hr => hr) (fun v hv => hv) fun r hr hs hc hrow => ?_
  obtain ⟨s, hs', hv, hD⟩ := hrow
  refine ⟨s, Table.mem_deleteWhere.2 ⟨hs', ?_⟩, hv, hD⟩
  rw [decide_eq_false_iff_not]
  rintro rfl
  exact hc (hcap r hr hs hD)

end Steps

/-- The batches that the programs issue store a record under its own key. -/
def KeyedBatch (op : Op) : Prop :=
  ∀ record key now, op = .ingestBatch record key now → outboundV2RecordKey record = some key

/-- One operation keeps the invariant. -/
theorem indexable_effect {P : Runtime} {w : World} {op : Op} (t : ℕ) (f : Fault)
    (hop : KeyedBatch op) (hk : Harmless ⟨t, op, f, w⟩) (h : Indexable w) :
    Indexable (effect P op w) := by
  cases op with
  | insertRetention row =>
    exact h.mono (fun r hr => hr) (fun v hv => captured_insertRetention hv) fun r _ _ _ hrow => hrow
  | markPurged D now detail =>
    exact h.mono (fun r hr => hr) (fun v hv => captured_markPurged hv) fun r _ _ _ hrow => hrow
  | retireSemantic D now =>
    exact h.mono (fun r hr => hr) (fun v hv => hv) fun r _ _ _ hrow =>
      registered_retireSemantic hrow
  | deleteVersions versionIds =>
    exact h.mono (fun r hr => (Table.mem_deleteWhere.1 hr).1) (fun v hv => hv)
      fun r _ _ _ hrow => hrow
  | deleteObjectRecords hashes =>
    exact h.mono (fun r hr => (Table.mem_deleteWhere.1 hr).1) (fun v hv => hv)
      fun r _ _ _ hrow => hrow
  | deleteSemantic D => exact indexable_deleteSemantic hk h
  | ingestBatch record key now => exact indexable_ingestBatch (hop record key now rfl) hk h
  | _ => exact h

/-! ## Runs -/

theorem keyedBatch_of_plain {op : Op} (h : plain op = true) : KeyedBatch op := by
  rintro record key now rfl
  cases h

/-- A sweep reads, deletes and marks. -/
theorem issues_sweep_of {S : Op → Prop} (hplain : ∀ {op}, plain op = true → S op)
    (hmark : ∀ row, S (.insertRetention row)) (P : Runtime) (options : SweepOptions) (now : String) :
    (runRetentionSweep P options now).Issues S := by
  unfold runRetentionSweep
  split
  · trivial
  · refine Script.Issues.tryCatch ?_ fun e => by cases e <;> trivial
    refine (issues_scanRetentionCandidates (fun _ _ => hplain rfl) P now _).bind
      fun scan => ?_
    dsimp only
    split
    · exact (issues_perform (hplain rfl)).bind fun pending =>
        (issues_perform (hplain rfl)).bind fun _ => trivial
    · refine (issues_markCandidates (fun _ h => hplain h)
        fun c _ capture => hmark _).bind fun marked => ?_
      refine (issues_perform (hplain rfl)).bind fun purgeable => ?_
      split_ifs
      · exact (issues_purgeDocuments (fun _ h => hplain h) now purgeable).bind fun _ =>
          (issues_perform (hplain rfl)).bind fun _ => trivial
      · exact (issues_perform (hplain rfl)).bind fun _ => trivial

theorem issues_sweep (P : Runtime) (options : SweepOptions) (now : String) :
    (runRetentionSweep P options now).Issues KeyedBatch := by
  refine issues_sweep_of keyedBatch_of_plain ?_ P options now
  rintro row record key now ⟨⟩

/-- An ingest stores its record under its own key. -/
theorem issues_ingest {S : Op → Prop} (record : OutboundV2Record) (bodyBytes : ℕ) (now : String)
    (h : ∀ op, plain op = false → (∀ row, op ≠ .insertRetention row) →
      (∀ record key now, op ≠ .ingestBatch record key now) → S op)
    (hbatch : ∀ key, outboundV2RecordKey record = some key → S (.ingestBatch record key now)) :
    (ingestResearchReplicaRecord record bodyBytes now).Issues S := by
  have hother : ∀ op, plain op = false → (∀ row, op ≠ .insertRetention row) →
      (∀ record key now, op ≠ .ingestBatch record key now) →
      (Script.perform op : Program _).Issues S :=
    fun op hop h1 h2 => issues_perform (h op hop h1 h2)
  unfold ingestResearchReplicaRecord
  split
  · trivial
  · rename_i key hkey
    refine Script.Issues.tryCatch ?_ fun e => ?_
    · refine (hother _ rfl (by simp) (by simp)).bind fun replay => ?_
      split
      · trivial
      · have hquota : (reserveR2Quota (journalBytes record + bodyBytes)
            (if (objectContentHash record).isSome then 2 else 1) now).Issues S := by
          refine Script.Issues.bind ?_ fun period => ?_
          · unfold usagePeriod
            split <;> trivial
          · refine (hother _ rfl (by simp) (by simp)).bind fun _ => ?_
            refine (hother _ rfl (by simp) (by simp)).bind fun _ => ?_
            refine (hother _ rfl (by simp) (by simp)).bind fun booked => ?_
            split <;> trivial
        have hrest : (do
            let inserted ← Script.perform (Op.ingestBatch record key now)
            Script.perform (Op.healthSuccess record.message_id now inserted)
            pure ⟨if inserted then .APPLIED else .REPLAY, record.message_id, record.record_type,
              objectContentHash record, semanticIndexIngestTarget record⟩ :
            Program IngestResult).Issues S :=
          (issues_perform (hbatch key hkey)).bind fun inserted =>
            (hother _ rfl (by simp) (by simp)).bind fun _ => trivial
        refine hquota.bind fun _ => (hother _ rfl (by simp) (by simp)).bind fun _ => ?_
        split
        · exact hrest
        · exact (hother _ rfl (by simp) (by simp)).bind fun _ => hrest
    · cases e with
      | boundary code => trivial
      | raw =>
        exact Script.Issues.bind (Script.Issues.tryCatch (hother _ rfl (by simp) (by simp))
          fun _ => trivial) fun _ => trivial

theorem issues_task (P : Runtime) (task : Task) : (task.program P).Issues KeyedBatch := by
  cases task with
  | ingest record bodyBytes now =>
    refine (issues_ingest record bodyBytes now (fun op _ _ hop => ?_) fun key hkey => ?_).bind
      fun _ => trivial
    · exact fun record key now heq => absurd heq (hop record key now)
    · rintro record key now ⟨⟩
      exact hkey
  | sweep options now => exact (issues_sweep P options now).bind fun _ => trivial

theorem issued_start (P : Runtime) (tasks : List Task) :
    Machine.Issued (fun _ => KeyedBatch) (start P tasks) := by
  intro t
  change ((tasks[t]?).elim (pure ()) (Task.program P)).Issues KeyedBatch
  cases tasks[t]? with
  | none => trivial
  | some task => exact issues_task P task

/-- A body hash. -/
def exampleHash : String := "aaaaaaaaaaaaaaaaaaaaaaaaaaaaaaaaaaaaaaaaaaaaaaaaaaaaaaaaaaaaaaaa"

def indexingTasks : List Task :=
  [.ingest (exampleRecord "a" "v1" "m1" exampleHash) 0 "2026-01-01T",
    .sweep exampleOptions "2026-01-02T",
    .ingest (exampleRecord "a" "v2" "m2" exampleHash) 0 "2026-01-03T"]

end QuantproCollector.Retention
