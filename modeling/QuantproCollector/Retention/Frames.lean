import QuantproCollector.Retention.Sweep

/-!
# What the statements of ingests and sweeps leave alone

The tables that the transaction of an ingest and the deletes of a purge do not write, and the links
and records that they do.
-/

namespace QuantproCollector.Retention

open Relational Async SemanticIndex

/-! ## The links of an ingest -/

section Links

variable (record : OutboundV2Record) (key : String)

/-- The links of a record, added one by one. -/
def World.insertLinks (w : World) (links : List (String × String)) : World :=
  links.foldl (fun w link => w.insertLink (linkRow record key link)) w

variable {record key}

theorem insertLinks_keeps {α : Type} (f : World → α)
    (hf : ∀ w row, f (World.insertLink w row) = f w) (links : List (String × String)) (w : World) :
    f (w.insertLinks record key links) = f w := by
  induction links generalizing w with
  | nil => rfl
  | cons link rest ih => exact (ih _).trans (hf _ _)

theorem mem_insertLink {w : World} {row l : RecordObjectRow} (h : l ∈ (w.insertLink row).links) :
    (∃ a ∈ w.links, a.key = l.key) ∨ l.key = row.key := by
  have hu : l ∈ w.links.upsert row (fun r => { r with visibility := row.visibility })
      (fun _ => rfl) := h
  rcases Table.mem_upsert.1 hu with ⟨hl, -⟩ | ⟨a, ha, hk, rfl⟩ | ⟨rfl, -⟩
  · exact .inl ⟨l, hl, rfl⟩
  · exact .inl ⟨a, ha, rfl⟩
  · exact .inr rfl

/-- A link after an ingest was there before, or is one of the record's own. -/
theorem mem_insertLinks {links : List (String × String)} {w : World} {l : RecordObjectRow}
    (h : l ∈ (w.insertLinks record key links).links) :
    (∃ a ∈ w.links, a.key = l.key) ∨ ∃ link ∈ links, l.key = (linkRow record key link).key := by
  induction links generalizing w with
  | nil => exact .inl ⟨l, h, rfl⟩
  | cons link rest ih =>
    rcases ih h with ⟨a, ha, hal⟩ | ⟨other, hother, hl⟩
    · rcases mem_insertLink ha with ⟨b, hb, hba⟩ | hak
      · exact .inl ⟨b, hb, hba.trans hal⟩
      · exact .inr ⟨link, List.mem_cons_self, hal.symm.trans hak⟩
    · exact .inr ⟨other, List.mem_cons_of_mem _ hother, hl⟩

end Links

/-! ## The transaction of an ingest -/

section Batch

variable (P : Runtime) (w : World) (record : OutboundV2Record) (key now : String)

theorem ingestBatch_keeps {α : Type} (f : World → α)
    (hlink : ∀ w row, f (World.insertLink w row) = f w)
    (hobject : ∀ w row, f (World.insertObject w row) = f w) :
    f (w.ingestBatch P record key now) =
      f { w with
          messages := (SemanticIndex.ingestBatch P.toPlatform w.replica record key now).messages
          records := (SemanticIndex.ingestBatch P.toPlatform w.replica record key now).records
          semantic := (SemanticIndex.ingestBatch P.toPlatform w.replica record key now).semantic } := by
  refine (insertLinks_keeps f hlink _ _).trans ?_
  cases objectContentHash record with
  | none => rfl
  | some hash => exact hobject _ _

@[simp] theorem ingestBatch_retention :
    (w.ingestBatch P record key now).retention = w.retention :=
  ingestBatch_keeps P w record key now (·.retention) (fun _ _ => rfl) fun _ _ => rfl

@[simp] theorem ingestBatch_records : (w.ingestBatch P record key now).records =
    (SemanticIndex.ingestBatch P.toPlatform w.replica record key now).records :=
  ingestBatch_keeps P w record key now (·.records) (fun _ _ => rfl) fun _ _ => rfl

@[simp] theorem ingestBatch_semantic : (w.ingestBatch P record key now).semantic =
    semanticIndexIngestStatements w.semantic record now :=
  ingestBatch_keeps P w record key now (·.semantic) (fun _ _ => rfl) fun _ _ => rfl

theorem mem_ingestBatch_links {l : RecordObjectRow} (h : l ∈ (w.ingestBatch P record key now).links) :
    (∃ a ∈ w.links, a.key = l.key) ∨
      ∃ link ∈ documentObjectLinks record, l.key = (linkRow record key link).key := by
  refine (mem_insertLinks h).imp_left ?_
  rintro ⟨a, ha, hal⟩
  refine ⟨a, ?_, hal⟩
  cases hh : objectContentHash record with
  | none => simpa [hh] using ha
  | some hash => simpa [hh, World.insertObject] using ha

/-- A record after an ingest is one of the others, or the ingested one, or it was kept in its
place. -/
theorem mem_ingestBatch_records {r : ReplicaRecordRow}
    (h : r ∈ (w.ingestBatch P record key now).records) :
    (r ∈ w.records ∧ (r.key ≠ (record.record_type, key) ∨ r.record_type = "evidence")) ∨
      (r.key = (record.record_type, key) ∧ r.visibility = record.visibility ∧
        r.payload = record.payload) := by
  rw [ingestBatch_records] at h
  rcases (Table.mem_upsert (h := mergeRecord_key _)).1 h with ⟨hr, hk⟩ | ⟨a, ha, hk, rfl⟩ | ⟨rfl, -⟩
  · exact .inl ⟨hr, .inl hk⟩
  · unfold mergeRecord
    split_ifs with hev
    · exact .inl ⟨ha, .inr hev.1⟩
    · exact .inr ⟨hk, rfl, rfl⟩
  · exact .inr ⟨rfl, rfl, rfl⟩

end Batch

/-! ## Operations on the retention table -/

/-- The retention table changes at a mark and at a flip only. -/
theorem effect_retention (P : Runtime) (op : Op) (w : World) :
    (effect P op w).retention = w.retention ∨
      (∃ row, op = .insertRetention row ∧ effect P op w = w.insertRetention row) ∨
      ∃ documentId now detail, op = .markPurged documentId now detail ∧
        effect P op w = w.markPurged documentId now detail := by
  cases op with
  | insertRetention row => exact .inr (.inl ⟨row, rfl, rfl⟩)
  | markPurged documentId now detail => exact .inr (.inr ⟨documentId, now, detail, rfl, rfl⟩)
  | ingestBatch record key now => exact .inl (ingestBatch_retention P w record key now)
  | _ => exact .inl rfl

end QuantproCollector.Retention
