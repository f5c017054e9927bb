import QuantproCollector.Retention.Frames

/-!
# Marks of a document

A mark is the insertion of the document's retention row, and the insertion does nothing where the
document has a row already. A purge leaves its row in place, so a purged document keeps the row of
its first lifecycle: no later sweep marks it again, however often it is ingested again
(`purged_never_expires`).
-/

namespace QuantproCollector.Retention

open Relational Async SemanticIndex

/-! ## What the insertion of a row does -/

theorem expired_eq_true {w : World} {D : String} :
    expired w D = true ↔ ∃ r ∈ w.retention, r.document_id = D ∧ r.status = .EXPIRED := by
  simp [expired, ← Table.mem_rows]

/-- The document has a row, whatever its status. -/
def Recorded (w : World) (D : String) : Prop :=
  ∃ r ∈ w.retention, r.document_id = D

/-- The insertion of a second row of a document does nothing. -/
theorem insertRetention_of_recorded {w : World} {row : RetentionRow}
    (h : Recorded w row.document_id) : w.insertRetention row = w := by
  obtain ⟨r, hr, hD⟩ := h
  unfold World.insertRetention
  rw [Table.upsert_id_of_mem hr hD]

theorem rows_insertRetention {w : World} {row : RetentionRow} (h : ¬ Recorded w row.document_id) :
    (w.insertRetention row).retention.rows = w.retention.rows ++ [row] :=
  Table.rows_upsert_of_not_mem (h := fun _ => rfl) fun a ha hk => h ⟨a, ha, hk⟩

/-- Two rows of one document are one row. -/
theorem retention_unique {w : World} {a b : RetentionRow} (ha : a ∈ w.retention)
    (hb : b ∈ w.retention) (h : a.document_id = b.document_id) : a = b :=
  Table.unique_of_mem (List.mem_singleton_self _) ha hb (by simp) (by rw [h])

/-! ## Purged documents -/

/-- The purge of the document has completed. -/
def Purged (w : World) (D : String) : Prop :=
  ∃ r ∈ w.retention, r.document_id = D ∧ r.status = .PURGED

instance (w : World) (D : String) : Decidable (Purged w D) :=
  inferInstanceAs (Decidable (∃ r ∈ w.retention.rows, r.document_id = D ∧ r.status = .PURGED))

theorem not_expired_of_purged {w : World} {D : String} (h : Purged w D) : expired w D = false := by
  obtain ⟨r, hr, hD, hst⟩ := h
  rw [Bool.eq_false_iff]
  intro he
  obtain ⟨a, ha, haD, hast⟩ := expired_eq_true.1 he
  obtain rfl := retention_unique ha hr (haD.trans hD.symm)
  rw [hast] at hst
  cases hst

theorem purged_effect (P : Runtime) (op : Op) {w : World} {D : String} (h : Purged w D) :
    Purged (effect P op w) D := by
  obtain ⟨r, hr, hD, hst⟩ := h
  rcases effect_retention P op w with heq | ⟨row, -, heq⟩ | ⟨documentId, now, detail, -, heq⟩
  · exact ⟨r, heq ▸ hr, hD, hst⟩
  · rw [heq]
    by_cases hrow : Recorded w row.document_id
    · rw [insertRetention_of_recorded hrow]
      exact ⟨r, hr, hD, hst⟩
    · refine ⟨r, ?_, hD, hst⟩
      rw [← Table.mem_rows, rows_insertRetention hrow]
      exact List.mem_append_left _ hr
  · rw [heq]
    refine ⟨r, List.mem_map.2 ⟨r, hr, ?_⟩, hD, hst⟩
    simp [pendingPurge, hst]

theorem purged_keeps (P : Runtime) (D : String) :
    (machine P).Keeps (fun _ _ => True) fun w => Purged w D := by
  intro t f op w _ h
  rw [machine_perform]
  rcases perform_world P f op w with hw | hw
  · rwa [hw]
  · rw [hw]
    exact purged_effect P op h

/-! ## Runs -/

/-- The threads of a list of tasks, before their first step; the others have nothing to do. -/
def start (P : Runtime) (tasks : List Task) : Config Thrown Op Res World Fault Unit :=
  Config.start World.empty fun t => (tasks[t]?).elim (pure ()) (Task.program P)

/-- A purged document is never marked EXPIRED again, in any state of any run that goes on. -/
theorem purged_never_expires (P : Runtime) (tasks : List Task) (D : String)
    (es later : List (ℕ × Fault)) (h : Purged ((machine P).exec (start P tasks) es).world D) :
    Purged ((machine P).exec (start P tasks) (es ++ later)).world D ∧
      expired ((machine P).exec (start P tasks) (es ++ later)).world D = false := by
  rw [Machine.exec_append]
  have hlater := Machine.exec_inv (purged_keeps P D)
    (c := (machine P).exec (start P tasks) es) (fun t => ?_) h later
  · exact ⟨hlater, not_expired_of_purged hlater⟩
  · exact Machine.issued_exec (S := fun _ _ => True)
      (fun t => Script.issues_of_forall (fun _ => trivial) _) es t

/-! ## A run with a second lifecycle -/

/-- A runtime whose cutoff is the time of the sweep itself. -/
def exampleRuntime : Runtime where
  sha256Hex _ := ""
  isoOfText _ := none
  addSeconds _ _ := none
  numberOfText _ := none
  dateParse _ := none
  daysBefore now _ := some now

/-- A version of a document whose source is always expired. -/
def exampleRecord (documentId versionId messageId contentSha256 : String) : OutboundV2Record where
  record_type := "document_version"
  message_id := messageId
  schema_version := "collector-outbound-v4"
  policy_version := "p"
  visibility := .PUBLIC
  payload := .obj
    [("document", .obj [("document_id", .str documentId), ("source_id", .str "E02-gelonghui-live")]),
      ("version", .obj [("version_id", .str versionId), ("content_sha256", .str contentSha256),
        ("media_type", .str "text/plain")]), ("attachments", .arr [])]
  generated_at := none

def exampleOptions : SweepOptions := ⟨.manual, false, none, none, true⟩

def renewalTasks : List Task :=
  [.ingest (exampleRecord "a" "v1" "m1" "h") 0 "2026-01-01T", .sweep exampleOptions "2026-01-02T",
    .ingest (exampleRecord "a" "v1" "m2" "h") 0 "2026-01-03T", .sweep exampleOptions "2026-09-04T"]

/-- One thread runs to its end, undisturbed. -/
def alone (t n : ℕ) : List (ℕ × Fault) := List.replicate n (t, Fault.none)

/-- The rest of that run, after the first lifecycle. -/
theorem purged_never_expires_reingested :
    Purged ((machine exampleRuntime).exec (start exampleRuntime renewalTasks)
        (alone 0 20 ++ alone 1 20 ++ (alone 2 20 ++ alone 3 20))).world "a" ∧
      expired ((machine exampleRuntime).exec (start exampleRuntime renewalTasks)
        (alone 0 20 ++ alone 1 20 ++ (alone 2 20 ++ alone 3 20))).world "a" = false :=
  purged_never_expires exampleRuntime renewalTasks "a" (alone 0 20 ++ alone 1 20)
    (alone 2 20 ++ alone 3 20) (by decide +kernel)

/-- The last request of a sweep for a document that it marks. -/
def retires (D : String) : Op → Bool
  | .retireSemantic documentId _ => documentId = D
  | _ => false

/-- The document was purged and ingested again and is due when the second sweep begins; the sweep
reaches it and ends, and has not marked it. -/
theorem reingested_not_marked :
    let first := (machine exampleRuntime).exec (start exampleRuntime renewalTasks)
      (alone 0 20 ++ alone 1 20)
    let second := (machine exampleRuntime).exec (start exampleRuntime renewalTasks)
      (alone 0 20 ++ alone 1 20 ++ alone 2 20)
    let last := (machine exampleRuntime).exec (start exampleRuntime renewalTasks)
      (alone 0 20 ++ alone 1 20 ++ alone 2 20 ++ alone 3 20)
    Purged first.world "a" ∧ "a" ∈ scannedDocuments second.world ∧
      (candidateOf exampleRuntime "2026-09-04T" (scanRow second.world "a")).isSome = true ∧
      (∃ k ∈ last.trace 3, retires "a" k.op = true) ∧ (last.result? 3).any (·.isOk) = true ∧
      (∀ k ∈ last.trace 3, expired k.before "a" = false) ∧ expired last.world "a" = false := by
  decide +kernel

end QuantproCollector.Retention
