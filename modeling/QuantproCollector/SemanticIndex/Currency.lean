import QuantproCollector.SemanticIndex.Store
import Mathlib.Data.List.Chain
import Mathlib.Data.List.Induction

/-!
# Currency of the semantic index

An ingest retires the rows of the document's other versions, whatever their numbers: after any
sequence of ingests the one unretired row is that of the version applied last (`Follows`). The search
path takes the version with the highest number. `currency_iff` says exactly when the two agree.
-/

namespace QuantproCollector.SemanticIndex

open Relational

/-! ## Histories -/

section Latest

variable {α ι : Type} [DecidableEq ι] (key : α → ι)

/-- The newest entry of each key of a history, whose newest entry comes first. -/
def latest : List α → List α
  | [] => []
  | a :: older => a :: (latest older).filter fun b => decide (key b ≠ key a)

variable {key}

theorem mem_latest_cons {a b : α} {older : List α} :
    b ∈ latest key (a :: older) ↔ b = a ∨ b ∈ latest key older ∧ key b ≠ key a := by
  simp [latest]

theorem eq_of_mem_latest {history : List α} {a b : α} (ha : a ∈ latest key history)
    (hb : b ∈ latest key history) (hkey : key a = key b) : a = b := by
  induction history with
  | nil => simp [latest] at ha
  | cons c older ih =>
    rcases mem_latest_cons.1 ha with rfl | ⟨ha, hac⟩ <;>
      rcases mem_latest_cons.1 hb with rfl | ⟨hb, hbc⟩
    · rfl
    · exact absurd hkey.symm hbc
    · exact absurd hkey hac
    · exact ih ha hb

end Latest

/-! ## Arrivals -/

/-- A PUBLIC servable version of a document, as one record sends it. -/
structure ServableVersion (documentId : String) where
  record : OutboundV2Record
  versionId : String
  target : semanticIndexIngestTarget record = some ⟨documentId, versionId⟩
  servable : isVersionServable record.payload = true

/-- A version and the clock reading of its ingest. -/
structure Arrival (documentId : String) extends ServableVersion documentId where
  now : String

variable {documentId : String}

/-- The version as the search path sees it once it is stored. -/
def ServableVersion.candidate (v : ServableVersion documentId) : VersionCandidate :=
  ⟨v.versionId, v.record.payload, objectField v.record.payload "version",
    objectField v.record.payload "document"⟩

def ServableVersion.number (P : Platform) (v : ServableVersion documentId) : WithBot ℚ :=
  versionNumber P v.candidate.version

/-- The store after the arrivals, in their order. -/
def ingestAll (P : Platform) (s : Replica) (arrivals : List (Arrival documentId)) : Replica :=
  arrivals.foldl (fun s a => (ingestResearchReplicaRecord P s a.record a.now).2) s

/-- The arrivals that are not replays of an earlier message, the last one first. -/
def history (s : Replica) (arrivals : List (Arrival documentId)) : List (Arrival documentId) :=
  arrivals.foldl (fun applied a =>
    if isReplay s a.record.message_id ||
        applied.any (fun b => b.record.message_id = a.record.message_id) then applied
    else a :: applied) []

/-- The version ids of the document's unretired rows. -/
def unretiredVersions (s : Replica) (documentId : String) : List String :=
  (s.semantic.rows.filter fun r =>
    decide (r.document_id = documentId ∧ r.retired_at = none)).map (·.version_id)

/-- The versions of the document that the work queue offers to a reader who follows its pages. -/
def offeredVersions (s : Replica) (limit : Option Decimal) (documentId : String) : List String :=
  ((followPages s limit .PENDING (s.semantic.rows.length + 1) none).filter
    fun v => decide (v.document_id = documentId)).map (·.version_id)

/-- The id of the version that the search path treats as current. -/
def currentVersionId (P : Platform) (s : Replica) (documentId : String) : Option String :=
  (currentVersionCandidate P s documentId).candidate.map (·.versionId)

/-! ## The rows after one arrival -/

theorem target_eq_some {record : OutboundV2Record} {target : SemanticIndexTarget}
    (h : semanticIndexIngestTarget record = some target) :
    (record.record_type = "document_version" ∧ record.visibility = .PUBLIC) ∧
      (record.payload.get? "document").bind (·.get? "document_id") =
        some (.str target.documentId) ∧
      (record.payload.get? "version").bind (·.get? "version_id") = some (.str target.versionId) ∧
      target.versionId ≠ "" := by
  unfold semanticIndexIngestTarget at h
  split_ifs at h with htype
  simp only [not_or, not_not] at htype
  split at h
  · rename_i documentId versionId hd hv
    split_ifs at h with hne
    obtain rfl := Option.some.inj h
    exact ⟨htype, hd, hv, fun he => hne (.inr he)⟩
  · cases h

namespace ServableVersion

variable (v : ServableVersion documentId)

theorem recordKey : outboundV2RecordKey v.record = some v.versionId := by
  obtain ⟨⟨htype, -⟩, -, hversion, hne⟩ := target_eq_some v.target
  simp only [outboundV2RecordKey, htype, hversion, stringField, if_neg hne]

/-- What is read back from the stored payload is the version. -/
theorem versionCandidate_payload : versionCandidate v.record.payload = some v.candidate := by
  obtain ⟨-, -, hversion, -⟩ := target_eq_some v.target
  obtain ⟨version, hget, hid⟩ := Option.bind_eq_some_iff.1 hversion
  have hpayload : ∃ fields, v.record.payload = .obj fields := by
    cases hp : v.record.payload with
    | obj fields => exact ⟨fields, rfl⟩
    | _ => simp [hp, Json.get?] at hget
  have hfield : objectField v.record.payload "version" = version := by
    unfold objectField
    rw [hget]
    cases version with
    | null => simp [Json.get?] at hid
    | _ => rfl
  obtain ⟨fields, hfields⟩ := hpayload
  unfold versionCandidate candidate
  rw [hfields] at hfield ⊢
  simp only [hfield, hid]

/-- A record row with the version's payload is one of the document's versions. -/
theorem isVersionOf {row : ReplicaRecordRow} (htype : row.record_type = v.record.record_type)
    (hvis : row.visibility = v.record.visibility) (hpayload : row.payload = v.record.payload) :
    row.isVersionOf documentId = true := by
  obtain ⟨⟨ht, hp⟩, hdocument, -, -⟩ := target_eq_some v.target
  simp [ReplicaRecordRow.isVersionOf, htype, hvis, hpayload, ht, hp, hdocument, Json.str?]

end ServableVersion

section Ingest

variable {P : Platform} {s : Replica}

theorem ingest_replay (a : Arrival documentId) (h : isReplay s a.record.message_id = true) :
    (ingestResearchReplicaRecord P s a.record a.now).2 = s := by
  simp [ingestResearchReplicaRecord, a.recordKey, h]

theorem ingest_fresh (a : Arrival documentId) (h : isReplay s a.record.message_id = false) :
    (ingestResearchReplicaRecord P s a.record a.now).2 =
      ingestBatch P s a.record a.versionId a.now := by
  simp [ingestResearchReplicaRecord, a.recordKey, h]

theorem isReplay_eq_true {m : String} :
    isReplay s m = true ↔ ∃ r ∈ s.messages, r.message_id = m := by
  simp [isReplay, Table.mem_rows]

/-- An applied message is known from then on, and no other one becomes known. -/
theorem isReplay_ingestBatch (record : OutboundV2Record) (key now m : String) :
    isReplay (ingestBatch P s record key now) m = true ↔
      isReplay s m = true ∨ record.message_id = m := by
  simp only [isReplay_eq_true, ingestBatch, Table.mem_upsert, id_eq]
  constructor
  · rintro ⟨r, ⟨hr, -⟩ | ⟨b, hb, -, rfl⟩ | ⟨rfl, -⟩, rfl⟩
    · exact .inl ⟨r, hr, rfl⟩
    · exact .inl ⟨b, hb, rfl⟩
    · exact .inr rfl
  · rintro (⟨r, hr, rfl⟩ | rfl)
    · by_cases hk : r.message_id = record.message_id
      · exact ⟨r, .inr (.inl ⟨r, hr, hk, rfl⟩), rfl⟩
      · exact ⟨r, .inl ⟨hr, hk⟩, rfl⟩
    · by_cases hk : ∃ r ∈ s.messages, r.message_id = record.message_id
      · obtain ⟨r, hr, hk⟩ := hk
        exact ⟨r, .inr (.inl ⟨r, hr, hk, rfl⟩), hk⟩
      · exact ⟨_, .inr (.inr ⟨rfl, fun r hr he => hk ⟨r, hr, he⟩⟩), rfl⟩

/-- A row after a servable version arrived: of another document and untouched, the version's own
and unretired, or another version's and retired. -/
theorem row_after (a : Arrival documentId) {x : SemanticIndexStateRow}
    (hx : x ∈ semanticIndexIngestStatements s.semantic a.record a.now) :
    x.document_id ≠ documentId ∧ x ∈ s.semantic ∨
      x.document_id = documentId ∧ x.version_id = a.versionId ∧ x.retired_at = none ∧
        (x.state = .PENDING ∨
          ∃ y ∈ s.semantic, y.document_id = documentId ∧ y.state = .READY) ∨
      x.document_id = documentId ∧ x.version_id ≠ a.versionId ∧ x.retired_at ≠ none ∧
        (x.state = .FAILED ∨ x ∈ s.semantic) := by
  simp only [semanticIndexIngestStatements, a.target, a.servable, if_true] at hx
  obtain ⟨y, hy, rfl⟩ := Table.mem_modify.1 hx
  by_cases hs : supersedes ⟨documentId, a.versionId⟩ y = true
  · -- a row of the document that this arrival retires
    rw [if_pos hs]
    simp only [supersedes, decide_eq_true_eq] at hs
    exact .inr (.inr ⟨hs.1, hs.2.1, by simp [supersededRow], .inl rfl⟩)
  · rw [if_neg hs]
    simp only [supersedes, decide_eq_true_eq, not_and] at hs
    rcases Table.mem_upsert.1 hy with ⟨hy, hk⟩ | ⟨b, hb, hk, rfl⟩ | ⟨rfl, -⟩
    · by_cases hd : y.document_id = documentId
      · have hv : y.version_id ≠ a.versionId := fun hv => hk (key_eq.2 ⟨hd, hv⟩)
        exact .inr (.inr ⟨hd, hv, hs hd hv, .inr hy⟩)
      · exact .inl ⟨hd, hy⟩
    · obtain ⟨hd, hv⟩ := key_eq.1 hk
      refine .inr (.inl ⟨hd, hv, rfl, ?_⟩)
      by_cases hkeep : keepReady b (pendingRow ⟨documentId, a.versionId⟩
          (hexSha256? ((a.record.payload.get? "version").bind (·.get? "content_sha256")))
          a.now) = true
      · refine .inr ⟨b, hb, hd, ?_⟩
        simp only [keepReady, decide_eq_true_eq] at hkeep
        exact hkeep.1
      · exact .inl (if_neg hkeep)
    · exact .inr (.inl ⟨rfl, rfl, rfl, .inl rfl⟩)

/-- The version that arrived has a row. -/
theorem row_present (a : Arrival documentId) :
    ∃ x ∈ semanticIndexIngestStatements s.semantic a.record a.now,
      x.document_id = documentId ∧ x.version_id = a.versionId := by
  simp only [semanticIndexIngestStatements, a.target, a.servable, if_true]
  -- registering leaves a row at the version's key, which the arrival itself does not retire
  have hrow : ∃ y ∈ s.semantic.upsert (pendingRow ⟨documentId, a.versionId⟩
      (hexSha256? ((a.record.payload.get? "version").bind (·.get? "content_sha256"))) a.now)
      (refreshedRow (pendingRow ⟨documentId, a.versionId⟩
        (hexSha256? ((a.record.payload.get? "version").bind (·.get? "content_sha256"))) a.now))
      (fun _ => rfl), y.key = toLex (documentId, a.versionId) := by
    by_cases h : ∃ b ∈ s.semantic, b.key = toLex (documentId, a.versionId)
    · obtain ⟨b, hb, hk⟩ := h
      exact ⟨_, Table.mem_upsert.2 (.inr (.inl ⟨b, hb, hk, rfl⟩)), hk⟩
    · exact ⟨_, Table.mem_upsert.2 (.inr (.inr ⟨rfl, fun b hb hk => h ⟨b, hb, hk⟩⟩)), rfl⟩
  obtain ⟨y, hy, hk⟩ := hrow
  obtain ⟨hd, hv⟩ := key_eq.1 hk
  refine ⟨y, Table.mem_modify.2 ⟨y, hy, if_neg ?_⟩, hd, hv⟩
  simp [supersedes, hv]

/-- A record row after an ingest: of another key and untouched, or the record's own. -/
theorem record_of_ingestBatch {record : OutboundV2Record} {key now : String} {row : ReplicaRecordRow}
    (hrow : row ∈ (ingestBatch P s record key now).records) :
    row ∈ s.records ∧ row.key ≠ (record.record_type, key) ∨
      row.key = (record.record_type, key) ∧ (record.record_type ≠ "evidence" →
        row.payload = record.payload ∧ row.visibility = record.visibility) := by
  simp only [ingestBatch] at hrow
  rcases Table.mem_upsert.1 hrow with ⟨hrow, hk⟩ | ⟨b, hb, hk, rfl⟩ | ⟨rfl, -⟩
  · exact .inl ⟨hrow, hk⟩
  · refine .inr ⟨(mergeRecord_key _ b).trans hk, fun htype => ?_⟩
    have hb : b.record_type ≠ "evidence" := fun he => htype ((congrArg Prod.fst hk).symm.trans he)
    rw [mergeRecord_of_ne hb]
    exact ⟨rfl, rfl⟩
  · exact .inr ⟨rfl, fun _ => ⟨rfl, rfl⟩⟩

/-- The rows of other keys stay. -/
theorem record_of_other {record : OutboundV2Record} {key now : String} {row : ReplicaRecordRow}
    (hrow : row ∈ s.records) (hk : row.key ≠ (record.record_type, key)) :
    row ∈ (ingestBatch P s record key now).records := by
  simp only [ingestBatch]
  rw [Table.mem_upsert]
  exact .inl ⟨hrow, hk⟩

/-- The record that was ingested has its row. -/
theorem record_of_own {record : OutboundV2Record} {key now : String}
    (htype : record.record_type ≠ "evidence") :
    ∃ row ∈ (ingestBatch P s record key now).records, row.key = (record.record_type, key) ∧
      row.payload = record.payload ∧ row.visibility = record.visibility := by
  simp only [ingestBatch]
  by_cases h : ∃ b ∈ s.records, b.key = (record.record_type, key)
  · obtain ⟨b, hb, hk⟩ := h
    have hbtype : b.record_type ≠ "evidence" := fun he => htype ((congrArg Prod.fst hk).symm.trans he)
    refine ⟨_, Table.mem_upsert.2 (.inr (.inl ⟨b, hb, hk, rfl⟩)), ?_⟩
    rw [mergeRecord_of_ne hbtype]
    exact ⟨hk, rfl, rfl⟩
  · exact ⟨_, Table.mem_upsert.2 (.inr (.inr ⟨rfl, fun b hb hk => h ⟨b, hb, hk⟩⟩)), rfl, rfl, rfl⟩

/-- A record row after a version arrived: of another key and untouched, or the version's own. -/
theorem record_after (a : Arrival documentId) {row : ReplicaRecordRow}
    (hrow : row ∈ (ingestBatch P s a.record a.versionId a.now).records) :
    row ∈ s.records ∧ row.key ≠ ("document_version", a.versionId) ∨
      row.key = ("document_version", a.versionId) ∧ row.payload = a.record.payload := by
  obtain ⟨⟨htype, -⟩, -⟩ := target_eq_some a.target
  rw [← htype]
  rcases record_of_ingestBatch hrow with ⟨hrow, hk⟩ | ⟨hk, hown⟩
  · exact .inl ⟨hrow, hk⟩
  · exact .inr ⟨hk, (hown (by rw [htype]; decide)).1⟩

/-- The version that arrived is stored. -/
theorem record_present (a : Arrival documentId) :
    ∃ row ∈ (ingestBatch P s a.record a.versionId a.now).records,
      row.isVersionOf documentId = true ∧ row.payload = a.record.payload := by
  obtain ⟨⟨htype, -⟩, -⟩ := target_eq_some a.target
  obtain ⟨row, hrow, hk, hpayload, hvisibility⟩ :
      ∃ row ∈ (ingestBatch P s a.record a.versionId a.now).records,
        row.key = (a.record.record_type, a.versionId) ∧ row.payload = a.record.payload ∧
          row.visibility = a.record.visibility := record_of_own (by rw [htype]; decide)
  exact ⟨row, hrow, a.isVersionOf (congrArg Prod.fst hk) hvisibility hpayload, hpayload⟩

/-- The other records stay. -/
theorem record_kept (a : Arrival documentId) {row : ReplicaRecordRow} (hrow : row ∈ s.records)
    (hk : row.key ≠ ("document_version", a.versionId)) :
    row ∈ (ingestBatch P s a.record a.versionId a.now).records := by
  obtain ⟨⟨htype, -⟩, -⟩ := target_eq_some a.target
  exact record_of_other hrow (by rwa [htype])

end Ingest

/-! ## What holds after a history -/

/-- The store knows no version of the document. -/
structure Unregistered (s : Replica) (documentId : String) : Prop where
  rows : ∀ r ∈ s.semantic, r.document_id ≠ documentId
  records : ∀ r ∈ s.records, r.isVersionOf documentId = false

/-- The arrivals whose payload is still the stored one. -/
def stored (applied : List (Arrival documentId)) : List (Arrival documentId) :=
  latest (·.versionId) applied

/-- The store after a history of arrivals: the one unretired row is that of the last arrival, and
the stored versions are the newest payload of each. -/
structure Follows (s : Replica) (applied : List (Arrival documentId)) : Prop where
  live : ∀ r ∈ s.semantic, r.document_id = documentId →
    (r.retired_at = none ↔ ∃ a ∈ applied.head?, a.versionId = r.version_id)
  state : ∀ r ∈ s.semantic, r.document_id = documentId →
    r.state = if r.retired_at = none then .PENDING else .FAILED
  present : ∀ a ∈ applied.head?, ∃ r ∈ s.semantic,
    r.document_id = documentId ∧ r.version_id = a.versionId
  sent : ∀ r ∈ s.records, r.isVersionOf documentId = true →
    ∃ a ∈ stored applied, r.payload = a.record.payload ∧ r.key = ("document_version", a.versionId)
  kept : ∀ a ∈ stored applied, ∃ r ∈ s.records,
    r.isVersionOf documentId = true ∧ r.payload = a.record.payload

namespace Follows

variable {P : Platform} {s : Replica} {applied : List (Arrival documentId)}

theorem nil (h : Unregistered s documentId) : Follows s ([] : List (Arrival documentId)) where
  live r hr hd := absurd hd (h.rows r hr)
  state r hr hd := absurd hd (h.rows r hr)
  present a ha := by simp at ha
  sent r hr hv := by simp [h.records r hr] at hv
  kept a ha := by simp [stored, latest] at ha

/-- No row of the document is READY before its vectors are pushed. -/
theorem not_ready (h : Follows s applied) {r : SemanticIndexStateRow} (hr : r ∈ s.semantic)
    (hd : r.document_id = documentId) : r.state ≠ .READY := by
  rw [h.state r hr hd]
  split_ifs <;> simp

/-- The step: an arrival that is no replay becomes the newest entry. -/
theorem cons (h : Follows s applied) (a : Arrival documentId) :
    Follows (ingestBatch P s a.record a.versionId a.now) (a :: applied) where
  live r hr hd := by
    rcases row_after a hr with ⟨hne, -⟩ | ⟨-, hv, hret, -⟩ | ⟨-, hv, hret, -⟩
    · exact absurd hd hne
    · simp [hv, hret]
    · simpa [hret] using fun he => hv he.symm
  state r hr hd := by
    rcases row_after a hr with ⟨hne, -⟩ | ⟨-, -, hret, hst⟩ | ⟨-, -, hret, hst⟩
    · exact absurd hd hne
    · rw [if_pos hret]
      rcases hst with hst | ⟨y, hy, hyd, hready⟩
      · exact hst
      · exact absurd hready (h.not_ready hy hyd)
    · rw [if_neg hret]
      rcases hst with hst | hr
      · exact hst
      · rw [h.state r hr hd, if_neg hret]
  present b hb := by
    obtain rfl : a = b := by simpa using hb
    exact row_present a
  sent r hr hv := by
    rcases record_after a hr with ⟨hr, hk⟩ | ⟨hk, hpayload⟩
    · obtain ⟨b, hb, hpayload, hkb⟩ := h.sent r hr hv
      refine ⟨b, mem_latest_cons.2 (.inr ⟨hb, fun he => hk ?_⟩), hpayload, hkb⟩
      rw [hkb, he]
    · exact ⟨a, mem_latest_cons.2 (.inl rfl), hpayload, hk⟩
  kept b hb := by
    rcases mem_latest_cons.1 hb with rfl | ⟨hb, hne⟩
    · exact record_present b
    · obtain ⟨r, hr, hv, hpayload⟩ := h.kept b hb
      refine ⟨r, record_kept a hr ?_, hv, hpayload⟩
      -- the row's key is that of an arrival with the same payload, hence of `b`
      obtain ⟨c, -, hpc, hkc⟩ := h.sent r hr hv
      have hcb : c.versionId = b.versionId := by
        have h1 := c.versionCandidate_payload
        have h2 := b.versionCandidate_payload
        rw [← hpc, hpayload, h2] at h1
        exact congrArg VersionCandidate.versionId (Option.some.inj h1).symm
      rw [hkc, hcb]
      simpa using hne

end Follows

section Run

variable {P : Platform} {s : Replica}

/-- Arrivals one by one: a replay changes nothing. -/
theorem ingestAll_concat (arrivals : List (Arrival documentId)) (a : Arrival documentId) :
    ingestAll P s (arrivals ++ [a]) =
      (ingestResearchReplicaRecord P (ingestAll P s arrivals) a.record a.now).2 := by
  simp [ingestAll]

theorem history_concat (arrivals : List (Arrival documentId)) (a : Arrival documentId) :
    history s (arrivals ++ [a]) =
      if isReplay s a.record.message_id ||
          (history s arrivals).any (fun b => b.record.message_id = a.record.message_id) then
        history s arrivals
      else a :: history s arrivals := by
  simp [history]

/-- The messages known after the arrivals are those known before and those of the history. -/
theorem isReplay_ingestAll (arrivals : List (Arrival documentId)) (m : String) :
    isReplay (ingestAll P s arrivals) m =
      (isReplay s m || (history s arrivals).any fun b => b.record.message_id = m) := by
  induction arrivals using List.reverseRecOn generalizing m with
  | nil => simp [ingestAll, history]
  | append_singleton arrivals a ih =>
    rw [ingestAll_concat, history_concat, ← ih a.record.message_id]
    cases hr : isReplay (ingestAll P s arrivals) a.record.message_id with
    | true => rw [ingest_replay a hr, if_pos rfl, ih]
    | false =>
      rw [ingest_fresh a hr, if_neg Bool.false_ne_true, Bool.eq_iff_iff, isReplay_ingestBatch, ih]
      simp only [List.any_cons, Bool.or_eq_true, decide_eq_true_eq]
      tauto

/-- An arrival is a replay, and then neither store nor history changes, or both take it in. -/
theorem arrival_cases (arrivals : List (Arrival documentId)) (a : Arrival documentId) :
    ingestAll P s (arrivals ++ [a]) = ingestAll P s arrivals ∧
        history s (arrivals ++ [a]) = history s arrivals ∨
      ingestAll P s (arrivals ++ [a]) =
          ingestBatch P (ingestAll P s arrivals) a.record a.versionId a.now ∧
        history s (arrivals ++ [a]) = a :: history s arrivals := by
  rw [ingestAll_concat, history_concat, ← isReplay_ingestAll (P := P)]
  cases hr : isReplay (ingestAll P s arrivals) a.record.message_id with
  | true => exact .inl ⟨ingest_replay a hr, if_pos rfl⟩
  | false => exact .inr ⟨ingest_fresh a hr, if_neg Bool.false_ne_true⟩

/-- The run: every sequence of arrivals leaves what its history says. -/
theorem follows_ingestAll (h : Unregistered s documentId) (arrivals : List (Arrival documentId)) :
    Follows (ingestAll P s arrivals) (history s arrivals) := by
  induction arrivals using List.reverseRecOn with
  | nil => exact Follows.nil h
  | append_singleton arrivals a ih =>
    rcases arrival_cases (P := P) (s := s) arrivals a with ⟨hs, hh⟩ | ⟨hs, hh⟩
    · rwa [hs, hh]
    · rw [hs, hh]
      exact ih.cons a

end Run

/-! ## What the readers see -/

theorem clampInt_pos (value : Option Decimal) {fallback min max : ℕ} (hf : 0 < fallback)
    (hmin : 0 < min) (hmax : 0 < max) : 0 < clampInt value fallback min max := by
  cases value with
  | none => exact hf
  | some x =>
    simp only [clampInt]
    omega

theorem followPages_eq (s : Replica) (limit : Option Decimal) (fuel : ℕ)
    (after : Option (String ×ₗ String)) :
    followPages s limit .PENDING fuel after =
      (Keyset.walk SemanticIndexStateRow.key (clampInt limit 128 1 128) (queuedRows s .PENDING)
        fuel after).map SemanticIndexStateRow.pendingVersion := by
  induction fuel generalizing after with
  | zero => rfl
  | succ fuel ih =>
    have hpage : listPendingSemanticVersions s limit .PENDING after =
        ⟨(Keyset.page SemanticIndexStateRow.key (clampInt limit 128 1 128)
            (queuedRows s .PENDING) after).items.map SemanticIndexStateRow.pendingVersion,
          (Keyset.page SemanticIndexStateRow.key (clampInt limit 128 1 128)
            (queuedRows s .PENDING) after).next⟩ := rfl
    simp only [followPages, Keyset.walk, hpage]
    cases (Keyset.page SemanticIndexStateRow.key (clampInt limit 128 1 128)
      (queuedRows s .PENDING) after).next with
    | none => rfl
    | some cursor => simp only [List.map_append, ih]

/-- Following the pages serves the whole queue in the order of its keys. -/
theorem followPages_all (s : Replica) (limit : Option Decimal) :
    followPages s limit .PENDING (s.semantic.rows.length + 1) none =
      (Keyset.ordered SemanticIndexStateRow.key (queuedRows s .PENDING)).map
        SemanticIndexStateRow.pendingVersion := by
  have hsub : (queuedRows s .PENDING).Sublist s.semantic.rows := List.filter_sublist
  have hnodup : (s.semantic.rows.map SemanticIndexStateRow.key).Nodup := by
    have := s.semantic.unique _ (List.mem_singleton.2 rfl)
    exact List.pairwise_map.2 (this.imp fun h he => h (by simp) (by rw [he]))
  rw [followPages_eq, Keyset.walk_eq_ordered (clampInt_pos _ (by omega) (by omega) (by omega))
    (hnodup.sublist (hsub.map _)) (Nat.lt_succ_of_le hsub.length_le)]

namespace Follows

variable {P : Platform} {s : Replica} {applied : List (Arrival documentId)}

/-- The unretired rows are the row of the last arrival. -/
theorem unretired (h : Follows s applied) :
    (s.semantic.rows.filter fun r => decide (r.document_id = documentId ∧ r.retired_at = none)) =
        [] ∧ applied = [] ∨
      ∃ a older r, applied = a :: older ∧ r ∈ s.semantic ∧
        r.key = toLex (documentId, a.versionId) ∧ r.retired_at = none ∧
        (s.semantic.rows.filter fun r =>
          decide (r.document_id = documentId ∧ r.retired_at = none)) = [r] := by
  cases applied with
  | nil =>
    refine .inl ⟨List.filter_eq_nil_iff.2 fun r hr => ?_, rfl⟩
    simp only [decide_eq_true_eq, not_and]
    intro hd hret
    simpa using (h.live r hr hd).1 hret
  | cons a older =>
    obtain ⟨r, hr, hd, hv⟩ := h.present a rfl
    have hret : r.retired_at = none := (h.live r hr hd).2 ⟨a, rfl, hv.symm⟩
    refine .inr ⟨a, older, r, rfl, hr, key_eq.2 ⟨hd, hv⟩, hret, ?_⟩
    refine Table.filter_eq_singleton (List.mem_singleton.2 rfl) hr (by simp [hd, hret])
      (by simp) fun b hb hp => ?_
    simp only [decide_eq_true_eq] at hp
    obtain ⟨c, hc, hcb⟩ := (h.live b hb hp.1).1 hp.2
    obtain rfl : a = c := by simpa using hc
    rw [key_eq.2 ⟨hp.1, hcb.symm⟩, key_eq.2 ⟨hd, hv⟩]

theorem unretiredVersions_eq (h : Follows s applied) :
    unretiredVersions s documentId = applied.head?.toList.map (·.versionId) := by
  unfold unretiredVersions
  rcases h.unretired with ⟨hrows, rfl⟩ | ⟨a, older, r, rfl, -, hk, -, hrows⟩
  · rw [hrows]
    rfl
  · rw [hrows]
    simp [(key_eq.1 hk).2]

/-- The queue offers what is unretired, on whatever pages. -/
theorem offeredVersions_eq (h : Follows s applied)
    (hlive : expiredByRetention s documentId = false) (limit : Option Decimal) :
    offeredVersions s limit documentId = unretiredVersions s documentId := by
  have hqueued : (queuedRows s .PENDING).filter (fun r => decide (r.document_id = documentId)) =
      s.semantic.rows.filter fun r =>
        decide (r.document_id = documentId ∧ r.retired_at = none) := by
    unfold queuedRows
    rw [List.filter_filter]
    refine List.filter_congr fun r hr => ?_
    rw [Bool.eq_iff_iff]
    simp only [Bool.and_eq_true, decide_eq_true_eq, Bool.not_eq_true']
    constructor
    · rintro ⟨hd, ⟨-, hret⟩, -⟩
      exact ⟨hd, hret⟩
    · rintro ⟨hd, hret⟩
      exact ⟨hd, ⟨by rw [h.state r hr hd, if_pos hret], hret⟩, by rw [hd, hlive]⟩
  have hperm : ((Keyset.ordered SemanticIndexStateRow.key (queuedRows s .PENDING)).filter
      fun r => decide (r.document_id = documentId)).Perm
      (s.semantic.rows.filter fun r =>
        decide (r.document_id = documentId ∧ r.retired_at = none)) := by
    rw [← hqueued]
    exact (Keyset.perm_ordered _).filter _
  have heq : ((Keyset.ordered SemanticIndexStateRow.key (queuedRows s .PENDING)).filter
      fun r => decide (r.document_id = documentId)) =
      s.semantic.rows.filter fun r =>
        decide (r.document_id = documentId ∧ r.retired_at = none) := by
    rcases h.unretired with ⟨hrows, -⟩ | ⟨-, -, r, -, -, -, -, hrows⟩
    · rw [hrows] at hperm ⊢
      exact hperm.eq_nil
    · rw [hrows] at hperm ⊢
      exact List.perm_singleton.1 hperm
  unfold offeredVersions unretiredVersions
  rw [followPages_all, ← heq, List.filter_map, List.map_map]
  rfl

/-- The candidates are the stored arrivals. -/
theorem mem_documentVersions (h : Follows s applied) {c : VersionCandidate} :
    c ∈ documentVersions P s documentId ↔ ∃ a ∈ stored applied, a.candidate = c := by
  simp only [documentVersions, versionOrdering, List.mem_insertionSort, List.mem_filterMap,
    List.mem_filter]
  constructor
  · rintro ⟨r, ⟨hr, hv⟩, hc⟩
    obtain ⟨a, ha, hpayload, -⟩ := h.sent r hr hv
    rw [hpayload, a.versionCandidate_payload] at hc
    exact ⟨a, ha, Option.some.inj hc⟩
  · rintro ⟨a, ha, rfl⟩
    obtain ⟨r, hr, hv, hpayload⟩ := h.kept a ha
    exact ⟨r, ⟨hr, hv⟩, by rw [hpayload, a.versionCandidate_payload]⟩

/-- Every version is servable, so the current one is the first. -/
theorem current_eq (h : Follows s applied) :
    (currentVersionCandidate P s documentId).candidate =
      (documentVersions P s documentId).head? := by
  unfold currentVersionCandidate
  have hservable : ∀ c ∈ documentVersions P s documentId, isVersionServable c.payload = true := by
    intro c hc
    obtain ⟨a, -, rfl⟩ := h.mem_documentVersions.1 hc
    exact a.servable
  cases hl : documentVersions P s documentId with
  | nil => rfl
  | cons c rest =>
    have hc := hservable c (by simp [hl])
    simp only [List.find?_cons, hc, List.head?_cons]

end Follows

/-! ### The order of the search path -/

theorem precedes_iff {P : Platform} {a b : VersionCandidate} :
    precedes P a b = true ↔ versionNumber P b.version < versionNumber P a.version ∨
      versionNumber P b.version = versionNumber P a.version ∧
        Utf16.le (Utf16.units a.versionId) (Utf16.units b.versionId) = true := by
  simp only [precedes]
  split_ifs with h
  · simp [h]
  · simp [not_not.1 h]

theorem precedes_total (P : Platform) (a b : VersionCandidate) :
    precedes P a b = true ∨ precedes P b a = true := by
  simp only [precedes_iff]
  rcases lt_trichotomy (versionNumber P a.version) (versionNumber P b.version) with h | h | h
  · exact .inr (.inl h)
  · rcases Utf16.le_total (Utf16.units a.versionId) (Utf16.units b.versionId) with hle | hle
    · exact .inl (.inr ⟨h.symm, hle⟩)
    · exact .inr (.inr ⟨h, hle⟩)
  · exact .inl (.inl h)

theorem precedes_trans {P : Platform} {a b c : VersionCandidate} (hab : precedes P a b = true)
    (hbc : precedes P b c = true) : precedes P a c = true := by
  rw [precedes_iff] at hab hbc ⊢
  rcases hab with hab | ⟨hab, hle⟩ <;> rcases hbc with hbc | ⟨hbc, hle'⟩
  · exact .inl (hbc.trans hab)
  · exact .inl (hbc ▸ hab)
  · exact .inl (hab ▸ hbc)
  · exact .inr ⟨hbc.trans hab, Utf16.le_trans hle hle'⟩

/-- Two versions that precede each other have one id. -/
theorem precedes_antisymm {P : Platform} {a b : VersionCandidate} (hab : precedes P a b = true)
    (hba : precedes P b a = true) : a.versionId = b.versionId := by
  rw [precedes_iff] at hab hba
  rcases hab with hab | ⟨hab, hle⟩ <;> rcases hba with hba | ⟨hba, hle'⟩
  · exact absurd hab (lt_asymm hba)
  · exact absurd hab (by rw [hba]; exact lt_irrefl _)
  · exact absurd hba (by rw [hab]; exact lt_irrefl _)
  · exact Utf16.units_injective (Utf16.le_antisymm hle hle')

/-- The first candidate precedes every other one. -/
theorem head_precedes {P : Platform} {s : Replica} {c : VersionCandidate}
    (hc : (documentVersions P s documentId).head? = some c) :
    ∀ b ∈ documentVersions P s documentId, precedes P c b = true := by
  have : Std.Total fun a b : VersionCandidate => precedes P a b = true := ⟨precedes_total P⟩
  have : IsTrans VersionCandidate fun a b => precedes P a b = true := ⟨fun _ _ _ => precedes_trans⟩
  have hsorted := List.pairwise_insertionSort (fun a b => precedes P a b = true)
    ((s.records.rows.filter (·.isVersionOf documentId)).filterMap (versionCandidate ·.payload))
  change (documentVersions P s documentId).Pairwise _ at hsorted
  cases hl : documentVersions P s documentId with
  | nil => simp
  | cons x rest =>
    rw [hl] at hc hsorted
    obtain rfl : x = c := by simpa using hc
    intro b hb
    rcases List.mem_cons.1 hb with rfl | hb
    · exact (precedes_total P b b).elim id id
    · exact List.rel_of_pairwise_cons hsorted hb

/-! ## Currency -/

/-- The index and the search path agree on the document's one live version. -/
structure Current (P : Platform) (s : Replica) (documentId : String) : Prop where
  unretired : unretiredVersions s documentId = (currentVersionId P s documentId).toList
  offered : expiredByRetention s documentId = false → ∀ limit,
    offeredVersions s limit documentId = (currentVersionId P s documentId).toList

/-- No arrival retires the row of a stored version with a higher number. -/
def NeverRetiresNewer (P : Platform) (s : Replica) (arrivals : List (Arrival documentId)) : Prop :=
  ∀ before a, before ++ [a] <+: arrivals →
    ∀ c ∈ documentVersions P (ingestAll P s before) documentId,
      a.number P < versionNumber P c.version →
      c.versionId ∈ unretiredVersions (ingestAll P s before) documentId →
      c.versionId ∈ unretiredVersions (ingestAll P s (before ++ [a])) documentId

/-- The applied arrivals, the last one first, came in the order in which the search path prefers
them: none directly after a different version of a higher number, and the last one before all that
are stored. -/
structure InCurrencyOrder (P : Platform) (applied : List (Arrival documentId)) : Prop where
  ascending : applied.IsChain fun newer older =>
    newer.versionId = older.versionId ∨ older.number P ≤ newer.number P
  last : ∀ a ∈ applied.head?, ∀ b ∈ stored applied, precedes P a.candidate b.candidate = true

namespace Follows

variable {P : Platform} {s : Replica} {applied : List (Arrival documentId)}

/-- The last arrival is the current version when it precedes every stored one. -/
theorem current_iff (h : Follows s applied) :
    unretiredVersions s documentId = (currentVersionId P s documentId).toList ↔
      ∀ a ∈ applied.head?, ∀ b ∈ stored applied, precedes P a.candidate b.candidate = true := by
  rw [h.unretiredVersions_eq, currentVersionId, h.current_eq]
  cases applied with
  | nil =>
    have hnone : documentVersions P s documentId = [] :=
      List.eq_nil_iff_forall_not_mem.2 fun c hc => by
        obtain ⟨a, ha, -⟩ := h.mem_documentVersions.1 hc
        simp [stored, latest] at ha
    simp [hnone]
  | cons a older =>
    have ha : a ∈ stored (a :: older) := mem_latest_cons.2 (.inl rfl)
    have hin : a.candidate ∈ documentVersions P s documentId := h.mem_documentVersions.2 ⟨a, ha, rfl⟩
    obtain ⟨c, hc⟩ := Option.ne_none_iff_exists'.1
      (fun hnone => List.ne_nil_of_mem hin (List.head?_eq_none_iff.1 hnone))
    have hfirst := head_precedes hc
    obtain ⟨b, hb, rfl⟩ := h.mem_documentVersions.1 (List.mem_of_mem_head? hc)
    simp only [List.head?_cons, Option.toList_some, List.map_cons, List.map_nil, hc,
      Option.map_some, Option.mem_some_iff, forall_eq', List.cons.injEq, and_true]
    constructor
    · intro heq d hd
      obtain rfl := eq_of_mem_latest ha hb heq
      exact hfirst _ (h.mem_documentVersions.2 ⟨d, hd, rfl⟩)
    · intro hall
      exact precedes_antisymm (hall b hb) (hfirst _ hin)

theorem current (h : Follows s applied) :
    Current P s documentId ↔
      ∀ a ∈ applied.head?, ∀ b ∈ stored applied, precedes P a.candidate b.candidate = true := by
  rw [← h.current_iff]
  constructor
  · exact Current.unretired
  · intro hu
    exact ⟨hu, fun hlive limit => by rw [h.offeredVersions_eq hlive, hu]⟩

/-- An applied arrival spares a newer version's row only where the last version before it is not
newer. -/
theorem spares_iff (h : Follows s applied) (a : Arrival documentId) :
    (∀ c ∈ documentVersions P s documentId, a.number P < versionNumber P c.version →
      c.versionId ∈ unretiredVersions s documentId →
      c.versionId ∈ unretiredVersions (ingestBatch P s a.record a.versionId a.now) documentId) ↔
      ∀ b ∈ applied.head?, a.versionId = b.versionId ∨ b.number P ≤ a.number P := by
  rw [h.unretiredVersions_eq, (h.cons a).unretiredVersions_eq]
  cases applied with
  | nil => simp
  | cons b older =>
    have hb : b ∈ stored (b :: older) := mem_latest_cons.2 (.inl rfl)
    simp only [List.head?_cons, Option.toList_some, List.map_cons, List.map_nil,
      List.mem_singleton, Option.mem_some_iff, forall_eq']
    constructor
    · intro hspare
      by_contra hnot
      rw [not_or, not_le] at hnot
      have hin := (h.mem_documentVersions (P := P)).2 ⟨b, hb, rfl⟩
      exact hnot.1 (hspare b.candidate hin hnot.2 rfl).symm
    · rintro hlast c hc hnewer hcb
      obtain ⟨d, hd, rfl⟩ := h.mem_documentVersions.1 hc
      obtain rfl := eq_of_mem_latest hd hb hcb
      rcases hlast with heq | hle
      · exact heq.symm
      · exact absurd hnewer (not_lt.2 hle)

end Follows

section Order

variable {P : Platform} {s : Replica}

/-- Newer versions keep their rows through a run exactly when the applied arrivals ascend. -/
theorem neverRetiresNewer_iff (h : Unregistered s documentId)
    (arrivals : List (Arrival documentId)) :
    NeverRetiresNewer P s arrivals ↔ (history s arrivals).IsChain fun newer older =>
      newer.versionId = older.versionId ∨ older.number P ≤ newer.number P := by
  induction arrivals using List.reverseRecOn with
  | nil => simp [NeverRetiresNewer, history]
  | append_singleton arrivals a ih =>
    have hfollows := follows_ingestAll (P := P) h arrivals
    have hsplit : NeverRetiresNewer P s (arrivals ++ [a]) ↔ NeverRetiresNewer P s arrivals ∧
        ∀ c ∈ documentVersions P (ingestAll P s arrivals) documentId,
          a.number P < versionNumber P c.version →
          c.versionId ∈ unretiredVersions (ingestAll P s arrivals) documentId →
          c.versionId ∈ unretiredVersions (ingestAll P s (arrivals ++ [a])) documentId := by
      unfold NeverRetiresNewer
      simp only [List.prefix_concat_iff, or_imp, forall_and]
      constructor
      · rintro ⟨hlast, hrest⟩
        exact ⟨hrest, hlast arrivals a rfl⟩
      · rintro ⟨hrest, hlast⟩
        refine ⟨fun before b heq => ?_, hrest⟩
        obtain ⟨rfl, hab⟩ := List.append_inj' heq rfl
        obtain rfl : b = a := by simpa using hab
        exact hlast
    rw [hsplit, ih]
    rcases arrival_cases (P := P) (s := s) arrivals a with ⟨hs, hh⟩ | ⟨hs, hh⟩
    · rw [hs, hh]
      exact and_iff_left fun c _ _ hc => hc
    · rw [hs, hh, hfollows.spares_iff, List.isChain_cons]
      exact and_comm

/-- After any arrivals in any order the index and the search path agree, and no older version ever
retired a newer one, exactly when the arrivals that are no replays came in currency order. -/
theorem currency_iff (P : Platform) (s : Replica) (documentId : String)
    (arrivals : List (Arrival documentId)) (h : Unregistered s documentId) :
    Current P (ingestAll P s arrivals) documentId ∧ NeverRetiresNewer P s arrivals ↔
      InCurrencyOrder P (history s arrivals) := by
  rw [(follows_ingestAll h arrivals).current, neverRetiresNewer_iff h]
  constructor
  · rintro ⟨hlast, hascending⟩
    exact ⟨hascending, hlast⟩
  · rintro ⟨hascending, hlast⟩
    exact ⟨hlast, hascending⟩

end Order

/-! ### Two versions, newest first -/

/-- A version of the document `doc-1` with a text body. -/
def examplePayload (versionId : String) (number : ℤ) (contentSha256 : String) : Json :=
  .obj [
    ("document", .obj [("document_id", .str "doc-1"), ("source_id", .str "source-1"),
      ("source_identity_key", .str "key-1"), ("canonical_locator", .str "urn:doc-1"),
      ("origin_locator", .str "urn:doc-1"), ("first_seen_at", .str "2026-10-01T00:00:00.000Z"),
      ("title", .str "Report"), ("source_kind", .str "FILING"), ("visibility", .str "PUBLIC"),
      ("historical_backfill", .bool false)]),
    ("version", .obj [("version_id", .str versionId), ("document_id", .str "doc-1"),
      ("version_number", .num (.ofInt number)), ("content_sha256", .str contentSha256),
      ("byte_size", .num (.ofInt 3)), ("media_type", .str "text/plain"),
      ("ingested_at", .str "2026-10-01T00:00:00.000Z"), ("published_at", .null),
      ("event_time", .null), ("source_updated_at", .null), ("response_headers", .obj []),
      ("revision_kind", .str "ORIGINAL"), ("corrects_version_id", .null),
      ("historical_backfill", .bool false), ("readable", .bool true)]),
    ("attachments", .arr [])]

def exampleRecord (messageId : String) (payload : Json) : OutboundV2Record :=
  ⟨"document_version", messageId, "collector-outbound-v4", "policy-1", .PUBLIC, payload, none⟩

def firstPayload : Json :=
  examplePayload "v1" 1 "7692c3ad3540bb803c020b3aee66cd8887123234ea0c6e7143c0add73ff431ed"

def secondPayload : Json :=
  examplePayload "v2" 2 "3fc4ccfe745870e2c0d99f71f30ff0656c8dedd41cc1d7d3d376b0dbe685e2f3"

/-- The platform on the texts that the examples hand it: the digests of the two payloads. -/
def indexPlatform : Platform where
  sha256Hex text :=
    if text = firstPayload.canonicalText then
      "928cd1bb2c9dc37edb85b993944da920f32cf590fb18769ef8f893a47f1ac0c5"
    else "87b8683775a9dc89ee33e99317b9ee3594c4d9f03dcdfb2af0dfc9ae58b6c85a"
  isoOfText := some
  addSeconds _ _ := none
  numberOfText _ := none

def firstVersion : Arrival "doc-1" where
  record := exampleRecord "outbound_abfaf852d8f444f23744606539b907c587ccfec8" firstPayload
  versionId := "v1"
  target := by decide
  servable := by decide
  now := "2026-10-03T00:00:00.000Z"

def secondVersion : Arrival "doc-1" where
  record := exampleRecord "outbound_09fcfc907136463b591fb7aec62590b6b4e6f6bb" secondPayload
  versionId := "v2"
  target := by decide
  servable := by decide
  now := "2026-10-02T00:00:00.000Z"

theorem unregistered_empty (documentId : String) : Unregistered .empty documentId where
  rows r hr := absurd hr (Table.not_mem_empty r)
  records r hr := absurd hr (Table.not_mem_empty r)

/-- Version 2 arrives, then version 1: the row of version 2 is retired, the search path still takes
version 2 as current. -/
theorem older_version_retires_newer :
    ¬ ∀ (P : Platform) (s : Replica) (documentId : String) (arrivals : List (Arrival documentId)),
      Unregistered s documentId →
        Current P (ingestAll P s arrivals) documentId ∧ NeverRetiresNewer P s arrivals := by
  intro h
  have hcurrent := (h indexPlatform .empty "doc-1" [secondVersion, firstVersion]
    (unregistered_empty "doc-1")).1.unretired
  exact absurd hcurrent (by decide +kernel)

/-- Version 1, then version 2, then version 1 replayed. -/
theorem currency_iff_ascending :
    (Current indexPlatform
        (ingestAll indexPlatform .empty [firstVersion, secondVersion, firstVersion]) "doc-1" ∧
      NeverRetiresNewer indexPlatform .empty [firstVersion, secondVersion, firstVersion]) ∧
    InCurrencyOrder indexPlatform
      (history .empty [firstVersion, secondVersion, firstVersion]) := by
  have horder : InCurrencyOrder indexPlatform
      (history .empty [firstVersion, secondVersion, firstVersion]) :=
    ⟨by decide +kernel, by decide +kernel⟩
  exact ⟨(currency_iff indexPlatform .empty "doc-1" [firstVersion, secondVersion, firstVersion]
    (unregistered_empty "doc-1")).2 horder, horder⟩

end QuantproCollector.SemanticIndex
