import QuantproCollector.ResearchReplica.Adapter
import QuantproCollector.SemanticIndex.Soundness

/-!
# What a PUBLIC adapter reads

Two worlds are alike where they differ in PRIVATE rows and in objects only. A PUBLIC adapter reads the same
from both, provided that the objects are the same that the PUBLIC rows name (`Alike.sameReads`).
-/

namespace QuantproCollector.ResearchReplica

open SemanticIndex Relational Calendar

/-! ## What a PUBLIC adapter can see -/

/-- A payload names the object of a digest as a body or as the source of evidence. -/
def Names (payload : Json) (contentSha256 : String) : Prop :=
  (∃ body, servableBody payload = some body ∧ body.contentSha256 = contentSha256) ∨
    ∃ reference, sourceReference payload = some reference ∧ reference.contentSha256 = contentSha256

/-- The rows that a PUBLIC adapter reads. -/
def isPublicRow (row : ReplicaRecordRow) : Bool :=
  decide (row.visibility = .PUBLIC) && decide (row.record_type ≠ "object")

def publicRows (s : Replica) : List ReplicaRecordRow :=
  s.records.rows.filter isPublicRow

/-- Two worlds that differ in PRIVATE rows and in objects only. -/
structure Alike (w w' : ReplicaWorld) : Prop where
  rows : publicRows w.replica = publicRows w'.replica
  semantic : w.replica.semantic = w'.replica.semantic
  retention : w.replica.retention = w'.replica.retention
  fts : w.fts = w'.fts
  jobs : w.jobs = w'.jobs

/-- The objects that the PUBLIC rows name are the same. -/
def ObjectsAlike (w w' : ReplicaWorld) : Prop :=
  ∀ row ∈ publicRows w.replica, ∀ contentSha256, Names row.payload contentSha256 →
    w.objects (objectKey contentSha256) = w'.objects (objectKey contentSha256)

/-- Every read of a PUBLIC adapter returns the same from two worlds. -/
structure SameReads (R : AdapterRuntime) (w w' : ReplicaWorld) : Prop where
  searchDocuments : ∀ query limit, searchDocuments R w query limit = searchDocuments R w' query limit
  getDocument : ∀ documentId,
    getDocument R.toReadRuntime w.replica w.objects documentId =
      getDocument R.toReadRuntime w'.replica w'.objects documentId
  searchEvidence : ∀ limit, searchEvidence w limit = searchEvidence w' limit
  getEvidence : ∀ evidenceId, getEvidence R w evidenceId = getEvidence R w' evidenceId
  getThemeAccumulator : ∀ subjectKey,
    getThemeAccumulator R.toDateRuntime w.replica .PUBLIC subjectKey =
      getThemeAccumulator R.toDateRuntime w'.replica .PUBLIC subjectKey
  getCoverageStatus : ∀ limit, getCoverageStatus w limit = getCoverageStatus w' limit
  getSourceHealth : ∀ limit, getSourceHealth w limit = getSourceHealth w' limit
  getMarketSignalState : ∀ subjectKey,
    getMarketSignalState w subjectKey = getMarketSignalState w' subjectKey
  listResearchJobs : ∀ now limit claimableOnly,
    listResearchJobs w now limit claimableOnly = listResearchJobs w' now limit claimableOnly
  getResearchJobContext : ∀ now jobId,
    getResearchJobContext w now jobId = getResearchJobContext w' now jobId
  searchDocumentsSemantic : ∀ providers query limit,
    Search.searchPublicDocumentsSemantic R.toSearchRuntime w.replica w.objects providers query limit =
      Search.searchPublicDocumentsSemantic R.toSearchRuntime w'.replica w'.objects providers query limit

/-! ## Reads of alike worlds -/

section Reads

variable {R : AdapterRuntime} {w w' : ReplicaWorld}

theorem Alike.filter (h : Alike w w') {p : ReplicaRecordRow → Bool}
    (hp : ∀ row, p row = true → isPublicRow row = true) :
    w.replica.records.rows.filter p = w'.replica.records.rows.filter p := by
  have hpublic : ∀ rows : List ReplicaRecordRow, rows.filter p = (rows.filter isPublicRow).filter p := by
    intro rows
    rw [List.filter_filter]
    refine List.filter_congr fun row _ => ?_
    cases hrow : p row with
    | true => simp [hp row hrow]
    | false => simp
  rw [hpublic, hpublic w'.replica.records.rows]
  exact congrArg (List.filter p) h.rows

theorem isPublicRow_of_isPublicOf {recordType : String} (htype : recordType ≠ "object")
    {row : ReplicaRecordRow} (h : isPublicOf recordType row = true) : isPublicRow row = true := by
  simp only [isPublicOf, isPublicRow, Bool.and_eq_true, decide_eq_true_eq] at h ⊢
  exact ⟨h.2, h.1 ▸ htype⟩

theorem Alike.records (h : Alike w w') {recordType : String} (htype : recordType ≠ "object")
    (limit : Option Decimal) : records w recordType limit = records w' recordType limit := by
  unfold ResearchReplica.records
  rw [h.filter fun row => isPublicRow_of_isPublicOf htype]

theorem Alike.recordByKey (h : Alike w w') {recordType : String} (htype : recordType ≠ "object")
    (recordKey : String) : recordByKey w recordType recordKey = recordByKey w' recordType recordKey := by
  unfold ResearchReplica.recordByKey
  rw [← List.head?_filter, ← List.head?_filter, h.filter]
  intro row hrow
  exact isPublicRow_of_isPublicOf htype (Bool.and_eq_true_iff.1 hrow).1

theorem expiredByRetention_eq (h : Alike w w') (documentId : String) :
    expiredByRetention w.replica documentId = expiredByRetention w'.replica documentId := by
  unfold expiredByRetention
  rw [h.retention]

theorem Alike.searchDocuments (h : Alike w w') (query : Option String) (limit : Option Decimal) :
    searchDocuments R w query limit = searchDocuments R w' query limit := by
  have hcondition : ∀ needle row, (notExpired w row && matchesNeedle R w needle row) =
      (notExpired w' row && matchesNeedle R w' needle row) := by
    intro needle row
    unfold notExpired matchesNeedle
    rw [h.fts, funext (expiredByRetention_eq h)]
  unfold ResearchReplica.searchDocuments
  simp only [hcondition]
  rw [h.filter]
  intro row hrow
  exact isPublicRow_of_isPublicOf (by decide) (Bool.and_eq_true_iff.1 hrow).1

theorem isPublicRow_of_isVersionOf {documentId : String} {row : ReplicaRecordRow}
    (h : row.isVersionOf documentId = true) : isPublicRow row = true := by
  simp only [ReplicaRecordRow.isVersionOf, isPublicRow, Bool.and_eq_true, decide_eq_true_eq] at h ⊢
  exact ⟨h.1.2, by rw [h.1.1]; decide⟩

theorem Alike.getThemeAccumulator (h : Alike w w') (subjectKey : String) :
    getThemeAccumulator R.toDateRuntime w.replica .PUBLIC subjectKey =
      getThemeAccumulator R.toDateRuntime w'.replica .PUBLIC subjectKey := by
  have hrows : ∀ rows : List ReplicaRecordRow,
      (rows.filterMap fun row => (accumulatorColumns R.toDateRuntime row).bind fun columns =>
        if row.record_type = "accumulator" ∧ row.visibility = .PUBLIC ∧ columns.subject = subjectKey then
          some (columns.createdAt, row)
        else none) =
      ((rows.filter (isPublicOf "accumulator")).filterMap fun row =>
        (accumulatorColumns R.toDateRuntime row).bind fun columns =>
          if row.record_type = "accumulator" ∧ row.visibility = .PUBLIC ∧ columns.subject = subjectKey then
            some (columns.createdAt, row)
          else none) := by
    intro rows
    induction rows with
    | nil => rfl
    | cons row rows ih =>
      by_cases hrow : isPublicOf "accumulator" row = true
      · rw [List.filter_cons_of_pos hrow, List.filterMap_cons, List.filterMap_cons, ih]
      · rw [List.filter_cons_of_neg hrow, List.filterMap_cons, ih]
        have hnone : ((accumulatorColumns R.toDateRuntime row).bind fun columns =>
            if row.record_type = "accumulator" ∧ row.visibility = .PUBLIC ∧
                columns.subject = subjectKey then some (columns.createdAt, row)
            else none) = none := by
          rw [Option.bind_eq_none_iff]
          intro columns _
          refine if_neg fun hselected => hrow ?_
          simp [isPublicOf, hselected.1, hselected.2.1]
        rw [hnone]
  unfold ResearchReplica.getThemeAccumulator currentAccumulator accumulatorRows
  rw [hrows, hrows w'.replica.records.rows,
    h.filter fun row => isPublicRow_of_isPublicOf (by decide)]

/-! ## Reads of objects -/

theorem serveFirst_congr {R : ReadRuntime} {objects objects' : String → Option (List UInt8)}
    {candidates : List DocumentCandidate} (h : ∀ c ∈ candidates, ∀ body,
      servableBody c.row.payload = some body →
        objects (objectKey body.contentSha256) = objects' (objectKey body.contentSha256))
    (sawServable : Bool) :
    serveFirst R objects sawServable candidates = serveFirst R objects' sawServable candidates := by
  induction candidates generalizing sawServable with
  | nil => rfl
  | cons c rest ih =>
    have hrest := ih fun d hd => h d (List.mem_cons_of_mem c hd)
    unfold serveFirst
    cases hbody : servableBody c.row.payload with
    | none => exact hrest sawServable
    | some body =>
      dsimp only
      rw [h c List.mem_cons_self body hbody, hrest true]

/-- A candidate stands for the row it was made of. -/
theorem documentCandidate_row {documentId : String} {row : ReplicaRecordRow} {c : DocumentCandidate}
    (h : documentCandidate documentId row = .ok c) : c.row = row := by
  unfold documentCandidate at h
  split at h
  · dsimp only at h
    split_ifs at h
    · obtain rfl := Except.ok.inj h
      rfl
  · cases h

theorem mem_of_mapM_documentCandidate {documentId : String} {rows : List ReplicaRecordRow}
    {candidates : List DocumentCandidate}
    (h : rows.mapM (documentCandidate documentId) = .ok candidates) : ∀ c ∈ candidates, c.row ∈ rows := by
  induction rows generalizing candidates with
  | nil =>
    rw [List.mapM_nil] at h
    obtain rfl := Except.ok.inj h
    nofun
  | cons row rows ih =>
    rw [List.mapM_cons] at h
    obtain ⟨c, hc, h⟩ := Fallible.bind_eq_ok.1 h
    obtain ⟨rest, hrest, h⟩ := Fallible.bind_eq_ok.1 h
    obtain rfl := Except.ok.inj h
    intro d hd
    rcases List.mem_cons.1 hd with rfl | hd
    · exact List.mem_cons.2 (.inl (documentCandidate_row hc))
    · exact List.mem_cons_of_mem row (ih hrest d hd)

theorem Alike.documentRows (h : Alike w w') (documentId : String) :
    documentRows w.replica documentId = documentRows w'.replica documentId := by
  unfold SemanticIndex.documentRows
  rw [expiredByRetention_eq h]
  exact h.filter fun row hrow => isPublicRow_of_isVersionOf (Bool.and_eq_true_iff.1 hrow).1

theorem mem_publicRows_of_documentRows {documentId : String} {row : ReplicaRecordRow}
    (h : row ∈ documentRows w.replica documentId) : row ∈ publicRows w.replica := by
  obtain ⟨hrow, hselected⟩ := List.mem_filter.1 h
  exact List.mem_filter.2 ⟨hrow, isPublicRow_of_isVersionOf (Bool.and_eq_true_iff.1 hselected).1⟩

theorem Alike.getDocument (h : Alike w w') (hobjects : ObjectsAlike w w') (documentId : String) :
    getDocument R.toReadRuntime w.replica w.objects documentId =
      getDocument R.toReadRuntime w'.replica w'.objects documentId := by
  have hcandidates : ∀ candidates, documentCandidates R.toReadRuntime.toPlatform w.replica documentId =
      .ok candidates → ∀ c ∈ candidates, ∀ body, servableBody c.row.payload = some body →
        w.objects (objectKey body.contentSha256) = w'.objects (objectKey body.contentSha256) := by
    intro candidates hc c hmem body hbody
    obtain ⟨found, hfound, hsorted⟩ := Fallible.bind_eq_ok.1 hc
    obtain rfl := Except.ok.inj hsorted
    have hrow := mem_of_mapM_documentCandidate hfound c ((List.mem_insertionSort _).1 hmem)
    exact hobjects c.row (mem_publicRows_of_documentRows hrow) _ (.inl ⟨body, hbody, rfl⟩)
  have hsame : documentCandidates R.toReadRuntime.toPlatform w'.replica documentId =
      documentCandidates R.toReadRuntime.toPlatform w.replica documentId := by
    unfold documentCandidates
    rw [h.documentRows]
  unfold SemanticIndex.getDocument
  rw [← h.documentRows, hsame]
  split_ifs
  · rfl
  · rfl
  · cases hc : documentCandidates R.toReadRuntime.toPlatform w.replica documentId with
    | error e => rfl
    | ok candidates => exact serveFirst_congr (hcandidates candidates hc) false

theorem recordByKey_mem {recordType recordKey : String} {row : ReplicaRecordRow}
    (htype : recordType ≠ "object") (h : recordByKey w recordType recordKey = .ok row) :
    row ∈ publicRows w.replica := by
  unfold ResearchReplica.recordByKey at h
  split_ifs at h
  split at h
  · cases h
  · rename_i found hfound
    obtain rfl := Except.ok.inj h
    have hselected := List.find?_some hfound
    exact List.mem_filter.2 ⟨List.mem_of_find?_eq_some hfound,
      isPublicRow_of_isPublicOf htype (Bool.and_eq_true_iff.1 hselected).1⟩

theorem recordView_eq {row view : ReplicaRecordRow} (h : recordView row = .ok view) : view = row := by
  unfold recordView at h
  split at h
  · exact (Except.ok.inj h).symm
  · cases h

/-- Only the values that are returned have to be treated alike. -/
theorem bind_congr_ok {ε α β : Type} {x : Except ε α} {f g : α → Except ε β}
    (h : ∀ a, x = .ok a → f a = g a) : x >>= f = x >>= g := by
  cases x with
  | error e => rfl
  | ok a => exact h a rfl

theorem Alike.getEvidence (h : Alike w w') (hobjects : ObjectsAlike w w') (evidenceId : String) :
    getEvidence R w evidenceId = getEvidence R w' evidenceId := by
  unfold ResearchReplica.getEvidence
  rw [← h.recordByKey (by decide)]
  refine bind_congr_ok fun row hrow => bind_congr_ok fun view hview => ?_
  obtain rfl := recordView_eq hview
  cases hreference : sourceReference view.payload with
  | none => rfl
  | some reference =>
    have hsame : verifyReference R w reference = verifyReference R w' reference := by
      unfold verifyReference
      rw [h.recordByKey (by decide), hobjects view (recordByKey_mem (by decide) hrow) _
        (.inr ⟨reference, hreference, rfl⟩)]
    simp only [hsame]

/-! ## Semantic search -/

theorem Alike.documentVersions (h : Alike w w') (documentId : String) :
    documentVersions R.toPlatform w.replica documentId =
      documentVersions R.toPlatform w'.replica documentId := by
  unfold SemanticIndex.documentVersions
  rw [h.filter fun row => isPublicRow_of_isVersionOf]

theorem Alike.validateSemanticHit (h : Alike w w') (hobjects : ObjectsAlike w w')
    (hit : Search.MatchMetadata) :
    Search.validateSemanticHit R.toSearchRuntime w.replica w.objects hit =
      Search.validateSemanticHit R.toSearchRuntime w'.replica w'.objects hit := by
  have hcurrent : currentVersionCandidate R.toPlatform w'.replica hit.document_id =
      currentVersionCandidate R.toPlatform w.replica hit.document_id := by
    unfold currentVersionCandidate
    rw [h.documentVersions]
  unfold Search.validateSemanticHit Search.hitRow
  rw [← expiredByRetention_eq h, ← h.semantic, hcurrent]
  cases hc : currentVersionCandidate R.toPlatform w.replica hit.document_id with
  | mk candidate servable =>
    cases candidate with
    | none => rfl
    | some c =>
      have hbody : ∀ row, Search.bodyHit R.toSearchRuntime w.objects row c servable hit.chunk =
          Search.bodyHit R.toSearchRuntime w'.objects row c servable hit.chunk := by
        intro row
        obtain ⟨r, hr, hversion, hpayload⟩ := (Search.isCurrent_of_candidate hc).stored
        have hmem : r ∈ publicRows w.replica :=
          List.mem_filter.2 ⟨hr, isPublicRow_of_isVersionOf hversion⟩
        have hsame : c.payload = r.payload := Search.payload_of_versionCandidate hpayload
        unfold Search.bodyHit
        cases servable with
        | false => rfl
        | true =>
          cases hb : servableBody c.payload with
          | none => simp
          | some body =>
            have hobject := hobjects r hmem body.contentSha256 (.inl ⟨body, hsame ▸ hb, rfl⟩)
            simp only [if_true, hobject]
      simp only [hbody]

theorem Alike.collectHits (h : Alike w w') (hobjects : ObjectsAlike w w') (limit : ℕ)
    (found : List Search.SemanticSearchMatch) (candidates : List Search.SemanticVectorMatch) :
    Search.collectHits R.toSearchRuntime w.replica w.objects limit found candidates =
      Search.collectHits R.toSearchRuntime w'.replica w'.objects limit found candidates := by
  induction candidates generalizing found with
  | nil => rfl
  | cons candidate rest ih =>
    unfold Search.collectHits
    simp only [h.validateSemanticHit hobjects, ih]

theorem Alike.searchDocumentsSemantic (h : Alike w w') (hobjects : ObjectsAlike w w')
    (providers : Search.ProviderAnswers) (query : String) (limit : Option Decimal) :
    Search.searchPublicDocumentsSemantic R.toSearchRuntime w.replica w.objects providers query limit =
      Search.searchPublicDocumentsSemantic R.toSearchRuntime w'.replica w'.objects providers query
        limit := by
  have hstatus : Search.semanticIndexStatus w.replica = Search.semanticIndexStatus w'.replica := by
    unfold Search.semanticIndexStatus Search.activeRows
    rw [h.semantic, funext (expiredByRetention_eq h)]
  unfold Search.searchPublicDocumentsSemantic
  simp only [h.collectHits hobjects, hstatus]

/-! ## All reads -/

/-- Alike worlds with the same objects at the digests that their PUBLIC rows name read alike. -/
theorem Alike.sameReads (h : Alike w w') (hobjects : ObjectsAlike w w') : SameReads R w w' where
  searchDocuments := h.searchDocuments
  getDocument := h.getDocument hobjects
  searchEvidence limit := by
    unfold ResearchReplica.searchEvidence
    rw [h.records (by decide)]
  getEvidence := h.getEvidence hobjects
  getThemeAccumulator := h.getThemeAccumulator
  getCoverageStatus limit := by
    unfold ResearchReplica.getCoverageStatus
    rw [h.records (by decide)]
  getSourceHealth limit := by
    unfold ResearchReplica.getSourceHealth
    rw [h.records (by decide)]
  getMarketSignalState subjectKey := by
    unfold ResearchReplica.getMarketSignalState
    simp only [h.recordByKey (show "market_signal" ≠ "object" by decide)]
  listResearchJobs now limit claimableOnly := by
    unfold ResearchReplica.listResearchJobs
    rw [h.records (by decide), h.jobs]
  getResearchJobContext now jobId := by
    unfold ResearchReplica.getResearchJobContext
    rw [h.recordByKey (by decide), h.jobs]
  searchDocumentsSemantic := h.searchDocumentsSemantic hobjects

end Reads

end QuantproCollector.ResearchReplica
