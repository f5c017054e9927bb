import QuantproCollector.ResearchReplica.Isolation

/-!
# Readable documents

`searchDocuments` marks each version that is servable as readable; `getDocument` serves the first
servable version of a document. The two agree on every document with an id: a document whose id is the
empty text is marked, but `getDocument` refuses the id (`readable_iff`).
-/

namespace QuantproCollector.ResearchReplica

open SemanticIndex Relational

/-- `searchDocuments` before its limit. -/
def unlimitedSearch (R : AdapterRuntime) (w : ReplicaWorld) (query : Option String) :
    Except AdapterError (List ReplicaRecordRow) :=
  let needle := trim (query.getD "")
  let rows := w.replica.records.rows.filter fun row =>
    isPublicOf "document_version" row && (notExpired w row && matchesNeedle R w needle row)
  (rows.insertionSort fun a b => b.updated_at ≤ a.updated_at).mapM documentView

/-- The hit is marked readable. -/
def markedReadable (hit : ReplicaRecordRow) : Prop :=
  (hit.payload.get? "version").bind (·.get? "readable") = some (.bool true)

/-- The id of the document of a row, of any type. -/
def documentIdValue (row : ReplicaRecordRow) : Option Json :=
  (row.payload.get? "document").bind (·.get? "document_id")

/-- The objects of the servable versions of a document are there, with the bytes of their hashes. -/
def ObjectsThere (R : AdapterRuntime) (w : ReplicaWorld) (documentId : String) : Prop :=
  ∀ r ∈ versionRows w.replica documentId, ∀ body ∈ servableBody r.payload,
    ∃ bytes, w.objects (SemanticIndex.objectKey body.contentSha256) = some bytes ∧
      R.digest bytes = body.contentSha256

/-- The read of a document of the adapter. -/
abbrev readDocument (R : AdapterRuntime) (w : ReplicaWorld) (documentId : String) :
    Except AdapterError ResearchDocument :=
  getDocument R.toReadRuntime w.replica w.objects documentId

/-- What is marked readable can be read, and what is read is marked. -/
structure ReadableMeansReadable (R : AdapterRuntime) (w : ReplicaWorld) : Prop where
  limited : ∀ query limit hits, searchDocuments R w query limit = .ok hits →
    ∃ all, unlimitedSearch R w query = .ok all ∧ hits <+: all
  served : ∀ query hits, unlimitedSearch R w query = .ok hits → ∀ hit ∈ hits, markedReadable hit →
    ∃ documentId, documentIdValue hit = some (.str documentId) ∧
      readDocument R w documentId ≠ .error .UNSUPPORTED_OPERATION ∧
      (ObjectsThere R w documentId → ∃ document, readDocument R w documentId = .ok document)
  marked : ∀ documentId document, readDocument R w documentId = .ok document →
    ∃ hits, unlimitedSearch R w none = .ok hits ∧ ∃ hit ∈ hits,
      document.version.get? "version_id" = some (.str hit.record_key) ∧ markedReadable hit

/-- The rows that a search can find: PUBLIC versions of documents that are not EXPIRED. -/
def listedVersion (w : ReplicaWorld) (row : ReplicaRecordRow) : Bool :=
  isPublicOf "document_version" row && notExpired w row

/-- Each servable version that can be found names its document by a text, and not by the empty one
where the objects of such documents are there. -/
def NamedDocuments (R : AdapterRuntime) (w : ReplicaWorld) : Prop :=
  ∀ r ∈ w.replica.records.rows, listedVersion w r = true → isVersionServable r.payload = true →
    ∃ documentId, documentIdValue r = some (.str documentId) ∧
      (documentId = "" → ¬ ObjectsThere R w documentId)

section Views

variable {R : AdapterRuntime} {w : ReplicaWorld}

/-- The view of a row whose version is an object. -/
def viewOf (row : ReplicaRecordRow) : ReplicaRecordRow :=
  { row with
    payload := row.payload.set "version" ((objectField row.payload "version").set "readable"
      (.bool (isVersionServable row.payload))) }

/-- What the key of a stored version says about its payload. -/
theorem stored_fields (hkeyed : KeyedVersions w.replica) {r : ReplicaRecordRow}
    (hr : r ∈ w.replica.records.rows) (htype : isPublicOf "document_version" r = true) :
    ∃ fields version, r.payload = .obj fields ∧ r.payload.get? "version" = some (.obj version) ∧
      (Json.obj version).get? "version_id" = some (.str r.record_key) := by
  obtain ⟨htype, -⟩ := (Bool.and_eq_true _ _).mp htype
  obtain ⟨version, hversion, hid⟩ :=
    Option.bind_eq_some_iff.1 (eq_str_of_stringField (hkeyed r hr (of_decide_eq_true htype)))
  obtain ⟨fields, rfl⟩ := eq_obj_of_get? hid
  obtain ⟨payload, hpayload⟩ := eq_obj_of_get? hversion
  exact ⟨payload, fields, hpayload, hversion, hid⟩

theorem documentView_eq (hkeyed : KeyedVersions w.replica) {r : ReplicaRecordRow}
    (hr : r ∈ w.replica.records.rows) (htype : isPublicOf "document_version" r = true) :
    documentView r = .ok (viewOf r) := by
  obtain ⟨fields, version, hpayload, hversion, -⟩ := stored_fields hkeyed hr htype
  have hview : recordView r = .ok r := by rw [recordView, hpayload]
  have hobject : objectField r.payload "version" = .obj version := by rw [objectField, hversion]
  rw [documentView, hview, viewOf, hobject]
  dsimp only [bind, Except.bind]
  rw [hversion]
  rfl

theorem markedReadable_viewOf (hkeyed : KeyedVersions w.replica) {r : ReplicaRecordRow}
    (hr : r ∈ w.replica.records.rows) (htype : isPublicOf "document_version" r = true) :
    markedReadable (viewOf r) ↔ isVersionServable r.payload = true := by
  obtain ⟨fields, version, hpayload, hversion, -⟩ := stored_fields hkeyed hr htype
  have hobject : objectField r.payload "version" = .obj version := by rw [objectField, hversion]
  have hversion' : (viewOf r).payload.get? "version" = some ((Json.obj version).set "readable"
      (.bool (isVersionServable r.payload))) := by
    rw [viewOf, hobject]
    exact (Json.get?_set ⟨fields, hpayload⟩ _ _ _).trans (if_pos rfl)
  rw [markedReadable, hversion', Option.bind_some, Json.get?_set ⟨version, rfl⟩, if_pos rfl]
  simp

theorem documentIdValue_viewOf (hkeyed : KeyedVersions w.replica) {r : ReplicaRecordRow}
    (hr : r ∈ w.replica.records.rows) (htype : isPublicOf "document_version" r = true) :
    documentIdValue (viewOf r) = documentIdValue r := by
  obtain ⟨fields, -, hpayload, -, -⟩ := stored_fields hkeyed hr htype
  unfold documentIdValue viewOf
  rw [Json.get?_set ⟨fields, hpayload⟩, if_neg (by decide)]

/-- The rows that a search finds, newest first. -/
def foundRows (R : AdapterRuntime) (w : ReplicaWorld) (query : Option String) :
    List ReplicaRecordRow :=
  (w.replica.records.rows.filter fun row => isPublicOf "document_version" row &&
    (notExpired w row && matchesNeedle R w (trim (query.getD "")) row)).insertionSort
    fun a b => b.updated_at ≤ a.updated_at

theorem mem_foundRows {query : Option String} {r : ReplicaRecordRow} :
    r ∈ foundRows R w query ↔ r ∈ w.replica.records.rows ∧ listedVersion w r = true ∧
      matchesNeedle R w (trim (query.getD "")) r = true := by
  simp only [foundRows, List.mem_insertionSort, List.mem_filter, listedVersion, Bool.and_eq_true,
    and_assoc]

theorem isPublicOf_of_listed {r : ReplicaRecordRow} (h : listedVersion w r = true) :
    isPublicOf "document_version" r = true :=
  ((Bool.and_eq_true _ _).mp h).1

theorem unlimitedSearch_eq (hkeyed : KeyedVersions w.replica) (query : Option String) :
    unlimitedSearch R w query = .ok ((foundRows R w query).map viewOf) := by
  refine mapM_eq_ok fun r hr => ?_
  obtain ⟨hr, hlisted, -⟩ := mem_foundRows.1 hr
  exact documentView_eq hkeyed hr (isPublicOf_of_listed hlisted)

theorem searchDocuments_prefix (hkeyed : KeyedVersions w.replica) {query : Option String}
    {limit : Option Decimal} {hits : List ReplicaRecordRow}
    (h : searchDocuments R w query limit = .ok hits) :
    ∃ all, unlimitedSearch R w query = .ok all ∧ hits <+: all := by
  refine ⟨_, unlimitedSearch_eq hkeyed query, ?_⟩
  have hsearch : searchDocuments R w query limit = boundedLimit limit >>= fun n =>
      ((foundRows R w query).take n).mapM documentView := rfl
  rw [hsearch] at h
  cases hlimit : boundedLimit limit with
  | error e =>
    rw [hlimit] at h
    cases h
  | ok n =>
    have hviews : ((foundRows R w query).take n).mapM documentView =
        .ok (((foundRows R w query).take n).map viewOf) := by
      refine mapM_eq_ok fun r hr => ?_
      obtain ⟨hr, hlisted, -⟩ := mem_foundRows.1 (List.mem_of_mem_take hr)
      exact documentView_eq hkeyed hr (isPublicOf_of_listed hlisted)
    rw [hlimit] at h
    obtain rfl := Except.ok.inj (hviews.symm.trans h)
    exact (List.take_prefix n _).map viewOf

end Views

/-! ## The detail face -/

section Detail

variable {R : AdapterRuntime} {w : ReplicaWorld} {documentId : String}

/-- A version that can be found is one of the rows that `getDocument` selects. -/
theorem mem_versionRows {r : ReplicaRecordRow} (hr : r ∈ w.replica.records.rows)
    (hid : documentIdValue r = some (.str documentId)) (hlisted : listedVersion w r = true) :
    r ∈ versionRows w.replica documentId ∧ expiredByRetention w.replica documentId = false := by
  obtain ⟨hpublic, hlive⟩ := (Bool.and_eq_true _ _).mp hlisted
  obtain ⟨htype, hvisible⟩ := (Bool.and_eq_true _ _).mp hpublic
  have hvalue : (r.payload.get? "document").bind (·.get? "document_id") = some (.str documentId) := hid
  constructor
  · refine List.mem_filter.2 ⟨hr, ?_⟩
    rw [ReplicaRecordRow.isVersionOf, hvalue]
    simp [of_decide_eq_true htype, of_decide_eq_true hvisible, Json.str?]
  · rw [notExpired, hvalue] at hlive
    simpa [Json.str?] using hlive

theorem listed_of_versionRows {r : ReplicaRecordRow} (hr : r ∈ versionRows w.replica documentId)
    (hlive : expiredByRetention w.replica documentId = false) :
    r ∈ w.replica.records.rows ∧ listedVersion w r = true := by
  obtain ⟨hr, hversion⟩ := List.mem_filter.1 hr
  refine ⟨hr, ?_⟩
  simp only [ReplicaRecordRow.isVersionOf, Bool.and_eq_true, decide_eq_true_eq,
    Option.any_eq_true] at hversion
  obtain ⟨⟨htype, hvisible⟩, id, hid, hstr⟩ := hversion
  simp [listedVersion, isPublicOf, htype, hvisible, notExpired, hid, hstr, hlive]

/-- Where a document that is not EXPIRED has a version, its candidates are its versions. -/
theorem readDocument_eq (hkeyed : KeyedVersions w.replica) (hne : documentId ≠ "")
    (hlive : expiredByRetention w.replica documentId = false) {r : ReplicaRecordRow}
    (hr : r ∈ versionRows w.replica documentId) :
    ∃ candidates, readDocument R w documentId =
        serveFirst R.toReadRuntime w.objects false candidates ∧
      ∀ c, c ∈ candidates ↔ ∃ r ∈ versionRows w.replica documentId, readCandidate r = c := by
  have hcandidates := documentCandidates_eq (P := R.toReadRuntime.toPlatform) hkeyed hlive
  refine ⟨((versionRows w.replica documentId).insertionSort fun a b => notAfter
    R.toReadRuntime.toPlatform (readCandidate a) (readCandidate b) = true).map readCandidate, ?_,
    fun c => ?_⟩
  · have hrows : documentRows w.replica documentId = versionRows w.replica documentId := by
      simp [documentRows, versionRows, hlive]
    have hnonempty : (documentRows w.replica documentId).isEmpty = false := by
      rw [hrows]
      exact List.isEmpty_eq_false_iff.2 (List.ne_nil_of_mem hr)
    rw [readDocument, getDocument, if_neg hne, hnonempty, hcandidates]
    rfl
  · simp only [List.mem_map, List.mem_insertionSort]

/-- What is served is a candidate with a body. -/
theorem served_candidate {Q : ReadRuntime} {objects : String → Option (List UInt8)}
    {candidates : List DocumentCandidate} {sawServable : Bool} {document : ResearchDocument}
    (h : serveFirst Q objects sawServable candidates = .ok document) :
    ∃ c ∈ candidates, isVersionServable c.row.payload = true ∧
      document.version = c.version.set "readable" (.bool true) := by
  induction candidates generalizing sawServable with
  | nil => cases h
  | cons c rest ih =>
    have hlater : (∃ d ∈ rest, isVersionServable d.row.payload = true ∧
        document.version = d.version.set "readable" (.bool true)) →
        ∃ d ∈ c :: rest, isVersionServable d.row.payload = true ∧
          document.version = d.version.set "readable" (.bool true) :=
      fun ⟨d, hd, hserved⟩ => ⟨d, List.mem_cons_of_mem c hd, hserved⟩
    unfold serveFirst at h
    split at h
    · exact hlater (ih h)
    · rename_i body hbody
      split at h
      · exact hlater (ih h)
      · split_ifs at h
        obtain rfl := Except.ok.inj h
        exact ⟨c, List.mem_cons_self, by rw [isVersionServable, hbody]; rfl, rfl⟩

/-- A document with a servable version is served where its objects are there, and never called
unsupported. -/
theorem readDocument_of_servable (hkeyed : KeyedVersions w.replica) (hne : documentId ≠ "")
    (hlive : expiredByRetention w.replica documentId = false) {r : ReplicaRecordRow}
    (hr : r ∈ versionRows w.replica documentId) (hservable : isVersionServable r.payload = true) :
    readDocument R w documentId ≠ .error .UNSUPPORTED_OPERATION ∧
      (ObjectsThere R w documentId → ∃ document, readDocument R w documentId = .ok document) := by
  obtain ⟨candidates, hread, hmem⟩ := readDocument_eq (R := R) hkeyed hne hlive hr
  rw [hread]
  cases hfind : candidates.find? (isVersionServable ·.row.payload) with
  | none =>
    have hnone := List.find?_eq_none.1 hfind (readCandidate r) ((hmem _).2 ⟨r, hr, rfl⟩)
    exact absurd hservable hnone
  | some c =>
    refine ⟨fun hunsupported => ?_, fun hobjects => ?_⟩
    · rw [(serveFirst_unsupported_iff _ _ _).1 hunsupported] at hfind
      cases hfind
    · obtain ⟨r', hr', rfl⟩ := (hmem c).1 (List.mem_of_find?_eq_some hfind)
      have hfirst : isVersionServable (readCandidate r').row.payload = true := by
        have hfound := List.find?_some hfind
        exact hfound
      obtain ⟨body, hbody⟩ := Option.isSome_iff_exists.1 hfirst
      obtain ⟨bytes, hbytes, hdigest⟩ := hobjects r' hr' body hbody
      exact ⟨_, serveFirst_of_find? hfind hbody hbytes hdigest false⟩

end Detail

theorem readDocument_empty (R : AdapterRuntime) (w : ReplicaWorld) :
    readDocument R w "" = .error .INTEGRITY_FAILED := rfl

/-- What is read is the document of a version that can be found. -/
theorem read_version {R : AdapterRuntime} {w : ReplicaWorld} (hkeyed : KeyedVersions w.replica)
    {documentId : String} {document : ResearchDocument}
    (h : readDocument R w documentId = .ok document) :
    ∃ r ∈ w.replica.records.rows, listedVersion w r = true ∧
      isVersionServable r.payload = true ∧
      document.version.get? "version_id" = some (.str r.record_key) := by
  have hne : documentId ≠ "" := by
    rintro rfl
    rw [readDocument_empty] at h
    cases h
  have hrows : ∃ r, r ∈ documentRows w.replica documentId := by
    by_contra hnone
    have hempty : documentRows w.replica documentId = [] :=
      List.eq_nil_iff_forall_not_mem.2 fun r hr => hnone ⟨r, hr⟩
    rw [readDocument, getDocument, if_neg hne, hempty] at h
    cases h
  obtain ⟨r, hr⟩ := hrows
  obtain ⟨hr, hselected⟩ := List.mem_filter.1 hr
  obtain ⟨hversion, hlive⟩ := (Bool.and_eq_true _ _).mp hselected
  have hlive : expiredByRetention w.replica documentId = false := by simpa using hlive
  obtain ⟨candidates, hread, hmem⟩ :=
    readDocument_eq (R := R) hkeyed hne hlive (List.mem_filter.2 ⟨hr, hversion⟩)
  obtain ⟨c, hc, hservable, hdocument⟩ := served_candidate (hread.symm.trans h)
  obtain ⟨r', hr', rfl⟩ := (hmem c).1 hc
  obtain ⟨hstored, hlisted⟩ := listed_of_versionRows hr' hlive
  refine ⟨r', hstored, hlisted, hservable, ?_⟩
  obtain ⟨-, version, -, hversion, hid⟩ := stored_fields hkeyed hstored (isPublicOf_of_listed hlisted)
  have hobject : (readCandidate r').version = .obj version := by
    rw [readCandidate, objectField, hversion]
  rw [hdocument, hobject, Json.get?_set ⟨version, rfl⟩, if_neg (by decide), hid]

theorem mem_foundRows_none {R : AdapterRuntime} {w : ReplicaWorld} {r : ReplicaRecordRow}
    (hr : r ∈ w.replica.records.rows) (hlisted : listedVersion w r = true) :
    r ∈ foundRows R w none := by
  refine mem_foundRows.2 ⟨hr, hlisted, ?_⟩
  have hempty : trim ((none : Option String).getD "") = "" := by decide
  rw [hempty]
  rfl

theorem ReadableMeansReadable.named {R : AdapterRuntime} {w : ReplicaWorld}
    (hkeyed : KeyedVersions w.replica) (h : ReadableMeansReadable R w) : NamedDocuments R w := by
  intro r hr hlisted hservable
  have hpublic := isPublicOf_of_listed hlisted
  obtain ⟨documentId, hid, -, hserved⟩ := h.served none _ (unlimitedSearch_eq hkeyed none) (viewOf r)
    (List.mem_map_of_mem (mem_foundRows_none hr hlisted))
    ((markedReadable_viewOf hkeyed hr hpublic).2 hservable)
  refine ⟨documentId, (documentIdValue_viewOf hkeyed hr hpublic).symm.trans hid, ?_⟩
  rintro rfl hobjects
  obtain ⟨document, hread⟩ := hserved hobjects
  rw [readDocument_empty] at hread
  cases hread

/-- The two faces agree exactly where the servable versions name their documents. -/
theorem readable_iff (R : AdapterRuntime) {w : ReplicaWorld} (hkeyed : KeyedVersions w.replica) :
    ReadableMeansReadable R w ↔ NamedDocuments R w := by
  refine ⟨ReadableMeansReadable.named hkeyed, fun h => ?_⟩
  refine ⟨fun _ _ _ hsearch => searchDocuments_prefix hkeyed hsearch, ?_, ?_⟩
  · intro query hits hhits hit hhit hmarked
    obtain rfl := Except.ok.inj ((unlimitedSearch_eq hkeyed query).symm.trans hhits)
    obtain ⟨r, hfound, rfl⟩ := List.mem_map.1 hhit
    obtain ⟨hr, hlisted, -⟩ := mem_foundRows.1 hfound
    have hpublic := isPublicOf_of_listed hlisted
    have hservable := (markedReadable_viewOf hkeyed hr hpublic).1 hmarked
    obtain ⟨documentId, hid, hempty⟩ := h r hr hlisted hservable
    refine ⟨documentId, (documentIdValue_viewOf hkeyed hr hpublic).trans hid, ?_⟩
    by_cases hne : documentId = ""
    · subst hne
      refine ⟨fun hunsupported => ?_, fun hobjects => absurd hobjects (hempty rfl)⟩
      rw [readDocument_empty] at hunsupported
      cases hunsupported
    · obtain ⟨hrows, hlive⟩ := mem_versionRows hr hid hlisted
      exact readDocument_of_servable hkeyed hne hlive hrows hservable
  · intro documentId document hread
    obtain ⟨r, hr, hlisted, hservable, hversion⟩ := read_version hkeyed hread
    exact ⟨_, unlimitedSearch_eq hkeyed none, viewOf r,
      List.mem_map_of_mem (mem_foundRows_none hr hlisted), hversion,
      (markedReadable_viewOf hkeyed hr (isPublicOf_of_listed hlisted)).2 hservable⟩

/-! A version of a document without an id. -/

/-- The version, its body and the id of its document. -/
def namedRow (documentId : String) : ReplicaRecordRow where
  record_type := "document_version"
  record_key := "v1"
  message_id := "outbound_1"
  visibility := .PUBLIC
  schema_version := "collector-outbound-v4"
  payload := .obj [("document", .obj [("document_id", .str documentId)]),
    ("version", .obj [("version_id", .str "v1"), ("media_type", .str "text/plain"),
      ("content_sha256", .str "7692c3ad3540bb803c020b3aee66cd8887123234ea0c6e7143c0add73ff431ed")]),
    ("attachments", .arr [])]
  generated_at := none
  updated_at := "2026-10-03T00:00:00.000Z"

def namedWorld (documentId : String) : ReplicaWorld where
  replica := { Replica.empty with
    records := Table.empty.upsert (namedRow documentId) id recordKey_id }
  objects := Search.searchObjects
  fts := []
  jobs := ⟨[], [], []⟩

theorem keyedVersions_namedWorld (documentId : String) :
    KeyedVersions (namedWorld documentId).replica := by
  intro r hr _
  obtain rfl := List.mem_singleton.1 (show r ∈ [namedRow documentId] from hr)
  rfl

theorem readable_iff_named :
    ReadableMeansReadable adapterRuntime (namedWorld "doc-1") ↔
      NamedDocuments adapterRuntime (namedWorld "doc-1") :=
  readable_iff adapterRuntime (keyedVersions_namedWorld "doc-1")

/-- The version is marked readable and its body is there, but no call of `getDocument` serves it. -/
theorem readable_unserved : ¬ ReadableMeansReadable adapterRuntime (namedWorld "") := by
  intro h
  obtain ⟨documentId, hid, hempty⟩ := h.named (keyedVersions_namedWorld "") (namedRow "")
    (List.mem_singleton_self _) (by decide) (by decide)
  obtain rfl : "" = documentId := by
    have hvalue : documentIdValue (namedRow "") = some (.str "") := rfl
    exact Json.str.inj (Option.some.inj (hvalue.symm.trans hid))
  refine hempty rfl fun r hr body hbody => ?_
  obtain rfl := List.mem_singleton.1 (List.mem_of_mem_filter hr)
  have hown : servableBody (namedRow "").payload = some ⟨.own,
      "7692c3ad3540bb803c020b3aee66cd8887123234ea0c6e7143c0add73ff431ed"⟩ := by decide
  obtain rfl := Option.some.inj (hown.symm.trans hbody)
  exact ⟨[111, 110, 101], by decide, by decide⟩

end QuantproCollector.ResearchReplica
