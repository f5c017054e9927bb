import QuantproCollector.Lib.FirstSorted
import QuantproCollector.Lib.JsonUpdate
import QuantproCollector.SemanticIndex.Currency
import QuantproCollector.SemanticIndex.Push

/-!
# Documents

`getDocument`: the stored versions of a document, in the order in which it tries to serve them, and the
first of them whose body is there. The order puts no version without a usable number before another
one, so two such versions stay as they are stored; the search path orders them by their ids
(`read_faces_agree`).
-/

namespace QuantproCollector.SemanticIndex

open Relational

/-- What the read face takes from its runtime beyond the platform. -/
structure ReadRuntime extends Platform where
  /-- The SHA-256 digest of the bytes of an object. -/
  digest : List UInt8 → String
  /-- `new TextDecoder().decode(bytes)`. -/
  decode : List UInt8 → String

inductive ReadError where
  | NOT_FOUND
  | INTEGRITY_FAILED
  | UNSUPPORTED_OPERATION
  | STORE_UNAVAILABLE
deriving DecidableEq

def objectKey (contentSha256 : String) : String :=
  "research-objects/sha256/" ++ contentSha256

/-! ## Candidates -/

structure DocumentCandidate where
  row : ReplicaRecordRow
  version : Json

def documentCandidate (documentId : String) (row : ReplicaRecordRow) :
    Except ReadError DocumentCandidate :=
  match row.payload with
  | .obj fields =>
    let document := (Json.obj fields).get? "document"
    let version := (Json.obj fields).get? "version"
    if Push.truthyValue document && Push.truthyValue version &&
        decide ((document.bind (·.get? "document_id")).bind Json.str? = some documentId) then
      .ok ⟨row, version.getD .null⟩
    else .error .INTEGRITY_FAILED
  | _ => .error .INTEGRITY_FAILED

/-- The comparator does not put `b` before `a`. The difference of two versions without a usable number
is `NaN`: it is not zero, so the keys are not compared, and a comparator's `NaN` counts as zero. -/
def notAfter (P : Platform) (a b : DocumentCandidate) : Bool :=
  let left := versionNumber P a.version
  let right := versionNumber P b.version
  if left = ⊥ ∧ right = ⊥ then true
  else if right ≠ left then decide (right < left)
  else Utf16.le (Utf16.units a.row.record_key) (Utf16.units b.row.record_key)

/-- The rows that `getDocument` selects. -/
def documentRows (s : Replica) (documentId : String) : List ReplicaRecordRow :=
  s.records.rows.filter fun r => r.isVersionOf documentId && !expiredByRetention s documentId

def documentCandidates (P : Platform) (s : Replica) (documentId : String) :
    Except ReadError (List DocumentCandidate) := do
  let candidates ← (documentRows s documentId).mapM (documentCandidate documentId)
  return candidates.insertionSort fun a b => notAfter P a b = true

/-! ## The document -/

structure ResearchDocument where
  document : Json
  version : Json
  attachments : Option Json
  body_text : String
  body_source : BodySource

/-- The document of a candidate, with the bytes of its body. -/
def servedDocument (R : ReadRuntime) (c : DocumentCandidate) (body : ServableBody)
    (bytes : List UInt8) : ResearchDocument where
  document := (c.row.payload.get? "document").getD .null
  version := c.version.set "readable" (.bool true)
  attachments := c.row.payload.get? "attachments"
  body_text := R.decode bytes
  body_source := body.bodySource

/-- The loop over the candidates: one whose object is missing is passed over. -/
def serveFirst (R : ReadRuntime) (objects : String → Option (List UInt8)) :
    Bool → List DocumentCandidate → Except ReadError ResearchDocument
  | sawServable, [] => .error (if sawServable then .STORE_UNAVAILABLE else .UNSUPPORTED_OPERATION)
  | sawServable, c :: rest =>
    match servableBody c.row.payload with
    | none => serveFirst R objects sawServable rest
    | some body =>
      match objects (objectKey body.contentSha256) with
      | none => serveFirst R objects true rest
      | some bytes =>
        if R.digest bytes ≠ body.contentSha256 then .error .INTEGRITY_FAILED
        else .ok (servedDocument R c body bytes)

def getDocument (R : ReadRuntime) (s : Replica) (objects : String → Option (List UInt8))
    (documentId : String) : Except ReadError ResearchDocument :=
  if documentId = "" then .error .INTEGRITY_FAILED
  else if (documentRows s documentId).isEmpty then .error .NOT_FOUND
  else do
    let candidates ← documentCandidates R.toPlatform s documentId
    serveFirst R objects false candidates

/-- The version that `getDocument` tries to serve first. -/
def triedFirst (P : Platform) (s : Replica) (documentId : String) : Option String :=
  match documentCandidates P s documentId with
  | .ok candidates =>
    (candidates.find? (isVersionServable ·.row.payload)).map (·.row.record_key)
  | .error _ => none

/-- No candidate is servable where `getDocument` says that none is. -/
theorem serveFirst_unsupported_iff (R : ReadRuntime) (objects : String → Option (List UInt8))
    (candidates : List DocumentCandidate) :
    serveFirst R objects false candidates = .error .UNSUPPORTED_OPERATION ↔
      candidates.find? (isVersionServable ·.row.payload) = none := by
  have hseen : ∀ candidates : List DocumentCandidate,
      serveFirst R objects true candidates ≠ .error .UNSUPPORTED_OPERATION := by
    intro candidates
    induction candidates with
    | nil => simp [serveFirst]
    | cons c rest ih =>
      unfold serveFirst
      split
      · exact ih
      · split
        · exact ih
        · split_ifs
          · exact nofun
          · exact nofun
  induction candidates with
  | nil => simp [serveFirst]
  | cons c rest ih =>
    rw [List.find?_cons]
    unfold serveFirst
    cases hbody : servableBody c.row.payload with
    | none => simpa [isVersionServable, hbody] using ih
    | some body =>
      simp only [isVersionServable, hbody, Option.isSome_some, reduceCtorEq, iff_false]
      split
      · exact hseen rest
      · split_ifs
        · exact nofun
        · exact nofun

/-- The first servable candidate is served where its object is there and unharmed. -/
theorem serveFirst_of_find? {R : ReadRuntime} {objects : String → Option (List UInt8)}
    {candidates : List DocumentCandidate} {c : DocumentCandidate} {body : ServableBody}
    {bytes : List UInt8} (hc : candidates.find? (isVersionServable ·.row.payload) = some c)
    (hbody : servableBody c.row.payload = some body)
    (hobject : objects (objectKey body.contentSha256) = some bytes)
    (hdigest : R.digest bytes = body.contentSha256) (sawServable : Bool) :
    serveFirst R objects sawServable candidates = .ok (servedDocument R c body bytes) := by
  induction candidates with
  | nil => cases hc
  | cons a rest ih =>
    rw [List.find?_cons] at hc
    unfold serveFirst
    cases ha : servableBody a.row.payload with
    | none =>
      simp only [isVersionServable, ha, Option.isSome_none] at hc
      exact ih hc
    | some other =>
      simp only [isVersionServable, ha, Option.isSome_some, Option.some.injEq] at hc
      subst hc
      obtain rfl := Option.some.inj (ha.symm.trans hbody)
      simp only [hobject, hdigest, ne_eq, not_true_eq_false, if_false]

/-! ## Stored versions -/

/-- A stored version has the id that is its key. -/
def KeyedVersions (s : Replica) : Prop :=
  ∀ r ∈ s.records, r.record_type = "document_version" →
    stringField ((r.payload.get? "version").bind (·.get? "version_id")) = some r.record_key

theorem keyedVersions_empty : KeyedVersions .empty :=
  fun r hr => absurd hr (Table.not_mem_empty r)

theorem keyedVersions_ingest (P : Platform) {s : Replica} (h : KeyedVersions s)
    (record : OutboundV2Record) (now : String) :
    KeyedVersions (ingestResearchReplicaRecord P s record now).2 := by
  unfold ingestResearchReplicaRecord
  cases hkey : outboundV2RecordKey record with
  | none => exact h
  | some key =>
    dsimp only
    split_ifs
    · exact h
    · have hrecord : record.record_type = "document_version" →
          stringField ((record.payload.get? "version").bind (·.get? "version_id")) = some key := by
        intro htype
        rw [← hkey, outboundV2RecordKey, htype]
        rfl
      intro r hr htype
      rcases record_of_ingestBatch hr with ⟨hr, -⟩ | ⟨hk, hown⟩
      · exact h r hr htype
      · have hrtype : record.record_type = "document_version" := (congrArg Prod.fst hk).symm.trans htype
        have hname : r.record_key = key := congrArg Prod.snd hk
        rw [(hown (by rw [hrtype]; decide)).1, hname]
        exact hrecord hrtype

/-- The rows of a document's versions, as they are stored. -/
def versionRows (s : Replica) (documentId : String) : List ReplicaRecordRow :=
  s.records.rows.filter (·.isVersionOf documentId)

def servableRow (r : ReplicaRecordRow) : Bool :=
  isVersionServable r.payload

/-- The version number of a row, negative infinity where it has no usable one. -/
def rowNumber (P : Platform) (r : ReplicaRecordRow) : WithBot ℚ :=
  versionNumber P (objectField r.payload "version")

/-- The candidate of a row in `getDocument`. -/
def readCandidate (r : ReplicaRecordRow) : DocumentCandidate :=
  ⟨r, objectField r.payload "version"⟩

/-- The candidate of a row in the search path. -/
def searchCandidate (r : ReplicaRecordRow) : VersionCandidate :=
  ⟨r.record_key, r.payload, objectField r.payload "version", objectField r.payload "document"⟩

theorem notAfter_iff {P : Platform} {a b : ReplicaRecordRow} :
    notAfter P (readCandidate a) (readCandidate b) = true ↔
      rowNumber P a = ⊥ ∧ rowNumber P b = ⊥ ∨
        precedes P (searchCandidate a) (searchCandidate b) = true := by
  rw [precedes_iff]
  simp only [notAfter]
  change (if rowNumber P a = ⊥ ∧ rowNumber P b = ⊥ then true
    else if rowNumber P b ≠ rowNumber P a then decide (rowNumber P b < rowNumber P a)
    else Utf16.le (Utf16.units a.record_key) (Utf16.units b.record_key)) = true ↔
      rowNumber P a = ⊥ ∧ rowNumber P b = ⊥ ∨ rowNumber P b < rowNumber P a ∨
        rowNumber P b = rowNumber P a ∧
          Utf16.le (Utf16.units a.record_key) (Utf16.units b.record_key) = true
  split_ifs with hnone hne
  · simp [hnone]
  · simp [hnone, hne]
  · have heq := not_not.1 hne
    have ha : rowNumber P a ≠ ⊥ := fun h => hnone ⟨h, heq.trans h⟩
    simp [ha, heq]

section Rows

variable {P : Platform} {s : Replica} {documentId : String}

theorem eq_obj_of_get? {v w : Json} {k : String} (h : v.get? k = some w) : ∃ fields, v = .obj fields := by
  cases v with
  | obj fields => exact ⟨fields, rfl⟩
  | _ => cases h

theorem eq_str_of_stringField {v : Option Json} {t : String} (h : stringField v = some t) :
    v = some (.str t) := by
  unfold stringField at h
  split at h
  · split_ifs at h
    rw [Option.some.inj h]
  · cases h

/-- What the selection and the key of a stored version say about its payload. -/
theorem version_fields {r : ReplicaRecordRow} (hkeyed : KeyedVersions s) (hr : r ∈ s.records)
    (hversion : r.isVersionOf documentId = true) :
    ∃ fields document version, r.payload = .obj fields ∧
      r.payload.get? "document" = some (.obj document) ∧
      (Json.obj document).get? "document_id" = some (.str documentId) ∧
      r.payload.get? "version" = some (.obj version) ∧
      (Json.obj version).get? "version_id" = some (.str r.record_key) := by
  simp only [ReplicaRecordRow.isVersionOf, Bool.and_eq_true, decide_eq_true_eq,
    Option.any_eq_true] at hversion
  obtain ⟨⟨htype, -⟩, id, hid, hstr⟩ := hversion
  obtain ⟨document, hdocument, hdocumentId⟩ := Option.bind_eq_some_iff.1 hid
  obtain ⟨documentFields, rfl⟩ := eq_obj_of_get? hdocumentId
  obtain ⟨fields, hpayload⟩ := eq_obj_of_get? hdocument
  obtain ⟨version, hversion, hversionId⟩ :=
    Option.bind_eq_some_iff.1 (eq_str_of_stringField (hkeyed r hr htype))
  obtain ⟨versionFields, rfl⟩ := eq_obj_of_get? hversionId
  have hid : id = .str documentId := by
    cases id with
    | str t => exact congrArg Json.str (by simpa [Json.str?] using hstr)
    | _ => simp [Json.str?] at hstr
  exact ⟨fields, documentFields, versionFields, hpayload, hdocument, hid ▸ hdocumentId, hversion,
    hversionId⟩

theorem documentCandidate_ok {r : ReplicaRecordRow} (hkeyed : KeyedVersions s) (hr : r ∈ s.records)
    (hversion : r.isVersionOf documentId = true) :
    documentCandidate documentId r = .ok (readCandidate r) := by
  obtain ⟨fields, document, version, hpayload, hdocument, hid, hv, -⟩ :=
    version_fields hkeyed hr hversion
  rw [hpayload] at hdocument hv
  unfold documentCandidate readCandidate objectField
  rw [hpayload]
  simp only [hdocument, hv, Push.truthyValue, Option.bind_some, hid, Json.str?, decide_true,
    Bool.and_self, if_true, Option.getD_some]

theorem versionCandidate_ok {r : ReplicaRecordRow} (hkeyed : KeyedVersions s) (hr : r ∈ s.records)
    (hversion : r.isVersionOf documentId = true) :
    versionCandidate r.payload = some (searchCandidate r) := by
  obtain ⟨fields, document, version, hpayload, -, -, hv, hid⟩ := version_fields hkeyed hr hversion
  have hobject : objectField r.payload "version" = .obj version := by
    unfold objectField
    rw [hv]
  unfold versionCandidate searchCandidate
  rw [hobject]
  split
  · rw [hid]
  · rename_i hne
    exact absurd hpayload (hne fields)

theorem mapM_eq_ok {ε α β : Type} {f : α → Except ε β} {g : α → β} {l : List α}
    (h : ∀ a ∈ l, f a = .ok (g a)) : l.mapM f = .ok (l.map g) := by
  induction l with
  | nil => rfl
  | cons a l ih =>
    rw [List.mapM_cons, h a List.mem_cons_self, ih fun b hb => h b (List.mem_cons_of_mem a hb)]
    rfl

theorem documentCandidates_eq (hkeyed : KeyedVersions s) (hlive : expiredByRetention s documentId = false) :
    documentCandidates P s documentId = .ok (((versionRows s documentId).insertionSort fun a b =>
      notAfter P (readCandidate a) (readCandidate b) = true).map readCandidate) := by
  have hrows : documentRows s documentId = versionRows s documentId := by
    simp [documentRows, versionRows, hlive]
  have hmap : (documentRows s documentId).mapM (documentCandidate documentId) =
      .ok ((documentRows s documentId).map readCandidate) := by
    refine mapM_eq_ok fun r hr => ?_
    rw [hrows] at hr
    exact documentCandidate_ok hkeyed (List.mem_of_mem_filter hr) (List.mem_filter.1 hr).2
  rw [documentCandidates, hmap, hrows]
  exact congrArg Except.ok (List.map_insertionSort (r := fun a b =>
    notAfter P (readCandidate a) (readCandidate b) = true) _ readCandidate _
      fun _ _ _ _ => Iff.rfl).symm

theorem documentVersions_eq (hkeyed : KeyedVersions s) :
    documentVersions P s documentId = ((versionRows s documentId).insertionSort fun a b =>
      precedes P (searchCandidate a) (searchCandidate b) = true).map searchCandidate := by
  have hmap : (versionRows s documentId).filterMap (versionCandidate ·.payload) =
      (versionRows s documentId).map searchCandidate := by
    rw [← List.filterMap_eq_map]
    refine List.filterMap_congr fun r hr => ?_
    exact versionCandidate_ok hkeyed (List.mem_of_mem_filter hr) (List.mem_filter.1 hr).2
  change versionOrdering P ((versionRows s documentId).filterMap (versionCandidate ·.payload)) = _
  rw [hmap]
  exact (List.map_insertionSort (r := fun a b =>
    precedes P (searchCandidate a) (searchCandidate b) = true) _ searchCandidate _
      fun _ _ _ _ => Iff.rfl).symm

/-- The row that `getDocument` tries to serve first. -/
theorem triedFirst_eq (hkeyed : KeyedVersions s) (hlive : expiredByRetention s documentId = false) :
    triedFirst P s documentId = (((versionRows s documentId).insertionSort fun a b =>
      notAfter P (readCandidate a) (readCandidate b) = true).find? servableRow).map (·.record_key) := by
  rw [triedFirst, documentCandidates_eq hkeyed hlive]
  dsimp only
  rw [List.find?_map, Option.map_map]
  rfl

/-- The row that the search path takes for current. -/
theorem searchFirst_eq (hkeyed : KeyedVersions s) :
    (documentVersions P s documentId).find? (isVersionServable ·.payload) =
      (((versionRows s documentId).insertionSort fun a b =>
        precedes P (searchCandidate a) (searchCandidate b) = true).find? servableRow).map
          searchCandidate := by
  rw [documentVersions_eq hkeyed, List.find?_map]
  rfl

theorem notAfter_total (P : Platform) (a b : ReplicaRecordRow) :
    notAfter P (readCandidate a) (readCandidate b) = true ∨
      notAfter P (readCandidate b) (readCandidate a) = true := by
  simp only [notAfter_iff]
  exact (precedes_total P (searchCandidate a) (searchCandidate b)).imp .inr .inr

theorem notAfter_trans (P : Platform) (a b c : ReplicaRecordRow)
    (hab : notAfter P (readCandidate a) (readCandidate b) = true)
    (hbc : notAfter P (readCandidate b) (readCandidate c) = true) :
    notAfter P (readCandidate a) (readCandidate c) = true := by
  have hbot : ∀ {x y : ReplicaRecordRow}, rowNumber P x = ⊥ →
      precedes P (searchCandidate x) (searchCandidate y) = true → rowNumber P y = ⊥ := by
    intro x y hx h
    rcases precedes_iff.1 h with h | ⟨h, -⟩
    · exact absurd (hx ▸ h : rowNumber P y < ⊥) not_lt_bot
    · exact h.trans hx
  rw [notAfter_iff] at hab hbc ⊢
  rcases hab with ⟨ha, hb⟩ | hab
  · rcases hbc with ⟨-, hc⟩ | hbc
    · exact .inl ⟨ha, hc⟩
    · exact .inl ⟨ha, hbot hb hbc⟩
  · rcases hbc with ⟨hb, hc⟩ | hbc
    · rcases precedes_iff.1 hab with h | ⟨h, -⟩
      · refine .inr (precedes_iff.2 (.inl ?_))
        change rowNumber P c < rowNumber P a
        rw [hc, ← hb]
        exact h
      · exact .inl ⟨h.symm.trans hb, hc⟩
    · exact .inr (precedes_trans hab hbc)

/-- A servable version has a usable number. -/
def Numbered (P : Platform) (s : Replica) (documentId : String) : Prop :=
  ∃ r ∈ versionRows s documentId, servableRow r = true ∧ rowNumber P r ≠ ⊥

/-- At most one version is servable. -/
def OneServable (s : Replica) (documentId : String) : Prop :=
  ∀ a ∈ versionRows s documentId, ∀ b ∈ versionRows s documentId, servableRow a = true →
    servableRow b = true → a = b

/-- The two read faces agree on the version that comes first. -/
structure FacesAgree (P : Platform) (s : Replica) (documentId : String) : Prop where
  none_iff : triedFirst P s documentId = none ↔
    (currentVersionCandidate P s documentId).servable = false
  same : ∀ versionId, triedFirst P s documentId = some versionId →
    (currentVersionCandidate P s documentId).candidate.map (·.versionId) = some versionId

/-- What the search path takes for current, in terms of its first servable version. -/
theorem current_cases (P : Platform) (s : Replica) (documentId : String) :
    (∃ c, (documentVersions P s documentId).find? (isVersionServable ·.payload) = some c ∧
        currentVersionCandidate P s documentId = ⟨some c, true⟩) ∨
      (documentVersions P s documentId).find? (isVersionServable ·.payload) = none ∧
        (currentVersionCandidate P s documentId).servable = false := by
  unfold currentVersionCandidate
  cases h : (documentVersions P s documentId).find? (isVersionServable ·.payload) with
  | some c => exact .inl ⟨c, rfl, by simp only [h]⟩
  | none => exact .inr ⟨rfl, by simp only [h]⟩

theorem none_iff_servable (hkeyed : KeyedVersions s)
    (hlive : expiredByRetention s documentId = false) :
    triedFirst P s documentId = none ↔
      (currentVersionCandidate P s documentId).servable = false := by
  have hsorts : triedFirst P s documentId = none ↔
      (documentVersions P s documentId).find? (isVersionServable ·.payload) = none := by
    rw [triedFirst_eq hkeyed hlive, searchFirst_eq hkeyed, Option.map_eq_none_iff,
      Option.map_eq_none_iff, List.find?_insertionSort_eq_none, List.find?_insertionSort_eq_none]
  rw [hsorts]
  rcases current_cases P s documentId with ⟨c, hc, hcurrent⟩ | ⟨hnone, hservable⟩
  · simp [hc, hcurrent]
  · simp [hnone, hservable]

/-- The row that the search path takes for current precedes every servable one. -/
theorem search_precedes {c : ReplicaRecordRow}
    (hc : ((versionRows s documentId).insertionSort fun a b =>
      precedes P (searchCandidate a) (searchCandidate b) = true).find? servableRow = some c) :
    ∀ b ∈ versionRows s documentId, servableRow b = true →
      precedes P (searchCandidate c) (searchCandidate b) = true :=
  List.rel_of_find? (r := fun a b => precedes P (searchCandidate a) (searchCandidate b) = true)
    (fun _ _ => precedes_total P _ _) (fun _ _ _ => precedes_trans) hc

theorem facesAgree_of_first (hkeyed : KeyedVersions s)
    (hlive : expiredByRetention s documentId = false)
    (h : ∀ a c, ((versionRows s documentId).insertionSort fun a b =>
        notAfter P (readCandidate a) (readCandidate b) = true).find? servableRow = some a →
      ((versionRows s documentId).insertionSort fun a b =>
        precedes P (searchCandidate a) (searchCandidate b) = true).find? servableRow = some c →
      a.record_key = c.record_key) : FacesAgree P s documentId := by
  refine ⟨none_iff_servable hkeyed hlive, fun versionId htried => ?_⟩
  rw [triedFirst_eq hkeyed hlive] at htried
  obtain ⟨a, ha, rfl⟩ := Option.map_eq_some_iff.1 htried
  rcases current_cases P s documentId with ⟨c, hc, hcurrent⟩ | ⟨hnone, -⟩
  · rw [searchFirst_eq hkeyed] at hc
    obtain ⟨c, hfound, rfl⟩ := Option.map_eq_some_iff.1 hc
    rw [hcurrent, Option.map_some, h a c ha hfound]
    rfl
  · rw [searchFirst_eq hkeyed, Option.map_eq_none_iff, List.find?_insertionSort_eq_none] at hnone
    rw [List.find?_insertionSort_eq_none.2 hnone] at ha
    cases ha

/-- A servable version with a usable number decides both orders alike. -/
theorem facesAgree_of_numbered (hkeyed : KeyedVersions s)
    (hlive : expiredByRetention s documentId = false) (h : Numbered P s documentId) :
    FacesAgree P s documentId := by
  refine facesAgree_of_first hkeyed hlive fun a c ha hc => ?_
  obtain ⟨r, hr, hservable, hnumber⟩ := h
  have hfirst := List.rel_of_find? (notAfter_total P) (notAfter_trans P) ha
  have hmem : ∀ {x : ReplicaRecordRow} {q : ReplicaRecordRow → ReplicaRecordRow → Prop}
      [DecidableRel q], ((versionRows s documentId).insertionSort q).find? servableRow = some x →
        x ∈ versionRows s documentId ∧ servableRow x = true := fun hx =>
    ⟨(List.mem_insertionSort _).1 (List.mem_of_find?_eq_some hx), List.find?_some hx⟩
  obtain ⟨hcmem, hcservable⟩ := hmem hc
  obtain ⟨hamem, haservable⟩ := hmem ha
  have hca := search_precedes hc a hamem haservable
  -- the first version of `getDocument` has a usable number, so its order compares the keys
  have hanumber : rowNumber P a ≠ ⊥ := by
    intro hbot
    rcases notAfter_iff.1 (hfirst r hr hservable) with ⟨-, hrbot⟩ | hprecedes
    · exact hnumber hrbot
    · rcases precedes_iff.1 hprecedes with hlt | ⟨heq, -⟩
      · exact absurd (hbot ▸ hlt : rowNumber P r < ⊥) not_lt_bot
      · exact hnumber (Eq.trans heq hbot)
  rcases notAfter_iff.1 (hfirst c hcmem hcservable) with ⟨hbot, -⟩ | hac
  · exact absurd hbot hanumber
  · exact precedes_antisymm hac hca

theorem facesAgree_of_oneServable (hkeyed : KeyedVersions s)
    (hlive : expiredByRetention s documentId = false) (h : OneServable s documentId) :
    FacesAgree P s documentId := by
  refine facesAgree_of_first hkeyed hlive fun a c ha hc => ?_
  rw [h a ((List.mem_insertionSort _).1 (List.mem_of_find?_eq_some ha)) c
    ((List.mem_insertionSort _).1 (List.mem_of_find?_eq_some hc)) (List.find?_some ha)
      (List.find?_some hc)]

/-- The replica with the rows of its records stored in another order. -/
def Replica.reordered (s : Replica) (rows : List ReplicaRecordRow) (h : rows.Perm s.records.rows) :
    Replica :=
  { s with records := s.records.reorder rows h }

theorem keyedVersions_reordered (hkeyed : KeyedVersions s) {rows : List ReplicaRecordRow}
    (h : rows.Perm s.records.rows) : KeyedVersions (s.reordered rows h) :=
  fun r hr => hkeyed r (h.mem_iff.1 hr)

theorem mem_versionRows_reordered {rows : List ReplicaRecordRow} (h : rows.Perm s.records.rows)
    {r : ReplicaRecordRow} : r ∈ versionRows (s.reordered rows h) documentId ↔
      r ∈ versionRows s documentId :=
  (h.filter _).mem_iff

theorem eq_of_record_key {a b : ReplicaRecordRow} (ha : a ∈ versionRows s documentId)
    (hb : b ∈ versionRows s documentId) (hkey : a.record_key = b.record_key) : a = b := by
  have htype : ∀ r ∈ versionRows s documentId, r.record_type = "document_version" := by
    intro r hr
    have hversion := (List.mem_filter.1 hr).2
    simp only [ReplicaRecordRow.isVersionOf, Bool.and_eq_true, decide_eq_true_eq] at hversion
    exact hversion.1.1
  refine Table.unique_of_mem List.mem_cons_self (List.mem_of_mem_filter ha)
    (List.mem_of_mem_filter hb) (by simp) (congrArg some (Prod.ext ?_ hkey))
  exact (htype a ha).trans (htype b hb).symm

/-- Where no servable version has a usable number, `getDocument` tries the first that is stored, and
agrees with the search path only where that one precedes the others. -/
theorem precedes_of_stored_first (hkeyed : KeyedVersions s)
    (hlive : expiredByRetention s documentId = false) (hnumbers : ¬ Numbered P s documentId)
    (hagree : ∀ rows (h : rows.Perm s.records.rows), FacesAgree P (s.reordered rows h) documentId)
    {a : ReplicaRecordRow} (ha : a ∈ versionRows s documentId) (hservable : servableRow a = true) :
    ∀ b ∈ versionRows s documentId, servableRow b = true →
      precedes P (searchCandidate a) (searchCandidate b) = true := by
  obtain ⟨before, after, hrows⟩ := List.append_of_mem (List.mem_of_mem_filter ha)
  have hperm : (a :: (before ++ after)).Perm s.records.rows := hrows ▸ List.perm_middle.symm
  obtain ⟨s', hs'⟩ : ∃ s', s' = s.reordered (a :: (before ++ after)) hperm := ⟨_, rfl⟩
  have hkeyed' : KeyedVersions s' := hs' ▸ keyedVersions_reordered hkeyed hperm
  have hlive' : expiredByRetention s' documentId = false := hs' ▸ hlive
  have hmem : ∀ r, r ∈ versionRows s' documentId ↔ r ∈ versionRows s documentId :=
    fun r => hs' ▸ mem_versionRows_reordered hperm
  have hunnumbered : ∀ r ∈ versionRows s' documentId, servableRow r = true → rowNumber P r = ⊥ :=
    fun r hr hservable => not_not.1 fun hne => hnumbers ⟨r, (hmem r).1 hr, hservable, hne⟩
  have hfind : (versionRows s' documentId).find? servableRow = some a := by
    have hcons : versionRows s' documentId = a :: (before ++ after).filter (·.isVersionOf documentId) := by
      rw [hs']
      exact List.filter_cons_of_pos (List.mem_filter.1 ha).2
    rw [hcons, List.find?_cons, hservable]
  have htried : triedFirst P s' documentId = some a.record_key := by
    rw [triedFirst_eq hkeyed' hlive', List.find?_insertionSort_of_alike, hfind]
    · rfl
    · exact fun x hx y hy hpx hpy => notAfter_iff.2 (.inl ⟨hunnumbered x hx hpx, hunnumbered y hy hpy⟩)
  have hagree' : FacesAgree P s' documentId := hs' ▸ hagree _ hperm
  have hsame := hagree'.same a.record_key htried
  rcases current_cases P s' documentId with ⟨c, hc, hcurrent⟩ | ⟨-, hnone⟩
  · rw [searchFirst_eq hkeyed'] at hc
    obtain ⟨r, hr, rfl⟩ := Option.map_eq_some_iff.1 hc
    rw [hcurrent] at hsame
    have hrmem : r ∈ versionRows s' documentId :=
      (List.mem_insertionSort _).1 (List.mem_of_find?_eq_some hr)
    obtain rfl := eq_of_record_key hrmem ((hmem a).2 ha) (Option.some.inj hsame)
    exact fun b hb hpb => search_precedes hr b ((hmem b).2 hb) hpb
  · rw [hagree'.none_iff.2 hnone] at htried
    cases htried

end Rows

/-- **The read faces agree.** Whatever the order in which the versions of a document are stored, the
version that `getDocument` tries first is the one that the search path takes for current, if and only if
a servable version has a usable number, or at most one version is servable. -/
theorem read_faces_agree (P : Platform) (s : Replica) (hkeyed : KeyedVersions s) (documentId : String)
    (hlive : expiredByRetention s documentId = false) :
    (∀ rows (h : rows.Perm s.records.rows), FacesAgree P (s.reordered rows h) documentId) ↔
      Numbered P s documentId ∨ OneServable s documentId := by
  constructor
  · intro hagree
    by_contra hneither
    obtain ⟨hnumbers, hone⟩ := not_or.1 hneither
    refine hone fun a ha b hb hpa hpb => eq_of_record_key ha hb ?_
    have hab := precedes_of_stored_first hkeyed hlive hnumbers hagree ha hpa b hb hpb
    have hba := precedes_of_stored_first hkeyed hlive hnumbers hagree hb hpb a ha hpa
    exact precedes_antisymm hab hba
  · rintro (hnumbers | hone) rows h
    · obtain ⟨r, hr, hservable, hnumber⟩ := hnumbers
      exact facesAgree_of_numbered (keyedVersions_reordered hkeyed h) hlive
        ⟨r, (mem_versionRows_reordered h).2 hr, hservable, hnumber⟩
    · exact facesAgree_of_oneServable (keyedVersions_reordered hkeyed h) hlive
        fun a ha b hb => hone a ((mem_versionRows_reordered h).1 ha) b
          ((mem_versionRows_reordered h).1 hb)

/-- A servable version without a version number. -/
def unnumberedRow (versionId : String) : ReplicaRecordRow where
  record_type := "document_version"
  record_key := versionId
  message_id := "outbound_" ++ versionId
  visibility := .PUBLIC
  schema_version := "collector-outbound-v4"
  payload := .obj [("document", .obj [("document_id", .str "doc-1")]),
    ("version", .obj [("version_id", .str versionId), ("media_type", .str "text/plain"),
      ("content_sha256", .str "7692c3ad3540bb803c020b3aee66cd8887123234ea0c6e7143c0add73ff431ed")]),
    ("attachments", .arr [])]
  generated_at := none
  updated_at := "2026-10-03T00:00:00.000Z"

/-- Two versions without a number, stored in the reverse order of their ids. -/
def unnumberedReplica : Replica :=
  { Replica.empty with
    records := (Table.empty.upsert (unnumberedRow "v2") id recordKey_id).upsert (unnumberedRow "v1") id
      recordKey_id }

theorem keyedVersions_unnumbered : KeyedVersions unnumberedReplica := by
  have hrows : ∀ r ∈ unnumberedReplica.records.rows, r.record_type = "document_version" →
      stringField ((r.payload.get? "version").bind (·.get? "version_id")) = some r.record_key := by
    decide
  exact hrows

theorem read_faces_agree_unnumbered :
    (∀ rows (h : rows.Perm unnumberedReplica.records.rows),
      FacesAgree indexPlatform (unnumberedReplica.reordered rows h) "doc-1") ↔
        Numbered indexPlatform unnumberedReplica "doc-1" ∨ OneServable unnumberedReplica "doc-1" :=
  read_faces_agree indexPlatform unnumberedReplica keyedVersions_unnumbered "doc-1" rfl

/-- `getDocument` tries `v2` first, the search path takes `v1` for current. -/
theorem faces_disagree :
    ¬ ∀ (P : Platform) (s : Replica) (documentId : String), KeyedVersions s →
      expiredByRetention s documentId = false →
        ∀ rows (h : rows.Perm s.records.rows), FacesAgree P (s.reordered rows h) documentId := by
  intro h
  have hagree := h indexPlatform unnumberedReplica "doc-1" keyedVersions_unnumbered rfl
    unnumberedReplica.records.rows (.refl _)
  have htried : triedFirst indexPlatform unnumberedReplica "doc-1" = some "v2" := by decide
  have hcurrent : (currentVersionCandidate indexPlatform unnumberedReplica "doc-1").candidate.map
      (·.versionId) = some "v1" := by decide
  exact absurd ((hagree.same "v2" htried).symm.trans hcurrent) (by decide)

end QuantproCollector.SemanticIndex
