import QuantproCollector.SemanticIndex.Probe
import QuantproCollector.SemanticIndex.Soundness

/-!
# A READY version that is ingested again

A push leaves the hash of the body that it indexed in the state row, or none for a title alone; an ingest of
the version compares it with the version's own content hash. The text that is indexed is of the title as
well, and of a projection where the own bytes are not readable: `reingest_iff` says exactly when the row
stays READY as its text stays the same.
-/

namespace QuantproCollector.SemanticIndex.Push

open Relational Async Search

/-! ## The indexed text -/

section Text

variable (R : SearchRuntime) (content : String → List UInt8)

/-- `composeSemanticText`: the text and whether it is of the title alone. -/
def documentText (title : Units) (bodyText : Option String) : Option (List Char × Bool) :=
  match bodyText.bind (composeSemanticText R.toRuntime title) with
  | some text => some (text, false)
  | none => if title = [] then none else some (Json.ofUnits title, true)

/-- The title of the document of a payload. -/
def payloadTitle (payload : Json) : Units :=
  documentTitle R.toRuntime ⟨"", payload, objectField payload "version", objectField payload "document"⟩

/-- The text that is embedded for a version with the payload; `content` are the bytes that have a digest. -/
def indexedText (payload : Json) : Option (List Char × Bool) :=
  documentText R (payloadTitle R payload) ((bodyHash payload).map fun sha256 => R.decode (content sha256))

end Text

/-! ## The rows -/

/-- The row is as `markRow` writes it after a push of a version with the payload: at least one vector, all
of them confirmed. -/
def Marked (r : SemanticIndexStateRow) (payload : Json) : Prop :=
  ∃ row chunks now r₀, 0 < chunks ∧
    r = readyRow row (bodyHash payload) (bodyHash payload).isNone chunks now r₀

/-! ## The row of an accepted push -/

section Accepted

variable {R : Runtime} {t : ℕ} {tr : List (Call Op IndexWorld Fault)} {w : IndexWorld} {now : String}

/-- An answer READY comes with the marked row of the version. -/
def LeavesMarked (p : PrecomputedVectorIngestPayload) (payload : Json)
    (r : Except Thrown PrecomputedVectorIngestResult) (w' : IndexWorld) : Prop :=
  ∀ n, r = .ok (.READY n) → ∃ x ∈ w'.replica.semantic, x.document_id = p.document_id ∧
    x.version_id = p.version_id ∧ Marked x payload

/-- A push that stores its vectors is answered READY only with the row marked. -/
theorem storeVectors_marks {p : PrecomputedVectorIngestPayload} {payload : Json}
    {row : SemanticIndexStateRow} (hd : row.document_id = p.document_id)
    (hv : row.version_id = p.version_id) (hchunks : 0 < p.vectors.length) :
    (machine R.toPlatform).Ensures t Eq (fun r _ w' => LeavesMarked p payload r w')
      (storeVectors R p row (bodyHash payload) (bodyHash payload).isNone now) tr w := by
  have raised : ∀ e w tr, (machine R.toPlatform).Ensures t Eq (fun r _ w' => LeavesMarked p payload r w')
      (Script.halt (.error e)) tr w := by
    rintro e w tr w' rfl n ⟨⟩
  unfold storeVectors
  split_ifs with hprobe
  · have hquiet : ∀ (vectors : List (List Decimal)) ordinal scores missing tr w,
        (machine R.toPlatform).Ensures t Eq (fun r _ w' => LeavesMarked p payload r w')
          (probeVectors R p.document_id p.version_id ordinal vectors scores missing) tr w := by
      intro vectors
      induction vectors with
      | nil => rintro ordinal scores missing tr w w' rfl n ⟨⟩
      | cons values vectors ih =>
        intro ordinal scores missing tr w
        refine ensures_read rfl (fun _ n h => by cases h) fun _ => ?_
        cases answer R.toPlatform (.getByIds (p.document_id, p.version_id, ordinal)) w with
        | none => exact ih _ _ _ _ _
        | some stored =>
          dsimp only
          split_ifs
          · exact ih _ _ _ _ _
          · exact ih _ _ _ _ _
    exact hquiet _ _ _ _ _ _
  · rintro w' rfl ch
    cases ch with
    | before => exact raised _ _ _
    | after => exact raised _ _ _
    | none =>
      rintro w' rfl ch
      cases ch with
      | before => exact raised _ _ _
      | after => exact raised _ _ _
      | none =>
        change (machine R.toPlatform).Ensures t Eq _ (if
          (w.replica.semantic.rows.filter (isLiveRow row)).length = 0 then _ else _) _ _
        split_ifs with hlive
        · rintro w' rfl n ⟨⟩
        · rintro w' rfl n -
          obtain ⟨x, hx⟩ := List.exists_mem_of_ne_nil _ (mt List.length_eq_zero_iff.2 hlive)
          obtain ⟨hx, hxlive⟩ := List.mem_filter.1 hx
          obtain ⟨⟨hxd, hxv⟩, -⟩ : (x.document_id = row.document_id ∧ x.version_id = row.version_id) ∧
              x.retired_at = none := by simpa [isLiveRow, isRow] using hxlive
          refine ⟨_, (mem_markRow (P := R.toPlatform)).2 ⟨x, hx, if_pos hxlive⟩, hxd.trans hd,
            hxv.trans hv, ?_⟩
          exact ⟨row, _, now, x, hchunks, rfl⟩

/-- The content hash that a push stores is that of the current version's body. -/
theorem pushVectors_marks {p : PrecomputedVectorIngestPayload} {row : SemanticIndexStateRow}
    {s : Replica} {c : VersionCandidate} (hd : row.document_id = p.document_id)
    (hv : row.version_id = p.version_id) (hchunks : 0 < p.vectors.length)
    (hc : (currentVersionCandidate R.toPlatform s p.document_id).candidate = some c) :
    (machine R.toPlatform).Ensures t Eq (fun r _ w' => LeavesMarked p c.payload r w')
      (pushVectors R p row (currentVersionCandidate R.toPlatform s p.document_id).servable c now) tr w := by
  have hservable : isVersionServable c.payload =
      (currentVersionCandidate R.toPlatform s p.document_id).servable := by
    have hcurrent : currentVersionCandidate R.toPlatform s p.document_id =
        ⟨some c, (currentVersionCandidate R.toPlatform s p.document_id).servable⟩ := by rw [← hc]
    exact (Search.isCurrent_of_candidate hcurrent).servable_eq
  have hbody : (if (currentVersionCandidate R.toPlatform s p.document_id).servable then
      servableBody c.payload else none) = servableBody c.payload := by
    rw [← hservable]
    split_ifs with h
    · rfl
    · exact (Option.not_isSome_iff_eq_none.1 h).symm
  have hstores : (machine R.toPlatform).Ensures t Eq (fun r _ w' => LeavesMarked p c.payload r w')
      (storeVectors R p row (bodyHash c.payload) (bodyHash c.payload).isNone now) tr w :=
    storeVectors_marks hd hv hchunks
  unfold pushVectors
  rw [hbody]
  unfold bodyHash at hstores
  cases hfound : servableBody c.payload with
  | some body =>
    rw [hfound] at hstores
    dsimp only
    split_ifs
    · rintro w' rfl n ⟨⟩
    · exact hstores
  | none =>
    rw [hfound] at hstores
    dsimp only
    split_ifs
    · rintro w' rfl n ⟨⟩
    · exact hstores

theorem vectors_pos {payload : Json} (h : precomputedPayloadError payload = none) :
    0 < (payloadOf payload).vectors.length := by
  unfold precomputedPayloadError at h
  split at h
  · split_ifs at h with _ _ hempty
    rw [payloadOf, List.length_map]
    exact List.length_pos_iff.2 (by simpa using hempty)
  · cases h

/-- An answer READY comes with the row of the version marked for the payload of the current version, which
is the pushed one. -/
def LeavesCurrentMarked (P : Platform) (w : IndexWorld) (p : PrecomputedVectorIngestPayload)
    (r : Except Thrown PrecomputedVectorIngestResult) (_ : List (Call Op IndexWorld Fault))
    (w' : IndexWorld) : Prop :=
  ∀ n, r = .ok (.READY n) →
    ∃ c ∈ (currentVersionCandidate P w.replica p.document_id).candidate, c.versionId = p.version_id ∧
      ∃ x ∈ w'.replica.semantic, x.document_id = p.document_id ∧ x.version_id = p.version_id ∧
        Marked x c.payload

/-- **An accepted push.** Run alone, a push is answered READY only with its row marked. -/
theorem marked_of_push (R : Runtime) (w : IndexWorld) (payload : Json) (now : String)
    (choices : ℕ → Fault) :
    let out := (machine R.toPlatform).run 0 choices (ingestPrecomputedVectors R payload now) 0 [] w
    LeavesCurrentMarked R.toPlatform w (payloadOf payload) out.1 out.2.1 out.2.2 := by
  refine Machine.Ensures.run (Q := LeavesCurrentMarked R.toPlatform w (payloadOf payload)) choices 0 ?_
  unfold ingestPrecomputedVectors
  cases hvalid : precomputedPayloadError payload with
  | some reason => rintro w' - n ⟨⟩
  | none =>
    refine ensures_read rfl (fun _ n h => by cases h) fun _ => ?_
    cases hfound : w.replica.semantic.rows.find?
        (isRow (payloadOf payload).document_id (payloadOf payload).version_id) with
    | none =>
      rw [answer, hfound]
      rintro w' - n ⟨⟩
    | some row =>
      obtain ⟨hd, hv⟩ : row.document_id = (payloadOf payload).document_id ∧
          row.version_id = (payloadOf payload).version_id := by
        simpa [isRow] using List.find?_some hfound
      rw [answer, hfound]
      dsimp only [Option.map_some]
      split_ifs
      · rintro w' - n ⟨⟩
      refine ensures_read rfl (fun _ n h => by cases h) fun _ => ?_
      rw [answer]
      cases hc : (currentVersionCandidate R.toPlatform w.replica
          (payloadOf payload).document_id).candidate with
      | none => rintro w' - n ⟨⟩
      | some c =>
        have finish : c.versionId = (payloadOf payload).version_id → ∀ row' tr w',
            row'.document_id = (payloadOf payload).document_id →
            row'.version_id = (payloadOf payload).version_id →
            (machine R.toPlatform).Ensures 0 Eq (LeavesCurrentMarked R.toPlatform w (payloadOf payload))
              (pushVectors R (payloadOf payload) row' (currentVersionCandidate R.toPlatform w.replica
                (payloadOf payload).document_id).servable c now) tr w' := by
          intro hversion row' tr w' hd hv
          refine Machine.Ensures.mono (fun r tr w' hmarks n hr => ?_)
            (pushVectors_marks hd hv (vectors_pos hvalid) hc)
          exact ⟨c, hc, hversion, hmarks n hr⟩
        dsimp only
        split_ifs with hversion hretired
        · rintro w' - n ⟨⟩
        · rintro w' rfl ch
          cases ch with
          | none =>
            change (machine R.toPlatform).Ensures 0 Eq _ (if _ ≠ 1 then _ else _) _ _
            split_ifs
            · rintro w' - n ⟨⟩
            · exact finish (not_not.1 hversion) _ _ _ hd hv
          | _ => rintro w' - n ⟨⟩
        · exact finish (not_not.1 hversion) _ _ _ hd hv

end Accepted

/-- The message stores the version of the row again. -/
structure Restores (record : OutboundV2Record) (r : SemanticIndexStateRow) : Prop where
  version : record.record_type = "document_version"
  key : outboundV2RecordKey record = some r.version_id

instance (record : OutboundV2Record) (r : SemanticIndexStateRow) : Decidable (Restores record r) :=
  decidable_of_iff (_ ∧ _) ⟨fun h => ⟨h.1, h.2⟩, fun h => ⟨h.1, h.2⟩⟩

/-- The message leaves the text of the version and the model of its row as they were. -/
def SameText (R : SearchRuntime) (content : String → List UInt8) (record : OutboundV2Record)
    (r : SemanticIndexStateRow) (payload : Json) : Prop :=
  indexedText R content record.payload = indexedText R content payload ∧ r.model_id = SEMANTIC_MODEL_ID

instance (R : SearchRuntime) (content : String → List UInt8) (record : OutboundV2Record)
    (r : SemanticIndexStateRow) (payload : Json) : Decidable (SameText R content record r payload) :=
  inferInstanceAs (Decidable (_ ∧ _))

/-- After the ingest the row is READY where the text is the same, and else PENDING. -/
def TracksText (R : SearchRuntime) (content : String → List UInt8) (s : Replica) (record : OutboundV2Record)
    (now : String) (r : SemanticIndexStateRow) (payload : Json) : Prop :=
  ∃ r' ∈ (ingestBatch R.toPlatform s record r.version_id now).semantic.rows, r'.key = r.key ∧
    (r'.state = .READY ∧ SameText R content record r payload ∨
      r'.state = .PENDING ∧ ¬ SameText R content record r payload)

instance (R : SearchRuntime) (content : String → List UInt8) (s : Replica) (record : OutboundV2Record)
    (now : String) (r : SemanticIndexStateRow) (payload : Json) :
    Decidable (TracksText R content s record now r payload) :=
  inferInstanceAs (Decidable (∃ r' ∈ (ingestBatch R.toPlatform s record r.version_id now).semantic.rows, _))

/-- The message registers the document and the version of the row. -/
def Registers (record : OutboundV2Record) (r : SemanticIndexStateRow) : Prop :=
  semanticIndexIngestTarget record = some ⟨r.document_id, r.version_id⟩

instance (record : OutboundV2Record) (r : SemanticIndexStateRow) : Decidable (Registers record r) :=
  inferInstanceAs (Decidable (_ = _))

/-- The own hash of the version goes with its text: a message that leaves the text as it was carries the
hash of the indexed body (none for a title alone), one that changes it registers the version with another
hash. -/
structure HashTracksText (R : SearchRuntime) (content : String → List UInt8) (record : OutboundV2Record)
    (r : SemanticIndexStateRow) (payload : Json) : Prop where
  unchanged : SameText R content record r payload → Registers record r → ownHash record = bodyHash payload
  changed : ¬ SameText R content record r payload →
    Registers record r ∧ ownHash record ≠ bodyHash payload

section Rows

variable {R : SearchRuntime} {content : String → List UInt8} {P : Platform} {s : Replica}
  {record : OutboundV2Record} {now : String} {r : SemanticIndexStateRow} {payload : Json}

theorem keepReady_iff (h : Marked r payload) (now : String) :
    keepReady r (pendingRow ⟨r.document_id, r.version_id⟩ (ownHash record) now) = true ↔
      ownHash record = bodyHash payload := by
  obtain ⟨row, chunks, now', r₀, hchunks, rfl⟩ := h
  simp only [keepReady, readyRow, pendingRow, decide_eq_true_eq]
  constructor
  · rintro ⟨-, -, -, hhash, -⟩
    exact hhash.symm
  · intro hhash
    exact ⟨trivial, trivial, hchunks, hhash.symm, trivial⟩

/-- A row with another key than the one that a message registers, and of its version, is left alone. -/
theorem mem_of_not_registers (hr : r ∈ s.semantic) (hrestores : Restores record r)
    (h : ¬ Registers record r) : r ∈ (ingestBatch P s record r.version_id now).semantic := by
  change r ∈ semanticIndexIngestStatements s.semantic record now
  unfold semanticIndexIngestStatements
  cases htarget : semanticIndexIngestTarget record with
  | none => exact hr
  | some target =>
    obtain ⟨documentId, versionId⟩ := target
    obtain rfl := key_eq_of_target hrestores.key htarget
    have hdocument : r.document_id ≠ documentId := by
      rintro rfl
      exact h htarget
    dsimp only
    have hregistered : r ∈ s.semantic.upsert (pendingRow ⟨documentId, r.version_id⟩ (ownHash record) now)
        (refreshedRow (pendingRow ⟨documentId, r.version_id⟩ (ownHash record) now)) (fun _ => rfl) := by
      refine Table.mem_upsert.2 (.inl ⟨hr, fun hkey => hdocument ?_⟩)
      exact (key_eq.1 hkey).1
    split_ifs
    · refine Table.mem_modify.2 ⟨r, hregistered, if_neg ?_⟩
      simp [supersedes, hdocument]
    · exact hregistered

/-- The row of a version that is registered again is the refreshed one. -/
theorem mem_of_registers (hr : r ∈ s.semantic) (h : Registers record r) :
    refreshedRow (pendingRow ⟨r.document_id, r.version_id⟩ (ownHash record) now) r ∈
      (ingestBatch P s record r.version_id now).semantic := by
  change _ ∈ semanticIndexIngestStatements s.semantic record now
  unfold semanticIndexIngestStatements
  rw [h]
  dsimp only
  have hregistered : refreshedRow (pendingRow ⟨r.document_id, r.version_id⟩ (ownHash record) now) r ∈
      s.semantic.upsert (pendingRow ⟨r.document_id, r.version_id⟩ (ownHash record) now)
        (refreshedRow (pendingRow ⟨r.document_id, r.version_id⟩ (ownHash record) now)) (fun _ => rfl) :=
    Table.mem_upsert.2 (.inr (.inl ⟨r, hr, rfl, rfl⟩))
  split_ifs
  · refine Table.mem_modify.2 ⟨_, hregistered, if_neg ?_⟩
    simp [supersedes, refreshedRow]
  · exact hregistered

/-- After the ingest the row is READY where it is not registered again or has the same hash, and else
PENDING. -/
theorem state_after (hr : r ∈ s.semantic) (hmarked : Marked r payload) (hrestores : Restores record r) :
    ∃ r' ∈ (ingestBatch P s record r.version_id now).semantic, r'.key = r.key ∧
      r'.state = if Registers record r ∧ ownHash record ≠ bodyHash payload then .PENDING else .READY := by
  by_cases hregisters : Registers record r
  · refine ⟨_, mem_of_registers hr hregisters, rfl, ?_⟩
    have hkeep : _ ↔ ownHash record = _ := keepReady_iff hmarked now
    by_cases hhash : ownHash record = bodyHash payload
    · rw [if_neg fun h => h.2 hhash]
      simp [refreshedRow, hkeep.2 hhash]
    · rw [if_pos ⟨hregisters, hhash⟩]
      simp [refreshedRow, Bool.eq_false_iff.2 fun h => hhash (hkeep.1 h)]
  · refine ⟨r, mem_of_not_registers hr hrestores hregisters, rfl, ?_⟩
    rw [if_neg fun h => hregisters h.1]
    obtain ⟨row, chunks, now', r₀, -, rfl⟩ := hmarked
    rfl

/-- **Re-ingest.** A READY row stays READY exactly as its text stays the same, where the own hash of the
version goes with its text. -/
theorem reingest_iff (R : SearchRuntime) (content : String → List UInt8) (s : Replica)
    (record : OutboundV2Record) (now : String) (r : SemanticIndexStateRow) (payload : Json)
    (hr : r ∈ s.semantic) (hmarked : Marked r payload) (hrestores : Restores record r) :
    TracksText R content s record now r payload ↔ HashTracksText R content record r payload := by
  have hafter : ∃ r' ∈ (ingestBatch R.toPlatform s record r.version_id now).semantic, _ :=
    state_after hr hmarked hrestores
  obtain ⟨r', hr', hkey, hstate⟩ := hafter
  have hunique : ∀ x ∈ (ingestBatch R.toPlatform s record r.version_id now).semantic, x.key = r.key →
      x = r' := fun x hx hxkey =>
    Table.unique_of_mem (i := fun r => some r.key) (by simp) hx hr' (by simp) (by simp [hxkey, hkey])
  constructor
  · rintro ⟨x, hx, hxkey, htracks⟩
    obtain rfl := hunique x hx hxkey
    refine ⟨fun hsame hregisters => ?_, fun hdiffers => ?_⟩
    · by_contra hhash
      rw [if_pos ⟨hregisters, hhash⟩] at hstate
      rcases htracks with ⟨hready, -⟩ | ⟨-, hdiffers⟩
      · rw [hstate] at hready
        cases hready
      · exact hdiffers hsame
    · by_contra hkept
      rw [if_neg hkept] at hstate
      rcases htracks with ⟨-, hsame⟩ | ⟨hpending, -⟩
      · exact hdiffers hsame
      · rw [hstate] at hpending
        cases hpending
  · intro h
    refine ⟨r', hr', hkey, ?_⟩
    by_cases hsame : SameText R content record r payload
    · rw [if_neg fun hchanged => hchanged.2 (h.unchanged hsame hchanged.1)] at hstate
      exact .inl ⟨hstate, hsame⟩
    · rw [if_pos (h.changed hsame)] at hstate
      exact .inr ⟨hstate, hsame⟩

end Rows

/-! ### A new title -/

/-- The runtime of the examples; a digest has one byte as its content, and each byte is the text `a`. -/
def reingestRuntime : SearchRuntime where
  toRuntime := pushRuntime
  digest _ := ""
  decode bytes := String.ofList (bytes.map fun _ => 'a')

def oneByte : String → List UInt8 := fun _ => [97]

/-- The row of version 1 after its push. -/
def pushedRow : SemanticIndexStateRow :=
  readyRow (pendingRow ⟨"doc-1", "v1"⟩ (bodyHash firstPayload) "2026-10-02T00:00:00.000Z")
    (bodyHash firstPayload) (bodyHash firstPayload).isNone 1 "2026-10-03T00:00:00.000Z"
    (pendingRow ⟨"doc-1", "v1"⟩ (bodyHash firstPayload) "2026-10-02T00:00:00.000Z")

def pushedReplica : Replica :=
  { Replica.empty with semantic := ⟨[pushedRow], by simp⟩ }

/-- Version 1 arrives again as it was. -/
theorem reingest_iff_repeated :
    TracksText reingestRuntime oneByte pushedReplica (exampleRecord "m2" firstPayload)
        "2026-10-04T00:00:00.000Z" pushedRow firstPayload ↔
      HashTracksText reingestRuntime oneByte (exampleRecord "m2" firstPayload) pushedRow firstPayload :=
  reingest_iff _ _ _ _ _ _ _ (List.mem_singleton.2 rfl) ⟨_, _, _, _, by decide, rfl⟩
    ⟨rfl, by decide +kernel⟩

/-- The payload of version 1 with another title. -/
def retitledPayload : Json :=
  .obj [
    ("document", .obj [("document_id", .str "doc-1"), ("source_id", .str "source-1"),
      ("source_identity_key", .str "key-1"), ("canonical_locator", .str "urn:doc-1"),
      ("origin_locator", .str "urn:doc-1"), ("first_seen_at", .str "2026-10-01T00:00:00.000Z"),
      ("title", .str "Corrected report"), ("source_kind", .str "FILING"), ("visibility", .str "PUBLIC"),
      ("historical_backfill", .bool false)]),
    ("version", .obj [("version_id", .str "v1"), ("document_id", .str "doc-1"),
      ("version_number", .num (.ofInt 1)),
      ("content_sha256", .str "7692c3ad3540bb803c020b3aee66cd8887123234ea0c6e7143c0add73ff431ed"),
      ("byte_size", .num (.ofInt 3)), ("media_type", .str "text/plain"),
      ("ingested_at", .str "2026-10-01T00:00:00.000Z"), ("published_at", .null),
      ("event_time", .null), ("source_updated_at", .null), ("response_headers", .obj []),
      ("revision_kind", .str "ORIGINAL"), ("corrects_version_id", .null),
      ("historical_backfill", .bool false), ("readable", .bool true)]),
    ("attachments", .arr [])]

/-- The row stays READY while its text has another title. -/
theorem retitled_ready :
    ¬ TracksText reingestRuntime oneByte pushedReplica (exampleRecord "m2" retitledPayload)
      "2026-10-04T00:00:00.000Z" pushedRow firstPayload := by
  decide +kernel

end QuantproCollector.SemanticIndex.Push
