import QuantproCollector.SemanticIndex.Freshness

/-!
# Pushes that store nothing

A consistency probe and a push refused before its vectors are stored should leave the rows and the vectors
as they were. A push of a retired version that is current again revives its row before it looks at the
content hash and at the probe flag: `writesNothing_iff` says that this is the one way in which such a call
writes.
-/

namespace QuantproCollector.SemanticIndex.Push

open Relational Async

/-! ## The calls that store nothing -/

/-- The call stores vectors. -/
def Upserts (k : Call Op IndexWorld Fault) : Prop :=
  ∃ entries, k.op = .upsertVectors entries

/-- The content hash of the payload fits the current version. -/
def Fits (R : Runtime) (p : PrecomputedVectorIngestPayload) (current : CurrentVersion)
    (candidate : VersionCandidate) : Prop :=
  match if current.servable then servableBody candidate.payload else none with
  | some body => p.content_sha256 = some (some body.contentSha256)
  | none => documentTitle R candidate ≠ [] ∧ p.content_sha256 = some none

/-- A probe, and a push refused before it stores a vector, left the rows and the vectors as they were. -/
def Frames (payload : Json) (w : IndexWorld) (r : Except Thrown PrecomputedVectorIngestResult)
    (tr : List (Call Op IndexWorld Fault)) (w' : IndexWorld) : Prop :=
  (payloadOf payload).consistency_check = true ∨
      (∃ reason, r = .ok (.REJECTED reason)) ∧ (∀ k ∈ tr, ¬ Upserts k) →
    w'.replica.semantic = w.replica.semantic ∧ w'.vectors = w.vectors

/-- No probe and no early refusal of the payload writes, whatever fails. -/
def WritesNothing (R : Runtime) (w : IndexWorld) (payload : Json) (now : String) : Prop :=
  ∀ choices : ℕ → Fault,
    let out := (machine R.toPlatform).run 0 choices (ingestPrecomputedVectors R payload now) 0 [] w
    Frames payload w out.1 out.2.1 out.2.2

/-- The push reaches the retired row of a version that is current again. -/
structure Revives (P : Platform) (w : IndexWorld) (payload : Json) : Prop where
  valid : precomputedPayloadError payload = none
  retired : ∃ row ∈ w.replica.semantic.rows.find?
    (isRow (payloadOf payload).document_id (payloadOf payload).version_id), row.retired_at.isSome = true
  unexpired : expiredByRetention w.replica (payloadOf payload).document_id = false
  current : ∃ c ∈ (currentVersionCandidate P w.replica (payloadOf payload).document_id).candidate,
    c.versionId = (payloadOf payload).version_id

/-- The push goes on to store its vectors: it is no probe, and its content hash fits. -/
def Stores (R : Runtime) (w : IndexWorld) (payload : Json) : Prop :=
  (payloadOf payload).consistency_check = false ∧
    ∀ c ∈ (currentVersionCandidate R.toPlatform w.replica (payloadOf payload).document_id).candidate,
      Fits R (payloadOf payload)
        (currentVersionCandidate R.toPlatform w.replica (payloadOf payload).document_id) c

/-! ## Steps of a push -/

section Steps

variable {R : Runtime} {t : ℕ} {α : Type} {tr : List (Call Op IndexWorld Fault)} {w : IndexWorld}
  {Q : Except Thrown α → List (Call Op IndexWorld Fault) → IndexWorld → Prop}

/-- A call that changes nothing goes on with its answer, or raises. -/
theorem ensures_read {op : Op} {f : Res op → Program α} (heff : effect R.toPlatform op w = w)
    (herr : ∀ f, Q (.error .raw) (⟨t, op, f, w⟩ :: tr) w)
    (h : ∀ ch, (machine R.toPlatform).Ensures t Eq Q (f (answer R.toPlatform op w))
      (⟨t, op, ch, w⟩ :: tr) w) :
    (machine R.toPlatform).Ensures t Eq Q (Script.perform op >>= f) tr w := by
  rintro w' rfl ch
  cases ch with
  | none =>
    change (machine R.toPlatform).Ensures t Eq Q (f (answer R.toPlatform op w)) _
      (effect R.toPlatform op w)
    rw [heff]
    exact h _
  | before =>
    rintro w' rfl
    exact herr _
  | after =>
    rintro w' rfl
    change Q _ _ (effect R.toPlatform op w)
    rw [heff]
    exact herr _

theorem issues_probe (documentId versionId : String) (vectors : List (List Decimal)) (ordinal : ℕ)
    (scores : List Decimal) (missing : ℕ) :
    (probeVectors R documentId versionId ordinal vectors scores missing).Issues
      fun op => ∃ id, op = .getByIds id := by
  induction vectors generalizing ordinal scores missing with
  | nil => trivial
  | cons values vectors ih =>
    refine Script.Issues.bind (Script.issues_perform.2 ⟨_, rfl⟩) fun stored => ?_
    cases stored with
    | none => exact ih _ _ _
    | some stored =>
      dsimp only
      split_ifs
      · exact ih _ _ _
      · exact ih _ _ _

/-- A refusal and a probe past the revival change nothing and store no vector. -/
theorem pushVectors_refuses {p : PrecomputedVectorIngestPayload} {row : SemanticIndexStateRow}
    {current : CurrentVersion} {candidate : VersionCandidate} {now : String}
    (h : p.consistency_check = true ∨ ¬ Fits R p current candidate) :
    (machine R.toPlatform).Ensures t Eq
      (fun r tr' w' => w' = w ∧ (p.consistency_check = true ∨ ∃ reason, r = .ok (.REJECTED reason)) ∧
        ∃ new, tr' = new ++ tr ∧ ∀ k ∈ new, ¬ Upserts k)
      (pushVectors R p row current.servable candidate now) tr w := by
  have refused : ∀ reason, (machine R.toPlatform).Ensures t Eq
      (fun r tr' w' => w' = w ∧ (p.consistency_check = true ∨ ∃ reason, r = .ok (.REJECTED reason)) ∧
        ∃ new, tr' = new ++ tr ∧ ∀ k ∈ new, ¬ Upserts k)
      (pure (PrecomputedVectorIngestResult.REJECTED reason)) tr w := by
    rintro reason w' rfl
    exact ⟨rfl, .inr ⟨reason, rfl⟩, [], rfl, by simp⟩
  have probed : p.consistency_check = true → ∀ contentSha256 titleOnly,
      (machine R.toPlatform).Ensures t Eq
      (fun r tr' w' => w' = w ∧ (p.consistency_check = true ∨ ∃ reason, r = .ok (.REJECTED reason)) ∧
        ∃ new, tr' = new ++ tr ∧ ∀ k ∈ new, ¬ Upserts k)
      (storeVectors R p row contentSha256 titleOnly now) tr w := by
    intro hprobe contentSha256 titleOnly
    unfold storeVectors
    rw [if_pos hprobe]
    refine (Machine.ensures_of_issues (I := (· = w)) ?_ (issues_probe _ _ _ _ _ _) rfl).mono ?_
    · rintro ch op w' ⟨id, rfl⟩ rfl
      cases ch <;> rfl
    · rintro r tr' w' ⟨rfl, new, rfl, hnew⟩
      refine ⟨rfl, .inl hprobe, new, rfl, fun k hk => ?_⟩
      rintro ⟨entries, hop⟩
      obtain ⟨⟨id, hid⟩, -⟩ := hnew k hk
      rw [hid] at hop
      cases hop
  unfold pushVectors
  unfold Fits at h
  split
  · rename_i body hbody
    rw [hbody] at h
    split_ifs with hhash
    · exact refused _
    · exact probed (h.resolve_right (not_not.2 (not_not.1 hhash))) _ _
  · rename_i hbody
    rw [hbody] at h
    split_ifs with hhash
    · exact refused _
    · obtain ⟨htitle, hnull⟩ := not_or.1 hhash
      exact probed (h.resolve_right (not_not.2 ⟨htitle, not_not.1 hnull⟩)) _ _

/-- A push that fits stores its vectors. -/
theorem pushVectors_stores {p : PrecomputedVectorIngestPayload} {row : SemanticIndexStateRow}
    {current : CurrentVersion} {candidate : VersionCandidate} {now : String}
    (hprobe : p.consistency_check = false) (h : Fits R p current candidate) :
    (machine R.toPlatform).Ensures t Eq (fun _ tr' _ => ∃ k ∈ tr', Upserts k)
      (pushVectors R p row current.servable candidate now) tr w := by
  have stored : ∀ contentSha256 titleOnly,
      (machine R.toPlatform).Ensures t Eq (fun _ tr' _ => ∃ k ∈ tr', Upserts k)
        (storeVectors R p row contentSha256 titleOnly now) tr w := by
    intro contentSha256 titleOnly
    unfold storeVectors
    rw [if_neg (by simp [hprobe])]
    rintro w' - ch
    exact Machine.ensures_of_call ⟨_, List.mem_cons_self, _, rfl⟩ _ _
  unfold pushVectors
  unfold Fits at h
  split
  · rename_i body hbody
    rw [hbody] at h
    rw [if_neg (not_not.2 h)]
    exact stored _ _
  · rename_i hbody
    rw [hbody] at h
    rw [if_neg (not_or.2 ⟨h.1, not_not.2 h.2⟩)]
    exact stored _ _

end Steps

/-! ## The frame of a refusal -/

section Frame

variable {R : Runtime} {w : IndexWorld} {payload : Json} {now : String}

/-- The row of a version is one row. -/
theorem isRow_unique {documentId versionId : String} {row : SemanticIndexStateRow}
    (h : w.replica.semantic.rows.find? (isRow documentId versionId) = some row) :
    w.replica.semantic.rows.filter (isRow documentId versionId) = [row] := by
  obtain ⟨hmem, hrow⟩ := Table.mem_of_find? h
  obtain ⟨hd, hv⟩ : row.document_id = documentId ∧ row.version_id = versionId := by
    simpa [isRow] using hrow
  refine Table.filter_eq_singleton (i := fun r => some r.key) (by simp) hmem hrow (by simp) ?_
  intro a _ ha
  obtain ⟨had, hav⟩ : a.document_id = documentId ∧ a.version_id = versionId := by
    simpa [isRow] using ha
  simp [SemanticIndexStateRow.key, had, hav, hd, hv]

/-- A revival changes the row. -/
theorem revive_changes {documentId versionId : String} {row : SemanticIndexStateRow}
    (h : w.replica.semantic.rows.find? (isRow documentId versionId) = some row)
    (hretired : row.retired_at.isSome = true) :
    (effect R.toPlatform (.reviveRow documentId versionId now) w).replica.semantic ≠
      w.replica.semantic := by
  intro heq
  obtain ⟨hmem, hrow⟩ := Table.mem_of_find? h
  rw [← heq] at hmem
  obtain ⟨a, -, ha⟩ := mem_reviveRow.1 hmem
  split_ifs at ha with hkey
  · rw [← ha] at hretired
    cases hretired
  · rw [ha] at hkey
    exact hkey hrow

/-- Without a fault a call goes on with its answer. -/
theorem run_answered {α : Type} {op : Op} {f : Res op → Program α} {k : ℕ}
    {tr : List (Call Op IndexWorld Fault)} :
    (machine R.toPlatform).run 0 (fun _ => Fault.none) (Script.perform op >>= f) k tr w =
      (machine R.toPlatform).run 0 (fun _ => Fault.none) (f (answer R.toPlatform op w)) (k + 1)
        (⟨0, op, .none, w⟩ :: tr) (effect R.toPlatform op w) := rfl

/-- A push that meets a retired row of a current version goes on from its revival. -/
theorem run_revives (h : Revives R.toPlatform w payload) :
    ∃ row c k tr, w.replica.semantic.rows.find?
        (isRow (payloadOf payload).document_id (payloadOf payload).version_id) = some row ∧
      row.retired_at.isSome = true ∧
      (currentVersionCandidate R.toPlatform w.replica (payloadOf payload).document_id).candidate = some c ∧
      (∀ k ∈ tr, ¬ Upserts k) ∧
      (machine R.toPlatform).run 0 (fun _ => Fault.none) (ingestPrecomputedVectors R payload now) 0 [] w =
        (machine R.toPlatform).run 0 (fun _ => Fault.none)
          (pushVectors R (payloadOf payload) { row with retired_at := none, state := .PENDING }
            (currentVersionCandidate R.toPlatform w.replica (payloadOf payload).document_id).servable c now)
          k tr (effect R.toPlatform (.reviveRow (payloadOf payload).document_id
            (payloadOf payload).version_id now) w) := by
  obtain ⟨hvalid, ⟨row, hfind, hretired⟩, hlive, c, hc, hversion⟩ := h
  refine ⟨row, c, 3,
    [⟨0, .reviveRow (payloadOf payload).document_id (payloadOf payload).version_id now, .none, w⟩,
      ⟨0, .selectVersions (payloadOf payload).document_id, .none, w⟩,
      ⟨0, .selectRow (payloadOf payload).document_id (payloadOf payload).version_id, .none, w⟩],
    hfind, hretired, hc, ?_, ?_⟩
  · simp [Upserts]
  · unfold ingestPrecomputedVectors
    rw [hvalid, run_answered]
    have hfound : answer R.toPlatform
        (.selectRow (payloadOf payload).document_id (payloadOf payload).version_id) w =
        some (row, false) := by
      rw [answer, Option.mem_def.1 hfind, hlive]
      rfl
    rw [hfound]
    change (machine R.toPlatform).run 0 _ (pushCurrent R (payloadOf payload) row now) _ _ w = _
    unfold pushCurrent
    rw [run_answered]
    have hcurrent : answer R.toPlatform (.selectVersions (payloadOf payload).document_id) w =
        currentVersionCandidate R.toPlatform w.replica (payloadOf payload).document_id := rfl
    change (machine R.toPlatform).run 0 _ _ _ _ w = _
    rw [hcurrent, Option.mem_def.1 hc]
    simp only
    rw [if_neg (not_not.2 hversion), if_pos hretired, run_answered]
    have hcount : answer R.toPlatform
        (.reviveRow (payloadOf payload).document_id (payloadOf payload).version_id now) w = 1 := by
      rw [answer, isRow_unique hfind]
      rfl
    rw [hcount, if_neg (by simp)]

end Frame

/-! ### A probe that writes -/

/-- Version 2 is withdrawn: it has no body any more. -/
def withdrawnPayload : Json :=
  .obj [
    ("document", .obj [("document_id", .str "doc-1"), ("source_id", .str "source-1"),
      ("source_identity_key", .str "key-1"), ("canonical_locator", .str "urn:doc-1"),
      ("origin_locator", .str "urn:doc-1"), ("first_seen_at", .str "2026-10-01T00:00:00.000Z"),
      ("title", .str "Report"), ("source_kind", .str "FILING"), ("visibility", .str "PUBLIC"),
      ("historical_backfill", .bool false)]),
    ("version", .obj [("version_id", .str "v2"), ("document_id", .str "doc-1"),
      ("version_number", .num (.ofInt 2)), ("content_sha256", .null), ("byte_size", .null),
      ("media_type", .null), ("ingested_at", .str "2026-10-01T00:00:00.000Z"), ("published_at", .null),
      ("event_time", .null), ("source_updated_at", .null), ("response_headers", .obj []),
      ("revision_kind", .str "WITHDRAWAL"), ("corrects_version_id", .null),
      ("historical_backfill", .bool false), ("readable", .bool false)]),
    ("attachments", .arr [])]

/-- Version 1 and its successor, which is then withdrawn: version 1 is current again, its row retired. -/
def withdrawnWorld : IndexWorld :=
  ⟨ingestBatch indexPlatform (ingestBatch indexPlatform (ingestBatch indexPlatform .empty
      (exampleRecord "m1" firstPayload) "v1" "2026-10-02T00:00:00.000Z")
      (exampleRecord "m2" secondPayload) "v2" "2026-10-03T00:00:00.000Z")
      (exampleRecord "m3" withdrawnPayload) "v2" "2026-10-04T00:00:00.000Z", []⟩

/-- A probe of version 1 with the hash of its body. -/
def probePayload : Json :=
  .obj [
    ("document_id", .str "doc-1"), ("version_id", .str "v1"),
    ("content_sha256", .str "7692c3ad3540bb803c020b3aee66cd8887123234ea0c6e7143c0add73ff431ed"),
    ("vectors", .arr [.obj [("ordinal", .num (.ofInt 0)),
      ("values", .arr (List.replicate SEMANTIC_VECTOR_DIMENSIONS (.num (.ofInt 1))))]]),
    ("consistency_check", .bool true)]

end QuantproCollector.SemanticIndex.Push
