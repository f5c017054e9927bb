import QuantproCollector.Lib.Fallible
import QuantproCollector.SemanticIndex.Freshness
import QuantproCollector.SemanticIndex.Search

/-!
# Soundness of semantic search

Whatever the vector index answers, each hit that is returned stands for a live document, a row that is
READY and not retired, and the current version of the document, and its excerpt is cut from that
version's text (`search_sound`).
-/

namespace QuantproCollector.SemanticIndex.Search

open Push Relational

/-! ## Chunks are cut from the text -/

theorem flatten_cutSegments (maxSegment : ℕ) (current text : Units) :
    (cutSegments maxSegment current text).flatten = current ++ text := by
  fun_induction cutSegments maxSegment current text with
  | case1 => simp
  | case2 current hne => simp
  | case3 current u => simp
  | case4 current u v rest _ _ _ ih => simp [ih]
  | case5 current u v rest _ _ _ ih => simp [ih]
  | case6 current u v rest _ _ _ ih => simp [ih]
  | case7 current u v rest _ _ _ ih => simp [ih]
  | case8 current u v rest _ ih => simp [ih]

theorem flatten_chop (maxSegment n : ℕ) (value : Units) : (chop maxSegment n value).flatten = value := by
  induction n generalizing value with
  | zero =>
    unfold chop
    split_ifs with h
    · simp [h]
    · simp
  | succ n ih =>
    unfold chop
    split_ifs with h hempty
    · simp [ih]
    · simp [hempty]
    · simp

theorem flatten_segmentText (text : Units) (maxSegment : ℕ) :
    (segmentText text maxSegment).flatten = text := by
  have hflat : ∀ segments : List Units,
      (segments.flatMap fun segment => chop maxSegment segment.length segment).flatten =
        segments.flatten := by
    intro segments
    induction segments with
    | nil => rfl
    | cons segment rest ih =>
      rw [List.flatMap_cons, List.flatten_append, flatten_chop, ih, List.flatten_cons]
  rw [segmentText, hflat, flatten_cutSegments, List.nil_append]

theorem overlapTail_suffix (text : Units) : overlapTail text <:+ text := by
  unfold overlapTail
  split_ifs with hshort
  · exact List.suffix_refl text
  · dsimp only
    split
    · split_ifs
      · exact (List.drop_suffix _ _).trans (List.drop_suffix _ _)
      · exact List.drop_suffix _ _
    · exact List.drop_suffix _ _

/-- A chunk is built of what was read last, so each lies within what was read. -/
theorem infix_of_joinSegments {current : Units} {segments : List Units} {consumed chunk : Units}
    (hcurrent : current <:+ consumed) (h : chunk ∈ joinSegments current segments) :
    chunk <:+: consumed ++ segments.flatten := by
  induction segments generalizing current consumed with
  | nil =>
    unfold joinSegments at h
    split_ifs at h
    · cases h
    · rw [List.mem_singleton.1 h, List.flatten_nil, List.append_nil]
      exact hcurrent.isInfix
  | cons segment rest ih =>
    have hnext : ∀ {tail : Units}, tail <:+ current → tail ++ segment <:+ consumed ++ segment :=
      fun htail => (List.suffix_append_inj_of_length_eq rfl).2 ⟨htail.trans hcurrent, rfl⟩
    rw [List.flatten_cons, ← List.append_assoc]
    unfold joinSegments at h
    split_ifs at h
    · rcases List.mem_cons.1 h with rfl | h
      · rw [List.append_assoc]
        exact hcurrent.isInfix.trans (List.prefix_append _ _).isInfix
      · exact ih (hnext (overlapTail_suffix current)) h
    · exact ih (hnext (List.suffix_refl current)) h

theorem mem_of_sampleChunks {chunks : List Units} {chunk : Units} (h : chunk ∈ sampleChunks chunks) :
    chunk ∈ chunks := by
  unfold sampleChunks at h
  split_ifs at h
  · rcases List.mem_append.1 h with h | h
    · exact List.mem_of_mem_take h
    · exact List.mem_of_mem_drop h
  · exact h

theorem infix_of_chunk {R : Push.Runtime} {text : List Char} {chunk : Units}
    (h : chunk ∈ chunkSemanticDocument R text) : chunk <:+: normalizedUnits R text := by
  have hinfix := infix_of_joinSegments (List.suffix_refl []) (mem_of_sampleChunks h)
  rwa [flatten_segmentText, List.nil_append] at hinfix

/-! ## What a hit stands for -/

/-- The snippet is a part of the text, bounded. -/
def DrawnFrom (R : Push.Runtime) (text : List Char) (snippet : Units) : Prop :=
  ∃ part, part <:+: normalizedUnits R text ∧ snippet = boundedText part SEMANTIC_SNIPPET_CHARS

/-- The version is a stored PUBLIC one, servable where any is, and precedes every version, or every
servable one where any is servable. -/
structure IsCurrent (P : Platform) (s : Replica) (documentId : String) (c : VersionCandidate)
    (servable : Bool) : Prop where
  stored : ∃ r ∈ s.records, r.isVersionOf documentId = true ∧ versionCandidate r.payload = some c
  servable_eq : isVersionServable c.payload = servable
  others : servable = false → ∀ b ∈ documentVersions P s documentId, isVersionServable b.payload = false
  precedes : ∀ b ∈ documentVersions P s documentId,
    (servable = true → isVersionServable b.payload = true) → precedes P c b = true

/-- The excerpt of a hit on the version of a row. -/
inductive ExcerptOf (R : SearchRuntime) (objects : String → Option (List UInt8))
    (row : SemanticIndexStateRow) (c : VersionCandidate) (servable : Bool) (snippet : Units) : Prop
  | title (honly : row.title_only = true) (hservable : servable = false)
      (hsnippet : snippet = ellipsized (documentTitle R.toRuntime c) SEMANTIC_SNIPPET_CHARS)
  | body {body : ServableBody} {bytes : List UInt8} {text : List Char} (honly : row.title_only = false)
      (hservable : servable = true) (hbody : servableBody c.payload = some body)
      (hobject : objects (objectKey body.contentSha256) = some bytes)
      (hdigest : R.digest bytes = body.contentSha256)
      (htext : composeSemanticText R.toRuntime (documentTitle R.toRuntime c) (R.decode bytes) =
        some text)
      (hdrawn : DrawnFrom R.toRuntime text snippet)

/-- What a returned match stands for. -/
structure SoundMatch (R : SearchRuntime) (s : Replica) (objects : String → Option (List UInt8))
    (m : SemanticSearchMatch) : Prop where
  live : expiredByRetention s m.document_id = false
  row : ∃ row ∈ s.semantic, row.document_id = m.document_id ∧ row.version_id = m.version_id ∧
    row.state = .READY ∧ row.retired_at = none ∧
      ∃ c servable, IsCurrent R.toPlatform s m.document_id c servable ∧ c.versionId = m.version_id ∧
        m.hit.title = documentTitle R.toRuntime c ∧ ExcerptOf R objects row c servable m.hit.snippet

/-- The payload of a candidate is the one it was read from. -/
theorem payload_of_versionCandidate {payload : Json} {c : VersionCandidate}
    (h : versionCandidate payload = some c) : c.payload = payload := by
  unfold versionCandidate at h
  split at h
  · split at h
    · obtain rfl := Option.some.inj h
      rfl
    · cases h
  · cases h

theorem stored_of_mem {P : Platform} {s : Replica} {documentId : String} {c : VersionCandidate}
    (h : c ∈ documentVersions P s documentId) :
    ∃ r ∈ s.records, r.isVersionOf documentId = true ∧ versionCandidate r.payload = some c := by
  obtain ⟨r, hr, hc⟩ := List.mem_filterMap.1 ((List.mem_insertionSort _).1 h)
  exact ⟨r, List.mem_of_mem_filter hr, (List.mem_filter.1 hr).2, hc⟩

theorem isCurrent_of_candidate {P : Platform} {s : Replica} {documentId : String}
    {c : VersionCandidate} {servable : Bool}
    (h : currentVersionCandidate P s documentId = ⟨some c, servable⟩) :
    IsCurrent P s documentId c servable := by
  unfold currentVersionCandidate at h
  cases hfind : (documentVersions P s documentId).find? (isVersionServable ·.payload) with
  | some found =>
    simp only [hfind, CurrentVersion.mk.injEq, Option.some.injEq] at h
    obtain ⟨rfl, rfl⟩ := h
    have hservable := List.find?_some hfind
    refine ⟨stored_of_mem (List.mem_of_find?_eq_some hfind), hservable, nofun,
      fun b hb hservable => ?_⟩
    exact List.rel_of_find? (r := fun a b : VersionCandidate => precedes P a b = true)
      (precedes_total P) (fun _ _ _ => precedes_trans) hfind b ((List.mem_insertionSort _).1 hb)
        (hservable rfl)
  | none =>
    simp only [hfind, CurrentVersion.mk.injEq] at h
    obtain ⟨hhead, rfl⟩ := h
    have hnone : ∀ b ∈ documentVersions P s documentId, isVersionServable b.payload = false :=
      fun b hb => by simpa using List.find?_eq_none.1 hfind b hb
    exact ⟨stored_of_mem (List.mem_of_mem_head? hhead), hnone c (List.mem_of_mem_head? hhead),
      fun _ => hnone, fun b hb _ => head_precedes hhead b hb⟩

/-! ## Validated hits -/

section Validated

variable {R : SearchRuntime} {s : Replica} {objects : String → Option (List UInt8)}
  {row : SemanticIndexStateRow} {c : VersionCandidate} {servable : Bool} {v : ValidatedHit}

theorem excerpt_of_titleHit (honly : row.title_only = true)
    (h : titleHit R.toRuntime row c servable = some v) :
    v.title = documentTitle R.toRuntime c ∧ ExcerptOf R objects row c servable v.snippet := by
  unfold titleHit at h
  split_ifs at h with hrefused
  obtain rfl := Option.some.inj h
  simp only [Bool.or_eq_true, not_or, Bool.not_eq_true] at hrefused
  exact ⟨rfl, .title honly hrefused.1.1 rfl⟩

theorem excerpt_of_bodyHit {chunk : ℕ} (honly : row.title_only = false)
    (h : bodyHit R objects row c servable chunk = .ok (some v)) :
    v.title = documentTitle R.toRuntime c ∧ ExcerptOf R objects row c servable v.snippet := by
  unfold bodyHit at h
  cases servable with
  | false => cases h
  | true =>
    simp only [if_true] at h
    cases hbody : servableBody c.payload with
    | none =>
      rw [hbody] at h
      cases h
    | some body =>
      simp only [hbody] at h
      split_ifs at h
      · cases h
      cases hobject : objects (objectKey body.contentSha256) with
      | none =>
        rw [hobject] at h
        cases h
      | some bytes =>
        simp only [hobject] at h
        split_ifs at h with hdigest
        cases htext : composeSemanticText R.toRuntime (documentTitle R.toRuntime c)
            (R.decode bytes) with
        | none =>
          rw [htext] at h
          cases h
        | some text =>
          simp only [htext] at h
          split at h
          · cases h
          · rename_i value hvalue
            obtain rfl := Option.some.inj (Except.ok.inj h)
            exact ⟨rfl, .body honly rfl hbody hobject (not_not.1 hdigest) htext
              ⟨value, infix_of_chunk (List.mem_of_getElem? hvalue), rfl⟩⟩

theorem sound_of_validated {hit : MatchMetadata} {score : Decimal}
    (h : validateSemanticHit R s objects hit = .ok (some v)) :
    SoundMatch R s objects ⟨hit.document_id, hit.version_id, score, v⟩ := by
  unfold validateSemanticHit at h
  cases hrow : hitRow s hit with
  | none =>
    rw [hrow] at h
    cases h
  | some row =>
    simp only [hrow] at h
    by_cases hready : isLiveReady row = false
    · rw [if_pos (by simp [hready])] at h
      cases h
    rw [if_neg (by simpa using hready)] at h
    unfold hitRow at hrow
    split_ifs at hrow with hexpired
    have hkeys : isRow hit.document_id hit.version_id row = true := List.find?_some hrow
    simp only [isRow, decide_eq_true_eq] at hkeys
    simp only [isLiveReady, Bool.not_eq_false, Bool.and_eq_true, decide_eq_true_eq] at hready
    refine ⟨by simpa using hexpired, row, List.mem_of_find?_eq_some hrow, hkeys.1, hkeys.2,
      hready.1.1.1.1, hready.1.1.1.2, ?_⟩
    cases hcurrent : currentVersionCandidate R.toPlatform s hit.document_id with
    | mk candidate servable =>
      cases candidate with
      | none =>
        rw [hcurrent] at h
        cases h
      | some c =>
        simp only [hcurrent] at h
        split_ifs at h with hversion honly
        · cases h
        · obtain ⟨htitle, hexcerpt⟩ : _ ∧ ExcerptOf R objects row c servable v.snippet :=
            excerpt_of_titleHit honly (Except.ok.inj h)
          exact ⟨c, servable, isCurrent_of_candidate hcurrent, not_not.1 hversion, htitle, hexcerpt⟩
        · obtain ⟨htitle, hexcerpt⟩ := excerpt_of_bodyHit (by simpa using honly) h
          exact ⟨c, servable, isCurrent_of_candidate hcurrent, not_not.1 hversion, htitle, hexcerpt⟩

end Validated

/-! ## Searches -/

/-- What holds of the matches found so far. -/
structure SoundMatches (R : SearchRuntime) (s : Replica) (objects : String → Option (List UInt8))
    (limit : ℕ) (found : List SemanticSearchMatch) : Prop where
  sound : ∀ m ∈ found, SoundMatch R s objects m
  distinct : (found.map (·.document_id)).Nodup
  bounded : found.length ≤ limit

theorem sound_collectHits {R : SearchRuntime} {s : Replica} {objects : String → Option (List UInt8)}
    {limit : ℕ} {found hits : List SemanticSearchMatch} {candidates : List SemanticVectorMatch}
    (hfound : SoundMatches R s objects limit found) (hroom : found.length < limit)
    (h : collectHits R s objects limit found candidates = .ok hits) :
    SoundMatches R s objects limit hits := by
  induction candidates generalizing found with
  | nil =>
    obtain rfl := Except.ok.inj h
    exact hfound
  | cons candidate rest ih =>
    unfold collectHits at h
    split at h
    · exact ih hfound hroom h
    · rename_i hit _
      split_ifs at h with hseen
      · exact ih hfound hroom h
      · split at h
        · cases h
        · exact ih hfound hroom h
        · rename_i validated hvalidated
          have hnext : SoundMatches R s objects limit
              (found ++ [⟨hit.document_id, hit.version_id, candidate.score, validated⟩]) := by
            refine ⟨?_, ?_, ?_⟩
            · intro m hm
              rcases List.mem_append.1 hm with hm | hm
              · exact hfound.sound m hm
              · rw [List.mem_singleton.1 hm]
                exact sound_of_validated hvalidated
            · rw [List.map_append, List.map_singleton]
              exact List.Nodup.append hfound.distinct (List.nodup_singleton _)
                (List.disjoint_singleton.2 (by simpa using hseen))
            · rw [List.length_append, List.length_singleton]
              exact hroom
          dsimp only at h
          split_ifs at h with hfull
          · obtain rfl := Except.ok.inj h
            exact hnext
          · exact ih hnext (not_le.1 hfull) h

/-- **Soundness of semantic search.** Whatever the state of the tables and the objects and whatever
the vector index answers, every match that a search returns stands for a live document, an unretired
READY row and the current version, with an excerpt of that version's text; no document comes twice and
no more matches than asked for. -/
theorem search_sound (R : SearchRuntime) (s : Replica) (objects : String → Option (List UInt8))
    (providers : ProviderAnswers) (query : String) (limit : Option Decimal)
    (result : SemanticSearchResult)
    (h : searchPublicDocumentsSemantic R s objects providers query limit = .ok result) :
    (∀ m ∈ result.hits, SoundMatch R s objects m) ∧ (result.hits.map (·.document_id)).Nodup ∧
      (result.hits.length : ℤ) ≤ (limit.getD (.ofInt 10)).toInt := by
  unfold searchPublicDocumentsSemantic at h
  dsimp only at h
  split_ifs at h with hquery hlimit
  simp only [Bool.or_eq_true, decide_eq_true_eq, not_or] at hlimit
  have hpositive : 1 ≤ (limit.getD (.ofInt 10)).toInt := not_lt.1 hlimit.1.2
  split at h
  · cases h
  · obtain ⟨candidates, -, h⟩ := Fallible.bind_eq_ok.1 h
    obtain ⟨hits, hcollect, hresult⟩ := Fallible.bind_eq_ok.1 h
    obtain rfl := Except.ok.inj hresult
    have hsound := sound_collectHits ⟨List.forall_mem_nil _, List.nodup_nil, Nat.zero_le _⟩
      (by rw [List.length_nil]; omega) hcollect
    refine ⟨hsound.sound, hsound.distinct, ?_⟩
    have := hsound.bounded
    simp only
    omega

/-- The digest and the text of the bytes of `one`, the body of the first payload. -/
def searchRuntime : SearchRuntime where
  toRuntime := pushRuntime
  digest bytes :=
    if bytes = [111, 110, 101] then
      "7692c3ad3540bb803c020b3aee66cd8887123234ea0c6e7143c0add73ff431ed"
    else "3fc4ccfe745870e2c0d99f71f30ff0656c8dedd41cc1d7d3d376b0dbe685e2f3"
  decode bytes := if bytes = [111, 110, 101] then "one" else "two"

def searchObjects (key : String) : Option (List UInt8) :=
  if key = objectKey "7692c3ad3540bb803c020b3aee66cd8887123234ea0c6e7143c0add73ff431ed" then
    some [111, 110, 101]
  else none

/-- The first version and its indexed row. -/
def searchReplica : Replica :=
  { Replica.empty with
    records := Table.empty.upsert
      { record_type := "document_version", record_key := "v1", message_id := "m1",
        visibility := .PUBLIC, schema_version := "collector-outbound-v4", payload := firstPayload,
        generated_at := none, updated_at := "2026-10-02T00:00:00.000Z" } id recordKey_id
    semantic := Table.empty.upsert
      { document_id := "doc-1", version_id := "v1", state := .READY,
        content_sha256 := some "7692c3ad3540bb803c020b3aee66cd8887123234ea0c6e7143c0add73ff431ed",
        model_id := SEMANTIC_MODEL_ID, title_only := false, truncated := false, expected_chunks := 1,
        confirmed_chunks := 1, attempts := 0, last_error_code := none, retired_at := none,
        vector_deleted_at := none, registered_at := "2026-10-02T00:00:00.000Z",
        updated_at := "2026-10-03T00:00:00.000Z" } id semanticKey_id }

def searchMatch (documentId versionId : String) : Json :=
  .obj [("id", .str (documentId ++ versionId)), ("score", .num (.ofInt 1)),
    ("metadata", .obj [("document_id", .str documentId), ("version_id", .str versionId),
      ("chunk", .num (.ofInt 0)), ("model_id", .str SEMANTIC_MODEL_ID)])]

/-- A foreign match, a stale one, and the current version twice: it is returned once. -/
theorem search_sound_once :
    let result : SemanticSearchResult :=
      ⟨[⟨"doc-1", "v1", .ofInt 1, ⟨[82, 101, 112, 111, 114, 116],
        [82, 101, 112, 111, 114, 116, 32, 111, 110, 101], some "FILING", none⟩⟩], .READY⟩
    (∀ m ∈ result.hits, SoundMatch searchRuntime searchReplica searchObjects m) ∧
      (result.hits.map (·.document_id)).Nodup ∧ (result.hits.length : ℤ) ≤ (Decimal.ofInt 10).toInt :=
  search_sound searchRuntime searchReplica searchObjects
    ⟨none, some (.obj [("matches", .arr [searchMatch "doc-9" "v1", searchMatch "doc-1" "v0",
      searchMatch "doc-1" "v1", searchMatch "doc-1" "v1"])])⟩ "report" none _ (by decide +kernel)

end QuantproCollector.SemanticIndex.Search
