import Mathlib.Data.List.Dedup
import QuantproCollector.Lib.JsonReadBack
import QuantproCollector.Retention.Sweep

/-!
# The judgement of a document

A scan aggregates the versions of a document by `MIN` of their ingestion times, as texts, and by `MIN`
of their source ids, and judges the document by the two least values. `judged_iff` says when that is
the judgement of the versions: when the least value speaks for the others.
-/

namespace QuantproCollector.Retention

open Relational SemanticIndex

/-! ## The least value -/

theorem SqlValue.total (a b : SqlValue) : a.le b = true ∨ b.le a = true := by
  cases a <;> cases b <;> simp only [SqlValue.le, decide_eq_true_eq, true_or, or_true]
  · exact le_total _ _
  · exact le_total _ _

theorem SqlValue.chain {a b c : SqlValue} (hab : a.le b = true) (hbc : b.le c = true) :
    a.le c = true := by
  cases a <;> cases b <;> cases c <;>
    simp_all only [SqlValue.le, decide_eq_true_eq, Bool.false_eq_true]
  · exact le_trans hab hbc
  · exact le_trans hab hbc

theorem SqlValue.antisymm {a b : SqlValue} (hab : a.le b = true) (hba : b.le a = true) :
    a = b := by
  cases a with
  | number x =>
    cases b with
    | number y =>
      exact congrArg _ (Decimal.value_injective
        (le_antisymm (of_decide_eq_true hab) (of_decide_eq_true hba)))
    | text t => cases hba
  | text s =>
    cases b with
    | number y => cases hab
    | text t => exact congrArg _ (le_antisymm (of_decide_eq_true hab) (of_decide_eq_true hba))

/-- A value of the list that no other is below. -/
def IsLeast (values : List SqlValue) (m : SqlValue) : Prop :=
  m ∈ values ∧ ∀ u ∈ values, m.le u = true

theorem isLeast_unique {values : List SqlValue} {m n : SqlValue} (hm : IsLeast values m)
    (hn : IsLeast values n) : m = n :=
  SqlValue.antisymm (hm.2 n hn.1) (hn.2 m hm.1)

/-- The lesser of the least value so far and another. -/
def lesser (acc : Option SqlValue) (v : SqlValue) : Option SqlValue :=
  match acc with
  | none => some v
  | some m => if m.le v then some m else some v

theorem isLeast_singleton (v : SqlValue) : IsLeast [v] v := by
  refine ⟨List.mem_singleton_self v, fun u hu => ?_⟩
  rw [List.mem_singleton.1 hu]
  exact (SqlValue.total v v).elim id id

theorem isLeast_foldl {seen : List SqlValue} (rest : List SqlValue) {m : SqlValue}
    (h : IsLeast seen m) :
    ∃ n, rest.foldl lesser (some m) = some n ∧ IsLeast (seen ++ rest) n := by
  induction rest generalizing seen m with
  | nil => exact ⟨m, rfl, by rwa [List.append_nil]⟩
  | cons v rest ih =>
    obtain ⟨n, hn, hleast⟩ : ∃ n, lesser (some m) v = some n ∧ IsLeast (seen ++ [v]) n := by
      by_cases hle : m.le v = true
      · refine ⟨m, if_pos hle, List.mem_append_left _ h.1, fun u hu => ?_⟩
        rcases List.mem_append.1 hu with hu | hu
        · exact h.2 u hu
        · rwa [List.mem_singleton.1 hu]
      · have hvm : v.le m = true := (SqlValue.total m v).resolve_left hle
        refine ⟨v, if_neg hle, List.mem_append_right _ (List.mem_singleton_self v), fun u hu => ?_⟩
        rcases List.mem_append.1 hu with hu | hu
        · exact SqlValue.chain hvm (h.2 u hu)
        · rw [List.mem_singleton.1 hu]
          exact (SqlValue.total v v).elim id id
    rw [List.foldl_cons, hn, ← List.singleton_append, ← List.append_assoc]
    exact ih hleast

/-- `MIN` is the least of the values that are not `NULL`. -/
theorem sqlMin_eq_some_iff {values : List (Option SqlValue)} {m : SqlValue} :
    sqlMin values = some m ↔ IsLeast (values.filterMap id) m := by
  have hmin : sqlMin values = (values.filterMap id).foldl lesser none := rfl
  rw [hmin]
  cases hvalues : values.filterMap id with
  | nil => exact iff_of_false (by simp) fun h => absurd h.1 List.not_mem_nil
  | cons v rest =>
    obtain ⟨n, hn, hleast⟩ := isLeast_foldl rest (isLeast_singleton v)
    rw [List.foldl_cons, show lesser none v = some v from rfl, hn]
    exact ⟨fun h => Option.some.inj h ▸ hleast, fun h => congrArg some (isLeast_unique hleast h)⟩

theorem exists_sqlMin {values : List (Option SqlValue)} {v : SqlValue} (h : some v ∈ values) :
    ∃ m, sqlMin values = some m := by
  have hmem : v ∈ values.filterMap id := List.mem_filterMap.2 ⟨some v, h, rfl⟩
  have hmin : sqlMin values = (values.filterMap id).foldl lesser none := rfl
  rw [hmin]
  cases hvalues : values.filterMap id with
  | nil =>
    rw [hvalues] at hmem
    cases hmem
  | cons u rest =>
    obtain ⟨n, hn, -⟩ := isLeast_foldl rest (isLeast_singleton u)
    exact ⟨n, hn⟩

/-- Where a property holds of some value, it holds of one that no other is below. -/
def LeastFirst (p : SqlValue → Prop) (values : List SqlValue) : Prop :=
  (∃ v ∈ values, p v) → ∃ v ∈ values, p v ∧ ∀ u ∈ values, v.le u = true

/-- The least value has a property exactly when some value has it, where the property comes first. -/
theorem least_iff {p : SqlValue → Prop} {values : List (Option SqlValue)} :
    ((∃ m, sqlMin values = some m ∧ p m) ↔ ∃ v ∈ values.filterMap id, p v) ↔
      LeastFirst p (values.filterMap id) := by
  constructor
  · intro h hsome
    obtain ⟨m, hm, hpm⟩ := h.2 hsome
    obtain ⟨hmem, hleast⟩ := sqlMin_eq_some_iff.1 hm
    exact ⟨m, hmem, hpm, hleast⟩
  · intro h
    refine ⟨fun ⟨m, hm, hpm⟩ => ⟨m, (sqlMin_eq_some_iff.1 hm).1, hpm⟩, fun hsome => ?_⟩
    obtain ⟨v, hmem, hpv, hleast⟩ := h hsome
    exact ⟨v, sqlMin_eq_some_iff.2 ⟨hmem, hleast⟩, hpv⟩

/-! ## The judgement -/

/-- The ingestion times of a document's versions. -/
def ingestionTimes (w : World) (documentId : String) : List SqlValue :=
  ((versionsOf w documentId).flatMap (ingestedAt w)).filterMap id

/-- The source id of a version. -/
def sourceOf (r : ReplicaRecordRow) : Option SqlValue :=
  jsonExtract ((r.payload.get? "document").bind (·.get? "source_id"))

def sourceIds (w : World) (documentId : String) : List SqlValue :=
  (versionsOf w documentId).filterMap sourceOf

/-- The source is one that always expires. -/
def Forced (source : SqlValue) : Prop :=
  ∃ s ∈ source.text?, s ∈ RETENTION_FORCE_EXPIRED_SOURCE_IDS

/-- The time's instant is before the cutoff's. -/
def Before (P : Runtime) (cutoff : String) (time : SqlValue) : Prop :=
  ∃ instant ∈ P.dateParse time.jsText, ∃ limit ∈ P.dateParse cutoff, instant < limit

/-- What the reason is to say of a document: that some version comes from a forced source, or else
that the earliest of the ingestion times is before the cutoff. -/
structure Judged (P : Runtime) (w : World) (documentId cutoff : String)
    (reason : Option RetentionReason) : Prop where
  source : reason = some .SOURCE_E02_GELONGHUI_LIVE ↔ ∃ s ∈ sourceIds w documentId, Forced s
  age : (¬ ∃ s ∈ sourceIds w documentId, Forced s) →
    (reason = some .AGE_90D ↔ ∃ t ∈ ingestionTimes w documentId, Before P cutoff t)

theorem leastFirst_congr {p : SqlValue → Prop} {values others : List SqlValue}
    (h : ∀ v, v ∈ values ↔ v ∈ others) : LeastFirst p values ↔ LeastFirst p others := by
  simp only [LeastFirst, h]

theorem reason_source_iff (P : Runtime) (source time : Option SqlValue) (cutoff : String) :
    retentionExpiryReason P source time cutoff = some .SOURCE_E02_GELONGHUI_LIVE ↔
      ∃ s, source = some s ∧ Forced s := by
  have hforced : (∃ s ∈ source.bind SqlValue.text?, s ∈ RETENTION_FORCE_EXPIRED_SOURCE_IDS) ↔
      ∃ s, source = some s ∧ Forced s := by
    cases source <;> simp [Forced]
  rw [← hforced]
  unfold retentionExpiryReason
  split_ifs with h
  · exact iff_of_true rfl h
  · refine iff_of_false ?_ h
    cases P.dateParse ((time.map SqlValue.jsText).getD "") with
    | none => simp
    | some timestamp =>
      cases P.dateParse cutoff with
      | none => simp
      | some limit =>
        dsimp only
        split_ifs <;> simp

theorem reason_age_iff (P : Runtime) {source : Option SqlValue} (time : SqlValue) (cutoff : String)
    (hsource : ¬ ∃ s, source = some s ∧ Forced s) :
    retentionExpiryReason P source (some time) cutoff = some .AGE_90D ↔ Before P cutoff time := by
  have hforced : ¬ ∃ s ∈ source.bind SqlValue.text?, s ∈ RETENTION_FORCE_EXPIRED_SOURCE_IDS := by
    cases source with
    | none => simp
    | some s => exact fun h => hsource ⟨s, rfl, h⟩
  have htext : ((some time).map SqlValue.jsText).getD "" = time.jsText := rfl
  rw [retentionExpiryReason, if_neg hforced, htext]
  unfold Before
  cases P.dateParse time.jsText with
  | none => simp
  | some timestamp =>
    cases P.dateParse cutoff with
    | none => simp
    | some limit =>
      dsimp only
      split_ifs with h <;> simp [h]

/-! ## The scanned document -/

theorem ingestedAt_spec (w : World) (r : ReplicaRecordRow) :
    ingestedAt w r ≠ [] ∧ ∀ time ∈ ingestedAt w r, ∃ v, time = some v := by
  have hsome : ∀ (declared : Option SqlValue) (s : String),
      ∃ v, (declared <|> some (.text s)) = some v := by
    rintro (_ | v) s
    · exact ⟨_, rfl⟩
    · exact ⟨v, rfl⟩
  unfold ingestedAt
  dsimp only
  split
  · exact ⟨List.cons_ne_nil _ _, fun time htime => List.mem_singleton.1 htime ▸ hsome _ _⟩
  · rename_i hne
    refine ⟨fun hnil => hne (List.map_eq_nil_iff.1 hnil), fun time htime => ?_⟩
    obtain ⟨m, -, rfl⟩ := List.mem_map.1 htime
    exact hsome _ _

theorem first_ingested_eq (w : World) (documentId : String) :
    (scanRow w documentId).first_ingested_at =
      sqlMin ((versionsOf w documentId).flatMap (ingestedAt w)) := by
  have hpairs : ∀ rows : List ReplicaRecordRow,
      (rows.flatMap fun r => (ingestedAt w r).map (r, ·)).map (·.2) =
        rows.flatMap (ingestedAt w) := by
    intro rows
    rw [List.map_flatMap]
    refine congrArg (fun f => rows.flatMap f) (funext fun r => ?_)
    rw [List.map_map]
    exact List.map_id _
  exact congrArg sqlMin (hpairs _)

/-- The source ids of the joined rows. -/
def joinedSources (w : World) (documentId : String) : List (Option SqlValue) :=
  ((versionsOf w documentId).flatMap fun r => (ingestedAt w r).map (r, ·)).map fun x => sourceOf x.1

theorem mem_joinedSources {w : World} {documentId : String} {s : SqlValue} :
    s ∈ (joinedSources w documentId).filterMap id ↔ s ∈ sourceIds w documentId := by
  simp only [joinedSources, sourceIds, List.mem_filterMap, List.mem_map, List.mem_flatMap, id_eq]
  constructor
  · rintro ⟨_, ⟨_, ⟨r, hr, time, -, rfl⟩, rfl⟩, hs⟩
    exact ⟨r, hr, hs⟩
  · rintro ⟨r, hr, hs⟩
    obtain ⟨time, htime⟩ := List.exists_mem_of_ne_nil _ (ingestedAt_spec w r).1
    exact ⟨_, ⟨_, ⟨r, hr, time, htime, rfl⟩, rfl⟩, hs⟩

theorem versions_of_scanPage {w : World} {cursor : String} {limit : ℕ} {row : ScanRow}
    (h : row ∈ scanPage w cursor limit) :
    row = scanRow w row.document_id ∧ versionsOf w row.document_id ≠ [] := by
  obtain ⟨documentId, hd, rfl⟩ := List.mem_map.1 h
  refine ⟨rfl, ?_⟩
  have hscanned := List.mem_of_mem_filter (List.mem_of_mem_take hd)
  have hdedup := (List.mem_insertionSort _).1 (List.mem_of_mem_filter hscanned)
  obtain ⟨r, hr, hdoc⟩ := List.mem_filterMap.1 (List.mem_dedup.1 hdedup)
  obtain ⟨hmem, hpublic⟩ := List.mem_filter.1 hr
  refine List.ne_nil_of_mem (List.mem_filter.2 ⟨hmem, ?_⟩)
  exact Bool.and_eq_true_iff.2 ⟨hpublic, decide_eq_true hdoc⟩

/-- The least values speak for the document: a forced source id stands first where there is one, and
where there is none a time before the cutoff does. -/
def LeastSpeaks (P : Runtime) (w : World) (documentId cutoff : String) : Prop :=
  LeastFirst Forced (sourceIds w documentId) ∧
    ((¬ ∃ s ∈ sourceIds w documentId, Forced s) →
      LeastFirst (Before P cutoff) (ingestionTimes w documentId))

/-- A scanned document is judged by its versions exactly where the least values speak for them. -/
theorem judged_iff (P : Runtime) {w : World} {cursor : String} {limit : ℕ} {row : ScanRow}
    (cutoff : String) (h : row ∈ scanPage w cursor limit) :
    Judged P w row.document_id cutoff
        (retentionExpiryReason P row.source_id row.first_ingested_at cutoff) ↔
      LeastSpeaks P w row.document_id cutoff := by
  obtain ⟨hrow, hversions⟩ := versions_of_scanPage h
  generalize row.document_id = documentId at hrow hversions ⊢
  subst hrow
  obtain ⟨r, hr⟩ := List.exists_mem_of_ne_nil _ hversions
  obtain ⟨time, htime⟩ := List.exists_mem_of_ne_nil _ (ingestedAt_spec w r).1
  obtain ⟨v, rfl⟩ := (ingestedAt_spec w r).2 time htime
  obtain ⟨first, hfirst⟩ := exists_sqlMin (List.mem_flatMap.2 ⟨r, hr, htime⟩)
  have hsource : (∃ s, (scanRow w documentId).source_id = some s ∧ Forced s) ↔
      ∃ m, sqlMin (joinedSources w documentId) = some m ∧ Forced m := Iff.rfl
  have hforced : ((∃ s, (scanRow w documentId).source_id = some s ∧ Forced s) ↔
      ∃ s ∈ sourceIds w documentId, Forced s) ↔ LeastFirst Forced (sourceIds w documentId) := by
    rw [hsource, ← leastFirst_congr fun s => mem_joinedSources, ← least_iff]
    simp only [mem_joinedSources]
  have hage : (¬ ∃ s, (scanRow w documentId).source_id = some s ∧ Forced s) →
      ((retentionExpiryReason P (scanRow w documentId).source_id
          (scanRow w documentId).first_ingested_at cutoff = some .AGE_90D ↔
        ∃ t ∈ ingestionTimes w documentId, Before P cutoff t) ↔
        LeastFirst (Before P cutoff) (ingestionTimes w documentId)) := by
    intro hnone
    rw [first_ingested_eq, hfirst, reason_age_iff P first cutoff hnone]
    unfold ingestionTimes
    rw [← least_iff, hfirst]
    simp
  constructor
  · rintro ⟨hs, ha⟩
    rw [reason_source_iff] at hs
    exact ⟨hforced.1 hs, fun hnone => (hage (fun h => hnone (hs.1 h))).1 (ha hnone)⟩
  · rintro ⟨hs, ha⟩
    have hiff := hforced.2 hs
    refine ⟨(reason_source_iff ..).trans hiff, fun hnone => ?_⟩
    exact (hage fun h => hnone (hiff.1 h)).2 (ha hnone)

/-! Two versions of a document, and the cutoff of 18:00 UTC on the last of May. -/

/-- The record of a version of the document, with its source and its ingestion time. -/
def versionRecord (versionId source time : String) : ReplicaRecordRow where
  record_type := "document_version"
  record_key := versionId
  message_id := versionId
  visibility := .PUBLIC
  schema_version := "collector-outbound-v4"
  payload := .obj [("document", .obj [("document_id", .str "doc-1"), ("source_id", .str source)]),
    ("version", .obj [("version_id", .str versionId), ("ingested_at", .str time)])]
  generated_at := none
  updated_at := "2026-08-01T00:00:00.000Z"

def twoVersions (first second : ReplicaRecordRow) : World :=
  { World.empty with
    records := (World.empty.records.upsert first id fun _ => rfl).upsert second id fun _ => rfl }

def cutoffText : String := "2026-05-31T18:00:00.000Z"

/-- The runtime reads the dates there are. -/
def dateRuntime : Runtime where
  sha256Hex _ := ""
  isoOfText _ := none
  addSeconds _ _ := none
  numberOfText _ := none
  daysBefore _ _ := some cutoffText
  dateParse text :=
    if text = cutoffText then some 1780250400000
    else if text = "2026-06-01T00:00:00+08:00" then some 1780243200000
    else if text = "2026-05-31T20:00:00Z" then some 1780257600000
    else none

/-- The earlier instant is written with an offset, and is the greater text. -/
def offsetWorld : World :=
  twoVersions (versionRecord "v1" "E01" "2026-06-01T00:00:00+08:00")
    (versionRecord "v2" "E01" "2026-05-31T20:00:00Z")

/-- One version comes from the forced source, another from a source whose id is less. -/
def mixedWorld : World :=
  twoVersions (versionRecord "v1" "E01" "2026-05-31T20:00:00Z")
    (versionRecord "v2" "E02-gelonghui-live" "2026-05-31T20:00:00Z")

/-- The judgement of the document in a world. -/
def judgementIn (w : World) : Option RetentionReason :=
  retentionExpiryReason dateRuntime (scanRow w "doc-1").source_id
    (scanRow w "doc-1").first_ingested_at cutoffText

/-- The document of the offsets is not judged expired by age, the one of two sources not by its
source. -/
theorem least_misjudges :
    ¬ Judged dateRuntime offsetWorld "doc-1" cutoffText (judgementIn offsetWorld) ∧
      ¬ Judged dateRuntime mixedWorld "doc-1" cutoffText (judgementIn mixedWorld) := by
  have hreasons : judgementIn offsetWorld = none ∧ judgementIn mixedWorld = none := by decide
  rw [hreasons.1, hreasons.2]
  constructor
  · rintro ⟨-, hage⟩
    have hnone : ¬ ∃ s ∈ sourceIds offsetWorld "doc-1", Forced s := by
      have hids : sourceIds offsetWorld "doc-1" = [.text "E01", .text "E01"] := by decide
      rw [hids]
      simp [Forced, SqlValue.text?, RETENTION_FORCE_EXPIRED_SOURCE_IDS]
    have hbefore : ∃ t ∈ ingestionTimes offsetWorld "doc-1", Before dateRuntime cutoffText t :=
      ⟨.text "2026-06-01T00:00:00+08:00", by decide, 1780243200000, by decide, 1780250400000,
        by decide, by decide⟩
    exact absurd ((hage hnone).2 hbefore) (by decide)
  · rintro ⟨hsource, -⟩
    have hforced : ∃ s ∈ sourceIds mixedWorld "doc-1", Forced s :=
      ⟨.text "E02-gelonghui-live", by decide, "E02-gelonghui-live", by decide, by decide⟩
    exact absurd (hsource.2 hforced) (by decide)

theorem judged_iff_offset :
    Judged dateRuntime offsetWorld "doc-1" cutoffText (judgementIn offsetWorld) ↔
      LeastSpeaks dateRuntime offsetWorld "doc-1" cutoffText := by
  have hscanned : scanRow offsetWorld "doc-1" ∈ scanPage offsetWorld "" 1 := by decide
  exact judged_iff dateRuntime cutoffText hscanned

end QuantproCollector.Retention
