import QuantproCollector.Lib.FirstSorted
import QuantproCollector.Lib.JsonText
import QuantproCollector.Lib.Moment
import QuantproCollector.SemanticIndex.Currency
import Mathlib.Data.List.TakeWhile

/-!
# Theme accumulators

Accumulator snapshots arrive in any order and any number of times; `getThemeAccumulator` returns the one
whose stored time comes last, and of equal times the one with the last id. The stored time keeps the
milliseconds of the time that the snapshot names, so what is returned is the latest snapshot unless one of
the same millisecond has a later id, or the latest one is the only one of the year 10000
(`getThemeAccumulator_iff`).
-/

namespace QuantproCollector.ResearchReplica

open SemanticIndex Relational Calendar

/-- The platform, with what it reads in dates. -/
structure DateRuntime extends Platform where
  /-- The moment that the engine reads in a text that is not of the form of `Moment.ofISOChars`. -/
  readOther : String → Option Moment
  isoOfText_eq : ∀ text, isoOfText text =
    ((Moment.ofISOChars text.toList).or (readOther text)).map Moment.toISOString

/-- The moment that a text names. -/
def DateRuntime.moment (R : DateRuntime) (text : String) : Option Moment :=
  (Moment.ofISOChars text.toList).or (R.readOther text)

/-! ## Ingest -/

/-- `String(value ?? "")`. -/
def textOrEmpty : Option Json → String
  | none => ""
  | some .null => ""
  | some v => v.text

def trim (text : String) : String :=
  String.ofList (Json.trimChars isSpace text.toList)

/-- `/^\d{4}-\d{2}-\d{2}T/` -/
def beginsWithDate (text : String) : Bool :=
  (Moment.readFields [(4, '-'), (2, '-'), (2, 'T')] text.toList).isSome

/-- `/(Z|[+-]00:00)$/` -/
def endsAtOffsetZero (text : String) : Bool :=
  ["Z", "+00:00", "-00:00"].any fun zone => decide (zone.toList <:+ text.toList)

/-- The columns by which accumulators are ordered. -/
structure AccumulatorOrdering where
  subject : String
  createdAt : String
deriving DecidableEq

/-- The ordering columns of a record of a type with a payload: `none` where it is refused with
`INTEGRITY_FAILED`, and no columns where it is no accumulator. -/
def accumulatorOrdering (R : DateRuntime) (recordType : String) (payload : Json) :
    Option (Option AccumulatorOrdering) :=
  if recordType ≠ "accumulator" then some none
  else
    let subject := trim (textOrEmpty (payload.get? "subject_key"))
    let createdAt := textOrEmpty (payload.get? "created_at")
    if subject = "" ∨ !beginsWithDate createdAt then none
    else
      match R.isoOfText createdAt with
      | none => none
      | some iso => if endsAtOffsetZero createdAt then some (some ⟨subject, iso⟩) else none

/-- Store one verified message, where its ordering columns are not refused. -/
def ingestRecord (R : DateRuntime) (s : Replica) (record : OutboundV2Record) (now : String) :
    Option ReplicaIngestResult × Replica :=
  match accumulatorOrdering R record.record_type record.payload with
  | none => (none, s)
  | some _ => ingestResearchReplicaRecord R.toPlatform s record now

/-- The store after the arrivals, each a record and the clock reading of its ingest. -/
def ingestRecords (R : DateRuntime) (s : Replica) (arrivals : List (OutboundV2Record × String)) :
    Replica :=
  arrivals.foldl (fun s a => (ingestRecord R s a.1 a.2).2) s

/-! ## The current accumulator -/

inductive ReadError where
  | INTEGRITY_FAILED
  | NOT_FOUND
deriving DecidableEq

/-- The columns of a row; they are written with its payload, which determines them. -/
def accumulatorColumns (R : DateRuntime) (row : ReplicaRecordRow) : Option AccumulatorOrdering :=
  (accumulatorOrdering R row.record_type row.payload).join

/-- The rows of the query, each with its time: an adapter reads the rows of its visibility. -/
def accumulatorRows (R : DateRuntime) (s : Replica) (visibility : Visibility) (subjectKey : String) :
    List (String × ReplicaRecordRow) :=
  s.records.rows.filterMap fun row =>
    (accumulatorColumns R row).bind fun columns =>
      if row.record_type = "accumulator" ∧ row.visibility = visibility ∧ columns.subject = subjectKey then
        some (columns.createdAt, row)
      else none

/-- What a row is ordered by: its time, then its key. -/
def rowRank (found : String × ReplicaRecordRow) : String ×ₗ String :=
  toLex (found.1, found.2.record_key)

/-- `ORDER BY accumulator_created_at DESC, record_key DESC LIMIT 1` -/
def currentAccumulator (R : DateRuntime) (s : Replica) (visibility : Visibility) (subjectKey : String) :
    Except ReadError ReplicaRecordRow :=
  if trim subjectKey = "" then .error .INTEGRITY_FAILED
  else
    match ((accumulatorRows R s visibility subjectKey).insertionSort
        fun a b => rowRank b ≤ rowRank a).head? with
    | none => .error .NOT_FOUND
    | some found => .ok found.2

/-- The view of the row, which adds no more than the name of the replica. -/
def getThemeAccumulator (R : DateRuntime) (s : Replica) (visibility : Visibility)
    (subjectKey : String) : Except ReadError ReplicaRecordRow :=
  currentAccumulator R s visibility subjectKey

/-! ## Snapshots -/

/-- What an accepted accumulator record says. -/
structure Snapshot where
  snapshot_id : String
  subject : String
  visibility : Visibility
  /-- The moment it was calculated, as its text names it. -/
  created : Moment
  payload : Json
deriving DecidableEq

def snapshotOf (R : DateRuntime) (record : OutboundV2Record) : Option Snapshot := do
  let columns ← (accumulatorOrdering R record.record_type record.payload).join
  let key ← outboundV2RecordKey record
  let created ← R.moment (textOrEmpty (record.payload.get? "created_at"))
  return ⟨key, columns.subject, record.visibility, created, record.payload⟩

/-- The snapshots of a subject that arrived for an adapter. -/
def Arrived (R : DateRuntime) (arrivals : List (OutboundV2Record × String)) (visibility : Visibility)
    (subject : String) (x : Snapshot) : Prop :=
  (∃ a ∈ arrivals, snapshotOf R a.1 = some x) ∧ x.visibility = visibility ∧ x.subject = subject

/-- The later of two snapshots has the greater rank; of one moment, the one with the later id. -/
def Snapshot.rank (x : Snapshot) : (List ℕ ×ₗ ℚ) ×ₗ String :=
  toLex (x.created.key, x.snapshot_id)

/-- The rank of the row that a snapshot leaves. -/
def Snapshot.storedRank (x : Snapshot) : String ×ₗ String :=
  toLex (x.created.toISOString, x.snapshot_id)

/-- The row is the one that a snapshot leaves. -/
structure Carries (row : ReplicaRecordRow) (x : Snapshot) : Prop where
  record_type : row.record_type = "accumulator"
  record_key : row.record_key = x.snapshot_id
  visibility : row.visibility = x.visibility
  payload : row.payload = x.payload

/-- The read returns the row of a snapshot. -/
def Returns (R : DateRuntime) (s : Replica) (visibility : Visibility) (subject : String)
    (x : Snapshot) : Prop :=
  ∃ row, getThemeAccumulator R s visibility subject = .ok row ∧ Carries row x

/-- A message id names one record: it is a digest of the type and the payload, which names the
visibility. -/
def MessagesDistinct (arrivals : List (OutboundV2Record × String)) : Prop :=
  ∀ a ∈ arrivals, ∀ b ∈ arrivals, a.1.message_id = b.1.message_id →
    a.1.record_type = b.1.record_type ∧ a.1.payload = b.1.payload ∧ a.1.visibility = b.1.visibility

/-- A snapshot id names one snapshot. -/
def SnapshotsDistinct (R : DateRuntime) (arrivals : List (OutboundV2Record × String)) : Prop :=
  ∀ a ∈ arrivals, ∀ b ∈ arrivals, ∀ x y, snapshotOf R a.1 = some x → snapshotOf R b.1 = some y →
    x.snapshot_id = y.snapshot_id → x = y

theorem snapshotsDistinct_of {R : DateRuntime} {arrivals : List (OutboundV2Record × String)}
    (h : ∀ a ∈ arrivals, ∀ b ∈ arrivals,
      (snapshotOf R a.1).map (·.snapshot_id) = (snapshotOf R b.1).map (·.snapshot_id) →
        snapshotOf R a.1 = snapshotOf R b.1) : SnapshotsDistinct R arrivals := by
  intro a ha b hb x y hx hy hid
  have heq := h a ha b hb (by rw [hx, hy, Option.map_some, Option.map_some, hid])
  rw [hx, hy] at heq
  exact Option.some.inj heq

/-! ## What a snapshot's columns say -/

theorem trimChars_eq_nil {p : Char → Bool} {text : List Char} (h : Json.trimChars p text = []) :
    ∀ c ∈ text, p c = true := by
  unfold Json.trimChars at h
  have hinner := List.dropWhile_eq_nil_iff.1 (List.reverse_eq_nil_iff.1 h)
  have hdropped : text.dropWhile p = [] := by
    by_contra hne
    exact absurd (hinner _ (List.mem_reverse.2 (List.head_mem hne)))
      (by simp [List.head_dropWhile_not p hne])
  exact List.dropWhile_eq_nil_iff.1 hdropped

/-- A text of which something is left has no more to trim away to nothing. -/
theorem trimChars_trimChars_ne {p : Char → Bool} {text : List Char}
    (h : Json.trimChars p text ≠ []) : Json.trimChars p (Json.trimChars p text) ≠ [] := by
  intro htwice
  have hall := trimChars_eq_nil htwice
  unfold Json.trimChars at h hall
  have hne : ((text.dropWhile p).reverse).dropWhile p ≠ [] := fun he => h (by rw [he]; rfl)
  exact absurd (hall _ (List.mem_reverse.2 (List.head_mem hne)))
    (by simp [List.head_dropWhile_not p hne])

theorem trim_trim_ne {text : String} (h : trim text ≠ "") : trim (trim text) ≠ "" := by
  have hchars : ∀ chars : List Char, String.ofList chars = "" ↔ chars = [] := fun chars => by
    rw [← String.toList_inj, String.toList_ofList]
    rfl
  unfold trim at h ⊢
  rw [String.toList_ofList, ne_eq, hchars]
  exact trimChars_trimChars_ne fun he => h ((hchars _).2 he)

section Columns

variable {R : DateRuntime} {record : OutboundV2Record} {x : Snapshot}

theorem accumulatorOrdering_eq_some {recordType : String} {payload : Json}
    {columns : AccumulatorOrdering}
    (h : accumulatorOrdering R recordType payload = some (some columns)) :
    recordType = "accumulator" ∧ trim columns.subject ≠ "" ∧
      R.isoOfText (textOrEmpty (payload.get? "created_at")) = some columns.createdAt := by
  unfold accumulatorOrdering at h
  split_ifs at h with htype
  · cases h
  dsimp only at h
  by_cases hsubject : trim (textOrEmpty (payload.get? "subject_key")) = "" ∨
      !beginsWithDate (textOrEmpty (payload.get? "created_at"))
  · rw [if_pos hsubject] at h
    cases h
  rw [if_neg hsubject] at h
  cases hiso : R.isoOfText (textOrEmpty (payload.get? "created_at")) with
  | none =>
    rw [hiso] at h
    cases h
  | some iso =>
    rw [hiso] at h
    dsimp only at h
    split_ifs at h
    · obtain rfl := Option.some.inj (Option.some.inj h)
      exact ⟨not_not.1 htype, trim_trim_ne (not_or.1 hsubject).1, rfl⟩

/-- The columns of an accumulator are there unless it is refused. -/
theorem accumulatorOrdering_ne_none {recordType : String} {payload : Json}
    (htype : recordType = "accumulator") : accumulatorOrdering R recordType payload ≠ some none := by
  unfold accumulatorOrdering
  rw [if_neg (not_not.2 htype)]
  dsimp only
  cases R.isoOfText (textOrEmpty (payload.get? "created_at")) <;> split_ifs <;> nofun

theorem snapshotOf_eq_some (h : snapshotOf R record = some x) :
    outboundV2RecordKey record = some x.snapshot_id ∧ x.visibility = record.visibility ∧
      x.payload = record.payload ∧
      accumulatorOrdering R record.record_type record.payload =
        some (some ⟨x.subject, x.created.toISOString⟩) := by
  unfold snapshotOf at h
  obtain ⟨columns, hcolumns, h⟩ := Option.bind_eq_some_iff.1 h
  obtain ⟨key, hkey, h⟩ := Option.bind_eq_some_iff.1 h
  obtain ⟨created, hcreated, h⟩ := Option.bind_eq_some_iff.1 h
  obtain rfl := Option.some.inj h
  have hordering := Option.join_eq_some_iff.1 hcolumns
  have hiso := (accumulatorOrdering_eq_some hordering).2.2
  rw [R.isoOfText_eq] at hiso
  unfold DateRuntime.moment at hcreated
  rw [hcreated, Option.map_some] at hiso
  refine ⟨hkey, rfl, rfl, hordering.trans ?_⟩
  rw [Option.some.inj hiso]

/-- What a record says depends on its type, payload and visibility alone. -/
theorem snapshotOf_congr {record' : OutboundV2Record} (htype : record.record_type = record'.record_type)
    (hpayload : record.payload = record'.payload) (hvisibility : record.visibility = record'.visibility) :
    snapshotOf R record = snapshotOf R record' := by
  unfold snapshotOf outboundV2RecordKey
  rw [htype, hpayload, hvisibility]

/-- A record that is stored as an accumulator says a snapshot. -/
theorem exists_snapshotOf {key : String} {columns : Option AccumulatorOrdering}
    (htype : record.record_type = "accumulator")
    (hordering : accumulatorOrdering R record.record_type record.payload = some columns)
    (hkey : outboundV2RecordKey record = some key) : ∃ x, snapshotOf R record = some x := by
  cases columns with
  | none => exact absurd hordering (accumulatorOrdering_ne_none htype)
  | some columns =>
    have hiso := (accumulatorOrdering_eq_some hordering).2.2
    rw [R.isoOfText_eq] at hiso
    obtain ⟨created, hcreated, -⟩ := Option.map_eq_some_iff.1 hiso
    refine ⟨⟨key, columns.subject, record.visibility, created, record.payload⟩, ?_⟩
    unfold snapshotOf DateRuntime.moment
    rw [hordering, hkey, hcreated]
    rfl

/-- The row of a snapshot has the snapshot's columns. -/
theorem accumulatorColumns_of_carries {row : ReplicaRecordRow} (hrow : Carries row x)
    (h : snapshotOf R record = some x) :
    accumulatorColumns R row = some ⟨x.subject, x.created.toISOString⟩ := by
  obtain ⟨-, -, hpayload, hordering⟩ := snapshotOf_eq_some h
  have htype := (accumulatorOrdering_eq_some hordering).1
  unfold accumulatorColumns
  rw [hrow.record_type, hrow.payload, hpayload, ← htype, hordering]
  rfl

end Columns

/-! ## The run -/

/-- The store after some arrivals: the accumulator rows are those of their snapshots. -/
structure Stores (R : DateRuntime) (s : Replica) (arrivals : List (OutboundV2Record × String)) :
    Prop where
  known : ∀ m, isReplay s m = true → ∃ a ∈ arrivals, a.1.message_id = m
  sent : ∀ row ∈ s.records, row.record_type = "accumulator" →
    ∃ a ∈ arrivals, ∃ x, snapshotOf R a.1 = some x ∧ Carries row x
  kept : ∀ a ∈ arrivals, ∀ x, snapshotOf R a.1 = some x → ∃ row ∈ s.records, Carries row x

section Run

variable {R : DateRuntime} {s : Replica} {arrivals : List (OutboundV2Record × String)}

/-- An arrival that changes nothing: it is refused, or its snapshot arrived before. -/
theorem Stores.skip (h : Stores R s arrivals) {a : OutboundV2Record × String}
    (ha : ∀ x, snapshotOf R a.1 = some x → ∃ b ∈ arrivals, snapshotOf R b.1 = some x) :
    Stores R s (arrivals ++ [a]) where
  known m hm := by
    obtain ⟨b, hb, hid⟩ := h.known m hm
    exact ⟨b, List.mem_append_left _ hb, hid⟩
  sent row hrow htype := by
    obtain ⟨b, hb, hx⟩ := h.sent row hrow htype
    exact ⟨b, List.mem_append_left _ hb, hx⟩
  kept b hb x hx := by
    rcases List.mem_append.1 hb with hb | hb
    · exact h.kept b hb x hx
    · obtain rfl := List.mem_singleton.1 hb
      obtain ⟨c, hc, hcx⟩ := ha x hx
      exact h.kept c hc x hcx

/-- An arrival that is stored. -/
theorem Stores.store (h : Stores R s arrivals) {a : OutboundV2Record × String} {key : String}
    {columns : Option AccumulatorOrdering}
    (hordering : accumulatorOrdering R a.1.record_type a.1.payload = some columns)
    (hkey : outboundV2RecordKey a.1 = some key) (hdistinct : SnapshotsDistinct R (arrivals ++ [a])) :
    Stores R (ingestBatch R.toPlatform s a.1 key a.2) (arrivals ++ [a]) where
  known m hm := by
    rcases (isReplay_ingestBatch a.1 key a.2 m).1 hm with hm | hm
    · obtain ⟨b, hb, hid⟩ := h.known m hm
      exact ⟨b, List.mem_append_left _ hb, hid⟩
    · exact ⟨a, by simp, hm⟩
  sent row hrow htype := by
    rcases record_of_ingestBatch hrow with ⟨hrow, -⟩ | ⟨hk, hown⟩
    · obtain ⟨b, hb, hx⟩ := h.sent row hrow htype
      exact ⟨b, List.mem_append_left _ hb, hx⟩
    · have hatype : a.1.record_type = "accumulator" := (congrArg Prod.fst hk).symm.trans htype
      obtain ⟨x, hx⟩ := exists_snapshotOf hatype hordering hkey
      obtain ⟨hpayload, hvisibility⟩ := hown (by rw [hatype]; decide)
      obtain ⟨hxkey, hxvisibility, hxpayload, -⟩ := snapshotOf_eq_some hx
      exact ⟨a, by simp, x, hx, htype,
        (congrArg Prod.snd hk).trans (Option.some.inj (hkey.symm.trans hxkey)),
        hvisibility.trans hxvisibility.symm, hpayload.trans hxpayload.symm⟩
  kept b hb x hx := by
    obtain ⟨hxkey, hxvisibility, hxpayload, hxordering⟩ := snapshotOf_eq_some hx
    by_cases hown : a.1.record_type = "accumulator" ∧ key = x.snapshot_id
    · -- the arrival is of the same snapshot id, so it is the same snapshot again
      obtain ⟨hatype, rfl⟩ := hown
      obtain ⟨y, hy⟩ := exists_snapshotOf hatype hordering hkey
      obtain ⟨hykey, hyvisibility, hypayload, -⟩ := snapshotOf_eq_some hy
      obtain rfl : x = y := hdistinct b hb a (by simp) x y hx hy
        (Option.some.inj (hkey.symm.trans hykey))
      obtain ⟨row, hrow, hk, hpayload, hvisibility⟩ :
          ∃ row ∈ (ingestBatch R.toPlatform s a.1 x.snapshot_id a.2).records,
            row.key = (a.1.record_type, x.snapshot_id) ∧ row.payload = a.1.payload ∧
              row.visibility = a.1.visibility := record_of_own (by rw [hatype]; decide)
      exact ⟨row, hrow, (congrArg Prod.fst hk).trans hatype, congrArg Prod.snd hk,
        hvisibility.trans hyvisibility.symm, hpayload.trans hypayload.symm⟩
    · have hbefore : ∃ row ∈ s.records, Carries row x := by
        rcases List.mem_append.1 hb with hb | hb
        · exact h.kept b hb x hx
        · obtain rfl := List.mem_singleton.1 hb
          exact absurd ⟨(accumulatorOrdering_eq_some hxordering).1,
            Option.some.inj (hkey.symm.trans hxkey)⟩ hown
      obtain ⟨row, hrow, hcarries⟩ := hbefore
      refine ⟨row, record_of_other hrow fun hk => hown ⟨?_, ?_⟩, hcarries⟩
      · exact (congrArg Prod.fst hk).symm.trans hcarries.record_type
      · exact (congrArg Prod.snd hk).symm.trans hcarries.record_key

theorem Stores.concat (h : Stores R s arrivals) {a : OutboundV2Record × String}
    (hmessages : MessagesDistinct (arrivals ++ [a])) (hdistinct : SnapshotsDistinct R (arrivals ++ [a])) :
    Stores R (ingestRecord R s a.1 a.2).2 (arrivals ++ [a]) := by
  unfold ingestRecord
  cases hordering : accumulatorOrdering R a.1.record_type a.1.payload with
  | none =>
    refine h.skip fun x hx => ?_
    rw [(snapshotOf_eq_some hx).2.2.2] at hordering
    cases hordering
  | some columns =>
    dsimp only
    unfold ingestResearchReplicaRecord
    cases hkey : outboundV2RecordKey a.1 with
    | none =>
      refine h.skip fun x hx => ?_
      rw [(snapshotOf_eq_some hx).1] at hkey
      cases hkey
    | some key =>
      dsimp only
      split_ifs with hreplay
      · refine h.skip fun x hx => ?_
        obtain ⟨b, hb, hid⟩ := h.known _ hreplay
        obtain ⟨htype, hpayload, hvisibility⟩ :=
          hmessages b (List.mem_append_left _ hb) a (by simp) hid
        exact ⟨b, hb, (snapshotOf_congr htype hpayload hvisibility).trans hx⟩
      · exact h.store hordering hkey hdistinct

theorem ingestRecords_concat (a : OutboundV2Record × String) :
    ingestRecords R s (arrivals ++ [a]) = (ingestRecord R (ingestRecords R s arrivals) a.1 a.2).2 := by
  unfold ingestRecords
  rw [List.foldl_append]
  rfl

/-- The run: the store holds what arrived. -/
theorem stores_ingestRecords (hmessages : MessagesDistinct arrivals)
    (hdistinct : SnapshotsDistinct R arrivals) :
    Stores R (ingestRecords R Replica.empty arrivals) arrivals := by
  induction arrivals using List.reverseRecOn with
  | nil =>
    exact ⟨nofun, fun row hrow => absurd hrow (Table.not_mem_empty row), nofun⟩
  | append_singleton arrivals a ih =>
    have hmem : ∀ {b : OutboundV2Record × String}, b ∈ arrivals → b ∈ arrivals ++ [a] :=
      List.mem_append_left _
    rw [ingestRecords_concat]
    exact (ih (fun b hb c hc => hmessages b (hmem hb) c (hmem hc))
      (fun b hb c hc => hdistinct b (hmem hb) c (hmem hc))).concat hmessages hdistinct

end Run

/-! ## What is returned -/

section Read

theorem eq_of_snapshot_id {R : DateRuntime} {arrivals : List (OutboundV2Record × String)}
    {visibility : Visibility} {subject : String} (hdistinct : SnapshotsDistinct R arrivals)
    {x y : Snapshot} (hx : Arrived R arrivals visibility subject x)
    (hy : Arrived R arrivals visibility subject y) (h : x.snapshot_id = y.snapshot_id) : x = y := by
  obtain ⟨⟨a, ha, hax⟩, -⟩ := hx
  obtain ⟨⟨b, hb, hby⟩, -⟩ := hy
  exact hdistinct a ha b hb x y hax hby h

variable {R : DateRuntime} {s : Replica} {arrivals : List (OutboundV2Record × String)}
  {visibility : Visibility} {subject : String}

/-- The rows of the query are those that the snapshots of the subject left. -/
theorem mem_accumulatorRows (h : Stores R s arrivals) {found : String × ReplicaRecordRow} :
    found ∈ accumulatorRows R s visibility subject ↔
      found.2 ∈ s.records ∧ ∃ x, Arrived R arrivals visibility subject x ∧ Carries found.2 x ∧
        found.1 = x.created.toISOString := by
  unfold accumulatorRows
  rw [List.mem_filterMap]
  constructor
  · rintro ⟨row, hrow, hfound⟩
    obtain ⟨columns, hcolumns, hfound⟩ := Option.bind_eq_some_iff.1 hfound
    split_ifs at hfound with hselected
    obtain rfl := Option.some.inj hfound
    obtain ⟨a, ha, x, hx, hcarries⟩ := h.sent row hrow hselected.1
    obtain rfl := Option.some.inj (hcolumns.symm.trans (accumulatorColumns_of_carries hcarries hx))
    exact ⟨hrow, x, ⟨⟨a, ha, hx⟩, hcarries.visibility.symm.trans hselected.2.1, hselected.2.2⟩,
      hcarries, rfl⟩
  · rintro ⟨hrow, x, ⟨⟨a, -, hx⟩, hvisibility, hsubject⟩, hcarries, htime⟩
    refine ⟨found.2, hrow, ?_⟩
    rw [accumulatorColumns_of_carries hcarries hx, Option.bind_some,
      if_pos ⟨hcarries.record_type, hcarries.visibility.trans hvisibility, hsubject⟩, ← htime]

/-- The rank of a row is that of the snapshot that left it. -/
theorem rowRank_eq {found : String × ReplicaRecordRow} {x : Snapshot} (hcarries : Carries found.2 x)
    (htime : found.1 = x.created.toISOString) : rowRank found = x.storedRank := by
  unfold rowRank Snapshot.storedRank
  rw [htime, hcarries.record_key]

/-- The read returns a snapshot that arrived if and only if none is stored with a greater rank. -/
theorem returns_iff (h : Stores R s arrivals) (hdistinct : SnapshotsDistinct R arrivals) {g : Snapshot}
    (hg : Arrived R arrivals visibility subject g) :
    Returns R s visibility subject g ↔
      ∀ x, Arrived R arrivals visibility subject x → x.storedRank ≤ g.storedRank := by
  obtain ⟨⟨a, ha, hag⟩, hvisibility, hsubject⟩ := id hg
  have hnonempty : trim subject ≠ "" :=
    hsubject ▸ (accumulatorOrdering_eq_some (snapshotOf_eq_some hag).2.2.2).2.1
  have hrow : ∀ x, Arrived R arrivals visibility subject x →
      ∃ found ∈ accumulatorRows R s visibility subject, Carries found.2 x ∧
        found.1 = x.created.toISOString := by
    intro x hx
    obtain ⟨b, hb, hbx⟩ := hx.1
    obtain ⟨row, hrow, hcarries⟩ := h.kept b hb x hbx
    exact ⟨(x.created.toISOString, row), (mem_accumulatorRows h).2 ⟨hrow, x, hx, hcarries, rfl⟩,
      hcarries, rfl⟩
  have hread : getThemeAccumulator R s visibility subject =
      match ((accumulatorRows R s visibility subject).insertionSort
          fun a b => rowRank b ≤ rowRank a).head? with
      | none => .error .NOT_FOUND
      | some found => .ok found.2 := if_neg hnonempty
  obtain ⟨own, hown, howncarries, howntime⟩ := hrow g hg
  cases hhead : ((accumulatorRows R s visibility subject).insertionSort
      fun a b => rowRank b ≤ rowRank a).head? with
  | none =>
    have hempty := (List.mem_insertionSort fun a b => rowRank b ≤ rowRank a).2 hown
    rw [List.head?_eq_none_iff.1 hhead] at hempty
    cases hempty
  | some first =>
    rw [hhead] at hread
    have hfirst : first ∈ accumulatorRows R s visibility subject :=
      (List.mem_insertionSort _).1 (List.mem_of_mem_head? hhead)
    have hgreatest : ∀ found ∈ accumulatorRows R s visibility subject,
        rowRank found ≤ rowRank first :=
      List.rel_of_head? (fun a b => le_total (rowRank b) (rowRank a))
        (fun a b c hab hbc => hbc.trans hab) hhead
    obtain ⟨-, y, hy, hycarries, hytime⟩ := (mem_accumulatorRows h).1 hfirst
    constructor
    · rintro ⟨row, hreturned, hcarries⟩ x hx
      obtain rfl : first.2 = row := Except.ok.inj (hread.symm.trans hreturned)
      obtain rfl : y = g := eq_of_snapshot_id hdistinct hy hg
        (hycarries.record_key.symm.trans hcarries.record_key)
      obtain ⟨found, hfound, hxcarries, hxtime⟩ := hrow x hx
      rw [← rowRank_eq hxcarries hxtime, ← rowRank_eq hycarries hytime]
      exact hgreatest found hfound
    · intro hmax
      have hrank : y.storedRank = g.storedRank := by
        refine le_antisymm (hmax y hy) ?_
        rw [← rowRank_eq howncarries howntime, ← rowRank_eq hycarries hytime]
        exact hgreatest own hown
      obtain rfl : y = g := eq_of_snapshot_id hdistinct hy hg (congrArg (fun r => (ofLex r).2) hrank)
      exact ⟨first.2, hread, hycarries⟩

/-- Of two snapshots, when the one of the lesser or equal rank is stored with no greater one. -/
theorem storedRank_le_iff {x g : Snapshot} (h : x.rank ≤ g.rank) :
    x.storedRank ≤ g.storedRank ↔
      (x.created.millisecond = g.created.millisecond → x.snapshot_id ≤ g.snapshot_id) ∧
        (9999 < g.created.year → 9999 < x.created.year) := by
  have hkey : x.created.key ≤ g.created.key := by
    rcases Prod.Lex.le_iff.1 h with hlt | ⟨heq, -⟩
    · exact hlt.le
    · exact heq.le
  have hyear := Moment.year_le hkey
  unfold Snapshot.storedRank
  rw [Prod.Lex.toLex_le_toLex]
  by_cases hexpanded : 9999 < g.created.year ∧ x.created.year ≤ 9999
  · have hlt := Moment.toISOString_lt_of_expanded hexpanded.1 hexpanded.2
    constructor
    · rintro (hgt | ⟨heq, -⟩)
      · exact absurd hgt (lt_asymm hlt)
      · exact absurd heq.symm hlt.ne
    · rintro ⟨-, hyears⟩
      exact absurd (hyears hexpanded.1) (not_lt.2 hexpanded.2)
  · -- the two texts have one form, and are ordered as the milliseconds are
    have hform : x.created.year ≤ 9999 ↔ g.created.year ≤ 9999 := by omega
    rw [Moment.toISOString_lt_iff hform, Moment.toISOString_inj hform]
    constructor
    · rintro (hlt | ⟨-, hid⟩)
      · exact ⟨fun heq => absurd heq hlt.ne, by omega⟩
      · exact ⟨fun _ => hid, by omega⟩
    · rintro ⟨hid, -⟩
      rcases lt_trichotomy x.created.millisecond g.created.millisecond with hlt | heq | hgt
      · exact .inl hlt
      · exact .inr ⟨heq, hid heq⟩
      · exact absurd hgt (Moment.not_millisecond_lt hkey)

end Read

/-- **The current accumulator.** After any arrivals, in any order and with repetitions, the read returns
the latest snapshot of its subject (of one moment, the one with the last id) if and only if no snapshot
of the same millisecond has a later id and, where that snapshot is of the year 10000, all are. -/
theorem getThemeAccumulator_iff (R : DateRuntime) (arrivals : List (OutboundV2Record × String))
    (hmessages : MessagesDistinct arrivals) (hdistinct : SnapshotsDistinct R arrivals)
    (visibility : Visibility) (subject : String) (g : Snapshot)
    (hg : Arrived R arrivals visibility subject g)
    (hgreatest : ∀ x, Arrived R arrivals visibility subject x → x.rank ≤ g.rank) :
    Returns R (ingestRecords R Replica.empty arrivals) visibility subject g ↔
      (∀ x, Arrived R arrivals visibility subject x →
        x.created.millisecond = g.created.millisecond → x.snapshot_id ≤ g.snapshot_id) ∧
      (9999 < g.created.year → ∀ x, Arrived R arrivals visibility subject x → 9999 < x.created.year) := by
  rw [returns_iff (stores_ingestRecords hmessages hdistinct) hdistinct hg]
  constructor
  · intro h
    exact ⟨fun x hx => ((storedRank_le_iff (hgreatest x hx)).1 (h x hx)).1,
      fun hyear x hx => ((storedRank_le_iff (hgreatest x hx)).1 (h x hx)).2 hyear⟩
  · rintro ⟨hids, hyears⟩ x hx
    exact (storedRank_le_iff (hgreatest x hx)).2 ⟨hids x hx, fun hyear => hyears hyear x hx⟩

/-- A snapshot of a theme at a time. -/
def snapshotRecord (messageId snapshotId createdAt : String) : OutboundV2Record where
  record_type := "accumulator"
  message_id := messageId
  schema_version := "collector-outbound-v3"
  policy_version := "accumulator-v1"
  visibility := .PUBLIC
  payload := .obj [
    ("snapshot_id", .str snapshotId), ("subject_key", .str "fixture-theme"), ("evidence_ids", .arr []),
    ("total_weight", .num ⟨14, -1, .inr (by decide)⟩),
    ("dimensions", .obj [("D", .num (.ofInt 1)), ("S", .num (.ofInt 1)), ("M", .num (.ofInt 1)),
      ("E", .num (.ofInt 0)), ("P", .num (.ofInt 0)), ("C", .num (.ofInt 0))]),
    ("independent_cluster_count", .num (.ofInt 2)), ("unknown_cluster_count", .num (.ofInt 0)),
    ("conflict_count", .num (.ofInt 0)), ("last_evidence_at", .str "2026-09-13T02:00:00+00:00"),
    ("rule_version", .str "accumulator-v1"), ("status", .str "ACCUMULATING"),
    ("created_at", .str createdAt), ("visibility", .str "PUBLIC")]
  generated_at := some createdAt

/-- A runtime that reads no other dates. -/
def dateRuntime : DateRuntime where
  toPlatform := { indexPlatform with
    isoOfText := fun text => (Moment.ofISOChars text.toList).map Moment.toISOString }
  readOther _ := none
  isoOfText_eq text := by rw [Option.or_none]

/-- Two snapshots, each twice. -/
def repeatedArrivals : List (OutboundV2Record × String) :=
  let later := snapshotRecord "outbound_7a178f2e8476c9ffc4b65a717ced8800e79d5438" "snap-a"
    "2026-09-18T10:00:00.0012Z"
  let earlier := snapshotRecord "outbound_3e2fb7a6809ef869905202b8b64703ddff58ae3f" "snap-z"
    "2026-09-18T10:00:00.0009-00:00"
  [(later, "2026-09-18T10:01:00.000Z"), (earlier, "2026-09-18T10:02:00.000Z"),
    (earlier, "2026-09-18T10:03:00.000Z"), (later, "2026-09-18T10:04:00.000Z")]

/-- The later of them. -/
def laterSnapshot : Snapshot where
  snapshot_id := "snap-a"
  subject := "fixture-theme"
  visibility := .PUBLIC
  created := ⟨2026, 9, 18, 10, 0, 0, 3 / 2500, by decide, by decide, by norm_num⟩
  payload := (snapshotRecord "" "snap-a" "2026-09-18T10:00:00.0012Z").payload

theorem getThemeAccumulator_iff_repeated :
    Returns dateRuntime (ingestRecords dateRuntime Replica.empty repeatedArrivals) .PUBLIC
      "fixture-theme" laterSnapshot := by
  have hmessages : ∀ a ∈ repeatedArrivals, ∀ b ∈ repeatedArrivals, a.1.message_id = b.1.message_id →
      a.1.record_type = b.1.record_type ∧ a.1.payload = b.1.payload ∧
        a.1.visibility = b.1.visibility := by decide
  have hdistinct : ∀ a ∈ repeatedArrivals, ∀ b ∈ repeatedArrivals,
      (snapshotOf dateRuntime a.1).map (·.snapshot_id) = (snapshotOf dateRuntime b.1).map (·.snapshot_id) →
        snapshotOf dateRuntime a.1 = snapshotOf dateRuntime b.1 := by decide +kernel
  have hlater : ∃ a ∈ repeatedArrivals, snapshotOf dateRuntime a.1 = some laterSnapshot := by
    decide +kernel
  have hgreatest : ∀ a ∈ repeatedArrivals, ∀ x ∈ snapshotOf dateRuntime a.1,
      x.rank ≤ laterSnapshot.rank := by decide +kernel
  have hids : ∀ a ∈ repeatedArrivals, ∀ x ∈ snapshotOf dateRuntime a.1,
      x.created.millisecond = laterSnapshot.created.millisecond →
        x.snapshot_id ≤ laterSnapshot.snapshot_id := by decide +kernel
  exact (getThemeAccumulator_iff dateRuntime repeatedArrivals hmessages (snapshotsDistinct_of hdistinct)
    .PUBLIC "fixture-theme" laterSnapshot ⟨hlater, rfl, rfl⟩
    fun x ⟨⟨a, ha, hx⟩, _⟩ => hgreatest a ha x hx).2
      ⟨fun x ⟨⟨a, ha, hx⟩, _⟩ => hids a ha x hx, fun hyear => absurd hyear (by decide)⟩

/-- Two snapshots of one millisecond, the first of which is the later one. -/
def snapshotArrivals : List (OutboundV2Record × String) :=
  [(snapshotRecord "outbound_ca7d983dd539d00bf19b0c063321e8b641e79bc8" "snap-a"
      "2026-09-18T10:00:00.000200+00:00", "2026-09-18T10:01:00.000Z"),
    (snapshotRecord "outbound_32bcdcf65280f2fe8cdc5880922e681e45f66ff3" "snap-z"
      "2026-09-18T10:00:00.000100+00:00", "2026-09-18T10:02:00.000Z")]

/-- The first of them, which is the latest. -/
def latestSnapshot : Snapshot where
  snapshot_id := "snap-a"
  subject := "fixture-theme"
  visibility := .PUBLIC
  created := ⟨2026, 9, 18, 10, 0, 0, 1 / 5000, by decide, by decide, by norm_num⟩
  payload := (snapshotRecord "" "snap-a" "2026-09-18T10:00:00.000200+00:00").payload

/-- The earlier one is returned. -/
theorem earlier_returned :
    ¬ ∀ (R : DateRuntime) (arrivals : List (OutboundV2Record × String)), MessagesDistinct arrivals →
      SnapshotsDistinct R arrivals → ∀ (visibility : Visibility) (subject : String) (g : Snapshot),
        Arrived R arrivals visibility subject g →
          (∀ x, Arrived R arrivals visibility subject x → x.rank ≤ g.rank) →
            Returns R (ingestRecords R Replica.empty arrivals) visibility subject g := by
  intro h
  have hmessages : ∀ a ∈ snapshotArrivals, ∀ b ∈ snapshotArrivals, a.1.message_id = b.1.message_id →
      a.1.record_type = b.1.record_type ∧ a.1.payload = b.1.payload ∧
        a.1.visibility = b.1.visibility := by decide
  have hdistinct : ∀ a ∈ snapshotArrivals, ∀ b ∈ snapshotArrivals,
      (snapshotOf dateRuntime a.1).map (·.snapshot_id) = (snapshotOf dateRuntime b.1).map (·.snapshot_id) →
        snapshotOf dateRuntime a.1 = snapshotOf dateRuntime b.1 := by decide +kernel
  have hlatest : ∃ a ∈ snapshotArrivals, snapshotOf dateRuntime a.1 = some latestSnapshot := by
    decide +kernel
  have hgreatest : ∀ a ∈ snapshotArrivals, ∀ x ∈ snapshotOf dateRuntime a.1,
      x.rank ≤ latestSnapshot.rank := by decide +kernel
  obtain ⟨row, hread, hcarries⟩ := h dateRuntime snapshotArrivals hmessages
    (snapshotsDistinct_of hdistinct) .PUBLIC "fixture-theme" latestSnapshot ⟨hlatest, rfl, rfl⟩
    fun x ⟨⟨a, ha, hx⟩, _⟩ => hgreatest a ha x hx
  have hreturned : (getThemeAccumulator dateRuntime
      (ingestRecords dateRuntime Replica.empty snapshotArrivals) .PUBLIC "fixture-theme").toOption.map
        (·.record_key) = some "snap-z" := by decide +kernel
  rw [hread] at hreturned
  exact absurd ((Option.some.inj hreturned).symm.trans hcarries.record_key) (by decide)

end QuantproCollector.ResearchReplica
