import QuantproCollector.ResearchReplica.PublicReads

/-!
# PRIVATE records and PUBLIC reads

What a PUBLIC adapter reads depends on the PUBLIC messages that arrived, and of the others on nothing but
the objects that a PUBLIC record names by their digest: the objects are kept for all visibilities alike
(`public_reads_agree`).
-/

namespace QuantproCollector.ResearchReplica

open SemanticIndex Relational Calendar

/-! ## Ingest -/

/-- A message with the bytes of its object, if it comes with any, and the clock reading of its ingest. -/
structure Message where
  record : OutboundV2Record
  body : Option (List UInt8)
  now : String

def Message.objectBody (m : Message) : List UInt8 :=
  m.body.getD []

def Message.isPublic (m : Message) : Bool :=
  decide (m.record.visibility = .PUBLIC)

/-- An object record comes with bytes of its digest, and no other record with any. -/
def verifiedBody (R : AdapterRuntime) (m : Message) : Bool :=
  if m.record.record_type = "object" then
    decide (hexSha256? (m.record.payload.get? "content_sha256") = some (R.digest m.objectBody))
  else m.body.isNone

/-- The key of a message that is not refused. -/
def acceptedKey (R : AdapterRuntime) (m : Message) : Option String :=
  if verifiedBody R m && (accumulatorOrdering R.toDateRuntime m.record.record_type
      m.record.payload).isSome then outboundV2RecordKey m.record
  else none

/-- The object of an object record is stored at its digest, whatever the visibility. -/
def putObject (objects : String → Option (List UInt8)) (m : Message) (key : String) :
    String → Option (List UInt8) :=
  if m.record.record_type = "object" then
    Function.update objects (objectKey key) (some m.objectBody)
  else objects

/-- The shadow row of a PUBLIC version takes the place of the one before. -/
def ftsIngestStatements (fts : List FtsRow) (record : OutboundV2Record) (key : String) : List FtsRow :=
  if record.record_type ≠ "document_version" ∨ record.visibility ≠ .PUBLIC then fts
  else
    let document := record.payload.get? "document"
    match (document.bind (·.get? "document_id")).bind Json.str? with
    | none | some "" => fts
    | some documentId =>
      (fts.filter fun f => decide (f.record_key ≠ key)) ++
        [⟨key, documentId, ((document.bind (·.get? "title")).bind Json.str?).getD ""⟩]

def ingestMessage (R : AdapterRuntime) (w : ReplicaWorld) (m : Message) : ReplicaWorld :=
  match acceptedKey R m with
  | none => w
  | some key =>
    if isReplay w.replica m.record.message_id then w
    else
      { w with
        replica := ingestBatch R.toPlatform w.replica m.record key m.now
        objects := putObject w.objects m key
        fts := ftsIngestStatements w.fts m.record key }

/-- The world after a history. -/
def ingestHistory (R : AdapterRuntime) (w : ReplicaWorld) (history : List Message) : ReplicaWorld :=
  history.foldl (ingestMessage R) w

/-- The world before any ingest; retention and the jobs are not written by one. -/
def ReplicaWorld.start (retention : Table RetentionRow String [fun r => some r.document_id])
    (jobs : JobTables) : ReplicaWorld where
  replica := { Replica.empty with retention := retention }
  objects _ := none
  fts := []
  jobs := jobs

/-! ## Histories -/

/-- The PUBLIC messages of a history. -/
def publicPart (history : List Message) : List Message :=
  history.filter Message.isPublic

/-- No PRIVATE message has the record key of a PUBLIC one, unless the key is a content hash. -/
def KeysApart (history : List Message) : Prop :=
  ∀ m ∈ history, ∀ n ∈ history, m.record.visibility = .PRIVATE → n.record.visibility = .PUBLIC →
    m.record.record_type = n.record.record_type → m.record.record_type ≠ "object" →
      ∀ key, outboundV2RecordKey m.record = some key → outboundV2RecordKey n.record ≠ some key

/-- A message id names one record: it is a digest of the type and the payload, which names the
visibility. -/
def IdsDistinct (history : List Message) : Prop :=
  ∀ m ∈ history, ∀ n ∈ history, m.record.message_id = n.record.message_id →
    m.record.record_type = n.record.record_type ∧ m.record.payload = n.record.payload ∧
      m.record.visibility = n.record.visibility

/-- A digest names one object. -/
def BytesDistinct (R : AdapterRuntime) (messages : List Message) : Prop :=
  ∀ m ∈ messages, ∀ n ∈ messages, R.digest m.objectBody = R.digest n.objectBody →
    m.objectBody = n.objectBody

/-- The message uploads the object of a digest. -/
def Uploads (R : AdapterRuntime) (m : Message) (contentSha256 : String) : Prop :=
  m.record.record_type = "object" ∧ acceptedKey R m = some contentSha256

/-- The objects that PUBLIC messages name were uploaded in both histories or in neither. -/
def UploadsAgree (R : AdapterRuntime) (h h' : List Message) : Prop :=
  ∀ m ∈ publicPart h, ∀ contentSha256, Names m.record.payload contentSha256 →
    ((∃ n ∈ h, Uploads R n contentSha256) ↔ ∃ n ∈ h', Uploads R n contentSha256)

/-! ## Rows after an ingest -/

/-- The rows after one of them is replaced, or one is added. -/
def upsertRow (rows : List ReplicaRecordRow) (r : ReplicaRecordRow) : List ReplicaRecordRow :=
  if ∃ a ∈ rows, a.key = r.key then rows.map fun a => if a.key = r.key then mergeRecord r a else a
  else rows ++ [r]

theorem rows_ingestBatch (P : Platform) (s : Replica) (record : OutboundV2Record) (key now : String) :
    (ingestBatch P s record key now).records.rows =
      upsertRow s.records.rows (Push.recordRow record key now) := by
  have hrecords : (ingestBatch P s record key now).records =
      s.records.upsert (Push.recordRow record key now) (mergeRecord (Push.recordRow record key now))
        (mergeRecord_key _) := rfl
  rw [hrecords]
  unfold Table.upsert upsertRow
  by_cases hexists : ∃ a ∈ s.records.rows, a.key = (Push.recordRow record key now).key
  · rw [dif_pos hexists, if_pos hexists]
    simp only [Table.modify, decide_eq_true_eq]
  · rw [dif_neg hexists, if_neg hexists]

/-- A row that is merged stays what it was, or becomes as visible as what it is merged with. -/
theorem isPublicRow_mergeRecord {r a : ReplicaRecordRow} (hk : a.key = r.key) :
    mergeRecord r a = a ∨ isPublicRow (mergeRecord r a) = isPublicRow r := by
  unfold mergeRecord
  split_ifs
  · exact .inl rfl
  · refine .inr ?_
    have htype : a.record_type = r.record_type := congrArg Prod.fst hk
    unfold isPublicRow
    rw [htype]

/-- A row that a PUBLIC adapter does not read changes nothing of what it reads, where it takes the place
of no row that it reads. -/
theorem filter_upsertRow_of_hidden {rows : List ReplicaRecordRow} {r : ReplicaRecordRow}
    (hr : isPublicRow r = false) (hrows : ∀ a ∈ rows, a.key = r.key → isPublicRow a = false) :
    (upsertRow rows r).filter isPublicRow = rows.filter isPublicRow := by
  unfold upsertRow
  split_ifs with hexists
  · rw [List.filter_map]
    have hsame : rows.filter (isPublicRow ∘ fun a => if a.key = r.key then mergeRecord r a else a) =
        rows.filter isPublicRow := by
      refine List.filter_congr fun a ha => ?_
      by_cases hk : a.key = r.key
      · rw [Function.comp_apply, if_pos hk, hrows a ha hk]
        rcases isPublicRow_mergeRecord hk with heq | heq
        · rw [heq, hrows a ha hk]
        · rw [heq, hr]
      · rw [Function.comp_apply, if_neg hk]
    rw [hsame]
    calc _ = (rows.filter isPublicRow).map id := by
          refine List.map_congr_left fun a ha => if_neg fun hk => ?_
          have hpublic := (List.mem_filter.1 ha).2
          rw [hrows a (List.mem_of_mem_filter ha) hk] at hpublic
          cases hpublic
      _ = rows.filter isPublicRow := List.map_id _
  · rw [List.filter_append, List.filter_cons_of_neg (by simp [hr]), List.filter_nil, List.append_nil]

/-- A row that a PUBLIC adapter reads takes its place among those that it reads. -/
theorem filter_upsertRow_of_public {rows : List ReplicaRecordRow} {r : ReplicaRecordRow}
    (hr : isPublicRow r = true) (hrows : ∀ a ∈ rows, a.key = r.key → isPublicRow a = true) :
    (upsertRow rows r).filter isPublicRow = upsertRow (rows.filter isPublicRow) r := by
  have hexists : (∃ a ∈ rows.filter isPublicRow, a.key = r.key) ↔ ∃ a ∈ rows, a.key = r.key :=
    ⟨fun ⟨a, ha, hk⟩ => ⟨a, List.mem_of_mem_filter ha, hk⟩,
      fun ⟨a, ha, hk⟩ => ⟨a, List.mem_filter.2 ⟨ha, hrows a ha hk⟩, hk⟩⟩
  unfold upsertRow
  simp only [hexists]
  split_ifs
  · rw [List.filter_map]
    refine congrArg _ (List.filter_congr fun a ha => ?_)
    by_cases hk : a.key = r.key
    · rw [Function.comp_apply, if_pos hk, hrows a ha hk]
      rcases isPublicRow_mergeRecord hk with heq | heq
      · rw [heq, hrows a ha hk]
      · rw [heq, hr]
    · rw [Function.comp_apply, if_neg hk]
  · rw [List.filter_append, List.filter_cons_of_pos hr, List.filter_nil]

/-! ## What a history leaves -/

section History

variable {R : AdapterRuntime} {retention : Table RetentionRow String [fun r => some r.document_id]}
  {jobs : JobTables} {h : List Message}

theorem ingestHistory_concat (w : ReplicaWorld) (m : Message) :
    ingestHistory R w (h ++ [m]) = ingestMessage R (ingestHistory R w h) m := by
  unfold ingestHistory
  rw [List.foldl_append]
  rfl

/-- An ingest is refused, a replay, or stored. -/
theorem ingestMessage_cases (R : AdapterRuntime) (w : ReplicaWorld) (m : Message) :
    acceptedKey R m = none ∧ ingestMessage R w m = w ∨
      ∃ key, acceptedKey R m = some key ∧
        (isReplay w.replica m.record.message_id = true ∧ ingestMessage R w m = w ∨
          isReplay w.replica m.record.message_id = false ∧ ingestMessage R w m =
            { w with
              replica := ingestBatch R.toPlatform w.replica m.record key m.now
              objects := putObject w.objects m key
              fts := ftsIngestStatements w.fts m.record key }) := by
  unfold ingestMessage
  cases hkey : acceptedKey R m with
  | none => exact .inl ⟨rfl, rfl⟩
  | some key =>
    refine .inr ⟨key, rfl, ?_⟩
    cases hreplay : isReplay w.replica m.record.message_id with
    | true => exact .inl ⟨rfl, rfl⟩
    | false => exact .inr ⟨rfl, rfl⟩

theorem recordKey_of_accepted {m : Message} {key : String} (hkey : acceptedKey R m = some key) :
    outboundV2RecordKey m.record = some key ∧ verifiedBody R m = true := by
  unfold acceptedKey at hkey
  split_ifs at hkey with haccepted
  exact ⟨hkey, (Bool.and_eq_true_iff.1 haccepted).1⟩

/-- The message that left a row. -/
def Arisen (h : List Message) (row : ReplicaRecordRow) : Prop :=
  ∃ m ∈ h, outboundV2RecordKey m.record = some row.record_key ∧
    m.record.record_type = row.record_type ∧ m.record.visibility = row.visibility ∧
      m.record.payload = row.payload

theorem arisen_run : ∀ row ∈ (ingestHistory R (.start retention jobs) h).replica.records,
    Arisen h row := by
  induction h using List.reverseRecOn with
  | nil => exact fun row hrow => absurd hrow (Table.not_mem_empty row)
  | append_singleton h m ih =>
    have hkept : ∀ row, Arisen h row → Arisen (h ++ [m]) row :=
      fun row ⟨n, hn, hrow⟩ => ⟨n, List.mem_append_left _ hn, hrow⟩
    intro row hrow
    rw [ingestHistory_concat] at hrow
    rcases ingestMessage_cases R (ingestHistory R (.start retention jobs) h) m with
      ⟨-, heq⟩ | ⟨key, hkey, ⟨-, heq⟩ | ⟨-, heq⟩⟩
    · rw [heq] at hrow
      exact hkept row (ih row hrow)
    · rw [heq] at hrow
      exact hkept row (ih row hrow)
    · rw [heq] at hrow
      have hrecord := (recordKey_of_accepted hkey).1
      simp only [ingestBatch] at hrow
      rcases Table.mem_upsert.1 hrow with ⟨hrow, -⟩ | ⟨a, ha, hak, rfl⟩ | ⟨rfl, -⟩
      · exact hkept row (ih row hrow)
      · unfold mergeRecord
        split_ifs
        · exact hkept a (ih a ha)
        · exact ⟨m, by simp, hrecord.trans (congrArg some (congrArg Prod.snd hak).symm),
            (congrArg Prod.fst hak).symm, rfl, rfl⟩
      · exact ⟨m, by simp, hrecord, rfl, rfl, rfl⟩

/-- The known message ids are those of the accepted messages. -/
theorem known_run {id : String} :
    isReplay (ingestHistory R (.start retention jobs) h).replica id = true ↔
      ∃ m ∈ h, (acceptedKey R m).isSome ∧ m.record.message_id = id := by
  induction h using List.reverseRecOn with
  | nil =>
    rw [isReplay_eq_true]
    exact ⟨fun ⟨r, hr, _⟩ => absurd hr (Table.not_mem_empty r), fun ⟨m, hm, _⟩ => by cases hm⟩
  | append_singleton h m ih =>
    rw [ingestHistory_concat]
    rcases ingestMessage_cases R (ingestHistory R (.start retention jobs) h) m with
      ⟨hnone, heq⟩ | ⟨key, hkey, ⟨hreplay, heq⟩ | ⟨-, heq⟩⟩
    · simp [heq, ih, or_and_right, exists_or, hnone]
    · rw [heq, ih]
      constructor
      · rintro ⟨n, hn, hid⟩
        exact ⟨n, List.mem_append_left _ hn, hid⟩
      · rintro ⟨n, hn, hsome, hid⟩
        rcases List.mem_append.1 hn with hn | hn
        · exact ⟨n, hn, hsome, hid⟩
        · obtain rfl := List.mem_singleton.1 hn
          exact ih.1 (hid ▸ hreplay)
    · rw [heq, isReplay_ingestBatch, ih]
      simp [or_and_right, exists_or, hkey]

/-- An upload comes with bytes of its digest. -/
theorem digest_of_uploads {m : Message} {contentSha256 : String} (hm : Uploads R m contentSha256) :
    R.digest m.objectBody = contentSha256 := by
  obtain ⟨htype, hkey⟩ := hm
  obtain ⟨hrecord, hverified⟩ := recordKey_of_accepted hkey
  unfold verifiedBody at hverified
  rw [if_pos htype, decide_eq_true_eq] at hverified
  unfold outboundV2RecordKey at hrecord
  rw [htype] at hrecord
  exact Option.some.inj (hverified.symm.trans hrecord)

theorem objectKey_inj {a b : String} (hkey : objectKey a = objectKey b) : a = b := by
  have hchars := congrArg String.toList hkey
  unfold objectKey at hchars
  rw [String.toList_append, String.toList_append] at hchars
  exact String.toList_inj.1 (List.append_cancel_left hchars)

/-- An object that is stored was uploaded. -/
theorem source_run {contentSha256 : String} {bytes : List UInt8}
    (hstored : (ingestHistory R (.start retention jobs) h).objects (objectKey contentSha256) =
      some bytes) : ∃ m ∈ h, Uploads R m contentSha256 ∧ m.objectBody = bytes := by
  induction h using List.reverseRecOn with
  | nil => cases hstored
  | append_singleton h m ih =>
    have hbefore : (ingestHistory R (.start retention jobs) h).objects (objectKey contentSha256) =
        some bytes → ∃ n ∈ h ++ [m], Uploads R n contentSha256 ∧ n.objectBody = bytes := fun hs => by
      obtain ⟨n, hn, hup⟩ := ih hs
      exact ⟨n, List.mem_append_left _ hn, hup⟩
    rw [ingestHistory_concat] at hstored
    rcases ingestMessage_cases R (ingestHistory R (.start retention jobs) h) m with
      ⟨-, heq⟩ | ⟨key, hkey, ⟨-, heq⟩ | ⟨-, heq⟩⟩
    · rw [heq] at hstored
      exact hbefore hstored
    · rw [heq] at hstored
      exact hbefore hstored
    · rw [heq] at hstored
      simp only [putObject] at hstored
      split_ifs at hstored with htype
      · by_cases hk : objectKey contentSha256 = objectKey key
        · rw [hk, Function.update_self] at hstored
          exact ⟨m, by simp, ⟨htype, objectKey_inj hk ▸ hkey⟩, Option.some.inj hstored⟩
        · rw [Function.update_of_ne hk] at hstored
          exact hbefore hstored
      · exact hbefore hstored

/-- An object that was uploaded is stored. -/
theorem stored_run (hids : IdsDistinct h) {m : Message} (hm : m ∈ h) {contentSha256 : String}
    (hup : Uploads R m contentSha256) :
    ∃ bytes, (ingestHistory R (.start retention jobs) h).objects (objectKey contentSha256) =
      some bytes := by
  induction h using List.reverseRecOn generalizing m with
  | nil => cases hm
  | append_singleton h n ih =>
    have hmem : ∀ {a : Message}, a ∈ h → a ∈ h ++ [n] := List.mem_append_left _
    have hbefore : IdsDistinct h := fun a ha b hb => hids a (hmem ha) b (hmem hb)
    rw [ingestHistory_concat]
    rcases ingestMessage_cases R (ingestHistory R (.start retention jobs) h) n with
      ⟨hnone, heq⟩ | ⟨key, hkey, ⟨hreplay, heq⟩ | ⟨-, heq⟩⟩
    · rw [heq]
      rcases List.mem_append.1 hm with hm | hm
      · exact ih hbefore hm hup
      · obtain rfl := List.mem_singleton.1 hm
        rw [hup.2] at hnone
        cases hnone
    · rw [heq]
      rcases List.mem_append.1 hm with hm | hm
      · exact ih hbefore hm hup
      · -- the message arrived before, with the same object
        obtain rfl := List.mem_singleton.1 hm
        obtain ⟨a, ha, hsome, hid⟩ := known_run.1 hreplay
        obtain ⟨htype, hpayload, -⟩ := hids a (hmem ha) m (by simp) hid
        obtain ⟨k, hk⟩ := Option.isSome_iff_exists.1 hsome
        have hrecord : outboundV2RecordKey a.record = outboundV2RecordKey m.record := by
          unfold outboundV2RecordKey
          rw [htype, hpayload]
        have hsame : k = contentSha256 := Option.some.inj
          ((recordKey_of_accepted hk).1.symm.trans (hrecord.trans (recordKey_of_accepted hup.2).1))
        exact ih hbefore ha ⟨htype.trans hup.1, hsame ▸ hk⟩
    · rw [heq]
      simp only [putObject]
      split_ifs with htype
      · by_cases hk : objectKey contentSha256 = objectKey key
        · exact ⟨n.objectBody, by rw [hk, Function.update_self]⟩
        · rw [Function.update_of_ne hk]
          rcases List.mem_append.1 hm with hm | hm
          · exact ih hbefore hm hup
          · obtain rfl := List.mem_singleton.1 hm
            exact absurd (congrArg objectKey (Option.some.inj (hup.2.symm.trans hkey))) hk
      · rcases List.mem_append.1 hm with hm | hm
        · exact ih hbefore hm hup
        · obtain rfl := List.mem_singleton.1 hm
          exact absurd hup.1 htype

end History

/-! ## PRIVATE messages leave nothing to read -/

section Isolation

variable {R : AdapterRuntime} {retention : Table RetentionRow String [fun r => some r.document_id]}
  {jobs : JobTables} {h h' : List Message} {w w' : ReplicaWorld}

theorem Alike.refl (w : ReplicaWorld) : Alike w w := ⟨rfl, rfl, rfl, rfl, rfl⟩

theorem Alike.symm (a : Alike w w') : Alike w' w :=
  ⟨a.rows.symm, a.semantic.symm, a.retention.symm, a.fts.symm, a.jobs.symm⟩

theorem Alike.trans {w'' : ReplicaWorld} (a : Alike w w') (b : Alike w' w'') : Alike w w'' :=
  ⟨a.rows.trans b.rows, a.semantic.trans b.semantic, a.retention.trans b.retention,
    a.fts.trans b.fts, a.jobs.trans b.jobs⟩

theorem publicRows_ingestBatch_of_hidden {P : Platform} {s : Replica} {record : OutboundV2Record}
    {key now : String} (hr : isPublicRow (Push.recordRow record key now) = false)
    (hrows : ∀ a ∈ s.records, a.key = (record.record_type, key) → isPublicRow a = false) :
    publicRows (ingestBatch P s record key now) = publicRows s := by
  unfold publicRows
  rw [rows_ingestBatch]
  exact filter_upsertRow_of_hidden hr hrows

/-- A PRIVATE message that is stored. -/
theorem alike_of_private {m : Message} {key : String} (hprivate : m.record.visibility = .PRIVATE)
    (hrows : ∀ a ∈ w.replica.records, a.key = (m.record.record_type, key) → isPublicRow a = false) :
    Alike { w with
      replica := ingestBatch R.toPlatform w.replica m.record key m.now
      objects := putObject w.objects m key
      fts := ftsIngestStatements w.fts m.record key } w where
  rows := publicRows_ingestBatch_of_hidden (by simp [isPublicRow, Push.recordRow, hprivate]) hrows
  semantic := by
    have htarget : semanticIndexIngestTarget m.record = none :=
      if_pos (.inr (by rw [hprivate]; decide))
    simp only [ingestBatch, semanticIndexIngestStatements, htarget]
  retention := rfl
  fts := if_pos (.inr (by rw [hprivate]; decide))
  jobs := rfl

/-- A PUBLIC message that is stored in both worlds. -/
theorem alike_of_public (a : Alike w w') {m : Message} {key : String}
    (hpublic : m.record.visibility = .PUBLIC)
    (hrows : m.record.record_type ≠ "object" →
      ∀ r ∈ w.replica.records, r.key = (m.record.record_type, key) → r.visibility = .PUBLIC)
    (hrows' : m.record.record_type ≠ "object" →
      ∀ r ∈ w'.replica.records, r.key = (m.record.record_type, key) → r.visibility = .PUBLIC) :
    Alike
      { w with
        replica := ingestBatch R.toPlatform w.replica m.record key m.now
        objects := putObject w.objects m key
        fts := ftsIngestStatements w.fts m.record key }
      { w' with
        replica := ingestBatch R.toPlatform w'.replica m.record key m.now
        objects := putObject w'.objects m key
        fts := ftsIngestStatements w'.fts m.record key } where
  rows := by
    by_cases htype : m.record.record_type = "object"
    · have hhidden : ∀ s : Replica, ∀ r ∈ s.records, r.key = (m.record.record_type, key) →
          isPublicRow r = false := by
        intro s r _ hk
        have hrtype : r.record_type = "object" := (congrArg Prod.fst hk).trans htype
        simp [isPublicRow, hrtype]
      have hr : isPublicRow (Push.recordRow m.record key m.now) = false := by
        simp [isPublicRow, Push.recordRow, htype]
      rw [publicRows_ingestBatch_of_hidden hr (hhidden w.replica),
        publicRows_ingestBatch_of_hidden hr (hhidden w'.replica)]
      exact a.rows
    · have hr : isPublicRow (Push.recordRow m.record key m.now) = true := by
        simp [isPublicRow, Push.recordRow, htype, hpublic]
      have hshown : ∀ s : Replica, (∀ r ∈ s.records, r.key = (m.record.record_type, key) →
          r.visibility = .PUBLIC) → ∀ r ∈ s.records.rows,
            r.key = (Push.recordRow m.record key m.now).key → isPublicRow r = true := by
        intro s hs r hmem hk
        have hrtype : r.record_type = m.record.record_type := congrArg Prod.fst hk
        simp [isPublicRow, hrtype, htype, hs r hmem hk]
      unfold publicRows
      rw [rows_ingestBatch, rows_ingestBatch, filter_upsertRow_of_public hr
        (hshown w.replica (hrows htype)),
        filter_upsertRow_of_public hr (hshown w'.replica (hrows' htype))]
      exact congrArg (upsertRow · _) a.rows
  semantic := by
    simp only [ingestBatch, a.semantic]
  retention := a.retention
  fts := by
    dsimp only
    rw [a.fts]
  jobs := a.jobs

theorem KeysApart.of_append {m : Message} (hkeys : KeysApart (h ++ [m])) : KeysApart h :=
  fun a ha b hb => hkeys a (List.mem_append_left _ ha) b (List.mem_append_left _ hb)

theorem IdsDistinct.of_append {m : Message} (hids : IdsDistinct (h ++ [m])) : IdsDistinct h :=
  fun a ha b hb => hids a (List.mem_append_left _ ha) b (List.mem_append_left _ hb)

/-- A message whose id is known from a PUBLIC message of the same id, among all messages or among the
PUBLIC ones. -/
theorem known_publicPart {m : Message} (hpublic : m.record.visibility = .PUBLIC)
    (hids : IdsDistinct (h ++ [m])) :
    isReplay (ingestHistory R (.start retention jobs) (publicPart h)).replica m.record.message_id =
      isReplay (ingestHistory R (.start retention jobs) h).replica m.record.message_id := by
  rw [Bool.eq_iff_iff, known_run, known_run]
  constructor
  · rintro ⟨n, hn, hsome⟩
    exact ⟨n, List.mem_of_mem_filter hn, hsome⟩
  · rintro ⟨n, hn, hsome, hid⟩
    have hvisible := (hids n (List.mem_append_left _ hn) m (by simp) hid).2.2
    exact ⟨n, List.mem_filter.2 ⟨hn, decide_eq_true (hvisible.trans hpublic)⟩, hsome, hid⟩

/-- The run: the PUBLIC messages alone leave the same to a PUBLIC adapter. -/
theorem alike_publicPart (hkeys : KeysApart h) (hids : IdsDistinct h) :
    Alike (ingestHistory R (.start retention jobs) h)
      (ingestHistory R (.start retention jobs) (publicPart h)) := by
  induction h using List.reverseRecOn with
  | nil => exact Alike.refl _
  | append_singleton h m ih =>
    have ih := ih hkeys.of_append hids.of_append
    unfold publicPart at ih ⊢
    rw [List.filter_append]
    cases hvisibility : m.record.visibility with
    | PRIVATE =>
      rw [List.filter_cons_of_neg (by simp [Message.isPublic, hvisibility]), List.filter_nil,
        List.append_nil, ingestHistory_concat]
      refine Alike.trans ?_ ih
      rcases ingestMessage_cases R (ingestHistory R (.start retention jobs) h) m with
        ⟨-, heq⟩ | ⟨key, hkey, ⟨-, heq⟩ | ⟨-, heq⟩⟩
      · rw [heq]
        exact Alike.refl _
      · rw [heq]
        exact Alike.refl _
      · rw [heq]
        refine alike_of_private hvisibility fun row hrow hk => ?_
        -- a PUBLIC row of the key would stem from a PUBLIC message of the key
        obtain ⟨n, hn, hnkey, hntype, hnvisibility, -⟩ := arisen_run row hrow
        have hrtype : row.record_type = m.record.record_type := congrArg Prod.fst hk
        by_contra hshown
        simp only [isPublicRow, Bool.not_eq_false, Bool.and_eq_true, decide_eq_true_eq] at hshown
        refine hkeys m (by simp) n (List.mem_append_left _ hn) hvisibility
          (hnvisibility.trans hshown.1) (hntype.trans hrtype).symm (hrtype ▸ hshown.2) key
          (recordKey_of_accepted hkey).1 (hnkey.trans (congrArg some (congrArg Prod.snd hk)))
    | PUBLIC =>
      have hkeep : Message.isPublic m = true := by simp [Message.isPublic, hvisibility]
      rw [List.filter_cons_of_pos hkeep, List.filter_nil, ingestHistory_concat, ingestHistory_concat]
      have hreplay : isReplay (ingestHistory R (.start retention jobs) (publicPart h)).replica
          m.record.message_id = isReplay (ingestHistory R (.start retention jobs) h).replica
            m.record.message_id := known_publicPart hvisibility hids
      unfold publicPart at hreplay
      unfold ingestMessage
      rw [hreplay]
      cases hkey : acceptedKey R m with
      | none => exact ih
      | some key =>
        dsimp only
        split_ifs
        · exact ih
        · refine alike_of_public ih hvisibility (fun htype row hrow hk => ?_) fun _ row hrow hk => ?_
          · obtain ⟨n, hn, hnkey, hntype, hnvisibility, -⟩ := arisen_run row hrow
            have hrtype : row.record_type = m.record.record_type := congrArg Prod.fst hk
            by_contra hhidden
            have hprivate : n.record.visibility = .PRIVATE := by
              cases hv : n.record.visibility with
              | PRIVATE => rfl
              | PUBLIC => exact absurd (hnvisibility.symm.trans hv) hhidden
            have hnm := hntype.trans hrtype
            exact hkeys n (List.mem_append_left _ hn) m (by simp) hprivate hvisibility hnm
              (hnm.symm ▸ htype) row.record_key hnkey ((recordKey_of_accepted hkey).1.trans
                (congrArg some (congrArg Prod.snd hk).symm))
          · obtain ⟨n, hn, -, -, hnvisibility, -⟩ := arisen_run row hrow
            have hpublic : Message.isPublic n = true := (List.mem_filter.1 hn).2
            exact hnvisibility.symm.trans (of_decide_eq_true hpublic)

/-- The objects that the PUBLIC rows name, after two histories that agree on their uploads. -/
theorem objectsAlike_run (hids : IdsDistinct h) (hids' : IdsDistinct h')
    (hbytes : BytesDistinct R (h ++ h')) (hobjects : UploadsAgree R h h') :
    ObjectsAlike (ingestHistory R (.start retention jobs) h)
      (ingestHistory R (.start retention jobs) h') := by
  intro row hrow contentSha256 hnames
  obtain ⟨hrow, hshown⟩ := List.mem_filter.1 hrow
  obtain ⟨m, hm, -, -, hvisibility, hpayload⟩ := arisen_run row hrow
  simp only [isPublicRow, Bool.and_eq_true, decide_eq_true_eq] at hshown
  have hpublic : m ∈ publicPart h :=
    List.mem_filter.2 ⟨hm, decide_eq_true (hvisibility.trans hshown.1)⟩
  have hagree := hobjects m hpublic contentSha256 (hpayload ▸ hnames)
  cases hstored : (ingestHistory R (.start retention jobs) h).objects (objectKey contentSha256) with
  | none =>
    cases hstored' : (ingestHistory R (.start retention jobs) h').objects (objectKey contentSha256) with
    | none => rfl
    | some bytes =>
      obtain ⟨n, hn, hup, -⟩ := source_run hstored'
      obtain ⟨a, ha, hupa⟩ := hagree.2 ⟨n, hn, hup⟩
      obtain ⟨found, hfound⟩ : ∃ bytes, (ingestHistory R (.start retention jobs) h).objects
        (objectKey contentSha256) = some bytes := stored_run hids ha hupa
      rw [hstored] at hfound
      cases hfound
  | some bytes =>
    obtain ⟨n, hn, hup, rfl⟩ := source_run hstored
    obtain ⟨a, ha, hupa⟩ := hagree.1 ⟨n, hn, hup⟩
    obtain ⟨found, hfound⟩ : ∃ bytes, (ingestHistory R (.start retention jobs) h').objects
      (objectKey contentSha256) = some bytes := stored_run hids' ha hupa
    obtain ⟨b, hb, hupb, rfl⟩ := source_run hfound
    -- both are bytes of the one digest
    have hdigest := (digest_of_uploads hup).trans (digest_of_uploads hupb).symm
    rw [hfound]
    exact congrArg some
      (hbytes n (List.mem_append_left _ hn) b (List.mem_append_right _ hb) hdigest)

end Isolation

/-- **PRIVATE records and PUBLIC reads.** After two histories with the same PUBLIC messages, in which
PRIVATE messages have record keys of their own, every read of a PUBLIC adapter returns the same, provided
that each object that a PUBLIC message names was uploaded, by whomever, in both or in neither. -/
theorem public_reads_agree (R : AdapterRuntime)
    (retention : Table RetentionRow String [fun r => some r.document_id]) (jobs : JobTables)
    (h h' : List Message) (hpublic : publicPart h = publicPart h') (hkeys : KeysApart h)
    (hkeys' : KeysApart h') (hids : IdsDistinct h) (hids' : IdsDistinct h')
    (hbytes : BytesDistinct R (h ++ h')) (hobjects : UploadsAgree R h h') :
    SameReads R (ingestHistory R (.start retention jobs) h)
      (ingestHistory R (.start retention jobs) h') := by
  have halike : Alike (ingestHistory R (.start retention jobs) h)
      (ingestHistory R (.start retention jobs) h') := by
    refine (alike_publicPart hkeys hids).trans ?_
    rw [hpublic]
    exact (alike_publicPart hkeys' hids').symm
  exact halike.sameReads (objectsAlike_run hids hids' hbytes hobjects)

/-! ## An object of a PRIVATE message -/

/-- The digests and texts of the two objects and of the empty one, and plain readings of the searches. -/
def adapterRuntime : AdapterRuntime where
  toDateRuntime := dateRuntime
  nfc := id
  cosine _ _ := none
  digest bytes :=
    if bytes = [] then "e3b0c44298fc1c149afbf4c8996fb92427ae41e4649b934ca495991b7852b855"
    else Search.searchRuntime.digest bytes
  decode := Search.searchRuntime.decode
  ftsMatch text query := includes (toLowerCase text)
    (toLowerCase (String.ofList (query.toList.filter fun c => decide (c ≠ '"'))))
  titleLike title pattern := (title.bind Json.str?).any fun t =>
    includes (toLowerCase t) (String.ofList (pattern.toList.filter fun c => decide (c ≠ '%')))
  toLocaleLowerCase := toLowerCase

/-- A message of an object with its bytes. -/
def objectMessage (messageId visibilityText contentSha256 : String) (visibility : Visibility)
    (bytes : List UInt8) (now : String) : Message where
  record :=
    { record_type := "object", message_id := messageId, schema_version := "collector-outbound-v4",
      policy_version := "policy-1", visibility := visibility, generated_at := none
      payload := .obj [("object_id", .str contentSha256), ("content_sha256", .str contentSha256),
        ("media_type", .str "text/plain"), ("byte_size", .num (.ofInt 3)),
        ("visibility", .str visibilityText), ("encoding", .str "identity"),
        ("chunking", .obj [("chunked", .bool false), ("chunk_size", .num (.ofInt 3)),
          ("total_chunks", .num (.ofInt 1)), ("chunk_sha256", .arr [.str contentSha256])]),
        ("manifest_message_id", .str messageId)] }
  body := some bytes
  now := now

def versionMessage : Message where
  record := exampleRecord "outbound_abfaf852d8f444f23744606539b907c587ccfec8" firstPayload
  body := none
  now := "2026-10-02T00:00:00.000Z"

/-- The bytes of `one`, as a PUBLIC and as a PRIVATE object, and those of `two`. -/
def publicOne : Message :=
  objectMessage "outbound_5694ae7e74e78eb980434d377427ad4bb10ad44a" "PUBLIC"
    "7692c3ad3540bb803c020b3aee66cd8887123234ea0c6e7143c0add73ff431ed" .PUBLIC [111, 110, 101]
    "2026-10-03T00:00:00.000Z"

def privateOne : Message :=
  objectMessage "outbound_5cd9151dfef0ecffb1d4e6cf3663ef06415396b7" "PRIVATE"
    "7692c3ad3540bb803c020b3aee66cd8887123234ea0c6e7143c0add73ff431ed" .PRIVATE [111, 110, 101]
    "2026-10-04T00:00:00.000Z"

def privateTwo : Message :=
  objectMessage "outbound_b1e057a7559118ddfa86f84969cb6239d9c95eb6" "PRIVATE"
    "3fc4ccfe745870e2c0d99f71f30ff0656c8dedd41cc1d7d3d376b0dbe685e2f3" .PRIVATE [116, 119, 111]
    "2026-10-04T00:00:00.000Z"

def noJobs : JobTables := ⟨[], [], []⟩

/-- PRIVATE objects alone have the keys of no PUBLIC message, content hashes apart. -/
theorem keysApart_of_objects {h : List Message}
    (hobjects : ∀ m ∈ h, m.record.visibility = .PRIVATE → m.record.record_type = "object") :
    KeysApart h :=
  fun m hm _ _ hprivate _ _ htype => absurd (hobjects m hm hprivate) htype

/-- With the PUBLIC object there, what the PRIVATE one is makes no difference. -/
theorem public_reads_agree_uploaded :
    SameReads adapterRuntime
      (ingestHistory adapterRuntime (.start .empty noJobs) [versionMessage, publicOne, privateOne])
      (ingestHistory adapterRuntime (.start .empty noJobs) [versionMessage, publicOne, privateTwo]) := by
  have hids : ∀ m ∈ [versionMessage, publicOne, privateOne], ∀ n ∈ [versionMessage, publicOne, privateOne],
      m.record.message_id = n.record.message_id → m.record.record_type = n.record.record_type ∧
        m.record.payload = n.record.payload ∧ m.record.visibility = n.record.visibility := by
    decide
  have hids' : ∀ m ∈ [versionMessage, publicOne, privateTwo], ∀ n ∈ [versionMessage, publicOne, privateTwo],
      m.record.message_id = n.record.message_id → m.record.record_type = n.record.record_type ∧
        m.record.payload = n.record.payload ∧ m.record.visibility = n.record.visibility := by
    decide
  have hbytes : ∀ m ∈ [versionMessage, publicOne, privateOne] ++ [versionMessage, publicOne, privateTwo],
      ∀ n ∈ [versionMessage, publicOne, privateOne] ++ [versionMessage, publicOne, privateTwo],
        adapterRuntime.digest m.objectBody = adapterRuntime.digest n.objectBody →
          m.objectBody = n.objectBody := by
    decide
  have hnamed : ∀ m ∈ publicPart [versionMessage, publicOne, privateOne],
      ((servableBody m.record.payload).all fun body => decide (body.contentSha256 =
        "7692c3ad3540bb803c020b3aee66cd8887123234ea0c6e7143c0add73ff431ed")) = true ∧
        (sourceReference m.record.payload).isNone = true := by decide
  have hup : Uploads adapterRuntime publicOne
      "7692c3ad3540bb803c020b3aee66cd8887123234ea0c6e7143c0add73ff431ed" := ⟨rfl, by decide⟩
  refine public_reads_agree adapterRuntime .empty noJobs _ _ rfl
    (keysApart_of_objects (by decide)) (keysApart_of_objects (by decide)) hids hids'
    hbytes fun m hm contentSha256 hnames => ?_
  obtain rfl : contentSha256 = "7692c3ad3540bb803c020b3aee66cd8887123234ea0c6e7143c0add73ff431ed" := by
    obtain ⟨hbody, hreference⟩ := hnamed m hm
    rcases hnames with ⟨body, hb, rfl⟩ | ⟨reference, hr, -⟩
    · simpa [hb] using hbody
    · simp [hr] at hreference
  exact ⟨fun _ => ⟨publicOne, by simp, hup⟩, fun _ => ⟨publicOne, by simp, hup⟩⟩

/-- Two messages at the same place of two histories: the same, or PRIVATE ones that differ in payload,
which the id is a digest of, and bytes. -/
def SameButPrivate (m n : Message) : Prop :=
  m = n ∨ m.record.visibility = .PRIVATE ∧ m.now = n.now ∧
    n.record = { m.record with payload := n.record.payload, message_id := n.record.message_id }

/-- The body of a PUBLIC version is served from a PRIVATE object. -/
theorem private_object_served :
    ¬ ∀ (R : AdapterRuntime) (retention : Table RetentionRow String [fun r => some r.document_id])
      (jobs : JobTables) (h h' : List Message), List.Forall₂ SameButPrivate h h' → KeysApart h →
        KeysApart h' → IdsDistinct h → IdsDistinct h' → BytesDistinct R (h ++ h') →
          SameReads R (ingestHistory R (.start retention jobs) h)
            (ingestHistory R (.start retention jobs) h') := by
  intro hall
  have hids : ∀ m ∈ [versionMessage, privateOne], ∀ n ∈ [versionMessage, privateOne],
      m.record.message_id = n.record.message_id → m.record.record_type = n.record.record_type ∧
        m.record.payload = n.record.payload ∧ m.record.visibility = n.record.visibility := by
    decide
  have hids' : ∀ m ∈ [versionMessage, privateTwo], ∀ n ∈ [versionMessage, privateTwo],
      m.record.message_id = n.record.message_id → m.record.record_type = n.record.record_type ∧
        m.record.payload = n.record.payload ∧ m.record.visibility = n.record.visibility := by
    decide
  have hbytes : ∀ m ∈ [versionMessage, privateOne] ++ [versionMessage, privateTwo],
      ∀ n ∈ [versionMessage, privateOne] ++ [versionMessage, privateTwo],
        adapterRuntime.digest m.objectBody = adapterRuntime.digest n.objectBody →
          m.objectBody = n.objectBody := by
    decide
  have hsame := hall adapterRuntime .empty noJobs [versionMessage, privateOne]
    [versionMessage, privateTwo]
    (.cons (.inl rfl) (.cons (.inr ⟨rfl, rfl, rfl⟩) .nil)) (keysApart_of_objects (by decide))
    (keysApart_of_objects (by decide)) hids hids' hbytes
  have hserved : (getDocument adapterRuntime.toReadRuntime
      (ingestHistory adapterRuntime (.start .empty noJobs) [versionMessage, privateOne]).replica
      (ingestHistory adapterRuntime (.start .empty noJobs) [versionMessage, privateOne]).objects
        "doc-1").toOption.map (·.body_text) = some "one" := by decide
  have hmissing : (getDocument adapterRuntime.toReadRuntime
      (ingestHistory adapterRuntime (.start .empty noJobs) [versionMessage, privateTwo]).replica
      (ingestHistory adapterRuntime (.start .empty noJobs) [versionMessage, privateTwo]).objects
        "doc-1").toOption.map (·.body_text) = none := by decide
  rw [hsame.getDocument "doc-1", hmissing] at hserved
  cases hserved

end QuantproCollector.ResearchReplica
