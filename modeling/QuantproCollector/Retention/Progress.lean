import Mathlib.Data.List.Dedup
import QuantproCollector.Retention.Renewal

/-!
# What one sweep marks

A sweep that nothing disturbs reads its pages of documents in order, each from the last document of
the one before, and so considers the first `RETENTION_SCAN_MAX_PAGES * RETENTION_SCAN_PAGE` of them;
of the due ones among these it takes as many as its mark limit (`reads_scanRetentionCandidates`).
It marks one of them if and only if one has no retention row yet.
-/

namespace QuantproCollector.Retention

open Relational Async SemanticIndex

/-- The machine whose operations do not fail. -/
def calm (P : Runtime) : Machine Thrown Op Res World {f : Fault // f = .none} :=
  (machine P).among (· = .none)

@[simp] theorem calm_perform (P : Runtime) (ch : {f : Fault // f = .none}) (op : Op) (w : World) :
    (calm P).perform ch op w = (.ok (answer op w), effect P op w) := by
  obtain ⟨f, rfl⟩ := ch
  rfl

/-- Operations that leave every world as it is. -/
def Reading (P : Runtime) (op : Op) : Prop :=
  ∀ w, effect P op w = w

theorem reads_perform (P : Runtime) (w : World) (op : Op) (h : Reading P op) :
    (calm P).Reads (Reading P) w (Script.perform op) (.ok (answer op w)) :=
  ⟨h, fun ch => ⟨by simp [h w], by simp⟩⟩

/-! ## The scan -/

/-- The documents after a cursor. -/
def documentsAfter (w : World) (cursor : String) : List String :=
  (scannedDocuments w).filter fun d => decide (cursor < d)

theorem strict_scannedDocuments (w : World) :
    (scannedDocuments w).Pairwise fun a b => a < b := by
  have hnodup : ((((w.records.rows.filter publicVersion).filterMap
      (documentIdOf ·.payload)).dedup).map id).Nodup := by
    rw [List.map_id]
    exact List.nodup_dedup _
  exact (Keyset.strict_ordered hnodup).filter _

/-- The documents after the last one of a page are those that the page left. -/
theorem documentsAfter_last {w : World} {cursor last : String} (front : List String)
    {rest : List String} (h : documentsAfter w cursor = front ++ last :: rest) :
    documentsAfter w last = rest := by
  have hlast : last ∈ documentsAfter w cursor := by simp [h]
  have hcursor : cursor < last := by simpa using (List.mem_filter.1 hlast).2
  have hstrict : (front ++ last :: rest).Pairwise fun a b => a < b := by
    rw [← h]
    exact (strict_scannedDocuments w).filter _
  obtain ⟨-, htail, hfront⟩ := List.pairwise_append.1 hstrict
  have hrest := (List.pairwise_cons.1 htail).1
  have hagain : documentsAfter w last =
      (documentsAfter w cursor).filter fun d => decide (last < d) := by
    unfold documentsAfter
    rw [List.filter_filter]
    refine List.filter_congr fun d _ => ?_
    by_cases hd : last < d
    · simp [hd, hcursor.trans hd]
    · simp [hd]
  rw [hagain, h, List.filter_append, List.filter_cons_of_neg (by simp),
    List.filter_eq_nil_iff.2 fun d hd => ?_, List.filter_eq_self.2 fun d hd => ?_, List.nil_append]
  · exact decide_eq_true (hrest d hd)
  · exact fun hlt => absurd (of_decide_eq_true hlt) (not_lt_of_gt (hfront d hd last (by simp)))

/-- The due documents among the first of a list. -/
def dueOf (P : Runtime) (w : World) (cutoff : String) (documents : List String) :
    List RetentionCandidate :=
  (documents.map (scanRow w)).filterMap (candidateOf P cutoff)

theorem dueOf_append (P : Runtime) (w : World) (cutoff : String) (a b : List String) :
    dueOf P w cutoff (a ++ b) = dueOf P w cutoff a ++ dueOf P w cutoff b := by
  simp [dueOf]

theorem reads_scanPages (P : Runtime) (w : World) (cutoff : String) (limit pages : ℕ)
    (cursor : String) (found : List RetentionCandidate) (scanned : ℕ)
    (hfound : found.length < limit) :
    ∃ n, (calm P).Reads (Reading P) w (scanPages P cutoff limit pages cursor found scanned)
      (.ok ⟨(found ++ dueOf P w cutoff
        ((documentsAfter w cursor).take (pages * RETENTION_SCAN_PAGE))).take limit, n⟩) := by
  induction pages generalizing cursor found scanned with
  | zero =>
    refine ⟨scanned, ?_⟩
    simp [scanPages, dueOf, List.take_of_length_le (le_of_lt hfound)]
  | succ pages ih =>
    obtain ⟨docs, hdocs⟩ : ∃ docs, documentsAfter w cursor = docs := ⟨_, rfl⟩
    obtain ⟨page, htake⟩ : ∃ page, docs.take RETENTION_SCAN_PAGE = page := ⟨_, rfl⟩
    obtain ⟨left, hdrop⟩ : ∃ left, docs.drop RETENTION_SCAN_PAGE = left := ⟨_, rfl⟩
    obtain ⟨more, hmore⟩ : ∃ more, found ++ dueOf P w cutoff page = more := ⟨_, rfl⟩
    have hsplit : docs = page ++ left := by rw [← htake, ← hdrop, List.take_append_drop]
    have hpage : answer (.scanPage cursor RETENTION_SCAN_PAGE) w = page.map (scanRow w) := by
      rw [← htake, ← hdocs]
      rfl
    have hfirst : docs.take ((pages + 1) * RETENTION_SCAN_PAGE) =
        page ++ left.take (pages * RETENTION_SCAN_PAGE) := by
      rw [Nat.succ_mul, Nat.add_comm, List.take_add, htake, hdrop]
    rw [hdocs, hfirst, dueOf_append, ← List.append_assoc, hmore]
    have hread := reads_perform P w (.scanPage cursor RETENTION_SCAN_PAGE) fun _ => rfl
    rw [hpage] at hread
    unfold scanPages
    rcases List.eq_nil_or_concat' page with rfl | ⟨front, last, rfl⟩
    · have hdocsnil : docs = [] := by simpa [RETENTION_SCAN_PAGE] using htake
      obtain rfl : left = [] := by simpa [hdocsnil] using hdrop.symm
      obtain rfl : found = more := by simpa [dueOf] using hmore
      refine ⟨scanned, hread.bind_ok ?_⟩
      simp [dueOf, List.take_of_length_le (le_of_lt hfound)]
    · have hget : ((front ++ [last]).map (scanRow w)).getLast? = some (scanRow w last) := by simp
      by_cases hfull : limit ≤ more.length
      · refine ⟨scanned + ((front ++ [last]).map (scanRow w)).length, hread.bind_ok ?_⟩
        simp only [hget]
        change (calm P).Reads (Reading P) w (if limit ≤ (found ++ dueOf P w cutoff _).length then _
          else _) _
        rw [hmore, if_pos hfull, List.take_append_of_le_length hfull]
        exact congrArg _ (by rw [← hmore]; rfl)
      · by_cases hshort : ((front ++ [last]).map (scanRow w)).length < RETENTION_SCAN_PAGE
        · have hnone : left = [] := by
            rw [← hdrop]
            rw [List.length_map, ← htake, List.length_take] at hshort
            exact List.drop_eq_nil_of_le (by omega)
          refine ⟨scanned + ((front ++ [last]).map (scanRow w)).length, hread.bind_ok ?_⟩
          simp only [hget]
          change (calm P).Reads (Reading P) w (if limit ≤ (found ++ dueOf P w cutoff _).length then _
            else _) _
          rw [hmore, if_neg hfull, if_pos hshort, hnone, List.take_nil,
            show dueOf P w cutoff [] = [] from rfl, List.append_nil,
            List.take_of_length_le (by omega)]
          exact congrArg _ (by rw [← hmore]; rfl)
        · have hafter : documentsAfter w last = left := by
            refine documentsAfter_last front (hdocs.trans ?_)
            rw [hsplit, List.append_assoc, List.singleton_append]
          obtain ⟨n, hn⟩ := ih last more
            (scanned + ((front ++ [last]).map (scanRow w)).length) (by omega)
          refine ⟨n, hread.bind_ok ?_⟩
          rw [hafter] at hn
          simp only [hget]
          change (calm P).Reads (Reading P) w (if limit ≤ (found ++ dueOf P w cutoff _).length then _
            else _) _
          rw [hmore, if_neg hfull, if_neg hshort]
          rw [← hmore] at hn ⊢
          exact hn

/-- The number of documents that one scan reads at most. -/
def SCAN_LIMIT : ℕ := RETENTION_SCAN_MAX_PAGES * RETENTION_SCAN_PAGE

/-- The documents that a sweep marks: of the first ones, those that are due, up to its limit. -/
def sweepCandidates (P : Runtime) (w : World) (cutoff : String) (maxMark : Option Decimal) :
    List RetentionCandidate :=
  (dueOf P w cutoff ((documentsAfter w "").take SCAN_LIMIT)).take
    (clampInt maxMark RETENTION_MARK_PAGE 1 RETENTION_MARK_PAGE_MAX)

theorem clampInt_bounds (value : Option Decimal) {fallback min max : ℕ} (hmin : min ≤ fallback)
    (hmax : fallback ≤ max) : min ≤ clampInt value fallback min max ∧
      clampInt value fallback min max ≤ max := by
  unfold clampInt
  cases value with
  | none => exact ⟨hmin, hmax⟩
  | some x =>
    simp only
    omega

/-- A limit within the bounds is not clamped again. -/
theorem clampInt_ofInt {n fallback min max : ℕ} (hmin : min ≤ n) (hmax : n ≤ max) :
    clampInt (some (.ofInt n)) fallback min max = n := by
  simp only [clampInt, Decimal.trunc_ofInt]
  omega

theorem reads_scanRetentionCandidates (P : Runtime) (w : World) {now cutoff : String}
    (hcut : retentionCutoff P now = .ok cutoff) (maxMark : Option Decimal) :
    ∃ n, (calm P).Reads (Reading P) w (scanRetentionCandidates P now (some (.ofInt
      (clampInt maxMark RETENTION_MARK_PAGE 1 RETENTION_MARK_PAGE_MAX))))
      (.ok ⟨sweepCandidates P w cutoff maxMark, n⟩) := by
  have hb : 1 ≤ clampInt maxMark RETENTION_MARK_PAGE 1 RETENTION_MARK_PAGE_MAX ∧
      clampInt maxMark RETENTION_MARK_PAGE 1 RETENTION_MARK_PAGE_MAX ≤ RETENTION_MARK_PAGE_MAX :=
    clampInt_bounds maxMark (by decide) (by decide)
  obtain ⟨n, hn⟩ := reads_scanPages P w cutoff
    (clampInt maxMark RETENTION_MARK_PAGE 1 RETENTION_MARK_PAGE_MAX) RETENTION_SCAN_MAX_PAGES "" [] 0
    hb.1
  refine ⟨n, ?_⟩
  simp only [scanRetentionCandidates, hcut, clampInt_ofInt hb.1 hb.2]
  exact hn

/-! ## Marks -/

/-- A call marks a document: it was not EXPIRED before and is after. -/
def Marks (P : Runtime) (k : Call Op World {f : Fault // f = .none}) (D : String) : Prop :=
  expired k.before D = false ∧ expired ((calm P).after k) D = true

/-- Only the insertion of a first row marks a document. -/
theorem marks_iff {P : Runtime} {k : Call Op World {f : Fault // f = .none}} {D : String} :
    Marks P k D ↔ ∃ row, k.op = .insertRetention row ∧ row.document_id = D ∧
      row.status = .EXPIRED ∧ ¬ Recorded k.before D := by
  have hafter : (calm P).after k = effect P k.op k.before := by simp [Machine.after]
  unfold Marks
  rw [hafter]
  constructor
  · rintro ⟨hbefore, h⟩
    have hno : ∀ r ∈ k.before.retention, ¬ (r.document_id = D ∧ r.status = .EXPIRED) := by
      intro r hr hD
      rw [expired_eq_true.2 ⟨r, hr, hD⟩] at hbefore
      cases hbefore
    obtain ⟨r, hr, hD, hst⟩ := expired_eq_true.1 h
    rcases effect_retention P k.op k.before with heq | ⟨row, hop, heq⟩ | ⟨_, now, detail, -, heq⟩
    · exact absurd ⟨hD, hst⟩ (hno r (heq ▸ hr))
    · by_cases hrow : Recorded k.before row.document_id
      · rw [heq, insertRetention_of_recorded hrow] at hr
        exact absurd ⟨hD, hst⟩ (hno r hr)
      · rw [heq, ← Table.mem_rows, rows_insertRetention hrow] at hr
        rcases List.mem_append.1 hr with hr | hr
        · exact absurd ⟨hD, hst⟩ (hno r hr)
        · obtain rfl := List.mem_singleton.1 hr
          exact ⟨r, hop, hD, hst, hD ▸ hrow⟩
    · rw [heq] at hr
      obtain ⟨a, ha, har⟩ := List.mem_map.1 hr
      split_ifs at har with hp
      · rw [← har] at hst
        cases hst
      · exact absurd ⟨hD, hst⟩ (hno r (har ▸ ha))
  · rintro ⟨row, hop, rfl, hst, hrow⟩
    constructor
    · rw [Bool.eq_false_iff]
      intro he
      obtain ⟨r, hr, hD, -⟩ := expired_eq_true.1 he
      exact hrow ⟨r, hr, hD⟩
    · refine expired_eq_true.2 ⟨row, ?_, rfl, hst⟩
      rw [hop, ← Table.mem_rows]
      exact (rows_insertRetention hrow).symm ▸ List.mem_append_right _ (List.mem_singleton_self _)

/-! ## The marks of a sweep -/

/-- A sweep inserts rows of its candidates only. -/
def MarksOnly (candidates : List RetentionCandidate) (op : Op) : Prop :=
  ∀ row, op = .insertRetention row → ∃ c ∈ candidates, c.document_id = row.document_id

theorem recorded_effect (P : Runtime) (op : Op) {w : World} {D : String} (h : Recorded w D) :
    Recorded (effect P op w) D := by
  obtain ⟨r, hr, hD⟩ := h
  rcases effect_retention P op w with heq | ⟨row, -, heq⟩ | ⟨documentId, now, detail, -, heq⟩
  · exact ⟨r, heq ▸ hr, hD⟩
  · rw [heq]
    by_cases hrow : Recorded w row.document_id
    · rw [insertRetention_of_recorded hrow]
      exact ⟨r, hr, hD⟩
    · refine ⟨r, ?_, hD⟩
      rw [← Table.mem_rows, rows_insertRetention hrow]
      exact List.mem_append_left _ hr
  · rw [heq]
    refine ⟨_, List.mem_map.2 ⟨r, hr, rfl⟩, ?_⟩
    dsimp only
    split_ifs
    · exact hD
    · exact hD

section Issued

variable {S : Op → Prop}

theorem issues_gather {α : Type} {statement : List String → Program (List α)}
    (h : ∀ slice, (statement slice).Issues S) (l : List (List String)) :
    (gather statement l).Issues S := by
  induction l with
  | nil => trivial
  | cons slice rest ih => exact (h slice).bind fun _ => ih.bind fun _ => trivial

theorem issues_runSlices {statement : List String → Program ℕ} {l : List (List String)}
    (h : ∀ slice ∈ l, (statement slice).Issues S) : (runSlices statement l).Issues S := by
  induction l with
  | nil => trivial
  | cons slice rest ih =>
    exact (h slice List.mem_cons_self).bind fun _ =>
      (ih fun s hs => h s (List.mem_cons_of_mem _ hs)).bind fun _ => trivial

theorem issues_perform {op : Op} (h : S op) : (Script.perform op : Program _).Issues S :=
  Script.issues_perform.2 h

theorem issues_captureVersions (hv : ∀ d, S (.selectVersions d)) (hj : ∀ l, S (.selectJournals l))
    (hh : ∀ l, S (.selectHashes l)) (D : String) : (captureVersions D).Issues S :=
  (issues_perform (hv D)).bind fun _ =>
    (issues_gather (fun slice => issues_perform (hj slice)) _).bind fun _ =>
      (issues_gather (fun slice => issues_perform (hh slice)) _).bind fun _ => trivial

theorem issues_scanPages (h : ∀ cursor limit, S (.scanPage cursor limit)) (P : Runtime)
    (cutoff : String) (limit pages : ℕ) (cursor : String) (found : List RetentionCandidate)
    (scanned : ℕ) : (scanPages P cutoff limit pages cursor found scanned).Issues S := by
  induction pages generalizing cursor found scanned with
  | zero => trivial
  | succ pages ih =>
    refine (issues_perform (h _ _)).bind fun rows => ?_
    split
    · trivial
    · dsimp only
      split_ifs
      · trivial
      · trivial
      · exact ih _ _ _

theorem issues_scanRetentionCandidates (h : ∀ cursor limit, S (.scanPage cursor limit))
    (P : Runtime) (now : String) (limit : Option Decimal) :
    (scanRetentionCandidates P now limit).Issues S := by
  unfold scanRetentionCandidates
  split
  · exact issues_scanPages h P _ _ _ _ _ _
  · trivial

theorem issues_purgeObjects {D : String} (hcount : ∀ hash s, S (.countReferences D hash s))
    (hdelete : ∀ hash, S (.deleteObject D hash)) (versionIds hashes : List String) :
    (purgeObjects D versionIds hashes).Issues S := by
  induction hashes with
  | nil => trivial
  | cons hash rest ih =>
    have hstatement : ∀ slice, (do
        let count ← Script.perform (Op.countReferences D hash slice)
        pure [count] : Program (List ℕ)).Issues S :=
      fun slice => (issues_perform (hcount hash slice)).bind fun _ => trivial
    refine (issues_gather hstatement _).bind fun references => ?_
    split_ifs
    · exact ih.bind fun _ => trivial
    · exact (issues_perform (hdelete hash)).bind fun _ => ih.bind fun _ => trivial

theorem issues_purgeJournals (h : ∀ m, S (.deleteJournal m)) (messageIds : List String) :
    (purgeJournals messageIds).Issues S := by
  induction messageIds with
  | nil => trivial
  | cons id rest ih => exact (issues_perform (h id)).bind fun _ => ih

theorem issues_purgeObjectRows {D : String} {hashes : List String}
    (h : ∀ hash ∈ hashes, S (.deleteObjectRow D hash)) : (purgeObjectRows D hashes).Issues S := by
  induction hashes with
  | nil => trivial
  | cons hash rest ih =>
    exact (issues_perform (h hash List.mem_cons_self)).bind fun _ =>
      (ih fun a ha => h a (List.mem_cons_of_mem _ ha)).bind fun _ => trivial

theorem issues_purgeVectors (h : ∀ D v, S (.deleteVectors D v)) (D : String)
    (versionIds : List String) : (purgeVectors D versionIds).Issues S := by
  induction versionIds with
  | nil => trivial
  | cons id rest ih => exact (issues_perform (h D id)).bind fun _ => ih.bind fun _ => trivial

/-- The operations of a sweep, its marks apart. -/
def plain : Op → Bool
  | .insertRetention _ | .selectMessage _ | .insertUsage _ | .resetUsage _ | .bookUsage ..
  | .putObject _ | .ingestBatch .. | .healthSuccess .. | .healthFailure _ => false
  | _ => true

/-- The rest of a purge deletes links of captured versions, and rows of deleted objects. -/
theorem issues_purgeRecords {row : RetentionRow} {now : String} {objects : ObjectPurge}
    (h : ∀ op, plain op = true → (∀ s, op ≠ .deleteLinks s) → (∀ D a, op ≠ .deleteObject D a) →
      (∀ D a, op ≠ .deleteObjectRow D a) → S op)
    (hlinks : ∀ s ∈ slices row.version_ids, S (.deleteLinks s))
    (hrows : ∀ a ∈ objects.deleted, S (.deleteObjectRow row.document_id a)) :
    (purgeRecords row now objects).Issues S := by
  have hother : ∀ op, plain op = true → (∀ s, op ≠ .deleteLinks s) →
      (∀ D a, op ≠ .deleteObject D a) → (∀ D a, op ≠ .deleteObjectRow D a) →
      (Script.perform op : Program _).Issues S :=
    fun op hop h1 h2 h3 => issues_perform (h op hop h1 h2 h3)
  refine (issues_purgeJournals (fun m => h _ rfl (by simp) (by simp) (by simp)) _).bind fun _ => ?_
  refine (issues_runSlices fun s hs => issues_perform (hlinks s hs)).bind fun links => ?_
  refine (issues_runSlices fun s _ => hother _ rfl (by simp) (by simp) (by simp)).bind
    fun versions => ?_
  refine (issues_runSlices fun s _ => hother _ rfl (by simp) (by simp) (by simp)).bind
    fun records => ?_
  refine (issues_purgeObjectRows hrows).bind fun rows => ?_
  refine (hother _ rfl (by simp) (by simp) (by simp)).bind fun states => ?_
  refine (issues_purgeVectors (fun D v => h _ rfl (by simp) (by simp) (by simp)) _ _).bind
    fun vectors => ?_
  refine (hother _ rfl (by simp) (by simp) (by simp)).bind fun flipped => ?_
  split_ifs
  · trivial
  · trivial

variable (h : ∀ op, plain op = true → S op)

include h

theorem issues_markExpiredDocument {candidate : RetentionCandidate} {now : String}
    (hm : ∀ capture, S (.insertRetention (retentionRow candidate capture now))) :
    (markExpiredDocument candidate now).Issues S :=
  (issues_captureVersions (fun _ => h _ rfl) (fun _ => h _ rfl) (fun _ => h _ rfl) _).bind
    fun _ => (issues_perform (hm _)).bind fun _ => (issues_perform (h _ rfl)).bind fun _ => trivial

theorem issues_markCandidates {candidates : List RetentionCandidate} {now : String}
    (hm : ∀ c ∈ candidates, ∀ capture, S (.insertRetention (retentionRow c capture now))) :
    (markCandidates now candidates).Issues S := by
  induction candidates with
  | nil => trivial
  | cons c rest ih =>
    exact (issues_markExpiredDocument h (hm c List.mem_cons_self)).bind fun _ =>
      (ih fun d hd => hm d (List.mem_cons_of_mem _ hd)).bind fun _ => trivial

theorem issues_purgeExpiredDocument (row : RetentionRow) (now : String) :
    (purgeExpiredDocument row now).Issues S :=
  (issues_purgeObjects (fun _ _ => h _ rfl) (fun _ => h _ rfl) _ _).bind fun _ =>
    issues_purgeRecords (fun op hop _ _ _ => h op hop) (fun _ _ => h _ rfl) fun _ _ => h _ rfl

theorem issues_purgeDocuments (now : String) (rows : List RetentionRow) :
    (purgeDocuments now rows).Issues S := by
  induction rows with
  | nil => trivial
  | cons row rest ih =>
    exact (issues_purgeExpiredDocument h row now).bind fun _ => ih.bind fun _ => trivial

end Issued

/-! ## The marks of a sweep -/

theorem reads_gather {P : Runtime} {w : World} {α : Type} {f : List String → List α}
    {statement : List String → Program (List α)}
    (h : ∀ slice, (calm P).Reads (Reading P) w (statement slice) (.ok (f slice)))
    (l : List (List String)) :
    (calm P).Reads (Reading P) w (gather statement l) (.ok (l.flatMap f)) := by
  induction l with
  | nil => rfl
  | cons slice rest ih => exact (h slice).bind_ok (ih.bind_ok rfl)

/-- What a mark captures of a document. -/
def captured (w : World) (D : String) : MarkedVersionCapture :=
  let versionIds := (versionsOf w D).map (·.record_key)
  { version_ids := versionIds
    journal_message_ids := (slices versionIds).flatMap fun slice => answer (.selectJournals slice) w
    content_sha256s := (slices versionIds).flatMap fun slice => answer (.selectHashes slice) w }

theorem reads_captureVersions (P : Runtime) (w : World) (D : String) :
    (calm P).Reads (Reading P) w (captureVersions D) (.ok (captured w D)) := by
  have hids : (answer (.selectVersions D) w).map Prod.fst = (versionsOf w D).map (·.record_key) := by
    simp [answer]
  refine (reads_perform P w (.selectVersions D) fun _ => rfl).bind_ok ?_
  refine (reads_gather (fun slice => reads_perform P w (.selectJournals slice) fun _ => rfl)
    _).bind_ok ?_
  refine (reads_gather (fun slice => reads_perform P w (.selectHashes slice) fun _ => rfl)
    _).bind_ok ?_
  simp [captured, hids]

/-- The mark of a document that has no row inserts one. -/
theorem ensures_markExpiredDocument {P : Runtime} {t : ℕ}
    {tr : List (Call Op World {f : Fault // f = .none})} {w : World} {c : RetentionCandidate}
    {now : String} (hc : ¬ Recorded w c.document_id) :
    (calm P).Ensures t Eq (fun _ tr' _ => ∃ k ∈ tr', Marks P k c.document_id)
      (markExpiredDocument c now) tr w := by
  refine .bind (fun _ => rfl) ((reads_captureVersions P w c.document_id).ensures fun new _ => ?_)
  rintro _ rfl ch
  refine Machine.ensures_of_call ⟨_, List.mem_cons_self, marks_iff.2 ?_⟩ _ _
  exact ⟨_, rfl, rfl, rfl, hc⟩

/-- The mark of a document that has a row leaves the table as it is. -/
theorem ensures_markExpiredDocument_recorded {P : Runtime} {t : ℕ}
    {tr : List (Call Op World {f : Fault // f = .none})} {w : World} {c : RetentionCandidate}
    {now : String} (hc : Recorded w c.document_id) :
    (calm P).Ensures t Eq (fun r _ w' => (∃ b, r = .ok b) ∧ w'.retention = w.retention)
      (markExpiredDocument c now) tr w := by
  refine .bind (fun _ => rfl) ((reads_captureVersions P w c.document_id).ensures fun new _ => ?_)
  rintro _ rfl ch
  rw [calm_perform]
  rintro _ rfl ch'
  rw [calm_perform]
  rintro _ rfl
  refine ⟨⟨_, rfl⟩, ?_⟩
  change ((w.insertRetention (retentionRow c (captured w c.document_id) now)).retireSemantic
    c.document_id now).retention = _
  have hsame : w.insertRetention (retentionRow c (captured w c.document_id) now) = w :=
    insertRetention_of_recorded hc
  rw [hsame]
  rfl

theorem ensures_markCandidates {P : Runtime} {t : ℕ} {now : String}
    {tr : List (Call Op World {f : Fault // f = .none})} {w : World}
    {candidates : List RetentionCandidate} (h : ∃ c ∈ candidates, ¬ Recorded w c.document_id) :
    (calm P).Ensures t Eq (fun _ tr' _ => ∃ k ∈ tr', ∃ c ∈ candidates, Marks P k c.document_id)
      (markCandidates now candidates) tr w := by
  induction candidates generalizing tr w with
  | nil => simp at h
  | cons c rest ih =>
    by_cases hc : Recorded w c.document_id
    · refine .bind (fun _ => rfl) ((ensures_markExpiredDocument_recorded hc).mono ?_)
      rintro r tr' w' ⟨⟨b, rfl⟩, hw'⟩
      have hrest : ∃ d ∈ rest, ¬ Recorded w' d.document_id := by
        obtain ⟨d, hd, hno⟩ := h
        rcases List.mem_cons.1 hd with rfl | hd
        · exact absurd hc hno
        · exact ⟨d, hd, by simpa [Recorded, hw'] using hno⟩
      refine Machine.Ensures.bind_call ((ih hrest).mono fun r tr' w' hk => ?_)
      obtain ⟨k, hk, d, hd, hm⟩ := hk
      exact ⟨k, hk, d, List.mem_cons_of_mem _ hd, hm⟩
    · refine Machine.Ensures.bind_call ((ensures_markExpiredDocument hc).mono fun r tr' w' hk => ?_)
      obtain ⟨k, hk, hm⟩ := hk
      exact ⟨k, hk, c, List.mem_cons_self, hm⟩

/-- A sweep whose candidates all have rows marks nothing. -/
theorem ensures_sweep_recorded {P : Runtime} {w : World} {options : SweepOptions}
    {now cutoff : String} {n : ℕ} {candidates : List RetentionCandidate}
    (hdry : options.dryRun = false)
    (hscan : (calm P).Reads (Reading P) w (scanRetentionCandidates P now (some (.ofInt
      (clampInt options.maxMark RETENTION_MARK_PAGE 1 RETENTION_MARK_PAGE_MAX))))
      (.ok ⟨candidates, n⟩))
    (hrec : ∀ c ∈ candidates, Recorded w c.document_id) :
    (calm P).Ensures 0 Eq (fun _ tr' _ => ∀ k ∈ tr', ∀ D, ¬ Marks P k D)
      (sweep P options now cutoff) [] w := by
  refine .bind (fun _ => rfl) (hscan.ensures fun new hnew => ?_)
  have hfree : ∀ op, plain op = true → MarksOnly candidates op := by
    rintro op hop row rfl
    cases hop
  simp only [hdry]
  refine (Machine.ensures_of_issues (S := MarksOnly candidates)
    (I := fun w => ∀ c ∈ candidates, Recorded w c.document_id) (fun ch op w hop hw => ?_)
    ((issues_markCandidates hfree fun c hc capture row hop => ?_).bind fun marked => ?_) hrec).mono ?_
  · rw [calm_perform]
    exact fun c hc => recorded_effect P op (hw c hc)
  · cases hop
    exact ⟨c, hc, rfl⟩
  · refine (issues_perform (hfree _ rfl)).bind fun purgeable => ?_
    split_ifs
    · exact (issues_purgeDocuments hfree now purgeable).bind fun _ =>
        (issues_perform (hfree _ rfl)).bind fun _ => trivial
    · exact (issues_perform (hfree _ rfl)).bind fun _ => trivial
  · rintro r tr' w' ⟨-, calls, rfl, hcalls⟩ k hk D hD
    rcases List.mem_append.1 hk with hk | hk
    · obtain ⟨row, hop, rfl, -, hno⟩ := marks_iff.1 hD
      obtain ⟨c, hc, hcD⟩ := (hcalls k hk).1 row hop
      exact hno (hcD ▸ (hcalls k hk).2 c hc)
    · rw [List.append_nil] at hk
      have hafter : (calm P).after k = k.before := by
        simpa [Machine.after] using hnew k hk k.before
      rw [Marks, hafter] at hD
      simp [hD.1] at hD

/-- A document of PUBLIC versions that is not marked EXPIRED and satisfies the expiry rule. -/
def Due (P : Runtime) (w : World) (cutoff D : String) : Prop :=
  D ∈ scannedDocuments w ∧ (candidateOf P cutoff (scanRow w D)).isSome = true

instance (P : Runtime) (w : World) (cutoff D : String) : Decidable (Due P w cutoff D) :=
  inferInstanceAs (Decidable (_ ∧ _))

theorem due_of_sweepCandidates {P : Runtime} {w : World} {cutoff : String}
    {maxMark : Option Decimal} {c : RetentionCandidate}
    (hc : c ∈ sweepCandidates P w cutoff maxMark) : Due P w cutoff c.document_id := by
  obtain ⟨row, hrow, hcand⟩ := List.mem_filterMap.1 (List.mem_of_mem_take hc)
  obtain ⟨D, hD, rfl⟩ := List.mem_map.1 hrow
  have hid : c.document_id = D := by
    obtain ⟨reason, -, rfl⟩ := Option.map_eq_some_iff.1 hcand
    rfl
  refine ⟨hid ▸ (List.mem_filter.1 (List.mem_of_mem_take hD)).1, ?_⟩
  rw [hid, hcand]
  rfl

/-- The calls of a sweep that runs alone and undisturbed. -/
def sweepCalls (P : Runtime) (options : SweepOptions) (now : String) (w : World) :
    List (Call Op World {f : Fault // f = .none}) :=
  ((calm P).run 0 (fun _ => ⟨.none, rfl⟩) (runRetentionSweep P options now) 0 [] w).2.1

/-- An undisturbed sweep marks a due document if and only if one of its candidates has no retention
row. -/
theorem sweep_marks_iff (P : Runtime) (w : World) (options : SweepOptions) {now cutoff : String}
    (hdry : options.dryRun = false) (hcut : retentionCutoff P now = .ok cutoff) :
    (∃ k ∈ sweepCalls P options now w, ∃ D, Due P w cutoff D ∧ Marks P k D) ↔
      ∃ c ∈ sweepCandidates P w cutoff options.maxMark, ¬ Recorded w c.document_id := by
  obtain ⟨n, hscan⟩ := reads_scanRetentionCandidates P w hcut options.maxMark
  have hrun : runRetentionSweep P options now =
      tryCatch (sweep P options now cutoff) boundaryFailure := by
    simp only [runRetentionSweep, hcut]
  rw [sweepCalls, hrun]
  constructor
  · intro hmark
    by_contra hno
    have hrec : ∀ c ∈ sweepCandidates P w cutoff options.maxMark, Recorded w c.document_id :=
      fun c hc => by_contra fun hr => hno ⟨c, hc, hr⟩
    have hens : (calm P).Ensures 0 Eq (fun _ tr' _ => ∀ k ∈ tr', ∀ D, ¬ Marks P k D)
        (tryCatch (sweep P options now cutoff) boundaryFailure) [] w := by
      refine .tryCatch (fun _ => rfl) ((ensures_sweep_recorded hdry hscan hrec).mono ?_)
      intro r tr' w' h
      match r with
      | .ok _ => exact h
      | .error (.boundary _) => exact fun _ _ => h
      | .error .raw => exact fun _ _ => h
    obtain ⟨k, hk, D, -, hD⟩ := hmark
    exact hens.run _ 0 k hk D hD
  · intro h
    refine Machine.Ensures.run (Q := fun _ tr' _ => ∃ k ∈ tr', ∃ D, Due P w cutoff D ∧ Marks P k D)
      _ 0 ?_
    refine Machine.Ensures.tryCatch_call (.bind (fun _ => rfl) (hscan.ensures fun new _ => ?_))
    simp only [hdry]
    refine Machine.Ensures.bind_call ((ensures_markCandidates h).mono fun r tr' w' hk => ?_)
    obtain ⟨k, hk, c, hc, hm⟩ := hk
    exact ⟨k, hk, c.document_id, due_of_sweepCandidates hc, hm⟩

/-- **Progress of a sweep.** Where a document is due, an undisturbed sweep marks one, if and only if
one of the due documents within its scan and its mark limit has no retention row. -/
theorem sweep_progress_iff (P : Runtime) (w : World) (options : SweepOptions) {now cutoff : String}
    (hdry : options.dryRun = false) (hcut : retentionCutoff P now = .ok cutoff) :
    ((∃ D, Due P w cutoff D) →
        ∃ k ∈ sweepCalls P options now w, ∃ D, Due P w cutoff D ∧ Marks P k D) ↔
      ((∃ D, Due P w cutoff D) →
        ∃ c ∈ sweepCandidates P w cutoff options.maxMark, ¬ Recorded w c.document_id) := by
  rw [sweep_marks_iff P w options hdry hcut]

instance (w : World) (D : String) : Decidable (Recorded w D) :=
  inferInstanceAs (Decidable (∃ r ∈ w.retention.rows, r.document_id = D))

/-- The replica after the document `a` was purged and ingested again, and `b` ingested. -/
def starvedWorld : World :=
  ((machine exampleRuntime).exec (start exampleRuntime
    [.ingest (exampleRecord "a" "v1" "m1" "h") 0 "2026-01-01T", .sweep exampleOptions "2026-01-02T",
      .ingest (exampleRecord "a" "v1" "m2" "h") 0 "2026-01-03T",
      .ingest (exampleRecord "b" "v2" "m3" "h") 0 "2026-01-04T"])
    (alone 0 20 ++ alone 1 20 ++ alone 2 20 ++ alone 3 20)).world

def oneMark : SweepOptions := { exampleOptions with maxMark := some (.ofInt 1) }

theorem sweep_progress_iff_starved :
    ((∃ D, Due exampleRuntime starvedWorld "2026-09-04T" D) →
        ∃ k ∈ sweepCalls exampleRuntime oneMark "2026-09-04T" starvedWorld,
          ∃ D, Due exampleRuntime starvedWorld "2026-09-04T" D ∧ Marks exampleRuntime k D) ↔
      ((∃ D, Due exampleRuntime starvedWorld "2026-09-04T" D) →
        ∃ c ∈ sweepCandidates exampleRuntime starvedWorld "2026-09-04T" oneMark.maxMark,
          ¬ Recorded starvedWorld c.document_id) :=
  sweep_progress_iff exampleRuntime starvedWorld oneMark rfl rfl

/-- The purged document takes the one mark of the sweep, and a due document that was never marked
is passed over. -/
theorem due_document_starves :
    Due exampleRuntime starvedWorld "2026-09-04T" "b" ∧ ¬ Recorded starvedWorld "b" ∧
      ¬ ∃ k ∈ sweepCalls exampleRuntime oneMark "2026-09-04T" starvedWorld,
        ∃ D, Due exampleRuntime starvedWorld "2026-09-04T" D ∧ Marks exampleRuntime k D := by
  rw [sweep_marks_iff exampleRuntime starvedWorld oneMark rfl rfl]
  decide +kernel

end QuantproCollector.Retention
