import QuantproCollector.Retention.Sharing

/-!
# What a purge leaves of the objects

No ingest runs here. A purge is attempted again and again, each attempt ending where an operation
fails, until one completes. The guard counts, slice by slice, the links outside one slice of the
captured versions, so that with more than one slice the document's own links count as foreign, and
the object of an own link is kept (`exact_iff`). What another document refers to is kept always.
-/

namespace QuantproCollector.Retention

open Relational Async SemanticIndex

/-! ## Attempts -/

/-- The retention row of a document as its mark has just inserted it. -/
structure JustMarked (w : World) (row : RetentionRow) : Prop where
  mem : row ∈ w.retention
  expired : row.status = .EXPIRED
  versions : row.version_ids = (captured w row.document_id).version_ids
  hashes : row.content_sha256s = (captured w row.document_id).content_sha256s

/-- One attempt at the purge of a document: its time, and what fails in it. -/
structure Attempt where
  now : String
  faults : ℕ → Fault

/-- The result of an attempt and the world it leaves. -/
def Attempt.run (P : Runtime) (row : RetentionRow) (w : World) (a : Attempt) :
    Except Thrown RetentionPurgeDetail × World :=
  let r := (machine P).run 0 a.faults (purgeExpiredDocument row a.now) 0 [] w
  (r.1, r.2.2)

/-- The world after some attempts. -/
def afterAttempts (P : Runtime) (row : RetentionRow) (w : World) (as : List Attempt) : World :=
  as.foldl (fun w a => (a.run P row w).2) w

/-- Neither the bytes nor the row of a content hash are there. -/
def Gone (w : World) (h : String) : Prop :=
  objectKey h ∉ w.bucket ∧ ∀ r ∈ w.objects, r.content_sha256 ≠ h

/-- What there was of the bytes and of the row of a content hash is there still. -/
def Kept (h : String) (w w' : World) : Prop :=
  (objectKey h ∈ w.bucket → objectKey h ∈ w'.bucket) ∧
    ((∃ r ∈ w.objects, r.content_sha256 = h) → ∃ r ∈ w'.objects, r.content_sha256 = h)

/-- However often the purge was attempted before it completes: then the objects that only versions
of the document refer to are gone, and those that a version of another document refers to are
kept. -/
def PurgesExactly (P : Runtime) (w : World) (row : RetentionRow) : Prop :=
  ∀ (crashed : List Attempt) (last : Attempt) (detail : RetentionPurgeDetail),
    (last.run P row (afterAttempts P row w crashed)).1 = .ok detail →
      ∀ h ∈ row.content_sha256s,
        (¬ Referenced w row.document_id h →
          Gone (last.run P row (afterAttempts P row w crashed)).2 h) ∧
        (Referenced w row.document_id h →
          Kept h w (last.run P row (afterAttempts P row w crashed)).2)

/-! ## The slices -/

theorem mem_of_mem_slices {values slice : List String} (h : slice ∈ slices values) {v : String}
    (hv : v ∈ slice) : v ∈ values := by
  obtain ⟨i, -, rfl⟩ := List.mem_map.1 h
  exact List.mem_of_mem_drop (List.mem_of_mem_take hv)

theorem slices_of_le {values : List String} (hne : values ≠ []) (h : values.length ≤ PARAM_CHUNK) :
    slices values = [values] := by
  have hpos : 0 < values.length := List.length_pos_iff.2 hne
  have hone : (values.length + PARAM_CHUNK - 1) / PARAM_CHUNK = 1 := by
    simp only [PARAM_CHUNK] at *
    omega
  simp [slices, hone, List.take_of_length_le h]

/-- Every value is in a slice. -/
theorem exists_slice_of_mem {values : List String} {v : String} (hv : v ∈ values) :
    ∃ slice ∈ slices values, v ∈ slice := by
  obtain ⟨i, hi, rfl⟩ := List.getElem_of_mem hv
  refine ⟨(values.drop (i / PARAM_CHUNK * PARAM_CHUNK)).take PARAM_CHUNK,
    List.mem_map.2 ⟨i / PARAM_CHUNK, List.mem_range.2 ?_, rfl⟩, ?_⟩
  · simp only [PARAM_CHUNK]
    omega
  · refine List.mem_iff_getElem.2 ⟨i % PARAM_CHUNK, ?_, ?_⟩
    · simp only [List.length_take, List.length_drop, PARAM_CHUNK]
      omega
    · simp only [List.getElem_take, List.getElem_drop, PARAM_CHUNK]
      congr 1
      omega

/-- A link outside the values is outside one of their slices. -/
theorem exists_slice_outside {values : List String} {l : RecordObjectRow}
    {links : Table RecordObjectRow (String × String × String × String) [fun r => some r.key]}
    (hne : values ≠ []) (hl : l ∈ links) (hout : l.record_key ∉ values) :
    ∃ slice ∈ slices values, ∃ l' ∈ links,
      l'.content_sha256 = l.content_sha256 ∧ l'.record_key ∉ slice := by
  obtain ⟨v, hv⟩ := List.exists_mem_of_ne_nil values hne
  obtain ⟨slice, hs, -⟩ := exists_slice_of_mem hv
  exact ⟨slice, hs, l, hl, rfl, fun hmem => hout (mem_of_mem_slices hs hmem)⟩

/-- With more values than a slice holds, no value is in both of the first two slices. -/
theorem exists_slice_without {values : List String} (hnodup : values.Nodup)
    (h : PARAM_CHUNK < values.length) (v : String) : ∃ slice ∈ slices values, v ∉ slice := by
  have htwo : 2 ≤ (values.length + PARAM_CHUNK - 1) / PARAM_CHUNK := by
    simp only [PARAM_CHUNK] at *
    omega
  by_cases hv : v ∈ values.take PARAM_CHUNK
  · refine ⟨(values.drop (1 * PARAM_CHUNK)).take PARAM_CHUNK,
      List.mem_map.2 ⟨1, List.mem_range.2 (by omega), rfl⟩, fun hv' => ?_⟩
    have hdrop : v ∈ values.drop PARAM_CHUNK := by simpa using List.mem_of_mem_take hv'
    rw [← List.take_append_drop PARAM_CHUNK values] at hnodup
    exact (List.nodup_append.1 hnodup).2.2 v hv v hdrop rfl
  · exact ⟨(values.drop (0 * PARAM_CHUNK)).take PARAM_CHUNK,
      List.mem_map.2 ⟨0, List.mem_range.2 (by omega), rfl⟩, by simpa using hv⟩

/-! ## What a purge does to the objects -/

/-- Links, bytes and rows are only removed. -/
structure Shrinks (w w' : World) : Prop where
  links : ∀ l ∈ w'.links, l ∈ w.links
  bucket : ∀ key ∈ w'.bucket, key ∈ w.bucket
  objects : ∀ r ∈ w'.objects, r ∈ w.objects

theorem Shrinks.refl (w : World) : Shrinks w w :=
  ⟨fun _ h => h, fun _ h => h, fun _ h => h⟩

theorem Shrinks.trans {u v w : World} (h : Shrinks u v) (h' : Shrinks v w) : Shrinks u w :=
  ⟨fun l hl => h.links l (h'.links l hl), fun k hk => h.bucket k (h'.bucket k hk),
    fun r hr => h.objects r (h'.objects r hr)⟩

theorem Shrinks.gone {w w' : World} (h : Shrinks w w') {hash : String} (hg : Gone w hash) :
    Gone w' hash :=
  ⟨fun hk => hg.1 (h.bucket _ hk), fun r hr => hg.2 r (h.objects r hr)⟩

theorem objectKey_injective {h h' : String} (heq : objectKey h = objectKey h') : h = h' :=
  (String.append_right_inj _).1 heq

theorem shrinks_effect {P : Runtime} {op : Op} (hop : plain op = true) (w : World) :
    Shrinks w (effect P op w) := by
  cases op with
  | deleteObject D h => exact ⟨fun _ hl => hl, fun _ hk => List.mem_of_mem_filter hk, fun _ hr => hr⟩
  | deleteJournal m => exact ⟨fun _ hl => hl, fun _ hk => List.mem_of_mem_filter hk, fun _ hr => hr⟩
  | deleteLinks s =>
    exact ⟨fun _ hl => (Table.mem_deleteWhere.1 hl).1, fun _ hk => hk, fun _ hr => hr⟩
  | deleteObjectRow D h =>
    exact ⟨fun _ hl => hl, fun _ hk => hk, fun _ hr => (Table.mem_deleteWhere.1 hr).1⟩
  | insertRetention row => cases hop
  | ingestBatch record key now => cases hop
  | putObject key => cases hop
  | _ => exact ⟨fun _ hl => hl, fun _ hk => hk, fun _ hr => hr⟩

/-- Only the deletes of a content hash remove its bytes or its row. -/
theorem kept_effect {P : Runtime} {op : Op} {h : String} (hop : plain op = true)
    (hdel : ∀ D, op ≠ .deleteObject D h) (hrow : ∀ D, op ≠ .deleteObjectRow D h) (w : World) :
    Kept h w (effect P op w) := by
  cases op with
  | deleteObject D hash =>
    have hne : objectKey h ≠ objectKey hash := fun heq =>
      hdel D (by rw [objectKey_injective heq])
    exact ⟨fun hk => List.mem_filter.2 ⟨hk, by simpa using hne⟩, fun hr => hr⟩
  | deleteJournal m =>
    exact ⟨fun hk => List.mem_filter.2 ⟨hk, by simpa using objectKey_ne_journalKey h m⟩,
      fun hr => hr⟩
  | deleteObjectRow D hash =>
    refine ⟨fun hk => hk, ?_⟩
    rintro ⟨r, hr, rfl⟩
    refine ⟨r, Table.mem_deleteWhere.2 ⟨hr, decide_eq_false ?_⟩, rfl⟩
    rintro rfl
    exact hrow D rfl
  | insertRetention row => cases hop
  | ingestBatch record key now => cases hop
  | putObject key => cases hop
  | _ => exact ⟨fun hk => hk, fun hr => hr⟩

theorem Kept.refl (h : String) (w : World) : Kept h w w :=
  ⟨fun hk => hk, fun hr => hr⟩

theorem Kept.trans {h : String} {u v w : World} (hu : Kept h u v) (hv : Kept h v w) : Kept h u w :=
  ⟨fun hk => hv.1 (hu.1 hk), fun hr => hv.2 (hu.2 hr)⟩

section Programs

variable {P : Runtime} {t : ℕ} {tr : List (Call Op World Fault)} {w : World} {α β : Type}

/-- A sweep's operations, marks apart, only remove. -/
theorem ensures_shrinks {s : Program α} (hs : s.Issues fun op => plain op = true) :
    (machine P).Ensures t Eq (fun _ _ w' => Shrinks w w') s tr w := by
  refine (Machine.ensures_of_issues (I := Shrinks w) (fun f op v hop hv => ?_) hs (.refl w)).mono
    fun _ _ _ h => h.1
  rw [machine_perform]
  rcases perform_world P f op v with hw | hw
  · rwa [hw]
  · rw [hw]
    exact hv.trans (shrinks_effect hop v)

/-- Programs that do not delete a content hash keep it. -/
theorem ensures_kept {h : String} {s : Program α} (hs : s.Issues fun op => plain op = true ∧
    (∀ D, op ≠ .deleteObject D h) ∧ ∀ D, op ≠ .deleteObjectRow D h) :
    (machine P).Ensures t Eq (fun _ _ w' => Kept h w w') s tr w := by
  refine (Machine.ensures_of_issues (I := Kept h w) (fun f op v hop hv => ?_) hs (.refl h w)).mono
    fun _ _ _ h => h.1
  rw [machine_perform]
  rcases perform_world P f op v with hw | hw
  · rwa [hw]
  · rw [hw]
    exact hv.trans (kept_effect hop.1 hop.2.1 hop.2.2 v)

/-- What a part promises of its result, the next part may use. -/
theorem ensures_bind_ok {R : α → World → Prop} {Q : β → World → Prop} {s : Program α}
    {f : α → Program β}
    (hs : (machine P).Ensures t Eq (fun r _ w' => ∀ a, r = .ok a → R a w') s tr w)
    (hf : ∀ a tr' w', R a w' →
      (machine P).Ensures t Eq (fun r _ w'' => ∀ b, r = .ok b → Q b w'') (f a) tr' w') :
    (machine P).Ensures t Eq (fun r _ w'' => ∀ b, r = .ok b → Q b w'') (s >>= f) tr w := by
  refine .bind (fun _ => rfl) (hs.mono fun r tr' w' h => ?_)
  cases r with
  | ok a => exact hf a tr' w' (h a rfl)
  | error e => exact fun b hb => nomatch hb

/-- The counts of a content hash are those of the world, slice by slice. -/
theorem ensures_counts (D hash : String) (l : List (List String)) :
    (machine P).Ensures t Eq (fun r _ w' => w = w' ∧ ∀ counts, r = .ok counts →
        counts = l.map fun slice => (foreignLinks w hash slice).length)
      (gather (fun slice => do
        let count ← Script.perform (Op.countReferences D hash slice)
        pure [count] : List String → Program (List ℕ)) l) tr w := by
  induction l generalizing tr with
  | nil =>
    rintro _ rfl
    exact ⟨rfl, fun counts hc => (Except.ok.inj hc).symm⟩
  | cons slice rest ih =>
    rintro _ rfl f
    cases f with
    | none =>
      refine Machine.Ensures.bind (s := gather _ rest) (fun _ => rfl) (ih.mono ?_)
      rintro r tr' w' ⟨rfl, hr⟩
      cases r with
      | error e => exact ⟨rfl, fun counts hc => nomatch hc⟩
      | ok more =>
        rintro _ rfl
        refine ⟨rfl, fun counts hc => ?_⟩
        obtain rfl := hr more rfl
        exact (Except.ok.inj hc).symm
    | before =>
      rintro _ rfl
      exact ⟨rfl, fun counts hc => nomatch hc⟩
    | after =>
      rintro _ rfl
      exact ⟨rfl, fun counts hc => nomatch hc⟩

/-! ## Objects that are kept -/

/-- A content hash with a link outside one of the slices is not deleted. -/
theorem ensures_purgeObjects_kept {D h : String} {versionIds hashes : List String}
    (hslice : ∃ slice ∈ slices versionIds, ∃ l ∈ w.links,
      l.content_sha256 = h ∧ l.record_key ∉ slice) :
    (machine P).Ensures t Eq
      (fun r _ w' => Kept h w w' ∧ ∀ res, r = .ok res → h ∉ res.deleted)
      (purgeObjects D versionIds hashes) tr w := by
  induction hashes generalizing tr w with
  | nil =>
    rintro _ rfl
    refine ⟨.refl h w, fun res hres => ?_⟩
    cases hres
    exact List.not_mem_nil
  | cons hash rest ih =>
    refine .bind (fun _ => rfl) ((ensures_counts D hash (slices versionIds)).mono ?_)
    rintro r tr' _ ⟨rfl, hr⟩
    cases r with
    | error e => exact ⟨.refl h w, fun res hres => nomatch hres⟩
    | ok counts =>
      by_cases hpos : 0 < counts.sum
      · simp only [if_pos hpos]
        refine .bind (fun _ => rfl) ((ih hslice).mono ?_)
        rintro r tr'' w' ⟨hkept, hdel⟩
        cases r with
        | error e => exact ⟨hkept, fun res hres => nomatch hres⟩
        | ok more =>
          rintro _ rfl
          refine ⟨hkept, fun res hres => ?_⟩
          cases hres
          exact hdel more rfl
      · simp only [if_neg hpos]
        have hne : hash ≠ h := by
          rintro rfl
          obtain ⟨slice, hs, l, hl, hlh, hlk⟩ := hslice
          have hmem : l ∈ foreignLinks w hash slice := List.mem_filter.2 ⟨hl, by simp [hlh, hlk]⟩
          have hcount : (foreignLinks w hash slice).length ∈ counts := by
            rw [hr counts rfl]
            exact List.mem_map.2 ⟨slice, hs, rfl⟩
          exact hpos (List.sum_pos_iff_exists_pos_nat.2
            ⟨_, hcount, List.length_pos_of_mem hmem⟩)
        have hkeep : Kept h w (effect P (.deleteObject D hash) w) :=
          kept_effect rfl (fun D' heq => hne (by cases heq; rfl)) (fun D' heq => by cases heq) w
        rintro _ rfl f
        cases f with
        | none =>
          refine Machine.Ensures.bind (s := purgeObjects D versionIds rest) (fun _ => rfl)
            ((ih (w := effect P (.deleteObject D hash) w) hslice).mono ?_)
          rintro r tr'' w' ⟨hkept, hdel⟩
          cases r with
          | error e => exact ⟨hkeep.trans hkept, fun res hres => nomatch hres⟩
          | ok more =>
            rintro _ rfl
            refine ⟨hkeep.trans hkept, fun res hres => ?_⟩
            cases hres
            simpa [Ne.symm hne] using hdel more rfl
        | before =>
          rintro _ rfl
          exact ⟨.refl h w, fun res hres => nomatch hres⟩
        | after =>
          rintro _ rfl
          exact ⟨hkeep, fun res hres => nomatch hres⟩

/-! ## Objects that are deleted -/

/-- A content hash whose links are all of the captured versions is deleted, where these fit into one
slice. -/
theorem ensures_purgeObjects_gone {D h : String} {versionIds hashes : List String}
    (hone : slices versionIds = [versionIds])
    (hlinks : ∀ l ∈ w.links, l.content_sha256 = h → l.record_key ∈ versionIds) :
    (machine P).Ensures t Eq (fun r _ w' => ∀ res, r = .ok res → h ∈ hashes →
        h ∈ res.deleted ∧ objectKey h ∉ w'.bucket)
      (purgeObjects D versionIds hashes) tr w := by
  induction hashes generalizing tr w with
  | nil =>
    rintro _ rfl
    exact fun res _ hmem => absurd hmem List.not_mem_nil
  | cons hash rest ih =>
    refine .bind (fun _ => rfl) ((ensures_counts D hash (slices versionIds)).mono ?_)
    rintro r tr' _ ⟨rfl, hr⟩
    cases r with
    | error e => exact fun res hres => nomatch hres
    | ok counts =>
      by_cases hpos : 0 < counts.sum
      · have hne : h ≠ hash := by
          rintro rfl
          have hnone : foreignLinks w h versionIds = [] :=
            List.filter_eq_nil_iff.2 fun l hl => by
              simpa using fun hlh => hlinks l hl hlh
          rw [hr counts rfl, hone] at hpos
          simp [hnone] at hpos
        simp only [if_pos hpos]
        refine .bind (fun _ => rfl) ((ih hlinks).mono fun r tr'' w' hdel => ?_)
        cases r with
        | error e => exact fun res hres => nomatch hres
        | ok more =>
          rintro _ rfl res hres hmem
          cases hres
          exact hdel more rfl ((List.mem_cons.1 hmem).resolve_left hne)
      · simp only [if_neg hpos]
        rintro _ rfl f
        cases f with
        | none =>
          have hshrinks : (machine P).Ensures t Eq
              (fun _ _ w' => Shrinks (effect P (.deleteObject D hash) w) w')
              (purgeObjects D versionIds rest) (⟨t, .deleteObject D hash, .none, w⟩ :: tr')
              (effect P (.deleteObject D hash) w) :=
            ensures_shrinks (issues_purgeObjects (fun _ _ => rfl) (fun _ => rfl) _ _)
          refine Machine.Ensures.bind (s := purgeObjects D versionIds rest) (fun _ => rfl)
            (((ih (w := effect P (.deleteObject D hash) w) hlinks).and hshrinks).mono ?_)
          rintro r tr'' w' ⟨hdel, hs⟩
          cases r with
          | error e => exact fun res hres => nomatch hres
          | ok more =>
            rintro _ rfl res hres hmem
            cases hres
            rcases List.mem_cons.1 hmem with rfl | hmem
            · refine ⟨List.mem_cons_self, fun hk => ?_⟩
              have := (List.mem_filter.1 (hs.bucket _ hk)).2
              simp at this
            · have hrest := hdel more rfl hmem
              exact ⟨List.mem_cons_of_mem _ hrest.1, hrest.2⟩
        | before =>
          rintro _ rfl res hres
          exact nomatch hres
        | after =>
          rintro _ rfl res hres
          exact nomatch hres

theorem ensures_purgeObjectRows {D : String} (hashes : List String) :
    (machine P).Ensures t Eq (fun r _ w' => ∀ n, r = .ok n → ∀ a ∈ hashes, ∀ o ∈ w'.objects,
        o.content_sha256 ≠ a) (purgeObjectRows D hashes) tr w := by
  induction hashes generalizing tr w with
  | nil =>
    rintro _ rfl
    exact fun n _ a ha => absurd ha List.not_mem_nil
  | cons hash rest ih =>
    rintro _ rfl f
    cases f with
    | none =>
      have hshrinks : (machine P).Ensures t Eq
          (fun _ _ w' => Shrinks (effect P (.deleteObjectRow D hash) w) w')
          (purgeObjectRows D rest) (⟨t, .deleteObjectRow D hash, .none, w⟩ :: tr)
          (effect P (.deleteObjectRow D hash) w) :=
        ensures_shrinks (issues_purgeObjectRows fun _ _ => rfl)
      refine Machine.Ensures.bind (s := purgeObjectRows D rest) (fun _ => rfl)
        ((ih.and hshrinks).mono ?_)
      rintro r tr' w' ⟨hrows, hs⟩
      cases r with
      | error e => exact fun n hn => nomatch hn
      | ok more =>
        rintro _ rfl n _ a ha o ho
        rcases List.mem_cons.1 ha with rfl | ha
        · have := (Table.mem_deleteWhere.1 (hs.objects o ho)).2
          simpa using this
        · exact hrows more rfl a ha o ho
    | before =>
      rintro _ rfl n hn
      exact nomatch hn
    | after =>
      rintro _ rfl n hn
      exact nomatch hn

/-- The rest of a purge that completes leaves nothing of a deleted object. -/
theorem ensures_purgeRecords_gone {row : RetentionRow} {now h : String} {objects : ObjectPurge}
    (hdel : h ∈ objects.deleted) (hk : objectKey h ∉ w.bucket) :
    (machine P).Ensures t Eq (fun r _ w' => ∀ d, r = .ok d → Gone w' h)
      (purgeRecords row now objects) tr w := by
  have hpart : ∀ {γ : Type} {s : Program γ} {tr' : List (Call Op World Fault)} {v : World},
      objectKey h ∉ v.bucket → s.Issues (fun op => plain op = true) →
      (machine P).Ensures t Eq (fun r _ w' => ∀ a, r = .ok a → objectKey h ∉ w'.bucket) s tr' v :=
    fun hv hs => (ensures_shrinks hs).mono fun _ _ _ hshrinks _ _ hk' => hv (hshrinks.bucket _ hk')
  refine ensures_bind_ok (hpart hk (issues_purgeJournals (fun _ => rfl) _)) fun _ _ v hv => ?_
  refine ensures_bind_ok (hpart hv (issues_runSlices fun _ _ => issues_perform rfl))
    fun _ _ v hv => ?_
  refine ensures_bind_ok (hpart hv (issues_runSlices fun _ _ => issues_perform rfl))
    fun _ _ v hv => ?_
  refine ensures_bind_ok (hpart hv (issues_runSlices fun _ _ => issues_perform rfl))
    fun _ _ v hv => ?_
  refine ensures_bind_ok (R := fun _ v => Gone v h) (((ensures_purgeObjectRows objects.deleted).and
    (hpart hv (issues_purgeObjectRows fun _ _ => rfl))).mono fun r _ v hrows n hn =>
      ⟨hrows.2 n hn, hrows.1 n hn h hdel⟩) fun _ _ v hgone => ?_
  refine (ensures_shrinks ?_).mono fun _ _ _ hshrinks _ _ => hshrinks.gone hgone
  refine Script.Issues.bind (issues_perform rfl) fun states => ?_
  refine (issues_purgeVectors (fun _ _ => rfl) _ _).bind fun vectors => ?_
  refine Script.Issues.bind (issues_perform rfl) fun flipped => ?_
  split_ifs
  · trivial
  · trivial

/-- A purge that completes leaves nothing of a content hash whose links are all of the captured
versions, where these fit into one slice. -/
theorem ensures_purgeExpiredDocument_gone {row : RetentionRow} {now h : String}
    (hone : slices row.version_ids = [row.version_ids])
    (hlinks : ∀ l ∈ w.links, l.content_sha256 = h → l.record_key ∈ row.version_ids)
    (hmem : h ∈ row.content_sha256s) :
    (machine P).Ensures t Eq (fun r _ w' => ∀ d, r = .ok d → Gone w' h)
      (purgeExpiredDocument row now) tr w := by
  refine ensures_bind_ok (R := fun objects v => h ∈ objects.deleted ∧ objectKey h ∉ v.bucket)
    ((ensures_purgeObjects_gone hone hlinks).mono fun r _ v hdel objects hr =>
      hdel objects hr hmem) fun objects tr' v hv => ?_
  exact ensures_purgeRecords_gone hv.1 hv.2

/-- A purge keeps a content hash with a link outside one of the slices, however it ends. -/
theorem ensures_purgeExpiredDocument_kept {row : RetentionRow} {now h : String}
    (hslice : ∃ slice ∈ slices row.version_ids, ∃ l ∈ w.links,
      l.content_sha256 = h ∧ l.record_key ∉ slice) :
    (machine P).Ensures t Eq (fun _ _ w' => Kept h w w') (purgeExpiredDocument row now) tr w := by
  refine .bind (fun _ => rfl) ((ensures_purgeObjects_kept hslice).mono ?_)
  rintro r tr' v ⟨hkept, hdel⟩
  cases r with
  | error e => exact hkept
  | ok objects =>
    have hrest : (purgeRecords row now objects).Issues fun op => plain op = true ∧
        (∀ D, op ≠ .deleteObject D h) ∧ ∀ D, op ≠ .deleteObjectRow D h :=
      issues_purgeRecords
        (fun op hop _ hobject hrow => ⟨hop, fun D => hobject D h, fun D => hrow D h⟩)
        (fun _ _ => ⟨rfl, fun _ => by simp, fun _ => by simp⟩) fun a ha =>
          ⟨rfl, fun _ => by simp, fun D heq => hdel objects rfl (by cases heq; exact ha)⟩
    exact (ensures_kept hrest).mono fun _ _ _ h' => hkept.trans h'

/-- The link of a version that was not captured stays. -/
theorem ensures_purgeExpiredDocument_link {row : RetentionRow} {now : String}
    {l : RecordObjectRow} (hl : l ∈ w.links) (hout : l.record_key ∉ row.version_ids) :
    (machine P).Ensures t Eq (fun _ _ w' => l ∈ w'.links) (purgeExpiredDocument row now) tr w := by
  have hissues : (purgeExpiredDocument row now).Issues fun op =>
      plain op = true ∧ ∀ s, op = .deleteLinks s → l.record_key ∉ s := by
    refine (issues_purgeObjects (fun _ _ => ⟨rfl, by simp⟩) (fun _ => ⟨rfl, by simp⟩) _ _).bind
      fun objects => ?_
    refine issues_purgeRecords (fun op hop hdel _ _ => ⟨hop, fun s heq => absurd heq (hdel s)⟩)
      (fun s hs => ⟨rfl, fun s' heq => ?_⟩) fun _ _ => ⟨rfl, by simp⟩
    cases heq
    exact fun hmem => hout (mem_of_mem_slices hs hmem)
  refine (Machine.ensures_of_issues (I := fun w => l ∈ w.links) (fun f op v hop hv => ?_) hissues
    hl).mono fun _ _ _ h => h.1
  rw [machine_perform]
  rcases perform_world P f op v with hw | hw
  · rwa [hw]
  · rw [hw]
    obtain ⟨hplain, hdel⟩ := hop
    cases op with
    | deleteLinks s =>
      refine Table.mem_deleteWhere.2 ⟨hv, ?_⟩
      simp [linkOf, hdel s rfl]
    | insertRetention row => cases hplain
    | ingestBatch record key now => cases hplain
    | putObject key => cases hplain
    | _ => exact hv

end Programs

/-! ## Attempts that fail -/

section Attempts

variable {P : Runtime} {row : RetentionRow}

/-- What every attempt keeps, any number of them keep. -/
theorem afterAttempts_induction {I : World → Prop}
    (hstep : ∀ (a : Attempt) w, I w → I (a.run P row w).2) (as : List Attempt) {w : World}
    (h0 : I w) : I (afterAttempts P row w as) := by
  induction as generalizing w with
  | nil => exact h0
  | cons a as ih => exact ih (hstep a w h0)

theorem Attempt.shrinks (a : Attempt) (w : World) : Shrinks w (a.run P row w).2 :=
  Machine.Ensures.run (Q := fun _ _ w' => Shrinks w w') a.faults 0
    (ensures_shrinks (issues_purgeExpiredDocument (fun _ h => h) row a.now))

theorem shrinks_afterAttempts (as : List Attempt) (w : World) :
    Shrinks w (afterAttempts P row w as) :=
  afterAttempts_induction (I := Shrinks w) (fun a v hv => hv.trans (a.shrinks v)) as (.refl w)

theorem Attempt.keepsLink (a : Attempt) {w : World} {l : RecordObjectRow} (hl : l ∈ w.links)
    (hout : l.record_key ∉ row.version_ids) : l ∈ (a.run P row w).2.links :=
  Machine.Ensures.run (Q := fun _ _ (w' : World) => l ∈ w'.links) a.faults 0
    (ensures_purgeExpiredDocument_link hl hout)

theorem Attempt.kept (a : Attempt) {w : World} {h : String}
    (hslice : ∃ slice ∈ slices row.version_ids, ∃ l ∈ w.links,
      l.content_sha256 = h ∧ l.record_key ∉ slice) : Kept h w (a.run P row w).2 :=
  Machine.Ensures.run (Q := fun _ _ w' => Kept h w w') a.faults 0
    (ensures_purgeExpiredDocument_kept hslice)

theorem Attempt.gone (a : Attempt) {w : World} {h : String}
    (hone : slices row.version_ids = [row.version_ids])
    (hlinks : ∀ l ∈ w.links, l.content_sha256 = h → l.record_key ∈ row.version_ids)
    (hmem : h ∈ row.content_sha256s) {d : RetentionPurgeDetail}
    (hd : (a.run P row w).1 = .ok d) : Gone (a.run P row w).2 h :=
  Machine.Ensures.run (Q := fun r _ w' => ∀ d, r = .ok d → Gone w' h) a.faults 0
    (ensures_purgeExpiredDocument_gone hone hlinks hmem) d hd

/-- Attempts keep the link of a version that was not captured, and the content hash of it. -/
theorem kept_afterAttempts {w : World} {l : RecordObjectRow} (hl : l ∈ w.links)
    (hout : l.record_key ∉ row.version_ids) (hne : row.version_ids ≠ []) (as : List Attempt) :
    l ∈ (afterAttempts P row w as).links ∧ Kept l.content_sha256 w (afterAttempts P row w as) := by
  refine afterAttempts_induction (I := fun v => l ∈ v.links ∧ Kept l.content_sha256 w v)
    (fun a v hv => ⟨a.keepsLink hv.1 hout, hv.2.trans (a.kept ?_)⟩) as ⟨hl, .refl _ w⟩
  exact exists_slice_outside hne hv.1 hout

end Attempts

/-! ## An attempt that nothing disturbs -/

section Undisturbed

variable {P : Runtime} {t : ℕ} {tr : List (Call Op World {f : Fault // f = .none})} {w : World}
  {α β : Type}

theorem answered_gather {f : List String → Program (List α)} (h : ∀ slice, (f slice).Answered)
    (l : List (List String)) : (gather f l).Answered := by
  induction l with
  | nil => exact Script.answered_pure _
  | cons slice rest ih =>
    exact (h slice).bind fun _ => ih.bind fun _ => Script.answered_pure _

theorem answered_runSlices {f : List String → Program ℕ} (h : ∀ slice, (f slice).Answered)
    (l : List (List String)) : (runSlices f l).Answered := by
  induction l with
  | nil => exact Script.answered_pure _
  | cons slice rest ih =>
    exact (h slice).bind fun _ => ih.bind fun _ => Script.answered_pure _

theorem answered_purgeObjects (D : String) (versionIds hashes : List String) :
    (purgeObjects D versionIds hashes).Answered := by
  induction hashes with
  | nil => exact Script.answered_pure _
  | cons hash rest ih =>
    refine (answered_gather (fun slice => (Script.answered_perform _).bind fun _ =>
      Script.answered_pure _) _).bind fun references => ?_
    split_ifs
    · exact ih.bind fun _ => Script.answered_pure _
    · exact (Script.answered_perform _).bind fun _ => ih.bind fun _ => Script.answered_pure _

theorem answered_purgeJournals (messageIds : List String) : (purgeJournals messageIds).Answered := by
  induction messageIds with
  | nil => exact Script.answered_pure _
  | cons id rest ih => exact (Script.answered_perform _).bind fun _ => ih

theorem answered_purgeObjectRows (D : String) (hashes : List String) :
    (purgeObjectRows D hashes).Answered := by
  induction hashes with
  | nil => exact Script.answered_pure _
  | cons hash rest ih =>
    exact (Script.answered_perform _).bind fun _ => ih.bind fun _ => Script.answered_pure _

theorem answered_purgeVectors (D : String) (versionIds : List String) :
    (purgeVectors D versionIds).Answered := by
  induction versionIds with
  | nil => exact Script.answered_pure _
  | cons id rest ih =>
    exact (Script.answered_perform _).bind fun _ => ih.bind fun _ => Script.answered_pure _

/-- A part of a purge that raises nothing of its own returns, and leaves the retention table. -/
theorem ensures_answered {s : Program α} (ha : s.Answered)
    (hs : s.Issues fun op => ∀ w, (effect P op w).retention = w.retention) :
    (calm P).Ensures t Eq (fun r _ w' => (∃ a, r = .ok a) ∧ w'.retention = w.retention) s tr w := by
  induction s generalizing tr w with
  | halt r =>
    rintro _ rfl
    exact ⟨ha, rfl⟩
  | call op next ih =>
    rintro _ rfl ch
    rw [calm_perform]
    exact (ih _ (ha _) (hs.2 _)).mono fun r _ w' h => ⟨h.1, h.2.trans (hs.1 w)⟩

/-- What follows a part that returns. -/
theorem ensures_answered_bind {Q : Except Thrown β → Prop} {s : Program α} {f : α → Program β}
    (ha : s.Answered) (hs : s.Issues fun op => ∀ w, (effect P op w).retention = w.retention)
    (hf : ∀ a tr' (w' : World), w'.retention = w.retention →
      (calm P).Ensures t Eq (fun r _ _ => Q r) (f a) tr' w') :
    (calm P).Ensures t Eq (fun r _ _ => Q r) (s >>= f) tr w := by
  refine .bind (fun _ => rfl) ((ensures_answered ha hs).mono ?_)
  rintro r tr' w' ⟨⟨a, rfl⟩, hw'⟩
  exact hf a tr' w' hw'

/-- Undisturbed, the purge of an EXPIRED document completes. -/
theorem ensures_purgeExpiredDocument_ok {row : RetentionRow} {now : String}
    (hmem : row ∈ w.retention) (hst : row.status = .EXPIRED) :
    (calm P).Ensures t Eq (fun r _ _ => ∃ d, r = .ok d) (purgeExpiredDocument row now) tr w := by
  refine ensures_answered_bind (answered_purgeObjects _ _ _)
    (issues_purgeObjects (fun _ _ _ => rfl) (fun _ _ => rfl) _ _) fun objects _ w₁ h₁ => ?_
  refine ensures_answered_bind (answered_purgeJournals _) (issues_purgeJournals (fun _ _ => rfl) _)
    fun _ _ w₂ h₂ => ?_
  refine ensures_answered_bind (answered_runSlices (fun _ => Script.answered_perform _) _)
    (issues_runSlices fun _ _ => issues_perform fun _ => rfl) fun _ _ w₃ h₃ => ?_
  refine ensures_answered_bind (answered_runSlices (fun _ => Script.answered_perform _) _)
    (issues_runSlices fun _ _ => issues_perform fun _ => rfl) fun _ _ w₄ h₄ => ?_
  refine ensures_answered_bind (answered_runSlices (fun _ => Script.answered_perform _) _)
    (issues_runSlices fun _ _ => issues_perform fun _ => rfl) fun _ _ w₅ h₅ => ?_
  refine ensures_answered_bind (answered_purgeObjectRows _ _)
    (issues_purgeObjectRows fun _ _ _ => rfl) fun _ _ w₆ h₆ => ?_
  refine ensures_answered_bind (Script.answered_perform _) (issues_perform fun _ => rfl)
    fun _ _ w₇ h₇ => ?_
  refine ensures_answered_bind (answered_purgeVectors _ _) (issues_purgeVectors (fun _ _ _ => rfl) _ _)
    fun _ _ w₈ h₈ => ?_
  have hret : w₈.retention = w.retention := by rw [h₈, h₇, h₆, h₅, h₄, h₃, h₂, h₁]
  -- the row is the only one of the document, so the flip changes one
  have hone : w₈.retention.rows.filter (pendingPurge row.document_id) = [row] := by
    rw [hret]
    refine Table.filter_eq_singleton (List.mem_singleton_self _) hmem (by simp [pendingPurge, hst])
      (by simp) fun r _ hr => ?_
    exact congrArg some (of_decide_eq_true hr).1
  rintro _ rfl ch
  rw [calm_perform]
  have hflip : ∀ now' detail, answer (.markPurged row.document_id now' detail) w₈ = 1 := fun _ _ => by
    simp [answer, hone]
  rw [hflip]
  rintro _ rfl
  exact ⟨_, rfl⟩

/-- Every marked document has an attempt that completes. -/
theorem exists_attempt {row : RetentionRow} (hmem : row ∈ w.retention)
    (hst : row.status = .EXPIRED) : ∃ (a : Attempt) (d : RetentionPurgeDetail),
      (a.run P row w).1 = .ok d := by
  have hens : (calm P).Ensures 0 Eq (fun r _ _ => ∃ d, r = .ok d) (purgeExpiredDocument row "") []
      w := ensures_purgeExpiredDocument_ok hmem hst
  have hok := hens.run (fun _ => ⟨.none, rfl⟩) 0
  have hsame := Machine.run_among (M := machine P) (C := (· = Fault.none)) (t := 0)
    (fun _ => ⟨.none, rfl⟩) (purgeExpiredDocument row "") 0 [] [] w
  obtain ⟨d, hd⟩ := hok
  exact ⟨⟨"", fun _ => .none⟩, d, hsame.1.symm.trans hd⟩

end Undisturbed

/-! ## Exactness -/

section Exactness

variable {P : Runtime} {w : World} {row : RetentionRow}

/-- A mark captures the content hashes that the links of the captured versions name. -/
theorem mem_captured_hashes {D h : String} :
    h ∈ (captured w D).content_sha256s ↔
      ∃ l ∈ w.links, versionLink h l ∧ l.record_key ∈ (captured w D).version_ids := by
  constructor
  · intro hmem
    obtain ⟨slice, hs, hmem⟩ := List.mem_flatMap.1 hmem
    obtain ⟨l, hl, rfl⟩ := List.mem_map.1 (List.mem_dedup.1 hmem)
    obtain ⟨hl, hlink⟩ := List.mem_filter.1 hl
    obtain ⟨htype, hkey⟩ := of_decide_eq_true hlink
    exact ⟨l, hl, ⟨htype, rfl⟩, mem_of_mem_slices hs hkey⟩
  · rintro ⟨l, hl, ⟨htype, rfl⟩, hkey⟩
    obtain ⟨slice, hs, hmem⟩ := exists_slice_of_mem hkey
    exact List.mem_flatMap.2 ⟨slice, hs, List.mem_dedup.2 (List.mem_map.2
      ⟨l, List.mem_filter.2 ⟨hl, decide_eq_true ⟨htype, hmem⟩⟩, rfl⟩)⟩

theorem nodup_captured_versions (w : World) (D : String) : (captured w D).version_ids.Nodup := by
  have hunique := w.records.unique _ (List.mem_singleton_self _)
  refine List.pairwise_map.2 (List.Pairwise.imp_of_mem ?_ (hunique.filter _))
  intro a b ha hb hne heq
  have htype : ∀ r ∈ versionsOf w D, r.record_type = "document_version" := fun r hr => by
    have h := (List.mem_filter.1 hr).2
    simp only [publicVersion, Bool.and_eq_true, decide_eq_true_eq] at h
    exact h.1.1
  exact hne (by simp) (congrArg some (Prod.ext ((htype a ha).trans (htype b hb).symm) heq))

/-- A version of another document is not captured. -/
theorem not_captured_of_referenced {D : String} {l : RecordObjectRow} {r : ReplicaRecordRow}
    (hr : r ∈ w.records) (hkey : r.key = ("document_version", l.record_key))
    (hD : documentIdOf r.payload ≠ some D) : l.record_key ∉ (captured w D).version_ids := by
  intro hmem
  obtain ⟨a, ha, hak⟩ := List.mem_map.1 hmem
  obtain ⟨ha, hdoc⟩ := List.mem_filter.1 ha
  simp only [publicVersion, Bool.and_eq_true, decide_eq_true_eq] at hdoc
  have hsame : a = r := Table.unique_of_mem (List.mem_singleton_self _) ha hr (by simp)
    (congrArg some ((Prod.ext hdoc.1.1 hak : a.key = ("document_version", l.record_key)).trans
      hkey.symm))
  exact hD (hsame ▸ hdoc.2)

/-- The versions of a marked document fit into one slice, and were all captured as far as they refer
to the content hash. -/
def CountsExactly (w : World) (row : RetentionRow) (h : String) : Prop :=
  row.version_ids.length ≤ PARAM_CHUNK ∧
    ∀ l ∈ w.links, l.content_sha256 = h → l.record_key ∈ row.version_ids

instance (w : World) (row : RetentionRow) (h : String) : Decidable (CountsExactly w row h) :=
  inferInstanceAs (Decidable (_ ∧ ∀ l ∈ w.links.rows, _))

/-- Otherwise one of the counts sees a link of the content hash. -/
theorem exists_link_outside {h : String} (hmark : JustMarked w row)
    (hh : h ∈ row.content_sha256s) (hno : ¬ CountsExactly w row h) :
    ∃ slice ∈ slices row.version_ids, ∃ l ∈ w.links, l.content_sha256 = h ∧ l.record_key ∉ slice := by
  rw [hmark.hashes] at hh
  obtain ⟨l, hl, ⟨-, hlh⟩, hkey⟩ := mem_captured_hashes.1 hh
  rw [← hmark.versions] at hkey
  by_cases hlen : row.version_ids.length ≤ PARAM_CHUNK
  · obtain ⟨l', hl', hlh', hout⟩ : ∃ l' ∈ w.links, l'.content_sha256 = h ∧
        l'.record_key ∉ row.version_ids := by
      by_contra hall
      exact hno ⟨hlen, fun l' hl' hlh' => by_contra fun hout => hall ⟨l', hl', hlh', hout⟩⟩
    rw [← hlh']
    exact exists_slice_outside (List.ne_nil_of_mem hkey) hl' hout
  · obtain ⟨slice, hs, hout⟩ := exists_slice_without
      (hmark.versions ▸ nodup_captured_versions w row.document_id) (not_le.1 hlen) l.record_key
    exact ⟨slice, hs, l, hl, hlh, hout⟩

/-- A content hash that no other document refers to stays where one of the counts sees a link. -/
theorem not_purgesExactly {h : String} (hmark : JustMarked w row) (hh : h ∈ row.content_sha256s)
    (href : ¬ Referenced w row.document_id h) (hthere : ¬ Gone w h)
    (hno : ¬ CountsExactly w row h) : ¬ PurgesExactly P w row := by
  intro hexact
  obtain ⟨a, d, hd⟩ := exists_attempt (P := P) hmark.mem hmark.expired
  have hgone : Gone (a.run P row w).2 h := (hexact [] a d hd h hh).1 href
  have hkept : Kept h w (a.run P row w).2 := a.kept (exists_link_outside hmark hh hno)
  refine hthere ⟨fun hk => hgone.1 (hkept.1 hk), fun r hr hrh => ?_⟩
  obtain ⟨r', hr', hrh'⟩ := hkept.2 ⟨r, hr, hrh⟩
  exact hgone.2 r' hr' hrh'

/-- **Exactness of a purge.** However often the purge of a marked document fails before it
completes, it leaves the shared objects and nothing of the others, if and only if the counts are
exact for every captured object that is still there and that no other document refers to. -/
theorem exact_iff (hmark : JustMarked w row) :
    PurgesExactly P w row ↔ ∀ h ∈ row.content_sha256s,
      ¬ Referenced w row.document_id h → ¬ Gone w h → CountsExactly w row h := by
  constructor
  · intro hexact h hh href hthere
    by_contra hno
    exact not_purgesExactly hmark hh href hthere hno hexact
  · intro hcounts crashed last detail hlast h hh
    have hkeys : row.version_ids ≠ [] := by
      have hcap := hh
      rw [hmark.hashes] at hcap
      obtain ⟨l, -, -, hkey⟩ := mem_captured_hashes.1 hcap
      exact List.ne_nil_of_mem (hmark.versions ▸ hkey)
    constructor
    · intro href
      have hshrinks : Shrinks w (afterAttempts P row w crashed) := shrinks_afterAttempts crashed w
      by_cases hgone : Gone w h
      · exact (hshrinks.trans (last.shrinks _)).gone hgone
      · obtain ⟨hlen, hlinks⟩ := hcounts h hh href hgone
        exact last.gone (slices_of_le hkeys hlen)
          (fun l hl hlh => hlinks l (hshrinks.links l hl) hlh) hh hlast
    · rintro ⟨l, hl, ⟨-, rfl⟩, r, hr, hkey, hD⟩
      have hout : l.record_key ∉ row.version_ids := by
        rw [hmark.versions]
        exact not_captured_of_referenced hr hkey hD
      obtain ⟨hl', hkept⟩ := kept_afterAttempts (P := P) hl hout hkeys crashed
      exact hkept.trans (last.kept (exists_slice_outside hkeys hl' hout))

/-- The row that a mark inserts is that of a just marked document. -/
theorem justMarked_insertRetention {c : RetentionCandidate} {now : String}
    (hc : ¬ Recorded w c.document_id) :
    JustMarked (w.insertRetention (retentionRow c (captured w c.document_id) now))
      (retentionRow c (captured w c.document_id) now) where
  mem := by
    rw [← Table.mem_rows, rows_insertRetention hc]
    exact List.mem_append_right _ (List.mem_singleton_self _)
  expired := rfl
  versions := rfl
  hashes := rfl

end Exactness

/-! ## More versions than a slice holds -/

/-- The candidate of the document `a`. -/
def exampleCandidate : RetentionCandidate := ⟨"a", none, none, .AGE_90D, 0⟩

/-- The mark of the document `a`. -/
def exampleMark (w : World) : RetentionRow :=
  retentionRow exampleCandidate (captured w "a") "2026-01-02T"

/-- One version of `a`, whose body is stored. -/
def oneVersion : World :=
  ((machine exampleRuntime).exec (start exampleRuntime
    [.ingest (exampleObject "m0" exampleHash) 5 "2026-01-01T",
      .ingest (exampleRecord "a" "v1" "m1" exampleHash) 0 "2026-01-01T"])
    (alone 0 9 ++ alone 1 8)).world

theorem exact_iff_oneVersion :
    PurgesExactly exampleRuntime (oneVersion.insertRetention (exampleMark oneVersion))
        (exampleMark oneVersion) ↔
      ∀ h ∈ (exampleMark oneVersion).content_sha256s,
        ¬ Referenced (oneVersion.insertRetention (exampleMark oneVersion)) "a" h →
          ¬ Gone (oneVersion.insertRetention (exampleMark oneVersion)) h →
            CountsExactly (oneVersion.insertRetention (exampleMark oneVersion))
              (exampleMark oneVersion) h :=
  exact_iff (justMarked_insertRetention (c := exampleCandidate) (by decide +kernel))

def versionKey (i : ℕ) : String := String.ofList (List.replicate i 'v')

theorem versionKey_ne {i j : ℕ} (h : i ≠ j) : versionKey i ≠ versionKey j := fun heq =>
  h (by simpa using congrArg List.length (String.ofList_injective heq))

/-- The stored version `i` of `a`, and the link of its body. -/
def versionRow (i : ℕ) : ReplicaRecordRow :=
  { record_type := "document_version"
    record_key := versionKey i
    message_id := "m"
    visibility := .PUBLIC
    schema_version := "collector-outbound-v4"
    payload := (exampleRecord "a" "v" "m" exampleHash).payload
    generated_at := none
    updated_at := "2026-01-01T" }

def bodyLink (i : ℕ) : RecordObjectRow :=
  linkRow (exampleRecord "a" "v" "m" exampleHash) (versionKey i) ("document_body", exampleHash)

/-- The replica with `n` versions of `a`, all with one body. -/
def manyVersions (n : ℕ) : World :=
  { World.empty with
    records :=
      { rows := (List.range n).map versionRow
        unique := fun ix hix => by
          rw [List.mem_singleton.1 hix]
          refine List.pairwise_map.2 (List.nodup_range.imp fun hne _ heq => ?_)
          exact versionKey_ne hne (Prod.mk.inj (Option.some.inj heq)).2 }
    links :=
      { rows := (List.range n).map bodyLink
        unique := fun ix hix => by
          rw [List.mem_singleton.1 hix]
          refine List.pairwise_map.2 (List.nodup_range.imp fun hne _ heq => ?_)
          exact versionKey_ne hne (Prod.mk.inj (Prod.mk.inj (Option.some.inj heq)).2).1 }
    objects := ⟨[⟨exampleHash, "m", .PUBLIC⟩], fun _ _ => List.pairwise_singleton _ _⟩
    bucket := [objectKey exampleHash] }

theorem documentIdOf_versionRow (i : ℕ) : documentIdOf (versionRow i).payload = some "a" := by
  change documentIdOf (exampleRecord "a" "v" "m" exampleHash).payload = some "a"
  decide +kernel

theorem captured_manyVersions (n : ℕ) :
    (captured (manyVersions n) "a").version_ids = (List.range n).map versionKey := by
  have hall : versionsOf (manyVersions n) "a" = (List.range n).map versionRow := by
    refine List.filter_eq_self.2 fun r hr => ?_
    obtain ⟨i, -, rfl⟩ := List.mem_map.1 hr
    rw [documentIdOf_versionRow]
    simp [publicVersion, versionRow]
  change (versionsOf (manyVersions n) "a").map (·.record_key) = _
  rw [hall, List.map_map]
  rfl

theorem exampleHash_captured {n : ℕ} (hn : 0 < n) :
    exampleHash ∈ (exampleMark (manyVersions n)).content_sha256s := by
  refine mem_captured_hashes.2 ⟨bodyLink 0, List.mem_map.2 ⟨0, List.mem_range.2 hn, rfl⟩,
    ⟨rfl, rfl⟩, ?_⟩
  rw [captured_manyVersions]
  exact List.mem_map.2 ⟨0, List.mem_range.2 hn, rfl⟩

/-- No version of another document is there. -/
theorem not_referenced_manyVersions (n : ℕ) :
    ¬ Referenced ((manyVersions n).insertRetention (exampleMark (manyVersions n))) "a"
      exampleHash := by
  rintro ⟨l, -, -, r, hr, -, hD⟩
  obtain ⟨i, -, rfl⟩ := List.mem_map.1 hr
  exact hD (documentIdOf_versionRow i)

/-- With 51 versions, all of them its own, a document keeps its body. -/
theorem own_versions_keep_body :
    JustMarked ((manyVersions 51).insertRetention (exampleMark (manyVersions 51)))
        (exampleMark (manyVersions 51)) ∧
      exampleHash ∈ (exampleMark (manyVersions 51)).content_sha256s ∧
      ¬ Referenced ((manyVersions 51).insertRetention (exampleMark (manyVersions 51))) "a"
        exampleHash ∧
      ¬ PurgesExactly exampleRuntime
        ((manyVersions 51).insertRetention (exampleMark (manyVersions 51)))
        (exampleMark (manyVersions 51)) := by
  have hmark : JustMarked ((manyVersions 51).insertRetention (exampleMark (manyVersions 51)))
      (exampleMark (manyVersions 51)) :=
    justMarked_insertRetention (c := exampleCandidate) fun ⟨r, hr, _⟩ => Table.not_mem_empty r hr
  have hhash := exampleHash_captured (n := 51) (by decide)
  have href := not_referenced_manyVersions 51
  refine ⟨hmark, hhash, href, not_purgesExactly hmark hhash href ?_ ?_⟩
  · exact fun hgone => hgone.1 (List.mem_singleton_self _)
  · rintro ⟨hlen, -⟩
    have hkeys : (exampleMark (manyVersions 51)).version_ids.length = 51 := by
      change (captured (manyVersions 51) "a").version_ids.length = 51
      rw [captured_manyVersions, List.length_map, List.length_range]
    rw [hkeys] at hlen
    exact absurd hlen (by decide)

end QuantproCollector.Retention
