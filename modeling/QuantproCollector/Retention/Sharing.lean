import QuantproCollector.Retention.Indexing

/-!
# Shared objects

The purge of a document deletes a content object after it counted no reference to it from outside
the captured versions. A purge that deletes has always made that count (`Counted`), so a delete is
safe as long as the count stays true: no ingest has since stored a version of another document with
a link to the object (`removals_run`).
-/

namespace QuantproCollector.Retention

open Relational Async SemanticIndex

/-! ## References -/

/-- A link of a document version to a content hash. -/
def versionLink (h : String) (l : RecordObjectRow) : Prop :=
  l.record_type = "document_version" ∧ l.content_sha256 = h

instance (h : String) (l : RecordObjectRow) : Decidable (versionLink h l) :=
  inferInstanceAs (Decidable (_ ∧ _))

/-- A link row of a stored document version outside the document references the content hash. -/
def Referenced (w : World) (D h : String) : Prop :=
  ∃ l ∈ w.links, versionLink h l ∧
    ∃ r ∈ w.records, r.key = ("document_version", l.record_key) ∧ documentIdOf r.payload ≠ some D

instance (w : World) (D h : String) : Decidable (Referenced w D h) :=
  inferInstanceAs (Decidable (∃ l ∈ w.links.rows, versionLink h l ∧ ∃ r ∈ w.records.rows, _ ∧ _))

/-- A call of the purge of a document that removes the bytes or the row of a content hash. -/
def Removes (op : Op) (D h : String) : Prop :=
  match op with
  | .deleteObject D' h' | .deleteObjectRow D' h' => D' = D ∧ h' = h
  | _ => False

instance (op : Op) (D h : String) : Decidable (Removes op D h) := by
  unfold Removes
  split <;> infer_instance

/-- A thread counts no reference to a content hash in one statement of the purge of a document. -/
def CountsZero (k : Call Op World Fault) (t : ℕ) (D h : String) : Prop :=
  k.thread = t ∧ k.choice = .none ∧
    match k.op with
    | .countReferences D' h' versionIds =>
      D' = D ∧ h' = h ∧ foreignLinks k.before h versionIds = []
    | _ => False

instance (k : Call Op World Fault) (t : ℕ) (D h : String) : Decidable (CountsZero k t D h) := by
  obtain ⟨thread, op, choice, before⟩ := k
  delta CountsZero
  rcases op with _ | _ <;> dsimp only <;> infer_instance

/-- At a count, no captured version with a link to the content hash is stored under another
document. -/
def CapturedOwn (k : Call Op World Fault) (D h : String) : Prop :=
  match k.op with
  | .countReferences _ _ versionIds => ∀ l ∈ k.before.links, versionLink h l →
      l.record_key ∈ versionIds → ∀ r ∈ k.before.records,
        r.key = ("document_version", l.record_key) → documentIdOf r.payload = some D
  | _ => True

/-- A call stores a version of another document that has a link to the content hash. -/
def Exposes (k : Call Op World Fault) (D h : String) : Prop :=
  match k.op with
  | .ingestBatch record key _ => k.choice ≠ .before ∧ record.record_type = "document_version" ∧
      documentIdOf record.payload ≠ some D ∧
        ((∃ link ∈ documentObjectLinks record, link.2 = h) ∨
          ∃ l ∈ k.before.links, versionLink h l ∧ l.record_key = key)
  | _ => False

/-- Since the thread last counted no reference to the content hash, with every captured version
still of its document, no ingest has stored a version of another document that has a link to it. The
log is newest first. -/
def CountStands (t : ℕ) (D h : String) : List (Call Op World Fault) → Prop
  | [] => True
  | k :: past =>
    if CountsZero k t D h then CapturedOwn k D h else ¬ Exposes k D h ∧ CountStands t D h past

/-! ## What each call does to the references -/

/-- After a count of zero with every captured version still of its document, nothing outside the
document references the hash. -/
theorem not_referenced_of_count {k : Call Op World Fault} {t : ℕ} {D h : String}
    (hzero : CountsZero k t D h) (hown : CapturedOwn k D h) : ¬ Referenced k.before D h := by
  rintro ⟨l, hl, hlink, r, hr, hkey, hD⟩
  obtain ⟨-, -, hzero⟩ := hzero
  unfold CapturedOwn at hown
  split at hzero
  · rename_i D' h' versionIds hop
    obtain ⟨rfl, rfl, hzero⟩ := hzero
    rw [hop] at hown
    refine hD (hown l hl hlink (by_contra fun hout => ?_) r hr hkey)
    have hmem : l ∈ foreignLinks k.before h' versionIds :=
      List.mem_filter.2 ⟨hl, by simp [hlink.2, hout]⟩
    rw [hzero] at hmem
    cases hmem
  · exact hzero

theorem referenced_of_subset {w w' : World} {D h : String} (href : Referenced w' D h)
    (hlinks : ∀ l ∈ w'.links, l ∈ w.links) (hrecords : ∀ r ∈ w'.records, r ∈ w.records) :
    Referenced w D h := by
  obtain ⟨l, hl, hlink, r, hr, hrest⟩ := href
  exact ⟨l, hlinks l hl, hlink, r, hrecords r hr, hrest⟩

theorem referenced_ingestBatch {P : Runtime} {w : World} {record : OutboundV2Record}
    {key now D h : String} (href : Referenced (w.ingestBatch P record key now) D h) :
    Referenced w D h ∨ record.record_type = "document_version" ∧
      documentIdOf record.payload ≠ some D ∧
        ((∃ link ∈ documentObjectLinks record, link.2 = h) ∨
          ∃ l ∈ w.links, versionLink h l ∧ l.record_key = key) := by
  obtain ⟨l, hl, ⟨htype, hhash⟩, r, hr, hrkey, hD⟩ := href
  have hlinks := mem_ingestBatch_links P w record key now hl
  simp only [RecordObjectRow.key, linkRow, Prod.mk.injEq] at hlinks
  rcases mem_ingestBatch_records P w record key now hr with ⟨hr, hold⟩ | ⟨hnew, -, hpayload⟩
  · rcases hlinks with ⟨a, ha, hat, hak, -, hah⟩ | ⟨link, -, hlt, hlk, -, -⟩
    · refine .inl ⟨a, ha, ⟨hat.trans htype, hah.trans hhash⟩, r, hr, ?_, hD⟩
      rw [hrkey, hak]
    · -- a link of the record itself goes with the record itself
      rcases hold with hne | hev
      · exact absurd (by rw [hrkey, ← hlt, htype, hlk]) hne
      · have := congrArg Prod.fst hrkey
        simp only [ReplicaRecordRow.key, hev] at this
        exact absurd this (by decide)
  · have hk : (record.record_type, key) = ("document_version", l.record_key) := hnew.symm.trans hrkey
    refine .inr ⟨congrArg Prod.fst hk, hpayload ▸ hD, ?_⟩
    rcases hlinks with ⟨a, ha, hat, hak, -, hah⟩ | ⟨link, hlink, -, -, -, hlh⟩
    · exact .inr ⟨a, ha, ⟨hat.trans htype, hah.trans hhash⟩, hak.trans (congrArg Prod.snd hk).symm⟩
    · exact .inl ⟨link, hlink, hlh.symm.trans hhash⟩

theorem not_referenced_step {P : Runtime} {k : Call Op World Fault} {D h : String}
    (hexp : ¬ Exposes k D h) (href : ¬ Referenced k.before D h) :
    ¬ Referenced ((machine P).after k) D h := by
  obtain ⟨t, op, f, w⟩ := k
  intro hafter
  have hsame : (perform P f op w).2 ≠ w := by
    intro hw
    refine href ?_
    rwa [← hw]
  have heffect : (perform P f op w).2 = effect P op w :=
    (perform_world P f op w).resolve_left hsame
  have hf : f ≠ .before := by
    rintro rfl
    exact hsame rfl
  change Referenced (perform P f op w).2 D h at hafter
  rw [heffect] at hafter
  cases op with
  | deleteLinks versionIds =>
    exact href (referenced_of_subset hafter (fun l hl => (Table.mem_deleteWhere.1 hl).1)
      fun r hr => hr)
  | deleteVersions versionIds =>
    exact href (referenced_of_subset hafter (fun l hl => hl)
      fun r hr => (Table.mem_deleteWhere.1 hr).1)
  | deleteObjectRecords hashes =>
    exact href (referenced_of_subset hafter (fun l hl => hl)
      fun r hr => (Table.mem_deleteWhere.1 hr).1)
  | ingestBatch record key now =>
    rcases referenced_ingestBatch hafter with hbefore | ⟨htype, hdoc, hlinked⟩
    · exact href hbefore
    · exact hexp ⟨hf, htype, hdoc, hlinked⟩
  | _ => exact href hafter

/-! ## What a purge knows when it deletes -/

/-- The row of a mark that captured no version captured no content hash. -/
def WellCaptured (row : RetentionRow) : Prop :=
  row.version_ids = [] → row.content_sha256s = []

/-- A count answered zero. -/
def answeredZero : (op : Op) → Except Thrown (Res op) → Prop
  | .countReferences .., .ok n => n = (0 : ℕ)
  | _, _ => False

/-- The rows that a listing answered are well captured. -/
def listedWell : (op : Op) → Except Thrown (Res op) → Prop
  | .listExpired _, .ok rows => ∀ row ∈ (rows : List RetentionRow), WellCaptured row
  | _, _ => True

/-- What a thread knows is which hashes it has counted no reference to, for which document. A purge
removes only those, and marks insert rows that are well captured. -/
def counting : Script.Discipline Thrown Op Res (String → String → Prop) where
  pre K op := (∀ D h, Removes op D h → K D h) ∧ ∀ row, op = .insertRetention row → WellCaptured row
  learn K op r D h := K D h ∨ (∃ versionIds, op = .countReferences D h versionIds) ∧ answeredZero op r
  may := listedWell

/-- The operations that need no count and insert no row. -/
def uncounted : Op → Bool
  | .insertRetention _ | .deleteObject .. | .deleteObjectRow .. => false
  | _ => true

theorem issues_uncounted {op : Op} (h : uncounted op = true) :
    (Script.perform op : Program _).Issues fun op => uncounted op = true :=
  Script.issues_perform.2 h

variable {K : String → String → Prop}

theorem pre_of_uncounted {op : Op} (h : uncounted op = true) : counting.pre K op := by
  constructor
  · intro D hash hr
    cases op <;> first | exact hr.elim | cases h
  · rintro row rfl
    cases h

/-- What is known is not lost by a call. -/
theorem le_learn (op : Op) (r : Except Thrown (Res op)) : K ≤ counting.learn K op r :=
  fun _ _ h => .inl h

/-- A sequence keeps what is known, if each part does. -/
theorem upholds_bind {α β : Type} {R : α → (String → String → Prop) → Prop} {s : Program α}
    {f : α → Program β} (hs : s.Upholds counting (fun K' r => K ≤ K' ∧ ∀ a, r = .ok a → R a K') K)
    (hf : ∀ a K', K ≤ K' → R a K' → (f a).Upholds counting (fun K'' _ => K' ≤ K'') K') :
    (s >>= f).Upholds counting (fun K'' _ => K ≤ K'') K := by
  refine .bind (hs.mono fun K' r h => ?_)
  cases r with
  | error e => exact h.1
  | ok a => exact (hf a K' h.1 (h.2 a rfl)).mono fun K'' _ h' => h.1.trans h'

/-- Programs without deletes and marks keep what is known. -/
theorem upholds_uncounted {α : Type} {s : Program α} (hs : s.Issues fun op => uncounted op = true) :
    s.Upholds counting (fun K' r => K ≤ K' ∧ ∀ a, r = .ok a → True) K :=
  (Script.Upholds.of_issues (I := fun K' => K ≤ K') (fun _ op r hk => hk.trans (le_learn op r))
    (fun _ _ => pre_of_uncounted) hs le_rfl).mono fun _ _ h => ⟨h, fun _ _ => trivial⟩

/-! ## The programs count before they delete -/

theorem slices_ne_nil {values : List String} (h : values ≠ []) : slices values ≠ [] := by
  have hpos : 0 < values.length := List.length_pos_iff.2 h
  rw [← List.length_pos_iff, slices, List.length_map, List.length_range]
  simp only [PARAM_CHUNK]
  omega

/-- The counts of the slices, of which there is one, sum to zero only if a count was zero. -/
theorem upholds_gather_count (D hash : String) (l : List (List String)) :
    (gather (fun slice => do
      let count ← Script.perform (Op.countReferences D hash slice)
      pure [count] : List String → Program (List ℕ)) l).Upholds counting
      (fun K' r => K ≤ K' ∧ ∀ counts, r = .ok counts → counts.sum = 0 → l ≠ [] → K' D hash) K := by
  induction l generalizing K with
  | nil => exact ⟨le_rfl, fun _ _ _ h => absurd rfl h⟩
  | cons slice rest ih =>
    refine ⟨pre_of_uncounted rfl, fun r _ => ?_⟩
    cases r with
    | error e => exact ⟨le_learn _ _, fun counts h => nomatch h⟩
    | ok n =>
      refine Script.Upholds.bind (s := gather _ rest) (ih.mono fun K' r h => ?_)
      cases r with
      | error e => exact ⟨(le_learn _ _).trans h.1, fun counts hc => nomatch hc⟩
      | ok counts =>
        refine ⟨(le_learn _ _).trans h.1, fun all hall hsum _ => ?_⟩
        cases hall
        have hboth : n + counts.sum = (0 : ℕ) := by simpa using hsum
        exact h.1 D hash (.inr ⟨⟨slice, rfl⟩, (Nat.add_eq_zero_iff.1 hboth).1⟩)

/-- The objects that a purge deletes are counted before. -/
theorem upholds_purgeObjects {D : String} {versionIds : List String} (hashes : List String)
    (hv : hashes ≠ [] → versionIds ≠ []) :
    (purgeObjects D versionIds hashes).Upholds counting
      (fun K' r => K ≤ K' ∧ ∀ res, r = .ok res → ∀ h ∈ res.deleted, K' D h) K := by
  induction hashes generalizing K with
  | nil =>
    refine ⟨le_rfl, fun res hres h hh => ?_⟩
    cases hres
    cases hh
  | cons hash rest ih =>
    have ih := fun K => ih (K := K) fun _ => hv (List.cons_ne_nil _ _)
    have hne := slices_ne_nil (hv (List.cons_ne_nil _ _))
    refine .bind ((upholds_gather_count D hash (slices versionIds)).mono fun K' r h => ?_)
    cases r with
    | error e => exact ⟨h.1, fun res hres => nomatch hres⟩
    | ok counts =>
      by_cases hpos : 0 < counts.sum
      · simp only [if_pos hpos]
        refine .bind ((ih K').mono fun K'' r h' => ?_)
        cases r with
        | error e => exact ⟨h.1.trans h'.1, fun res hres => nomatch hres⟩
        | ok more =>
          refine ⟨h.1.trans h'.1, fun res hres => ?_⟩
          cases hres
          exact h'.2 more rfl
      · simp only [if_neg hpos]
        have hcounted : K' D hash := h.2 counts rfl (by omega) hne
        refine ⟨⟨?_, by simp⟩, fun r _ => ?_⟩
        · rintro D' h' ⟨rfl, rfl⟩
          exact hcounted
        · cases r with
          | error e => exact ⟨h.1.trans (le_learn _ _), fun res hres => nomatch hres⟩
          | ok u =>
            refine Script.Upholds.bind (s := purgeObjects D versionIds rest)
              ((ih _).mono fun K'' r h' => ?_)
            have hle : K' ≤ K'' := (le_learn _ _).trans h'.1
            cases r with
            | error e => exact ⟨h.1.trans hle, fun res hres => nomatch hres⟩
            | ok more =>
              refine ⟨h.1.trans hle, fun res hres a ha => ?_⟩
              cases hres
              rcases List.mem_cons.1 ha with rfl | ha
              · exact hle _ _ hcounted
              · exact h'.2 more rfl a ha

theorem upholds_purgeObjectRows {D : String} (hashes : List String) (h : ∀ a ∈ hashes, K D a) :
    (purgeObjectRows D hashes).Upholds counting (fun K' r => K ≤ K' ∧ ∀ a, r = .ok a → True) K := by
  induction hashes generalizing K with
  | nil => exact ⟨le_rfl, fun _ _ => trivial⟩
  | cons hash rest ih =>
    refine ⟨⟨?_, by simp⟩, fun r _ => ?_⟩
    · rintro D' h' ⟨rfl, rfl⟩
      exact h _ List.mem_cons_self
    · cases r with
      | error e => exact ⟨le_learn _ _, fun _ hr => nomatch hr⟩
      | ok n =>
        refine (upholds_bind (s := purgeObjectRows D rest) (R := fun _ _ => True)
          (ih fun a ha => le_learn _ _ _ _ (h a (List.mem_cons_of_mem _ ha)))
          fun a K' _ _ => le_rfl).mono fun K' r hK => ⟨(le_learn _ _).trans hK, fun _ _ => trivial⟩

theorem upholds_purgeExpiredDocument {row : RetentionRow} (now : String) (hrow : WellCaptured row) :
    (purgeExpiredDocument row now).Upholds counting (fun K' _ => K ≤ K') K := by
  refine upholds_bind (upholds_purgeObjects _ fun hne hnil => hne (hrow hnil))
    fun objects K' _ hdeleted => ?_
  refine upholds_bind (R := fun _ K'' => K' ≤ K'') ((upholds_uncounted (issues_purgeJournals
    (fun _ => rfl) _)).mono fun _ _ h => ⟨h.1, fun _ _ => h.1⟩) fun _ K₁ _ h₁ => ?_
  refine upholds_bind (R := fun _ K'' => K' ≤ K'') ((upholds_uncounted (issues_runSlices
    fun slice _ => issues_uncounted rfl)).mono fun _ _ h => ⟨h.1, fun _ _ => h₁.trans h.1⟩)
    fun _ K₂ _ h₂ => ?_
  refine upholds_bind (R := fun _ K'' => K' ≤ K'') ((upholds_uncounted (issues_runSlices
    fun slice _ => issues_uncounted rfl)).mono fun _ _ h => ⟨h.1, fun _ _ => h₂.trans h.1⟩)
    fun _ K₃ _ h₃ => ?_
  refine upholds_bind (R := fun _ K'' => K' ≤ K'') ((upholds_uncounted (issues_runSlices
    fun slice _ => issues_uncounted rfl)).mono fun _ _ h => ⟨h.1, fun _ _ => h₃.trans h.1⟩)
    fun _ K₄ _ h₄ => ?_
  refine upholds_bind (upholds_purgeObjectRows _ fun a ha => h₄ _ _ (hdeleted a ha))
    fun _ K₅ _ _ => ?_
  refine (upholds_uncounted ?_).mono fun _ _ h => h.1
  refine (issues_uncounted rfl).bind fun states => ?_
  refine (issues_purgeVectors (fun _ _ => rfl) _ _).bind fun vectors => ?_
  refine (issues_uncounted rfl).bind fun flipped => ?_
  split_ifs
  · trivial
  · trivial

theorem upholds_purgeDocuments (now : String) {rows : List RetentionRow}
    (hrows : ∀ row ∈ rows, WellCaptured row) :
    (purgeDocuments now rows).Upholds counting (fun K' r => K ≤ K' ∧ ∀ a, r = .ok a → True) K := by
  induction rows generalizing K with
  | nil => exact ⟨le_rfl, fun _ _ => trivial⟩
  | cons row rest ih =>
    refine (upholds_bind (R := fun _ _ => True)
      ((upholds_purgeExpiredDocument now (hrows row List.mem_cons_self)).mono
        fun _ _ h => ⟨h, fun _ _ => trivial⟩) fun _ K' _ _ => ?_).mono
        fun _ _ h => ⟨h, fun _ _ => trivial⟩
    exact upholds_bind (R := fun _ _ => True)
      (ih fun r hr => hrows r (List.mem_cons_of_mem _ hr)) fun _ _ _ _ => le_rfl

/-- A capture of no version holds no content hash. -/
theorem upholds_captureVersions (D : String) : (captureVersions D).Upholds counting
    (fun K' r => K ≤ K' ∧ ∀ c, r = .ok c → c.version_ids = [] → c.content_sha256s = []) K := by
  refine ⟨pre_of_uncounted rfl, fun r _ => ?_⟩
  cases r with
  | error e => exact ⟨le_learn _ _, fun _ hr => nomatch hr⟩
  | ok rows =>
    have hle : K ≤ counting.learn K (.selectVersions D) (.ok rows) := le_learn _ _
    cases rows with
    | nil =>
      refine ⟨hle, fun c hc _ => ?_⟩
      cases hc
      rfl
    | cons row rest =>
      refine Script.Upholds.bind (s := chunkedAll _ _) ((upholds_uncounted (issues_gather
        (fun slice => issues_uncounted rfl) _)).mono fun K₁ r h₁ => ?_)
      cases r with
      | error e => exact ⟨hle.trans h₁.1, fun _ hr => nomatch hr⟩
      | ok journals =>
        refine Script.Upholds.bind (s := chunkedAll _ _) ((upholds_uncounted (issues_gather
          (fun slice => issues_uncounted rfl) _)).mono fun K₂ r h₂ => ?_)
        cases r with
        | error e => exact ⟨hle.trans (h₁.1.trans h₂.1), fun _ hc => nomatch hc⟩
        | ok hashes =>
          refine ⟨hle.trans (h₁.1.trans h₂.1), fun c hc hnil => ?_⟩
          cases hc
          cases hnil

theorem upholds_markExpiredDocument (candidate : RetentionCandidate) (now : String) :
    (markExpiredDocument candidate now).Upholds counting (fun K' _ => K ≤ K') K := by
  refine upholds_bind (upholds_captureVersions _) fun capture K' _ hcapture => ?_
  refine ⟨⟨fun D h hr => hr.elim, ?_⟩, fun r _ => ?_⟩
  · rintro row ⟨⟩
    exact hcapture
  · cases r with
    | error e => exact le_learn _ _
    | ok inserted =>
      refine (upholds_uncounted ?_).mono fun _ _ h => (le_learn _ _).trans h.1
      exact (issues_uncounted rfl).bind fun _ => trivial

theorem upholds_markCandidates (now : String) (candidates : List RetentionCandidate) :
    (markCandidates now candidates).Upholds counting
      (fun K' r => K ≤ K' ∧ ∀ a, r = .ok a → True) K := by
  induction candidates generalizing K with
  | nil => exact ⟨le_rfl, fun _ _ => trivial⟩
  | cons c rest ih =>
    refine (upholds_bind (R := fun _ _ => True) ((upholds_markExpiredDocument c now).mono
      fun _ _ h => ⟨h, fun _ _ => trivial⟩) fun _ K' _ _ => ?_).mono
        fun _ _ h => ⟨h, fun _ _ => trivial⟩
    exact upholds_bind (R := fun _ _ => True) ih fun _ _ _ _ => le_rfl

theorem upholds_sweep (P : Runtime) (options : SweepOptions) (now cutoff : String) :
    (sweep P options now cutoff).Upholds counting (fun K' _ => K ≤ K') K := by
  refine upholds_bind (upholds_uncounted (issues_scanRetentionCandidates
    (fun _ _ => rfl) P now _)) fun scan K₁ _ _ => ?_
  dsimp only
  split
  · refine (upholds_uncounted ?_).mono fun _ _ h => h.1
    exact (issues_uncounted rfl).bind fun pending => (issues_uncounted rfl).bind fun _ => trivial
  · refine upholds_bind (upholds_markCandidates now _) fun marked K₂ _ _ => ?_
    refine ⟨pre_of_uncounted rfl, fun r hmay => ?_⟩
    cases r with
    | error e => exact le_learn _ _
    | ok purgeable =>
      have hle : K₂ ≤ counting.learn K₂ (.listExpired _) (.ok purgeable) := le_learn _ _
      have hrest : ∀ report : RetentionRunReport, (do
          Script.perform (Op.insertAudit (auditRow report now))
          pure report : Program RetentionRunReport).Issues fun op => uncounted op = true :=
        fun report => (issues_uncounted rfl).bind fun _ => trivial
      refine Script.Upholds.mono (fun K' r (h : counting.learn K₂ _ _ ≤ K') => hle.trans h) ?_
      change Script.Upholds counting _ _ (if options.index = true then _ else _)
      split
      · exact upholds_bind (s := purgeDocuments now purgeable) (upholds_purgeDocuments now hmay)
          fun purged K₃ _ _ => (upholds_uncounted (hrest _)).mono fun _ _ h => h.1
      · exact (upholds_uncounted (hrest _)).mono fun _ _ h => h.1

theorem upholds_task (P : Runtime) (task : Task) :
    (task.program P).Upholds counting (fun _ _ => True) K := by
  cases task with
  | ingest record bodyBytes now =>
    refine (upholds_uncounted ?_).mono fun _ _ _ => trivial
    refine (issues_ingest record bodyBytes now (fun op hop hmark _ => ?_) fun _ _ => rfl).bind
      fun _ => trivial
    cases op <;> first | rfl | exact absurd rfl (hmark _) | cases hop
  | sweep options now =>
    change (runRetentionSweep P options now >>= fun _ => pure ()).Upholds counting _ K
    refine .bind ?_
    unfold runRetentionSweep
    split
    · trivial
    · refine .tryCatch ((upholds_sweep P options now _).mono fun K' r _ => ?_)
      match r with
      | .ok _ => trivial
      | .error (.boundary _) => trivial
      | .error .raw => trivial

/-! ## Runs -/

/-- What a thread knows is true as long as its counts stand. -/
def KnownTrue (c : Config Thrown Op Res World Fault Unit) (t : ℕ) (K : String → String → Prop) :
    Prop :=
  ∀ D h, K D h → CountStands t D h c.log → ¬ Referenced c.world D h

structure Counted (c : Config Thrown Op Res World Fault Unit) : Prop where
  captured : ∀ row ∈ c.world.retention, WellCaptured row
  known : ∀ t, ∃ K, (c.script t).Upholds counting (fun _ _ => True) K ∧ KnownTrue c t K
  removals : Along (fun past k => ∀ D h, Removes k.op D h → CountStands k.thread D h past →
    ¬ Referenced k.before D h) c.log

theorem listedWell_perform {P : Runtime} {f : Fault} {op : Op} {w : World}
    (h : ∀ row ∈ w.retention, WellCaptured row) : listedWell op (perform P f op w).1 := by
  cases op with
  | listExpired limit =>
    cases f
    · intro row hrow
      have hmem : row ∈ expiredRows w := List.mem_of_mem_take hrow
      rw [expiredRows, List.mem_insertionSort] at hmem
      exact h row (List.mem_filter.1 hmem).1
    · trivial
    · trivial
  | _ => trivial

theorem wellCaptured_perform {P : Runtime} {f : Fault} {op : Op} {w : World}
    (hop : ∀ row, op = .insertRetention row → WellCaptured row)
    (h : ∀ row ∈ w.retention, WellCaptured row) :
    ∀ row ∈ (perform P f op w).2.retention, WellCaptured row := by
  rcases perform_world P f op w with hw | hw
  · rwa [hw]
  · rw [hw]
    rcases effect_retention P op w with heq | ⟨row, hrow, heq⟩ | ⟨D, now, detail, -, heq⟩
    · rwa [heq]
    · intro a ha
      by_cases hrec : Recorded w row.document_id
      · rw [heq, insertRetention_of_recorded hrec] at ha
        exact h a ha
      · rw [heq, ← Table.mem_rows, rows_insertRetention hrec] at ha
        rcases List.mem_append.1 ha with ha | ha
        · exact h a ha
        · exact List.mem_singleton.1 ha ▸ hop row hrow
    · intro a ha
      rw [heq] at ha
      obtain ⟨b, hb, rfl⟩ := List.mem_map.1 ha
      dsimp only
      split_ifs
      · exact h b hb
      · exact h b hb

/-- A count that answered zero is one that the log shows. -/
theorem countsZero_of_answered {P : Runtime} {t : ℕ} {f : Fault} {D h : String}
    {versionIds : List String} {w : World}
    (hzero : answeredZero (.countReferences D h versionIds)
      (perform P f (.countReferences D h versionIds) w).1) :
    CountsZero ⟨t, .countReferences D h versionIds, f, w⟩ t D h := by
  cases f
  · exact ⟨rfl, rfl, rfl, rfl, List.length_eq_zero_iff.1 hzero⟩
  · exact hzero.elim
  · exact hzero.elim

theorem not_exposes_of_countsZero {k : Call Op World Fault} {t : ℕ} {D h : String}
    (hz : CountsZero k t D h) : ¬ Exposes k D h := by
  obtain ⟨t', op, f, w⟩ := k
  obtain ⟨-, -, hop⟩ := hz
  cases op <;> first | exact fun hexp => hexp | exact hop.elim

/-- One call keeps what a count says, for as long as the count stands. -/
theorem not_referenced_after {P : Runtime} {k : Call Op World Fault} {t : ℕ} {D h : String}
    {past : List (Call Op World Fault)}
    (hbefore : ¬ CountsZero k t D h → CountStands t D h past → ¬ Referenced k.before D h)
    (hstands : CountStands t D h (k :: past)) : ¬ Referenced ((machine P).after k) D h := by
  unfold CountStands at hstands
  split_ifs at hstands with hz
  · exact not_referenced_step (not_exposes_of_countsZero hz) (not_referenced_of_count hz hstands)
  · exact not_referenced_step hstands.1 (hbefore hz hstands.2)

theorem counted_step {P : Runtime} {c : Config Thrown Op Res World Fault Unit} (h : Counted c)
    (e : ℕ × Fault) : Counted ((machine P).step c e) := by
  rcases Machine.step_cases (M := machine P) c e with hs | ⟨op, next, hcall, hs⟩
  · rwa [hs]
  obtain ⟨K, hup, hK⟩ := h.known e.1
  rw [hcall] at hup
  obtain ⟨hpre, hnext⟩ := hup
  rw [hs]
  refine ⟨wellCaptured_perform hpre.2 h.captured, fun t => ?_, ?_⟩
  · by_cases ht : t = e.1
    · subst ht
      refine ⟨counting.learn K op (perform P e.2 op c.world).1, ?_, fun D hash hlearn hstands => ?_⟩
      · simp only [Function.update_self]
        exact hnext _ (listedWell_perform h.captured)
      · refine not_referenced_after (fun hz hpast => ?_) hstands
        rcases hlearn with hKD | ⟨⟨versionIds, rfl⟩, hzero⟩
        · exact hK D hash hKD hpast
        · exact absurd (countsZero_of_answered hzero) hz
    · obtain ⟨K', hup', hK'⟩ := h.known t
      refine ⟨K', ?_, fun D hash hKD hstands => ?_⟩
      · simpa [Function.update_of_ne ht] using hup'
      · exact not_referenced_after (fun _ hpast => hK' D hash hKD hpast) hstands
  · exact .cons (fun D hash hr hstands => hK D hash (hpre.1 D hash hr) hstands) h.removals

theorem counted_start (P : Runtime) (tasks : List Task) : Counted (start P tasks) where
  captured row hrow := absurd hrow (Table.not_mem_empty row)
  known t := by
    refine ⟨fun _ _ => False, ?_, fun _ _ hK => hK.elim⟩
    change ((tasks[t]?).elim (pure ()) (Task.program P)).Upholds counting _ _
    cases tasks[t]? with
    | none => trivial
    | some task => exact upholds_task P task
  removals := .nil

/-- **No dangling bodies while the counts stand.** In every run of ingests and sweeps, a purge that
removes the bytes or the row of a content hash, while its count of no references still stands, finds
no link row of a stored version outside its document that references the hash. -/
theorem removals_run (P : Runtime) (tasks : List Task) (es : List (ℕ × Fault)) :
    Along (fun past k => ∀ D h, Removes k.op D h → CountStands k.thread D h past →
      ¬ Referenced k.before D h) ((machine P).exec (start P tasks) es).log :=
  (Machine.exec_induction (P := Counted) (fun _ e hc => counted_step hc e) es
    (counted_start P tasks)).removals

/-! ## An ingest between the count and the delete -/

/-- The record of a content object. -/
def exampleObject (messageId contentSha256 : String) : OutboundV2Record where
  record_type := "object"
  message_id := messageId
  schema_version := "collector-outbound-v4"
  policy_version := "p"
  visibility := .PUBLIC
  payload := .obj [("content_sha256", .str contentSha256), ("media_type", .str "text/plain")]
  generated_at := none

def sharingTasks : List Task :=
  [.ingest (exampleObject "m0" exampleHash) 5 "2026-01-01T",
    .ingest (exampleRecord "a" "v1" "m1" exampleHash) 0 "2026-01-01T",
    .sweep exampleOptions "2026-01-02T",
    .ingest (exampleRecord "b" "v2" "m2" exampleHash) 0 "2026-01-02T"]

/-- The purge of `a` counts no foreign reference to the body, an ingest stores a version of `b` with
the same body, and then the purge deletes the bytes. -/
theorem dangling_body :
    let before := (machine exampleRuntime).exec (start exampleRuntime sharingTasks)
      (alone 0 9 ++ alone 1 8 ++ alone 2 8 ++ alone 3 8)
    let after := (machine exampleRuntime).step before (2, .none)
    after.log.head?.any (fun k => decide (Removes k.op "a" exampleHash)) = true ∧
      objectKey exampleHash ∈ before.world.bucket ∧ objectKey exampleHash ∉ after.world.bucket ∧
        Referenced before.world "a" exampleHash := by
  decide +kernel

end QuantproCollector.Retention
