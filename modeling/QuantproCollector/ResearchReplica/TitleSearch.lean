import Mathlib.Data.List.DropRight
import QuantproCollector.Lib.SqlLike
import QuantproCollector.ResearchReplica.Readable

/-!
# Searches of titles

A search is a literal, case-insensitive one where the trigram index answers it and the query has three
characters. A shorter one is put into a `LIKE` pattern as it stands, and folded by other rules than the
index: it is a literal one exactly where it has neither of the two wildcards, and each of its characters
has no other case variants than the letters of ASCII have (`search_exact_iff`). Three UTF-16 units that
are fewer than three characters find nothing.
-/

namespace QuantproCollector.ResearchReplica

open SemanticIndex Relational SqlLike

/-! ## What is searched for -/

/-- The title of a row's document. -/
def titleValue (row : ReplicaRecordRow) : Option Json :=
  (row.payload.get? "document").bind (·.get? "title")

/-- The title has the needle in it, up to a folding of cases. -/
def containsFold (fold : Char → Char) (title needle : String) : Prop :=
  needle.toList.map fold <:+: title.toList.map fold

instance (fold : Char → Char) (title needle : String) : Decidable (containsFold fold title needle) :=
  inferInstanceAs (Decidable (_ <:+: _))

/-- The PUBLIC versions of documents that are not EXPIRED and have the needle in their titles, newest
first. -/
def titledRows (fold : Char → Char) (w : ReplicaWorld) (needle : String) : List ReplicaRecordRow :=
  (w.replica.records.rows.filter fun row => listedVersion w row &&
    ((titleValue row).bind Json.str?).any fun title => decide (containsFold fold title needle)).insertionSort
    fun a b => b.updated_at ≤ a.updated_at

/-- The hits of a search, before its limit, are the versions with the trimmed query in their titles. -/
def ExactSearch (R : AdapterRuntime) (fold : Char → Char) (w : ReplicaWorld) (query : String) : Prop :=
  unlimitedSearch R w (some query) = .ok ((titledRows fold w (trim query)).map viewOf)

/-! ## The two engines -/

/-- The text of an FTS5 string, the quotes within it doubled. -/
def stringBody : List Char → Option (List Char)
  | ['"'] => some []
  | '"' :: '"' :: rest => (stringBody rest).map ('"' :: ·)
  | '"' :: _ => none
  | c :: rest => (stringBody rest).map (c :: ·)
  | [] => none

/-- The phrase that a query says, where it is one string. -/
def phraseOf (query : String) : Option String :=
  match query.toList with
  | '"' :: rest => (stringBody rest).map String.ofList
  | _ => none

/-- What the searches rely on in D1 and the runtime: the index finds phrases of three characters or more
up to the folding, and shorter ones nowhere; `lower` and `LIKE` know the cases of ASCII only; the two
wildcards have no cases and come from nowhere else. -/
structure Engines (R : AdapterRuntime) (fold : Char → Char) : Prop where
  phrase : ∀ text query needle, phraseOf query = some needle → R.ftsMatch text query =
    (decide (3 ≤ needle.toList.length) && decide (containsFold fold text needle))
  like : ∀ title pattern, R.titleLike (some (.str title)) pattern =
    like pattern.toList (title.toList.map Char.toLower)
  lower : ∀ text, ∀ c ∈ (R.toLocaleLowerCase text).toList, c = '%' ∨ c = '_' → c ∈ text.toList
  percent : ∀ c, fold c = fold '%' → c = '%'
  underscore : ∀ c, fold c = fold '_' → c = '_'

/-- Each PUBLIC version has a title, and the index has it under the version's key. -/
def Indexed (w : ReplicaWorld) : Prop :=
  ∀ r ∈ w.replica.records.rows, isPublicOf "document_version" r = true →
    ∃ title, titleValue r = some (.str title) ∧ (∃ f ∈ w.fts, f.record_key = r.record_key) ∧
      ∀ f ∈ w.fts, f.record_key = r.record_key → f.text = title

/-- A needle that is searched for as it stands. -/
def Plain (R : AdapterRuntime) (fold : Char → Char) (needle : String) : Prop :=
  if FTS_TRIGRAM_MIN ≤ (Utf16.units needle).length then 3 ≤ needle.toList.length
  else Literal needle.toList ∧ List.Forall₂ (fun l c => ∀ x : Char, l.toLower = x.toLower ↔ fold c = fold x)
    (R.toLocaleLowerCase needle).toList needle.toList

/-! ## The index -/

theorem not_of_dropWhile_cons {p : Char → Bool} {text rest : List Char} {c : Char}
    (h : text.dropWhile p = c :: rest) : p c = false := by
  have hhead := List.head_dropWhile_not p (h ▸ List.cons_ne_nil c rest : text.dropWhile p ≠ [])
  simpa [h] using hhead

theorem trimChars_idem (p : Char → Bool) (text : List Char) :
    Json.trimChars p (Json.trimChars p text) = Json.trimChars p text := by
  have hstart : (Json.trimChars p text).dropWhile p = Json.trimChars p text := by
    cases htrimmed : Json.trimChars p text with
    | nil => rfl
    | cons c rest =>
      have hprefix : Json.trimChars p text <+: text.dropWhile p := by
        rw [Json.trimChars, ← List.reverse_suffix, List.reverse_reverse]
        exact List.dropWhile_suffix p
      obtain ⟨more, hmore⟩ := hprefix
      rw [htrimmed, List.cons_append] at hmore
      rw [List.dropWhile_cons, not_of_dropWhile_cons hmore.symm, if_neg Bool.false_ne_true]
  have hend : ((Json.trimChars p text).reverse).dropWhile p = (Json.trimChars p text).reverse := by
    rw [Json.trimChars, List.reverse_reverse]
    exact List.dropWhile_idempotent _ _
  rw [Json.trimChars, hstart, hend, List.reverse_reverse]

theorem trim_trim (text : String) : trim (trim text) = trim text := by
  rw [trim, trim, String.toList_ofList, trimChars_idem]

theorem stringBody_cons {c : Char} (hc : c ≠ '"') (rest : List Char) :
    stringBody (c :: rest) = (stringBody rest).map (c :: ·) := by
  simp [stringBody, hc]

/-- A quoted text is read back. -/
theorem stringBody_quoted (text : List Char) :
    stringBody (text.flatMap (fun c => if c = '"' then ['"', '"'] else [c]) ++ ['"']) = some text := by
  induction text with
  | nil => rfl
  | cons c text ih =>
    rw [List.flatMap_cons]
    split_ifs with hc
    · subst hc
      have hdoubled : ∀ cs : List Char, ['"', '"'] ++ cs ++ ['"'] = '"' :: '"' :: (cs ++ ['"']) :=
        fun _ => rfl
      rw [hdoubled, stringBody, ih]
      rfl
    · rw [List.cons_append, List.nil_append, List.cons_append, stringBody_cons hc, ih]
      rfl

theorem phraseOf_ftsPhraseQuery {needle : String} (hne : needle ≠ "") (htrim : trim needle = needle) :
    phraseOf (ftsPhraseQuery needle) = some needle := by
  have hquery : (ftsPhraseQuery needle).toList = '"' ::
      (needle.toList.flatMap (fun c => if c = '"' then ['"', '"'] else [c]) ++ ['"']) := by
    unfold ftsPhraseQuery
    rw [htrim]
    dsimp only
    rw [if_neg hne, String.toList_ofList]
    rfl
  rw [phraseOf, hquery]
  change (stringBody _).map String.ofList = _
  rw [stringBody_quoted, Option.map_some, String.ofList_toList]

variable {R : AdapterRuntime} {fold : Char → Char} {w : ReplicaWorld} {needle : String}

/-! ## Occurrences in titles -/

/-- The conditions of a needle up to the folding. -/
def foldConditions (fold : Char → Char) (needle : String) : List (Char → Prop) :=
  needle.toList.map fun c x => fold c = fold x

theorem containsFold_iff (title : String) :
    containsFold fold title needle ↔ Occurs (foldConditions fold needle) title.toList := by
  have hforall : ∀ s : List Char, List.Forall₂ (fun p a => p a) (foldConditions fold needle) s ↔
      needle.toList.map fold = s.map fold := by
    intro s
    rw [foldConditions, List.forall₂_map_left_iff, ← List.forall₂_eq_eq_eq, List.forall₂_map_left_iff,
      List.forall₂_map_right_iff]
  constructor
  · rintro ⟨before, after, h⟩
    obtain ⟨rest, last, hsplit, hrest, -⟩ := List.map_eq_append_iff.1 h.symm
    obtain ⟨first, s, hfirst, -, hs⟩ := List.map_eq_append_iff.1 hrest
    refine ⟨s, ⟨first, last, ?_⟩, (hforall s).2 hs.symm⟩
    rw [hsplit, hfirst]
  · rintro ⟨s, hs, h⟩
    rw [containsFold, (hforall s).1 h]
    exact hs.map fold

/-- A text without a wildcard does not have a needle with one. -/
theorem not_containsFold_of_wildcard (hR : Engines R fold) (hneedle : ¬ Literal needle.toList)
    {title : String} (htitle : Literal title.toList) : ¬ containsFold fold title needle := by
  intro h
  have hmem : ∀ c, c ∈ needle.toList → ∃ x ∈ title.toList, fold c = fold x := by
    intro c hc
    obtain ⟨x, hx, heq⟩ := List.mem_map.1 (h.subset (List.mem_map_of_mem hc))
    exact ⟨x, hx, heq.symm⟩
  rw [Literal, not_and_or, not_not, not_not] at hneedle
  rcases hneedle with hpercent | hunderscore
  · obtain ⟨x, hx, heq⟩ := hmem '%' hpercent
    exact htitle.1 (hR.percent x heq.symm ▸ hx)
  · obtain ⟨x, hx, heq⟩ := hmem '_' hunderscore
    exact htitle.2 (hR.underscore x heq.symm ▸ hx)

/-- The `LIKE` of a search on a title. -/
theorem titleLike_eq (hR : Engines R fold) (title : String) :
    R.titleLike (some (.str title)) ("%" ++ R.toLocaleLowerCase needle ++ "%") =
      like ('%' :: (R.toLocaleLowerCase needle).toList ++ ['%']) title.toList := by
  rw [hR.like, String.toList_append, String.toList_append, like_map_toLower]
  rfl

/-! ## What is found -/

theorem matchesNeedle_long (hR : Engines R fold) (hindexed : Indexed w) {r : ReplicaRecordRow}
    (hr : r ∈ w.replica.records.rows) (hpublic : isPublicOf "document_version" r = true)
    {title : String} (htitle : titleValue r = some (.str title)) (hne : needle ≠ "")
    (htrim : trim needle = needle) (hlong : FTS_TRIGRAM_MIN ≤ (Utf16.units needle).length) :
    matchesNeedle R w needle r =
      (decide (3 ≤ needle.toList.length) && decide (containsFold fold title needle)) := by
  obtain ⟨title', htitle', ⟨f, hf, hfkey⟩, htexts⟩ := hindexed r hr hpublic
  obtain rfl := Json.str.inj (Option.some.inj (htitle.symm.trans htitle'))
  have hphrase := phraseOf_ftsPhraseQuery hne htrim
  rw [matchesNeedle, if_pos hlong]
  cases hfound : (decide (3 ≤ needle.toList.length) && decide (containsFold fold title needle)) with
  | true =>
    refine List.any_eq_true.2 ⟨f, hf, ?_⟩
    rw [htexts f hf hfkey, hR.phrase title _ needle hphrase, hfound, decide_eq_true hfkey]
    rfl
  | false =>
    refine List.any_eq_false.2 fun g hg hmatch => ?_
    rw [Bool.and_eq_true, decide_eq_true_eq] at hmatch
    rw [htexts g hg hmatch.1, hR.phrase title _ needle hphrase, hfound] at hmatch
    exact absurd hmatch.2 Bool.false_ne_true

theorem matchesNeedle_short (hR : Engines R fold) {r : ReplicaRecordRow} {title : String}
    (htitle : titleValue r = some (.str title)) (hne : needle ≠ "")
    (hshort : ¬ FTS_TRIGRAM_MIN ≤ (Utf16.units needle).length) :
    matchesNeedle R w needle r =
      like ('%' :: (R.toLocaleLowerCase needle).toList ++ ['%']) title.toList := by
  have htitle' : (r.payload.get? "document").bind (·.get? "title") = some (.str title) := htitle
  rw [matchesNeedle, if_neg hshort, if_pos hne, htitle', titleLike_eq hR]

/-- The pattern of a literal needle is literal. -/
theorem literal_toLocaleLowerCase (hR : Engines R fold) (h : Literal needle.toList) :
    Literal (R.toLocaleLowerCase needle).toList :=
  ⟨fun hc => h.1 (hR.lower needle '%' hc (.inl rfl)), fun hc => h.2 (hR.lower needle '_' hc (.inr rfl))⟩

/-- The pattern of a needle finds what the needle is in, in every title, exactly where the needle is
plain. -/
theorem like_iff_containsFold (hR : Engines R fold) (needle : String) :
    (∀ title : String, like ('%' :: (R.toLocaleLowerCase needle).toList ++ ['%']) title.toList = true ↔
        containsFold fold title needle) ↔
      Literal needle.toList ∧ List.Forall₂ (fun l c => ∀ x : Char, l.toLower = x.toLower ↔ fold c = fold x)
        (R.toLocaleLowerCase needle).toList needle.toList := by
  have hconditions : (∀ p ∈ conditions (R.toLocaleLowerCase needle).toList, ∃ c, p c) ∧
      ∀ p ∈ foldConditions fold needle, ∃ c, p c := by
    constructor
    · intro p hp
      obtain ⟨c, -, rfl⟩ := List.mem_map.1 hp
      exact ⟨c, rfl⟩
    · intro p hp
      obtain ⟨c, -, rfl⟩ := List.mem_map.1 hp
      exact ⟨c, rfl⟩
  have hpairs : List.Forall₂ (fun p q : Char → Prop => ∀ a, p a ↔ q a)
        (conditions (R.toLocaleLowerCase needle).toList) (foldConditions fold needle) ↔
      List.Forall₂ (fun l c => ∀ x : Char, l.toLower = x.toLower ↔ fold c = fold x)
        (R.toLocaleLowerCase needle).toList needle.toList := by
    rw [conditions, foldConditions, List.forall₂_map_left_iff, List.forall₂_map_right_iff]
  constructor
  · intro h
    have hliteral : Literal needle.toList := by
      by_contra hwild
      have hplain := h (String.ofList (plain (R.toLocaleLowerCase needle).toList))
      rw [String.toList_ofList] at hplain
      refine not_containsFold_of_wildcard hR hwild ?_ (hplain.1 (like_plain _))
      rw [String.toList_ofList]
      exact literal_plain _
    refine ⟨hliteral, hpairs.1 ((occurs_congr_iff hconditions.1 hconditions.2).1 fun text => ?_)⟩
    have htext := h (String.ofList text)
    rwa [containsFold_iff, String.toList_ofList,
      like_literal (literal_toLocaleLowerCase hR hliteral)] at htext
  · rintro ⟨hliteral, hforall⟩ title
    rw [containsFold_iff, like_literal (literal_toLocaleLowerCase hR hliteral)]
    exact (occurs_congr_iff hconditions.1 hconditions.2).2 (hpairs.2 hforall) title.toList

/-! ## The index of a history -/

/-- The PUBLIC versions of a message come with the titles and ids of their documents. -/
def TitledMessage (m : Message) : Prop :=
  m.record.record_type = "document_version" → m.record.visibility = .PUBLIC →
    ∃ title documentId, (m.record.payload.get? "document").bind (·.get? "title") = some (.str title) ∧
      (m.record.payload.get? "document").bind (·.get? "document_id") = some (.str documentId) ∧
      documentId ≠ ""

theorem ftsIngest_of_public {fts : List FtsRow} {m : Message} {key title documentId : String}
    (htype : m.record.record_type = "document_version") (hpublic : m.record.visibility = .PUBLIC)
    (htitle : (m.record.payload.get? "document").bind (·.get? "title") = some (.str title))
    (hid : (m.record.payload.get? "document").bind (·.get? "document_id") = some (.str documentId))
    (hne : documentId ≠ "") :
    ftsIngestStatements fts m.record key =
      (fts.filter fun f => decide (f.record_key ≠ key)) ++ [⟨key, documentId, title⟩] := by
  unfold ftsIngestStatements
  rw [if_neg (by simp [htype, hpublic])]
  dsimp only
  rw [hid, htitle]
  dsimp only [Option.bind_some, Json.str?, Option.getD_some]
  split
  · rename_i heq
    cases heq
  · rename_i heq
    exact absurd (Option.some.inj heq) hne
  · rename_i heq
    rw [Option.some.inj heq]

/-- What replaces a key's rows leaves the others. -/
theorem mem_reindexed {fts : List FtsRow} {key title documentId : String} {f : FtsRow}
    (hne : f.record_key ≠ key) :
    f ∈ (fts.filter fun f => decide (f.record_key ≠ key)) ++ [⟨key, documentId, title⟩] ↔ f ∈ fts := by
  rw [List.mem_append, List.mem_filter, List.mem_singleton]
  constructor
  · rintro (⟨hf, -⟩ | rfl)
    · exact hf
    · exact absurd rfl hne
  · exact fun hf => .inl ⟨hf, decide_eq_true hne⟩

theorem indexed_ingestMessage (R : AdapterRuntime) (hw : Indexed w) {m : Message}
    (hm : TitledMessage m) : Indexed (ingestMessage R w m) := by
  unfold ingestMessage
  cases hkey : acceptedKey R m with
  | none => exact hw
  | some key =>
    dsimp only
    split_ifs
    · exact hw
    · intro r hr hpublic
      obtain ⟨htype, hvisible⟩ := (Bool.and_eq_true _ _).mp hpublic
      have htype : r.record_type = "document_version" := of_decide_eq_true htype
      have hvisible : r.visibility = .PUBLIC := of_decide_eq_true hvisible
      rcases record_of_ingestBatch hr with ⟨hold, hother⟩ | ⟨hk, hown⟩
      · obtain ⟨title, htitle, ⟨f, hf, hfkey⟩, htexts⟩ := hw r hold hpublic
        have hsame : ∀ f, f.record_key = r.record_key →
            (f ∈ ftsIngestStatements w.fts m.record key ↔ f ∈ w.fts) := by
          intro f hf
          by_cases hmessage : m.record.record_type = "document_version" ∧ m.record.visibility = .PUBLIC
          · obtain ⟨title', documentId, htitle', hid, hne⟩ := hm hmessage.1 hmessage.2
            have hkeys : r.record_key ≠ key :=
              fun heq => hother (Prod.ext (htype.trans hmessage.1.symm) heq)
            rw [ftsIngest_of_public hmessage.1 hmessage.2 htitle' hid hne]
            exact mem_reindexed (hf ▸ hkeys)
          · unfold ftsIngestStatements
            rw [if_pos (by rwa [not_and_or] at hmessage)]
        exact ⟨title, htitle, ⟨f, (hsame f hfkey).2 hf, hfkey⟩,
          fun g hg hgkey => htexts g ((hsame g hgkey).1 hg) hgkey⟩
      · have hmtype : m.record.record_type = "document_version" :=
          (congrArg Prod.fst hk).symm.trans htype
        have hrkey : r.record_key = key := congrArg Prod.snd hk
        obtain ⟨hpayload, hvisibility⟩ := hown (by rw [hmtype]; decide)
        obtain ⟨title, documentId, htitle, hid, hne⟩ := hm hmtype (hvisibility.symm.trans hvisible)
        have hfts : ftsIngestStatements w.fts m.record key = _ :=
          ftsIngest_of_public hmtype (hvisibility.symm.trans hvisible) htitle hid hne
        refine ⟨title, by rw [titleValue, hpayload]; exact htitle,
          ⟨⟨key, documentId, title⟩, ?_, hrkey.symm⟩, fun g hg hgkey => ?_⟩
        · rw [hfts]
          exact List.mem_append_right _ (List.mem_singleton_self _)
        · rw [hfts] at hg
          rcases List.mem_append.1 hg with hg | hg
          · have hnot : g.record_key ≠ key := of_decide_eq_true (List.mem_filter.1 hg).2
            exact absurd (hgkey.trans hrkey) hnot
          · rw [List.mem_singleton.1 hg]

/-- Ingest keeps the index of titles, from the first message on. -/
theorem indexed_ingestHistory (R : AdapterRuntime)
    (retention : Table RetentionRow String [fun r => some r.document_id]) (jobs : JobTables)
    {history : List Message} (hhistory : ∀ m ∈ history, TitledMessage m) :
    Indexed (ingestHistory R (.start retention jobs) history) := by
  have hrun : ∀ (history : List Message) (w : ReplicaWorld), (∀ m ∈ history, TitledMessage m) →
      Indexed w → Indexed (ingestHistory R w history) := by
    intro history
    induction history with
    | nil => exact fun _ _ hw => hw
    | cons m history ih =>
      intro w hall hw
      rw [List.forall_mem_cons] at hall
      exact ih _ hall.2 (indexed_ingestMessage R hw hall.1)
  exact hrun history _ hhistory fun r hr _ => absurd hr List.not_mem_nil

/-! ## Exact searches -/

/-- One PUBLIC version of a document with a title, and its row of the index. -/
def titledRow (title : String) : ReplicaRecordRow where
  record_type := "document_version"
  record_key := "v1"
  message_id := "outbound_1"
  visibility := .PUBLIC
  schema_version := "collector-outbound-v4"
  payload := .obj [("document", .obj [("document_id", .str "doc-1"), ("title", .str title)]),
    ("version", .obj [("version_id", .str "v1"), ("media_type", .str "text/plain")]),
    ("attachments", .arr [])]
  generated_at := none
  updated_at := "2026-10-03T00:00:00.000Z"

def titledWorld (title : String) : ReplicaWorld where
  replica := { Replica.empty with records := Table.empty.upsert (titledRow title) id recordKey_id }
  objects _ := none
  fts := [⟨"v1", "doc-1", title⟩]
  jobs := ⟨[], [], []⟩

theorem keyedVersions_titledWorld (title : String) : KeyedVersions (titledWorld title).replica := by
  intro r hr _
  obtain rfl := List.mem_singleton.1 (show r ∈ [titledRow title] from hr)
  rfl

theorem indexed_titledWorld (title : String) : Indexed (titledWorld title) := by
  intro r hr _
  obtain rfl := List.mem_singleton.1 (show r ∈ [titledRow title] from hr)
  refine ⟨title, rfl, ⟨_, List.mem_singleton_self _, rfl⟩, fun f hf _ => ?_⟩
  rw [List.mem_singleton.1 hf]

theorem mem_titledWorld (title : String) :
    titledRow title ∈ (titledWorld title).replica.records.rows :=
  List.mem_singleton_self (titledRow title)

theorem titleValue_titledRow (title : String) : titleValue (titledRow title) = some (.str title) :=
  rfl

theorem isPublicOf_titledRow (title : String) : isPublicOf "document_version" (titledRow title) = true :=
  rfl

/-- An exact search finds the one version exactly where its title has the needle. -/
theorem matches_of_exact {query title : String}
    (h : ExactSearch R fold (titledWorld title) query) :
    matchesNeedle R (titledWorld title) (trim query) (titledRow title) = true ↔
      containsFold fold title (trim query) := by
  have hlisted : listedVersion (titledWorld title) (titledRow title) = true := rfl
  have hmem := mem_titledWorld title
  have hfound : titledRow title ∈ foundRows R (titledWorld title) (some query) ↔
      matchesNeedle R (titledWorld title) (trim query) (titledRow title) = true :=
    mem_foundRows.trans ⟨fun h => h.2.2, fun h => ⟨hmem, hlisted, h⟩⟩
  have htitled : titledRow title ∈ titledRows fold (titledWorld title) (trim query) ↔
      containsFold fold title (trim query) := by
    rw [titledRows, List.mem_insertionSort, List.mem_filter, hlisted, Bool.true_and,
      titleValue_titledRow, Option.bind_some, Json.str?, Option.any_some, decide_eq_true_eq]
    exact ⟨fun h => h.2, fun h => ⟨hmem, h⟩⟩
  have honly : ∀ r, r ∈ (titledWorld title).replica.records.rows → r = titledRow title :=
    fun r hr => List.mem_singleton.1 hr
  have hviews := Except.ok.inj ((unlimitedSearch_eq (keyedVersions_titledWorld title) _).symm.trans h)
  rw [← hfound, ← htitled]
  constructor
  · intro hrow
    have hview := List.mem_map_of_mem (f := viewOf) hrow
    rw [hviews] at hview
    obtain ⟨r, hr, -⟩ := List.mem_map.1 hview
    have hstored := (List.mem_filter.1 ((List.mem_insertionSort _).1 hr)).1
    exact honly r hstored ▸ hr
  · intro hrow
    have hview := List.mem_map_of_mem (f := viewOf) hrow
    rw [← hviews] at hview
    obtain ⟨r, hr, -⟩ := List.mem_map.1 hview
    exact honly r (mem_foundRows.1 hr).1 ▸ hr

theorem matchesNeedle_of_plain (hR : Engines R fold) (hindexed : Indexed w) (hne : needle ≠ "")
    (htrim : trim needle = needle) (hplain : Plain R fold needle) {r : ReplicaRecordRow}
    (hr : r ∈ w.replica.records.rows) (hpublic : isPublicOf "document_version" r = true) :
    matchesNeedle R w needle r =
      ((titleValue r).bind Json.str?).any fun title => decide (containsFold fold title needle) := by
  obtain ⟨title, htitle, -⟩ := hindexed r hr hpublic
  have htitled : (((titleValue r).bind Json.str?).any fun title =>
      decide (containsFold fold title needle)) = decide (containsFold fold title needle) := by
    rw [htitle]
    rfl
  rw [htitled]
  unfold Plain at hplain
  split_ifs at hplain with hlong
  · rw [matchesNeedle_long hR hindexed hr hpublic htitle hne htrim hlong, decide_eq_true hplain,
      Bool.true_and]
  · rw [matchesNeedle_short hR htitle hne hlong, Bool.eq_iff_iff, decide_eq_true_eq]
    exact (like_iff_containsFold hR needle).2 hplain title

theorem plain_of_matches (hR : Engines R fold) (hne : needle ≠ "") (htrim : trim needle = needle)
    (h : ∀ title, matchesNeedle R (titledWorld title) needle (titledRow title) = true ↔
      containsFold fold title needle) : Plain R fold needle := by
  unfold Plain
  split_ifs with hlong
  · have hown : containsFold fold needle needle := List.infix_rfl
    have hfound := (h needle).2 hown
    rw [matchesNeedle_long hR (indexed_titledWorld _) (mem_titledWorld _) (isPublicOf_titledRow _)
      (titleValue_titledRow _) hne htrim hlong, Bool.and_eq_true, decide_eq_true_eq] at hfound
    exact hfound.1
  · refine (like_iff_containsFold hR needle).1 fun title => ?_
    rw [← h title, matchesNeedle_short hR (titleValue_titledRow title) hne hlong]

theorem exact_of_plain (hR : Engines R fold) (hne : needle ≠ "") (htrim : trim needle = needle)
    (hplain : Plain R fold needle) {query : String} (hquery : trim query = needle)
    (hkeyed : KeyedVersions w.replica) (hindexed : Indexed w) : ExactSearch R fold w query := by
  have hrows : foundRows R w (some query) = titledRows fold w (trim query) := by
    rw [foundRows, titledRows, Option.getD_some, hquery]
    refine congrArg (List.insertionSort _) (List.filter_congr fun r hr => ?_)
    rw [← Bool.and_assoc, ← listedVersion]
    cases hlisted : listedVersion w r with
    | false => rw [Bool.false_and, Bool.false_and]
    | true =>
      rw [matchesNeedle_of_plain hR hindexed hne htrim hplain hr (isPublicOf_of_listed hlisted)]
  rw [ExactSearch, unlimitedSearch_eq hkeyed, hrows]

theorem plain_of_exact (hR : Engines R fold) {query : String} (hquery : trim query = needle)
    (hne : needle ≠ "") (h : ∀ title, ExactSearch R fold (titledWorld title) query) :
    Plain R fold needle := by
  have htrim : trim needle = needle := by
    rw [← hquery]
    exact trim_trim query
  refine plain_of_matches hR hne htrim fun title => ?_
  have hmatches := matches_of_exact (h title)
  rwa [hquery] at hmatches

/-- A search is literal and case-insensitive, in every replica with its index, exactly where its query
is plain. -/
theorem search_exact_iff (hR : Engines R fold) {query needle : String} (hquery : trim query = needle)
    (hne : needle ≠ "") :
    (∀ w, KeyedVersions w.replica → Indexed w → ExactSearch R fold w query) ↔ Plain R fold needle := by
  have htrim : trim needle = needle := by
    rw [← hquery]
    exact trim_trim query
  constructor
  · intro h
    exact plain_of_exact hR hquery hne fun title =>
      h _ (keyedVersions_titledWorld title) (indexed_titledWorld title)
  · intro hplain w hkeyed hindexed
    exact exact_of_plain hR hne htrim hplain hquery hkeyed hindexed

/-! ## Two searches -/

/-- The two engines, where only the letters of ASCII have cases. -/
def titleRuntime : AdapterRuntime :=
  { adapterRuntime with
    ftsMatch := fun text query => (phraseOf query).any fun needle =>
      decide (3 ≤ needle.toList.length) && decide (containsFold Char.toLower text needle)
    titleLike := fun title pattern => (title.bind Json.str?).any fun t =>
      like pattern.toList (t.toList.map Char.toLower)
    toLocaleLowerCase := fun text => String.ofList (text.toList.map Char.toLower) }

theorem toLower_eq_of_not_letter {c d : Char} (hd : ¬('a'.val ≤ d.val ∧ d.val ≤ 'z'.val))
    (h : c.toLower = d) : c = d := by
  by_cases hupper : 'A'.val ≤ c.val ∧ c.val ≤ 'Z'.val
  · have hval : d.val = c.val + 32 := h ▸ SqlLike.toLower_val_of_upper hupper
    rw [hval] at hd
    simp only [UInt32.le_iff_toNat_le, UInt32.toNat_add] at hupper hd
    have hA : 'A'.val.toNat = 65 := rfl
    have hZ : 'Z'.val.toNat = 90 := rfl
    have ha : 'a'.val.toNat = 97 := rfl
    have hz : 'z'.val.toNat = 122 := rfl
    have hstep : (32 : UInt32).toNat = 32 := rfl
    omega
  · rwa [toLower_of_not_upper hupper] at h

theorem engines_titleRuntime : Engines titleRuntime Char.toLower where
  phrase text query needle hneedle := by
    change (phraseOf query).any _ = _
    rw [hneedle, Option.any_some]
  like _ _ := rfl
  lower text c hc hwildcard := by
    change c ∈ (String.ofList (text.toList.map Char.toLower)).toList at hc
    rw [String.toList_ofList, List.mem_map] at hc
    obtain ⟨d, hd, hlower⟩ := hc
    have hnotLetter : ¬('a'.val ≤ c.val ∧ c.val ≤ 'z'.val) := by
      rcases hwildcard with rfl | rfl <;> decide
    exact toLower_eq_of_not_letter hnotLetter hlower ▸ hd
  percent _ h := toLower_eq_of_not_letter (by decide) h
  underscore _ h := toLower_eq_of_not_letter (by decide) h

/-- A short literal needle of characters without other cases than those of ASCII is plain. -/
theorem plain_titleRuntime {needle : String} (hshort : ¬ FTS_TRIGRAM_MIN ≤ (Utf16.units needle).length)
    (hliteral : Literal needle.toList) : Plain titleRuntime Char.toLower needle := by
  have hlower : (titleRuntime.toLocaleLowerCase needle).toList = needle.toList.map Char.toLower :=
    String.toList_ofList
  rw [Plain, if_neg hshort, hlower, List.forall₂_map_left_iff, List.forall₂_same]
  refine ⟨hliteral, fun c _ x => ?_⟩
  rw [toLower_toLower]

/-- A short query of letters is found in either case. -/
theorem search_exact_letters :
    ExactSearch titleRuntime Char.toLower (titledWorld "Ai chips") "AI" ∧
      containsFold Char.toLower "Ai chips" "AI" :=
  ⟨(search_exact_iff engines_titleRuntime (by decide : trim "AI" = "AI") (by decide)).2
    (plain_titleRuntime (by decide) (by simp [Literal])) _ (keyedVersions_titledWorld _)
    (indexed_titledWorld _), by decide⟩

/-- A query of two characters with a `%` finds a title that does not have it. -/
theorem percent_is_wildcard :
    KeyedVersions (titledWorld "50 ETF").replica ∧ Indexed (titledWorld "50 ETF") ∧
      ¬ ExactSearch titleRuntime Char.toLower (titledWorld "50 ETF") "5%" := by
  refine ⟨keyedVersions_titledWorld _, indexed_titledWorld _, fun h => ?_⟩
  have hmatches := matches_of_exact h
  have htrim : trim "5%" = "5%" := by decide
  have hshort : ¬ FTS_TRIGRAM_MIN ≤ (Utf16.units "5%").length := by decide
  rw [htrim, matchesNeedle_short engines_titleRuntime (titleValue_titledRow _) (by decide) hshort]
    at hmatches
  exact absurd (hmatches.1 (by decide)) (by decide)

end QuantproCollector.ResearchReplica
