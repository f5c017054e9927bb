import Mathlib.Data.List.Induction
import QuantproCollector.Lib.LastSorted
import QuantproCollector.StateGateway.Replay

/-!
# The latest event about a symbol

The role comments are put in the order of the texts of their `as_of`, then of their creation and id, and
the last event about a symbol is its latest. `latest_iff` says for every order in which the comments can
be listed when that is an event of the greatest instant: the comments that no other one follows in the
order of the texts must denote the greatest instant. Up to a tie in all three texts, the latest event
never depends on the order of the listing.
-/

namespace QuantproCollector.StateGateway

open Relational Async

/-! ## The entry of a symbol -/

/-- `String(payload.as_of ?? "")`. -/
def asOfText (c : LedgerComment) : String :=
  match c.payload.get? "as_of" with
  | none | some .null => ""
  | some v => v.text

/-- The comment's events about the symbol in the role's dimension. -/
def symbolEvents (role : InvestmentLedgerRole) (symbol : String) (c : LedgerComment) : List Json :=
  (batchEvents c.payload).filter fun event =>
    textField event "symbol" = symbol && textField event "dimension" = role.dimension

/-- `latest_by_symbol[symbol]`, the event with its comment. -/
def latestEntry (P : Runtime) (w : World) (role : InvestmentLedgerRole) (symbol : String) :
    Option (LedgerComment × Json) :=
  ((roleComments P w role).flatMap fun c => (symbolEvents role symbol c).map (c, ·)).getLast?

/-- The role's comments with events about the symbol, in order. -/
def symbolComments (P : Runtime) (w : World) (role : InvestmentLedgerRole) (symbol : String) :
    List LedgerComment :=
  (roleComments P w role).filter fun c => !(symbolEvents role symbol c).isEmpty

section Entries

variable {P : Runtime} {w : World} {token : String} {role : InvestmentLedgerRole} {symbol : String}

theorem latestBySymbol_recordedEvents :
    latestBySymbol (recordedEvents P w role) symbol = (latestEntry P w role symbol).map Prod.snd := by
  unfold latestEntry latestBySymbol recordedEvents roleEvents
  rw [← List.getLast?_map, List.map_flatMap, List.filter_filter, List.filter_flatMap]
  simp only [List.map_map, Function.comp_def, List.map_id']
  rfl

/-- The comment of the last entry is the last comment that has one. -/
theorem getLast?_entries {α β : Type} (f : α → List β) (cs : List α) :
    ((cs.flatMap fun c => (f c).map (c, ·)).getLast?).map Prod.fst =
      (cs.filter fun c => !(f c).isEmpty).getLast? := by
  induction cs using List.reverseRecOn with
  | nil => rfl
  | append_singleton cs c ih =>
    rw [List.flatMap_append, List.filter_append, List.flatMap_singleton]
    cases hf : f c with
    | nil => simpa [hf] using ih
    | cons b bs =>
      obtain ⟨init, last, hlast⟩ := (List.eq_nil_or_concat' (b :: bs)).resolve_left (by simp)
      simp [hf, hlast]

theorem latestEntry_fst :
    (latestEntry P w role symbol).map Prod.fst = (symbolComments P w role symbol).getLast? :=
  getLast?_entries _ _

/-- What is read of the ledger: the role's events about the symbols, whatever the pages. -/
theorem answers_getInvestmentLedgerState {symbols : List String}
    (hread : Readable w token .investment)
    (hsymbols : (decide (symbols.eraseDups.length < 1) || decide (symbols.eraseDups.length > 512) ||
      symbols.eraseDups.any (!isInstrumentKey ·)) = false) :
    Answers P w (getInvestmentLedgerState P token role symbols)
      (.ok ((recordedEvents P w role).filter fun event =>
        symbols.eraseDups.contains (textField event "symbol"))) := by
  unfold getInvestmentLedgerState
  rw [if_neg hread.1]
  dsimp only
  rw [if_neg (by rw [hsymbols]; decide)]
  have hcomments : Answers P w (fetchAllComments investmentErrors none)
      (.ok ((w.comments .investment).map Comment.json)) := by
    have h := answers_fetchAllComments (P := P) (w := w) (e := investmentErrors) none
    rw [readComments_none, if_pos (show (w.comments investmentErrors.ledger).length ≤ MAX_COMMENTS from
      hread.2)] at h
    exact h
  refine hcomments.bind_ok ?_
  show Answers P w (Script.halt (validRoleComments P (w.investment.map Comment.json) role) >>= _) _
  rw [validRoleComments_json]
  rfl

end Entries

/-! ## The order of the comments -/

section Order

variable {P : Runtime} {w w' : World} {role : InvestmentLedgerRole} {symbol : String}

/-- The comments of a role, as they are listed. -/
def parsedComments (w : World) (role : InvestmentLedgerRole) : List LedgerComment :=
  (w.investment.filterMap (Comment.read parseExistingPayload)).filter fun c =>
    textField c.payload "producer" = role.producer

theorem transCmp_on {cmp : String → String → Ordering} (h : Std.TransCmp cmp) (f : LedgerComment → String) :
    Std.TransCmp fun a b => cmp (f a) (f b) where
  eq_swap := h.toOrientedCmp.eq_swap
  isLE_trans := h.isLE_trans

theorem transCmp_compareLedgerComments (h : Std.TransCmp P.localeCompare) :
    Std.TransCmp (compareLedgerComments P) := by
  have h1 := transCmp_on h asOfText
  have h2 := transCmp_on h LedgerComment.created_at
  have h3 := transCmp_on h LedgerComment.comment_id
  exact inferInstanceAs (Std.TransCmp (compareLex (compareLex (fun a b : LedgerComment =>
    P.localeCompare (asOfText a) (asOfText b)) fun a b => P.localeCompare a.created_at b.created_at)
      fun a b => P.localeCompare a.comment_id b.comment_id))

theorem compareLedgerComments_total (h : Std.TransCmp P.localeCompare) (a b : LedgerComment) :
    (compareLedgerComments P a b).isLE = true ∨ (compareLedgerComments P b a).isLE = true := by
  have hswap := (transCmp_compareLedgerComments h).toOrientedCmp.eq_swap (a := b) (b := a)
  rw [hswap]
  cases compareLedgerComments P a b <;> simp

theorem compareLedgerComments_trans (h : Std.TransCmp P.localeCompare) (a b c : LedgerComment)
    (hab : (compareLedgerComments P a b).isLE = true) (hbc : (compareLedgerComments P b c).isLE = true) :
    (compareLedgerComments P a c).isLE = true := by
  have := transCmp_compareLedgerComments h
  exact Std.TransCmp.isLE_trans hab hbc

/-- The symbol's comments, sorted after they were picked out. -/
theorem symbolComments_eq (h : Std.TransCmp P.localeCompare) :
    symbolComments P w role symbol =
      ((parsedComments w role).filter fun c => !(symbolEvents role symbol c).isEmpty).insertionSort
        fun a b => (compareLedgerComments P a b).isLE = true :=
  List.filter_insertionSort (compareLedgerComments_total h) (compareLedgerComments_trans h)

theorem mem_symbolComments {c : LedgerComment} :
    c ∈ symbolComments P w role symbol ↔
      c ∈ parsedComments w role ∧ (symbolEvents role symbol c).isEmpty = false := by
  unfold symbolComments roleComments
  rw [List.mem_filter, List.mem_insertionSort]
  simp [parsedComments]

/-- The same comments, in any order of listing. -/
def Relisted (w w' : World) : Prop := w'.investment.Perm w.investment

theorem mem_symbolComments_relisted (h : Relisted w w') {c : LedgerComment} :
    c ∈ symbolComments P w' role symbol ↔ c ∈ symbolComments P w role symbol := by
  have hperm : (parsedComments w' role).Perm (parsedComments w role) :=
    (List.Perm.filterMap _ h).filter _
  rw [mem_symbolComments, mem_symbolComments, hperm.mem_iff]

/-- No other of the symbol's comments follows it in the order of the texts. -/
def LastInText (P : Runtime) (w : World) (role : InvestmentLedgerRole) (symbol : String)
    (c : LedgerComment) : Prop :=
  c ∈ symbolComments P w role symbol ∧
    ∀ c' ∈ symbolComments P w role symbol, (compareLedgerComments P c' c).isLE = true

theorem lastInText_of_getLast? (hlocale : Std.TransCmp P.localeCompare) {c : LedgerComment}
    (h : (symbolComments P w role symbol).getLast? = some c) : LastInText P w role symbol c := by
  refine ⟨List.mem_of_getLast? h, fun c' hc' => ?_⟩
  rw [symbolComments_eq hlocale] at h hc'
  exact List.rel_of_getLast? (compareLedgerComments_total hlocale) (compareLedgerComments_trans hlocale)
    h c' ((List.mem_insertionSort _).1 hc')

/-- A comment that no other follows is the last one in some listing. -/
theorem exists_relisted (hlocale : Std.TransCmp P.localeCompare) {c : LedgerComment}
    (h : LastInText P w role symbol c) :
    ∃ w', Relisted w w' ∧ (symbolComments P w' role symbol).getLast? = some c := by
  obtain ⟨hmem, hevents⟩ := mem_symbolComments.1 h.1
  obtain ⟨hread, hproducer⟩ := List.mem_filter.1 hmem
  obtain ⟨comment, hcomment, hc⟩ := List.mem_filterMap.1 hread
  obtain ⟨before, after, heq⟩ := List.append_of_mem hcomment
  have hperm : Relisted w { w with investment := before ++ after ++ [comment] } := by
    unfold Relisted
    rw [heq, List.append_assoc]
    exact List.Perm.append_left before (List.perm_append_singleton comment after)
  refine ⟨_, hperm, ?_⟩
  rw [symbolComments_eq hlocale]
  have hlast : (parsedComments { w with investment := before ++ after ++ [comment] } role).filter
      (fun c => !(symbolEvents role symbol c).isEmpty) =
      (((before ++ after).filterMap (Comment.read parseExistingPayload)).filter fun c =>
        textField c.payload "producer" = role.producer).filter
          (fun c => !(symbolEvents role symbol c).isEmpty) ++ [c] := by
    unfold parsedComments
    rw [List.filterMap_append, List.filter_append, List.filter_append]
    congr 1
    have hrole : textField c.payload "producer" = role.producer := by simpa using hproducer
    simp [hc, hrole, hevents]
  rw [hlast]
  refine List.getLast?_insertionSort_append fun c' hc' => h.2 c' ?_
  refine (mem_symbolComments_relisted hperm).1 ?_
  rw [symbolComments_eq hlocale, List.mem_insertionSort, hlast]
  exact List.mem_append_left _ hc'

end Order

/-! ## The greatest instant -/

/-- The comment's `as_of` denotes the greatest instant among those of the comments. -/
def Greatest (P : Runtime) (comments : List LedgerComment) (c : LedgerComment) : Prop :=
  ∀ c' ∈ comments, ∀ instant', P.dateParse (asOfText c') = some instant' →
    ∃ instant, P.dateParse (asOfText c) = some instant ∧ instant' ≤ instant

/-- In whatever order the comments are listed, the symbol's latest event is one of the greatest instant,
and it is the same one up to a tie. -/
structure LatestByInstant (P : Runtime) (w : World) (role : InvestmentLedgerRole) (symbol : String) :
    Prop where
  greatest : ∀ w', Relisted w w' → ∀ entry, latestEntry P w' role symbol = some entry →
    Greatest P (symbolComments P w role symbol) entry.1
  ties : ∀ w', Relisted w w' → ∀ entry, latestEntry P w role symbol = some entry →
    ∃ entry', latestEntry P w' role symbol = some entry' ∧
      compareLedgerComments P entry.1 entry'.1 = .eq

/-- **The latest event.** The read answers the latest entry's event in every order of the listing, and
that entry is of the greatest instant exactly if the comments that no other one follows in the order of
the texts are. -/
theorem latest_iff (P : Runtime) (hlocale : Std.TransCmp P.localeCompare) (w : World)
    (role : InvestmentLedgerRole) (symbol : String) :
    (∀ w' token, Relisted w w' → Readable w' token .investment → isInstrumentKey symbol = true →
      ∃ events, Answers P w' (getInvestmentLedgerState P token role [symbol]) (.ok events) ∧
        latestBySymbol events symbol = (latestEntry P w' role symbol).map Prod.snd) ∧
    (LatestByInstant P w role symbol ↔
      ∀ c, LastInText P w role symbol c → Greatest P (symbolComments P w role symbol) c) := by
  refine ⟨fun w' token _ hread hsymbol => ?_, ?_, ?_⟩
  · refine ⟨_, answers_getInvestmentLedgerState hread (by simp [List.eraseDups_cons, hsymbol]), ?_⟩
    rw [← latestBySymbol_recordedEvents]
    exact latestBySymbol_filter (by simp)
  · intro hlatest c hc
    obtain ⟨w', hrelisted, hlast⟩ := exists_relisted hlocale hc
    rw [← latestEntry_fst] at hlast
    obtain ⟨entry, hentry, rfl⟩ := Option.map_eq_some_iff.1 hlast
    exact hlatest.greatest w' hrelisted entry hentry
  · intro hgreatest
    have hlast : ∀ w' entry, latestEntry P w' role symbol = some entry →
        LastInText P w' role symbol entry.1 := fun w' entry hentry =>
      lastInText_of_getLast? hlocale (by rw [← latestEntry_fst, hentry, Option.map_some])
    refine ⟨fun w' hrelisted entry hentry => ?_, fun w' hrelisted entry hentry => ?_⟩
    · obtain ⟨hmem, hafter⟩ := hlast w' entry hentry
      exact hgreatest entry.1 ⟨(mem_symbolComments_relisted hrelisted).1 hmem, fun c' hc' =>
        hafter c' ((mem_symbolComments_relisted hrelisted).2 hc')⟩
    · obtain ⟨hmem, hafter⟩ := hlast w entry hentry
      have hmem' := (mem_symbolComments_relisted (P := P) hrelisted).2 hmem
      cases hentry' : (symbolComments P w' role symbol).getLast? with
      | none =>
        rw [List.getLast?_eq_none_iff.1 hentry'] at hmem'
        cases hmem'
      | some c' =>
        obtain ⟨hc', hafter'⟩ := lastInText_of_getLast? hlocale hentry'
        rw [← latestEntry_fst] at hentry'
        obtain ⟨entry', hlatest, rfl⟩ := Option.map_eq_some_iff.1 hentry'
        have := transCmp_compareLedgerComments hlocale
        exact ⟨entry', hlatest, Std.OrientedCmp.isLE_antisymm (hafter' _ hmem')
          (hafter _ ((mem_symbolComments_relisted hrelisted).1 hc'))⟩

/-! ## Two spellings of a time -/

/-- The industry role at half past three, in Shanghai time. -/
def offsetBatch : Json :=
  exampleBatch "20260930T233000+08|industry_trend|BATCH" "2026-09-30T23:30:00+08:00"
    [("r_proposal", .str "R1")]

/-- The industry role at four, in UTC. -/
def zuluBatch : Json :=
  exampleBatch "20261001T000000+08|industry_trend|BATCH" "2026-09-30T16:00:00Z"
    [("r_proposal", .str "R0")]

/-- Texts are compared by their characters. -/
def offsetRuntime : Runtime :=
  { tableRuntime [] [("2026-09-30T23:30:00+08:00", 1790782200000), ("2026-09-30T16:00:00Z", 1790784000000)] []
      with localeCompare := compare }

def offsetWorld : World where
  receipts := Table.empty
  runs := Table.empty
  market := []
  investment :=
    [investmentComment 1 "2026-09-30T15:30:01Z" (enrichBatch .industry offsetBatch),
      investmentComment 2 "2026-09-30T16:00:01Z" (enrichBatch .industry zuluBatch)]
  nextCommentId := 3

theorem payloadOfText_offsetBatch :
    payloadOfText (ledgerBody (enrichBatch .industry offsetBatch)) =
      some (enrichBatch .industry offsetBatch) := by
  decide +kernel

theorem payloadOfText_zuluBatch :
    payloadOfText (ledgerBody (enrichBatch .industry zuluBatch)) =
      some (enrichBatch .industry zuluBatch) := by
  decide +kernel

def offsetComment : LedgerComment :=
  ⟨"1", commentUrl .investment 1, "2026-09-30T15:30:01Z", enrichBatch .industry offsetBatch⟩

def zuluComment : LedgerComment :=
  ⟨"2", commentUrl .investment 2, "2026-09-30T16:00:01Z", enrichBatch .industry zuluBatch⟩

theorem roleComments_offsetWorld :
    roleComments offsetRuntime offsetWorld .industry = [zuluComment, offsetComment] := by
  have hread : offsetWorld.investment.filterMap (Comment.read parseExistingPayload) =
      [offsetComment, zuluComment] := by
    have h1 := read_written (c := investmentComment 1 "2026-09-30T15:30:01Z" _) rfl
      (by decide) (by decide) payloadOfText_offsetBatch
    have h2 := read_written (c := investmentComment 2 "2026-09-30T16:00:01Z" _) rfl
      (by decide) (by decide) payloadOfText_zuluBatch
    exact (List.filterMap_cons_some h1).trans (congrArg _
      ((List.filterMap_cons_some h2).trans rfl))
  unfold roleComments
  rw [hread]
  decide

/-- Both batches are valid, and the latest event is the earlier one: its offset makes its text the
greater. -/
theorem offset_hides_instant :
    validateRoleSemantics offsetRuntime .industry offsetBatch = .ok () ∧
      validateRoleSemantics offsetRuntime .industry zuluBatch = .ok () ∧
      ¬ LatestByInstant offsetRuntime offsetWorld .industry "CN:600000" := by
  refine ⟨by decide, by decide, fun hlatest => ?_⟩
  have hcomments : symbolComments offsetRuntime offsetWorld .industry "CN:600000" =
      [zuluComment, offsetComment] := by
    unfold symbolComments
    rw [roleComments_offsetWorld]
    decide
  have hlast : (latestEntry offsetRuntime offsetWorld .industry "CN:600000").map Prod.fst =
      some offsetComment := by
    rw [latestEntry_fst, hcomments]
    rfl
  obtain ⟨entry, hentry, hcomment⟩ := Option.map_eq_some_iff.1 hlast
  have hgreatest := hlatest.greatest offsetWorld (List.Perm.refl _) entry hentry
  rw [hcomments, hcomment] at hgreatest
  obtain ⟨instant, hinstant, hle⟩ := hgreatest zuluComment List.mem_cons_self 1790784000000
    (by decide)
  have hoffset : offsetRuntime.dateParse (asOfText offsetComment) = some 1790782200000 := by
    decide
  rw [hoffset] at hinstant
  obtain rfl := Option.some.inj hinstant
  omega

/-- The two spellings. -/
theorem latest_iff_offsetWorld :
    (∀ w' token, Relisted offsetWorld w' → Readable w' token .investment →
      isInstrumentKey "CN:600000" = true →
      ∃ events, Answers offsetRuntime w'
          (getInvestmentLedgerState offsetRuntime token .industry ["CN:600000"]) (.ok events) ∧
        latestBySymbol events "CN:600000" =
          (latestEntry offsetRuntime w' .industry "CN:600000").map Prod.snd) ∧
    (LatestByInstant offsetRuntime offsetWorld .industry "CN:600000" ↔
      ∀ c, LastInText offsetRuntime offsetWorld .industry "CN:600000" c →
        Greatest offsetRuntime (symbolComments offsetRuntime offsetWorld .industry "CN:600000") c) :=
  latest_iff offsetRuntime (inferInstanceAs (Std.TransOrd String)) offsetWorld .industry "CN:600000"

end QuantproCollector.StateGateway
