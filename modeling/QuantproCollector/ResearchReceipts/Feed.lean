import QuantproCollector.Lib.Keyset
import QuantproCollector.Lib.Run
import QuantproCollector.Lib.Table
import QuantproCollector.ResearchReceipts.Cursor

/-!
# The receipt feed

The events of the research jobs, and the order in which the feed serves them: a trigger gives every
new event the next sequence, in the transaction of its insertion. `listResearchJobReceipts` serves a
page of the order after a cursor.
-/

namespace QuantproCollector.ResearchReceipts

open Relational Async

/-! ## Tables -/

/-- A row of `research_job_events`. -/
structure EventRow where
  event_id : String
  job_id : String
  event_type : String
  actor : String
  proposal_id : Option String
  origin : Option String
  detail_json : String
  request_id : String
  created_at : String
deriving DecidableEq

/-- A row of `research_receipt_event_order`. -/
structure OrderRow where
  event_id : String
  epoch : String
  receipt_sequence : ℕ
deriving DecidableEq

/-- The events, their order, and the next sequence of the epoch. -/
structure World where
  events : Table EventRow String [fun r => some r.event_id]
  order : Table OrderRow (String ⊕ ℕ)
    [fun r => some (.inl r.event_id), fun r => some (.inr r.receipt_sequence)]
  next_sequence : ℕ

/-- `next_sequence + 1`. Past the largest integer the sum is a floating point number, which one more
does not change. -/
def succSequence (n : ℕ) : ℕ :=
  if n ≤ MAX_D1_RECEIPT_SEQUENCE then n + 1 else n

/-- The insertion of an event, with the trigger's. -/
def World.insertEvent (w : World) (row : EventRow) : Option World :=
  match w.events.insert? row,
      w.order.insert? ⟨row.event_id, RECEIPT_ORDER_EPOCH, w.next_sequence⟩ with
  | some events, some order => some ⟨events, order, succSequence w.next_sequence⟩
  | _, _ => none

/-- `CAST(receipt_sequence AS TEXT)`. -/
def sequenceText (n : ℕ) : String :=
  if n ≤ MAX_D1_RECEIPT_SEQUENCE then String.ofList (Decimal.digits n) else "9.22337203685478e+18"

/-- The rows of the epoch's order joined with their events. -/
def joined (w : World) : List (EventRow × ℕ) :=
  (w.order.rows.filter fun o => decide (o.epoch = RECEIPT_ORDER_EPOCH)).filterMap fun o =>
    (w.events.find? fun e => decide (e.event_id = o.event_id)).map fun e => (e, o.receipt_sequence)

/-- A page of the order: the rows after a cursor, first sequence first. -/
def selectReceipts (w : World) (cursor : Option String) (limit : ℕ) : List (EventRow × ℕ) :=
  (Keyset.ordered Prod.snd (Keyset.after Prod.snd (cursor.map sequenceValue) (joined w))).take limit

/-- The events without a sequence, and the sequences without an event. -/
def mappingIntegrity (w : World) : ℕ × ℕ :=
  ((w.events.rows.filter fun e => !w.order.rows.any fun o =>
      decide (o.event_id = e.event_id ∧ o.epoch = RECEIPT_ORDER_EPOCH)).length,
    (w.order.rows.filter fun o => decide (o.epoch = RECEIPT_ORDER_EPOCH) &&
      !w.events.rows.any fun e => decide (e.event_id = o.event_id)).length)

/-! ## Operations -/

inductive Op where
  | mappingIntegrity
  | selectReceipts (cursor : Option String) (limit : ℕ)
  | insertEvent (row : EventRow)

abbrev Res : Op → Type
  | .mappingIntegrity => ℕ × ℕ
  | .selectReceipts .. => List (EventRow × ℕ)
  | .insertEvent _ => Unit

inductive Thrown where
  | boundary (code : ErrorCode)
  | raw
deriving DecidableEq

abbrev Program (α : Type) := Script Thrown Op Res α

/-- Whether and where a statement fails. -/
inductive Fault where
  | none
  | before
  | after
deriving DecidableEq

/-- What an operation answers and does when nothing fails. -/
def effect : (op : Op) → World → Except Thrown (Res op) × World
  | .mappingIntegrity, w => (.ok (mappingIntegrity w), w)
  | .selectReceipts cursor limit, w => (.ok (selectReceipts w cursor limit), w)
  | .insertEvent row, w =>
    match w.insertEvent row with
    | some w' => (.ok (), w')
    | none => (.error .raw, w)

def perform (f : Fault) (op : Op) (w : World) : Except Thrown (Res op) × World :=
  match f with
  | .none => effect op w
  | .before => (.error .raw, w)
  | .after => (.error .raw, (effect op w).2)

def machine : Machine Thrown Op Res World Fault where
  perform := perform

/-! ## Pages -/

structure ResearchReceiptItem where
  receipt_id : String
  job_id : String
  event_type : String
  occurred_at : String
  actor : String
  proposal_id : Option String
  origin : Option String
  request_id : String
  reason : Option String
deriving DecidableEq

structure ResearchReceiptsPage where
  generated_at : String
  next_since : Option String
  receipts : List ResearchReceiptItem
deriving DecidableEq

/-- The reason of an event's detail, where that is readable. -/
def reasonOf (detail_json : String) : Option String :=
  ((Json.parse detail_json.toList).bind (·.get? "reason")).bind Json.str?

def receiptItem (P : Platform) (row : EventRow) : ResearchReceiptItem where
  receipt_id := "rcpt_" ++ String.ofList ((P.sha256Hex row.event_id).toList.take 40)
  job_id := row.job_id
  event_type := row.event_type
  occurred_at := row.created_at
  actor := row.actor
  proposal_id := row.proposal_id
  origin := row.origin
  request_id := row.request_id
  reason := reasonOf row.detail_json

def RECEIPTS_MAX_LIMIT : ℕ := 500

def failWith {α : Type} (code : ErrorCode) : Program α :=
  throw (.boundary code)

def orFail {α : Type} : Except ErrorCode α → Program α
  | .ok a => pure a
  | .error code => failWith code

/-- A read whose failure is `STORE_UNAVAILABLE`. -/
def orUnavailable {α : Type} (s : Program α) : Program α :=
  tryCatch s fun _ => failWith .STORE_UNAVAILABLE

/-- The limit of a page, where it is an integer within its bounds. -/
def pageLimit (limit : Option Decimal) : Except ErrorCode ℕ :=
  let limit := limit.getD (.ofInt RECEIPTS_MAX_LIMIT)
  if limit.isInteger = true ∧ 1 ≤ limit.toInt ∧ limit.toInt ≤ RECEIPTS_MAX_LIMIT then
    .ok limit.toInt.toNat
  else .error .INTEGRITY_FAILED

/-- The page of the rows that were read. -/
def receiptsPage (P : Platform) (generatedAt : String) (since : Option String)
    (rows : List (EventRow × ℕ)) : Except ErrorCode ResearchReceiptsPage :=
  let receipts := rows.map fun row => receiptItem P row.1
  match rows.getLast? with
  | none => .ok ⟨generatedAt, since, receipts⟩
  | some last =>
    (receiptSequenceText (some (.str (sequenceText last.2))) false).map fun s =>
      ⟨generatedAt, some (encodeReceiptCursor s), receipts⟩

def listResearchJobReceipts (P : Platform) (since : Option String) (limit : Option Decimal)
    (now : String) : Program ResearchReceiptsPage := do
  let generatedAt ← orFail (normalizedIso P now)
  let limit ← orFail (pageLimit limit)
  let cursor ← orFail (decodeReceiptCursor P since)
  let integrity ← orUnavailable (Script.perform Op.mappingIntegrity)
  if integrity ≠ (0, 0) then failWith .STORE_UNAVAILABLE
  else do
    let rows ← orUnavailable
      (Script.perform (Op.selectReceipts (cursor.map (·.receiptSequence)) limit))
    orFail (receiptsPage P generatedAt since rows)

/-- The limit and the clock of a call. -/
structure PageCall where
  limit : Option Decimal
  now : String

/-- A consumer of the feed: each page is asked for with the cursor of the one before, until a page is
empty. -/
def walk (P : Platform) : List PageCall → Option String → Program (List ResearchReceiptsPage)
  | [], _ => pure []
  | call :: calls, since => do
    let page ← listResearchJobReceipts P since call.limit call.now
    if page.receipts = [] then pure [page]
    else do
      let pages ← walk P calls page.next_since
      pure (page :: pages)

/-- The appends of a writer. -/
def appendEvents : List EventRow → Program (List ResearchReceiptsPage)
  | [] => pure []
  | row :: rows => do
    Script.perform (Op.insertEvent row)
    appendEvents rows

/-! ## The migration -/

/-- The order of the snapshot. -/
def snapshotLe (a b : EventRow) : Prop :=
  a.created_at < b.created_at ∨ a.created_at = b.created_at ∧ a.event_id ≤ b.event_id

instance (a b : EventRow) : Decidable (snapshotLe a b) :=
  inferInstanceAs (Decidable (_ ∨ _ ∧ _))

/-- The rows of events that are numbered in turn. -/
def numberFrom (n : ℕ) : List EventRow → List OrderRow
  | [] => []
  | e :: es => ⟨e.event_id, RECEIPT_ORDER_EPOCH, n⟩ :: numberFrom (n + 1) es

theorem map_numberFrom (n : ℕ) (es : List EventRow) :
    (numberFrom n es).map (·.event_id) = es.map (·.event_id) := by
  induction es generalizing n with
  | nil => rfl
  | cons e es ih => exact congrArg (List.cons e.event_id) (ih (n + 1))

theorem bounds_numberFrom {n : ℕ} {es : List EventRow} :
    ∀ o ∈ numberFrom n es, n ≤ o.receipt_sequence ∧ o.receipt_sequence < n + es.length ∧
      o.epoch = RECEIPT_ORDER_EPOCH := by
  induction es generalizing n with
  | nil => simp [numberFrom]
  | cons e es ih =>
    refine List.forall_mem_cons.2 ⟨⟨le_refl n, ?_, rfl⟩, fun o ho => ?_⟩
    · simp
    · obtain ⟨hlo, hhi, hepoch⟩ := ih o ho
      rw [List.length_cons]
      exact ⟨by omega, by omega, hepoch⟩

theorem ascending_numberFrom (n : ℕ) (es : List EventRow) :
    (numberFrom n es).Pairwise fun a b => a.receipt_sequence < b.receipt_sequence := by
  induction es generalizing n with
  | nil => exact List.Pairwise.nil
  | cons e es ih =>
    exact List.pairwise_cons.2 ⟨fun o ho => (bounds_numberFrom o ho).1, ih (n + 1)⟩

/-- The events in the order of the snapshot. -/
def snapshot (events : List EventRow) : List EventRow :=
  events.insertionSort snapshotLe

theorem nodup_event_ids (events : Table EventRow String [fun r => some r.event_id]) :
    (events.rows.map (·.event_id)).Nodup := by
  refine List.pairwise_map.2 ((events.unique _ (List.mem_singleton_self _)).imp fun h => ?_)
  exact fun heq => h (by simp) (congrArg some heq)

/-- The state of the feed right after the migration. -/
def migrate (events : Table EventRow String [fun r => some r.event_id]) : World where
  events := events
  order :=
    { rows := numberFrom 1 (snapshot events.rows)
      unique := by
        have hids : ((numberFrom 1 (snapshot events.rows)).map (·.event_id)).Nodup := by
          rw [map_numberFrom]
          exact ((List.perm_insertionSort _ _).map _).nodup_iff.2 (nodup_event_ids events)
        intro ix hix
        rcases List.mem_cons.1 hix with rfl | hix
        · exact (List.pairwise_map.1 hids).imp fun h _ heq => h (by simpa using heq)
        · rw [List.mem_singleton.1 hix]
          exact (ascending_numberFrom 1 _).imp fun h _ heq => absurd h (by
            rw [Sum.inr.inj (Option.some.inj heq)]
            exact lt_irrefl _) }
  next_sequence := events.rows.length + 1

/-! ## What the trigger keeps -/

/-- The order holds every event once, in ascending sequences, and the next one is not below them. -/
structure Numbered (w : World) : Prop where
  ascending : w.order.rows.Pairwise fun a b => a.receipt_sequence < b.receipt_sequence
  below : ∀ o ∈ w.order, o.receipt_sequence ≤ w.next_sequence
  positive : ∀ o ∈ w.order, 0 < o.receipt_sequence
  next_positive : 0 < w.next_sequence
  epoch : ∀ o ∈ w.order, o.epoch = RECEIPT_ORDER_EPOCH
  mapped : (w.order.rows.map (·.event_id)).Perm (w.events.rows.map (·.event_id))

theorem numbered_migrate (events : Table EventRow String [fun r => some r.event_id]) :
    Numbered (migrate events) := by
  refine ⟨ascending_numberFrom 1 _, fun o ho => ?_, fun o ho => (bounds_numberFrom o ho).1,
    Nat.succ_pos _, fun o ho => (bounds_numberFrom o ho).2.2, ?_⟩
  · have hlt := (bounds_numberFrom o ho).2.1
    rw [snapshot, List.length_insertionSort] at hlt
    change o.receipt_sequence ≤ events.rows.length + 1
    omega
  · change ((numberFrom 1 (snapshot events.rows)).map (·.event_id)).Perm _
    rw [map_numberFrom]
    exact (List.perm_insertionSort _ _).map _

theorem le_succSequence (n : ℕ) : n ≤ succSequence n := by
  unfold succSequence
  split_ifs
  · exact Nat.le_succ n
  · exact le_refl n

section Insert

variable {w w' : World} {row : EventRow}

/-- What an insertion adds. -/
theorem insertEvent_eq_some (h : w.insertEvent row = some w') :
    w'.events.rows = w.events.rows ++ [row] ∧
      w'.order.rows = w.order.rows ++ [⟨row.event_id, RECEIPT_ORDER_EPOCH, w.next_sequence⟩] ∧
      w'.next_sequence = succSequence w.next_sequence ∧
      (∀ e ∈ w.events, e.event_id ≠ row.event_id) ∧
        ∀ o ∈ w.order, o.receipt_sequence ≠ w.next_sequence := by
  unfold World.insertEvent at h
  cases hevents : w.events.insert? row with
  | none =>
    rw [hevents] at h
    cases h
  | some events =>
    cases horder : w.order.insert? ⟨row.event_id, RECEIPT_ORDER_EPOCH, w.next_sequence⟩ with
    | none =>
      rw [hevents, horder] at h
      cases h
    | some order =>
      rw [hevents, horder] at h
      cases h
      obtain ⟨hrows, hnew⟩ := Table.insert?_eq_some hevents
      obtain ⟨horows, honew⟩ := Table.insert?_eq_some horder
      refine ⟨hrows, horows, rfl, fun e he heq => ?_, fun o ho heq => ?_⟩
      · exact hnew e he ⟨_, List.mem_singleton_self _, by simp, congrArg some heq⟩
      · exact honew o ho ⟨_, List.mem_cons_of_mem _ (List.mem_singleton_self _), by simp,
          congrArg (some ∘ Sum.inr) heq⟩

theorem numbered_insertEvent (hw : Numbered w) (h : w.insertEvent row = some w') : Numbered w' := by
  obtain ⟨hevents, horder, hnext, -, hseq⟩ := insertEvent_eq_some h
  have hlt : ∀ o ∈ w.order, o.receipt_sequence < w.next_sequence := fun o ho =>
    lt_of_le_of_ne (hw.below o ho) (hseq o ho)
  have hmem : ∀ o ∈ w'.order, o ∈ w.order ∨ o = ⟨row.event_id, RECEIPT_ORDER_EPOCH,
      w.next_sequence⟩ := by
    intro o ho
    rw [← Table.mem_rows, horder] at ho
    exact (List.mem_append.1 ho).imp_right List.mem_singleton.1
  refine ⟨?_, fun o ho => ?_, fun o ho => ?_, ?_, fun o ho => ?_, ?_⟩
  · rw [horder]
    exact List.pairwise_append.2 ⟨hw.ascending, List.pairwise_singleton _ _, fun o ho o' ho' => by
      rw [List.mem_singleton.1 ho']
      exact hlt o ho⟩
  · rw [hnext]
    rcases hmem o ho with ho | rfl
    · exact (hw.below o ho).trans (le_succSequence _)
    · exact le_succSequence _
  · rcases hmem o ho with ho | rfl
    · exact hw.positive o ho
    · exact hw.next_positive
  · rw [hnext]
    exact hw.next_positive.trans_le (le_succSequence _)
  · rcases hmem o ho with ho | rfl
    · exact hw.epoch o ho
    · rfl
  · rw [hevents, horder, List.map_append, List.map_append]
    exact hw.mapped.append_right _

end Insert

end QuantproCollector.ResearchReceipts
