import QuantproCollector.ResearchReceipts.Feed

/-!
# A walk of the feed

The rows of the feed stand in the order of their sequences, and appends add rows at its end. A page
takes the rows after its cursor, so the pages of a walk follow each other without a gap, whatever is
appended between them (`receipt_walk`).
-/

namespace QuantproCollector.ResearchReceipts

open Relational Async

/-! ## The joined rows -/

section Joined

variable {w w' : World} {row : EventRow}

theorem exists_event (hw : Numbered w) {o : OrderRow} (ho : o ∈ w.order) :
    ∃ e, w.events.find? (fun e => decide (e.event_id = o.event_id)) = some e := by
  have hid : o.event_id ∈ w.events.rows.map (·.event_id) :=
    hw.mapped.mem_iff.1 (List.mem_map_of_mem ho)
  obtain ⟨e, he, heq⟩ := List.mem_map.1 hid
  rw [← Option.isSome_iff_exists]
  exact List.find?_isSome.2 ⟨e, he, decide_eq_true heq⟩

/-- The row of the order with its event. -/
def joinedRow (w : World) (o : OrderRow) : Option (EventRow × ℕ) :=
  (w.events.find? fun e => decide (e.event_id = o.event_id)).map fun e => (e, o.receipt_sequence)

theorem joined_eq (hw : Numbered w) : joined w = w.order.rows.filterMap (joinedRow w) := by
  unfold joined
  rw [List.filter_eq_self.2 fun o ho => decide_eq_true (hw.epoch o ho)]
  rfl

theorem exists_joinedRow (hw : Numbered w) {o : OrderRow} (ho : o ∈ w.order) :
    ∃ e, joinedRow w o = some (e, o.receipt_sequence) ∧ e ∈ w.events ∧ e.event_id = o.event_id := by
  obtain ⟨e, he⟩ := exists_event hw ho
  refine ⟨e, by rw [joinedRow, he]; rfl, List.mem_of_find?_eq_some he, ?_⟩
  simpa using List.find?_some he

theorem map_joined {β : Type} {f : EventRow × ℕ → β} {g : OrderRow → β} (hw : Numbered w)
    (h : ∀ o ∈ w.order, ∀ e ∈ w.events, e.event_id = o.event_id → f (e, o.receipt_sequence) = g o) :
    (joined w).map f = w.order.rows.map g := by
  rw [joined_eq hw, List.map_filterMap]
  have hsome : ∀ o ∈ w.order.rows, (joinedRow w o).map f = some (g o) := by
    intro o ho
    obtain ⟨e, hrow, he, hid⟩ := exists_joinedRow hw ho
    rw [hrow, Option.map_some, h o ho e he hid]
  rw [List.filterMap_congr hsome]
  exact congrFun (List.filterMap_eq_map (f := g)) _

/-- The joined rows ascend. -/
theorem ascending_joined (hw : Numbered w) :
    (joined w).Pairwise fun a b => a.2 < b.2 := by
  have hmap : (joined w).map Prod.snd = w.order.rows.map (·.receipt_sequence) :=
    map_joined hw fun _ _ _ _ _ => rfl
  rw [← List.pairwise_map, hmap, List.pairwise_map]
  exact hw.ascending

/-- The joined rows hold every event once. -/
theorem perm_joined (hw : Numbered w) : ((joined w).map Prod.fst).Perm w.events.rows := by
  have hids : ((joined w).map Prod.fst).map (·.event_id) = w.order.rows.map (·.event_id) := by
    rw [List.map_map]
    exact map_joined hw fun _ _ _ _ hid => hid
  have hnodup : ((joined w).map Prod.fst).Nodup := by
    refine List.Nodup.of_map (·.event_id) ?_
    rw [hids]
    exact hw.mapped.nodup_iff.2 (nodup_event_ids w.events)
  refine (List.perm_ext_iff_of_nodup hnodup ((nodup_event_ids w.events).of_map _)).2 fun e => ?_
  constructor
  · intro he
    obtain ⟨⟨e', n⟩, hrow, rfl⟩ := List.mem_map.1 he
    rw [joined_eq hw] at hrow
    obtain ⟨o, ho, hrow⟩ := List.mem_filterMap.1 hrow
    obtain ⟨e₀, hrow₀, he₀, -⟩ := exists_joinedRow hw ho
    obtain rfl : e₀ = e' := (Prod.mk.inj (Option.some.inj (hrow₀.symm.trans hrow))).1
    exact he₀
  · intro he
    have hid : e.event_id ∈ ((joined w).map Prod.fst).map (·.event_id) := by
      rw [hids]
      exact hw.mapped.mem_iff.2 (List.mem_map_of_mem he)
    obtain ⟨e', he', heq⟩ := List.mem_map.1 hid
    obtain ⟨⟨e'', n⟩, hrow, rfl⟩ := List.mem_map.1 he'
    have hmem : e'' ∈ w.events := by
      rw [joined_eq hw] at hrow
      obtain ⟨o, ho, hrow⟩ := List.mem_filterMap.1 hrow
      obtain ⟨e₀, hrow₀, he₀, -⟩ := exists_joinedRow hw ho
      obtain rfl : e₀ = e'' := (Prod.mk.inj (Option.some.inj (hrow₀.symm.trans hrow))).1
      exact he₀
    obtain rfl : e'' = e := Table.unique_of_mem (List.mem_singleton_self _) hmem he (by simp)
      (congrArg some heq)
    exact he'

/-- An insertion appends its event to the joined rows. -/
theorem joined_insertEvent (hw : Numbered w) (h : w.insertEvent row = some w') :
    joined w' = joined w ++ [(row, w.next_sequence)] := by
  have hw' := numbered_insertEvent hw h
  obtain ⟨hevents, horder, -, hnew, -⟩ := insertEvent_eq_some h
  have hold : ∀ o ∈ w.order.rows, joinedRow w' o = joinedRow w o := by
    intro o ho
    obtain ⟨e, he⟩ := exists_event hw ho
    unfold joinedRow Table.find? at *
    rw [hevents, List.find?_append, he]
    rfl
  have hrow : joinedRow w' ⟨row.event_id, RECEIPT_ORDER_EPOCH, w.next_sequence⟩ =
      some (row, w.next_sequence) := by
    have hnone : w.events.rows.find? (fun e => decide (e.event_id = row.event_id)) = none :=
      List.find?_eq_none.2 fun e he => by simpa using hnew e he
    unfold joinedRow Table.find?
    rw [hevents, List.find?_append, hnone]
    simp
  rw [joined_eq hw', joined_eq hw, horder, List.filterMap_append, List.filterMap_congr hold]
  simp [hrow]

/-- The rows after a cursor, in the order that they are served in. -/
theorem selectReceipts_eq (hw : Numbered w) (cursor : Option String) (limit : ℕ) :
    selectReceipts w cursor limit =
      (Keyset.after Prod.snd (cursor.map sequenceValue) (joined w)).take limit := by
  have hasc : (Keyset.after Prod.snd (cursor.map sequenceValue) (joined w)).Pairwise
      fun a b => a.2 < b.2 := (ascending_joined hw).sublist List.filter_sublist
  unfold selectReceipts
  rw [Keyset.ordered_eq_of_mem (List.pairwise_map.2 (hasc.imp fun h => ne_of_lt h)) hasc
    fun _ => Iff.rfl]

/-- The mapping is whole. -/
theorem mappingIntegrity_eq (hw : Numbered w) : mappingIntegrity w = (0, 0) := by
  unfold mappingIntegrity
  rw [Prod.mk.injEq, List.length_eq_zero_iff, List.length_eq_zero_iff, List.filter_eq_nil_iff,
    List.filter_eq_nil_iff]
  refine ⟨fun e he => ?_, fun o ho => ?_⟩
  · obtain ⟨o, ho, hid⟩ := List.mem_map.1 (hw.mapped.mem_iff.2 (List.mem_map_of_mem he))
    have hany : w.order.rows.any (fun o => decide (o.event_id = e.event_id ∧
        o.epoch = RECEIPT_ORDER_EPOCH)) = true :=
      List.any_eq_true.2 ⟨o, ho, decide_eq_true ⟨hid, hw.epoch o ho⟩⟩
    rw [hany]
    decide
  · obtain ⟨e, he, hid⟩ := List.mem_map.1 (hw.mapped.mem_iff.1 (List.mem_map_of_mem ho))
    have hany : w.events.rows.any (fun e => decide (e.event_id = o.event_id)) = true :=
      List.any_eq_true.2 ⟨e, he, decide_eq_true hid⟩
    rw [hany]
    simp

end Joined

/-! ## Interference -/

/-- Whatever the threads do, the order stays numbered and grows at its end. -/
def Grows (w w' : World) : Prop :=
  Numbered w → Numbered w' ∧ joined w <+: joined w'

theorem Grows.refl (w : World) : Grows w w := fun hw => ⟨hw, List.prefix_refl _⟩

theorem Grows.trans (u v w : World) (huv : Grows u v) (hvw : Grows v w) : Grows u w := by
  intro hu
  obtain ⟨hv, huv⟩ := huv hu
  obtain ⟨hw, hvw⟩ := hvw hv
  exact ⟨hw, huv.trans hvw⟩

theorem grows_perform (f : Fault) (op : Op) (w : World) : Grows w (perform f op w).2 := by
  have heffect : Grows w (effect op w).2 := by
    cases op with
    | insertEvent row =>
      intro hw
      cases hinsert : w.insertEvent row with
      | none =>
        have heq : (effect (.insertEvent row) w).2 = w := by simp only [effect, hinsert]
        rw [heq]
        exact ⟨hw, List.prefix_refl _⟩
      | some w' =>
        have heq : (effect (.insertEvent row) w).2 = w' := by simp only [effect, hinsert]
        rw [heq, joined_insertEvent hw hinsert]
        exact ⟨numbered_insertEvent hw hinsert, List.prefix_append _ _⟩
    | _ => exact Grows.refl w
  cases f
  · exact heffect
  · exact Grows.refl w
  · exact heffect

/-! ## One page -/

/-- The rows after a cursor. -/
def rowsAfter (cursor : Option ReceiptCursor) (w : World) : List (EventRow × ℕ) :=
  Keyset.after Prod.snd (cursor.map fun c => sequenceValue c.receiptSequence) (joined w)

/-- From the start of the feed all rows are served. -/
theorem rowsAfter_start {w : World} (hw : Numbered w) {cursor : Option ReceiptCursor}
    (hstart : cursor = none ∨ cursor = some ⟨"0"⟩) : rowsAfter cursor w = joined w := by
  refine List.filter_eq_self.2 fun row hrow => ?_
  have hpositive : 0 < row.2 := by
    rw [joined_eq hw] at hrow
    obtain ⟨o, ho, hrow⟩ := List.mem_filterMap.1 hrow
    obtain ⟨e, hrow', -⟩ := exists_joinedRow hw ho
    rw [← Option.some.inj (hrow'.symm.trans hrow)]
    exact hw.positive o ho
  have hzero : sequenceValue "0" = 0 := by decide
  rcases hstart with rfl | rfl
  · simp
  · simpa [hzero] using hpositive

theorem digitsValue_digits (n : ℕ) : Json.digitsValue (Decimal.digits n) = n := by
  have h : Nat.ofDigitChars 10 (Nat.toDigits 10 n) 0 = n := Nat.ofDigitChars_ten_toDigits
  rw [Nat.ofDigitChars_eq_foldl] at h
  simp only [Nat.mul_comm 10] at h
  exact h

theorem sequenceValue_sequenceText {n : ℕ} {s : String}
    (h : receiptSequenceText (some (.str (sequenceText n))) false = .ok s) :
    s = sequenceText n ∧ sequenceValue (sequenceText n) = n := by
  unfold receiptSequenceText at h
  dsimp only at h
  split_ifs at h with hvalid
  refine ⟨(Except.ok.inj h).symm, ?_⟩
  unfold sequenceText at hvalid ⊢
  split_ifs at hvalid ⊢ with hn
  · unfold sequenceValue
    rw [String.toList_ofList, digitsValue_digits]
  · exact absurd hvalid.1 (by decide)

/-- A page holds the rows, and its cursor is that of the last one. -/
structure PageOf (P : Platform) (since : Option String) (rows : List (EventRow × ℕ))
    (page : ResearchReceiptsPage) : Prop where
  receipts : page.receipts = rows.map fun row => receiptItem P row.1
  cursor : ∀ last ∈ rows.getLast?,
    decodeReceiptCursor P page.next_since = .ok (some ⟨sequenceText last.2⟩) ∧
      sequenceValue (sequenceText last.2) = last.2

theorem pageOf_receiptsPage {P : Platform} {generatedAt : String} {since : Option String}
    {rows : List (EventRow × ℕ)} {page : ResearchReceiptsPage}
    (h : receiptsPage P generatedAt since rows = .ok page) : PageOf P since rows page := by
  unfold receiptsPage at h
  cases hlast : rows.getLast? with
  | none =>
    rw [hlast] at h
    cases h
    exact ⟨rfl, by simp [hlast]⟩
  | some last =>
    rw [hlast] at h
    cases htext : receiptSequenceText (some (.str (sequenceText last.2))) false with
    | error e =>
      simp only [htext] at h
      cases h
    | ok s =>
      simp only [htext] at h
      cases h
      obtain ⟨rfl, hvalue⟩ := sequenceValue_sequenceText htext
      refine ⟨rfl, ?_⟩
      rw [hlast]
      rintro _ ⟨⟩
      exact ⟨decode_encodeReceiptCursor P htext, hvalue⟩

/-! ## Calls -/

section Calls

variable {α β : Type} {t : ℕ} {tr : List (Call Op World Fault)} {w : World}

/-- What holds where a program answers. -/
def Answers (Q : α → List (Call Op World Fault) → World → Prop) (r : Except Thrown α)
    (tr : List (Call Op World Fault)) (w : World) : Prop :=
  ∀ a, r = .ok a → Q a tr w

variable {Q : β → List (Call Op World Fault) → World → Prop}

theorem ensures_orFail {x : Except ErrorCode α} {f : α → Program β}
    (h : ∀ a, x = .ok a → machine.Ensures t Grows (Answers Q) (f a) tr w) :
    machine.Ensures t Grows (Answers Q) (orFail x >>= f) tr w := by
  cases x with
  | error code =>
    intro w' _ a ha
    cases ha
  | ok a => exact h a rfl

/-- A read, where it answers, has been made without a fault. -/
theorem ensures_read {op : Op} {f : Res op → Program β} (hread : ∀ w, (effect op w).2 = w)
    (h : ∀ w', Grows w w' → ∀ a, (effect op w').1 = .ok a →
      machine.Ensures t Grows (Answers Q) (f a) (⟨t, op, .none, w'⟩ :: tr) w') :
    machine.Ensures t Grows (Answers Q) (orUnavailable (Script.perform op) >>= f) tr w := by
  have herror : ∀ (code : ErrorCode) (tr : List (Call Op World Fault)) (w : World),
      machine.Ensures t Grows (Answers Q) (failWith code : Program β) tr w := by
    intro code tr w w' _ a ha
    cases ha
  intro w' hw' f
  cases f with
  | none =>
    have hworld : (machine.perform .none op w').2 = w' := hread w'
    rw [hworld]
    cases ha : (effect op w').1 with
    | ok a =>
      have hanswer : (machine.perform .none op w').1 = .ok a := ha
      rw [hanswer]
      exact h w' hw' a ha
    | error e =>
      have hanswer : (machine.perform .none op w').1 = .error e := ha
      rw [hanswer]
      exact herror .STORE_UNAVAILABLE _ _
  | before => exact herror .STORE_UNAVAILABLE _ _
  | after => exact herror .STORE_UNAVAILABLE _ _

end Calls

/-- The call that a page was read by. -/
structure ReadBy (P : Platform) (since : Option String) (w : World) (page : ResearchReceiptsPage)
    (k : Call Op World Fault) : Prop where
  select : ∃ cursor n, k.op = .selectReceipts cursor n
  grown : Grows w k.before
  page : ∃ cursor n, decodeReceiptCursor P since = .ok cursor ∧ 0 < n ∧
    PageOf P since ((rowsAfter cursor k.before).take n) page

theorem pageLimit_pos {limit : Option Decimal} {n : ℕ} (h : pageLimit limit = .ok n) : 0 < n := by
  unfold pageLimit at h
  dsimp only at h
  split_ifs at h with hvalid
  have hn := Except.ok.inj h
  omega

/-- A page is read by its last call. -/
theorem ensures_list {P : Platform} {t : ℕ} {tr : List (Call Op World Fault)} {w : World}
    (hw : Numbered w) (since : Option String) (limit : Option Decimal) (now : String) :
    machine.Ensures t Grows
      (Answers fun page tr' w' => ∃ k rest, tr' = k :: rest ∧ ReadBy P since w page k ∧
        Grows k.before w')
      (listResearchJobReceipts P since limit now) tr w := by
  unfold listResearchJobReceipts
  refine ensures_orFail fun generatedAt _ => ?_
  refine ensures_orFail fun n hlimit => ?_
  refine ensures_orFail fun cursor hcursor => ?_
  refine ensures_read (fun _ => rfl) fun w₁ hw₁ integrity hintegrity => ?_
  obtain ⟨hnumbered₁, -⟩ := hw₁ hw
  obtain rfl : mappingIntegrity w₁ = integrity := Except.ok.inj hintegrity
  rw [if_neg (not_not.2 (mappingIntegrity_eq hnumbered₁))]
  refine ensures_read (fun _ => rfl) fun w₂ hw₂ rows hrows => ?_
  obtain ⟨hnumbered₂, -⟩ := hw₂ hnumbered₁
  obtain rfl : selectReceipts w₂ _ n = rows := Except.ok.inj hrows
  rw [selectReceipts_eq hnumbered₂, Option.map_map]
  cases hresult : receiptsPage P generatedAt since
      ((Keyset.after Prod.snd (cursor.map (sequenceValue ∘ (·.receiptSequence))) (joined w₂)).take n) with
  | error code =>
    intro w₃ _ page hpage
    cases hpage
  | ok page =>
    rintro w₃ hw₃ _ ⟨⟩
    exact ⟨_, _, rfl, ⟨⟨_, _, rfl⟩, Grows.trans _ _ _ hw₁ hw₂,
      ⟨cursor, n, hcursor, pageLimit_pos hlimit, pageOf_receiptsPage hresult⟩⟩, hw₃⟩

/-! ## Walks -/

/-- The rows of a page are of the order that its call found, and its cursor decodes to the sequence of
the last one. -/
def CursorOf (P : Platform) (page : ResearchReceiptsPage) (k : Call Op World Fault) : Prop :=
  ∃ rows : List (EventRow × ℕ), ∃ last, rows.Sublist (joined k.before) ∧
    page.receipts = rows.map (fun row => receiptItem P row.1) ∧ rows.getLast? = some last ∧
      decodeReceiptCursor P page.next_since = .ok (some ⟨sequenceText last.2⟩) ∧
        sequenceValue (sequenceText last.2) = last.2

/-- What the pages of a walk hold. -/
structure WalkOf (P : Platform) (since : Option String) (w : World)
    (pages : List ResearchReceiptsPage) (tr : List (Call Op World Fault)) : Prop where
  complete : ∀ last ∈ pages.getLast?, last.receipts = [] → ∃ k rest, tr = k :: rest ∧
    (∃ cursor n, k.op = .selectReceipts cursor n) ∧ Grows w k.before ∧
      ∃ cursor, decodeReceiptCursor P since = .ok cursor ∧
        pages.flatMap (·.receipts) =
          (rowsAfter cursor k.before).map fun row => receiptItem P row.1
  cursors : ∀ page ∈ pages, page.receipts ≠ [] → ∃ k ∈ tr, CursorOf P page k

section ReadBy

variable {P : Platform} {since : Option String} {w : World} {page : ResearchReceiptsPage}
  {k : Call Op World Fault}

/-- An empty page has nothing to serve. -/
theorem ReadBy.rowsAfter_eq_nil (h : ReadBy P since w page k) (hempty : page.receipts = []) :
    ∃ cursor, decodeReceiptCursor P since = .ok cursor ∧ rowsAfter cursor k.before = [] := by
  obtain ⟨cursor, n, hcursor, hn, hpage⟩ := h.page
  rw [hpage.receipts, List.map_eq_nil_iff, List.take_eq_nil_iff] at hempty
  exact ⟨cursor, hcursor, hempty.resolve_left (by omega)⟩

theorem ReadBy.cursorOf (h : ReadBy P since w page k) (hne : page.receipts ≠ []) :
    CursorOf P page k := by
  obtain ⟨cursor, n, -, -, hpage⟩ := h.page
  rw [hpage.receipts, Ne, List.map_eq_nil_iff, ← List.getLast?_eq_none_iff] at hne
  obtain ⟨last, hlast⟩ := Option.ne_none_iff_exists'.1 hne
  obtain ⟨hdecode, hvalue⟩ := hpage.cursor last hlast
  exact ⟨_, last, (List.take_sublist _ _).trans List.filter_sublist, hpage.receipts, hlast, hdecode,
    hvalue⟩

/-- What a page and the rest of its walk serve. -/
theorem ReadBy.append (h : ReadBy P since w page k) (hne : page.receipts ≠ []) {w' : World}
    (hw' : Numbered w') (hpre : joined k.before <+: joined w') :
    ∃ cursor next, decodeReceiptCursor P since = .ok cursor ∧
      decodeReceiptCursor P page.next_since = .ok next ∧
        (rowsAfter cursor w').map (fun row => receiptItem P row.1) =
          page.receipts ++ (rowsAfter next w').map fun row => receiptItem P row.1 := by
  obtain ⟨cursor, n, hcursor, -, hpage⟩ := h.page
  have hne' := hne
  rw [hpage.receipts, Ne, List.map_eq_nil_iff, ← List.getLast?_eq_none_iff] at hne'
  obtain ⟨last, hlast⟩ := Option.ne_none_iff_exists'.1 hne'
  obtain ⟨hdecode, hvalue⟩ := hpage.cursor last hlast
  refine ⟨cursor, _, hcursor, hdecode, ?_⟩
  unfold rowsAfter at hpage hlast ⊢
  rw [Keyset.after_eq_page_append (ascending_joined hw') hpre hlast, List.map_append,
    hpage.receipts, Option.map_some, hvalue]

end ReadBy

theorem numbered_of_grows {w w' : World} (hw : Numbered w) (h : Grows w w') : Numbered w' :=
  (h hw).1

/-- The pages of a walk follow each other: by induction on the calls, the pages from each cursor hold
the rows after it. -/
theorem ensures_walk {P : Platform} {t : ℕ} {tr : List (Call Op World Fault)} {w : World}
    (hw : Numbered w) (calls : List PageCall) (since : Option String) :
    machine.Ensures t Grows (Answers fun pages tr' _ => WalkOf P since w pages tr')
      (walk P calls since) tr w := by
  induction calls generalizing since tr w with
  | nil =>
    rintro w' _ _ ⟨⟩
    exact ⟨by simp, by simp⟩
  | cons call calls ih =>
    unfold walk
    refine Machine.Ensures.bind Grows.refl
      ((ensures_list hw since call.limit call.now).mono fun r tr' w' hr => ?_)
    cases r with
    | error e =>
      intro pages hpages
      cases hpages
    | ok page =>
      obtain ⟨k, rest, rfl, hk, hgrown⟩ := hr page rfl
      dsimp only
      by_cases hempty : page.receipts = []
      · rw [if_pos hempty]
        rintro v _ _ ⟨⟩
        refine ⟨?_, ?_⟩
        · rintro _ ⟨⟩ -
          obtain ⟨cursor, hcursor, hnil⟩ := hk.rowsAfter_eq_nil hempty
          refine ⟨k, rest, rfl, hk.select, hk.grown, cursor, hcursor, ?_⟩
          simp [hnil, hempty]
        · intro page' hpage' hne
          rw [List.mem_singleton.1 hpage'] at hne
          exact absurd hempty hne
      · rw [if_neg hempty]
        have hw' : Numbered w' := numbered_of_grows (numbered_of_grows hw hk.grown) hgrown
        have hcall : ∃ k' ∈ k :: rest, CursorOf P page k' :=
          ⟨k, List.mem_cons_self, hk.cursorOf hempty⟩
        refine Machine.Ensures.bind Grows.refl
          (((ih hw' page.next_since).and (Machine.ensures_of_call hcall _ _)).mono
            fun r tr'' w'' hr => ?_)
        obtain ⟨hwalk, hpage⟩ := hr
        cases r with
        | error e =>
          intro pages hpages
          cases hpages
        | ok pages =>
          have hpages := hwalk pages rfl
          rintro v _ _ ⟨⟩
          refine ⟨fun last hlast hlastEmpty => ?_, List.forall_mem_cons.2
            ⟨fun _ => hpage, hpages.cursors⟩⟩
          have hlast' : last ∈ pages.getLast? := by
            cases pages with
            | nil =>
              obtain rfl : page = last := by simpa using hlast
              exact absurd hlastEmpty hempty
            | cons p ps => simpa using hlast
          obtain ⟨k', rest', rfl, hselect, hgrown', next, hnext, hserved⟩ :=
            hpages.complete last hlast' hlastEmpty
          have hgrows : Grows k.before k'.before := Grows.trans _ _ _ hgrown hgrown'
          obtain ⟨hk', hpre⟩ := hgrows (numbered_of_grows hw hk.grown)
          obtain ⟨cursor, next', hcursor, hnext', hrows⟩ := hk.append hempty hk' hpre
          obtain rfl : next' = next := Except.ok.inj (hnext'.symm.trans hnext)
          refine ⟨k', rest', rfl, hselect, Grows.trans _ _ _ hk.grown hgrows, cursor, hcursor, ?_⟩
          rw [List.flatMap_cons, hserved, hrows]

/-! ## The feed -/

/-- What a thread does. -/
inductive Task where
  | walk (calls : List PageCall) (start : Option String)
  | append (rows : List EventRow)

def threads (P : Platform) (tasks : List Task) (t : ℕ) : Program (List ResearchReceiptsPage) :=
  match tasks[t]? with
  | some (.walk calls start) => walk P calls start
  | some (.append rows) => appendEvents rows
  | none => pure []

/-- **The feed is gap-free, and serves every event once.** In every run of walks and appends after the
migration: a walk from no cursor or from one of an older order, with whatever limits, that has come to
an empty page has served the events that the last of its calls found, each of them once and in the
order of their sequences; and the cursor of every page that is not empty decodes to the sequence of
its last event. -/
theorem receipt_walk (P : Platform) (events : Table EventRow String [fun r => some r.event_id])
    (tasks : List Task) (es : List (ℕ × Fault)) {t : ℕ} {calls : List PageCall}
    {start : Option String} (htask : tasks[t]? = some (.walk calls start))
    (hstart : ∀ v ∈ start, startsWith v (RECEIPT_CURSOR_V3 ++ ".") = false) :
    let reached := machine.exec (Config.start (migrate events) (threads P tasks)) es
    ∀ pages, reached.result? t = some (.ok pages) →
      (∀ last ∈ pages.getLast?, last.receipts = [] → ∃ k rest, reached.trace t = k :: rest ∧
        (∃ cursor n, k.op = .selectReceipts cursor n) ∧
          pages.flatMap (·.receipts) = (joined k.before).map (fun row => receiptItem P row.1) ∧
            ((joined k.before).map Prod.fst).Perm k.before.events.rows ∧
              (joined k.before).Pairwise fun a b => a.2 < b.2) ∧
      ∀ page ∈ pages, page.receipts ≠ [] → ∃ k ∈ reached.trace t, CursorOf P page k := by
  intro reached pages hresult
  have hthread : threads P tasks t = walk P calls start := by
    unfold threads
    rw [htask]
  have hens : machine.Ensures t Grows
      (Answers fun pages tr' _ => WalkOf P start (migrate events) pages tr')
      (threads P tasks t) [] (migrate events) := by
    rw [hthread]
    exact ensures_walk (numbered_migrate events) calls start
  have hall : ∀ u, (threads P tasks u).Issues fun _ => True :=
    fun u => Script.issues_of_forall (fun _ => trivial) _
  have hwalk : WalkOf P start (migrate events) pages (reached.trace t) :=
    Machine.halted_exec (S := fun _ _ => True) Grows.refl Grows.trans
      (fun _ f op w _ => grows_perform f op w) hall hens es (Config.result?_eq_some.1 hresult)
      pages rfl
  refine ⟨fun last hlast hempty => ?_, hwalk.cursors⟩
  obtain ⟨k, rest, htrace, hselect, hgrown, cursor, hcursor, hserved⟩ :=
    hwalk.complete last hlast hempty
  have hk := numbered_of_grows (numbered_migrate events) hgrown
  rw [rowsAfter_start hk (decode_legacy hstart hcursor)] at hserved
  exact ⟨k, rest, htrace, hselect, hserved, perm_joined hk, ascending_joined hk⟩

/-! ## A walk with an append between its pages -/

def examplePlatform : Platform := ⟨id, some, fun _ _ => none, fun _ => none⟩

def exampleEvent (event_id : String) : EventRow where
  event_id := event_id
  job_id := "j1"
  event_type := "CLAIMED"
  actor := "a"
  proposal_id := none
  origin := none
  detail_json := "null"
  request_id := event_id
  created_at := "2026-09-15"

def exampleEvents : Table EventRow String [fun r => some r.event_id] :=
  ⟨[exampleEvent "b"], fun _ _ => List.pairwise_singleton _ _⟩

def exampleTasks : List Task :=
  [.walk [⟨some (.ofInt 1), "t"⟩, ⟨none, "t"⟩, ⟨none, "t"⟩] none, .append [exampleEvent "a"]]

/-- One page, an append, and the pages that are left. -/
def exampleSteps : List (ℕ × Fault) :=
  [(0, .none), (0, .none), (1, .none), (0, .none), (0, .none), (0, .none), (0, .none)]

theorem receipt_walk_appended :
    let reached := machine.exec
      (Config.start (migrate exampleEvents) (threads examplePlatform exampleTasks)) exampleSteps
    ∀ pages, reached.result? 0 = some (.ok pages) →
      (∀ last ∈ pages.getLast?, last.receipts = [] → ∃ k rest, reached.trace 0 = k :: rest ∧
        (∃ cursor n, k.op = .selectReceipts cursor n) ∧
          pages.flatMap (·.receipts) =
            (joined k.before).map (fun row => receiptItem examplePlatform row.1) ∧
            ((joined k.before).map Prod.fst).Perm k.before.events.rows ∧
              (joined k.before).Pairwise fun a b => a.2 < b.2) ∧
      ∀ page ∈ pages, page.receipts ≠ [] →
        ∃ k ∈ reached.trace 0, CursorOf examplePlatform page k :=
  receipt_walk examplePlatform exampleEvents exampleTasks exampleSteps rfl (by simp)

/-- The walk goes on to an empty page, and serves the event that was appended meanwhile. -/
example : ((machine.exec (Config.start (migrate exampleEvents)
      (threads examplePlatform exampleTasks)) exampleSteps).result? 0).map
        (·.map (·.map fun page => page.receipts.map (·.request_id))) =
      some (.ok [["b"], ["a"], []]) := by
  decide +kernel

end QuantproCollector.ResearchReceipts
