import QuantproCollector.Lib.Base64
import QuantproCollector.Lib.JsonFlat
import QuantproCollector.Platform

/-!
# Receipt cursors

A cursor of the receipt feed is a versioned text: `rcpt3` carries a position of the present order of
the receipts, and everything older is checked and starts the feed from the beginning.
-/

namespace QuantproCollector.ResearchReceipts

inductive ErrorCode where
  | FILTERED
  | STORE_UNAVAILABLE
  | INTEGRITY_FAILED
deriving DecidableEq

def RECEIPT_CURSOR_V1 : String := "rcpt1"
def RECEIPT_CURSOR_V2 : String := "rcpt2"
def RECEIPT_CURSOR_V3 : String := "rcpt3"
def RECEIPT_ORDER_EPOCH : String := "receipt-order-v3-2026-09-15"
def MAX_D1_RECEIPT_SEQUENCE : ℕ := 9223372036854775807

/-- `/^[1-9][0-9]{0,18}$/`, and `0` where it is allowed. -/
def isSequenceText (allowZero : Bool) (s : String) : Bool :=
  match s.toList with
  | [] => false
  | c :: cs =>
    ('1' ≤ c && c ≤ '9' && cs.all Char.isDigit && decide (cs.length ≤ 18)) ||
      (allowZero && c = '0' && cs.isEmpty)

/-- The number that a text of digits stands for. -/
def sequenceValue (s : String) : ℕ :=
  Json.digitsValue s.toList

def receiptSequenceText (value : Option Json) (allowZero : Bool) : Except ErrorCode String :=
  match value with
  | some (.str s) =>
    if isSequenceText allowZero s = true ∧ sequenceValue s ≤ MAX_D1_RECEIPT_SEQUENCE then .ok s
    else .error .INTEGRITY_FAILED
  | _ => .error .INTEGRITY_FAILED

/-- `btoa`, of characters below `U+0100`. -/
def btoa (s : List Char) : List Char :=
  Base64.encode (s.map Char.toNat)

def atob (s : List Char) : Option (List Char) :=
  (Base64.decode s).map (·.map Char.ofNat)

def cursorJson (receiptSequence : String) : Json :=
  .obj [("v", .num (.ofInt 3)), ("e", .str RECEIPT_ORDER_EPOCH), ("s", .str receiptSequence)]

def encodeReceiptCursor (receiptSequence : String) : String :=
  String.ofList ((RECEIPT_CURSOR_V3 ++ ".").toList ++ btoa (cursorJson receiptSequence).chars)

structure ReceiptCursor where
  receiptSequence : String
deriving DecidableEq

/-- `value.startsWith(start)`. -/
def startsWith (value start : String) : Bool :=
  start.toList.isPrefixOf value.toList

/-- The value behind the version of a cursor: `JSON.parse(atob(value.slice(version.length + 1)))`. -/
def cursorPayload (version value : String) : Option Json :=
  (atob (value.toList.drop (version ++ ".").toList.length)).bind Json.parse

/-- `normalizedIso`. -/
def normalizedIso (P : Platform) (value : String) : Except ErrorCode String :=
  (P.isoOfText value).elim (.error .INTEGRITY_FAILED) .ok

/-- The start of the feed, for a cursor of an older order that is well formed. -/
def restart {α : Type} (checked : Except ErrorCode α) : Except ErrorCode (Option ReceiptCursor) :=
  checked.map fun _ => some ⟨"0"⟩

def decodeReceiptCursor (P : Platform) (value : Option String) :
    Except ErrorCode (Option ReceiptCursor) :=
  match value with
  | none => .ok none
  | some value =>
    if value = "" then .ok none
    else if startsWith value (RECEIPT_CURSOR_V3 ++ ".") then
      match cursorPayload RECEIPT_CURSOR_V3 value with
      | some (.obj fields) =>
        let parsed := Json.obj fields
        if parsed.get? "v" ≠ some (.num (.ofInt 3)) ∨
            parsed.get? "e" ≠ some (.str RECEIPT_ORDER_EPOCH) then .error .INTEGRITY_FAILED
        else (receiptSequenceText (parsed.get? "s") true).map fun s => some ⟨s⟩
      | _ => .error .INTEGRITY_FAILED
    else if startsWith value (RECEIPT_CURSOR_V2 ++ ".") then
      match cursorPayload RECEIPT_CURSOR_V2 value with
      | some (.obj fields) =>
        let parsed := Json.obj fields
        if parsed.get? "v" ≠ some (.num (.ofInt 2)) then .error .INTEGRITY_FAILED
        else restart (receiptSequenceText (parsed.get? "s") false)
      | _ => .error .INTEGRITY_FAILED
    else if startsWith value (RECEIPT_CURSOR_V1 ++ ".") then
      match cursorPayload RECEIPT_CURSOR_V1 value with
      | some (.obj fields) =>
        let parsed := Json.obj fields
        match parsed.get? "v", parsed.get? "t" with
        | some (.num x), some (.str t) =>
          if x = .ofInt 1 then restart (normalizedIso P t) else .error .INTEGRITY_FAILED
        | _, _ => .error .INTEGRITY_FAILED
      | _ => .error .INTEGRITY_FAILED
    else if startsWith value "rcpt" then .error .INTEGRITY_FAILED
    else restart (normalizedIso P value)

/-! ## Reading a cursor back -/

theorem atob_btoa {s : List Char} (h : ∀ c ∈ s, c.toNat < 256) : atob (btoa s) = some s := by
  have hbytes : ∀ b ∈ s.map Char.toNat, b < 256 := by
    intro b hb
    obtain ⟨c, hc, rfl⟩ := List.mem_map.1 hb
    exact h c hc
  unfold atob btoa
  rw [Base64.decode_encode hbytes, Option.map_some, List.map_map]
  exact congrArg some (List.map_id'' (fun c => Char.ofNat_toNat c) s)

/-- The characters of a sequence are digits. -/
theorem isDigit_of_isSequenceText {allowZero : Bool} {s : String}
    (h : isSequenceText allowZero s = true) : ∀ c ∈ s.toList, c.isDigit = true := by
  unfold isSequenceText at h
  cases hs : s.toList with
  | nil => simp
  | cons c cs =>
    rw [hs] at h
    simp only [Bool.or_eq_true, Bool.and_eq_true, decide_eq_true_eq, List.all_eq_true,
      List.isEmpty_iff] at h
    intro d hd
    rcases h with ⟨⟨⟨h1, h9⟩, hall⟩, -⟩ | ⟨⟨-, rfl⟩, rfl⟩
    · rcases List.mem_cons.1 hd with rfl | hd
      · have hzero : (48 : UInt32) ≤ d.val := UInt32.le_trans (by decide : (48 : UInt32) ≤ 49) h1
        have hnine : d.val ≤ (57 : UInt32) := h9
        simp [Char.isDigit, hzero, hnine]
      · exact hall d hd
    · rw [List.mem_singleton.1 hd]
      rfl

theorem toNat_of_isDigit {c : Char} (h : c.isDigit = true) : 0x30 ≤ c.toNat ∧ c.toNat < 0x3A := by
  have h' : c.val ≥ 48 ∧ c.val ≤ 57 := by simpa [Char.isDigit] using h
  have hlo : (48 : UInt32).toNat ≤ c.val.toNat := h'.1
  have hhi : c.val.toNat ≤ (57 : UInt32).toNat := h'.2
  have h48 : (48 : UInt32).toNat = 0x30 := rfl
  have h57 : (57 : UInt32).toNat = 0x39 := rfl
  change 0x30 ≤ c.val.toNat ∧ c.val.toNat < 0x3A
  omega

theorem escape_of_digit {c : Char} (hlo : 0x30 ≤ c.toNat) (hhi : c.toNat < 0x3A) :
    Json.escape c = [c] := by
  obtain ⟨n, hn, rfl⟩ : ∃ n, n < 0x3A ∧ c = Char.ofNat n := ⟨c.toNat, hhi, (Char.ofNat_toNat c).symm⟩
  have hall : ∀ n < 0x3A, 0x30 ≤ (Char.ofNat n).toNat → Json.escape (Char.ofNat n) = [Char.ofNat n] := by
    decide
  exact hall n hn hlo

theorem chars_cursorJson (s : String) : (cursorJson s).chars =
    '\x7b' :: (Json.quote "v" ++ ':' :: (['3'] ++ ',' ::
      (Json.quote "e" ++ ':' :: (Json.quote RECEIPT_ORDER_EPOCH ++ ',' ::
        (Json.quote "s" ++ ':' :: (Json.quote s ++ '\x7d' :: [])))))) := by
  have hthree : (Json.num (.ofInt 3)).chars = ['3'] := by decide
  simp only [cursorJson, Json.chars, Json.members] at hthree ⊢
  rw [hthree]
  simp only [List.cons_append, List.append_assoc, List.nil_append]

/-- The text of a cursor's value is read back. -/
theorem parse_cursorJson {s : String} (h : Json.Plain s) :
    Json.parse (cursorJson s).chars = some (cursorJson s) := by
  have hchars := chars_cursorJson s
  have hlength : 5 ≤ (cursorJson s).chars.length := by
    rw [hchars]
    simp only [List.length_cons, List.length_append]
    omega
  obtain ⟨n, hn⟩ := Nat.exists_eq_add_of_le' hlength
  have hthree : ∀ fuel rest, Json.readValue (fuel + 1) (['3'] ++ ',' :: rest) =
      some (.num (.ofInt 3), ',' :: rest) := fun _ _ => rfl
  have hmembers : Json.readMembers (n + 5) [] (Json.quote "v" ++ ':' :: (['3'] ++ ',' ::
      (Json.quote "e" ++ ':' :: (Json.quote RECEIPT_ORDER_EPOCH ++ ',' ::
        (Json.quote "s" ++ ':' :: (Json.quote s ++ '\x7d' :: [])))))) =
      some ([("v", .num (.ofInt 3)), ("e", .str RECEIPT_ORDER_EPOCH), ("s", .str s)], []) := by
    rw [Json.readMembers_cons (by decide) [] (hthree _ _),
      Json.readMembers_cons (by decide) _ (Json.readValue_quote (by decide) _ _),
      Json.readMembers_last (by decide) _ (Json.readValue_quote h _ _)]
    rfl
  unfold Json.parse
  rw [hn, hchars, Json.readValue_members hmembers]
  rfl

theorem ascii_cursorJson {s : String} (h : ∀ c ∈ s.toList, c.isDigit = true) :
    ∀ c ∈ (cursorJson s).chars, c.toNat < 256 := by
  have hfixed : ∀ c ∈ '\x7b' :: (Json.quote "v" ++ ':' :: (['3'] ++ ',' :: (Json.quote "e" ++ ':' ::
      (Json.quote RECEIPT_ORDER_EPOCH ++ ',' :: (Json.quote "s" ++ [':']))))), c.toNat < 256 := by
    have hall : (('\x7b' :: (Json.quote "v" ++ ':' :: (['3'] ++ ',' :: (Json.quote "e" ++ ':' ::
        (Json.quote RECEIPT_ORDER_EPOCH ++ ',' :: (Json.quote "s" ++ [':'])))))).all
          fun c => decide (c.toNat < 256)) = true := by
      decide
    exact fun c hc => of_decide_eq_true (List.all_eq_true.1 hall c hc)
  have hquote : ∀ c ∈ Json.quote s, c.toNat < 256 := by
    intro c hc
    rcases List.mem_append.1 hc with hc | hc
    · rcases List.mem_cons.1 hc with rfl | hc
      · decide
      · obtain ⟨d, hd, hc⟩ := List.mem_flatMap.1 hc
        obtain ⟨hlo, hhi⟩ := toNat_of_isDigit (h d hd)
        have hescape : Json.escape d = [d] := escape_of_digit hlo hhi
        rw [hescape] at hc
        rw [List.mem_singleton.1 hc]
        omega
    · rw [List.mem_singleton.1 hc]
      decide
  have hsplit : (cursorJson s).chars = ('\x7b' :: (Json.quote "v" ++ ':' :: (['3'] ++ ',' ::
      (Json.quote "e" ++ ':' :: (Json.quote RECEIPT_ORDER_EPOCH ++ ',' ::
        (Json.quote "s" ++ [':'])))))) ++ (Json.quote s ++ ['\x7d']) := by
    rw [chars_cursorJson]
    simp only [List.cons_append, List.append_assoc, List.nil_append]
  intro c hc
  rw [hsplit] at hc
  rcases List.mem_append.1 hc with hc | hc
  · exact hfixed c hc
  rcases List.mem_append.1 hc with hc | hc
  · exact hquote c hc
  · rw [List.mem_singleton.1 hc]
    decide

/-- **A cursor is read back**: what the feed hands out decodes to the sequence it was made from. -/
theorem decode_encodeReceiptCursor (P : Platform) {s : String}
    (h : receiptSequenceText (some (.str s)) false = .ok s) :
    decodeReceiptCursor P (some (encodeReceiptCursor s)) = .ok (some ⟨s⟩) := by
  obtain ⟨htext, hmax⟩ : isSequenceText false s = true ∧
      sequenceValue s ≤ MAX_D1_RECEIPT_SEQUENCE := by
    unfold receiptSequenceText at h
    dsimp only at h
    split_ifs at h with hs
    exact hs
  have hzero : isSequenceText true s = true := by
    unfold isSequenceText at htext ⊢
    split at htext
    · cases htext
    · simp only [Bool.false_and, Bool.or_false] at htext
      rw [htext]
      rfl
  have hplain : Json.Plain s := fun c hc => by
    have := toNat_of_isDigit (isDigit_of_isSequenceText htext c hc)
    omega
  have hascii := ascii_cursorJson (isDigit_of_isSequenceText htext)
  have hlist : (encodeReceiptCursor s).toList =
      (RECEIPT_CURSOR_V3 ++ ".").toList ++ btoa (cursorJson s).chars := String.toList_ofList
  have hne : encodeReceiptCursor s ≠ "" := by
    intro heq
    rw [heq] at hlist
    have := congrArg List.length hlist
    rw [List.length_append] at this
    exact absurd this (by rw [show (RECEIPT_CURSOR_V3 ++ ".").toList.length = 6 from rfl]; simp; omega)
  have hstarts : startsWith (encodeReceiptCursor s) (RECEIPT_CURSOR_V3 ++ ".") = true := by
    unfold startsWith
    rw [hlist]
    exact List.isPrefixOf_iff_prefix.2 (List.prefix_append _ _)
  have hpayload : cursorPayload RECEIPT_CURSOR_V3 (encodeReceiptCursor s) = some (cursorJson s) := by
    unfold cursorPayload
    rw [hlist, List.drop_left, atob_btoa hascii]
    exact parse_cursorJson hplain
  unfold decodeReceiptCursor
  dsimp only
  rw [if_neg hne, if_pos hstarts, hpayload]
  have hget : (cursorJson s).get? "s" = some (.str s) := rfl
  have hsequence : receiptSequenceText (some (.str s)) true = .ok s := if_pos ⟨hzero, hmax⟩
  change (if _ ∨ _ then _ else (receiptSequenceText ((cursorJson s).get? "s") true).map _) = _
  rw [hget, hsequence, if_neg (by rintro (h | h) <;> exact h rfl)]
  rfl

/-- A cursor of an older order that is accepted starts the feed from the beginning. -/
theorem decode_legacy {P : Platform} {value : Option String} {cursor : Option ReceiptCursor}
    (hlegacy : ∀ v ∈ value, startsWith v (RECEIPT_CURSOR_V3 ++ ".") = false)
    (h : decodeReceiptCursor P value = .ok cursor) : cursor = none ∨ cursor = some ⟨"0"⟩ := by
  have hrestart : ∀ {α : Type} (checked : Except ErrorCode α), restart checked = .ok cursor →
      cursor = some ⟨"0"⟩ := by
    intro α checked hc
    cases checked with
    | error e => cases hc
    | ok a => exact (Except.ok.inj hc).symm
  cases value with
  | none => exact .inl (Except.ok.inj h).symm
  | some v =>
    unfold decodeReceiptCursor at h
    dsimp only at h
    by_cases hempty : v = ""
    · rw [if_pos hempty] at h
      exact .inl (Except.ok.inj h).symm
    rw [if_neg hempty, if_neg (by simp [hlegacy v rfl])] at h
    split at h
    · split at h
      · split at h
        · cases h
        · exact .inr (hrestart _ h)
      · cases h
    · split at h
      · split at h
        · split at h
          · split at h
            · exact .inr (hrestart _ h)
            · cases h
          · cases h
        · cases h
      · split at h
        · cases h
        · exact .inr (hrestart _ h)

end QuantproCollector.ResearchReceipts
