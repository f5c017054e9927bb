import QuantproCollector.Lib.Fallible
import QuantproCollector.Lib.JsonCompact
import QuantproCollector.Lib.JsonNormal
import QuantproCollector.LiveUniverse.Presentation
import QuantproCollector.Portfolio.Observers

/-!
# The identity of a live universe record

A validated universe is sorted, hashed and written; what is read is validated again. `ValidPayload` is what
a validation has established of its result: it is enough for the record to be validated as it stands
(`validate_payloadJson`), so reading gives back what was written, and the hash is one of the set of items.

`localeCompare` tells the sort keys of two contract items apart, which is its documented behaviour for
texts of upper-case ASCII letters, digits and colons.
-/

namespace QuantproCollector.LiveUniverse

open Fallible (bind_eq_ok ok_bind)
open Portfolio (Runtime isRecord isHash)

def LIVE_UNIVERSE_KV_KEY : String := "live-portfolio/current"

/-- A key-value namespace. -/
abbrev Kv := String → Option String

/-! ## Writing and reading -/

def itemJson (item : LiveUniverseItem) : Json :=
  .obj [("market", .str item.market.text), ("exchange", .str item.exchange.text), ("code", .str item.code)]

def payloadFields (p : LiveUniversePayload) : List (String × Json) :=
  [("schema_version", .str LIVE_UNIVERSE_SCHEMA), ("generated_at", .str p.generated_at),
    ("source_manifest_hash", .str p.source_manifest_hash), ("active", .arr (p.active.map itemJson)),
    ("content_hash", .str p.content_hash)]

/-- A payload as a value. -/
def payloadJson (p : LiveUniversePayload) : Json := .obj (payloadFields p)

/-- `{ ...validated, received_at }`. -/
def storedJson (U : StoredLiveUniverse) : Json :=
  .obj (payloadFields U.toLiveUniversePayload ++ [("received_at", .str U.received_at)])

def writeLiveUniverse (P : Platform) (R : Runtime) (kv : Kv) (value : Json) (receivedAt : String) :
    Except String (StoredLiveUniverse × Kv) := do
  let validated ← validateLiveUniverse P R value
  let stored : StoredLiveUniverse := ⟨validated, receivedAt⟩
  return (stored, Function.update kv LIVE_UNIVERSE_KV_KEY (some (storedJson stored).stringify))

/-- The stored text as `readLiveUniverse` takes it: absent or empty, or what it parses to. -/
def storedText (kv : Kv) : Option (Option Json) :=
  match kv LIVE_UNIVERSE_KV_KEY with
  | none => none
  | some raw => if raw = "" then none else some (Json.parse raw.toList)

def readLiveUniverseFrom (P : Platform) (R : Runtime) (kv : Kv) : Except String (Option StoredLiveUniverse) :=
  readLiveUniverse P R (storedText kv)

/-! ## Valid payloads -/

/-- An item that `normalizeItem` returns. -/
structure ValidItem (item : LiveUniverseItem) : Prop where
  code : isCodeText item.code = true
  consistent : item.market = .HK ↔ item.exchange = .HK

/-- What a validation has established of its result. -/
structure ValidPayload (P : Platform) (R : Runtime) (p : LiveUniversePayload) : Prop where
  generated : p.generated_at.toList.all isSpace = false
  source : isHash p.source_manifest_hash = true
  content : isHash p.content_hash = true
  length : p.active.length ≤ 200
  items : ∀ item ∈ p.active, ValidItem item
  nodup : (p.active.map liveInstrumentKey).Nodup
  sorted : canonicalActive R p.active = p.active
  hash : computeLiveUniverseHash P R p.active = p.content_hash

section Sorting

variable (R : Runtime)

theorem itemLe_total (a b : LiveUniverseItem) : itemLe R a b ∨ itemLe R b a := by
  unfold itemLe
  rw [R.swap_localeCompare (canonicalKey a) (canonicalKey b)]
  cases R.localeCompare (canonicalKey a) (canonicalKey b) <;> simp [Ordering.swap, Ordering.isLE]

instance : Std.Total (itemLe R) := ⟨itemLe_total R⟩

instance : IsTrans LiveUniverseItem (itemLe R) :=
  ⟨fun a b c => R.trans_localeCompare (canonicalKey a) (canonicalKey b) (canonicalKey c)⟩

theorem pairwise_canonicalActive (active : List LiveUniverseItem) :
    (canonicalActive R active).Pairwise (itemLe R) :=
  List.pairwise_insertionSort (itemLe R) active

theorem perm_canonicalActive (active : List LiveUniverseItem) : (canonicalActive R active).Perm active :=
  List.perm_insertionSort (itemLe R) active

theorem canonicalActive_idem (active : List LiveUniverseItem) :
    canonicalActive R (canonicalActive R active) = canonicalActive R active :=
  (pairwise_canonicalActive R active).insertionSort_eq

theorem computeLiveUniverseHash_canonicalActive (P : Platform) (active : List LiveUniverseItem) :
    computeLiveUniverseHash P R (canonicalActive R active) = computeLiveUniverseHash P R active := by
  rw [computeLiveUniverseHash, canonicalUniverseText, canonicalActive_idem]
  rfl

end Sorting

section Validation

variable {P : Platform} {R : Runtime}

theorem parseCode_ok {value : Option Json} {context code : String} (h : parseCode value context = .ok code) :
    isCodeText code = true := by
  unfold parseCode at h
  split at h
  · split_ifs at h with hcode
    cases h
    exact hcode
  · cases h

/-- The check of the market against the exchange. -/
theorem consistent_iff (market : Market) (exchange : Exchange) :
    (!((decide (market = .HK) && decide (exchange ≠ .HK)) ||
      (decide (market = .CN) && decide (exchange = .HK)))) = true ↔ (market = .HK ↔ exchange = .HK) := by
  cases market <;> cases exchange <;> decide

theorem validItem_of_normalizeItem {value : Json} {index : ℕ} {item : LiveUniverseItem}
    (h : normalizeItem value index = .ok item) : ValidItem item := by
  simp only [normalizeItem, bind_eq_ok] at h
  obtain ⟨-, -, -, -, market, -, exchange, -, ⟨⟩, hconsistent, code, hcode, h⟩ := h
  cases h
  exact ⟨parseCode_ok hcode, (consistent_iff market exchange).1 (require_ok.1 hconsistent)⟩

theorem validItems_of_normalizeItems {values : List Json} {index : ℕ} {items : List LiveUniverseItem}
    (h : normalizeItems index values = .ok items) :
    (∀ item ∈ items, ValidItem item) ∧ items.length = values.length := by
  induction values generalizing index items with
  | nil =>
    cases h
    exact ⟨List.forall_mem_nil _, rfl⟩
  | cons value values ih =>
    simp only [normalizeItems, bind_eq_ok] at h
    obtain ⟨item, hitem, rest, hrest, h⟩ := h
    cases h
    obtain ⟨hvalid, hlength⟩ := ih hrest
    exact ⟨List.forall_mem_cons.2 ⟨validItem_of_normalizeItem hitem, hvalid⟩, congrArg Nat.succ hlength⟩

theorem parseMarket_text (market : Market) (context : String) :
    parseMarket (some (.str market.text)) context = .ok market := by
  cases market <;> rfl

theorem parseExchange_text (exchange : Exchange) (context : String) :
    parseExchange (some (.str exchange.text)) context = .ok exchange := by
  cases exchange <;> rfl

/-- A valid item is read back from its value. -/
theorem normalizeItem_itemJson {item : LiveUniverseItem} (h : ValidItem item) (index : ℕ) :
    normalizeItem (itemJson item) index = .ok item := by
  have hconsistent := (consistent_iff item.market item.exchange).2 h.consistent
  simp only [normalizeItem, bind_eq_ok]
  exact ⟨(), rfl, (), rfl, item.market, parseMarket_text item.market _, item.exchange,
    parseExchange_text item.exchange _, (), require_ok.2 hconsistent, item.code, if_pos h.code, rfl⟩

theorem normalizeItems_itemJson {items : List LiveUniverseItem} (h : ∀ item ∈ items, ValidItem item)
    (index : ℕ) : normalizeItems index (items.map itemJson) = .ok items := by
  induction items generalizing index with
  | nil => rfl
  | cons item items ih =>
    obtain ⟨hitem, hitems⟩ := List.forall_mem_cons.1 h
    rw [List.map_cons, normalizeItems, normalizeItem_itemJson hitem]
    rw [ok_bind, ih hitems]
    rfl

theorem duplicateItem_of_nodup {seen : List String} {items : List LiveUniverseItem}
    (hnodup : (items.map liveInstrumentKey).Nodup)
    (hfresh : ∀ item ∈ items, liveInstrumentKey item ∉ seen) : duplicateItem seen items = none := by
  induction items generalizing seen with
  | nil => rfl
  | cons item items ih =>
    obtain ⟨hitem, hitems⟩ := List.forall_mem_cons.1 hfresh
    obtain ⟨hnew, hnodup⟩ := List.nodup_cons.1 hnodup
    rw [duplicateItem, if_neg (by rwa [List.contains_iff_mem])]
    refine ih hnodup fun x hx hseen => ?_
    obtain heq | hseen := List.mem_cons.1 hseen
    · exact hnew (heq ▸ List.mem_map_of_mem hx)
    · exact hitems x hx hseen

theorem validPayload_of_validate {value : Json} {p : LiveUniversePayload}
    (h : validateLiveUniverse P R value = .ok p) : ValidPayload P R p := by
  simp only [validateLiveUniverse, bind_ok, require_ok] at h
  obtain ⟨-, -, -, hgenerated, hsource, hcontent, -, hlength, h⟩ := h
  obtain ⟨active, hactive, h⟩ := bind_eq_ok.1 h
  obtain ⟨hitems, hcount⟩ := validItems_of_normalizeItems hactive
  split at h
  · cases h
  · rename_i hduplicate
    obtain ⟨hhash, h⟩ := bind_ok.1 h
    cases h
    have hperm := perm_canonicalActive R active
    have hnodup := (nodup_of_duplicateItem hduplicate).1
    refine ⟨?_, ?_, ?_, ?_, ?_, ?_, canonicalActive_idem R active, ?_⟩
    · revert hgenerated
      cases value.get? "generated_at" with
      | none =>
        intro h
        cases h
      | some generated => cases generated <;> simp [isNonBlank, textOf, Json.str?]
    · revert hsource
      cases value.get? "source_manifest_hash" with
      | none =>
        intro h
        cases h
      | some source => cases source <;> simp [isHashText, textOf, Json.str?]
    · revert hcontent
      cases value.get? "content_hash" with
      | none =>
        intro h
        cases h
      | some content => cases content <;> simp [isHashText, textOf, Json.str?]
    · rw [hperm.length_eq, hcount]
      exact of_decide_eq_true hlength
    · exact fun item hitem => hitems item (hperm.mem_iff.1 hitem)
    · exact (hperm.map liveInstrumentKey).nodup_iff.2 hnodup
    · rw [computeLiveUniverseHash_canonicalActive]
      exact of_decide_eq_true (require_ok.1 hhash)

/-- A valid payload is validated as it stands. -/
theorem validate_payloadJson {p : LiveUniversePayload} (h : ValidPayload P R p) :
    validateLiveUniverse P R (payloadJson p) = .ok p := by
  have hitems : elements ((payloadJson p).get? "active") = p.active.map itemJson := rfl
  simp only [validateLiveUniverse, bind_ok, require_ok]
  refine ⟨rfl, rfl, decide_eq_true rfl, ?_, h.source, h.content, rfl, ?_, ?_⟩
  · have hgenerated := h.generated
    exact congrArg Bool.not hgenerated
  · rw [hitems, List.length_map]
    exact decide_eq_true h.length
  · rw [hitems, normalizeItems_itemJson h.items, ok_bind,
      duplicateItem_of_nodup h.nodup fun _ _ => List.not_mem_nil]
    refine bind_ok.2 ⟨require_ok.2 (decide_eq_true h.hash), ?_⟩
    rw [h.sorted]
    rfl

/-- Validating what a validation has returned returns it. -/
theorem validate_validated {value : Json} {p : LiveUniversePayload}
    (h : validateLiveUniverse P R value = .ok p) : validateLiveUniverse P R (payloadJson p) = .ok p :=
  validate_payloadJson (validPayload_of_validate h)

end Validation

/-! ## The record in the store -/

section Store

variable {P : Platform} {R : Runtime}

theorem distinct_itemJson (item : LiveUniverseItem) : (itemJson item).Distinct :=
  ⟨by simp, trivial, trivial, trivial, trivial⟩

theorem distinct_storedJson (U : StoredLiveUniverse) : (storedJson U).Distinct := by
  have hitems : Json.DistinctElements (U.active.map itemJson) := by
    rw [Json.distinctElements_iff]
    intro x hx
    obtain ⟨item, -, rfl⟩ := List.mem_map.1 hx
    exact distinct_itemJson item
  exact ⟨by simp [payloadFields], trivial, trivial, trivial, hitems, trivial, trivial, trivial⟩

theorem withoutReceivedAt_storedJson (U : StoredLiveUniverse) :
    withoutReceivedAt (storedJson U) = payloadJson U.toLiveUniversePayload := by
  simp [withoutReceivedAt, storedJson, payloadJson, payloadFields]

theorem receivedAtOf_storedJson {U : StoredLiveUniverse} (h : U.received_at ≠ "") :
    receivedAtOf (storedJson U) = some U.received_at :=
  if_neg h

/-- What has been written is read. -/
theorem read_written {kv kv' : Kv} {value : Json} {receivedAt : String} {stored : StoredLiveUniverse}
    (hreceived : receivedAt ≠ "") (h : writeLiveUniverse P R kv value receivedAt = .ok (stored, kv')) :
    readLiveUniverseFrom P R kv' = .ok (some stored) := by
  obtain ⟨validated, hvalid, h⟩ := bind_eq_ok.1 h
  cases h
  have hnonempty : (storedJson ⟨validated, receivedAt⟩).stringify ≠ "" := by
    intro hempty
    have hlist := congrArg String.toList hempty
    rw [Json.stringify, String.toList_ofList] at hlist
    cases hlist
  have htext : storedText (Function.update kv LIVE_UNIVERSE_KV_KEY
      (some (storedJson ⟨validated, receivedAt⟩).stringify)) =
        some (some (storedJson ⟨validated, receivedAt⟩)) := by
    rw [storedText, Function.update_self]
    dsimp only
    rw [if_neg hnonempty, Json.stringify, String.toList_ofList, Json.parse_chars (distinct_storedJson _)]
  have hread : receivedAtOf (storedJson ⟨validated, receivedAt⟩) = some receivedAt :=
    receivedAtOf_storedJson hreceived
  rw [readLiveUniverseFrom, htext, readLiveUniverse]
  simp only [readStored, hread, withoutReceivedAt_storedJson, validate_validated hvalid]
  rfl

end Store

/-! ## The hash of a set of items -/

section Hash

variable {P : Platform} {R : Runtime}

/-- `localeCompare` takes the sort keys of two items of the contract for one only where they are one. -/
def DistinguishesKeys (R : Runtime) : Prop :=
  ∀ a b, ValidItem a → ValidItem b → R.localeCompare (canonicalKey a) (canonicalKey b) = .eq →
    canonicalKey a = canonicalKey b

theorem canonicalKey_injective {a b : LiveUniverseItem} (h : canonicalKey a = canonicalKey b) : a = b := by
  obtain ⟨market, exchange, code⟩ := a
  obtain ⟨market', exchange', code'⟩ := b
  have hlist := congrArg String.toList h
  simp only [canonicalKey, String.toList_append] at hlist
  cases market <;> cases market' <;> cases exchange <;> cases exchange' <;>
    simp_all [Market.text, Exchange.text, String.toList_inj]

/-- Two sorted lists of the same valid items are one list. -/
theorem canonicalActive_eq_of_perm (hlocale : DistinguishesKeys R) {active active' : List LiveUniverseItem}
    (hvalid : ∀ item ∈ active, ValidItem item) (h : active.Perm active') :
    canonicalActive R active = canonicalActive R active' := by
  have hperm := (perm_canonicalActive R active).trans (h.trans (perm_canonicalActive R active').symm)
  refine hperm.eq_of_pairwise (fun a b ha hb hab hba => ?_) (pairwise_canonicalActive R active)
    (pairwise_canonicalActive R active')
  have hvalidA := hvalid a ((perm_canonicalActive R active).mem_iff.1 ha)
  have hvalidB := hvalid b (h.mem_iff.2 ((perm_canonicalActive R active').mem_iff.1 hb))
  refine canonicalKey_injective (hlocale a b hvalidA hvalidB ?_)
  unfold itemLe at hab hba
  rw [R.swap_localeCompare (canonicalKey a) (canonicalKey b)] at hba
  revert hab hba
  cases R.localeCompare (canonicalKey a) (canonicalKey b) <;> decide

/-- The text that is hashed names the items in their order. -/
theorem perm_of_canonicalUniverseText {active active' : List LiveUniverseItem}
    (h : canonicalUniverseText R active = canonicalUniverseText R active') : active.Perm active' := by
  have hjson := Json.chars_injective _ _ (String.ofList_injective h)
  simp only [Json.obj.injEq, List.cons.injEq, Prod.mk.injEq, Json.arr.injEq, true_and, and_true] at hjson
  have hsorted : canonicalActive R active = canonicalActive R active' := by
    refine List.map_injective_iff.2 (fun a b hab => ?_) hjson
    obtain ⟨market, exchange, code⟩ := a
    obtain ⟨market', exchange', code'⟩ := b
    cases market <;> cases market' <;> cases exchange <;> cases exchange' <;>
      simp_all [Market.text, Exchange.text]
  exact (perm_canonicalActive R active).symm.trans (hsorted ▸ perm_canonicalActive R active')

/-- A valid payload carries the hash of its items, so two of them carry one hash where they have the same
items, unless the digest takes their two texts for one. -/
theorem content_hash_iff {p p' : LiveUniversePayload} (hlocale : DistinguishesKeys R)
    (hp : ValidPayload P R p) (hp' : ValidPayload P R p')
    (hsha : P.sha256Hex (canonicalUniverseText R p.active) = P.sha256Hex (canonicalUniverseText R p'.active) →
      canonicalUniverseText R p.active = canonicalUniverseText R p'.active) :
    p.content_hash = p'.content_hash ↔ ∀ item, item ∈ p.active ↔ item ∈ p'.active := by
  rw [← hp.hash, ← hp'.hash]
  constructor
  · intro h item
    have hdigest : P.sha256Hex (canonicalUniverseText R p.active) =
        P.sha256Hex (canonicalUniverseText R p'.active) := by
      simpa [computeLiveUniverseHash] using h
    exact (perm_of_canonicalUniverseText (hsha hdigest)).mem_iff
  · intro h
    have hperm : p.active.Perm p'.active :=
      (List.perm_ext_iff_of_nodup hp.nodup.of_map hp'.nodup.of_map).2 h
    rw [computeLiveUniverseHash, computeLiveUniverseHash, canonicalUniverseText, canonicalUniverseText,
      canonicalActive_eq_of_perm hlocale hp.items hperm]

end Hash

theorem distinguishesKeys_compareUnits : DistinguishesKeys Portfolio.exampleRuntime := by
  intro a b _ _ heq
  change Portfolio.compareUnits (canonicalKey a) (canonicalKey b) = .eq at heq
  unfold Portfolio.compareUnits at heq
  split_ifs at heq with hkey
  exact hkey

end QuantproCollector.LiveUniverse
