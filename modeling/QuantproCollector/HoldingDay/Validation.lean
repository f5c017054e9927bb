import QuantproCollector.Lib.Fallible
import QuantproCollector.Lib.JsonText
import Mathlib.Data.List.Sort
import Mathlib.Data.String.Basic

/-!
# Validation of a holding day

`validate_day`: the comments of a day are read as checkpoints, one for each scheduled slot, and each rule
is checked in a loop of its own over the slots, against what was taken from 09:10 or from the slots before.

The reading of a block, the texts of values and their equality are Python's; what the checks rely on of
them is a field of `Python`.
-/

namespace QuantproCollector.HoldingDay

/-- What is taken from Python: `json.loads`, `str(value)` and `==` on the values that `loads` makes. -/
structure Python where
  loads : List Char → Option Json
  str : Json → String
  eq : Json → Json → Bool
  eq_symm : ∀ a b, eq a b = true → eq b a = true
  eq_trans : ∀ a b c, eq a b = true → eq b c = true → eq a c = true

variable (P : Python)

/-- What ends the validation early: its own error, or another that Python raises. -/
inductive Failure where
  | validation (message : String)
  | raised
deriving DecidableEq

/-- `if not ok: raise DayValidationError(message)`. -/
def require (ok : Prop) [Decidable ok] (message : String) : Except Failure Unit :=
  if ok then .ok () else .error (.validation message)

def SLOTS : List String := ["09:10", "09:50", "10:50", "11:50", "13:50", "14:50", "16:45"]

def SCHEMAS : List String := ["premarket_plan_batch_v1", "market_observation_batch_v1"]

structure Checkpoint where
  comment_id : String
  created_at : String
  payload : Json
deriving DecidableEq

/-! ## Comments -/

/-- What `\\s` matches. -/
def isPySpace (c : Char) : Bool :=
  (decide (0x9 ≤ c.toNat) && decide (c.toNat ≤ 0xD)) || (decide (0x1C ≤ c.toNat) && decide (c.toNat ≤ 0x20)) ||
    [0x85, 0xA0, 0x1680, 0x2028, 0x2029, 0x202F, 0x205F, 0x3000].contains c.toNat ||
    (decide (0x2000 ≤ c.toNat) && decide (c.toNat ≤ 0x200A))

def openFence : List Char := ['\x60', '\x60', '\x60', 'j', 's', 'o', 'n']

def closeFence : List Char := ['\x60', '\x60', '\x60']

/-- `.*?\})\\s*` and the closing fence: up to the first brace that the fence follows. -/
def closeBlock : List Char → Option (List Char)
  | [] => none
  | c :: rest =>
    if c = '}' && closeFence.isPrefixOf (rest.dropWhile isPySpace) then some [c]
    else (closeBlock rest).map (c :: ·)

/-- The first match of `JSON_BLOCK`. -/
def jsonBlock : List Char → Option (List Char)
  | [] => none
  | c :: rest =>
    let here :=
      if openFence.isPrefixOf (c :: rest) then
        match ((c :: rest).drop openFence.length).dropWhile isPySpace with
        | '{' :: body => (closeBlock body).map ('{' :: ·)
        | _ => none
      else none
    match here with
    | some block => some block
    | none => jsonBlock rest

/-- `bool(value)`. -/
def truthy : Json → Bool
  | .null => false
  | .bool b => b
  | .num x => decide (x ≠ Decimal.ofInt 0)
  | .str s => decide (s ≠ "")
  | .arr xs => !xs.isEmpty
  | .obj fields => !fields.isEmpty

/-- `value.get(key)` of an object, with `None` for what is not there. -/
def field (v : Json) (key : String) : Json := (v.get? key).getD .null

/-- The key has this text. -/
def hasText (v : Json) (key text : String) : Bool :=
  match v.get? key with
  | some (.str s) => decide (s = text)
  | _ => false

def payloadFromText (body : List Char) : Except Failure (Option Json) :=
  match jsonBlock body with
  | none => .ok none
  | some block =>
    match P.loads block with
    | some (.obj fields) =>
      match field (.obj fields) "schema_version" with
      -- a list and an object are unhashable
      | .arr _ | .obj _ => .error .raised
      | .str version =>
        .ok (if SCHEMAS.contains version && hasText (.obj fields) "prompt_id" "holding-assistant" then
          some (.obj fields) else none)
      | _ => .ok none
    | _ => .ok none

def payloadFromComment (body : String) : Except Failure (Option Json) := payloadFromText P body.toList

/-- `comment.get("created_at") or comment.get("createdAt") or ""`. -/
def createdAt (comment : Json) : Json :=
  if truthy (field comment "created_at") then field comment "created_at"
  else if truthy (field comment "createdAt") then field comment "createdAt"
  else .str ""

/-- `str(value)`. -/
def strOf : Json → String
  | .str s => s
  | v => P.str v

/-- The checkpoint of a comment, where it is one of the day. -/
def checkpointOf (tradeDate : String) (comment : Json) : Except Failure (Option Checkpoint) :=
  match comment with
  | .obj _ => do
    match ← payloadFromComment P (strOf P ((comment.get? "body").getD (.str ""))) with
    | none => return none
    | some payload =>
      if !hasText payload "trading_date" tradeDate then return none
      else
        let commentId := strOf P ((comment.get? "id").getD (.str ""))
        let created := strOf P (createdAt comment)
        if commentId = "" ∨ created = "" then
          throw (.validation "valid checkpoint is missing comment identity")
        else return some ⟨commentId, created, payload⟩
  | _ => .error .raised

def loadCheckpoints (comments : List Json) (tradeDate : String) : Except Failure (List Checkpoint) :=
  comments.foldlM (fun result comment => do
    match ← checkpointOf P tradeDate comment with
    | none => return result
    | some checkpoint => return result ++ [checkpoint]) []

/-! ## Gates -/

/-- `dict.setdefault` on a dictionary of texts, with the value that is then there. -/
def setdefault (map : List (String × String)) (key value : String) : List (String × String) × String :=
  match map.lookup key with
  | some prior => (map, prior)
  | none => (map ++ [(key, value)], value)

/-- `record.get("action_gates", record.get("gates", []))`, an empty list for `None`. -/
def rawGates (record : Json) : Json :=
  match (record.get? "action_gates").getD ((record.get? "gates").getD (.arr [])) with
  | .null => .arr []
  | raw => raw

/-- The identity and the condition of a gate, where they are texts that say something. -/
def gatePair (gate : Json) : Option (String × String) :=
  match gate.get? "action_gate_id", gate.get? "original_condition" with
  | some (.str gateId), some (.str condition) =>
    if gateId = "" ∨ condition = "" then none else some (gateId, condition)
  | _, _ => none

def addGate (gates : List (String × String)) (gate : Json) : Except Failure (List (String × String)) :=
  match gate with
  | .obj _ =>
    match gatePair gate with
    | none => .error (.validation "gate identity/original condition missing")
    | some (gateId, condition) =>
      let (gates, previous) := setdefault gates gateId condition
      if previous ≠ condition then
        .error (.validation ("gate original condition mutated: " ++ gateId))
      else .ok gates
  | _ => .error (.validation "gate must be an object")

def addRecord (gates : List (String × String)) (record : Json) :
    Except Failure (List (String × String)) :=
  match record with
  | .obj _ =>
    match rawGates record with
    | .arr raw => raw.foldlM addGate gates
    | _ => .error (.validation "action gates must be a list")
  | _ => .error (.validation "record must be an object")

def gateMap (records : Json) : Except Failure (List (String × String)) :=
  match records with
  | .arr records => records.foldlM addRecord []
  | _ => .error (.validation "records must be a list")

/-! ## The day -/

/-- `by_slot` in the order of the checkpoints, and `seen_keys`. -/
structure Slots where
  by_slot : List (String × Checkpoint)
  seen_keys : List String

def addCheckpoint (tradeDate : String) (slots : Slots) (checkpoint : Checkpoint) : Except Failure Slots :=
  match checkpoint.payload.get? "scheduled_slot" with
  | some (.str slot) =>
    if !SLOTS.contains slot then .error (.validation ("unexpected scheduled_slot: " ++ slot))
    else
      let key := "holding-assistant:" ++ tradeDate ++ ":" ++ slot
      if !hasText checkpoint.payload "idempotency_key" key then
        .error (.validation ("idempotency key mismatch at " ++ slot))
      else if slots.seen_keys.contains key || (slots.by_slot.lookup slot).isSome then
        .error (.validation ("duplicate/conflicting checkpoint at " ++ slot))
      else .ok ⟨slots.by_slot ++ [(slot, checkpoint)], key :: slots.seen_keys⟩
  | slot => .error (.validation ("unexpected scheduled_slot: " ++ P.str (slot.getD .null)))

/-- `by_slot[slot]`. -/
def slotAt (slots : Slots) (slot : String) : Except Failure Checkpoint :=
  match slots.by_slot.lookup slot with
  | some checkpoint => .ok checkpoint
  | none => .error .raised

/-- The instrument and the mapping version of a record, where both are texts and the version says
something. -/
def mappingPair (record : Json) : Option (String × String) :=
  match record.get? "instrument_key", record.get? "benchmark_mapping_version" with
  | some (.str instrument), some (.str version) => if version = "" then none else some (instrument, version)
  | _, _ => none

def addMapping (versions : List (String × String)) (record : Json) :
    Except Failure (List (String × String)) :=
  match mappingPair record with
  | none => .ok versions
  | some (instrument, version) =>
    let (versions, prior) := setdefault versions instrument version
    if prior ≠ version then .error (.validation ("benchmark mapping drift for " ++ instrument))
    else .ok versions

def elements : Json → List Json
  | .arr xs => xs
  | _ => []

/-- What a slot is compared with. -/
structure Reference where
  preopen : Checkpoint
  gates : List (String × String)

/-- The identity of the slot before, and `mapping_versions`. -/
structure Progress where
  previous_id : String
  mapping_versions : List (String × String)

/-- `for gate_id, condition in current_gates.items()`. -/
def checkGates (gates : List (String × String)) (slot : String) (current : List (String × String)) :
    Except Failure Unit :=
  current.forM fun (gateId, condition) =>
    match gates.lookup gateId with
    | some original =>
      if original ≠ condition then .error (.validation ("gate mutation at " ++ slot ++ ": " ++ gateId))
      else .ok ()
    | none => .ok ()

def checkSlot (slots : Slots) (ref : Reference) (progress : Progress) (slot : String) :
    Except Failure Progress := do
  let checkpoint ← slotAt slots slot
  let payload := checkpoint.payload
  require (hasText payload "previous_checkpoint_comment_id" progress.previous_id = true)
    ("checkpoint chain broken at " ++ slot)
  require (hasText payload "preopen_comment_id" ref.preopen.comment_id = true)
    ("preopen reference broken at " ++ slot)
  require (P.eq (field payload "production_ref") (field ref.preopen.payload "production_ref") = true)
    ("production_ref drift at " ++ slot)
  require (P.eq (field payload "live_universe_hash") (field ref.preopen.payload "live_universe_hash") = true)
    ("live_universe_hash drift at " ++ slot)
  let current ← gateMap (field payload "records")
  checkGates ref.gates slot current
  let versions ← (elements (field payload "records")).foldlM addMapping progress.mapping_versions
  return ⟨checkpoint.comment_id, versions⟩

structure Summary where
  trade_date : String
  checkpoint_count : ℕ
  slots : List String
  preopen_comment_id : String
  close_comment_id : String
  gate_count : ℕ
  production_ref : Json
  live_universe_hash : Json
  benchmark_mapping_versions : List String

def validateDay (comments : List Json) (tradeDate : String) : Except Failure Summary := do
  let checkpoints ← loadCheckpoints P comments tradeDate
  let slots ← checkpoints.foldlM (addCheckpoint P tradeDate) ⟨[], []⟩
  let missing := SLOTS.filter fun slot => (slots.by_slot.lookup slot).isNone
  require (missing = []) ("missing scheduled slots: " ++ String.intercalate "," missing)
  let preopen ← slotAt slots "09:10"
  require (hasText preopen.payload "schema_version" "premarket_plan_batch_v1" = true)
    "09:10 is not premarket_plan_batch_v1"
  require (hasText preopen.payload "observation_type" "PREMARKET" = true)
    "09:10 observation_type is not PREMARKET"
  let gates ← gateMap (field preopen.payload "records")
  require (gates ≠ []) "PREOPEN has no Action Gate"
  let progress ← SLOTS.tail.foldlM (checkSlot P slots ⟨preopen, gates⟩) ⟨preopen.comment_id, []⟩
  let close ← slotAt slots "16:45"
  require (hasText close.payload "observation_type" "CLOSE" = true) "16:45 observation_type is not CLOSE"
  return {
    trade_date := tradeDate
    checkpoint_count := checkpoints.length
    slots := SLOTS
    preopen_comment_id := preopen.comment_id
    close_comment_id := close.comment_id
    gate_count := gates.length
    production_ref := field preopen.payload "production_ref"
    live_universe_hash := field preopen.payload "live_universe_hash"
    benchmark_mapping_versions :=
      ((progress.mapping_versions.map Prod.snd).dedup).insertionSort fun a b => a ≤ b }

/-! ## Loops over gates and mappings -/

theorem require_eq_ok {p : Prop} [Decidable p] {message : String} {u : Unit}
    (h : require p message = .ok u) : p := by
  unfold require at h
  split_ifs at h with hp
  exact hp

/-- The dictionary has the pairs, one value for each key. -/
def Tracks (pairs map : List (String × String)) : Prop :=
  ∀ key value, map.lookup key = some value ↔ (key, value) ∈ pairs

theorem tracks_nil : Tracks [] [] := fun _ _ => by simp

theorem Tracks.unique {pairs map : List (String × String)} (h : Tracks pairs map) {key a b : String}
    (ha : (key, a) ∈ pairs) (hb : (key, b) ∈ pairs) : a = b :=
  Option.some.inj (((h key a).2 ha).symm.trans ((h key b).2 hb))

/-- A default that agrees with what was there. -/
theorem tracks_setdefault {pairs map : List (String × String)} (h : Tracks pairs map) {key value : String}
    (hagree : (setdefault map key value).2 = value) :
    Tracks (pairs ++ [(key, value)]) (setdefault map key value).1 := by
  unfold setdefault at hagree ⊢
  cases hlookup : map.lookup key with
  | some prior =>
    rw [hlookup] at hagree
    obtain rfl : prior = value := hagree
    have hmem := (h key prior).1 hlookup
    intro k v
    rw [h k v, List.mem_append, List.mem_singleton]
    exact ⟨.inl, fun hkv => hkv.elim id fun heq => heq ▸ hmem⟩
  | none =>
    intro k v
    rw [List.lookup_append, List.mem_append, List.mem_singleton, ← h k v]
    by_cases hk : k = key
    · subst hk
      simp [hlookup, eq_comm]
    · have hnot : (k == key) = false := beq_false_of_ne hk
      simp [List.lookup_cons, hnot, hk]

/-- The gates of a slot's records. -/
def gatePairs (records : Json) : List (String × String) :=
  (elements records).flatMap fun record => (elements (rawGates record)).filterMap gatePair

def mappingPairs (records : Json) : List (String × String) :=
  (elements records).filterMap mappingPair

theorem tracks_addGate {pairs gates gates' : List (String × String)} {gate : Json}
    (h : Tracks pairs gates) (hadd : addGate gates gate = .ok gates') :
    Tracks (pairs ++ (gatePair gate).toList) gates' := by
  unfold addGate at hadd
  split at hadd
  · split at hadd
    · cases hadd
    · next gateId condition hpair =>
      dsimp only at hadd
      split_ifs at hadd with hne
      cases hadd
      rw [hpair]
      exact tracks_setdefault h (not_not.1 hne)
  · cases hadd

theorem filterMap_concat {α β : Type} (f : α → Option β) (l : List α) (a : α) :
    (l ++ [a]).filterMap f = l.filterMap f ++ (f a).toList := by
  rw [List.filterMap_append]
  cases h : f a <;> simp [h]

theorem tracks_addRecord {pairs gates gates' : List (String × String)} {record : Json}
    (h : Tracks pairs gates) (hadd : addRecord gates record = .ok gates') :
    Tracks (pairs ++ (elements (rawGates record)).filterMap gatePair) gates' := by
  unfold addRecord at hadd
  split at hadd
  · split at hadd
    · next raw hraw =>
      rw [hraw]
      refine Fallible.foldlM_ok (I := fun done gates => Tracks (pairs ++ done.filterMap gatePair) gates)
        (by simpa using h) (fun done gate s s' _ hs hstep => ?_) hadd
      rw [filterMap_concat, ← List.append_assoc]
      exact tracks_addGate hs hstep
    · cases hadd
  · cases hadd

theorem tracks_gateMap {records : Json} {gates : List (String × String)}
    (h : gateMap records = .ok gates) : Tracks (gatePairs records) gates := by
  unfold gateMap at h
  split at h
  · refine Fallible.foldlM_ok (I := fun done gates => Tracks (gatePairs (.arr done)) gates) tracks_nil
      (fun done record s s' _ hs hstep => ?_) h
    have hadd := tracks_addRecord hs hstep
    simpa [gatePairs, elements] using hadd
  · cases h

theorem tracks_addMapping {pairs versions versions' : List (String × String)} {record : Json}
    (h : Tracks pairs versions) (hadd : addMapping versions record = .ok versions') :
    Tracks (pairs ++ (mappingPair record).toList) versions' := by
  unfold addMapping at hadd
  split at hadd
  · next hpair =>
    cases hadd
    simpa [hpair] using h
  · next instrument version hpair =>
    dsimp only at hadd
    split_ifs at hadd with hne
    cases hadd
    rw [hpair]
    exact tracks_setdefault h (not_not.1 hne)

theorem tracks_addMappings {pairs versions versions' : List (String × String)} {records : List Json}
    (h : Tracks pairs versions) (hadd : records.foldlM addMapping versions = .ok versions') :
    Tracks (pairs ++ records.filterMap mappingPair) versions' := by
  refine Fallible.foldlM_ok (I := fun done versions => Tracks (pairs ++ done.filterMap mappingPair) versions)
    (by simpa using h) (fun done record s s' _ hs hstep => ?_) hadd
  rw [filterMap_concat, ← List.append_assoc]
  exact tracks_addMapping hs hstep

end QuantproCollector.HoldingDay
