import QuantproCollector.Lib.FirstSorted
import QuantproCollector.ResearchOutbound.Acceptance
import QuantproCollector.ResearchOutbound.CanonicalText

/-!
# Message ids

Model of `computeOutboundV2MessageId`, `verifyOutboundV2Record` and `verifyOutboundV2ObjectChunks` of
`src/src/research-outbound-v2.ts`. An envelope is what `JSON.parse` gives, with its numbers as doubles; the
digest is given.

* `message_bound`: envelopes that are verified under one message id have one version, one type, one key, one
  visibility and payloads with the same members, up to their order and the sign of a zero that is no float,
  where the digest does not make one prefix of two texts.
* `chunks_bound`: the bytes of an object that are accepted under one message id are the same bytes, in the
  same chunks.
-/

namespace QuantproCollector.ResearchOutbound

open Json (Delimited)

/-! ## Parts of a value -/

/-- The value of a key of a record. -/
def Value.get? : Value → String → Option Value
  | .record fields, key => (fields.find? fun field => decide (field.1 = key)).map Prod.snd
  | _, _ => none

mutual

/-- The value where the sign of a zero is not looked at. -/
def Value.json : Value → Json
  | .null => .null
  | .bool b => .bool b
  | .number .negZero => .num (.ofInt 0)
  | .number (.decimal x) => .num x
  | .string s => .str s
  | .array items => .arr (jsonItems items)
  | .record fields => .obj (jsonFields fields)

def jsonItems : List Value → List Json
  | [] => []
  | item :: items => item.json :: jsonItems items

def jsonFields : List (String × Value) → List (String × Json)
  | [] => []
  | (key, value) :: fields => (key, value.json) :: jsonFields fields

end

theorem json_get? (v : Value) (key : String) : v.json.get? key = (v.get? key).map Value.json := by
  cases v with
  | number x => cases x <;> rfl
  | record fields =>
    show (jsonFields fields).lookup key = _
    rw [Value.get?]
    induction fields with
    | nil => rfl
    | cons field fields ih =>
      obtain ⟨k, value⟩ := field
      rw [jsonFields, List.lookup_cons, List.find?_cons]
      by_cases hkey : k = key
      · simp [hkey]
      · have hbeq : (key == k) = false := by simpa using fun h => hkey h.symm
        simp only [hbeq, hkey, decide_false, ih]
  | _ => rfl

/-- A member of the normal form is the normal form of the member. -/
theorem normal_get? (path : List String) (v : Value) (key : String) :
    (normal path v).get? key = (v.get? key).map (normal (path ++ [key])) := by
  cases v with
  | record fields =>
    have hfind := List.find?_insertionSort_of_alike (r := fieldLe) (l := fields)
      (p := fun field => decide (field.1 = key)) (by
        intro f _ g _ hf hg
        have hf : f.1 = key := by simpa using hf
        have hg : g.1 = key := by simpa using hg
        rw [fieldLe, hf, hg]
        exact (Utf16.le_total _ _).elim id id)
    rw [normal_record, Value.get?, Value.get?, List.find?_map, Option.map_map, Option.map_map, ← hfind]
    cases hfound : (fields.insertionSort fieldLe).find? fun field => decide (field.1 = key) with
    | none =>
      have hnone : (fields.insertionSort fieldLe).find? ((fun field : String × Value =>
          decide (field.1 = key)) ∘ fun field => (field.1, normal (path ++ [field.1]) field.2)) = none :=
        hfound
      rw [hnone]
      rfl
    | some field =>
      have hsome : (fields.insertionSort fieldLe).find? ((fun field : String × Value =>
          decide (field.1 = key)) ∘ fun field => (field.1, normal (path ++ [field.1]) field.2)) =
            some field := hfound
      have hkey : field.1 = key := by simpa using List.find?_some hfound
      rw [hsome]
      simp [hkey]
  | number x => rfl
  | _ => rfl

theorem eq_string_of_json {v : Value} {s : String} (h : v.json = .str s) : v = .string s := by
  cases v with
  | string t =>
    cases h
    rfl
  | number x => cases x <;> cases h
  | _ => cases h

/-- Texts of equal normal forms are equal. -/
theorem text_of_normal {path : List String} {v w : Value} (h : normal path v = normal path w) {key s : String}
    (hs : v.json.get? key = some (.str s)) : w.json.get? key = some (.str s) := by
  rw [json_get?] at hs
  obtain ⟨x, hx, hxs⟩ := Option.map_eq_some_iff.1 hs
  obtain rfl := eq_string_of_json hxs
  have hnormal : (normal path w).get? key = some (.string s) := by
    rw [← h, normal_get?, hx]
    rfl
  rw [normal_get?] at hnormal
  obtain ⟨y, hy, hys⟩ := Option.map_eq_some_iff.1 hnormal
  have hstring : y = .string s := by
    cases y with
    | string t => exact hys
    | _ => cases hys
  rw [json_get?, hy, hstring]
  rfl

/-! ## The message id -/

section Code

variable (dateParse : DateParse) (sha256Hex : List Char → List Char)

def outboundV2RecordKey (record : OutboundV2Record) : Check String :=
  let payload := record.payload
  if record.record_type = "object" then do
    hexField (payload.get? "content_sha256")
    stringField (payload.get? "content_sha256")
  else if record.record_type = "source" then stringField (payload.get? "source_id")
  else if record.record_type = "document_version" then
    stringField ((payload.get? "version").bind (·.get? "version_id"))
  else if record.record_type = "evidence" then stringField (payload.get? "evidence_id")
  else if record.record_type = "coverage" then stringField (payload.get? "coverage_id")
  else if record.record_type = "accumulator" then stringField (payload.get? "snapshot_id")
  else if record.record_type = "job" then stringField (payload.get? "job_id")
  else if record.record_type = "source_health" then stringField (payload.get? "source_id")
  else if record.record_type = MARKET_SIGNAL_RECORD_TYPE then stringField (payload.get? "subject_key")
  else .error .UNSUPPORTED_OPERATION

/-- The payload of an envelope. -/
def payloadOf (value : Value) : Value :=
  (value.get? "payload").getD .null

/-- A record without one of its keys. -/
def Value.without (key : String) : Value → Value
  | .record fields => .record (fields.filter fun field => decide (field.1 ≠ key))
  | v => v

/-- What is hashed of a payload: an object names its own message. -/
def material (record : OutboundV2Record) (payload : Value) : Value :=
  if record.record_type = "object" then payload.without "manifest_message_id" else payload

/-- The text that is hashed. -/
def messageInput (record : OutboundV2Record) (payload : Value) : Check (List Char) := do
  let key ← outboundV2RecordKey record
  return ['\x1f'].intercalate [record.schema_version.toList, record.record_type.toList, key.toList,
    canonicalJson [] (material record payload)]

def computeOutboundV2MessageId (record : OutboundV2Record) (payload : Value) : Check String := do
  let input ← messageInput record payload
  return "outbound_" ++ String.ofList ((sha256Hex input).take 40)

def verifyOutboundV2Record (value : Value) : Check OutboundV2Record := do
  let record ← validateOutboundV2Record dateParse value.json
  let id ← computeOutboundV2MessageId sha256Hex record (payloadOf value)
  intact (id = record.message_id)
  return record

end Code

/-! ## What is hashed -/

theorem escape_ne_separator (c : Char) : ∀ d ∈ Json.escape c, d ≠ '\x1f' := by
  have hhex : ∀ n < 16, Json.hexDigit n ≠ '\x1f' := by decide
  have hcontrol : ∀ n < 0x20, Json.hexDigit (n / 16) ≠ '\x1f' ∧ Json.hexDigit (n % 16) ≠ '\x1f' :=
    fun n hn => ⟨hhex _ (by omega), hhex _ (by omega)⟩
  unfold Json.escape
  split_ifs with h1 h2 h3 h4 h5 h6 h7 h8
  all_goals simp only [List.mem_cons, List.not_mem_nil, or_false, forall_eq_or_imp, forall_eq]
  · decide
  · decide
  · decide
  · decide
  · decide
  · decide
  · decide
  · exact ⟨by decide, by decide, by decide, by decide, hcontrol _ h8⟩
  · rintro rfl
    exact h8 (by decide)

theorem quote_ne_separator (s : String) : ∀ c ∈ Json.quote s, c ≠ '\x1f' := by
  simp only [Json.quote, List.forall_mem_append, List.forall_mem_cons]
  refine ⟨⟨by decide, ?_⟩, by decide, by simp⟩
  intro c hc
  obtain ⟨d, -, hd⟩ := List.mem_flatMap.1 hc
  exact escape_ne_separator d c hd

theorem commaJoined_ne_separator {texts : List (List Char)} (h : ∀ text ∈ texts, ∀ c ∈ text, c ≠ '\x1f') :
    ∀ c ∈ commaJoined texts, c ≠ '\x1f' := by
  intro c hc
  rcases Separated.mem_intercalate hc with rfl | ⟨text, htext, hc⟩
  · decide
  · exact h text htext c hc

/-- The sign between the parts of the hashed text is in no canonical text. -/
theorem canonicalJson_ne_separator (v : Value) : ∀ path, ∀ c ∈ canonicalJson path v, c ≠ '\x1f' := by
  induction v using Value.induct with
  | null =>
    intro path
    show ∀ c ∈ ['n', 'u', 'l', 'l'], c ≠ '\x1f'
    simp
  | bool b =>
    intro path
    cases b with
    | true =>
      show ∀ c ∈ ['t', 'r', 'u', 'e'], c ≠ '\x1f'
      simp
    | false =>
      show ∀ c ∈ ['f', 'a', 'l', 's', 'e'], c ≠ '\x1f'
      simp
  | number x =>
    intro path c hc
    rintro rfl
    exact absurd (isNumeric_numberText path x _ hc) (by decide)
  | string s => exact fun path => quote_ne_separator s
  | array items ih =>
    intro path
    rw [canonicalJson_array]
    simp only [List.cons_append, List.forall_mem_append, List.forall_mem_cons]
    refine ⟨by decide, commaJoined_ne_separator ?_, by decide, by simp⟩
    intro text htext
    obtain ⟨item, hitem, rfl⟩ := List.mem_map.1 htext
    exact ih item hitem path
  | record fields ih =>
    intro path
    rw [canonicalJson_record]
    simp only [List.cons_append, List.forall_mem_append, List.forall_mem_cons]
    refine ⟨by decide, commaJoined_ne_separator ?_, by decide, by simp⟩
    intro text htext
    obtain ⟨field, hfield, rfl⟩ := List.mem_map.1 htext
    rw [memberText]
    simp only [List.forall_mem_append, List.forall_mem_cons]
    exact ⟨quote_ne_separator _, by decide, ih field ((List.mem_insertionSort fieldLe).1 hfield) _⟩

/-! ## What an id binds -/

section Bound

variable {dateParse : DateParse} {sha256Hex : List Char → List Char}

/-- What an envelope that is verified has been found to be. -/
theorem verified {value : Value} {record : OutboundV2Record}
    (h : verifyOutboundV2Record dateParse sha256Hex value = .ok record) :
    validateOutboundV2Record dateParse value.json = .ok record ∧
      ∃ input, messageInput record (payloadOf value) = .ok input ∧
        record.message_id = "outbound_" ++ String.ofList ((sha256Hex input).take 40) := by
  unfold verifyOutboundV2Record at h
  obtain ⟨record', hvalid, h⟩ := Fallible.bind_eq_ok.1 h
  obtain ⟨id, hid, h⟩ := Fallible.bind_eq_ok.1 h
  obtain ⟨_, hsame, h⟩ := Fallible.bind_eq_ok.1 h
  cases h
  unfold computeOutboundV2MessageId at hid
  obtain ⟨input, hinput, hid⟩ := Fallible.bind_eq_ok.1 hid
  cases hid
  exact ⟨hvalid, input, hinput, (check_eq_ok hsame).symm⟩

theorem payload_of_accepted {value : Value} {record : OutboundV2Record}
    (h : validateOutboundV2Record dateParse value.json = .ok record) :
    (payloadOf value).json = record.payload := by
  unfold validateOutboundV2Record at h
  obtain ⟨value', hvalue, h⟩ := Fallible.bind_eq_ok.1 h
  obtain ⟨_, -, h⟩ := Fallible.bind_eq_ok.1 h
  obtain ⟨schemaVersion, -, h⟩ := Fallible.bind_eq_ok.1 h
  obtain ⟨_, -, h⟩ := Fallible.bind_eq_ok.1 h
  obtain ⟨messageId, -, h⟩ := Fallible.bind_eq_ok.1 h
  obtain ⟨_, -, h⟩ := Fallible.bind_eq_ok.1 h
  obtain ⟨policyVersion, -, h⟩ := Fallible.bind_eq_ok.1 h
  obtain ⟨generated, -, h⟩ := Fallible.bind_eq_ok.1 h
  obtain ⟨payload, hpayload, h⟩ := Fallible.bind_eq_ok.1 h
  obtain ⟨recordType, -, h⟩ := Fallible.bind_eq_ok.1 h
  obtain ⟨visibility, -, h⟩ := Fallible.bind_eq_ok.1 h
  obtain ⟨_, -, h⟩ := Fallible.bind_eq_ok.1 h
  obtain ⟨_, -, h⟩ := Fallible.bind_eq_ok.1 h
  cases h
  obtain rfl := Option.some.inj (recordField_eq_ok hvalue)
  have hpayload := recordField_eq_ok hpayload
  rw [json_get?] at hpayload
  obtain ⟨x, hx, rfl⟩ := Option.map_eq_some_iff.1 hpayload
  rw [payloadOf, hx]
  rfl

theorem separator_notMem_schema {s : String} (h : s ∈ ACCEPTED_OUTBOUND_SCHEMA_VERSIONS) :
    '\x1f' ∉ s.toList := by
  have hall : ∀ s ∈ ACCEPTED_OUTBOUND_SCHEMA_VERSIONS, '\x1f' ∉ s.toList :=
    List.forall_iff_forall_mem.1 (by decide)
  exact hall s h

theorem separator_notMem_type {record : OutboundV2Record}
    (h : recordTypeAllowed record.schema_version (some (.str record.record_type)) = true ∨
      marketSignalAllowed record.schema_version (some (.str record.record_type)) = true) :
    '\x1f' ∉ record.record_type.toList := by
  have hall : ∀ s ∈ MARKET_SIGNAL_RECORD_TYPE :: RECORD_TYPES ++ V3_RECORD_TYPES, '\x1f' ∉ s.toList :=
    List.forall_iff_forall_mem.1 (by decide)
  rcases type_of_allowed h with (hrecord | ⟨-, hv3⟩) | ⟨-, hsignal⟩
  · exact hall _ (List.mem_append_left _ (List.mem_cons_of_mem _ hrecord))
  · exact hall _ (List.mem_append_right _ hv3)
  · exact hall _ (hsignal ▸ List.mem_append_left _ List.mem_cons_self)

/-- The parts of a hashed text. -/
theorem messageInput_eq_ok {record : OutboundV2Record} {payload : Value} {input : List Char}
    (h : messageInput record payload = .ok input) : ∃ key, outboundV2RecordKey record = .ok key ∧
      input = record.schema_version.toList ++ '\x1f' :: (record.record_type.toList ++
        '\x1f' :: (key.toList ++ '\x1f' :: canonicalJson [] (material record payload))) := by
  unfold messageInput at h
  obtain ⟨key, hkey, h⟩ := Fallible.bind_eq_ok.1 h
  cases h
  exact ⟨key, hkey, by simp [List.intercalate_cons_cons]⟩

theorem checkWhen_eq_ok {p : Prop} [Decidable p] {c : Check Unit} {u : Unit} (h : checkWhen p c = .ok u)
    (hp : p) : c = .ok u := by
  rwa [checkWhen, if_pos hp] at h

theorem nested_of_accepted {value : Json} {record : OutboundV2Record}
    (h : validateOutboundV2Record dateParse value = .ok record) :
    validateNestedPayload dateParse record = .ok () := by
  unfold validateOutboundV2Record at h
  obtain ⟨value', -, h⟩ := Fallible.bind_eq_ok.1 h
  obtain ⟨_, -, h⟩ := Fallible.bind_eq_ok.1 h
  obtain ⟨schemaVersion, -, h⟩ := Fallible.bind_eq_ok.1 h
  obtain ⟨_, -, h⟩ := Fallible.bind_eq_ok.1 h
  obtain ⟨messageId, -, h⟩ := Fallible.bind_eq_ok.1 h
  obtain ⟨_, -, h⟩ := Fallible.bind_eq_ok.1 h
  obtain ⟨policyVersion, -, h⟩ := Fallible.bind_eq_ok.1 h
  obtain ⟨generated, -, h⟩ := Fallible.bind_eq_ok.1 h
  obtain ⟨payload, -, h⟩ := Fallible.bind_eq_ok.1 h
  obtain ⟨recordType, -, h⟩ := Fallible.bind_eq_ok.1 h
  obtain ⟨visibility, -, h⟩ := Fallible.bind_eq_ok.1 h
  obtain ⟨_, -, h⟩ := Fallible.bind_eq_ok.1 h
  obtain ⟨_, hnested, h⟩ := Fallible.bind_eq_ok.1 h
  cases h
  exact hnested

/-- An object names its message. -/
theorem manifest_of_accepted {value : Json} {record : OutboundV2Record}
    (h : validateOutboundV2Record dateParse value = .ok record) (hobject : record.record_type = "object") :
    record.payload.get? "manifest_message_id" = some (.str record.message_id) := by
  have hnested := nested_of_accepted h
  unfold validateNestedPayload at hnested
  rw [if_neg (by rw [hobject]; decide)] at hnested
  obtain ⟨_, -, hnested⟩ := Fallible.bind_eq_ok.1 hnested
  obtain ⟨_, -, hnested⟩ := Fallible.bind_eq_ok.1 hnested
  obtain ⟨_, -, hnested⟩ := Fallible.bind_eq_ok.1 hnested
  obtain ⟨_, -, hnested⟩ := Fallible.bind_eq_ok.1 hnested
  obtain ⟨_, -, hnested⟩ := Fallible.bind_eq_ok.1 hnested
  obtain ⟨_, hpayload, -⟩ := Fallible.bind_eq_ok.1 hnested
  have hpayload := checkWhen_eq_ok hpayload hobject
  unfold validateObjectPayload at hpayload
  obtain ⟨_, -, hpayload⟩ := Fallible.bind_eq_ok.1 hpayload
  obtain ⟨_, -, hpayload⟩ := Fallible.bind_eq_ok.1 hpayload
  obtain ⟨_, -, hpayload⟩ := Fallible.bind_eq_ok.1 hpayload
  obtain ⟨_, -, hpayload⟩ := Fallible.bind_eq_ok.1 hpayload
  obtain ⟨_, -, hpayload⟩ := Fallible.bind_eq_ok.1 hpayload
  obtain ⟨_, -, hpayload⟩ := Fallible.bind_eq_ok.1 hpayload
  exact check_eq_ok hpayload

theorem without_get? (v : Value) {key other : String} (h : other ≠ key) :
    (v.without key).get? other = v.get? other := by
  cases v with
  | record fields =>
    rw [Value.without, Value.get?, Value.get?, List.find?_filter]
    congr 1
    apply congrArg fun p => List.find? p fields
    funext field
    by_cases hfield : field.1 = other
    · simp [hfield, h]
    · simp [hfield]
  | _ => rfl

/-- Of two envelopes that are verified under one id: what the equality of their hashed texts comes to. -/
structure OneMessage (r r' : OutboundV2Record) (payload payload' : Value) : Prop where
  schema_version : r.schema_version = r'.schema_version
  record_type : r.record_type = r'.record_type
  key : outboundV2RecordKey r = outboundV2RecordKey r'
  members : ∀ key, (payload.get? key).map (normal [key]) = (payload'.get? key).map (normal [key])

theorem oneMessage {v w : Value} {r r' : OutboundV2Record}
    (hv : verifyOutboundV2Record dateParse sha256Hex v = .ok r)
    (hw : verifyOutboundV2Record dateParse sha256Hex w = .ok r')
    (hfree : ∀ a b, messageInput r (payloadOf v) = .ok a → messageInput r' (payloadOf w) = .ok b →
      (sha256Hex a).take 40 = (sha256Hex b).take 40 → a = b)
    (hid : r.message_id = r'.message_id) : OneMessage r r' (payloadOf v) (payloadOf w) := by
  obtain ⟨hvalid, input, hinput, hmessage⟩ := verified hv
  obtain ⟨hvalid', input', hinput', hmessage'⟩ := verified hw
  have hprefix : (sha256Hex input).take 40 = (sha256Hex input').take 40 := by
    have htexts := congrArg String.toList (hmessage.symm.trans (hid.trans hmessage'))
    rw [String.toList_append, String.toList_append, String.toList_ofList, String.toList_ofList,
      String.toList_ofList] at htexts
    exact List.append_cancel_left htexts
  obtain rfl := hfree input input' hinput hinput' hprefix
  obtain ⟨key, hkey, hform⟩ := messageInput_eq_ok hinput
  obtain ⟨key', hkey', hform'⟩ := messageInput_eq_ok hinput'
  obtain ⟨hschema, hallowed, -⟩ := envelope_of_accepted hvalid
  obtain ⟨hschema', hallowed', -⟩ := envelope_of_accepted hvalid'
  obtain ⟨hversions, hrest⟩ := Separated.cons_inj (separator_notMem_schema hschema)
    (separator_notMem_schema hschema') (hform.symm.trans hform')
  obtain ⟨htypes, hrest⟩ := Separated.cons_inj (separator_notMem_type hallowed)
    (separator_notMem_type hallowed') hrest
  have hseparator : ∀ v : Value, '\x1f' ∉ canonicalJson [] v := fun v hmem =>
    canonicalJson_ne_separator v [] _ hmem rfl
  obtain ⟨hkeys, hcanonical⟩ := Separated.concat_inj (hseparator _) (hseparator _) hrest
  have hrecord : r.record_type = r'.record_type := String.toList_inj.1 htypes
  have hnormal : normal [] (material r (payloadOf v)) = normal [] (material r' (payloadOf w)) := by
    have hend : Delimited [] := by simp [Delimited]
    exact (canonicalJson_inj _ [] _ [] [] hend hend (by rw [hcanonical])).1
  refine ⟨String.toList_inj.1 hversions, hrecord, ?_, ?_⟩
  · rw [hkey, hkey', String.toList_inj.1 hkeys]
  · intro name
    have hmaterial : ((material r (payloadOf v)).get? name).map (normal [name]) =
        ((material r' (payloadOf w)).get? name).map (normal [name]) := by
      have hmember := congrArg (fun v => v.get? name) hnormal
      simp only [normal_get?, List.nil_append] at hmember
      exact hmember
    by_cases hobject : r.record_type = "object"
    · rw [material, material, if_pos hobject, if_pos (hrecord ▸ hobject)] at hmaterial
      by_cases hname : name = "manifest_message_id"
      · have hmanifest : ∀ {value : Value} {record : OutboundV2Record},
            validateOutboundV2Record dateParse value.json = .ok record → record.record_type = "object" →
            (payloadOf value).get? "manifest_message_id" = some (.string record.message_id) := by
          intro value record h hobject
          have hname := manifest_of_accepted h hobject
          rw [← payload_of_accepted h, json_get?] at hname
          obtain ⟨x, hx, hxs⟩ := Option.map_eq_some_iff.1 hname
          rw [hx, eq_string_of_json hxs]
        rw [hname, hmanifest hvalid hobject, hmanifest hvalid' (hrecord ▸ hobject), hid]
      · rwa [without_get? _ hname, without_get? _ hname] at hmaterial
    · rwa [material, material, if_neg hobject, if_neg (hrecord ▸ hobject)] at hmaterial

/-- The visibility is in the payload that is hashed. -/
theorem OneMessage.visibility {v w : Value} {r r' : OutboundV2Record}
    (h : OneMessage r r' (payloadOf v) (payloadOf w))
    (hvalid : validateOutboundV2Record dateParse v.json = .ok r)
    (hvalid' : validateOutboundV2Record dateParse w.json = .ok r') : r.visibility = r'.visibility := by
  have hv := (envelope_of_accepted hvalid).2.2.2
  have hw := (envelope_of_accepted hvalid').2.2.2
  rw [payloadVisibility, ← payload_of_accepted hvalid] at hv
  rw [payloadVisibility, ← payload_of_accepted hvalid', ← h.record_type] at hw
  by_cases hdocument : r.record_type = "document_version"
  · rw [if_pos hdocument] at hv hw
    obtain ⟨document, hdocument, hv⟩ := Option.bind_eq_some_iff.1 hv
    rw [json_get?] at hdocument
    obtain ⟨d, hd, rfl⟩ := Option.map_eq_some_iff.1 hdocument
    have hmember := h.members "document"
    rw [hd, Option.map_some] at hmember
    obtain ⟨e, he, hnormal⟩ := Option.map_eq_some_iff.1 hmember.symm
    rw [json_get?, he, Option.map_some, Option.bind_some, text_of_normal hnormal.symm hv] at hw
    exact Json.str.inj (Option.some.inj hw)
  · rw [if_neg hdocument] at hv hw
    rw [json_get?] at hv hw
    obtain ⟨x, hx, hxs⟩ := Option.map_eq_some_iff.1 hv
    obtain ⟨y, hy, hys⟩ := Option.map_eq_some_iff.1 hw
    obtain rfl := eq_string_of_json hxs
    obtain rfl := eq_string_of_json hys
    have hmember := h.members "visibility"
    rw [hx, hy] at hmember
    exact Value.string.inj (Option.some.inj hmember)

/-- The envelope of a source, with the members of its payload in an order. -/
def sourceValue (keys : List String) : Value :=
  .record [("record_type", .string "source"),
    ("message_id", .string "outbound_0123456789012345678901234567890123456789"),
    ("schema_version", .string OUTBOUND_V3_SCHEMA_VERSION), ("policy_version", .string "p1"),
    ("visibility", .string "PUBLIC"), ("payload", .record (keys.map fun key =>
      (key, if key = "visibility" then .string "PUBLIC" else .string "x"))), ("generated_at", .null)]

/-- A digest of one text. -/
def sourceDigest (_ : List Char) : List Char := "0123456789012345678901234567890123456789".toList

/-- The record of `sourceValue`. -/
def sourceOf (keys : List String) : OutboundV2Record :=
  { sourceRecord OUTBOUND_V3_SCHEMA_VERSION with payload := (payloadOf (sourceValue keys)).json }

end Bound

/-! ## The bytes of an object -/

section Chunks

variable (dateParse : DateParse) (sha256Hex : List Char → List Char) (sha256HexOfBytes : List UInt8 → String)

/-- The digests that a manifest lists. -/
def listedChunks (record : OutboundV2Record) : Check (List Json) :=
  arrayField ((record.payload.get? "chunking").bind (·.get? "chunk_sha256"))

def verifyOutboundV2ObjectChunks (value : Value) (chunks : List (List UInt8)) : Check OutboundV2Record := do
  let record ← verifyOutboundV2Record dateParse sha256Hex value
  check (record.record_type = "object") .UNSUPPORTED_OPERATION
  let expected ← listedChunks record
  intact (chunks.length = expected.length)
  (chunks.zip expected).forM fun (chunk, digest) => intact (Json.str (sha256HexOfBytes chunk) = digest)
  let joined := chunks.flatten
  intact (record.payload.get? "content_sha256" = some (.str (sha256HexOfBytes joined)) ∧
    record.payload.get? "byte_size" = some (.num (.ofInt joined.length)))
  return record

variable {dateParse sha256Hex sha256HexOfBytes}

theorem arrayField_eq_ok {value : Option Json} {items : List Json} (h : arrayField value = .ok items) :
    value = some (.arr items) := by
  unfold arrayField at h
  split at h
  · cases h
    rfl
  · cases h

/-- Each chunk has the digest at its place. -/
theorem digests_of_zip {chunks : List (List UInt8)} {expected : List Json}
    (hlength : chunks.length = expected.length)
    (h : ∀ p ∈ chunks.zip expected, Json.str (sha256HexOfBytes p.1) = p.2) :
    expected = (chunks.map sha256HexOfBytes).map Json.str := by
  induction chunks generalizing expected with
  | nil => exact List.eq_nil_of_length_eq_zero hlength.symm
  | cons chunk chunks ih =>
    cases expected with
    | nil => cases hlength
    | cons digest expected =>
      have hdigest := h (chunk, digest) List.mem_cons_self
      have hrest := ih (Nat.succ.inj hlength) fun p hp => h p (List.mem_cons_of_mem _ hp)
      rw [List.map_cons, List.map_cons, ← hrest, hdigest]

theorem verified_chunks {value : Value} {chunks : List (List UInt8)} {record : OutboundV2Record}
    (h : verifyOutboundV2ObjectChunks dateParse sha256Hex sha256HexOfBytes value chunks = .ok record) :
    verifyOutboundV2Record dateParse sha256Hex value = .ok record ∧
      (record.payload.get? "chunking").bind (·.get? "chunk_sha256") =
        some (.arr ((chunks.map sha256HexOfBytes).map Json.str)) := by
  unfold verifyOutboundV2ObjectChunks at h
  obtain ⟨record', hrecord, h⟩ := Fallible.bind_eq_ok.1 h
  obtain ⟨_, -, h⟩ := Fallible.bind_eq_ok.1 h
  obtain ⟨expected, hexpected, h⟩ := Fallible.bind_eq_ok.1 h
  obtain ⟨_, hlength, h⟩ := Fallible.bind_eq_ok.1 h
  obtain ⟨_, hdigests, h⟩ := Fallible.bind_eq_ok.1 h
  obtain ⟨_, -, h⟩ := Fallible.bind_eq_ok.1 h
  cases h
  refine ⟨hrecord, ?_⟩
  rw [arrayField_eq_ok hexpected, ← digests_of_zip (check_eq_ok hlength) fun p hp => ?_]
  exact check_eq_ok (Fallible.forM_ok hdigests p hp)

theorem eq_strings_of_json {items : List Value} {ss : List String} (h : jsonItems items = ss.map Json.str) :
    items = ss.map Value.string := by
  induction items generalizing ss with
  | nil =>
    cases ss with
    | nil => rfl
    | cons s ss => cases h
  | cons item items ih =>
    cases ss with
    | nil => cases h
    | cons s ss =>
      obtain ⟨hitem, hitems⟩ := List.cons.inj h
      rw [eq_string_of_json hitem, ih hitems, List.map_cons]

theorem jsonItems_strings (ss : List String) : jsonItems (ss.map Value.string) = ss.map Json.str := by
  induction ss with
  | nil => rfl
  | cons s ss ih => rw [List.map_cons, jsonItems, ih, List.map_cons, Value.json]

theorem eq_strings_of_normal {path : List String} {items : List Value} {ss : List String}
    (h : items.map (normal path) = ss.map Value.string) : items = ss.map Value.string := by
  induction items generalizing ss with
  | nil =>
    cases ss with
    | nil => rfl
    | cons s ss => cases h
  | cons item items ih =>
    cases ss with
    | nil => cases h
    | cons s ss =>
      obtain ⟨hitem, hitems⟩ := List.cons.inj h
      have hstring : item = .string s := by
        cases item with
        | string t => exact hitem
        | _ => cases hitem
      rw [hstring, ih hitems, List.map_cons]

/-- Lists of texts of equal normal forms are equal. -/
theorem texts_of_normal {path : List String} {v w : Value} (h : normal path v = normal path w) {key : String}
    {ss : List String} (hs : v.json.get? key = some (.arr (ss.map Json.str))) :
    w.json.get? key = some (.arr (ss.map Json.str)) := by
  rw [json_get?] at hs
  obtain ⟨x, hx, hxs⟩ := Option.map_eq_some_iff.1 hs
  have harray : x = .array (ss.map Value.string) := by
    cases x with
    | array items => rw [eq_strings_of_json (Json.arr.inj hxs)]
    | number x => cases x <;> cases hxs
    | _ => cases hxs
  have hstrings : ∀ p, (ss.map Value.string).map (normal p) = ss.map Value.string := by
    intro p
    rw [List.map_map]
    rfl
  have hnormal : (normal path w).get? key = some (.array (ss.map Value.string)) := by
    rw [← h, normal_get?, hx, harray, Option.map_some, normal, normalItems_eq_map, hstrings]
  rw [normal_get?] at hnormal
  obtain ⟨y, hy, hys⟩ := Option.map_eq_some_iff.1 hnormal
  have hyarray : y = .array (ss.map Value.string) := by
    cases y with
    | array items =>
      rw [normal, normalItems_eq_map] at hys
      rw [eq_strings_of_normal (Value.array.inj hys)]
    | _ => cases hys
  rw [json_get?, hy, hyarray, Option.map_some, Value.json, jsonItems_strings]

theorem digests_of_oneMessage {v w : Value} {r r' : OutboundV2Record} {ss ss' : List String}
    (h : OneMessage r r' (payloadOf v) (payloadOf w))
    (hvalid : validateOutboundV2Record dateParse v.json = .ok r)
    (hvalid' : validateOutboundV2Record dateParse w.json = .ok r')
    (hv : (r.payload.get? "chunking").bind (·.get? "chunk_sha256") = some (.arr (ss.map Json.str)))
    (hw : (r'.payload.get? "chunking").bind (·.get? "chunk_sha256") = some (.arr (ss'.map Json.str))) :
    ss = ss' := by
  rw [← payload_of_accepted hvalid, json_get?] at hv
  rw [← payload_of_accepted hvalid', json_get?] at hw
  obtain ⟨chunking, hchunking, hv⟩ := Option.bind_eq_some_iff.1 hv
  obtain ⟨c, hc, rfl⟩ := Option.map_eq_some_iff.1 hchunking
  have hmember := h.members "chunking"
  rw [hc, Option.map_some] at hmember
  obtain ⟨c', hc', hnormal⟩ := Option.map_eq_some_iff.1 hmember.symm
  rw [hc', Option.map_some, Option.bind_some, texts_of_normal hnormal.symm hv] at hw
  have hstr : Function.Injective Json.str := fun _ _ h => Json.str.inj h
  exact List.map_injective_iff.2 hstr (Json.arr.inj (Option.some.inj hw))

theorem chunks_of_digests {chunks chunks' : List (List UInt8)}
    (hbytes : ∀ a ∈ chunks, ∀ b ∈ chunks', sha256HexOfBytes a = sha256HexOfBytes b → a = b)
    (h : chunks.map sha256HexOfBytes = chunks'.map sha256HexOfBytes) : chunks = chunks' := by
  induction chunks generalizing chunks' with
  | nil => exact (List.map_eq_nil_iff.1 h.symm).symm
  | cons a chunks ih =>
    cases chunks' with
    | nil => cases h
    | cons b chunks' =>
      obtain ⟨hab, hrest⟩ := List.cons.inj h
      rw [hbytes a List.mem_cons_self b List.mem_cons_self hab,
        ih (fun x hx y hy => hbytes x (List.mem_cons_of_mem a hx) y (List.mem_cons_of_mem b hy)) hrest]

/-- The bytes that are accepted under one message id are the same, in the same chunks. -/
theorem chunks_bound (dateParse : DateParse) (sha256Hex : List Char → List Char)
    (sha256HexOfBytes : List UInt8 → String) (v w : Value) (chunks chunks' : List (List UInt8))
    (r r' : OutboundV2Record)
    (hv : verifyOutboundV2ObjectChunks dateParse sha256Hex sha256HexOfBytes v chunks = .ok r)
    (hw : verifyOutboundV2ObjectChunks dateParse sha256Hex sha256HexOfBytes w chunks' = .ok r')
    (hfree : ∀ a b, messageInput r (payloadOf v) = .ok a → messageInput r' (payloadOf w) = .ok b →
      (sha256Hex a).take 40 = (sha256Hex b).take 40 → a = b)
    (hbytes : ∀ a ∈ chunks, ∀ b ∈ chunks', sha256HexOfBytes a = sha256HexOfBytes b → a = b)
    (hid : r.message_id = r'.message_id) : chunks = chunks' := by
  obtain ⟨hrecord, hlisted⟩ := verified_chunks hv
  obtain ⟨hrecord', hlisted'⟩ := verified_chunks hw
  have hone := oneMessage hrecord hrecord' hfree hid
  have hdigests := digests_of_oneMessage hone (verified hrecord).1 (verified hrecord').1 hlisted hlisted'
  exact chunks_of_digests hbytes hdigests

/-- A digest that tells how many bytes there are. -/
def lengthDigest (bytes : List UInt8) : String :=
  String.ofList (List.replicate bytes.length '1' ++ List.replicate (64 - bytes.length) '0')

def objectChunks : List (List UInt8) := [[1], [2, 3]]

/-- The envelope of an object in two chunks. -/
def objectValue : Value :=
  .record [("record_type", .string "object"),
    ("message_id", .string "outbound_0123456789012345678901234567890123456789"),
    ("schema_version", .string OUTBOUND_V3_SCHEMA_VERSION), ("policy_version", .string "p1"),
    ("visibility", .string "PUBLIC"), ("generated_at", .null),
    ("payload", .record [("object_id", .string (lengthDigest [1, 2, 3])),
      ("content_sha256", .string (lengthDigest [1, 2, 3])), ("media_type", .string "text/plain"),
      ("byte_size", .number (.decimal (.ofInt 3))), ("visibility", .string "PUBLIC"),
      ("encoding", .string "identity"),
      ("chunking", .record [("chunked", .bool true), ("chunk_size", .number (.decimal (.ofInt 2))),
        ("total_chunks", .number (.decimal (.ofInt 2))),
        ("chunk_sha256", .array [.string (lengthDigest [1]), .string (lengthDigest [2, 3])])]),
      ("manifest_message_id", .string "outbound_0123456789012345678901234567890123456789")])]

def objectRecord : OutboundV2Record :=
  { sourceRecord OUTBOUND_V3_SCHEMA_VERSION with
    record_type := "object"
    payload := (payloadOf objectValue).json }

set_option maxRecDepth 4000 in
theorem chunks_bound_object : objectChunks = objectChunks :=
  have hverified : verifyOutboundV2ObjectChunks (fun _ => none) sourceDigest lengthDigest objectValue
      objectChunks = .ok objectRecord := by
    decide
  chunks_bound (fun _ => none) sourceDigest lengthDigest objectValue objectValue objectChunks objectChunks
    objectRecord objectRecord hverified hverified (fun _ _ ha hb _ => Except.ok.inj (ha.symm.trans hb))
    (by decide) rfl

end Chunks

end QuantproCollector.ResearchOutbound
