import Mathlib.Data.Char
import Mathlib.Data.List.Lex
import Mathlib.Data.List.Sort
import QuantproCollector.Lib.JsonUpdate
import QuantproCollector.Lib.Run

/-!
# Promotion of compiled prompts

Model of `promote` in `src/automation/promote.py`, of `verify` in `src/automation/verify_deployment.py` and of
the selection in `compile_all` of `src/automation/build_prompts.py`. The script reads the control file twice,
compiles the selected prompts from remote sources, verifies them against what the service saved, reads the
control file again, and replaces it by a renamed temporary file.

The world is the control file; what `--out` names are other files. The choice of a step is what its call
answers or how it fails: the compiled prompt of each key, or an error before the file is replaced.
-/

namespace QuantproCollector.PromptRelease
open Async

/-! ## Python -/

/-- What the scripts take from Python: `json.loads` of a file with its decoding, `json.dump` with the line
break after it, the SHA-256 digest, `==` on loaded values, and whether two have one type. -/
structure Python where
  loads : List Char → Except String Json
  dumps : Json → List Char
  digest : String → String
  eq : Json → Json → Bool
  sameType : Json → Json → Bool

/-- The truth of a loaded value. -/
def truthy : Json → Bool
  | .null => false
  | .bool b => b
  | .num x => decide (x.mantissa ≠ 0)
  | .str s => s != ""
  | .arr xs => !xs.isEmpty
  | .obj fields => !fields.isEmpty

/-- The check of a condition that raises `BuildError`. -/
def check (c : Bool) (message : String) : Except String Unit :=
  if c then .ok () else .error message

/-! ## Compilation -/

def CONTRACT : String := "automation-v3"

/-- The keys of `CONTRACTS`. -/
def CONTRACTS : List String :=
  ["holding-assistant-intraday", "holding-assistant-preclose", "industry-research", "company-facts",
    "central-policy", "ai-financing-rates"]

/-- A compiled entry of the manifest. -/
structure Candidate where
  prompt_id : String
  path : String
  write_scope : String
  mode : Option String
  automation_id : String
  automation_guidance : List String
  research_guidance : List String
  max_chars : ℕ
  production_ref : String
  compiled_prompt_sha256 : String
  compiled_prompt_chars : ℕ
  source_sha256 : List (String × String)
deriving DecidableEq

structure Manifest where
  contract_version : String
  source_ref : String
  registry : List (String × Candidate)

/-- The selected keys in order. -/
def selected (keys : Option (List String)) : List String :=
  (keys.getD CONTRACTS).insertionSort fun a b => a.toList ≤ b.toList

/-- `compile_all`: the check of the selection, and each selected prompt as it is compiled. -/
def compile_all (ref : String) (keys : Option (List String))
    (compiled : String → Except String (Candidate × String)) :
    Except String (Manifest × List (String × String)) := do
  check (!(selected keys).isEmpty && decide (selected keys).Nodup &&
    (selected keys).all fun key => CONTRACTS.contains key) "invalid/duplicate selected registry keys"
  let entries ← (selected keys).mapM fun key => (compiled key).map fun c => (key, c)
  pure (⟨CONTRACT, ref, entries.map fun e => (e.1, { e.2.1 with production_ref := ref })⟩,
    entries.map fun e => (e.1, e.2.2))

/-! ## Verification -/

def PROTECTED : List String :=
  ["title", "schedule", "is_enabled", "default_timezone", "timing_mode", "notifications_enabled",
    "email_enabled"]

/-- The list of snapshots in what the service answered. -/
def snapshotItems (value : Json) : Json :=
  match value with
  | .obj _ =>
    match value.get? "jawbones", value.get? "jawbone", value.get? "id" with
    | some jawbones, _, _ => jawbones
    | none, some jawbone, _ => .arr [jawbone]
    | none, none, some _ => .arr [value]
    | none, none, none => value
  | _ => value

def addSnapshot (result : List (String × Json)) (item : Json) : Except String (List (String × Json)) :=
  match item.get? "id" with
  | some (.str id) =>
    if (result.lookup id).isSome then .error "duplicate Automation id in snapshot"
    else .ok (result ++ [(id, item)])
  | _ => .error "invalid actual Automation snapshot"

def snapshots (value : Json) : Except String (List (String × Json)) :=
  match snapshotItems value with
  | .arr items => items.foldlM addSnapshot []
  | _ => .error "snapshot must contain actual Automation objects"

/-- What is recorded of one verified task; of its previous prompt, the digest and the length. -/
structure TaskReceipt where
  automation_id : String
  production_ref : String
  compiled_prompt_sha256 : String
  compiled_prompt_chars : ℕ
  protected_settings : List (String × Json)
  previous_prompt : Option (String × ℕ)

structure Receipt where
  contract_version : String
  source_ref : String
  registry : List (String × TaskReceipt)

def checkProtected (P : Python) (key : String) (original actual : Json) (field : String) :
    Except String Unit :=
  match original.get? field, actual.get? field with
  | some x, some y =>
    check (P.sameType x y && P.eq x y) (key ++ ": protected setting changed: " ++ field)
  | _, _ => .error (key ++ ": protected field not observed: " ++ field)

def isBool : Option Json → Bool
  | some (.bool _) => true
  | _ => false

def isText : Option Json → Bool
  | some (.str s) => s != ""
  | _ => false

/-- The checks of one key in `verify`. -/
def verifyKey (P : Python) (prompts : List (String × String)) (baseline observed : List (String × Json))
    (key : String) (expected : Candidate) : Except String TaskReceipt :=
  match baseline.lookup expected.automation_id, observed.lookup expected.automation_id with
  | some original, some actual => do
    PROTECTED.forM (checkProtected P key original actual)
    ["is_enabled", "notifications_enabled", "email_enabled"].forM fun field =>
      check (isBool (actual.get? field)) (key ++ ": invalid actual boolean: " ++ field)
    ["title", "schedule", "default_timezone", "timing_mode"].forM fun field =>
      check (isText (actual.get? field)) (key ++ ": invalid actual setting: " ++ field)
    match actual.get? "prompt", prompts.lookup key with
    | some (.str prompt), some candidate => do
      check (P.digest candidate == expected.compiled_prompt_sha256 &&
        candidate.toList.length == expected.compiled_prompt_chars)
        (key ++ ": expected artifact differs from manifest")
      check (prompt == candidate && P.digest prompt == expected.compiled_prompt_sha256)
        (key ++ ": actual saved prompt differs from compiled full text")
      check (decide (prompt.toList.length ≤ expected.max_chars))
        (key ++ ": actual saved prompt exceeds budget")
      pure {
        automation_id := expected.automation_id
        production_ref := expected.production_ref
        compiled_prompt_sha256 := P.digest prompt
        compiled_prompt_chars := prompt.toList.length
        protected_settings := PROTECTED.filterMap fun field => (actual.get? field).map fun x => (field, x)
        previous_prompt := ((original.get? "prompt").bind Json.str?).map fun s =>
          (P.digest s, s.toList.length) }
    | _, _ => .error (key ++ ": actual saved full prompt was not returned")
  | _, _ => .error (key ++ ": actual baseline/readback missing")

def verify (P : Python) (manifest : Manifest) (prompts : List (String × String)) (before after : Json) :
    Except String Receipt := do
  check (manifest.contract_version == CONTRACT) "unsupported manifest contract"
  let baseline ← snapshots before
  let observed ← snapshots after
  check ((prompts.map Prod.fst).all (fun key => (manifest.registry.map Prod.fst).contains key) &&
    (manifest.registry.map Prod.fst).all fun key => (prompts.map Prod.fst).contains key)
    "manifest/prompt key mismatch"
  let results ← manifest.registry.mapM fun e =>
    (verifyKey P prompts baseline observed e.1 e.2).map fun r => (e.1, r)
  pure ⟨CONTRACT, manifest.source_ref, results⟩

/-! ## The control -/

/-- `_read_control`, of the text that was read. -/
def read_control (P : Python) (text : List Char) : Except String Json := do
  let value ← P.loads text
  check (value.get? "status" == some (.str "PRODUCTION") && ((value.get? "registry").any truthy))
    "invalid production audit control"
  pure value

def optText : Option String → Json
  | none => .null
  | some s => .str s

/-- The checks of one candidate against the entry it is to replace. -/
def validateEntry (P : Python) (control : Json) (key : String) (entry : Candidate) : Except String Unit :=
  match (control.get? "registry").bind (·.get? key) with
  | some (.obj old) => do
    [("prompt_id", Json.str entry.prompt_id), ("write_scope", .str entry.write_scope),
        ("mode", optText entry.mode)].forM fun f =>
      check (P.eq (((Json.obj old).get? f.1).getD .null) f.2)
        (key ++ ": production ownership/mode changed: " ++ f.1)
    check (P.eq (((Json.obj old).get? "automation_id").getD (.str entry.automation_id))
      (.str entry.automation_id)) (key ++ ": production task id changed")
  | _ => .error (key ++ ": not an existing production task")

/-- What a promotion writes into an entry. -/
def Candidate.updates (c : Candidate) : List (String × Json) :=
  [("path", .str c.path), ("production_ref", .str c.production_ref), ("automation_id", .str c.automation_id),
    ("automation_guidance", .arr (c.automation_guidance.map .str)),
    ("research_guidance", .arr (c.research_guidance.map .str)),
    ("compiled_prompt_sha256", .str c.compiled_prompt_sha256),
    ("compiled_prompt_chars", .num (.ofInt c.compiled_prompt_chars)),
    ("max_chars", .num (.ofInt c.max_chars)),
    ("contract_version", .str CONTRACT), ("deployment_status", .str "VERIFIED"),
    ("source_sha256", .obj (c.source_sha256.map fun s => (s.1, .str s.2)))]

/-- The registry with the entry of one candidate written into it. -/
def promoteEntry (registry : Json) (e : String × Candidate) : Json :=
  registry.set e.1 (((registry.get? e.1).getD .null).assign e.2.updates)

/-- The `production_ref` of every entry; an entry without one raises. -/
def productionRefs : Json → Except String (List Json)
  | .obj entries => entries.mapM fun e =>
    match e.2.get? "production_ref" with
    | some ref => .ok ref
    | none => .error "production_ref"
  | _ => .error "registry"

/-- The one reference of all entries, or null. -/
def contentRef (P : Python) : List Json → Json
  | [] => .null
  | ref :: refs => if refs.all (P.eq ref) then ref else .null

/-- The control with the candidates of a manifest in it. -/
def promoted (P : Python) (control : Json) (manifest : Manifest) (ref : String) : Except String Json :=
  let updated := control.set "schema_version" (.str "quantpro-automation-control-v3")
  let registry := manifest.registry.foldl promoteEntry ((control.get? "registry").getD .null)
  (productionRefs registry).map fun refs =>
    ((updated.set "registry" registry).set "content_ref" (contentRef P refs)).set
      "last_verified_release_ref" (.str ref)

/-! ## The script -/

/-- What the script calls: the two readings of the control file, the comparison with a third one, the
compilation, the artifacts, the receipt, and the replacement. -/
inductive Op where
  | readControl
  | compareControl (original : List Char)
  | compileAll (ref : String) (keys : Option (List String))
  | emit
  | writeReceipt
  | replaceControl (text : List Char)
deriving DecidableEq

abbrev Op.Res : Op → Type
  | .readControl => List Char
  | .compareControl _ => Bool
  | .compileAll _ _ => Manifest × List (String × String)
  | .emit | .writeReceipt | .replaceControl _ => Unit

/-- What the world decides of a call: a failure, and the compiled prompt of each key. -/
structure Choice where
  fault : Option String
  compiled : String → Except String (Candidate × String)

abbrev World : Type := List Char

abbrev Program (α : Type) : Type := Script String Op Op.Res α

/-- The answer of a call that does not fail. -/
def answer (ch : Choice) (w : World) : (op : Op) → Except String op.Res
  | .readControl => .ok w
  | .compareControl original => .ok (decide (w = original))
  | .compileAll ref keys => compile_all ref keys ch.compiled
  | .emit | .writeReceipt | .replaceControl _ => .ok ()

def files : Machine String Op Op.Res World Choice where
  perform ch op w :=
    match ch.fault with
    | some e => (.error e, w)
    | none =>
      match op with
      | .replaceControl text => (.ok (), text)
      | op => (answer ch w op, w)

/-- The result of a computation, raised where it failed. -/
def lift {α : Type} (r : Except String α) : Program α := .halt r

def readControl : Program (List Char) := Script.perform Op.readControl

def compareControl (original : List Char) : Program Bool := Script.perform (Op.compareControl original)

def compileAll (ref : String) (keys : Option (List String)) : Program (Manifest × List (String × String)) :=
  Script.perform (Op.compileAll ref keys)

def emit : Program Unit := Script.perform Op.emit

def writeReceipt : Program Unit := Script.perform Op.writeReceipt

def replaceControl (text : List Char) : Program Unit := Script.perform (Op.replaceControl text)

/-- What a run is given; the snapshots are null where the option is missing. -/
structure Args where
  ref : String
  keys : Option (List String)
  apply : Bool
  before : Json
  after : Json
  out : Bool

inductive Status where
  | PREPARED
  | VERIFIED
deriving DecidableEq

/-- The artifacts and the receipt are only written where `--out` names a directory. -/
def whenOut (a : Args) (s : Program Unit) : Program Unit :=
  if a.out then s else pure ()

/-- `promote`, from the verification on. -/
def applyManifest (P : Python) (a : Args) (original : List Char) (control : Json)
    (manifest : Manifest) (prompts : List (String × String)) : Program Status := do
  let _ ← lift (verify P manifest prompts a.before a.after)
  let updated ← lift (promoted P control manifest a.ref)
  let same ← compareControl original
  lift (check same "production control changed during verification; reread before applying")
  whenOut a writeReceipt
  replaceControl (P.dumps updated)
  pure .VERIFIED

def promote (P : Python) (a : Args) : Program Status := do
  lift (check (!a.apply || (a.before != .null && a.after != .null))
    "--apply requires actual Automation before and after snapshots")
  let original ← readControl
  let text ← readControl
  let control ← lift (read_control P text)
  let compiled ← compileAll a.ref a.keys
  lift (compiled.1.registry.forM fun e => validateEntry P control e.1 e.2)
  whenOut a emit
  if a.apply then applyManifest P a original control compiled.1 compiled.2 else pure .PREPARED

end QuantproCollector.PromptRelease
