import QuantproCollector.D1Kv.Paging
import QuantproCollector.Lib.JsonText
import QuantproCollector.Lib.Run
import QuantproCollector.Lib.Tally

/-!
# The key-value adapter

Model of `createD1Kv` of `src/src/d1-oauth-kv.ts`: its reads and writes by any number of clients, whose
statements take effect in any order and can fail before or after they do. The table is made once by each
isolate; its statement has no other effect than that it can fail. A number of an option is finite.

`get_exec`: a read that answers has what the last write of its key before it has left, where that has not
expired, and what it has left is what some client put.
-/

namespace QuantproCollector.D1Kv

open Async Relational

/-! ## The code -/

inductive KvReadType where
  | text
  | json
  | arrayBuffer
  | stream
deriving DecidableEq

structure KvPutOptions where
  expiration : Option ℚ
  expirationTtl : Option ℚ

/-- What a read answers; a buffer is its bytes, a stream its text. -/
inductive KvValue where
  | text (value : String)
  | json (value : Json)
  | buffer (bytes : List UInt8)
  | stream (value : String)

inductive Thrown where
  | d1
  | syntaxError
deriving DecidableEq

inductive Op where
  | clock
  | ensureSchema
  | select (key : String)
  | upsert (row : KvRow)
  | delete (key : String)
  | list (now : ℤ) (options : KvListOptions)

/-- The clock answers seconds. -/
abbrev Res : Op → Type
  | .clock => ℤ
  | .ensureSchema => Unit
  | .select _ => Option KvRow
  | .upsert _ => Unit
  | .delete _ => Unit
  | .list .. => ListAnswer

abbrev Program (α : Type) := Script Thrown Op Res α

def nowSeconds : Program ℤ := Script.perform Op.clock

def expirationFromOptions (options : Option KvPutOptions) : Program (Option ℤ) :=
  match options with
  | some ⟨some expiration, _⟩ => pure (some expiration.floor)
  | some ⟨none, some expirationTtl⟩ => do
    let now ← nowSeconds
    pure (some (now + expirationTtl.floor))
  | _ => pure none

/-- The value as the type asks for it. -/
def readAs (type : KvReadType) (value : String) : Except Thrown KvValue :=
  match type with
  | .json =>
    match Json.parse value.toList with
    | some v => .ok (.json v)
    | none => .error .syntaxError
  | .arrayBuffer => .ok (.buffer value.toUTF8.toList)
  | .stream => .ok (.stream value)
  | .text => .ok (.text value)

/-- What a read makes of the row that it finds. -/
def found (type : KvReadType) (row : Option KvRow) : Program (Option KvValue) :=
  match row with
  | none => pure none
  | some row =>
    match row.expires_at with
    | none => Script.halt ((readAs type row.value).map some)
    | some expires_at => do
      let now ← nowSeconds
      if expires_at ≤ now then pure none else Script.halt ((readAs type row.value).map some)

def get (key : String) (type : KvReadType) : Program (Option KvValue) := do
  Script.perform Op.ensureSchema
  let row ← Script.perform (Op.select key)
  found type row

def put (key value : String) (options : Option KvPutOptions) : Program Unit := do
  Script.perform Op.ensureSchema
  let expiresAt ← expirationFromOptions options
  Script.perform (Op.upsert ⟨key, value, expiresAt⟩)

def remove (key : String) : Program Unit := do
  Script.perform Op.ensureSchema
  Script.perform (Op.delete key)

def listKeys (options : KvListOptions) : Program ListAnswer := do
  Script.perform Op.ensureSchema
  let now ← nowSeconds
  Script.perform (Op.list now options)

/-- What a client asks of the adapter; `getWithMetadata` answers the value of `get` with no metadata. -/
inductive Task where
  | get (key : String) (type : KvReadType)
  | put (key value : String) (options : Option KvPutOptions)
  | delete (key : String)
  | list (options : KvListOptions)

inductive Answer where
  | value (value : Option KvValue)
  | done
  | listed (answer : ListAnswer)

def Task.program : Task → Program Answer
  | .get key type => do
    let value ← D1Kv.get key type
    pure (.value value)
  | .put key value options => do
    D1Kv.put key value options
    pure .done
  | .delete key => do
    remove key
    pure .done
  | .list options => do
    let answer ← listKeys options
    pure (.listed answer)

/-! ## The machine -/

/-- Whether and where a statement fails. -/
inductive Fault where
  | none
  | before
  | after
deriving DecidableEq

def Fault.landed (f : Fault) : Bool :=
  decide (f ≠ .before)

def Fault.answer {α : Type} (a : α) (f : Fault) : Except Thrown α :=
  if f = .none then .ok a else .error .d1

structure Choice where
  now : ℤ
  fault : Fault

def upsertRow (w : World) (row : KvRow) : World :=
  Table.upsert w row (fun r => { row with kv_key := r.kv_key }) fun _ => rfl

def perform (ch : Choice) : (op : Op) → World → Except Thrown (Res op) × World
  | .clock, w => (.ok ch.now, w)
  | .ensureSchema, w => (ch.fault.answer (), w)
  | .select key, w => (ch.fault.answer (Table.rowOf w key), w)
  | .upsert row, w => (ch.fault.answer (), if ch.fault.landed then upsertRow w row else w)
  | .delete key, w => (ch.fault.answer (), if ch.fault.landed then delete w key else w)
  | .list now options, w => (ch.fault.answer (list w now options), w)

def machine : Machine Thrown Op Res World Choice where
  perform := perform

/-! ## The register of a key -/

/-- The key that a call has written, and the row that it has left there. -/
def written (k : Call Op World Choice) : Option (String × Option KvRow) :=
  match k.op with
  | .upsert row => if k.choice.fault.landed then some (row.kv_key, some row) else none
  | .delete key => if k.choice.fault.landed then some (key, none) else none
  | _ => none

/-- What a call has left under the key, where it has written it. -/
def leaves (key : String) (k : Call Op World Choice) : Option (Option KvRow) :=
  (written k).bind fun p => if p.1 = key then some p.2 else none

/-- What the last write of the key has left, or else the start; a log is newest first. -/
def register (w : World) (key : String) (log : List (Call Op World Choice)) : Option KvRow :=
  (log.findSome? (leaves key)).getD (Table.rowOf w key)

theorem rowOf_upsertRow (w : World) (row : KvRow) (key : String) :
    Table.rowOf (upsertRow w row) key =
      if row.kv_key = key then some row else Table.rowOf w key := by
  unfold upsertRow
  rw [Table.rowOf_upsert]
  split_ifs with hkey
  · cases hrow : Table.rowOf w key with
    | none => rfl
    | some old =>
      have hold := (Table.rowOf_eq_some.1 hrow).2
      simp [hold, ← hkey]
  · rfl

theorem rowOf_delete (w : World) (deleted key : String) :
    Table.rowOf (delete w deleted) key =
      if deleted = key then none else Table.rowOf w key := by
  have hmem : ∀ r, r ∈ delete w deleted ↔ r ∈ w ∧ r.kv_key ≠ deleted := by
    intro r
    simp [delete, Table.mem_deleteWhere]
  split_ifs with hkey
  · subst hkey
    rw [Table.rowOf_eq_none]
    intro r hr
    exact ((hmem r).1 hr).2
  · cases hrow : Table.rowOf w key with
    | none =>
      rw [Table.rowOf_eq_none] at hrow ⊢
      intro r hr
      exact hrow r ((hmem r).1 hr).1
    | some r =>
      obtain ⟨hr, hk⟩ := Table.rowOf_eq_some.1 hrow
      rw [Table.rowOf_eq_some]
      exact ⟨(hmem r).2 ⟨hr, fun e => hkey (e.symm.trans hk)⟩, hk⟩

/-- A call leaves under each key what it has written there. -/
theorem rowOf_perform (t : ℕ) (ch : Choice) (op : Op) (w : World) (key : String) :
    Table.rowOf (machine.perform ch op w).2 key =
      (leaves key ⟨t, op, ch, w⟩).getD (Table.rowOf w key) := by
  cases op with
  | upsert row =>
    cases hl : ch.fault.landed with
    | false => simp [machine, perform, leaves, written, hl]
    | true =>
      simp only [machine, perform, leaves, written, hl, if_true, rowOf_upsertRow, Option.bind_some]
      split_ifs <;> rfl
  | delete deleted =>
    cases hl : ch.fault.landed with
    | false => simp [machine, perform, leaves, written, hl]
    | true =>
      simp only [machine, perform, leaves, written, hl, if_true, rowOf_delete, Option.bind_some]
      split_ifs <;> rfl
  | _ => rfl

/-- Each key has its register, at the end of a run and before each call. -/
theorem register_exec {α : Type} (s : ℕ → Program α) (w : World) (es : List (ℕ × Choice)) :
    (∀ key, Table.rowOf (machine.exec (Config.start w s) es).world key =
        register w key (machine.exec (Config.start w s) es).log) ∧
      Along (fun past k => ∀ key, Table.rowOf k.before key = register w key past)
        (machine.exec (Config.start w s) es).log := by
  refine Machine.exec_induction (P := fun c : Config Thrown Op Res World Choice α =>
    (∀ key, Table.rowOf c.world key = register w key c.log) ∧
      Along (fun past k => ∀ key, Table.rowOf k.before key = register w key past)
        c.log) ?_ es ⟨fun _ => rfl, .nil⟩
  rintro c e ⟨hw, hlog⟩
  rcases Machine.step_cases (M := machine) c e with hs | ⟨op, next, -, hs⟩
  · rw [hs]
    exact ⟨hw, hlog⟩
  · rw [hs]
    refine ⟨fun key => ?_, .cons hw hlog⟩
    show Table.rowOf (machine.perform e.2 op c.world).2 key =
      register w key (⟨e.1, op, e.2, c.world⟩ :: c.log)
    rw [rowOf_perform e.1, hw]
    unfold register
    rw [List.findSome?_cons]
    cases leaves key ⟨e.1, op, e.2, c.world⟩ <;> rfl

/-! ## What a read answers -/

/-- The value of a register at a time. -/
def seen (type : KvReadType) (row : Option KvRow) (now : ℤ) : Except Thrown (Option KvValue) :=
  match row with
  | none => .ok none
  | some row => if row.live now then (readAs type row.value).map some else .ok none

/-- What a read makes of its row is the value at the time of its clock. -/
theorem completes_found {type : KvReadType} {row : Option KvRow} {ks : List (Call Op World Choice)}
    {answer : Answer}
    (h : machine.Completes (found type row >>= fun value => pure (Answer.value value)) ks (.ok answer)) :
    ∃ value now, answer = .value value ∧ seen type row now = .ok value ∧
      ∀ r ∈ row, r.expires_at ≠ none → ∃ c ∈ ks, c.op = .clock ∧ c.choice.now = now := by
  cases row with
  | none =>
    obtain ⟨-, hr⟩ := Machine.completes_halt.1 h
    cases hr
    exact ⟨none, 0, rfl, rfl, by simp⟩
  | some row =>
    cases hexpires : row.expires_at with
    | none =>
      simp only [found, hexpires] at h
      cases hvalue : readAs type row.value with
      | error e =>
        rw [hvalue] at h
        cases (Machine.completes_halt.1 h).2
      | ok v =>
        rw [hvalue] at h
        obtain ⟨-, hr⟩ := Machine.completes_halt.1 h
        cases hr
        refine ⟨some v, 0, rfl, ?_, ?_⟩
        · simp [seen, KvRow.live, hexpires, hvalue, Except.map]
        · rintro r ⟨⟩ hne
          exact absurd hexpires hne
    | some expires_at =>
      simp only [found, hexpires, nowSeconds, Script.perform_bind, Script.call_bind,
        Machine.completes_call] at h
      obtain ⟨t, ch, w, ks, rfl, h⟩ := h
      simp only [machine, perform, Script.halt_ok_bind] at h
      have hclock : ∃ c ∈ (⟨t, .clock, ch, w⟩ :: ks : List (Call Op World Choice)),
          c.op = .clock ∧ c.choice.now = ch.now := ⟨_, List.mem_cons_self, rfl, rfl⟩
      by_cases hpast : expires_at ≤ ch.now
      · rw [if_pos hpast] at h
        obtain ⟨-, hr⟩ := Machine.completes_halt.1 h
        cases hr
        exact ⟨none, ch.now, rfl, by simp [seen, KvRow.live, hexpires, hpast], fun _ _ _ => hclock⟩
      · rw [if_neg hpast] at h
        cases hvalue : readAs type row.value with
        | error e =>
          rw [hvalue] at h
          cases (Machine.completes_halt.1 h).2
        | ok v =>
          rw [hvalue] at h
          obtain ⟨-, hr⟩ := Machine.completes_halt.1 h
          cases hr
          refine ⟨some v, ch.now, rfl, ?_, fun _ _ _ => hclock⟩
          simp [seen, KvRow.live, hexpires, lt_of_not_ge hpast, hvalue, Except.map]

/-- The calls of a read. -/
theorem completes_get {key : String} {type : KvReadType} {ks : List (Call Op World Choice)} {answer : Answer}
    (h : machine.Completes (Task.get key type).program ks (.ok answer)) :
    ∃ k ∈ ks, k.op = .select key ∧ ∃ value now, answer = .value value ∧
      seen type (Table.rowOf k.before key) now = .ok value ∧
      ∀ row ∈ Table.rowOf k.before key, row.expires_at ≠ none →
        ∃ c ∈ ks, c.op = .clock ∧ c.choice.now = now := by
  simp only [Task.program, D1Kv.get, Script.perform_bind, Script.call_bind, Machine.completes_call] at h
  obtain ⟨t, ch, w, ks, rfl, h⟩ := h
  by_cases hf : ch.fault = .none
  · simp only [machine, perform, Fault.answer, hf, if_true, Script.halt_ok_bind] at h
    obtain ⟨t', ch', w', ks', rfl, h'⟩ := Machine.completes_call.1 h
    by_cases hf' : ch'.fault = .none
    · simp only [perform, Fault.answer, hf', if_true, Script.halt_ok_bind] at h'
      refine ⟨⟨t', .select key, ch', w'⟩, by simp, rfl, ?_⟩
      obtain ⟨value, now, hanswer, hseen, hclock⟩ := completes_found h'
      refine ⟨value, now, hanswer, hseen, fun row hrow hexpires => ?_⟩
      obtain ⟨c, hc, hop⟩ := hclock row hrow hexpires
      exact ⟨c, by simp [hc], hop⟩
    · simp only [perform, Fault.answer, hf', if_false, Script.halt_error_bind] at h'
      cases (Machine.completes_halt.1 h').2
  · simp only [machine, perform, Fault.answer, hf, if_false, Script.halt_error_bind] at h
    cases (Machine.completes_halt.1 h).2

/-! ## What is put -/

/-- The time that the options of a put at a time stand for. -/
def expirationAt (options : Option KvPutOptions) (now : ℤ) : Option ℤ :=
  match options with
  | some ⟨some expiration, _⟩ => some expiration.floor
  | some ⟨none, some expirationTtl⟩ => some (now + expirationTtl.floor)
  | _ => none

/-- An operation that a client may issue: a row that it upserts is one that it puts. -/
def Lawful (task : Task) : Op → Prop
  | .upsert row => ∃ key value options now, task = .put key value options ∧
      row = ⟨key, value, expirationAt options now⟩
  | _ => True

theorem issues_found (type : KvReadType) (row : Option KvRow) (task : Task) :
    (found type row).Issues (Lawful task) := by
  cases row with
  | none => trivial
  | some row =>
    simp only [found]
    split
    · trivial
    · refine ⟨trivial, fun r => ?_⟩
      cases r with
      | error e => trivial
      | ok now =>
        show Script.Issues (Lawful task) (if _ then _ else _)
        split_ifs <;> trivial

theorem issues_put (key value : String) (options : Option KvPutOptions) :
    (D1Kv.put key value options).Issues (Lawful (.put key value options)) := by
  refine Script.Issues.bind (Script.issues_perform.2 trivial) fun _ => ?_
  have hupsert : ∀ now, (Script.perform (Op.upsert ⟨key, value, expirationAt options now⟩) :
      Program Unit).Issues (Lawful (.put key value options)) := fun now =>
    Script.issues_perform.2 ⟨key, value, options, now, rfl, rfl⟩
  cases options with
  | none => exact hupsert 0
  | some options =>
    obtain ⟨expiration, expirationTtl⟩ := options
    cases expiration with
    | some expiration => exact hupsert 0
    | none =>
      cases expirationTtl with
      | none => exact hupsert 0
      | some expirationTtl =>
        refine ⟨trivial, fun r => ?_⟩
        cases r with
        | ok now => exact hupsert now
        | error e => trivial

theorem issues_program (task : Task) : task.program.Issues (Lawful task) := by
  cases task with
  | get key type =>
    refine Script.Issues.bind ?_ fun _ => trivial
    refine Script.Issues.bind (Script.issues_perform.2 trivial) fun _ => ?_
    exact Script.Issues.bind (Script.issues_perform.2 trivial) fun row => issues_found type row _
  | put key value options => exact (issues_put key value options).bind fun _ => trivial
  | delete key =>
    refine Script.Issues.bind ?_ fun _ => trivial
    exact Script.Issues.bind (Script.issues_perform.2 trivial) fun _ => Script.issues_perform.2 trivial
  | list options =>
    refine Script.Issues.bind ?_ fun _ => trivial
    refine Script.Issues.bind (Script.issues_perform.2 trivial) fun _ => ?_
    exact Script.Issues.bind (Script.issues_perform.2 trivial) fun _ => Script.issues_perform.2 trivial

/-- What a register holds was there, or was put. -/
theorem register_put {tasks : ℕ → Task} {w : World} {key : String} {log : List (Call Op World Choice)}
    (hlog : ∀ k ∈ log, Lawful (tasks k.thread) k.op) {row : KvRow} (h : register w key log = some row) :
    Table.rowOf w key = some row ∨ ∃ u value options now, tasks u = .put key value options ∧
      row = ⟨key, value, expirationAt options now⟩ := by
  unfold register at h
  cases hfirst : log.findSome? (leaves key) with
  | none =>
    rw [hfirst] at h
    exact .inl h
  | some left =>
    rw [hfirst, Option.getD_some] at h
    subst h
    obtain ⟨k, hk, hleaves⟩ := List.exists_of_findSome?_eq_some hfirst
    have hlawful := hlog k hk
    obtain ⟨p, hp, hkey⟩ := Option.bind_eq_some_iff.1 hleaves
    split_ifs at hkey with hsame
    unfold written at hp
    cases hop : k.op with
    | upsert row' =>
      rw [hop] at hlawful
      obtain ⟨key', value, options, now, htask, hrow⟩ := hlawful
      simp only [hop] at hp
      split_ifs at hp
      obtain rfl := Option.some.inj hp
      obtain rfl : row' = row := Option.some.inj (Option.some.inj hkey)
      rw [hrow] at hsame
      obtain rfl : key' = key := hsame
      exact .inr ⟨k.thread, value, options, now, htask, hrow⟩
    | delete deleted =>
      simp only [hop] at hp
      split_ifs at hp
      obtain rfl := Option.some.inj hp
      cases hkey
    | _ => simp [hop] at hp

/-- A read that answers has the value that the last write of its key before it has left, at the time of its
own clock; what was left is what some client put under the key, or what was there. -/
theorem get_exec (tasks : ℕ → Task) (w : World) (es : List (ℕ × Choice)) (t : ℕ) (key : String)
    (type : KvReadType) (htask : tasks t = .get key type) (answer : Answer)
    (h : (machine.exec (Config.start w fun t => (tasks t).program) es).result? t = some (.ok answer)) :
    let c := machine.exec (Config.start w fun t => (tasks t).program) es
    ∃ k later past value now, c.log = later ++ k :: past ∧ k.thread = t ∧ k.op = .select key ∧
      answer = .value value ∧ seen type (register w key past) now = .ok value ∧
      ∀ row ∈ register w key past,
        (row.expires_at ≠ none → ∃ r ∈ c.log, r.thread = t ∧ r.op = .clock ∧ r.choice.now = now) ∧
        (Table.rowOf w key = some row ∨ ∃ u value options at_, tasks u = .put key value options ∧
          row = ⟨key, value, expirationAt options at_⟩) := by
  intro c
  have hcompletes := Machine.completes_exec es h
  rw [htask] at hcompletes
  obtain ⟨k, hk, hop, value, now, hanswer, hseen, hclock⟩ := completes_get hcompletes
  have htrace : ∀ r ∈ (c.trace t).reverse, r ∈ c.log ∧ r.thread = t := by
    intro r hr
    simpa using List.mem_filter.1 (List.mem_reverse.1 hr)
  obtain ⟨hklog, hthread⟩ := htrace k hk
  obtain ⟨later, past, hlog⟩ := List.append_of_mem hklog
  have halong := (register_exec (fun t => (tasks t).program) w es).2
  rw [show (machine.exec (Config.start w fun t => (tasks t).program) es).log = later ++ k :: past from hlog]
    at halong
  have hbefore := (along_cons.1 halong.of_append).1 key
  have hlawful : ∀ r ∈ c.log, Lawful (tasks r.thread) r.op := fun r hr =>
    (Machine.exec_log (M := machine) (I := fun _ => True) (S := fun t => Lawful (tasks t))
      (fun _ _ _ _ _ _ => trivial) (c := Config.start w fun t => (tasks t).program)
      (fun t => issues_program (tasks t)) trivial (by simp [Config.start]) es r hr).1
  rw [hbefore] at hseen hclock
  refine ⟨k, later, past, value, now, hlog, hthread, hop, hanswer, hseen, fun row hrow => ⟨?_, ?_⟩⟩
  · intro hexpires
    obtain ⟨r, hr, hrop, hnow⟩ := hclock row hrow hexpires
    exact ⟨r, (htrace r hr).1, (htrace r hr).2, hrop, hnow⟩
  · apply register_put (fun r hr => hlawful r ?_) hrow
    rw [hlog]
    exact List.mem_append_right later (List.mem_cons_of_mem k hr)

def emptyStore : World := Table.empty

def sessionTasks : ℕ → Task
  | 0 => .put "token:a" "grant" (some ⟨none, some 60⟩)
  | _ => .get "token:a" .text

/-- A value is put for a minute, and read in its last second. -/
def sessionRun : List (ℕ × Choice) :=
  List.replicate 3 (0, ⟨100, .none⟩) ++ List.replicate 3 (1, ⟨159, .none⟩)

theorem get_exec_session :
    let c := machine.exec (Config.start emptyStore fun t => (sessionTasks t).program) sessionRun
    ∃ k later past value now, c.log = later ++ k :: past ∧ k.thread = 1 ∧ k.op = .select "token:a" ∧
      Answer.value (some (.text "grant")) = .value value ∧
      seen .text (register emptyStore "token:a" past) now = .ok value ∧
      ∀ row ∈ register emptyStore "token:a" past,
        (row.expires_at ≠ none → ∃ r ∈ c.log, r.thread = 1 ∧ r.op = .clock ∧ r.choice.now = now) ∧
        (Table.rowOf emptyStore "token:a" = some row ∨ ∃ u value options at_,
          sessionTasks u = .put "token:a" value options ∧
            row = ⟨"token:a", value, expirationAt options at_⟩) :=
  get_exec sessionTasks emptyStore sessionRun 1 "token:a" .text rfl (.value (some (.text "grant"))) rfl

end QuantproCollector.D1Kv
