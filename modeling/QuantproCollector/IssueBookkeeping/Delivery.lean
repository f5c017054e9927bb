import QuantproCollector.IssueBookkeeping.Ledger
import QuantproCollector.Lib.Knowledge

/-!
# Deliveries of the bookkeeping sink

A request takes a row for its own where the row that it reads back has its own clock reading. A row
keeps the reading of the request that inserted it (`Held`), so a request that lost the race is told
apart from the winner exactly by its reading: `delivers_once` holds of every run in which no request
reserves a key whose row has the very reading of the request.
-/

namespace QuantproCollector.IssueBookkeeping

open Relational Async

abbrev Log := List (Call Op World Choice)

abbrev Run := Config Thrown Op Res World Choice IssueBookkeepingReceipt

/-! ## What calls do -/

/-- The call asks GitHub for the delivery of the key. -/
def delivers (key : String) (k : Call Op World Choice) : Bool :=
  match k.op with
  | .deliver key' _ => decide (key' = key)
  | _ => false

/-- The call inserts the row of the key. -/
def Creates (key : String) (k : Call Op World Choice) : Prop :=
  ∃ row, k.op = .insertRow row ∧ row.dedupe_key = key ∧ k.choice.fault ≠ .before ∧
    ∀ r ∈ k.before, r.dedupe_key ≠ key

/-- The row of the key has the reading. -/
def Held (key reading : String) (w : World) : Prop :=
  ∃ r ∈ w, r.dedupe_key = key ∧ r.occurred_at = reading

instance (key reading : String) (w : World) : Decidable (Held key reading w) :=
  inferInstanceAs (Decidable (∃ r ∈ w.rows, r.dedupe_key = key ∧ r.occurred_at = reading))

/-- The call reserves a key whose row has the reading of the request. -/
def Coincides (k : Call Op World Choice) : Prop :=
  match k.op with
  | .insertRow row => Held row.dedupe_key row.occurred_at k.before
  | _ => False

instance : DecidablePred Coincides := fun k => by
  unfold Coincides
  split
  · infer_instance
  · infer_instance

/-- No request reserves a key whose row has its own reading. -/
def SeparateReadings (log : Log) : Prop :=
  ∀ k ∈ log, ¬ Coincides k

instance : DecidablePred SeparateReadings := fun log =>
  inferInstanceAs (Decidable (∀ k ∈ log, ¬ Coincides k))

theorem SeparateReadings.tail {k : Call Op World Choice} {log : Log}
    (h : SeparateReadings (k :: log)) : SeparateReadings log :=
  fun k' hk' => h k' (List.mem_cons_of_mem _ hk')

theorem Held.unique {key a b : String} {w : World} (ha : Held key a w) (hb : Held key b w) :
    a = b := by
  obtain ⟨r, hr, rfl, rfl⟩ := ha
  obtain ⟨r', hr', hkey, rfl⟩ := hb
  obtain rfl := Table.unique_of_mem (i := fun r : StoredRow => some r.dedupe_key) (by simp) hr hr'
    (by simp) (by simp [hkey])
  rfl

theorem held_insertRow {key reading : String} {w : World} (row : StoredRow)
    (h : Held key reading w) : Held key reading (insertRow w row) := by
  obtain ⟨r, hr, rfl, rfl⟩ := h
  refine ⟨r, Table.mem_upsert.2 ?_, rfl, rfl⟩
  by_cases hkey : r.dedupe_key = row.dedupe_key
  · exact .inr (.inl ⟨r, hr, hkey, rfl⟩)
  · exact .inl ⟨hr, hkey⟩

/-- Recording an outcome under the reading of the row keeps the reading. -/
theorem held_updateRow {key reading : String} {w : World} {u : RowUpdate}
    (h : Held key reading w) (hu : Held u.dedupe_key u.occurred_at w) :
    Held key reading (updateRow w u) := by
  have hsame : key = u.dedupe_key → reading = u.occurred_at := by
    rintro rfl
    exact h.unique hu
  obtain ⟨r, hr, rfl, rfl⟩ := h
  refine ⟨_, Table.mem_modify.2 ⟨r, hr, rfl⟩, ?_, ?_⟩
  · split_ifs
    · rfl
    · rfl
  · split_ifs with hkey
    · exact (hsame (by simpa using hkey)).symm
    · rfl

theorem exists_row_perform {key : String} {w : World} (ch : Choice) (op : Op)
    (h : ∃ r ∈ w, r.dedupe_key = key) : ∃ r ∈ (perform ch op w).2, r.dedupe_key = key := by
  obtain ⟨r, hr, rfl⟩ := h
  have hinsert : ∀ row, ∃ r' ∈ insertRow w row, r'.dedupe_key = r.dedupe_key := fun row =>
    Table.exists_key_upsert.2 (.inl ⟨r, hr, rfl⟩)
  have hupdate : ∀ u, ∃ r' ∈ updateRow w u, r'.dedupe_key = r.dedupe_key := by
    intro u
    obtain ⟨r', hr', hkey⟩ := (Table.exists_key_modify (i := fun r : StoredRow => some r.dedupe_key)
      (by simp) (t := w)).2 ⟨r, hr, rfl⟩
    exact ⟨r', hr', Option.some.inj hkey⟩
  cases op with
  | insertRow row =>
    cases hf : ch.fault <;> simp only [perform, statement, hf]
    · exact hinsert row
    · exact ⟨r, hr, rfl⟩
    · exact hinsert row
  | updateRow u =>
    cases hf : ch.fault <;> simp only [perform, statement, hf]
    · exact hupdate u
    · exact ⟨r, hr, rfl⟩
    · exact hupdate u
  | ensureTable => cases hf : ch.fault <;> exact ⟨r, by simpa [perform, statement, hf] using hr, rfl⟩
  | clock => exact ⟨r, hr, rfl⟩
  | selectRow key => exact ⟨r, hr, rfl⟩
  | deliver key request => exact ⟨r, hr, rfl⟩

/-! ## What requests know -/

/-- How far a request has come. -/
inductive Known where
  | fresh
  | reserved (key reading : String)
  | own (key reading : String) (delivered : Bool)

/-- A request records and delivers only for a row that it takes for its own, and delivers once. -/
def bookkeeping : Script.Discipline Thrown Op Res Known where
  pre κ op := match op with
    | .insertRow _ => κ = .fresh
    | .updateRow u => ∃ b, κ = .own u.dedupe_key u.occurred_at b
    | .deliver key _ => ∃ reading, κ = .own key reading false
    | _ => True
  learn κ op r := match op, r with
    | .insertRow row, .ok _ => .reserved row.dedupe_key row.occurred_at
    | .selectRow key, .ok (some row) =>
      match κ with
      | .reserved key' reading =>
        if key' = key ∧ row.occurred_at = reading then .own key reading false else κ
      | _ => κ
    | .deliver _ _, _ =>
      match κ with
      | .own key reading _ => .own key reading true
      | _ => κ
    | _, _ => κ
  may _ _ := True

def Undelivered (t : ℕ) (log : Log) : Prop :=
  ∀ k ∈ log, k.thread = t → ∀ key, delivers key k = false

def Created (t : ℕ) (key : String) (log : Log) : Prop :=
  ∃ k ∈ log, k.thread = t ∧ Creates key k

/-- What the knowledge of a request says. -/
def Known.Means (t : ℕ) : Known → Log → World → Prop
  | .fresh, log, _ => Undelivered t log
  | .reserved key reading, log, w => Undelivered t log ∧ (SeparateReadings log →
      Created t key log ∨ ∃ other, other ≠ reading ∧ Held key other w)
  | .own key reading delivered, log, w => (delivered = false → Undelivered t log) ∧
      Held key reading w ∧ (SeparateReadings log → Created t key log)

/-- Every call of a request that knows what it must keeps the readings of the rows. -/
theorem held_perform {u : ℕ} {κ : Known} {log : Log} {w : World} {op : Op}
    (hκ : κ.Means u log w) (hpre : bookkeeping.pre κ op) (ch : Choice) {key reading : String}
    (h : Held key reading w) : Held key reading (perform ch op w).2 := by
  cases op with
  | insertRow row =>
    cases hf : ch.fault <;> simp only [perform, statement, hf]
    · exact held_insertRow row h
    · exact h
    · exact held_insertRow row h
  | updateRow v =>
    obtain ⟨b, rfl⟩ := hpre
    obtain ⟨-, hheld, -⟩ := hκ
    cases hf : ch.fault <;> simp only [perform, statement, hf]
    · exact held_updateRow h hheld
    · exact h
    · exact held_updateRow h hheld
  | ensureTable => cases hf : ch.fault <;> simpa only [perform, statement, hf] using h
  | clock => exact h
  | selectRow key => exact h
  | deliver key request => exact h

theorem Undelivered.cons {t : ℕ} {log : Log} (h : Undelivered t log) {k : Call Op World Choice}
    (hk : k.thread = t → ∀ key, delivers key k = false) : Undelivered t (k :: log) :=
  List.forall_mem_cons.2 ⟨hk, h⟩

theorem Created.cons {t : ℕ} {key : String} {log : Log} (h : Created t key log)
    (k : Call Op World Choice) : Created t key (k :: log) := by
  obtain ⟨k', hk', hcreates⟩ := h
  exact ⟨k', List.mem_cons_of_mem _ hk', hcreates⟩

/-- Knowledge stays true under a call that keeps the readings and is no delivery of the request. -/
theorem Known.Means.cons {t : ℕ} {κ : Known} {log : Log} {w w' : World} (h : κ.Means t log w)
    {k : Call Op World Choice} (hk : k.thread = t → ∀ key, delivers key k = false)
    (hheld : ∀ key reading, Held key reading w → Held key reading w') : κ.Means t (k :: log) w' := by
  cases κ with
  | fresh => exact Undelivered.cons h hk
  | reserved key reading =>
    obtain ⟨hundelivered, hrow⟩ := h
    refine ⟨hundelivered.cons hk, fun hseparate => ?_⟩
    rcases hrow hseparate.tail with hcreated | ⟨other, hne, hother⟩
    · exact .inl (hcreated.cons k)
    · exact .inr ⟨other, hne, hheld _ _ hother⟩
  | own key reading delivered =>
    obtain ⟨hundelivered, hrow, hcreated⟩ := h
    exact ⟨fun hd => (hundelivered hd).cons hk, hheld _ _ hrow,
      fun hseparate => (hcreated hseparate.tail).cons k⟩

theorem mem_of_rowFor {w : World} {key : String} {row : StoredRow} (h : rowFor w key = some row) :
    row ∈ w ∧ row.dedupe_key = key := by
  obtain ⟨hrow, hkey⟩ := Table.mem_of_find? h
  exact ⟨hrow, by simpa using hkey⟩

/-- What a reservation teaches: the row is the request's own, or has another reading. -/
theorem means_reserved {t : ℕ} {ch : Choice} {row : StoredRow} {log : Log} {w : World}
    (h : Undelivered t log) (hf : ch.fault = .none) :
    (Known.reserved row.dedupe_key row.occurred_at).Means t (⟨t, .insertRow row, ch, w⟩ :: log)
      (insertRow w row) := by
  refine ⟨h.cons fun _ _ => rfl, fun hseparate => ?_⟩
  by_cases hrow : ∃ r ∈ w, r.dedupe_key = row.dedupe_key
  · obtain ⟨r, hr, hkey⟩ := hrow
    have hheld : Held row.dedupe_key r.occurred_at w := ⟨r, hr, hkey, rfl⟩
    refine .inr ⟨r.occurred_at, fun heq => ?_, held_insertRow row hheld⟩
    exact hseparate _ List.mem_cons_self (heq ▸ hheld : Held row.dedupe_key row.occurred_at w)
  · exact .inl ⟨_, List.mem_cons_self, rfl, row, rfl, rfl, by simp [hf],
      fun r hr hkey => hrow ⟨r, hr, hkey⟩⟩

theorem sound_bookkeeping : machine.Sound bookkeeping Known.Means where
  may _ _ _ _ _ _ _ _ := trivial
  frame t u κ κ' ch op log w hne hκ hκ' hpre :=
    hκ.cons (fun h => absurd h hne) fun _ _ h => held_perform hκ' hpre ch h
  learn t κ ch op log w hκ hpre := by
    have hkept : ∀ key reading, Held key reading w → Held key reading (perform ch op w).2 :=
      fun _ _ h => held_perform hκ hpre ch h
    cases op with
    | clock => exact hκ.cons (fun _ _ => rfl) hkept
    | ensureTable => exact hκ.cons (fun _ _ => rfl) hkept
    | updateRow v => exact hκ.cons (fun _ _ => rfl) hkept
    | insertRow row =>
      obtain rfl : κ = .fresh := hpre
      cases hf : ch.fault with
      | none =>
        have hanswer : machine.perform ch (.insertRow row) w = (.ok (), insertRow w row) := by
          simp [machine, perform, statement, hf]
        rw [hanswer]
        exact means_reserved hκ hf
      | before =>
        have hanswer : machine.perform ch (.insertRow row) w = (.error .raw, w) := by
          simp [machine, perform, statement, hf]
        rw [hanswer]
        exact Undelivered.cons hκ fun _ _ => rfl
      | after =>
        have hanswer : machine.perform ch (.insertRow row) w = (.error .raw, insertRow w row) := by
          simp [machine, perform, statement, hf]
        rw [hanswer]
        exact Undelivered.cons hκ fun _ _ => rfl
    | selectRow key =>
      have hsame : κ.Means t (⟨t, .selectRow key, ch, w⟩ :: log) w :=
        hκ.cons (fun _ _ => rfl) fun _ _ h => h
      by_cases hf : ch.fault = .none
      · have hanswer : machine.perform ch (.selectRow key) w = (.ok (rowFor w key), w) := by
          simp [machine, perform, hf]
        rw [hanswer]
        cases hrow : rowFor w key with
        | none => exact hsame
        | some row =>
          cases κ with
          | fresh => exact hsame
          | own key' reading delivered => exact hsame
          | reserved key' reading =>
            simp only [bookkeeping]
            split_ifs with hown
            · obtain ⟨rfl, rfl⟩ := hown
              obtain ⟨hmem, hkey⟩ := mem_of_rowFor hrow
              have hheld : Held key' row.occurred_at w := ⟨row, hmem, hkey, rfl⟩
              refine ⟨fun _ => hsame.1, hheld, fun hseparate => ?_⟩
              rcases hsame.2 hseparate with hcreated | ⟨other, hne, hother⟩
              · exact hcreated
              · exact absurd (hother.unique hheld) hne
            · exact hsame
      · have hanswer : machine.perform ch (.selectRow key) w = (.error .raw, w) := by
          simp [machine, perform, hf]
        rw [hanswer]
        exact hsame
    | deliver key request =>
      obtain ⟨reading, rfl⟩ := hpre
      obtain ⟨-, hheld, hcreated⟩ := hκ
      exact ⟨fun h => (nomatch h), hheld, fun hseparate => (hcreated hseparate.tail).cons _⟩

/-! ## The program -/

theorem upholds_deliverAndRecord (input : Input) (command : Command) (target : TargetEntry)
    (occurredAt : String) :
    (deliverAndRecord input command target occurredAt).Upholds bookkeeping (fun _ _ => True)
      (.own command.dedupe_key occurredAt false) := by
  unfold deliverAndRecord
  split_ifs
  · exact ⟨⟨false, rfl⟩, fun r _ => by cases r <;> trivial⟩
  · refine ⟨⟨occurredAt, rfl⟩, fun r _ => ?_⟩
    cases r with
    | ok response =>
      refine ⟨⟨true, ?_⟩, fun r _ => by cases r <;> trivial⟩
      simp only [bookkeeping, deliveryOutcome]
      split_ifs <;> rfl
    | error e => exact ⟨⟨true, rfl⟩, fun r _ => by cases r <;> trivial⟩

theorem upholds_bookkeep (input : Input) (command : Command) (target : TargetEntry)
    (occurredAt : String) :
    (bookkeep input command target occurredAt).Upholds bookkeeping (fun _ _ => True) .fresh := by
  refine ⟨trivial, fun r _ => ?_⟩
  cases r with
  | error e => trivial
  | ok a =>
    refine ⟨trivial, fun r _ => ?_⟩
    cases r with
    | error e => trivial
    | ok existing =>
      cases existing with
      | some row => trivial
      | none =>
        refine ⟨rfl, fun r _ => ?_⟩
        cases r with
        | error e => trivial
        | ok a =>
          refine ⟨trivial, fun r _ => ?_⟩
          cases r with
          | error e => trivial
          | ok raced =>
            cases raced with
            | none => trivial
            | some row =>
              change Script.Upholds bookkeeping _ _ (if row.occurred_at ≠ occurredAt then
                pure (replayReceipt row) else deliverAndRecord input command target occurredAt)
              split_ifs with hreading
              · trivial
              · have hown : bookkeeping.learn (.reserved command.dedupe_key occurredAt)
                    (.selectRow command.dedupe_key) (.ok (some row)) =
                    .own command.dedupe_key occurredAt false := by
                  simp [bookkeeping, not_not.1 hreading]
                exact hown ▸ upholds_deliverAndRecord input command target occurredAt

theorem upholds_atTime (input : Input) (occurredAt : String) :
    Script.Upholds bookkeeping (fun _ _ => True) Known.fresh (do
      match parseCommand input with
      | .error e => throw e
      | .ok command =>
        match parseTargets input.targetsRaw with
        | none => return rejected command "bookkeeping targets not configured" occurredAt
        | some targets =>
          match lookupTarget targets command.target_key with
          | none => return rejected command "target_key is not whitelisted" occurredAt
          | some target => bookkeep input command target occurredAt) := by
  split
  · trivial
  · split
    · trivial
    · split
      · trivial
      · exact upholds_bookkeep ..

theorem upholds_submitIssueBookkeeping (input : Input) :
    (submitIssueBookkeeping input).Upholds bookkeeping (fun _ _ => True) .fresh := by
  unfold submitIssueBookkeeping
  cases input.now with
  | some now => exact upholds_atTime input now
  | none =>
    refine ⟨trivial, fun r _ => ?_⟩
    cases r with
    | ok now => exact upholds_atTime input now
    | error e => trivial

/-! ## Runs -/

structure Once (c : Run) : Prop where
  present : ∀ k ∈ c.log, ∀ key, Creates key k → ∃ r ∈ c.world, r.dedupe_key = key
  creator : ∀ k₁ ∈ c.log, ∀ k₂ ∈ c.log, ∀ key, Creates key k₁ → Creates key k₂ →
    k₁.thread = k₂.thread
  delivered : SeparateReadings c.log → ∀ key, (c.log.filter (delivers key)).length ≤ 1 ∧
    ∀ k ∈ c.log, delivers key k = true → Created k.thread key c.log

abbrev Following (c : Run) : Prop :=
  Machine.Informed bookkeeping (fun _ _ _ => True) Known.Means c

/-- A row that a call creates is there after it. -/
theorem exists_row_of_creates {t : ℕ} {key : String} {op : Op} {ch : Choice} {w : World}
    (h : Creates key ⟨t, op, ch, w⟩) : ∃ r ∈ (perform ch op w).2, r.dedupe_key = key := by
  obtain ⟨row, hop, rfl, hf, -⟩ := h
  obtain rfl : op = .insertRow row := hop
  have hrow : ∃ r ∈ insertRow w row, r.dedupe_key = row.dedupe_key :=
    Table.exists_key_upsert.2 (.inr rfl)
  have hf' : ch.fault ≠ .before := hf
  cases hfault : ch.fault with
  | none => simpa only [perform, statement, hfault] using hrow
  | after => simpa only [perform, statement, hfault] using hrow
  | before => exact absurd hfault hf'

/-- A request that delivers had created the row, and had not delivered before. -/
theorem deliver_alone {c : Run} (h : Once c) {t : ℕ} {κ : Known} {key : String} {request : Request}
    (hκ : κ.Means t c.log c.world) (hpre : bookkeeping.pre κ (.deliver key request))
    (hseparate : SeparateReadings c.log) :
    Created t key c.log ∧ ∀ k ∈ c.log, delivers key k = false := by
  obtain ⟨reading, rfl⟩ := hpre
  obtain ⟨hundelivered, -, hcreated⟩ := hκ
  refine ⟨hcreated hseparate, fun k hk => Bool.eq_false_iff.2 fun hdelivers => ?_⟩
  obtain ⟨k₁, hk₁, hthread₁, hcreates₁⟩ := hcreated hseparate
  obtain ⟨k₂, hk₂, hthread₂, hcreates₂⟩ := ((h.delivered hseparate key).2 k hk hdelivers)
  have hthread : k.thread = t := by
    rw [← hthread₂, ← hthread₁]
    exact h.creator k₂ hk₂ k₁ hk₁ key hcreates₂ hcreates₁
  exact absurd hdelivers (by simp [hundelivered rfl k hk hthread key])

theorem once_step {c : Run} (hc : Following c) (h : Once c) (e : ℕ × Choice) :
    Once (machine.step c e) := by
  rcases Machine.step_cases (M := machine) c e with hs | ⟨op, next, hcall, hs⟩
  · rwa [hs]
  obtain ⟨κ, hκ, hmeans⟩ := hc.known e.1
  rw [hcall] at hκ
  rw [hs]
  have hkept : ∀ k ∈ c.log, ∀ key, Creates key k →
      ∃ r ∈ (machine.perform e.2 op c.world).2, r.dedupe_key = key :=
    fun k hk key hcreates => exists_row_perform e.2 op (h.present k hk key hcreates)
  -- no call creates a row that an earlier one has created
  have hfirst : ∀ k ∈ c.log, ∀ key, Creates key k → ¬ Creates key ⟨e.1, op, e.2, c.world⟩ := by
    rintro k hk key hcreates ⟨row, -, -, -, hno⟩
    obtain ⟨r, hr, hkey⟩ := h.present k hk key hcreates
    exact hno r hr hkey
  refine ⟨?_, ?_, fun hseparate key => ?_⟩
  · exact List.forall_mem_cons.2 ⟨fun key hcreates => exists_row_of_creates hcreates, hkept⟩
  · refine List.forall_mem_cons.2 ⟨List.forall_mem_cons.2 ⟨fun _ _ _ => rfl, ?_⟩, fun k₁ hk₁ =>
      List.forall_mem_cons.2 ⟨?_, h.creator k₁ hk₁⟩⟩
    · exact fun k hk key hcreates hcreates' => absurd hcreates (hfirst k hk key hcreates')
    · exact fun key hcreates hcreates' => absurd hcreates' (hfirst k₁ hk₁ key hcreates)
  · obtain ⟨hlength, hcreated⟩ := h.delivered hseparate.tail key
    have hcreated' : ∀ k ∈ c.log, delivers key k = true →
        Created k.thread key (⟨e.1, op, e.2, c.world⟩ :: c.log) :=
      fun k hk hdelivers => (hcreated k hk hdelivers).cons _
    by_cases hdelivers : delivers key ⟨e.1, op, e.2, c.world⟩ = true
    · obtain ⟨request, rfl⟩ : ∃ request, op = .deliver key request := by
        cases op with
        | deliver key' request =>
          obtain rfl : key' = key := by simpa [delivers] using hdelivers
          exact ⟨request, rfl⟩
        | _ => cases hdelivers
      obtain ⟨hrow, hnone⟩ := deliver_alone h hmeans hκ.1 hseparate.tail
      refine ⟨?_, List.forall_mem_cons.2 ⟨fun _ => hrow.cons _, hcreated'⟩⟩
      rw [List.filter_cons_of_pos hdelivers, List.filter_eq_nil_iff.2 fun k hk => by
        simp [hnone k hk]]
      exact le_rfl
    · rw [List.filter_cons_of_neg hdelivers]
      exact ⟨hlength, List.forall_mem_cons.2 ⟨fun h => absurd h hdelivers, hcreated'⟩⟩

theorem following_start (w : World) (inputs : ℕ → Input) :
    Following (Config.start w fun t => submitIssueBookkeeping (inputs t)) :=
  Machine.informed_start (fun _ => Known.fresh) (fun t => upholds_submitIssueBookkeeping (inputs t))
    fun _ => List.forall_mem_nil _

theorem once_exec (w : World) (inputs : ℕ → Input) (es : List (ℕ × Choice)) :
    Following (machine.exec (Config.start w fun t => submitIssueBookkeeping (inputs t)) es) ∧
      Once (machine.exec (Config.start w fun t => submitIssueBookkeeping (inputs t)) es) := by
  refine Machine.exec_induction (P := fun c => Following c ∧ Once c)
    (fun c e h => ⟨Machine.informed_step sound_bookkeeping h.1 e, once_step h.1 h.2 e⟩) es
    ⟨following_start w inputs, ?_⟩
  exact ⟨List.forall_mem_nil _, List.forall_mem_nil _,
    fun _ _ => ⟨Nat.zero_le _, List.forall_mem_nil _⟩⟩

/-! ## Answers -/

/-- The request gets as far as the table, with the dedupe key. -/
def Accepted (input : Input) (key : String) : Prop :=
  ∃ command targets target, parseCommand input = .ok command ∧ command.dedupe_key = key ∧
    parseTargets input.targetsRaw = some targets ∧
      lookupTarget targets command.target_key = some target

/-- The receipt tells what the row records. -/
def Reports (receipt : IssueBookkeepingReceipt) (row : StoredRow) : Prop :=
  receipt = replayReceipt row ∨ receipt.status = row.status ∧ receipt.dedupe_key = row.dedupe_key ∧
    receipt.issue_comment_id = row.issue_comment_id ∧ receipt.url = row.url ∧
      receipt.detail = row.detail ∧ receipt.occurred_at = row.occurred_at

/-- How an accepted request that returns has come to its receipt. -/
def Answers (key : String) (ks : Log) (receipt : IssueBookkeepingReceipt) : Prop :=
  (∃ k ∈ ks, delivers key k = true) ∨
    (∃ k ∈ ks, ∃ row, k.op = .selectRow key ∧ rowFor k.before key = some row ∧
      receipt = replayReceipt row) ∨
    ∃ k ∈ ks, ∃ u command target, k.op = .updateRow u ∧ k.choice.fault = .none ∧
      u.dedupe_key = key ∧ command.dedupe_key = key ∧ receipt = outcomeReceipt command target u

theorem Answers.of_append {key : String} {ks ks' : Log} {receipt : IssueBookkeepingReceipt}
    (h : Answers key ks' receipt) : Answers key (ks ++ ks') receipt := by
  have hmem : ∀ k ∈ ks', k ∈ ks ++ ks' := fun _ hk => List.mem_append_right _ hk
  rcases h with ⟨k, hk, h⟩ | ⟨k, hk, h⟩ | ⟨k, hk, h⟩
  · exact .inl ⟨k, hmem k hk, h⟩
  · exact .inr (.inl ⟨k, hmem k hk, h⟩)
  · exact .inr (.inr ⟨k, hmem k hk, h⟩)

theorem statement_ok {f : Fault} {w w' : World} {a : Except Thrown Unit}
    (h : (statement f a w w').1 = .ok ()) : f = .none := by
  cases f with
  | none => rfl
  | before => cases h
  | after => cases h

variable {ks : Log} {receipt : IssueBookkeepingReceipt}

theorem answers_deliverAndRecord {input : Input} {command : Command} {target : TargetEntry}
    {occurredAt : String}
    (h : machine.Completes (deliverAndRecord input command target occurredAt) ks (.ok receipt)) :
    Answers command.dedupe_key ks receipt := by
  unfold deliverAndRecord at h
  split_ifs at h
  · rw [Script.pure_eq, Script.halt_ok_bind] at h
    rcases Machine.completes_bind.1 h with ⟨t, -, hr⟩ | ⟨a, ks₁, ks₂, rfl, h₁, h₂⟩
    · cases hr
    obtain ⟨t, ch, w, ks', rfl, hend⟩ := Machine.completes_call.1 h₁
    obtain ⟨rfl, hanswer⟩ := Machine.completes_halt.1 hend
    obtain ⟨rfl, hr⟩ := Machine.completes_halt.1 h₂
    exact .inr (.inr ⟨_, List.mem_cons_self, _, command, target, rfl, statement_ok hanswer.symm, rfl,
      rfl, Except.ok.inj hr⟩)
  · obtain ⟨t, ch, w, ks', rfl, -⟩ := Machine.completes_call.1 h
    exact .inl ⟨_, List.mem_cons_self, by simp [delivers]⟩

theorem select_ok {ch : Choice} {key : String} {w : World} {found : Option StoredRow}
    (h : .ok found = (machine.perform ch (.selectRow key) w).1) : rowFor w key = found := by
  change .ok found = (if ch.fault = .none then .ok (rowFor w key) else .error .raw :
    Except Thrown (Option StoredRow)) at h
  split_ifs at h
  exact (Except.ok.inj h).symm

theorem answers_bookkeep {input : Input} {command : Command} {target : TargetEntry}
    {occurredAt : String}
    (h : machine.Completes (bookkeep input command target occurredAt) ks (.ok receipt)) :
    Answers command.dedupe_key ks receipt := by
  rcases Machine.completes_bind.1 h with ⟨e, -, hr⟩ | ⟨-, ks₁, ks₂, rfl, -, h₁⟩
  · cases hr
  refine .of_append ?_
  rcases Machine.completes_bind.1 h₁ with ⟨e, -, hr⟩ | ⟨existing, ks₃, ks₄, rfl, hselect, h₂⟩
  · cases hr
  obtain ⟨t, ch, w, ks', rfl, hend⟩ := Machine.completes_call.1 hselect
  obtain ⟨rfl, hanswer⟩ := Machine.completes_halt.1 hend
  have hrow := select_ok hanswer
  cases existing with
  | some row =>
    obtain ⟨rfl, hr⟩ := Machine.completes_halt.1 h₂
    exact .inr (.inl ⟨_, List.mem_append_left _ List.mem_cons_self, row, rfl, hrow,
      Except.ok.inj hr⟩)
  | none =>
    refine .of_append ?_
    rcases Machine.completes_bind.1 h₂ with ⟨e, -, hr⟩ | ⟨-, ks₅, ks₆, rfl, -, h₃⟩
    · cases hr
    refine .of_append ?_
    rcases Machine.completes_bind.1 h₃ with ⟨e, -, hr⟩ | ⟨raced, ks₇, ks₈, rfl, hselect', h₄⟩
    · cases hr
    obtain ⟨t', ch', w', ks', rfl, hend'⟩ := Machine.completes_call.1 hselect'
    obtain ⟨rfl, hanswer'⟩ := Machine.completes_halt.1 hend'
    have hrow' := select_ok hanswer'
    cases raced with
    | none => cases (Machine.completes_halt.1 h₄).2
    | some row =>
      change machine.Completes (if row.occurred_at ≠ occurredAt then pure (replayReceipt row)
        else deliverAndRecord input command target occurredAt) _ _ at h₄
      split_ifs at h₄
      · obtain ⟨rfl, hr⟩ := Machine.completes_halt.1 h₄
        exact .inr (.inl ⟨_, List.mem_append_left _ List.mem_cons_self, row, rfl, hrow',
          Except.ok.inj hr⟩)
      · exact .of_append (answers_deliverAndRecord h₄)

theorem answers_submitIssueBookkeeping {input : Input} {key : String}
    (haccepted : Accepted input key)
    (h : machine.Completes (submitIssueBookkeeping input) ks (.ok receipt)) :
    Answers key ks receipt := by
  obtain ⟨command, targets, target, hcommand, rfl, htargets, htarget⟩ := haccepted
  unfold submitIssueBookkeeping at h
  simp only [hcommand, htargets, htarget] at h
  cases hnow : input.now with
  | some now =>
    rw [hnow] at h
    exact answers_bookkeep h
  | none =>
    rw [hnow] at h
    obtain ⟨t, ch, w, ks', rfl, h'⟩ := Machine.completes_call.1 h
    rw [← List.singleton_append]
    exact .of_append (answers_bookkeep h')

theorem after_selectRow {k : Call Op World Choice} {key : String} (hop : k.op = .selectRow key) :
    machine.after k = k.before := by
  obtain ⟨t, op, ch, w⟩ := k
  obtain rfl : op = .selectRow key := hop
  rfl

theorem after_updateRow {k : Call Op World Choice} {u : RowUpdate} (hop : k.op = .updateRow u)
    (hf : k.choice.fault = .none) : machine.after k = updateRow k.before u := by
  obtain ⟨t, op, ch, w⟩ := k
  obtain rfl : op = .updateRow u := hop
  simp only at hf
  simp only [Machine.after, machine, perform, statement, hf]

/-- A recorded outcome is there after it was recorded. -/
theorem reports_outcome {c : Run} (hc : Following c) {k : Call Op World Choice} (hk : k ∈ c.log)
    {u : RowUpdate} (hop : k.op = .updateRow u) (hf : k.choice.fault = .none) {command : Command}
    (hkey : command.dedupe_key = u.dedupe_key) (target : TargetEntry) :
    ∃ row ∈ machine.after k, row.dedupe_key = u.dedupe_key ∧
      Reports (outcomeReceipt command target u) row := by
  obtain ⟨κ, past, hmeans, hpre⟩ : ∃ κ past, κ.Means k.thread past k.before ∧
      bookkeeping.pre κ k.op := by
    clear hop hf hkey
    have hcalls := hc.calls
    revert hk
    generalize c.log = log at hcalls
    intro hk
    induction hcalls with
    | nil => cases hk
    | cons hk' _ ih =>
      rcases List.mem_cons.1 hk with rfl | hk
      · obtain ⟨κ, hmeans, hpre⟩ := hk'
        exact ⟨κ, _, hmeans, hpre⟩
      · exact ih hk
  rw [hop] at hpre
  obtain ⟨b, rfl⟩ := hpre
  obtain ⟨-, ⟨r, hr, hrkey, -⟩, -⟩ := hmeans
  refine ⟨u.apply r, ?_, hrkey, .inr ⟨rfl, ?_, rfl, rfl, rfl, rfl⟩⟩
  · rw [after_updateRow hop hf]
    exact Table.mem_modify.2 ⟨r, hr, by simp [hrkey]⟩
  · exact hkey.trans hrkey.symm

/-- **One delivery for a key.** However the requests interleave and wherever they fail, a dedupe key
is delivered at most once, and each other accepted request that answers, answers with the row that is
recorded for the key, provided that no request reserves a key whose row has its own reading. -/
theorem delivers_once (w : World) (inputs : ℕ → Input) (es : List (ℕ × Choice)) (key : String)
    (h : SeparateReadings
      (machine.exec (Config.start w fun t => submitIssueBookkeeping (inputs t)) es).log) :
    let c := machine.exec (Config.start w fun t => submitIssueBookkeeping (inputs t)) es
    (c.log.filter (delivers key)).length ≤ 1 ∧
      ∀ t receipt, Accepted (inputs t) key → c.result? t = some (.ok receipt) →
        (∃ k ∈ c.trace t, delivers key k = true) ∨
          ∃ k ∈ c.trace t, ∃ row ∈ machine.after k, row.dedupe_key = key ∧ Reports receipt row := by
  intro c
  obtain ⟨hfollowing, honce⟩ := once_exec w inputs es
  refine ⟨(honce.delivered h key).1, fun t receipt haccepted hresult => ?_⟩
  have hmem : ∀ k ∈ (c.trace t).reverse, k ∈ c.trace t := fun k hk => List.mem_reverse.1 hk
  rcases answers_submitIssueBookkeeping haccepted (Machine.completes_exec es hresult) with
    ⟨k, hk, hdelivers⟩ | ⟨k, hk, row, hop, hrow, rfl⟩ | ⟨k, hk, u, command, target, hop, hf, rfl, hkey, rfl⟩
  · exact .inl ⟨k, hmem k hk, hdelivers⟩
  · obtain ⟨hmemRow, hkey⟩ := mem_of_rowFor hrow
    refine .inr ⟨k, hmem k hk, row, ?_, hkey, .inl rfl⟩
    rwa [after_selectRow hop]
  · exact .inr ⟨k, hmem k hk, reports_outcome hfollowing
      (List.mem_of_mem_filter (hmem k hk)) hop hf hkey target⟩

/-! ## Two requests of one millisecond -/

def sharedNow : String := "2026-09-30T02:00:00.000Z"

/-- A comment on the one whitelisted issue. -/
def commentInput (now : String) : Input where
  command := .obj [("source_task", .str "production-observer"), ("target_key", .str "ops"),
    ("operation", .str "COMMENT"), ("dedupe_key", .str "ops:2026-09-30"), ("body", .str "done")]
  token := some "token"
  targetsRaw := some "\x7b\"ops\":\x7b\"repo\":\"owner/repo\",\"issue\":1\x7d\x7d"
  now := some now
  requestId := none

/-- Nothing fails, and GitHub accepts. -/
def acceptingChoice : Choice := ⟨sharedNow, .none, some ⟨201, some (.obj [("id", .num (.ofInt 7))])⟩⟩

/-- Both requests find no row, insert, read back, deliver and record. -/
def racingRun : List (ℕ × Choice) :=
  (List.replicate 6 [(0, acceptingChoice), (1, acceptingChoice)]).flatten

/-- Two requests that read the clock a millisecond apart. -/
def apartInputs (t : ℕ) : Input :=
  commentInput (if t = 0 then sharedNow else "2026-09-30T02:00:00.001Z")

theorem delivers_once_apart :
    let c := machine.exec (Config.start Table.empty fun t => submitIssueBookkeeping (apartInputs t))
      racingRun
    (c.log.filter (delivers "ops:2026-09-30")).length ≤ 1 ∧
      ∀ t receipt, Accepted (apartInputs t) "ops:2026-09-30" → c.result? t = some (.ok receipt) →
        (∃ k ∈ c.trace t, delivers "ops:2026-09-30" k = true) ∨
          ∃ k ∈ c.trace t, ∃ row ∈ machine.after k, row.dedupe_key = "ops:2026-09-30" ∧
            Reports receipt row :=
  delivers_once Table.empty apartInputs racingRun "ops:2026-09-30" (by decide +kernel)

/-- Two requests with one clock reading both deliver. -/
theorem delivered_twice :
    ¬ ∀ (w : World) (inputs : ℕ → Input) (es : List (ℕ × Choice)) (key : String),
      ((machine.exec (Config.start w fun t => submitIssueBookkeeping (inputs t)) es).log.filter
        (delivers key)).length ≤ 1 := by
  intro h
  have hrun := h Table.empty (fun _ => commentInput sharedNow) racingRun "ops:2026-09-30"
  revert hrun
  decide +kernel

end QuantproCollector.IssueBookkeeping
