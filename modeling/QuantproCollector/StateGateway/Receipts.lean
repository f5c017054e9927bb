import Mathlib.Data.Set.Subsingleton
import QuantproCollector.StateGateway.Gateway
import QuantproCollector.StateGateway.Issued
import QuantproCollector.StateGateway.Statements

/-!
# The life of a receipt

What becomes of the receipts of `src/src/state-receipts.ts` in any run, whatever the threads are and whatever
fails.

* `receipts_exec`: a receipt keeps its channel, its hash and the time of its first reservation, its attempts
  are only counted up, and once it is settled nothing about it changes.
* `reserve_exclusive`: of any number of reservations of one write key, in any order of their statements, at
  most one is acquired while no lease runs out.
-/

namespace QuantproCollector.StateGateway

open Relational Async

/-! ## Any run -/

/-- The statuses that no lease passes. -/
def StateWriteReceipt.final (r : StateWriteReceipt) : Bool :=
  r.status = .PERSISTED || r.status = .IDEMPOTENT_REPLAY || r.status = .CONFLICT

/-- A receipt that is leased is pending. -/
def StateWriteReceipt.Consistent (r : StateWriteReceipt) : Prop :=
  r.lease_owner ≠ none → r.status = .PENDING

/-- The second receipt is what can have become of the first. -/
structure StateWriteReceipt.Becomes (r r' : StateWriteReceipt) : Prop where
  write_key : r'.write_key = r.write_key
  channel : r'.channel = r.channel
  payload_sha256 : r'.payload_sha256 = r.payload_sha256
  created_at : r'.created_at = r.created_at
  attempt_count : r.attempt_count ≤ r'.attempt_count
  final : r.final = true → r' = r
  consistent : r'.Consistent

namespace StateWriteReceipt

variable {r r' r'' : StateWriteReceipt}

theorem Becomes.refl (h : r.Consistent) : r.Becomes r :=
  ⟨rfl, rfl, rfl, rfl, le_refl _, fun _ => rfl, h⟩

theorem Becomes.trans (h : r.Becomes r') (h' : r'.Becomes r'') : r.Becomes r'' where
  write_key := h'.write_key.trans h.write_key
  channel := h'.channel.trans h.channel
  payload_sha256 := h'.payload_sha256.trans h.payload_sha256
  created_at := h'.created_at.trans h.created_at
  attempt_count := le_trans h.attempt_count h'.attempt_count
  final hfinal := by
    have hsame := h.final hfinal
    subst hsame
    exact h'.final hfinal
  consistent := h'.consistent

/-- A lease passes no final receipt. -/
theorem becomes_lease {l : LeaseRequest} (h : l.applies r = true) : r.Becomes (l.apply r) where
  write_key := rfl
  channel := rfl
  payload_sha256 := rfl
  created_at := rfl
  attempt_count := Nat.le_succ _
  final hfinal := by
    simp only [LeaseRequest.applies, decide_eq_true_eq] at h
    obtain ⟨-, -, -, ⟨hpersisted, hreplay, hconflict⟩, -⟩ := h
    simp [StateWriteReceipt.final, hpersisted, hreplay, hconflict] at hfinal
  consistent := fun _ => rfl

/-- Only the holder of the lease finalizes, and a final receipt has none. -/
theorem becomes_finalize {f : FinalizeRequest} (hr : r.Consistent) (h : f.applies r = true) :
    r.Becomes (f.apply r) where
  write_key := rfl
  channel := rfl
  payload_sha256 := rfl
  created_at := rfl
  attempt_count := le_refl _
  final hfinal := by
    simp only [FinalizeRequest.applies, decide_eq_true_eq] at h
    have hpending := hr (by rw [h.2]; simp)
    simp [StateWriteReceipt.final, hpending] at hfinal
  consistent := fun howner => absurd rfl howner

end StateWriteReceipt

/-- Every receipt of the first world is in the second, as what can have become of it. -/
def World.Continues (w w' : World) : Prop :=
  ∀ key r, receiptFor w key = some r → ∃ r', receiptFor w' key = some r' ∧ r.Becomes r'

def World.Consistent (w : World) : Prop :=
  ∀ key r, receiptFor w key = some r → r.Consistent

section Any

variable {w w' w'' : World}

theorem World.Continues.refl (h : w.Consistent) : w.Continues w :=
  fun key r hr => ⟨r, hr, .refl (h key r hr)⟩

theorem World.Continues.trans (h : w.Continues w') (h' : w'.Continues w'') : w.Continues w'' := by
  intro key r hr
  obtain ⟨r', hr', hbecomes⟩ := h key r hr
  obtain ⟨r'', hr'', hbecomes'⟩ := h' key r' hr'
  exact ⟨r'', hr'', hbecomes.trans hbecomes'⟩

/-- A world with the same receipts. -/
theorem continues_of_receipts (h : w.Consistent) (heq : w'.receipts = w.receipts) :
    w'.Consistent ∧ w.Continues w' := by
  have hfor : ∀ key, receiptFor w' key = receiptFor w key := by
    intro key
    rw [receiptFor, heq]
    rfl
  exact ⟨fun key r hr => h key r (hfor key ▸ hr),
    fun key r hr => ⟨r, (hfor key).trans hr, .refl (h key r hr)⟩⟩

theorem consistent_insert (h : w.Consistent) (writeKey : String) (channel : StateWriteChannel)
    (sha now : String) : (w.insertReceipt writeKey channel sha now).Consistent ∧
      w.Continues (w.insertReceipt writeKey channel sha now) := by
  have hfor : ∀ key, receiptFor (w.insertReceipt writeKey channel sha now) key =
      if key = writeKey then some ((receiptFor w key).getD (freshReceipt writeKey channel sha now))
      else receiptFor w key := by
    intro key
    split_ifs with hkey
    · rw [hkey, receiptFor_insertReceipt]
    · cases hr : receiptFor w key with
      | some r =>
        obtain ⟨hmem, hrkey⟩ := receiptFor_eq_some.1 hr
        refine receiptFor_eq_some.2 ⟨?_, hrkey⟩
        exact (Table.mem_upsert (h := fun _ => rfl)).2 (.inl ⟨hmem, fun e => hkey (hrkey.symm.trans e)⟩)
      | none =>
        apply receiptFor_eq_none.2
        intro r hr' hrkey
        rcases (Table.mem_upsert (h := fun _ => rfl)).1 hr' with ⟨hmem, -⟩ | ⟨a, hmem, -, rfl⟩ | ⟨rfl, -⟩
        · exact receiptFor_eq_none.1 hr r hmem hrkey
        · exact receiptFor_eq_none.1 hr a hmem hrkey
        · exact hkey hrkey.symm
  constructor
  · intro key r hr
    rw [hfor] at hr
    split_ifs at hr with hkey
    · cases hold : receiptFor w key with
      | some r' =>
        rw [hold, Option.getD_some] at hr
        exact Option.some.inj hr ▸ h key r' hold
      | none =>
        rw [hold, Option.getD_none] at hr
        obtain rfl := Option.some.inj hr
        exact fun howner => absurd rfl howner
    · exact h key r hr
  · intro key r hr
    refine ⟨r, ?_, .refl (h key r hr)⟩
    rw [hfor, hr]
    split_ifs <;> rfl

theorem consistent_update (h : w.Consistent) {applies : StateWriteReceipt → Bool}
    {apply : StateWriteReceipt → StateWriteReceipt}
    (hbecomes : ∀ r : StateWriteReceipt, r.Consistent → applies r = true → r.Becomes (apply r))
    (hfor : ∀ key, receiptFor w' key =
      (receiptFor w key).map fun r => if applies r then apply r else r) :
    w'.Consistent ∧ w.Continues w' := by
  have hrow : ∀ r : StateWriteReceipt, r.Consistent → r.Becomes (if applies r then apply r else r) := by
    intro r hr
    split_ifs with happlies
    · exact hbecomes r hr happlies
    · exact .refl hr
  constructor
  · intro key r hr
    rw [hfor] at hr
    obtain ⟨r', hr', rfl⟩ := Option.map_eq_some_iff.1 hr
    exact (hrow r' (h key r' hr')).consistent
  · intro key r hr
    exact ⟨_, by rw [hfor, hr, Option.map_some], hrow r (h key r hr)⟩

/-- What any operation makes of the receipts. -/
theorem consistent_perform (P : Runtime) (ch : Choice) (op : Op) (h : w.Consistent) :
    (perform P ch op w).2.Consistent ∧ w.Continues (perform P ch op w).2 := by
  have hsame := continues_of_receipts h (rfl : w.receipts = w.receipts)
  -- A statement that fails has its effect or none.
  have hstatement : ∀ {α : Type} (r : Except Thrown α × World), r.2.Consistent ∧ w.Continues r.2 →
      (ch.fault.statement w r).2.Consistent ∧ w.Continues (ch.fault.statement w r).2 := by
    intro α r hr
    cases ch.fault with
    | none => exact hr
    | before => exact hsame
    | after => exact hr
  cases op with
  | clock => exact hsame
  | randomHex => exact hsame
  | ownerContext => exact hsame
  | fetch request =>
    apply continues_of_receipts h
    cases request with
    | create l body =>
      show (if ch.accepted then w.addComment l (newComment w l body ch.clock) else w).receipts = _
      split_ifs
      · exact World.addComment_receipts w l _
      · rfl
    | list page => rfl
    | get l id => rfl
  | insertReceipt key channel sha now => exact hstatement _ (consistent_insert h key channel sha now)
  | selectReceipt key => exact hstatement _ hsame
  | leaseReceipt l =>
    exact hstatement _ (consistent_update h (fun r _ => StateWriteReceipt.becomes_lease)
      (receiptFor_leaseReceipt w l))
  | finalizeReceipt f =>
    exact hstatement _ (consistent_update h (fun r hr => StateWriteReceipt.becomes_finalize hr)
      (receiptFor_finalizeReceipt w f))
  | selectRun task key => exact hstatement _ hsame
  | insertRun row =>
    apply hstatement
    apply continues_of_receipts h
    unfold World.insertRun
    cases runFor w row.task_name row.envelope_key with
    | some r => rfl
    | none => cases w.runs.insert? row <;> rfl
  | updateRun u => exact hstatement _ (continues_of_receipts h rfl)

end Any

/-- From any moment of a run to any later one, each receipt becomes what it can become: what it was reserved
for stays, its attempts are counted up, and a final receipt does not change. -/
theorem receipts_exec {α : Type} (P : Runtime) (s : ℕ → Program α) (w : World) (hw : w.Consistent)
    (es fs : List (ℕ × Choice)) (key : String) (r : StateWriteReceipt)
    (hr : receiptFor ((machine P).exec (Config.start w s) es).world key = some r) :
    ∃ r', receiptFor ((machine P).exec (Config.start w s) (es ++ fs)).world key = some r' ∧ r.Becomes r' := by
  have hrun : ∀ (gs : List (ℕ × Choice)) (c : Config Thrown Op Res World Choice α), c.world.Consistent →
      ((machine P).exec c gs).world.Consistent ∧ c.world.Continues ((machine P).exec c gs).world := by
    intro gs c hc
    refine Machine.exec_induction (P := fun c' => c'.world.Consistent ∧ c.world.Continues c'.world) ?_ gs
      ⟨hc, .refl hc⟩
    rintro c' e ⟨hc', hcontinues⟩
    rcases Machine.step_cases (M := machine P) c' e with hs | ⟨op, next, -, hs⟩
    · rw [hs]
      exact ⟨hc', hcontinues⟩
    · rw [hs]
      have hstep := consistent_perform P e.2 op hc'
      exact ⟨hstep.1, hcontinues.trans hstep.2⟩
  rw [Machine.exec_append]
  exact (hrun fs _ (hrun es (Config.start w s) hw).1).2 key r hr

def lifeRuntime : Runtime := tableRuntime [] [] [("2026-10-02T03:04:05Z", "2026-10-02T03:06:05Z")]

def lifeChoice : Choice :=
  ⟨"", "", .error .raw, .none, .lost, false⟩

def lifeProgram : Program Reservation :=
  reserveStateWrite lifeRuntime "MARKET:2026-10-02:OPEN" .MARKET "abcd" "r0" "2026-10-02T03:04:05Z"

theorem receipts_exec_reserved :
    ∃ r', receiptFor ((machine lifeRuntime).exec (Config.start World.empty fun _ => lifeProgram)
        ([(0, lifeChoice)] ++ [(0, lifeChoice), (0, lifeChoice)])).world "MARKET:2026-10-02:OPEN" = some r' ∧
      (freshReceipt "MARKET:2026-10-02:OPEN" .MARKET "abcd" "2026-10-02T03:04:05Z").Becomes r' :=
  receipts_exec lifeRuntime (fun _ => lifeProgram) World.empty (fun _ _ h => by cases h) [(0, lifeChoice)]
    [(0, lifeChoice), (0, lifeChoice)] "MARKET:2026-10-02:OPEN" _ rfl

/-! ## Reservations of one key -/

/-- A reservation that a thread makes of the key. -/
structure Attempt where
  channel : StateWriteChannel
  payloadSha256 : String
  requestId : String
  now : String
  leaseUntil : String

def Attempt.lease (a : Attempt) (key : String) : LeaseRequest :=
  ⟨key, a.channel, a.payloadSha256, a.requestId, a.leaseUntil, a.now⟩

/-- The attempt holds the key. -/
def Holds (key : String) (a : Attempt) (w : World) : Prop :=
  ∃ r, receiptFor w key = some r ∧ r.lease_owner = some a.requestId ∧ r.lease_until = some a.leaseUntil

/-- Only an attempt's own lease names it. -/
def Named (key : String) (attempts : ℕ → Attempt) (w : World) : Prop :=
  ∀ r t, receiptFor w key = some r → r.lease_owner = some (attempts t).requestId →
    r.lease_until = some (attempts t).leaseUntil

/-- The operations of the reservations of the key. -/
def OfReservation (key : String) (a : Attempt) : Op → Prop
  | .insertReceipt writeKey _ _ _ => writeKey = key
  | .selectReceipt writeKey => writeKey = key
  | .leaseReceipt l => l = a.lease key
  | _ => False

section Reservations

variable {P : Runtime} {key : String} {attempts : ℕ → Attempt}

/-- What the reservations keep of each other's leases. -/
def Holding (key : String) (attempts : ℕ → Attempt) (w w' : World) : Prop :=
  (Named key attempts w → Named key attempts w') ∧ ∀ t, Holds key (attempts t) w → Holds key (attempts t) w'

theorem holding_refl (w : World) : Holding key attempts w w := ⟨id, fun _ => id⟩

theorem holding_trans (u v w : World) (h : Holding key attempts u v) (h' : Holding key attempts v w) :
    Holding key attempts u w :=
  ⟨fun hu => h'.1 (h.1 hu), fun t ht => h'.2 t (h.2 t ht)⟩

theorem holding_insert (w : World) (channel : StateWriteChannel) (sha now : String) :
    Holding key attempts w (w.insertReceipt key channel sha now) := by
  cases hr : receiptFor w key with
  | some r =>
    rw [insertReceipt_of_receiptFor hr]
    exact holding_refl w
  | none =>
    have hfresh : receiptFor (w.insertReceipt key channel sha now) key =
        some (freshReceipt key channel sha now) := by
      rw [receiptFor_insertReceipt, hr, Option.getD_none]
    constructor
    · intro _ r t hr' howner
      obtain rfl := Option.some.inj (hfresh.symm.trans hr')
      cases howner
    · rintro t ⟨r, hr', -⟩
      cases hr.symm.trans hr'

/-- A lease of one attempt leaves the key to the attempt that holds it. -/
theorem holding_lease (hids : ∀ t u, (attempts t).requestId = (attempts u).requestId → t = u)
    (hlasts : ∀ t u, ¬ (attempts t).leaseUntil < (attempts u).now) (w : World) (u : ℕ) :
    Holding key attempts w (w.leaseReceipt ((attempts u).lease key)) := by
  have hfor := receiptFor_leaseReceipt w ((attempts u).lease key) key
  constructor
  · intro hnamed r t hr howner
    rw [hfor] at hr
    obtain ⟨r', hr', rfl⟩ := Option.map_eq_some_iff.1 hr
    split_ifs at howner ⊢ with happlies
    · obtain rfl := hids u t (Option.some.inj howner)
      rfl
    · exact hnamed r' t hr' howner
  · rintro t ⟨r, hr, howner, huntil⟩
    refine ⟨_, by rw [hfor, hr, Option.map_some], ?_⟩
    split_ifs with happlies
    · -- The lease of another attempt is not free, and so it is the attempt's own.
      simp only [LeaseRequest.applies, decide_eq_true_eq] at happlies
      rcases happlies.2.2.2.2 with hnone | hnone | ⟨until_, hsome, hlt⟩ | hown
      · cases hnone.symm.trans howner
      · cases hnone.symm.trans huntil
      · obtain rfl := Option.some.inj (huntil.symm.trans hsome)
        exact absurd hlt (hlasts t u)
      · obtain rfl := hids t u (Option.some.inj (howner.symm.trans hown))
        exact ⟨rfl, rfl⟩
    · exact ⟨howner, huntil⟩

theorem holding_perform (hids : ∀ t u, (attempts t).requestId = (attempts u).requestId → t = u)
    (hlasts : ∀ t u, ¬ (attempts t).leaseUntil < (attempts u).now) (u : ℕ) (ch : Choice) (op : Op) (w : World)
    (h : OfReservation key (attempts u) op) : Holding key attempts w ((machine P).perform ch op w).2 := by
  have hstatement : ∀ {β : Type} (r : Except Thrown β × World), Holding key attempts w r.2 →
      Holding key attempts w (ch.fault.statement w r).2 := by
    intro β r hr
    cases ch.fault with
    | none => exact hr
    | before => exact holding_refl w
    | after => exact hr
  cases op with
  | insertReceipt writeKey channel sha now =>
    obtain rfl : writeKey = key := h
    exact hstatement _ (holding_insert w channel sha now)
  | selectReceipt writeKey => exact hstatement _ (holding_refl w)
  | leaseReceipt l =>
    obtain rfl : l = (attempts u).lease key := h
    exact hstatement _ (holding_lease hids hlasts w u)
  | _ => cases h

def Attempt.program (P : Runtime) (key : String) (a : Attempt) : Program Reservation :=
  reserveStateWrite P key a.channel a.payloadSha256 a.requestId a.now

theorem issues_attempt_program {a : Attempt} (hlease : P.addSeconds a.now LEASE_SECONDS = some a.leaseUntil) :
    (a.program P key).Issues (OfReservation key a) := by
  have hstored : ∀ receipt : Option StateWriteReceipt,
      (storedReceipt receipt).Issues (OfReservation key a) := by
    intro receipt
    cases receipt <;> trivial
  refine Script.Issues.bind (Script.issues_perform.2 rfl) fun _ => ?_
  refine Script.Issues.bind (Script.issues_perform.2 rfl) fun receipt => ?_
  refine Script.Issues.bind (hstored receipt) fun receipt => ?_
  split_ifs
  · trivial
  · trivial
  · rw [hlease]
    refine Script.Issues.bind (Script.issues_perform.2 rfl) fun _ => ?_
    refine Script.Issues.bind (Script.issues_perform.2 rfl) fun receipt => ?_
    exact Script.Issues.bind (hstored receipt) fun _ => trivial

/-- The thread ends with an acquired reservation only where its attempt holds the key. -/
def EndsHolding (P : Runtime) (key : String) (attempts : ℕ → Attempt) (t : ℕ) (s : Program Reservation)
    (tr : List (Call Op World Choice)) (w : World) : Prop :=
  (machine P).Ensures t (Holding key attempts) (fun r _ w' => ∀ reservation, r = .ok reservation →
    reservation.acquired = true → Holds key (attempts t) w') s tr w

theorem endsHolding_refused {t : ℕ} {r : Except Thrown Reservation} {tr : List (Call Op World Choice)}
    {w : World} (h : ∀ reservation, r = .ok reservation → reservation.acquired = false) :
    EndsHolding P key attempts t (.halt r) tr w := by
  intro w' _ reservation hr hacquired
  rw [h reservation hr] at hacquired
  cases hacquired

/-- A statement that answers is followed by the rest; one that fails ends the reservation. -/
theorem endsHolding_call {t : ℕ} {op : Op} {next : Except Thrown (Res op) → Program Reservation}
    {answer : World → Res op} {after : World → World}
    (hperform : ∀ ch w, (machine P).perform ch op w = ch.fault.statement w (.ok (answer w), after w))
    (herror : ∀ e, next (.error e) = .halt (.error e))
    (hnext : ∀ w tr, Named key attempts w → EndsHolding P key attempts t (next (.ok (answer w))) tr (after w))
    {tr : List (Call Op World Choice)} {w : World} (hnamed : Named key attempts w) :
    EndsHolding P key attempts t (.call op next) tr w := by
  intro w' hw' ch
  have hnamed' := hw'.1 hnamed
  rw [hperform]
  cases ch.fault with
  | none => exact hnext w' _ hnamed'
  | before =>
    show EndsHolding P key attempts t (next (.error .raw)) _ w'
    rw [herror]
    exact endsHolding_refused (by simp)
  | after =>
    show EndsHolding P key attempts t (next (.error .raw)) _ (after w')
    rw [herror]
    exact endsHolding_refused (by simp)

/-- What an acquired reservation has found: that the attempt holds the key. -/
theorem endsHolding_program (hids : ∀ t u, (attempts t).requestId = (attempts u).requestId → t = u)
    (hlasts : ∀ t u, ¬ (attempts t).leaseUntil < (attempts u).now) (t : ℕ)
    (hlease : P.addSeconds (attempts t).now LEASE_SECONDS = some (attempts t).leaseUntil)
    {tr : List (Call Op World Choice)} {w : World} (hnamed : Named key attempts w) :
    EndsHolding P key attempts t ((attempts t).program P key) tr w := by
  refine endsHolding_call (fun _ _ => rfl) (fun _ => rfl) ?_ hnamed
  intro w₁ _ hnamed₁
  refine endsHolding_call (fun _ _ => rfl) (fun _ => rfl) ?_ ((holding_insert w₁ _ _ _).1 hnamed₁)
  intro w₂ _ hnamed₂
  cases hfound : receiptFor w₂ key with
  | none => exact endsHolding_refused (by simp)
  | some receipt =>
    show EndsHolding P key attempts t (if receipt.payload_sha256 ≠ (attempts t).payloadSha256 ∨
      receipt.channel ≠ (attempts t).channel then _ else if receipt.settled = true then _ else _) _ w₂
    split_ifs
    · exact endsHolding_refused (by rintro _ ⟨⟩; rfl)
    · exact endsHolding_refused (by rintro _ ⟨⟩; rfl)
    · rw [hlease]
      refine endsHolding_call (fun _ _ => rfl) (fun _ => rfl) ?_ hnamed₂
      intro w₃ _ hnamed₃
      refine endsHolding_call (fun _ _ => rfl) (fun _ => rfl) ?_
        ((holding_lease hids hlasts w₃ t).1 hnamed₃)
      intro w₄ _ hnamed₄
      cases hfound₄ : receiptFor w₄ key with
      | none => exact endsHolding_refused (by simp)
      | some receipt₄ =>
        rintro w₅ hw₅ _ ⟨⟩ hacquired
        have howner : receipt₄.lease_owner = some (attempts t).requestId := by simpa using hacquired
        exact hw₅.2 t ⟨receipt₄, hfound₄, howner, hnamed₄ receipt₄ t hfound₄ howner⟩

end Reservations

/-- The attempts of which the reservation has ended acquired. -/
def acquirers (c : Config Thrown Op Res World Choice Reservation) : Set ℕ :=
  {t | ∃ reservation, c.result? t = some (.ok reservation) ∧ reservation.acquired = true}

/-- Of any number of reservations of one key, whatever they are for and whatever fails, at most one is
acquired, where no lease ends before the clock of another and the key is not held to begin with. -/
theorem reserve_exclusive (P : Runtime) (key : String) (attempts : ℕ → Attempt) (w : World)
    (hids : ∀ t u, (attempts t).requestId = (attempts u).requestId → t = u)
    (hlease : ∀ t, P.addSeconds (attempts t).now LEASE_SECONDS = some (attempts t).leaseUntil)
    (hlasts : ∀ t u, ¬ (attempts t).leaseUntil < (attempts u).now)
    (hfree : ∀ r t, receiptFor w key = some r → r.lease_owner ≠ some (attempts t).requestId)
    (es : List (ℕ × Choice)) :
    (acquirers ((machine P).exec (Config.start w fun t => (attempts t).program P key) es)).Subsingleton := by
  have hnamed : Named key attempts w := fun r t hr howner => absurd howner (hfree r t hr)
  have hholds : ∀ t ∈ acquirers ((machine P).exec (Config.start w fun t => (attempts t).program P key) es),
      Holds key (attempts t)
        ((machine P).exec (Config.start w fun t => (attempts t).program P key) es).world := by
    rintro t ⟨reservation, hresult, hacquired⟩
    exact Machine.halted_exec (S := fun u => OfReservation key (attempts u)) holding_refl holding_trans
      (fun u ch op w hop => holding_perform hids hlasts u ch op w hop)
      (fun u => issues_attempt_program (hlease u))
      (endsHolding_program hids hlasts t (hlease t) hnamed) es (Config.result?_eq_some.1 hresult)
      reservation rfl hacquired
  intro t ht u hu
  obtain ⟨r, hr, howner, -⟩ := hholds t ht
  obtain ⟨r', hr', howner', -⟩ := hholds u hu
  obtain rfl := Option.some.inj (hr.symm.trans hr')
  exact hids t u (Option.some.inj (howner.symm.trans howner'))

/-- Attempts at one time, each with a request id of its own. -/
def lifeAttempts (t : ℕ) : Attempt :=
  ⟨.MARKET, "abcd", String.ofList (List.replicate t 'r'), "2026-10-02T03:04:05Z", "2026-10-02T03:06:05Z"⟩

/-- Two attempts whose statements alternate. -/
def lifeRun : List (ℕ × Choice) :=
  [(0, lifeChoice), (1, lifeChoice), (0, lifeChoice), (1, lifeChoice), (1, lifeChoice), (0, lifeChoice),
    (0, lifeChoice), (1, lifeChoice)]

def lifeReceipt : StateWriteReceipt :=
  ((lifeAttempts 1).lease "MARKET:2026-10-02:OPEN").apply
    (freshReceipt "MARKET:2026-10-02:OPEN" .MARKET "abcd" "2026-10-02T03:04:05Z")

theorem lifeAttempts_ids (t u : ℕ) (h : (lifeAttempts t).requestId = (lifeAttempts u).requestId) : t = u := by
  have hlength := congrArg List.length (String.ofList_injective h)
  simpa using hlength

theorem reserve_exclusive_two :
    1 ∈ acquirers ((machine lifeRuntime).exec (Config.start World.empty fun t =>
        (lifeAttempts t).program lifeRuntime "MARKET:2026-10-02:OPEN") lifeRun) ∧
      (acquirers ((machine lifeRuntime).exec (Config.start World.empty fun t =>
        (lifeAttempts t).program lifeRuntime "MARKET:2026-10-02:OPEN") lifeRun)).Subsingleton :=
  ⟨⟨⟨true, lifeReceipt⟩, rfl, rfl⟩,
    reserve_exclusive lifeRuntime "MARKET:2026-10-02:OPEN" lifeAttempts World.empty lifeAttempts_ids
      (fun _ => rfl) (fun _ _ => (by decide : ¬ "2026-10-02T03:06:05Z" < "2026-10-02T03:04:05Z"))
      (fun _ _ h => by cases h) lifeRun⟩

end QuantproCollector.StateGateway
