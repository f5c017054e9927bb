import QuantproCollector.Retention.Indexing

/-!
# Messages delivered again

An ingest looks for its message before it stores the record, in a statement of its own. A delivery
of an accepted message that is seen by that look writes nothing. One that was looked for earlier
stores its record again, over whatever came in meanwhile, and answers `REPLAY` (`record_reverted`).
`redelivery_inert` says that this is the only way.
-/

namespace QuantproCollector.Retention

open Relational Async SemanticIndex

/-- A verified message as it is handed to the ingest. -/
structure Delivery where
  record : OutboundV2Record
  bodyBytes : ℕ
  now : String

/-- The threads of some deliveries. -/
def deliveries (ds : List Delivery) (t : ℕ) : Program IngestResult :=
  (ds[t]?).elim integrityFailure fun d => ingestResearchReplicaRecord d.record d.bodyBytes d.now

/-- The message is accepted: its row is there. -/
def acceptedIn (w : World) (messageId : String) : Bool :=
  w.messages.rows.any fun r => r.message_id = messageId

/-- What an ingest stores of its record: the record, its semantic rows, its links and its object. -/
def storedTables (w : World) :=
  (w.records, w.semantic, w.links, w.objects)

/-- The call leaves the stored records alone. -/
def LeavesStored (P : Runtime) (k : Call Op World Fault) : Prop :=
  storedTables ((machine P).after k) = storedTables k.before

/-- The transaction of a delivery does not find its message accepted. -/
def FirstArrival (k : Call Op World Fault) : Prop :=
  match k.op with
  | .ingestBatch record .. => k.choice = .before ∨ acceptedIn k.before record.message_id = false
  | _ => True

instance (k : Call Op World Fault) : Decidable (FirstArrival k) := by
  obtain ⟨thread, op, choice, before⟩ := k
  delta FirstArrival
  rcases op with _ | _ <;> dsimp only <;> infer_instance

/-- The message whose record the call stores. -/
def storedMessage (k : Call Op World Fault) : Option String :=
  match k.op with
  | .ingestBatch record .. => if k.choice = .before then none else some record.message_id
  | _ => none

/-! ## What an ingest asks for -/

/-- The operations of an ingest: those that no sweep has, and the transaction of its own record. -/
structure IngestOp (record : OutboundV2Record) (op : Op) : Prop where
  plain : plain op = false
  unmarked : ∀ row, op ≠ .insertRetention row
  own : ∀ r key now, op = .ingestBatch r key now → r = record

theorem issues_ingestOp (record : OutboundV2Record) (bodyBytes : ℕ) (now : String) :
    (ingestResearchReplicaRecord record bodyBytes now).Issues (IngestOp record) := by
  refine issues_ingest record bodyBytes now (fun op hplain hmark hbatch => ?_) fun key _ => ?_
  · exact ⟨hplain, hmark, fun r key now hop => absurd hop (hbatch r key now)⟩
  · exact ⟨rfl, by simp, by rintro _ _ _ ⟨⟩; rfl⟩

/-! ## An ingest that answers `REPLAY` -/

section Replay

variable {P : Runtime} {record : OutboundV2Record} {ks : List (Call Op World Fault)}

/-- The call stores nothing, or its transaction finds the message accepted. -/
def Unstored (k : Call Op World Fault) : Prop :=
  ∀ record key now, k.op = .ingestBatch record key now →
    acceptedIn k.before record.message_id = true

theorem completes_reserveR2Quota {bytes writes : ℕ} {now : String} {r : Except Thrown Unit}
    (h : (machine P).Completes (reserveR2Quota bytes writes now) ks r) :
    ∀ k ∈ ks, ∀ record key now, k.op ≠ .ingestBatch record key now := by
  have hissues : (reserveR2Quota bytes writes now).Issues
      fun op => ∀ record key now, op ≠ .ingestBatch record key now := by
    have hperiod : (usagePeriod now).Issues
        fun op => ∀ record key now, op ≠ .ingestBatch record key now := by
      unfold usagePeriod
      split_ifs
      · trivial
      · trivial
    refine hperiod.bind fun period => Script.Issues.bind (Script.issues_perform.2 (by simp)) fun _ =>
      Script.Issues.bind (Script.issues_perform.2 (by simp)) fun _ =>
        Script.Issues.bind (Script.issues_perform.2 (by simp)) fun booked => ?_
    cases booked <;> trivial
  exact h.issues hissues

/-- A single call that answers has been made without a fault. -/
theorem completes_perform {op : Op} {a : Res op}
    (h : (machine P).Completes (Script.perform op) ks (.ok a)) :
    ∃ t w, ks = [⟨t, op, .none, w⟩] ∧ answer op w = a := by
  obtain ⟨t, ch, w, ks', rfl, h'⟩ := Machine.completes_call.1 h
  obtain ⟨rfl, ha⟩ := Machine.completes_halt.1 h'
  cases ch with
  | none => exact ⟨t, w, rfl, (Except.ok.inj ha).symm⟩
  | before => cases ha
  | after => cases ha

theorem unstored_of_ne {k : Call Op World Fault}
    (h : ∀ record key now, k.op ≠ .ingestBatch record key now) : Unstored k :=
  fun record key now hop => absurd hop (h record key now)

/-- The transaction and the health row of an ingest that answers `REPLAY`. -/
theorem completes_batch {key now : String} {contentSha256 : Option String} {result : IngestResult}
    (h : (machine P).Completes (do
      let inserted ← Script.perform (Op.ingestBatch record key now)
      Script.perform (Op.healthSuccess record.message_id now inserted)
      pure (IngestResult.mk (if inserted then .APPLIED else .REPLAY) record.message_id
        record.record_type contentSha256 (semanticIndexIngestTarget record)) : Program IngestResult)
      ks (.ok result))
    (hreplay : result.status = .REPLAY) : ∀ k ∈ ks, Unstored k := by
  rcases Machine.completes_bind.1 h with ⟨e, -, he⟩ | ⟨inserted, ks₁, ks₂, rfl, h₁, h₂⟩
  · cases he
  rcases Machine.completes_bind.1 h₂ with ⟨e, -, he⟩ | ⟨u, ks₃, ks₄, rfl, h₃, h₄⟩
  · cases he
  obtain ⟨t, w, rfl, hinserted⟩ := completes_perform h₁
  obtain ⟨t', w', rfl, -⟩ := completes_perform h₃
  obtain ⟨rfl, hresult⟩ := Machine.completes_halt.1 h₄
  cases hresult
  have hfound : acceptedIn w record.message_id = true := by
    cases inserted with
    | true => cases hreplay
    | false => simpa [answer, acceptedIn] using hinserted
  intro k hk
  rcases List.mem_append.1 hk with hk | hk
  · obtain rfl := List.mem_singleton.1 hk
    intro r key' now' hop
    cases hop
    exact hfound
  · obtain rfl := List.mem_singleton.1 hk
    exact unstored_of_ne (by simp)

theorem completes_ingestWrites {bodyBytes : ℕ} {key now : String} {result : IngestResult}
    (h : (machine P).Completes (ingestWrites record bodyBytes key now) ks (.ok result))
    (hreplay : result.status = .REPLAY) : ∀ k ∈ ks, Unstored k := by
  unfold ingestWrites at h
  rcases Machine.completes_bind.1 h with ⟨e, -, he⟩ | ⟨replay, ks₁, ks₂, rfl, h₁, h₂⟩
  · cases he
  obtain ⟨t, w, rfl, -⟩ := completes_perform h₁
  have hselect : Unstored ⟨t, .selectMessage record.message_id, Fault.none, w⟩ :=
    unstored_of_ne (by simp)
  rw [List.singleton_append]
  refine List.forall_mem_cons.2 ⟨hselect, ?_⟩
  cases replay with
  | true =>
    obtain ⟨rfl, -⟩ := Machine.completes_halt.1 h₂
    simp
  | false =>
    rcases Machine.completes_bind.1 h₂ with ⟨e, -, he⟩ | ⟨u, ks₃, ks₄, rfl, h₃, h₄⟩
    · cases he
    rcases Machine.completes_bind.1 h₄ with ⟨e, -, he⟩ | ⟨u', ks₅, ks₆, rfl, h₅, h₆⟩
    · cases he
    have hreserve := completes_reserveR2Quota h₃
    obtain ⟨t', w', rfl, -⟩ := completes_perform h₅
    have hput : Unstored ⟨t', .putObject (journalKey record.message_id), Fault.none, w'⟩ :=
      unstored_of_ne (by simp)
    have hrest : ∀ k ∈ ks₆, Unstored k := by
      cases hhash : objectContentHash record with
      | none =>
        rw [hhash] at h₆
        exact completes_batch h₆ hreplay
      | some hash =>
        rw [hhash] at h₆
        rcases Machine.completes_bind.1 h₆ with ⟨e, -, he⟩ | ⟨v, ks₇, ks₈, rfl, h₇, h₈⟩
        · cases he
        obtain ⟨t'', w'', rfl, -⟩ := completes_perform h₇
        exact List.forall_mem_cons.2 ⟨unstored_of_ne (by simp), completes_batch h₈ hreplay⟩
    intro k hk
    rcases List.mem_append.1 hk with hk | hk
    · exact unstored_of_ne (hreserve k hk)
    · exact List.forall_mem_cons.2 ⟨hput, hrest⟩ k hk

theorem completes_ingestFailure {now : String} {e : Thrown} {result : IngestResult} :
    ¬ (machine P).Completes (ingestFailure now e) ks (.ok result) := by
  intro h
  cases e with
  | boundary code => cases (Machine.completes_halt.1 h).2
  | raw =>
    rcases Machine.completes_bind.1 h with ⟨e, -, he⟩ | ⟨u, ks₁, ks₂, rfl, -, h₂⟩
    · cases he
    · cases (Machine.completes_halt.1 h₂).2

/-- A delivery that answers `REPLAY` has stored nothing, or its transaction found its message. -/
theorem completes_ingest {bodyBytes : ℕ} {now : String} {result : IngestResult}
    (h : (machine P).Completes (ingestResearchReplicaRecord record bodyBytes now) ks (.ok result))
    (hreplay : result.status = .REPLAY) : ∀ k ∈ ks, Unstored k := by
  unfold ingestResearchReplicaRecord at h
  cases hkey : outboundV2RecordKey record with
  | none =>
    rw [hkey] at h
    cases (Machine.completes_halt.1 h).2
  | some key =>
    rw [hkey] at h
    rcases Machine.completes_tryCatch.1 h with ⟨a, ha, heq⟩ | ⟨e, ks₁, ks₂, rfl, -, hf⟩
    · cases heq
      exact completes_ingestWrites ha hreplay
    · exact absurd hf completes_ingestFailure

end Replay

/-! ## What a call leaves -/

theorem stored_effect {P : Runtime} {record : OutboundV2Record} {op : Op} {w : World}
    (hop : IngestOp record op) (hne : ∀ r key now, op ≠ .ingestBatch r key now) :
    storedTables (effect P op w) = storedTables w := by
  cases op with
  | ingestBatch r key now => exact absurd rfl (hne r key now)
  | insertRetention row => exact absurd rfl (hop.unmarked row)
  | _ => first | rfl | cases hop.plain

/-- A call of an ingest leaves the stored records alone, or is the transaction of a first arrival. -/
theorem leavesStored_of {P : Runtime} {record : OutboundV2Record} {k : Call Op World Fault}
    (hop : IngestOp record k.op) (hfirst : FirstArrival k)
    (hfound : ∀ key now, k.op = .ingestBatch record key now →
      acceptedIn k.before record.message_id = true) : LeavesStored P k := by
  obtain ⟨t, op, f, w⟩ := k
  by_cases hbatch : ∃ r key now, op = .ingestBatch r key now
  · obtain ⟨r, key, now, rfl⟩ := hbatch
    obtain rfl : r = record := hop.own r key now rfl
    rcases hfirst with hbefore | hnew
    · change f = .before at hbefore
      subst hbefore
      rfl
    · exact absurd (hfound key now rfl) (by simp [hnew])
  · have hne : ∀ r key now, op ≠ .ingestBatch r key now := fun r key now h => hbatch ⟨r, key, now, h⟩
    unfold LeavesStored
    rcases perform_world P f op w with hw | hw
    · exact congrArg storedTables hw
    · exact (congrArg storedTables hw).trans (stored_effect hop hne)

theorem acceptedIn_iff {w : World} {messageId : String} :
    acceptedIn w messageId = true ↔ ∃ m ∈ w.messages, m.message_id = messageId := by
  simp [acceptedIn, ← Table.mem_rows]

/-- The transaction of an ingest adds its message. -/
theorem acceptedIn_ingestBatch (P : Runtime) (w : World) (record : OutboundV2Record)
    (key now messageId : String) :
    acceptedIn (w.ingestBatch P record key now) messageId = true ↔
      acceptedIn w messageId = true ∨ record.message_id = messageId := by
  rw [acceptedIn_iff, acceptedIn_iff,
    ingestBatch_keeps P w record key now (·.messages) (fun _ _ => rfl) fun _ _ => rfl]
  exact Table.exists_key_upsert (h := fun _ => rfl)

theorem acceptedIn_effect {P : Runtime} {op : Op} {w : World}
    {messageId : String} (h : acceptedIn w messageId = true) :
    acceptedIn (effect P op w) messageId = true := by
  cases op with
  | ingestBatch r key now => exact (acceptedIn_ingestBatch P w r key now messageId).2 (.inl h)
  | _ => exact h

/-! ## Runs of deliveries -/

/-- What a run of first arrivals has stored: every message once, and all of them are accepted. -/
structure StoredOnce (c : Config Thrown Op Res World Fault IngestResult) : Prop where
  nodup : (c.log.filterMap storedMessage).Nodup
  accepted : ∀ m ∈ c.log.filterMap storedMessage, acceptedIn c.world m = true

/-- The operations of the threads. -/
def DeliveryOp (ds : List Delivery) (t : ℕ) (op : Op) : Prop :=
  ∃ d, ds[t]? = some d ∧ IngestOp d.record op

theorem issues_deliveries (ds : List Delivery) (t : ℕ) :
    (deliveries ds t).Issues (DeliveryOp ds t) := by
  unfold deliveries
  cases hd : ds[t]? with
  | none => trivial
  | some d => exact (issues_ingestOp d.record d.bodyBytes d.now).mono fun op hop => ⟨d, hd, hop⟩

/-- One call that is a first arrival, if it is a transaction, keeps what is stored once. -/
theorem storedOnce_step {P : Runtime} {ds : List Delivery}
    {c : Config Thrown Op Res World Fault IngestResult} {t : ℕ} {op : Op} {f : Fault}
    {next : ℕ → Program IngestResult} (hop : DeliveryOp ds t op)
    (hfirst : FirstArrival ⟨t, op, f, c.world⟩) (h : StoredOnce c) :
    StoredOnce ⟨(perform P f op c.world).2, next, ⟨t, op, f, c.world⟩ :: c.log⟩ := by
  obtain ⟨d, -, hop⟩ := hop
  have hkeeps : ∀ m, acceptedIn c.world m = true →
      acceptedIn (perform P f op c.world).2 m = true := by
    intro m hm
    rcases perform_world P f op c.world with hw | hw
    · rwa [hw]
    · rw [hw]
      exact acceptedIn_effect hm
  cases hstored : storedMessage ⟨t, op, f, c.world⟩ with
  | none =>
    refine ⟨?_, ?_⟩
    · rw [List.filterMap_cons_none hstored]
      exact h.nodup
    · rw [List.filterMap_cons_none hstored]
      exact fun m hm => hkeeps m (h.accepted m hm)
  | some m =>
    obtain ⟨key, now, rfl, hne, hm⟩ : ∃ key now, op = .ingestBatch d.record key now ∧ f ≠ .before ∧
        d.record.message_id = m := by
      cases op with
      | ingestBatch r key now =>
        obtain rfl : r = d.record := hop.own r key now rfl
        have hs : (if f = .before then none else some d.record.message_id) = some m := hstored
        split_ifs at hs with hf
        exact ⟨key, now, rfl, hf, Option.some.inj hs⟩
      | _ => cases hstored
    have hnew : acceptedIn c.world m = false := by
      rw [← hm]
      exact hfirst.resolve_left hne
    have hadded : acceptedIn (perform P f (.ingestBatch d.record key now) c.world).2 m = true := by
      rw [show (perform P f (.ingestBatch d.record key now) c.world).2 =
        c.world.ingestBatch P d.record key now by cases f <;> first | rfl | exact absurd rfl hne]
      exact (acceptedIn_ingestBatch ..).2 (.inr hm)
    refine ⟨?_, ?_⟩
    · rw [List.filterMap_cons_some hstored]
      refine List.nodup_cons.2 ⟨fun hmem => ?_, h.nodup⟩
      rw [h.accepted m hmem] at hnew
      cases hnew
    · rw [List.filterMap_cons_some hstored]
      exact List.forall_mem_cons.2 ⟨hadded, fun m' hm' => hkeeps m' (h.accepted m' hm')⟩

/-- **Redelivery is inert where a message arrives first.** In every run of deliveries in which no
transaction finds its message accepted: a delivery that answers `REPLAY` leaves the stored records
alone, every call of a delivery whose message is accepted does, and no message's record is stored
twice. -/
theorem redelivery_inert (P : Runtime) (ds : List Delivery) (w : World) (es : List (ℕ × Fault))
    (h : ∀ k ∈ ((machine P).exec (Config.start w (deliveries ds)) es).log, FirstArrival k) :
    let reached := (machine P).exec (Config.start w (deliveries ds)) es
    (∀ t result, reached.result? t = some (.ok result) → result.status = .REPLAY →
      ∀ k ∈ reached.trace t, LeavesStored P k) ∧
    (∀ k ∈ reached.log, ∀ d, ds[k.thread]? = some d →
      acceptedIn k.before d.record.message_id = true → LeavesStored P k) ∧
    (reached.log.filterMap storedMessage).Nodup := by
  intro reached
  have hstart : Machine.Issued (DeliveryOp ds) (Config.start w (deliveries ds) :
      Config Thrown Op Res World Fault IngestResult) := issues_deliveries ds
  have hissued : ∀ k ∈ reached.log, DeliveryOp ds k.thread k.op := fun k hk =>
    (Machine.exec_log (M := machine P) (I := fun _ => True) (fun _ _ _ _ _ _ => trivial) hstart
      trivial (fun _ hk => absurd hk List.not_mem_nil) es k hk).1
  refine ⟨fun t result hresult hreplay k hk => ?_, fun k hk d hd hfound => ?_, ?_⟩
  · have hcompletes := Machine.completes_exec es hresult
    have hunstored : Unstored k := by
      unfold deliveries at hcompletes
      cases hd : ds[t]? with
      | none =>
        rw [hd] at hcompletes
        cases (Machine.completes_halt.1 hcompletes).2
      | some d =>
        rw [hd] at hcompletes
        exact completes_ingest hcompletes hreplay k (List.mem_reverse.2 hk)
    have hlog : k ∈ reached.log := List.mem_of_mem_filter hk
    obtain ⟨d, -, hop⟩ := hissued k hlog
    exact leavesStored_of hop (h k hlog) fun key now hbatch => hunstored d.record key now hbatch
  · obtain ⟨d', hd', hop⟩ := hissued k hk
    obtain rfl : d' = d := Option.some.inj (hd'.symm.trans hd)
    exact leavesStored_of hop (h k hk) fun _ _ _ => hfound
  · have hrun := Machine.exec_induction (M := machine P) (P := fun c =>
      Machine.Issued (DeliveryOp ds) c ∧ ((∀ k ∈ c.log, FirstArrival k) → StoredOnce c))
      (fun c e hc => ?_) es ⟨hstart, fun _ => ⟨List.nodup_nil, by simp [Config.start]⟩⟩
    · exact (hrun.2 h).nodup
    obtain ⟨hc, honce⟩ := hc
    refine ⟨Machine.issued_step hc e, fun hfirst => ?_⟩
    rcases Machine.step_cases (M := machine P) c e with hs | ⟨op, next, hcall, hs⟩
    · rw [hs] at hfirst ⊢
      exact honce hfirst
    · rw [hs] at hfirst ⊢
      exact storedOnce_step (Machine.issued_next hc hcall) (hfirst _ List.mem_cons_self)
        (honce fun k hk => hfirst k (List.mem_cons_of_mem _ hk))

/-! ## A copy in flight -/

/-- A message that says where a job stands. -/
def jobDelivery (messageId state : String) : Delivery where
  record :=
    { record_type := "job"
      message_id := messageId
      schema_version := "collector-outbound-v2"
      policy_version := "p"
      visibility := .PRIVATE
      payload := .obj [("job_id", .str "j1"), ("state", .str state)]
      generated_at := none }
  bodyBytes := 0
  now := "2026-01-01T"

/-- A message, and the same message after it. -/
theorem redelivery_inert_repeated :
    let ds := [jobDelivery "m1" "OPEN", jobDelivery "m1" "OPEN"]
    let reached := (machine exampleRuntime).exec (Config.start World.empty (deliveries ds))
      (alone 0 8 ++ alone 1 8)
    (∀ t result, reached.result? t = some (.ok result) → result.status = .REPLAY →
      ∀ k ∈ reached.trace t, LeavesStored exampleRuntime k) ∧
    (∀ k ∈ reached.log, ∀ d, ds[k.thread]? = some d →
      acceptedIn k.before d.record.message_id = true → LeavesStored exampleRuntime k) ∧
    (reached.log.filterMap storedMessage).Nodup :=
  redelivery_inert exampleRuntime [jobDelivery "m1" "OPEN", jobDelivery "m1" "OPEN"] World.empty
    (alone 0 8 ++ alone 1 8) (by decide +kernel)

/-- Two copies of a message and a newer one for the same job. -/
def copiedDeliveries : List Delivery :=
  [jobDelivery "m1" "OPEN", jobDelivery "m1" "OPEN", jobDelivery "m2" "DONE"]

/-- The first copy looks for the message, the second one is applied, the newer message is applied,
and then the first copy goes on: it answers `REPLAY`, and the job stands where it stood before. -/
theorem record_reverted :
    let newer := (machine exampleRuntime).exec
      (Config.start World.empty (deliveries copiedDeliveries)) (alone 0 1 ++ alone 1 8 ++ alone 2 8)
    let last := (machine exampleRuntime).exec
      (Config.start World.empty (deliveries copiedDeliveries))
      (alone 0 1 ++ alone 1 8 ++ alone 2 8 ++ alone 0 7)
    (newer.result? 1).map (·.map (·.status)) = some (.ok .APPLIED) ∧
      (newer.result? 2).map (·.map (·.status)) = some (.ok .APPLIED) ∧
      newer.world.records.rows.map (·.payload) = [(jobDelivery "m2" "DONE").record.payload] ∧
      (last.result? 0).map (·.map (·.status)) = some (.ok .REPLAY) ∧
      last.world.records.rows.map (·.payload) = [(jobDelivery "m1" "OPEN").record.payload] := by
  decide +kernel

end QuantproCollector.Retention
