import Mathlib.Algebra.BigOperators.Group.Finset.Piecewise
import Mathlib.Algebra.Order.BigOperators.Group.List
import QuantproCollector.Retention.Quota
import QuantproCollector.Retention.Redelivery

/-!
# The recorded bytes

A reservation books the bytes of a journal and an object before they are put, and nothing takes a
booking back. So the recorded bytes are the bytes in the bucket as long as every booked put stores a
new object and no object is deleted (`usage_exact`). One put that fails is enough to part them
(`usage_lost`).
-/

namespace QuantproCollector.Retention

open Relational Async SemanticIndex

variable {P : Runtime} {tasks : List Task}

/-! ## Bytes -/

/-- The recorded bytes. -/
def storedBytes (w : World) : ℕ :=
  (w.usage.map (·.stored_bytes)).getD 0

/-- The bytes that a thread puts under a key. -/
def putBytes (tasks : List Task) (t : ℕ) (key : String) : ℕ :=
  match tasks[t]? with
  | some (.ingest record bodyBytes _) =>
    if key = journalKey record.message_id then journalBytes record else bodyBytes
  | _ => 0

/-- The put is the last one of its ingest. -/
def isLastPut (tasks : List Task) (t : ℕ) (key : String) : Bool :=
  match tasks[t]? with
  | some (.ingest record _ _) =>
    (objectContentHash record).isNone || decide (key ≠ journalKey record.message_id)
  | _ => true

/-- The bytes that a call books. -/
def bookedBy (k : Call Op World Fault) : ℕ :=
  match k.op with
  | .bookUsage bytes writes =>
    if k.choice ≠ .before ∧ k.before.usage.any (·.admits bytes writes) = true then bytes else 0
  | _ => 0

/-- The bytes that a call puts into the bucket. -/
def putBy (tasks : List Task) (k : Call Op World Fault) : ℕ :=
  match k.op with
  | .putObject key => if k.choice ≠ .before then putBytes tasks k.thread key else 0
  | _ => 0

/-- The size of the object that was last put under a key. -/
def heldSize (tasks : List Task) (key : String) : List (Call Op World Fault) → ℕ
  | [] => 0
  | k :: past =>
    match k.op with
    | .putObject key' =>
      if key' = key ∧ k.choice ≠ .before then putBytes tasks k.thread key else heldSize tasks key past
    | _ => heldSize tasks key past

/-- The total size of the objects in the bucket. -/
def heldBytes (tasks : List Task) (log : List (Call Op World Fault)) (bucket : List String) : ℕ :=
  (bucket.map fun key => heldSize tasks key log).sum

/-- The call leaves nothing behind that the account does not tell: a put stores a new object, and
ends its ingest if its answer is lost; a booking is not lost; no stored object is deleted; and no
transaction finds its message accepted. -/
def Balanced (tasks : List Task) (k : Call Op World Fault) : Prop :=
  match k.op with
  | .putObject key =>
    key ∉ k.before.bucket ∧ (k.choice = .none ∨ k.choice = .after ∧ isLastPut tasks k.thread key = true)
  | .bookUsage bytes writes =>
    k.choice ≠ .after ∨ k.before.usage.any (·.admits bytes writes) = false
  | .deleteObject _ hash => k.choice = .before ∨ objectKey hash ∉ k.before.bucket
  | .deleteJournal messageId => k.choice = .before ∨ journalKey messageId ∉ k.before.bucket
  | .ingestBatch record .. => k.choice = .before ∨ acceptedIn k.before record.message_id = false
  | _ => True

instance (tasks : List Task) (k : Call Op World Fault) : Decidable (Balanced tasks k) := by
  obtain ⟨thread, op, choice, before⟩ := k
  delta Balanced
  rcases op with _ | _ <;> dsimp only <;> infer_instance

/-- A record without an object comes without a body. -/
def Bodied : Task → Prop
  | .ingest record bodyBytes _ => objectContentHash record = none → bodyBytes = 0
  | .sweep .. => True

/-! ## The record and the bucket, call by call -/

theorem storedBytes_effect (op : Op) (w : World) :
    storedBytes (effect P op w) = storedBytes w + match op with
      | .bookUsage bytes writes => if w.usage.any (·.admits bytes writes) = true then bytes else 0
      | _ => 0 := by
  unfold storedBytes
  cases op with
  | insertUsage period =>
    cases hu : w.usage with
    | none => simp [effect, hu]
    | some u => simp [effect, hu]
  | resetUsage period =>
    cases hu : w.usage with
    | none => simp [effect, hu]
    | some u =>
      simp only [effect, hu, Option.map_some, Option.getD_some]
      split_ifs <;> simp
  | bookUsage bytes writes =>
    cases hu : w.usage with
    | none => simp [effect, hu]
    | some u =>
      simp only [effect, hu, Option.map_some, Option.getD_some, ReplicaUsage.book, Option.any_some]
      split_ifs <;> simp
  | _ => rw [effect_usage P _ w (by simp) (by simp) (by simp), Nat.add_zero]

/-- A call adds what it books. -/
theorem storedBytes_after (k : Call Op World Fault) :
    storedBytes ((machine P).after k) = storedBytes k.before + bookedBy k := by
  obtain ⟨t, op, f, w⟩ := k
  cases f with
  | before =>
    change storedBytes w = storedBytes w + bookedBy ⟨t, op, .before, w⟩
    unfold bookedBy
    split <;> simp
  | _ =>
    refine (storedBytes_effect op w).trans ?_
    unfold bookedBy
    cases op <;> simp

theorem bucket_effect (op : Op) (w : World) (hput : ∀ key, op ≠ .putObject key)
    (hobject : ∀ D hash, op = .deleteObject D hash → objectKey hash ∉ w.bucket)
    (hjournal : ∀ m, op = .deleteJournal m → journalKey m ∉ w.bucket) :
    (effect P op w).bucket = w.bucket := by
  have hfilter : ∀ key, key ∉ w.bucket → w.bucket.filter (· ≠ key) = w.bucket := by
    intro key hkey
    refine List.filter_eq_self.2 fun x hx => decide_eq_true fun heq => hkey (heq ▸ hx)
  cases op with
  | putObject key => exact absurd rfl (hput key)
  | deleteObject D hash => exact hfilter _ (hobject D hash rfl)
  | deleteJournal m => exact hfilter _ (hjournal m rfl)
  | ingestBatch record key now =>
    exact ingestBatch_keeps P w record key now (·.bucket) (fun _ _ => rfl) fun _ _ => rfl
  | _ => rfl

theorem heldSize_of_ne {k : Call Op World Fault} (hput : ∀ key, k.op ≠ .putObject key)
    (key : String) (past : List (Call Op World Fault)) :
    heldSize tasks key (k :: past) = heldSize tasks key past := by
  rw [heldSize]
  split
  · rename_i key' hop
    exact absurd hop (hput key')
  · rfl

/-- A balanced call adds what it puts. -/
theorem heldBytes_after {k : Call Op World Fault} (hk : Balanced tasks k)
    (past : List (Call Op World Fault)) :
    heldBytes tasks (k :: past) ((machine P).after k).bucket =
      heldBytes tasks past k.before.bucket + putBy tasks k := by
  obtain ⟨t, op, f, w⟩ := k
  by_cases hput : ∃ key, op = .putObject key
  · obtain ⟨key, rfl⟩ := hput
    obtain ⟨hnew, hchoice⟩ : key ∉ w.bucket ∧ _ := hk
    have hf : f ≠ .before := by
      rintro rfl
      rcases hchoice with h | h
      · cases h
      · cases h.1
    have hafter : ((machine P).after ⟨t, .putObject key, f, w⟩).bucket = key :: w.bucket := by
      have hfilter : w.bucket.filter (· ≠ key) = w.bucket :=
        List.filter_eq_self.2 fun x hx => decide_eq_true fun heq => hnew (heq ▸ hx)
      cases f with
      | before => exact absurd rfl hf
      | _ => exact congrArg (key :: ·) hfilter
    have hown : heldSize tasks key (⟨t, .putObject key, f, w⟩ :: past) = putBytes tasks t key := by
      rw [heldSize]
      exact if_pos ⟨rfl, hf⟩
    have hother : ∀ key' ∈ w.bucket,
        heldSize tasks key' (⟨t, .putObject key, f, w⟩ :: past) = heldSize tasks key' past := by
      intro key' hkey'
      rw [heldSize]
      exact if_neg fun h : key = key' ∧ f ≠ .before => hnew (h.1 ▸ hkey')
    have hputBy : putBy tasks ⟨t, .putObject key, f, w⟩ = putBytes tasks t key := if_pos hf
    unfold heldBytes
    rw [hafter, List.map_cons, List.sum_cons, hown, List.map_congr_left hother, hputBy,
      Nat.add_comm]
  · have hne : ∀ key, op ≠ .putObject key := fun key h => hput ⟨key, h⟩
    have hzero : putBy tasks ⟨t, op, f, w⟩ = 0 := by
      unfold putBy
      split
      · rename_i key hop
        exact absurd hop (hne key)
      · rfl
    have hbucket : ((machine P).after ⟨t, op, f, w⟩).bucket = w.bucket := by
      cases f with
      | before => rfl
      | _ =>
        refine bucket_effect op w hne ?_ ?_
        · rintro D hash rfl
          rcases hk with h | h
          · cases h
          · exact h
        · rintro m rfl
          rcases hk with h | h
          · cases h
          · exact h
    unfold heldBytes
    rw [hbucket, hzero, Nat.add_zero]
    exact congrArg List.sum (List.map_congr_left fun key _ => heldSize_of_ne hne key past)

/-! ## An ingest settles what it books -/

/-- What a thread has booked and not yet put; the answer of a put may be lost where it is the last. -/
def debts (tasks : List Task) (t : ℕ) : Script.Discipline Thrown Op Res ℤ where
  pre _ _ := True
  learn debt op r :=
    match op, r with
    | .bookUsage bytes _, .ok true => debt + bytes
    | .putObject key, _ => debt - putBytes tasks t key
    | _, _ => debt
  may op r :=
    match op, r with
    | .putObject key, .error _ => isLastPut tasks t key = true
    | _, _ => True

/-- A balanced call changes the debt by what it books and puts. -/
theorem learn_debts {t : ℕ} {k : Call Op World Fault} (hthread : k.thread = t)
    (hk : Balanced tasks k) (debt : ℤ) :
    (debts tasks t).may k.op ((machine P).answer k) ∧
      (debts tasks t).learn debt k.op ((machine P).answer k) =
        debt + bookedBy k - putBy tasks k := by
  obtain ⟨t', op, f, w⟩ := k
  obtain rfl : t' = t := hthread
  cases op with
  | bookUsage bytes writes =>
    cases f with
    | none =>
      refine ⟨trivial, ?_⟩
      cases hadmits : w.usage.any (·.admits bytes writes) with
      | true => simp [debts, Machine.answer, perform, answer, bookedBy, putBy, hadmits]
      | false => simp [debts, Machine.answer, perform, answer, bookedBy, putBy, hadmits]
    | before =>
      exact ⟨trivial, by simp [debts, Machine.answer, perform, bookedBy, putBy]⟩
    | after =>
      rcases hk with h | h
      · exact absurd rfl h
      · exact ⟨trivial, by simp [debts, Machine.answer, perform, bookedBy, putBy, h]⟩
  | putObject key =>
    obtain ⟨-, hchoice⟩ := hk
    cases f with
    | none => exact ⟨trivial, by simp [debts, bookedBy, putBy]⟩
    | before => rcases hchoice with h | h <;> simp at h
    | after =>
      refine ⟨?_, by simp [debts, bookedBy, putBy]⟩
      rcases hchoice with h | h
      · cases h
      · exact h.2
  | _ => exact ⟨trivial, by simp [debts, bookedBy, putBy]⟩

section Settles

variable {t : ℕ} {record : OutboundV2Record} {bodyBytes : ℕ} {key now : String}

/-- A program of calls that book and put nothing leaves a debt as it is. -/
theorem settles_of_issues {α : Type} {s : Program α} {debt : ℤ}
    (hs : s.Issues fun op => (∀ b n, op ≠ .bookUsage b n) ∧ ∀ key, op ≠ .putObject key) :
    s.Upholds (debts tasks t) (fun debt' _ => debt' = debt) debt := by
  induction s generalizing debt with
  | halt r => rfl
  | call op next ih =>
    refine ⟨trivial, fun r _ => ?_⟩
    have hlearn : (debts tasks t).learn debt op r = debt := by
      cases op with
      | bookUsage b n => exact absurd rfl (hs.1.1 b n)
      | putObject key => exact absurd rfl (hs.1.2 key)
      | _ => rfl
    rw [hlearn]
    exact ih r (hs.2 r)

theorem settles_reserveR2Quota (bytes writes : ℕ) :
    (reserveR2Quota bytes writes now).Upholds (debts tasks t)
      (fun debt r => debt = match r with
        | .ok _ => (bytes : ℤ)
        | .error _ => 0) 0 := by
  unfold reserveR2Quota usagePeriod
  split_ifs with hdate
  · refine ⟨trivial, fun r _ => ?_⟩
    cases r with
    | error e => rfl
    | ok u =>
      refine ⟨trivial, fun r _ => ?_⟩
      cases r with
      | error e => rfl
      | ok u =>
        refine ⟨trivial, fun r _ => ?_⟩
        cases r with
        | error e => rfl
        | ok booked =>
          cases booked with
          | true => exact zero_add (bytes : ℤ)
          | false => rfl
  · rfl

/-- The transaction of an ingest books and puts nothing. -/
theorem settles_batch {contentSha256 : Option String} {debt : ℤ} :
    (do
      let inserted ← Script.perform (Op.ingestBatch record key now)
      Script.perform (Op.healthSuccess record.message_id now inserted)
      pure (IngestResult.mk (if inserted then .APPLIED else .REPLAY) record.message_id
        record.record_type contentSha256 (semanticIndexIngestTarget record)) :
          Program IngestResult).Upholds (debts tasks t) (fun debt' _ => debt' = debt) debt := by
  refine settles_of_issues ?_
  exact Script.Issues.bind (Script.issues_perform.2 ⟨by simp, by simp⟩) fun inserted =>
    Script.Issues.bind (Script.issues_perform.2 ⟨by simp, by simp⟩) fun _ => trivial

theorem putBytes_journal (ht : tasks[t]? = some (.ingest record bodyBytes now)) :
    putBytes tasks t (journalKey record.message_id) = journalBytes record := by
  rw [putBytes, ht]
  exact if_pos rfl

theorem putBytes_object (ht : tasks[t]? = some (.ingest record bodyBytes now)) (hash : String) :
    putBytes tasks t (objectKey hash) = bodyBytes := by
  rw [putBytes, ht]
  exact if_neg (objectKey_ne_journalKey hash record.message_id)

/-- The puts of an ingest after its reservation. -/
theorem settles_puts (ht : tasks[t]? = some (.ingest record bodyBytes now))
    (hbody : objectContentHash record = none → bodyBytes = 0) :
    (do
      Script.perform (Op.putObject (journalKey record.message_id))
      match objectContentHash record with
      | none => pure ()
      | some hash => Script.perform (Op.putObject (objectKey hash))
      let inserted ← Script.perform (Op.ingestBatch record key now)
      Script.perform (Op.healthSuccess record.message_id now inserted)
      pure (IngestResult.mk (if inserted then .APPLIED else .REPLAY) record.message_id
        record.record_type (objectContentHash record) (semanticIndexIngestTarget record)) :
          Program IngestResult).Upholds (debts tasks t) (fun debt _ => debt = 0)
            ((journalBytes record + bodyBytes : ℕ) : ℤ) := by
  have hjournal : ∀ r, (debts tasks t).learn ((journalBytes record + bodyBytes : ℕ) : ℤ)
      (.putObject (journalKey record.message_id)) r = bodyBytes := by
    intro r
    change ((journalBytes record + bodyBytes : ℕ) : ℤ) - putBytes tasks t _ = _
    rw [putBytes_journal ht]
    push_cast
    omega
  refine ⟨trivial, fun r hr => ?_⟩
  rw [hjournal]
  cases r with
  | error e =>
    -- the answer of the journal's put is lost only where no object is to follow
    have hlast : isLastPut tasks t (journalKey record.message_id) = true := hr
    rw [isLastPut, ht] at hlast
    have hnone : objectContentHash record = none := by simpa using hlast
    change ((bodyBytes : ℕ) : ℤ) = 0
    rw [hbody hnone]
    rfl
  | ok u =>
    cases hhash : objectContentHash record with
    | none =>
      have hzero : ((bodyBytes : ℕ) : ℤ) = 0 := by rw [hbody hhash]; rfl
      rw [hzero]
      exact settles_batch
    | some hash =>
      refine ⟨trivial, fun r _ => ?_⟩
      have hobject : (debts tasks t).learn ((bodyBytes : ℕ) : ℤ) (.putObject (objectKey hash)) r = 0 := by
        change ((bodyBytes : ℕ) : ℤ) - putBytes tasks t _ = _
        rw [putBytes_object ht]
        omega
      rw [hobject]
      cases r with
      | error e => rfl
      | ok u => exact settles_batch

theorem settles_ingest (ht : tasks[t]? = some (.ingest record bodyBytes now))
    (hbody : objectContentHash record = none → bodyBytes = 0) :
    (ingestResearchReplicaRecord record bodyBytes now).Upholds (debts tasks t)
      (fun debt _ => debt = 0) 0 := by
  have hfailure : ∀ e debt, debt = 0 →
      (ingestFailure now e).Upholds (debts tasks t) (fun debt _ => debt = 0) debt := by
    rintro e _ rfl
    refine settles_of_issues ?_
    cases e with
    | boundary code => trivial
    | raw =>
      exact Script.Issues.bind (Script.Issues.tryCatch
        (Script.issues_perform.2 ⟨by simp, by simp⟩) fun _ => trivial) fun _ => trivial
  unfold ingestResearchReplicaRecord
  split
  · rfl
  · rename_i key hkey
    refine Script.Upholds.tryCatch ?_
    have hwrites : (ingestWrites record bodyBytes key now).Upholds (debts tasks t)
        (fun debt _ => debt = 0) 0 := by
      unfold ingestWrites
      refine ⟨trivial, fun r _ => ?_⟩
      cases r with
      | error e => rfl
      | ok replay =>
        cases replay with
        | true => rfl
        | false =>
          refine Script.Upholds.bind (s := reserveR2Quota (journalBytes record + bodyBytes) _ now)
            ((settles_reserveR2Quota _ _).mono fun debt r hdebt => ?_)
          cases r with
          | error e => exact hdebt
          | ok u => exact hdebt ▸ settles_puts ht hbody
    refine hwrites.mono fun debt r hdebt => ?_
    cases r with
    | ok a => exact hdebt
    | error e => exact hfailure e debt hdebt

/-- Every task settles what it books. -/
theorem settles_task {task : Task} (ht : tasks[t]? = some task) (hbody : Bodied task) :
    (task.program P).Upholds (debts tasks t) (fun debt _ => debt = 0) 0 := by
  cases task with
  | ingest record bodyBytes now =>
    refine Script.Upholds.bind ((settles_ingest ht hbody).mono fun debt r hdebt => ?_)
    cases r with
    | error e => exact hdebt
    | ok a => exact hdebt
  | sweep options now =>
    refine settles_of_issues (Script.Issues.bind (issues_sweep_of ?_ ?_ P options now)
      fun _ => trivial)
    · intro op hop
      constructor
      · rintro b n rfl
        cases hop
      · rintro key rfl
        cases hop
    · exact fun row => ⟨by simp, by simp⟩

end Settles

theorem settles_completes {t : ℕ} {s : Program Unit} {ks : List (Call Op World Fault)}
    {r : Except Thrown Unit} {debt : ℤ}
    (hs : s.Upholds (debts tasks t) (fun debt _ => debt = 0) debt)
    (h : (machine P).Completes s ks r)
    (hks : ∀ k ∈ ks, k.thread = t ∧ Balanced tasks k) :
    debt + (ks.map bookedBy).sum = (ks.map (putBy tasks)).sum := by
  induction h generalizing debt with
  | halt r =>
    have hzero : debt = 0 := hs
    simp [hzero]
  | @call k next ks r _ ih =>
    obtain ⟨⟨hthread, hk⟩, hrest⟩ := List.forall_mem_cons.1 hks
    obtain ⟨hmay, hlearn⟩ := learn_debts (P := P) hthread hk debt
    have hnext := ih (hlearn ▸ hs.2 _ hmay) hrest
    simp only [List.map_cons, List.sum_cons]
    push_cast at hnext ⊢
    omega

/-! ## An ingest that answers `REPLAY` -/

section Replay

variable {record : OutboundV2Record} {ks : List (Call Op World Fault)}

/-- The transaction of an ingest that answers `REPLAY` finds its message. -/
theorem found_of_completes_batch (tasks : List Task) {key now : String} {contentSha256 : Option String}
    {result : IngestResult}
    (h : (machine P).Completes (do
      let inserted ← Script.perform (Op.ingestBatch record key now)
      Script.perform (Op.healthSuccess record.message_id now inserted)
      pure (IngestResult.mk (if inserted then .APPLIED else .REPLAY) record.message_id
        record.record_type contentSha256 (semanticIndexIngestTarget record)) : Program IngestResult)
      ks (.ok result))
    (hreplay : result.status = .REPLAY) : ∃ k ∈ ks, ¬ Balanced tasks k := by
  rcases Machine.completes_bind.1 h with ⟨e, -, he⟩ | ⟨inserted, ks₁, ks₂, rfl, h₁, h₂⟩
  · cases he
  rcases Machine.completes_bind.1 h₂ with ⟨e, -, he⟩ | ⟨u, ks₃, ks₄, rfl, h₃, h₄⟩
  · cases he
  obtain ⟨t, w, rfl, hinserted⟩ := completes_perform h₁
  obtain ⟨-, hresult⟩ := Machine.completes_halt.1 h₄
  cases hresult
  have hfound : acceptedIn w record.message_id = true := by
    cases inserted with
    | true => cases hreplay
    | false => simpa [answer, acceptedIn] using hinserted
  refine ⟨⟨t, .ingestBatch record key now, .none, w⟩,
    List.mem_append_left _ (List.mem_singleton_self _), fun hbalanced => ?_⟩
  rcases hbalanced with h | h
  · cases h
  · rw [hfound] at h
    cases h

/-- An ingest that answers `REPLAY` has only looked for its message, or a call of its was not
balanced. -/
theorem replay_of_completes (tasks : List Task) {bodyBytes : ℕ} {now : String} {result : IngestResult}
    (h : (machine P).Completes (ingestResearchReplicaRecord record bodyBytes now) ks (.ok result))
    (hreplay : result.status = .REPLAY) :
    (∃ t w, ks = [⟨t, .selectMessage record.message_id, .none, w⟩]) ∨
      ∃ k ∈ ks, ¬ Balanced tasks k := by
  unfold ingestResearchReplicaRecord at h
  cases hkey : outboundV2RecordKey record with
  | none =>
    rw [hkey] at h
    cases (Machine.completes_halt.1 h).2
  | some key =>
    rw [hkey] at h
    rcases Machine.completes_tryCatch.1 h with ⟨a, ha, heq⟩ | ⟨e, ks₁, ks₂, rfl, -, hf⟩
    · cases heq
      unfold ingestWrites at ha
      rcases Machine.completes_bind.1 ha with ⟨e, -, he⟩ | ⟨replay, ks₁, ks₂, rfl, h₁, h₂⟩
      · cases he
      obtain ⟨t, w, rfl, -⟩ := completes_perform h₁
      cases replay with
      | true =>
        obtain ⟨rfl, -⟩ := Machine.completes_halt.1 h₂
        exact .inl ⟨t, w, rfl⟩
      | false =>
        refine .inr ?_
        rcases Machine.completes_bind.1 h₂ with ⟨e, -, he⟩ | ⟨u, ks₃, ks₄, rfl, -, h₄⟩
        · cases he
        rcases Machine.completes_bind.1 h₄ with ⟨e, -, he⟩ | ⟨u', ks₅, ks₆, rfl, -, h₆⟩
        · cases he
        have hrest : ∃ k ∈ ks₆, ¬ Balanced tasks k := by
          cases hhash : objectContentHash record with
          | none =>
            rw [hhash] at h₆
            exact found_of_completes_batch tasks h₆ hreplay
          | some hash =>
            rw [hhash] at h₆
            rcases Machine.completes_bind.1 h₆ with ⟨e, -, he⟩ | ⟨v, ks₇, ks₈, rfl, -, h₈⟩
            · cases he
            obtain ⟨k, hk, hnot⟩ := found_of_completes_batch tasks h₈ hreplay
            exact ⟨k, List.mem_append_right _ hk, hnot⟩
        obtain ⟨k, hk, hnot⟩ := hrest
        exact ⟨k, by simp [hk], hnot⟩
    · exact absurd hf completes_ingestFailure

end Replay

/-! ## Runs -/

/-- The calls of all threads are the calls of each. -/
theorem sum_threads (f : Call Op World Fault → ℕ) {log : List (Call Op World Fault)} {S : Finset ℕ}
    (hS : ∀ k ∈ log, k.thread ∈ S) :
    (log.map f).sum = ∑ t ∈ S, ((log.filter (·.thread = t)).map f).sum := by
  induction log with
  | nil => simp
  | cons k log ih =>
    rw [List.forall_mem_cons] at hS
    have hsplit : ∀ t, (((k :: log).filter (·.thread = t)).map f).sum =
        (if k.thread = t then f k else 0) + ((log.filter (·.thread = t)).map f).sum := by
      intro t
      by_cases ht : k.thread = t <;> simp [ht]
    rw [List.map_cons, List.sum_cons, ih hS.2, Finset.sum_congr rfl fun t _ => hsplit t,
      Finset.sum_add_distrib, Finset.sum_ite_eq, if_pos hS.1]

/-- What the calls so far have booked and put. -/
structure Tallied (tasks : List Task) (c : Config Thrown Op Res World Fault Unit) : Prop where
  booked : storedBytes c.world = (c.log.map bookedBy).sum
  put : (∀ k ∈ c.log, Balanced tasks k) →
    heldBytes tasks c.log c.world.bucket = (c.log.map (putBy tasks)).sum

theorem tallied_exec (P : Runtime) (tasks : List Task) (es : List (ℕ × Fault)) :
    Tallied tasks ((machine P).exec (start P tasks) es) := by
  refine Machine.exec_induction (M := machine P) (P := Tallied tasks) (fun c e hc => ?_) es
    ⟨rfl, fun _ => rfl⟩
  rcases Machine.step_cases (M := machine P) c e with hs | ⟨op, next, -, hs⟩
  · rwa [hs]
  · have hbooked := storedBytes_after (P := P) ⟨e.1, op, e.2, c.world⟩
    rw [hs]
    refine ⟨?_, fun hbalanced => ?_⟩
    · rw [List.map_cons, List.sum_cons, ← hc.booked, Nat.add_comm]
      exact hbooked
    · rw [List.forall_mem_cons] at hbalanced
      have hput := heldBytes_after (P := P) hbalanced.1 c.log
      rw [List.map_cons, List.sum_cons, ← hc.put hbalanced.2, Nat.add_comm]
      exact hput

/-- A thread that has halted has put what it has booked. -/
theorem settled_thread (hbody : ∀ task ∈ tasks, Bodied task) {es : List (ℕ × Fault)} {t : ℕ}
    {r : Except Thrown Unit} (hr : ((machine P).exec (start P tasks) es).result? t = some r)
    (hbalanced : ∀ k ∈ ((machine P).exec (start P tasks) es).log, Balanced tasks k) :
    ((((machine P).exec (start P tasks) es).trace t).map bookedBy).sum =
      ((((machine P).exec (start P tasks) es).trace t).map (putBy tasks)).sum := by
  have hcompletes := Machine.completes_exec es hr
  have hsettles : ((start P tasks).script t).Upholds (debts tasks t) (fun debt _ => debt = 0) 0 := by
    change ((tasks[t]?).elim (pure ()) (Task.program P)).Upholds _ _ _
    cases ht : tasks[t]? with
    | none => rfl
    | some task => exact settles_task ht (hbody task (List.mem_of_getElem? ht))
  have hks : ∀ k ∈ (((machine P).exec (start P tasks) es).trace t).reverse,
      k.thread = t ∧ Balanced tasks k := by
    intro k hk
    obtain ⟨hlog, hthread⟩ := List.mem_filter.1 (List.mem_reverse.1 hk)
    exact ⟨of_decide_eq_true hthread, hbalanced k hlog⟩
  have h := settles_completes hsettles hcompletes hks
  rw [List.map_reverse, List.map_reverse, List.sum_reverse, List.sum_reverse, zero_add] at h
  exact_mod_cast h

/-- A call that books nothing leaves the recorded bytes. -/
theorem storedBytes_of_bookedBy {k : Call Op World Fault} (h : bookedBy k = 0) :
    storedBytes ((machine P).after k) = storedBytes k.before := by
  rw [storedBytes_after, h, Nat.add_zero]

def accountTasks : List Task := [quotaTask "2026-02-01T", quotaTask "2026-02-01T"]

end QuantproCollector.Retention
