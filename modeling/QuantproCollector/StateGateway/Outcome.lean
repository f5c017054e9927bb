import Mathlib.Data.List.TakeWhile
import QuantproCollector.StateGateway.RunSafety
import QuantproCollector.StateGateway.Slots

/-!
# Outcomes of write attempts

What an attempt may say of its write once GitHub may hold its comment. The errors that the ledgers
raise after the POST leave the outcome open (`completes_createAndReadBack`), but an answer that cannot
be read and a statement that fails while the receipt is finalised raise an error of the runtime, which
the gateway takes for a failure of the write. These are the only ways out (`classifies_settle`).
-/

namespace QuantproCollector.StateGateway

open Async

/-- The call is a POST that GitHub accepts. -/
def Posted (k : Call Op World Choice) : Prop :=
  k.op.posts = true ∧ k.choice.accepted = true

instance : DecidablePred Posted := fun _ => inferInstanceAs (Decidable (_ ∧ _))

/-- The codes that leave the outcome of a write open. -/
def StateGatewayErrorCode.isOpen : StateGatewayErrorCode → Bool
  | .STATE_OUTCOME_UNKNOWN | .STATE_READBACK_FAILED => true
  | _ => false

/-- An attempt answers its caller with a result, or leaves the outcome open. -/
def AnswersOpen {α : Type} : Except Thrown α → Prop
  | .ok _ => True
  | .error t => (normalizeStateGatewayError t .WRITE true).code.isOpen = true

/-- The call finalises a receipt with the status. -/
def Finalizes (status : StateReceiptStatus) (k : Call Op World Choice) : Prop :=
  match k.op with
  | .finalizeReceipt f => f.status = status ∧ k.choice.fault ≠ .before
  | _ => False

/-- What an attempt may say of its write. Where GitHub accepted its POST, it neither finalises its
receipt as failed nor gives an answer that closes the outcome; where it sent a POST at all, it leaves
its receipt open or persisted. -/
structure ClassifiesOutcome {α : Type} (ks : List (Call Op World Choice)) (r : Except Thrown α) :
    Prop where
  failed : ∀ k ∈ ks, Finalizes .FAILED k ∨ Finalizes .CONFLICT k → ∀ p ∈ ks, ¬ Posted p
  answer : ¬ AnswersOpen r → ∀ p ∈ ks, ¬ Posted p
  receipt : (∃ p ∈ ks, p.op.posts = true) →
    ∃ k ∈ ks, Finalizes .OUTCOME_UNKNOWN k ∨ Finalizes .PERSISTED k

/-- A body that the ledger's reader cannot take as a comment. -/
def Unreadable : Option Json → Prop
  | none => True
  | some comment => ∃ t, commentBody comment = .error t

/-- The call raises an error of the runtime: GitHub's answer is a success whose body is not JSON or is
null, or is no comment on reading back; a statement on the receipt fails, or finds none. -/
def Breaks (P : Runtime) (k : Call Op World Choice) : Prop :=
  match k.op with
  | .fetch (.create l body) =>
    ∃ response, k.choice.response P k.before (.create l body) = .ok response ∧
      response.ok = true ∧ (response.body = none ∨ response.body = some .null)
  | .fetch (.get l id) =>
    ∃ response, k.choice.response P k.before (.get l id) = .ok response ∧
      response.ok = true ∧ Unreadable response.body
  | .selectReceipt writeKey => k.choice.fault ≠ .none ∨ receiptFor k.before writeKey = none
  | .finalizeReceipt _ => k.choice.fault ≠ .none
  | _ => False

/-- No call breaks from the accepted POST on; where the POST was sent and not accepted, finalising
the receipt takes effect. -/
structure Unbroken (P : Runtime) (ks : List (Call Op World Choice)) : Prop where
  accepted : ∀ k ∈ ks.dropWhile fun k => !decide (Posted k), ¬ Breaks P k
  refused : (∃ p ∈ ks, p.op.posts = true) → (∀ p ∈ ks, ¬ Posted p) →
    ∀ k ∈ ks, ∀ f, k.op = .finalizeReceipt f → k.choice.fault ≠ .before

/-- Operations that neither post nor finalise. -/
def Op.prepares (op : Op) : Prop :=
  op.posts = false ∧ ∀ f, op ≠ .finalizeReceipt f

variable {P : Runtime} {ks : List (Call Op World Choice)}

theorem not_posted {k : Call Op World Choice} (h : k.op.posts = false) : ¬ Posted k :=
  fun hk => by simp [hk.1] at h

theorem finalizes_iff {status : StateReceiptStatus} {k : Call Op World Choice} :
    Finalizes status k ↔
      ∃ f, k.op = .finalizeReceipt f ∧ f.status = status ∧ k.choice.fault ≠ .before := by
  unfold Finalizes
  split
  · rename_i f hop
    simp [hop]
  · rename_i hop
    exact iff_of_false id fun ⟨f, hf, _⟩ => hop f hf

theorem not_finalizes {status : StateReceiptStatus} {k : Call Op World Choice}
    (h : ∀ f, k.op ≠ .finalizeReceipt f) : ¬ Finalizes status k := by
  rw [finalizes_iff]
  rintro ⟨f, hop, -⟩
  exact h f hop

/-- A success is the answer of a GitHub that accepted the POST. -/
theorem accepted_of_ok {k : Call Op World Choice} {request : Request} {response : HttpResponse}
    (h : k.choice.response P k.before request = .ok response) (hok : response.ok = true) :
    k.choice.accepted = true := by
  unfold Choice.response at h
  unfold Choice.accepted
  cases hhttp : k.choice.http with
  | honest => rfl
  | lost =>
    rw [hhttp] at h
    cases h
  | respond r =>
    rw [hhttp] at h
    obtain rfl := Except.ok.inj h
    simp [hok]

section Prepared

variable {α : Type} {pre : List (Call Op World Choice)} {r : Except Thrown α}

/-- An attempt that sends no POST. -/
theorem classifies_of_no_posts (h : ∀ k ∈ ks, k.op.posts = false) :
    ClassifiesOutcome ks r ↔ Unbroken P ks := by
  have hnone : ¬ ∃ p ∈ ks, p.op.posts = true := by
    rintro ⟨p, hp, hposts⟩
    simp [h p hp] at hposts
  refine iff_of_true ⟨fun _ _ _ p hp => not_posted (h p hp), fun _ p hp => not_posted (h p hp),
    fun hp => absurd hp hnone⟩ ⟨?_, fun hp => absurd hp hnone⟩
  rw [List.dropWhile_eq_nil_iff.2 fun k hk => by simp [not_posted (h k hk)]]
  simp

theorem exists_posts_append (h : ∀ k ∈ pre, k.op.prepares) :
    (∃ p ∈ pre ++ ks, p.op.posts = true) ↔ ∃ p ∈ ks, p.op.posts = true := by
  constructor
  · rintro ⟨p, hp, hposts⟩
    rcases List.mem_append.1 hp with hp | hp
    · simp [(h p hp).1] at hposts
    · exact ⟨p, hp, hposts⟩
  · rintro ⟨p, hp, hposts⟩
    exact ⟨p, List.mem_append_right _ hp, hposts⟩

theorem forall_not_posted_append (h : ∀ k ∈ pre, k.op.prepares) :
    (∀ p ∈ pre ++ ks, ¬ Posted p) ↔ ∀ p ∈ ks, ¬ Posted p := by
  rw [List.forall_mem_append]
  exact and_iff_right fun k hk => not_posted (h k hk).1

theorem unbroken_append (h : ∀ k ∈ pre, k.op.prepares) : Unbroken P (pre ++ ks) ↔ Unbroken P ks := by
  have hdrop : (pre ++ ks).dropWhile (fun k => !decide (Posted k)) =
      ks.dropWhile fun k => !decide (Posted k) :=
    List.dropWhile_append_of_pos fun k hk => by simp [not_posted (h k hk).1]
  constructor
  · rintro ⟨haccepted, hrefused⟩
    rw [hdrop] at haccepted
    rw [exists_posts_append h, forall_not_posted_append h] at hrefused
    exact ⟨haccepted, fun hp hn k hk => hrefused hp hn k (List.mem_append_right _ hk)⟩
  · rintro ⟨haccepted, hrefused⟩
    refine ⟨by rwa [hdrop], ?_⟩
    rw [exists_posts_append h, forall_not_posted_append h]
    exact fun hp hn => List.forall_mem_append.2
      ⟨fun k hk f hop => absurd hop ((h k hk).2 f), hrefused hp hn⟩

theorem classifiesOutcome_append (h : ∀ k ∈ pre, k.op.prepares) :
    ClassifiesOutcome (pre ++ ks) r ↔ ClassifiesOutcome ks r := by
  have hfinal : ∀ k ∈ pre, ∀ st, ¬ Finalizes st k := fun k hk _ => not_finalizes (h k hk).2
  constructor
  · rintro ⟨hfailed, hanswer, hreceipt⟩
    rw [exists_posts_append h] at hreceipt
    refine ⟨fun k hk hst p hp => hfailed k (List.mem_append_right _ hk) hst p
      (List.mem_append_right _ hp), fun ha p hp => hanswer ha p (List.mem_append_right _ hp),
      fun hp => ?_⟩
    obtain ⟨k, hk, hst⟩ := hreceipt hp
    rcases List.mem_append.1 hk with hk | hk
    · exact absurd hst (not_or.2 ⟨hfinal k hk _, hfinal k hk _⟩)
    · exact ⟨k, hk, hst⟩
  · rintro ⟨hfailed, hanswer, hreceipt⟩
    refine ⟨List.forall_mem_append.2 ⟨fun k hk hst =>
      absurd hst (not_or.2 ⟨hfinal k hk _, hfinal k hk _⟩), fun k hk hst =>
      (forall_not_posted_append h).2 (hfailed k hk hst)⟩,
      fun ha => (forall_not_posted_append h).2 (hanswer ha), fun hp => ?_⟩
    obtain ⟨k, hk, hst⟩ := hreceipt ((exists_posts_append h).1 hp)
    exact ⟨k, List.mem_append_right _ hk, hst⟩

/-- From an accepted POST on, nothing may break. -/
theorem unbroken_cons {k : Call Op World Choice} (h : Posted k) :
    Unbroken P (k :: ks) ↔ ∀ k' ∈ k :: ks, ¬ Breaks P k' := by
  have hdrop : (k :: ks).dropWhile (fun k => !decide (Posted k)) = k :: ks :=
    List.dropWhile_cons_of_neg (by simp [h])
  constructor
  · intro hu
    have haccepted := hu.accepted
    rwa [hdrop] at haccepted
  · intro hall
    exact ⟨by rwa [hdrop], fun _ hn => absurd h (hn k List.mem_cons_self)⟩

/-- What an attempt whose POST was accepted may say. -/
theorem classifiesOutcome_cons {k : Call Op World Choice} (h : Posted k) :
    ClassifiesOutcome (k :: ks) r ↔
      (∀ k' ∈ k :: ks, ¬ Finalizes .FAILED k' ∧ ¬ Finalizes .CONFLICT k') ∧ AnswersOpen r ∧
        ∃ k' ∈ k :: ks, Finalizes .OUTCOME_UNKNOWN k' ∨ Finalizes .PERSISTED k' := by
  have hk : k ∈ k :: ks := List.mem_cons_self
  constructor
  · rintro ⟨hfailed, hanswer, hreceipt⟩
    exact ⟨fun k' hk' => not_or.1 fun hst => hfailed k' hk' hst k hk h,
      by_contra fun ha => hanswer ha k hk h, hreceipt ⟨k, hk, h.1⟩⟩
  · rintro ⟨hfailed, hanswer, hreceipt⟩
    exact ⟨fun k' hk' hst => absurd hst (not_or.2 (hfailed k' hk')),
      fun ha => absurd hanswer ha, fun _ => hreceipt⟩

/-- An attempt whose POST GitHub did not accept leaves its receipt open where its finalising takes
effect. -/
theorem classifies_refused (hposts : ∃ p ∈ ks, p.op.posts = true) (hnone : ∀ p ∈ ks, ¬ Posted p)
    {k : Call Op World Choice} (hk : k ∈ ks) {f : FinalizeRequest} (hop : k.op = .finalizeReceipt f)
    (hstatus : f.status = .OUTCOME_UNKNOWN)
    (honly : ∀ k' ∈ ks, ∀ f', k'.op = .finalizeReceipt f' → k' = k) :
    ClassifiesOutcome ks r ↔ Unbroken P ks := by
  constructor
  · intro hclass
    have htaken : k.choice.fault ≠ .before := by
      obtain ⟨k', hk', hst | hst⟩ := hclass.receipt hposts
      · obtain ⟨f', hop', -, hfault⟩ := finalizes_iff.1 hst
        rwa [honly k' hk' f' hop'] at hfault
      · obtain ⟨f', hop', -, hfault⟩ := finalizes_iff.1 hst
        rwa [honly k' hk' f' hop'] at hfault
    refine ⟨?_, fun _ _ k' hk' f' hop' => honly k' hk' f' hop' ▸ htaken⟩
    rw [List.dropWhile_eq_nil_iff.2 fun k' hk' => by simp [hnone k' hk']]
    simp
  · intro hunbroken
    exact ⟨fun _ _ _ => hnone, fun _ => hnone, fun _ => ⟨k, hk, .inl (finalizes_iff.2
      ⟨f, hop, hstatus, hunbroken.refused hposts hnone k hk f hop⟩)⟩⟩

end Prepared

/-! ## Reading back -/

theorem completes_fetch {request : Request} {r : Except Thrown HttpResponse}
    (h : (machine P).Completes (fetch request) ks r) :
    ∃ k, ks = [k] ∧ k.op = .fetch request ∧ k.choice.response P k.before request = r := by
  obtain ⟨t, ch, w, ks', rfl, hend⟩ := Machine.completes_call.1 h
  obtain ⟨rfl, rfl⟩ := Machine.completes_halt.1 hend
  exact ⟨_, rfl, rfl, rfl⟩

/-- The result of a read with retries is the response of one of its calls, and that of every call
that is a success. -/
theorem completes_fetchStateLedgerReadWithRetry {request : Request} {delays : List ℕ}
    {r : Except Thrown HttpResponse}
    (h : (machine P).Completes (fetchStateLedgerReadWithRetry request delays) ks r) :
    (∀ k ∈ ks, k.op = .fetch request ∧ ∀ response,
      k.choice.response P k.before request = .ok response → response.ok = true → r = .ok response) ∧
      ∃ k ∈ ks, k.choice.response P k.before request = r := by
  induction delays generalizing ks with
  | nil =>
    obtain ⟨k, rfl, hop, hr⟩ := completes_fetch h
    refine ⟨fun k' hk' => ?_, k, List.mem_cons_self, hr⟩
    rw [List.mem_singleton.1 hk']
    exact ⟨hop, fun response hresponse _ => hr.symm.trans hresponse⟩
  | cons delay delays ih =>
    rcases Machine.completes_bind.1 h with ⟨e, hfetch, -⟩ | ⟨answer, ks₁, ks₂, rfl, hfetch, hrest⟩
    · rcases completes_attempt.1 hfetch with ⟨a, -, hr⟩ | ⟨-, hr⟩ <;> cases hr
    · rcases completes_attempt.1 hfetch with ⟨response, hresp, hr⟩ | ⟨⟨e, herr⟩, hr⟩
      · obtain rfl := Except.ok.inj hr
        obtain ⟨k, rfl, hop, hk⟩ := completes_fetch hresp
        dsimp only at hrest
        split_ifs at hrest with hfinal
        · obtain ⟨rfl, rfl⟩ := Machine.completes_halt.1 hrest
          refine ⟨fun k' hk' => ?_, k, by simp, hk⟩
          rw [List.append_nil, List.mem_singleton] at hk'
          rw [hk']
          exact ⟨hop, fun response hresponse _ => hk.symm.trans hresponse⟩
        · obtain ⟨hall, k', hk', hr'⟩ := ih hrest
          refine ⟨fun k'' hk'' => ?_, k', List.mem_append_right _ hk', hr'⟩
          rcases List.mem_append.1 hk'' with hk'' | hk''
          · rw [List.mem_singleton.1 hk'']
            refine ⟨hop, fun response' hresponse hok => ?_⟩
            obtain rfl := Except.ok.inj (hk.symm.trans hresponse)
            simp [hok] at hfinal
          · exact hall k'' hk''
      · obtain rfl := Except.ok.inj hr
        obtain ⟨k, rfl, hop, hk⟩ := completes_fetch herr
        obtain ⟨hall, k', hk', hr'⟩ := ih hrest
        refine ⟨fun k'' hk'' => ?_, k', List.mem_append_right _ hk', hr'⟩
        rcases List.mem_append.1 hk'' with hk'' | hk''
        · rw [List.mem_singleton.1 hk'']
          refine ⟨hop, fun response' hresponse _ => ?_⟩
          cases hk.symm.trans hresponse
        · exact hall k'' hk''

/-- The error of a ledger that leaves the outcome open. -/
def OpenError (t : Thrown) : Prop :=
  (mapDomainError t).code.isOpen = true

/-- What an append leaves after its POST: it broke, or none of its calls did and it returned or raised
an error that leaves the outcome open. -/
def ReadsBack (P : Runtime) (ks : List (Call Op World Choice)) (r : Except Thrown AppendResult) :
    Prop :=
  (r = .error .raw ∧ ∃ k ∈ ks, Breaks P k) ∨
    (∀ k ∈ ks, ¬ Breaks P k) ∧
      ((∃ a, r = .ok a ∧ a.status = .PERSISTED) ∨ ∃ t, r = .error t ∧ OpenError t)

theorem toComment_error_iff (parseBody : Option String → Option Json) {comment : Json} :
    (∃ t, toComment parseBody comment = .error t) ↔ ∃ t, commentBody comment = .error t := by
  unfold toComment
  cases commentBody comment with
  | error t => simp [bind, Except.bind]
  | ok body =>
    simp only [bind, Except.bind]
    cases parseBody body with
    | none => simp [pure, Except.pure]
    | some payload => simp [pure, Except.pure]

theorem commentBody_error {comment : Json} {t : Thrown} (h : commentBody comment = .error t) :
    t = .raw := by
  unfold commentBody at h
  split at h
  · exact (Except.error.inj h).symm
  · split at h
    · cases h
    · cases h
    · cases h
    · cases h
    · split_ifs at h
      exact (Except.error.inj h).symm
    · exact (Except.error.inj h).symm

theorem toComment_error {parseBody : Option String → Option Json} {comment : Json} {t : Thrown}
    (h : toComment parseBody comment = .error t) : t = .raw := by
  unfold toComment at h
  cases hbody : commentBody comment with
  | error t' =>
    rw [hbody] at h
    obtain rfl := Except.error.inj h
    exact commentBody_error hbody
  | ok body =>
    rw [hbody] at h
    simp only [bind, Except.bind] at h
    cases hparse : parseBody body with
    | none => simp [hparse, pure, Except.pure] at h
    | some payload => simp [hparse, pure, Except.pure] at h

section Append

variable {e : LedgerErrors} {parseBody : Option String → Option Json} {payload : Json}
  {r : Except Thrown AppendResult}

/-- What an append does with a read-back response. -/
def checkReadBack (e : LedgerErrors) (parse : Json → Except Thrown (Option LedgerComment))
    (payload : Json) (response : HttpResponse) : Except Thrown AppendResult :=
  if !response.ok then
    .error (e.readbackFailed s!"GitHub {e.subject} readback failed with HTTP {response.status}"
      (some response.status))
  else
    match response.body with
    | none => .error .raw
    | some comment =>
      match parse comment with
      | .error t => .error t
      | .ok none => .error (e.readbackFailed e.mismatch none)
      | .ok (some readback) =>
        if samePayload readback.payload payload then
          .ok ⟨.PERSISTED, readback.comment_id, readback.url, readback.created_at, readback.payload⟩
        else .error (e.readbackFailed e.mismatch none)

/-- The reading back of a comment that was created. -/
def readBack (e : LedgerErrors) (parse : Json → Except Thrown (Option LedgerComment))
    (payload : Json) (createdId : String) : Program AppendResult := do
  match ← attempt (fetchStateLedgerReadWithRetry (.get e.ledger createdId)
    STATE_LEDGER_READ_RETRY_DELAYS_MS) with
  | some response => Script.halt (checkReadBack e parse payload response)
  | none => throw (e.readbackFailed s!"GitHub {e.subject} readback request failed" none)

theorem readBack_eq (e : LedgerErrors) (parse : Json → Except Thrown (Option LedgerComment))
    (payload : Json) (createdId : String) :
    (do
      let readbackResponse ←
        match ← attempt (fetchStateLedgerReadWithRetry (.get e.ledger createdId)
          STATE_LEDGER_READ_RETRY_DELAYS_MS) with
        | some response => pure response
        | none => throw (e.readbackFailed s!"GitHub {e.subject} readback request failed" none)
      if !readbackResponse.ok then
        throw (e.readbackFailed
          s!"GitHub {e.subject} readback failed with HTTP {readbackResponse.status}"
          (some readbackResponse.status))
      match readbackResponse.body with
      | none => throw .raw
      | some comment =>
        match parse comment with
        | .error t => throw t
        | .ok none => throw (e.readbackFailed e.mismatch none)
        | .ok (some readback) =>
          if samePayload readback.payload payload then
            return ⟨.PERSISTED, readback.comment_id, readback.url, readback.created_at,
              readback.payload⟩
          else throw (e.readbackFailed e.mismatch none) : Program AppendResult) =
      readBack e parse payload createdId := by
  unfold readBack
  congr 1
  funext answer
  cases answer with
  | none => rfl
  | some response =>
    simp only [Script.pure_eq, Script.halt_ok_bind, checkReadBack]
    split
    · rfl
    · split
      · rfl
      · split
        · rfl
        · rfl
        · split_ifs
          · rfl
          · rfl

/-- A response that is read back breaks, or ends the append. -/
theorem checkReadBack_cases
    (hopen : ∀ message status, OpenError (e.unavailable message status) ∧
      OpenError (e.readbackFailed message status)) (response : HttpResponse) :
    (checkReadBack e (toComment parseBody) payload response = .error .raw ∧ response.ok = true ∧
        Unreadable response.body) ∨
      ¬ (response.ok = true ∧ Unreadable response.body) ∧
        ((∃ a, checkReadBack e (toComment parseBody) payload response = .ok a ∧
            a.status = .PERSISTED) ∨
          ∃ t, checkReadBack e (toComment parseBody) payload response = .error t ∧ OpenError t) := by
  unfold checkReadBack
  split_ifs with hok
  · refine .inr ⟨?_, .inr ⟨_, rfl, (hopen _ _).2⟩⟩
    rintro ⟨h, -⟩
    simp [h] at hok
  · have hok' : response.ok = true := by simpa using hok
    split
    · rename_i hbody
      exact .inl ⟨rfl, hok', by simp [hbody, Unreadable]⟩
    · rename_i comment hbody
      split
      · rename_i t herror
        obtain rfl := toComment_error herror
        refine .inl ⟨rfl, hok', ?_⟩
        rw [hbody]
        exact (toComment_error_iff parseBody).1 ⟨_, herror⟩
      · rename_i hcomment
        refine .inr ⟨?_, .inr ⟨_, rfl, (hopen _ _).2⟩⟩
        rw [hbody]
        rintro ⟨-, hunreadable⟩
        obtain ⟨t, ht⟩ := (toComment_error_iff parseBody).2 hunreadable
        cases hcomment.symm.trans ht
      · rename_i readback hcomment
        refine .inr ⟨?_, ?_⟩
        · rw [hbody]
          rintro ⟨-, hunreadable⟩
          obtain ⟨t, ht⟩ := (toComment_error_iff parseBody).2 hunreadable
          cases hcomment.symm.trans ht
        · split_ifs
          · exact .inl ⟨_, rfl, rfl⟩
          · exact .inr ⟨_, rfl, (hopen _ _).2⟩

theorem completes_readBack
    (hopen : ∀ message status, OpenError (e.unavailable message status) ∧
      OpenError (e.readbackFailed message status)) {createdId : String}
    (h : (machine P).Completes (readBack e (toComment parseBody) payload createdId) ks r) :
    (∀ k ∈ ks, k.op = .fetch (.get e.ledger createdId)) ∧ ReadsBack P ks r := by
  rcases Machine.completes_bind.1 h with ⟨t, hfetch, -⟩ | ⟨answer, ks₁, ks₂, rfl, hfetch, hrest⟩
  · rcases completes_attempt.1 hfetch with ⟨a, -, hr⟩ | ⟨-, hr⟩ <;> cases hr
  clear h
  rcases completes_attempt.1 hfetch with ⟨response, hresp, hr⟩ | ⟨⟨t, herr⟩, hr⟩
  · obtain rfl := Except.ok.inj hr
    obtain ⟨hall, k', hk', hr'⟩ := completes_fetchStateLedgerReadWithRetry hresp
    obtain ⟨rfl, rfl⟩ := Machine.completes_halt.1 hrest
    rw [List.append_nil]
    refine ⟨fun k hk => (hall k hk).1, ?_⟩
    rcases @checkReadBack_cases e parseBody payload hopen response with
      ⟨hraw, hok, hbody⟩ | ⟨hreadable, hend⟩
    · refine .inl ⟨hraw, k', hk', ?_⟩
      rw [Breaks, (hall k' hk').1]
      exact ⟨response, hr', hok, hbody⟩
    · refine .inr ⟨fun k hk hbreak => ?_, hend⟩
      rw [Breaks, (hall k hk).1] at hbreak
      obtain ⟨response', hresponse, hok, hbody⟩ := hbreak
      obtain rfl := Except.ok.inj ((hall k hk).2 response' hresponse hok)
      exact hreadable ⟨hok, hbody⟩
  · obtain rfl := Except.ok.inj hr
    obtain ⟨hall, -⟩ := completes_fetchStateLedgerReadWithRetry herr
    obtain ⟨rfl, rfl⟩ := Machine.completes_halt.1 hrest
    rw [List.append_nil]
    refine ⟨fun k hk => (hall k hk).1, .inr ⟨fun k hk hbreak => ?_, .inr ⟨_, rfl, (hopen _ _).2⟩⟩⟩
    rw [Breaks, (hall k hk).1] at hbreak
    obtain ⟨response', hresponse, hok, -⟩ := hbreak
    cases (hall k hk).2 response' hresponse hok

/-- An append posts first, and then only reads. -/
theorem completes_createAndReadBack
    (hopen : ∀ message status, OpenError (e.unavailable message status) ∧
      OpenError (e.readbackFailed message status))
    (h : (machine P).Completes (createAndReadBack e (toComment parseBody) payload) ks r) :
    ∃ post gets, ks = post :: gets ∧ post.op.posts = true ∧
      (∀ k ∈ gets, ∃ id, k.op = .fetch (.get e.ledger id)) ∧ ReadsBack P ks r ∧
        (¬ Posted post → ∃ t, r = .error t ∧ OpenError t) := by
  unfold createAndReadBack at h
  rcases Machine.completes_bind.1 h with ⟨t, hfetch, -⟩ | ⟨answer, ks₁, ks₂, rfl, hfetch, hrest⟩
  · rcases completes_attempt.1 hfetch with ⟨a, -, hr⟩ | ⟨-, hr⟩ <;> cases hr
  clear h
  rcases completes_attempt.1 hfetch with ⟨response, hresp, hr⟩ | ⟨⟨t, herr⟩, hr⟩
  · obtain rfl := Except.ok.inj hr
    obtain ⟨post, rfl, hop, hpost⟩ := completes_fetch hresp
    have hposts : post.op.posts = true := by simp [Op.posts, hop]
    have hbreaks : Breaks P post ↔ response.ok = true ∧
        (response.body = none ∨ response.body = some .null) := by
      simp [Breaks, hop, hpost]
    simp only [Script.pure_eq, Script.halt_ok_bind] at hrest
    refine ⟨post, ks₂, rfl, hposts, ?_⟩
    split_ifs at hrest with hok
    · simp only [Script.throw_eq, Script.halt_error_bind, Machine.completes_halt] at hrest
      obtain ⟨rfl, rfl⟩ := hrest
      refine ⟨by simp, .inr ⟨?_, .inr ⟨_, rfl, (hopen _ _).1⟩⟩, fun _ => ⟨_, rfl, (hopen _ _).1⟩⟩
      simp only [Bool.not_eq_true'] at hok
      simp [hbreaks, hok]
    · have hok' : response.ok = true := by simpa using hok
      have hposted : Posted post := ⟨hposts, accepted_of_ok hpost hok'⟩
      split at hrest
      · rename_i hbody
        obtain ⟨rfl, rfl⟩ := Machine.completes_halt.1 hrest
        exact ⟨by simp, .inl ⟨rfl, post, List.mem_cons_self, hbreaks.2 ⟨hok', .inl hbody⟩⟩,
          fun hnot => absurd hposted hnot⟩
      · rename_i hbody
        obtain ⟨rfl, rfl⟩ := Machine.completes_halt.1 hrest
        exact ⟨by simp, .inl ⟨rfl, post, List.mem_cons_self, hbreaks.2 ⟨hok', .inr hbody⟩⟩,
          fun hnot => absurd hposted hnot⟩
      · rename_i created hnull hbody
        have hpost' : ¬ Breaks P post := by
          rw [hbreaks, hbody]
          rintro ⟨-, hnone | hnull'⟩
          · cases hnone
          · exact hnull (Option.some.inj hnull')
        split_ifs at hrest with hid
        · simp only [Script.throw_eq, Script.halt_error_bind, Machine.completes_halt] at hrest
          obtain ⟨rfl, rfl⟩ := hrest
          refine ⟨by simp, .inr ⟨?_, .inr ⟨_, rfl, (hopen _ _).2⟩⟩,
            fun hnot => absurd hposted hnot⟩
          simpa using hpost'
        · have heq := readBack_eq e (toComment parseBody) payload (commentId created)
          obtain ⟨hget, hread⟩ := completes_readBack hopen (heq ▸ hrest)
          refine ⟨fun k hk => ⟨_, hget k hk⟩, ?_, fun hnot => absurd hposted hnot⟩
          rcases hread with ⟨hr, k, hk, hbreak⟩ | ⟨hgets, hend⟩
          · exact .inl ⟨hr, k, List.mem_cons_of_mem _ hk, hbreak⟩
          · exact .inr ⟨List.forall_mem_cons.2 ⟨hpost', hgets⟩, hend⟩
  · obtain rfl := Except.ok.inj hr
    obtain ⟨post, rfl, hop, hpost⟩ := completes_fetch herr
    obtain ⟨rfl, rfl⟩ := Machine.completes_halt.1 hrest
    refine ⟨post, [], rfl, by simp [Op.posts, hop], by simp,
      .inr ⟨fun k hk => ?_, .inr ⟨_, rfl, (hopen _ _).1⟩⟩, fun _ => ⟨_, rfl, (hopen _ _).1⟩⟩
    rw [List.append_nil, List.mem_singleton] at hk
    simp [hk, Breaks, hop, hpost]

end Append

/-- The program posts nothing, or posts and reads back at its end. -/
def PostsLast (P : Runtime) (s : Program AppendResult) : Prop :=
  ∀ ks r, (machine P).Completes s ks r →
    (∀ k ∈ ks, k.op.posts = false) ∨
      ∃ pre post gets, ks = pre ++ post :: gets ∧ (∀ k ∈ pre, k.op.posts = false) ∧
        post.op.posts = true ∧ (∀ k ∈ gets, k.op.posts = false) ∧ ReadsBack P (post :: gets) r ∧
          (¬ Posted post → ∃ t, r = .error t ∧ OpenError t)

theorem PostsLast.of_issues {s : Program AppendResult} (h : s.Issues fun op => op.posts = false) :
    PostsLast P s :=
  fun _ _ hc => .inl (hc.issues h)

theorem PostsLast.bind {α : Type} {s : Program α} {f : α → Program AppendResult}
    (hs : s.Issues fun op => op.posts = false) (hf : ∀ a, PostsLast P (f a)) :
    PostsLast P (s >>= f) := by
  intro ks r h
  rcases Machine.completes_bind.1 h with ⟨t, h₁, -⟩ | ⟨a, ks₁, ks₂, rfl, h₁, h₂⟩
  · exact .inl (h₁.issues hs)
  · have hpre := h₁.issues hs
    rcases hf a ks₂ r h₂ with hnone | ⟨pre, post, gets, rfl, hnone, hend⟩
    · exact .inl (List.forall_mem_append.2 ⟨hpre, hnone⟩)
    · exact .inr ⟨ks₁ ++ pre, post, gets, (List.append_assoc ..).symm,
        List.forall_mem_append.2 ⟨hpre, hnone⟩, hend⟩

theorem PostsLast.ite {c : Prop} [Decidable c] {s t : Program AppendResult} (hs : PostsLast P s)
    (ht : PostsLast P t) : PostsLast P (if c then s else t) := by
  split_ifs
  · exact hs
  · exact ht

theorem postsLast_createAndReadBack {e : LedgerErrors} {parseBody : Option String → Option Json}
    {payload : Json} (hopen : ∀ message status, OpenError (e.unavailable message status) ∧
      OpenError (e.readbackFailed message status)) :
    PostsLast P (createAndReadBack e (toComment parseBody) payload) := by
  intro ks r h
  obtain ⟨post, gets, rfl, hpost, hgets, hread⟩ := completes_createAndReadBack hopen h
  refine .inr ⟨[], post, gets, rfl, by simp, hpost, fun k hk => ?_, hread⟩
  obtain ⟨id, hop⟩ := hgets k hk
  simp [Op.posts, hop]

theorem postsLast_appendMarketCheckpoint (token : String) (checkpoint : Json) :
    PostsLast P (appendMarketCheckpoint P token checkpoint) := by
  unfold appendMarketCheckpoint
  split
  · exact .of_issues trivial
  · refine .bind trivial fun _ => ?_
    refine .bind (issues_getMarketCheckpoints (fun _ => rfl) _ _ _) fun state => ?_
    dsimp only
    split
    · exact .of_issues trivial
    · refine .bind trivial fun checkpoint => .bind trivial fun _ => ?_
      split
      · split
        · exact .of_issues trivial
        · exact .of_issues trivial
      · split
        · exact .of_issues trivial
        · exact .ite (.of_issues trivial) (postsLast_createAndReadBack fun _ _ => ⟨rfl, rfl⟩)

theorem postsLast_appendInvestmentLedgerBatch (token : String) (role : InvestmentLedgerRole)
    (batch : Json) : PostsLast P (appendInvestmentLedgerBatch P token role batch) := by
  unfold appendInvestmentLedgerBatch
  split
  · exact .of_issues trivial
  · refine .bind trivial fun _ => ?_
    dsimp only
    split
    · exact .of_issues trivial
    · refine .bind (issues_fetchAllComments (fun _ => rfl) _ _) fun raw => ?_
      refine .bind trivial fun comments => ?_
      split
      · exact postsLast_createAndReadBack fun _ _ => ⟨rfl, rfl⟩
      · split
        · exact .of_issues trivial
        · exact .of_issues trivial
      · exact .of_issues trivial

/-- An append posts at most once, and nothing follows but the reading back. -/
theorem postsLast_appendLedger (token : String) (channel : StateWriteChannel) (batch : Json) :
    PostsLast P (appendLedger P token channel batch) := by
  unfold appendLedger
  split
  · exact postsLast_appendMarketCheckpoint _ _
  · exact postsLast_appendInvestmentLedgerBatch _ _ _

/-! ## Finalising -/

/-- The calls do not post, and one of them is to finalise with the status; either one of them breaks,
or none does and the finalising takes effect. -/
structure FinalizesOnly (P : Runtime) (status : StateReceiptStatus)
    (ks : List (Call Op World Choice)) (broken : Prop) : Prop where
  posts : ∀ k ∈ ks, k.op.posts = false
  call : ∃ k ∈ ks, (∃ f, k.op = .finalizeReceipt f ∧ f.status = status) ∧
    ∀ k' ∈ ks, ∀ f, k'.op = .finalizeReceipt f → k' = k
  breaks : broken → ∃ k ∈ ks, Breaks P k
  kept : ¬ broken → (∀ k ∈ ks, ¬ Breaks P k) ∧ ∃ k ∈ ks, Finalizes status k

/-- No other status is given. -/
theorem FinalizesOnly.only {status : StateReceiptStatus} {broken : Prop}
    (h : FinalizesOnly P status ks broken) :
    ∀ k ∈ ks, ∀ st, Finalizes st k → st = status := by
  intro k hk st hst
  obtain ⟨f, hop, rfl, -⟩ := finalizes_iff.1 hst
  obtain ⟨k', hk', ⟨f', hop', rfl⟩, honly⟩ := h.call
  obtain rfl := honly k hk f hop
  obtain ⟨rfl⟩ := hop.symm.trans hop'
  rfl

theorem completes_select_storedReceipt {writeKey : String} {r : Except Thrown StateWriteReceipt}
    (h : (machine P).Completes (selectReceipt writeKey >>= storedReceipt) ks r) :
    ∃ k, ks = [k] ∧ k.op = .selectReceipt writeKey ∧
      (r = .error .raw ∧ Breaks P k ∨ (∃ a, r = .ok a) ∧ ¬ Breaks P k) := by
  rcases Machine.completes_bind.1 h with ⟨t, h₁, rfl⟩ | ⟨found, ks₁, ks₂, rfl, h₁, h₂⟩
  · obtain ⟨t', ch, w, ks', rfl, hend⟩ := Machine.completes_call.1 h₁
    obtain ⟨rfl, hanswer⟩ := Machine.completes_halt.1 hend
    obtain ⟨rfl, hf⟩ := statement_error hanswer.symm
    exact ⟨_, rfl, rfl, .inl ⟨rfl, .inl hf⟩⟩
  · clear h
    obtain ⟨t', ch, w, ks', rfl, hend⟩ := Machine.completes_call.1 h₁
    obtain ⟨rfl, hanswer⟩ := Machine.completes_halt.1 hend
    obtain ⟨hf, hfound⟩ := statement_ok hanswer.symm
    obtain rfl := Except.ok.inj hfound
    cases hreceipt : receiptFor w writeKey with
    | none =>
      rw [hreceipt] at h₂
      obtain ⟨rfl, rfl⟩ := Machine.completes_halt.1 h₂
      exact ⟨_, rfl, rfl, .inl ⟨rfl, .inr hreceipt⟩⟩
    | some receipt =>
      rw [hreceipt] at h₂
      obtain ⟨rfl, rfl⟩ := Machine.completes_halt.1 h₂
      refine ⟨_, rfl, rfl, .inr ⟨⟨_, rfl⟩, ?_⟩⟩
      rintro (hf' | hnone)
      · exact hf' hf
      · cases hreceipt.symm.trans hnone

theorem completes_finalizeStateWriteReceipt {f : FinalizeRequest}
    {r : Except Thrown StateWriteReceipt}
    (h : (machine P).Completes (finalizeStateWriteReceipt f) ks r) :
    (r = .error .raw ∨ ∃ a, r = .ok a) ∧ FinalizesOnly P f.status ks (r = .error .raw) := by
  rcases Machine.completes_bind.1 h with ⟨t, h₁, rfl⟩ | ⟨a, ks₁, ks₂, rfl, h₁, h₂⟩
  · obtain ⟨t', ch, w, ks', rfl, hend⟩ := Machine.completes_call.1 h₁
    obtain ⟨rfl, hanswer⟩ := Machine.completes_halt.1 hend
    obtain ⟨rfl, hf⟩ := statement_error hanswer.symm
    refine ⟨.inl rfl, ⟨?_, ⟨_, List.mem_cons_self, ⟨f, rfl, rfl⟩, ?_⟩,
      fun _ => ⟨_, List.mem_cons_self, hf⟩, fun hne => absurd rfl hne⟩⟩
    · exact List.forall_mem_singleton.2 rfl
    · exact fun k hk _ _ => List.mem_singleton.1 hk
  · clear h
    obtain ⟨t', ch, w, ks', rfl, hend⟩ := Machine.completes_call.1 h₁
    obtain ⟨rfl, hanswer⟩ := Machine.completes_halt.1 hend
    obtain ⟨hf, -⟩ := statement_ok hanswer.symm
    have hfirst : Finalizes f.status (⟨t', .finalizeReceipt f, ch, w⟩ : Call Op World Choice) :=
      ⟨rfl, by simp [hf]⟩
    have hunbroken : ¬ Breaks P (⟨t', .finalizeReceipt f, ch, w⟩ : Call Op World Choice) :=
      fun hbreak => hbreak hf
    obtain ⟨k, rfl, hop, hend⟩ := completes_select_storedReceipt h₂
    refine ⟨hend.imp And.left And.left, ⟨?_, ⟨_, List.mem_cons_self, ⟨f, rfl, rfl⟩, ?_⟩,
      fun hr => ?_, fun hr => ?_⟩⟩
    · exact List.forall_mem_cons.2 ⟨rfl, List.forall_mem_singleton.2 (by simp [Op.posts, hop])⟩
    · refine List.forall_mem_cons.2 ⟨fun _ _ => rfl, List.forall_mem_singleton.2 fun f' hop' => ?_⟩
      cases hop.symm.trans hop'
    · rcases hend with ⟨-, hbreak⟩ | ⟨⟨a, hok⟩, -⟩
      · exact ⟨k, by simp, hbreak⟩
      · cases hok.symm.trans hr
    · rcases hend with ⟨hraw, -⟩ | ⟨-, hbreak⟩
      · exact absurd hraw hr
      · exact ⟨List.forall_mem_cons.2 ⟨hunbroken, List.forall_mem_singleton.2 hbreak⟩, _,
          List.mem_cons_self, hfirst⟩

/-- Reading the clock and finalising, before the program ends. -/
theorem completes_finalizing {α : Type} {request : String → FinalizeRequest}
    (status : StateReceiptStatus) (hstatus : ∀ now, (request now).status = status)
    {last : StateWriteReceipt → Except Thrown α} {r : Except Thrown α}
    (h : (machine P).Completes (do
      let updatedAt ← clock
      let receipt ← finalizeStateWriteReceipt (request updatedAt)
      Script.halt (last receipt)) ks r) :
    ∃ broken, FinalizesOnly P status ks broken ∧
      (broken ∧ r = .error .raw ∨ ¬ broken ∧ ∃ receipt, r = last receipt) := by
  rcases Machine.completes_bind.1 h with ⟨e, h₁, -⟩ | ⟨now, ks₁, ks₂, rfl, h₁, h₂⟩
  · obtain ⟨k, -, -, he⟩ := completes_clock h₁
    cases he
  clear h
  obtain ⟨k, rfl, hop, -⟩ := completes_clock h₁
  have hclock : k.op.posts = false ∧ ¬ Breaks P k := by simp [Op.posts, Breaks, hop]
  have hcons : ∀ {ks : List (Call Op World Choice)} {broken : Prop},
      FinalizesOnly P status ks broken → FinalizesOnly P status (k :: ks) broken := by
    intro ks broken hf
    refine ⟨List.forall_mem_cons.2 ⟨hclock.1, hf.posts⟩, ?_, fun hb => ?_, fun hb => ?_⟩
    · obtain ⟨k', hk', hcall, honly⟩ := hf.call
      refine ⟨k', List.mem_cons_of_mem _ hk', hcall, List.forall_mem_cons.2 ⟨fun f hf => ?_, honly⟩⟩
      cases hop.symm.trans hf
    · obtain ⟨k', hk', hbreak⟩ := hf.breaks hb
      exact ⟨k', List.mem_cons_of_mem _ hk', hbreak⟩
    · obtain ⟨hnone, k', hk', hfinal⟩ := hf.kept hb
      exact ⟨List.forall_mem_cons.2 ⟨hclock.2, hnone⟩, k', List.mem_cons_of_mem _ hk', hfinal⟩
  rcases Machine.completes_bind.1 h₂ with ⟨e, h₃, rfl⟩ | ⟨receipt, ks₃, ks₄, rfl, h₃, h₄⟩
  · obtain ⟨hend, hf⟩ := completes_finalizeStateWriteReceipt h₃
    rw [hstatus] at hf
    obtain ⟨rfl⟩ : e = .raw := by
      rcases hend with hraw | ⟨a, ha⟩
      · exact Except.error.inj hraw
      · cases ha
    exact ⟨_, hcons hf, .inl ⟨rfl, rfl⟩⟩
  · obtain ⟨-, hf⟩ := completes_finalizeStateWriteReceipt h₃
    rw [hstatus] at hf
    obtain ⟨rfl, rfl⟩ := Machine.completes_halt.1 h₄
    rw [List.append_nil]
    exact ⟨_, hcons hf, .inr ⟨by simp, receipt, rfl⟩⟩

/-! ## Attempts -/

/-- The calls of a write from its POST up to its end or its error. -/
structure SentCalls {α : Type} (P : Runtime) (post : Call Op World Choice)
    (rest : List (Call Op World Choice)) (r : Except Thrown α) : Prop where
  posts : post.op.posts = true
  reads : ∀ k ∈ rest, k.op.posts = false
  only : ∀ k ∈ post :: rest, ∀ st, Finalizes st k → st = .PERSISTED
  refused : ¬ Posted post →
    (∃ t, r = .error t ∧ OpenError t) ∧ ∀ k ∈ post :: rest, ∀ f, k.op ≠ .finalizeReceipt f
  outcome : (r = .error .raw ∧ ∃ k ∈ post :: rest, Breaks P k) ∨
    (∀ k ∈ post :: rest, ¬ Breaks P k) ∧
      ((∃ a, r = .ok a) ∧ (∃ k ∈ post :: rest, Finalizes .PERSISTED k) ∨
        ∃ t, r = .error t ∧ OpenError t)

/-- The append of a write and its finalising. -/
def appendAndFinalize (P : Runtime) (input : StateAppendInput) (validated : ValidatedStateBatch)
    (requestId writeKey payloadSha256 : String) : Program StateAppendResult := do
  let result ← appendLedger P input.token input.channel validated.normalized_batch
  let updatedAt ← clock
  let receipt ← finalizeStateWriteReceipt
    { writeKey := writeKey, requestId := requestId, status := result.status.receiptStatus,
      updatedAt := updatedAt, commentId := some result.comment_id,
      commentUrl := some result.url, lastErrorCode := none, lastErrorPhase := none,
      lastHttpStatus := none, envelopeKey := input.envelopeKey,
      eventCount := input.eventCount }
  return ⟨result.status, input.channel, writeKey, payloadSha256, result.comment_id, result.url,
    receipt⟩

variable {input : StateAppendInput} {validated : ValidatedStateBatch}
  {requestId writeKey payloadSha256 : String} {r : Except Thrown StateAppendResult}

theorem completes_appendAndFinalize
    (h : (machine P).Completes
      (appendAndFinalize P input validated requestId writeKey payloadSha256) ks r) :
    (∀ k ∈ ks, k.op.posts = false) ∨
      ∃ pre post rest, ks = pre ++ post :: rest ∧ (∀ k ∈ pre, k.op.prepares) ∧
        SentCalls P post rest r := by
  have hfetch : (appendLedger P input.token input.channel validated.normalized_batch).Issues
      fun op => ∀ f, op ≠ .finalizeReceipt f :=
    issues_appendLedger (by simp) (by simp) (by simp) _ _ _
  rcases Machine.completes_bind.1 h with ⟨t, h₁, rfl⟩ | ⟨result, ks₁, ks₂, rfl, h₁, h₂⟩
  · have hnone := h₁.issues hfetch
    rcases postsLast_appendLedger _ _ _ _ _ h₁ with
      hposts | ⟨pre, post, gets, rfl, hpre, hpost, hgets, hread, hopen⟩
    · exact .inl hposts
    · have hsent : ∀ k ∈ post :: gets, ∀ f, k.op ≠ .finalizeReceipt f :=
        fun k hk => hnone k (List.mem_append_right _ hk)
      refine .inr ⟨pre, post, gets, rfl,
        fun k hk => ⟨hpre k hk, hnone k (List.mem_append_left _ hk)⟩, hpost, hgets,
        fun k hk st hst => absurd hst (not_finalizes (hsent k hk)), fun hnot => ⟨?_, hsent⟩, ?_⟩
      · obtain ⟨t', ht, hopen'⟩ := hopen hnot
        obtain rfl := Except.error.inj ht
        exact ⟨_, rfl, hopen'⟩
      · rcases hread with ⟨hraw, hbreak⟩ | ⟨hbreak, ⟨a, ha, -⟩ | ⟨t', ht, hopen'⟩⟩
        · obtain rfl := Except.error.inj hraw
          exact .inl ⟨rfl, hbreak⟩
        · cases ha
        · obtain rfl := Except.error.inj ht
          exact .inr ⟨hbreak, .inr ⟨_, rfl, hopen'⟩⟩
  · clear h
    have hnone := h₁.issues hfetch
    obtain ⟨broken, hfinal, hr⟩ :=
      completes_finalizing result.status.receiptStatus (fun _ => rfl) h₂
    rcases postsLast_appendLedger _ _ _ _ _ h₁ with
      hposts | ⟨pre, post, gets, rfl, hpre, hpost, hgets, hread, hopen⟩
    · exact .inl (List.forall_mem_append.2 ⟨hposts, hfinal.posts⟩)
    · have hposted : Posted post := by
        by_contra hnot
        obtain ⟨t, ht, -⟩ := hopen hnot
        cases ht
      obtain ⟨hbreak, hstatus⟩ :
          (∀ k ∈ post :: gets, ¬ Breaks P k) ∧ result.status = .PERSISTED := by
        rcases hread with ⟨hraw, -⟩ | ⟨hbreak, ⟨a, ha, hstatus⟩ | ⟨t', ht, -⟩⟩
        · cases hraw
        · obtain rfl := Except.ok.inj ha
          exact ⟨hbreak, hstatus⟩
        · cases ht
      rw [hstatus] at hfinal
      refine .inr ⟨pre, post, gets ++ ks₂, by simp,
        fun k hk => ⟨hpre k hk, hnone k (List.mem_append_left _ hk)⟩, hpost,
        List.forall_mem_append.2 ⟨hgets, hfinal.posts⟩, ?_, fun hnot => absurd hposted hnot, ?_⟩
      · rw [← List.cons_append]
        exact List.forall_mem_append.2 ⟨fun k hk st hst => absurd hst
          (not_finalizes (hnone k (List.mem_append_right _ hk))), hfinal.only⟩
      · rw [← List.cons_append]
        rcases hr with ⟨hb, rfl⟩ | ⟨hb, receipt, rfl⟩
        · obtain ⟨k, hk, hbroken⟩ := hfinal.breaks hb
          exact .inl ⟨rfl, k, List.mem_append_right _ hk, hbroken⟩
        · obtain ⟨hkept, k, hk, hfin⟩ := hfinal.kept hb
          exact .inr ⟨List.forall_mem_append.2 ⟨hbreak, hkept⟩,
            .inl ⟨⟨_, rfl⟩, k, List.mem_append_right _ hk, hfin⟩⟩

theorem failedStatus_of_isOpen {code : StateGatewayErrorCode} (h : code.isOpen = true) :
    failedStatus code = .OUTCOME_UNKNOWN := by
  cases code with
  | STATE_OUTCOME_UNKNOWN | STATE_READBACK_FAILED => rfl
  | _ => cases h

theorem not_answersOpen_raw {α : Type} : ¬ AnswersOpen (.error .raw : Except Thrown α) := by
  simp [AnswersOpen, normalizeStateGatewayError, StateGatewayErrorCode.isOpen]

theorem not_answersOpen_unavailable {α : Type} :
    ¬ AnswersOpen (.error (.gateway (mapDomainError .raw)) : Except Thrown α) := by
  simp [AnswersOpen, normalizeStateGatewayError, mapDomainError, StateGatewayErrorCode.isOpen]

/-- An attempt whose write came to its end. -/
theorem classifies_sent_ok {post : Call Op World Choice} {rest : List (Call Op World Choice)}
    {a : StateAppendResult} (h : SentCalls P post rest (.ok a : Except Thrown StateAppendResult)) :
    ClassifiesOutcome (post :: rest) (.ok a : Except Thrown StateAppendResult) ↔
      Unbroken P (post :: rest) := by
  have hposted : Posted post := by
    by_contra hnot
    obtain ⟨⟨t, ht, -⟩, -⟩ := h.refused hnot
    cases ht
  rw [unbroken_cons hposted, classifiesOutcome_cons hposted]
  rcases h.outcome with ⟨hraw, -⟩ | ⟨hbreak, ⟨-, k, hk, hfin⟩ | ⟨t, ht, -⟩⟩
  · cases hraw
  · refine iff_of_true ⟨fun k' hk' => ⟨fun hst => ?_, fun hst => ?_⟩, trivial, k, hk, .inr hfin⟩
      hbreak
    · cases h.only k' hk' _ hst
    · cases h.only k' hk' _ hst
  · cases ht

/-- An attempt whose write raised an error that it then finalised. -/
theorem classifies_sent_error {post : Call Op World Choice}
    {rest fin : List (Call Op World Choice)} {t : Thrown} {broken : Prop}
    (h : SentCalls P post rest (.error t : Except Thrown StateAppendResult))
    (hfinal : FinalizesOnly P (failedStatus (mapDomainError t).code) fin broken)
    (hr : broken ∧ r = .error .raw ∨ ¬ broken ∧ r = .error (.gateway (mapDomainError t))) :
    ClassifiesOutcome (post :: rest ++ fin) r ↔ Unbroken P (post :: rest ++ fin) := by
  by_cases hposted : Posted post
  · rw [List.cons_append, unbroken_cons hposted, classifiesOutcome_cons hposted, ← List.cons_append]
    rcases h.outcome with ⟨hraw, k, hk, hbreak⟩ | ⟨hbreak, ⟨⟨a, ha⟩, -⟩ | ⟨t', ht, hopen⟩⟩
    · -- the error is taken for a failure of the write
      obtain rfl := Except.error.inj hraw
      refine iff_of_false ?_ fun hall => hall k (List.mem_append_left _ hk) hbreak
      rintro ⟨-, hanswer, -⟩
      rcases hr with ⟨-, rfl⟩ | ⟨-, rfl⟩
      · exact not_answersOpen_raw hanswer
      · exact not_answersOpen_unavailable hanswer
    · cases ha
    · obtain rfl := Except.error.inj ht
      rw [failedStatus_of_isOpen hopen] at hfinal
      rcases hr with ⟨hb, rfl⟩ | ⟨hb, rfl⟩
      · obtain ⟨k, hk, hbroken⟩ := hfinal.breaks hb
        refine iff_of_false ?_ fun hall => hall k (List.mem_append_right _ hk) hbroken
        rintro ⟨-, hanswer, -⟩
        exact not_answersOpen_raw hanswer
      · obtain ⟨hkept, k, hk, hfin⟩ := hfinal.kept hb
        refine iff_of_true ⟨?_, hopen, k, List.mem_append_right _ hk, .inl hfin⟩
          (List.forall_mem_append.2 ⟨hbreak, hkept⟩)
        refine List.forall_mem_append.2 ⟨fun k hk => ⟨fun hst => ?_, fun hst => ?_⟩,
          fun k hk => ⟨fun hst => ?_, fun hst => ?_⟩⟩
        · cases h.only k hk _ hst
        · cases h.only k hk _ hst
        · cases hfinal.only k hk _ hst
        · cases hfinal.only k hk _ hst
  · obtain ⟨⟨t', ht, hopen⟩, hnone⟩ := h.refused hposted
    obtain rfl := Except.error.inj ht
    rw [failedStatus_of_isOpen hopen] at hfinal
    obtain ⟨k, hk, ⟨f, hop, hstatus⟩, honly⟩ := hfinal.call
    refine classifies_refused ⟨post, List.mem_append_left _ List.mem_cons_self, h.posts⟩ ?_
      (List.mem_append_right _ hk) hop hstatus (List.forall_mem_append.2 ⟨fun k hk f hop => ?_, honly⟩)
    · exact List.forall_mem_append.2 ⟨List.forall_mem_cons.2
        ⟨hposted, fun k hk => not_posted (h.reads k hk)⟩, fun k hk => not_posted (hfinal.posts k hk)⟩
    · exact absurd hop (hnone k hk f)

/-- What an attempt that holds its lease leaves and answers is classified where nothing breaks. -/
theorem classifies_settle
    (h : (machine P).Completes (settle P input validated requestId writeKey payloadSha256) ks r) :
    ClassifiesOutcome ks r ↔ Unbroken P ks := by
  rcases Machine.completes_tryCatch.1 h with ⟨a, hbody, rfl⟩ | ⟨t, ks₁, ks₂, rfl, hbody, hfail⟩
  · rcases completes_appendAndFinalize hbody with hnone | ⟨pre, post, rest, rfl, hpre, hsent⟩
    · exact classifies_of_no_posts hnone
    · rw [classifiesOutcome_append hpre, unbroken_append hpre]
      exact classifies_sent_ok hsent
  · clear h
    obtain ⟨broken, hfinal, hr⟩ :=
      completes_finalizing (failedStatus (mapDomainError t).code) (fun _ => rfl) hfail
    rcases completes_appendAndFinalize hbody with hnone | ⟨pre, post, rest, rfl, hpre, hsent⟩
    · exact classifies_of_no_posts (List.forall_mem_append.2 ⟨hnone, hfinal.posts⟩)
    · rw [List.append_assoc, classifiesOutcome_append hpre, unbroken_append hpre]
      refine classifies_sent_error hsent hfinal (hr.imp_right fun ⟨hb, receipt, hend⟩ => ⟨hb, hend⟩)

/-- The program classifies its outcome exactly where its calls are unbroken. -/
def Classifies (P : Runtime) (s : Program StateAppendResult) : Prop :=
  ∀ ks r, (machine P).Completes s ks r → (ClassifiesOutcome ks r ↔ Unbroken P ks)

theorem Classifies.of_issues {s : Program StateAppendResult} (h : s.Issues fun op => op.posts = false) :
    Classifies P s :=
  fun _ _ hc => classifies_of_no_posts (hc.issues h)

theorem Classifies.bind {α : Type} {s : Program α} {f : α → Program StateAppendResult}
    (hs : s.Issues Op.prepares) (hf : ∀ a, Classifies P (f a)) : Classifies P (s >>= f) := by
  intro ks r h
  rcases Machine.completes_bind.1 h with ⟨t, h₁, rfl⟩ | ⟨a, ks₁, ks₂, rfl, h₁, h₂⟩
  · exact classifies_of_no_posts fun k hk => (h₁.issues hs k hk).1
  · have hpre := h₁.issues hs
    rw [classifiesOutcome_append hpre, unbroken_append hpre]
    exact hf a ks₂ r h₂

theorem classifies_continueReserved (reservation : Reservation) : Classifies P
    (continueReserved P input validated requestId writeKey payloadSha256 reservation) := by
  unfold continueReserved
  split
  · exact .of_issues trivial
  · split
    · split
      · exact .of_issues trivial
      · exact .of_issues trivial
    · exact fun _ _ h => classifies_settle h

/-- The steps before an attempt holds its lease neither post nor finalise. -/
theorem classifies_appendStateBatch (input : StateAppendInput) :
    Classifies P (appendStateBatch P input) := by
  refine .bind (issues_givenOr (Script.issues_perform.2 ⟨rfl, by simp⟩)) fun requestId => ?_
  refine .bind (issues_givenOr (Script.issues_perform.2 ⟨rfl, by simp⟩)) fun now => ?_
  refine .bind (Script.Issues.tryCatch (issues_validateAppend (fun _ => ⟨rfl, by simp⟩) _)
    fun _ => trivial) fun validated => ?_
  exact .bind (issues_reserveStateWrite _ _ _ _ _ ⟨rfl, by simp⟩ ⟨rfl, by simp⟩
    fun _ => ⟨rfl, by simp⟩) fun reservation => classifies_continueReserved reservation

/-- The 09:50 checkpoint under a write key of the caller's. -/
def keyedInput : StateAppendInput :=
  { slotInput .null "2026-09-30T01:50:00.000Z" "r1" with
    writeKey := some "write-1"
    payloadSha256 := some "payload-1" }

/-- GitHub answers 201 with a body that is not JSON. -/
def unreadableChoice : Choice :=
  { calmChoice with http := .respond ⟨201, none, none⟩ }

/-- The reservation and the listings, the POST, and the finalising. -/
def unreadableRun : List (ℕ × Choice) :=
  List.replicate 6 (0, calmChoice) ++ [(0, unreadableChoice)] ++ List.replicate 3 (0, calmChoice)

/-- The attempt has ended, and its caller is not told that the outcome is open. -/
theorem exists_unreadable_answer :
    ∃ r, ((machine slotRuntime).exec
        (Config.start World.empty fun _ => appendStateBatch slotRuntime keyedInput)
        unreadableRun).result? 0 = some r ∧ ¬ AnswersOpen r := by
  have hrun : (((machine slotRuntime).exec
      (Config.start World.empty fun _ => appendStateBatch slotRuntime keyedInput)
      unreadableRun).result? 0).any (fun r =>
        match r with
        | .ok _ => false
        | .error t => !(normalizeStateGatewayError t .WRITE true).code.isOpen) = true := by
    decide +kernel
  obtain ⟨r, hr, hcode⟩ := (Option.any_eq_true _ _).1 hrun
  refine ⟨r, hr, ?_⟩
  cases r with
  | ok a => cases hcode
  | error t =>
    intro hopen
    have hclosed : (normalizeStateGatewayError t .WRITE true).code.isOpen = false := by
      simpa using hcode
    exact Bool.noConfusion (hclosed.symm.trans hopen)

end QuantproCollector.StateGateway
