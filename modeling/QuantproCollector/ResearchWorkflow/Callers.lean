import QuantproCollector.Lib.Separated
import QuantproCollector.ResearchScopes.Forwarding
import QuantproCollector.ResearchWorkflow.Terminality

/-!
# Who works on a job

The three tools that write to the queue, from the HTTP request to the queue's own request: the scopes, the
principal and the issuer that the request resolves to, the formal gate, and the owner that the queue knows
the caller by. The owner is a digest of the issuer and the principal.

* `owner_inj`: callers of one owner have one issuer and one principal, or their texts collide.
* `decided_by_claimer`: in every run, in every order of the callers' steps and with every fault, each lease
  was taken by a formal call that claims its job, and each job is completed or deferred under a lease that
  was claimed under the same issuer and principal as the call that completes or defers it, or under one with
  which its text collides.
-/

namespace QuantproCollector.ResearchWorkflow

open Relational Async
open ResearchScopes (Identity OAuthEnv ParseUrl researchIdentity isPrincipal isCredential parseScopeList
  RESEARCH_CLAIM_SCOPE RESEARCH_SUBMIT_SCOPE)

/-! ## The formal gate -/

/-- Roles of engineering and transport. -/
def NON_FORMAL_PRINCIPALS : List String :=
  ["codex", "engineering", "producer", "receipt-reader", "receipt_reader"]

/-- The issuer and the principal, where both are there and not empty. -/
def named (identity : Identity) : Option (String × String) :=
  match identity.issuer.filter (· != ""), identity.principal.filter (· != "") with
  | some issuer, some principal => some (issuer, principal)
  | _, _ => none

def permitsFormalResearchOperation (identity : Identity) (requiredScope : String) : Bool :=
  match named identity with
  | none => false
  | some (_, principal) =>
    decide (requiredScope ∈ identity.scopes) && !NON_FORMAL_PRINCIPALS.contains (toLowerCase principal)

/-- What the digest of an owner is of. -/
def ownerText (caller : String × String) : String :=
  String.ofList (caller.1.toList ++ Char.ofNat 0 :: caller.2.toList)

def formalResearchOwner (P : Platform) (identity : Identity) : Option String :=
  (named identity).map fun caller => FORMAL_OWNER_PREFIX ++ P.sha256Hex (ownerText caller)

/-! ## The tools -/

/-- A call of a tool that writes to the queue. -/
inductive Tool where
  | claim_research_job (jobId : String)
  | submit_research_result_proposal (jobId : String) (expectedGeneration : ℚ) (idempotencyKey : String)
      (origin : Option String) (proposal : Json)
  | defer_research_job (jobId : String) (expectedGeneration : ℚ) (idempotencyKey : String)
      (reason : Option DeferReason) (recheckAt : String)

def Tool.requiredScope : Tool → String
  | .claim_research_job .. => RESEARCH_CLAIM_SCOPE
  | _ => RESEARCH_SUBMIT_SCOPE

/-- The request to the queue that the tool makes for an owner. -/
def Tool.request (owner requestId now : String) : Tool → Request
  | .claim_research_job jobId => .claim ⟨jobId, owner, requestId, now⟩
  | .submit_research_result_proposal jobId expectedGeneration idempotencyKey origin proposal =>
    .submit ⟨jobId, expectedGeneration, idempotencyKey, origin, proposal, owner, requestId, now⟩
  | .defer_research_job jobId expectedGeneration idempotencyKey reason recheckAt =>
    .defer ⟨jobId, expectedGeneration, idempotencyKey, reason, recheckAt, owner, requestId, now⟩

/-- The server that the calls come to. -/
structure Server where
  platform : Platform
  parse : ParseUrl
  env : OAuthEnv

/-- A call of a tool, in an HTTP request. -/
structure ToolCall where
  request : ResearchScopes.Request
  tool : Tool
  requestId : String
  now : String

variable (S : Server)

def Server.identity (call : ToolCall) : Identity :=
  researchIdentity S.parse S.env call.request

/-- What the tool asks of the queue, or `none` where the scope or the formal gate denies it. -/
def queueRequest (call : ToolCall) : Option Request :=
  if call.tool.requiredScope ∉ (S.identity call).scopes then none
  else if !permitsFormalResearchOperation (S.identity call) call.tool.requiredScope then none
  else (formalResearchOwner S.platform (S.identity call)).map fun owner =>
    call.tool.request owner call.requestId call.now

/-- A call that the gate lets through to the queue. -/
structure FormalCall where
  call : ToolCall
  request : Request
  made : queueRequest S call = some request

/-- What the gate has checked of a caller. -/
structure Checked (call : ToolCall) (issuer principal : String) : Prop where
  credential : isCredential (call.request.headers.get "Authorization")
    S.env.COLLECTOR_MCP_CLIENT_TOKEN = true
  issuerResolved : (S.identity call).issuer = some issuer
  principalResolved : (S.identity call).principal = some principal
  wellFormed : isPrincipal principal = true
  formal : toLowerCase principal ∉ NON_FORMAL_PRINCIPALS
  scope : call.tool.requiredScope ∈ parseScopeList S.env.COLLECTOR_MCP_CLIENT_SCOPES

variable {S}

theorem named_eq_some {identity : Identity} {caller : String × String} (h : named identity = some caller) :
    identity.issuer = some caller.1 ∧ identity.principal = some caller.2 := by
  unfold named at h
  cases hissuer : identity.issuer.filter (· != "") with
  | none => simp [hissuer] at h
  | some issuer =>
    cases hprincipal : identity.principal.filter (· != "") with
    | none => simp [hissuer, hprincipal] at h
    | some principal =>
      rw [hissuer, hprincipal] at h
      obtain rfl := Option.some.inj h
      exact ⟨(Option.filter_eq_some_iff.1 hissuer).1, (Option.filter_eq_some_iff.1 hprincipal).1⟩

/-- A principal comes with the credential, in its form. -/
theorem isPrincipal_of_resolved {authorization forwarded configured forwardable static : Option String}
    {principal : String}
    (h : ResearchScopes.resolveResearchPrincipal authorization forwarded configured forwardable static =
      some principal) :
    isCredential authorization configured = true ∧ isPrincipal principal = true := by
  unfold ResearchScopes.resolveResearchPrincipal at h
  cases hcredential : isCredential authorization configured with
  | false => simp [hcredential] at h
  | true =>
    refine ⟨rfl, ?_⟩
    rw [hcredential, Bool.not_true, if_neg Bool.false_ne_true] at h
    cases forwarded with
    | none =>
      have hstatic := (Option.filter_eq_some_iff.1 h).2
      rw [Bool.and_eq_true] at hstatic
      exact hstatic.2
    | some forwarded =>
      dsimp only at h
      cases hform : isPrincipal forwarded with
      | false => simp [hform] at h
      | true =>
        rw [hform, Bool.not_true, if_neg Bool.false_ne_true] at h
        split_ifs at h <;> exact Option.some.inj h ▸ hform

/-- A call that is let through is one that was checked, and its request has the caller's owner. -/
theorem checked_of_made {call : ToolCall} {request : Request} (h : queueRequest S call = some request) :
    ∃ issuer principal, Checked S call issuer principal ∧
      request = call.tool.request (FORMAL_OWNER_PREFIX ++ S.platform.sha256Hex
        (ownerText (issuer, principal))) call.requestId call.now := by
  unfold queueRequest at h
  split_ifs at h with hscope hgate
  obtain ⟨owner, howner, rfl⟩ := Option.map_eq_some_iff.1 h
  obtain ⟨⟨issuer, principal⟩, hnamed, rfl⟩ := Option.map_eq_some_iff.1 howner
  obtain ⟨hissuer, hprincipal⟩ := named_eq_some hnamed
  obtain ⟨hcredential, hform⟩ := isPrincipal_of_resolved hprincipal
  rw [Bool.not_eq_true, Bool.not_eq_false', permitsFormalResearchOperation, hnamed] at hgate
  dsimp only at hgate
  rw [Bool.and_eq_true, Bool.not_eq_true'] at hgate
  refine ⟨issuer, principal, ⟨hcredential, hissuer, hprincipal, hform, ?_, ?_⟩, rfl⟩
  · intro hmem
    rw [List.contains_iff_mem.2 hmem] at hgate
    cases hgate.2
  · exact ResearchScopes.resolveResearchScopes_subset _ _ _ _ hscope

/-! ## Owners -/

/-- Two different texts with one digest. -/
def Collide (P : Platform) (a b : String) : Prop :=
  a ≠ b ∧ P.sha256Hex a = P.sha256Hex b

theorem zero_notMem_principal {principal : String} (h : isPrincipal principal = true) :
    Char.ofNat 0 ∉ principal.toList := by
  intro hmem
  simp only [isPrincipal, Bool.and_eq_true] at h
  have hzero : ResearchScopes.isPrincipalChar (Char.ofNat 0) = false := by decide
  rw [List.all_eq_true.1 h.1.1 _ hmem] at hzero
  cases hzero

/-- The text of a caller is read back: the principal has no sign of its end. -/
theorem ownerText_inj {a b : String × String} (ha : isPrincipal a.2 = true) (hb : isPrincipal b.2 = true)
    (h : ownerText a = ownerText b) : a = b := by
  have hchars := congrArg String.toList h
  rw [ownerText, ownerText, String.toList_ofList, String.toList_ofList] at hchars
  obtain ⟨hissuer, hprincipal⟩ := Separated.concat_inj (zero_notMem_principal ha)
    (zero_notMem_principal hb) hchars
  exact Prod.ext (String.toList_inj.1 hissuer) (String.toList_inj.1 hprincipal)

/-- One owner is one caller. -/
theorem owner_inj {P : Platform} {a b : String × String} (ha : isPrincipal a.2 = true)
    (hb : isPrincipal b.2 = true)
    (h : FORMAL_OWNER_PREFIX ++ P.sha256Hex (ownerText a) =
      FORMAL_OWNER_PREFIX ++ P.sha256Hex (ownerText b)) :
    a = b ∨ Collide P (ownerText a) (ownerText b) := by
  have hdigest : P.sha256Hex (ownerText a) = P.sha256Hex (ownerText b) := by
    have hchars := congrArg String.toList h
    rw [String.toList_append, String.toList_append] at hchars
    exact String.toList_inj.1 (List.append_cancel_left hchars)
  by_cases htext : ownerText a = ownerText b
  · exact .inl (ownerText_inj ha hb htext)
  · exact .inr ⟨htext, hdigest⟩

/-! ## Runs -/

/-- The lease is the owner's, and was taken by a logged call of a formal caller who claims the job. -/
def ClaimedBy (calls : ℕ → FormalCall S) (log : List (Call Op Db Choice)) (l : LeaseRow)
    (issuer principal : String) : Prop :=
  ∃ k ∈ log, l ∈ (machine.after k).leases ∧ ¬ l ∈ k.before.leases ∧
    (calls k.thread).call.tool = .claim_research_job l.jobId ∧
    Checked S (calls k.thread).call issuer principal ∧
    l.leaseOwner = FORMAL_OWNER_PREFIX ++ S.platform.sha256Hex (ownerText (issuer, principal))

/-- The call completes the job, or defers it. -/
def Decides (k : Call Op Db Choice) (jobId : String) : Prop :=
  (∃ p ∈ (machine.after k).proposals, ¬ p ∈ k.before.proposals ∧ p.Formal ∧ p.jobId = jobId) ∨
    ∃ d ∈ (machine.after k).deferrals, ¬ d ∈ k.before.deferrals ∧ d.jobId = jobId

/-- A job that the call decides has a lease, claimed before under the caller's issuer and principal, or
under ones with which theirs collide. -/
def DecidesOwn (calls : ℕ → FormalCall S) (past : List (Call Op Db Choice)) (k : Call Op Db Choice) :
    Prop :=
  ∀ jobId, Decides k jobId → ∃ l issuer principal issuer' principal',
    k.before.lease? jobId = some l ∧ ClaimedBy calls past l issuer principal ∧
      Checked S (calls k.thread).call issuer' principal' ∧
      ((issuer = issuer' ∧ principal = principal') ∨
        Collide S.platform (ownerText (issuer, principal)) (ownerText (issuer', principal')))

theorem ClaimedBy.mono {calls : ℕ → FormalCall S} {log : List (Call Op Db Choice)} {l : LeaseRow}
    {issuer principal : String} (h : ClaimedBy calls log l issuer principal) (k : Call Op Db Choice) :
    ClaimedBy calls (k :: log) l issuer principal := by
  obtain ⟨k', hk', hrest⟩ := h
  exact ⟨k', List.mem_cons_of_mem k hk', hrest⟩

/-- The request of a formal call has its tool. -/
theorem tool_of_claim {c : FormalCall S} {input : ClaimInput} (h : c.request = .claim input) :
    ∃ issuer principal, Checked S c.call issuer principal ∧
      c.call.tool = .claim_research_job input.jobId ∧
      input.leaseOwner = FORMAL_OWNER_PREFIX ++ S.platform.sha256Hex (ownerText (issuer, principal)) := by
  obtain ⟨issuer, principal, hchecked, hrequest⟩ := checked_of_made c.made
  refine ⟨issuer, principal, hchecked, ?_⟩
  rw [h] at hrequest
  cases htool : c.call.tool with
  | claim_research_job jobId =>
    rw [htool] at hrequest
    obtain rfl := Request.claim.inj hrequest
    exact ⟨rfl, rfl⟩
  | submit_research_result_proposal => rw [htool] at hrequest; cases hrequest
  | defer_research_job => rw [htool] at hrequest; cases hrequest

theorem owner_of_presented {c : FormalCall S} {q : Presented} (h : c.request.presented = some q) :
    ∃ issuer principal, Checked S c.call issuer principal ∧
      q.owner = FORMAL_OWNER_PREFIX ++ S.platform.sha256Hex (ownerText (issuer, principal)) := by
  obtain ⟨issuer, principal, hchecked, hrequest⟩ := checked_of_made c.made
  refine ⟨issuer, principal, hchecked, ?_⟩
  rw [hrequest] at h
  cases htool : c.call.tool with
  | claim_research_job => rw [htool] at h; cases h
  | submit_research_result_proposal =>
    rw [htool] at h
    rw [← Option.some.inj h]
  | defer_research_job =>
    rw [htool] at h
    rw [← Option.some.inj h]

/-- A call keeps every lease it leaves claimed. -/
theorem claimed_call {calls : ℕ → FormalCall S} {log : List (Call Op Db Choice)} {k : Call Op Db Choice}
    (hclaimed : ∀ l ∈ k.before.leases, ∃ issuer principal, ClaimedBy calls log l issuer principal)
    (h : Effect S.platform k (calls k.thread).request (machine.after k)) :
    ∀ l ∈ (machine.after k).leases, ∃ issuer principal, ClaimedBy calls (k :: log) l issuer principal := by
  have hold : ∀ l ∈ k.before.leases, ∃ issuer principal,
      ClaimedBy calls (k :: log) l issuer principal := by
    intro l hl
    obtain ⟨issuer, principal, h⟩ := hclaimed l hl
    exact ⟨issuer, principal, h.mono k⟩
  intro l hl
  by_cases hbefore : l ∈ k.before.leases
  · exact hold l hbefore
  · have hafter := hl
    generalize hdb : machine.after k = db' at h hl
    generalize hreq : (calls k.thread).request = req at h
    cases h with
    | @taken input now expiresAt token eventId expiredId count ls es hop hnow ht =>
      rcases (ht.mem l).1 hl with rfl | ⟨hl, -⟩
      · obtain ⟨issuer, principal, hchecked, htool, howner⟩ := tool_of_claim hreq
        exact ⟨issuer, principal, k, List.mem_cons_self, hafter, hbefore, htool, hchecked, howner⟩
      · exact absurd hl hbefore
    | quiet es => exact absurd hl hbefore
    | rejected es hrow hps => exact absurd hl hbefore
    | completed es hr hf hfence hps hts => exact absurd (Table.mem_deleteWhere.1 hl).1 hbefore
    | synthesized es hr ho hop hc hps => exact absurd (Table.mem_deleteWhere.1 hl).1 hbefore
    | deferred hg hnow hrow hf hfence hds => exact absurd (Table.mem_deleteWhere.1 hl).1 hbefore

/-- A call decides a job under a lease of its own caller. -/
theorem decidesOwn_call {calls : ℕ → FormalCall S} {log : List (Call Op Db Choice)}
    {k : Call Op Db Choice}
    (hclaimed : ∀ l ∈ k.before.leases, ∃ issuer principal, ClaimedBy calls log l issuer principal)
    (h : Effect S.platform k (calls k.thread).request (machine.after k)) : DecidesOwn calls log k := by
  intro jobId hdecides
  obtain ⟨q, l, hq, hl, howner⟩ : ∃ q l, (calls k.thread).request.presented = some q ∧
      k.before.lease? jobId = some l ∧ l.leaseOwner = q.owner := by
    have hfenced : FormalFenced S.platform (fun t => (calls t).request) k := formalFenced_of_effect h
    have hdeferred : DeferralFenced S.platform (fun t => (calls t).request) k :=
      deferralFenced_of_effect h
    rcases hdecides with ⟨p, hp, hnew, hformal, rfl⟩ | ⟨d, hd, hnew, rfl⟩
    · obtain ⟨q, l, hq, -, -, hl, hholds⟩ := hfenced p hp hnew hformal
      exact ⟨q, l, hq, hl, hholds.2.1.1⟩
    · obtain ⟨q, l, hq, -, hl, hholds, -⟩ := hdeferred d hd hnew
      exact ⟨q, l, hq, hl, hholds.2.1.1⟩
  obtain ⟨issuer, principal, hclaim⟩ := hclaimed l (mem_of_lease? hl).1
  obtain ⟨issuer', principal', hchecked', howner'⟩ := owner_of_presented hq
  refine ⟨l, issuer, principal, issuer', principal', hl, hclaim, hchecked', ?_⟩
  obtain ⟨_, -, -, -, -, hchecked, howned⟩ := hclaim
  rcases owner_inj (a := (issuer, principal)) (b := (issuer', principal')) hchecked.wellFormed
    hchecked'.wellFormed (howned.symm.trans (howner.trans howner')) with heq | hcollide
  · exact .inl (Prod.mk.inj heq)
  · exact .inr hcollide

/-- **Only who claimed a job decides it.** For every server, all formal calls, every order of their steps
and every fault. -/
theorem decided_by_claimer (S : Server) (records : List JobRecord) (calls : ℕ → FormalCall S)
    (es : List (ℕ × Choice)) :
    (∀ l ∈ (machine.exec (start S.platform records fun t => (calls t).request) es).world.leases,
      ∃ issuer principal, ClaimedBy calls
        (machine.exec (start S.platform records fun t => (calls t).request) es).log l issuer principal) ∧
      Along (DecidesOwn calls)
        (machine.exec (start S.platform records fun t => (calls t).request) es).log := by
  refine (Machine.exec_induction (M := machine) (P := fun c : Run =>
    Machine.Issued (fun t => MayIssue S.platform (calls t).request) c ∧ QueueInv c.world ∧
      (∀ l ∈ c.world.leases, ∃ issuer principal, ClaimedBy calls c.log l issuer principal) ∧
      Along (DecidesOwn calls) c.log) ?_ es
    ⟨issued_start S.platform records fun t => (calls t).request, queueInv_initial records,
      fun l hl => absurd hl (Table.not_mem_empty l), .nil⟩).2.2
  rintro c e ⟨hissued, hinv, hclaimed, halong⟩
  rcases Machine.step_cases (M := machine) c e with hs | ⟨op, next, hcall, hs⟩
  · rw [hs]
    exact ⟨hissued, hinv, hclaimed, halong⟩
  · have heff := call_effect (k := ⟨e.1, op, e.2, c.world⟩) hinv (Machine.issued_next hissued hcall)
    refine ⟨Machine.issued_step hissued e, ?_, ?_, ?_⟩
    · rw [hs]
      exact queueInv_effect (k := ⟨e.1, op, e.2, c.world⟩) hinv heff
    · rw [hs]
      exact claimed_call (k := ⟨e.1, op, e.2, c.world⟩) hclaimed heff
    · rw [hs]
      exact .cons (decidesOwn_call hclaimed heff) halong

end QuantproCollector.ResearchWorkflow
