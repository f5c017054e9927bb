import QuantproCollector.IssueBookkeeping.Ledger

/-!
# Whitelisted targets

The target of a command is looked up by a property access, which also finds what every object
inherits: `constructor` and `__proto__` match the pattern of a target key, and are targets without a
repository and an issue.

* `DeliversOnlyToListed`: in a run, a request of a command goes to the issue of its own entry, and a
  command without one is rejected with nothing but the clock read.
* `deliversOnlyToListed_iff`: that holds in every run exactly where the key is an entry or is not an
  inherited name.
-/

namespace QuantproCollector.IssueBookkeeping

open Relational Async

abbrev BookkeepingRun :=
  Config Thrown Op Res World Choice IssueBookkeepingReceipt

/-- The requests `inputs` from the table `w`, in the order of the schedule. -/
def bookkeepingRun (w : World) (inputs : ℕ → Input) (es : List (ℕ × Choice)) : BookkeepingRun :=
  machine.exec (Config.start w fun t => submitIssueBookkeeping (inputs t)) es

/-- The whitelist has an entry for the key. -/
def OwnEntry (input : Input) (key : String) (target : BookkeepingTarget) : Prop :=
  ∃ targets, parseTargets input.targetsRaw = some targets ∧ targets.lookup key = some target

/-- The request goes to the issue of the target, or to its comments. -/
def SentTo (target : BookkeepingTarget) (request : Request) : Prop :=
  let issueUrl := "https://api.github.com/repos/" ++ target.repo ++ "/issues/" ++ toString target.issue
  request.url = issueUrl ∨ request.url = issueUrl ++ "/comments"

structure DeliversOnlyToListed (c : BookkeepingRun) (t : ℕ) (input : Input) (command : Command) :
    Prop where
  delivered : ∀ k ∈ c.trace t, ∀ dedupeKey request, k.op = .deliver dedupeKey request →
    ∃ target, OwnEntry input command.target_key target ∧ SentTo target request
  refused : (¬ ∃ target, OwnEntry input command.target_key target) →
    (∀ k ∈ c.trace t, k.op = .clock) ∧
      ∀ r, c.result? t = some r → ∃ receipt, r = .ok receipt ∧ receipt.status = .REJECTED_TARGET

/-- Every key the access finds is an entry: the key is listed, or it is no inherited name. -/
def ListedOrNotInherited (input : Input) (key : String) : Prop :=
  ∀ targets, parseTargets input.targetsRaw = some targets →
    (targets.lookup key).isSome ∨ key ∉ inheritedKeys targets

/-! ## Listed targets -/

theorem sentTo_deliveryRequest (command : Command) (target : BookkeepingTarget) :
    SentTo target (deliveryRequest command (.listed target)) := by
  unfold deliveryRequest
  cases command.operation with
  | COMMENT => exact .inr rfl
  | CLOSE => exact .inl rfl

/-- Every GitHub request goes to the target. -/
def DeliversTo (target : BookkeepingTarget) (op : Op) : Prop :=
  ∀ dedupeKey request, op = .deliver dedupeKey request → SentTo target request

theorem issues_bookkeep (input : Input) (command : Command) (target : BookkeepingTarget)
    (occurredAt : String) :
    (bookkeep input command (.listed target) occurredAt).Issues (DeliversTo target) := by
  have hquiet : ∀ op, (∀ d r, op ≠ .deliver d r) → DeliversTo target op :=
    fun op hop d r h => absurd h (hop d r)
  have hdeliver : (deliverAndRecord input command (.listed target) occurredAt).Issues
      (DeliversTo target) := by
    have hrecord : ∀ u, Script.Issues (DeliversTo target) (Script.perform (Op.updateRow u) : Program _) :=
      fun u => Script.issues_perform.2 (hquiet _ (by simp))
    have hend : ∀ u, Script.Issues (DeliversTo target) (do
        Script.perform (Op.updateRow u)
        return outcomeReceipt command (.listed target) u : Program _) :=
      fun u => (hrecord u).bind fun _ => trivial
    unfold deliverAndRecord
    split
    · exact hend _
    · refine Script.Issues.bind (Script.Issues.tryCatch (.map _ (Script.issues_perform.2 ?_))
        fun _ => trivial) fun _ => hend _
      rintro d r ⟨⟩
      exact sentTo_deliveryRequest command target
  refine Script.Issues.bind (Script.issues_perform.2 (hquiet _ (by simp))) fun _ => ?_
  refine Script.Issues.bind (Script.issues_perform.2 (hquiet _ (by simp))) fun existing => ?_
  cases existing with
  | some row => trivial
  | none =>
    refine Script.Issues.bind (Script.issues_perform.2 (hquiet _ (by simp))) fun _ => ?_
    refine Script.Issues.bind (Script.issues_perform.2 (hquiet _ (by simp))) fun raced => ?_
    cases raced with
    | none => trivial
    | some row =>
      show Script.Issues (DeliversTo target) (if _ then _ else _)
      split
      · trivial
      · exact hdeliver

/-! ## The two ways of a command -/

variable {input : Input} {command : Command}

/-- The clock is read, or given, before anything else. -/
def withClock (input : Input) (rest : String → Program IssueBookkeepingReceipt) :
    Program IssueBookkeepingReceipt :=
  match input.now with
  | some now => rest now
  | none => Script.perform Op.clock >>= rest

theorem submit_of_target (hcommand : parseCommand input = .ok command)
    {targets : List (String × BookkeepingTarget)} (htargets : parseTargets input.targetsRaw = some targets)
    {target : TargetEntry} (htarget : lookupTarget targets command.target_key = some target) :
    submitIssueBookkeeping input = withClock input (bookkeep input command target) := by
  unfold submitIssueBookkeeping withClock
  simp only [hcommand, htargets, htarget]
  cases input.now <;> rfl

/-- A key that is not found is rejected with the clock alone. -/
theorem submit_of_rejected (hcommand : parseCommand input = .ok command)
    (hkey : ∀ targets, parseTargets input.targetsRaw = some targets →
      lookupTarget targets command.target_key = none) :
    ∃ detail, submitIssueBookkeeping input =
      withClock input fun occurredAt => pure (rejected command detail occurredAt) := by
  unfold submitIssueBookkeeping withClock
  cases htargets : parseTargets input.targetsRaw with
  | none =>
    refine ⟨"bookkeeping targets not configured", ?_⟩
    simp only [hcommand]
    cases input.now <;> rfl
  | some targets =>
    refine ⟨"target_key is not whitelisted", ?_⟩
    simp only [hcommand, hkey targets htargets]
    cases input.now <;> rfl

theorem issues_withClock {S : Op → Prop} (hclock : S .clock)
    {rest : String → Program IssueBookkeepingReceipt} (h : ∀ now, (rest now).Issues S) :
    (withClock input rest).Issues S := by
  unfold withClock
  cases input.now with
  | some now => exact h now
  | none => exact (Script.issues_perform.2 hclock).bind h

/-- The calls of a request are ones it can issue. -/
theorem trace_bookkeepingRun {S : Op → Prop} {w : World} {inputs : ℕ → Input}
    (es : List (ℕ × Choice)) {t : ℕ} (h : (submitIssueBookkeeping (inputs t)).Issues S) :
    ∀ k ∈ (bookkeepingRun w inputs es).trace t, S k.op := by
  intro k hk
  obtain ⟨hmem, hthread⟩ := List.mem_filter.1 hk
  have hissued : Machine.Issued (fun u op => u = t → S op)
      (Config.start w fun t => submitIssueBookkeeping (inputs t) : BookkeepingRun) := by
    intro u
    by_cases hu : u = t
    · subst hu
      exact h.mono fun op hop _ => hop
    · exact Script.issues_of_forall (fun _ hut => absurd hut hu) _
  exact (Machine.exec_log (M := machine) (I := fun _ => True) (fun _ _ _ _ _ _ => trivial) hissued
    trivial (by simp [Config.start]) es k hmem).1 (by simpa using hthread)

theorem lookupTarget_eq_none {targets : List (String × BookkeepingTarget)} {key : String} :
    lookupTarget targets key = none ↔ targets.lookup key = none ∧ key ∉ inheritedKeys targets := by
  unfold lookupTarget
  cases targets.lookup key with
  | some target => simp
  | none => simp

theorem lookupTarget_of_inherited {targets : List (String × BookkeepingTarget)} {key : String}
    (hlookup : targets.lookup key = none) (hkey : key ∈ inheritedKeys targets) :
    lookupTarget targets key = some .inherited := by
  simp [lookupTarget, hlookup, hkey]

/-- A command that finds no entry is answered `REJECTED_TARGET`, with nothing but the clock read. -/
theorem refused_of_rejected (hcommand : parseCommand input = .ok command)
    (hkey : ∀ targets, parseTargets input.targetsRaw = some targets →
      lookupTarget targets command.target_key = none)
    (w : World) {inputs : ℕ → Input} {t : ℕ} (hinput : inputs t = input) (es : List (ℕ × Choice)) :
    (∀ k ∈ (bookkeepingRun w inputs es).trace t, k.op = .clock) ∧
      ∀ r, (bookkeepingRun w inputs es).result? t = some r →
        ∃ receipt, r = .ok receipt ∧ receipt.status = .REJECTED_TARGET := by
  obtain ⟨detail, hsubmit⟩ := submit_of_rejected hcommand hkey
  refine ⟨trace_bookkeepingRun (S := (· = .clock)) es ?_, fun r hr => ?_⟩
  · rw [hinput, hsubmit]
    refine issues_withClock (S := (· = Op.clock)) rfl fun _ => ?_
    trivial
  · have hcompletes := Machine.completes_exec es hr
    rw [hinput, hsubmit] at hcompletes
    unfold withClock at hcompletes
    cases hnow : input.now with
    | some now =>
      rw [hnow] at hcompletes
      obtain ⟨-, rfl⟩ := Machine.completes_halt.1 hcompletes
      exact ⟨_, rfl, rfl⟩
    | none =>
      rw [hnow] at hcompletes
      obtain ⟨u, ch, v, ks, -, hend⟩ := Machine.completes_call.1 hcompletes
      obtain ⟨-, rfl⟩ := Machine.completes_halt.1 hend
      exact ⟨_, rfl, rfl⟩

/-! ## Every run -/

/-- A key that is found without an entry reaches the table. -/
theorem reaches_table (hcommand : parseCommand input = .ok command)
    {targets : List (String × BookkeepingTarget)} (htargets : parseTargets input.targetsRaw = some targets)
    {target : TargetEntry} (htarget : lookupTarget targets command.target_key = some target) (t : ℕ) :
    ∃ es, ∃ k ∈ (bookkeepingRun Table.empty (fun _ => input) es).trace t, k.op = .ensureTable := by
  have hsubmit := submit_of_target hcommand htargets htarget
  unfold withClock at hsubmit
  let ch : Choice := ⟨"", .none, none⟩
  cases hnow : input.now with
  | some now =>
    rw [hnow] at hsubmit
    refine ⟨[(t, ch)], ⟨t, .ensureTable, ch, Table.empty⟩, ?_, rfl⟩
    rw [bookkeepingRun, Machine.exec_cons, Machine.exec_nil, Machine.step_call hsubmit]
    simp [Config.trace, Config.start]
  | none =>
    rw [hnow] at hsubmit
    refine ⟨[(t, ch), (t, ch)], ⟨t, .ensureTable, ch, Table.empty⟩, ?_, rfl⟩
    have hclock := Machine.step_call (M := machine) (e := (t, ch))
      (c := Config.start Table.empty fun _ => submitIssueBookkeeping input) hsubmit
    rw [bookkeepingRun, Machine.exec_cons, Machine.exec_cons, Machine.exec_nil, hclock,
      Machine.step_call (Function.update_self ..)]
    simp [Config.trace, Config.start, machine, perform]

/-- **Delivery to listed targets.** The commands with an accepted key are delivered to their own entry
alone, and rejected before the table without one, in every run exactly where the key is an entry of
the whitelist or no name that an object inherits. -/
theorem deliversOnlyToListed_iff (t : ℕ) (hcommand : parseCommand input = .ok command) :
    (∀ w inputs es, inputs t = input →
      DeliversOnlyToListed (bookkeepingRun w inputs es) t input command) ↔
        ListedOrNotInherited input command.target_key := by
  constructor
  · intro h targets htargets
    by_contra hcon
    obtain ⟨hlookup, hkey⟩ := not_or.1 hcon
    have hnone : targets.lookup command.target_key = none := Option.not_isSome_iff_eq_none.1 hlookup
    have hkey := not_not.1 hkey
    obtain ⟨es, k, hk, hop⟩ :=
      reaches_table hcommand htargets (lookupTarget_of_inherited hnone hkey) t
    have hclock := ((h Table.empty (fun _ => input) es rfl).refused ?_).1 k hk
    · rw [hop] at hclock
      cases hclock
    · rintro ⟨target, targets', htargets', htarget⟩
      obtain rfl : targets = targets' := Option.some.inj (htargets.symm.trans htargets')
      rw [hnone] at htarget
      cases htarget
  · intro h w inputs es hinput
    by_cases hown : ∃ target, OwnEntry input command.target_key target
    · refine ⟨fun k hk d request hop => ?_, fun hnot => absurd hown hnot⟩
      obtain ⟨target, targets, htargets, htarget⟩ := hown
      have hlookup : lookupTarget targets command.target_key = some (.listed target) := by
        simp only [lookupTarget, htarget]
      refine ⟨target, ⟨targets, htargets, htarget⟩, ?_⟩
      refine trace_bookkeepingRun es (S := DeliversTo target) ?_ k hk d request hop
      rw [hinput, submit_of_target hcommand htargets hlookup]
      refine issues_withClock (fun d r hop => ?_) fun now => issues_bookkeep ..
      cases hop
    · have hrejected := refused_of_rejected hcommand (fun targets htargets => ?_) w hinput es
      · refine ⟨fun k hk d request hop => ?_, fun _ => hrejected⟩
        rw [hrejected.1 k hk] at hop
        cases hop
      · have hnone : targets.lookup command.target_key = none :=
          Option.eq_none_iff_forall_ne_some.2 fun target htarget =>
            hown ⟨target, targets, htargets, htarget⟩
        refine lookupTarget_eq_none.2 ⟨hnone, ?_⟩
        rcases h targets htargets with hlisted | hkey
        · rw [hnone] at hlisted
          cases hlisted
        · exact hkey

/-! ## A command for `constructor` -/

def keyedInput (key : String) : Input where
  command := .obj [("source_task", .str "production-observer"), ("target_key", .str key),
    ("operation", .str "CLOSE"), ("dedupe_key", .str "ops:2026-10-01")]
  token := some "token"
  targetsRaw := some "\x7b\"ops\":\x7b\"repo\":\"owner/repo\",\"issue\":1\x7d\x7d"
  now := some "2026-10-01T02:00:00.000Z"
  requestId := none

def keyedCommand (key : String) : Command where
  source_task := "production-observer"
  target_key := key
  operation := .CLOSE
  dedupe_key := "ops:2026-10-01"
  body := none
  evidence_refs := none

theorem deliversOnlyToListed_ops :
    (∀ w inputs es, inputs 0 = keyedInput "ops" →
      DeliversOnlyToListed (bookkeepingRun w inputs es) 0 (keyedInput "ops") (keyedCommand "ops")) ↔
        ListedOrNotInherited (keyedInput "ops") "ops" :=
  deliversOnlyToListed_iff 0 (by decide +kernel)

/-- A call to GitHub under the repository `undefined`. -/
def sentToUndefined (k : Call Op World Choice) : Bool :=
  match k.op with
  | .deliver _ request =>
    decide (request.url = "https://api.github.com/repos/undefined/issues/undefined")
  | _ => false

theorem constructor_sent :
    ((bookkeepingRun Table.empty (fun _ => keyedInput "constructor")
      (List.replicate 5 (0, ⟨"", .none, none⟩))).trace 0).any sentToUndefined = true := by
  decide +kernel

theorem constructor_not_listed :
    ((parseTargets (keyedInput "constructor").targetsRaw).bind (·.lookup "constructor")) = none := by
  decide +kernel

/-- A command for `constructor`, which the whitelist does not have, is sent to the issue `undefined`. -/
theorem delivered_to_undefined :
    ¬ ∀ (t : ℕ) (input : Input) (command : Command), parseCommand input = .ok command →
      ∀ w inputs es, inputs t = input →
        DeliversOnlyToListed (bookkeepingRun w inputs es) t input command := by
  intro h
  obtain ⟨k, hk, hsent⟩ := List.any_eq_true.1 constructor_sent
  have hrun := h 0 (keyedInput "constructor") (keyedCommand "constructor") (by decide +kernel)
    Table.empty (fun _ => keyedInput "constructor") (List.replicate 5 (0, ⟨"", .none, none⟩)) rfl
  cases hop : k.op with
  | deliver dedupeKey request =>
    obtain ⟨target, ⟨targets, htargets, htarget⟩, -⟩ := hrun.delivered k hk _ _ hop
    have hnone := constructor_not_listed
    rw [htargets] at hnone
    rw [Option.bind_some] at hnone
    cases hnone.symm.trans htarget
  | _ => simp [sentToUndefined, hop] at hsent

end QuantproCollector.IssueBookkeeping
