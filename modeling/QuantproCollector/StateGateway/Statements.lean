import QuantproCollector.StateGateway.World

/-!
# What the statements do

What each D1 statement makes of the receipt under a write key and of the rest of the world.
-/

namespace QuantproCollector.StateGateway

open Relational Async

/-! ## Receipts -/

theorem receiptFor_eq_some {w : World} {writeKey : String} {r : StateWriteReceipt} :
    receiptFor w writeKey = some r ↔ r ∈ w.receipts ∧ r.write_key = writeKey := by
  constructor
  · intro h
    obtain ⟨hr, hkey⟩ := Table.mem_of_find? h
    exact ⟨hr, by simpa using hkey⟩
  · rintro ⟨hr, rfl⟩
    refine Table.find?_of_mem (i := fun r => some r.write_key) (by simp [receiptIndexes]) hr
      (by simp) fun a _ ha => ⟨by simp, ?_⟩
    simpa using ha

theorem receiptFor_eq_none {w : World} {writeKey : String} :
    receiptFor w writeKey = none ↔ ∀ r ∈ w.receipts, r.write_key ≠ writeKey := by
  simp [receiptFor, Table.find?_eq_none]

section InsertReceipt

variable {w : World} {writeKey : String} {channel : StateWriteChannel} {sha now : String}

/-- Receipts whose key is not there are appended. -/
theorem rows_upsert {t : Table StateWriteReceipt String receiptIndexes} {r : StateWriteReceipt}
    (hno : ∀ a ∈ t, a.write_key ≠ r.write_key) :
    (t.upsert r id fun _ => rfl).rows = t.rows ++ [r] :=
  Table.rows_upsert_of_not_mem hno

/-- An insert over a receipt is ignored. -/
theorem insertReceipt_of_receiptFor {r : StateWriteReceipt} (h : receiptFor w writeKey = some r) :
    w.insertReceipt writeKey channel sha now = w := by
  obtain ⟨hr, hkey⟩ := receiptFor_eq_some.1 h
  have hsame : w.receipts.upsert (freshReceipt writeKey channel sha now) id (fun _ => rfl) =
      w.receipts := Table.upsert_id_of_mem hr hkey
  show { w with receipts := w.receipts.upsert _ id _ } = w
  rw [hsame]

theorem receiptFor_insertReceipt :
    receiptFor (w.insertReceipt writeKey channel sha now) writeKey =
      some ((receiptFor w writeKey).getD (freshReceipt writeKey channel sha now)) := by
  cases h : receiptFor w writeKey with
  | some r => rw [insertReceipt_of_receiptFor h, h, Option.getD_some]
  | none =>
    refine receiptFor_eq_some.2 ⟨?_, rfl⟩
    have hrows : (w.insertReceipt writeKey channel sha now).receipts.rows =
        w.receipts.rows ++ [freshReceipt writeKey channel sha now] :=
      rows_upsert (receiptFor_eq_none.1 h)
    rw [← Table.mem_rows, hrows]
    exact List.mem_append_right _ List.mem_cons_self

end InsertReceipt

theorem receiptFor_leaseReceipt (w : World) (l : LeaseRequest) (writeKey : String) :
    receiptFor (w.leaseReceipt l) writeKey =
      (receiptFor w writeKey).map fun r => if l.applies r then l.apply r else r :=
  Table.find?_modify (h := fun _ hix _ => by rw [List.mem_singleton.1 hix]; rfl) fun _ => rfl

theorem receiptFor_finalizeReceipt (w : World) (f : FinalizeRequest) (writeKey : String) :
    receiptFor (w.finalizeReceipt f) writeKey =
      (receiptFor w writeKey).map fun r => if f.applies r then f.apply r else r :=
  Table.find?_modify (h := fun _ hix _ => by rw [List.mem_singleton.1 hix]; rfl) fun _ => rfl

section Frame

variable (w : World) (l : Ledger)

@[simp] theorem insertReceipt_comments (writeKey : String) (channel : StateWriteChannel)
    (sha now : String) : (w.insertReceipt writeKey channel sha now).comments l = w.comments l := by
  cases l <;> rfl

@[simp] theorem leaseReceipt_comments (q : LeaseRequest) :
    (w.leaseReceipt q).comments l = w.comments l := by
  cases l <;> rfl

@[simp] theorem finalizeReceipt_comments (f : FinalizeRequest) :
    (w.finalizeReceipt f).comments l = w.comments l := by
  cases l <;> rfl

@[simp] theorem updateRun_comments (u : RunUpdate) : (w.updateRun u).comments l = w.comments l := by
  cases l <;> rfl

end Frame

end QuantproCollector.StateGateway
