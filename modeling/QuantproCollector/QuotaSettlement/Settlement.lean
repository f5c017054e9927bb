import Mathlib.Algebra.BigOperators.Group.List.Basic
import Mathlib.Algebra.GroupWithZero.Nat
import Mathlib.Algebra.Order.Group.Int
import Mathlib.Data.List.Sort
import Mathlib.Data.Prod.Lex
import Mathlib.Data.String.Basic
import QuantproCollector.Lib.Run
import QuantproCollector.Lib.Table

/-!
# Settlement of orphaned reservations

`settle_reservations.py`: a run reads the live reservations and their units, settles each reservation in one
atomic batch (a journal row, the deletion of its units where they are as they were read, and the deletion of
its header), and then adds what it has read of them to the booked usage, one statement a dimension. Each
request to D1 is one operation, which can fail before or after it takes effect; a failure ends the run.
-/

namespace QuantproCollector.QuotaSettlement

open Relational Async

/-! ## Tables -/

/-- A row of `quota_reservations`. -/
structure Reservation where
  reservation_id : String
  operation_id : String
  fingerprint : String
  route : String
  admitted_at : String
deriving DecidableEq

/-- A row of `quota_reservation_units`. -/
structure ReservedUnits where
  reservation_id : String
  dimension_key : String
  period_key : String
  units : ℕ
deriving DecidableEq

/-- A dimension and its units, as the manifest lists them. -/
structure DimensionUnits where
  dimension_key : String
  units : ℕ
deriving DecidableEq

inductive Outcome where
  | SETTLED
  | RELEASED
deriving DecidableEq

/-- A row of `quota_reservation_journal`. -/
structure JournalRow where
  reservation_id : String
  operation_id : String
  fingerprint : String
  route : String
  outcome : Outcome
  outcome_reason : String
  expected_units : List DimensionUnits
  observed_units : List DimensionUnits
  recorded_at : String
deriving DecidableEq

/-- A row of `quota_booked_usage`, without its key. -/
structure BookedRow where
  booked_units : ℕ
  booked_reservations : ℕ
  first_booked_at : String
  last_booked_at : String
  updated_at : String
deriving DecidableEq

structure World where
  reservations : Table Reservation String [fun r => some r.reservation_id]
  units : Table ReservedUnits (String × String) [fun u => some (u.reservation_id, u.dimension_key)]
  journal : List JournalRow
  /-- The row of a dimension and a period. -/
  booked : String → String → Option BookedRow

def PK : String := "cycle:2026-09-13T15:01:34Z..2026-10-13T00:00:00Z"

def REASON : String :=
  "operator settlement 2026-10-02: front admission machinery removed " ++
    "(#54 redesign); orphaned live reservation settled at reserved full charge"

/-- The bound of `booked_units` that the table checks. -/
def MAX_BOOKED_UNITS : ℕ := 9007199254740991

/-! ## Statements -/

/-- A live reservation and what was read of its units. -/
structure Manifest where
  reservation : Reservation
  units : List DimensionUnits
deriving DecidableEq

def journalRow (m : Manifest) (now : String) : JournalRow where
  reservation_id := m.reservation.reservation_id
  operation_id := m.reservation.operation_id
  fingerprint := m.reservation.fingerprint
  route := m.reservation.route
  outcome := .SETTLED
  outcome_reason := REASON
  expected_units := m.units
  observed_units := m.units
  recorded_at := now

def isSettled (journal : List JournalRow) (reservationId : String) : Bool :=
  journal.any fun j => decide (j.reservation_id = reservationId) && decide (j.outcome = .SETTLED)

def unitsOf (w : World) (reservationId : String) : List ReservedUnits :=
  w.units.rows.filter fun u => decide (u.reservation_id = reservationId)

def headersOf (w : World) (reservationId : String) : List Reservation :=
  w.reservations.rows.filter fun r => decide (r.reservation_id = reservationId)

/-- `INSERT … WHERE NOT EXISTS`. -/
def insertJournal (w : World) (m : Manifest) (now : String) : World :=
  if isSettled w.journal m.reservation.reservation_id then w
  else { w with journal := w.journal ++ [journalRow m now] }

/-- The condition of the unit delete. -/
def unitsMatch (w : World) (m : Manifest) : Bool :=
  let id := m.reservation.reservation_id
  decide ((headersOf w id).length = 1) && decide ((unitsOf w id).length = m.units.length) &&
    m.units.all fun d => (unitsOf w id).any fun u =>
      decide (u.dimension_key = d.dimension_key) && decide (d.units ≤ u.units)

def deleteUnits (w : World) (m : Manifest) : World :=
  if unitsMatch w m then
    { w with units := w.units.deleteWhere fun u => decide (u.reservation_id = m.reservation.reservation_id) }
  else w

def deleteHeader (w : World) (m : Manifest) : World :=
  if isSettled w.journal m.reservation.reservation_id then
    { w with
      reservations := w.reservations.deleteWhere fun r =>
        decide (r.reservation_id = m.reservation.reservation_id) }
  else w

/-- The batch of a reservation. -/
def settleBatch (w : World) (m : Manifest) (now : String) : World :=
  deleteHeader (deleteUnits (insertJournal w m now) m) m

/-- What is added to a dimension. -/
structure Booking where
  dimension_key : String
  units : ℕ
  reservations : ℕ
deriving DecidableEq

/-- The row of the upsert. -/
def bookedRow (prior : Option BookedRow) (b : Booking) (now : String) : BookedRow :=
  match prior with
  | none => ⟨b.units, b.reservations, now, now, now⟩
  | some row =>
    { row with
      booked_units := row.booked_units + b.units
      booked_reservations := row.booked_reservations + b.reservations
      last_booked_at := now
      updated_at := now }

def book (w : World) (b : Booking) (now : String) : World :=
  { w with
    booked := Function.update w.booked b.dimension_key
      (Function.update (w.booked b.dimension_key) PK
        (some (bookedRow (w.booked b.dimension_key PK) b now))) }

/-! ## Operations -/

inductive Op where
  | readReservations
  | readUnits
  | settle (m : Manifest)
  | clock
  | book (b : Booking) (now : String)
  | countReservations
  | countUnits

abbrev Res : Op → Type
  | .readReservations => List Reservation
  | .readUnits => List ReservedUnits
  | .settle _ => Unit
  | .clock => String
  | .book .. => Unit
  | .countReservations => ℕ
  | .countUnits => ℕ

/-- An exception. -/
inductive Thrown where
  | raised
deriving DecidableEq

abbrev Program (α : Type) := Script Thrown Op Res α

inductive Fault where
  | none
  | before
  | after
deriving DecidableEq

/-- The clock, and whether a request fails and has then taken effect. -/
structure Choice where
  now : String
  fault : Fault

def statement (f : Fault) (w w' : World) : Except Thrown Unit × World :=
  match f with
  | .none => (.ok (), w')
  | .before => (.error .raised, w)
  | .after => (.error .raised, w')

def reading {α : Type} (f : Fault) (a : α) : Except Thrown α :=
  if f = .none then .ok a else .error .raised

/-- The table's check lets the row in. -/
def Fits (w : World) (b : Booking) : Prop :=
  (bookedRow (w.booked b.dimension_key PK) b "").booked_units ≤ MAX_BOOKED_UNITS

instance (w : World) (b : Booking) : Decidable (Fits w b) := inferInstanceAs (Decidable (_ ≤ _))

def perform (ch : Choice) : (op : Op) → World → Except Thrown (Res op) × World
  | .readReservations, w =>
    (reading ch.fault (w.reservations.rows.insertionSort fun a b => a.admitted_at ≤ b.admitted_at), w)
  | .readUnits, w =>
    (reading ch.fault (w.units.rows.insertionSort fun a b =>
      toLex (a.reservation_id, a.dimension_key) ≤ toLex (b.reservation_id, b.dimension_key)), w)
  | .settle m, w => statement ch.fault w (settleBatch w m ch.now)
  | .clock, w => (.ok ch.now, w)
  | .book b now, w => if Fits w b then statement ch.fault w (book w b now) else (.error .raised, w)
  | .countReservations, w => (reading ch.fault w.reservations.rows.length, w)
  | .countUnits, w => (reading ch.fault w.units.rows.length, w)

def machine : Machine Thrown Op Res World Choice := ⟨perform⟩

/-! ## The script -/

structure Args where
  execute : Bool
  reservation_id : List String

def manifestOf (units : List ReservedUnits) (r : Reservation) : Manifest where
  reservation := r
  units := (units.filter fun u => decide (u.reservation_id = r.reservation_id)).map fun u =>
    ⟨u.dimension_key, u.units⟩

/-- `booked.setdefault(dimension_key, …)` and the additions to it. -/
def addBooking : List Booking → DimensionUnits → List Booking
  | [], d => [⟨d.dimension_key, d.units, 1⟩]
  | b :: booked, d =>
    if b.dimension_key = d.dimension_key then
      { b with units := b.units + d.units, reservations := b.reservations + 1 } :: booked
    else b :: addBooking booked d

/-- `sorted(booked.items())` after the settled reservations. -/
def bookings (settled : List Manifest) : List Booking :=
  ((settled.flatMap (·.units)).foldl addBooking []).insertionSort fun a b =>
    a.dimension_key ≤ b.dimension_key

/-- One operation for each element. -/
def each {α : Type} (f : α → Op) : List α → Program Unit
  | [] => pure ()
  | a :: l => do
    let _ ← Script.perform (f a)
    each f l

def settleReservations (args : Args) : Program ℕ := do
  let all ← Script.perform Op.readReservations
  let live := if args.reservation_id = [] then all else
    all.filter fun r => args.reservation_id.contains r.reservation_id
  let units ← Script.perform Op.readUnits
  let settled := if args.execute then live.map (manifestOf units) else []
  each Op.settle settled
  let now ← Script.perform Op.clock
  each (Op.book · now) (bookings settled)
  let remaining ← Script.perform Op.countReservations
  let _ ← Script.perform Op.countUnits
  return if args.execute && decide (remaining ≠ 0) then 3 else 0

end QuantproCollector.QuotaSettlement
