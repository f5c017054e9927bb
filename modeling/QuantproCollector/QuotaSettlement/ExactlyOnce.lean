import QuantproCollector.QuotaSettlement.Settlement

/-!
# Settlement once

A run settles reservation by reservation and books afterwards what it has settled, so a run that stops in
between loses units, and two runs that have read one reservation book it twice.

* `balanced`: a run that ends books, of every dimension, what its batches list of it.
* `accounted_exec`: however the runs interleave, the tables follow the batches and the bookings, where each
  batch finds its reservation as it was read and no batch and no booking fails.
* `settles_exactly_once`: then, once all runs have ended, every dimension has been booked exactly the units
  that were deleted of it.
-/

namespace QuantproCollector.QuotaSettlement

open Relational Async

abbrev Run := Config Thrown Op Res World Choice ℕ

abbrev SettleCall := Async.Call Op World Choice

/-- The runs `args` of the script, in the order of the schedule; `none` is no run. -/
def settleRun (w : World) (args : ℕ → Option Args) (es : List (ℕ × Choice)) : Run :=
  machine.exec (Config.start w fun t => ((args t).map settleReservations).getD (pure 0)) es

/-! ## Amounts -/

/-- The units of a dimension in the list. -/
def amount (dimension : String) (l : List DimensionUnits) : ℕ :=
  ((l.filter fun d => decide (d.dimension_key = dimension)).map (·.units)).sum

/-- What a booking adds to a dimension. -/
def Booking.amount (b : Booking) (dimension : String) : ℕ :=
  if b.dimension_key = dimension then b.units else 0

/-- The units of a dimension that a batch lists. -/
def listedBy (dimension : String) (k : SettleCall) : ℕ :=
  match k.op with
  | .settle m => amount dimension m.units
  | _ => 0

/-- The units of a dimension that a call books. -/
def bookedBy (dimension : String) (k : SettleCall) : ℕ :=
  match k.op with
  | .book b _ => b.amount dimension
  | _ => 0

/-- The live units of a dimension. -/
def liveUnits (w : World) (dimension : String) : ℕ :=
  ((w.units.rows.filter fun u => decide (u.dimension_key = dimension)).map (·.units)).sum

/-- The booked units of a dimension in the period. -/
def bookedUnits (w : World) (dimension : String) : ℕ :=
  ((w.booked dimension PK).map (·.booked_units)).getD 0

/-! ## The bookings of a run -/

@[simp] theorem amount_nil (dimension : String) : amount dimension [] = 0 := rfl

theorem amount_cons (dimension : String) (d : DimensionUnits) (l : List DimensionUnits) :
    amount dimension (d :: l) = (if d.dimension_key = dimension then d.units else 0) + amount dimension l := by
  unfold amount
  by_cases h : d.dimension_key = dimension
  · simp [h]
  · simp [h]

theorem amount_append (dimension : String) (l l' : List DimensionUnits) :
    amount dimension (l ++ l') = amount dimension l + amount dimension l' := by
  simp [amount]

theorem sum_addBooking (dimension : String) (booked : List Booking) (d : DimensionUnits) :
    ((addBooking booked d).map (·.amount dimension)).sum =
      (booked.map (·.amount dimension)).sum + amount dimension [d] := by
  induction booked with
  | nil => simp [addBooking, amount_cons, Booking.amount]
  | cons b booked ih =>
    unfold addBooking
    by_cases h : b.dimension_key = d.dimension_key
    · rw [if_pos h]
      by_cases hd : d.dimension_key = dimension
      · simp [Booking.amount, amount_cons, h, hd]
        omega
      · simp [Booking.amount, amount_cons, h, hd]
    · rw [if_neg h, List.map_cons, List.sum_cons, List.map_cons, List.sum_cons, ih, add_assoc]

/-- A run books of every dimension what its batches list. -/
theorem sum_bookings (dimension : String) (settled : List Manifest) :
    ((bookings settled).map (·.amount dimension)).sum =
      (settled.map fun m => amount dimension m.units).sum := by
  have hfold : ∀ (l : List DimensionUnits) (booked : List Booking),
      ((l.foldl addBooking booked).map (·.amount dimension)).sum =
        (booked.map (·.amount dimension)).sum + amount dimension l := by
    intro l
    induction l with
    | nil => exact fun booked => rfl
    | cons d l ih =>
      intro booked
      rw [List.foldl_cons, ih, sum_addBooking, add_assoc, ← amount_append, List.singleton_append]
  have hflat : amount dimension (settled.flatMap (·.units)) =
      (settled.map fun m => amount dimension m.units).sum := by
    induction settled with
    | nil => rfl
    | cons m settled ih => rw [List.flatMap_cons, amount_append, ih, List.map_cons, List.sum_cons]
  unfold bookings
  rw [((List.perm_insertionSort _ _).map _).sum_eq, hfold, hflat]
  simp

/-! ## The calls of a run -/

variable {ks : List SettleCall} {α : Type}

def writes (op : Op) : Prop :=
  match op with
  | .settle _ | .book .. => True
  | _ => False

/-- A batch and a booking are answered. -/
def Answered (k : SettleCall) : Prop :=
  writes k.op → ∃ a, machine.answer k = .ok a

theorem completes_each {f : α → Op} {l : List α} {r : Except Thrown Unit}
    (h : machine.Completes (each f l) ks r) (hok : ∀ k ∈ ks, ∃ a, machine.answer k = .ok a) :
    r = .ok () ∧ ks.map (·.op) = l.map f := by
  induction l generalizing ks with
  | nil =>
    obtain ⟨rfl, rfl⟩ := Machine.completes_halt.1 h
    exact ⟨rfl, rfl⟩
  | cons a l ih =>
    obtain ⟨t, ch, w, ks', rfl, hrest⟩ := Machine.completes_call.1 h
    obtain ⟨u, hu⟩ := hok _ List.mem_cons_self
    change (machine.perform ch (f a) w).1 = .ok u at hu
    rw [hu] at hrest
    obtain ⟨hr, hops⟩ := ih hrest fun k hk => hok k (List.mem_cons_of_mem _ hk)
    exact ⟨hr, by rw [List.map_cons, List.map_cons, hops]⟩

/-- The calls of a loop are its own operations, also where it is cut short. -/
theorem ops_each {f : α → Op} {l : List α} {r : Except Thrown Unit}
    (h : machine.Completes (each f l) ks r) : ∀ k ∈ ks, ∃ a ∈ l, k.op = f a := by
  have hissues : (each f l).Issues fun op => ∃ a ∈ l, op = f a := by
    have hall : ∀ l' : List α, (∀ a ∈ l', a ∈ l) → (each f l').Issues fun op => ∃ a ∈ l, op = f a := by
      intro l'
      induction l' with
      | nil => exact fun _ => trivial
      | cons a l' ih =>
        intro hmem
        exact Script.Issues.bind (Script.issues_perform.2 ⟨a, hmem a List.mem_cons_self, rfl⟩)
          fun _ => ih fun b hb => hmem b (List.mem_cons_of_mem a hb)
    exact hall l fun _ ha => ha
  exact h.issues hissues

theorem amounts_of_quiet (dimension : String) (h : ∀ k ∈ ks, ¬ writes k.op) :
    (ks.map (listedBy dimension)).sum = 0 ∧ (ks.map (bookedBy dimension)).sum = 0 := by
  have hzero : ∀ k ∈ ks, listedBy dimension k = 0 ∧ bookedBy dimension k = 0 := by
    intro k hk
    have hquiet := h k hk
    unfold listedBy bookedBy
    cases hop : k.op <;> simp_all [writes]
  constructor
  · exact List.sum_eq_zero fun x hx => by
      obtain ⟨k, hk, rfl⟩ := List.mem_map.1 hx
      exact (hzero k hk).1
  · exact List.sum_eq_zero fun x hx => by
      obtain ⟨k, hk, rfl⟩ := List.mem_map.1 hx
      exact (hzero k hk).2

theorem amounts_of_settles (dimension : String) {settled : List Manifest}
    (h : ks.map (·.op) = settled.map Op.settle) :
    (ks.map (listedBy dimension)).sum = (settled.map fun m => amount dimension m.units).sum ∧
      (ks.map (bookedBy dimension)).sum = 0 := by
  induction ks generalizing settled with
  | nil =>
    obtain rfl : settled = [] := by simpa using h
    exact ⟨rfl, rfl⟩
  | cons k ks ih =>
    cases settled with
    | nil => cases h
    | cons m settled =>
      obtain ⟨hop, hrest⟩ := List.cons.inj h
      obtain ⟨hl, hb⟩ := ih hrest
      constructor
      · simp [hl, listedBy, hop]
      · simp [hb, bookedBy, hop]

theorem amounts_of_books (dimension : String) {booked : List Booking} {now : String}
    (h : ks.map (·.op) = booked.map (Op.book · now)) :
    (ks.map (listedBy dimension)).sum = 0 ∧
      (ks.map (bookedBy dimension)).sum = (booked.map (·.amount dimension)).sum := by
  induction ks generalizing booked with
  | nil =>
    obtain rfl : booked = [] := by simpa using h
    exact ⟨rfl, rfl⟩
  | cons k ks ih =>
    cases booked with
    | nil => cases h
    | cons b booked =>
      obtain ⟨hop, hrest⟩ := List.cons.inj h
      obtain ⟨hl, hb⟩ := ih hrest
      constructor
      · simp [hl, listedBy, hop]
      · simp [hb, bookedBy, hop]

theorem completes_perform {op : Op} {r : Except Thrown (Res op)}
    (h : machine.Completes (Script.perform op) ks r) : ∀ k ∈ ks, k.op = op :=
  fun k hk => (h.issues (S := fun op' => op' = op) (Script.issues_perform.2 rfl) k hk)

/-- A loop of answered writes comes to its end. -/
theorem completes_writes {f : α → Op} (hf : ∀ a, writes (f a)) {l : List α} {r : Except Thrown Unit}
    (h : machine.Completes (each f l) ks r) (hok : ∀ k ∈ ks, Answered k) :
    r = .ok () ∧ ks.map (·.op) = l.map f := by
  refine completes_each h fun k hk => hok k hk ?_
  obtain ⟨a, -, hop⟩ := ops_each h k hk
  rw [hop]
  exact hf a

theorem writes_settle (m : Manifest) : writes (.settle m) := trivial

theorem writes_book (now : String) (b : Booking) : writes (.book b now) := trivial

/-- The amounts that the calls list and book. -/
def Balanced (ks : List SettleCall) : Prop :=
  ∀ dimension, (ks.map (listedBy dimension)).sum = (ks.map (bookedBy dimension)).sum

theorem balanced_of_quiet (h : ∀ k ∈ ks, ¬ writes k.op) : Balanced ks := fun dimension => by
  obtain ⟨hl, hb⟩ := amounts_of_quiet dimension h
  rw [hl, hb]

theorem Balanced.append {ks' : List SettleCall} (h : Balanced ks) (h' : Balanced ks') :
    Balanced (ks ++ ks') := fun dimension => by
  simp only [List.map_append, List.sum_append, h dimension, h' dimension]

theorem quiet_of_perform {op : Op} (hop : ¬ writes op) {r : Except Thrown (Res op)}
    (h : machine.Completes (Script.perform op) ks r) : Balanced ks :=
  balanced_of_quiet fun k hk => by rwa [completes_perform h k hk]

/-- What follows a quiet operation is all that counts. -/
theorem balanced_perform {β : Type} {op : Op} (hop : ¬ writes op) {f : Res op → Program β}
    {r : Except Thrown β} (h : machine.Completes (Script.perform op >>= f) ks r)
    (hrest : ∀ a ks', (∀ k ∈ ks', k ∈ ks) → machine.Completes (f a) ks' r → Balanced ks') : Balanced ks := by
  rcases Machine.completes_bind.1 h with ⟨e, hfail, -⟩ | ⟨a, ks₁, ks₂, rfl, h₁, h₂⟩
  · exact quiet_of_perform hop hfail
  · exact (quiet_of_perform hop h₁).append (hrest a ks₂ (fun k hk => List.mem_append_right _ hk) h₂)

/-- **A run that ends is balanced**, where its batches and its bookings were answered. -/
theorem balanced {args : Args} {r : Except Thrown ℕ} (h : machine.Completes (settleReservations args) ks r)
    (hok : ∀ k ∈ ks, Answered k) : Balanced ks := by
  unfold settleReservations at h
  refine balanced_perform (by simp [writes]) h fun all ks hks h => ?_
  refine balanced_perform (by simp [writes]) h fun units ks' hks' h => ?_
  have hok' : ∀ k ∈ ks', Answered k := fun k hk => hok k (hks k (hks' k hk))
  generalize (if args.execute then _ else []) = settled at h
  rcases Machine.completes_bind.1 h with ⟨e, hfail, -⟩ | ⟨_, ks₁, ks₂, rfl, h₁, h₂⟩
  · cases (completes_writes writes_settle hfail hok').1
  have hsettles := (completes_writes writes_settle h₁ fun k hk => hok' k (List.mem_append_left _ hk)).2
  -- after the batches: the clock, the bookings of what they listed, and two counts
  suffices hlater : ∀ dimension, (ks₂.map (listedBy dimension)).sum = 0 ∧
      (ks₂.map (bookedBy dimension)).sum = ((bookings settled).map (·.amount dimension)).sum by
    intro dimension
    obtain ⟨hl, hb⟩ := amounts_of_settles dimension hsettles
    obtain ⟨hl', hb'⟩ := hlater dimension
    simp only [List.map_append, List.sum_append, hl, hb, hl', hb', sum_bookings, Nat.add_zero, Nat.zero_add]
  intro dimension
  have hok₂ : ∀ k ∈ ks₂, Answered k := fun k hk => hok' k (List.mem_append_right _ hk)
  rcases Machine.completes_bind.1 h₂ with ⟨e, hfail, -⟩ | ⟨now, ks₃, ks₄, rfl, h₃, h₄⟩
  · obtain ⟨t, ch, w, ks', -, hend⟩ := Machine.completes_call.1 hfail
    cases (Machine.completes_halt.1 hend).2
  have hclock := amounts_of_quiet dimension fun k hk => by
    rw [completes_perform h₃ k hk]
    simp [writes]
  rcases Machine.completes_bind.1 h₄ with ⟨e, hfail, -⟩ | ⟨_, ks₅, ks₆, rfl, h₅, h₆⟩
  · cases (completes_writes (writes_book now) hfail fun k hk => hok₂ k (List.mem_append_right _ hk)).1
  have hbooks := (completes_writes (writes_book now) h₅ fun k hk =>
    hok₂ k (List.mem_append_right _ (List.mem_append_left _ hk))).2
  obtain ⟨hl, hb⟩ := amounts_of_books dimension hbooks
  have hquiet : ∀ k ∈ ks₆, ¬ writes k.op := by
    refine h₆.issues (S := fun op => ¬ writes op) ?_
    refine Script.Issues.bind (Script.issues_perform.2 (by simp [writes])) fun remaining => ?_
    exact Script.Issues.bind (Script.issues_perform.2 (by simp [writes])) fun _ => trivial
  obtain ⟨hl', hb'⟩ := amounts_of_quiet dimension hquiet
  simp only [List.map_append, List.sum_append, hclock.1, hclock.2, hl, hb, hl', hb', Nat.add_zero,
    Nat.zero_add, and_self]

/-! ## What a batch and a booking do -/

/-- A batch finds its reservation as it was read, and neither it nor a booking fails. -/
def Clean (k : SettleCall) : Prop :=
  match k.op with
  | .settle m => k.choice.fault = .none ∧
      (∃ r ∈ k.before.reservations, r.reservation_id = m.reservation.reservation_id) ∧
        ((unitsOf k.before m.reservation.reservation_id).map fun u =>
          (⟨u.dimension_key, u.units⟩ : DimensionUnits)).Perm m.units
  | .book b _ => k.choice.fault = .none ∧ Fits k.before b
  | _ => True

theorem answered_of_clean {k : SettleCall} (h : Clean k) : Answered k := by
  obtain ⟨t, op, ch, w⟩ := k
  intro hwrites
  cases op with
  | settle m =>
    obtain ⟨hfault, -⟩ : ch.fault = .none ∧ _ := h
    exact ⟨(), by simp [Machine.answer, machine, perform, statement, hfault]⟩
  | book b now =>
    obtain ⟨hfault, hfits⟩ : ch.fault = .none ∧ Fits w b := h
    exact ⟨(), by simp [Machine.answer, machine, perform, statement, hfault, hfits]⟩
  | _ => cases hwrites

theorem isSettled_insertJournal (w : World) (m : Manifest) (now : String) :
    isSettled (insertJournal w m now).journal m.reservation.reservation_id = true := by
  unfold insertJournal
  split_ifs with h
  · exact h
  · simp [isSettled, journalRow]

section Batch

variable {w : World} {m : Manifest} {now : String}

theorem unitsMatch_of_read (hheader : ∃ r ∈ w.reservations, r.reservation_id = m.reservation.reservation_id)
    (hunits : ((unitsOf w m.reservation.reservation_id).map fun u =>
      (⟨u.dimension_key, u.units⟩ : DimensionUnits)).Perm m.units) : unitsMatch w m = true := by
  obtain ⟨r, hr, hid⟩ := hheader
  have hheaders : headersOf w m.reservation.reservation_id = [r] :=
    Table.filter_eq_singleton (List.mem_singleton_self _) hr (by simpa using hid) (by simp)
      fun a _ ha => by simpa [hid] using ha
  have hlength : (unitsOf w m.reservation.reservation_id).length = m.units.length := by
    rw [← hunits.length_eq, List.length_map]
  unfold unitsMatch
  simp only [hheaders, hlength, List.length_singleton, decide_true, Bool.true_and, List.all_eq_true,
    List.any_eq_true, Bool.and_eq_true, decide_eq_true_eq]
  intro d hd
  obtain ⟨u, hu, rfl⟩ := List.mem_map.1 (hunits.mem_iff.2 hd)
  exact ⟨u, hu, rfl, le_rfl⟩

/-- The batch deletes the units and the header that it lists. -/
theorem settleBatch_of_read (now : String)
    (hheader : ∃ r ∈ w.reservations, r.reservation_id = m.reservation.reservation_id)
    (hunits : ((unitsOf w m.reservation.reservation_id).map fun u =>
      (⟨u.dimension_key, u.units⟩ : DimensionUnits)).Perm m.units) :
    (settleBatch w m now).units =
        w.units.deleteWhere (fun u => decide (u.reservation_id = m.reservation.reservation_id)) ∧
      (settleBatch w m now).reservations =
        w.reservations.deleteWhere (fun r => decide (r.reservation_id = m.reservation.reservation_id)) ∧
      (settleBatch w m now).booked = w.booked := by
  have htables : (insertJournal w m now).units = w.units ∧
      (insertJournal w m now).reservations = w.reservations ∧
        (insertJournal w m now).booked = w.booked := by
    unfold insertJournal
    split_ifs <;> exact ⟨rfl, rfl, rfl⟩
  obtain ⟨hu, hr, hb⟩ := htables
  have hmatch : unitsMatch (insertJournal w m now) m = true := by
    have hread := unitsMatch_of_read hheader hunits
    unfold unitsMatch unitsOf headersOf at hread ⊢
    rwa [hu, hr]
  have hsettled : isSettled (deleteUnits (insertJournal w m now) m).journal
      m.reservation.reservation_id = true := by
    unfold deleteUnits
    rw [if_pos hmatch]
    exact isSettled_insertJournal w m now
  unfold settleBatch deleteHeader
  rw [if_pos hsettled]
  unfold deleteUnits
  rw [if_pos hmatch]
  exact ⟨by rw [hu], by rw [hr], hb⟩

end Batch

theorem bookedUnits_book (w : World) (b : Booking) (now dimension : String) :
    bookedUnits (book w b now) dimension = bookedUnits w dimension + b.amount dimension := by
  unfold bookedUnits book Booking.amount
  by_cases h : b.dimension_key = dimension
  · subst h
    simp only [Function.update_self, Option.map_some, Option.getD_some, if_true]
    unfold bookedRow
    cases w.booked b.dimension_key PK <;> simp
  · simp only [if_neg h, Function.update_of_ne (Ne.symm h), Nat.add_zero]

theorem booked_book_of_ne (w : World) (b : Booking) (now dimension : String) {period : String}
    (h : period ≠ PK) : (book w b now).booked dimension period = w.booked dimension period := by
  unfold book
  by_cases hd : dimension = b.dimension_key
  · subst hd
    simp only [Function.update_self, Function.update_of_ne h]
  · simp only [Function.update_of_ne hd]

/-- The units of the rows, split by a property of the rows. -/
theorem sum_units_split (p : ReservedUnits → Bool) (dimension : String) (rows : List ReservedUnits) :
    (((rows.filter fun u => !p u).filter fun u => decide (u.dimension_key = dimension)).map (·.units)).sum +
      amount dimension ((rows.filter p).map fun u => ⟨u.dimension_key, u.units⟩) =
        ((rows.filter fun u => decide (u.dimension_key = dimension)).map (·.units)).sum := by
  induction rows with
  | nil => rfl
  | cons u rows ih =>
    by_cases hd : u.dimension_key = dimension
    · cases hp : p u with
      | true =>
        simp only [List.filter_cons, hp, hd, Bool.not_true, Bool.false_eq_true, if_false, if_true,
          decide_true, List.map_cons, List.sum_cons, amount_cons]
        omega
      | false =>
        simp only [List.filter_cons, hp, hd, Bool.not_false, Bool.false_eq_true, if_false, if_true,
          decide_true, List.map_cons, List.sum_cons]
        omega
    · cases hp : p u with
      | true =>
        simp only [List.filter_cons, hp, hd, Bool.not_true, Bool.false_eq_true, if_false, if_true,
          decide_false, List.map_cons, amount_cons, Nat.zero_add]
        exact ih
      | false =>
        simp only [List.filter_cons, hp, hd, Bool.not_false, Bool.false_eq_true, if_false, if_true,
          decide_false]
        exact ih

theorem amount_perm {l l' : List DimensionUnits} (h : l.Perm l') (dimension : String) :
    amount dimension l = amount dimension l' :=
  ((h.filter _).map _).sum_eq

/-! ## Every run -/

/-- A batch of the reservation. -/
def settles (reservationId : String) (k : SettleCall) : Bool :=
  match k.op with
  | .settle m => decide (m.reservation.reservation_id = reservationId)
  | _ => false

/-- What the batches and the bookings so far have made of the tables. -/
structure Accounted (w₀ : World) (c : Run) : Prop where
  live : ∀ dimension,
    liveUnits c.world dimension + (c.log.map (listedBy dimension)).sum = liveUnits w₀ dimension
  booked : ∀ dimension,
    bookedUnits c.world dimension = bookedUnits w₀ dimension + (c.log.map (bookedBy dimension)).sum
  others : ∀ dimension period, period ≠ PK → c.world.booked dimension period = w₀.booked dimension period
  deleted : ∃ p : ReservedUnits → Bool, c.world.units.rows = w₀.units.rows.filter p
  headers : ∀ r ∈ w₀.reservations, r ∉ c.world.reservations →
    ∀ u ∈ c.world.units, u.reservation_id ≠ r.reservation_id
  once : ∀ reservationId, (c.log.filter (settles reservationId)).length ≤ 1
  gone : ∀ reservationId, (∃ k ∈ c.log, settles reservationId k = true) →
    ∀ r ∈ c.world.reservations, r.reservation_id ≠ reservationId

theorem accounted_start (w : World) (s : ℕ → Program ℕ) : Accounted w (Config.start w s) where
  live _ := rfl
  booked _ := rfl
  others _ _ _ := rfl
  deleted := ⟨fun _ => true, (List.filter_true _).symm⟩
  headers _ hr hnot := absurd hr hnot
  once _ := by simp [Config.start]
  gone _ h := by simp [Config.start] at h

/-- A call that is no write changes nothing of the account. -/
theorem accounted_quiet {w₀ : World} {c : Run} {s : ℕ → Program ℕ} {k : SettleCall} (h : Accounted w₀ c)
    (hk : ¬ writes k.op) : Accounted w₀ ⟨c.world, s, k :: c.log⟩ := by
  have hlist : ∀ dimension, listedBy dimension k = 0 ∧ bookedBy dimension k = 0 := by
    intro dimension
    unfold listedBy bookedBy
    cases hop : k.op <;> simp_all [writes]
  have hsettles : ∀ reservationId, settles reservationId k = false := by
    intro reservationId
    unfold settles
    cases hop : k.op <;> simp_all [writes]
  refine ⟨fun d => ?_, fun d => ?_, h.others, h.deleted, h.headers, fun id => ?_, fun id hid => ?_⟩
  · simpa [(hlist d).1] using h.live d
  · simpa [(hlist d).2] using h.booked d
  · simpa [hsettles id] using h.once id
  · simp only [List.mem_cons, exists_eq_or_imp, hsettles id, Bool.false_eq_true, false_or] at hid
    exact h.gone id hid

theorem accounted_book {w₀ : World} {c : Run} {s : ℕ → Program ℕ} {t : ℕ} {ch : Choice} {b : Booking}
    {now : String} (h : Accounted w₀ c) :
    Accounted w₀ ⟨book c.world b now, s, ⟨t, .book b now, ch, c.world⟩ :: c.log⟩ := by
  refine ⟨fun d => ?_, fun d => ?_, fun d period hp => ?_, h.deleted, h.headers, fun id => ?_, fun id hid => ?_⟩
  · have hsame : liveUnits (book c.world b now) d = liveUnits c.world d := rfl
    simpa [listedBy, hsame] using h.live d
  · rw [bookedUnits_book, h.booked d, List.map_cons, List.sum_cons]
    simp only [bookedBy]
    omega
  · rw [booked_book_of_ne _ _ _ _ hp]
    exact h.others d period hp
  · simpa [settles] using h.once id
  · simp only [List.mem_cons, exists_eq_or_imp, settles, Bool.false_eq_true, false_or] at hid
    exact h.gone id hid

/-- The batch takes the units that it lists from those that are live. -/
theorem liveUnits_settleBatch {w : World} {m : Manifest} (now dimension : String)
    (hheader : ∃ r ∈ w.reservations, r.reservation_id = m.reservation.reservation_id)
    (hunits : ((unitsOf w m.reservation.reservation_id).map fun u =>
      (⟨u.dimension_key, u.units⟩ : DimensionUnits)).Perm m.units) :
    liveUnits (settleBatch w m now) dimension + amount dimension m.units = liveUnits w dimension := by
  have hsplit := sum_units_split (fun u => decide (u.reservation_id = m.reservation.reservation_id))
    dimension w.units.rows
  have hamount := amount_perm hunits dimension
  unfold unitsOf at hamount
  rw [hamount] at hsplit
  unfold liveUnits
  rw [(settleBatch_of_read now hheader hunits).1]
  exact hsplit

/-- A reservation whose header is there has not been settled. -/
theorem unsettled_of_header {w₀ : World} {c : Run} {r : Reservation} (h : Accounted w₀ c)
    (hr : r ∈ c.world.reservations) : c.log.filter (settles r.reservation_id) = [] := by
  refine List.filter_eq_nil_iff.2 fun k hk hsettles => ?_
  exact h.gone r.reservation_id ⟨k, hk, hsettles⟩ r hr rfl

theorem accounted_settle {w₀ : World} {c : Run} {s : ℕ → Program ℕ} {t : ℕ} {ch : Choice} {m : Manifest}
    {now : String} (h : Accounted w₀ c)
    (hheader : ∃ r ∈ c.world.reservations, r.reservation_id = m.reservation.reservation_id)
    (hunits : ((unitsOf c.world m.reservation.reservation_id).map fun u =>
      (⟨u.dimension_key, u.units⟩ : DimensionUnits)).Perm m.units) :
    Accounted w₀ ⟨settleBatch c.world m now, s, ⟨t, .settle m, ch, c.world⟩ :: c.log⟩ := by
  obtain ⟨hdelete, hreservations, hbooked⟩ := settleBatch_of_read now hheader hunits
  refine ⟨fun d => ?_, fun d => ?_, fun d period hp => ?_, ?_, fun r hr hnot u hu => ?_, fun id => ?_,
    fun id hid r hr => ?_⟩
  · have hlive := h.live d
    rw [← liveUnits_settleBatch now d hheader hunits] at hlive
    simp only [List.map_cons, List.sum_cons, listedBy]
    omega
  · have hb := h.booked d
    unfold bookedUnits at hb ⊢
    simpa [hbooked, bookedBy] using hb
  · rw [hbooked]
    exact h.others d period hp
  · obtain ⟨p, hp⟩ := h.deleted
    refine ⟨fun u => p u && !decide (u.reservation_id = m.reservation.reservation_id), ?_⟩
    simp only [hdelete, Table.deleteWhere, hp, List.filter_filter]
    exact List.filter_congr fun u _ => Bool.and_comm _ _
  · simp only [hdelete, Table.mem_deleteWhere] at hu
    simp only [hreservations, Table.mem_deleteWhere] at hnot
    by_cases hid : r.reservation_id = m.reservation.reservation_id
    · rw [hid]
      simpa using hu.2
    · refine h.headers r hr (fun hmem => hnot ⟨hmem, by simpa using hid⟩) u hu.1
  · rw [List.filter_cons]
    by_cases hid : m.reservation.reservation_id = id
    · obtain ⟨r, hr, hrid⟩ := hheader
      have hnone := unsettled_of_header h hr
      rw [hrid, hid] at hnone
      simp [settles, hid, hnone]
    · simpa [settles, hid] using h.once id
  · simp only [hreservations, Table.mem_deleteWhere] at hr
    obtain ⟨k, hk, hsettles⟩ := hid
    rcases List.mem_cons.1 hk with rfl | hk
    · have heq : m.reservation.reservation_id = id := by simpa [settles] using hsettles
      rw [← heq]
      simpa using hr.2
    · exact h.gone id ⟨k, hk, hsettles⟩ r hr.1

/-- The account is kept by every step of a clean run. -/
theorem accounted_exec (w : World) (s : ℕ → Program ℕ) (es : List (ℕ × Choice))
    (hclean : ∀ k ∈ (machine.exec (Config.start w s) es).log, Clean k) :
    Accounted w (machine.exec (Config.start w s) es) := by
  refine Machine.exec_induction (M := machine) (P := fun c : Run => (∀ k ∈ c.log, Clean k) → Accounted w c)
    (fun c e ih hstep => ?_) es (fun _ => accounted_start w s) hclean
  rcases Machine.step_cases (M := machine) c e with hs | ⟨op, next, hcall, hs⟩
  · rw [hs] at hstep ⊢
    exact ih hstep
  rw [hs] at hstep ⊢
  have hold := ih fun k hk => hstep k (List.mem_cons_of_mem _ hk)
  have hnew : Clean ⟨e.1, op, e.2, c.world⟩ := hstep _ List.mem_cons_self
  cases op with
  | settle m =>
    obtain ⟨hfault, hheader, hunits⟩ := hnew
    have hperform : machine.perform e.2 (.settle m) c.world = (.ok (), settleBatch c.world m e.2.now) := by
      have hfault : e.2.fault = .none := hfault
      simp [machine, perform, statement, hfault]
    rw [hperform]
    exact accounted_settle hold hheader hunits
  | book b now =>
    obtain ⟨hfault, hfits⟩ := hnew
    have hperform : machine.perform e.2 (.book b now) c.world = (.ok (), book c.world b now) := by
      have hfault : e.2.fault = .none := hfault
      have hfits : Fits c.world b := hfits
      simp [machine, perform, statement, hfault, hfits]
    rw [hperform]
    exact accounted_book hold
  | readReservations => exact accounted_quiet hold (by simp [writes])
  | readUnits => exact accounted_quiet hold (by simp [writes])
  | clock => exact accounted_quiet hold (by simp [writes])
  | countReservations => exact accounted_quiet hold (by simp [writes])
  | countUnits => exact accounted_quiet hold (by simp [writes])

/-! ## The runs together -/

/-- A sum over the calls is the sum over the calls of the threads. -/
theorem sum_threads (f : SettleCall → ℕ) (log : List SettleCall) (n : ℕ) :
    ((log.filter fun k => decide (k.thread < n + 1)).map f).sum =
      ((log.filter fun k => decide (k.thread < n)).map f).sum +
        ((log.filter fun k => decide (k.thread = n)).map f).sum := by
  induction log with
  | nil => rfl
  | cons k log ih =>
    simp only [List.filter_cons, decide_eq_true_eq]
    rcases lt_trichotomy k.thread n with hlt | heq | hgt
    · rw [if_pos (Nat.lt_succ_of_lt hlt), if_pos hlt, if_neg hlt.ne, List.map_cons, List.sum_cons, ih,
        List.map_cons, List.sum_cons, add_assoc]
    · rw [if_pos (by omega), if_neg (by omega), if_pos heq, List.map_cons, List.sum_cons, ih, List.map_cons,
        List.sum_cons, add_left_comm]
    · rw [if_neg (by omega), if_neg hgt.not_gt, if_neg hgt.ne', ih]

theorem exists_thread_bound (log : List SettleCall) : ∃ n, ∀ k ∈ log, k.thread < n := by
  induction log with
  | nil => exact ⟨0, List.forall_mem_nil _⟩
  | cons k log ih =>
    obtain ⟨n, hn⟩ := ih
    refine ⟨max n (k.thread + 1), List.forall_mem_cons.2 ⟨by omega, fun l hl => ?_⟩⟩
    exact (hn l hl).trans_le (le_max_left _ _)

/-- Where the calls of every thread balance, all calls do. -/
theorem balanced_of_threads {log : List SettleCall}
    (h : ∀ t, Balanced (log.filter fun k => decide (k.thread = t))) : Balanced log := by
  intro dimension
  have hbelow : ∀ n, ((log.filter fun k => decide (k.thread < n)).map (listedBy dimension)).sum =
      ((log.filter fun k => decide (k.thread < n)).map (bookedBy dimension)).sum := by
    intro n
    induction n with
    | zero => simp
    | succ n ih => rw [sum_threads, sum_threads, ih, h n dimension]
  obtain ⟨n, hn⟩ := exists_thread_bound log
  have hall : (log.filter fun k => decide (k.thread < n)) = log :=
    List.filter_eq_self.2 fun k hk => by simpa using hn k hk
  have hsum := hbelow n
  rwa [hall] at hsum

/-- The units of a dimension in the rows that are gone. -/
def deletedUnits (w w' : World) (dimension : String) : ℕ :=
  ((w.units.rows.filter fun u => decide (u.dimension_key = dimension) && decide (u ∉ w'.units.rows)).map
    (·.units)).sum

theorem live_add_deleted {w w' : World} (h : ∃ p : ReservedUnits → Bool, w'.units.rows = w.units.rows.filter p)
    (dimension : String) : liveUnits w' dimension + deletedUnits w w' dimension = liveUnits w dimension := by
  obtain ⟨p, hp⟩ := h
  have hgone : (w.units.rows.filter fun u => decide (u.dimension_key = dimension) &&
      decide (u ∉ w'.units.rows)) = (w.units.rows.filter fun u => decide (u.dimension_key = dimension)).filter
        fun u => !p u := by
    rw [List.filter_filter]
    refine List.filter_congr fun u hu => ?_
    have hmem : u ∈ w'.units.rows ↔ p u = true := by
      rw [hp, List.mem_filter]
      exact and_iff_right hu
    cases hpu : p u <;> simp [hmem, hpu]
  unfold liveUnits deletedUnits
  rw [hgone, hp, List.filter_comm, ← List.sum_append, ← List.map_append]
  exact ((List.filter_append_perm p _).map _).sum_eq

/-- What was deleted of the units has been booked, and no header is deleted that has units. -/
structure SettledExactlyOnce (w : World) (c : Run) : Prop where
  /-- Once all runs have ended. -/
  booked : (∀ t, (c.result? t).isSome) → ∀ dimension,
    bookedUnits c.world dimension = bookedUnits w dimension + deletedUnits w c.world dimension
  others : ∀ dimension period, period ≠ PK → c.world.booked dimension period = w.booked dimension period
  once : ∀ reservationId, (c.log.filter (settles reservationId)).length ≤ 1
  headers : ∀ r ∈ w.reservations, r ∉ c.world.reservations →
    ∀ u ∈ c.world.units, u.reservation_id ≠ r.reservation_id

/-- **Settlement once.** In every run of any number of settlements in which each batch finds its reservation
as it was read and no batch and no booking fails, the reservations are settled once, and when all runs have
ended the booked units have grown by exactly the units that were deleted. -/
theorem settles_exactly_once (w : World) (args : ℕ → Option Args) (es : List (ℕ × Choice))
    (hclean : ∀ k ∈ (settleRun w args es).log, Clean k) : SettledExactlyOnce w (settleRun w args es) := by
  have haccounted : Accounted w (settleRun w args es) := accounted_exec w _ es hclean
  refine ⟨fun hended dimension => ?_, haccounted.others, haccounted.once, haccounted.headers⟩
  have hbalanced : Balanced (settleRun w args es).log := by
    refine balanced_of_threads fun t => ?_
    obtain ⟨r, hr⟩ := Option.isSome_iff_exists.1 (hended t)
    have hcompletes := Machine.completes_exec es hr
    have hok : ∀ k ∈ ((settleRun w args es).trace t).reverse, Answered k := fun k hk =>
      answered_of_clean (hclean k (List.mem_of_mem_filter (List.mem_reverse.1 hk)))
    have hthread : Balanced ((settleRun w args es).trace t).reverse := by
      cases hargs : args t with
      | none =>
        rw [hargs] at hcompletes
        have hnil := (Machine.completes_halt.1 hcompletes).1
        exact balanced_of_quiet fun k hk => by
          rw [show ((settleRun w args es).trace t).reverse = [] from hnil] at hk
          cases hk
      | some a =>
        rw [hargs] at hcompletes
        exact balanced hcompletes hok
    intro dimension
    have hsum := hthread dimension
    rwa [List.map_reverse, List.map_reverse, List.sum_reverse, List.sum_reverse] at hsum
  have hlive := haccounted.live dimension
  have hdeleted := live_add_deleted haccounted.deleted dimension
  rw [haccounted.booked dimension, ← hbalanced dimension]
  omega

/-! ## Two runs of one reservation -/

/-- A reservation of five rows. -/
def orphanTables : World where
  reservations := ⟨[⟨"r1", "op1", "f1", "/route", "2026-10-01T00:00:00Z"⟩], by decide⟩
  units := ⟨[⟨"r1", "d1.rows_read", PK, 5⟩], by decide⟩
  journal := []
  booked _ _ := none

def steady : Choice := ⟨"2026-10-02T00:00:00Z", .none⟩

/-- A single run to its end: two reads, a batch, the clock, a booking and two counts. -/
def singleSchedule : List (ℕ × Choice) := List.replicate 7 (0, steady)

def singleArgs (t : ℕ) : Option Args := if t = 0 then some ⟨true, []⟩ else none

instance (k : SettleCall) : Decidable (Clean k) := by
  unfold Clean
  split <;> infer_instance

theorem settles_exactly_once_single :
    SettledExactlyOnce orphanTables (settleRun orphanTables singleArgs singleSchedule) :=
  settles_exactly_once orphanTables singleArgs singleSchedule (by decide)

/-- Two runs read the reservation before either settles it. -/
def racingSchedule : List (ℕ × Choice) :=
  List.replicate 2 (0, steady) ++ List.replicate 2 (1, steady) ++ List.replicate 5 (0, steady) ++
    List.replicate 5 (1, steady)

def racingArgs (t : ℕ) : Option Args := if t ≤ 1 then some ⟨true, []⟩ else none

/-- A thread that the schedule does not mention stays as it is. -/
theorem script_of_notMem {t : ℕ} (es : List (ℕ × Choice)) (c : Run) (h : ∀ e ∈ es, e.1 ≠ t) :
    (machine.exec c es).script t = c.script t := by
  induction es generalizing c with
  | nil => rfl
  | cons e es ih =>
    rw [Machine.exec_cons, ih _ fun e' he' => h e' (List.mem_cons_of_mem e he')]
    rcases Machine.step_cases (M := machine) c e with hs | ⟨op, next, -, hs⟩
    · rw [hs]
    · rw [hs]
      exact Function.update_of_ne (Ne.symm (h e List.mem_cons_self)) _ _

theorem racing_ended (t : ℕ) : ((settleRun orphanTables racingArgs racingSchedule).result? t).isSome := by
  match t with
  | 0 => decide
  | 1 => decide
  | t + 2 =>
    have hlow : ∀ e ∈ racingSchedule, e.1 ≤ 1 := by
      simp [racingSchedule, or_imp, forall_and]
    have hscript := script_of_notMem racingSchedule
      (Config.start orphanTables fun t => ((racingArgs t).map settleReservations).getD (pure 0))
      fun e he => (Nat.lt_of_le_of_lt (hlow e he) (by omega : 1 < t + 2)).ne
    unfold settleRun Config.result?
    rw [hscript]
    rfl

/-- Five units are deleted, and ten are booked. -/
theorem booked_twice :
    ¬ ∀ (w : World) (args : ℕ → Option Args) (es : List (ℕ × Choice)),
      SettledExactlyOnce w (settleRun w args es) := by
  intro h
  have hrun := (h orphanTables racingArgs racingSchedule).booked racing_ended "d1.rows_read"
  revert hrun
  decide

end QuantproCollector.QuotaSettlement
