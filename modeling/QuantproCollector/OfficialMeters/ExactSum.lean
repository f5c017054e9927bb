import Mathlib.Algebra.BigOperators.Group.List.Basic
import QuantproCollector.Lib.Fallible
import QuantproCollector.OfficialMeters.Reconcile

/-!
# What the reconcile writes

`Reported` are the values of a meter in its answer, where the answer has a list of groups with a number each.
`written_exact_iff` says of every run that writes when the written usage is their sum: a dataset that is
missing or null is written as 0, a truth value counts as 1, the fractions of row counts are dropped, floats
round, and the window of a period of more than 32 days is cut.
-/

namespace QuantproCollector.OfficialMeters

/-! ## What the meters report -/

/-- The dataset of an answer, where there is one. -/
def datasetOf (response : Response) (dataset : String) : Option Py :=
  match firstAccount response with
  | .ok (.dict fields) => fields.lookup dataset
  | _ => none

/-- The number that a value is: of a text, the one that it denotes. A truth value is none. -/
def number (ofText : String → Option ℚ) : Py → Option ℚ
  | .int n => some n
  | .float (.fin q) => some q
  | .str s => ofText s
  | _ => none

/-- The value of a field of the sum of a group. -/
def fieldOf (group : Py) (field : String) : Option Py :=
  match (do (← group.item "sum").item field : Result Py) with
  | .ok v => some v
  | .error _ => none

/-- The values of a meter, one for each group of its dataset. -/
def Reported (ofText : String → Option ℚ) (response : Response) (dataset field : String)
    (values : List ℚ) : Prop :=
  ∃ groups, datasetOf response dataset = some (.list groups) ∧
    List.Forall₂ (fun group v => (fieldOf group field).bind (number ofText) = some v) groups values

/-- The number of a text that `int` reads. -/
def intText (R : Runtime) (s : String) : Option ℚ :=
  match R.intOfText s with
  | some n => some (n : ℚ)
  | none => none

/-- The number of a text that `float` reads. -/
def floatText (R : Runtime) (s : String) : Option ℚ :=
  match R.floatOfText s with
  | some (.fin q) => some q
  | _ => none

/-- The row has the sum of the values, and is open exactly where it is at the threshold. -/
def ExactRow (row : Row) (values : List ℚ) : Prop :=
  row.current_usage = .fin values.sum ∧ (row.state = .OPEN ↔ (row.threshold_95 : ℚ) ≤ values.sum)

/-- The whole part of a number. -/
def whole (q : ℚ) : ℤ := Int.tdiv q.num q.den

section Values

variable {R : Runtime} {v : Py} {q : ℚ} {n : ℤ} {x : Double}

theorem whole_intCast (n : ℤ) : whole n = n := by
  simp [whole]

theorem raisedIfNone_eq_ok {α : Type} {o : Option α} {a : α} (h : raisedIfNone o = .ok a) : o = some a := by
  cases o with
  | none => cases h
  | some b =>
    cases h
    rfl

/-- `int` of a number is its whole part. -/
theorem pyInt_of_number (h : number (intText R) v = some q) (hn : pyInt R v = .ok n) : n = whole q := by
  cases v with
  | int m =>
    cases h
    cases hn
    exact (whole_intCast _).symm
  | float x =>
    cases x with
    | fin p =>
      cases h
      cases hn
      rfl
    | _ => cases h
  | str s =>
    replace hn := raisedIfNone_eq_ok hn
    replace h : intText R s = some q := h
    rw [intText, hn] at h
    cases h
    exact (whole_intCast _).symm
  | _ => cases h

end Values

/-! ## Rows -/

theorem open_meteredRow_iff (key : String) (threshold : ℕ) (q : ℚ) :
    (meteredRow key threshold (.fin q)).state = .OPEN ↔ (threshold : ℚ) ≤ q := by
  unfold meteredRow Double.ge
  by_cases h : (threshold : ℚ) ≤ q <;> simp [h]

/-- The state of a row follows from its usage. -/
theorem exactRow_meteredRow_iff (key : String) (threshold : ℕ) (usage : Double) (values : List ℚ) :
    ExactRow (meteredRow key threshold usage) values ↔ usage = .fin values.sum := by
  constructor
  · exact fun h => h.1
  · rintro rfl
    exact ⟨rfl, open_meteredRow_iff key threshold _⟩

/-! ## What a run that writes has read -/

section Reads

variable {R : Runtime} {inputs : Inputs} {rows : List Row} {period : Period} {d1 : D1Data} {ai : AiData}
  {response : Response} {start : Py} {finish dataset field : String} {group : Py} {day : Day}
  {hour : Py × Double} {groups : List Py} {values : List ℚ}

theorem attempt_eq_ok {α : Type} {r : Result α} {a : α} (h : attempt r = .ok (some a)) : r = .ok a := by
  cases r with
  | ok b =>
    cases h
    rfl
  | error e => cases e <;> cases h

theorem main_wrote (h : main R inputs = .wrote rows) : ∃ period d1 ai,
    fetch_workers_paid_period inputs.subscriptions = .ok period ∧
      fetch_d1_cycle R period.start (R.isoZ inputs.now) inputs.d1 = .ok d1 ∧
      fetch_ai_day R inputs.ai = .ok ai ∧ evaluate R d1 ai = some rows := by
  unfold main at h
  split_ifs at h
  split at h
  · cases h
  · rename_i period d1 ai vectorize hread
    obtain ⟨subscriptions, hsubscriptions, hread⟩ := Fallible.bind_eq_ok.1 hread
    obtain ⟨d1', hd1, hread⟩ := Fallible.bind_eq_ok.1 hread
    obtain ⟨ai', hai, hread⟩ := Fallible.bind_eq_ok.1 hread
    obtain ⟨vectorize', -, hread⟩ := Fallible.bind_eq_ok.1 hread
    cases hread
    refine ⟨period, d1, ai, attempt_eq_ok hsubscriptions, attempt_eq_ok hd1, attempt_eq_ok hai, ?_⟩
    unfold conclude upsert at h
    split at h
    · cases h
    · rename_i rows' hrows
      split_ifs at h
      cases h
      exact hrows
  · cases h

theorem evaluate_eq_some (h : evaluate R d1 ai = some rows) : ∃ read written,
    R.ofInt d1.rows_read = some read ∧ R.ofInt d1.rows_written = some written ∧
      rows = [meteredRow "ai.neurons" THRESHOLD_NEURONS (ai.total_neurons R),
        meteredRow "d1.rows_read" THRESHOLD_ROWS_READ read,
        meteredRow "d1.rows_written" THRESHOLD_ROWS_WRITTEN written,
        ⟨"vectorize.queried_dims", .CLOSED, .fin (-1), THRESHOLD_QUERIED_DIMS⟩] := by
  obtain ⟨read, hread, h⟩ := Option.bind_eq_some_iff.1 h
  obtain ⟨written, hwritten, h⟩ := Option.bind_eq_some_iff.1 h
  exact ⟨read, written, hread, hwritten, (Option.some.inj h).symm⟩

/-- The groups that a fetch goes through are the dataset of the answer, where that is a list. -/
theorem groups_of_dataset {account value : Py} (haccount : firstAccount response = .ok account)
    (hvalue : account.getOr dataset (.list []) = .ok value)
    (hdataset : datasetOf response dataset = some (.list groups)) : value.elements = .ok groups := by
  cases account with
  | dict fields =>
    simp only [datasetOf, haccount] at hdataset
    simp only [Py.getOr, Py.get, Except.map, hdataset, Py.truthy] at hvalue
    cases groups with
    | nil =>
      cases hvalue
      rfl
    | cons g groups =>
      cases hvalue
      rfl
  | _ => cases hvalue

theorem fetch_d1_eq_ok (h : fetch_d1_cycle R start finish response = .ok d1) :
    ∃ text startTime finishTime account value groups, start = .str text ∧ R.strptime text = some startTime ∧
      R.strptime finish = some finishTime ∧ firstAccount response = .ok account ∧
      account.getOr d1Dataset (.list []) = .ok value ∧ value.elements = .ok groups ∧
      groups.mapM (dayOf R) = .ok d1.days := by
  cases start with
  | str text =>
    obtain ⟨window, hwindow, h⟩ := Fallible.bind_eq_ok.1 h
    obtain ⟨account, haccount, h⟩ := Fallible.bind_eq_ok.1 h
    obtain ⟨value, hvalue, h⟩ := Fallible.bind_eq_ok.1 h
    obtain ⟨groups, hgroups, h⟩ := Fallible.bind_eq_ok.1 h
    obtain ⟨days, hdays, h⟩ := Fallible.bind_eq_ok.1 h
    obtain ⟨startTime, hstart, hwindow⟩ := Fallible.bind_eq_ok.1 hwindow
    obtain ⟨finishTime, hfinish, -⟩ := Fallible.bind_eq_ok.1 hwindow
    cases h
    exact ⟨text, startTime, finishTime, account, value, groups, rfl, raisedIfNone_eq_ok hstart,
      raisedIfNone_eq_ok hfinish, haccount, hvalue, hgroups, hdays⟩
  | _ => cases h

theorem fetch_ai_eq_ok (h : fetch_ai_day R response = .ok ai) : ∃ account value groups,
    firstAccount response = .ok account ∧ account.getOr aiDataset (.list []) = .ok value ∧
      value.elements = .ok groups ∧ groups.mapM (hourOf R) = .ok ai.hours := by
  obtain ⟨account, haccount, h⟩ := Fallible.bind_eq_ok.1 h
  obtain ⟨value, hvalue, h⟩ := Fallible.bind_eq_ok.1 h
  obtain ⟨groups, hgroups, h⟩ := Fallible.bind_eq_ok.1 h
  obtain ⟨hours, hhours, h⟩ := Fallible.bind_eq_ok.1 h
  cases h
  exact ⟨account, value, groups, haccount, hvalue, hgroups, hhours⟩

theorem fieldOf_eq_some {sum v : Py} (hsum : group.item "sum" = .ok sum) (hv : sum.item field = .ok v) :
    fieldOf group field = some v := by
  have hbind : (do (← group.item "sum").item field : Result Py) = .ok v :=
    Fallible.bind_eq_ok.2 ⟨sum, hsum, hv⟩
  rw [fieldOf, hbind]

theorem dayOf_eq_ok (h : dayOf R group = .ok day) :
    (∃ v, fieldOf group "rowsRead" = some v ∧ pyInt R v = .ok day.rows_read) ∧
      ∃ v, fieldOf group "rowsWritten" = some v ∧ pyInt R v = .ok day.rows_written := by
  obtain ⟨dimensions, -, h⟩ := Fallible.bind_eq_ok.1 h
  obtain ⟨date, -, h⟩ := Fallible.bind_eq_ok.1 h
  obtain ⟨sum, hsum, h⟩ := Fallible.bind_eq_ok.1 h
  obtain ⟨v, hv, h⟩ := Fallible.bind_eq_ok.1 h
  obtain ⟨rowsRead, hread, h⟩ := Fallible.bind_eq_ok.1 h
  obtain ⟨sum', hsum', h⟩ := Fallible.bind_eq_ok.1 h
  obtain ⟨v', hv', h⟩ := Fallible.bind_eq_ok.1 h
  obtain ⟨rowsWritten, hwritten, h⟩ := Fallible.bind_eq_ok.1 h
  cases h
  exact ⟨⟨v, fieldOf_eq_some hsum hv, hread⟩, v', fieldOf_eq_some hsum' hv', hwritten⟩

theorem hourOf_eq_ok (h : hourOf R group = .ok hour) :
    ∃ v, fieldOf group "totalNeurons" = some v ∧ pyFloat R v = .ok hour.2 := by
  obtain ⟨dimensions, -, h⟩ := Fallible.bind_eq_ok.1 h
  obtain ⟨name, -, h⟩ := Fallible.bind_eq_ok.1 h
  obtain ⟨sum, hsum, h⟩ := Fallible.bind_eq_ok.1 h
  obtain ⟨v, hv, h⟩ := Fallible.bind_eq_ok.1 h
  obtain ⟨neurons, hneurons, h⟩ := Fallible.bind_eq_ok.1 h
  cases h
  exact ⟨v, fieldOf_eq_some hsum hv, hneurons⟩

/-! ## Sums -/

/-- The whole parts of the reported values are what the days add up. -/
theorem sum_days (sel : Day → ℤ) (hsel : ∀ group day, dayOf R group = .ok day →
      ∃ v, fieldOf group field = some v ∧ pyInt R v = .ok (sel day))
    (hvalues : List.Forall₂ (fun group v => (fieldOf group field).bind (number (intText R)) = some v)
      groups values) {days : List Day} (hdays : groups.mapM (dayOf R) = .ok days) :
    (days.map sel).sum = (values.map whole).sum := by
  induction hvalues generalizing days with
  | nil =>
    cases hdays
    rfl
  | cons hvalue _ ih =>
    rw [List.mapM_cons] at hdays
    obtain ⟨day, hday, hdays⟩ := Fallible.bind_eq_ok.1 hdays
    obtain ⟨rest, hrest, hdays⟩ := Fallible.bind_eq_ok.1 hdays
    cases hdays
    obtain ⟨v, hv, hint⟩ := hsel _ _ hday
    rw [hv] at hvalue
    rw [List.map_cons, List.sum_cons, List.map_cons, List.sum_cons, ih hrest, pyInt_of_number hvalue hint]

/-- The hours have the floats of the values. -/
theorem floats_hours {hours : List (Py × Double)} (hhours : groups.mapM (hourOf R) = .ok hours) :
    List.Forall₂ (fun group x => ∃ v, fieldOf group "totalNeurons" = some v ∧ pyFloat R v = .ok x) groups
      (hours.map Prod.snd) := by
  induction groups generalizing hours with
  | nil =>
    cases hhours
    exact .nil
  | cons group groups ih =>
    rw [List.mapM_cons] at hhours
    obtain ⟨hour, hhour, hhours⟩ := Fallible.bind_eq_ok.1 hhours
    obtain ⟨rest, hrest, hhours⟩ := Fallible.bind_eq_ok.1 hhours
    cases hhours
    exact .cons (hourOf_eq_ok hhour) (ih hrest)

/-- A group has one float. -/
theorem floats_unique {xs ys : List Double}
    (hxs : List.Forall₂ (fun group x => ∃ v, fieldOf group field = some v ∧ pyFloat R v = .ok x) groups xs)
    (hys : List.Forall₂ (fun group x => ∃ v, fieldOf group field = some v ∧ pyFloat R v = .ok x) groups ys) :
    xs = ys := by
  induction hxs generalizing ys with
  | nil =>
    cases hys
    rfl
  | cons hx _ ih =>
    cases hys with
    | cons hy hys =>
      obtain ⟨v, hv, hvx⟩ := hx
      obtain ⟨v', hv', hvy⟩ := hy
      cases hv.symm.trans hv'
      cases hvx.symm.trans hvy
      rw [ih hys]

end Reads

/-! ## Exact rows -/

/-- The start of the period and the time of the run. -/
structure Window (R : Runtime) (inputs : Inputs) (start finish : ℤ) : Prop where
  period : ∃ period text, fetch_workers_paid_period inputs.subscriptions = .ok period ∧
    period.start = .str text ∧ R.strptime text = some start
  now : R.strptime (R.isoZ inputs.now) = some finish

/-- The row of a meter of D1 has the sum of the values that were reported for the whole period. -/
def D1Exact (R : Runtime) (inputs : Inputs) (rows : List Row) (field key : String) : Prop :=
  (∃ start finish, Window R inputs start finish ∧ queriedFrom start finish = start) ∧
    ∃ values, Reported (intText R) inputs.d1 d1Dataset field values ∧
      ∀ row ∈ rows, row.dimension_key = key → ExactRow row values

/-- The period started at most 32 days before the run, the dataset is a list with a number in each group, and
the float of the sum of their whole parts is their sum. -/
def D1Clean (R : Runtime) (inputs : Inputs) (field : String) : Prop :=
  (∃ start finish, Window R inputs start finish ∧ finish - start ≤ MAX_RANGE) ∧
    ∃ values, Reported (intText R) inputs.d1 d1Dataset field values ∧
      R.ofInt (values.map whole).sum = some (.fin values.sum)

/-- The row of the neurons has the sum of the values that were reported. -/
def AiExact (R : Runtime) (inputs : Inputs) (rows : List Row) : Prop :=
  ∃ values, Reported (floatText R) inputs.ai aiDataset "totalNeurons" values ∧
    ∀ row ∈ rows, row.dimension_key = "ai.neurons" → ExactRow row values

/-- The dataset is a list with a number in each group, and adding their floats gives their sum. -/
def AiClean (R : Runtime) (inputs : Inputs) : Prop :=
  ∃ values, Reported (floatText R) inputs.ai aiDataset "totalNeurons" values ∧
    ∃ groups xs, datasetOf inputs.ai aiDataset = some (.list groups) ∧
      List.Forall₂ (fun group x => ∃ v, fieldOf group "totalNeurons" = some v ∧ pyFloat R v = .ok x)
        groups xs ∧ R.sum xs = .fin values.sum

section Exact

variable {R : Runtime} {inputs : Inputs} {rows : List Row} {period : Period} {d1 : D1Data} {ai : AiData}
  {field key : String} {usage : Double} {start finish : ℤ} (threshold : ℕ)

theorem queriedFrom_eq_iff : queriedFrom start finish = start ↔ finish - start ≤ MAX_RANGE := by
  unfold queriedFrom
  split_ifs with h
  · constructor
    · intro heq
      omega
    · intro hle
      omega
  · exact ⟨fun _ => not_lt.1 h, fun _ => rfl⟩

/-- One row with the key of a meter, and what its usage has to be. -/
theorem exactRows_iff (hrow : ∀ row ∈ rows, row.dimension_key = key → row = meteredRow key threshold usage)
    (hmem : meteredRow key threshold usage ∈ rows) (values : List ℚ) :
    (∀ row ∈ rows, row.dimension_key = key → ExactRow row values) ↔ usage = .fin values.sum := by
  rw [← exactRow_meteredRow_iff key threshold]
  constructor
  · exact fun h => h _ hmem rfl
  · intro h row hr hkey
    rw [hrow row hr hkey]
    exact h

theorem d1Exact_iff (sel : Day → ℤ) (hsel : ∀ group day, dayOf R group = .ok day →
      ∃ v, fieldOf group field = some v ∧ pyInt R v = .ok (sel day))
    (hd1 : fetch_d1_cycle R period.start (R.isoZ inputs.now) inputs.d1 = .ok d1)
    (husage : R.ofInt (d1.days.map sel).sum = some usage)
    (hrow : ∀ row ∈ rows, row.dimension_key = key → row = meteredRow key threshold usage)
    (hmem : meteredRow key threshold usage ∈ rows) :
    D1Exact R inputs rows field key ↔ D1Clean R inputs field := by
  obtain ⟨text, startTime, finishTime, account, value, groups, -, -, -, haccount, hvalue, hgroups, hdays⟩ :=
    fetch_d1_eq_ok hd1
  unfold D1Exact D1Clean
  refine and_congr ?_ (exists_congr fun values => and_congr_right fun hreported => ?_)
  · simp only [queriedFrom_eq_iff]
  · obtain ⟨groups', hdataset, hvalues⟩ := hreported
    cases hgroups.symm.trans (groups_of_dataset haccount hvalue hdataset)
    rw [exactRows_iff threshold hrow hmem, ← sum_days sel hsel hvalues hdays, husage, Option.some.injEq]

theorem aiExact_iff (hai : fetch_ai_day R inputs.ai = .ok ai)
    (hrow : ∀ row ∈ rows, row.dimension_key = "ai.neurons" →
      row = meteredRow "ai.neurons" threshold (ai.total_neurons R))
    (hmem : meteredRow "ai.neurons" threshold (ai.total_neurons R) ∈ rows) :
    AiExact R inputs rows ↔ AiClean R inputs := by
  obtain ⟨account, value, groups, haccount, hvalue, hgroups, hhours⟩ := fetch_ai_eq_ok hai
  have hfloats := floats_hours hhours
  refine exists_congr fun values => and_congr_right fun hreported => ?_
  obtain ⟨groups', hdataset, -⟩ := hreported
  cases hgroups.symm.trans (groups_of_dataset haccount hvalue hdataset)
  rw [exactRows_iff threshold hrow hmem]
  constructor
  · exact fun h => ⟨groups, _, hdataset, hfloats, h⟩
  · rintro ⟨groups'', xs, hdataset', hxs, hsum⟩
    cases hdataset.symm.trans hdataset'
    rw [floats_unique hxs hfloats] at hsum
    exact hsum

end Exact

/-- **What is written.** Of a run that writes, each metered row has the exact sum of what its meter reported
for the whole window, and is open exactly at the threshold, if and only if the answers are clean. -/
theorem written_exact_iff (R : Runtime) (inputs : Inputs) (rows : List Row)
    (h : main R inputs = .wrote rows) :
    (D1Exact R inputs rows "rowsRead" "d1.rows_read" ↔ D1Clean R inputs "rowsRead") ∧
      (D1Exact R inputs rows "rowsWritten" "d1.rows_written" ↔ D1Clean R inputs "rowsWritten") ∧
      (AiExact R inputs rows ↔ AiClean R inputs) := by
  obtain ⟨period, d1, ai, -, hd1, hai, hevaluate⟩ := main_wrote h
  obtain ⟨read, written, hread, hwritten, rfl⟩ := evaluate_eq_some hevaluate
  refine ⟨d1Exact_iff THRESHOLD_ROWS_READ Day.rows_read (fun _ _ hday => (dayOf_eq_ok hday).1) hd1 hread
      ?_ (by simp),
    d1Exact_iff THRESHOLD_ROWS_WRITTEN Day.rows_written (fun _ _ hday => (dayOf_eq_ok hday).2) hd1 hwritten
      ?_ (by simp),
    aiExact_iff THRESHOLD_NEURONS hai ?_ (by simp)⟩
  · simp [meteredRow]
  · simp [meteredRow]
  · simp [meteredRow]

/-! ## A null dataset -/

/-- The floats of small integers, and the times of two texts. -/
def smallRuntime : Runtime where
  ofInt n := some (.fin n)
  sum xs := .fin (xs.map fun x => match x with
    | .fin q => q
    | _ => 0).sum
  intOfText _ := none
  floatOfText _ := none
  strptime text :=
    if text = "2026-10-01T00:00:00Z" then some 1790812800
    else if text = "2026-10-16T00:00:00Z" then some 1792108800
    else none
  isoZ _ := "2026-10-16T00:00:00Z"

def graphqlAnswer (account : List (String × Py)) : Response :=
  .ok (.dict [("data", .dict [("viewer", .dict [("accounts", .list [.dict account])])])])

def subscriptionAnswer : Response :=
  .ok (.dict [("result", .list [.dict [("product", .dict [("name", .str "prod_workers")]),
    ("rate_plan", .dict [("id", .str "workers_paid")]), ("current_period_start", .str "2026-10-01T00:00:00Z"),
    ("current_period_end", .str "2026-11-01T00:00:00Z")]])])

def vectorizeAnswer : Response :=
  .ok (.dict [("success", .bool true), ("result", .dict [("dimensions", .int 1024), ("vectorCount", .int 7),
    ("processedUpToDatetime", .null)])])

def hourGroups : Py :=
  .list [.dict [("dimensions", .dict [("datetimeHour", .str "2026-10-16T00:00:00Z")]),
    ("sum", .dict [("totalNeurons", .float (.fin (1 / 2)))])]]

def dayGroups : Py :=
  .list [.dict [("dimensions", .dict [("date", .str "2026-10-01")]),
    ("sum", .dict [("rowsRead", .int 3), ("rowsWritten", .int 2)])]]

def answeredInputs (d1Account : List (String × Py)) : Inputs where
  token := true
  dryRun := false
  now := 1792108800
  subscriptions := subscriptionAnswer
  d1 := graphqlAnswer d1Account
  ai := graphqlAnswer [(aiDataset, hourGroups)]
  vectorize := vectorizeAnswer
  d1Writes := true

def writtenRows (read written : ℚ) : List Row :=
  [⟨"ai.neurons", .CLOSED, .fin (1 / 2), 9500⟩, ⟨"d1.rows_read", .CLOSED, .fin read, 23750000000⟩,
    ⟨"d1.rows_written", .CLOSED, .fin written, 47500000⟩,
    ⟨"vectorize.queried_dims", .CLOSED, .fin (-1), 28500000⟩]

theorem written_exact_iff_answered :
    (D1Exact smallRuntime (answeredInputs [(d1Dataset, dayGroups)]) (writtenRows 3 2) "rowsRead"
        "d1.rows_read" ↔ D1Clean smallRuntime (answeredInputs [(d1Dataset, dayGroups)]) "rowsRead") ∧
      (D1Exact smallRuntime (answeredInputs [(d1Dataset, dayGroups)]) (writtenRows 3 2) "rowsWritten"
        "d1.rows_written" ↔ D1Clean smallRuntime (answeredInputs [(d1Dataset, dayGroups)]) "rowsWritten") ∧
      (AiExact smallRuntime (answeredInputs [(d1Dataset, dayGroups)]) (writtenRows 3 2) ↔
        AiClean smallRuntime (answeredInputs [(d1Dataset, dayGroups)])) :=
  written_exact_iff smallRuntime (answeredInputs [(d1Dataset, dayGroups)]) (writtenRows 3 2)
    (by decide +kernel)

/-- A dataset that is null, and one that is missing, are written as 0. -/
theorem null_written_as_zero :
    main smallRuntime (answeredInputs [(d1Dataset, .null)]) = .wrote (writtenRows 0 0) ∧
      main smallRuntime (answeredInputs []) = .wrote (writtenRows 0 0) ∧
      ¬ D1Exact smallRuntime (answeredInputs [(d1Dataset, .null)]) (writtenRows 0 0) "rowsRead"
        "d1.rows_read" ∧
      ¬ D1Exact smallRuntime (answeredInputs []) (writtenRows 0 0) "rowsRead" "d1.rows_read" := by
  refine ⟨by decide +kernel, by decide +kernel, ?_, ?_⟩
  · rintro ⟨-, values, ⟨groups, hdataset, -⟩, -⟩
    cases hdataset
  · rintro ⟨-, values, ⟨groups, hdataset, -⟩, -⟩
    cases hdataset

end QuantproCollector.OfficialMeters
