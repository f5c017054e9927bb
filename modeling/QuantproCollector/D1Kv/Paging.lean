import QuantproCollector.Lib.Keyset
import QuantproCollector.Lib.LastSorted
import QuantproCollector.Lib.Table
import QuantproCollector.Platform
import Mathlib.Data.List.TakeWhile
import Mathlib.Data.Rat.Floor
import Mathlib.Data.String.Basic

/-!
# Paging through a key-value table

`list` of the adapter over D1: the live keys from the prefix up to the prefix and `U+FFFF`, in key order,
a page at a time, the cursor being how many keys the pages before had. Between two pages keys are deleted
and expire.

* `mem_keyRange`: the range has the keys with the prefix of which the next character is below `U+FFFF`.
* `following_step`: a page, a deletion and a wait keep that the pages so far are the first keys of the
  listing, where no key before the cursor goes.
* `paging_complete`: a run of such steps returns every key of the range that stays, once.
-/

namespace QuantproCollector.D1Kv

open Relational

/-! ## The table and the listing -/

/-- A row of a table of the adapter. -/
structure KvRow where
  kv_key : String
  value : String
  expires_at : Option ℤ
deriving DecidableEq

abbrev World := Table KvRow String [fun r => some r.kv_key]

structure KvListOptions where
  pre : Option String
  /-- `none` also where it is not finite. -/
  limit : Option ℚ
  cursor : Option String

def DEFAULT_LIST_LIMIT : ℤ := 1000

def MAX_LIST_LIMIT : ℤ := 1000

def MAX_SAFE_INTEGER : ℕ := 9007199254740991

/-- `Number.parseInt(text, 10)`, or `none` where it is `NaN` or negative. -/
def parseInt (text : String) : Option ℕ :=
  let read (ds : List Char) : Option ℕ :=
    let ds := ds.takeWhile Char.isDigit
    if ds = [] then none else some (Nat.ofDigitChars 10 ds 0)
  match text.toList.dropWhile isSpace with
  | '-' :: rest => (read rest).filter (· = 0)
  | '+' :: rest => read rest
  | rest => read rest

def cursorOffset (cursor : Option String) : ℕ :=
  match cursor with
  | none => 0
  | some text =>
    match parseInt text with
    | some parsed => if parsed ≤ MAX_SAFE_INTEGER then parsed else 0
    | none => 0

def listLimit (limit : Option ℚ) : ℕ :=
  match limit with
  | none => DEFAULT_LIST_LIMIT.toNat
  | some limit => (max 1 (min MAX_LIST_LIMIT limit.floor)).toNat

def prefixUpperBound (pre : String) : String := pre ++ "\uffff"

/-- `kv_key >= ?1 AND kv_key < ?2`. -/
def keyRange (pre key : String) : Bool :=
  decide (pre ≤ key) && decide (key < prefixUpperBound pre)

/-- `expires_at IS NULL OR expires_at > ?3`. -/
def KvRow.live (now : ℤ) (row : KvRow) : Bool :=
  match row.expires_at with
  | none => true
  | some expires_at => decide (now < expires_at)

/-- The rows of the listing, in key order. -/
def listing (w : World) (pre : String) (now : ℤ) : List KvRow :=
  Keyset.ordered KvRow.kv_key (w.rows.filter fun row => keyRange pre row.kv_key && row.live now)

structure ListedKey where
  name : String
  expiration : Option ℤ
deriving DecidableEq

structure ListAnswer where
  keys : List ListedKey
  list_complete : Bool
  cursor : Option String
deriving DecidableEq

def list (w : World) (now : ℤ) (options : KvListOptions) : ListAnswer :=
  let limit := listLimit options.limit
  let offset := cursorOffset options.cursor
  let results := ((listing w (options.pre.getD "") now).drop offset).take (limit + 1)
  let visible := results.take limit
  let listComplete := decide (results.length ≤ limit)
  { keys := visible.map fun row => ⟨row.kv_key, row.expires_at⟩
    list_complete := listComplete
    cursor := if listComplete then none else some (toString (offset + limit)) }

def delete (w : World) (key : String) : World :=
  w.deleteWhere fun row => decide (row.kv_key = key)

/-! ## Paging -/

/-- A key that a page returned, with the time of the page. -/
structure ReturnedKey where
  key : ListedKey
  at_ : ℤ
deriving DecidableEq

/-- The table, the clock, and what the caller has: the cursor, whether the listing is complete, and the
keys so far. -/
structure Paging where
  world : World
  now : ℤ
  cursor : Option String
  complete : Bool
  returned : List ReturnedKey

inductive Event where
  | page
  | delete (key : String)
  | wait (seconds : ℕ)
deriving DecidableEq

variable (pre : Option String) (limit : Option ℚ)

def step (s : Paging) : Event → Paging
  | .page =>
    if s.complete then s
    else
      let answer := list s.world s.now ⟨pre, limit, s.cursor⟩
      { s with
        cursor := answer.cursor
        complete := answer.list_complete
        returned := s.returned ++ answer.keys.map fun key => ⟨key, s.now⟩ }
  | .delete key => { s with world := D1Kv.delete s.world key }
  | .wait seconds => { s with now := s.now + seconds }

def run (s : Paging) (events : List Event) : Paging :=
  events.foldl (step pre limit) s

/-- Before the first page. -/
def Paging.start (w : World) (now : ℤ) : Paging := ⟨w, now, none, false, []⟩

/-- The listing as it is now. -/
def Paging.listing (s : Paging) : List KvRow := D1Kv.listing s.world (pre.getD "") s.now

/-- The keys that are before the cursor stay. -/
def Spares (s : Paging) (e : Event) : Prop :=
  ∀ row ∈ (s.listing pre).take (cursorOffset s.cursor), row ∈ (step pre limit s e).listing pre

/-- Every step of the run spares the keys before the cursor, as long as the listing is incomplete. -/
def Sparing : Paging → List Event → Prop
  | _, [] => True
  | s, e :: events => (s.complete = false → Spares pre limit s e) ∧ Sparing (step pre limit s e) events

/-- The character after the prefix, where there is one, is below `U+FFFF`. -/
def NextBelow (pre key : String) : Prop :=
  ∀ c ∈ (key.toList.drop pre.toList.length).head?, c < '\uffff'

/-! ## The range of a prefix -/

theorem range_append {q : List Char} {c : Char} {l : List Char} :
    (¬ l < q ∧ l < q ++ [c]) ↔ q <+: l ∧ ∀ d ∈ (l.drop q.length).head?, d < c := by
  induction q generalizing l with
  | nil =>
    cases l with
    | nil => simp
    | cons a l => simp [List.cons_lt_cons_iff]
  | cons a q ih =>
    cases l with
    | nil => simp
    | cons b l =>
      simp only [List.cons_append, List.cons_lt_cons_iff, List.cons_prefix_cons, List.length_cons,
        List.drop_succ_cons]
      rcases lt_trichotomy a b with hlt | rfl | hgt
      · simp [hlt.not_gt, hlt.ne, hlt.ne']
      · simpa using ih
      · simp [hgt, hgt.ne']

/-- The range has the keys with the prefix of which the next character is below the bound's. -/
theorem mem_keyRange {q key : String} :
    keyRange q key = true ↔ q.toList <+: key.toList ∧ NextBelow q key := by
  unfold keyRange prefixUpperBound
  rw [Bool.and_eq_true, decide_eq_true_eq, decide_eq_true_eq, ← not_lt, String.lt_iff_toList_lt,
    String.lt_iff_toList_lt, String.toList_append]
  exact range_append

/-! ## Cursors -/

theorem not_isSpace_of_isDigit {c : Char} (h : c.isDigit = true) : isSpace c = false := by
  have hrange : 48 ≤ c.toNat ∧ c.toNat ≤ 57 := by
    simp only [Char.isDigit, Bool.and_eq_true, decide_eq_true_eq] at h
    exact h
  unfold isSpace
  simp only [List.contains_eq_mem, Bool.or_eq_false_iff, Bool.and_eq_false_iff, decide_eq_false_iff_not]
  refine ⟨?_, ?_⟩
  · simp only [List.mem_cons, List.not_mem_nil, or_false]
    omega
  · omega

theorem cursorOffset_toString {n : ℕ} (h : n ≤ MAX_SAFE_INTEGER) :
    cursorOffset (some (toString n)) = n := by
  have hdigit : ∀ c ∈ Nat.toDigits 10 n, c.isDigit = true := fun c hc =>
    Nat.isDigit_of_mem_toDigits (by decide) (by decide) hc
  have hne : Nat.toDigits 10 n ≠ [] := Nat.toDigits_ne_nil
  have htext : (toString n).toList = Nat.toDigits 10 n := by simp
  have hparse : parseInt (toString n) = some n := by
    have hvalue : Nat.ofDigitChars 10 (Nat.toDigits 10 n) 0 = n := Nat.ofDigitChars_ten_toDigits
    unfold parseInt
    rw [htext]
    generalize Nat.toDigits 10 n = ds at hdigit hne hvalue
    obtain ⟨d, ds, rfl⟩ := List.exists_cons_of_ne_nil hne
    have hd := hdigit d List.mem_cons_self
    have hminus : d ≠ '-' := by
      rintro rfl
      revert hd
      decide
    have hplus : d ≠ '+' := by
      rintro rfl
      revert hd
      decide
    have htake : (d :: ds).takeWhile Char.isDigit = d :: ds := by
      exact List.takeWhile_eq_self_iff.2 hdigit
    rw [List.dropWhile_cons_of_neg (by simp [not_isSpace_of_isDigit hd])]
    simp [hminus, hplus, htake, hvalue]
  simp only [cursorOffset, hparse, if_pos h]

/-! ## One step -/

section Steps

variable {pre limit} {s : Paging} {e : Event} {events : List Event}

theorem one_le_listLimit (limit : Option ℚ) : 1 ≤ listLimit limit := by
  unfold listLimit
  split
  · decide
  · omega

theorem mem_listing {w : World} {q : String} {now : ℤ} {row : KvRow} :
    row ∈ listing w q now ↔ row ∈ w ∧ keyRange q row.kv_key = true ∧ row.live now = true := by
  simp [listing, Table.mem_rows]

theorem strict_listing (w : World) (q : String) (now : ℤ) :
    (listing w q now).Pairwise fun a b => a.kv_key < b.kv_key := by
  refine Keyset.strict_ordered ?_
  refine List.pairwise_map.2 (List.Pairwise.filter _ ?_)
  refine (w.unique _ (List.mem_singleton_self _)).imp fun h hkey => ?_
  exact h (by simp) (by rw [hkey])

/-- The steps of others only take rows out of the listing. -/
theorem listing_step (pre : Option String) (limit : Option ℚ) (s : Paging) (e : Event) :
    ∃ p : KvRow → Bool, (step pre limit s e).listing pre = (s.listing pre).filter p := by
  have hsub : ∀ (rows : List KvRow) (p : KvRow → Bool),
      Keyset.ordered KvRow.kv_key (rows.filter p) = (Keyset.ordered KvRow.kv_key rows).filter p :=
    fun rows p => (List.filter_insertionSort (r := fun a b : KvRow => a.kv_key ≤ b.kv_key)
      (fun _ _ => le_total _ _) fun _ _ _ => le_trans).symm
  cases e with
  | page =>
    refine ⟨fun _ => true, ?_⟩
    rw [List.filter_true]
    simp only [step]
    split <;> rfl
  | delete key =>
    refine ⟨fun row => !decide (row.kv_key = key), ?_⟩
    simp only [Paging.listing, listing, step, D1Kv.delete, Table.deleteWhere]
    rw [← hsub, List.filter_comm]
  | wait seconds =>
    refine ⟨fun row => row.live (s.now + seconds), ?_⟩
    simp only [Paging.listing, listing, step]
    rw [← hsub, List.filter_filter]
    congr 1
    refine List.filter_congr fun row _ => ?_
    have hlive : row.live (s.now + seconds) = true → row.live s.now = true := by
      unfold KvRow.live
      split
      · exact fun _ => rfl
      · simp only [decide_eq_true_eq]
        omega
    cases hnow : row.live s.now with
    | true => simp [Bool.and_comm]
    | false =>
      have hlater : row.live (s.now + seconds) = false := by
        by_contra hne
        rw [hlive (by simpa using hne)] at hnow
        cases hnow
      simp [hlater]

/-- The first elements stay the first where none of them is taken out. -/
theorem take_filter {α : Type} {l : List α} {p : α → Bool} {n : ℕ} (hn : n ≤ l.length)
    (h : ∀ a ∈ l.take n, p a = true) : (l.filter p).take n = l.take n := by
  calc (l.filter p).take n = ((l.take n ++ l.drop n).filter p).take n := by rw [List.take_append_drop]
    _ = (l.take n ++ (l.drop n).filter p).take n := by
      rw [List.filter_append, List.filter_eq_self.2 h]
    _ = l.take n := List.take_left' (List.length_take_of_le hn)

/-- What the caller has so far: while the listing is incomplete, the keys before the cursor, and then
every key that is still listed. -/
structure Following (pre : Option String) (s : Paging) (pages : ℕ) : Prop where
  prefixed : ∀ r ∈ s.returned, (pre.getD "").toList <+: r.key.name.toList
  live : ∀ r ∈ s.returned, ∀ expires_at ∈ r.key.expiration, r.at_ < expires_at
  nodup : (s.returned.map (·.key.name)).Nodup
  small : s.world.rows.length ≤ MAX_SAFE_INTEGER
  before : s.complete = false →
    s.returned.map (·.key.name) = ((s.listing pre).take (cursorOffset s.cursor)).map KvRow.kv_key
  within : s.complete = false → cursorOffset s.cursor ≤ (s.listing pre).length
  pages_le : s.complete = false → pages ≤ cursorOffset s.cursor
  all : s.complete = true → ∀ row ∈ s.listing pre, row.kv_key ∈ s.returned.map (·.key.name)

theorem following_start (pre : Option String) {w : World} (now : ℤ) (h : w.rows.length ≤ MAX_SAFE_INTEGER) :
    Following pre (Paging.start w now) 0 where
  prefixed := by simp [Paging.start]
  live := by simp [Paging.start]
  nodup := .nil
  small := h
  before _ := rfl
  within _ := Nat.zero_le _
  pages_le _ := le_rfl
  all h := by cases h

theorem length_listing_le (pre : Option String) (s : Paging) : (s.listing pre).length ≤ s.world.rows.length := by
  unfold Paging.listing listing
  rw [Keyset.length_ordered]
  exact List.length_filter_le _ _

/-- A deletion or a wait that spares the keys before the cursor. -/
theorem following_other {pages : ℕ} (h : Following pre s pages) (he : e ≠ .page)
    (hspares : s.complete = false → Spares pre limit s e) :
    Following pre (step pre limit s e) pages := by
  obtain ⟨p, hp⟩ := listing_step pre limit s e
  have hcaller : (step pre limit s e).returned = s.returned ∧ (step pre limit s e).cursor = s.cursor ∧
      (step pre limit s e).complete = s.complete ∧
        (step pre limit s e).world.rows.length ≤ s.world.rows.length := by
    cases e with
    | page => exact absurd rfl he
    | delete key => exact ⟨rfl, rfl, rfl, List.length_filter_le _ _⟩
    | wait seconds => exact ⟨rfl, rfl, rfl, le_rfl⟩
  obtain ⟨hreturned, hcursor, hcomplete, hlength⟩ := hcaller
  have hkept : s.complete = false → ∀ row ∈ (s.listing pre).take (cursorOffset s.cursor), p row = true := by
    intro hfalse row hrow
    have hmem := hspares hfalse row hrow
    rw [hp] at hmem
    exact (List.mem_filter.1 hmem).2
  have htake : s.complete = false → ((s.listing pre).filter p).take (cursorOffset s.cursor) =
      (s.listing pre).take (cursorOffset s.cursor) :=
    fun hfalse => take_filter (h.within hfalse) (hkept hfalse)
  refine
    { prefixed := by rw [hreturned]; exact h.prefixed
      live := by rw [hreturned]; exact h.live
      nodup := by rw [hreturned]; exact h.nodup
      small := hlength.trans h.small
      before := ?_
      within := ?_
      pages_le := ?_
      all := ?_ }
  · rw [hcomplete, hreturned, hcursor, hp]
    exact fun hfalse => (h.before hfalse).trans (by rw [htake hfalse])
  · rw [hcomplete, hcursor, hp]
    intro hfalse
    have hle := List.length_take_le' (cursorOffset s.cursor) ((s.listing pre).filter p)
    rw [htake hfalse, List.length_take_of_le (h.within hfalse)] at hle
    exact hle
  · rw [hcomplete, hcursor]
    exact h.pages_le
  · rw [hcomplete, hreturned, hp]
    exact fun htrue row hrow => h.all htrue row (List.mem_filter.1 hrow).1

/-- The rows of a page. -/
def pageRows (pre : Option String) (limit : Option ℚ) (s : Paging) : List KvRow :=
  ((s.listing pre).drop (cursorOffset s.cursor)).take (listLimit limit)

/-- A page: the rows after the cursor, and the next cursor where there are more. -/
theorem step_page (hcomplete : s.complete = false) :
    step pre limit s .page =
      let next := cursorOffset s.cursor + listLimit limit
      let more := decide (next < (s.listing pre).length)
      { s with
        cursor := if more then some (toString next) else none
        complete := !more
        returned := s.returned ++
          (pageRows pre limit s).map fun row => ⟨⟨row.kv_key, row.expires_at⟩, s.now⟩ } := by
  simp only [step, hcomplete, Bool.false_eq_true, if_false, list, pageRows]
  by_cases hmore : cursorOffset s.cursor + listLimit limit < (s.listing pre).length
  · have hmore' := hmore
    simp only [Paging.listing] at hmore'
    simp [Paging.listing, hmore', List.take_take, Function.comp_def]
    omega
  · have hmore' := hmore
    simp only [Paging.listing] at hmore'
    simp [Paging.listing, hmore', List.take_take, Function.comp_def]
    omega

theorem mem_pageRows {row : KvRow} (h : row ∈ pageRows pre limit s) :
    keyRange (pre.getD "") row.kv_key = true ∧ row.live s.now = true :=
  (mem_listing.1 (List.mem_of_mem_drop (List.mem_of_mem_take h))).2

/-- A page extends the keys before the cursor to those before the next cursor. -/
theorem names_page (hcomplete : s.complete = false)
    (hbefore : s.returned.map (·.key.name) =
      ((s.listing pre).take (cursorOffset s.cursor)).map KvRow.kv_key) :
    (step pre limit s .page).returned.map (·.key.name) =
      ((s.listing pre).take (cursorOffset s.cursor + listLimit limit)).map KvRow.kv_key := by
  rw [step_page hcomplete, List.map_append, hbefore, List.map_map, List.take_add, List.map_append]
  rfl

/-- An incomplete page has more rows after it, and its cursor counts the rows up to there. -/
theorem cursor_page (hcomplete : s.complete = false) (hsmall : s.world.rows.length ≤ MAX_SAFE_INTEGER)
    (h : (step pre limit s .page).complete = false) :
    cursorOffset s.cursor + listLimit limit < (s.listing pre).length ∧
      cursorOffset (step pre limit s .page).cursor = cursorOffset s.cursor + listLimit limit := by
  rw [step_page hcomplete] at h ⊢
  have hmore : cursorOffset s.cursor + listLimit limit < (s.listing pre).length := by
    simpa using h
  refine ⟨hmore, ?_⟩
  simp only [hmore, decide_true, if_true]
  exact cursorOffset_toString (hmore.le.trans ((length_listing_le pre s).trans hsmall))

/-- The last page reaches the end of the listing. -/
theorem last_page (hcomplete : s.complete = false) (h : (step pre limit s .page).complete = true) :
    (s.listing pre).length ≤ cursorOffset s.cursor + listLimit limit := by
  rw [step_page hcomplete] at h
  simpa using h

theorem listing_page (hcomplete : s.complete = false) :
    (step pre limit s .page).listing pre = s.listing pre := by
  rw [step_page hcomplete]
  rfl

theorem following_page {pages : ℕ} (h : Following pre s pages) :
    Following pre (step pre limit s .page) (pages + 1) := by
  cases hcomplete : s.complete with
  | true =>
    have hstep : step pre limit s .page = s := by simp [step, hcomplete]
    have hnot : s.complete ≠ false := by simp [hcomplete]
    rw [hstep]
    exact ⟨h.prefixed, h.live, h.nodup, h.small, fun hfalse => absurd hfalse hnot,
      fun hfalse => absurd hfalse hnot, fun hfalse => absurd hfalse hnot, h.all⟩
  | false =>
    have hnames : (step pre limit s .page).returned.map (·.key.name) = _ :=
      names_page hcomplete (h.before hcomplete)
    have hreturned : (step pre limit s .page).returned = s.returned ++
        (pageRows pre limit s).map fun row => ⟨⟨row.kv_key, row.expires_at⟩, s.now⟩ := by
      rw [step_page hcomplete]
    refine
      { prefixed := ?_
        live := ?_
        nodup := ?_
        small := ?_
        before := fun hfalse => ?_
        within := fun hfalse => ?_
        pages_le := fun hfalse => ?_
        all := fun htrue row hrow => ?_ }
    · rw [hreturned]
      refine List.forall_mem_append.2 ⟨h.prefixed, fun r hr => ?_⟩
      obtain ⟨row, hrow, rfl⟩ := List.mem_map.1 hr
      exact (mem_keyRange.1 (mem_pageRows hrow).1).1
    · rw [hreturned]
      refine List.forall_mem_append.2 ⟨h.live, fun r hr expires_at hexpires => ?_⟩
      obtain ⟨row, hrow, rfl⟩ := List.mem_map.1 hr
      have hexpires : row.expires_at = some expires_at := hexpires
      simpa [KvRow.live, hexpires] using (mem_pageRows hrow).2
    · rw [hnames]
      have hstrict := strict_listing s.world (pre.getD "") s.now
      exact List.pairwise_map.2 ((hstrict.sublist (List.take_sublist _ _)).imp fun hlt => hlt.ne)
    · rw [step_page hcomplete]
      exact h.small
    · rw [hnames, (cursor_page hcomplete h.small hfalse).2, listing_page hcomplete]
    · obtain ⟨hmore, hcursor⟩ := cursor_page hcomplete h.small hfalse
      rw [hcursor, listing_page hcomplete]
      exact hmore.le
    · rw [(cursor_page hcomplete h.small hfalse).2]
      exact Nat.add_le_add (h.pages_le hcomplete) (one_le_listLimit limit)
    · rw [listing_page hcomplete] at hrow
      rw [hnames, List.take_of_length_le (last_page hcomplete htrue)]
      exact List.mem_map_of_mem hrow

/-- **A paging step.** The pages follow the listing through a page, a deletion and a wait, where no key
before the cursor goes. -/
theorem following_step {pages : ℕ} (h : Following pre s pages)
    (hspares : s.complete = false → Spares pre limit s e) :
    Following pre (step pre limit s e) (pages + [e].count .page) := by
  by_cases he : e = .page
  · subst he
    exact following_page h
  · rw [List.count_singleton, beq_false_of_ne he]
    exact following_other h he hspares

theorem following_run {pages : ℕ} (h : Following pre s pages) (hsparing : Sparing pre limit s events) :
    Following pre (run pre limit s events) (pages + events.count .page) := by
  induction events generalizing s pages with
  | nil => exact h
  | cons e events ih =>
    have hrest := ih (following_step h hsparing.1) hsparing.2
    rw [List.count_cons, add_comm (events.count _), ← add_assoc]
    rw [List.count_singleton] at hrest
    exact hrest

theorem length_run_le (s : Paging) (events : List Event) :
    (run pre limit s events).world.rows.length ≤ s.world.rows.length := by
  induction events generalizing s with
  | nil => exact le_rfl
  | cons e events ih =>
    refine (ih (step pre limit s e)).trans ?_
    cases e with
    | page =>
      simp only [step]
      split <;> exact le_rfl
    | delete key => exact List.length_filter_le _ _
    | wait seconds => exact le_rfl

theorem mem_of_mem_run {s : Paging} {events : List Event} {row : KvRow}
    (h : row ∈ (run pre limit s events).world) : row ∈ s.world := by
  induction events generalizing s with
  | nil => exact h
  | cons e events ih =>
    have hrow := ih h
    cases e with
    | page =>
      simp only [step] at hrow
      split at hrow <;> exact hrow
    | delete key => exact (Table.mem_deleteWhere.1 hrow).1
    | wait seconds => exact hrow

end Steps

/-! ## A whole paging -/

/-- The keys with the prefix that stay are returned once each, and nothing else with them; the paging is
complete after as many pages as the table had rows, and one. -/
structure CompletePaging (pre : Option String) (w : World) (events : List Event) (s : Paging) : Prop where
  completes : w.rows.length < events.count .page → s.complete = true
  stayed : s.complete = true → ∀ row ∈ s.world, (pre.getD "").toList <+: row.kv_key.toList →
    row.live s.now = true → (s.returned.map (·.key.name)).count row.kv_key = 1
  nodup : (s.returned.map (·.key.name)).Nodup
  prefixed : ∀ r ∈ s.returned, (pre.getD "").toList <+: r.key.name.toList
  live : ∀ r ∈ s.returned, ∀ expires_at ∈ r.key.expiration, r.at_ < expires_at

/-- **Complete paging.** Where no key has a character from `U+FFFF` on after the prefix, the table is
within the safe integers, and no step takes a key before the cursor out of the listing, the pages return
every key with the prefix that stays, once, and no other key and no expired one. -/
theorem paging_complete (pre : Option String) (limit : Option ℚ) (w : World) (now : ℤ)
    (events : List Event) (hsmall : w.rows.length ≤ MAX_SAFE_INTEGER)
    (hbelow : ∀ row ∈ w, (pre.getD "").toList <+: row.kv_key.toList → NextBelow (pre.getD "") row.kv_key)
    (hsparing : Sparing pre limit (Paging.start w now) events) :
    CompletePaging pre w events (run pre limit (Paging.start w now) events) := by
  have h := following_run (following_start pre now hsmall) hsparing
  refine ⟨fun hpages => ?_, fun hcomplete row hrow hpre hlive => ?_, h.nodup, h.prefixed, h.live⟩
  · by_contra hnot
    have hfalse := Bool.eq_false_iff.2 hnot
    have hle := calc
      0 + events.count .page ≤ _ := h.pages_le hfalse
      _ ≤ _ := h.within hfalse
      _ ≤ _ := length_listing_le pre _
      _ ≤ w.rows.length := length_run_le (Paging.start w now) events
    omega
  · have hrange := mem_keyRange.2 ⟨hpre, hbelow row (mem_of_mem_run hrow) hpre⟩
    have hmem := h.all hcomplete row (mem_listing.2 ⟨hrow, hrange, hlive⟩)
    exact List.count_eq_one_of_mem h.nodup hmem

/-! ## A key that the next page passes over -/

def keyedTable : World where
  rows := [⟨"token:a", "1", none⟩, ⟨"token:b", "2", none⟩, ⟨"token:c", "3", some 100⟩]
  unique := by decide

theorem nextBelow_keyedTable : ∀ row ∈ keyedTable, NextBelow "token:" row.kv_key := by
  intro row hrow
  have hcases := Table.mem_rows.2 hrow
  simp only [keyedTable, List.mem_cons, List.not_mem_nil, or_false] at hcases
  rcases hcases with rfl | rfl | rfl
  · exact fun c hc => by
      obtain rfl : 'a' = c := Option.some.inj hc
      decide
  · exact fun c hc => by
      obtain rfl : 'b' = c := Option.some.inj hc
      decide
  · exact fun c hc => by
      obtain rfl : 'c' = c := Option.some.inj hc
      decide

/-- The second key goes after the page of the first. -/
theorem paging_complete_keyed :
    CompletePaging (some "token:") keyedTable [.page, .delete "token:b", .page, .wait 200]
      (run (some "token:") (some 1) (Paging.start keyedTable 0)
        [.page, .delete "token:b", .page, .wait 200]) :=
  paging_complete (some "token:") (some 1) keyedTable 0 _ (by decide)
    (fun row hrow _ => nextBelow_keyedTable row hrow) (by
      simp only [Sparing, Spares]
      decide)

/-- The deletion of the key of the first page hides the key after it. -/
theorem passed_over :
    ¬ ∀ (pre : Option String) (limit : Option ℚ) (w : World) (now : ℤ) (events : List Event),
      CompletePaging pre w events (run pre limit (Paging.start w now) events) := by
  intro h
  have hrun := (h (some "token:") (some 1) keyedTable 0 [.page, .delete "token:a", .page]).stayed
    (by decide) ⟨"token:b", "2", none⟩ (Table.mem_rows.1 (by decide)) (by decide) rfl
  revert hrun
  decide

end QuantproCollector.D1Kv
