import Mathlib.Data.List.Sort
import Mathlib.Tactic.SplitIfs

/-!
# The newest rows of two sources

`Window time n all window`: the window has the `n` newest of all rows, newest first. Two sources, of each
of which the first `cap` by one column are taken and merged by a second key, give the newest rows of both
where the column and the key follow the times (`window_mergeNewest`).
-/

namespace NewestWindow

variable {α β κ ι τ : Type} [LinearOrder κ] [LinearOrder ι] [LinearOrder τ]

/-! ## Descending order -/

/-- The rows from the greatest key to the least; those of one key keep their order. -/
def byDescending (key : α → κ) (l : List α) : List α :=
  l.insertionSort fun a b => key b ≤ key a

theorem perm_byDescending (key : α → κ) (l : List α) : (byDescending key l).Perm l :=
  List.perm_insertionSort _ l

@[simp] theorem mem_byDescending {key : α → κ} {l : List α} {a : α} : a ∈ byDescending key l ↔ a ∈ l :=
  (perm_byDescending key l).mem_iff

theorem map_byDescending (key : β → κ) (f : α → β) (l : List α) :
    (byDescending (fun a => key (f a)) l).map f = byDescending key (l.map f) :=
  List.map_insertionSort _ _ f l fun _ _ _ _ => Iff.rfl

/-- Before rows of lower keys, and before those of its own that come later. -/
theorem pairwise_orderedInsert {R : α → α → Prop} {key : α → κ} {a : α} {l : List α}
    (ha : ∀ b ∈ l, R a b) (hl : l.Pairwise fun x y => key y < key x ∨ key y = key x ∧ R x y) :
    (l.orderedInsert (fun x y => key y ≤ key x) a).Pairwise
      fun x y => key y < key x ∨ key y = key x ∧ R x y := by
  induction l with
  | nil => exact List.pairwise_singleton _ _
  | cons b l ih =>
    obtain ⟨hb, hrest⟩ := List.pairwise_cons.1 hl
    rw [List.orderedInsert_cons]
    split_ifs with hba
    · refine List.pairwise_cons.2 ⟨fun c hc => ?_, hl⟩
      have hcb : key c ≤ key b := by
        rcases List.mem_cons.1 hc with rfl | hc
        · exact le_rfl
        · rcases hb c hc with hlt | ⟨heq, -⟩
          · exact hlt.le
          · exact heq.le
      rcases (hcb.trans hba).lt_or_eq with hlt | heq
      · exact .inl hlt
      · exact .inr ⟨heq, ha c hc⟩
    · refine List.pairwise_cons.2 ⟨fun c hc => ?_, ih (fun c hc => ha c (List.mem_cons_of_mem b hc)) hrest⟩
      rcases (List.mem_orderedInsert _).1 hc with rfl | hc
      · exact .inl (not_le.1 hba)
      · exact hb c hc

/-- The sort is stable. -/
theorem pairwise_byDescending {R : α → α → Prop} (key : α → κ) {l : List α} (hl : l.Pairwise R) :
    (byDescending key l).Pairwise fun x y => key y < key x ∨ key y = key x ∧ R x y := by
  induction l with
  | nil => exact .nil
  | cons a l ih =>
    obtain ⟨ha, hrest⟩ := List.pairwise_cons.1 hl
    exact pairwise_orderedInsert (fun b hb => ha b (mem_byDescending.1 hb)) (ih hrest)

theorem descending_byDescending (key : α → κ) (l : List α) :
    (byDescending key l).Pairwise fun x y => key y ≤ key x := by
  have hall : l.Pairwise fun _ _ => True := List.pairwise_of_forall fun _ _ => trivial
  refine (pairwise_byDescending key hall).imp fun h => ?_
  rcases h with hlt | ⟨heq, -⟩
  · exact hlt.le
  · exact heq.le

/-- A row that all others are above comes last. -/
theorem byDescending_cons_of_lt {key : α → κ} {a : α} {l : List α} (h : ∀ b ∈ l, key a < key b) :
    byDescending key (a :: l) = byDescending key l ++ [a] := by
  have hinsert : ∀ l : List α, (∀ b ∈ l, key a < key b) →
      l.orderedInsert (fun x y => key y ≤ key x) a = l ++ [a] := by
    intro l hl
    induction l with
    | nil => rfl
    | cons b l ih =>
      rw [List.forall_mem_cons] at hl
      rw [List.orderedInsert_cons, if_neg (not_le.2 hl.1), ih hl.2, List.cons_append]
  exact hinsert _ fun b hb => h b (mem_byDescending.1 hb)

/-! ## Windows -/

/-- The `n` newest rows, newest first. -/
structure Window (time : α → τ) (n : ℕ) (all window : List α) : Prop where
  descending : window.Pairwise fun a b => time b ≤ time a
  length : window.length = min n all.length
  newest : ∃ rest, all.Perm (window ++ rest) ∧ ∀ a ∈ window, ∀ b ∈ rest, time b ≤ time a

section Window

variable {time : α → τ} {n cap : ℕ} {all window : List α}

theorem window_take {l : List α} (hperm : all.Perm l) (hl : l.Pairwise fun a b => time b ≤ time a) :
    Window time n all (l.take n) where
  descending := hl.sublist (List.take_sublist n l)
  length := by rw [List.length_take, hperm.length_eq]
  newest := by
    refine ⟨l.drop n, by rwa [List.take_append_drop], ?_⟩
    rw [← List.take_append_drop n l] at hl
    exact (List.pairwise_append.1 hl).2.2

/-- The first row of a window is a newest one. -/
theorem Window.le_head {a : α} (h : Window time n all (a :: window)) {b : α} (hb : b ∈ all) :
    time b ≤ time a := by
  obtain ⟨rest, hperm, hnewest⟩ := h.newest
  rcases List.mem_append.1 (hperm.mem_iff.1 hb) with hb | hb
  · rcases List.mem_cons.1 hb with rfl | hb
    · exact le_rfl
    · exact (List.pairwise_cons.1 h.descending).1 b hb
  · exact hnewest a List.mem_cons_self b hb

theorem Window.map {γ : Type} {f : γ → α} {all window : List γ}
    (h : Window (fun c => time (f c)) n all window) : Window time n (all.map f) (window.map f) where
  descending := List.pairwise_map.2 h.descending
  length := by rw [List.length_map, List.length_map, h.length]
  newest := by
    obtain ⟨rest, hperm, hnewest⟩ := h.newest
    refine ⟨rest.map f, ?_, fun a ha b hb => ?_⟩
    · rw [← List.map_append]
      exact hperm.map f
    · obtain ⟨c, hc, rfl⟩ := List.mem_map.1 ha
      obtain ⟨d, hd, rfl⟩ := List.mem_map.1 hb
      exact hnewest c hc d hd

/-- Of a window of one there is one row, which no other is newer than. -/
theorem Window.exists_newest (h : Window time 1 all window) (hall : all ≠ []) :
    ∃ a, window = [a] ∧ ∀ b ∈ all, time b ≤ time a := by
  have hlength : window.length = 1 := by
    have hpos := List.length_pos_iff.2 hall
    have := h.length
    omega
  obtain ⟨a, rfl⟩ := List.length_eq_one_iff.1 hlength
  exact ⟨a, rfl, fun b hb => h.le_head hb⟩

/-- What a window of a source leaves out is no newer than the window of both. -/
theorem le_of_left_out {source kept rest other w : List α} (hsource : Window time cap source kept)
    (hperm : source.Perm (kept ++ rest)) (hkept : ∀ a ∈ kept, ∀ b ∈ rest, time b ≤ time a)
    (hw : Window time n (kept ++ other) w) (hcap : n ≤ cap) {a b : α} (ha : a ∈ w) (hb : b ∈ rest) :
    time b ≤ time a := by
  by_contra hlt
  obtain ⟨left, hall, hnewest⟩ := hw.newest
  have hlength : kept.length = cap := by
    have htotal := hperm.length_eq
    rw [List.length_append] at htotal
    have hpos := List.length_pos_of_mem hb
    have := hsource.length
    omega
  -- The rows of the source's window are all newer than `a`: too many for the window of both.
  have hcount : kept.length ≤ (kept ++ other).countP fun c => decide (time b ≤ time c) := by
    rw [List.countP_append, List.countP_eq_length.2 fun c hc => decide_eq_true (hkept c hc b hb)]
    exact Nat.le_add_right _ _
  have hwindow : w.countP (fun c => decide (time b ≤ time c)) < w.length :=
    lt_of_le_of_ne List.countP_le_length fun heq =>
      hlt (of_decide_eq_true (List.countP_eq_length.1 heq a ha))
  have hleft : left.countP (fun c => decide (time b ≤ time c)) = 0 := by
    refine List.countP_eq_zero.2 fun c hc hbc => hlt ?_
    exact (of_decide_eq_true hbc).trans (hnewest a ha c hc)
  rw [hall.countP_eq, List.countP_append, hleft, hlength] at hcount
  have hbound := hw.length
  omega

/-- Windows of two sources have in them the window of both. -/
theorem Window.append {A B keptA keptB w : List α} (hA : Window time cap A keptA)
    (hB : Window time cap B keptB) (hw : Window time n (keptA ++ keptB) w) (hcap : n ≤ cap) :
    Window time n (A ++ B) w := by
  obtain ⟨restA, hpermA, hnewestA⟩ := hA.newest
  obtain ⟨restB, hpermB, hnewestB⟩ := hB.newest
  obtain ⟨left, hall, hnewest⟩ := hw.newest
  have hw' : Window time n (keptB ++ keptA) w :=
    ⟨hw.descending, by rw [hw.length, List.length_append, List.length_append, Nat.add_comm],
      left, List.perm_append_comm.trans hall, hnewest⟩
  refine ⟨hw.descending, ?_, left ++ (restA ++ restB), ?_, fun a ha b hb => ?_⟩
  · have hlength := hw.length
    have hlengthA := hA.length
    have hlengthB := hB.length
    rw [List.length_append] at hlength ⊢
    omega
  · calc (A ++ B).Perm ((keptA ++ restA) ++ (keptB ++ restB)) := hpermA.append hpermB
      List.Perm _ ((keptA ++ keptB) ++ (restA ++ restB)) := by
        rw [List.append_assoc, List.append_assoc]
        refine List.Perm.append_left _ ?_
        rw [← List.append_assoc, ← List.append_assoc]
        exact List.perm_append_comm.append_right _
      List.Perm _ ((w ++ left) ++ (restA ++ restB)) := hall.append_right _
      _ = w ++ (left ++ (restA ++ restB)) := List.append_assoc _ _ _
  · rcases List.mem_append.1 hb with hb | hb
    · exact hnewest a ha b hb
    · rcases List.mem_append.1 hb with hb | hb
      · exact le_of_left_out hA hpermA hnewestA hw hcap ha hb
      · exact le_of_left_out hB hpermB hnewestB hw' hcap ha hb

end Window

/-! ## Two sources -/

/-- Of each source the first `cap` by a column, merged by a key, and of these the first `n`. -/
def mergeNewest (column : α → κ) (key : α → ι) (cap n : ℕ) (A B : List α) : List α :=
  (byDescending key ((byDescending column A).take cap ++ (byDescending column B).take cap)).take n

theorem map_mergeNewest {γ : Type} (column : α → κ) (key : α → ι) (cap n : ℕ) (f : γ → α)
    (A B : List γ) :
    (mergeNewest (fun c => column (f c)) (fun c => key (f c)) cap n A B).map f =
      mergeNewest column key cap n (A.map f) (B.map f) := by
  rw [mergeNewest, List.map_take, map_byDescending key f, List.map_append, List.map_take,
    List.map_take, map_byDescending column f, map_byDescending column f, mergeNewest]

/-- The first row of the merge has the greatest key. -/
theorem key_le_of_mergeNewest {column : α → κ} {key : α → ι} {cap : ℕ} {A B : List α} {a : α}
    (h : mergeNewest column key cap 1 A B = [a]) :
    a ∈ (byDescending column A).take cap ++ (byDescending column B).take cap ∧
      ∀ b ∈ (byDescending column A).take cap ++ (byDescending column B).take cap, key b ≤ key a := by
  have hhead : ∃ rest, byDescending key
      ((byDescending column A).take cap ++ (byDescending column B).take cap) = a :: rest := by
    unfold mergeNewest at h
    cases hsorted : byDescending key
        ((byDescending column A).take cap ++ (byDescending column B).take cap) with
    | nil =>
      rw [hsorted] at h
      cases h
    | cons c rest =>
      rw [hsorted] at h
      exact ⟨rest, by rw [(List.cons.inj h).1]⟩
  obtain ⟨rest, hhead⟩ := hhead
  have hdescending := descending_byDescending key
    ((byDescending column A).take cap ++ (byDescending column B).take cap)
  rw [hhead] at hdescending
  refine ⟨mem_byDescending.1 (hhead ▸ List.mem_cons_self), fun b hb => ?_⟩
  have hmem := (perm_byDescending key _).mem_iff.2 hb
  rw [hhead] at hmem
  rcases List.mem_cons.1 hmem with rfl | hmem
  · exact le_rfl
  · exact (List.pairwise_cons.1 hdescending).1 b hmem

/-- A column that follows the times puts the newest first. -/
theorem pairwise_time {column : α → κ} {time : α → τ} {l : List α}
    (h : ∀ a ∈ l, ∀ b ∈ l, time a < time b → column a < column b) :
    (byDescending column l).Pairwise fun a b => time b ≤ time a := by
  refine (descending_byDescending column l).imp_of_mem fun {a b} ha hb hle => ?_
  by_contra hlt
  exact absurd (h a (mem_byDescending.1 ha) b (mem_byDescending.1 hb) (not_le.1 hlt)) (not_lt.2 hle)

/-- The merge gives the newest rows of both sources. -/
theorem window_mergeNewest {column : α → κ} {key : α → ι} {time : α → τ} {cap n : ℕ} {A B : List α}
    (hcap : n ≤ cap) (hA : ∀ a ∈ A, ∀ b ∈ A, time a < time b → column a < column b)
    (hB : ∀ a ∈ B, ∀ b ∈ B, time a < time b → column a < column b)
    (hkey : ∀ a ∈ A ++ B, ∀ b ∈ A ++ B, time a < time b → key a ≤ key b)
    (hties : ∀ a ∈ A, ∀ b ∈ B, time a < time b → key a < key b) :
    Window time n (A ++ B) (mergeNewest column key cap n A B) := by
  have hmemA : ∀ a ∈ (byDescending column A).take cap, a ∈ A :=
    fun a ha => mem_byDescending.1 (List.mem_of_mem_take ha)
  have hmemB : ∀ b ∈ (byDescending column B).take cap, b ∈ B :=
    fun b hb => mem_byDescending.1 (List.mem_of_mem_take hb)
  have hstable : ((byDescending column A).take cap ++ (byDescending column B).take cap).Pairwise
      fun a b => key b = key a → time b ≤ time a := by
    refine List.pairwise_append.2 ⟨?_, ?_, fun a ha b hb heq => ?_⟩
    · refine List.Pairwise.imp ?_ ((pairwise_time hA).sublist (List.take_sublist _ _))
      exact fun hle _ => hle
    · refine List.Pairwise.imp ?_ ((pairwise_time hB).sublist (List.take_sublist _ _))
      exact fun hle _ => hle
    · exact not_lt.1 fun hlt => (hties a (hmemA a ha) b (hmemB b hb) hlt).ne heq.symm
  refine Window.append (window_take (perm_byDescending column A).symm (pairwise_time hA))
    (window_take (perm_byDescending column B).symm (pairwise_time hB))
    (window_take (perm_byDescending key _).symm ?_) hcap
  refine (pairwise_byDescending key hstable).imp_of_mem fun {a b} ha hb h => ?_
  have hmem : ∀ c ∈ byDescending key ((byDescending column A).take cap ++
      (byDescending column B).take cap), c ∈ A ++ B := by
    intro c hc
    rcases List.mem_append.1 (mem_byDescending.1 hc) with hc | hc
    · exact List.mem_append_left _ (hmemA c hc)
    · exact List.mem_append_right _ (hmemB c hc)
  rcases h with hlt | ⟨heq, htime⟩
  · exact not_lt.1 fun hlt' => absurd (hkey a (hmem a ha) b (hmem b hb) hlt') (not_le.2 hlt)
  · exact htime heq

end NewestWindow
