import QuantproCollector.HoldingDay.Validation
import Mathlib.Data.List.Chain

/-!
# What a validated day is

`SoundDay`: one checkpoint for each slot, each linked to the right comments, one production reference and
one universe in all, and one condition for a gate and one mapping version for an instrument.

* `byslot_of_loop`, `checked_of_loop`: what the loops over the checkpoints and over the slots establish.
* `validateDay_sound`: a day that passes is sound exactly where its later gates agree and its mapping
  versions at 09:10 do, which no loop looks at.
-/

namespace QuantproCollector.HoldingDay

variable (P : Python)

def slotOf (c : Checkpoint) : String :=
  match c.payload.get? "scheduled_slot" with
  | some (.str slot) => slot
  | _ => ""

def Checkpoint.gates (c : Checkpoint) : List (String × String) := gatePairs (field c.payload "records")

def Checkpoint.mappings (c : Checkpoint) : List (String × String) :=
  mappingPairs (field c.payload "records")

/-- `d` names `c` as the checkpoint before it. -/
def Continues (c d : Checkpoint) : Prop :=
  hasText d.payload "previous_checkpoint_comment_id" c.comment_id = true

/-- The two checkpoints have the same value of the field. -/
abbrev SameField (key : String) (c d : Checkpoint) : Prop :=
  P.eq (field c.payload key) (field d.payload key) = true

structure SoundDay (checkpoints : List Checkpoint) : Prop where
  one_each : (checkpoints.map slotOf).Perm SLOTS
  linked : SLOTS.IsChain fun a b =>
    ∀ c ∈ checkpoints, ∀ d ∈ checkpoints, slotOf c = a → slotOf d = b → Continues c d
  preopen : ∀ c ∈ checkpoints, ∀ d ∈ checkpoints, slotOf c = "09:10" → slotOf d ≠ "09:10" →
    hasText d.payload "preopen_comment_id" c.comment_id = true
  production_ref : ∀ c ∈ checkpoints, ∀ d ∈ checkpoints, slotOf c ≠ slotOf d →
    SameField P "production_ref" c d
  live_universe_hash : ∀ c ∈ checkpoints, ∀ d ∈ checkpoints, slotOf c ≠ slotOf d →
    SameField P "live_universe_hash" c d
  gates : ∀ c ∈ checkpoints, ∀ d ∈ checkpoints, ∀ gateId x y,
    (gateId, x) ∈ c.gates → (gateId, y) ∈ d.gates → x = y
  mappings : ∀ c ∈ checkpoints, ∀ d ∈ checkpoints, ∀ instrument x y,
    (instrument, x) ∈ c.mappings → (instrument, y) ∈ d.mappings → x = y

/-- The gates that 09:10 does not have, and the mapping versions that it has, agree. -/
structure UncheckedAgree (checkpoints : List Checkpoint) : Prop where
  laterGates : ∀ c ∈ checkpoints, ∀ d ∈ checkpoints, slotOf c ≠ "09:10" → slotOf d ≠ "09:10" →
    ∀ gateId x y, (∀ p ∈ checkpoints, slotOf p = "09:10" → ∀ z, (gateId, z) ∉ p.gates) →
      (gateId, x) ∈ c.gates → (gateId, y) ∈ d.gates → x = y
  preopenMappings : ∀ p ∈ checkpoints, ∀ d ∈ checkpoints, slotOf p = "09:10" →
    ∀ instrument x y, (instrument, x) ∈ p.mappings → (instrument, y) ∈ d.mappings → x = y

/-! ## The checkpoints by their slots -/

/-- The slots of the checkpoints, each taken once. -/
structure BySlot (checkpoints : List Checkpoint) (slots : Slots) : Prop where
  by_slot : slots.by_slot = checkpoints.map fun c => (slotOf c, c)
  nodup : (checkpoints.map slotOf).Nodup
  scheduled : ∀ c ∈ checkpoints, slotOf c ∈ SLOTS

theorem bySlot_addCheckpoint {tradeDate : String} {done : List Checkpoint} {slots slots' : Slots}
    {c : Checkpoint} (h : BySlot done slots) (hadd : addCheckpoint P tradeDate slots c = .ok slots') :
    BySlot (done ++ [c]) slots' := by
  unfold addCheckpoint at hadd
  split at hadd
  · next slot hslot =>
    have hslotOf : slotOf c = slot := by simp only [slotOf, hslot]
    dsimp only at hadd
    split_ifs at hadd with hscheduled hkey hfresh
    cases hadd
    have hnew : slot ∉ done.map slotOf := by
      intro hmem
      obtain ⟨d, hd, rfl⟩ := List.mem_map.1 hmem
      refine hfresh (Bool.or_eq_true_iff.2 (.inr ?_))
      rw [h.by_slot, List.lookup_isSome_iff]
      exact ⟨_, List.mem_map_of_mem hd, beq_self_eq_true _⟩
    refine ⟨?_, ?_, ?_⟩
    · simp [h.by_slot, hslotOf]
    · rw [List.map_append, List.map_singleton, hslotOf]
      exact List.nodup_append_comm.1 (List.nodup_cons.2 ⟨hnew, h.nodup⟩)
    · refine List.forall_mem_append.2 ⟨h.scheduled, List.forall_mem_singleton.2 ?_⟩
      rw [hslotOf]
      simpa using hscheduled
  · cases hadd

theorem bySlot_of_loop {tradeDate : String} {checkpoints : List Checkpoint} {slots : Slots}
    (h : checkpoints.foldlM (addCheckpoint P tradeDate) ⟨[], []⟩ = .ok slots) :
    BySlot checkpoints slots :=
  Fallible.foldlM_ok (I := BySlot) ⟨rfl, .nil, List.forall_mem_nil _⟩
    (fun _ _ _ _ _ hs hstep => bySlot_addCheckpoint P hs hstep) h

/-- In a list of keyed values with one value for each key, a key finds its value. -/
theorem lookup_map_of_nodup {α : Type} {key : α → String} {l : List α} (h : (l.map key).Nodup) {k : String}
    {a : α} : (l.map fun a => (key a, a)).lookup k = some a ↔ a ∈ l ∧ key a = k := by
  induction l with
  | nil => simp
  | cons b l ih =>
    obtain ⟨hb, hl⟩ := List.nodup_cons.1 h
    rw [List.map_cons, List.lookup_cons]
    by_cases hk : k = key b
    · subst hk
      simp only [beq_self_eq_true, Option.some.injEq, List.mem_cons]
      constructor
      · rintro rfl
        exact ⟨.inl rfl, rfl⟩
      · rintro ⟨rfl | ha, hka⟩
        · rfl
        · exact absurd (hka ▸ List.mem_map_of_mem ha) hb
    · rw [beq_false_of_ne hk, ih hl, List.mem_cons]
      constructor
      · exact fun ⟨ha, hka⟩ => ⟨.inr ha, hka⟩
      · rintro ⟨rfl | ha, hka⟩
        · exact absurd hka.symm hk
        · exact ⟨ha, hka⟩

theorem BySlot.lookup {checkpoints : List Checkpoint} {slots : Slots} (h : BySlot checkpoints slots)
    {slot : String} {c : Checkpoint} :
    slots.by_slot.lookup slot = some c ↔ c ∈ checkpoints ∧ slotOf c = slot := by
  rw [h.by_slot]
  exact lookup_map_of_nodup h.nodup

theorem slotAt_eq_ok {slots : Slots} {slot : String} {c : Checkpoint} :
    slotAt slots slot = .ok c ↔ slots.by_slot.lookup slot = some c := by
  unfold slotAt
  cases slots.by_slot.lookup slot with
  | none => simp
  | some d => simp

/-! ## The loop over the slots -/

/-- What a slot after 09:10 was found to have. -/
structure Checked (ref : Reference) (c : Checkpoint) : Prop where
  preopen : hasText c.payload "preopen_comment_id" ref.preopen.comment_id = true
  production_ref : SameField P "production_ref" c ref.preopen
  live_universe_hash : SameField P "live_universe_hash" c ref.preopen
  /-- The gates of the slot have one condition each. -/
  ownGates : ∀ gateId x y, (gateId, x) ∈ c.gates → (gateId, y) ∈ c.gates → x = y
  gates : ∀ gateId x original, (gateId, x) ∈ c.gates → ref.gates.lookup gateId = some original →
    original = x

theorem mem_of_checkGates {gates current : List (String × String)} {slot : String}
    (h : checkGates gates slot current = .ok ()) {gateId x original : String} (hx : (gateId, x) ∈ current)
    (horiginal : gates.lookup gateId = some original) : original = x := by
  have hgate := Fallible.forM_ok h _ hx
  simp only [horiginal] at hgate
  split_ifs at hgate with hne
  exact not_not.1 hne

theorem mem_of_lookup {l : List (String × String)} {k v : String} (h : l.lookup k = some v) : (k, v) ∈ l := by
  induction l with
  | nil => cases h
  | cons p l ih =>
    rw [List.lookup_cons] at h
    by_cases hk : k = p.1
    · rw [hk, beq_self_eq_true] at h
      cases h
      rw [hk]
      exact List.mem_cons_self
    · rw [beq_false_of_ne hk] at h
      exact List.mem_cons_of_mem p (ih h)

/-- One turn of the loop. -/
theorem checkSlot_ok {slots : Slots} {ref : Reference} {progress progress' : Progress} {slot : String}
    (h : checkSlot P slots ref progress slot = .ok progress') :
    ∃ c, slots.by_slot.lookup slot = some c ∧
      hasText c.payload "previous_checkpoint_comment_id" progress.previous_id = true ∧
      Checked P ref c ∧ progress'.previous_id = c.comment_id ∧
      ∀ pairs, Tracks pairs progress.mapping_versions →
        Tracks (pairs ++ c.mappings) progress'.mapping_versions := by
  unfold checkSlot at h
  obtain ⟨c, hc, h⟩ := Fallible.bind_eq_ok.1 h
  obtain ⟨_, hprevious, h⟩ := Fallible.bind_eq_ok.1 h
  obtain ⟨_, hpreopen, h⟩ := Fallible.bind_eq_ok.1 h
  obtain ⟨_, hproduction, h⟩ := Fallible.bind_eq_ok.1 h
  obtain ⟨_, huniverse, h⟩ := Fallible.bind_eq_ok.1 h
  obtain ⟨current, hcurrent, h⟩ := Fallible.bind_eq_ok.1 h
  obtain ⟨_, hgates, h⟩ := Fallible.bind_eq_ok.1 h
  obtain ⟨versions, hversions, h⟩ := Fallible.bind_eq_ok.1 h
  cases h
  have htracks := tracks_gateMap hcurrent
  refine ⟨c, slotAt_eq_ok.1 hc, require_eq_ok hprevious,
    ⟨require_eq_ok hpreopen, require_eq_ok hproduction, require_eq_ok huniverse,
      fun gateId x y => htracks.unique, fun gateId x original hx horiginal => ?_⟩, rfl,
    fun pairs hpairs => tracks_addMappings hpairs hversions⟩
  exact mem_of_checkGates hgates (mem_of_lookup ((htracks gateId x).2 hx)) horiginal

/-- The mapping versions of a slot. -/
def mappingsAt (slots : Slots) (slot : String) : List (String × String) :=
  ((slots.by_slot.lookup slot).map Checkpoint.mappings).getD []

/-- What the loop has established after the slots `done`. -/
structure Walked (slots : Slots) (ref : Reference) (done : List String) (progress : Progress) : Prop where
  last : ∀ slot ∈ ("09:10" :: done).getLast?, ∀ c, slots.by_slot.lookup slot = some c →
    progress.previous_id = c.comment_id
  linked : ("09:10" :: done).IsChain fun a b => ∀ c d, slots.by_slot.lookup a = some c →
    slots.by_slot.lookup b = some d → Continues c d
  checked : ∀ slot ∈ done, ∀ c, slots.by_slot.lookup slot = some c → Checked P ref c
  versions : Tracks (done.flatMap (mappingsAt slots)) progress.mapping_versions

theorem walked_checkSlot {slots : Slots} {ref : Reference} {done : List String}
    {progress progress' : Progress} {slot : String} (h : Walked P slots ref done progress)
    (hslot : checkSlot P slots ref progress slot = .ok progress') :
    Walked P slots ref (done ++ [slot]) progress' := by
  obtain ⟨c, hc, hprevious, hchecked, hid, hversions⟩ := checkSlot_ok P hslot
  have hsame : ∀ d, slots.by_slot.lookup slot = some d → d = c := fun d hd =>
    Option.some.inj (hd.symm.trans hc)
  refine ⟨?_, ?_, ?_, ?_⟩
  · rw [← List.cons_append, List.getLast?_append]
    intro last hlast d hd
    obtain rfl : slot = last := by simpa using hlast
    rw [hsame d hd]
    exact hid
  · rw [← List.cons_append, List.isChain_append]
    refine ⟨h.linked, List.isChain_singleton _, fun a ha b hb d e hd he => ?_⟩
    obtain rfl : slot = b := by simpa using hb
    rw [hsame e he]
    have hprev := h.last a ha d hd
    unfold Continues
    rwa [← hprev]
  · refine List.forall_mem_append.2 ⟨h.checked, List.forall_mem_singleton.2 fun d hd => ?_⟩
    rw [hsame d hd]
    exact hchecked
  · rw [List.flatMap_append, List.flatMap_singleton, mappingsAt, hc]
    exact hversions _ h.versions

theorem walked_of_loop {slots : Slots} {ref : Reference} {progress : Progress}
    (hpreopen : slots.by_slot.lookup "09:10" = some ref.preopen)
    (h : SLOTS.tail.foldlM (checkSlot P slots ref) ⟨ref.preopen.comment_id, []⟩ = .ok progress) :
    Walked P slots ref SLOTS.tail progress := by
  have hstart : Walked P slots ref [] ⟨ref.preopen.comment_id, []⟩ := by
    refine ⟨fun slot hslot c hc => ?_, List.isChain_singleton _, List.forall_mem_nil _, tracks_nil⟩
    obtain rfl : "09:10" = slot := by simpa using hslot
    rw [Option.some.inj (hc.symm.trans hpreopen)]
  exact Fallible.foldlM_ok (I := Walked P slots ref) hstart
    (fun _ _ _ _ _ hs hstep => walked_checkSlot P hs hstep) h

/-! ## The whole day -/

/-- What a day that passes has been found to have. -/
theorem walked_of_validateDay {comments : List Json} {tradeDate : String} {summary : Summary}
    (h : validateDay P comments tradeDate = .ok summary) :
    ∃ checkpoints slots ref progress, loadCheckpoints P comments tradeDate = .ok checkpoints ∧
      BySlot checkpoints slots ∧ (∀ slot ∈ SLOTS, ∃ c, slots.by_slot.lookup slot = some c) ∧
      slots.by_slot.lookup "09:10" = some ref.preopen ∧ Tracks ref.preopen.gates ref.gates ∧
      Walked P slots ref SLOTS.tail progress := by
  unfold validateDay at h
  obtain ⟨checkpoints, hload, h⟩ := Fallible.bind_eq_ok.1 h
  obtain ⟨slots, hslots, h⟩ := Fallible.bind_eq_ok.1 h
  obtain ⟨_, hmissing, h⟩ := Fallible.bind_eq_ok.1 h
  obtain ⟨preopen, hpreopen, h⟩ := Fallible.bind_eq_ok.1 h
  obtain ⟨_, -, h⟩ := Fallible.bind_eq_ok.1 h
  obtain ⟨_, -, h⟩ := Fallible.bind_eq_ok.1 h
  obtain ⟨gates, hgates, h⟩ := Fallible.bind_eq_ok.1 h
  obtain ⟨_, -, h⟩ := Fallible.bind_eq_ok.1 h
  obtain ⟨progress, hprogress, -⟩ := Fallible.bind_eq_ok.1 h
  have hpreopen := slotAt_eq_ok.1 hpreopen
  refine ⟨checkpoints, slots, ⟨preopen, gates⟩, progress, hload, bySlot_of_loop P hslots,
    fun slot hslot => ?_, hpreopen, tracks_gateMap hgates, walked_of_loop P hpreopen hprogress⟩
  have hnot := List.filter_eq_nil_iff.1 (require_eq_ok hmissing) slot hslot
  exact Option.isSome_iff_exists.1 (by simpa using hnot)

theorem mem_tail_of_ne {slot : String} (h : slot ∈ SLOTS) (hne : slot ≠ "09:10") : slot ∈ SLOTS.tail := by
  simpa [SLOTS, hne] using h

section Day

variable {P} {checkpoints : List Checkpoint} {slots : Slots} {ref : Reference} {progress : Progress}

/-- A checkpoint of a later slot was checked. -/
theorem checked_of_mem (hslots : BySlot checkpoints slots) (hwalked : Walked P slots ref SLOTS.tail progress)
    {c : Checkpoint} (hc : c ∈ checkpoints) (hne : slotOf c ≠ "09:10") : Checked P ref c :=
  hwalked.checked (slotOf c) (mem_tail_of_ne (hslots.scheduled c hc) hne) c (hslots.lookup.2 ⟨hc, rfl⟩)

theorem eq_preopen (hslots : BySlot checkpoints slots)
    (hpreopen : slots.by_slot.lookup "09:10" = some ref.preopen) {c : Checkpoint} (hc : c ∈ checkpoints)
    (hslot : slotOf c = "09:10") : c = ref.preopen :=
  Option.some.inj ((hslots.lookup.2 ⟨hc, hslot⟩).symm.trans hpreopen)

/-- A field that every later slot has as 09:10 has it. -/
theorem sameField_of_checked {key : String} (hslots : BySlot checkpoints slots)
    (hpreopen : slots.by_slot.lookup "09:10" = some ref.preopen)
    (hsame : ∀ c ∈ checkpoints, slotOf c ≠ "09:10" → SameField P key c ref.preopen)
    {c d : Checkpoint} (hc : c ∈ checkpoints) (hd : d ∈ checkpoints) (hne : slotOf c ≠ slotOf d) :
    SameField P key c d := by
  by_cases hcslot : slotOf c = "09:10"
  · obtain rfl := eq_preopen hslots hpreopen hc hcslot
    exact P.eq_symm _ _ (hsame d hd fun hdslot => hne (hcslot.trans hdslot.symm))
  · by_cases hdslot : slotOf d = "09:10"
    · obtain rfl := eq_preopen hslots hpreopen hd hdslot
      exact hsame c hc hcslot
    · exact P.eq_trans _ _ _ (hsame c hc hcslot) (P.eq_symm _ _ (hsame d hd hdslot))

/-- The mapping versions after 09:10 agree. -/
theorem laterMappings (hslots : BySlot checkpoints slots) (hwalked : Walked P slots ref SLOTS.tail progress)
    {c d : Checkpoint} (hc : c ∈ checkpoints) (hd : d ∈ checkpoints) (hcne : slotOf c ≠ "09:10")
    (hdne : slotOf d ≠ "09:10") {instrument x y : String} (hx : (instrument, x) ∈ c.mappings)
    (hy : (instrument, y) ∈ d.mappings) : x = y := by
  have hmem : ∀ e ∈ checkpoints, slotOf e ≠ "09:10" → ∀ pair ∈ e.mappings,
      pair ∈ SLOTS.tail.flatMap (mappingsAt slots) := by
    intro e he hne pair hpair
    refine List.mem_flatMap.2 ⟨slotOf e, mem_tail_of_ne (hslots.scheduled e he) hne, ?_⟩
    rw [mappingsAt, hslots.lookup.2 ⟨he, rfl⟩]
    exact hpair
  exact hwalked.versions.unique (hmem c hc hcne _ hx) (hmem d hd hdne _ hy)

/-- The gates agree, but for those that only later slots have. -/
theorem knownGates (hslots : BySlot checkpoints slots)
    (hpreopen : slots.by_slot.lookup "09:10" = some ref.preopen) (hgates : Tracks ref.preopen.gates ref.gates)
    (hwalked : Walked P slots ref SLOTS.tail progress) {c : Checkpoint} (hc : c ∈ checkpoints)
    {gateId x original : String} (hx : (gateId, x) ∈ c.gates)
    (horiginal : (gateId, original) ∈ ref.preopen.gates) : original = x := by
  by_cases hslot : slotOf c = "09:10"
  · obtain rfl := eq_preopen hslots hpreopen hc hslot
    exact hgates.unique horiginal hx
  · exact (checked_of_mem hslots hwalked hc hslot).gates gateId x original hx
      ((hgates gateId original).2 horiginal)

/-- Every slot has one checkpoint, where each is there and none is there twice. -/
theorem perm_slots (hslots : BySlot checkpoints slots)
    (hall : ∀ slot ∈ SLOTS, ∃ c, slots.by_slot.lookup slot = some c) :
    (checkpoints.map slotOf).Perm SLOTS := by
  refine (List.perm_ext_iff_of_nodup hslots.nodup (by decide)).2 fun slot => ⟨?_, fun hslot => ?_⟩
  · intro hslot
    obtain ⟨c, hc, rfl⟩ := List.mem_map.1 hslot
    exact hslots.scheduled c hc
  · obtain ⟨c, hc⟩ := hall slot hslot
    obtain ⟨hmem, rfl⟩ := hslots.lookup.1 hc
    exact List.mem_map_of_mem hmem

/-- The gates agree where those do that only later slots have. -/
theorem gates_of_agree (hslots : BySlot checkpoints slots)
    (hpreopen : slots.by_slot.lookup "09:10" = some ref.preopen) (hgates : Tracks ref.preopen.gates ref.gates)
    (hwalked : Walked P slots ref SLOTS.tail progress) (hagree : UncheckedAgree checkpoints)
    {c d : Checkpoint} (hc : c ∈ checkpoints) (hd : d ∈ checkpoints) {gateId x y : String}
    (hx : (gateId, x) ∈ c.gates) (hy : (gateId, y) ∈ d.gates) : x = y := by
  by_cases hknown : ∃ z, (gateId, z) ∈ ref.preopen.gates
  · obtain ⟨z, hz⟩ := hknown
    have hzx := knownGates hslots hpreopen hgates hwalked hc hx hz
    have hzy := knownGates hslots hpreopen hgates hwalked hd hy hz
    exact hzx.symm.trans hzy
  · have hlater : ∀ e ∈ checkpoints, ∀ w, (gateId, w) ∈ e.gates → slotOf e ≠ "09:10" := by
      intro e he w hw hslot
      obtain rfl := eq_preopen hslots hpreopen he hslot
      exact hknown ⟨w, hw⟩
    refine hagree.laterGates c hc d hd (hlater c hc x hx) (hlater d hd y hy) gateId x y ?_ hx hy
    intro p hp hslot z hz
    obtain rfl := eq_preopen hslots hpreopen hp hslot
    exact hknown ⟨z, hz⟩

/-- The mapping versions agree where those of 09:10 agree with the day's. -/
theorem mappings_of_agree (hslots : BySlot checkpoints slots)
    (hwalked : Walked P slots ref SLOTS.tail progress) (hagree : UncheckedAgree checkpoints)
    {c d : Checkpoint} (hc : c ∈ checkpoints) (hd : d ∈ checkpoints) {instrument x y : String}
    (hx : (instrument, x) ∈ c.mappings) (hy : (instrument, y) ∈ d.mappings) : x = y := by
  by_cases hcslot : slotOf c = "09:10"
  · exact hagree.preopenMappings c hc d hd hcslot instrument x y hx hy
  · by_cases hdslot : slotOf d = "09:10"
    · exact (hagree.preopenMappings d hd c hc hdslot instrument y x hy hx).symm
    · exact laterMappings hslots hwalked hc hd hcslot hdslot hx hy

end Day

/-- **A validated day.** Where a day passes, it is sound exactly where the gates that only slots after
09:10 have carry one condition, and the mapping versions of 09:10 agree with those of the day. -/
theorem validateDay_sound {comments : List Json} {tradeDate : String} {summary : Summary}
    (h : validateDay P comments tradeDate = .ok summary) :
    ∃ checkpoints, loadCheckpoints P comments tradeDate = .ok checkpoints ∧
      (SoundDay P checkpoints ↔ UncheckedAgree checkpoints) := by
  obtain ⟨checkpoints, slots, ref, progress, hload, hslots, hall, hpreopen, hgates, hwalked⟩ :=
    walked_of_validateDay P h
  refine ⟨checkpoints, hload, fun hsound => ?_, fun hagree => ?_⟩
  · exact ⟨fun c hc d hd _ _ gateId x y _ => hsound.gates c hc d hd gateId x y,
      fun p hp d hd _ => hsound.mappings p hp d hd⟩
  refine ⟨perm_slots hslots hall, ?_, ?_, ?_, ?_, ?_, ?_⟩
  · refine hwalked.linked.imp fun a b hab c hc d hd hca hdb => ?_
    exact hab c d (hslots.lookup.2 ⟨hc, hca⟩) (hslots.lookup.2 ⟨hd, hdb⟩)
  · intro c hc d hd hcslot hdslot
    obtain rfl := eq_preopen hslots hpreopen hc hcslot
    exact (checked_of_mem hslots hwalked hd hdslot).preopen
  · exact fun c hc d hd hne => sameField_of_checked hslots hpreopen
      (fun e he hslot => (checked_of_mem hslots hwalked he hslot).production_ref) hc hd hne
  · exact fun c hc d hd hne => sameField_of_checked hslots hpreopen
      (fun e he hslot => (checked_of_mem hslots hwalked he hslot).live_universe_hash) hc hd hne
  · exact fun c hc d hd gateId x y hx hy =>
      gates_of_agree hslots hpreopen hgates hwalked hagree hc hd hx hy
  · exact fun c hc d hd instrument x y hx hy => mappings_of_agree hslots hwalked hagree hc hd hx hy

/-! ## A gate that changes after 09:10 -/

/-- Python on texts that JSON has as it has: values of one form are equal where they are one value. -/
def plainPython : Python where
  loads := Json.parse
  str := Json.text
  eq a b := decide (a = b)
  eq_symm a b h := by simpa [eq_comm] using h
  eq_trans a b c hab hbc := by
    rw [decide_eq_true_eq] at hab hbc ⊢
    exact hab.trans hbc

def gate (gateId condition : String) : Json :=
  .obj [("action_gate_id", .str gateId), ("original_condition", .str condition)]

def slotPayload (schema observation slot previous : String) (gates : List Json) : Json :=
  .obj [("schema_version", .str schema), ("prompt_id", .str "holding-assistant"),
    ("production_ref", .str "ref"), ("live_universe_hash", .str "hash"),
    ("trading_date", .str "2026-09-21"), ("scheduled_slot", .str slot),
    ("idempotency_key", .str ("holding-assistant:2026-09-21:" ++ slot)),
    ("observation_type", .str observation), ("previous_checkpoint_comment_id", .str previous),
    ("preopen_comment_id", .str "c0"),
    ("records", .arr [.obj [("instrument_key", .str "000001.SZ"),
      ("benchmark_mapping_version", .str "v2"), ("action_gates", .arr gates)]])]

/-- A day on which the slots of 09:50 and of 10:50 have the gate `g2`, with these conditions. -/
def gatedDay (first second : String) : List Checkpoint :=
  let observed := slotPayload "market_observation_batch_v1"
  [⟨"c0", "t", slotPayload "premarket_plan_batch_v1" "PREMARKET" "09:10" "" [gate "g1" "a"]⟩,
    ⟨"c1", "t", observed "INTRADAY" "09:50" "c0" [gate "g2" first]⟩,
    ⟨"c2", "t", observed "INTRADAY" "10:50" "c1" [gate "g2" second]⟩,
    ⟨"c3", "t", observed "INTRADAY" "11:50" "c2" []⟩,
    ⟨"c4", "t", observed "INTRADAY" "13:50" "c3" []⟩,
    ⟨"c5", "t", observed "INTRADAY" "14:50" "c4" []⟩,
    ⟨"c6", "t", observed "CLOSE" "16:45" "c5" []⟩]

/-- The payload in its fenced block. -/
def fenced (payload : Json) : List Char := openFence ++ payload.chars ++ closeFence

def commentOf (c : Checkpoint) : Json :=
  .obj [("id", .str c.comment_id), ("created_at", .str c.created_at),
    ("body", .str (String.ofList (fenced c.payload)))]

/-- A comment that is read back is its checkpoint. -/
theorem checkpointOf_commentOf {P : Python} {tradeDate : String} {c : Checkpoint}
    (hread : payloadFromText P (fenced c.payload) = .ok (some c.payload))
    (hdate : hasText c.payload "trading_date" tradeDate = true) (hid : c.comment_id ≠ "")
    (hcreated : c.created_at ≠ "") : checkpointOf P tradeDate (commentOf c) = .ok (some c) := by
  have hbody : payloadFromComment P (String.ofList (fenced c.payload)) = .ok (some c.payload) := by
    rw [payloadFromComment, String.toList_ofList]
    exact hread
  have hcreatedAt : createdAt (commentOf c) = .str c.created_at := by
    simp [createdAt, commentOf, field, Json.get?, List.lookup_cons, truthy, hcreated]
  have hid' : strOf P (((commentOf c).get? "id").getD (.str "")) = c.comment_id := by
    simp [commentOf, Json.get?, strOf]
  have hbody' : strOf P (((commentOf c).get? "body").getD (.str "")) = String.ofList (fenced c.payload) := by
    simp [commentOf, Json.get?, List.lookup_cons, strOf]
  have hobj : ∃ fields, commentOf c = .obj fields := ⟨_, rfl⟩
  obtain ⟨fields, hfields⟩ := hobj
  rw [hfields] at hid' hbody' hcreatedAt ⊢
  dsimp only [checkpointOf]
  rw [hid', hbody', hcreatedAt, hbody]
  dsimp only [bind, Except.bind]
  simp only [strOf, hid, hcreated, or_self, if_false]
  change (if !hasText c.payload "trading_date" tradeDate then pure none else pure (some c) :
    Except Failure (Option Checkpoint)) = _
  rw [hdate]
  rfl

/-- A loop that appends what each comment is read as. -/
theorem foldlM_append (step : List Checkpoint → Json → Except Failure (List Checkpoint)) {day : List Checkpoint}
    (hstep : ∀ done, ∀ c ∈ day, step done (commentOf c) = .ok (done ++ [c])) (done : List Checkpoint) :
    (day.map commentOf).foldlM step done = .ok (done ++ day) := by
  induction day generalizing done with
  | nil =>
    rw [List.append_nil]
    rfl
  | cons c day ih =>
    rw [List.map_cons, List.foldlM_cons, hstep done c List.mem_cons_self]
    have hrest := ih (fun done d hd => hstep done d (List.mem_cons_of_mem c hd)) (done ++ [c])
    rw [List.append_assoc, List.singleton_append] at hrest
    exact hrest

/-- Comments that are read back are the day. -/
theorem loadCheckpoints_commentOf {P : Python} {tradeDate : String} {day : List Checkpoint}
    (hday : ∀ c ∈ day, checkpointOf P tradeDate (commentOf c) = .ok (some c)) :
    loadCheckpoints P (day.map commentOf) tradeDate = .ok day := by
  unfold loadCheckpoints
  exact foldlM_append _ (fun done c hc => by rw [hday c hc]; rfl) []

theorem gatedDay_loads :
    loadCheckpoints plainPython ((gatedDay "x" "y").map commentOf) "2026-09-21" =
      .ok (gatedDay "x" "y") := by
  have hread : ∀ c ∈ gatedDay "x" "y",
      payloadFromText plainPython (fenced c.payload) = .ok (some c.payload) := by decide +kernel
  have hfields : ∀ c ∈ gatedDay "x" "y", hasText c.payload "trading_date" "2026-09-21" = true ∧
      c.comment_id ≠ "" ∧ c.created_at ≠ "" := by decide +kernel
  refine loadCheckpoints_commentOf fun c hc => ?_
  obtain ⟨hdate, hid, hcreated⟩ := hfields c hc
  exact checkpointOf_commentOf (hread c hc) hdate hid hcreated

theorem gatedDay_passes :
    ∃ summary, validateDay plainPython ((gatedDay "x" "y").map commentOf) "2026-09-21" = .ok summary := by
  unfold validateDay
  rw [gatedDay_loads]
  exact ⟨_, rfl⟩

theorem validateDay_sound_gated :
    ∃ checkpoints,
      loadCheckpoints plainPython ((gatedDay "x" "y").map commentOf) "2026-09-21" = .ok checkpoints ∧
        (SoundDay plainPython checkpoints ↔ UncheckedAgree checkpoints) :=
  gatedDay_passes.elim fun _ h => validateDay_sound plainPython h

/-- A gate that two later slots have under two conditions passes. -/
theorem changed_gate_passes :
    ¬ ∀ (P : Python) (comments : List Json) (tradeDate : String) (summary : Summary)
      (checkpoints : List Checkpoint), validateDay P comments tradeDate = .ok summary →
        loadCheckpoints P comments tradeDate = .ok checkpoints → SoundDay P checkpoints := by
  intro h
  obtain ⟨summary, hsummary⟩ := gatedDay_passes
  have hsound := h plainPython _ "2026-09-21" summary _ hsummary gatedDay_loads
  have hxy : "x" = "y" := hsound.gates ⟨"c1", "t", _⟩ (List.mem_cons_of_mem _ List.mem_cons_self)
    ⟨"c2", "t", _⟩ (List.mem_cons_of_mem _ (List.mem_cons_of_mem _ List.mem_cons_self)) "g2" "x" "y"
    (by decide) (by decide)
  revert hxy
  decide

end QuantproCollector.HoldingDay
