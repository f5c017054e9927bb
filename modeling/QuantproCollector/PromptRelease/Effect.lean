import QuantproCollector.Lib.Fallible
import QuantproCollector.PromptRelease.Promote

/-!
# What a promotion writes

A promotion keeps every entry of the registry that was not selected, and every other member of the control
file but the three that name the release (`promotes_changes`). The selected entries hold what was verified.
-/

namespace QuantproCollector.PromptRelease

/-- The text is what the arguments make of a file: its control, with the verified candidates of the selected
keys in it. -/
def Promotes (P : Python) (a : Args) (old new : List Char) : Prop :=
  ∃ control compiled manifest prompts receipt updated, read_control P old = .ok control ∧
    compile_all a.ref a.keys compiled = .ok (manifest, prompts) ∧
    (manifest.registry.forM fun e => validateEntry P control e.1 e.2) = .ok () ∧
    verify P manifest prompts a.before a.after = .ok receipt ∧
    promoted P control manifest a.ref = .ok updated ∧ new = P.dumps updated

/-- The entry of a key. -/
def entryOf (control : Json) (key : String) : Option Json :=
  (control.get? "registry").bind (·.get? key)

/-- The members of the control that name the release. -/
def releaseMembers : List String :=
  ["schema_version", "content_ref", "last_verified_release_ref"]

/-- The new file has the old entries except those of the selected keys, which hold verified candidates, and
the old members except those that name the release. -/
def Changes (P : Python) (a : Args) (old new : List Char) : Prop :=
  ∃ control updated, read_control P old = .ok control ∧ new = P.dumps updated ∧
    (∀ key ∉ selected a.keys, entryOf updated key = entryOf control key) ∧
    (∀ field ∉ "registry" :: releaseMembers, updated.get? field = control.get? field) ∧
    ∃ manifest prompts receipt, verify P manifest prompts a.before a.after = .ok receipt ∧
      (∀ key ∈ selected a.keys, ∃ candidate, (key, candidate) ∈ manifest.registry) ∧
      ∀ e ∈ manifest.registry, ∀ u ∈ e.2.updates, (entryOf updated e.1).bind (·.get? u.1) = some u.2

section Effect

variable {P : Python} {a : Args} {control updated registry : Json} {manifest : Manifest}
  {prompts : List (String × String)} {compiled : String → Except String (Candidate × String)}
  {ref : String} {keys : Option (List String)} {es : List (String × Candidate)}

theorem isObj_of_get? {v x : Json} {k : String} (h : v.get? k = some x) : ∃ fields, v = .obj fields := by
  cases v with
  | obj fields => exact ⟨fields, rfl⟩
  | _ => cases h

theorem check_eq_ok {c : Bool} {message : String} {u : Unit} (h : check c message = .ok u) : c = true := by
  unfold check at h
  split_ifs at h with hc
  exact hc

theorem keys_mapM {α : Type} {f : String → Except String α} {l : List String} {r : List (String × α)}
    (h : (l.mapM fun key => (f key).map fun c => (key, c)) = .ok r) : r.map Prod.fst = l := by
  induction l generalizing r with
  | nil =>
    cases h
    rfl
  | cons key l ih =>
    rw [List.mapM_cons] at h
    obtain ⟨e, he, h⟩ := Fallible.bind_eq_ok.1 h
    obtain ⟨rest, hrest, h⟩ := Fallible.bind_eq_ok.1 h
    cases h
    have hkey : e.1 = key := by
      cases hf : f key with
      | error err => simp [hf, Except.map] at he
      | ok c =>
        rw [hf] at he
        cases he
        rfl
    rw [List.map_cons, ih hrest, hkey]

/-- The manifest has the selected keys, each once. -/
theorem keys_of_compile_all (h : compile_all ref keys compiled = .ok (manifest, prompts)) :
    manifest.registry.map Prod.fst = selected keys ∧ (selected keys).Nodup ∧ selected keys ≠ [] := by
  obtain ⟨u, hcheck, h⟩ := Fallible.bind_eq_ok.1 h
  obtain ⟨entries, hentries, h⟩ := Fallible.bind_eq_ok.1 h
  cases h
  have hselected := check_eq_ok hcheck
  simp only [Bool.and_eq_true, Bool.not_eq_true', List.isEmpty_eq_false_iff, decide_eq_true_eq] at hselected
  refine ⟨?_, hselected.1.2, hselected.1.1⟩
  rw [List.map_map]
  exact keys_mapM hentries

theorem promoteEntry_isObj (registry : Json) (e : String × Candidate) :
    ∃ fields, promoteEntry registry e = .obj fields :=
  Json.set_isObj _ _ _

/-- The entry of a key that no candidate has stays. -/
theorem get?_promoteEntries_of_notMem (hobj : ∃ fields, registry = .obj fields) {key : String}
    (h : key ∉ es.map Prod.fst) : (es.foldl promoteEntry registry).get? key = registry.get? key := by
  induction es generalizing registry with
  | nil => rfl
  | cons e es ih =>
    rw [List.map_cons, List.mem_cons, not_or] at h
    rw [List.foldl_cons, ih (promoteEntry_isObj registry e) h.2, promoteEntry, Json.get?_set hobj, if_neg h.1]

/-- The entry of a candidate is the old one with the updates of the candidate. -/
theorem get?_promoteEntries (hobj : ∃ fields, registry = .obj fields) (hnodup : (es.map Prod.fst).Nodup)
    {e : String × Candidate} (he : e ∈ es) : (es.foldl promoteEntry registry).get? e.1 =
      some (((registry.get? e.1).getD .null).assign e.2.updates) := by
  induction es generalizing registry with
  | nil => cases he
  | cons f es ih =>
    rw [List.map_cons, List.nodup_cons] at hnodup
    rw [List.foldl_cons]
    rcases List.mem_cons.1 he with rfl | he
    · rw [get?_promoteEntries_of_notMem (promoteEntry_isObj registry e) hnodup.1, promoteEntry,
        Json.get?_set hobj, if_pos rfl]
    · have hne : e.1 ≠ f.1 := by
        intro heq
        exact hnodup.1 (heq ▸ List.mem_map_of_mem he)
      rw [ih (promoteEntry_isObj registry f) hnodup.2 he, promoteEntry, Json.get?_set hobj, if_neg hne]

theorem nodup_updates (c : Candidate) : (c.updates.map Prod.fst).Nodup := by
  simp only [Candidate.updates, List.map_cons, List.map_nil]
  decide

theorem read_control_isObj {text : List Char} (h : read_control P text = .ok control) :
    ∃ fields, control = .obj fields := by
  obtain ⟨value, -, h⟩ := Fallible.bind_eq_ok.1 h
  obtain ⟨u, hcheck, h⟩ := Fallible.bind_eq_ok.1 h
  cases h
  have hstatus := check_eq_ok hcheck
  rw [Bool.and_eq_true, beq_iff_eq] at hstatus
  exact isObj_of_get? hstatus.1

/-- A valid candidate has an entry to replace. -/
theorem entry_of_valid {key : String} {entry : Candidate} {u : Unit}
    (h : validateEntry P control key entry = .ok u) :
    ∃ registry old, control.get? "registry" = some registry ∧ registry.get? key = some (.obj old) := by
  unfold validateEntry at h
  split at h
  · rename_i old hold
    obtain ⟨registry, hregistry, hentry⟩ := Option.bind_eq_some_iff.1 hold
    exact ⟨registry, old, hregistry, hentry⟩
  · cases h

theorem promoted_eq_ok (h : promoted P control manifest ref = .ok updated) :
    ∃ contentRef, updated =
      (((control.set "schema_version" (.str "quantpro-automation-control-v3")).set "registry"
        (manifest.registry.foldl promoteEntry ((control.get? "registry").getD .null))).set "content_ref"
          contentRef).set "last_verified_release_ref" (.str ref) := by
  unfold promoted at h
  cases hrefs : productionRefs
      (manifest.registry.foldl promoteEntry ((control.get? "registry").getD .null)) with
  | error e => simp [hrefs, Except.map] at h
  | ok refs =>
    simp only [hrefs, Except.map] at h
    exact ⟨_, (Except.ok.inj h).symm⟩

/-- A selection whose entries are valid has a registry that they stand in. -/
theorem registry_of_valid {entries : List (String × Candidate)} (hne : entries ≠ [])
    (hvalid : ∀ e ∈ entries, validateEntry P control e.1 e.2 = .ok ()) :
    ∃ registry, control.get? "registry" = some registry ∧ ∃ fields, registry = .obj fields := by
  obtain ⟨e, he⟩ := List.exists_mem_of_ne_nil entries hne
  obtain ⟨registry, old, hregistry, hentry⟩ := entry_of_valid (hvalid e he)
  exact ⟨registry, hregistry, isObj_of_get? hentry⟩

/-- The members of a promoted control: the four that are set, and the others as they were. -/
theorem get?_promoted {registry : Json} (h : promoted P control manifest ref = .ok updated)
    (hobj : ∃ fields, control = .obj fields) (hregistry : control.get? "registry" = some registry) :
    ∃ contentRef, ∀ field, updated.get? field =
      if field = "last_verified_release_ref" then some (.str ref)
      else if field = "content_ref" then some contentRef
      else if field = "registry" then some (manifest.registry.foldl promoteEntry registry)
      else if field = "schema_version" then some (.str "quantpro-automation-control-v3")
      else control.get? field := by
  obtain ⟨contentRef, hupdated⟩ := promoted_eq_ok h
  rw [hregistry, Option.getD_some] at hupdated
  refine ⟨contentRef, fun field => ?_⟩
  rw [hupdated, Json.get?_set (Json.set_isObj _ _ _), Json.get?_set (Json.set_isObj _ _ _),
    Json.get?_set (Json.set_isObj _ _ _), Json.get?_set hobj]

/-- **A promotion changes only what it selects**, and what names the release. -/
theorem promotes_changes {old new : List Char} (h : Promotes P a old new) : Changes P a old new := by
  obtain ⟨control, compiled, manifest, prompts, receipt, updated, hread, hcompile, hvalid, hverify, hpromoted,
    hnew⟩ := h
  obtain ⟨hkeys, hnodup, hne⟩ := keys_of_compile_all hcompile
  have hvalidEntry := Fallible.forM_ok hvalid
  have hsome : manifest.registry ≠ [] := by
    intro hnil
    rw [hnil] at hkeys
    exact hne hkeys.symm
  obtain ⟨registry, hregistry, hregistryObj⟩ := registry_of_valid hsome hvalidEntry
  obtain ⟨contentRef, hget⟩ := get?_promoted hpromoted (read_control_isObj hread) hregistry
  have hentry : ∀ key, entryOf updated key = (manifest.registry.foldl promoteEntry registry).get? key := by
    intro key
    rw [entryOf, hget]
    rfl
  refine ⟨control, updated, hread, hnew, fun key hkey => ?_, fun field hfield => ?_, manifest, prompts,
    receipt, hverify, fun key hkey => ?_, fun e he u hu => ?_⟩
  · rw [hentry, get?_promoteEntries_of_notMem hregistryObj (by rwa [hkeys]), entryOf, hregistry]
    rfl
  · simp only [releaseMembers, List.mem_cons, List.not_mem_nil, or_false, not_or] at hfield
    rw [hget, if_neg hfield.2.2.2, if_neg hfield.2.2.1, if_neg hfield.1, if_neg hfield.2.1]
  · rw [← hkeys] at hkey
    obtain ⟨e, he, rfl⟩ := List.mem_map.1 hkey
    exact ⟨e.2, he⟩
  · obtain ⟨registry', old, hregistry', hold⟩ := entry_of_valid (hvalidEntry e he)
    obtain rfl : registry = registry' := Option.some.inj (hregistry.symm.trans hregistry')
    rw [hentry, get?_promoteEntries hregistryObj (by rwa [hkeys]) he, Option.bind_some, hold,
      Option.getD_some]
    exact Json.get?_assign_of_mem ⟨old, rfl⟩ (nodup_updates e.2) hu

end Effect

end QuantproCollector.PromptRelease
