import QuantproCollector.Lib.JsonReadBack

/-!
# Values from their texts

A serialisation determines its value (`chars_injective`), and so the text with sorted keys determines the
value up to the order of keys (`rebuiltText_eq_iff`). Objects whose fields come from a shape, in its order,
are determined by their fields as a set (`shapeFields_of_perm`).
-/

namespace Json

/-! ## Serialisations -/

theorem delimited_elementsTail_nil (xs : List Json) : Delimited (elementsTail xs) := by
  cases xs with
  | nil => simp [elementsTail, Delimited]
  | cons x xs => exact delimited_cons (by decide) _

mutual

/-- A value is written in its own way. -/
theorem chars_injective (v w : Json) (h : v.chars = w.chars) : v = w := by
  obtain ⟨c, hv, hw⟩ := exists_leads (show v.chars ++ [] = w.chars ++ [] by rw [h])
  match v, w, hv, hw, h with
  | null, null, _, _, _ => rfl
  | bool true, bool true, _, _, _ => rfl
  | bool false, bool false, _, _, _ => rfl
  | num x, num y, _, _, h => exact congrArg num (text_injective h)
  | str s, str t, _, _, h =>
    have hquoted : quote s ++ [] = quote t ++ [] := congrArg (· ++ []) h
    exact congrArg str (quote_append_inj hquoted).1
  | arr xs, arr ys, _, _, h =>
    have hxs : elements xs ++ ']' :: [] = elements ys ++ ']' :: [] := by simpa [chars] using h
    exact congrArg arr (elements_injective xs ys (elements_append_inj xs ys _ _ hxs).1)
  | obj fs, obj gs, _, _, h => exact congrArg obj (sameFields_injective fs gs (sameFields_of_chars h))

theorem elements_injective (xs ys : List Json) (h : elements xs = elements ys) : xs = ys := by
  match xs, ys, h with
  | [], [], _ => rfl
  | [], y :: ys, h =>
    obtain ⟨c, rest, hy, -⟩ := chars_eq_cons y
    rw [elements_cons, hy] at h
    cases h
  | x :: xs, [], h =>
    obtain ⟨c, rest, hx, -⟩ := chars_eq_cons x
    rw [elements_cons, hx] at h
    cases h
  | x :: xs, y :: ys, h =>
    rw [elements_cons, elements_cons] at h
    obtain ⟨hx, htail⟩ := chars_append_inj x y _ _ (delimited_elementsTail_nil xs)
      (delimited_elementsTail_nil ys) h
    rw [chars_injective x y hx]
    match xs, ys, htail with
    | [], [], _ => rfl
    | x' :: xs, y' :: ys, htail =>
      rw [elements_injective (x' :: xs) (y' :: ys) (List.cons.inj htail).2]

theorem sameFields_injective (fs gs : List (String × Json)) (h : List.Forall₂ SameField fs gs) :
    fs = gs := by
  match fs, gs, h with
  | [], [], _ => rfl
  | (k, x) :: fs, (l, y) :: gs, .cons hfg h =>
    obtain ⟨hk, hx⟩ := hfg
    rw [chars_injective x y hx, sameFields_injective fs gs h, show k = l from hk]

end

/-- The text with sorted keys determines the value with sorted keys. -/
theorem rebuiltText_eq_iff {v w : Json} :
    v.rebuiltText = w.rebuiltText ↔ v.canonicalize propertyLe = w.canonicalize propertyLe := by
  rw [rebuiltText_inj]
  exact ⟨chars_injective _ _, congrArg chars⟩

/-! ## Flat values -/

theorem canonicalizeElements_eq_map (le : String → String → Bool) (xs : List Json) :
    canonicalizeElements le xs = xs.map fun x => x.canonicalize le := by
  induction xs with
  | nil => rfl
  | cons x xs ih => rw [canonicalizeElements, ih, List.map_cons]

/-- The value has no keys to sort. -/
def Flat (v : Json) : Prop :=
  ∀ le, v.canonicalize le = v

theorem flat_arr {xs : List Json} (h : ∀ x ∈ xs, x.Flat) : (arr xs).Flat := by
  intro le
  rw [canonicalize, canonicalizeElements_eq_map]
  exact congrArg arr ((List.map_congr_left fun x hx => h x hx le).trans (List.map_id' xs))

/-- Objects of flat fields with one sorted form have the same fields. -/
theorem perm_of_canonicalize {le : String → String → Bool} {fs gs : List (String × Json)}
    (hfs : ∀ f ∈ fs, f.2.Flat) (hgs : ∀ g ∈ gs, g.2.Flat)
    (h : (obj fs).canonicalize le = (obj gs).canonicalize le) : fs.Perm gs := by
  have hflat : ∀ fs : List (String × Json), (∀ f ∈ fs, f.2.Flat) → canonicalizeFields le fs = fs := by
    intro fs hfs
    rw [canonicalizeFields_eq_map]
    exact (List.map_congr_left fun f hf => by rw [hfs f hf le]).trans (List.map_id' fs)
  rw [canonicalize, canonicalize, hflat fs hfs, hflat gs hgs] at h
  have hsorted := Json.obj.inj h
  unfold sortFields at hsorted
  exact (List.perm_insertionSort _ fs).symm.trans (hsorted ▸ List.perm_insertionSort _ gs)

end Json

namespace Schema

open Json

/-- What the schema returns is flat. -/
def Flat (s : Schema) : Prop :=
  ∀ v d, s v = some d → d.Flat

theorem flat_text (ok : String → Bool) : Flat (text ok) := by
  intro v d h
  cases v with
  | str s =>
    simp only [text] at h
    split_ifs at h
    obtain rfl := Option.some.inj h
    exact fun _ => rfl
  | _ => cases h

theorem flat_number (ok : Decimal → Bool) : Flat (number ok) := by
  intro v d h
  cases v with
  | num x =>
    simp only [number] at h
    split_ifs at h
    obtain rfl := Option.some.inj h
    exact fun _ => rfl
  | _ => cases h

theorem flat_boolean : Flat boolean := by
  intro v d h
  cases v with
  | bool b =>
    obtain rfl := Option.some.inj h
    exact fun _ => rfl
  | _ => cases h

theorem flat_orNull {s : Schema} (hs : Flat s) : Flat (orNull s) := by
  intro v d h
  cases v with
  | null =>
    obtain rfl := Option.some.inj h
    exact fun _ => rfl
  | _ => exact hs _ d h

theorem flat_array {s : Schema} (hs : Flat s) (min max : ℕ) : Flat (array s min max) := by
  intro v d h
  obtain ⟨ys, rfl, -, -, hys⟩ := elements_of_array h
  refine flat_arr fun y hy => ?_
  obtain ⟨x, hx⟩ := hys y hy
  exact hs x y hx

theorem exact_number (ok : Decimal → Bool) : Exact (number ok) := by
  intro v d h
  cases v with
  | num x =>
    simp only [number] at h
    split_ifs at h
    exact (Option.some.inj h).symm
  | _ => cases h

theorem exact_boolean : Exact boolean := by
  intro v d h
  cases v with
  | bool b => exact (Option.some.inj h).symm
  | _ => cases h

/-! ## Objects by a shape -/

/-- The fields of a shape that have a value, in its order. -/
def shapeFields (shape : List Field) (value : Field → Option Json) : List (String × Json) :=
  shape.flatMap fun f => ((value f).map fun x => (f.name, x)).toList

section Shape

variable {shape : List Field} {value value' : Field → Option Json}

theorem mem_shapeFields (hnodup : (shape.map Field.name).Nodup) {f : Field} (hf : f ∈ shape) (x : Json) :
    (f.name, x) ∈ shapeFields shape value ↔ value f = some x := by
  simp only [shapeFields, List.mem_flatMap, Option.mem_toList, Option.map_eq_some_iff, Prod.mk.injEq]
  constructor
  · rintro ⟨g, hg, y, hy, hname, rfl⟩
    rwa [← List.inj_on_of_nodup_map hnodup hg hf hname]
  · intro hx
    exact ⟨f, hf, x, hx, rfl, rfl⟩

theorem name_mem_shapeFields {g : String × Json} (hg : g ∈ shapeFields shape value) :
    ∃ f ∈ shape, g.1 = f.name ∧ value f = some g.2 := by
  simp only [shapeFields, List.mem_flatMap, Option.mem_toList, Option.map_eq_some_iff] at hg
  obtain ⟨f, hf, x, hx, rfl⟩ := hg
  exact ⟨f, hf, rfl, hx⟩

/-- Fields of one shape that are the same as a set are the same. -/
theorem shapeFields_of_perm (hnodup : (shape.map Field.name).Nodup)
    (h : (shapeFields shape value).Perm (shapeFields shape value')) :
    shapeFields shape value = shapeFields shape value' := by
  unfold shapeFields
  refine List.flatMap_congr fun f hf => ?_
  have hvalue : value f = value' f := by
    refine Option.ext fun x => ?_
    rw [← mem_shapeFields hnodup hf, ← mem_shapeFields hnodup hf]
    exact h.mem_iff
  rw [hvalue]

theorem lookup_shapeFields_none {k : String} (hk : k ∉ shape.map Field.name) :
    (obj (shapeFields shape value)).get? k = none := by
  show (shapeFields shape value).lookup k = none
  rw [List.lookup_eq_none_iff]
  intro g hg
  obtain ⟨f, hf, hname, -⟩ := name_mem_shapeFields hg
  have hne : k ≠ g.1 := by
    rintro rfl
    exact hk (hname ▸ List.mem_map_of_mem hf)
  simpa using hne

theorem lookup_shapeFields (hnodup : (shape.map Field.name).Nodup) {f : Field} (hf : f ∈ shape) :
    (obj (shapeFields shape value)).get? f.name = value f := by
  show (shapeFields shape value).lookup f.name = value f
  induction shape with
  | nil => cases hf
  | cons g shape ih =>
    obtain ⟨hg, hnodup⟩ := List.nodup_cons.1 hnodup
    rcases List.mem_cons.1 hf with rfl | hf
    · have hrest : (shapeFields shape value).lookup f.name = none := lookup_shapeFields_none hg
      cases hvalue : value f with
      | none => simpa [shapeFields, hvalue] using hrest
      | some x => simp [shapeFields, hvalue]
    · have hne : (f.name == g.name) = false := by
        have : f.name ≠ g.name := fun he => hg (he ▸ List.mem_map_of_mem hf)
        simpa using this
      have hrest := ih hnodup hf
      cases hvalue : value g with
      | none => simpa [shapeFields, hvalue] using hrest
      | some x => simpa [shapeFields, hvalue, List.lookup_cons, hne] using hrest

end Shape

/-- An object is accepted where its keys are the shape's and each field is accepted. -/
theorem object_isSome {strict : Bool} {shape : List Field} {fields : List (String × Json)}
    (hkeys : ∀ g ∈ fields, g.1 ∈ shape.map Field.name)
    (hshape : ∀ f ∈ shape, (f.required = false ∧ (obj fields).get? f.name = none) ∨
      ∃ x, (obj fields).get? f.name = some x ∧ (f.schema x).isSome = true) :
    (object strict shape (.obj fields)).isSome = true := by
  have hparse : ∀ shape' : List Field, (∀ f ∈ shape', f ∈ shape) →
      (parseFields shape' (.obj fields)).isSome = true := by
    intro shape' hsub
    induction shape' with
    | nil => rfl
    | cons f shape' ih =>
      obtain ⟨ys, hys⟩ := Option.isSome_iff_exists.1 (ih fun g hg => hsub g (List.mem_cons_of_mem _ hg))
      rcases hshape f (hsub f List.mem_cons_self) with ⟨hopt, hget⟩ | ⟨x, hget, hx⟩
      · simp [parseFields, hget, hopt, hys]
      · obtain ⟨y, hy⟩ := Option.isSome_iff_exists.1 hx
        simp [parseFields, hget, hy, hys]
  have hknown : ¬ (strict && fields.any fun f => !(shape.map Field.name).contains f.1) = true := by
    simp only [Bool.and_eq_true, List.any_eq_true, not_and, not_exists]
    intro _ g hg
    simpa using hkeys g hg
  simp only [object]
  rw [if_neg hknown, Option.isSome_map]
  exact hparse shape fun _ hf => hf

end Schema
