import QuantproCollector.Lib.Json

/-!
# Schemas

A `Schema` accepts a JSON value and returns the parsed one, or refuses it. The combinators follow the
usual schema language: texts and numbers with a check, enumerations, nullable values, arrays of
bounded length, and objects, which list their fields in the order of the shape, leave absent
optional ones out, and either refuse unknown keys (`strict`) or drop them.

`Stable s`: what `s` returned, it accepts unchanged. Every combinator keeps this, so a value that is
parsed twice is parsed once.
-/

/-- Accept and normalise a value, or refuse it. -/
abbrev Schema := Json → Option Json

namespace Schema

/-- A text that satisfies a check. -/
def text (ok : String → Bool) : Schema
  | .str s => if ok s then some (.str s) else none
  | _ => none

/-- A finite number that satisfies a check. -/
def number (ok : Decimal → Bool) : Schema
  | .num x => if ok x then some (.num x) else none
  | _ => none

def boolean : Schema
  | .bool b => some (.bool b)
  | _ => none

/-- One of the listed texts. -/
def oneOf (texts : List String) : Schema :=
  text texts.contains

/-- `null`, or a value of the schema. -/
def orNull (s : Schema) : Schema
  | .null => some .null
  | v => s v

/-- An array of at least `min` and at most `max` values of the schema. -/
def array (s : Schema) (min max : ℕ) : Schema
  | .arr xs => if min ≤ xs.length ∧ xs.length ≤ max then (xs.mapM s).map Json.arr else none
  | _ => none

/-- An object with arbitrary values whose keys satisfy a check. -/
def record (keyOk : String → Bool) : Schema
  | .obj fields => if fields.all (fun f => keyOk f.1) then some (.obj fields) else none
  | _ => none

/-- A field of an object shape. -/
structure Field where
  name : String
  required : Bool
  schema : Schema

/-- The fields of a value that the shape lists, in its order. -/
def parseFields : List Field → Json → Option (List (String × Json))
  | [], _ => some []
  | f :: shape, v =>
    match v.get? f.name with
    | none => if f.required then none else parseFields shape v
    | some x => do
      let y ← f.schema x
      let ys ← parseFields shape v
      return (f.name, y) :: ys

/-- An object of a shape; a strict one has no other keys. -/
def object (strict : Bool) (shape : List Field) : Schema
  | .obj fields =>
    if strict && fields.any (fun f => !(shape.map Field.name).contains f.1) then none
    else (parseFields shape (.obj fields)).map Json.obj
  | _ => none

/-! ## Parsing what was parsed -/

/-- What the schema returned, it accepts unchanged. -/
def Stable (s : Schema) : Prop :=
  ∀ v d, s v = some d → s d = some d

theorem stable_text (ok : String → Bool) : Stable (text ok) := by
  intro v d h
  cases v with
  | str s =>
    simp only [text] at h
    split_ifs at h with hs
    obtain rfl := Option.some.inj h
    simp only [text, if_pos hs]
  | _ => cases h

theorem stable_number (ok : Decimal → Bool) : Stable (number ok) := by
  intro v d h
  cases v with
  | num x =>
    simp only [number] at h
    split_ifs at h with hx
    obtain rfl := Option.some.inj h
    simp only [number, if_pos hx]
  | _ => cases h

theorem stable_boolean : Stable boolean := by
  intro v d h
  cases v with
  | bool b =>
    obtain rfl := Option.some.inj h
    rfl
  | _ => cases h

theorem stable_oneOf (texts : List String) : Stable (oneOf texts) :=
  stable_text _

theorem stable_orNull {s : Schema} (hs : Stable s) : Stable (orNull s) := by
  have hnull : ∀ d, s d = some d → orNull s d = some d := by
    intro d hd
    cases d with
    | null => rfl
    | _ => exact hd
  intro v d h
  cases v with
  | null =>
    obtain rfl := Option.some.inj h
    rfl
  | _ => exact hnull d (hs _ d h)

theorem length_mapM {s : Schema} {xs ys : List Json} (h : xs.mapM s = some ys) :
    ys.length = xs.length := by
  induction xs generalizing ys with
  | nil =>
    obtain rfl : [] = ys := by simpa using h
    rfl
  | cons x xs ih =>
    rw [List.mapM_cons] at h
    obtain ⟨y, -, h⟩ := Option.bind_eq_some_iff.1 h
    obtain ⟨zs, hzs, h⟩ := Option.bind_eq_some_iff.1 h
    obtain rfl : y :: zs = ys := Option.some.inj h
    rw [List.length_cons, List.length_cons, ih hzs]

theorem mem_of_mapM {s : Schema} {xs ys : List Json} (h : xs.mapM s = some ys) :
    ∀ y ∈ ys, ∃ x ∈ xs, s x = some y := by
  induction xs generalizing ys with
  | nil =>
    obtain rfl : [] = ys := by simpa using h
    simp
  | cons x xs ih =>
    rw [List.mapM_cons] at h
    obtain ⟨y, hy, h⟩ := Option.bind_eq_some_iff.1 h
    obtain ⟨zs, hzs, h⟩ := Option.bind_eq_some_iff.1 h
    obtain rfl : y :: zs = ys := Option.some.inj h
    intro z hz
    rcases List.mem_cons.1 hz with rfl | hz
    · exact ⟨x, List.mem_cons_self, hy⟩
    · obtain ⟨x', hx', hs⟩ := ih hzs z hz
      exact ⟨x', List.mem_cons_of_mem _ hx', hs⟩

theorem mapM_of_fixed {s : Schema} {ys : List Json} (h : ∀ y ∈ ys, s y = some y) :
    ys.mapM s = some ys := by
  induction ys with
  | nil => rfl
  | cons y ys ih =>
    rw [List.mapM_cons, h y List.mem_cons_self, ih fun z hz => h z (List.mem_cons_of_mem _ hz)]
    rfl

theorem stable_array {s : Schema} (hs : Stable s) (min max : ℕ) : Stable (array s min max) := by
  intro v d h
  cases v with
  | arr xs =>
    simp only [array] at h
    split_ifs at h with hlen
    obtain ⟨ys, hys, rfl⟩ := Option.map_eq_some_iff.1 h
    have hmap : ys.mapM s = some ys := mapM_of_fixed fun y hy => by
      obtain ⟨x, -, hx⟩ := mem_of_mapM hys y hy
      exact hs x y hx
    simp only [array]
    rw [if_pos (by rw [length_mapM hys]; exact hlen), hmap]
    rfl
  | _ => cases h

theorem stable_record (keyOk : String → Bool) : Stable (record keyOk) := by
  intro v d h
  cases v with
  | obj fields =>
    simp only [record] at h
    split_ifs at h with hk
    obtain rfl := Option.some.inj h
    simp only [record, if_pos hk]
  | _ => cases h

/-- The parsed fields are named by the shape. -/
theorem name_mem_of_parseFields {shape : List Field} {v : Json} {ys : List (String × Json)}
    (h : parseFields shape v = some ys) : ∀ y ∈ ys, y.1 ∈ shape.map Field.name := by
  induction shape generalizing ys with
  | nil =>
    obtain rfl : [] = ys := by simpa [parseFields] using h
    simp
  | cons f shape ih =>
    simp only [parseFields] at h
    split at h
    · split_ifs at h
      intro y hy
      exact List.mem_cons_of_mem _ (ih h y hy)
    · obtain ⟨x', hx', h⟩ := Option.bind_eq_some_iff.1 h
      obtain ⟨zs, hzs, h⟩ := Option.bind_eq_some_iff.1 h
      obtain rfl : (f.name, x') :: zs = ys := Option.some.inj h
      intro y hy
      rcases List.mem_cons.1 hy with rfl | hy
      · exact List.mem_cons_self
      · exact List.mem_cons_of_mem _ (ih hzs y hy)

/-- What a field of the shape parses to is what the parsed object has under its name. -/
theorem lookup_parseFields {shape : List Field} (hnodup : (shape.map Field.name).Nodup) {v : Json}
    {ys : List (String × Json)} (h : parseFields shape v = some ys) :
    ∀ f ∈ shape, ys.lookup f.name = (v.get? f.name).bind f.schema ∧
      ((v.get? f.name).isSome = true → (ys.lookup f.name).isSome = true) ∧
      (f.required = true → (v.get? f.name).isSome = true) := by
  induction shape generalizing ys with
  | nil => simp
  | cons g shape ih =>
    obtain ⟨hg, hnodup⟩ := List.nodup_cons.1 hnodup
    -- a field below the head has another name, so the head's entry does not hide its own
    have hne : ∀ f ∈ shape, (f.name == g.name) = false := by
      intro f hf
      have : f.name ≠ g.name := fun he => hg (he ▸ List.mem_map_of_mem hf)
      simpa using this
    simp only [parseFields] at h
    split at h
    · rename_i hget
      split_ifs at h with hreq
      intro f hf
      rcases List.mem_cons.1 hf with rfl | hf
      · have hnone : ys.lookup f.name = none := by
          rw [List.lookup_eq_none_iff]
          intro y hy
          have hy := name_mem_of_parseFields h y hy
          have hyne : f.name ≠ y.1 := fun he => hg (he ▸ hy)
          simpa using hyne
        rw [hnone, hget]
        exact ⟨rfl, by simp, fun hr => absurd hr hreq⟩
      · exact ih hnodup h f hf
    · rename_i x hget
      obtain ⟨y, hy, h⟩ := Option.bind_eq_some_iff.1 h
      obtain ⟨zs, hzs, h⟩ := Option.bind_eq_some_iff.1 h
      obtain rfl : (g.name, y) :: zs = ys := Option.some.inj h
      intro f hf
      rcases List.mem_cons.1 hf with rfl | hf
      · rw [List.lookup_cons_self, hget]
        exact ⟨hy.symm, fun _ => rfl, fun _ => rfl⟩
      · rw [List.lookup_cons, hne f hf]
        exact ih hnodup hzs f hf

/-- A field of a parsed object is what its schema made of the field of the value. -/
theorem get?_of_object {strict : Bool} {shape : List Field}
    (hnodup : (shape.map Field.name).Nodup) {v d : Json} (h : object strict shape v = some d) :
    ∀ f ∈ shape, d.get? f.name = (v.get? f.name).bind f.schema ∧
      (f.required = true → (d.get? f.name).isSome = true) := by
  cases v with
  | obj fields =>
    simp only [object] at h
    split_ifs at h
    obtain ⟨ys, hys, rfl⟩ := Option.map_eq_some_iff.1 h
    intro f hf
    obtain ⟨hget, hsome, hreq⟩ := lookup_parseFields hnodup hys f hf
    exact ⟨hget, fun hr => hsome (hreq hr)⟩
  | _ => cases h

/-- The elements of a parsed array are parsed, and within its bounds. -/
theorem elements_of_array {s : Schema} {min max : ℕ} {v d : Json} (h : array s min max v = some d) :
    ∃ ys, d = .arr ys ∧ min ≤ ys.length ∧ ys.length ≤ max ∧ ∀ y ∈ ys, ∃ x, s x = some y := by
  cases v with
  | arr xs =>
    simp only [array] at h
    split_ifs at h with hlen
    obtain ⟨ys, hys, rfl⟩ := Option.map_eq_some_iff.1 h
    rw [← length_mapM hys] at hlen
    refine ⟨ys, rfl, hlen.1, hlen.2, fun y hy => ?_⟩
    obtain ⟨x, -, hx⟩ := mem_of_mapM hys y hy
    exact ⟨x, hx⟩
  | _ => cases h

/-- Fields that look up to what they parse to parse to themselves. -/
theorem parseFields_eq_self {shape : List Field} (hstable : ∀ f ∈ shape, Stable f.schema)
    {v : Json} {ys : List (String × Json)} (h : parseFields shape v = some ys) {w : Json}
    (hw : ∀ f ∈ shape, w.get? f.name = (v.get? f.name).bind f.schema) :
    parseFields shape w = some ys := by
  induction shape generalizing ys with
  | nil => simpa [parseFields] using h
  | cons f shape ih =>
    have hrest : ∀ {zs}, parseFields shape v = some zs → parseFields shape w = some zs :=
      fun hzs => ih (fun g hg => hstable g (List.mem_cons_of_mem _ hg)) hzs
        (fun g hg => hw g (List.mem_cons_of_mem _ hg))
    have hf := hw f List.mem_cons_self
    simp only [parseFields] at h ⊢
    split at h
    · rename_i hget
      rw [hget] at hf
      rw [hf]
      split_ifs at h ⊢
      exact hrest h
    · rename_i x hget
      rw [hget] at hf
      obtain ⟨y, hy, h⟩ := Option.bind_eq_some_iff.1 h
      obtain ⟨zs, hzs, h⟩ := Option.bind_eq_some_iff.1 h
      rw [hf]
      simp only [Option.bind_some, hy, hstable f List.mem_cons_self x y hy, hrest hzs]
      exact h

theorem stable_object {strict : Bool} {shape : List Field}
    (hnodup : (shape.map Field.name).Nodup) (hstable : ∀ f ∈ shape, Stable f.schema) :
    Stable (object strict shape) := by
  intro v d h
  cases v with
  | obj fields =>
    simp only [object] at h
    split_ifs at h
    obtain ⟨ys, hys, rfl⟩ := Option.map_eq_some_iff.1 h
    have hself : parseFields shape (.obj ys) = some ys :=
      parseFields_eq_self hstable hys fun f hf => (lookup_parseFields hnodup hys f hf).1
    have hknown : (strict && ys.any fun f => !(shape.map Field.name).contains f.1) = false := by
      rw [Bool.and_eq_false_iff, List.any_eq_false]
      refine .inr fun y hy => ?_
      simpa using name_mem_of_parseFields hys y hy
    simp only [object, hknown, hself]
    rfl
  | _ => cases h

/-! ## Parsing that changes nothing -/

/-- The schema returns what it accepts. -/
def Exact (s : Schema) : Prop :=
  ∀ v d, s v = some d → d = v

theorem exact_text (ok : String → Bool) : Exact (text ok) := by
  intro v d h
  cases v with
  | str s =>
    simp only [text] at h
    split_ifs at h
    exact (Option.some.inj h).symm
  | _ => cases h

theorem exact_oneOf (texts : List String) : Exact (oneOf texts) :=
  exact_text _

theorem exact_orNull {s : Schema} (hs : Exact s) : Exact (orNull s) := by
  intro v d h
  cases v with
  | null => exact (Option.some.inj h).symm
  | _ => exact hs _ d h

theorem exact_record (keyOk : String → Bool) : Exact (record keyOk) := by
  intro v d h
  cases v with
  | obj fields =>
    simp only [record] at h
    split_ifs at h
    exact (Option.some.inj h).symm
  | _ => cases h

theorem mapM_exact {s : Schema} (hs : Exact s) {xs ys : List Json} (h : xs.mapM s = some ys) :
    ys = xs := by
  induction xs generalizing ys with
  | nil =>
    obtain rfl : [] = ys := by simpa using h
    rfl
  | cons x xs ih =>
    rw [List.mapM_cons] at h
    obtain ⟨y, hy, h⟩ := Option.bind_eq_some_iff.1 h
    obtain ⟨zs, hzs, h⟩ := Option.bind_eq_some_iff.1 h
    obtain rfl : y :: zs = ys := Option.some.inj h
    rw [hs x y hy, ih hzs]

theorem exact_array {s : Schema} (hs : Exact s) (min max : ℕ) : Exact (array s min max) := by
  intro v d h
  cases v with
  | arr xs =>
    simp only [array] at h
    split_ifs at h
    obtain ⟨ys, hys, rfl⟩ := Option.map_eq_some_iff.1 h
    rw [mapM_exact hs hys]
  | _ => cases h

/-- A field that an exact schema parses is the field of the value. -/
theorem get?_of_exact {strict : Bool} {shape : List Field} (hnodup : (shape.map Field.name).Nodup)
    {v d : Json} (h : object strict shape v = some d) {f : Field} (hf : f ∈ shape)
    (hexact : Exact f.schema) (hreq : f.required = true) :
    ∃ x, d.get? f.name = some x ∧ v.get? f.name = some x ∧ f.schema x = some x := by
  obtain ⟨hget, hsome⟩ := get?_of_object hnodup h f hf
  obtain ⟨x, hx⟩ := Option.isSome_iff_exists.1 (hsome hreq)
  rw [hx] at hget
  obtain ⟨y, hy, hyx⟩ := Option.bind_eq_some_iff.1 hget.symm
  obtain rfl := hexact y x hyx
  exact ⟨x, hx, hy, hyx⟩

/-- A field that is there is parsed, and then the fields below it. -/
theorem parseFields_cons {f : Field} {shape : List Field} {v x : Json} {ys : List (String × Json)}
    (hx : v.get? f.name = some x) (h : parseFields (f :: shape) v = some ys) :
    ∃ y zs, f.schema x = some y ∧ parseFields shape v = some zs ∧ ys = (f.name, y) :: zs := by
  simp only [parseFields, hx] at h
  obtain ⟨y, hy, h⟩ := Option.bind_eq_some_iff.1 h
  obtain ⟨zs, hzs, h⟩ := Option.bind_eq_some_iff.1 h
  exact ⟨y, zs, hy, hzs, (Option.some.inj h).symm⟩

/-- Fields in the order of an exact shape are parsed to themselves. -/
theorem parseFields_exact {shape : List Field} (hexact : ∀ f ∈ shape, Exact f.schema) {v : Json}
    {fields ys : List (String × Json)} (hnames : shape.map Field.name = fields.map Prod.fst)
    (hget : ∀ p ∈ fields, v.get? p.1 = some p.2) (h : parseFields shape v = some ys) :
    ys = fields := by
  induction shape generalizing fields ys with
  | nil =>
    obtain rfl : fields = [] := by simpa using hnames.symm
    obtain rfl : [] = ys := by simpa [parseFields] using h
    rfl
  | cons f shape ih =>
    obtain ⟨p, rest, rfl⟩ : ∃ p rest, fields = p :: rest := by
      cases fields with
      | nil => simp at hnames
      | cons p rest => exact ⟨p, rest, rfl⟩
    rw [List.map_cons, List.map_cons] at hnames
    obtain ⟨hname, hnames⟩ := List.cons.inj hnames
    obtain ⟨y, zs, hy, hzs, rfl⟩ :=
      parseFields_cons (hname ▸ hget p List.mem_cons_self : v.get? f.name = some p.2) h
    have hzs := ih (fun g hg => hexact g (List.mem_cons_of_mem _ hg)) hnames
      (fun q hq => hget q (List.mem_cons_of_mem _ hq)) hzs
    rw [hexact f List.mem_cons_self _ _ hy, hzs, hname]

theorem lookup_of_mem {fields : List (String × Json)} (hnodup : (fields.map Prod.fst).Nodup)
    {p : String × Json} (hp : p ∈ fields) : fields.lookup p.1 = some p.2 := by
  induction fields with
  | nil => cases hp
  | cons q fields ih =>
    obtain ⟨hq, hnodup⟩ := List.nodup_cons.1 hnodup
    rcases List.mem_cons.1 hp with rfl | hp
    · exact List.lookup_cons_self
    · have hne : p.1 ≠ q.1 := fun he => hq (he ▸ List.mem_map_of_mem hp)
      rw [List.lookup_cons, beq_eq_false_iff_ne.2 hne]
      exact ih hnodup hp

/-- An object with the fields of an exact shape, in its order, is parsed to itself. -/
theorem object_exact {strict : Bool} {shape : List Field}
    (hnodup : (shape.map Field.name).Nodup) (hexact : ∀ f ∈ shape, Exact f.schema)
    {fields : List (String × Json)} {d : Json}
    (hnames : shape.map Field.name = fields.map Prod.fst)
    (h : object strict shape (.obj fields) = some d) : d = .obj fields := by
  simp only [object] at h
  split_ifs at h
  obtain ⟨ys, hys, rfl⟩ := Option.map_eq_some_iff.1 h
  have hget : ∀ p ∈ fields, (Json.obj fields).get? p.1 = some p.2 := fun p hp =>
    lookup_of_mem (hnames ▸ hnodup) hp
  rw [parseFields_exact hexact hnames hget hys]

end Schema
