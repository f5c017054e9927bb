import QuantproCollector.Lib.JsonText

/-!
# Serialisations that agree

The serialisation of a value ends where it ends: no other value's serialisation continues it. So two
objects with the same keys that are written alike have fields that are written alike, whatever
follows them, and so have two objects whose keys were sorted before they were written.
-/

namespace Json

/-! ## Numbers -/

/-- A character that a number's text can have. -/
def isNumeric (c : Char) : Bool :=
  c.isDigit || c = '-' || c = '+' || c = '.' || c = 'e'

theorem isNumeric_of_isDigit {c : Char} (h : c.isDigit = true) : isNumeric c = true := by
  simp [isNumeric, h]

theorem isNumeric_digits {n : ℕ} {c : Char} (h : c ∈ Decimal.digits n) : isNumeric c = true :=
  isNumeric_of_isDigit (Nat.isDigit_of_mem_toDigits (by decide) (by decide) h)

theorem isNumeric_layout {ds : List Char} (hds : ∀ c ∈ ds, isNumeric c = true) (n : ℤ) :
    ∀ c ∈ Decimal.layout ds n, isNumeric c = true := by
  have hzeros : ∀ k, ∀ c ∈ List.replicate k '0', isNumeric c = true := by
    intro k c hc
    rw [(List.mem_replicate.1 hc).2]
    decide
  have hsign : isNumeric (if n - 1 < 0 then '-' else '+') = true := by
    split_ifs
    · decide
    · decide
  unfold Decimal.layout
  dsimp only
  split_ifs
  · simp only [List.forall_mem_append]
    exact ⟨hds, hzeros _⟩
  · simp only [List.forall_mem_append, List.forall_mem_cons]
    exact ⟨fun c hc => hds c (List.mem_of_mem_take hc), by decide,
      fun c hc => hds c (List.mem_of_mem_drop hc)⟩
  · simp only [List.cons_append, List.forall_mem_append, List.forall_mem_cons]
    exact ⟨by decide, by decide, hzeros _, hds⟩
  all_goals
    simp only [List.forall_mem_append, List.forall_mem_cons]
    refine ⟨?_, by decide, by decide, fun c hc => isNumeric_digits hc⟩
    match ds, hds with
    | [], _ => simp
    | [d], hds => simpa using hds
    | d :: e :: rest, hds =>
      simp only [List.forall_mem_cons] at hds ⊢
      exact ⟨hds.1, by decide, hds.2.1, hds.2.2⟩

/-- A number's text has numeric characters only. -/
theorem isNumeric_text (x : Decimal) : ∀ c ∈ x.text, isNumeric c = true := by
  unfold Decimal.text
  split_ifs
  · simp only [List.forall_mem_cons]
    exact ⟨by decide, by simp⟩
  · simp only [List.forall_mem_append, List.forall_mem_cons]
    exact ⟨⟨by decide, by simp⟩, isNumeric_layout (fun _ => isNumeric_digits) _⟩
  · simp only [List.forall_mem_append]
    exact ⟨by simp, isNumeric_layout (fun _ => isNumeric_digits) _⟩

/-- What may follow a value: nothing, or a character that no number has. -/
def Delimited (rest : List Char) : Prop :=
  ∀ c ∈ rest.head?, isNumeric c = false

theorem delimited_cons {c : Char} (h : isNumeric c = false) (rest : List Char) :
    Delimited (c :: rest) := by
  simpa [Delimited] using h

/-- The numeric characters end where a text is delimited. -/
theorem numeric_append_inj {as bs rest rest' : List Char} (has : ∀ c ∈ as, isNumeric c = true)
    (hbs : ∀ c ∈ bs, isNumeric c = true) (hrest : Delimited rest) (hrest' : Delimited rest')
    (h : as ++ rest = bs ++ rest') : as = bs ∧ rest = rest' := by
  have hnone : ∀ r, Delimited r → r.takeWhile isNumeric = [] ∧ r.dropWhile isNumeric = r := by
    rintro (_ | ⟨c, r⟩) hr
    · exact ⟨rfl, rfl⟩
    · have hc : isNumeric c = false := hr c rfl
      simp [hc]
  have htake := congrArg (List.takeWhile isNumeric) h
  have hdrop := congrArg (List.dropWhile isNumeric) h
  rw [List.takeWhile_append_of_pos has, List.takeWhile_append_of_pos hbs, (hnone _ hrest).1,
    (hnone _ hrest').1, List.append_nil, List.append_nil] at htake
  rw [List.dropWhile_append_of_pos has, List.dropWhile_append_of_pos hbs, (hnone _ hrest).2,
    (hnone _ hrest').2] at hdrop
  exact ⟨htake, hdrop⟩

/-! ## Values -/

/-- The first character of a value's serialisation tells what kind of value it is. -/
def leads : Json → Char → Prop
  | null, c => c = 'n'
  | bool true, c => c = 't'
  | bool false, c => c = 'f'
  | num _, c => isNumeric c = true
  | str _, c => c = '"'
  | arr _, c => c = '['
  | obj _, c => c = '{'

theorem chars_eq_cons (v : Json) : ∃ c rest, v.chars = c :: rest ∧ v.leads c := by
  cases v with
  | null => exact ⟨_, _, rfl, rfl⟩
  | bool b => cases b <;> exact ⟨_, _, rfl, rfl⟩
  | num x =>
    obtain ⟨c, rest, h⟩ := List.exists_cons_of_ne_nil (Decimal.text_ne_nil x)
    exact ⟨c, rest, h, isNumeric_text x c (h ▸ List.mem_cons_self)⟩
  | str s => exact ⟨_, _, rfl, rfl⟩
  | arr xs => exact ⟨_, _, rfl, rfl⟩
  | obj fields => exact ⟨_, _, rfl, rfl⟩

/-- Values whose serialisations begin alike lead alike. -/
theorem exists_leads {v w : Json} {rest rest' : List Char}
    (h : v.chars ++ rest = w.chars ++ rest') : ∃ c, v.leads c ∧ w.leads c := by
  obtain ⟨c, cs, hv, hc⟩ := chars_eq_cons v
  obtain ⟨d, ds, hw, hd⟩ := chars_eq_cons w
  rw [hv, hw, List.cons_append, List.cons_append] at h
  obtain ⟨rfl, -⟩ := List.cons.inj h
  exact ⟨c, hc, hd⟩

/-- Two fields with one key whose values are written alike. -/
def SameField (f g : String × Json) : Prop :=
  f.1 = g.1 ∧ f.2.chars = g.2.chars

/-- What follows the first of some elements. -/
def elementsTail : List Json → List Char
  | [] => []
  | x :: xs => ',' :: elements (x :: xs)

theorem elements_cons (x : Json) (xs : List Json) :
    elements (x :: xs) = x.chars ++ elementsTail xs := by
  cases xs with
  | nil => simp [elements, elementsTail]
  | cons y ys => rw [elements, elementsTail]

/-- What follows the first of some members. -/
def membersTail : List (String × Json) → List Char
  | [] => []
  | m :: ms => ',' :: members (m :: ms)

theorem members_cons (k : String) (x : Json) (ms : List (String × Json)) :
    members ((k, x) :: ms) = quote k ++ ':' :: (x.chars ++ membersTail ms) := by
  cases ms with
  | nil => simp [members, membersTail]
  | cons m ms => simp [members, membersTail]

theorem delimited_elementsTail (xs : List Json) (rest : List Char) :
    Delimited (elementsTail xs ++ ']' :: rest) := by
  cases xs with
  | nil => exact delimited_cons (by decide) _
  | cons x xs => exact delimited_cons (by decide) _

theorem delimited_membersTail (ms : List (String × Json)) (rest : List Char) :
    Delimited (membersTail ms ++ '}' :: rest) := by
  cases ms with
  | nil => exact delimited_cons (by decide) _
  | cons m ms => exact delimited_cons (by decide) _

/-- No value begins as an array ends. -/
theorem not_leads_close (v : Json) : ¬ v.leads ']' := by
  cases v with
  | bool b => cases b <;> simp [leads]
  | num x => simp [leads, isNumeric]
  | _ => simp [leads]

theorem ne_close_append (v : Json) (rest rest' : List Char) : ']' :: rest ≠ v.chars ++ rest' := by
  obtain ⟨c, cs, hv, hc⟩ := chars_eq_cons v
  rw [hv]
  intro h
  obtain ⟨rfl, -⟩ := List.cons.inj h
  exact not_leads_close v hc

mutual

/-- **A serialisation ends where it ends.** -/
theorem chars_append_inj (v w : Json) (rest rest' : List Char) (hrest : Delimited rest)
    (hrest' : Delimited rest') (h : v.chars ++ rest = w.chars ++ rest') :
    v.chars = w.chars ∧ rest = rest' := by
  obtain ⟨c, hv, hw⟩ := exists_leads h
  match v, w, hv, hw, h with
  | null, null, _, _, h => exact ⟨rfl, List.append_cancel_left h⟩
  | bool true, bool true, _, _, h => exact ⟨rfl, List.append_cancel_left h⟩
  | bool false, bool false, _, _, h => exact ⟨rfl, List.append_cancel_left h⟩
  | num x, num y, _, _, h =>
    exact numeric_append_inj (isNumeric_text x) (isNumeric_text y) hrest hrest' h
  | str s, str t, _, _, h =>
    obtain ⟨hst, hr⟩ := quote_append_inj (s := s) (t := t) h
    exact ⟨by rw [hst], hr⟩
  | arr xs, arr ys, _, _, h =>
    have hxs : elements xs ++ ']' :: rest = elements ys ++ ']' :: rest' := by
      simpa [chars] using h
    obtain ⟨hsame, hrest⟩ := elements_append_inj xs ys _ _ hxs
    exact ⟨by simp [chars, hsame], hrest⟩
  | obj fs, obj gs, _, _, h =>
    have hfs : members fs ++ '}' :: rest = members gs ++ '}' :: rest' := by
      simpa [chars] using h
    obtain ⟨-, hsame, hrest⟩ := members_append_inj fs gs _ _ hfs
    exact ⟨by simp [chars, hsame], hrest⟩

theorem elements_append_inj (xs ys : List Json) (rest rest' : List Char)
    (h : elements xs ++ ']' :: rest = elements ys ++ ']' :: rest') :
    elements xs = elements ys ∧ rest = rest' := by
  match xs, ys, h with
  | [], [], h => exact ⟨rfl, (List.cons.inj h).2⟩
  | [], y :: ys, h =>
    rw [elements_cons, List.append_assoc] at h
    exact absurd h (ne_close_append y _ _)
  | x :: xs, [], h =>
    rw [elements_cons, List.append_assoc] at h
    exact absurd h.symm (ne_close_append x _ _)
  | x :: xs, y :: ys, h =>
    rw [elements_cons, elements_cons, List.append_assoc, List.append_assoc] at h
    obtain ⟨hx, htail⟩ := chars_append_inj x y _ _ (delimited_elementsTail xs rest)
      (delimited_elementsTail ys rest') h
    rw [elements_cons, elements_cons, hx]
    match xs, ys, htail with
    | [], [], htail => exact ⟨rfl, (List.cons.inj htail).2⟩
    | [], y' :: ys, htail => exact absurd (List.cons.inj htail).1 (by decide)
    | x' :: xs, [], htail => exact absurd (List.cons.inj htail).1 (by decide)
    | x' :: xs, y' :: ys, htail =>
      obtain ⟨hsame, hrest⟩ := elements_append_inj (x' :: xs) (y' :: ys) rest rest'
        (List.cons.inj htail).2
      exact ⟨by rw [elementsTail, elementsTail, hsame], hrest⟩

theorem members_append_inj (fs gs : List (String × Json)) (rest rest' : List Char)
    (h : members fs ++ '}' :: rest = members gs ++ '}' :: rest') :
    List.Forall₂ SameField fs gs ∧ members fs = members gs ∧ rest = rest' := by
  match fs, gs, h with
  | [], [], h => exact ⟨.nil, rfl, (List.cons.inj h).2⟩
  | [], (k, y) :: gs, h =>
    rw [members_cons, quote] at h
    exact absurd (List.cons.inj h).1 (by decide)
  | (k, x) :: fs, [], h =>
    rw [members_cons, quote] at h
    exact absurd (List.cons.inj h).1 (by decide)
  | (k, x) :: fs, (k', y) :: gs, h =>
    rw [members_cons, members_cons, List.append_assoc, List.append_assoc] at h
    obtain ⟨rfl, hvalue⟩ := quote_append_inj h
    have hvalue : x.chars ++ (membersTail fs ++ '}' :: rest) =
        y.chars ++ (membersTail gs ++ '}' :: rest') := by
      simpa using hvalue
    obtain ⟨hx, htail⟩ := chars_append_inj x y _ _ (delimited_membersTail fs rest)
      (delimited_membersTail gs rest') hvalue
    rw [members_cons, members_cons, hx]
    match fs, gs, htail with
    | [], [], htail => exact ⟨.cons ⟨rfl, hx⟩ .nil, rfl, (List.cons.inj htail).2⟩
    | [], g :: gs, htail => exact absurd (List.cons.inj htail).1 (by decide)
    | f :: fs, [], htail => exact absurd (List.cons.inj htail).1 (by decide)
    | f :: fs, g :: gs, htail =>
      obtain ⟨hfields, hsame, hrest⟩ := members_append_inj (f :: fs) (g :: gs) rest rest'
        (List.cons.inj htail).2
      exact ⟨.cons ⟨rfl, hx⟩ hfields, by rw [membersTail, membersTail, hsame], hrest⟩

end

/-! ## Sorted objects -/

/-- Two objects that are written alike have fields that are written alike. -/
theorem sameFields_of_chars {fs gs : List (String × Json)} (h : (obj fs).chars = (obj gs).chars) :
    List.Forall₂ SameField fs gs := by
  refine (members_append_inj fs gs [] [] ?_).1
  simpa [chars] using h

theorem chars_of_sameFields {fs gs : List (String × Json)} (h : List.Forall₂ SameField fs gs) :
    (obj fs).chars = (obj gs).chars := by
  have hmembers : members fs = members gs := by
    induction h with
    | nil => rfl
    | @cons f g fs gs hfg h ih =>
      obtain ⟨k, x⟩ := f
      obtain ⟨k', y⟩ := g
      obtain ⟨rfl, hxy⟩ : k = k' ∧ x.chars = y.chars := hfg
      have htail : membersTail fs = membersTail gs := by
        cases h with
        | nil => rfl
        | cons h h' => rw [membersTail, membersTail, ih]
      rw [members_cons, members_cons, hxy, htail]
  simp [chars, hmembers]

section Paired

variable (le : String → String → Bool)

/-- The two objects of a list of keys with two values each. -/
def lefts (ps : List (String × Json × Json)) : List (String × Json) :=
  ps.map fun p => (p.1, p.2.1)

def rights (ps : List (String × Json × Json)) : List (String × Json) :=
  ps.map fun p => (p.1, p.2.2)

theorem canonicalizeFields_eq_map (fs : List (String × Json)) :
    canonicalizeFields le fs = fs.map fun f => (f.1, f.2.canonicalize le) := by
  induction fs with
  | nil => rfl
  | cons f fs ih =>
    obtain ⟨k, x⟩ := f
    rw [canonicalizeFields, ih, List.map_cons]

/-- Sorting the fields of two objects with the same keys pairs them in the same order. -/
theorem sortFields_map {α : Type} (f : α → String × Json) (ps : List α) :
    sortFields le (ps.map f) =
      (ps.insertionSort fun a b => le (f a).1 (f b).1 = true).map f :=
  (List.map_insertionSort (r := fun a b => le (f a).1 (f b).1 = true) _ f ps
    fun _ _ _ _ => Iff.rfl).symm

/-- **Two objects with the same keys** are written alike, their keys sorted at every depth, exactly
where the values of each key are. -/
theorem chars_canonicalize_paired (ps : List (String × Json × Json)) :
    ((obj (lefts ps)).canonicalize le).chars = ((obj (rights ps)).canonicalize le).chars ↔
      ∀ p ∈ ps, (p.2.1.canonicalize le).chars = (p.2.2.canonicalize le).chars := by
  have hleft : (obj (lefts ps)).canonicalize le =
      obj ((ps.insertionSort fun a b => le a.1 b.1 = true).map fun p =>
        (p.1, p.2.1.canonicalize le)) := by
    rw [canonicalize, canonicalizeFields_eq_map, lefts, List.map_map, sortFields_map]
    rfl
  have hright : (obj (rights ps)).canonicalize le =
      obj ((ps.insertionSort fun a b => le a.1 b.1 = true).map fun p =>
        (p.1, p.2.2.canonicalize le)) := by
    rw [canonicalize, canonicalizeFields_eq_map, rights, List.map_map, sortFields_map]
    rfl
  have hfields : ∀ qs : List (String × Json × Json),
      List.Forall₂ SameField (qs.map fun p => (p.1, p.2.1.canonicalize le))
        (qs.map fun p => (p.1, p.2.2.canonicalize le)) ↔
        ∀ p ∈ qs, (p.2.1.canonicalize le).chars = (p.2.2.canonicalize le).chars := by
    intro qs
    rw [List.forall₂_map_left_iff, List.forall₂_map_right_iff, List.forall₂_same]
    simp [SameField]
  rw [hleft, hright]
  constructor
  · intro h p hp
    exact (hfields _).1 (sameFields_of_chars h) p ((List.mem_insertionSort _).2 hp)
  · intro h
    refine chars_of_sameFields ((hfields _).2 fun p hp => h p ?_)
    exact (List.mem_insertionSort _).1 hp

end Paired

theorem rebuiltText_inj {v w : Json} :
    v.rebuiltText = w.rebuiltText ↔
      (v.canonicalize propertyLe).chars = (w.canonicalize propertyLe).chars :=
  String.ofList_inj

/-- The objects of paired fields have one text where the values of each key have. -/
theorem rebuiltText_paired (ps : List (String × Json × Json)) :
    (obj (lefts ps)).rebuiltText = (obj (rights ps)).rebuiltText ↔
      ∀ p ∈ ps, p.2.1.rebuiltText = p.2.2.rebuiltText := by
  simp only [rebuiltText_inj]
  exact chars_canonicalize_paired propertyLe ps

@[simp] theorem rebuiltText_str {s t : String} :
    (str s).rebuiltText = (str t).rebuiltText ↔ s = t := by
  rw [rebuiltText_inj]
  refine ⟨fun h => ?_, fun h => by rw [h]⟩
  have hquoted : quote s ++ [] = quote t ++ [] := by simpa [canonicalize, chars] using h
  exact (quote_append_inj hquoted).1

@[simp] theorem rebuiltText_null_str {s : String} : null.rebuiltText ≠ (str s).rebuiltText := by
  rw [ne_eq, rebuiltText_inj]
  simp [canonicalize, chars, quote]

end Json
