import Mathlib.Data.List.Forall2
import Mathlib.Data.List.TakeWhile

/-!
# Assignments in a text

A text of lines such as `name="value";`, and a reader that looks for the first line which assigns a name.
White space and the comparison of letters are parameters. A value runs to the next quote, over lines too.

* `exec_eq_some`: what is read stands in the text, at the start of a line, as the value of the name.
* `exec_table`: of a table written line by line it is the value that the table has first for the name.
-/

namespace Assignments

variable (space : Char → Bool) (same : Char → Char → Bool)

/-- The text after the name. -/
def dropName : List Char → List Char → Option (List Char)
  | [], text => some text
  | _ :: _, [] => none
  | n :: name, c :: text => if same n c then dropName name text else none

/-- The text after a sign with white space before it. -/
def dropSign (sign : Char) (text : List Char) : Option (List Char) :=
  match text.dropWhile space with
  | c :: rest => if c = sign then some rest else none
  | [] => none

/-- The text before the next quote. -/
def quoted (text : List Char) : Option (List Char) :=
  if '"' ∈ text then some (text.takeWhile (· != '"')) else none

/-- The value that is assigned to the name where a line starts. -/
def assigned (name text : List Char) : Option (List Char) :=
  (((dropName same name (text.dropWhile space)).bind (dropSign space '=')).bind
    (dropSign space '"')).bind quoted

/-- `\r?\n`. -/
def lineBreak : List Char → Option (List Char)
  | '\r' :: '\n' :: rest => some rest
  | '\n' :: rest => some rest
  | _ => none

/-- The first assignment after a line break. -/
def afterBreak (name : List Char) : List Char → Option (List Char)
  | [] => none
  | c :: rest => ((lineBreak (c :: rest)).bind (assigned space same name)).or (afterBreak name rest)

/-- The first assignment of the name. -/
def exec (name text : List Char) : Option (List Char) :=
  (assigned space same name text).or (afterBreak space same name text)

/-! ## What is read -/

/-- The text starts with an assignment of the value to the name. -/
def Assigns (name value text : List Char) : Prop :=
  ∃ gap written gap₁ gap₂ rest : List Char,
    text = gap ++ (written ++ (gap₁ ++ '=' :: (gap₂ ++ '"' :: (value ++ '"' :: rest)))) ∧
      (∀ c ∈ gap ++ gap₁ ++ gap₂, space c = true) ∧
      List.Forall₂ (fun n c => same n c = true) name written ∧ '"' ∉ value

variable {space same}

theorem dropWhile_split (space : Char → Bool) (text : List Char) :
    ∃ gap, text = gap ++ text.dropWhile space ∧ ∀ c ∈ gap, space c = true :=
  ⟨text.takeWhile space, List.takeWhile_append_dropWhile.symm, fun _ hc => List.mem_takeWhile_imp hc⟩

theorem dropName_eq_some {name text rest : List Char} (h : dropName same name text = some rest) :
    ∃ written, text = written ++ rest ∧ List.Forall₂ (fun n c => same n c = true) name written := by
  induction name generalizing text with
  | nil => exact ⟨[], Option.some.inj h, .nil⟩
  | cons n name ih =>
    cases text with
    | nil => cases h
    | cons c text =>
      unfold dropName at h
      split_ifs at h with hsame
      obtain ⟨written, rfl, hwritten⟩ := ih h
      exact ⟨c :: written, rfl, .cons hsame hwritten⟩

theorem dropSign_eq_some {sign : Char} {text rest : List Char}
    (h : dropSign space sign text = some rest) :
    ∃ gap, text = gap ++ sign :: rest ∧ ∀ c ∈ gap, space c = true := by
  obtain ⟨gap, htext, hgap⟩ := dropWhile_split space text
  unfold dropSign at h
  cases hdrop : text.dropWhile space with
  | nil =>
    rw [hdrop] at h
    cases h
  | cons c tail =>
    rw [hdrop] at h htext
    dsimp only at h
    split_ifs at h with hc
    obtain rfl := Option.some.inj h
    exact ⟨gap, hc ▸ htext, hgap⟩

theorem quoted_append {value : List Char} (h : '"' ∉ value) (rest : List Char) :
    quoted (value ++ '"' :: rest) = some value := by
  have hmem : '"' ∈ value ++ '"' :: rest := by simp
  rw [quoted, if_pos hmem, List.takeWhile_append_of_pos, List.takeWhile_cons_of_neg (by simp),
    List.append_nil]
  intro c hc
  have hne : c ≠ '"' := fun heq => h (heq ▸ hc)
  simpa using hne

theorem quoted_eq_some {text value : List Char} (h : quoted text = some value) :
    ∃ rest, text = value ++ '"' :: rest ∧ '"' ∉ value := by
  unfold quoted at h
  split_ifs at h with hmem
  obtain ⟨front, rest, rfl, hfront⟩ := List.eq_append_cons_of_mem hmem
  have hvalue : quoted (front ++ '"' :: rest) = some front := quoted_append hfront rest
  rw [quoted, if_pos hmem, h] at hvalue
  obtain rfl := Option.some.inj hvalue
  exact ⟨rest, rfl, hfront⟩

theorem assigned_eq_some {name text value : List Char}
    (h : assigned space same name text = some value) : Assigns space same name value text := by
  unfold assigned at h
  obtain ⟨text₃, h₃, hquoted⟩ := Option.bind_eq_some_iff.1 h
  obtain ⟨text₂, h₂, hquote⟩ := Option.bind_eq_some_iff.1 h₃
  obtain ⟨text₁, hname, heq⟩ := Option.bind_eq_some_iff.1 h₂
  obtain ⟨gap, htext, hgap⟩ := dropWhile_split space text
  obtain ⟨written, hwritten, hsame⟩ := dropName_eq_some hname
  obtain ⟨gap₁, rfl, hgap₁⟩ := dropSign_eq_some heq
  obtain ⟨gap₂, rfl, hgap₂⟩ := dropSign_eq_some hquote
  obtain ⟨rest, rfl, hvalue⟩ := quoted_eq_some hquoted
  rw [hwritten] at htext
  refine ⟨gap, written, gap₁, gap₂, rest, htext, fun c hc => ?_, hsame, hvalue⟩
  rcases List.mem_append.1 hc with hc | hc
  · rcases List.mem_append.1 hc with hc | hc
    · exact hgap c hc
    · exact hgap₁ c hc
  · exact hgap₂ c hc

theorem lineBreak_eq_some {text rest : List Char} (h : lineBreak text = some rest) :
    ∃ front, text = front ++ '\n' :: rest := by
  unfold lineBreak at h
  split at h
  · exact ⟨['\r'], by rw [Option.some.inj h]; rfl⟩
  · exact ⟨[], by rw [Option.some.inj h]; rfl⟩
  · cases h

theorem afterBreak_eq_some {name text value : List Char}
    (h : afterBreak space same name text = some value) :
    ∃ front rest, text = front ++ '\n' :: rest ∧ Assigns space same name value rest := by
  induction text with
  | nil => cases h
  | cons c text ih =>
    rw [afterBreak] at h
    rcases Option.or_eq_some_iff.1 h with hhere | ⟨-, hlater⟩
    · obtain ⟨rest, hbreak, hassigned⟩ := Option.bind_eq_some_iff.1 hhere
      obtain ⟨front, hfront⟩ := lineBreak_eq_some hbreak
      exact ⟨front, rest, hfront, assigned_eq_some hassigned⟩
    · obtain ⟨front, rest, rfl, hassigns⟩ := ih hlater
      exact ⟨c :: front, rest, rfl, hassigns⟩

/-- The start of the text or of a line. -/
def LineStart (front : List Char) : Prop :=
  front = [] ∨ front.getLast? = some '\n'

/-- What is read is assigned to the name at the start of a line. -/
theorem exec_eq_some {name text value : List Char} (h : exec space same name text = some value) :
    ∃ front rest, text = front ++ rest ∧ LineStart front ∧ Assigns space same name value rest := by
  rcases Option.or_eq_some_iff.1 h with hhere | ⟨-, hlater⟩
  · exact ⟨[], text, rfl, .inl rfl, assigned_eq_some hhere⟩
  · obtain ⟨front, rest, rfl, hassigns⟩ := afterBreak_eq_some hlater
    refine ⟨front ++ ['\n'], rest, ?_, .inr ?_, hassigns⟩
    · rw [List.append_assoc, List.singleton_append]
    · rw [List.getLast?_append, List.getLast?_singleton, Option.some_or]

/-! ## Tables -/

/-- Letters of names: no white space and no sign of a line, and compared as they are. -/
structure Letters (space : Char → Bool) (same : Char → Char → Bool) (letter : Char → Bool) : Prop where
  dark : ∀ c, letter c = true → space c = false
  compared : ∀ c d, letter c = true → letter d = true → (same c d = true ↔ c = d)
  equals : ∀ c, letter c = true → same c '=' = false ∧ c ≠ '='
  unbroken : letter '\n' = false
  signs : space '=' = false ∧ space '"' = false

/-- A name of letters with a value that keeps to its line and its quotes. -/
structure Entry (letter : Char → Bool) where
  name : List Char
  value : List Char
  letters : ∀ c ∈ name, letter c = true
  quote : '"' ∉ value
  line : '\n' ∉ value

variable {letter : Char → Bool}

namespace Entry

/-- `name="value";`, before the line break. -/
def text (e : Entry letter) : List Char :=
  e.name ++ '=' :: '"' :: (e.value ++ ['"', ';'])

end Entry

/-- The lines of a table. -/
def tableText (table : List (Entry letter)) : List Char :=
  table.flatMap fun e => e.text ++ ['\n']

theorem dropWhile_of_head {c : Char} (h : space c = false) (text : List Char) :
    (c :: text).dropWhile space = c :: text :=
  List.dropWhile_cons_of_neg (by rw [h]; exact Bool.false_ne_true)

theorem dropSign_head {sign c : Char} (h : space c = false) (rest : List Char) :
    dropSign space sign (c :: rest) = if c = sign then some rest else none := by
  rw [dropSign, dropWhile_of_head h]

/-- One name is not taken for another, nor for the start of another. -/
theorem dropName_equals (hletters : Letters space same letter) {name name' : List Char}
    (h : ∀ c ∈ name, letter c = true) (h' : ∀ c ∈ name', letter c = true) (rest : List Char) :
    (dropName same name (name' ++ '=' :: rest)).bind (dropSign space '=') =
      if name = name' then some rest else none := by
  induction name generalizing name' with
  | nil =>
    cases name' with
    | nil =>
      rw [if_pos rfl]
      exact (dropSign_head hletters.signs.1 rest).trans (if_pos rfl)
    | cons c name' =>
      have hc : letter c = true := h' c List.mem_cons_self
      rw [if_neg (List.cons_ne_nil c name').symm]
      exact (dropSign_head (hletters.dark c hc) _).trans (if_neg (hletters.equals c hc).2)
  | cons n name ih =>
    have hn : letter n = true := h n List.mem_cons_self
    cases name' with
    | nil =>
      rw [if_neg (List.cons_ne_nil n name), List.nil_append, dropName, (hletters.equals n hn).1]
      rfl
    | cons c name' =>
      have hc : letter c = true := h' c List.mem_cons_self
      rw [List.cons_append, dropName]
      by_cases hnc : n = c
      · rw [if_pos ((hletters.compared n c hn hc).2 hnc), ih (fun d hd => h d (List.mem_cons_of_mem n hd))
          (fun d hd => h' d (List.mem_cons_of_mem c hd))]
        simp [hnc]
      · rw [if_neg fun hsame => hnc ((hletters.compared n c hn hc).1 hsame)]
        simp [hnc]

/-- A line assigns its own name only. -/
theorem assigned_entry (hletters : Letters space same letter) {name : List Char}
    (h : ∀ c ∈ name, letter c = true) (e : Entry letter) (rest : List Char) :
    assigned space same name (e.text ++ rest) = if name = e.name then some e.value else none := by
  have htext : e.text ++ rest = e.name ++ '=' :: ('"' :: (e.value ++ '"' :: ';' :: rest)) := by
    simp [Entry.text]
  have hhead : (e.text ++ rest).dropWhile space = e.text ++ rest := by
    rw [htext]
    cases hname : e.name with
    | nil => exact dropWhile_of_head hletters.signs.1 _
    | cons c name' =>
      exact dropWhile_of_head (hletters.dark c (e.letters c (hname ▸ List.mem_cons_self))) _
  rw [assigned, hhead, htext, dropName_equals hletters h e.letters]
  split_ifs
  · rw [Option.bind_some, dropSign_head hletters.signs.2, if_pos rfl, Option.bind_some,
      quoted_append e.quote]
  · rfl

/-- Up to its break a line has no other start of a line. -/
theorem afterBreak_append {name front rest : List Char} (h : '\n' ∉ front) :
    afterBreak space same name (front ++ '\n' :: rest) = exec space same name rest := by
  induction front with
  | nil => rfl
  | cons c front ih =>
    have hc : c ≠ '\n' := fun heq => h (heq ▸ List.mem_cons_self)
    have hfront : '\n' ∉ front := fun hmem => h (List.mem_cons_of_mem c hmem)
    have hbreak : lineBreak (c :: (front ++ '\n' :: rest)) = none ∨
        lineBreak (c :: (front ++ '\n' :: rest)) = some rest := by
      cases front with
      | nil =>
        by_cases hr : c = '\r'
        · exact .inr (hr ▸ rfl)
        · exact .inl (by simp [lineBreak, hc, hr])
      | cons d front =>
        have hd : d ≠ '\n' := fun heq => hfront (heq ▸ List.mem_cons_self)
        exact .inl (by simp [lineBreak, hc, hd])
    rw [List.cons_append, afterBreak, ih hfront]
    rcases hbreak with hnone | hsome
    · rw [hnone, Option.bind_none, Option.none_or]
    · -- a carriage return before the break starts the same line
      rw [hsome, Option.bind_some, exec, ← Option.or_assoc, Option.or_self]

theorem not_mem_text (hletters : Letters space same letter) (e : Entry letter) : '\n' ∉ e.text := by
  have hname : '\n' ∉ e.name := fun hmem =>
    Bool.false_ne_true (hletters.unbroken.symm.trans (e.letters '\n' hmem))
  simp [Entry.text, hname, e.line]

/-- A table is read like the list that it is. -/
theorem exec_table (hletters : Letters space same letter) {name : List Char}
    (h : ∀ c ∈ name, letter c = true) (table : List (Entry letter)) :
    exec space same name (tableText table) =
      (table.find? fun e => decide (name = e.name)).map Entry.value := by
  induction table with
  | nil =>
    cases name with
    | nil => rfl
    | cons n name => rfl
  | cons e table ih =>
    have htext : tableText (e :: table) = e.text ++ '\n' :: tableText table := by
      simp [tableText]
    rw [htext, exec, assigned_entry hletters h, afterBreak_append (not_mem_text hletters e), ih]
    by_cases hname : name = e.name
    · simp [hname]
    · simp [hname]

end Assignments
