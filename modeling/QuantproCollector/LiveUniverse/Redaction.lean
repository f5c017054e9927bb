import Mathlib.Data.List.Basic
import QuantproCollector.Lib.Rewriting

/-!
# Redaction of instrument codes

`redactInstrumentCodes` replaces every instrument code of a text that a caller is shown. A text is its
UTF-16 units, as the pattern reads it (it has no `u` flag), so texts with lone surrogates are covered.
-/

namespace QuantproCollector.LiveUniverse

open Rewriting

/-- The unit of an ASCII character. -/
def unitOf (c : Char) : UInt16 := UInt16.ofNat c.toNat

/-- `[REDACTED_CODE]`. -/
def INSTRUMENT_CODE_PLACEHOLDER : List UInt16 :=
  ['[', 'R', 'E', 'D', 'A', 'C', 'T', 'E', 'D', '_', 'C', 'O', 'D', 'E', ']'].map unitOf

/-- `[0-9]`. -/
def isDigitUnit (c : UInt16) : Bool := unitOf '0' ≤ c && c ≤ unitOf '9'

/-- `[A-Za-z]`. -/
def isLetterUnit (c : UInt16) : Bool :=
  (unitOf 'A' ≤ c && c ≤ unitOf 'Z') || (unitOf 'a' ≤ c && c ≤ unitOf 'z')

/-- `[0-9A-Za-z]`. -/
def isAlnumUnit (c : UInt16) : Bool := isDigitUnit c || isLetterUnit c

/-- `[0-9A-Za-z_:]`. -/
def isGlueUnit (c : UInt16) : Bool := isAlnumUnit c || c == unitOf '_' || c == unitOf ':'

/-- `(?<![0-9A-Za-z_:])[A-Za-z]{2}:[0-9]{5,6}(?![0-9A-Za-z])`. -/
def instrumentKeyPattern : Pattern UInt16 :=
  .seq (.notBehind isGlueUnit) (.seq (.times isLetterUnit 2 2) (.seq (.set (· == unitOf ':'))
    (.seq (.times isDigitUnit 5 6) (.notAhead isAlnumUnit))))

/-- `(?<![0-9A-Za-z_:])[0-9]{5,6}(?![0-9A-Za-z])`. -/
def bareCodePattern : Pattern UInt16 :=
  .seq (.notBehind isGlueUnit) (.seq (.times isDigitUnit 5 6) (.notAhead isAlnumUnit))

def INSTRUMENT_CODE_PATTERN : Pattern UInt16 := .alt instrumentKeyPattern bareCodePattern

def redactInstrumentCodes (text : List UInt16) : List UInt16 :=
  if text.isEmpty then text else replaceAll INSTRUMENT_CODE_PATTERN INSTRUMENT_CODE_PLACEHOLDER text

/-- A security as the pattern spells it: a two-letter exchange before the code, or the code alone. -/
inductive IsInstrumentCode : List UInt16 → Prop
  | key (exchange code : List UInt16) (hexchange : exchange.length = 2)
      (hletters : ∀ c ∈ exchange, isLetterUnit c = true) (hleast : 5 ≤ code.length) (hmost : code.length ≤ 6)
      (hdigits : ∀ c ∈ code, isDigitUnit c = true) : IsInstrumentCode (exchange ++ unitOf ':' :: code)
  | bare (code : List UInt16) (hleast : 5 ≤ code.length) (hmost : code.length ≤ 6)
      (hdigits : ∀ c ∈ code, isDigitUnit c = true) : IsInstrumentCode code

theorem bareCodePattern_matches (prev : Option UInt16) (u rest : List UInt16) :
    bareCodePattern.Matches prev u rest ↔ (5 ≤ u.length ∧ u.length ≤ 6 ∧ ∀ c ∈ u, isDigitUnit c = true) ∧
      prev.any isGlueUnit = false ∧ rest.head?.any isAlnumUnit = false := by
  constructor
  · rintro ⟨-, -, rfl, ⟨rfl, hprev⟩, code, -, rfl, hcode, rfl, hrest⟩
    rw [List.nil_append, List.append_nil]
    exact ⟨hcode, hprev, hrest⟩
  · rintro ⟨hcode, hprev, hrest⟩
    exact ⟨[], u, rfl, ⟨rfl, hprev⟩, u, [], (List.append_nil u).symm, hcode, rfl, hrest⟩

theorem instrumentKeyPattern_matches (prev : Option UInt16) (u rest : List UInt16) :
    instrumentKeyPattern.Matches prev u rest ↔
      (∃ exchange code, u = exchange ++ unitOf ':' :: code ∧ exchange.length = 2 ∧
        (∀ c ∈ exchange, isLetterUnit c = true) ∧ 5 ≤ code.length ∧ code.length ≤ 6 ∧
        ∀ c ∈ code, isDigitUnit c = true) ∧
      prev.any isGlueUnit = false ∧ rest.head?.any isAlnumUnit = false := by
  constructor
  · rintro ⟨-, -, rfl, ⟨rfl, hprev⟩, exchange, -, rfl, ⟨hleast, hmost, hletters⟩, -, -, rfl,
      ⟨colon, rfl, hcolon⟩, code, -, rfl, hcode, rfl, hrest⟩
    obtain rfl : colon = unitOf ':' := by simpa using hcolon
    refine ⟨⟨exchange, code, ?_, Nat.le_antisymm hmost hleast, hletters, hcode⟩, hprev, hrest⟩
    rw [List.nil_append, List.append_nil, List.singleton_append]
  · rintro ⟨⟨exchange, code, rfl, htwo, hletters, hcode⟩, hprev, hrest⟩
    refine ⟨[], _, rfl, ⟨rfl, hprev⟩, exchange, _, rfl, ⟨htwo.ge, htwo.le, hletters⟩, [unitOf ':'], code, rfl,
      ⟨_, rfl, by simp⟩, code, [], (List.append_nil code).symm, hcode, rfl, hrest⟩

theorem isAlnumUnit_of_digit {c : UInt16} (h : isDigitUnit c = true) : isAlnumUnit c = true := by
  rw [isAlnumUnit, h, Bool.true_or]

theorem isAlnumUnit_of_letter {c : UInt16} (h : isLetterUnit c = true) : isAlnumUnit c = true := by
  rw [isAlnumUnit, h, Bool.or_true]

theorem isGlueUnit_of_alnum {c : UInt16} (h : isAlnumUnit c = true) : isGlueUnit c = true := by
  rw [isGlueUnit, h, Bool.true_or, Bool.true_or]

/-- The pattern is one of delimited words. -/
theorem delimited_instrumentCode :
    Delimited INSTRUMENT_CODE_PATTERN IsInstrumentCode isGlueUnit isAlnumUnit where
  matches_iff := by
    intro prev u rest
    rw [INSTRUMENT_CODE_PATTERN, Pattern.Matches, instrumentKeyPattern_matches, bareCodePattern_matches,
      ← or_and_right]
    refine and_congr_left fun _ => ⟨?_, ?_⟩
    · rintro (⟨exchange, code, rfl, htwo, hletters, hleast, hmost, hdigits⟩ | ⟨hleast, hmost, hdigits⟩)
      · exact .key exchange code htwo hletters hleast hmost hdigits
      · exact .bare u hleast hmost hdigits
    · rintro (⟨exchange, code, htwo, hletters, hleast, hmost, hdigits⟩ | ⟨_, hleast, hmost, hdigits⟩)
      · exact .inl ⟨exchange, code, rfl, htwo, hletters, hleast, hmost, hdigits⟩
      · exact .inr ⟨hleast, hmost, hdigits⟩
  head := by
    rintro u (⟨exchange, code, htwo, hletters, -⟩ | ⟨_, hleast, -, hdigits⟩)
    · cases exchange with
      | nil => cases htwo
      | cons c exchange => exact isAlnumUnit_of_letter (hletters c List.mem_cons_self)
    · cases u with
      | nil => cases hleast
      | cons c u => exact isAlnumUnit_of_digit (hdigits c List.mem_cons_self)
  units := by
    rintro u (⟨exchange, code, -, hletters, -, -, hdigits⟩ | ⟨_, -, -, hdigits⟩) c hc
    · rw [List.mem_append, List.mem_cons] at hc
      obtain hc | rfl | hc := hc
      · exact isGlueUnit_of_alnum (isAlnumUnit_of_letter (hletters c hc))
      · decide
      · exact isGlueUnit_of_alnum (isAlnumUnit_of_digit (hdigits c hc))
    · exact isGlueUnit_of_alnum (isAlnumUnit_of_digit (hdigits c hc))

/-- What starts with two letters and something else than a colon is no code. -/
theorem no_code_of_letters {a b c : UInt16} (ha : isDigitUnit a = false) (hc : (c == unitOf ':') = false)
    (prev : Option UInt16) (text : List UInt16) :
    INSTRUMENT_CODE_PATTERN.ends prev (a :: b :: c :: text) = [] := by
  rw [List.eq_nil_iff_forall_not_mem]
  intro n hn
  obtain ⟨u, rest, hsplit, -, hu, -⟩ := (delimited_instrumentCode.mem_ends prev _ n).1 hn
  cases hu with
  | key exchange code htwo =>
    obtain ⟨x, y, rfl⟩ := List.length_eq_two.1 htwo
    simp only [List.cons_append, List.nil_append, List.cons.injEq] at hsplit
    rw [hsplit.2.2.1, beq_self_eq_true] at hc
    cases hc
  | bare _ hleast _ hdigits =>
    cases u with
    | nil => cases hleast
    | cons d u =>
      obtain ⟨rfl, -⟩ := List.cons.inj hsplit
      rw [hdigits a List.mem_cons_self] at ha
      cases ha

/-- Every unit of the placeholder but its last can only be followed by something that is no code: its
bracket by the letters `RED`, and the others are units that a code never follows. -/
theorem inert_placeholder : Inert INSTRUMENT_CODE_PATTERN isGlueUnit INSTRUMENT_CODE_PLACEHOLDER where
  head := ⟨unitOf '[', _, rfl, by decide⟩
  inside := by
    intro front rest hne hsplit prev text
    match front with
    | [] =>
      obtain rfl : INSTRUMENT_CODE_PLACEHOLDER = rest := hsplit
      exact delimited_instrumentCode.ends_of_head rfl _
    | [c] =>
      obtain ⟨rfl, rfl⟩ := List.cons.inj hsplit
      exact no_code_of_letters (by decide) (by decide) _ _
    | c :: d :: front =>
      have htail : INSTRUMENT_CODE_PLACEHOLDER.tail = (d :: front) ++ rest := congrArg List.tail hsplit
      have hglue : (INSTRUMENT_CODE_PLACEHOLDER.tail.dropLast).all isGlueUnit = true := by decide
      have hfront : (d :: front).all isGlueUnit = true := by
        have hall := hglue
        rw [htail, List.dropLast_append_of_ne_nil hne, List.all_append, Bool.and_eq_true] at hall
        exact hall.1
      refine delimited_instrumentCode.ends_of_glue ?_ _
      have hlast : (d :: front).getLast? = some (front.getLast?.getD d) := List.getLast?_cons
      rw [getLast?_cons_or, hlast, Option.some_or, Option.any_some]
      exact List.all_eq_true.1 hfront _ (List.mem_of_getLast? hlast)

/-- No instrument code is left in a redacted text, and redacting it again changes nothing. -/
theorem redactInstrumentCodes_complete (text : List UInt16) :
    (∀ front u rest, redactInstrumentCodes text = front ++ u ++ rest →
      ¬ INSTRUMENT_CODE_PATTERN.Matches front.getLast? u rest) ∧
    redactInstrumentCodes (redactInstrumentCodes text) = redactInstrumentCodes text := by
  have hscan : ∀ t, redactInstrumentCodes t =
      replaceAll INSTRUMENT_CODE_PATTERN INSTRUMENT_CODE_PLACEHOLDER t := by
    intro t
    cases t with
    | nil => exact (replaceFrom_of_clean (clean_nil (delimited_instrumentCode.ends_nil none))).symm
    | cons c t => rfl
  simp only [hscan]
  refine ⟨fun front u rest hsplit => ?_,
    replaceAll_idempotent delimited_instrumentCode inert_placeholder text⟩
  have hclean := replaceAll_clean delimited_instrumentCode inert_placeholder text
  simpa using hclean.not_matches hsplit

end QuantproCollector.LiveUniverse
