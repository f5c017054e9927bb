import QuantproCollector.Lib.Boundary
import QuantproCollector.Lib.JsonReadBack
import QuantproCollector.SemanticIndex.Search

/-!
# Normalised texts

A normalised text is in NFC, has no control character to blank, no two blanks and no three line breaks in a
row, no space at a line break, and no white space at its ends (`NormalText`). Each step of
`normalizeSemanticText` establishes its part and keeps those of the steps before it, so every result is
normalised, and a normalised text is left as it is.
-/

namespace QuantproCollector.SemanticIndex.Search

open Push Boundary

/-! ## The steps -/

section Steps

variable {inClass : Char → Bool} {min : ℕ} {replacement : List Char} {N : List Char → Prop}

/-- What the replacement of one long run keeps is kept. -/
theorem replaceRuns_keeps
    (hswap : ∀ a run b, (∀ c ∈ run, inClass c = true) → min ≤ run.length → N (a ++ run ++ b) →
      N (a ++ replacement ++ b))
    (l run a : List Char) (hrun : ∀ c ∈ run, inClass c = true) (hN : N (a ++ run.reverse ++ l)) :
    N (a ++ replaceRuns inClass min replacement run l) := by
  have hreverse : ∀ run : List Char, (∀ c ∈ run, inClass c = true) → ∀ c ∈ run.reverse, inClass c = true :=
    fun run hrun c hc => hrun c (List.mem_reverse.1 hc)
  induction l generalizing run a with
  | nil =>
    unfold replaceRuns
    split_ifs with hlong
    · have hswapped := hswap a run.reverse [] (hreverse run hrun) (by rwa [List.length_reverse]) hN
      rwa [List.append_nil] at hswapped
    · rwa [List.append_nil] at hN
  | cons c cs ih =>
    unfold replaceRuns
    by_cases hc : inClass c = true
    · rw [if_pos hc]
      refine ih (c :: run) a (List.forall_mem_cons.2 ⟨hc, hrun⟩) ?_
      rwa [List.reverse_cons, ← List.append_assoc, List.append_assoc, List.singleton_append]
    · rw [if_neg hc]
      have hstep : ∀ start, N (a ++ start ++ c :: cs) →
          N (a ++ (start ++ c :: replaceRuns inClass min replacement [] cs)) := by
        intro start hstart
        have hrest := ih [] (a ++ start ++ [c]) (List.forall_mem_nil _) (by simpa using hstart)
        simpa using hrest
      split_ifs with hlong
      · exact hstep replacement (hswap a run.reverse (c :: cs) (hreverse run hrun)
          (by rwa [List.length_reverse]) hN)
      · exact hstep run.reverse hN

/-- No long run is left. -/
theorem runsBelow_replaceRuns (hshort : replacement.length < min) (l run : List Char) :
    RunsBelow inClass min (replaceRuns inClass min replacement run l) := by
  have hstart : ∀ run : List Char,
      RunsBelow inClass min (if min ≤ run.length then replacement else run.reverse) := by
    intro run w hw _
    have hle := hw.length_le
    split_ifs at hle with hlong
    · omega
    · rw [List.length_reverse] at hle
      omega
  induction l generalizing run with
  | nil => exact hstart run
  | cons c cs ih =>
    unfold replaceRuns
    by_cases hc : inClass c = true
    · rw [if_pos hc]
      exact ih (c :: run)
    · rw [if_neg hc]
      exact (localAt_runsBelow inClass min).join _ c _ (by simpa using hc) (hstart run) (ih [])

/-- A text without a long run is left as it is. -/
theorem replaceRuns_of_runsBelow (l run : List Char) (hrun : ∀ c ∈ run, inClass c = true)
    (h : RunsBelow inClass min (run.reverse ++ l)) :
    replaceRuns inClass min replacement run l = run.reverse ++ l := by
  have hstart : ∀ run l : List Char, (∀ c ∈ run, inClass c = true) →
      RunsBelow inClass min (run.reverse ++ l) → ¬ min ≤ run.length := by
    intro run l hrun h hlong
    have hlt := h run.reverse ⟨[], l, rfl⟩ fun c hc => hrun c (List.mem_reverse.1 hc)
    rw [List.length_reverse] at hlt
    omega
  induction l generalizing run with
  | nil =>
    unfold replaceRuns
    rw [if_neg (hstart run [] hrun h), List.append_nil]
  | cons c cs ih =>
    unfold replaceRuns
    by_cases hc : inClass c = true
    · have hpushed : (c :: run).reverse ++ cs = run.reverse ++ c :: cs := by simp
      rw [if_pos hc, ih (c :: run) (List.forall_mem_cons.2 ⟨hc, hrun⟩) (by rwa [hpushed]), hpushed]
    · have hrest : RunsBelow inClass min cs :=
        (localAt_runsBelow inClass min).part (run.reverse ++ [c]) cs [] (by simpa using h)
      rw [if_neg hc, if_neg (hstart run (c :: cs) hrun h), ih [] (List.forall_mem_nil _) hrest]
      rfl

end Steps

/-! ## Line breaks -/

/-- Neither character is a space at a line break. -/
def Apart (c d : Char) : Prop :=
  ¬ (c = ' ' ∧ d = '\n') ∧ ¬ (c = '\n' ∧ d = ' ')

/-- No space is at a line break. -/
def LinesTrimmed (l : List Char) : Prop := l.IsChain Apart

section Lines

variable {sep : Char → Prop} {N : List Char → Prop}

theorem cons_space {spaces : List Char} (h : ∀ c ∈ spaces, c = ' ') (l : List Char) :
    (' ' :: spaces) ++ l = spaces ++ ' ' :: l := by
  rw [List.eq_replicate_of_mem h, ← List.replicate_succ, List.replicate_succ', List.append_assoc,
    List.singleton_append]

theorem forall_mem_cons_space {spaces : List Char} (h : ∀ c ∈ spaces, c = ' ') :
    ∀ c ∈ ' ' :: spaces, c = ' ' :=
  List.forall_mem_cons.2 ⟨rfl, h⟩

/-- A local property is kept, where a line break is a separator. -/
theorem trimLines_keeps (h : LocalAt sep N) (hbreak : sep '\n') (spaces l a : List Char)
    (hspaces : ∀ c ∈ spaces, c = ' ') (hN : N (a ++ spaces ++ l)) : N (a ++ trimLines spaces l) := by
  fun_induction trimLines spaces l generalizing a with
  | case1 spaces => rwa [List.append_nil] at hN
  | case2 spaces cs ih =>
    refine ih a (forall_mem_cons_space hspaces) ?_
    rwa [List.append_assoc, cons_space hspaces, ← List.append_assoc]
  | case3 spaces cs ih =>
    have hcs : N cs := h.part (a ++ spaces ++ ['\n']) cs [] (by simpa using hN)
    have hrest : N (trimLines [] (cs.dropWhile (· = ' '))) :=
      ih [] (List.forall_mem_nil _) (h.keepsPart hcs (List.dropWhile_suffix _).isInfix)
    exact h.join a '\n' _ hbreak (h.left (h.left hN)) hrest
  | case4 spaces c cs hspace hbreak' ih =>
    have hrest := ih (a ++ spaces ++ [c]) (List.forall_mem_nil _) (by simpa using hN)
    simpa using hrest

/-- A text begins as before, or with a line break. -/
theorem head?_trimLines (spaces l : List Char) (hspaces : ∀ c ∈ spaces, c = ' ') :
    ∀ c ∈ (trimLines spaces l).head?, c = '\n' ∨ c ∈ (spaces ++ l).head? := by
  fun_induction trimLines spaces l with
  | case1 spaces =>
    rw [List.append_nil]
    exact fun c hc => .inr hc
  | case2 spaces cs ih =>
    rw [← cons_space hspaces]
    exact ih (forall_mem_cons_space hspaces)
  | case3 spaces cs ih => simp
  | case4 spaces c cs hspace hbreak ih =>
    cases spaces <;> simp

theorem linesTrimmed_trimLines (spaces l : List Char) (hspaces : ∀ c ∈ spaces, c = ' ') :
    LinesTrimmed (trimLines spaces l) := by
  have hblank : ∀ spaces : List Char, (∀ c ∈ spaces, c = ' ') → LinesTrimmed spaces := by
    intro spaces hspaces
    refine List.Pairwise.isChain (List.pairwise_of_forall_mem_list fun c hc d hd => ?_)
    rw [hspaces c hc, hspaces d hd]
    exact ⟨by decide, by decide⟩
  fun_induction trimLines spaces l with
  | case1 spaces => exact hblank spaces hspaces
  | case2 spaces cs ih => exact ih (forall_mem_cons_space hspaces)
  | case3 spaces cs ih =>
    refine List.isChain_cons.2 ⟨fun d hd => ⟨by simp, fun hpair => ?_⟩, ih (List.forall_mem_nil _)⟩
    rcases head?_trimLines [] (cs.dropWhile (· = ' ')) (List.forall_mem_nil _) d hd with hd | hd
    · exact absurd (hd.symm.trans hpair.2) (by decide)
    · have hnot := List.head?_dropWhile_not (p := fun c : Char => decide (c = ' ')) (l := cs)
      rw [List.nil_append] at hd
      rw [Option.mem_def.1 hd] at hnot
      simp [hpair.2] at hnot
  | case4 spaces c cs hspace hbreak ih =>
    have hc : (∀ d, Apart d c) ∧ ∀ d, Apart c d :=
      ⟨fun d => ⟨fun h => hbreak h.2, fun h => hspace h.2⟩,
        fun d => ⟨fun h => hspace h.1, fun h => hbreak h.1⟩⟩
    exact (localAt_isChain Apart).join spaces c _ hc (hblank spaces hspaces) (ih (List.forall_mem_nil _))

/-- A text without a space at a line break is left as it is. -/
theorem trimLines_of_linesTrimmed (spaces l : List Char) (hspaces : ∀ c ∈ spaces, c = ' ')
    (h : LinesTrimmed (spaces ++ l)) : trimLines spaces l = spaces ++ l := by
  fun_induction trimLines spaces l with
  | case1 spaces => simp
  | case2 spaces cs ih =>
    rw [← cons_space hspaces] at h ⊢
    exact ih (forall_mem_cons_space hspaces) h
  | case3 spaces cs ih =>
    obtain ⟨-, hbreak, hlast⟩ := List.isChain_append.1 h
    have hnil : spaces = [] := by
      by_contra hne
      obtain ⟨d, hd⟩ := List.getLast?_isSome.2 hne |> Option.isSome_iff_exists.1
      refine (hlast d hd '\n' rfl).1 ⟨hspaces d (List.mem_of_getLast? hd), rfl⟩
    have hdrop : cs.dropWhile (· = ' ') = cs := by
      cases cs with
      | nil => rfl
      | cons d cs =>
        refine List.dropWhile_cons_of_neg ?_
        have hapart := (List.isChain_cons.1 hbreak).1 d rfl
        exact fun hd => hapart.2 ⟨rfl, by simpa using hd⟩
    rw [hdrop] at ih ⊢
    subst hnil
    rw [ih (List.forall_mem_nil _) (List.isChain_cons.1 hbreak).2]
    rfl
  | case4 spaces c cs hspace hbreak ih =>
    have hrest : LinesTrimmed cs := isChain_part h ⟨spaces ++ [c], [], by simp⟩
    rw [ih (List.forall_mem_nil _) hrest]
    rfl

end Lines

/-! ## Normal texts -/

/-- The characters that are blanks, spaces or line breaks. -/
def isBlank (c : Char) : Bool :=
  c = ' ' || c.toNat = 0xA0

/-- The white space and the control characters that normalisation rewrites; NFC leaves them alone. -/
def isSeparator (c : Char) : Bool :=
  isBlanked c || isBlank c || decide (c = '\n')

/-- What NFC does, as far as it is relied on: it is idempotent, a part of a normalised text is normalised,
and so are two normalised texts joined by a character that composes with none. -/
structure Normalizes (nfc : String → String) : Prop where
  idem : ∀ s, nfc (nfc s) = nfc s
  part : ∀ a b c, nfc (a ++ b ++ c) = a ++ b ++ c → nfc b = b
  join : ∀ (a b : String) (c : Char), isSeparator c = true → nfc a = a → nfc b = b →
    nfc (a ++ String.singleton c ++ b) = a ++ String.singleton c ++ b

/-- The characters are in normal form. -/
def InForm (nfc : String → String) (l : List Char) : Prop :=
  nfc (String.ofList l) = String.ofList l

theorem localAt_inForm {nfc : String → String} (h : Normalizes nfc) :
    LocalAt (fun c => isSeparator c = true) (InForm nfc) where
  part a b c hN := by
    refine h.part (String.ofList a) (String.ofList b) (String.ofList c) ?_
    rw [← String.ofList_append, ← String.ofList_append]
    exact hN
  join a c b hc ha hb := by
    have hjoin := h.join (String.ofList a) (String.ofList b) c hc ha hb
    have happend : String.ofList (a ++ c :: b) =
        String.ofList a ++ String.singleton c ++ String.ofList b := by
      rw [← String.toList_inj]
      simp
    rw [InForm, happend]
    exact hjoin

/-- What normalisation establishes. -/
structure NormalText (nfc : String → String) (l : List Char) : Prop where
  inForm : InForm nfc l
  unblanked : ∀ c ∈ l, isBlanked c = false
  blanks : RunsBelow isBlank 2 l
  lines : LinesTrimmed l
  breaks : RunsBelow (fun c => decide (c = '\n')) 3 l
  head : ∀ c ∈ l.head?, isSpace c = false
  last : ∀ c ∈ l.getLast?, isSpace c = false

section Normalize

variable {R : Runtime} {l : List Char}

theorem replaceRuns_localAt {sep : Char → Prop} {N : List Char → Prop} (h : LocalAt sep N)
    {inClass : Char → Bool} {min : ℕ} {replacement : List Char} (hne : replacement ≠ [])
    (hsep : ∀ c ∈ replacement, sep c) (hN : N l) : N (replaceRuns inClass min replacement [] l) :=
  replaceRuns_keeps (fun _ _ _ _ _ hN => h.swap hne hsep hN) l [] [] (List.forall_mem_nil _) hN

/-- Line breaks that are replaced by line breaks stay apart from the spaces. -/
theorem linesTrimmed_replaceRuns (h : LinesTrimmed l) :
    LinesTrimmed (replaceRuns (· = '\n') 3 ['\n', '\n'] [] l) := by
  refine replaceRuns_keeps (fun a run b hrun hlong hchain => ?_) l [] [] (List.forall_mem_nil _) h
  obtain ⟨m, hm⟩ := Nat.exists_eq_add_of_le' (show 1 ≤ run.length by omega)
  have hbreaks : run = List.replicate (m + 1) '\n' :=
    List.eq_replicate_iff.2 ⟨hm, fun c hc => by simpa using hrun c hc⟩
  have hleft : LinesTrimmed (a ++ ['\n']) := by
    refine isChain_part hchain ⟨[], List.replicate m '\n' ++ b, ?_⟩
    simp [hbreaks, List.replicate_succ]
  have hright : LinesTrimmed ('\n' :: b) := by
    refine isChain_part hchain ⟨a ++ List.replicate m '\n', [], ?_⟩
    simp [hbreaks, List.replicate_succ']
  rw [List.append_assoc]
  refine List.isChain_split.2 ⟨hleft, List.isChain_cons.2 ⟨fun d hd => ?_, hright⟩⟩
  obtain rfl : '\n' = d := by simpa using hd
  exact ⟨by decide, by decide⟩

/-- The ends of a text without its outer white space. -/
theorem trim_part (l : List Char) : trimEnd (l.dropWhile isSpace) <:+: l := by
  refine List.IsInfix.trans (List.IsPrefix.isInfix ?_) (List.dropWhile_suffix isSpace).isInfix
  have hsuffix := List.dropWhile_suffix (l := (l.dropWhile isSpace).reverse) isSpace
  have hprefix := List.reverse_prefix.2 hsuffix
  rwa [List.reverse_reverse] at hprefix

theorem last_trimEnd (l : List Char) : ∀ c ∈ (trimEnd l).getLast?, isSpace c = false := by
  intro c hc
  have hnot := List.head?_dropWhile_not (p := isSpace) (l := l.reverse)
  rw [trimEnd, List.getLast?_reverse] at hc
  rw [Option.mem_def.1 hc] at hnot
  simpa using hnot

theorem head_trim (l : List Char) : ∀ c ∈ (trimEnd (l.dropWhile isSpace)).head?, isSpace c = false := by
  intro c hc
  have hnot := List.head?_dropWhile_not (p := isSpace) (l := l)
  have hprefix : trimEnd (l.dropWhile isSpace) <+: l.dropWhile isSpace := by
    have hsuffix := List.dropWhile_suffix (l := (l.dropWhile isSpace).reverse) isSpace
    have hprefix := List.reverse_prefix.2 hsuffix
    rwa [List.reverse_reverse] at hprefix
  obtain ⟨rest, hrest⟩ := hprefix
  have hhead : (l.dropWhile isSpace).head? = some c := by
    rw [← hrest, List.head?_append, Option.mem_def.1 hc]
    rfl
  rw [hhead] at hnot
  simpa using hnot

/-- A property that is local at the blanks and the line breaks is kept from the normal form on. -/
theorem normalize_localAt {sep : Char → Prop} {N : List Char → Prop} (h : LocalAt sep N) (hspace : sep ' ')
    (hbreak : sep '\n') {l : List Char} (hN : N l) :
    N (replaceRuns (· = '\n') 3 ['\n', '\n'] [] (trimLines [] (replaceRuns isBlank 2 [' '] [] l))) := by
  have hspaced : N (replaceRuns isBlank 2 [' '] [] l) :=
    replaceRuns_localAt h (List.cons_ne_nil _ _) (by simpa using hspace) hN
  have htrimmed : N (trimLines [] (replaceRuns isBlank 2 [' '] [] l)) :=
    trimLines_keeps h hbreak [] _ [] (List.forall_mem_nil _) hspaced
  exact replaceRuns_localAt h (List.cons_ne_nil _ _) (by simpa using hbreak) htrimmed

/-- A normalised text is normal. -/
theorem normalText_normalize (hnfc : Normalizes R.nfc) (value : String) :
    NormalText R.nfc (normalizeSemanticText R value) := by
  have hform := localAt_inForm hnfc
  have hspace : isSeparator ' ' = true := by decide
  have hbreak : isSeparator '\n' = true := by decide
  have hstart : InForm R.nfc (R.nfc value).toList := by
    rw [InForm, String.ofList_toList]
    exact hnfc.idem value
  set blanked := (R.nfc value).toList.map fun c => if isBlanked c then ' ' else c with hblanked
  have hmapped : InForm R.nfc blanked := by
    refine hform.map (fun c => ?_) [] (R.nfc value).toList hstart
    split_ifs
    · exact .inr hspace
    · exact .inl rfl
  have hunblanked : ∀ c ∈ blanked, isBlanked c = false := by
    intro c hc
    obtain ⟨d, -, rfl⟩ := List.mem_map.1 hc
    split_ifs with hd
    · decide
    · simpa using hd
  have hpart := trim_part (replaceRuns (· = '\n') 3 ['\n', '\n'] []
    (trimLines [] (replaceRuns isBlank 2 [' '] [] blanked)))
  refine ⟨?_, ?_, ?_, ?_, ?_, head_trim _, last_trimEnd _⟩
  · exact hform.keepsPart (normalize_localAt hform hspace hbreak hmapped) hpart
  · have hall := localAt_all fun c => isBlanked c = false
    exact hall.keepsPart (normalize_localAt hall (by decide) (by decide) hunblanked) hpart
  · have hruns := localAt_runsBelow isBlank 2
    have hspaced : RunsBelow isBlank 2 (replaceRuns isBlank 2 [' '] [] blanked) :=
      runsBelow_replaceRuns (by decide) _ _
    have htrimmed := trimLines_keeps hruns (by decide) [] _ [] (List.forall_mem_nil _) hspaced
    have hnotBlank : isBlank '\n' = false := by decide
    exact hruns.keepsPart
      (replaceRuns_localAt hruns (List.cons_ne_nil _ _) (by simpa using hnotBlank) htrimmed) hpart
  · exact isChain_part (linesTrimmed_replaceRuns (linesTrimmed_trimLines [] _ (List.forall_mem_nil _))) hpart
  · exact (localAt_runsBelow _ 3).keepsPart (runsBelow_replaceRuns (by decide) _ _) hpart

theorem dropWhile_of_head {p : Char → Bool} {l : List Char} (h : ∀ c ∈ l.head?, p c = false) :
    l.dropWhile p = l := by
  cases l with
  | nil => rfl
  | cons c l => exact List.dropWhile_cons_of_neg (by simpa using h c rfl)

/-- A normal text is left as it is. -/
theorem normalize_of_normalText {l : List Char} (h : NormalText R.nfc l) :
    normalizeSemanticText R (String.ofList l) = l := by
  have hblanked : (l.map fun c => if isBlanked c then ' ' else c) = l := by
    refine (List.map_congr_left fun c hc => ?_).trans (List.map_id l)
    rw [if_neg (by simp [h.unblanked c hc])]
    rfl
  have hspaced : replaceRuns isBlank 2 [' '] [] l = l :=
    replaceRuns_of_runsBelow l [] (List.forall_mem_nil _) h.blanks
  have hlines : trimLines [] l = l := trimLines_of_linesTrimmed [] l (List.forall_mem_nil _) h.lines
  have hbreaks : replaceRuns (· = '\n') 3 ['\n', '\n'] [] l = l :=
    replaceRuns_of_runsBelow l [] (List.forall_mem_nil _) h.breaks
  have hlast : trimEnd l = l := by
    rw [trimEnd, dropWhile_of_head (by rw [List.head?_reverse]; exact h.last), List.reverse_reverse]
  change trimEnd ((replaceRuns (· = '\n') 3 ['\n', '\n'] [] (trimLines [] (replaceRuns isBlank 2 [' '] []
    ((R.nfc (String.ofList l)).toList.map fun c => if isBlanked c then ' ' else c)))).dropWhile isSpace) = l
  rw [h.inForm, String.toList_ofList, hblanked, hspaced, hlines, hbreaks, dropWhile_of_head h.head, hlast]

/-- Two normal texts with a blank line between them are normal. -/
theorem normalText_paragraphs (hnfc : Normalizes R.nfc) {title body : List Char} (htitle : title ≠ [])
    (hbody : body ≠ []) (ht : NormalText R.nfc title) (hb : NormalText R.nfc body) :
    NormalText R.nfc (title ++ ['\n', '\n'] ++ body) := by
  have hlocal : ∀ {sep : Char → Prop} {N : List Char → Prop}, LocalAt sep N → sep '\n' → N title → N body →
      N (title ++ ['\n', '\n'] ++ body) := fun h hbreak ha hb =>
    h.joins (List.cons_ne_nil _ _) (by simpa using hbreak) ha hb
  obtain ⟨before, x, rfl⟩ := (List.eq_nil_or_concat' title).resolve_left htitle
  obtain ⟨y, after, rfl⟩ := List.exists_cons_of_ne_nil hbody
  have hx : isSpace x = false := ht.last x (by simp)
  have hy : isSpace y = false := hb.head y rfl
  have hnot : ∀ {c : Char}, isSpace c = false → c ≠ ' ' ∧ c ≠ '\n' := by
    intro c hc
    constructor
    · rintro rfl
      revert hc
      decide
    · rintro rfl
      revert hc
      decide
  refine ⟨hlocal (localAt_inForm hnfc) (by decide) ht.inForm hb.inForm,
    hlocal (localAt_all _) (by decide) ht.unblanked hb.unblanked,
    hlocal (localAt_runsBelow isBlank 2) (by decide) ht.blanks hb.blanks, ?_, ?_, ?_, ?_⟩
  · refine List.isChain_append.2 ⟨List.isChain_append.2 ⟨ht.lines, ?_, fun c hc d hd => ?_⟩, hb.lines,
      fun c hc d hd => ?_⟩
    · exact List.isChain_cons.2 ⟨fun d hd => by
        obtain rfl : '\n' = d := by simpa using hd
        exact ⟨by decide, by decide⟩, List.isChain_singleton _⟩
    · obtain rfl : x = c := by simpa using hc
      obtain rfl : '\n' = d := by simpa using hd
      exact ⟨fun h => (hnot hx).1 h.1, fun h => (hnot hx).2 h.1⟩
    · obtain rfl : '\n' = c := by simpa using hc
      obtain rfl : y = d := by simpa using hd
      exact ⟨fun h => (hnot hy).2 h.2, fun h => (hnot hy).1 h.2⟩
  · have hruns := localAt_runsBelow (fun c : Char => decide (c = '\n')) 3
    have hpair : RunsBelow (fun c : Char => decide (c = '\n')) 3 ['\n', '\n'] := fun w hw _ =>
      lt_of_le_of_lt hw.length_le (by decide)
    have hright := hruns.join ['\n', '\n'] y after (by simp [(hnot hy).2]) hpair
      (hruns.part [y] after [] (by simpa using hb.breaks))
    have hboth := hruns.join before x _ (by simp [(hnot hx).2]) (hruns.left ht.breaks) hright
    simpa using hboth
  · rw [List.append_assoc, List.head?_append_of_ne_nil _ (by simp)]
    exact ht.head
  · rw [List.getLast?_append_of_ne_nil _ (by simp)]
    exact hb.last

end Normalize

/-! ## Texts that are normalised again -/

/-- The units of the title that a candidate has, before they are cut. -/
def titleUnits (R : Runtime) (title : String) : Units :=
  (normalizeSemanticText R title).flatMap Utf16.ofChar

/-- A runtime for texts without a character that NFC changes. -/
def plainRuntime : Runtime where
  sha256Hex text := text
  isoOfText _ := none
  addSeconds _ _ := none
  numberOfText _ := none
  nfc text := text
  cosine _ _ := none

theorem normalizes_plainRuntime : Normalizes plainRuntime.nfc :=
  ⟨fun _ => rfl, fun _ _ _ _ => rfl, fun _ _ _ _ _ _ => rfl⟩

end QuantproCollector.SemanticIndex.Search
