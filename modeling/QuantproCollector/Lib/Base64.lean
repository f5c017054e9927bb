import Mathlib.Tactic.SplitIfs
import Mathlib.Data.List.Basic

/-!
# Base64

Bytes as texts over 64 letters: three bytes are four sextets, and a text is padded to a multiple of
four letters. Decoding forgives white space and missing padding, and undoes the encoding
(`decode_encode`).
-/

namespace Base64

def letters : List Char :=
  "ABCDEFGHIJKLMNOPQRSTUVWXYZabcdefghijklmnopqrstuvwxyz0123456789+/".toList

/-- The letter of a sextet. -/
def digit (n : ℕ) : Char :=
  letters.getD n 'A'

/-- The sextet of a letter. -/
def value (c : Char) : Option ℕ :=
  letters.findIdx? (· = c)

/-- The sextets of bytes; what is missing of the last one is zero. -/
def sextets : List ℕ → List ℕ
  | a :: b :: c :: rest =>
    a / 4 :: (a % 4 * 16 + b / 16) :: (b % 16 * 4 + c / 64) :: c % 64 :: sextets rest
  | [a, b] => [a / 4, a % 4 * 16 + b / 16, b % 16 * 4]
  | [a] => [a / 4, a % 4 * 16]
  | [] => []

/-- The bytes of sextets; bits that fill no byte are dropped. -/
def bytes : List ℕ → List ℕ
  | a :: b :: c :: d :: rest =>
    (a * 4 + b / 16) :: (b % 16 * 16 + c / 4) :: (c % 4 * 64 + d) :: bytes rest
  | [a, b, c] => [a * 4 + b / 16, b % 16 * 16 + c / 4]
  | [a, b] => [a * 4 + b / 16]
  | _ => []

def encode (bs : List ℕ) : List Char :=
  (sextets bs).map digit ++ List.replicate ((3 - bs.length % 3) % 3) '='

/-- The white space that decoding removes. -/
def isBlank (c : Char) : Bool :=
  c = '\t' || c = '\n' || c = Char.ofNat 12 || c = '\r' || c = ' '

/-- The text without the one or two signs that pad it. -/
def unpad (s : List Char) : List Char :=
  match s.reverse with
  | '=' :: '=' :: rest => rest.reverse
  | '=' :: rest => rest.reverse
  | _ => s

def decode (s : List Char) : Option (List ℕ) :=
  let s := s.filter fun c => !isBlank c
  let s := if s.length % 4 = 0 then unpad s else s
  if s.length % 4 = 1 then none else (s.mapM value).map bytes

/-! ## Letters -/

theorem digit_spec : ∀ n < 64,
    value (digit n) = some n ∧ isBlank (digit n) = false ∧ digit n ≠ '=' := by
  decide +kernel

theorem sextets_lt {bs : List ℕ} (h : ∀ b ∈ bs, b < 256) : ∀ n ∈ sextets bs, n < 64 := by
  fun_induction sextets bs with
  | case1 a b c rest ih =>
    have ha := h a (by simp)
    have hb := h b (by simp)
    have hc := h c (by simp)
    have hrest := ih fun x hx => h x (by simp [hx])
    intro n hn
    simp only [List.mem_cons] at hn
    rcases hn with rfl | rfl | rfl | rfl | hn
    · omega
    · omega
    · omega
    · omega
    · exact hrest n hn
  | case2 a b =>
    have ha := h a (by simp)
    have hb := h b (by simp)
    intro n hn
    simp only [List.mem_cons, List.not_mem_nil, or_false] at hn
    omega
  | case3 a =>
    have ha := h a (by simp)
    intro n hn
    simp only [List.mem_cons, List.not_mem_nil, or_false] at hn
    omega
  | case4 => simp

/-- Where three bytes are four sextets, one or two bytes are one sextet more. -/
theorem length_sextets (bs : List ℕ) :
    (sextets bs).length % 4 ≠ 1 ∧
      ((sextets bs).length + (3 - bs.length % 3) % 3) % 4 = 0 := by
  fun_induction sextets bs with
  | case1 a b c rest ih =>
    simp only [List.length_cons]
    omega
  | case2 a b => simp
  | case3 a => simp
  | case4 => simp

theorem bytes_sextets {bs : List ℕ} (h : ∀ b ∈ bs, b < 256) : bytes (sextets bs) = bs := by
  fun_induction sextets bs with
  | case1 a b c rest ih =>
    have ha := h a (by simp)
    have hb := h b (by simp)
    have hc := h c (by simp)
    have hrest := ih fun x hx => h x (by simp [hx])
    rw [bytes, hrest]
    congr 1
    · omega
    congr 1
    · omega
    congr 1
    omega
  | case2 a b =>
    have ha := h a (by simp)
    have hb := h b (by simp)
    simp only [bytes, List.cons.injEq, and_true]
    omega
  | case3 a =>
    have ha := h a (by simp)
    simp only [bytes, List.cons.injEq, and_true]
    omega
  | case4 => rfl

theorem mapM_value {ns : List ℕ} (h : ∀ n ∈ ns, n < 64) : (ns.map digit).mapM value = some ns := by
  induction ns with
  | nil => rfl
  | cons n ns ih =>
    rw [List.map_cons, List.mapM_cons, (digit_spec n (h n (by simp))).1,
      ih fun x hx => h x (by simp [hx])]
    rfl

/-! ## Padding -/

theorem unpad_append {s : List Char} (h : ∀ c ∈ s, c ≠ '=') {n : ℕ} (hn : n < 3) :
    unpad (s ++ List.replicate n '=') = s := by
  have hhead : ∀ rest, s.reverse ≠ '=' :: rest := by
    intro rest hrev
    exact h '=' (by rw [← List.mem_reverse, hrev]; simp) rfl
  obtain rfl | rfl | rfl : n = 0 ∨ n = 1 ∨ n = 2 := by omega
  · rw [List.replicate_zero, List.append_nil]
    unfold unpad
    split
    · exact absurd ‹_› (hhead _)
    · exact absurd ‹_› (hhead _)
    · rfl
  · unfold unpad
    rw [List.reverse_append]
    change (match '=' :: s.reverse with
      | '=' :: '=' :: rest => rest.reverse
      | '=' :: rest => rest.reverse
      | _ => s ++ List.replicate 1 '=') = s
    split
    · rename_i rest heq
      exact absurd (List.cons.inj heq).2 (hhead _)
    · rename_i rest _ heq
      rw [← (List.cons.inj heq).2, List.reverse_reverse]
    · rename_i hne
      exact absurd rfl (hne _)
  · unfold unpad
    rw [List.reverse_append]
    exact List.reverse_reverse s

/-- Decoding undoes the encoding. -/
theorem decode_encode {bs : List ℕ} (h : ∀ b ∈ bs, b < 256) : decode (encode bs) = some bs := by
  have hlt := sextets_lt h
  have hpad : (3 - bs.length % 3) % 3 < 3 := Nat.mod_lt _ (by omega)
  have hfilter : (encode bs).filter (fun c => !isBlank c) = encode bs := by
    refine List.filter_eq_self.2 fun c hc => ?_
    rcases List.mem_append.1 hc with hc | hc
    · obtain ⟨n, hn, rfl⟩ := List.mem_map.1 hc
      rw [(digit_spec n (hlt n hn)).2.1]
      rfl
    · rw [(List.mem_replicate.1 hc).2]
      rfl
  have hunpad : unpad (encode bs) = (sextets bs).map digit := by
    refine unpad_append (fun c hc => ?_) hpad
    obtain ⟨n, hn, rfl⟩ := List.mem_map.1 hc
    exact (digit_spec n (hlt n hn)).2.2
  have hlength := length_sextets bs
  have hwhole : (encode bs).length % 4 = 0 := by
    rw [encode, List.length_append, List.length_map, List.length_replicate]
    exact hlength.2
  unfold decode
  simp only [hfilter, if_pos hwhole, hunpad, List.length_map, if_neg hlength.1]
  rw [mapM_value hlt, Option.map_some, bytes_sextets h]

end Base64
