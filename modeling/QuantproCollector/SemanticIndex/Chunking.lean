import QuantproCollector.SemanticIndex.Soundness

/-!
# Chunks

`chunkSemanticDocument` with the ordinals and the flag that it returns. The chunks are the normalised
text cut into segments and joined again, each beginning with the tail of the one before; where none is
left out, the text is got back from them (`chunking_lossless`).
-/

namespace QuantproCollector.SemanticIndex.Search

open Push

structure SemanticChunk where
  ordinal : ℕ
  text : Units
deriving DecidableEq

structure ChunkedDocument where
  chunks : List SemanticChunk
  truncated : Bool
deriving DecidableEq

/-- Chunks numbered in their order. -/
def numbered (texts : List Units) : List SemanticChunk :=
  texts.mapIdx fun ordinal text => ⟨ordinal, text⟩

/-- The chunks of a normalised text. -/
def chunkNormalized (normalized : Units) : ChunkedDocument :=
  let chunks := joinSegments []
    (segmentText normalized (SEMANTIC_CHUNK_CHARS - SEMANTIC_CHUNK_OVERLAP_CHARS))
  { chunks := numbered (sampleChunks chunks)
    truncated := decide (SEMANTIC_MAX_CHUNKS < chunks.length) }

/-- The whole answer of `chunkSemanticDocument`; the definition of that name keeps the texts. -/
def chunkedDocument (R : Push.Runtime) (text : List Char) : ChunkedDocument :=
  chunkNormalized (normalizedUnits R text)

@[simp] theorem texts_numbered (texts : List Units) :
    (numbered texts).map (·.text) = texts := by
  refine List.ext_getElem (by simp [numbered]) fun n _ _ => ?_
  simp [numbered]

theorem ordinals_numbered (texts : List Units) :
    (numbered texts).map (·.ordinal) = List.range (numbered texts).length := by
  refine List.ext_getElem (by simp) fun n _ _ => ?_
  simp [numbered]

theorem texts_chunkedDocument (R : Push.Runtime) (text : List Char) :
    (chunkedDocument R text).chunks.map (·.text) = chunkSemanticDocument R text :=
  texts_numbered _

/-! ## Segments -/

/-- Enough cuts leave pieces that are not empty and not too long. -/
theorem chop_bounded {maxSegment : ℕ} (hmax : 0 < maxSegment) {n : ℕ} {value : Units}
    (hn : value.length ≤ n) :
    ∀ piece ∈ chop maxSegment n value, piece ≠ [] ∧ piece.length ≤ maxSegment := by
  induction n generalizing value with
  | zero =>
    rw [List.length_eq_zero_iff.1 (Nat.le_zero.1 hn)]
    simp [chop]
  | succ n ih =>
    unfold chop
    split_ifs with hlong hempty
    · intro piece hpiece
      rcases List.mem_cons.1 hpiece with rfl | hpiece
      · refine ⟨fun hnil => ?_, List.length_take_le _ _⟩
        have hlen := congrArg List.length hnil
        rw [List.length_take, List.length_nil] at hlen
        omega
      · refine ih ?_ piece hpiece
        rw [List.length_drop]
        omega
    · exact fun _ hpiece => absurd hpiece List.not_mem_nil
    · intro piece hpiece
      rw [List.mem_singleton.1 hpiece]
      exact ⟨hempty, by omega⟩

/-- The loop that cuts a segment has ended after as many cuts as it has units. -/
theorem chop_stable {maxSegment : ℕ} (hmax : 0 < maxSegment) {n m : ℕ} {value : Units}
    (hn : value.length ≤ n) (hm : value.length ≤ m) :
    chop maxSegment n value = chop maxSegment m value := by
  induction n generalizing m value with
  | zero =>
    rw [List.length_eq_zero_iff.1 (Nat.le_zero.1 hn)]
    cases m <;> simp [chop]
  | succ n ih =>
    cases m with
    | zero =>
      rw [List.length_eq_zero_iff.1 (Nat.le_zero.1 hm)]
      simp [chop]
    | succ m =>
      unfold chop
      split_ifs with hlong
      · refine congrArg _ (ih ?_ ?_) <;> rw [List.length_drop] <;> omega
      · rfl
      · rfl

theorem segment_bounded {maxSegment : ℕ} (hmax : 0 < maxSegment) (text : Units) :
    ∀ segment ∈ segmentText text maxSegment, segment ≠ [] ∧ segment.length ≤ maxSegment := by
  intro segment hsegment
  obtain ⟨value, -, hpiece⟩ := List.mem_flatMap.1 hsegment
  exact chop_bounded hmax (le_refl _) segment hpiece

/-! ## Joining the segments -/

theorem length_overlapTail (text : Units) :
    (overlapTail text).length ≤ SEMANTIC_CHUNK_OVERLAP_CHARS := by
  unfold overlapTail
  split_ifs with hshort
  · exact hshort
  · have htail : (text.drop (text.length - SEMANTIC_CHUNK_OVERLAP_CHARS)).length ≤
        SEMANTIC_CHUNK_OVERLAP_CHARS := by
      rw [List.length_drop]
      omega
    dsimp only
    split
    · split_ifs
      · rw [List.length_drop]
        omega
      · exact htail
    · exact htail

/-- The chunk that is built stays within its bound, and so does each one that is pushed. -/
theorem chunk_bounded {segments : List Units}
    (hsegments : ∀ segment ∈ segments,
      segment.length ≤ SEMANTIC_CHUNK_CHARS - SEMANTIC_CHUNK_OVERLAP_CHARS)
    {current : Units} (hcurrent : current.length ≤ SEMANTIC_CHUNK_CHARS) :
    ∀ chunk ∈ joinSegments current segments, chunk ≠ [] ∧ chunk.length ≤ SEMANTIC_CHUNK_CHARS := by
  induction segments generalizing current with
  | nil =>
    unfold joinSegments
    split_ifs with hempty
    · exact fun _ hchunk => absurd hchunk List.not_mem_nil
    · intro chunk hchunk
      rw [List.mem_singleton.1 hchunk]
      exact ⟨hempty, hcurrent⟩
  | cons segment rest ih =>
    have hsegment := hsegments segment List.mem_cons_self
    have hrest := fun s hs => hsegments s (List.mem_cons_of_mem _ hs)
    have hsum : SEMANTIC_CHUNK_OVERLAP_CHARS + (SEMANTIC_CHUNK_CHARS - SEMANTIC_CHUNK_OVERLAP_CHARS) =
      SEMANTIC_CHUNK_CHARS := rfl
    unfold joinSegments
    split_ifs with hover
    · intro chunk hchunk
      rcases List.mem_cons.1 hchunk with rfl | hchunk
      · exact ⟨hover.1, hcurrent⟩
      · refine ih hrest ?_ chunk hchunk
        have htail := length_overlapTail current
        rw [List.length_append]
        omega
    · refine ih hrest ?_
      rw [List.length_append]
      by_cases hempty : current = []
      · rw [hempty, List.length_nil]
        omega
      · exact not_lt.1 fun hlong => hover ⟨hempty, hlong⟩

/-- The chunks without the overlap that each begins with, `tail` being that of the first. -/
def withoutOverlaps : Units → List Units → Units
  | _, [] => []
  | tail, chunk :: rest => chunk.drop tail.length ++ withoutOverlaps (overlapTail chunk) rest

/-- The chunk after `tail` begins with it, and each later one with the tail of the one before. -/
def Overlapping : Units → List Units → Prop
  | _, [] => True
  | tail, chunk :: rest => tail <+: chunk ∧ Overlapping (overlapTail chunk) rest

/-- The chunk that is built begins with a tail that was read before, and what follows the tails is
what was read and what is still to read. -/
theorem withoutOverlaps_joinSegments {segments : List Units} {tail current : Units}
    (htail : tail <+: current) :
    Overlapping tail (joinSegments current segments) ∧
      withoutOverlaps tail (joinSegments current segments) =
        current.drop tail.length ++ segments.flatten := by
  induction segments generalizing tail current with
  | nil =>
    unfold joinSegments
    split_ifs with hempty
    · simp [Overlapping, withoutOverlaps, hempty]
    · exact ⟨⟨htail, trivial⟩, rfl⟩
  | cons segment rest ih =>
    unfold joinSegments
    split_ifs with hover
    · obtain ⟨hoverlapping, hread⟩ := ih (List.prefix_append (overlapTail current) segment)
      refine ⟨⟨htail, hoverlapping⟩, ?_⟩
      rw [withoutOverlaps, hread, List.drop_left, List.flatten_cons]
    · obtain ⟨hoverlapping, hread⟩ := ih (htail.trans (List.prefix_append current segment))
      refine ⟨hoverlapping, ?_⟩
      rw [hread, List.drop_append_of_le_length htail.length_le, List.append_assoc, List.flatten_cons]

/-! ## The document -/

/-- What the chunks of a normalised text are. -/
structure Lossless (normalized : Units) (document : ChunkedDocument) : Prop where
  bounded : ∀ chunk ∈ document.chunks, chunk.text ≠ [] ∧ chunk.text.length ≤ SEMANTIC_CHUNK_CHARS
  ordinals : document.chunks.map (·.ordinal) = List.range document.chunks.length
  few : document.chunks.length ≤ SEMANTIC_MAX_CHUNKS
  whole : document.truncated = false →
    Overlapping [] (document.chunks.map (·.text)) ∧
      withoutOverlaps [] (document.chunks.map (·.text)) = normalized

theorem length_sampleChunks (chunks : List Units) :
    (sampleChunks chunks).length ≤ SEMANTIC_MAX_CHUNKS := by
  unfold sampleChunks
  split_ifs with hmany
  · rw [List.length_append, List.length_take, List.length_drop]
    unfold SEMANTIC_MAX_CHUNKS at hmany ⊢
    omega
  · omega

theorem lossless_chunkNormalized (normalized : Units) :
    Lossless normalized (chunkNormalized normalized) := by
  have hsegments : ∀ segment ∈ segmentText normalized
      (SEMANTIC_CHUNK_CHARS - SEMANTIC_CHUNK_OVERLAP_CHARS),
      segment.length ≤ SEMANTIC_CHUNK_CHARS - SEMANTIC_CHUNK_OVERLAP_CHARS :=
    fun s hs => (segment_bounded (by decide) normalized s hs).2
  have hempty : ([] : Units).length ≤ SEMANTIC_CHUNK_CHARS := Nat.zero_le _
  have hchunks := chunk_bounded hsegments hempty
  have htexts : (chunkNormalized normalized).chunks.map (·.text) = sampleChunks (joinSegments []
      (segmentText normalized (SEMANTIC_CHUNK_CHARS - SEMANTIC_CHUNK_OVERLAP_CHARS))) :=
    texts_numbered _
  refine ⟨fun chunk hchunk => ?_, ordinals_numbered _, ?_, fun htruncated => ?_⟩
  · refine hchunks chunk.text (mem_of_sampleChunks ?_)
    rw [← htexts]
    exact List.mem_map_of_mem hchunk
  · have hlength := congrArg List.length htexts
    rw [List.length_map] at hlength
    rw [hlength]
    exact length_sampleChunks _
  · have hfew := of_decide_eq_false htruncated
    rw [htexts, sampleChunks, if_neg hfew]
    have hstart : ([] : Units) <+: [] := List.prefix_refl []
    obtain ⟨hoverlapping, hread⟩ := withoutOverlaps_joinSegments hstart
    refine ⟨hoverlapping, hread.trans ?_⟩
    rw [flatten_segmentText]
    rfl

/-- The chunks of any text, and the segments that they are built of. The loop that cuts the segments
ends: more cuts than a segment has units change nothing. -/
theorem chunking_lossless (R : Push.Runtime) (text : List Char) :
    Lossless (normalizedUnits R text) (chunkedDocument R text) ∧
      (segmentText (normalizedUnits R text)
        (SEMANTIC_CHUNK_CHARS - SEMANTIC_CHUNK_OVERLAP_CHARS)).flatten = normalizedUnits R text ∧
      (∀ segment ∈ segmentText (normalizedUnits R text)
          (SEMANTIC_CHUNK_CHARS - SEMANTIC_CHUNK_OVERLAP_CHARS),
        segment.length ≤ SEMANTIC_CHUNK_CHARS - SEMANTIC_CHUNK_OVERLAP_CHARS) ∧
      ∀ segment : Units, ∀ cuts, segment.length ≤ cuts →
        chop (SEMANTIC_CHUNK_CHARS - SEMANTIC_CHUNK_OVERLAP_CHARS) cuts segment =
          chop (SEMANTIC_CHUNK_CHARS - SEMANTIC_CHUNK_OVERLAP_CHARS) segment.length segment := by
  refine ⟨lossless_chunkNormalized _, flatten_segmentText _ _, fun segment hsegment => ?_,
    fun segment cuts hcuts => chop_stable (by decide) hcuts (le_refl _)⟩
  exact (segment_bounded (by decide) _ segment hsegment).2

end QuantproCollector.SemanticIndex.Search
