import CyberControl.CandidateContract
import CyberControl.Spans
import CyberControl.Unicode

/-! # The segments of a text

How `DeterministicClaimExtractor` (`verification/claim_extraction.py`) divides a string into segments: at
the matches of `_SENTENCE_PATTERN`, trimmed, and cut where they are too long. -/

namespace CyberControl.ClaimExtraction

open Spans Topic3

/-- `ClaimExtractionPolicy`, with the checks of `__post_init__`. -/
structure ClaimExtractionPolicy where
  maxClaims : ℕ := 4096
  maxClaimsPerBlock : ℕ := 512
  maxStatementChars : ℕ := 32768
  maxContentDepth : ℕ := 16
  maxContentNodes : ℕ := 100000
  positive : 1 ≤ maxClaims ∧ 1 ≤ maxClaimsPerBlock ∧ 1 ≤ maxStatementChars ∧ 1 ≤ maxContentDepth ∧
    1 ≤ maxContentNodes := by decide
  maxClaims_le : maxClaims ≤ 4096 := by decide
  maxStatementChars_le : maxStatementChars ≤ 32768 := by decide

section segments
variable (db : Unicode.Database)

/-! ### `_SENTENCE_PATTERN` -/

/-- The characters of the first class of the pattern. -/
def isTerminator (c : Char) : Bool := c ∈ ['\n', '。', '！', '？', '!', '?', '；', ';']

/-- How many characters the end of a sentence takes here, after the character `previous`; `$` stands for the
end of the text, since a final line break belongs to the first class. -/
def sentenceEnd (previous : Char) : List Char → Option ℕ
  | [] => some 0
  | c :: cs =>
    if isTerminator c then some ((c :: cs).takeWhile isTerminator).length
    else if c = '.' ∧ ¬ db.isDecimal previous ∧ cs.head?.all db.isSpace then some 1
    else none

/-- How many characters follow the first one in the shortest match. -/
def sentenceRest (previous : Char) (text : List Char) : ℕ :=
  match sentenceEnd db previous text with
  | some n => n
  | none =>
    match text with
    | [] => 0
    | c :: cs => sentenceRest c cs + 1

/-- `_SENTENCE_PATTERN.finditer`: the spans of the matches from a position on, of which there are not more
than characters. -/
def sentencesFrom : ℕ → ℕ → List Char → List (ℕ × ℕ)
  | 0, _, _ => []
  | _ + 1, _, [] => []
  | fuel + 1, start, c :: cs =>
    let n := sentenceRest db c cs
    (start, start + 1 + n) :: sentencesFrom fuel (start + 1 + n) (cs.drop n)

def sentences (value : List Char) : List (ℕ × ℕ) := sentencesFrom db value.length 0 value

/-! ### Segments -/

/-- The first loop of `_trim_span`, over `n` characters. -/
def trimStart (value : List Char) : ℕ → ℕ → ℕ
  | 0, start => start
  | n + 1, start => if value[start]?.any db.isSpace then trimStart value n (start + 1) else start

/-- The second one. -/
def trimEnd (value : List Char) (start : ℕ) : ℕ → ℕ
  | 0 => start
  | n + 1 => if value[start + n]?.any db.isSpace then trimEnd value start n else start + n + 1

def trimSpan (value : List Char) (start stop : ℕ) : ℕ × ℕ :=
  let start' := trimStart db value (stop - start) start
  (start', trimEnd db value start' (stop - start'))

/-- `_bounded_segments` from the cursor on, in at most `fuel` rounds. -/
def boundedSegmentsFrom (policy : ClaimExtractionPolicy) (value : List Char) (final : ℕ) :
    ℕ → ℕ → List (ℕ × ℕ)
  | 0, _ => []
  | fuel + 1, cursor =>
    if cursor < final then
      let boundary := min (cursor + policy.maxStatementChars) final
      let span := trimSpan db value cursor boundary
      (if span.1 < span.2 then [span] else [])
        ++ boundedSegmentsFrom policy value final fuel boundary
    else []

def boundedSegments (policy : ClaimExtractionPolicy) (value : List Char) (start final : ℕ) :
    List (ℕ × ℕ) :=
  boundedSegmentsFrom db policy value final (final - start) start

def sentenceSegments (policy : ClaimExtractionPolicy) (value : List Char) (sentence : ℕ × ℕ) :
    List (ℕ × ℕ) :=
  let span := trimSpan db value sentence.1 sentence.2
  if span.2 ≤ span.1 then [] else boundedSegments db policy value span.1 span.2

/-- The spans of `_segments`. -/
def segmentSpans (policy : ClaimExtractionPolicy) (blockType : BlockType) (value : List Char) :
    List (ℕ × ℕ) :=
  if blockType ∈ [.CODE, .MERMAID] then boundedSegments db policy value 0 value.length
  else (sentences db value).flatMap (sentenceSegments db policy value)

/-- What `_segments` yields. -/
structure Segment where
  start : ℕ
  stop : ℕ
  statement : List Char

/-- `value[start:stop]`. -/
def slice (value : List Char) (start stop : ℕ) : List Char := (value.drop start).take (stop - start)

def segments (policy : ClaimExtractionPolicy) (blockType : BlockType) (value : List Char) : List Segment :=
  (segmentSpans db policy blockType value).map fun span => ⟨span.1, span.2, slice value span.1 span.2⟩

end segments

/-! ### Trimming -/

section cover
variable {db : Unicode.Database} {policy : ClaimExtractionPolicy} {value : List Char}

theorem blank_of_any {i : ℕ} {c : Char} (h : value[i]?.any db.isSpace) (hc : value[i]? = some c) :
    db.isSpace c := by
  rw [hc] at h
  exact h

theorem trimStart_spec (n start : ℕ) :
    start ≤ trimStart db value n start ∧ trimStart db value n start ≤ start + n ∧
      BlankBetween db.isSpace value start (trimStart db value n start) := by
  induction n generalizing start with
  | zero => exact ⟨Nat.le_refl _, Nat.le_refl _, fun i c hi hi' => absurd hi (by rw [trimStart] at hi'; omega)⟩
  | succ n ih =>
    unfold trimStart
    split_ifs with hspace
    · obtain ⟨hle, hle', hblank⟩ := ih (start + 1)
      refine ⟨by omega, by omega, fun i c hi hi' hc => ?_⟩
      by_cases hstart : i = start
      · subst hstart
        exact blank_of_any hspace hc
      · exact hblank i c (by omega) hi' hc
    · exact ⟨Nat.le_refl _, by omega, fun i c hi hi' => by omega⟩

theorem trimEnd_spec (start n : ℕ) :
    start ≤ trimEnd db value start n ∧ trimEnd db value start n ≤ start + n ∧
      BlankBetween db.isSpace value (trimEnd db value start n) (start + n) := by
  induction n with
  | zero => exact ⟨Nat.le_refl _, Nat.le_refl _, fun i c hi hi' => by rw [trimEnd] at hi; omega⟩
  | succ n ih =>
    unfold trimEnd
    split_ifs with hspace
    · obtain ⟨hle, hle', hblank⟩ := ih
      refine ⟨hle, by omega, fun i c hi hi' hc => ?_⟩
      by_cases hlast : i = start + n
      · subst hlast
        exact blank_of_any hspace hc
      · exact hblank i c hi (by omega) hc
    · exact ⟨by omega, Nat.le_refl _, fun i c hi hi' => by omega⟩

variable {start stop : ℕ}

theorem trimSpan_spec (h : start ≤ stop) :
    let span := trimSpan db value start stop
    start ≤ span.1 ∧ span.1 ≤ span.2 ∧ span.2 ≤ stop ∧
      BlankBetween db.isSpace value start span.1 ∧ BlankBetween db.isSpace value span.2 stop := by
  have hstart := @trimStart_spec db value (stop - start) start
  have hstop := @trimEnd_spec db value (trimStart db value (stop - start) start)
    (stop - trimStart db value (stop - start) start)
  have hle : trimStart db value (stop - start) start ≤ stop := by omega
  rw [Nat.add_sub_cancel' hle] at hstop
  exact ⟨hstart.1, hstop.1, hstop.2.1, hstart.2.2, hstop.2.2⟩

theorem trimStart_stops {n start : ℕ} (h : trimStart db value n start < start + n) :
    ¬ value[trimStart db value n start]?.any db.isSpace := by
  induction n generalizing start with
  | zero => exact absurd h (Nat.lt_irrefl _)
  | succ n ih =>
    unfold trimStart at h ⊢
    split_ifs at h ⊢ with hspace
    · exact ih (by omega)
    · exact hspace

theorem trimSpan_stops (hle : start ≤ stop)
    (h : (trimSpan db value start stop).1 < (trimSpan db value start stop).2) :
    ¬ value[(trimSpan db value start stop).1]?.any db.isSpace := by
  obtain ⟨-, -, hstop, -, -⟩ := @trimSpan_spec db value start stop hle
  refine trimStart_stops ?_
  have hlt : trimStart db value (stop - start) start < stop := Nat.lt_of_lt_of_le h hstop
  omega

/-! ### Covers -/

theorem cover_trimmed {spans : List (ℕ × ℕ)} (h : start ≤ stop)
    (hspans : Covers db.isSpace value (trimSpan db value start stop).1 (trimSpan db value start stop).2
      spans) : Covers db.isSpace value start stop spans := by
  obtain ⟨hstart, -, hstop, hblank, hblank'⟩ := @trimSpan_spec db value start stop h
  exact hspans.widen hstart hstop hblank hblank'

theorem covers_self {first last : ℕ} (h : last ≤ first) : Covers db.isSpace value first last [] := by
  refine BlankBetween.covers fun i c hi hi' => ?_
  omega

theorem boundedSegmentsFrom_cover {final fuel cursor : ℕ} (hfuel : final - cursor ≤ fuel)
    (hcursor : cursor ≤ final) :
    Covers db.isSpace value cursor final (boundedSegmentsFrom db policy value final fuel cursor) := by
  induction fuel generalizing cursor with
  | zero => exact covers_self (by omega)
  | succ fuel ih =>
    unfold boundedSegmentsFrom
    split_ifs with hlt
    · have hmax := policy.positive.2.2.1
      have hboundary : cursor < min (cursor + policy.maxStatementChars) final := by omega
      refine Covers.append (cover_trimmed (Nat.le_of_lt hboundary) ?_) (ih ?_ ?_) ?_ ?_
      · split_ifs with hspan
        · exact covers_singleton hspan
        · exact covers_self (by omega)
      all_goals omega
    · exact covers_self (by omega)

theorem boundedSegments_cover {start final : ℕ} (h : start ≤ final) :
    Covers db.isSpace value start final (boundedSegments db policy value start final) :=
  boundedSegmentsFrom_cover (Nat.le_refl _) h

theorem sentenceSegments_cover {sentence : ℕ × ℕ} (h : sentence.1 ≤ sentence.2) :
    Covers db.isSpace value sentence.1 sentence.2 (sentenceSegments db policy value sentence) := by
  refine cover_trimmed h ?_
  unfold sentenceSegments
  by_cases hspan : (trimSpan db value sentence.1 sentence.2).2 ≤ (trimSpan db value sentence.1 sentence.2).1
  · simp only [if_pos hspan]
    exact covers_self hspan
  · simp only [if_neg hspan]
    exact boundedSegments_cover (by omega)

/-! ### Sentences -/

theorem sentenceEnd_le {previous : Char} {text : List Char} {n : ℕ}
    (h : sentenceEnd db previous text = some n) : n ≤ text.length := by
  cases text with
  | nil =>
    cases h
    exact Nat.le_refl _
  | cons c cs =>
    rw [sentenceEnd] at h
    split_ifs at h with hterminator hstop
    · cases h
      exact (List.takeWhile_sublist _).length_le
    · cases h
      exact Nat.succ_le_succ (Nat.zero_le _)

theorem sentenceRest_le (previous : Char) (text : List Char) :
    sentenceRest db previous text ≤ text.length := by
  induction text generalizing previous with
  | nil =>
    unfold sentenceRest
    split
    · rename_i n hn
      exact sentenceEnd_le hn
    · exact Nat.le_refl _
  | cons c cs ih =>
    unfold sentenceRest
    split
    · rename_i n hn
      exact sentenceEnd_le hn
    · exact Nat.succ_le_succ (ih c)

/-- The matches follow each other: what is covered in each is covered in the text. -/
theorem sentencesFrom_cover {f : ℕ × ℕ → List (ℕ × ℕ)}
    (hf : ∀ sentence : ℕ × ℕ, sentence.1 ≤ sentence.2 →
      Covers db.isSpace value sentence.1 sentence.2 (f sentence)) {fuel start : ℕ} {text : List Char}
    (hfuel : text.length ≤ fuel) :
    Covers db.isSpace value start (start + text.length) ((sentencesFrom db fuel start text).flatMap f) := by
  induction fuel generalizing start text with
  | zero => exact covers_self (by omega)
  | succ fuel ih =>
    cases text with
    | nil => exact covers_self (Nat.le_refl _)
    | cons c cs =>
      have hrest := @sentenceRest_le db c cs
      have hlength : (cs.drop (sentenceRest db c cs)).length = cs.length - sentenceRest db c cs :=
        List.length_drop
      have hlast : start + 1 + sentenceRest db c cs + (cs.drop (sentenceRest db c cs)).length
          = start + (c :: cs).length := by
        rw [hlength, List.length_cons]
        omega
      rw [List.length_cons] at hfuel
      have hlater := @ih (start + 1 + sentenceRest db c cs) (cs.drop (sentenceRest db c cs)) (by omega)
      rw [hlast] at hlater
      unfold sentencesFrom
      rw [List.flatMap_cons]
      refine (hf (start, start + 1 + sentenceRest db c cs) ?_).append hlater ?_ ?_
      · show start ≤ start + 1 + sentenceRest db c cs
        omega
      · show start ≤ start + 1 + sentenceRest db c cs
        omega
      · show start + 1 + sentenceRest db c cs ≤ start + (c :: cs).length
        rw [List.length_cons]
        omega

/-- **The segments of a text** contain every character that is not white space, once and in order. -/
theorem segmentSpans_cover (db : Unicode.Database) (policy : ClaimExtractionPolicy) (blockType : BlockType)
    (value : List Char) : Covers db.isSpace value 0 value.length (segmentSpans db policy blockType value) := by
  unfold segmentSpans
  split_ifs with hblock
  · exact boundedSegments_cover (Nat.zero_le _)
  · have hcover := @sentencesFrom_cover db value (sentenceSegments db policy value)
      (fun _ h => sentenceSegments_cover h) value.length 0 value (Nat.le_refl _)
    rw [Nat.zero_add] at hcover
    exact hcover

theorem boundedSegmentsFrom_stops {final fuel cursor : ℕ} {span : ℕ × ℕ}
    (h : span ∈ boundedSegmentsFrom db policy value final fuel cursor) :
    ¬ value[span.1]?.any db.isSpace := by
  induction fuel generalizing cursor with
  | zero => cases h
  | succ fuel ih =>
    unfold boundedSegmentsFrom at h
    split_ifs at h with hlt
    · cases List.mem_append.mp h with
      | inl hfirst =>
        split_ifs at hfirst with hspan
        · rw [List.mem_singleton.mp hfirst]
          exact trimSpan_stops (by omega) hspan
        · cases hfirst
      | inr hrest => exact ih hrest
    · cases h

variable {blockType : BlockType}

theorem segmentSpans_stops {span : ℕ × ℕ}
    (h : span ∈ segmentSpans db policy blockType value) : ¬ value[span.1]?.any db.isSpace := by
  unfold segmentSpans at h
  split_ifs at h with hblock
  · exact boundedSegmentsFrom_stops h
  · obtain ⟨sentence, -, hspan⟩ := List.mem_flatMap.mp h
    unfold sentenceSegments at hspan
    by_cases hempty : (trimSpan db value sentence.1 sentence.2).2
        ≤ (trimSpan db value sentence.1 sentence.2).1
    · simp only [if_pos hempty] at hspan
      cases hspan
    · simp only [if_neg hempty] at hspan
      exact boundedSegmentsFrom_stops hspan

theorem segments_visible {segment : Segment}
    (h : segment ∈ segments db policy blockType value) : ¬ db.Blank segment.statement := by
  obtain ⟨span, hspan, rfl⟩ := List.mem_map.mp h
  obtain ⟨-, hlt, hle⟩ := (segmentSpans_cover db policy blockType value).inside span hspan
  have hstart : span.1 < value.length := by omega
  have hstops := segmentSpans_stops hspan
  rw [List.getElem?_eq_getElem hstart] at hstops
  intro hblank
  refine hstops (hblank value[span.1] ?_)
  show value[span.1] ∈ (value.drop span.1).take (span.2 - span.1)
  rw [List.mem_iff_getElem]
  refine ⟨0, ?_, ?_⟩
  · rw [List.length_take, List.length_drop]
    omega
  · rw [List.getElem_take, List.getElem_drop]
    rfl

theorem segments_blank (h : db.Blank value) :
    segments db policy blockType value = [] := by
  rw [List.eq_nil_iff_forall_not_mem]
  intro segment hsegment
  refine segments_visible hsegment ?_
  obtain ⟨span, -, rfl⟩ := List.mem_map.mp hsegment
  exact fun c hc => h c (List.mem_of_mem_drop (List.mem_of_mem_take hc))

end cover

end CyberControl.ClaimExtraction
