import CyberControl.ClaimExtraction
import CyberControl.Pattern
import CyberControl.UnicodeAscii

/-! # Chunks of a section

`BoundedKnowledgeChunker` (`knowledge/ingestion.py`) with `DeterministicTokenizer` (`knowledge/retrieval.py`). -/

namespace CyberControl.Chunking

open ClaimExtraction (collapseRuns)
open Pattern (option plus star)

/-! ### The tokenizer -/

/-- `DeterministicTokenizer`: what it takes from Unicode. -/
structure Tokenizer where
  db : Unicode.Database
  lowering : Unicode.Lowering

/-- `[a-z0-9_]` -/
def isAsciiToken (c : Char) : Bool := ('a' ≤ c && c ≤ 'z') || c.isDigit || c = '_'

/-- `ASCII_TOKEN` -/
def asciiToken : Pattern :=
  .seq (plus (.char isAsciiToken)) (star (.seq (.literal '.') (plus (.char isAsciiToken))))

/-- `CJK_CHAR` -/
def isCjk (c : Char) : Bool := ('\u3400' ≤ c && c ≤ '\u4dbf') || ('\u4e00' ≤ c && c ≤ '\u9fff')

/-- `FORMULA_TOKEN` -/
def formulaToken (db : Unicode.Database) : Pattern :=
  .choice [plus (.char Char.isAlpha),
    .seq (plus (.char db.isDecimal)) (option (.seq (.literal '.') (plus (.char db.isDecimal)))),
    .char fun c => ['+', '-', '*', '/', '^', '=', '(', ')', '\x7b', '\x7d', '[', ']'].contains c]

/-- `findall` -/
def findAll (pattern : Pattern) (text : List Char) : List (List Char) :=
  Pattern.empty.findGroups pattern (text.length + 1) (.start text)

/-- `DeterministicTokenizer.tokenize` -/
def Tokenizer.tokenize (t : Tokenizer) (value : List Char) : List (List Char) :=
  let normalized := t.lowering.lower (t.db.nfkc value)
  let cjk := normalized.filter isCjk
  (findAll asciiToken normalized ++ cjk.map ([·]) ++ (cjk.zip cjk.tail).map (fun pair => [pair.1, pair.2]) ++
    (findAll (formulaToken t.db) normalized).map fun token => "formula:".toList ++ t.lowering.lower token).filter
      (· ≠ [])

/-! ### The chunker -/

structure ParsedSection where
  sectionId : String
  title : List Char
  text : List Char

structure ChunkDraft where
  sectionId : String
  chunkOrdinal : ℕ
  normalizedText : List Char
  contentSha256 : String
  tokenCount : ℕ
  topic1KnowledgePointIds : List String
  formulaSignatureIds : List ℕ
  lexicalTerms : List (List Char)
deriving DecidableEq

structure BoundedKnowledgeChunker where
  tokenizer : Tokenizer
  canonicalSha256 : List Char → String
  maxTokens : ℕ
  overlapTokens : ℕ
  maxTokens_mem : 64 ≤ maxTokens ∧ maxTokens ≤ 16384
  overlap_lt : overlapTokens < maxTokens

/-- `value[start:end]` -/
def slice (value : List Char) (start stop : ℕ) : List Char := (value.take stop).drop start

/-- `re.sub(r"\n{3,}", "\n\n", value)`, after some line ends. -/
def limitNewlines (before : ℕ) : List Char → List Char
  | [] => []
  | c :: rest =>
    if c ≠ '\n' then c :: limitNewlines 0 rest
    else if before < 2 then c :: limitNewlines (before + 1) rest
    else limitNewlines (before + 1) rest

section search
variable (fits : ℕ → Bool)

/-- The loop of `_max_end`, with `high` one more than in the source. -/
def lastFit : ℕ → ℕ → ℕ → ℕ → ℕ
  | 0, _, _, best => best
  | n + 1, low, high, best =>
    if high ≤ low then best
    else if fits ((low + (high - 1)) / 2) then
      lastFit n ((low + (high - 1)) / 2 + 1) high ((low + (high - 1)) / 2)
    else lastFit n low ((low + (high - 1)) / 2) best

/-- The loop of `_overlap_start`, with `high` one more than in the source. -/
def firstFit : ℕ → ℕ → ℕ → ℕ → ℕ
  | 0, _, _, best => best
  | n + 1, low, high, best =>
    if high ≤ low then best
    else if fits ((low + (high - 1)) / 2) then
      firstFit n low ((low + (high - 1)) / 2) ((low + (high - 1)) / 2)
    else firstFit n ((low + (high - 1)) / 2 + 1) high best

end search

section chunker
variable (chunker : BoundedKnowledgeChunker)

/-- `_normalize_chunk_text` -/
def normalizeChunkText (value : List Char) : List Char :=
  let db := chunker.tokenizer.db
  db.strip (limitNewlines 0 (collapseRuns (fun c => c = '\t' || c = ' ') ' ' false (db.nfkc value)))

def tokenCount (value : List Char) : ℕ := (chunker.tokenizer.tokenize value).length

/-- `_max_end` -/
def maxEnd (value : List Char) (start : ℕ) : ℕ :=
  lastFit (fun middle => tokenCount chunker (slice value start middle) ≤ chunker.maxTokens) value.length
    (start + 1) (value.length + 1) (start + 1)

/-- `_prefer_boundary` -/
def preferBoundary (value : List Char) (start stop : ℕ) : ℕ :=
  if value.length ≤ stop then stop
  else
    let minimum := start + max 1 ((stop - start) / 2)
    ((List.range' (minimum + 1) (stop - minimum)).reverse.find? fun position =>
      value[position - 1]?.any "\n。！？.!?；; ".toList.contains).getD stop

/-- `_overlap_start` -/
def overlapStart (value : List Char) (start stop : ℕ) : ℕ :=
  if chunker.overlapTokens = 0 then stop
  else
    firstFit (fun middle => tokenCount chunker (slice value middle stop) ≤ chunker.overlapTokens) value.length
      start stop stop

/-- The loop of `_windows`: where the windows begin and end.  Each round begins further on, so that `n` rounds
are enough for `n` characters. -/
def windowsFrom (value : List Char) : ℕ → ℕ → Except Exn (List (ℕ × ℕ))
  | 0, _ => .ok []
  | n + 1, start =>
    if value.length ≤ start then .ok []
    else
      let stop := preferBoundary value start (maxEnd chunker value start)
      if chunker.tokenizer.db.strip (slice value start stop) = [] then
        .error (.valueError "chunker could not make forward progress")
      else if value.length ≤ stop then .ok [(start, stop)]
      else do
        let rest ← windowsFrom value n (max (start + 1) (overlapStart chunker value start stop))
        return (start, stop) :: rest

/-- `_windows` -/
def windows (value : List Char) : Except Exn (List (List Char)) :=
  if tokenCount chunker value ≤ chunker.maxTokens then .ok [value]
  else do
    let bounds ← windowsFrom chunker value value.length 0
    return bounds.map fun w => chunker.tokenizer.db.strip (slice value w.1 w.2)

def draftOf (parsed : ParsedSection) (knowledgePointIds : List String) (formulaSignatureIds : List ℕ)
    (piece : List Char × ℕ) : Except Exn ChunkDraft := do
  let tokens := chunker.tokenizer.tokenize piece.1
  ensure (tokens ≠ [] ∧ tokens.length ≤ chunker.maxTokens)
    (.valueError "chunker produced an invalid token count")
  return {
    sectionId := parsed.sectionId
    chunkOrdinal := piece.2
    normalizedText := piece.1
    contentSha256 := chunker.canonicalSha256 piece.1
    tokenCount := tokens.length
    topic1KnowledgePointIds := knowledgePointIds
    formulaSignatureIds
    lexicalTerms := tokens.reverse.dedup.reverse.take 8192 }

def chunkText (parsed : ParsedSection) : List Char :=
  normalizeChunkText chunker (parsed.title ++ '\n' :: parsed.text)

/-- `BoundedKnowledgeChunker.chunk` -/
def chunk (parsed : ParsedSection) (knowledgePointIds : List String) (formulaSignatureIds : List ℕ) :
    Except Exn (List ChunkDraft) := do
  let pieces ← windows chunker (chunkText chunker parsed)
  pieces.zipIdx.mapM (draftOf chunker parsed knowledgePointIds formulaSignatureIds)

end chunker

/-! ### Windows -/

variable {chunker : BoundedKnowledgeChunker} {value : List Char}

variable (chunker value) in
/-- What two windows in a row share: less than the first, and few tokens unless that is all but one character. -/
def Shares (w w' : ℕ × ℕ) : Prop :=
  w.1 < w'.1 ∧ w'.1 ≤ w.2 ∧
    (w'.1 = w.1 + 1 ∨ tokenCount chunker (slice value w'.1 w.2) ≤ chunker.overlapTokens)

variable (chunker value) in
/-- Windows from a position to the end of a text. -/
structure Covers (start : ℕ) (ws : List (ℕ × ℕ)) : Prop where
  head : ws.head?.map Prod.fst = some start
  last : ws.getLast?.map Prod.snd = some value.length
  inside : ∀ w ∈ ws, w.1 < w.2 ∧ w.2 ≤ value.length
  chain : ws.IsChain (Shares chunker value)

theorem tokenCount_nil : tokenCount chunker [] = 0 := rfl

theorem lastFit_mem {fits : ℕ → Bool} {a b : ℕ} (n : ℕ) {low high best : ℕ} (hbest : a ≤ best ∧ best ≤ b)
    (hlow : a ≤ low) (hhigh : high ≤ b + 1) :
    a ≤ lastFit fits n low high best ∧ lastFit fits n low high best ≤ b := by
  induction n generalizing low high best with
  | zero => exact hbest
  | succ n ih =>
    unfold lastFit
    split_ifs with hempty
    · exact hbest
    · exact ih (by omega) (by omega) hhigh
    · exact ih hbest hlow (by omega)

theorem firstFit_spec {fits : ℕ → Bool} (n : ℕ) {low high best : ℕ} : firstFit fits n low high best = best ∨
    (firstFit fits n low high best < high ∧ fits (firstFit fits n low high best)) := by
  induction n generalizing low high best with
  | zero => exact .inl rfl
  | succ n ih =>
    unfold firstFit
    split_ifs with hempty hfits
    · exact .inl rfl
    · rcases @ih low ((low + (high - 1)) / 2) ((low + (high - 1)) / 2) with h | h
      · rw [h]
        exact .inr ⟨by omega, hfits⟩
      · exact .inr ⟨h.1.trans (by omega), h.2⟩
    · exact ih

theorem overlapStart_spec (start stop : ℕ) : overlapStart chunker value start stop ≤ stop ∧
    tokenCount chunker (slice value (overlapStart chunker value start stop) stop) ≤
      chunker.overlapTokens := by
  have hnone : tokenCount chunker (slice value stop stop) ≤ chunker.overlapTokens := by
    have hempty : slice value stop stop = [] := by simp [slice]
    rw [hempty, tokenCount_nil]
    exact Nat.zero_le _
  unfold overlapStart
  split_ifs
  · exact ⟨le_rfl, hnone⟩
  · rcases @firstFit_spec (fun middle => tokenCount chunker (slice value middle stop) ≤ chunker.overlapTokens)
      value.length start stop stop with h | h
    · rw [h]
      exact ⟨le_rfl, hnone⟩
    · exact ⟨h.1.le, of_decide_eq_true h.2⟩

theorem preferBoundary_mem {start stop : ℕ} (h : start < stop) :
    start < preferBoundary value start stop ∧ preferBoundary value start stop ≤ stop := by
  unfold preferBoundary
  split_ifs
  · exact ⟨h, le_rfl⟩
  · simp only
    cases hfind : ((List.range' (start + max 1 ((stop - start) / 2) + 1)
      (stop - (start + max 1 ((stop - start) / 2)))).reverse.find? fun position =>
        value[position - 1]?.any "\n。！？.!?；; ".toList.contains) with
    | none => exact ⟨h, le_rfl⟩
    | some position =>
      have hmem := List.mem_of_find?_eq_some hfind
      rw [List.mem_reverse, List.mem_range'_1] at hmem
      simp only [Option.getD_some]
      omega

theorem windowsFrom_covers (n : ℕ) {start : ℕ} {ws : List (ℕ × ℕ)} (hstart : start < value.length)
    (hn : value.length ≤ start + n) (h : windowsFrom chunker value n start = .ok ws) :
    Covers chunker value start ws := by
  induction n generalizing start ws with
  | zero => omega
  | succ n ih =>
    unfold windowsFrom at h
    rw [if_neg (by omega)] at h
    have hmax : start + 1 ≤ maxEnd chunker value start ∧ maxEnd chunker value start ≤ value.length :=
      lastFit_mem value.length (by omega) le_rfl le_rfl
    obtain ⟨hlow, hhigh⟩ := @preferBoundary_mem value _ _ (Nat.lt_of_succ_le hmax.1)
    generalize preferBoundary value start (maxEnd chunker value start) = stop at h hlow hhigh
    simp only at h
    split_ifs at h with hblank hstop
    · cases h
      exact ⟨rfl, congrArg some (by omega : stop = value.length), by simpa using ⟨hlow, by omega⟩,
        .singleton _⟩
    · obtain ⟨rest, hrest, h⟩ := bind_eq_ok.mp h
      cases h
      obtain ⟨hle, hfew⟩ := @overlapStart_spec chunker value start stop
      obtain ⟨hhead, hlast, hinside, hchain⟩ := ih (by omega) (by omega) hrest
      cases rest with
      | nil => cases hhead
      | cons w rest =>
        have hw : w.1 = max (start + 1) (overlapStart chunker value start stop) := by simpa using hhead
        refine ⟨rfl, by simpa using hlast, ?_, .cons_cons ⟨?_, ?_, ?_⟩ hchain⟩
        · exact List.forall_mem_cons.mpr ⟨⟨hlow, by omega⟩, hinside⟩
        · rw [hw]
          exact lt_max_of_lt_left (Nat.lt_succ_self _)
        · rw [hw]
          exact max_le hlow hle
        · rw [hw]
          rcases le_total (overlapStart chunker value start stop) (start + 1) with hback | hfurther
          · exact .inl (max_eq_left hback)
          · exact .inr ((max_eq_right hfurther).symm ▸ hfew)

theorem draftOf_eq_ok {parsed : ParsedSection} {points : List String} {formulas : List ℕ}
    {piece : List Char × ℕ} {draft : ChunkDraft}
    (h : draftOf chunker parsed points formulas piece = .ok draft) :
    draft.normalizedText = piece.1 ∧ draft.tokenCount = tokenCount chunker piece.1 ∧ 1 ≤ draft.tokenCount ∧
      draft.tokenCount ≤ chunker.maxTokens := by
  obtain ⟨hcount, h⟩ := unit_bind_eq_ok.mp h
  cases h
  obtain ⟨hne, hle⟩ := ensure_eq_ok.mp hcount
  exact ⟨rfl, rfl, List.length_pos_iff.mpr hne, hle⟩

/-- **The chunks of a section cover its text**: they are the windows of a cover, stripped of white space at
their ends unless there is one only, each with at least one token and at most the limit. -/
theorem chunk_covers (chunker : BoundedKnowledgeChunker) (parsed : ParsedSection) (points : List String)
    (formulas : List ℕ) (drafts : List ChunkDraft) (h : chunk chunker parsed points formulas = .ok drafts) :
    let value := chunkText chunker parsed
    ∃ ws, Covers chunker value 0 ws ∧ List.Forall₂ (fun w draft =>
      (draft.normalizedText = slice value w.1 w.2 ∨
        draft.normalizedText = chunker.tokenizer.db.strip (slice value w.1 w.2)) ∧
      draft.tokenCount = (chunker.tokenizer.tokenize draft.normalizedText).length ∧
      1 ≤ draft.tokenCount ∧ draft.tokenCount ≤ chunker.maxTokens) ws drafts := by
  intro value
  obtain ⟨pieces, hpieces, h⟩ := bind_eq_ok.mp h
  have hdrafts := (mapM_eq_ok.mp h).imp fun _ _ => draftOf_eq_ok
  have hpiece : List.Forall₂ (fun piece (draft : ChunkDraft) => draft.normalizedText = piece ∧
      draft.tokenCount = tokenCount chunker piece ∧ 1 ≤ draft.tokenCount ∧
      draft.tokenCount ≤ chunker.maxTokens) (pieces.zipIdx.map Prod.fst) drafts :=
    List.forall₂_map_left_iff.mpr hdrafts
  rw [List.zipIdx_map_fst] at hpiece
  unfold windows at hpieces
  split_ifs at hpieces with hcount
  · cases hpieces
    obtain ⟨draft, rest, ⟨htext, hcounted, hpos, hle⟩, hnil, rfl⟩ := List.forall₂_cons_left_iff.mp hpiece
    cases List.forall₂_nil_left_iff.mp hnil
    have hvalue : 0 < value.length := by
      rw [List.length_pos_iff]
      intro hempty
      rw [show chunkText chunker parsed = [] from hempty, tokenCount_nil] at hcounted
      omega
    refine ⟨[(0, value.length)], ⟨rfl, rfl, by simpa using hvalue, .singleton _⟩, .cons ⟨.inl ?_, ?_⟩ .nil⟩
    · rw [htext]
      simp [slice, value]
    · rw [htext]
      exact ⟨hcounted, hpos, hle⟩
  · obtain ⟨ws, hws, hpieces⟩ := bind_eq_ok.mp hpieces
    cases hpieces
    have hvalue : 0 < value.length := by
      rw [List.length_pos_iff]
      intro hempty
      rw [show chunkText chunker parsed = [] from hempty, tokenCount_nil] at hcount
      exact hcount (Nat.zero_le _)
    refine ⟨ws, windowsFrom_covers _ hvalue (Nat.zero_add _).ge hws, ?_⟩
    refine (List.forall₂_map_left_iff.mp hpiece).imp fun w draft hd => ⟨.inr hd.1, ?_⟩
    rw [hd.1]
    exact hd.2

/-! ### A number at a boundary -/

/-- A chunker without overlap. -/
def sharp : BoundedKnowledgeChunker where
  tokenizer := ⟨Unicode.Standard.asciiOnly, Unicode.Lowering.ascii⟩
  canonicalSha256 _ := ""
  maxTokens := 64
  overlapTokens := 0
  maxTokens_mem := by decide
  overlap_lt := (by decide : 1 ≤ 64)

def sumOfPi : ParsedSection := ⟨"section", ['+'], List.replicate 61 '+' ++ "3.14+".toList⟩

theorem chunk_covers_sumOfPi : ∃ drafts, chunk sharp sumOfPi [] [] = .ok drafts ∧
    ∃ ws, Covers sharp (chunkText sharp sumOfPi) 0 ws := by
  obtain ⟨drafts, hdrafts⟩ := Option.isSome_iff_exists.mp
    (show (chunk sharp sumOfPi [] []).toOption.isSome by decide +kernel)
  have hok := eq_ok_of_toOption hdrafts
  obtain ⟨ws, hcovers, -⟩ := chunk_covers sharp sumOfPi [] [] drafts hok
  exact ⟨drafts, hok, ws, hcovers⟩

/-- The first window ends after the point of `3.14`, and the number is in no chunk. -/
theorem token_lost : ¬ ∀ chunker parsed points formulas drafts,
    chunk chunker parsed points formulas = .ok drafts →
      ∀ token ∈ chunker.tokenizer.tokenize (chunkText chunker parsed), ∃ draft ∈ drafts,
        token ∈ chunker.tokenizer.tokenize draft.normalizedText := by
  intro h
  obtain ⟨drafts, hdrafts, htoken, hlost⟩ : ∃ drafts, (chunk sharp sumOfPi [] []).toOption = some drafts ∧
      "3.14".toList ∈ sharp.tokenizer.tokenize (chunkText sharp sumOfPi) ∧
      ∀ draft ∈ drafts, "3.14".toList ∉ sharp.tokenizer.tokenize draft.normalizedText :=
    ⟨(chunk sharp sumOfPi [] []).toOption.get (by decide +kernel), by decide +kernel, by decide +kernel,
      by decide +kernel⟩
  obtain ⟨draft, hdraft, hmem⟩ := h sharp sumOfPi [] [] drafts (eq_ok_of_toOption hdrafts) _ htoken
  exact hlost draft hdraft hmem

end CyberControl.Chunking
