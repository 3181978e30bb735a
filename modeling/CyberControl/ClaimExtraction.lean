import CyberControl.ClaimWalk
import CyberControl.ComplianceRecords
import CyberControl.RevisionCandidate
import CyberControl.UnicodeAscii
import Mathlib.Logic.Equiv.List

/-! # Claim extraction

`DeterministicClaimExtractor` (`verification/claim_extraction.py`): the strings of a block are divided into
segments, and each verifiable segment becomes a claim. -/

namespace CyberControl.ClaimExtraction

open BlockRevision (CandidateV1 Contracts ValidCandidate)
open Compliance (isWhiteSpace)
open Topic3 (BlockType BlockV1)
open Verification (ClaimKind)

/-! ### Claims -/

/-- The dictionary that `canonical_sha256` digests. -/
structure ClaimDocument where
  candidateId : ℕ
  candidateVersion : ℕ
  blockId : String
  kind : ClaimKind
  subtype : List Char
  statement : List Char
  jsonPointer : List Char
  sourceSpan : ℕ × ℕ

structure ClaimDraft where
  claimId : ℕ
  blockId : String
  blockDependencies : List String
  claimKind : ClaimKind
  claimSubtype : List Char
  statement : List Char
  normalizedStatement : List Char
  jsonPointer : List Char
  ordinal : ℕ
  sourceSpanStart : ℕ
  sourceSpanEnd : ℕ
  claimSha256 : String

structure ClaimV1 where
  claimId : ℕ
  verificationId : ℕ
  candidateId : ℕ
  candidateVersion : ℕ
  candidateSha256 : String
  blockId : String
  claimKind : ClaimKind
  claimSubtype : List Char
  statement : List Char
  normalizedStatement : List Char
  jsonPointer : List Char
  ordinal : ℕ
  sourceSpanStart : ℕ
  sourceSpanEnd : ℕ
  claimSha256 : String
  dependentClaimIds : List ℕ

/-- A text as the contract stores it. -/
def stored (text : List Char) : List Char := (text.dropWhile isWhiteSpace).rdropWhile isWhiteSpace

/-- What `ClaimV1` accepts; the other texts have no white space at their ends. -/
def ValidClaim (claim : ClaimV1) : Prop :=
  1 ≤ claim.candidateVersion ∧ (1 ≤ claim.claimSubtype.length ∧ claim.claimSubtype.length ≤ 128) ∧
    (1 ≤ claim.statement.length ∧ claim.statement.length ≤ 32768) ∧
    (1 ≤ claim.normalizedStatement.length ∧ claim.normalizedStatement.length ≤ 32768) ∧
    (1 ≤ (stored claim.jsonPointer).length ∧ (stored claim.jsonPointer).length ≤ 1024) ∧
    claim.dependentClaimIds.length ≤ 128 ∧ claim.sourceSpanStart < claim.sourceSpanEnd ∧
    claim.claimId ∉ claim.dependentClaimIds ∧ claim.dependentClaimIds.Nodup

instance (claim : ClaimV1) : Decidable (ValidClaim claim) := inferInstanceAs (Decidable (_ ∧ _))

/-! ### The extractor -/

/-- A policy, the Unicode database, what `re.search` finds of `_FORMULA_PATTERN`, `_THEOREM_PATTERN`,
`_STABILITY_PATTERN` and `_NUMERIC_PATTERN`, the digest, the texts of identifiers, `uuid5` and `repr`. -/
structure Extractor where
  policy : ClaimExtractionPolicy
  db : Unicode.Database
  formulaPattern : List Char → Bool
  theoremPattern : List Char → Bool
  stabilityPattern : List Char → Bool
  numericPattern : List Char → Bool
  canonicalSha256 : ClaimDocument → String
  uuidText : ℕ → String
  uuid5 : String → ℕ
  repr : String → String

/-- `re.sub` of the runs of characters with the property by one character; `inRun` after such a character. -/
def collapseRuns (p : Char → Bool) (replacement : Char) : Bool → List Char → List Char
  | _, [] => []
  | inRun, c :: cs =>
    if p c then
      if inRun then collapseRuns p replacement true cs
      else replacement :: collapseRuns p replacement true cs
    else c :: collapseRuns p replacement false cs

/-- The class `[a-z0-9_.-]`. -/
def isHintChar (c : Char) : Bool :=
  ('a' ≤ c && c ≤ 'z') || ('0' ≤ c && c ≤ '9') || c = '_' || c = '.' || c = '-'

/-- `hint or default`. -/
def hintOr (hint : List Char) (default : String) : List Char := if hint = [] then default.toList else hint

section extractor
variable (ex : Extractor)

def Extractor.normalize (value : List Char) : List Char :=
  ex.db.strip (collapseRuns ex.db.isSpace ' ' false (ex.db.nfkc value))

def Extractor.isVerifiable (value : List Char) (blockType : BlockType) : Bool :=
  if value = [] then false
  else if blockType ∈ [.CODE, .MERMAID, .QUIZ] then true
  else value.any fun c => ex.db.isAlnum c || ('\u4e00' ≤ c && c ≤ '\u9fff')

def Extractor.isMetadataLeaf (blockType : BlockType) (keyHint : List Char) : Bool :=
  let normalized := replaceChar '-' ['_'] (keyHint.flatMap ex.db.casefold)
  normalized ∈ ["id".toList, "schema_version".toList, "content_schema_version".toList,
    "mime_type".toList] ||
    (blockType = .CODE && normalized ∈ ["language".toList, "runtime".toList, "filename".toList,
      "entrypoint".toList])

def Extractor.claimKind (blockType : BlockType) (statement : List Char) : ClaimKind :=
  match blockType with
  | .MERMAID => .GRAPH
  | .QUIZ => .QUIZ
  | .CODE => .CODE
  | .EXTENSION => .EXTENSION
  | _ => if ex.formulaPattern statement then .FORMULA else .TEXT

/-- The hint of `_claim_subtype`. -/
def Extractor.subtypeHint (keyHint : List Char) : List Char :=
  (((collapseRuns (fun c => ! isHintChar c) '_' false (keyHint.flatMap ex.db.casefold)).dropWhile
    (· = '_')).rdropWhile (· = '_')).take 64

def Extractor.claimSubtype (kind : ClaimKind) (keyHint statement : List Char) : List Char :=
  let hint := ex.subtypeHint keyHint
  match kind with
  | .FORMULA =>
    if ex.stabilityPattern statement then "stability_conclusion".toList
    else if ex.theoremPattern statement then "theorem_statement".toList
    else if ex.numericPattern statement then "numeric_formula".toList
    else "formula_statement".toList
  | .GRAPH => "mermaid_graph".toList
  | .QUIZ => "quiz_".toList ++ hintOr hint "content"
  | .CODE => "code_".toList ++ hintOr hint "source"
  | .EXTENSION =>
    if ∃ token ∈ ["citation", "doi", "reference", "source"], token.toList <:+: hint then
      "extension_citation".toList
    else "extension_".toList ++ hintOr hint "content"
  | .TEXT =>
    if ex.theoremPattern statement then "theorem_statement".toList
    else if ex.stabilityPattern statement then "stability_conclusion".toList
    else if ex.numericPattern statement then "numeric_statement".toList
    else "text_".toList ++ hintOr hint "statement"

/-! ### Drafts -/

/-- The candidate, the verification and the tenant of an extraction. -/
structure Source where
  candidate : CandidateV1
  verificationId : ℕ
  tenantId : String

structure DeduplicationKey where
  kind : ClaimKind
  normalized : List Char
  jsonPointer : List Char
  start : ℕ
  stop : ℕ
deriving DecidableEq

def Extractor.deduplicationKey (block : BlockV1) (input : LeafText × Segment) : DeduplicationKey :=
  let normalized := ex.normalize input.2.statement
  ⟨ex.claimKind block.blockType normalized, normalized, input.1.jsonPointer, input.2.start, input.2.stop⟩

def Extractor.claimDocument (source : Source) (block : BlockV1) (input : LeafText × Segment) :
    ClaimDocument :=
  let normalized := ex.normalize input.2.statement
  let kind := ex.claimKind block.blockType normalized
  { candidateId := source.candidate.candidateId
    candidateVersion := source.candidate.candidateVersion
    blockId := block.blockId
    kind
    subtype := ex.claimSubtype kind input.1.keyHint normalized
    statement := normalized
    jsonPointer := input.1.jsonPointer
    sourceSpan := (input.2.start, input.2.stop) }

/-- `uuid5` of the name of a claim. -/
def Extractor.claimId (source : Source) (digest : String) : ℕ :=
  ex.uuid5 ("liyans:topic4:claim:" ++ source.tenantId ++ ":" ++ ex.uuidText source.verificationId ++ ":"
    ++ digest)

/-- `f"/blocks/{block.ordinal}/content{leaf.json_pointer}"`. -/
def claimPointer (block : BlockV1) (jsonPointer : List Char) : List Char :=
  "/blocks/".toList ++ Nat.toDigits 10 block.ordinal ++ "/content".toList ++ jsonPointer

def Extractor.draft (source : Source) (block : BlockV1) (ordinal : ℕ) (input : LeafText × Segment) :
    ClaimDraft :=
  let document := ex.claimDocument source block input
  let digest := ex.canonicalSha256 document
  { claimId := ex.claimId source digest
    blockId := block.blockId
    blockDependencies := block.dependencyBlockIds
    claimKind := document.kind
    claimSubtype := document.subtype
    statement := input.2.statement
    normalizedStatement := document.statement
    jsonPointer := claimPointer block input.1.jsonPointer
    ordinal
    sourceSpanStart := input.2.start
    sourceSpanEnd := input.2.stop
    claimSha256 := digest }

/-- What the loops of `_extract_block` keep. -/
structure BlockState where
  drafts : List ClaimDraft
  seen : List DeduplicationKey

/-- The body of the inner loop. -/
def Extractor.addSegment (source : Source) (block : BlockV1) (state : BlockState)
    (input : LeafText × Segment) : BlockState :=
  if ¬ ex.isVerifiable (ex.normalize input.2.statement) block.blockType then state
  else if ex.deduplicationKey block input ∈ state.seen then state
  else {
    drafts := state.drafts ++ [ex.draft source block state.drafts.length input]
    seen := ex.deduplicationKey block input :: state.seen }

/-- The body of the outer loop. -/
def Extractor.addLeaf (source : Source) (block : BlockV1) (state : BlockState) (leaf : LeafText) :
    BlockState :=
  if ex.isMetadataLeaf block.blockType leaf.keyHint then state
  else
    (segments ex.db ex.policy block.blockType leaf.value).foldl
      (fun state segment => ex.addSegment source block state (leaf, segment)) state

def Extractor.extractBlock (source : Source) (block : BlockV1) : Except Exn (List ClaimDraft) :=
  if block.blockType = .METADATA then .ok []
  else do
    let leaves ← walkStrings ex.db ex.policy block.content
    return (leaves.foldl (ex.addLeaf source block) ⟨[], []⟩).drafts

/-! ### `extract` -/

/-- The loop of `extract` over the blocks. -/
def Extractor.collectDrafts (source : Source) (drafts : List ClaimDraft) :
    List BlockV1 → Except Exn (List ClaimDraft)
  | [] => .ok drafts
  | block :: blocks => do
    let blockDrafts ← ex.extractBlock source block
    ensure (blockDrafts.length ≤ ex.policy.maxClaimsPerBlock)
      (claimExtractionError ("block " ++ ex.repr block.blockId ++ " exceeds the per-block claim limit"))
    ensure ((drafts ++ blockDrafts).length ≤ ex.policy.maxClaims)
      (claimExtractionError "candidate exceeds the frozen claim limit")
    Extractor.collectDrafts source (drafts ++ blockDrafts) blocks

/-- `claims_by_block.get(block_id, [])`. -/
def claimsByBlock (drafts : List ClaimDraft) (blockId : String) : List ℕ :=
  (drafts.filter (·.blockId = blockId)).map (·.claimId)

/-- The loop of `_dependency_claim_ids`. -/
def dependenciesFrom (drafts : List ClaimDraft) (dependencies : List ℕ) : List String → List ℕ
  | [] => dependencies
  | blockId :: blockIds =>
    let extended := dependencies ++ claimsByBlock drafts blockId
    if 128 ≤ extended.length then extended else dependenciesFrom drafts extended blockIds

def dependencyClaimIds (drafts : List ClaimDraft) (draft : ClaimDraft) : List ℕ :=
  (dependenciesFrom drafts [] draft.blockDependencies).take 128

/-- The record that `_build_claim` makes, with the texts as they are before the contract strips them. -/
def claimOf (source : Source) (drafts : List ClaimDraft) (draft : ClaimDraft) : ClaimV1 where
  claimId := draft.claimId
  verificationId := source.verificationId
  candidateId := source.candidate.candidateId
  candidateVersion := source.candidate.candidateVersion
  candidateSha256 := source.candidate.candidateSha256
  blockId := draft.blockId
  claimKind := draft.claimKind
  claimSubtype := draft.claimSubtype
  statement := draft.statement
  normalizedStatement := draft.normalizedStatement
  jsonPointer := draft.jsonPointer
  ordinal := draft.ordinal
  sourceSpanStart := draft.sourceSpanStart
  sourceSpanEnd := draft.sourceSpanEnd
  claimSha256 := draft.claimSha256
  dependentClaimIds := dependencyClaimIds drafts draft

def buildClaim (source : Source) (drafts : List ClaimDraft) (draft : ClaimDraft) : Except Exn ClaimV1 := do
  ensure (ValidClaim (claimOf source drafts draft)) (.validationError ["ClaimV1"])
  return claimOf source drafts draft

def Extractor.extract (source : Source) : Except Exn (List ClaimV1) := do
  let drafts ← ex.collectDrafts source []
    (source.candidate.blocks.insertionSort fun a b => a.ordinal ≤ b.ordinal)
  ensure (drafts ≠ []) (claimExtractionError "candidate contains no verifiable claims")
  drafts.mapM (buildClaim source drafts)

end extractor

/-! ### What the claims of a leaf are -/

def claimsOfLeaf (claims : List ClaimV1) (block : BlockV1) (leaf : LeafText) : List ClaimV1 :=
  claims.filter fun claim =>
    claim.blockId = block.blockId ∧ claim.jsonPointer = claimPointer block leaf.jsonPointer

def ClaimV1.segment (claim : ClaimV1) : Segment := ⟨claim.sourceSpanStart, claim.sourceSpanEnd, claim.statement⟩

/-- The segments of a leaf are slices of it from left to right, each character that is not white space is in
exactly one of them, and its claims are its verifiable segments: all of them in code and in diagrams. -/
structure LeafCovered (ex : Extractor) (claims : List ClaimV1) (block : BlockV1) (leaf : LeafText) :
    Prop where
  ordered : (segments ex.db ex.policy block.blockType leaf.value).Pairwise fun a b => a.stop ≤ b.start
  slices : ∀ segment ∈ segments ex.db ex.policy block.blockType leaf.value,
    segment.start < segment.stop ∧ segment.stop ≤ leaf.value.length ∧
      segment.statement = slice leaf.value segment.start segment.stop
  once : ∀ i c, leaf.value[i]? = some c → ex.db.isSpace c = false →
    ∃! segment, segment ∈ segments ex.db ex.policy block.blockType leaf.value ∧
      segment.start ≤ i ∧ i < segment.stop
  verified : (claimsOfLeaf claims block leaf).map ClaimV1.segment
    = (segments ex.db ex.policy block.blockType leaf.value).filter fun segment =>
        ex.isVerifiable (ex.normalize segment.statement) block.blockType
  code : block.blockType ∈ [.CODE, .MERMAID] → ∀ i c, leaf.value[i]? = some c → ex.db.isSpace c = false →
    ∃ claim ∈ claimsOfLeaf claims block leaf, claim.sourceSpanStart ≤ i ∧ i < claim.sourceSpanEnd

/-! ### Normalized texts -/

section normalized
variable {ex : Extractor}

theorem mem_collapseRuns {p : Char → Bool} {c : Char} {cs : List Char} (hc : c ∈ cs)
    (hp : p c = false) (replacement : Char) (inRun : Bool) : c ∈ collapseRuns p replacement inRun cs := by
  induction cs generalizing inRun with
  | nil => cases hc
  | cons d ds ih =>
    unfold collapseRuns
    cases List.mem_cons.mp hc with
    | inl hd =>
      rw [← hd, hp]
      exact List.mem_cons_self
    | inr hds =>
      split_ifs
      · exact ih hds true
      · exact List.mem_cons_of_mem _ (ih hds true)
      · exact List.mem_cons_of_mem _ (ih hds false)

theorem normalize_ne_nil {text : List Char} (h : ¬ ex.db.Blank text) : ex.normalize text ≠ [] := by
  unfold Extractor.normalize
  intro hnil
  refine ex.db.nfkc_nonspace h fun c hc => ?_
  by_contra hspace
  have hmem := mem_collapseRuns hc (Bool.eq_false_iff.mpr hspace) ' ' false
  exact hspace (ex.db.strip_eq_nil.mp hnil c hmem)

theorem isVerifiable_code {blockType : BlockType} (hcode : blockType ∈ [.CODE, .MERMAID]) {value : List Char}
    {segment : Segment} (h : segment ∈ segments ex.db ex.policy blockType value) :
    ex.isVerifiable (ex.normalize segment.statement) blockType := by
  unfold Extractor.isVerifiable
  rw [if_neg (normalize_ne_nil (segments_visible h)), if_pos]
  simp only [List.mem_cons, List.not_mem_nil, or_false] at hcode ⊢
  tauto

end normalized

/-! ### The loops of a block -/

section block
variable {ex : Extractor} {source : Source} {block : BlockV1}

/-- What the loops of a block go through. -/
def Extractor.inputs (ex : Extractor) (block : BlockV1) (leaves : List LeafText) :
    List (LeafText × Segment) :=
  (leaves.filter fun leaf => ¬ ex.isMetadataLeaf block.blockType leaf.keyHint).flatMap fun leaf =>
    (segments ex.db ex.policy block.blockType leaf.value).map (leaf, ·)

/-- The input becomes a claim. -/
def Extractor.Verifiable (ex : Extractor) (block : BlockV1) (input : LeafText × Segment) : Prop :=
  ex.isVerifiable (ex.normalize input.2.statement) block.blockType

instance (block : BlockV1) (input : LeafText × Segment) : Decidable (ex.Verifiable block input) :=
  inferInstanceAs (Decidable (_ = true))

theorem foldl_addLeaf (leaves : List LeafText) (state : BlockState) :
    leaves.foldl (ex.addLeaf source block) state
      = (ex.inputs block leaves).foldl (ex.addSegment source block) state := by
  induction leaves generalizing state with
  | nil => rfl
  | cons leaf leaves ih =>
    rw [List.foldl_cons, ih]
    unfold Extractor.addLeaf Extractor.inputs
    by_cases hmetadata : ex.isMetadataLeaf block.blockType leaf.keyHint
    · simp [hmetadata]
    · simp [hmetadata, List.foldl_map]

theorem foldl_addSegment {inputs : List (LeafText × Segment)} {state : BlockState}
    (hkeys : (inputs.map (ex.deduplicationKey block)).Nodup)
    (hfresh : ∀ input ∈ inputs, ex.deduplicationKey block input ∉ state.seen) :
    (inputs.foldl (ex.addSegment source block) state).drafts = state.drafts ++
      (inputs.filter fun input => ex.Verifiable block input).mapIdx fun i input =>
        ex.draft source block (state.drafts.length + i) input := by
  induction inputs generalizing state with
  | nil => simp
  | cons input inputs ih =>
    rw [List.map_cons, List.nodup_cons] at hkeys
    rw [List.forall_mem_cons] at hfresh
    rw [List.foldl_cons]
    by_cases hverifiable : ex.Verifiable block input
    · have hadd : ex.addSegment source block state input = {
          drafts := state.drafts ++ [ex.draft source block state.drafts.length input]
          seen := ex.deduplicationKey block input :: state.seen } := by
        have htrue : ex.isVerifiable (ex.normalize input.2.statement) block.blockType = true := hverifiable
        unfold Extractor.addSegment
        rw [if_neg (not_not.mpr htrue), if_neg hfresh.1]
      rw [hadd, ih hkeys.2, List.filter_cons_of_pos (by simpa using hverifiable), List.mapIdx_cons,
        List.append_assoc]
      · simp [Nat.add_assoc, Nat.add_comm 1]
      · intro other hother hseen
        cases List.mem_cons.mp hseen with
        | inl heq => exact hkeys.1 (heq ▸ List.mem_map_of_mem hother)
        | inr hold => exact hfresh.2 other hother hold
    · have hskip : ex.addSegment source block state input = state := by
        unfold Extractor.addSegment
        exact if_pos hverifiable
      rw [hskip, ih hkeys.2 hfresh.2, List.filter_cons_of_neg (by simpa using hverifiable)]

/-- Where an input is found in its block. -/
def place (input : LeafText × Segment) : List Char × ℕ × ℕ :=
  (input.1.jsonPointer, input.2.start, input.2.stop)

theorem segments_nodup (db : Unicode.Database) (policy : ClaimExtractionPolicy) (blockType : BlockType)
    (value : List Char) :
    ((segments db policy blockType value).map fun segment => (segment.start, segment.stop)).Nodup := by
  unfold segments
  rw [List.map_map]
  exact (List.map_id _).symm ▸ (segmentSpans_cover db policy blockType value).nodup

theorem inputs_nodup {leaves : List LeafText}
    (hleaves : leaves.Pairwise fun a b => a.jsonPointer ≠ b.jsonPointer) :
    ((ex.inputs block leaves).map place).Nodup := by
  rw [List.nodup_iff_pairwise_ne, List.pairwise_map]
  unfold Extractor.inputs
  rw [List.pairwise_flatMap]
  constructor
  · intro leaf _
    have hspans := segments_nodup ex.db ex.policy block.blockType leaf.value
    rw [List.nodup_iff_pairwise_ne, List.pairwise_map] at hspans
    rw [List.pairwise_map]
    exact hspans.imp fun {a b} hne heq => hne (Prod.mk.inj heq).2
  · refine (hleaves.sublist List.filter_sublist).imp fun {a b} hne x hx y hy heq => hne ?_
    obtain ⟨segment, -, rfl⟩ := List.mem_map.mp hx
    obtain ⟨segment', -, rfl⟩ := List.mem_map.mp hy
    exact (Prod.mk.inj heq).1

/-- **The drafts of a block** are its verifiable inputs, in their order. -/
theorem extractBlock_drafts (hunique : UniqueKeys block.content) {drafts : List ClaimDraft}
    (h : ex.extractBlock source block = .ok drafts) (hblock : block.blockType ≠ .METADATA) :
    ∃ leaves, walkStrings ex.db ex.policy block.content = .ok leaves ∧
      (leaves.Pairwise fun a b => a.jsonPointer ≠ b.jsonPointer) ∧
      drafts = ((ex.inputs block leaves).filter fun input => ex.Verifiable block input).mapIdx
        (ex.draft source block) := by
  unfold Extractor.extractBlock at h
  rw [if_neg hblock] at h
  obtain ⟨leaves, hleaves, h⟩ := bind_eq_ok.mp h
  cases h
  have hapart := walkStrings_apart hleaves hunique
  refine ⟨leaves, hleaves, hapart, ?_⟩
  have hkeys : ((ex.inputs block leaves).map (ex.deduplicationKey block)).Nodup := by
    have hplaces : ((ex.inputs block leaves).map place).Nodup := inputs_nodup hapart
    have hfactor : (ex.inputs block leaves).map place
        = ((ex.inputs block leaves).map (ex.deduplicationKey block)).map fun key =>
            (key.jsonPointer, key.start, key.stop) := by
      rw [List.map_map]
      rfl
    rw [hfactor] at hplaces
    exact hplaces.of_map _
  rw [foldl_addLeaf, foldl_addSegment hkeys (by simp)]
  simp

end block

/-! ### The claims of a leaf -/

variable {leaf : LeafText}

section leaf
variable {ex : Extractor} {source : Source} {block : BlockV1}

theorem filter_mapIdx {α β γ : Type} {f : ℕ → α → β} {p : β → Bool} {q : α → Bool} {g : β → γ} {h : α → γ}
    (hp : ∀ i a, p (f i a) = q a) (hg : ∀ i a, g (f i a) = h a) (l : List α) :
    ((l.mapIdx f).filter p).map g = (l.filter q).map h := by
  induction l generalizing f with
  | nil => rfl
  | cons a l ih =>
    rw [List.mapIdx_cons, List.filter_cons, List.filter_cons, hp]
    have htail := @ih (fun i => f (i + 1)) (fun i a => hp (i + 1) a) (fun i a => hg (i + 1) a)
    split_ifs
    · rw [List.map_cons, List.map_cons, hg, htail]
    · exact htail

theorem filter_flatMap_key {α β κ : Type} {l : List α} {g : α → List β} (key : α → κ)
    (p : κ → β → Bool) (hl : l.Pairwise fun a b => key a ≠ key b) {a : α} (ha : a ∈ l)
    (hp : ∀ b ∈ l, ∀ x ∈ g b, p (key a) x → key b = key a) :
    (l.flatMap g).filter (p (key a)) = (g a).filter (p (key a)) := by
  obtain ⟨before, after, rfl⟩ := List.append_of_mem ha
  rw [List.pairwise_append, List.pairwise_cons] at hl
  have hnone : ∀ b ∈ before ++ after, (g b).filter (p (key a)) = [] := by
    intro b hb
    have hne : key b ≠ key a := by
      cases List.mem_append.mp hb with
      | inl hbefore => exact hl.2.2 b hbefore a List.mem_cons_self
      | inr hafter => exact (hl.2.1.1 b hafter).symm
    rw [List.filter_eq_nil_iff]
    intro x hx hpx
    refine hne (hp b ?_ x hx hpx)
    rw [List.mem_append, List.mem_cons]
    rw [List.mem_append] at hb
    tauto
  rw [List.flatMap_append, List.flatMap_cons, List.filter_append, List.filter_append, List.filter_flatMap,
    List.filter_flatMap]
  have hbefore : (before.flatMap fun b => (g b).filter (p (key a))) = [] := by
    rw [List.flatMap_eq_nil_iff]
    exact fun b hb => hnone b (List.mem_append_left _ hb)
  have hafter : (after.flatMap fun b => (g b).filter (p (key a))) = [] := by
    rw [List.flatMap_eq_nil_iff]
    exact fun b hb => hnone b (List.mem_append_right _ hb)
  rw [hbefore, hafter, List.nil_append, List.append_nil]

theorem inputs_of_leaf (hunique : UniqueKeys block.content) {leaves : List LeafText}
    (hleaves : walkStrings ex.db ex.policy block.content = .ok leaves)
    (hleaf : StringLeaf [] "content".toList block.content leaf)
    (hmetadata : ¬ ex.isMetadataLeaf block.blockType leaf.keyHint) :
    (ex.inputs block leaves).filter (fun input => input.1.jsonPointer = leaf.jsonPointer)
      = (segments ex.db ex.policy block.blockType leaf.value).map (leaf, ·) := by
  have hapart := (walkStrings_apart hleaves hunique).sublist
    (List.filter_sublist (p := fun leaf => ¬ ex.isMetadataLeaf block.blockType leaf.keyHint))
  by_cases hblank : ex.db.Blank leaf.value
  · rw [segments_blank hblank, List.map_nil, List.filter_eq_nil_iff]
    intro input hinput hpointer
    unfold Extractor.inputs at hinput
    obtain ⟨other, hother, hmem⟩ := List.mem_flatMap.mp hinput
    obtain ⟨segment, -, rfl⟩ := List.mem_map.mp hmem
    obtain ⟨hyields, hvisible⟩ := (mem_walkStrings hleaves).mp (List.mem_of_mem_filter hother)
    have hsame := stringLeaf_unique hunique hleaf hyields (of_decide_eq_true hpointer).symm
    exact hvisible (hsame ▸ hblank)
  · have hmem : leaf ∈ leaves.filter fun leaf => ¬ ex.isMetadataLeaf block.blockType leaf.keyHint := by
      rw [List.mem_filter, mem_walkStrings hleaves]
      exact ⟨⟨hleaf, hblank⟩, by simpa using hmetadata⟩
    unfold Extractor.inputs
    refine (filter_flatMap_key LeafText.jsonPointer (fun pointer (input : LeafText × Segment) =>
      decide (input.1.jsonPointer = pointer)) hapart hmem ?_).trans ?_
    · intro other _ input hinput hpointer
      obtain ⟨segment, -, rfl⟩ := List.mem_map.mp hinput
      exact of_decide_eq_true hpointer
    · rw [List.filter_eq_self]
      intro input hinput
      obtain ⟨segment, -, rfl⟩ := List.mem_map.mp hinput
      exact decide_eq_true rfl

theorem claimPointer_inj {pointer pointer' : List Char} :
    claimPointer block pointer = claimPointer block pointer' ↔ pointer = pointer' := by
  unfold claimPointer
  exact List.append_right_inj _

def ClaimDraft.segment (draft : ClaimDraft) : Segment :=
  ⟨draft.sourceSpanStart, draft.sourceSpanEnd, draft.statement⟩

theorem drafts_of_leaf (hunique : UniqueKeys block.content) {drafts : List ClaimDraft}
    (h : ex.extractBlock source block = .ok drafts) (hblock : block.blockType ≠ .METADATA)
    (hleaf : StringLeaf [] "content".toList block.content leaf)
    (hmetadata : ¬ ex.isMetadataLeaf block.blockType leaf.keyHint) :
    (drafts.filter fun draft => draft.jsonPointer = claimPointer block leaf.jsonPointer).map
        ClaimDraft.segment
      = (segments ex.db ex.policy block.blockType leaf.value).filter fun segment =>
          ex.isVerifiable (ex.normalize segment.statement) block.blockType := by
  obtain ⟨leaves, hleaves, -, rfl⟩ := extractBlock_drafts hunique h hblock
  have hpointer : ∀ (i : ℕ) (input : LeafText × Segment),
      decide ((ex.draft source block i input).jsonPointer = claimPointer block leaf.jsonPointer)
        = decide (input.1.jsonPointer = leaf.jsonPointer) := by
    intro i input
    exact decide_eq_decide.mpr claimPointer_inj
  rw [filter_mapIdx (g := ClaimDraft.segment) (h := Prod.snd) hpointer fun _ _ => rfl, List.filter_filter]
  have hcomm : (ex.inputs block leaves).filter (fun input =>
      decide (input.1.jsonPointer = leaf.jsonPointer) && decide (ex.Verifiable block input))
        = ((ex.inputs block leaves).filter fun input => input.1.jsonPointer = leaf.jsonPointer).filter
            fun input => ex.Verifiable block input := by
    rw [List.filter_filter]
    exact List.filter_congr fun input _ => Bool.and_comm _ _
  rw [hcomm, inputs_of_leaf hunique hleaves hleaf hmetadata, List.filter_map, List.map_map]
  refine (List.map_id _).trans (List.filter_congr fun segment _ => ?_)
  exact Bool.decide_eq_true

end leaf

/-! ### The candidate -/

section candidate
variable {ex : Extractor} {source : Source} {claims : List ClaimV1}

/-- The drafts of a block of which the extraction succeeds. -/
def Extractor.blockDrafts (ex : Extractor) (source : Source) (block : BlockV1) : List ClaimDraft :=
  (ex.extractBlock source block).toOption.getD []

theorem collectDrafts_ok {drafts result : List ClaimDraft} {blocks : List BlockV1}
    (h : ex.collectDrafts source drafts blocks = .ok result) :
    (∀ block ∈ blocks, ex.extractBlock source block = .ok (ex.blockDrafts source block)) ∧
      result = drafts ++ blocks.flatMap (ex.blockDrafts source) := by
  induction blocks generalizing drafts with
  | nil =>
    cases h
    simp
  | cons block blocks ih =>
    obtain ⟨blockDrafts, hblock, h⟩ := bind_eq_ok.mp h
    simp only [unit_bind_eq_ok] at h
    obtain ⟨hblocks, rfl⟩ := ih h.2.2
    have hsame : ex.blockDrafts source block = blockDrafts := by
      unfold Extractor.blockDrafts
      rw [hblock]
      rfl
    refine ⟨List.forall_mem_cons.mpr ⟨hsame ▸ hblock, hblocks⟩, ?_⟩
    rw [List.flatMap_cons, hsame, List.append_assoc]

theorem mapM_buildClaim {all drafts : List ClaimDraft} (h : drafts.mapM (buildClaim source all) = .ok claims) :
    claims = drafts.map (claimOf source all) := by
  have hforall := mapM_eq_ok.mp h
  clear h
  induction hforall with
  | nil => rfl
  | cons hclaim _ ih =>
    obtain ⟨-, hclaim⟩ := unit_bind_eq_ok.mp hclaim
    cases hclaim
    rw [List.map_cons, ← ih]

def Extractor.drafts (ex : Extractor) (source : Source) : List ClaimDraft :=
  (source.candidate.blocks.insertionSort fun a b => a.ordinal ≤ b.ordinal).flatMap (ex.blockDrafts source)

theorem extract_ok (h : ex.extract source = .ok claims) :
    (∀ block ∈ source.candidate.blocks,
      ex.extractBlock source block = .ok (ex.blockDrafts source block)) ∧
      claims = (ex.drafts source).map (claimOf source (ex.drafts source)) := by
  obtain ⟨drafts, hdrafts, h⟩ := bind_eq_ok.mp h
  obtain ⟨-, h⟩ := unit_bind_eq_ok.mp h
  obtain ⟨hblocks, hall⟩ := collectDrafts_ok hdrafts
  have hsame : drafts = ex.drafts source := hall
  rw [hsame] at h
  refine ⟨fun block hblock => hblocks block ((List.mem_insertionSort _).mpr hblock), ?_⟩
  exact mapM_buildClaim h

/-- The claims are bound as the release gate takes them to be. -/
theorem extract_bound (h : ex.extract source = .ok claims) {claim : ClaimV1} (hclaim : claim ∈ claims) :
    claim.verificationId = source.verificationId ∧ claim.candidateId = source.candidate.candidateId ∧
      claim.candidateVersion = source.candidate.candidateVersion ∧
      claim.candidateSha256 = source.candidate.candidateSha256 := by
  rw [(extract_ok h).2] at hclaim
  obtain ⟨_, -, rfl⟩ := List.mem_map.mp hclaim
  exact ⟨rfl, rfl, rfl, rfl⟩

variable {block : BlockV1}

theorem exists_of_mem_blockDrafts (hunique : UniqueKeys block.content)
    (hok : ex.extractBlock source block = .ok (ex.blockDrafts source block)) {draft : ClaimDraft}
    (h : draft ∈ ex.blockDrafts source block) : ∃ i input, draft = ex.draft source block i input := by
  by_cases hblock : block.blockType = .METADATA
  · unfold Extractor.extractBlock at hok
    rw [if_pos hblock] at hok
    rw [← Except.ok.inj hok] at h
    cases h
  · obtain ⟨leaves, -, -, hdrafts⟩ := extractBlock_drafts hunique hok hblock
    rw [hdrafts] at h
    obtain ⟨i, hi, rfl⟩ := List.mem_mapIdx.mp h
    exact ⟨i, _, rfl⟩

/-! ### Identifiers -/

theorem claimId_injective (huuid5 : Function.Injective ex.uuid5) {digest digest' : String}
    (h : ex.claimId source digest = ex.claimId source digest') : digest = digest' := by
  have hname := congrArg String.toList (huuid5 h)
  simp only [String.toList_append, List.append_right_inj] at hname
  exact String.toList_inj.mp hname

theorem claimDocument_eq (hsha256 : Function.Injective ex.canonicalSha256)
    (huuid5 : Function.Injective ex.uuid5) {block block' : BlockV1} {i i' : ℕ}
    {input input' : LeafText × Segment}
    (h : (ex.draft source block i input).claimId = (ex.draft source block' i' input').claimId) :
    ex.claimDocument source block input = ex.claimDocument source block' input' :=
  hsha256 (claimId_injective huuid5 h)

theorem blockDrafts_ids_nodup (hsha256 : Function.Injective ex.canonicalSha256)
    (huuid5 : Function.Injective ex.uuid5) (hunique : UniqueKeys block.content)
    (hok : ex.extractBlock source block = .ok (ex.blockDrafts source block)) :
    (ex.blockDrafts source block).Pairwise fun a b => a.claimId ≠ b.claimId := by
  by_cases hblock : block.blockType = .METADATA
  · unfold Extractor.extractBlock at hok
    rw [if_pos hblock] at hok
    rw [← Except.ok.inj hok]
    exact List.Pairwise.nil
  · obtain ⟨leaves, -, hapart, hdrafts⟩ := extractBlock_drafts hunique hok hblock
    rw [hdrafts]
    have hnodup : ((ex.inputs block leaves).map place).Nodup := inputs_nodup hapart
    have hplaces := hnodup.sublist
      ((List.filter_sublist (p := fun input => ex.Verifiable block input)).map place)
    rw [List.nodup_iff_pairwise_ne, List.pairwise_map, List.pairwise_iff_getElem] at hplaces
    rw [List.pairwise_iff_getElem]
    intro i j hi hj hlt heq
    rw [List.length_mapIdx] at hi hj
    rw [List.getElem_mapIdx, List.getElem_mapIdx] at heq
    have hdocument := claimDocument_eq hsha256 huuid5 heq
    refine hplaces i j hi hj hlt ?_
    have hpointer := congrArg ClaimDocument.jsonPointer hdocument
    have hspan := congrArg ClaimDocument.sourceSpan hdocument
    exact Prod.ext hpointer hspan

/-! ### Dependencies -/

theorem take_dependenciesFrom (drafts : List ClaimDraft) (dependencies : List ℕ) (blockIds : List String) :
    (dependenciesFrom drafts dependencies blockIds).take 128 =
      (dependencies ++ blockIds.flatMap (claimsByBlock drafts)).take 128 := by
  induction blockIds generalizing dependencies with
  | nil => simp [dependenciesFrom]
  | cons blockId blockIds ih =>
    rw [List.flatMap_cons, ← List.append_assoc]
    unfold dependenciesFrom
    dsimp only
    split_ifs with hfull
    · exact (List.take_append_of_le_length hfull).symm
    · exact ih _

theorem mem_dependencyClaimIds {drafts : List ClaimDraft} {draft : ClaimDraft} {id : ℕ}
    (h : id ∈ dependencyClaimIds drafts draft) :
    ∃ other ∈ drafts, other.claimId = id ∧ other.blockId ∈ draft.blockDependencies := by
  unfold dependencyClaimIds at h
  rw [take_dependenciesFrom] at h
  obtain ⟨blockId, hblockId, hid⟩ := List.mem_flatMap.mp (List.mem_of_mem_take h)
  obtain ⟨other, hother, rfl⟩ := List.mem_map.mp hid
  obtain ⟨hmem, hblock⟩ := List.mem_filter.mp hother
  exact ⟨other, hmem, rfl, of_decide_eq_true hblock ▸ hblockId⟩

theorem claimsByBlock_eq {drafts : List ClaimDraft} (blockId : String) :
    claimsByBlock drafts blockId = (((drafts.map (claimOf source drafts)).filter
      (·.blockId = blockId)).map ClaimV1.claimId) := by
  rw [List.filter_map, List.map_map]
  rfl

/-! ### Coverage -/

variable {contracts : Contracts}

theorem blockIds_apart (hvalid : ValidCandidate contracts source.candidate) :
    (source.candidate.blocks.insertionSort fun a b => a.ordinal ≤ b.ordinal).Pairwise
      fun a b => a.blockId ≠ b.blockId := by
  have hnodup : ((source.candidate.blocks.insertionSort fun a b => a.ordinal ≤ b.ordinal).map
      (·.blockId)).Nodup :=
    ((List.perm_insertionSort _ source.candidate.blocks).map _).nodup_iff.mpr hvalid.blockIds_nodup
  rw [List.nodup_iff_pairwise_ne, List.pairwise_map] at hnodup
  exact hnodup

theorem claimsOfLeaf_eq (hvalid : ValidCandidate contracts source.candidate)
    (hunique : ∀ block ∈ source.candidate.blocks, UniqueKeys block.content)
    (h : ex.extract source = .ok claims) (hblock : block ∈ source.candidate.blocks)
    (leaf : LeafText) : (claimsOfLeaf claims block leaf).map ClaimV1.segment
      = ((ex.blockDrafts source block).filter fun draft =>
          draft.jsonPointer = claimPointer block leaf.jsonPointer).map ClaimDraft.segment := by
  obtain ⟨hblocks, rfl⟩ := extract_ok h
  have hdrafts : (ex.drafts source).filter (fun draft =>
      decide (draft.blockId = block.blockId ∧ draft.jsonPointer = claimPointer block leaf.jsonPointer))
        = (ex.blockDrafts source block).filter fun draft =>
            decide (draft.blockId = block.blockId ∧
              draft.jsonPointer = claimPointer block leaf.jsonPointer) := by
    refine filter_flatMap_key (fun block : BlockV1 => block.blockId) (fun blockId (draft : ClaimDraft) =>
      decide (draft.blockId = blockId ∧ draft.jsonPointer = claimPointer block leaf.jsonPointer))
      (blockIds_apart hvalid) ((List.mem_insertionSort _).mpr hblock) ?_
    intro other hother draft hdraft hkey
    have hmem := (List.mem_insertionSort _).mp hother
    obtain ⟨i, input, rfl⟩ := exists_of_mem_blockDrafts (hunique other hmem) (hblocks other hmem) hdraft
    exact (of_decide_eq_true hkey).1
  unfold claimsOfLeaf
  rw [List.filter_map, List.map_map]
  refine (congrArg (List.map _) hdrafts).trans (congrArg (List.map _) (List.filter_congr ?_))
  intro draft hdraft
  obtain ⟨i, input, rfl⟩ := exists_of_mem_blockDrafts (hunique block hblock) (hblocks block hblock) hdraft
  exact decide_eq_decide.mpr (and_iff_right rfl)

/-- A character of a leaf that is not white space is in one of its segments, and in no other one. -/
theorem segments_once (db : Unicode.Database) (policy : ClaimExtractionPolicy) (blockType : BlockType)
    {value : List Char} {i : ℕ} {c : Char} (hc : value[i]? = some c) (hvisible : db.isSpace c = false) :
    ∃! segment, segment ∈ segments db policy blockType value ∧ segment.start ≤ i ∧ i < segment.stop := by
  have hcover := segmentSpans_cover db policy blockType value
  have hi : i < value.length := (List.getElem?_eq_some_iff.mp hc).1
  obtain ⟨span, hspan, hinside⟩ := hcover.covered i c (Nat.zero_le i) hi hc hvisible
  refine ⟨⟨span.1, span.2, slice value span.1 span.2⟩, ⟨List.mem_map_of_mem hspan, hinside⟩, ?_⟩
  rintro segment ⟨hsegment, hinside'⟩
  obtain ⟨other, hother, rfl⟩ := List.mem_map.mp hsegment
  rw [hcover.unique hother hspan hinside' hinside]

theorem leaf_covered (hvalid : ValidCandidate contracts source.candidate)
    (hunique : ∀ block ∈ source.candidate.blocks, UniqueKeys block.content)
    (h : ex.extract source = .ok claims) (hblock : block ∈ source.candidate.blocks)
    (htype : block.blockType ≠ .METADATA)
    (hleaf : StringLeaf [] "content".toList block.content leaf)
    (hmetadata : ¬ ex.isMetadataLeaf block.blockType leaf.keyHint) :
    LeafCovered ex claims block leaf := by
  have hcover := segmentSpans_cover ex.db ex.policy block.blockType leaf.value
  have hverified : (claimsOfLeaf claims block leaf).map ClaimV1.segment
      = (segments ex.db ex.policy block.blockType leaf.value).filter fun segment =>
          ex.isVerifiable (ex.normalize segment.statement) block.blockType := by
    rw [claimsOfLeaf_eq hvalid hunique h hblock leaf]
    exact drafts_of_leaf (hunique block hblock) ((extract_ok h).1 block hblock) htype hleaf hmetadata
  refine ⟨?_, ?_, fun i c => segments_once ex.db ex.policy block.blockType, hverified, ?_⟩
  · exact List.pairwise_map.mpr hcover.ordered
  · intro segment hsegment
    obtain ⟨span, hspan, rfl⟩ := List.mem_map.mp hsegment
    obtain ⟨-, hlt, hle⟩ := hcover.inside span hspan
    exact ⟨hlt, hle, rfl⟩
  · intro hcode i c hc hvisible
    obtain ⟨segment, ⟨hsegment, hinside⟩, -⟩ :=
      segments_once ex.db ex.policy block.blockType hc hvisible
    have hmem : segment ∈ (claimsOfLeaf claims block leaf).map ClaimV1.segment := by
      rw [hverified, List.mem_filter]
      exact ⟨hsegment, isVerifiable_code hcode hsegment⟩
    obtain ⟨claim, hclaim, rfl⟩ := List.mem_map.mp hmem
    exact ⟨claim, hclaim, hinside⟩

/-- **Claim extraction covers the candidate.** Every string leaf that is no metadata is covered by its
segments and claims, the identifiers of the claims are distinct, and a claim depends on the first 128 claims
of the blocks that its block depends on. -/
theorem extract_covers (ex : Extractor) (hsha256 : Function.Injective ex.canonicalSha256)
    (huuid5 : Function.Injective ex.uuid5) {contracts : Contracts} {source : Source}
    (hvalid : ValidCandidate contracts source.candidate)
    (hunique : ∀ block ∈ source.candidate.blocks, UniqueKeys block.content) {claims : List ClaimV1}
    (h : ex.extract source = .ok claims) :
    (∀ block ∈ source.candidate.blocks, block.blockType ≠ .METADATA → ∀ leaf,
      StringLeaf [] "content".toList block.content leaf →
        ¬ ex.isMetadataLeaf block.blockType leaf.keyHint → LeafCovered ex claims block leaf) ∧
    (claims.map ClaimV1.claimId).Nodup ∧
    ∀ claim ∈ claims, ∃ block ∈ source.candidate.blocks, claim.blockId = block.blockId ∧
      claim.dependentClaimIds = (block.dependencyBlockIds.flatMap fun blockId =>
        (claims.filter (·.blockId = blockId)).map ClaimV1.claimId).take 128 ∧
      ∀ id ∈ claim.dependentClaimIds,
        ∃ other ∈ claims, other.claimId = id ∧ other.blockId ∈ block.dependencyBlockIds := by
  refine ⟨fun block hblock htype leaf hleaf hmetadata =>
    leaf_covered hvalid hunique h hblock htype hleaf hmetadata, ?_, ?_⟩
  · obtain ⟨hblocks, rfl⟩ := extract_ok h
    rw [List.map_map, List.nodup_iff_pairwise_ne, List.pairwise_map]
    unfold Extractor.drafts
    rw [List.pairwise_flatMap]
    constructor
    · intro block hblock
      have hmem := (List.mem_insertionSort _).mp hblock
      exact blockDrafts_ids_nodup hsha256 huuid5 (hunique block hmem) (hblocks block hmem)
    · refine List.Pairwise.imp_of_mem (fun {a b} ha hb hne x hx y hy heq => hne ?_)
        (blockIds_apart hvalid)
      have hmema := (List.mem_insertionSort _).mp ha
      have hmemb := (List.mem_insertionSort _).mp hb
      obtain ⟨i, input, rfl⟩ := exists_of_mem_blockDrafts (hunique a hmema) (hblocks a hmema) hx
      obtain ⟨j, input', rfl⟩ := exists_of_mem_blockDrafts (hunique b hmemb) (hblocks b hmemb) hy
      have hid : (ex.draft source a i input).claimId = (ex.draft source b j input').claimId := heq
      exact congrArg ClaimDocument.blockId (claimDocument_eq hsha256 huuid5 hid)
  · obtain ⟨hblocks, rfl⟩ := extract_ok h
    intro claim hclaim
    obtain ⟨draft, hdraft, rfl⟩ := List.mem_map.mp hclaim
    obtain ⟨block, hblock, hmem⟩ := List.mem_flatMap.mp hdraft
    have hblock := (List.mem_insertionSort _).mp hblock
    obtain ⟨i, input, rfl⟩ := exists_of_mem_blockDrafts (hunique block hblock) (hblocks block hblock) hmem
    refine ⟨block, hblock, rfl, ?_, fun id hid => ?_⟩
    · simp only [← claimsByBlock_eq]
      exact take_dependenciesFrom _ [] _
    obtain ⟨other, hother, hid, hdepends⟩ := mem_dependencyClaimIds hid
    exact ⟨_, List.mem_map_of_mem hother, hid, hdepends⟩

end candidate

/-! ### A lecture with a program -/

def kindNumber : ClaimKind → ℕ
  | .TEXT => 0
  | .FORMULA => 1
  | .GRAPH => 2
  | .QUIZ => 3
  | .CODE => 4
  | .EXTENSION => 5

def codes (text : List Char) : List ℕ := text.map Char.toNat

/-- A digest without collisions. -/
def sampleDigest (document : ClaimDocument) : String :=
  String.ofList (List.replicate (Encodable.encode
    ((document.candidateId, document.candidateVersion, codes document.blockId.toList,
      kindNumber document.kind), (codes document.subtype, codes document.statement,
        codes document.jsonPointer, document.sourceSpan))) 'x')

def sampleExtractor : Extractor where
  policy := {}
  db := Unicode.Standard.asciiOnly
  formulaPattern _ := false
  theoremPattern _ := false
  stabilityPattern _ := false
  numericPattern _ := false
  canonicalSha256 := sampleDigest
  uuidText id := String.ofList (Nat.toDigits 10 id)
  uuid5 name := Encodable.encode (codes name.toList)
  repr text := "'" ++ text ++ "'"

theorem codes_injective : Function.Injective codes := by
  refine List.map_injective_iff.mpr fun c d h => ?_
  exact Char.toNat_inj.mp h

theorem kindNumber_injective : Function.Injective kindNumber := by
  intro kind kind' h
  cases kind <;> cases kind' <;> first | rfl | cases h

theorem sampleDigest_injective : Function.Injective sampleDigest := by
  intro document document' h
  have hlength := congrArg (fun s : String => s.toList.length) h
  simp only [sampleDigest, String.toList_ofList, List.length_replicate] at hlength
  have hkey := Encodable.encode_injective hlength
  simp only [Prod.mk.injEq] at hkey
  obtain ⟨⟨hid, hversion, hblock, hkind⟩, hsubtype, hstatement, hpointer, hspan⟩ := hkey
  cases document
  cases document'
  simp only [ClaimDocument.mk.injEq]
  exact ⟨hid, hversion, String.toList_inj.mp (codes_injective hblock), kindNumber_injective hkind,
    codes_injective hsubtype, codes_injective hstatement, codes_injective hpointer, hspan⟩

theorem sampleUuid5_injective : Function.Injective sampleExtractor.uuid5 := fun _ _ h =>
  String.toList_inj.mp (codes_injective (Encodable.encode_injective h))

/-- A text of two sentences, and a program. -/
def programLecture : CandidateV1 :=
  BlockRevision.lecture [
    { BlockRevision.lectureBlock "text" 0 .COMPLETE with
      content := .object [("id", .string "t1"), ("body", .string "A loop is closed.  It is stable.")] },
    { BlockRevision.lectureBlock "program" 1 .COMPLETE with
      blockType := .CODE
      content := .object [("source", .array [.string "u = -k * x", .string "+"])] }]

def programSource : Source := ⟨programLecture, 1, "tenant"⟩

/-- The claims of the lecture: two sentences, and each text of the program. -/
theorem programLecture_content : ∀ block ∈ programLecture.blocks,
    UniqueKeys block.content ∧ ∃ members, block.content = .object members := by
  simp only [programLecture, BlockRevision.lecture, List.forall_mem_cons]
  refine ⟨⟨.object (by decide) ?_, _, rfl⟩, ⟨.object (by decide) ?_, _, rfl⟩, by simp⟩
  · simp only [List.forall_mem_cons]
    exact ⟨.string, .string, by simp⟩
  · simp only [List.forall_mem_cons]
    refine ⟨.array ?_, by simp⟩
    simp only [List.forall_mem_cons]
    exact ⟨.string, .string, by simp⟩

theorem extract_covers_program : ∃ claims,
    sampleExtractor.extract programSource = .ok claims ∧
      claims.map (fun claim => (claim.blockId, String.ofList claim.statement, claim.sourceSpanStart,
        claim.sourceSpanEnd)) = [("text", "A loop is closed.", 0, 17), ("text", "It is stable.", 19, 32),
          ("program", "u = -k * x", 0, 10), ("program", "+", 0, 1)] ∧
      (claims.map ClaimV1.claimId).Nodup := by
  have hrun : ((sampleExtractor.extract programSource).toOption.map fun claims =>
      claims.map fun claim => (claim.blockId, String.ofList claim.statement, claim.sourceSpanStart,
        claim.sourceSpanEnd)) = some [("text", "A loop is closed.", 0, 17),
          ("text", "It is stable.", 19, 32), ("program", "u = -k * x", 0, 10), ("program", "+", 0, 1)] := by
    decide +kernel
  obtain ⟨claims, hclaims, hfacts⟩ := Option.map_eq_some_iff.mp hrun
  have hclaims := eq_ok_of_toOption hclaims
  exact ⟨claims, hclaims, hfacts, (extract_covers sampleExtractor sampleDigest_injective
    sampleUuid5_injective ((BlockRevision.validateCandidate_ok BlockRevision.sampleContracts).mp rfl)
    (fun block hblock => (programLecture_content block hblock).1) hclaims).2.1⟩

end CyberControl.ClaimExtraction
