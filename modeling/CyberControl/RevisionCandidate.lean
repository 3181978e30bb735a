import CyberControl.CandidateContract
import CyberControl.RevisionBudget
import Mathlib.Data.List.ReduceOption

/-! # The revised candidate

How `RevisionEngine` (`revision/engine.py`) builds the next version of a candidate: it checks the patches
against the request and the blocks, reads the replacements, and copies block by block. -/

namespace CyberControl.BlockRevision

open Topic3 Verification Revision

/-! ### Candidates -/

inductive SourceAgent where
  | LECTURER
  | MIND_MAP
  | TESTER
  | CODE_SANDBOX
  | EXTENSION

def SourceAgent.value : SourceAgent → String
  | .LECTURER => "Lecturer"
  | .MIND_MAP => "MindMap"
  | .TESTER => "Tester"
  | .CODE_SANDBOX => "CodeSandbox"
  | .EXTENSION => "Extension"

inductive ResourceType where
  | LECTURER_DOC
  | MIND_MAP
  | GRADIENT_QUIZ
  | SIMULATION_CODE
  | EXTENSION_MATERIAL
deriving DecidableEq, Repr

def ResourceType.value : ResourceType → String
  | .LECTURER_DOC => "Lecturer_Doc"
  | .MIND_MAP => "MindMap"
  | .GRADIENT_QUIZ => "Gradient_Quiz"
  | .SIMULATION_CODE => "Simulation_Code"
  | .EXTENSION_MATERIAL => "Extension_Material"

def agentResourceMatrix : SourceAgent → List ResourceType
  | .LECTURER => [.LECTURER_DOC]
  | .MIND_MAP => [.MIND_MAP]
  | .TESTER => [.GRADIENT_QUIZ]
  | .CODE_SANDBOX => [.SIMULATION_CODE]
  | .EXTENSION => [.EXTENSION_MATERIAL]

structure CandidateProvenanceV1 where
  agent : SourceAgent
  agentBuildVersion : String
  promptBundleVersion : String
  providerAlias : String
  providerRequestIds : List String

structure CandidateV1 where
  candidateId : ℕ
  candidateVersion : ℕ
  parentCandidateVersion : Option ℕ
  blueprintId : ℕ
  blueprintVersion : String
  blueprintSha256 : String
  resourceType : ResourceType
  status : CandidateStatus
  blocks : List BlockV1
  provenance : CandidateProvenanceV1
  personalizationPolicyDigest : String
  candidateSha256 : String
  createdAt : ℕ

def CandidateV1.blockIds (candidate : CandidateV1) : List String := candidate.blocks.map (·.blockId)

/-- What the rest of the control plane keeps of a candidate. -/
def CandidateV1.summary (candidate : CandidateV1) : Candidate where
  candidateId := candidate.candidateId
  candidateVersion := candidate.candidateVersion
  candidateSha256 := candidate.candidateSha256
  resourceType := candidate.resourceType.value
  agent := candidate.provenance.agent.value
  status := candidate.status

/-- The digests of the contents and of the candidates without theirs, and the contents that the model of a
schema returns as they are (`none` for what it rejects). -/
structure Contracts where
  contentSha256 : Json → String
  documentSha256 : CandidateV1 → String
  contentModel : String → Json → Option Bool

section contracts
variable (contracts : Contracts)

/-- What `BlockV1` accepts. -/
def ValidBlock (block : BlockV1) : Prop :=
  (1 ≤ block.blockId.length ∧ block.blockId.length ≤ 128) ∧
    (∀ title ∈ block.title, title.length ≤ 256) ∧ block.dependencyBlockIds.length ≤ 128 ∧
    contracts.contentSha256 block.content = block.contentSha256 ∧
    block.blockId ∉ block.dependencyBlockIds ∧ block.dependencyBlockIds.Nodup

instance (block : BlockV1) : Decidable (ValidBlock contracts block) := inferInstanceAs (Decidable (_ ∧ _))

/-- The fields of `CandidateV1` that its contract bounds. -/
def ValidFields (candidate : CandidateV1) : Prop :=
  1 ≤ candidate.candidateVersion ∧ (∀ parent ∈ candidate.parentCandidateVersion, 1 ≤ parent) ∧
    (1 ≤ candidate.blocks.length ∧ candidate.blocks.length ≤ 2048) ∧
    ∀ block ∈ candidate.blocks, ValidBlock contracts block

instance (candidate : CandidateV1) : Decidable (ValidFields contracts candidate) :=
  inferInstanceAs (Decidable (_ ∧ _))

/-- The digest of a candidate, which leaves its own digest out. -/
def candidateDigest (candidate : CandidateV1) : String :=
  contracts.documentSha256 { candidate with candidateSha256 := "" }

/-- `model_validate` of `CandidateV1`: its fields, then `validate_candidate`. -/
def validateCandidate (candidate : CandidateV1) : Except Exn Unit := do
  ensure (ValidFields contracts candidate) (.validationError ["fields"])
  ensure (candidate.candidateVersion = 1 → candidate.parentCandidateVersion = none)
    (.validationError ["candidate version one cannot have a parent version"])
  ensure (1 < candidate.candidateVersion →
      candidate.parentCandidateVersion = some (candidate.candidateVersion - 1))
    (.validationError ["parent_candidate_version must be the previous version"])
  ensure candidate.blockIds.Nodup (.validationError ["candidate contains duplicate block_id values"])
  ensure ((candidate.blocks.map (·.ordinal)).insertionSort (· ≤ ·) = List.range candidate.blocks.length)
    (.validationError ["block ordinals must be contiguous and zero-based"])
  ensure (∀ block ∈ candidate.blocks, block.dependencyBlockIds ⊆ candidate.blockIds)
    (.validationError ["block dependency references an unknown block"])
  ensure (candidate.resourceType ∈ agentResourceMatrix candidate.provenance.agent)
    (.validationError ["resource_type is not owned by the provenance agent"])
  ensure (candidateDigest contracts candidate = candidate.candidateSha256)
    (.validationError ["candidate_sha256 does not match the canonical candidate"])

/-- What `CandidateV1` accepts. -/
structure ValidCandidate (candidate : CandidateV1) : Prop where
  fields : ValidFields contracts candidate
  first : candidate.candidateVersion = 1 → candidate.parentCandidateVersion = none
  parent : 1 < candidate.candidateVersion →
    candidate.parentCandidateVersion = some (candidate.candidateVersion - 1)
  blockIds_nodup : candidate.blockIds.Nodup
  ordinals : (candidate.blocks.map (·.ordinal)).insertionSort (· ≤ ·) = List.range candidate.blocks.length
  dependencies : ∀ block ∈ candidate.blocks, block.dependencyBlockIds ⊆ candidate.blockIds
  resource : candidate.resourceType ∈ agentResourceMatrix candidate.provenance.agent
  digest : candidateDigest contracts candidate = candidate.candidateSha256

theorem validateCandidate_ok {candidate : CandidateV1} :
    validateCandidate contracts candidate = .ok () ↔ ValidCandidate contracts candidate := by
  unfold validateCandidate
  simp only [unit_bind_eq_ok, ensure_eq_ok]
  constructor
  · rintro ⟨hfields, hfirst, hparent, hnodup, hordinals, hdependencies, hresource, hdigest⟩
    exact ⟨hfields, hfirst, hparent, hnodup, hordinals, hdependencies, hresource, hdigest⟩
  · intro h
    exact ⟨h.fields, h.first, h.parent, h.blockIds_nodup, h.ordinals, h.dependencies, h.resource, h.digest⟩

/-! ### Patches -/

/-- `RevisionOperation`, with the artifact and the digest that a replacement has to carry. -/
inductive RevisionOperation where
  | REPLACE_BLOCK (replacementArtifact replacementSha256 : String)
  | REMOVE_BLOCK
deriving DecidableEq

structure RevisionPatchV1 where
  tenantId : String
  traceId : String
  revisionPlanId : ℕ
  blockId : String
  operation : RevisionOperation
  baseBlockSha256 : String
  targetContentSchemaVersion : String
  reasonClaimIds : List ℕ
deriving DecidableEq

/-- `RevisionRequestV1`, restricted to what the checks on the patches read. -/
structure PatchRequest where
  tenantId : String
  traceId : String
  blockIds : List String
  claimIds : List ℕ

/-- The checks of `_validate_patch_set` on one patch. -/
def validatePatch (request : PatchRequest) (planId : ℕ) (patch : RevisionPatchV1) : Except Exn Unit := do
  ensure (patch.tenantId = request.tenantId ∧ patch.traceId = request.traceId)
    (revisionError "patch tenant or trace binding does not match the request")
  ensure (patch.revisionPlanId = planId) (revisionError "all patches must belong to one immutable plan")
  ensure (patch.reasonClaimIds ⊆ request.claimIds)
    (revisionError "patch references a claim outside the revision request")

def validatePatchSet (request : PatchRequest) (patches : List RevisionPatchV1) : Except Exn Unit :=
  match patches with
  | [] => .error (revisionError "a revision requires at least one patch")
  | first :: _ => do
    let patchBlocks := patches.map (·.blockId)
    ensure patchBlocks.Nodup (revisionError "a block may appear in only one revision patch")
    ensure (patchBlocks ⊆ request.blockIds ∧ request.blockIds ⊆ patchBlocks)
      (revisionError "patch block ids must exactly match the revision request")
    patches.forM (validatePatch request first.revisionPlanId)

/-- `BLOCK_SCHEMA_TYPES`; the schemas are those of `CONTENT_MODELS`. -/
def blockSchemaTypes : List (String × BlockType) :=
  [("topic3.lecturer-content.v1", .MARKDOWN), ("topic3.mindmap-content.v1", .MERMAID),
    ("topic3.tester-content.v1", .QUIZ), ("topic3.code-sandbox-content.v1", .CODE),
    ("topic3.extension-content.v1", .EXTENSION)]

def validateReplacementBlock (base replacement : BlockV1) (patch : RevisionPatchV1)
    (replacementSha256 : String) : Except Exn Unit := do
  ensure (replacement.blockId = base.blockId ∧ replacement.blockType = base.blockType)
    (revisionError "replacement cannot change block identity or type")
  ensure (replacement.contentSchemaVersion = patch.targetContentSchemaVersion)
    (revisionError "replacement content schema does not match the patch")
  ensure (replacement.contentSchemaVersion = base.contentSchemaVersion)
    (revisionError "replacement cannot change the frozen Topic3 content schema")
  ensure (blockSchemaTypes.lookup replacement.contentSchemaVersion = some replacement.blockType)
    (revisionError "replacement block type does not own its content schema")
  let content := contracts.contentModel replacement.contentSchemaVersion replacement.content
  ensure content.isSome (revisionError "replacement content violates the frozen Topic3 schema")
  ensure (content = some true)
    (revisionError "replacement content was normalized instead of validated exactly")
  ensure (replacementSha256 = replacement.contentSha256)
    (revisionError "replacement content sha256 does not match the patch")
  ensure (replacement.dependencyBlockIds = base.dependencyBlockIds)
    (revisionError "revision cannot change block dependency topology")

-- the block in an artifact of the store, or what reading it raises
variable (readBlock : String → Except Exn BlockV1)

/-- What `_load_replacement_blocks` does with one patch. -/
def loadReplacementBlock (candidate : CandidateV1) (patch : RevisionPatchV1) :
    Except Exn (Option (String × BlockV1)) :=
  match candidate.blocks.find? (·.blockId = patch.blockId) with
  | none => .error (revisionError ("unknown Candidate block: " ++ patch.blockId))
  | some base => do
    ensure (base.contentSha256 = patch.baseBlockSha256)
      (revisionError ("stale block sha256 for " ++ patch.blockId))
    match patch.operation with
    | .REMOVE_BLOCK => do
      ensure (base.status ∈ [.FAILED, .SUPERSEDED])
        (revisionError "only terminal failed or superseded blocks may be removed")
      ensure (∀ other ∈ candidate.blocks, patch.blockId ∉ other.dependencyBlockIds)
        (revisionError "removed block would leave a dangling dependency")
      return none
    | .REPLACE_BLOCK artifact replacementSha256 => do
      let replacement ← readBlock artifact
      ensure (ValidBlock contracts replacement)
        (revisionError "replacement artifact is not a valid Topic3 Block")
      validateReplacementBlock contracts base replacement patch replacementSha256
      return some (patch.blockId, replacement)

def loadReplacementBlocks (candidate : CandidateV1) (patches : List RevisionPatchV1) :
    Except Exn (List (String × BlockV1)) := do
  let replacements ← patches.mapM (loadReplacementBlock contracts readBlock candidate)
  return replacements.reduceOption

/-! ### The next version -/

/-- `patch_by_block`; of two patches of a block the later one counts. -/
def patchByBlock (patches : List RevisionPatchV1) (blockId : String) : Option RevisionPatchV1 :=
  patches.reverse.find? (·.blockId = blockId)

/-- A patch removes the block. -/
def Removes (patches : List RevisionPatchV1) (block : BlockV1) : Prop :=
  ∃ patch ∈ patchByBlock patches block.blockId, patch.operation = .REMOVE_BLOCK

instance (patches : List RevisionPatchV1) (block : BlockV1) : Decidable (Removes patches block) :=
  inferInstanceAs (Decidable (∃ _ ∈ _, _))

/-- `next_block.model_copy(update={...})`. -/
def revisedBlock (replacements : List (String × BlockV1)) (now ordinal : ℕ) (block : BlockV1) : BlockV1 :=
  { (replacements.lookup block.blockId).getD block with
    ordinal
    title := block.title
    dependencyBlockIds := block.dependencyBlockIds
    status := .COMPLETE
    createdAt := now }

/-- The loop of `_build_candidate`. -/
def revisedBlocks (patches : List RevisionPatchV1) (replacements : List (String × BlockV1)) (now : ℕ)
    (blocks : List BlockV1) : List BlockV1 :=
  blocks.foldl (fun revised block =>
    if Removes patches block then revised
    else revised ++ [revisedBlock replacements now revised.length block]) []

/-- The draft of `_build_candidate`. -/
def draftCandidate (candidate : CandidateV1) (blocks : List BlockV1) (now : ℕ) : CandidateV1 :=
  { candidate with
    candidateVersion := candidate.candidateVersion + 1
    parentCandidateVersion := some candidate.candidateVersion
    status := .COMPLETE
    blocks
    createdAt := now
    candidateSha256 := "0000000000000000000000000000000000000000000000000000000000000000" }

def buildCandidate (candidate : CandidateV1) (patches : List RevisionPatchV1)
    (replacements : List (String × BlockV1)) (now : ℕ) : Except Exn CandidateV1 := do
  let blocks := revisedBlocks patches replacements now candidate.blocks
  ensure (blocks ≠ []) (revisionError "a revised Candidate must retain at least one block")
  let draft := draftCandidate candidate blocks now
  let revised := { draft with candidateSha256 := candidateDigest contracts draft }
  validateCandidate contracts revised
  return revised

/-- What `revise` makes of a candidate and the patches to it. -/
def reviseCandidate (request : PatchRequest) (candidate : CandidateV1) (patches : List RevisionPatchV1)
    (now : ℕ) : Except Exn CandidateV1 := do
  validatePatchSet request patches
  let replacements ← loadReplacementBlocks contracts readBlock candidate patches
  buildCandidate contracts candidate patches replacements now

end contracts

/-! ### The loop -/

variable {block : BlockV1}

section loop
variable {patches : List RevisionPatchV1} {replacements : List (String × BlockV1)} {now : ℕ}

/-- The blocks that no patch removes. -/
def remaining (patches : List RevisionPatchV1) (blocks : List BlockV1) : List BlockV1 :=
  blocks.filter fun block => ¬ Removes patches block

theorem revisedBlocks_eq (blocks : List BlockV1) :
    revisedBlocks patches replacements now blocks
      = (remaining patches blocks).mapIdx (revisedBlock replacements now) := by
  induction blocks using List.reverseRecOn with
  | nil => rfl
  | append_singleton blocks block ih =>
    have hloop : revisedBlocks patches replacements now (blocks ++ [block])
        = if Removes patches block then revisedBlocks patches replacements now blocks
          else revisedBlocks patches replacements now blocks
            ++ [revisedBlock replacements now (revisedBlocks patches replacements now blocks).length
              block] := by
      unfold revisedBlocks
      rw [List.foldl_append]
      rfl
    rw [hloop, ih]
    unfold remaining
    rw [List.filter_append]
    by_cases hremoves : Removes patches block
    · simp [hremoves]
    · simp [hremoves]

theorem mem_revisedBlocks {blocks : List BlockV1} {block' : BlockV1} :
    block' ∈ revisedBlocks patches replacements now blocks ↔
      ∃ i block, (remaining patches blocks)[i]? = some block ∧
        block' = revisedBlock replacements now i block := by
  rw [revisedBlocks_eq, List.mem_mapIdx]
  constructor
  · rintro ⟨i, h, rfl⟩
    exact ⟨i, _, List.getElem?_eq_getElem h, rfl⟩
  · rintro ⟨i, block, hblock, rfl⟩
    obtain ⟨h, rfl⟩ := List.getElem?_eq_some_iff.mp hblock
    exact ⟨i, h, rfl⟩

theorem revisedBlocks_length (blocks : List BlockV1) :
    (revisedBlocks patches replacements now blocks).length = (remaining patches blocks).length := by
  rw [revisedBlocks_eq, List.length_mapIdx]

theorem revisedBlocks_ordinals (blocks : List BlockV1) :
    (revisedBlocks patches replacements now blocks).map (·.ordinal)
      = List.range (remaining patches blocks).length := by
  refine List.ext_getElem ?_ fun i _ _ => ?_
  · rw [List.length_map, revisedBlocks_length, List.length_range]
  · simp [revisedBlocks_eq, revisedBlock]

theorem exists_of_patchByBlock {blockId : String} {patch : RevisionPatchV1}
    (h : patchByBlock patches blockId = some patch) : patch ∈ patches ∧ patch.blockId = blockId := by
  refine ⟨List.mem_reverse.mp (List.mem_of_find?_eq_some h), ?_⟩
  simpa using List.find?_some h

theorem mem_remaining {blocks : List BlockV1} :
    block ∈ remaining patches blocks ↔ block ∈ blocks ∧ ¬ Removes patches block := by
  unfold remaining
  rw [List.mem_filter, decide_eq_true_iff]

theorem remaining_sublist (blocks : List BlockV1) : (remaining patches blocks).Sublist blocks :=
  List.filter_sublist

end loop

/-! ### The patches that pass the checks -/

section accepted
variable {contracts : Contracts} {readBlock : String → Except Exn BlockV1} {candidate : CandidateV1}
  {patches : List RevisionPatchV1} {replacements : List (String × BlockV1)} {now : ℕ}

/-- What the checks on the patches leave: replacements of the blocks they name, and removals that no block
depends on. -/
structure Loaded (contracts : Contracts) (candidate : CandidateV1) (patches : List RevisionPatchV1)
    (replacements : List (String × BlockV1)) : Prop where
  replaced : ∀ id replacement, replacements.lookup id = some replacement →
    id ∈ patches.map (·.blockId) ∧ replacement.blockId = id ∧ ValidBlock contracts replacement
  removed : ∀ block, Removes patches block →
    ∀ other ∈ candidate.blocks, block.blockId ∉ other.dependencyBlockIds

theorem loadReplacementBlock_ok {patch : RevisionPatchV1} {loaded : Option (String × BlockV1)}
    (h : loadReplacementBlock contracts readBlock candidate patch = .ok loaded) :
    (∀ id replacement, loaded = some (id, replacement) →
      id = patch.blockId ∧ replacement.blockId = id ∧ ValidBlock contracts replacement) ∧
    (patch.operation = .REMOVE_BLOCK →
      ∀ other ∈ candidate.blocks, patch.blockId ∉ other.dependencyBlockIds) := by
  unfold loadReplacementBlock at h
  cases hbase : candidate.blocks.find? (·.blockId = patch.blockId) with
  | none =>
    simp only [hbase] at h
    cases h
  | some base =>
    simp only [hbase] at h
    obtain ⟨-, h⟩ := unit_bind_eq_ok.mp h
    cases hoperation : patch.operation with
    | REMOVE_BLOCK =>
      simp only [hoperation] at h
      rw [unit_bind_eq_ok, unit_bind_eq_ok, ensure_eq_ok, ensure_eq_ok] at h
      obtain ⟨-, hdependencies, h⟩ := h
      cases h
      exact ⟨fun _ _ h => absurd h (by simp), fun _ => hdependencies⟩
    | REPLACE_BLOCK artifact replacementSha256 =>
      simp only [hoperation] at h
      obtain ⟨replacement, -, h⟩ := bind_eq_ok.mp h
      rw [unit_bind_eq_ok, unit_bind_eq_ok, ensure_eq_ok] at h
      obtain ⟨hvalid, hreplacement, h⟩ := h
      cases h
      obtain ⟨hsame, -⟩ := unit_bind_eq_ok.mp hreplacement
      obtain ⟨hid, -⟩ := ensure_eq_ok.mp hsame
      have hbaseId : base.blockId = patch.blockId := by simpa using List.find?_some hbase
      refine ⟨fun id other h => ?_, fun h => absurd h (by simp)⟩
      cases h
      exact ⟨rfl, hid.trans hbaseId, hvalid⟩

theorem loaded_of_load (h : loadReplacementBlocks contracts readBlock candidate patches = .ok replacements) :
    Loaded contracts candidate patches replacements := by
  obtain ⟨loaded, hloaded, h⟩ := bind_eq_ok.mp h
  cases h
  have hall := mapM_eq_ok.mp hloaded
  constructor
  · intro id replacement hlookup
    obtain ⟨_, _, heq, -⟩ := List.lookup_eq_some_iff.mp hlookup
    have hmem : some (id, replacement) ∈ loaded := by
      rw [← List.reduceOption_mem_iff, heq]
      simp
    obtain ⟨patch, hpatch, hload⟩ := exists_of_mem_right hall hmem
    obtain ⟨hid, hblockId, hvalid⟩ := (loadReplacementBlock_ok hload).1 id replacement rfl
    exact ⟨hid ▸ List.mem_map_of_mem hpatch, hblockId, hvalid⟩
  · rintro block ⟨patch, hfind, hoperation⟩
    obtain ⟨hpatch, hid⟩ := exists_of_patchByBlock hfind
    obtain ⟨_, _, hload⟩ := exists_of_mem_left hall hpatch
    rw [← hid]
    exact (loadReplacementBlock_ok hload).2 hoperation

/-- The candidate that the loop builds. -/
def revisedCandidate (contracts : Contracts) (candidate : CandidateV1) (patches : List RevisionPatchV1)
    (replacements : List (String × BlockV1)) (now : ℕ) : CandidateV1 :=
  let draft := draftCandidate candidate (revisedBlocks patches replacements now candidate.blocks) now
  { draft with candidateSha256 := candidateDigest contracts draft }

section
variable (h : Loaded contracts candidate patches replacements)
include h

theorem Loaded.blockId_eq (i : ℕ) (block : BlockV1) :
    (revisedBlock replacements now i block).blockId = block.blockId := by
  unfold revisedBlock
  cases hlookup : replacements.lookup block.blockId with
  | none => rfl
  | some replacement => exact (h.replaced _ _ hlookup).2.1

theorem Loaded.blockIds_eq (blocks : List BlockV1) :
    (revisedBlocks patches replacements now blocks).map (·.blockId)
      = (remaining patches blocks).map (·.blockId) := by
  refine List.ext_getElem ?_ fun i _ _ => ?_
  · rw [List.length_map, List.length_map, revisedBlocks_length]
  · simp [revisedBlocks_eq, h.blockId_eq]

theorem Loaded.validBlock (i : ℕ)
    (hblock : ValidBlock contracts block) :
    ValidBlock contracts (revisedBlock replacements now i block) := by
  obtain ⟨hlength, htitle, hcount, hcontent, hself, hnodup⟩ := hblock
  unfold ValidBlock
  rw [h.blockId_eq]
  refine ⟨hlength, htitle, hcount, ?_, hself, hnodup⟩
  unfold revisedBlock
  cases hlookup : replacements.lookup block.blockId with
  | none => exact hcontent
  | some replacement =>
    obtain ⟨-, -, -, -, -, hreplaced, -⟩ := h.replaced _ _ hlookup
    exact hreplaced

theorem Loaded.dependencies
    (hvalid : ValidCandidate contracts candidate) (hblock : block ∈ candidate.blocks) :
    block.dependencyBlockIds ⊆ (remaining patches candidate.blocks).map (·.blockId) := by
  intro id hid
  obtain ⟨other, hother, rfl⟩ := List.mem_map.mp (hvalid.dependencies block hblock hid)
  refine List.mem_map_of_mem (mem_remaining.mpr ⟨hother, fun hremoves => ?_⟩)
  exact h.removed other hremoves block hblock hid

variable (hvalid : ValidCandidate contracts candidate) (hremaining : remaining patches candidate.blocks ≠ [])
include hvalid hremaining

/-- **The contract accepts it.** -/
theorem Loaded.validCandidate :
    ValidCandidate contracts (revisedCandidate contracts candidate patches replacements now) := by
  obtain ⟨hversion, -, ⟨-, hcount⟩, hblocks⟩ := hvalid.fields
  have hids : (revisedCandidate contracts candidate patches replacements now).blockIds
      = (remaining patches candidate.blocks).map (·.blockId) := h.blockIds_eq _
  have hlength : (revisedCandidate contracts candidate patches replacements now).blocks.length
      = (remaining patches candidate.blocks).length := revisedBlocks_length _
  have hordinals : (revisedCandidate contracts candidate patches replacements now).blocks.map (·.ordinal)
      = List.range (remaining patches candidate.blocks).length := revisedBlocks_ordinals _
  refine ⟨⟨?_, ?_, ⟨?_, ?_⟩, ?_⟩, ?_, fun _ => rfl, ?_, ?_, ?_, hvalid.resource, rfl⟩
  · exact Nat.le_add_left 1 _
  · intro parent hparent
    rw [← Option.some.inj hparent]
    exact hversion
  · rw [hlength]
    exact List.length_pos_of_ne_nil hremaining
  · rw [hlength]
    exact le_trans (remaining_sublist _).length_le hcount
  · intro block' hblock'
    obtain ⟨i, block, hblock, rfl⟩ := mem_revisedBlocks.mp hblock'
    exact h.validBlock i (hblocks block ((remaining_sublist _).subset (List.mem_of_getElem? hblock)))
  · intro hone
    have hzero : candidate.candidateVersion = 0 := Nat.succ.inj hone
    omega
  · rw [hids]
    exact hvalid.blockIds_nodup.sublist ((remaining_sublist _).map _)
  · rw [hordinals, hlength]
    exact (List.pairwise_lt_range.imp Nat.le_of_lt).insertionSort_eq
  · intro block' hblock'
    rw [hids]
    obtain ⟨i, block, hblock, rfl⟩ := mem_revisedBlocks.mp hblock'
    have hmem := (remaining_sublist _).subset (List.mem_of_getElem? hblock)
    show block.dependencyBlockIds ⊆ _
    exact h.dependencies hvalid hmem

theorem buildCandidate_ok :
    buildCandidate contracts candidate patches replacements now
      = .ok (revisedCandidate contracts candidate patches replacements now) := by
  have hblocks : revisedBlocks patches replacements now candidate.blocks ≠ [] := by
    rw [← List.length_pos_iff, revisedBlocks_length]
    exact List.length_pos_of_ne_nil hremaining
  unfold buildCandidate
  rw [unit_bind_eq_ok, ensure_eq_ok, unit_bind_eq_ok, validateCandidate_ok]
  exact ⟨hblocks, h.validCandidate hvalid hremaining, rfl⟩

end

theorem reviseCandidate_ok {request : PatchRequest} {revised : CandidateV1}
    (hpatches : validatePatchSet request patches = .ok ())
    (hload : loadReplacementBlocks contracts readBlock candidate patches = .ok replacements)
    (hbuild : buildCandidate contracts candidate patches replacements now = .ok revised) :
    reviseCandidate contracts readBlock request candidate patches now = .ok revised := by
  unfold reviseCandidate
  rw [unit_bind_eq_ok, bind_eq_ok]
  exact ⟨hpatches, replacements, hload, hbuild⟩

/-! ### What else changes -/

/-- The block is kept as it was generated. -/
structure Kept (block block' : BlockV1) : Prop where
  blockId : block'.blockId = block.blockId
  content : block'.content = block.content
  contentSha256 : block'.contentSha256 = block.contentSha256
  title : block'.title = block.title
  dependencies : block'.dependencyBlockIds = block.dependencyBlockIds
  status : block'.status = block.status

/-- The revised candidate is the next version, and it differs in what the patches name only. -/
structure OnlyPatched (contracts : Contracts) (candidate : CandidateV1) (patches : List RevisionPatchV1)
    (revised : CandidateV1) : Prop where
  accepted : validateCandidate contracts revised = .ok ()
  version : revised.candidateVersion = candidate.candidateVersion + 1
  parent : revised.parentCandidateVersion = some candidate.candidateVersion
  once : ∀ block ∈ candidate.blocks, ¬ Removes patches block → revised.blockIds.count block.blockId = 1
  kept : ∀ block ∈ candidate.blocks, block.blockId ∉ patches.map (·.blockId) →
    ∃ block' ∈ revised.blocks, Kept block block'
  order : ∀ first ∈ candidate.blocks, ∀ second ∈ candidate.blocks,
    ∀ first' ∈ revised.blocks, ∀ second' ∈ revised.blocks,
      first'.blockId = first.blockId → second'.blockId = second.blockId →
      (first'.ordinal < second'.ordinal ↔ first.ordinal < second.ordinal)
  dependencies : ∀ block ∈ revised.blocks, block.dependencyBlockIds ⊆ revised.blockIds

/-- The blocks that no patch names are complete. -/
def UnpatchedComplete (candidate : CandidateV1) (patches : List RevisionPatchV1) : Prop :=
  ∀ block ∈ candidate.blocks, block.blockId ∉ patches.map (·.blockId) → block.status = .COMPLETE

/-- The blocks that stay are listed in the order of their ordinals. -/
def ListedInOrder (candidate : CandidateV1) (patches : List RevisionPatchV1) : Prop :=
  (remaining patches candidate.blocks).Pairwise fun first second => first.ordinal < second.ordinal

theorem not_removes_of_unpatched (h : block.blockId ∉ patches.map (·.blockId)) :
    ¬ Removes patches block := by
  rintro ⟨patch, hfind, -⟩
  obtain ⟨hpatch, hid⟩ := exists_of_patchByBlock hfind
  exact h (hid ▸ List.mem_map_of_mem hpatch)

theorem Loaded.kept (h : Loaded contracts candidate patches replacements)
    (hunpatched : block.blockId ∉ patches.map (·.blockId)) (hcomplete : block.status = .COMPLETE) (i : ℕ) :
    Kept block (revisedBlock replacements now i block) := by
  have hnone : replacements.lookup block.blockId = none := by
    by_contra hsome
    obtain ⟨replacement, hlookup⟩ := Option.ne_none_iff_exists'.mp hsome
    exact hunpatched (h.replaced _ _ hlookup).1
  unfold revisedBlock
  rw [hnone]
  exact ⟨rfl, rfl, rfl, rfl, rfl, hcomplete.symm⟩

theorem ValidCandidate.eq_of_blockId_eq (h : ValidCandidate contracts candidate) {block other : BlockV1}
    (hblock : block ∈ candidate.blocks) (hother : other ∈ candidate.blocks)
    (hid : block.blockId = other.blockId) : block = other :=
  List.inj_on_of_nodup_map h.blockIds_nodup hblock hother hid

theorem Loaded.order_iff (h : Loaded contracts candidate patches replacements)
    (hvalid : ValidCandidate contracts candidate) :
    (∀ first ∈ candidate.blocks, ∀ second ∈ candidate.blocks,
      ∀ first' ∈ revisedBlocks patches replacements now candidate.blocks,
      ∀ second' ∈ revisedBlocks patches replacements now candidate.blocks,
        first'.blockId = first.blockId → second'.blockId = second.blockId →
        (first'.ordinal < second'.ordinal ↔ first.ordinal < second.ordinal)) ↔
      ListedInOrder candidate patches := by
  unfold ListedInOrder
  rw [List.pairwise_iff_getElem]
  constructor
  · intro horder i j hi hj hlt
    have hfirst := List.getElem?_eq_getElem hi
    have hsecond := List.getElem?_eq_getElem hj
    refine (horder _ ((remaining_sublist _).subset (List.getElem_mem hi)) _
      ((remaining_sublist _).subset (List.getElem_mem hj)) _ (mem_revisedBlocks.mpr ⟨i, _, hfirst, rfl⟩) _
      (mem_revisedBlocks.mpr ⟨j, _, hsecond, rfl⟩) (h.blockId_eq i _) (h.blockId_eq j _)).mp ?_
    exact hlt
  · intro hpairwise first hfirst second hsecond first' hfirst' second' hsecond' hid hid'
    obtain ⟨i, block, hi, rfl⟩ := mem_revisedBlocks.mp hfirst'
    obtain ⟨j, other, hj, rfl⟩ := mem_revisedBlocks.mp hsecond'
    rw [h.blockId_eq] at hid hid'
    have hblock := (remaining_sublist _).subset (List.mem_of_getElem? hi)
    have hother := (remaining_sublist _).subset (List.mem_of_getElem? hj)
    obtain rfl := hvalid.eq_of_blockId_eq hblock hfirst hid
    obtain rfl := hvalid.eq_of_blockId_eq hother hsecond hid'
    obtain ⟨hilt, rfl⟩ := List.getElem?_eq_some_iff.mp hi
    obtain ⟨hjlt, rfl⟩ := List.getElem?_eq_some_iff.mp hj
    show i < j ↔ _
    constructor
    · exact hpairwise i j hilt hjlt
    · intro hordinal
      by_contra hnot
      rcases Nat.lt_or_eq_of_le (Nat.not_lt.mp hnot) with hji | rfl
      · exact absurd (hpairwise j i hjlt hilt hji) (by omega)
      · exact absurd hordinal (Nat.lt_irrefl _)

/-- **What a revision changes.** For every candidate that its contract accepts and all patches that pass
the checks and leave a block, the next version is accepted by the contract, and it differs in what the
patches name only, exactly when the blocks that no patch names are complete and the blocks that stay are
listed in the order of their ordinals. -/
theorem only_patched_iff (contracts : Contracts) (readBlock : String → Except Exn BlockV1)
    {candidate : CandidateV1} {request : PatchRequest} {patches : List RevisionPatchV1}
    {replacements : List (String × BlockV1)} (now : ℕ)
    (hvalid : validateCandidate contracts candidate = .ok ())
    (hpatches : validatePatchSet request patches = .ok ())
    (hload : loadReplacementBlocks contracts readBlock candidate patches = .ok replacements)
    (hremaining : ∃ block ∈ candidate.blocks, ¬ Removes patches block) :
    ∃ revised, reviseCandidate contracts readBlock request candidate patches now = .ok revised ∧
      (OnlyPatched contracts candidate patches revised ↔
        UnpatchedComplete candidate patches ∧ ListedInOrder candidate patches) := by
  rw [validateCandidate_ok] at hvalid
  have hloaded := loaded_of_load hload
  have hne : remaining patches candidate.blocks ≠ [] := by
    obtain ⟨block, hblock, hkeeps⟩ := hremaining
    exact List.ne_nil_of_mem (mem_remaining.mpr ⟨hblock, hkeeps⟩)
  have hrevised : ValidCandidate contracts (revisedCandidate contracts candidate patches replacements now) :=
    hloaded.validCandidate hvalid hne
  refine ⟨_, reviseCandidate_ok hpatches hload (buildCandidate_ok hloaded hvalid hne), fun h => ⟨?_, ?_⟩,
    fun ⟨hcomplete, horder⟩ => ?_⟩
  · intro block hblock hunpatched
    obtain ⟨block', hblock', hkept⟩ := h.kept block hblock hunpatched
    obtain ⟨i, other, -, rfl⟩ := mem_revisedBlocks.mp hblock'
    exact hkept.status.symm
  · exact (hloaded.order_iff hvalid).mp h.order
  · refine ⟨(validateCandidate_ok contracts).mpr hrevised, rfl, rfl, fun block hblock hkeeps => ?_,
      fun block hblock hunpatched => ?_, (hloaded.order_iff hvalid).mpr horder, hrevised.dependencies⟩
    · refine List.count_eq_one_of_mem hrevised.blockIds_nodup ?_
      show block.blockId ∈ (revisedBlocks patches replacements now candidate.blocks).map (·.blockId)
      rw [hloaded.blockIds_eq]
      exact List.mem_map_of_mem (mem_remaining.mpr ⟨hblock, hkeeps⟩)
    · have hmem := mem_remaining.mpr ⟨hblock, not_removes_of_unpatched hunpatched⟩
      obtain ⟨i, hi⟩ := List.getElem?_of_mem hmem
      exact ⟨_, mem_revisedBlocks.mpr ⟨i, block, hi, rfl⟩,
        hloaded.kept hunpatched (hcomplete block hblock hunpatched) i⟩

end accepted

/-! ### A lecture of two blocks -/

def sampleContracts : Contracts where
  contentSha256 _ := "content"
  documentSha256 _ := "candidate"
  contentModel _ _ := some true

def lectureBlock (blockId : String) (ordinal : ℕ) (status : BlockStatus) : BlockV1 where
  blockId
  blockType := .MARKDOWN
  ordinal
  title := none
  contentSchemaVersion := "topic3.lecturer-content.v1"
  content := .object []
  contentSha256 := "content"
  dependencyBlockIds := []
  status
  createdAt := 0

def lecture (blocks : List BlockV1) : CandidateV1 where
  candidateId := 1
  candidateVersion := 1
  parentCandidateVersion := none
  blueprintId := 1
  blueprintVersion := "v1"
  blueprintSha256 := "blueprint"
  resourceType := .LECTURER_DOC
  status := .COMPLETE
  blocks
  provenance := ⟨.LECTURER, "v1", "v1", "local", []⟩
  personalizationPolicyDigest := "policy"
  candidateSha256 := "candidate"
  createdAt := 0

/-- The second block is replaced. -/
def lecturePatch : RevisionPatchV1 where
  tenantId := "tenant"
  traceId := "trace"
  revisionPlanId := 1
  blockId := "second"
  operation := .REPLACE_BLOCK "artifact" "content"
  baseBlockSha256 := "content"
  targetContentSchemaVersion := "topic3.lecturer-content.v1"
  reasonClaimIds := [1]

def lecturePatchRequest : PatchRequest := ⟨"tenant", "trace", ["second"], [1]⟩

/-- The replacement in the store. -/
def readLectureBlock (_ : String) : Except Exn BlockV1 := .ok (lectureBlock "second" 0 .COMPLETE)

def orderedLecture : CandidateV1 := lecture [lectureBlock "first" 0 .COMPLETE, lectureBlock "second" 1 .COMPLETE]

/-- Of the ordered lecture nothing else changes. -/
theorem only_patched_iff_lecture : ∃ revised,
    reviseCandidate sampleContracts readLectureBlock lecturePatchRequest orderedLecture [lecturePatch] 1
      = .ok revised ∧ OnlyPatched sampleContracts orderedLecture [lecturePatch] revised := by
  obtain ⟨revised, hrevised, hiff⟩ := only_patched_iff sampleContracts readLectureBlock 1 rfl
    (show validatePatchSet lecturePatchRequest [lecturePatch] = .ok () from rfl)
    (show loadReplacementBlocks sampleContracts readLectureBlock orderedLecture [lecturePatch] = .ok _ from rfl)
    ⟨lectureBlock "first" 0 .COMPLETE, by simp [orderedLecture, lecture], by decide⟩
  refine ⟨revised, hrevised, hiff.mpr ⟨?_, ?_⟩⟩
  · unfold UnpatchedComplete
    decide
  · unfold ListedInOrder
    decide

/-- The first block failed, and it is listed last. -/
def failedLecture : CandidateV1 := lecture [lectureBlock "second" 1 .COMPLETE, lectureBlock "first" 0 .FAILED]

/-- **Blocks that no patch names.** The replacement of the second block makes the failed block complete and
puts it last. -/
theorem failed_block_revised : ∃ revised,
    validateCandidate sampleContracts failedLecture = .ok () ∧
      reviseCandidate sampleContracts readLectureBlock lecturePatchRequest failedLecture [lecturePatch] 1
        = .ok revised ∧
      revised.blocks.map (fun block => (block.blockId, block.ordinal, block.status))
        = [("second", 0, .COMPLETE), ("first", 1, .COMPLETE)] ∧
      ¬ OnlyPatched sampleContracts failedLecture [lecturePatch] revised := by
  refine ⟨_, rfl, rfl, rfl, fun h => ?_⟩
  obtain ⟨block', hblock', hkept⟩ := h.kept (lectureBlock "first" 0 .FAILED)
    (by simp [failedLecture, lecture]) (by decide)
  obtain ⟨i, block, -, rfl⟩ := mem_revisedBlocks.mp hblock'
  have hstatus : BlockStatus.COMPLETE = .FAILED := hkept.status
  cases hstatus

end CyberControl.BlockRevision
