import CyberControl.Json
import CyberControl.VerificationLifecycle

/-! # Blocks of a candidate

`BlockV1` (`liyans_contracts/topic3.py`), and the blocks of the candidates that a tenant holds. -/

namespace CyberControl.Topic3

inductive BlockType where
  | MARKDOWN
  | MERMAID
  | QUIZ
  | CODE
  | EXTENSION
  | METADATA
deriving DecidableEq, Repr

inductive BlockStatus where
  | COMPLETE
  | FAILED
  | SUPERSEDED
deriving DecidableEq, Repr

structure BlockV1 where
  blockId : String
  blockType : BlockType
  ordinal : ℕ
  title : Option String
  contentSchemaVersion : String
  content : Json
  contentSha256 : String
  dependencyBlockIds : List String
  status : BlockStatus
  createdAt : ℕ

/-- The blocks of each candidate, under the digest of the candidate.  `CandidateV1` is rejected when it has
no block, more than 2048, or two of one identifier. -/
structure Catalogue where
  blocks : String → List BlockV1
  blocks_ne_nil : ∀ candidateSha256, blocks candidateSha256 ≠ []
  blocks_length : ∀ candidateSha256, (blocks candidateSha256).length ≤ 2048
  blockIds_nodup : ∀ candidateSha256, ((blocks candidateSha256).map (·.blockId)).Nodup

/-- The identifiers of the blocks of a candidate, in their order. -/
def Catalogue.blockIds (catalogue : Catalogue) (candidate : Verification.Candidate) : List String :=
  (catalogue.blocks candidate.candidateSha256).map (·.blockId)

theorem Catalogue.blockIds_ne_nil (catalogue : Catalogue) (candidate : Verification.Candidate) :
    catalogue.blockIds candidate ≠ [] := by
  unfold Catalogue.blockIds
  rw [ne_eq, List.map_eq_nil_iff]
  exact catalogue.blocks_ne_nil _

theorem Catalogue.blockIds_length (catalogue : Catalogue) (candidate : Verification.Candidate) :
    (catalogue.blockIds candidate).length ≤ 2048 := by
  unfold Catalogue.blockIds
  rw [List.length_map]
  exact catalogue.blocks_length _

end CyberControl.Topic3
