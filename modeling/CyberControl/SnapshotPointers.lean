import CyberControl.ClaimExtraction
import CyberControl.JsonPointer

/-! # Pointers into the snapshot of a candidate

The block manifest of `Topic4Runtime._request_for_candidate` (`verification/runtime.py`), and the pointers of
the extracted claims, read as RFC 6901 reads them in the document that is stored as the snapshot. -/

namespace CyberControl.ClaimExtraction

open Topic3 Verification BlockRevision
open JsonPointer
open Compliance (byName natJson isWhiteSpace lookup_of_mem)

/-! ### The snapshot -/

/-- The texts of identifiers and times. -/
structure DumpTexts where
  uuidText : ℕ → String
  timeText : ℕ → String

def blockTypeValue : BlockType → String
  | .MARKDOWN => "MARKDOWN"
  | .MERMAID => "MERMAID"
  | .QUIZ => "QUIZ"
  | .CODE => "CODE"
  | .EXTENSION => "EXTENSION"
  | .METADATA => "METADATA"

def blockStatusValue : BlockStatus → String
  | .COMPLETE => "COMPLETE"
  | .FAILED => "FAILED"
  | .SUPERSEDED => "SUPERSEDED"

def candidateStatusValue : CandidateStatus → String
  | .GENERATING => "GENERATING"
  | .COMPLETE => "COMPLETE"
  | .FAILED => "FAILED"
  | .SUPERSEDED => "SUPERSEDED"

variable (texts : DumpTexts)

/-- `model_dump(mode="json")` of a block. -/
def blockDocument (block : BlockV1) : Json :=
  .object
    [("schema_version", .string "topic3.block.v1"), ("block_id", .string block.blockId),
      ("block_type", .string (blockTypeValue block.blockType)), ("ordinal", natJson block.ordinal),
      ("title", Compliance.optionalText block.title),
      ("content_schema_version", .string block.contentSchemaVersion), ("content", block.content),
      ("content_sha256", .string block.contentSha256),
      ("dependency_block_ids", .array (block.dependencyBlockIds.map .string)),
      ("status", .string (blockStatusValue block.status)),
        ("created_at", .string (texts.timeText block.createdAt))]

def provenanceDocument (provenance : CandidateProvenanceV1) : Json :=
  .object
    [("agent", .string provenance.agent.value), ("agent_build_version", .string provenance.agentBuildVersion),
      ("prompt_bundle_version", .string provenance.promptBundleVersion),
      ("provider_alias", .string provenance.providerAlias),
      ("provider_request_ids", .array (provenance.providerRequestIds.map .string))]

/-- `model_dump(mode="json")` of a candidate, the document stored as its snapshot; objects have no order. -/
def candidateDocument (candidate : CandidateV1) : Json :=
  .object
    [("schema_version", .string "topic3.candidate.v1"),
      ("candidate_id", .string (texts.uuidText candidate.candidateId)),
      ("candidate_version", natJson candidate.candidateVersion),
      ("parent_candidate_version", (candidate.parentCandidateVersion.map natJson).getD .null),
      ("blueprint_id", .string (texts.uuidText candidate.blueprintId)),
      ("blueprint_version", .string candidate.blueprintVersion),
      ("blueprint_sha256", .string candidate.blueprintSha256),
      ("resource_type", .string candidate.resourceType.value),
      ("status", .string (candidateStatusValue candidate.status)),
      ("blocks", .array (candidate.blocks.map (blockDocument texts))),
      ("provenance", provenanceDocument candidate.provenance),
      ("personalization_policy_digest", .string candidate.personalizationPolicyDigest),
      ("candidate_sha256", .string candidate.candidateSha256),
      ("created_at", .string (texts.timeText candidate.createdAt))]

/-! ### The manifest -/

mutual

/-- The value with the members of its objects in the order of their names. -/
def sortKeys : Json → Json
  | .array elements => .array (sortElements elements)
  | .object members => .object (byName (sortMembers members))
  | v => v

def sortElements : List Json → List Json
  | [] => []
  | v :: elements => sortKeys v :: sortElements elements

def sortMembers : List (String × Json) → List (String × Json)
  | [] => []
  | (name, v) :: members => (name, sortKeys v) :: sortMembers members

end

/-- The bytes of the canonical text of a content. -/
def contentSize (content : Json) : ℕ := (String.ofList (sortKeys content).encode).utf8ByteSize

structure BlockSnapshotManifestItemV1 where
  blockId : String
  blockType : String
  ordinal : ℕ
  jsonPointer : List Char
  sha256 : String
  byteSize : ℕ

/-- What `BlockSnapshotManifestItemV1` accepts. -/
def ValidItem (item : BlockSnapshotManifestItemV1) : Prop :=
  (1 ≤ item.blockId.length ∧ item.blockId.length ≤ 128) ∧
    (1 ≤ item.blockType.length ∧ item.blockType.length ≤ 64) ∧
    (1 ≤ item.jsonPointer.length ∧ item.jsonPointer.length ≤ 1024) ∧ item.byteSize ≤ 16777216

instance (item : BlockSnapshotManifestItemV1) : Decidable (ValidItem item) :=
  inferInstanceAs (Decidable (_ ∧ _))

/-- `f"/blocks/{block.ordinal}"`. -/
def blockPointer (ordinal : ℕ) : List Char := "/blocks/".toList ++ Nat.toDigits 10 ordinal

def manifestItem (block : BlockV1) : BlockSnapshotManifestItemV1 where
  blockId := block.blockId
  blockType := blockTypeValue block.blockType
  ordinal := block.ordinal
  jsonPointer := blockPointer block.ordinal
  sha256 := block.contentSha256
  byteSize := contentSize block.content

/-- The `block_manifest` of `_request_for_candidate`. -/
def blockManifest (candidate : CandidateV1) : Except Exn (List BlockSnapshotManifestItemV1) :=
  candidate.blocks.mapM fun block => do
    ensure (ValidItem (manifestItem block)) (.validationError ["BlockSnapshotManifestItemV1"])
    return manifestItem block

def member? (name : String) : Json → Option Json
  | .object members => members.lookup name
  | _ => none

/-- The pointer of the item leads to the block that the item states. -/
def ItemResolves (item : BlockSnapshotManifestItemV1) (document : Json) : Prop :=
  ∃ place block, resolve item.jsonPointer document = some (place, block) ∧
    member? "block_id" block = some (.string item.blockId) ∧
    member? "content_sha256" block = some (.string item.sha256) ∧
    (member? "content" block).map contentSize = some item.byteSize

/-! ### The claims -/

/-- `json_pointer` of the `ClaimV1` that is built of a draft: the contract strips it. -/
def ClaimDraft.storedPointer (draft : ClaimDraft) : List Char := stored draft.jsonPointer

variable {ex : Extractor} {source : Source}

/-- The span of the draft was cut from the text at a place of the content of the block. -/
def CutFrom (ex : Extractor) (source : Source) (block : BlockV1) (draft : ClaimDraft) (steps : List Step)
    (text : String) : Prop :=
  follow steps block.content = some (.string text) ∧
    ∃ ordinal leaf segment, draft = ex.draft source block ordinal (leaf, segment) ∧
      leaf.jsonPointer = pointerOf steps ∧ leaf.value = text.toList ∧
      segment ∈ segments ex.db ex.policy block.blockType leaf.value

/-- The pointer of the claim leads to the place of the text that its span was cut from. -/
def ClaimResolves (ex : Extractor) (source : Source) (block : BlockV1) (draft : ClaimDraft)
    (document : Json) :
    Prop :=
  ∃ index steps text, source.candidate.blocks[index]? = some block ∧
    CutFrom ex source block draft steps text ∧
    resolve draft.storedPointer document
      = some (.member "blocks" :: .element index :: .member "content" :: steps, .string text)

/-- The blocks are listed in the order of their ordinals. -/
def InOrder (candidate : CandidateV1) : Prop :=
  ∀ (index : ℕ) (block : BlockV1), candidate.blocks[index]? = some block → block.ordinal = index

/-- The pointer of a text ends in white space: the text stands under such a key. -/
def EndsInSpace (pointer : List Char) : Prop := ∃ c ∈ pointer.getLast?, isWhiteSpace c = true

/-- No text of the block that a claim is cut from stands under a key that ends in white space. -/
def KeysTrimmed (ex : Extractor) (block : BlockV1) : Prop :=
  block.blockType ≠ .METADATA → ∀ leaf, StringLeaf [] "content".toList block.content leaf →
    ¬ ex.isMetadataLeaf block.blockType leaf.keyHint →
      ∀ segment ∈ segments ex.db ex.policy block.blockType leaf.value, ex.Verifiable block (leaf, segment) →
        ¬ EndsInSpace leaf.jsonPointer

/-! ### Places of the document -/

variable {texts}

theorem escapePointer_eq (key : List Char) : escapePointer key = escape key := by
  induction key with
  | nil => rfl
  | cons c cs ih =>
    rw [escapePointer_cons, escape_cons, ih]
    rfl

theorem blockPointer_eq (ordinal : ℕ) : blockPointer ordinal = pointerOf
    [.member "blocks", .element ordinal] := by
  have hkey : escape "blocks".toList = "blocks".toList := by decide
  rw [pointerOf_cons, pointerOf_cons, Step.token_member, Step.token_element, hkey, pointerOf_nil,
    List.append_nil]
  rfl

theorem claimPointer_eq (block : BlockV1) (steps : List Step) : claimPointer block (pointerOf steps)
    = pointerOf (.member "blocks" :: .element block.ordinal :: .member "content" :: steps) := by
  have hblocks : escape "blocks".toList = "blocks".toList := by decide
  have hcontent : escape "content".toList = "content".toList := by decide
  rw [pointerOf_cons, pointerOf_cons, pointerOf_cons, Step.token_member, Step.token_element,
    Step.token_member,
    hblocks, hcontent]
  unfold claimPointer
  simp only [String.reduceToList, List.cons_append, List.append_assoc, List.nil_append]

theorem blocks_of_candidateDocument (candidate : CandidateV1) :
    member? "blocks" (candidateDocument texts candidate)
      = some (.array (candidate.blocks.map (blockDocument texts))) := rfl

theorem content_of_blockDocument (block : BlockV1) :
    member? "content" (blockDocument texts block) = some block.content := rfl

theorem blockId_of_blockDocument (block : BlockV1) :
    member? "block_id" (blockDocument texts block) = some (.string block.blockId) := rfl

theorem contentSha256_of_blockDocument (block : BlockV1) :
    member? "content_sha256" (blockDocument texts block) = some (.string block.contentSha256) := rfl

theorem follow_member (key : String) (steps : List Step) (v : Json) :
    follow (.member key :: steps) v = (member? key v).bind (follow steps) := by
  cases v <;> rfl

theorem follow_block (candidate : CandidateV1) (index : ℕ) (steps : List Step) :
    follow (.member "blocks" :: .element index :: steps) (candidateDocument texts candidate)
      = (candidate.blocks[index]?).bind fun block => follow steps (blockDocument texts block) := by
  rw [follow_member, blocks_of_candidateDocument, Option.bind_some, follow, List.getElem?_map,
    Option.bind_map]
  rfl

theorem follow_content (block : BlockV1) (steps : List Step) :
    follow (.member "content" :: steps) (blockDocument texts block) = follow steps block.content := by
  rw [follow_member, content_of_blockDocument, Option.bind_some]

variable {leaf : LeafText}

theorem exists_steps {pointer keyHint : List Char} {v : Json}
    (h : StringLeaf pointer keyHint v leaf) (hunique : UniqueKeys v) : ∃ steps text,
      follow steps v = some (.string text) ∧ leaf.value = text.toList ∧
        leaf.jsonPointer = if pointer ++ pointerOf steps = [] then ['/'] else pointer ++ pointerOf steps := by
  induction h with
  | string => exact ⟨[], _, rfl, rfl, by rw [pointerOf_nil, List.append_nil]⟩
  | @member pointer keyHint members member leaf hmember hleaf ih =>
    cases hunique with
    | object hkeys hmembers =>
      obtain ⟨steps, text, hfollow, hvalue, hpointer⟩ := ih (hmembers member hmember)
      have hlookup : members.lookup member.1 = some member.2 := lookup_of_mem hkeys hmember
      refine ⟨.member member.1 :: steps, text, ?_, hvalue, ?_⟩
      · rw [follow, hlookup, Option.bind_some, hfollow]
      · rw [hpointer, pointerOf_cons, Step.token_member, ← escapePointer_eq, memberPointer]
        simp only [List.append_assoc, List.cons_append]
  | @element pointer keyHint elements index element leaf helement hleaf ih =>
    cases hunique with
    | array helements =>
      obtain ⟨steps, text, hfollow, hvalue, hpointer⟩ :=
        ih (helements element (List.mem_of_getElem? helement))
      refine ⟨.element index :: steps, text, ?_, hvalue, ?_⟩
      · rw [follow, helement, Option.bind_some, hfollow]
      · rw [hpointer, pointerOf_cons, Step.token_element, elementPointer]
        simp only [List.append_assoc, List.cons_append]

variable {members : List (String × Json)}

theorem exists_steps_of_content {content : Json}
    (hcontent : content = .object members)
    (h : StringLeaf [] "content".toList content leaf) (hunique : UniqueKeys content) :
    ∃ steps text, follow steps content = some (.string text) ∧ leaf.value = text.toList ∧
      leaf.jsonPointer = pointerOf steps := by
  obtain ⟨steps, text, hfollow, hvalue, hpointer⟩ := exists_steps h hunique
  refine ⟨steps, text, hfollow, hvalue, ?_⟩
  cases steps with
  | nil =>
    rw [hcontent] at hfollow
    cases hfollow
  | cons step steps =>
    rw [hpointer, List.nil_append, if_neg]
    exact List.cons_ne_nil _ _

variable {block : BlockV1} {draft : ClaimDraft}

theorem exists_cutFrom (hcontent : block.content = .object members)
    (hunique : UniqueKeys block.content)
    (hok : ex.extractBlock source block = .ok (ex.blockDrafts source block))
    (h : draft ∈ ex.blockDrafts source block) :
    block.blockType ≠ .METADATA ∧ ∃ ordinal leaf segment steps text,
      draft = ex.draft source block ordinal (leaf, segment) ∧
        StringLeaf [] "content".toList block.content leaf ∧ ¬ ex.isMetadataLeaf block.blockType leaf.keyHint ∧
        segment ∈ segments ex.db ex.policy block.blockType leaf.value ∧ ex.Verifiable block (leaf, segment) ∧
        leaf.jsonPointer = pointerOf steps ∧ CutFrom ex source block draft steps text := by
  by_cases hblock : block.blockType = .METADATA
  · unfold Extractor.extractBlock at hok
    rw [if_pos hblock] at hok
    rw [← Except.ok.inj hok] at h
    cases h
  · obtain ⟨leaves, hleaves, -, hdrafts⟩ := extractBlock_drafts hunique hok hblock
    rw [hdrafts] at h
    obtain ⟨ordinal, hordinal, rfl⟩ := List.mem_mapIdx.mp h
    have hinput := List.getElem_mem hordinal
    rw [List.mem_filter] at hinput
    obtain ⟨hinput, hverifiable⟩ := hinput
    obtain ⟨leaf, hleaf, hsegment⟩ := List.mem_flatMap.mp hinput
    obtain ⟨hleaf, hmetadata⟩ := List.mem_filter.mp hleaf
    obtain ⟨segment, hsegment, hpair⟩ := List.mem_map.mp hsegment
    have hstring := ((mem_walkStrings hleaves).mp hleaf).1
    obtain ⟨steps, text, hfollow, hvalue, hpointer⟩ := exists_steps_of_content hcontent hstring hunique
    rw [← hpair] at hverifiable ⊢
    exact ⟨hblock, ordinal, leaf, segment, steps, text, rfl, hstring, of_decide_eq_true hmetadata, hsegment,
      of_decide_eq_true hverifiable, hpointer, hfollow, ordinal, leaf, segment, rfl, hpointer, hvalue,
        hsegment⟩

/-! ### Stripped pointers -/

theorem storedPointer_eq_iff {rest : List Char} (h : draft.jsonPointer = '/' :: rest) :
    draft.storedPointer = draft.jsonPointer ↔ ¬ EndsInSpace draft.jsonPointer := by
  have hleft : draft.jsonPointer.dropWhile isWhiteSpace = draft.jsonPointer := by
    rw [h]
    rfl
  unfold ClaimDraft.storedPointer stored EndsInSpace
  rw [hleft, List.rdropWhile_eq_self_iff]
  constructor
  · rintro hlast ⟨c, hc, hspace⟩
    obtain ⟨hne, rfl⟩ := List.mem_getLast?_eq_getLast hc
    exact hlast hne hspace
  · exact fun hlast hne hspace => hlast ⟨_, List.getLast?_eq_some_getLast hne, hspace⟩

theorem endsInSpace_append {pointer rest : List Char} (h : rest ≠ []) :
    EndsInSpace (pointer ++ rest) ↔ EndsInSpace rest := by
  unfold EndsInSpace
  rw [List.getLast?_append_of_ne_nil _ h]

theorem endsInSpace_claimPointer {pointer : List Char} (h : pointer ≠ []) :
    EndsInSpace (claimPointer block pointer) ↔ EndsInSpace pointer := by
  unfold claimPointer
  exact endsInSpace_append h

/-! ### What the pointers lead to -/

variable {candidate : CandidateV1}

theorem mem_blockManifest {manifest : List BlockSnapshotManifestItemV1}
    (h : blockManifest candidate = .ok manifest) : manifest = candidate.blocks.map manifestItem := by
  have hforall := mapM_eq_ok.mp h
  clear h
  generalize candidate.blocks = blocks at hforall ⊢
  induction hforall with
  | nil => rfl
  | cons hitem _ ih =>
    obtain ⟨-, hitem⟩ := unit_bind_eq_ok.mp hitem
    cases hitem
    rw [List.map_cons, ← ih]

/-- The item of a block leads to it exactly when the block stands where its ordinal says. -/
theorem itemResolves_iff (hnodup : candidate.blockIds.Nodup) {index : ℕ}
    (hblock : candidate.blocks[index]? = some block)
    (hordinal : block.ordinal < candidate.blocks.length) :
    ItemResolves (manifestItem block) (candidateDocument texts candidate) ↔ block.ordinal = index := by
  unfold ItemResolves manifestItem
  dsimp only
  rw [blockPointer_eq]
  constructor
  · rintro ⟨place, document, hresolve, hid, -⟩
    obtain ⟨other, hother⟩ : ∃ other, candidate.blocks[block.ordinal]? = some other :=
      ⟨_, List.getElem?_eq_getElem hordinal⟩
    have hplace : resolve (pointerOf [.member "blocks", .element block.ordinal])
        (candidateDocument texts candidate)
          = some ([.member "blocks", .element block.ordinal], blockDocument texts other) := by
      refine resolve_eq_some_iff.mpr ⟨rfl, ?_⟩
      rw [follow_block, hother]
      rfl
    cases hresolve.symm.trans hplace
    rw [blockId_of_blockDocument, Option.some_inj, Json.string.injEq] at hid
    have hids : candidate.blockIds[block.ordinal]? = candidate.blockIds[index]? := by
      unfold CandidateV1.blockIds
      rw [List.getElem?_map, List.getElem?_map, hother, hblock, Option.map_some, Option.map_some, hid]
    refine (List.getElem?_inj ?_ hnodup).mp hids
    unfold CandidateV1.blockIds
    rwa [List.length_map]
  · rintro rfl
    refine ⟨_, blockDocument texts block, resolve_eq_some_iff.mpr ⟨rfl, ?_⟩, blockId_of_blockDocument block,
      contentSha256_of_blockDocument block, ?_⟩
    · rw [follow_block, hblock]
      rfl
    · rw [content_of_blockDocument]
      rfl

/-- The pointer of a claim leads to its text exactly when it does not end in white space, where the block of
the claim stands where its ordinal says. -/
theorem claimResolves_iff (hblock : source.candidate.blocks[block.ordinal]? = some block)
    {ordinal : ℕ} {segment : Segment} {steps : List Step}
    {text : String}
    (hdraft : draft = ex.draft source block ordinal (leaf, segment))
    (hpointer : leaf.jsonPointer = pointerOf steps)
    (hcut : CutFrom ex source block draft steps text) (hne : steps ≠ [])
    (hordinal : ∀ index, source.candidate.blocks[index]? = some block → block.ordinal = index) :
    ClaimResolves ex source block draft (candidateDocument texts source.candidate)
      ↔ ¬ EndsInSpace leaf.jsonPointer := by
  have hdraftPointer : draft.jsonPointer = claimPointer block (pointerOf steps) := by
    rw [hdraft, ← hpointer]
    rfl
  have hpointerne : pointerOf steps ≠ [] := by
    cases steps with
    | nil => exact absurd rfl hne
    | cons step steps => exact List.cons_ne_nil _ _
  have hkeep := storedPointer_eq_iff (hdraftPointer.trans (claimPointer_eq block steps))
  rw [hpointer, ← @endsInSpace_claimPointer block _ hpointerne, ← hdraftPointer, ← hkeep]
  constructor
  · rintro ⟨index, steps', text', hindex, hcut', hresolve⟩
    obtain ⟨-, ordinal', leaf', segment', hdraft', hpointer', -⟩ := hcut'
    have hdraftPointer' : draft.jsonPointer = claimPointer block (pointerOf steps') := by
      rw [hdraft', ← hpointer']
      rfl
    rw [(resolve_eq_some_iff.mp hresolve).1, hdraftPointer', claimPointer_eq, hordinal index hindex]
  · intro hstored
    refine ⟨block.ordinal, steps, text, hblock, hcut, resolve_eq_some_iff.mpr ⟨?_, ?_⟩⟩
    · rw [hstored, hdraftPointer, claimPointer_eq]
    · rw [follow_block, hblock, Option.bind_some, follow_content]
      exact hcut.1

variable {contracts : Contracts}

theorem ordinal_lt (hvalid : ValidCandidate contracts candidate)
    (hblock : block ∈ candidate.blocks) : block.ordinal < candidate.blocks.length := by
  have hmem : block.ordinal ∈ (candidate.blocks.map (·.ordinal)).insertionSort (· ≤ ·) :=
    (List.mem_insertionSort _).mpr (List.mem_map_of_mem hblock)
  rw [hvalid.ordinals] at hmem
  exact List.mem_range.mp hmem

/-- The blocks of a candidate are where their ordinals say when the items of the manifest lead to them. -/
theorem inOrder_iff (hvalid : ValidCandidate contracts candidate) :
    (∀ item ∈ candidate.blocks.map manifestItem, ItemResolves item (candidateDocument texts candidate)) ↔
      InOrder candidate := by
  have hiff : ∀ index block, candidate.blocks[index]? = some block →
      (ItemResolves (manifestItem block) (candidateDocument texts candidate) ↔ block.ordinal = index) :=
    fun index block hblock =>
      itemResolves_iff hvalid.blockIds_nodup hblock (ordinal_lt hvalid (List.mem_of_getElem? hblock))
  rw [List.forall_mem_map]
  constructor
  · intro hitems index block hblock
    exact (hiff index block hblock).mp (hitems block (List.mem_of_getElem? hblock))
  · intro horder block hblock
    obtain ⟨index, hindex⟩ := List.mem_iff_getElem?.mp hblock
    exact (hiff index block hindex).mpr (horder index block hindex)

theorem ne_nil_of_follow {content : Json}
    (hcontent : content = .object members)
    {steps : List Step} {text : String} (h : follow steps content = some (.string text)) : steps ≠ [] := by
  rintro rfl
  rw [hcontent] at h
  cases h

theorem exists_draft (hunique : UniqueKeys block.content)
    (hok : ex.extractBlock source block = .ok (ex.blockDrafts source block))
    (hblock : block.blockType ≠ .METADATA)
    (hleaf : StringLeaf [] "content".toList block.content leaf)
    (hmetadata : ¬ ex.isMetadataLeaf block.blockType leaf.keyHint) {segment : Segment}
    (hsegment : segment ∈ segments ex.db ex.policy block.blockType leaf.value)
    (hverifiable : ex.Verifiable block (leaf, segment)) :
    ∃ ordinal, ex.draft source block ordinal (leaf, segment) ∈ ex.blockDrafts source block := by
  obtain ⟨leaves, hleaves, -, hdrafts⟩ := extractBlock_drafts hunique hok hblock
  have hvisible : ¬ ex.db.Blank leaf.value := by
    intro hblank
    rw [segments_blank hblank] at hsegment
    cases hsegment
  have hinput : (leaf, segment) ∈ (ex.inputs block leaves).filter fun input => ex.Verifiable block input := by
    refine List.mem_filter.mpr ⟨?_, decide_eq_true hverifiable⟩
    refine List.mem_flatMap.mpr ⟨leaf, List.mem_filter.mpr ⟨?_, decide_eq_true hmetadata⟩, ?_⟩
    · exact (mem_walkStrings hleaves).mpr ⟨hleaf, hvisible⟩
    · exact List.mem_map_of_mem hsegment
  obtain ⟨ordinal, hordinal, heq⟩ := List.getElem_of_mem hinput
  refine ⟨ordinal, ?_⟩
  rw [hdrafts]
  exact List.mem_mapIdx.mpr ⟨ordinal, hordinal, by rw [heq]⟩

theorem block_of_draft (hvalid : ValidCandidate contracts source.candidate)
    {block other : BlockV1} (hother : other ∈ source.candidate.blocks)
    (hblock : block ∈ source.candidate.blocks)
    {ordinal : ℕ} {input : LeafText × Segment} {document : Json}
    (h : ClaimResolves ex source other (ex.draft source block ordinal input) document) : other = block := by
  obtain ⟨-, -, -, -, ⟨-, ordinal', leaf', segment', hdraft, -⟩, -⟩ := h
  have hid : block.blockId = other.blockId := congrArg ClaimDraft.blockId hdraft
  exact List.inj_on_of_nodup_map hvalid.blockIds_nodup hother hblock hid.symm

/-- **Snapshot pointers.** The items of the manifest lead to the blocks that they state, and the claims to the
texts that they were cut from, exactly when the blocks are listed in the order of their ordinals and no
claimed text stands under a key that ends in white space. -/
theorem pointers_resolve_iff {contracts : Contracts} (hvalid : ValidCandidate contracts source.candidate)
    (hcontent : ∀ block ∈ source.candidate.blocks,
      UniqueKeys block.content ∧ ∃ members, block.content = .object members)
    {drafts : List ClaimDraft} (hdrafts : ex.collectDrafts source []
      (source.candidate.blocks.insertionSort fun a b => a.ordinal ≤ b.ordinal) = .ok drafts)
    {manifest : List BlockSnapshotManifestItemV1}
    (hmanifest : blockManifest source.candidate = .ok manifest) :
    ((∀ item ∈ manifest, ItemResolves item (candidateDocument texts source.candidate)) ∧
      ∀ draft ∈ drafts, ∃ block ∈ source.candidate.blocks,
        draft ∈ ex.blockDrafts source block ∧
          ClaimResolves ex source block draft (candidateDocument texts source.candidate)) ↔
      InOrder source.candidate ∧ ∀ block ∈ source.candidate.blocks, KeysTrimmed ex block := by
  obtain ⟨hextract, hdrafts⟩ := collectDrafts_ok hdrafts
  have hok : ∀ block ∈ source.candidate.blocks, ex.extractBlock source block = .ok
    (ex.blockDrafts source block) :=
    fun block hblock => hextract block ((List.mem_insertionSort _).mpr hblock)
  have hmem : ∀ draft, draft ∈ drafts ↔ ∃ block ∈ source.candidate.blocks,
    draft ∈ ex.blockDrafts source block := by
    intro draft
    rw [hdrafts, List.nil_append, List.mem_flatMap]
    simp only [List.mem_insertionSort]
  rw [mem_blockManifest hmanifest, inOrder_iff hvalid]
  refine and_congr_right fun horder => ?_
  have hplace : ∀ block ∈ source.candidate.blocks, source.candidate.blocks[block.ordinal]? = some block := by
    intro block hblock
    obtain ⟨index, hindex⟩ := List.mem_iff_getElem?.mp hblock
    rwa [horder index block hindex]
  constructor
  · intro hresolves block hblock htype leaf hleaf hmetadata segment hsegment hverifiable
    obtain ⟨hunique, members, hmembers⟩ := hcontent block hblock
    obtain ⟨ordinal, hdraft⟩ := exists_draft hunique
      (hok block hblock) htype hleaf hmetadata hsegment hverifiable
    obtain ⟨other, hother, -, hclaim⟩ := hresolves _ ((hmem _).mpr ⟨block, hblock, hdraft⟩)
    have hsame : other = block := block_of_draft hvalid hother hblock hclaim
    rw [hsame] at hclaim
    obtain ⟨steps, text, hfollow, hvalue, hpointer⟩ := exists_steps_of_content hmembers hleaf hunique
    have hcut : CutFrom ex source block (ex.draft source block ordinal (leaf, segment)) steps text :=
      ⟨hfollow, ordinal, leaf, segment, rfl, hpointer, hvalue, hsegment⟩
    exact (claimResolves_iff (hplace block hblock) rfl hpointer hcut (ne_nil_of_follow hmembers hfollow)
      (horder · block)).mp hclaim
  · intro htrimmed draft hdraft
    obtain ⟨block, hblock, hdraft⟩ := (hmem draft).mp hdraft
    obtain ⟨hunique, members, hmembers⟩ := hcontent block hblock
    obtain ⟨htype, ordinal, leaf, segment, steps, text, heq, hleaf, hmetadata, hsegment, hverifiable,
      hpointer,
      hcut⟩ := exists_cutFrom hmembers hunique (hok block hblock) hdraft
    refine ⟨block, hblock, hdraft, ?_⟩
    refine (claimResolves_iff (hplace block hblock) heq hpointer hcut (ne_nil_of_follow hmembers hcut.1)
      (horder · block)).mpr ?_
    exact htrimmed block hblock htype leaf hleaf hmetadata segment hsegment hverifiable

/-! ### Two lectures -/

def sampleTexts : DumpTexts := ⟨Nat.repr, Nat.repr⟩

instance (pointer : List Char) : Decidable (EndsInSpace pointer) :=
  Option.decidableExistsMem pointer.getLast?

theorem programLecture_valid : ValidCandidate BlockRevision.sampleContracts programLecture :=
  (validateCandidate_ok _).mp rfl

theorem keysTrimmed_of_walk (h : ((walkStrings ex.db ex.policy block.content).toOption.map fun leaves =>
      leaves.all fun leaf => ¬ EndsInSpace leaf.jsonPointer) = some true) : KeysTrimmed ex block := by
  obtain ⟨leaves, hleaves, htrimmed⟩ := Option.map_eq_some_iff.mp h
  have hleaves := eq_ok_of_toOption hleaves
  intro _ leaf hleaf _ segment hsegment _
  refine of_decide_eq_true (List.all_eq_true.mp htrimmed leaf ?_)
  refine (mem_walkStrings hleaves).mpr ⟨hleaf, fun hblank => ?_⟩
  rw [segments_blank hblank] at hsegment
  cases hsegment

/-- The pointers of the lecture with a program. -/
theorem pointers_resolve_program : ∃ manifest drafts,
    blockManifest programLecture = .ok manifest ∧
      sampleExtractor.collectDrafts programSource []
        (programLecture.blocks.insertionSort fun a b => a.ordinal ≤ b.ordinal) = .ok drafts ∧
      drafts.map (fun draft => String.ofList draft.storedPointer) = ["/blocks/0/content/body",
        "/blocks/0/content/body", "/blocks/1/content/source/0", "/blocks/1/content/source/1"] ∧
      (∀ item ∈ manifest, ItemResolves item (candidateDocument sampleTexts programLecture)) ∧
      ∀ draft ∈ drafts, ∃ block ∈ programLecture.blocks,
        draft ∈ sampleExtractor.blockDrafts programSource block ∧
          ClaimResolves sampleExtractor programSource block draft
            (candidateDocument sampleTexts programLecture) := by
  have hmanifest : ((blockManifest programLecture).toOption.map fun _ => ()) = some () := by decide +kernel
  have hdrafts : ((sampleExtractor.collectDrafts programSource []
      (programLecture.blocks.insertionSort fun a b => a.ordinal ≤ b.ordinal)).toOption.map fun drafts =>
        drafts.map fun draft => String.ofList draft.storedPointer) = some ["/blocks/0/content/body",
          "/blocks/0/content/body", "/blocks/1/content/source/0", "/blocks/1/content/source/1"] := by
    decide +kernel
  obtain ⟨manifest, hmanifest, -⟩ := Option.map_eq_some_iff.mp hmanifest
  obtain ⟨drafts, hdrafts, hpointers⟩ := Option.map_eq_some_iff.mp hdrafts
  have hmanifest := eq_ok_of_toOption hmanifest
  have hdrafts := eq_ok_of_toOption hdrafts
  refine ⟨manifest, drafts, hmanifest, hdrafts, hpointers, (pointers_resolve_iff
    (show ValidCandidate _ programSource.candidate from programLecture_valid) programLecture_content hdrafts
    hmanifest).mpr ⟨?_, ?_⟩⟩
  · intro index block hblock
    match index with
    | 0 =>
      cases hblock
      rfl
    | 1 =>
      cases hblock
      rfl
    | index + 2 => cases hblock
  · simp only [programSource, programLecture, BlockRevision.lecture, List.forall_mem_cons]
    refine ⟨keysTrimmed_of_walk ?_, keysTrimmed_of_walk ?_, by simp⟩
    · decide +kernel
    · decide +kernel

/-- Two blocks, of which the second is listed first. -/
def swappedLecture : CandidateV1 :=
  BlockRevision.lecture [BlockRevision.lectureBlock "second" 1 .COMPLETE,
    BlockRevision.lectureBlock "first" 0 .COMPLETE]

/-- **Swapped blocks.** The pointer of the item of the second block leads to the first block. -/
theorem swapped_pointers : validateCandidate BlockRevision.sampleContracts swappedLecture = .ok () ∧
    ∃ manifest item place block, blockManifest swappedLecture = .ok manifest ∧ item ∈ manifest ∧
      item.blockId = "second" ∧
      resolve item.jsonPointer (candidateDocument sampleTexts swappedLecture) = some (place, block) ∧
      member? "block_id" block = some (.string "first") ∧
      ¬ ItemResolves item (candidateDocument sampleTexts swappedLecture) := by
  have hvalid : ValidCandidate BlockRevision.sampleContracts swappedLecture := (validateCandidate_ok _).mp rfl
  have hmanifest : ((blockManifest swappedLecture).toOption.map fun _ => ()) = some () := by decide +kernel
  obtain ⟨manifest, hmanifest, -⟩ := Option.map_eq_some_iff.mp hmanifest
  have hmanifest := eq_ok_of_toOption hmanifest
  have hitem : manifestItem (BlockRevision.lectureBlock "second" 1 .COMPLETE) ∈ manifest := by
    rw [mem_blockManifest hmanifest]
    exact List.mem_cons_self
  refine ⟨rfl, manifest, _, [.member "blocks", .element 1],
    blockDocument sampleTexts (BlockRevision.lectureBlock "first" 0 .COMPLETE), hmanifest, hitem, rfl, ?_,
      rfl, ?_⟩
  · exact resolve_eq_some_iff.mpr ⟨blockPointer_eq 1, rfl⟩
  · intro hresolves
    have hordinal := (itemResolves_iff hvalid.blockIds_nodup
      (show swappedLecture.blocks[0]? = some _ from rfl) (by decide)).mp hresolves
    cases hordinal

end CyberControl.ClaimExtraction
