import CyberControl.PatternRuns
import CyberControl.SecurityDetector
import CyberControl.UnicodeAscii
import Mathlib.Data.Rat.Floor

/-! # The extension verifier

`Topic1ExtensionVerifier` (`extension/verifier.py`).  Licences are recognised by the first entry of an
ordered table whose pattern matches the citation and the evidence. -/

namespace CyberControl.Extension

open Collections (sortedSet)
open Pattern (option plus star)
open Privacy (digit isWord sequence)
open Security (among bounded oneOf space word wordBoundary)
open Verification (VerificationVerdict)

/-! ### Data -/

/-- `ExtensionResourceV1` -/
structure ExtensionResource where
  title : List Char
  summary : List Char
  relevanceToKpIds : List String
  citationText : List Char
  sourceUrl : Option String

/-- `KnowledgePointV1` -/
structure KnowledgePoint where
  kpId : String
  title : List Char
  aliases : List (List Char)
  summary : List Char
  learningObjectives : List (List Char)
  category : List Char
  tags : List (List Char)

/-- `EvidenceRefV1` -/
structure EvidenceRef where
  citation : List Char
  excerpt : List Char

structure ExtensionAnalysis where
  sourcePresentInApprovedCorpus : Bool
  citationValid : Bool
  licenseCompatible : Bool
  licenseExpression : String
  knowledgeRelevance : ℚ
  temporalValidity : Option Bool
  findingCodes : List String
  verdict : VerificationVerdict
  confidence : ℚ

/-- What the verifier takes from Unicode and from the clock: the characters, the values of decimal
digits and the year of today. -/
structure Topic1ExtensionVerifier where
  db : Unicode.Database
  digitValue : Char → ℕ
  year : ℕ

/-! ### Patterns -/

section patterns
variable (db : Unicode.Database)

/-- `_TOKEN` -/
def tokenPattern : Pattern :=
  .alt (.seq (.char Char.isAlphanum) (.star (.char (Security.alphanum ['.', '_', ':', '+', '/', '-']))))
    (.range '\u4e00' '\u9fff')

/-- `_YEAR`, after its first `\b`. -/
def yearPattern : Pattern :=
  sequence [.alt (.word ['1', '9']) (.word ['2', '0']), (digit db).times 2, wordBoundary db]

/-- `_PLACEHOLDER` -/
def placeholderPattern : Pattern :=
  .alt (sequence [word "citation", plus (space db), word "needed"])
    (oneOf ["unknown", "tbd", "todo", "待补充", "未知", "未找到", "虚构", "fake"])

/-- `\s*[- ]?`, a version and what may follow it. -/
def versioned (version : Char) (rest : Pattern) : Pattern :=
  option (sequence [star (space db), option (among ['-', ' ']), .literal version, rest])

/-- `(?:\.0)?` -/
def pointZero : Pattern := option (.word ['.', '0'])

/-- `_LICENSE_PATTERNS` -/
def licensePatterns : List (String × Pattern) :=
  [("CC-BY-4.0", sequence [word "cc", star (space db), word "by", versioned db '4' pointZero]),
    ("CC0-1.0", sequence [word "cc0", versioned db '1' pointZero]),
    ("MIT", bounded db ["mit"]),
    ("Apache-2.0", sequence [word "apache", versioned db '2' pointZero]),
    ("BSD-3-Clause", sequence [word "bsd",
      versioned db '3' (option (sequence [option (among ['-', ' ']), word "clause"]))]),
    ("GPL-3.0", sequence [word "gpl", versioned db '3' pointZero]),
    ("AGPL-3.0", sequence [word "agpl", versioned db '3' pointZero]),
    ("CC-BY-NC", sequence [word "cc", star (space db), word "by", star (space db),
      option (among ['-', ' ']), word "nc"])]

/-- `_INCOMPATIBLE_LICENSES` -/
def incompatibleLicenses : List String := ["GPL-3.0", "AGPL-3.0", "CC-BY-NC"]

/-- `_license_expression` -/
def licenseExpression (corpusText citation : List Char) : String :=
  match (licensePatterns db).find? fun entry => (entry.2.search (citation ++ ' ' :: corpusText)).isSome with
  | some entry => entry.1
  | none => "UNKNOWN"

end patterns

/-! ### The analysis -/

section analysis
variable (v : Topic1ExtensionVerifier)

/-- `_tokens` -/
def tokens (value : List Char) : List (List Char) :=
  ((Pattern.empty.findGroups tokenPattern (value.length + 1) (.start value)).map fun token =>
    token.flatMap v.db.casefold).dedup

/-- `_overlap` of two sets. -/
def overlap (left right : List (List Char)) : ℚ :=
  if left = [] ∨ right = [] then 0 else (left.filter (· ∈ right)).length / left.length

/-- `" ".join` -/
def joined (texts : List (List Char)) : List Char := [' '].intercalate texts

def authorityText (point : KnowledgePoint) : List Char :=
  joined ([point.title] ++ point.aliases ++ [point.summary] ++ point.learningObjectives ++
    [point.category] ++ point.tags)

/-- `round(value, 6)` -/
def round6 (value : ℚ) : ℚ := round (value * 10 ^ 6) / 10 ^ 6

/-- `_temporal_validity` -/
def temporalValidity (citation : List Char) : Option Bool :=
  let years := ((wordBoundary v.db).findGroups (yearPattern v.db) (citation.length + 1) (.start citation)).map
    fun text => text.foldl (fun n c => 10 * n + v.digitValue c) 0
  if years = [] then none else some (years.all fun year => 1900 ≤ year && year ≤ v.year)

def corpusText (evidence : List EvidenceRef) : List Char :=
  joined (evidence.map fun ref => ref.citation ++ ' ' :: ref.excerpt)

/-- `Topic1ExtensionVerifier.analyze` -/
def analyze (resource : ExtensionResource) (points : List KnowledgePoint) (evidence : List EvidenceRef) :
    ExtensionAnalysis :=
  let sourceTokens := tokens v (joined [resource.title, resource.summary, resource.citationText])
  let ids := resource.relevanceToKpIds
  let unknown := ids.dedup.filter fun kpId => ¬ points.any fun point => point.kpId = kpId
  let matched := ids.filter fun kpId => (points.reverse.find? fun point => point.kpId = kpId).any
    fun point => (1 / 5 : ℚ) ≤ overlap (tokens v (authorityText point)) sourceTokens
  let relevance := round6 (3 / 5 * (1 - unknown.length / ids.length) + 2 / 5 * (matched.length / ids.length))
  let citation := v.db.strip resource.citationText
  let citationTokens := tokens v citation
  let citationValid := 10 ≤ citation.length && ! ((placeholderPattern v.db).search citation).isSome &&
    (((Pattern.seq (wordBoundary v.db) (yearPattern v.db)).search citation).isSome ||
      resource.sourceUrl.any (· ≠ ""))
  let corpus := corpusText evidence
  let sourcePresent := citationTokens ≠ [] &&
    (decide (citation.flatMap v.db.casefold <:+: corpus.flatMap v.db.casefold) ||
      decide ((7 / 10 : ℚ) ≤ overlap citationTokens (tokens v corpus)))
  let expression := licenseExpression v.db corpus citation
  let incompatible := incompatibleLicenses.contains expression
  let temporal := temporalValidity v citation
  let codes := (if unknown ≠ [] then ["C7_UNKNOWN_KNOWLEDGE_POINT"] else []) ++
    (if relevance < 1 / 2 then ["C7_KNOWLEDGE_RELEVANCE_LOW"] else []) ++
    (if citationValid then [] else ["C7_CITATION_INVALID"]) ++
    (if sourcePresent then [] else ["C7_SOURCE_NOT_IN_APPROVED_CORPUS"]) ++
    (if expression = "UNKNOWN" then ["C7_LICENSE_UNVERIFIED"]
      else if incompatible then ["C7_LICENSE_INCOMPATIBLE"] else []) ++
    (if temporal = some false then ["C7_PUBLICATION_DATE_INVALID"] else []) ++
    (if evidence = [] then ["C7_EVIDENCE_REQUIRED"] else [])
  let conclusion : VerificationVerdict × ℚ :=
    if evidence = [] then (.INSUFFICIENT_EVIDENCE, 25 / 100)
    else if "C7_LICENSE_INCOMPATIBLE" ∈ codes then (.UNSAFE, 98 / 100)
    else if ! sourcePresent || ! citationValid || decide (unknown ≠ []) then (.CONTRADICTED, 95 / 100)
    else if "C7_LICENSE_UNVERIFIED" ∈ codes ∨ temporal = some false then
      (.INSUFFICIENT_EVIDENCE, 45 / 100)
    else if "C7_KNOWLEDGE_RELEVANCE_LOW" ∈ codes then (.CONTRADICTED, 90 / 100)
    else (.SUPPORTED, 94 / 100)
  { sourcePresentInApprovedCorpus := sourcePresent
    citationValid
    licenseCompatible := expression ≠ "UNKNOWN" && ! incompatible
    licenseExpression := expression
    knowledgeRelevance := relevance
    temporalValidity := temporal
    findingCodes := sortedSet codes
    verdict := conclusion.1
    confidence := conclusion.2 }

end analysis

/-! ### Licences in a text -/

section licences
variable {db : Unicode.Database}

variable (db) in
/-- A text that mentions a compatible licence. -/
def MentionsCompatible (text : List Char) : Prop :=
  ∃ entry ∈ licensePatterns db, entry.1 ∉ incompatibleLicenses ∧ (entry.2.search text).isSome

variable (db) in
def MentionsIncompatible (text : List Char) : Prop :=
  ∃ entry ∈ licensePatterns db, entry.1 ∈ incompatibleLicenses ∧ (entry.2.search text).isSome

variable {entry : String × Pattern}

theorem mem_take_licensePatterns (h : entry ∈ (licensePatterns db).take 5) :
    entry.1 ∉ incompatibleLicenses ∧ entry.1 ≠ "UNKNOWN" := by
  simp only [licensePatterns, List.take_succ_cons, List.take_zero, List.mem_cons, List.not_mem_nil,
    or_false] at h
  rcases h with rfl | rfl | rfl | rfl | rfl <;> simp [incompatibleLicenses]

theorem mem_drop_licensePatterns (h : entry ∈ (licensePatterns db).drop 5) :
    entry.1 ∈ incompatibleLicenses ∧ entry.2.Plain := by
  simp only [licensePatterns, List.drop_succ_cons, List.drop_zero, List.mem_cons, List.not_mem_nil,
    or_false] at h
  rcases h with rfl | rfl | rfl <;> refine ⟨by simp [incompatibleLicenses], ?_⟩ <;> repeat' constructor

theorem mem_licensePatterns : entry ∈ licensePatterns db ↔
    entry ∈ (licensePatterns db).take 5 ∨ entry ∈ (licensePatterns db).drop 5 := by
  rw [← List.mem_append, List.take_append_drop]

theorem licenseExpression_spec (db : Unicode.Database) (corpus citation : List Char) :
    let expression := licenseExpression db corpus citation
    let text := citation ++ ' ' :: corpus
    (MentionsCompatible db text → expression ∉ incompatibleLicenses ∧ expression ≠ "UNKNOWN") ∧
      (¬ MentionsCompatible db text → MentionsIncompatible db text →
        expression ∈ incompatibleLicenses) := by
  intro expression text
  let found : String × Pattern → Bool := fun entry => (entry.2.search text).isSome
  have hsplit : (licensePatterns db).find? found =
      (((licensePatterns db).take 5).find? found).or (((licensePatterns db).drop 5).find? found) := by
    rw [← List.find?_append, List.take_append_drop]
  have hexpression : expression = match (licensePatterns db).find? found with
    | some entry => entry.1
    | none => "UNKNOWN" := rfl
  rw [hsplit] at hexpression
  cases hfirst : ((licensePatterns db).take 5).find? found with
  | some entry =>
    rw [hfirst] at hexpression
    have hmem := List.mem_of_find?_eq_some hfirst
    have hfound := List.find?_some hfirst
    refine ⟨fun _ => hexpression ▸ mem_take_licensePatterns hmem, fun hnone => absurd ?_ hnone⟩
    exact ⟨entry, mem_licensePatterns.mpr (.inl hmem), (mem_take_licensePatterns hmem).1, hfound⟩
  | none =>
    rw [hfirst, Option.none_or] at hexpression
    have hnone := List.find?_eq_none.mp hfirst
    refine ⟨fun ⟨entry, hmem, hcompatible, hfound⟩ => ?_, fun _ ⟨entry, hmem, hincompatible, hfound⟩ => ?_⟩
    · rcases mem_licensePatterns.mp hmem with hmem | hmem
      · exact absurd hfound (hnone entry hmem)
      · exact absurd (mem_drop_licensePatterns hmem).1 hcompatible
    · rcases mem_licensePatterns.mp hmem with hmem | hmem
      · exact absurd hincompatible (mem_take_licensePatterns hmem).1
      · obtain ⟨other, hother⟩ : ∃ other, ((licensePatterns db).drop 5).find? found = some other :=
          Option.isSome_iff_exists.mp (List.find?_isSome.mpr ⟨entry, hmem, hfound⟩)
        rw [hother] at hexpression
        exact hexpression ▸ (mem_drop_licensePatterns (List.mem_of_find?_eq_some hother)).1

theorem MentionsIncompatible.of_part {part : List Char} (h : MentionsIncompatible db part)
    (before after : List Char) : MentionsIncompatible db (before ++ part ++ after) := by
  obtain ⟨entry, hmem, hincompatible, hfound⟩ := h
  refine ⟨entry, hmem, hincompatible, ?_⟩
  rcases mem_licensePatterns.mp hmem with hfirst | hlast
  · exact absurd hincompatible (mem_take_licensePatterns hfirst).1
  · rw [Pattern.search_isSome] at hfound ⊢
    exact hfound.of_part (mem_drop_licensePatterns hlast).2 before after

end licences

/-! ### Reports -/

/-- **When an incompatible licence is reported**: exactly when the citation and the evidence mention no
compatible one beside it. -/
theorem incompatible_reported_iff (v : Topic1ExtensionVerifier) (resource : ExtensionResource)
    (points : List KnowledgePoint) (evidence : List EvidenceRef) :
    let citation := v.db.strip resource.citationText
    let corpus := corpusText evidence
    let mentioned := MentionsIncompatible v.db citation ∨ MentionsIncompatible v.db corpus
    let analysis := analyze v resource points evidence
    (mentioned → analysis.licenseCompatible = false ∧ (evidence ≠ [] → analysis.verdict = .UNSAFE)) ↔
      ¬ (mentioned ∧ MentionsCompatible v.db (citation ++ ' ' :: corpus)) := by
  intro citation corpus mentioned analysis
  obtain ⟨hcompatible, hincompatible⟩ := licenseExpression_spec v.db corpus citation
  have hanalysis : analysis.licenseCompatible =
      (licenseExpression v.db corpus citation ≠ "UNKNOWN" &&
        ! incompatibleLicenses.contains (licenseExpression v.db corpus citation)) := rfl
  constructor
  · rintro h ⟨hmentioned, hmasked⟩
    obtain ⟨hnot, hknown⟩ := hcompatible hmasked
    have hfalse := (h hmentioned).1
    rw [hanalysis] at hfalse
    simp [hknown, hnot] at hfalse
  · intro h hmentioned
    have hwhole : MentionsIncompatible v.db (citation ++ ' ' :: corpus) := by
      rcases hmentioned with hpart | hpart
      · simpa using hpart.of_part [] (' ' :: corpus)
      · simpa using hpart.of_part (citation ++ [' ']) []
    have hmem := hincompatible (fun hmasked => h ⟨hmentioned, hmasked⟩) hwhole
    refine ⟨by rw [hanalysis]; simp [hmem], fun hevidence => ?_⟩
    have hknown : licenseExpression v.db corpus citation ≠ "UNKNOWN" := fun h => by
      rw [h] at hmem
      revert hmem
      decide
    show (analyze v resource points evidence).verdict = _
    simp [analyze, hevidence, hmem, hknown, corpus, citation]

/-- A resource under CC BY-NC is supported, with the licence CC-BY-4.0. -/
theorem ccByNc_supported :
    let v : Topic1ExtensionVerifier := ⟨Unicode.Standard.asciiOnly, fun c => c.toNat - 48, 2026⟩
    let citation := "Control notes 2024 CC BY-NC".toList
    let resource : ExtensionResource := ⟨"Control".toList, "notes".toList, ["kp"], citation, none⟩
    let points : List KnowledgePoint := [⟨"kp", "Control".toList, [], "notes".toList, [], [], []⟩]
    let evidence : List EvidenceRef := [⟨citation, "notes".toList⟩]
    ¬ (MentionsIncompatible v.db (v.db.strip citation) ∨ MentionsIncompatible v.db (corpusText evidence) →
      (analyze v resource points evidence).licenseCompatible = false ∧
        (evidence ≠ [] → (analyze v resource points evidence).verdict = .UNSAFE)) := by
  intro v citation resource points evidence h
  have hmentioned : MentionsIncompatible v.db (v.db.strip citation) := by
    refine ⟨(licensePatterns v.db).getLast (List.cons_ne_nil _ _), List.getLast_mem _, ?_, ?_⟩
    · simp [licensePatterns, incompatibleLicenses]
    · decide +kernel
  have hverdict : (analyze v resource points evidence).verdict = .SUPPORTED := by decide +kernel
  exact absurd ((h (.inl hmentioned)).2 (List.cons_ne_nil _ _)) (by rw [hverdict]; decide)

end CyberControl.Extension
