import CyberControl.PrivacyDetector

/-! # The security detector

`DeterministicSecurityDetector` (`security/detector.py`), and how `C9SecurityHandler` answers from its
matches (`security/handler.py`).  Writing the artifacts is left out. -/

namespace CyberControl.Security

open ClaimExtraction (memberPointer elementPointer)
open Collections (sortedSet)
open Privacy (isWord sequence)
open Verification (VerificationVerdict)

/-! ### Characters -/

/-- A character matches a lower-case one under `re.I`. -/
def ignoreCase (x c : Char) : Bool :=
  c.toLower = x || (x = 'i' && (c = 'İ' || c = 'ı')) || (x = 's' && c = 'ſ') || (x = 'k' && c = '\u212A')

/-- `[A-Za-z0-9]` and other characters. -/
def alphanum (others : List Char) (c : Char) : Bool := c.isAlphanum || others.contains c

/-- `[A-Za-z0-9]` and other characters, under `re.I`. -/
def alphanumIgnoreCase (others : List Char) (c : Char) : Bool :=
  alphanum others c || ['İ', 'ı', 'ſ', '\u212A'].contains c

/-- A word under `re.I`, given in lower case. -/
def word (text : String) : Pattern := sequence (text.toList.map fun x => .char (ignoreCase x))

/-- One of some words under `re.I`. -/
def oneOf (words : List String) : Pattern := .choice (words.map word)

/-- One of some characters. -/
def among (cs : List Char) : Pattern := .char fun c => cs.contains c

/-- `.` under `re.S`. -/
def anything : Pattern := .char fun _ => true

section patterns
variable (db : Unicode.Database)

/-- `\b` -/
def wordBoundary : Pattern := .boundary (isWord db)

/-- `\s` -/
def space : Pattern := .char db.isSpace

/-- Words between two `\b`, under `re.I`. -/
def bounded (words : List String) : Pattern := sequence [wordBoundary db, oneOf words, wordBoundary db]

/-! ### Patterns -/

/-- `_PROMPT_PATTERNS` -/
def promptPatterns : List (String × Pattern) :=
  [("C9_PROMPT_IGNORE_INSTRUCTIONS",
      sequence
        [bounded db ["ignore", "disregard", "bypass"], anything.upTo 80, wordBoundary db,
          oneOf ["previous", "system", "developer", "policy", "instruction"], .option (word "s"),
          wordBoundary db]),
    ("C9_PROMPT_SYSTEM_OVERRIDE",
      sequence
        [wordBoundary db, oneOf ["system", "developer"], .plus (space db),
          oneOf ["prompt", "message", "instruction"], wordBoundary db]),
    ("C9_PROMPT_SECRET_REQUEST",
      sequence
        [bounded db ["reveal", "show", "print", "leak", "exfiltrate"], anything.upTo 80,
          bounded db ["secret", "token", "password", "credential", "prompt"]]),
    ("C9_PROMPT_JAILBREAK",
      sequence
        [wordBoundary db,
          .choice [word "jailbreak", sequence [word "dan", .plus (space db), word "mode"],
            sequence [word "developer", .plus (space db), word "mode"],
            sequence [word "do", .plus (space db), word "anything", .plus (space db), word "now"]],
          wordBoundary db]),
    ("C9_PROMPT_TOOL_OVERRIDE",
      sequence
        [bounded db ["call", "invoke", "execute"], anything.upTo 60,
          bounded db ["tool", "function", "shell", "browser"], anything.upTo 60, bounded db ["without"]])]

/-- The characters of an encoded part. -/
def encoded : Pattern := .char (alphanum ['_', '-'])

/-- `_CREDENTIAL_PATTERNS` -/
def credentialPatterns : List (String × Pattern) :=
  [("C9_EXPOSED_PRIVATE_KEY",
      sequence
        [word "-----begin ", .option (oneOf ["rsa ", "ec ", "openssh "]), word "private key-----"]),
    ("C9_EXPOSED_JWT",
      sequence
        [wordBoundary db, .word ['e', 'y', 'J'], encoded.atLeast 8, .literal '.', encoded.atLeast 8,
          .literal '.', encoded.atLeast 8, wordBoundary db]),
    ("C9_EXPOSED_SERVICE_KEY",
      sequence
        [wordBoundary db,
          .choice [.word ['s', 'k'], .seq (.word ['x', 'o', 'x']) (among ['b', 'a', 'p', 'r', 's']),
            .seq (.word ['g', 'h']) (among ['p', 'o', 'u', 's', 'r']), .word ['A', 'I', 'z', 'a']],
          among ['_', '-'], encoded.atLeast 12, wordBoundary db]),
    ("C9_EXPOSED_DATABASE_SECRET",
      sequence
        [wordBoundary db, .choice [.seq (word "postgres") (.option (word "ql")), word "mysql", word "redis"],
          word "://", .plus (.char fun c => !db.isSpace c && c != ':' && c != '@'), .literal ':',
          .plus (.char fun c => !db.isSpace c && c != '@'), .literal '@']),
    ("C9_EXPOSED_ASSIGNMENT",
      sequence
        [wordBoundary db,
          .choice [sequence [word "api", .option (among ['_', '-']), word "key"],
            sequence [word "access", .option (among ['_', '-']), word "token"],
            sequence [word "client", .option (among ['_', '-']), word "secret"], word "password"],
          .star (space db), among [':', '='], .star (space db), .option (among ['\'', '"']),
          (Pattern.char (alphanumIgnoreCase ['_', '.', '/', '+', '=', '-'])).atLeast 12])]

/-- `_MALWARE_PATTERNS` -/
def malwarePatterns : List (String × Pattern) :=
  [("C9_MALWARE_DOWNLOAD_EXECUTE",
      sequence
        [oneOf ["curl", "wget", "invoke-webrequest"], anything.upTo 160, oneOf ["|", ";", "&&"],
          anything.upTo 80, oneOf ["sh", "bash", "powershell", "pwsh"]]),
    ("C9_MALWARE_ENCODED_COMMAND",
      sequence
        [bounded db ["powershell", "pwsh"], anything.upTo 80, oneOf ["-enc", "-encodedcommand"],
          wordBoundary db]),
    ("C9_MALWARE_DESTRUCTIVE_SHELL",
      sequence
        [wordBoundary db,
          .choice [sequence [word "rm", .plus (space db), word "-rf"],
            sequence [word "format", .plus (space db),
              .char fun c => c.isAlpha || ['İ', 'ı', 'ſ', '\u212A'].contains c, .literal ':'],
            .seq (word "diskpart") (wordBoundary db), sequence [word "dd", .plus (space db), word "if="]]]),
    ("C9_MALWARE_RUNTIME_EXEC",
      sequence
        [wordBoundary db,
          .choice [word "os.system", .seq (word "subprocess.") (oneOf ["run", "call", "popen"]),
            word "child_process.exec"],
          .star (space db), .literal '('])]

/-- `_EXFILTRATION_PATTERNS` -/
def exfiltrationPatterns : List (String × Pattern) :=
  [("C9_DATA_EXFILTRATION_UPLOAD",
      sequence
        [bounded db ["upload", "send", "post", "forward", "exfiltrat"], anything.upTo 100,
          bounded db ["secret", "token", "password", "credential", "private", "personal"]]),
    ("C9_DATA_EXFILTRATION_WEBHOOK",
      bounded db ["webhook", "callback", "pastebin", "ngrok", "requestbin"])]

/-- `_CONTENT_POLICY_PATTERNS` -/
def contentPolicyPatterns : List (String × Pattern) :=
  [("C9_CONTENT_UNSAFE_INSTRUCTION",
      sequence
        [bounded db ["make", "build", "deploy"], anything.upTo 80, wordBoundary db,
          .choice [word "weapon", word "ransomware",
            sequence [word "credential", .plus (space db), word "stealer"], word "keylogger"],
          wordBoundary db])]

/-- What comes before the group in the pattern of `_scan_tenant_reference`. -/
def tenantKey : Pattern :=
  sequence
    [wordBoundary db, word "tenant", .option (among ['_', ' ', '-']), word "id", .star (space db),
      among [':', '='], .star (space db), .option (among ['\'', '"'])]

/-- The group of the pattern. -/
def tenantName : Pattern :=
  let character : Pattern := .char (alphanumIgnoreCase ['_', '.', ':', '-'])
  .seq character (character.upTo 127)

end patterns

/-! ### Matches -/

/-- `SecurityFindingCategory`, as far as the detector uses it. -/
inductive SecurityFindingCategory
  | promptInjection
  | exposedCredential
  | malware
  | contentPolicy
  | crossTenantReference
  | dataExfiltration

inductive FindingSeverity
  | high
  | critical

/-- `SecurityMatch` -/
structure SecurityMatch where
  category : SecurityFindingCategory
  reasonCode : String
  severity : FindingSeverity
  path : List Char
  fingerprint : String
  detector : String
  nonWaivable : Bool

/-- A row of the table in `_scan_text`. -/
structure Family where
  category : SecurityFindingCategory
  patterns : List (String × Pattern)
  severity : FindingSeverity
  nonWaivable : Bool
  detector : String

/-- The table in `_scan_text`. -/
def families (db : Unicode.Database) : List Family :=
  [⟨.promptInjection, promptPatterns db, .high, false, "prompt"⟩,
    ⟨.exposedCredential, credentialPatterns db, .critical, true, "credential"⟩,
    ⟨.malware, malwarePatterns db, .critical, true, "malware"⟩,
    ⟨.dataExfiltration, exfiltrationPatterns db, .critical, true, "exfiltration"⟩,
    ⟨.contentPolicy, contentPolicyPatterns db, .high, false, "content-policy"⟩]

/-! ### The walk -/

mutual

/-- `_walk` -/
def walk (path : List Char) : Json → List (List Char × Json)
  | .object members => walkMembers path members
  | .array elements => walkElements path 0 elements
  | value => [(if path = [] then ['/'] else path, value)]

/-- The loop over `value.items()`. -/
def walkMembers (path : List Char) : List (String × Json) → List (List Char × Json)
  | [] => []
  | (key, child) :: members => walk (memberPointer path key.toList) child ++ walkMembers path members

/-- The loop over `enumerate(value)`. -/
def walkElements (path : List Char) (index : ℕ) : List Json → List (List Char × Json)
  | [] => []
  | child :: elements =>
    walk (elementPointer path index) child ++ walkElements path (index + 1) elements

end

/-- The members of `candidate.model_dump(mode="json")`. -/
abbrev Candidate := List (String × Json)

/-! ### The scan -/

/-- `DeterministicSecurityDetector`, with the character database and `_fingerprint`. -/
structure Detector where
  db : Unicode.Database
  fingerprint : List Char → List Char → String
  maxMatches : ℕ
  maxStringLength : ℕ
  maxMatches_bounds : 1 ≤ maxMatches ∧ maxMatches ≤ 4096
  maxStringLength_bounds : 1 ≤ maxStringLength ∧ maxStringLength ≤ 1000000

def detectorVersion : String := "c9-deterministic-detector-v1"

namespace Detector
variable (detector : Detector)

/-- `_scan_text` -/
def scanText (text path : List Char) : List SecurityMatch :=
  (families detector.db).flatMap fun family =>
    family.patterns.filterMap fun (reasonCode, pattern) =>
      (pattern.search text).map fun found =>
        { category := family.category
          reasonCode
          severity := family.severity
          path
          fingerprint := detector.fingerprint text found
          detector := detectorVersion ++ ":" ++ family.detector
          nonWaivable := family.nonWaivable }

/-- The tenants that a text refers to, as `finditer` yields them. -/
def tenants (text : List Char) : List (List Char) :=
  (tenantKey detector.db).findGroups tenantName (text.length + 1) (.start text)

/-- `_scan_tenant_reference` -/
def scanTenantReference (text path : List Char) (tenantId : String) : List SecurityMatch :=
  match (detector.tenants text).find? fun tenant => tenant ≠ tenantId.toList with
  | none => []
  | some tenant =>
    [{ category := .crossTenantReference
       reasonCode := "C9_CROSS_TENANT_REFERENCE"
       severity := .critical
       path
       fingerprint := detector.fingerprint text tenant
       detector := detectorVersion ++ ":tenant-boundary"
       nonWaivable := true }]

/-- `value[: self._max_string_length]` -/
def cut (value : String) : List Char := value.toList.take detector.maxStringLength

/-- The matches of a leaf; one that is not a string has none. -/
def scanLeaf (tenantId : String) : List Char × Json → List SecurityMatch
  | (path, .string value) =>
    detector.scanText (detector.cut value) path ++
      detector.scanTenantReference (detector.cut value) path tenantId
  | _ => []

/-- The loop of `scan` from its state `matches`. -/
def scanFrom (tenantId : String) (collected : List SecurityMatch) :
    List (List Char × Json) → List SecurityMatch
  | [] => collected.take detector.maxMatches
  | leaf :: leaves =>
    if detector.maxMatches ≤ collected.length then collected.take detector.maxMatches
    else scanFrom tenantId (collected ++ detector.scanLeaf tenantId leaf) leaves

/-- `scan` -/
def scan (candidate : Candidate) (tenantId : String) : List SecurityMatch :=
  detector.scanFrom tenantId [] (walk [] (.object candidate))

end Detector

/-! ### The handler -/

/-- `SecurityDisposition`, as far as `_finding` uses it. -/
inductive SecurityDisposition
  | review
  | block

/-- `SecurityFindingV1`, without the identities. -/
structure SecurityFinding where
  category : SecurityFindingCategory
  severity : FindingSeverity
  disposition : SecurityDisposition
  detector : String
  evidenceFingerprintSha256 : String
  reasonCode : String
  nonWaivable : Bool

/-- `_finding` -/
def finding (m : SecurityMatch) : SecurityFinding where
  category := m.category
  severity := m.severity
  disposition := if m.nonWaivable then .block else .review
  detector := m.detector
  evidenceFingerprintSha256 := m.fingerprint
  reasonCode := m.reasonCode
  nonWaivable := m.nonWaivable

/-- `_verdict`; the confidence in hundredths. -/
def verdict (findings : List SecurityFinding) : VerificationVerdict × ℕ × List String :=
  if findings = [] then (.SUPPORTED, 99, ["C9_SECURITY_SCAN_CLEAN"])
  else
    let codes := sortedSet (findings.map (·.reasonCode))
    if findings.any (·.nonWaivable) then (.UNSAFE, 99, codes) else (.UNSAFE, 95, codes)

/-- `SecurityEvidenceBundle`; of the evidence its identities. -/
structure Bundle where
  candidate : Option Candidate
  evidence : List ℕ

/-- The verdict of `verify`, where `_load_bundle` and `_validate_bundle` answer `bundle`. -/
def verify (detector : Detector) (claimTenantId dispatchTenantId : String) (bundle : Except Exn Bundle) :
    VerificationVerdict :=
  if claimTenantId ≠ dispatchTenantId then .UNSAFE
  else
    match bundle with
    | .error (.valueError _) | .error (.validationError _) => .UNSAFE
    | .error _ => .ERROR
    | .ok ⟨none, _⟩ => .INSUFFICIENT_EVIDENCE
    | .ok ⟨some candidate, evidence⟩ =>
      if evidence = [] then .INSUFFICIENT_EVIDENCE
      else (verdict ((detector.scan candidate claimTenantId).map finding)).1

end CyberControl.Security
