import CyberControl.ClaimWalk
import CyberControl.Pattern

/-! # The privacy detector

`DeterministicPIIDetector` (`privacy/detector.py`) and the verdict that `C10PrivacyHandler` derives
from its matches. -/

namespace CyberControl.Privacy

open ClaimExtraction (memberPointer elementPointer)
open Verification (VerificationVerdict)

/-! ### Types and actions -/

/-- `PIIType` -/
inductive PIIType
  | name
  | phone
  | email
  | nationalId
  | studentId
  | address
  | biometric
  | credential
  | other
  deriving DecidableEq, Repr

def PIIType.value : PIIType → String
  | .name => "NAME"
  | .phone => "PHONE"
  | .email => "EMAIL"
  | .nationalId => "NATIONAL_ID"
  | .studentId => "STUDENT_ID"
  | .address => "ADDRESS"
  | .biometric => "BIOMETRIC"
  | .credential => "CREDENTIAL"
  | .other => "OTHER"

/-- `PrivacyAction` -/
inductive PrivacyAction
  | allow
  | tokenize
  | redact
  | block
  deriving DecidableEq, Repr

/-- `_action` -/
def action (piiType : PIIType) : PrivacyAction :=
  if piiType ∈ [.nationalId, .biometric, .credential] then .block
  else if piiType ∈ [.email, .phone, .studentId] then .tokenize
  else .redact

/-- `PIIMatch`; the confidence in hundredths. -/
structure PIIMatch where
  piiType : PIIType
  blockId : String
  jsonPointer : List Char
  originalValueSha256 : String
  confidence : ℕ
  action : PrivacyAction
  replacement : String
  reasonCode : String

/-! ### Keys -/

/-- An entry of `_KEY_TYPE` -/
structure KeyType where
  piiType : PIIType
  keys : List String
  reasonCode : String

/-- `_KEY_TYPE` -/
def keyTypes : List KeyType :=
  [⟨.credential, ["password", "passwd", "api_key", "apikey", "access_token", "secret"],
      "C10_CREDENTIAL_FIELD"⟩,
    ⟨.biometric, ["biometric", "face_id", "fingerprint", "iris"], "C10_BIOMETRIC_FIELD"⟩,
    ⟨.nationalId, ["national_id", "id_card", "身份证", "identity_number"], "C10_NATIONAL_ID_FIELD"⟩,
    ⟨.studentId, ["student_id", "learner_id"], "C10_STUDENT_ID_FIELD"⟩,
    ⟨.name, ["name", "student_name", "real_name"], "C10_NAME_FIELD"⟩,
    ⟨.address, ["address", "home_address", "postal_address"], "C10_ADDRESS_FIELD"⟩]

/-! ### Patterns -/

section patterns
variable (db : Unicode.Database)

/-- `\d` -/
def digit : Pattern := .char db.isDecimal

/-- `\w` -/
def isWord (c : Char) : Bool := db.isAlnum c || c = '_'

def notAfterDigit : Pattern := .notBehind db.isDecimal

def notBeforeDigit : Pattern := .notAhead db.isDecimal

def sequence : List Pattern → Pattern
  | [] => .empty
  | [pattern] => pattern
  | pattern :: rest => .seq pattern (sequence rest)

/-- `_NATIONAL_ID` -/
def nationalIdPattern : Pattern :=
  sequence
    [notAfterDigit db, .range '1' '9', (digit db).times 5,
      .alt (.word ['1', '8']) (.alt (.word ['1', '9']) (.word ['2', '0'])), (digit db).times 2,
      .alt (.seq (.literal '0') (.range '1' '9')) (.seq (.literal '1') (.range '0' '2')),
      .alt (.seq (.literal '0') (.range '1' '9'))
        (.alt (.seq (.char fun c => c = '1' ∨ c = '2') (digit db))
          (.seq (.literal '3') (.char fun c => c = '0' ∨ c = '1'))),
      (digit db).times 3, .char fun c => c.isDigit ∨ c = 'X' ∨ c = 'x', notBeforeDigit db]

/-- `[\w.+-]` -/
def isLocalPart (c : Char) : Bool := isWord db c || c = '.' || c = '+' || c = '-'

/-- `[A-Za-z0-9-]+` -/
def domainLabel : Pattern := .plus (.char fun c => c.isAlphanum ∨ c = '-')

/-- `_EMAIL` -/
def emailPattern : Pattern :=
  sequence
    [.notBehind (isLocalPart db), .plus (.char (isLocalPart db)), .literal '@', domainLabel,
      .plus (.seq (.literal '.') domainLabel),
      .notAhead fun c => isWord db c || c = '.' || c = '-']

/-- `_PHONE` -/
def phonePattern : Pattern :=
  sequence
    [notAfterDigit db,
      .option (sequence [.option (.literal '+'), .word ['8', '6'],
        .option (.char fun c => c = '-' ∨ c = ' ')]),
      .literal '1', .range '3' '9', (digit db).times 9, notBeforeDigit db]

end patterns

/-! ### The walk -/

/-- A leaf of a content, with its path and the key it lies under. -/
structure Leaf where
  path : List Char
  key : Option String
  value : Json

mutual

/-- `_walk` -/
def walk (path : List Char) (key : Option String) : Json → List Leaf
  | .object members => walkMembers path members
  | .array elements => walkElements path key 0 elements
  | value => [⟨path, key, value⟩]

/-- The loop over `value.items()`. -/
def walkMembers (path : List Char) : List (String × Json) → List Leaf
  | [] => []
  | (childKey, child) :: members =>
    walk (memberPointer path childKey.toList) (some childKey) child ++ walkMembers path members

/-- The loop over `enumerate(value)`. -/
def walkElements (path : List Char) (key : Option String) (index : ℕ) : List Json → List Leaf
  | [] => []
  | child :: elements =>
    walk (elementPointer path index) key child ++ walkElements path key (index + 1) elements

end

/-- The fields of a block that the detector reads. -/
structure Block where
  blockId : String
  ordinal : ℕ
  content : List (String × Json)

structure Candidate where
  blocks : List Block

/-- A leaf and the block it belongs to. -/
structure Visit where
  blockId : String
  leaf : Leaf

/-- The order in which `scan` looks at the leaves. -/
def Candidate.visits (candidate : Candidate) : List Visit :=
  candidate.blocks.flatMap fun block =>
    (walk ("/blocks/".toList ++ Nat.toDigits 10 block.ordinal ++ "/content".toList) none
      (.object block.content)).map (Visit.mk block.blockId)

/-! ### The scan -/

/-- `DeterministicPIIDetector`, with the character database and the digest of a text. -/
structure Detector where
  db : Unicode.Database
  canonicalSha256 : List Char → String
  maxMatches : ℕ
  maxStringLength : ℕ
  maxMatches_bounds : 1 ≤ maxMatches ∧ maxMatches ≤ 4096
  maxStringLength_bounds : 1 ≤ maxStringLength ∧ maxStringLength ≤ 1000000

namespace Detector
variable (detector : Detector)

/-- `normalized_key` -/
def normalizedKey (key : Option String) : List Char :=
  ((key.getD "").toList.flatMap detector.db.casefold).map fun c =>
    if c = '-' ∨ c = ' ' then '_' else c

/-- The first entry of `_KEY_TYPE` with the key. -/
def keyType (key : Option String) : Option KeyType :=
  keyTypes.find? fun entry => entry.keys.any fun k => k.toList = detector.normalizedKey key

/-- `_match` -/
def matchOf (blockId : String) (path : List Char) (piiType : PIIType) (value : List Char)
    (reasonCode : String) (replaceEntire : Bool) : PIIMatch where
  piiType := piiType
  blockId := blockId
  jsonPointer := path
  originalValueSha256 := detector.canonicalSha256 value
  confidence := if replaceEntire then 99 else 96
  action := action piiType
  replacement :=
    match action piiType with
    | .tokenize => "tok_" ++ String.ofList ((detector.canonicalSha256 value).toList.take 32)
    | .block => "[BLOCKED:" ++ piiType.value ++ "]"
    | _ => "[REDACTED:" ++ piiType.value ++ "]"
  reasonCode := reasonCode

/-- `patterns` -/
def patterns : List (PIIType × Pattern × String) :=
  [(.nationalId, nationalIdPattern detector.db, "C10_NATIONAL_ID_PATTERN"),
    (.email, emailPattern detector.db, "C10_EMAIL_PATTERN"),
    (.phone, phonePattern detector.db, "C10_PHONE_PATTERN")]

/-- `value[: self._max_string_length]` -/
def cut (value : String) : List Char := value.toList.take detector.maxStringLength

/-- `_scan_value` -/
def scanValue (blockId : String) (path : List Char) (key : Option String) (value : String) :
    List PIIMatch :=
  let text := detector.cut value
  match (detector.keyType key).filter fun _ => ¬ detector.db.Blank text with
  | some entry => [detector.matchOf blockId path entry.piiType text entry.reasonCode true]
  | none => detector.patterns.filterMap fun (piiType, pattern, reasonCode) =>
    (pattern.search text).map fun found =>
      detector.matchOf blockId path piiType found reasonCode false

/-- `unique`: the first match for each pointer, type and digest. -/
def unique (collected : List PIIMatch) : List PIIMatch :=
  collected.foldl (fun kept m =>
    if kept.any fun k => k.jsonPointer = m.jsonPointer ∧ k.piiType = m.piiType ∧
        k.originalValueSha256 = m.originalValueSha256 then kept
    else kept ++ [m]) []

/-- The matches of a leaf that is not a string are none. -/
def scanVisit (visit : Visit) : List PIIMatch :=
  match visit.leaf.value with
  | .string value => detector.scanValue visit.blockId visit.leaf.path visit.leaf.key value
  | _ => []

/-- The loop of `scan` from its state `matches`. -/
def scanFrom (collected : List PIIMatch) : List Visit → List PIIMatch
  | [] => (unique collected).take detector.maxMatches
  | visit :: visits =>
    if detector.maxMatches ≤ collected.length then collected
    else scanFrom (collected ++ detector.scanVisit visit) visits

/-- `scan` -/
def scan (candidate : Candidate) : List PIIMatch := detector.scanFrom [] candidate.visits

end Detector

/-! ### The verdict -/

/-- `FindingSeverity`, as far as `_finding` uses it. -/
inductive FindingSeverity
  | high
  | critical

/-- `PIIFindingV1`, without its identity. -/
structure PIIFinding where
  blockId : String
  jsonPointer : List Char
  piiType : PIIType
  severity : FindingSeverity
  confidence : ℕ
  action : PrivacyAction
  originalValueSha256 : String
  nonWaivable : Bool

/-- `_finding` -/
def finding (m : PIIMatch) : PIIFinding where
  blockId := m.blockId
  jsonPointer := m.jsonPointer
  piiType := m.piiType
  severity := if m.action = .block then .critical else .high
  confidence := m.confidence
  action := m.action
  originalValueSha256 := m.originalValueSha256
  nonWaivable := m.action = .block

/-- The verdict of `_privacy_result` -/
def privacyVerdict (findings : List PIIFinding) : VerificationVerdict :=
  if findings.any (·.nonWaivable) then .UNSAFE
  else if findings ≠ [] then .PARTIALLY_SUPPORTED
  else .SUPPORTED

def Detector.verdict (detector : Detector) (candidate : Candidate) : VerificationVerdict :=
  privacyVerdict ((detector.scan candidate).map finding)

end CyberControl.Privacy
