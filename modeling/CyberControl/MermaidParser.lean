import CyberControl.ClaimExtraction
import CyberControl.UnicodeAscii

/-! # The Mermaid parser

`BoundedMermaidParser` (`graph/mermaid.py`): a diagram is normalized, cut into lines and read line by line
into a graph.  The patterns are matched as `re.fullmatch` matches them: where a repetition can give
characters back, the longest match comes first. -/

namespace CyberControl.Mermaid

open ClaimExtraction (collapseRuns)
open Streaming (splitLinesFrom)

-- decided by running through the text, not through all characters
local instance (priority := high) decidableAll (text : List Char) (p : Char → Prop) [DecidablePred p] :
    Decidable (∀ c ∈ text, p c) := List.decidableBAll p text

/-! ### Graphs -/

inductive GraphRelation where
  | PREREQUISITE
  | CONTAINS
  | DERIVES
  | CONTRASTS
  | APPLIES_TO
deriving DecidableEq, Repr

def GraphRelation.value : GraphRelation → String
  | .PREREQUISITE => "PREREQUISITE"
  | .CONTAINS => "CONTAINS"
  | .DERIVES => "DERIVES"
  | .CONTRASTS => "CONTRASTS"
  | .APPLIES_TO => "APPLIES_TO"

structure MermaidPolicy where
  maxChars : ℕ := 65536
  maxLines : ℕ := 4096
  maxNodes : ℕ := 4096
  maxEdges : ℕ := 16384
  maxLabelChars : ℕ := 512
  maxSubgraphDepth : ℕ := 16
  chars : 1 ≤ maxChars ∧ maxChars ≤ 65536 := by decide
  lines : 1 ≤ maxLines ∧ maxLines ≤ 16384 := by decide
  nodes : 1 ≤ maxNodes ∧ maxNodes ≤ 4096 := by decide
  edges : 1 ≤ maxEdges ∧ maxEdges ≤ 16384 := by decide
  labelChars : 1 ≤ maxLabelChars ∧ maxLabelChars ≤ 4096 := by decide
  subgraphDepth : 1 ≤ maxSubgraphDepth ∧ maxSubgraphDepth ≤ 64 := by decide

structure MermaidNodeDraft where
  nodeId : List Char
  label : List Char
  nodeType : String
  explicit : Bool
deriving DecidableEq

structure MermaidEdgeDraft where
  sourceNodeId : List Char
  targetNodeId : List Char
  relation : GraphRelation
  directed : Bool
  operator : String
  ordinal : ℕ
deriving DecidableEq

structure ParsedMermaidGraph where
  direction : String
  nodes : List MermaidNodeDraft
  edges : List MermaidEdgeDraft
  normalizedSource : List Char
  parserVersion : String
deriving DecidableEq

/-- `MermaidSyntaxError` and `MermaidSecurityError`; the second is one of the first, and both are
`ValueError`s. -/
def mermaidError (text : String) : Exn := .valueError text

/-- `f"{text} on line {line_number}"`. -/
def onLine (text : String) (lineNumber : ℕ) : Exn :=
  mermaidError (text ++ " on line " ++ String.ofList (Nat.toDigits 10 lineNumber))

/-! ### Patterns -/

def afterPrefix (word text : List Char) : Option (List Char) :=
  if word <+: text then some (text.drop word.length) else none

def isIdentifierChar (c : Char) : Bool := c.isAlphanum || c = '_' || c = '-'

/-- `_IDENTIFIER`. -/
def isIdentifier : List Char → Bool
  | [] => false
  | c :: cs => c.isAlpha && cs.length ≤ 127 && cs.all isIdentifierChar

/-- The directions of `_HEADER`. -/
def directions : List String := ["TB", "TD", "BT", "RL", "LR"]

/-- `(TB|TD|BT|RL|LR)$`, in any case. -/
def direction? (text : List Char) : Option String :=
  directions.find? fun direction => text.map Char.toUpper = direction.toList

section patterns
variable (db : Unicode.Database)

/-- What follows a word and white space. -/
def afterWord (word text : List Char) : Option (List Char) :=
  match afterPrefix word text with
  | some (c :: rest) => if db.isSpace c then some (rest.dropWhile db.isSpace) else none
  | _ => none

/-- The same for a word in any case. -/
def afterKeyword (keyword : String) (text : List Char) : Option (List Char) :=
  afterWord db keyword.toList
    ((text.take keyword.length).map Char.toLower ++ text.drop keyword.length)

/-- `_HEADER`: the direction. -/
def header? (line : List Char) : Option String :=
  ["graph", "flowchart"].findSome? fun keyword => (afterKeyword db keyword line).bind direction?

/-- `_CLASS_DEF`, `_STYLE` and `_LINK_STYLE`: a word, an argument and the style; the line ends with a
character that is not white space. -/
def styleOf (word : String) (isArgument : List Char → Bool) (line : List Char) : Option (List Char) :=
  match afterWord db word.toList line with
  | none => none
  | some rest =>
    let argument := rest.takeWhile fun c => !db.isSpace c
    let style := (rest.dropWhile fun c => !db.isSpace c).dropWhile db.isSpace
    if isArgument argument ∧ style ≠ [] then some style else none

/-- `_CLASS`: the identifiers of the nodes. -/
def classNodes (line : List Char) : Option (List (List Char)) :=
  match afterWord db "class".toList line with
  | none => none
  | some rest =>
    let nodes := (rest.takeWhile fun c => !db.isSpace c).splitOn ','
    let name := (rest.dropWhile fun c => !db.isSpace c).dropWhile db.isSpace
    if nodes.all isIdentifier ∧ isIdentifier name then some nodes else none

/-- The groups of `_EDGE`. -/
structure EdgeMatch where
  source : List Char
  operator : String
  label : Option (List Char)
  target : List Char

/-- The operators of `_EDGE`. -/
def operators : List String := ["==>", "-.->", "-->", "---"]

/-- The label of `_EDGE` and what follows it. -/
def edgeLabel : List Char → Option (List Char) × List Char
  | '|' :: rest =>
    let label := rest.takeWhile (· ≠ '|')
    match rest.dropWhile (· ≠ '|') with
    | '|' :: target =>
      if label.length ≤ 128 ∧ '\r' ∉ label ∧ '\n' ∉ label then
        (some label, target.dropWhile db.isSpace)
      else (none, '|' :: rest)
    | _ => (none, '|' :: rest)
  | rest => (none, rest)

/-- `_EDGE` after its source. -/
def edgeAfter (source rest : List Char) : Option EdgeMatch :=
  operators.findSome? fun operator =>
    (afterPrefix operator.toList (rest.dropWhile db.isSpace)).bind fun rest =>
      let (label, target) := edgeLabel db (rest.dropWhile db.isSpace)
      if isIdentifier target then some ⟨source, operator, label, target⟩ else none

/-- `_EDGE`; an identifier may end with the first characters of an operator, so shorter sources are tried
too. -/
def edgeMatch (line : List Char) : Option EdgeMatch :=
  let longest := min 128 (line.takeWhile isIdentifierChar).length
  ((List.range longest).reverse.map (· + 1)).findSome? fun length =>
    if isIdentifier (line.take length) then edgeAfter db (line.take length) (line.drop length) else none

/-- The shapes of `_NODE`. -/
def isShape (text : List Char) : Bool :=
  2 ≤ text.length && !text.contains '\n' &&
    [(some '[', some ']'), (some '(', some ')'), (some '{', some '}')].contains (text.head?, text.getLast?)

/-- `_NODE`: the identifier and the shape. -/
def nodeMatch (line : List Char) : Option (List Char × Option (List Char)) :=
  let node := line.takeWhile isIdentifierChar
  let shape := line.dropWhile isIdentifierChar
  if ¬ isIdentifier node then none
  else if shape = [] then some (node, none)
  else if isShape shape then some (node, some shape)
  else none

/-! ### Labels and relations -/

/-- `value.replace(old, new)` for an `old` of two characters. -/
def replacePair (first second new : Char) : List Char → List Char
  | c :: d :: rest =>
    if c = first ∧ d = second then new :: replacePair first second new rest
    else c :: replacePair first second new (d :: rest)
  | rest => rest

/-- The text between quotes, with its escapes replaced. -/
def unquoted (value : List Char) : List Char :=
  if 2 ≤ value.length ∧ value.head? = some '"' ∧ value.getLast? = some '"' then
    replacePair '\\' '\\' '\\' (replacePair '\\' '"' '"' value.tail.dropLast)
  else value

/-- `pairs` of `_node_label`. -/
def brackets : List (String × String × String) :=
  [("[[", "]]", "SUBROUTINE"), ("((", "))", "CIRCLE"), ("\x7b\x7b", "\x7d\x7d", "HEXAGON"),
    ("[", "]", "RECTANGLE"), ("(", ")", "ROUND"), ("\x7b", "\x7d", "DIAMOND")]

variable (policy : MermaidPolicy)

def nodeLabel (shape : Option (List Char)) (nodeId : List Char) (lineNumber : ℕ) :
    Except Exn (List Char × String) :=
  match shape with
  | none => .ok (nodeId, "IMPLICIT")
  | some shape =>
    match brackets.find? fun (opening, closing, _) =>
        opening.toList <+: shape ∧ closing.toList <:+ shape with
    | none => .error (onLine "unsupported Mermaid node shape" lineNumber)
    | some (opening, closing, nodeType) => do
      let inner := (shape.drop opening.length).take (shape.length - opening.length - closing.length)
      let value := unquoted (db.strip inner)
      ensure (value ≠ []) (onLine "empty node label" lineNumber)
      ensure (value.length ≤ policy.maxLabelChars ∧ '<' ∉ value ∧ '>' ∉ value)
        (onLine "unsafe Mermaid node label" lineNumber)
      return (value, nodeType)

/-- The values of `GraphRelation`. -/
def relations : List GraphRelation := [.PREREQUISITE, .CONTAINS, .DERIVES, .CONTRASTS, .APPLIES_TO]

def relation (operator : String) (label : Option (List Char)) : Except Exn GraphRelation :=
  let stripped := db.strip (label.getD [])
  if stripped ≠ [] then
    let collapsed := collapseRuns (fun c => !c.isAlphanum) '_' false stripped
    let normalized := ((collapsed.dropWhile (· = '_')).rdropWhile (· = '_')).map Char.toUpper
    match relations.find? fun relation => relation.value.toList = normalized with
    | some relation => .ok relation
    | none => .error (mermaidError ("unknown graph relation label: " ++ String.ofList (label.getD [])))
  else if operator = "---" then .ok .CONTRASTS
  else if operator = "==>" then .ok .DERIVES
  else .ok .PREREQUISITE

/-- `_SAFE_STYLE`. -/
def isSafeStyle (value : List Char) : Bool :=
  value ≠ [] && value.all fun c =>
    c.isAlphanum || ['_', '#', '.', ',', ':', ';', '%', '(', ')', '-', '+'].contains c || db.isSpace c

def validateStyle (value : List Char) (lineNumber : ℕ) : Except Exn Unit :=
  ensure (value.length ≤ 1024 ∧ isSafeStyle db (db.strip value) ∧
      ∀ token ∈ ["url(", "javascript:", "expression("], ¬ token.toList <:+: value.flatMap db.casefold)
    (onLine "unsafe Mermaid style" lineNumber)

def validatePlainText (value : List Char) (lineNumber : ℕ) : Except Exn Unit :=
  ensure (value.length ≤ 4096 ∧ ∀ c ∈ value, 32 ≤ c.toNat ∨ c = '\t')
    (onLine "invalid Mermaid accessibility text" lineNumber)

/-! ### Lines -/

def forbiddenTokens : List String :=
  ["<script", "javascript:", "href=", "click ", "%%\x7b", "init:", "callback", "call ", "data:"]

/-- The lines without a code fence around them. -/
def withoutFence : List (List Char) → List (List Char)
  | [] => []
  | first :: lines =>
    if first.flatMap db.casefold ∈ ["```mermaid".toList, "```".toList] then
      if lines.getLast? = some "```".toList then lines.dropLast else lines
    else first :: lines

def prepareLines (source : List Char) : Except Exn (List (List Char)) := do
  let lines := (splitLinesFrom [] source).map fun line => db.strip (db.nfkc line)
  let lines := withoutFence db ((lines.dropWhile (· = [])).rdropWhile (· = []))
  ensure (∀ line ∈ lines, ¬ "```".toList <:+: line)
    (mermaidError "unclosed or nested Mermaid code fence")
  return lines

/-- `_find_header`, from an index on. -/
def findHeader (index : ℕ) : List (List Char) → Except Exn (ℕ × String)
  | [] => .error (mermaidError "Mermaid graph header is missing")
  | line :: lines =>
    match header? db line with
    | some direction => .ok (index, direction)
    | none =>
      if line ≠ [] then .error (mermaidError "Mermaid graph must start with graph/flowchart header")
      else findHeader (index + 1) lines

/-- What the loop of `parse` keeps. -/
structure ParseState where
  nodes : List MermaidNodeDraft
  declared : List (List Char)
  edges : List MermaidEdgeDraft
  edgeKeys : List (List Char × List Char × GraphRelation × Bool)
  subgraphDepth : ℕ

/-- `nodes[draft.node_id] = draft`. -/
def setNode (nodes : List MermaidNodeDraft) (draft : MermaidNodeDraft) : List MermaidNodeDraft :=
  if ∃ node ∈ nodes, node.nodeId = draft.nodeId then
    nodes.map fun node => if node.nodeId = draft.nodeId then draft else node
  else nodes ++ [draft]

def ensureImplicitNode (nodes : List MermaidNodeDraft) (nodeId : List Char) : List MermaidNodeDraft :=
  if ∃ node ∈ nodes, node.nodeId = nodeId then nodes else nodes ++ [⟨nodeId, nodeId, "IMPLICIT", false⟩]

def addEdge (s : ParseState) (found : EdgeMatch) (lineNumber : ℕ) : Except Exn ParseState := do
  ensure (found.source ≠ found.target) (onLine "graph self edge" lineNumber)
  let relation ← relation db found.operator found.label
  let directed := decide (found.operator ≠ "---")
  let key := (found.source, found.target, relation, directed)
  ensure (key ∉ s.edgeKeys) (onLine "duplicate graph edge" lineNumber)
  let edges := s.edges ++ [⟨found.source, found.target, relation, directed, found.operator, s.edges.length⟩]
  ensure (edges.length ≤ policy.maxEdges) (mermaidError "Mermaid edge count exceeds the limit")
  return { s with
    nodes := ensureImplicitNode (ensureImplicitNode s.nodes found.source) found.target
    edges
    edgeKeys := s.edgeKeys ++ [key] }

def addNode (s : ParseState) (nodeId : List Char) (shape : Option (List Char)) (lineNumber : ℕ) :
    Except Exn ParseState := do
  ensure (nodeId ∉ s.declared) (onLine "duplicate node declaration" lineNumber)
  let (label, nodeType) ← nodeLabel db policy shape nodeId lineNumber
  ensure (∀ node ∈ s.nodes, node.nodeId = nodeId → node.explicit = false)
    (onLine "duplicate node declaration" lineNumber)
  let nodes := setNode s.nodes ⟨nodeId, label, nodeType, true⟩
  ensure (nodes.length ≤ policy.maxNodes) (mermaidError "Mermaid node count exceeds the limit")
  return { s with nodes, declared := s.declared ++ [nodeId] }

/-- `line.strip().rstrip(";").strip()`. -/
def trimLine (line : List Char) : List Char := db.strip ((db.strip line).rdropWhile (· = ';'))

def openSubgraph (s : ParseState) : Except Exn ParseState := do
  ensure (s.subgraphDepth + 1 ≤ policy.maxSubgraphDepth)
    (mermaidError "Mermaid subgraph nesting exceeds the limit")
  return { s with subgraphDepth := s.subgraphDepth + 1 }

/-- The identifier of `_CLASS_DEF` and `_STYLE`, and the ordinal of `_LINK_STYLE`. -/
def isOrdinal (text : List Char) : Bool := text ≠ [] && text.all db.isDecimal

def lineStyle (line : List Char) : Option (List Char) :=
  (styleOf db "classDef" isIdentifier line).or
    ((styleOf db "style" isIdentifier line).or (styleOf db "linkStyle" (isOrdinal db) line))

/-- A line that is no directive. -/
def addStatement (s : ParseState) (line : List Char) (lineNumber : ℕ) : Except Exn ParseState :=
  match edgeMatch db line with
  | some found => addEdge db policy s found lineNumber
  | none =>
    match nodeMatch line with
    | some (nodeId, shape) => addNode db policy s nodeId shape lineNumber
    | none => .error (onLine "unsupported Mermaid syntax" lineNumber)

/-- A line that is trimmed and not the header; `_CLASS` and the patterns with a style begin with words that
differ. -/
def addTrimmed (s : ParseState) (line : List Char) (lineNumber : ℕ) : Except Exn ParseState :=
  let lowered := line.flatMap db.casefold
  if "%%".toList <+: line then .ok s
  else if "subgraph ".toList <+: lowered then openSubgraph policy s
  else if lowered = "end".toList then do
    ensure (s.subgraphDepth ≠ 0) (onLine "unexpected subgraph end" lineNumber)
    return { s with subgraphDepth := s.subgraphDepth - 1 }
  else if "direction ".toList <+: lowered then do
    ensure ((afterKeyword db "direction" line).bind direction?).isSome
      (onLine "invalid direction" lineNumber)
    return s
  else if ∃ word ∈ ["acctitle ", "acctitle:", "accdescr ", "accdescr:"], word.toList <+: lowered then do
    validatePlainText line lineNumber
    return s
  else if (classNodes db line).isSome then .ok s
  else
    match lineStyle db line with
    | some style => do
      validateStyle db style lineNumber
      return s
    | none => do
      ensure (∀ word ∈ ["classdef ", "style ", "linkstyle "], ¬ word.toList <+: lowered)
        (onLine "unsafe Mermaid style directive" lineNumber)
      addStatement db policy s line lineNumber

/-- The body of the loop of `parse`. -/
def addLine (headerIndex : ℕ) (s : ParseState) (entry : List Char × ℕ) : Except Exn ParseState :=
  let line := trimLine db entry.1
  if line = [] ∨ entry.2 = headerIndex then .ok s
  else addTrimmed db policy s line (entry.2 + 1)

def mermaidParserVersion : String := "c4-mermaid-parser-v1"

def parse (source : List Char) : Except Exn ParsedMermaidGraph := do
  let normalized := db.strip (db.nfkc source)
  ensure (normalized ≠ []) (mermaidError "Mermaid source cannot be blank")
  ensure (normalized.length ≤ policy.maxChars) (mermaidError "Mermaid source exceeds the character limit")
  forbiddenTokens.forM fun token =>
    ensure (¬ token.toList <:+: normalized.flatMap db.casefold)
      (mermaidError ("forbidden Mermaid directive: " ++ token))
  let lines ← prepareLines db normalized
  ensure (lines.length ≤ policy.maxLines) (mermaidError "Mermaid source exceeds the line limit")
  let (headerIndex, direction) ← findHeader db 0 lines
  let s ← lines.zipIdx.foldlM (addLine db policy headerIndex) ⟨[], [], [], [], 0⟩
  ensure (s.subgraphDepth = 0) (mermaidError "Mermaid subgraph is not closed")
  ensure (s.nodes ≠ []) (mermaidError "Mermaid graph contains no nodes")
  ensure (s.nodes.length ≤ policy.maxNodes) (mermaidError "Mermaid node count exceeds the limit")
  return ⟨direction, s.nodes, s.edges, ['\n'].intercalate lines, mermaidParserVersion⟩

end patterns

end CyberControl.Mermaid
