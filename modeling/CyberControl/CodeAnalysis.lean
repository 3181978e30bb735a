import CyberControl.Collections
import CyberControl.Errors
import Mathlib.Data.Nat.Log
import Mathlib.Data.Rat.Floor
import Mathlib.Data.String.Basic

/-! # Static analysis of Python code

`PythonStaticAnalyzer` (`code/analysis.py`) on the nodes of a syntax tree.  The numbers of a program are
exact here; `float` rounds them. -/

namespace CyberControl.CodeAnalysis

open Collections (sortedSet mem_sortedSet)

/-! ### Values and syntax -/

/-- What a literal stands for: no number is an infinite one, and a sequence is what a list, a tuple, a set
or a dictionary gives one by one. -/
inductive Value where
  | int (n : ℤ)
  | float (x : Option ℚ)
  | imaginary (x : Option ℚ)
  | bool (b : Bool)
  | text (s : String)
  | bytes (bs : List ℕ)
  | sequence (elements : List Value)
  | other

/-- An expression: a constant, another literal, or one that `ast.literal_eval` refuses. -/
inductive Expr where
  | constant (v : Value)
  | display (v : Value)
  | name (id : String)
  | attribute (value : Expr) (attr : String)
  | call (func : Expr) (args : List Expr)
  | other

inductive Node where
  | importNames (names : List String)
  | importFrom (module : Option String)
  | whileLoop
  | forLoop (iter : Expr)
  | constant (v : Value)
  | attribute (attr : String)
  | call (func : Expr) (args : List Expr)
  | other

/-- A parsed file: the nodes of its tree, and its assignments to one name each. -/
structure ParsedFile where
  path : String
  nodes : List Node
  assignments : List (String × Expr)

structure FileAnalysis where
  path : String
  syntaxValid : Bool
  staticAnalysisPassed : Bool
  findingCodes : List String
  dependencies : List String
  modelDetected : Bool
  simulationDetected : Bool
  timeGridSize : Option ℤ
  poles : List (ℚ × ℚ)

/-- The exceptions of the built-in functions. -/
inductive Raised where
  | valueError
  | typeError
  | overflowError

/-- What the analysis takes from Python: numbers in texts and bytes, and `numpy.roots` or its `LinAlgError`. -/
structure Platform where
  intOfText : String → Option ℤ
  floatOfText : String → Option (Option ℚ)
  intOfBytes : List ℕ → Option ℤ
  floatOfBytes : List ℕ → Option (Option ℚ)
  roots : List ℚ → Option (List (ℚ × ℚ))

/-! ### Numbers -/

/-- The integer that a `float` next to `n` is, ties to even; none when that is beyond all of them. -/
def toFloat (n : ℤ) : Option ℤ :=
  let unit := 2 ^ (Nat.log 2 n.natAbs - 52)
  let quotient := n.natAbs / unit
  let rest := n.natAbs % unit
  let rounded := if 2 * rest < unit ∨ (2 * rest = unit ∧ quotient % 2 = 0) then quotient else quotient + 1
  if 2 ^ 1024 ≤ rounded * unit then none else some (n.sign * (rounded * unit))

/-- `1e100` -/
def limit : ℤ := 10000000000000000159028911097599180468360808563945281389781327557747838772170381060813469985856815104

/-- `sys.maxsize` -/
def maxSize : ℕ := 2 ^ 63 - 1

/-- `int` -/
def toInt (py : Platform) : Value → Except Raised ℤ
  | .int n => .ok n
  | .float (some x) => .ok (if 0 ≤ x then ⌊x⌋ else ⌈x⌉)
  | .float none => .error .overflowError
  | .bool b => .ok (if b then 1 else 0)
  | .text s => (py.intOfText s).elim (.error .valueError) .ok
  | .bytes bs => (py.intOfBytes bs).elim (.error .valueError) .ok
  | _ => .error .typeError

/-- `float` -/
def floatOf (py : Platform) : Value → Except Raised (Option ℚ)
  | .int n => (toFloat n).elim (.error .overflowError) fun x => .ok (some x)
  | .float x => .ok x
  | .bool b => .ok (some (if b then 1 else 0))
  | .text s => (py.floatOfText s).elim (.error .valueError) .ok
  | .bytes bs => (py.floatOfBytes bs).elim (.error .valueError) .ok
  | _ => .error .typeError

/-- `_finite_bounded` of a number. -/
def finiteBounded : Value → Except Raised Bool
  | .int n => (toFloat n).elim (.error .overflowError) fun x => .ok (|x| ≤ limit)
  | .float x => .ok (x.any fun x => |x| ≤ (limit : ℚ))
  | .imaginary x => .ok (x.any fun x => |x| ≤ (limit : ℚ))
  | _ => .ok true

/-- `ast.literal_eval` -/
def literalEval : Expr → Except Raised Value
  | .constant v => .ok v
  | .display v => .ok v
  | _ => .error .valueError

/-- `except (ValueError, TypeError, SyntaxError): return default` -/
def caught {α : Type} (default : α) : Except Raised α → Except Raised α
  | .error .overflowError => .error .overflowError
  | .error _ => .ok default
  | .ok a => .ok a

/-! ### Calls -/

/-- `_call_name` -/
def callName : Expr → String
  | .name id => id
  | .attribute value attr =>
    let leading := callName value
    if leading = "" then attr else leading ++ "." ++ attr
  | _ => ""

def lastName (name : String) : String := (name.splitOn ".").getLastD ""

/-- The bounds of a range: `int(ast.literal_eval(arg))` for each argument. -/
def rangeBounds (py : Platform) (args : List Expr) : Except Raised (List ℤ) :=
  args.mapM fun arg => literalEval arg >>= toInt py

/-- `start, stop, step` -/
def startStopStep : List ℤ → Option (ℤ × ℤ × ℤ)
  | [stop] => some (0, stop, 1)
  | [start, stop] => some (start, stop, 1)
  | [start, stop, step] => if step = 0 then none else some (start, stop, step)
  | _ => none

/-- How often a loop over a range runs. -/
def runs : ℤ × ℤ × ℤ → ℕ
  | (start, stop, step) =>
    if 0 < step then ((stop - start + step - 1) / step).toNat else ((start - stop - step - 1) / -step).toNat

/-- `len(range(start, stop, step))` -/
def lenRange (bounds : ℤ × ℤ × ℤ) : Except Raised ℕ :=
  if maxSize < runs bounds then .error .overflowError else .ok (runs bounds)

/-- `_range_iterations` -/
def rangeIterations (py : Platform) : Expr → Except Raised (Option ℕ)
  | .call func args =>
    if callName func ≠ "range" then .ok none
    else do
      match ← caught none ((rangeBounds py args).map startStopStep) with
      | none => return none
      | some bounds => return some (← lenRange bounds)
  | _ => .ok none

/-- `_grid_size` -/
def gridSize (py : Platform) (args : List Expr) : Except Raised (Option ℤ) :=
  match args[2]? with
  | none => .ok none
  | some arg => caught none ((literalEval arg >>= toInt py).map some)

/-- `_literal_assignments` -/
def literalAssignments (file : ParsedFile) : List (String × Value) :=
  file.assignments.filterMap fun assignment => (literalEval assignment.2).toOption.map (assignment.1, ·)

/-- `[float(value) for value in denominator]` -/
def coefficients (py : Platform) : Value → Except Raised (List (Option ℚ))
  | .sequence elements => elements.mapM (floatOf py)
  | .text s => s.toList.mapM fun c => floatOf py (.text c.toString)
  | .bytes bs => .ok (bs.map fun b => some (b : ℚ))
  | _ => .error .typeError

/-- `denominator` -/
def denominatorOf (literals : List (String × Value)) : Expr → Except Raised Value
  | .name id => .ok (((literals.reverse.find? fun literal => literal.1 = id).map Prod.snd).getD .other)
  | arg => literalEval arg

/-- `_literal_denominator_poles` -/
def literalDenominatorPoles (py : Platform) (literals : List (String × Value)) (args : List Expr) :
    Except Raised (List (ℚ × ℚ)) :=
  match args[1]? with
  | none => .ok []
  | some arg => caught [] do
    let denominator ← denominatorOf literals arg
    let values ← coefficients py denominator
    if values = [] ∨ none ∈ values then return []
    return (py.roots (values.filterMap id)).getD []

/-- `_seeded_random_call` -/
def seededRandomCall (name : String) (args : List Expr) : Bool :=
  (name.endsWith "default_rng" || name.endsWith "seed") &&
    match args with
    | .constant _ :: _ => true
    | _ => false

/-! ### The analysis -/

def approvedImports : List String :=
  ["math", "numpy", "numpy.linalg", "scipy", "scipy.signal", "control", "matplotlib", "matplotlib.pyplot"]

def deniedModules : List String :=
  ["builtins", "ctypes", "importlib", "marshal", "multiprocessing", "os", "pathlib", "pickle", "requests",
    "shutil", "socket", "subprocess", "sys", "tempfile", "urllib"]

def deniedCalls : List String := ["__import__", "breakpoint", "compile", "eval", "exec", "input", "open"]

def simulationCalls : List String :=
  ["control.forced_response", "control.initial_response", "control.lsim", "control.step_response", "lsim",
    "ode", "odeint", "sim", "solve_ivp", "step"]

def modelCalls : List String :=
  ["control.StateSpace", "control.TransferFunction", "control.tf", "signal.StateSpace",
    "signal.TransferFunction", "signal.tf", "tf"]

def rootName (module : String) : String := (module.splitOn ".").headD ""

/-- `_validate_import` -/
def validateImport (module : String) : List String :=
  if rootName module ∈ deniedModules ∨ module ∈ deniedModules then ["C6_DANGEROUS_IMPORT"]
  else if module ∉ approvedImports ∧ rootName module ∉ approvedImports.map rootName then
    ["C6_UNAPPROVED_IMPORT"]
  else []

/-- What the loop over the nodes has gathered. -/
structure Gathered where
  findings : List String := []
  dependencies : List String := []
  modelDetected : Bool := false
  simulationDetected : Bool := false
  timeGridSize : Option ℤ := none
  poles : List (ℚ × ℚ) := []

structure PythonStaticAnalyzer where
  py : Platform
  maxNodes : ℕ
  maxLoopIterations : ℕ
  maxNodes_mem : 1 ≤ maxNodes ∧ maxNodes ≤ 100000
  maxLoopIterations_mem : 1 ≤ maxLoopIterations ∧ maxLoopIterations ≤ 10000000

def Gathered.find (g : Gathered) (codes : List String) : Gathered := { g with findings := g.findings ++ codes }

variable (analyzer : PythonStaticAnalyzer)

/-- The branch of the loop for a call. -/
def visitCall (literals : List (String × Value)) (g : Gathered) (func : Expr) (args : List Expr) :
    Except Raised Gathered := do
  let name := callName func
  let last := lastName name
  let dangerous := name ∈ deniedCalls ∨ last ∈ deniedCalls ∨
    (name ≠ "" ∧ deniedModules.any fun module => name = module || name.startsWith (module ++ "."))
  let isModel := name ∈ modelCalls ∨ last = "tf"
  let poles ← if isModel then literalDenominatorPoles analyzer.py literals args else .ok []
  let grid ← if last ∈ ["linspace", "arange"] then gridSize analyzer.py args else .ok none
  let random := (name.startsWith "numpy.random" || name.startsWith "np.random") &&
    ! seededRandomCall name args
  return {
    findings := g.findings ++ (if dangerous then ["C6_DANGEROUS_CALL"] else []) ++
      if random then ["C6_NONDETERMINISTIC_RANDOM"] else []
    dependencies := g.dependencies
    modelDetected := g.modelDetected || decide isModel
    simulationDetected := g.simulationDetected ||
      decide (name ∈ simulationCalls ∨ last ∈ ["step", "lsim", "solve_ivp"])
    timeGridSize := if grid = none ∨ grid = some 0 then g.timeGridSize else grid
    poles := g.poles ++ poles }

/-- The body of the loop over the nodes. -/
def visit (literals : List (String × Value)) (g : Gathered) : Node → Except Raised Gathered
  | .importNames names =>
    .ok { g.find (names.flatMap validateImport) with dependencies := g.dependencies ++ names.map rootName }
  | .importFrom module =>
    .ok { g.find (validateImport (module.getD "")) with
          dependencies := g.dependencies ++ [rootName (module.getD "")] }
  | .whileLoop => .ok (g.find ["C6_UNBOUNDED_WHILE_LOOP"])
  | .forLoop iter => do
    match ← rangeIterations analyzer.py iter with
    | none => return g.find ["C6_UNBOUNDED_FOR_LOOP"]
    | some iterations =>
      return g.find (if analyzer.maxLoopIterations < iterations then ["C6_LOOP_LIMIT"] else [])
  | .constant v => do
    let bounded ← finiteBounded v
    return g.find (if bounded then [] else ["C6_NUMERIC_BOUND_EXCEEDED"])
  | .attribute attr => .ok (g.find (if attr.startsWith "__" then ["C6_DUNDER_ACCESS_BLOCKED"] else []))
  | .call func args => visitCall analyzer literals g func args
  | .other => .ok g

/-- `PythonStaticAnalyzer.analyze` of a file that parses. -/
def analyze (file : ParsedFile) : Except Raised FileAnalysis := do
  let start : Gathered := { findings := if analyzer.maxNodes < file.nodes.length then ["C6_AST_NODE_LIMIT"] else [] }
  let g ← file.nodes.foldlM (visit analyzer (literalAssignments file)) start
  return {
    path := file.path
    syntaxValid := true
    staticAnalysisPassed := g.findings = []
    findingCodes := sortedSet g.findings
    dependencies := sortedSet (g.dependencies.filter (· ≠ ""))
    modelDetected := g.modelDetected
    simulationDetected := g.simulationDetected
    timeGridSize := g.timeGridSize
    poles := g.poles }

/-! ### Exactness -/

/-- The number of a literal is beyond the limit, or not finite. -/
def Value.Exceeds : Value → Prop
  | .int n => limit < |n|
  | .float x => ∀ q ∈ x, (limit : ℚ) < |q|
  | .imaginary x => ∀ q ∈ x, (limit : ℚ) < |q|
  | _ => False

/-- A loop over a range of literal bounds that runs more often than the analyzer allows. -/
def ExceedsLoopLimit (iter : Expr) : Prop :=
  ∃ func args ns bounds, iter = .call func args ∧ callName func = "range" ∧
    rangeBounds analyzer.py args = .ok ns ∧ startStopStep ns = some bounds ∧
      analyzer.maxLoopIterations < runs bounds

/-- The analysis returns; it reports a number or a loop exactly when the tree has one beyond its bound; and
what it says of each of them is exact. -/
structure Exact (file : ParsedFile) : Prop where
  returns : ∃ analysis, analyze analyzer file = .ok analysis ∧
    ("C6_NUMERIC_BOUND_EXCEEDED" ∈ analysis.findingCodes ↔ ∃ v, .constant v ∈ file.nodes ∧ v.Exceeds) ∧
    ("C6_LOOP_LIMIT" ∈ analysis.findingCodes ↔
      ∃ iter, .forLoop iter ∈ file.nodes ∧ ExceedsLoopLimit analyzer iter)
  literals : ∀ v, .constant v ∈ file.nodes → (finiteBounded v = .ok false ↔ v.Exceeds)
  loops : ∀ func args ns bounds, .forLoop (.call func args) ∈ file.nodes → callName func = "range" →
    args.map literalEval = ns.map (fun n => .ok (.int n)) → startStopStep ns = some bounds →
      ((∃ iterations, rangeIterations analyzer.py (.call func args) = .ok (some iterations) ∧
        analyzer.maxLoopIterations < iterations) ↔ analyzer.maxLoopIterations < runs bounds)
  extraction : ∀ func args, .call func args ∈ file.nodes → (∃ grid, gridSize analyzer.py args = .ok grid) ∧
    ∃ poles, literalDenominatorPoles analyzer.py (literalAssignments file) args = .ok poles

/-- No number of the file is too large: no integer literal beyond the limit is rounded to it or has no float
next to it; the first bound of a range without an integer, a grid size and the first coefficient without a
float are no number too large to have one; and no range is longer than a list may be. -/
structure Convertible (file : ParsedFile) : Prop where
  literals : ∀ n, .constant (.int n) ∈ file.nodes → |n| ≤ limit ∨ ∃ x, toFloat n = some x ∧ limit < |x|
  bounds : ∀ func before arg after, .forLoop (.call func (before ++ arg :: after)) ∈ file.nodes →
    callName func = "range" → (∀ b ∈ before, ∃ n, literalEval b >>= toInt analyzer.py = .ok n) →
      literalEval arg ≠ .ok (.float none)
  lengths : ∀ func args ns bounds, .forLoop (.call func args) ∈ file.nodes → callName func = "range" →
    rangeBounds analyzer.py args = .ok ns → startStopStep ns = some bounds → runs bounds ≤ maxSize
  grids : ∀ func args arg, .call func args ∈ file.nodes → args[2]? = some arg →
    literalEval arg ≠ .ok (.float none)
  denominators : ∀ func args arg before n after, .call func args ∈ file.nodes → args[1]? = some arg →
    denominatorOf (literalAssignments file) arg = .ok (.sequence (before ++ .int n :: after)) →
      (∀ v ∈ before, ∃ x, floatOf analyzer.py v = .ok x) → toFloat n ≠ none

/-! ### Roundings and conversions -/

theorem two_pow_dvd_limit : 2 ^ 280 ∣ limit.natAbs := by
  unfold limit
  decide +kernel

theorem natAbs_le_limit {n : ℤ} (h : |n| ≤ limit) : n.natAbs ≤ limit.natAbs := by
  have hlimit : (limit.natAbs : ℤ) = limit := rfl
  rw [Int.abs_eq_natAbs, ← hlimit] at h
  exact_mod_cast h

/-- The limit is a multiple of the distance between the floats at an integer up to it. -/
theorem unit_dvd_limit {n : ℤ} (h : |n| ≤ limit) : 2 ^ (Nat.log 2 n.natAbs - 52) ∣ limit.natAbs := by
  have hlog : Nat.log 2 n.natAbs ≤ Nat.log 2 limit.natAbs := Nat.log_mono_right (natAbs_le_limit h)
  have hlimit : Nat.log 2 limit.natAbs < 333 :=
    Nat.log_lt_of_lt_pow (by decide) (by unfold limit; decide +kernel)
  have hunit : 2 ^ (Nat.log 2 n.natAbs - 52) ∣ 2 ^ 280 := Nat.pow_dvd_pow 2 (by omega)
  exact hunit.trans two_pow_dvd_limit

theorem round_le {m unit k rounded : ℕ} (hle : m ≤ unit * k) (hunit : 0 < unit)
    (h : rounded = m / unit ∨ rounded = m / unit + 1 ∧ m % unit ≠ 0) : rounded * unit ≤ unit * k := by
  have hm := Nat.div_add_mod m unit
  obtain rfl | ⟨rfl, hrest⟩ := h
  · rw [mul_comm]
    omega
  · have hlt : unit * (m / unit) < unit * k := by omega
    rw [mul_comm]
    exact Nat.mul_le_mul_left unit (Nat.lt_of_mul_lt_mul_left hlt)

theorem toFloat_of_le {n : ℤ} (h : |n| ≤ limit) : ∃ x, toFloat n = some x ∧ |x| ≤ limit := by
  obtain ⟨k, hk⟩ := unit_dvd_limit h
  have hle := natAbs_le_limit h
  have hlt : limit.natAbs < 2 ^ 1024 := by unfold limit; decide +kernel
  have hlimit : (limit.natAbs : ℤ) = limit := rfl
  have hunit : 0 < 2 ^ (Nat.log 2 n.natAbs - 52) := Nat.two_pow_pos _
  simp only [toFloat]
  generalize (2 : ℕ) ^ 1024 = top at *
  generalize 2 ^ (Nat.log 2 n.natAbs - 52) = unit at *
  generalize limit.natAbs = bound at *
  generalize hrounded : (if 2 * (n.natAbs % unit) < unit ∨
    (2 * (n.natAbs % unit) = unit ∧ n.natAbs / unit % 2 = 0) then n.natAbs / unit
    else n.natAbs / unit + 1) = rounded
  have hround : rounded * unit ≤ unit * k := by
    refine round_le (hk ▸ hle) hunit ?_
    split at hrounded <;> omega
  have hnot : ¬ top ≤ rounded * unit := by omega
  refine ⟨_, if_neg hnot, ?_⟩
  have hsign : |n.sign| ≤ 1 := by
    rcases lt_trichotomy n 0 with hn | rfl | hn
    · simp [Int.sign_eq_neg_one_of_neg hn]
    · simp
    · simp [Int.sign_eq_one_of_pos hn]
  rw [← hlimit, abs_mul, abs_of_nonneg (by positivity : (0 : ℤ) ≤ rounded * unit), hk]
  calc |n.sign| * (rounded * unit : ℤ) ≤ 1 * (rounded * unit) := by gcongr
    _ ≤ ((unit * k : ℕ) : ℤ) := by rw [one_mul]; exact_mod_cast hround

variable {v : Value}

theorem finiteBounded_iff : (finiteBounded v = .ok false ↔ v.Exceeds) ↔
    ∀ n, v = .int n → |n| ≤ limit ∨ ∃ x, toFloat n = some x ∧ limit < |x| := by
  cases v with
  | int n =>
    rcases le_or_gt |n| limit with hle | hlt
    · obtain ⟨x, hx, hbound⟩ := toFloat_of_le hle
      simp [finiteBounded, Value.Exceeds, hx, hbound, hle, not_lt.mpr]
    · cases hx : toFloat n <;> simp [finiteBounded, Value.Exceeds, hx, hlt, not_le.mpr]
  | float x => cases x <;> simp [finiteBounded, Value.Exceeds]
  | imaginary x => cases x <;> simp [finiteBounded, Value.Exceeds]
  | _ => simp [finiteBounded, Value.Exceeds]

variable {analyzer} {py : Platform}

theorem caught_ok {α : Type} {default : α} {x : Except Raised α} :
    (∃ a, caught default x = .ok a) ↔ x ≠ .error .overflowError := by
  rcases x with (_ | _ | _) | a <;> simp [caught]

theorem toInt_overflow : toInt py v = .error .overflowError ↔ v = .float none := by
  cases v with
  | float x => cases x <;> simp [toInt]
  | text s => cases h : py.intOfText s <;> simp [toInt, h]
  | bytes bs => cases h : py.intOfBytes bs <;> simp [toInt, h]
  | _ => simp [toInt]

theorem floatOf_overflow :
    floatOf py v = .error .overflowError ↔ ∃ n, v = .int n ∧ toFloat n = none := by
  cases v with
  | int n => cases h : toFloat n <;> simp [floatOf, h]
  | text s => cases h : py.floatOfText s <;> simp [floatOf, h]
  | bytes bs => cases h : py.floatOfBytes bs <;> simp [floatOf, h]
  | _ => simp [floatOf]

theorem intOf_overflow {arg : Expr} :
    literalEval arg >>= toInt py = .error .overflowError ↔ literalEval arg = .ok (.float none) := by
  cases arg <;> simp [literalEval, bind, Except.bind, toInt_overflow]

variable {α β ε : Type} {l : List α}

theorem mapM_eq_error {f : α → Except ε β} {e : ε} :
    l.mapM f = .error e ↔ ∃ before a after, l = before ++ a :: after ∧
      (∀ b ∈ before, ∃ c, f b = .ok c) ∧ f a = .error e := by
  induction l with
  | nil => simp [pure, Except.pure]
  | cons a l ih =>
    have hskip : (∃ before a' after, a :: l = before ++ a' :: after ∧
        (∀ b ∈ before, ∃ c, f b = .ok c) ∧ f a' = .error e) ↔ f a = .error e ∨
          (∃ c, f a = .ok c) ∧ l.mapM f = .error e := by
      rw [ih]
      constructor
      · rintro ⟨_ | ⟨b, before⟩, a', after, heq, hok, herror⟩
        · cases heq
          exact .inl herror
        · cases heq
          exact .inr ⟨hok a (by simp), before, a', after, rfl, fun b hb => hok b (by simp [hb]), herror⟩
      · rintro (herror | ⟨hok, before, a', after, rfl, hall, herror⟩)
        · exact ⟨[], a, l, rfl, by simp, herror⟩
        · refine ⟨a :: before, a', after, rfl, fun b hb => ?_, herror⟩
          rcases List.mem_cons.mp hb with rfl | hb
          · exact hok
          · exact hall b hb
    rw [hskip, List.mapM_cons]
    cases ha : f a with
    | error e' => simp [bind, Except.bind]
    | ok b => cases hl : l.mapM f <;> simp [bind, Except.bind, pure, Except.pure]

theorem visited_of_foldlM {f : β → α → Except ε β} {b c : β}
    (h : l.foldlM f b = .ok c) : ∀ a ∈ l, ∃ b' c', f b' a = .ok c' := by
  induction l generalizing b with
  | nil => simp
  | cons a l ih =>
    rw [List.foldlM_cons] at h
    obtain ⟨b', hfirst, hrest⟩ := bind_eq_ok.mp h
    intro a' ha'
    rcases List.mem_cons.mp ha' with rfl | ha'
    · exact ⟨b, b', hfirst⟩
    · exact ih hrest a' ha'

theorem exists_foldlM {f : β → α → Except ε β}
    (h : ∀ a ∈ l, ∀ b, ∃ c, f b a = .ok c) (b : β) : ∃ c, l.foldlM f b = .ok c := by
  induction l generalizing b with
  | nil => exact ⟨b, rfl⟩
  | cons a l ih =>
    obtain ⟨b', hfirst⟩ := h a (by simp) b
    obtain ⟨c, hrest⟩ := ih (fun a' ha' => h a' (by simp [ha'])) b'
    exact ⟨c, by rw [List.foldlM_cons, hfirst]; exact hrest⟩

/-- What an element adds to a fold is in the result, and nothing else is. -/
theorem foldlM_iff {f : β → α → Except ε β} {P : β → Prop} {Q : α → Prop}
    (hstep : ∀ b a c, f b a = .ok c → (P c ↔ P b ∨ Q a)) {b c : β}
    (h : l.foldlM f b = .ok c) : P c ↔ P b ∨ ∃ a ∈ l, Q a := by
  induction l generalizing b with
  | nil =>
    cases h
    simp
  | cons a l ih =>
    rw [List.foldlM_cons] at h
    obtain ⟨b', hfirst, hrest⟩ := bind_eq_ok.mp h
    rw [ih hrest, hstep b a b' hfirst, List.exists_mem_cons_iff, or_assoc]

/-! ### What the parts of the analysis return -/

variable {args : List Expr}

theorem gridSize_ok : (∃ grid, gridSize py args = .ok grid) ↔
    ∀ arg, args[2]? = some arg → literalEval arg ≠ .ok (.float none) := by
  unfold gridSize
  cases harg : args[2]? with
  | none => simp
  | some arg =>
    simp only [caught_ok, Option.some.injEq, forall_eq', ← @intOf_overflow py, ne_eq]
    cases literalEval arg >>= toInt py <;> simp [Except.map]

theorem coefficients_overflow : coefficients py v = .error .overflowError ↔
    ∃ before n after, v = .sequence (before ++ .int n :: after) ∧
      (∀ v ∈ before, ∃ x, floatOf py v = .ok x) ∧ toFloat n = none := by
  cases v with
  | sequence elements =>
    simp only [coefficients, mapM_eq_error, floatOf_overflow, Value.sequence.injEq]
    constructor
    · rintro ⟨before, _, after, heq, hok, n, rfl, hnone⟩
      exact ⟨before, n, after, heq, hok, hnone⟩
    · rintro ⟨before, n, after, heq, hok, hnone⟩
      exact ⟨before, _, after, heq, hok, n, rfl, hnone⟩
  | text s => simp [coefficients, mapM_eq_error, floatOf_overflow]
  | _ => simp [coefficients]

variable {literals : List (String × Value)}

theorem denominatorOf_error {arg : Expr} {raised : Raised}
    (h : denominatorOf literals arg = .error raised) : raised = .valueError := by
  cases arg with
  | name id => cases h
  | _ => simp_all [denominatorOf, literalEval]

theorem poles_ok :
    (∃ poles, literalDenominatorPoles py literals args = .ok poles) ↔ ∀ arg before n after,
      args[1]? = some arg → denominatorOf literals arg = .ok (.sequence (before ++ .int n :: after)) →
        (∀ v ∈ before, ∃ x, floatOf py v = .ok x) → toFloat n ≠ none := by
  have hparts : (∃ poles, literalDenominatorPoles py literals args = .ok poles) ↔ ∀ arg,
      args[1]? = some arg → ∀ v, denominatorOf literals arg = .ok v →
        coefficients py v ≠ .error .overflowError := by
    unfold literalDenominatorPoles
    cases harg : args[1]? with
    | none => simp
    | some arg =>
      simp only [caught_ok, Option.some.injEq, forall_eq']
      cases hden : denominatorOf literals arg with
      | error raised =>
        obtain rfl := denominatorOf_error hden
        simp [bind, Except.bind]
      | ok v =>
        cases hco : coefficients py v with
        | error raised => simp [bind, Except.bind, hco]
        | ok values =>
          simp only [bind, Except.bind, hco]
          refine iff_of_true ?_ ?_
          · split <;> exact nofun
          · rintro _ hv
            cases hv
            simp [hco]
  rw [hparts]
  constructor
  · intro h arg before n after harg hden hok hnone
    exact h arg harg _ hden (coefficients_overflow.mpr ⟨before, n, after, rfl, hok, hnone⟩)
  · intro h arg harg v hden hraised
    obtain ⟨before, n, after, rfl, hok, hnone⟩ := coefficients_overflow.mp hraised
    exact h arg before n after harg hden hok hnone

theorem rangeIterations_eq {func : Expr} (hrange : callName func = "range") :
    rangeIterations py (.call func args) = caught none ((rangeBounds py args).map startStopStep) >>=
      fun found => found.elim (.ok none) fun bounds => (lenRange bounds).map some := by
  simp only [rangeIterations, hrange, ne_eq, not_true_eq_false, if_false]
  congr
  funext found
  rcases found with _ | bounds
  · rfl
  · simp only [bind, Except.bind, Option.elim]
    cases lenRange bounds <;> rfl

theorem rangeIterations_ok {func : Expr} (hrange : callName func = "range") :
    (∃ result, rangeIterations py (.call func args) = .ok result) ↔
      rangeBounds py args ≠ .error .overflowError ∧ ∀ ns, rangeBounds py args = .ok ns →
        ∀ bounds, startStopStep ns = some bounds → runs bounds ≤ maxSize := by
  rw [rangeIterations_eq hrange]
  cases rangeBounds py args with
  | error raised => cases raised <;> simp [Except.map, caught, bind, Except.bind]
  | ok ns =>
    simp only [Except.ok.injEq, forall_eq', Except.map, caught, bind, Except.bind]
    cases startStopStep ns with
    | none => simp
    | some bounds =>
      simp only [Option.elim, Option.some.injEq, forall_eq', lenRange]
      by_cases hlong : maxSize < runs bounds
      · simp [hlong]
      · simp [hlong, not_lt.mp hlong]

theorem rangeIterations_other {iter : Expr} (h : ∀ func args, iter = .call func args → callName func ≠ "range") :
    rangeIterations py iter = .ok none := by
  cases iter with
  | call func args => simp [rangeIterations, h func args rfl]
  | _ => rfl

theorem rangeIterations_some {iter : Expr} {n : ℕ} : rangeIterations py iter = .ok (some n) ↔
    ∃ func args ns bounds, iter = .call func args ∧ callName func = "range" ∧ rangeBounds py args = .ok ns ∧
      startStopStep ns = some bounds ∧ runs bounds ≤ maxSize ∧ runs bounds = n := by
  constructor
  · intro h
    by_cases hcall : ∃ func args, iter = .call func args ∧ callName func = "range"
    · obtain ⟨func, args, rfl, hrange⟩ := hcall
      rw [rangeIterations_eq hrange] at h
      obtain ⟨found, hfound, h⟩ := bind_eq_ok.mp h
      cases found with
      | none => cases h
      | some bounds =>
        cases hns : rangeBounds py args with
        | error raised => cases raised <;> simp [hns, Except.map, caught] at hfound
        | ok ns =>
          have hbounds : startStopStep ns = some bounds := by
            simpa [hns, Except.map, caught] using hfound
          rw [Option.elim_some, lenRange] at h
          split_ifs at h with hlong
          · cases h
          · cases h
            exact ⟨func, args, ns, bounds, rfl, hrange, hns, hbounds, not_lt.mp hlong, rfl⟩
    · rw [rangeIterations_other fun func args heq hrange => hcall ⟨func, args, heq, hrange⟩] at h
      cases h
  · rintro ⟨func, args, ns, bounds, rfl, hrange, hns, hbounds, hshort, rfl⟩
    rw [rangeIterations_eq hrange, hns]
    simp [Except.map, hbounds, caught, bind, Except.bind, lenRange, not_lt.mpr hshort]

theorem visit_ok {node : Node} {g : Gathered}
    (hloop : ∀ iter, node = .forLoop iter → ∃ result, rangeIterations analyzer.py iter = .ok result)
    (hconstant : ∀ v, node = .constant v → ∃ bounded, finiteBounded v = .ok bounded)
    (hcall : ∀ func args, node = .call func args → (∃ grid, gridSize analyzer.py args = .ok grid) ∧
      ∃ poles, literalDenominatorPoles analyzer.py literals args = .ok poles) :
    ∃ g', visit analyzer literals g node = .ok g' := by
  cases node with
  | forLoop iter =>
    obtain ⟨result, hresult⟩ := hloop iter rfl
    cases result <;> exact ⟨_, bind_eq_ok.mpr ⟨_, hresult, rfl⟩⟩
  | constant v =>
    obtain ⟨bounded, hbounded⟩ := hconstant v rfl
    exact ⟨_, bind_eq_ok.mpr ⟨_, hbounded, rfl⟩⟩
  | call func args =>
    obtain ⟨⟨grid, hgrid⟩, poles, hpoles⟩ := hcall func args rfl
    simp only [visit, visitCall, hgrid, hpoles]
    split_ifs <;> exact ⟨_, rfl⟩
  | _ => exact ⟨_, rfl⟩

/-! ### What is reported -/

theorem not_mem_validateImport {code module : String} (hdangerous : code ≠ "C6_DANGEROUS_IMPORT")
    (hunapproved : code ≠ "C6_UNAPPROVED_IMPORT") : code ∉ validateImport module := by
  unfold validateImport
  split_ifs <;> simp [hdangerous, hunapproved]

/-- A node is reported with the codes of numbers and of loops as the helpers judge it. -/
theorem visit_findings {g g' : Gathered} {node : Node}
    (h : visit analyzer literals g node = .ok g') : ∃ codes, g'.findings = g.findings ++ codes ∧
      ("C6_NUMERIC_BOUND_EXCEEDED" ∈ codes ↔ ∃ v, node = .constant v ∧ finiteBounded v = .ok false) ∧
      ("C6_LOOP_LIMIT" ∈ codes ↔ ∃ iter n, node = .forLoop iter ∧
        rangeIterations analyzer.py iter = .ok (some n) ∧ analyzer.maxLoopIterations < n) := by
  cases node with
  | constant v =>
    obtain ⟨bounded, hbounded, hg⟩ := bind_eq_ok.mp h
    cases hg
    refine ⟨_, rfl, ?_⟩
    cases bounded <;> simp [hbounded]
  | forLoop iter =>
    obtain ⟨found, hfound, hg⟩ := bind_eq_ok.mp h
    cases found with
    | none =>
      cases hg
      exact ⟨_, rfl, by simp, by simp [hfound]⟩
    | some n =>
      cases hg
      refine ⟨_, rfl, ?_⟩
      by_cases hlong : analyzer.maxLoopIterations < n <;> simp [hlong, hfound]
  | call func args =>
    rw [visit, visitCall] at h
    split at h
    all_goals
      obtain ⟨poles, -, h⟩ := bind_eq_ok.mp h
      dsimp only at h
      split at h
    all_goals
      obtain ⟨grid, -, h⟩ := bind_eq_ok.mp h
      cases h
      refine ⟨_, List.append_assoc .., ?_⟩
      split_ifs <;> simp
  | importNames names =>
    cases h
    refine ⟨_, rfl, ?_⟩
    simp [not_mem_validateImport]
  | importFrom module =>
    cases h
    refine ⟨_, rfl, ?_⟩
    simp [not_mem_validateImport]
  | «attribute» attr =>
    cases h
    refine ⟨_, rfl, ?_⟩
    split_ifs <;> simp
  | whileLoop =>
    cases h
    exact ⟨_, rfl, by simp⟩
  | other =>
    cases h
    exact ⟨_, (List.append_nil _).symm, by simp⟩

variable {file : ParsedFile}

theorem analyze_findings {analysis : FileAnalysis}
    (h : analyze analyzer file = .ok analysis) :
    ("C6_NUMERIC_BOUND_EXCEEDED" ∈ analysis.findingCodes ↔
      ∃ v, .constant v ∈ file.nodes ∧ finiteBounded v = .ok false) ∧
    ("C6_LOOP_LIMIT" ∈ analysis.findingCodes ↔ ∃ iter n, .forLoop iter ∈ file.nodes ∧
      rangeIterations analyzer.py iter = .ok (some n) ∧ analyzer.maxLoopIterations < n) := by
  obtain ⟨g, hg, hanalysis⟩ := bind_eq_ok.mp h
  cases hanalysis
  have hnumber := foldlM_iff (P := fun g : Gathered => "C6_NUMERIC_BOUND_EXCEEDED" ∈ g.findings)
    (Q := fun node => ∃ v, node = .constant v ∧ finiteBounded v = .ok false)
    (fun g node g' hvisit => by
      obtain ⟨codes, hcodes, hiff, -⟩ := visit_findings hvisit
      rw [hcodes, List.mem_append, hiff]) hg
  have hloop := foldlM_iff (P := fun g : Gathered => "C6_LOOP_LIMIT" ∈ g.findings)
    (Q := fun node => ∃ iter n, node = .forLoop iter ∧ rangeIterations analyzer.py iter = .ok (some n) ∧
      analyzer.maxLoopIterations < n)
    (fun g node g' hvisit => by
      obtain ⟨codes, hcodes, -, hiff⟩ := visit_findings hvisit
      rw [hcodes, List.mem_append, hiff]) hg
  have hstart (code : String) (hne : code ≠ "C6_AST_NODE_LIMIT") :
      code ∉ if analyzer.maxNodes < file.nodes.length then ["C6_AST_NODE_LIMIT"] else [] := by
    split_ifs <;> simp [hne]
  constructor
  · rw [mem_sortedSet, hnumber, or_iff_right (hstart "C6_NUMERIC_BOUND_EXCEEDED" (by decide))]
    constructor
    · rintro ⟨_, hmem, v, rfl, hv⟩
      exact ⟨v, hmem, hv⟩
    · rintro ⟨v, hmem, hv⟩
      exact ⟨_, hmem, v, rfl, hv⟩
  · rw [mem_sortedSet, hloop, or_iff_right (hstart "C6_LOOP_LIMIT" (by decide))]
    constructor
    · rintro ⟨_, hmem, iter, n, rfl, hn⟩
      exact ⟨iter, n, hmem, hn⟩
    · rintro ⟨iter, n, hmem, hn⟩
      exact ⟨_, hmem, iter, n, rfl, hn⟩

theorem finiteBounded_ok (h : ∀ n, v = .int n → |n| ≤ limit ∨ ∃ x, toFloat n = some x ∧ limit < |x|) :
    ∃ bounded, finiteBounded v = .ok bounded := by
  cases v with
  | int n =>
    obtain ⟨x, hx⟩ : ∃ x, toFloat n = some x :=
      (h n rfl).elim (fun hle => (toFloat_of_le hle).imp fun _ hx => hx.1) fun h => h.imp fun _ hx => hx.1
    exact ⟨_, by simp [finiteBounded, hx]; rfl⟩
  | _ => exact ⟨_, rfl⟩

theorem rangeBounds_ok : rangeBounds py args ≠ .error .overflowError ↔
    ∀ before arg after, args = before ++ arg :: after →
      (∀ b ∈ before, ∃ n, literalEval b >>= toInt py = .ok n) → literalEval arg ≠ .ok (.float none) := by
  unfold rangeBounds
  rw [ne_eq, mapM_eq_error]
  simp only [intOf_overflow, not_exists, not_and]

theorem loop_ok (h : Convertible analyzer file) {iter : Expr}
    (hmem : .forLoop iter ∈ file.nodes) : ∃ result, rangeIterations analyzer.py iter = .ok result := by
  by_cases hcall : ∃ func args, iter = .call func args ∧ callName func = "range"
  · obtain ⟨func, args, rfl, hrange⟩ := hcall
    refine (rangeIterations_ok hrange).mpr ⟨rangeBounds_ok.mpr ?_, ?_⟩
    · rintro before arg after rfl
      exact h.bounds func before arg after hmem hrange
    · exact fun ns hns bounds => h.lengths func args ns bounds hmem hrange hns
  · exact ⟨_, rangeIterations_other fun func args heq hrange => hcall ⟨func, args, heq, hrange⟩⟩

theorem rangeBounds_of_literals {ns : List ℤ}
    (h : args.map literalEval = ns.map fun n => .ok (.int n)) : rangeBounds py args = .ok ns := by
  unfold rangeBounds
  rw [mapM_eq_ok]
  induction args generalizing ns with
  | nil => cases ns with
    | nil => exact .nil
    | cons n ns => cases h
  | cons arg args ih => cases ns with
    | nil => cases h
    | cons n ns =>
      obtain ⟨harg, hargs⟩ := List.cons.inj h
      exact .cons (by rw [harg]; rfl) (ih hargs)

theorem Convertible.exact (h : Convertible analyzer file) : Exact analyzer file := by
  have hcalls : ∀ func args, .call func args ∈ file.nodes → (∃ grid, gridSize analyzer.py args = .ok grid) ∧
      ∃ poles, literalDenominatorPoles analyzer.py (literalAssignments file) args = .ok poles := by
    intro func args hmem
    refine ⟨gridSize_ok.mpr fun arg => h.grids func args arg hmem, poles_ok.mpr ?_⟩
    exact fun arg before n after => h.denominators func args arg before n after hmem
  have hnumbers : ∀ v, .constant v ∈ file.nodes → (finiteBounded v = .ok false ↔ v.Exceeds) := by
    intro v hmem
    apply finiteBounded_iff.mpr
    rintro n rfl
    exact h.literals n hmem
  refine ⟨?_, hnumbers, ?_, hcalls⟩
  · have hvisits : ∀ node ∈ file.nodes, ∀ g,
        ∃ g', visit analyzer (literalAssignments file) g node = .ok g' := by
      intro node hmem g
      apply visit_ok
      · rintro iter rfl
        exact loop_ok h hmem
      · rintro v rfl
        apply finiteBounded_ok
        rintro n rfl
        exact h.literals n hmem
      · rintro func args rfl
        exact hcalls func args hmem
    obtain ⟨g, hg⟩ := exists_foldlM hvisits _
    obtain ⟨analysis, hreturns⟩ : ∃ analysis, analyze analyzer file = .ok analysis :=
      ⟨_, bind_eq_ok.mpr ⟨g, hg, rfl⟩⟩
    obtain ⟨hnumber, hloop⟩ := analyze_findings hreturns
    refine ⟨analysis, hreturns, hnumber.trans ?_, hloop.trans ?_⟩
    · exact exists_congr fun v => and_congr_right (hnumbers v)
    · constructor
      · rintro ⟨iter, n, hmem, hn, hlong⟩
        obtain ⟨func, args, ns, bounds, rfl, hrange, hns, hbounds, -, rfl⟩ := rangeIterations_some.mp hn
        exact ⟨_, hmem, func, args, ns, bounds, rfl, hrange, hns, hbounds, hlong⟩
      · rintro ⟨_, hmem, func, args, ns, bounds, rfl, hrange, hns, hbounds, hlong⟩
        have hshort := h.lengths func args ns bounds hmem hrange hns hbounds
        exact ⟨_, _, hmem, rangeIterations_some.mpr
          ⟨func, args, ns, bounds, rfl, hrange, hns, hbounds, hshort, rfl⟩, hlong⟩
  · intro func args ns bounds hmem hrange hargs hbounds
    have hns : rangeBounds analyzer.py args = .ok ns := rangeBounds_of_literals hargs
    have hshort := h.lengths func args ns bounds hmem hrange hns hbounds
    have hrun : rangeIterations analyzer.py (.call func args) = .ok (some (runs bounds)) :=
      rangeIterations_some.mpr ⟨func, args, ns, bounds, rfl, hrange, hns, hbounds, hshort, rfl⟩
    simp [hrun]

theorem Exact.convertible (h : Exact analyzer file) : Convertible analyzer file := by
  have hloops : ∀ func args, .forLoop (.call func args) ∈ file.nodes → callName func = "range" →
      rangeBounds analyzer.py args ≠ .error .overflowError ∧ ∀ ns, rangeBounds analyzer.py args = .ok ns →
        ∀ bounds, startStopStep ns = some bounds → runs bounds ≤ maxSize := by
    intro func args hmem hrange
    obtain ⟨analysis, hreturns, -⟩ := h.returns
    obtain ⟨g, hg, -⟩ := bind_eq_ok.mp hreturns
    obtain ⟨g₁, g₂, hvisit⟩ := visited_of_foldlM hg _ hmem
    obtain ⟨result, hresult, -⟩ := bind_eq_ok.mp hvisit
    exact (rangeIterations_ok hrange).mp ⟨result, hresult⟩
  refine ⟨?_, ?_, ?_, ?_, ?_⟩
  · intro n hmem
    exact finiteBounded_iff.mp (h.literals (.int n) hmem) n rfl
  · intro func before arg after hmem hrange
    exact rangeBounds_ok.mp (hloops func _ hmem hrange).1 before arg after rfl
  · exact fun func args ns bounds hmem hrange hns => (hloops func args hmem hrange).2 ns hns bounds
  · exact fun func args arg hmem => gridSize_ok.mp (h.extraction func args hmem).1 arg
  · intro func args arg before n after hmem
    exact poles_ok.mp (h.extraction func args hmem).2 arg before n after

variable (analyzer)

/-- An analyzer without numbers in texts, with the default limits. -/
def defaultAnalyzer : PythonStaticAnalyzer where
  py := ⟨fun _ => none, fun _ => none, fun _ => none, fun _ => none, fun _ => none⟩
  maxNodes := 50000
  maxLoopIterations := 1000000
  maxNodes_mem := by decide
  maxLoopIterations_mem := by decide

/-- `x = 10 ** 400`, with its digits written out. -/
def largeLiteral : ParsedFile where
  path := "model.py"
  nodes := [.other, .constant (.int (10 ^ 400))]
  assignments := [("x", .constant (.int (10 ^ 400)))]

end CyberControl.CodeAnalysis
