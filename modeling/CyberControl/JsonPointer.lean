import CyberControl.Json
import Mathlib.Data.String.Basic

/-! # JSON pointers

The evaluation of a JSON pointer (RFC 6901), which remembers the steps that it takes into the document. -/

namespace CyberControl.JsonPointer

/-! ### Places in a document -/

/-- A step into an object or an array. -/
inductive Step where
  | member (key : String)
  | element (index : ℕ)

/-- The value at a place. -/
def follow : List Step → Json → Option Json
  | [], v => some v
  | .member key :: steps, .object members => (members.lookup key).bind (follow steps)
  | .element index :: steps, .array elements => elements[index]?.bind (follow steps)
  | _ :: _, _ => none

/-! ### Pointers -/

def escapeChar (c : Char) : List Char :=
  if c = '~' then ['~', '0'] else if c = '/' then ['~', '1'] else [c]

def escape (key : List Char) : List Char := key.flatMap escapeChar

def unescape : List Char → Option (List Char)
  | [] => some []
  | '~' :: '0' :: cs => (unescape cs).map ('~' :: ·)
  | '~' :: '1' :: cs => (unescape cs).map ('/' :: ·)
  | '~' :: _ => none
  | c :: cs => (unescape cs).map (c :: ·)

def Step.token : Step → List Char
  | .member key => escape key.toList
  | .element index => Nat.toDigits 10 index

@[simp] theorem Step.token_member (key : String) : (Step.member key).token = escape key.toList := rfl

@[simp] theorem Step.token_element (index : ℕ) : (Step.element index).token = Nat.toDigits 10 index := rfl

def pointerOf (steps : List Step) : List Char := steps.flatMap fun step => '/' :: step.token

@[simp] theorem pointerOf_nil : pointerOf [] = [] := rfl

@[simp] theorem pointerOf_cons (step : Step) (steps : List Step) :
    pointerOf (step :: steps) = '/' :: (step.token ++ pointerOf steps) := rfl

/-- The reference tokens of a pointer. -/
def tokens : List Char → Option (List (List Char))
  | [] => some []
  | c :: cs => if c = '/' then some (cs.splitOn '/') else none

/-- The number whose decimal text is the token. -/
def index (token : List Char) : Option ℕ :=
  let n := Nat.ofDigitChars 10 token 0
  if Nat.toDigits 10 n = token then some n else none

/-- The place that the tokens lead to, and the value there. -/
def evaluate : List (List Char) → Json → Option (List Step × Json)
  | [], v => some ([], v)
  | token :: tokens, .object members => do
    let key ← unescape token
    let v ← members.lookup (String.ofList key)
    let (steps, w) ← evaluate tokens v
    some (.member (String.ofList key) :: steps, w)
  | token :: tokens, .array elements => do
    let i ← index token
    let v ← elements[i]?
    let (steps, w) ← evaluate tokens v
    some (.element i :: steps, w)
  | _ :: _, _ => none

/-- The place that a pointer leads to, and the value there. -/
def resolve (pointer : List Char) (document : Json) : Option (List Step × Json) :=
  (tokens pointer).bind (evaluate · document)

/-! ### Tokens -/

theorem escape_cons (c : Char) (cs : List Char) : escape (c :: cs) = escapeChar c ++ escape cs := rfl

theorem unescape_cons {c : Char} (h : c ≠ '~') (cs : List Char) :
    unescape (c :: cs) = (unescape cs).map (c :: ·) := by
  rw [unescape]
  · exact fun _ heq => absurd heq h
  · exact fun _ heq => absurd heq h
  · exact h

theorem unescape_escape (key : List Char) : unescape (escape key) = some key := by
  induction key with
  | nil => rfl
  | cons c cs ih =>
    rw [escape_cons]
    unfold escapeChar
    split_ifs with htilde hslash
    · rw [htilde]
      show (unescape (escape cs)).map ('~' :: ·) = _
      rw [ih]
      rfl
    · rw [hslash]
      show (unescape (escape cs)).map ('/' :: ·) = _
      rw [ih]
      rfl
    · rw [List.singleton_append, unescape_cons htilde, ih]
      rfl

theorem escape_of_unescape {token key : List Char} (hslash : '/' ∉ token) (h : unescape token = some key) :
    escape key = token := by
  fun_induction unescape token generalizing key with
  | case1 =>
    cases h
    rfl
  | case2 cs ih =>
    obtain ⟨key, hkey, rfl⟩ := Option.map_eq_some_iff.mp h
    rw [escape_cons, ih (fun hmem => hslash (by simp [hmem])) hkey]
    rfl
  | case3 cs ih =>
    obtain ⟨key, hkey, rfl⟩ := Option.map_eq_some_iff.mp h
    rw [escape_cons, ih (fun hmem => hslash (by simp [hmem])) hkey]
    rfl
  | case4 => cases h
  | case5 c cs h1 h2 h3 ih =>
    obtain ⟨key, hkey, rfl⟩ := Option.map_eq_some_iff.mp h
    rw [List.mem_cons, not_or] at hslash
    rw [escape_cons, ih hslash.2 hkey, escapeChar, if_neg h3, if_neg (Ne.symm hslash.1)]
    rfl

theorem slash_notMem_escape (key : List Char) : '/' ∉ escape key := by
  intro h
  obtain ⟨c, -, hc⟩ := List.mem_flatMap.mp h
  unfold escapeChar at hc
  split_ifs at hc with htilde hslash
  · exact absurd hc (by decide)
  · exact absurd hc (by decide)
  · exact hslash (List.mem_singleton.mp hc).symm

theorem index_toDigits (i : ℕ) : index (Nat.toDigits 10 i) = some i := by
  unfold index
  rw [Nat.ofDigitChars_ten_toDigits]
  exact if_pos rfl

theorem toDigits_of_index {token : List Char} {i : ℕ} (h : index token = some i) :
    Nat.toDigits 10 i = token := by
  unfold index at h
  dsimp only at h
  split_ifs at h with htoken
  cases h
  exact htoken

theorem slash_notMem_token (step : Step) : '/' ∉ step.token := by
  cases step with
  | member key => exact slash_notMem_escape key.toList
  | element i =>
    intro h
    have hdigit := Nat.isDigit_of_mem_toDigits (by decide) (by decide) h
    exact absurd hdigit (by decide)

theorem flatMap_slash (token : List Char) (tokens : List (List Char)) :
    (token :: tokens).flatMap ('/' :: ·) = '/' :: ['/'].intercalate (token :: tokens) := by
  induction tokens generalizing token with
  | nil => simp
  | cons token' tokens ih =>
    rw [List.flatMap_cons, ih token', List.intercalate_cons_cons]
    simp

variable {ts : List (List Char)}

theorem tokens_flatMap (h : ∀ t ∈ ts, '/' ∉ t) :
    tokens (ts.flatMap ('/' :: ·)) = some ts := by
  cases ts with
  | nil => rfl
  | cons t ts =>
    rw [flatMap_slash, tokens, if_pos rfl, List.splitOn_intercalate '/' h (by simp)]

theorem slash_notMem_splitOn {cs t : List Char} (h : t ∈ cs.splitOn '/') : '/' ∉ t := by
  induction cs generalizing t with
  | nil =>
    rw [List.splitOn_nil, List.mem_singleton] at h
    rw [h]
    exact List.not_mem_nil
  | cons c cs ih =>
    rw [List.splitOn_cons_eq_if_modifyHead] at h
    split_ifs at h with hc
    · rcases List.mem_cons.mp h with rfl | h
      · exact List.not_mem_nil
      · exact ih h
    · cases hsplit : cs.splitOn '/' with
      | nil => exact absurd hsplit (List.splitOn_ne_nil _ _)
      | cons s ss =>
        rw [hsplit] at h
        rcases List.mem_cons.mp h with rfl | h
        · rw [List.mem_cons, not_or]
          refine ⟨fun heq => hc (by rw [← heq]; rfl), ih (by rw [hsplit]; exact List.mem_cons_self)⟩
        · exact ih (by rw [hsplit]; exact List.mem_cons_of_mem s h)

theorem flatMap_of_tokens {pointer : List Char} (h : tokens pointer = some ts) :
    ts.flatMap ('/' :: ·) = pointer ∧ ∀ t ∈ ts, '/' ∉ t := by
  cases pointer with
  | nil =>
    cases h
    exact ⟨rfl, fun _ ht => absurd ht List.not_mem_nil⟩
  | cons c cs =>
    rw [tokens] at h
    split_ifs at h with hc
    cases h
    refine ⟨?_, fun t ht => slash_notMem_splitOn ht⟩
    cases hsplit : cs.splitOn '/' with
    | nil => exact absurd hsplit (List.splitOn_ne_nil _ _)
    | cons s ss => rw [flatMap_slash, ← hsplit, List.intercalate_splitOn, hc]

/-! ### Evaluation -/

variable {steps : List Step}

theorem evaluate_tokens {v w : Json} (h : follow steps v = some w) :
    evaluate (steps.map Step.token) v = some (steps, w) := by
  induction steps generalizing v with
  | nil =>
    cases h
    rfl
  | cons step steps ih =>
    cases step with
    | member key =>
      cases v with
      | object members =>
        obtain ⟨u, hu, h⟩ := Option.bind_eq_some_iff.mp h
        rw [List.map_cons, Step.token, evaluate, unescape_escape]
        simp [hu, ih h]
      | _ => cases h
    | element i =>
      cases v with
      | array elements =>
        obtain ⟨u, hu, h⟩ := Option.bind_eq_some_iff.mp h
        rw [List.map_cons, Step.token, evaluate, index_toDigits]
        simp [hu, ih h]
      | _ => cases h

theorem tokens_of_evaluate (hts : ∀ t ∈ ts, '/' ∉ t) {v w : Json}
    (h : evaluate ts v = some (steps, w)) : steps.map Step.token = ts ∧ follow steps v = some w := by
  induction ts generalizing v steps with
  | nil =>
    cases h
    exact ⟨rfl, rfl⟩
  | cons t ts ih =>
    obtain ⟨ht, hts⟩ := List.forall_mem_cons.mp hts
    cases v with
    | object members =>
      rw [evaluate] at h
      obtain ⟨key, hkey, h⟩ := Option.bind_eq_some_iff.mp h
      obtain ⟨u, hu, h⟩ := Option.bind_eq_some_iff.mp h
      obtain ⟨⟨rest, x⟩, hrest, h⟩ := Option.bind_eq_some_iff.mp h
      cases h
      obtain ⟨htokens, hfollow⟩ := ih hts hrest
      refine ⟨?_, ?_⟩
      · rw [List.map_cons, htokens, Step.token, String.toList_ofList, escape_of_unescape ht hkey]
      · rw [follow, hu, Option.bind_some, hfollow]
    | array elements =>
      rw [evaluate] at h
      obtain ⟨i, hi, h⟩ := Option.bind_eq_some_iff.mp h
      obtain ⟨u, hu, h⟩ := Option.bind_eq_some_iff.mp h
      obtain ⟨⟨rest, x⟩, hrest, h⟩ := Option.bind_eq_some_iff.mp h
      cases h
      obtain ⟨htokens, hfollow⟩ := ih hts hrest
      refine ⟨?_, ?_⟩
      · rw [List.map_cons, htokens, Step.token, toDigits_of_index hi]
      · rw [follow, hu, Option.bind_some, hfollow]
    | _ => cases h

theorem pointerOf_eq (steps : List Step) : pointerOf steps = (steps.map Step.token).flatMap ('/' :: ·) := by
  unfold pointerOf
  rw [List.flatMap_map]

/-- **Evaluation.** A pointer leads to a place exactly when it is the text of the steps there. -/
theorem resolve_eq_some_iff {pointer : List Char} {document w : Json} :
    resolve pointer document = some (steps, w) ↔
      pointer = pointerOf steps ∧ follow steps document = some w := by
  unfold resolve
  rw [Option.bind_eq_some_iff]
  constructor
  · rintro ⟨ts, hts, h⟩
    obtain ⟨hpointer, hslash⟩ := flatMap_of_tokens hts
    obtain ⟨htokens, hfollow⟩ := tokens_of_evaluate hslash h
    refine ⟨?_, hfollow⟩
    rw [pointerOf_eq, htokens, hpointer]
  · rintro ⟨rfl, hfollow⟩
    refine ⟨steps.map Step.token, ?_, evaluate_tokens hfollow⟩
    rw [pointerOf_eq]
    refine tokens_flatMap fun t ht => ?_
    obtain ⟨step, -, rfl⟩ := List.mem_map.mp ht
    exact slash_notMem_token step

end CyberControl.JsonPointer
