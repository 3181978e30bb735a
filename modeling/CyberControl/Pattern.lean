import Mathlib.Data.List.Basic
import Mathlib.Tactic.Cases

/-! # Backtracking patterns

Regular expressions with single-character look-around, matched by backtracking: the alternatives
are tried from left to right and repetitions take as much as they can. -/

namespace CyberControl

/-- A position in a text: what is before it, reversed, and what follows. -/
structure TextCursor where
  before : List Char
  after : List Char

def TextCursor.text (c : TextCursor) : List Char := c.before.reverse ++ c.after

def TextCursor.start (text : List Char) : TextCursor := ⟨[], text⟩

inductive Pattern where
  | empty
  | char (p : Char → Bool)
  | seq (first second : Pattern)
  | alt (first second : Pattern)
  | star (body : Pattern)
  | notAhead (p : Char → Bool)
  | notBehind (p : Char → Bool)
  | boundary (p : Char → Bool)

namespace Pattern

/-- Repeat as often as possible, at most `n` times; a repetition takes at least one character. -/
def iterate (f : TextCursor → List TextCursor) : ℕ → TextCursor → List TextCursor
  | 0, c => [c]
  | n + 1, c =>
    ((f c).filter fun d => d.after.length < c.after.length).flatMap (iterate f n) ++ [c]

/-- The ends of the matches from a position. -/
def ends : Pattern → TextCursor → List TextCursor
  | empty, c => [c]
  | char p, c =>
    match c.after with
    | [] => []
    | x :: rest => if p x then [⟨x :: c.before, rest⟩] else []
  | seq first second, c => (first.ends c).flatMap second.ends
  | alt first second, c => first.ends c ++ second.ends c
  | star body, c => iterate body.ends c.after.length c
  | notAhead p, c => if c.after.head?.any p then [] else [c]
  | notBehind p, c => if c.before.head?.any p then [] else [c]
  | boundary p, c => if c.before.head?.any p = c.after.head?.any p then [] else [c]

/-- The pattern or nothing. -/
def option (body : Pattern) : Pattern := alt body empty

/-- One repetition at least. -/
def plus (body : Pattern) : Pattern := seq body (star body)

/-- A number of repetitions. -/
def times (body : Pattern) : ℕ → Pattern
  | 0 => empty
  | 1 => body
  | n + 1 => seq body (body.times n)

/-- At most `n` repetitions. -/
def upTo (body : Pattern) : ℕ → Pattern
  | 0 => empty
  | n + 1 => option (seq body (body.upTo n))

/-- `n` repetitions at least. -/
def atLeast (body : Pattern) (n : ℕ) : Pattern := seq (body.times n) (star body)

/-- The first of some patterns that matches. -/
def choice : List Pattern → Pattern
  | [] => empty
  | [pattern] => pattern
  | pattern :: rest => alt pattern (choice rest)

def literal (x : Char) : Pattern := char fun y => x = y

/-- The characters of a word, one after the other. -/
def word : List Char → Pattern
  | [] => empty
  | [x] => literal x
  | x :: rest => seq (literal x) (word rest)

/-- The characters between two. -/
def range (first last : Char) : Pattern := char fun x => first ≤ x ∧ x ≤ last

def searchFrom (pattern : Pattern) (before : List Char) : List Char → Option (List Char)
  | [] =>
    (pattern.ends ⟨before, []⟩).head?.map fun _ => []
  | x :: rest =>
    match pattern.ends ⟨before, x :: rest⟩ with
    | found :: _ => some ((x :: rest).take ((x :: rest).length - found.after.length))
    | [] => searchFrom pattern (x :: before) rest

/-- `re.search`: the text of the first match. -/
def search (pattern : Pattern) (text : List Char) : Option (List Char) := pattern.searchFrom [] text

/-- A match of `head` and then `body` from a position: what `body` takes, and where it ends. -/
def groupAt (head body : Pattern) (c : TextCursor) : Option (List Char × TextCursor) :=
  (head.ends c).findSome? fun d => (body.ends d).head?.map fun e =>
    (d.after.take (d.after.length - e.after.length), e)

/-- `re.finditer` from a cursor on, for a pattern that ends with a group: what the group takes. Each match
goes on after the last one; `n` is at least the number of characters that follow. -/
def findGroups (head body : Pattern) : ℕ → TextCursor → List (List Char)
  | 0, _ => []
  | n + 1, c =>
    match groupAt head body c with
    | some (group, e) => group :: findGroups head body n e
    | none =>
      match c.after with
      | [] => []
      | x :: rest => findGroups head body n ⟨x :: c.before, rest⟩

/-- Some position of the text has a match. -/
def MatchesIn (pattern : Pattern) (text : List Char) : Prop :=
  ∃ c : TextCursor, c.text = text ∧ pattern.ends c ≠ []

theorem searchFrom_isSome (pattern : Pattern) (before after : List Char) :
    (pattern.searchFrom before after).isSome ↔
      ∃ skipped rest, after = skipped ++ rest ∧
        pattern.ends ⟨skipped.reverse ++ before, rest⟩ ≠ [] := by
  induction after generalizing before with
  | nil =>
    rw [searchFrom]
    constructor
    · intro h
      refine ⟨[], [], rfl, fun hnil => ?_⟩
      rw [List.reverse_nil, List.nil_append] at hnil
      rw [hnil] at h
      cases h
    · rintro ⟨skipped, rest, hsplit, hends⟩
      obtain ⟨rfl, rfl⟩ := List.append_eq_nil_iff.mp hsplit.symm
      cases hfound : pattern.ends ⟨before, []⟩ with
      | nil => exact absurd hfound hends
      | cons found others => rfl
  | cons x after ih =>
    rw [searchFrom]
    cases hfound : pattern.ends ⟨before, x :: after⟩ with
    | cons found others =>
      refine iff_of_true rfl ⟨[], x :: after, rfl, ?_⟩
      rw [List.reverse_nil, List.nil_append, hfound]
      exact List.cons_ne_nil _ _
    | nil =>
      show (pattern.searchFrom (x :: before) after).isSome ↔ _
      rw [ih]
      constructor
      · rintro ⟨skipped, rest, rfl, hends⟩
        refine ⟨x :: skipped, rest, rfl, ?_⟩
        rw [List.reverse_cons, List.append_assoc]
        exact hends
      · rintro ⟨skipped, rest, hsplit, hends⟩
        cases skipped with
        | nil =>
          rw [List.nil_append] at hsplit
          rw [← hsplit, List.reverse_nil, List.nil_append] at hends
          exact absurd hfound hends
        | cons y skipped =>
          rw [List.cons_append, List.cons.injEq] at hsplit
          obtain ⟨rfl, hrest⟩ := hsplit
          refine ⟨skipped, rest, hrest, ?_⟩
          rw [List.reverse_cons, List.append_assoc] at hends
          exact hends

/-- **A search succeeds exactly when some position has a match.** -/
theorem search_isSome (pattern : Pattern) (text : List Char) :
    (pattern.search text).isSome ↔ pattern.MatchesIn text := by
  rw [search, searchFrom_isSome]
  constructor
  · rintro ⟨skipped, rest, rfl, hends⟩
    rw [List.append_nil] at hends
    exact ⟨⟨skipped.reverse, rest⟩, by simp [TextCursor.text], hends⟩
  · rintro ⟨c, rfl, hends⟩
    refine ⟨c.before.reverse, c.after, rfl, ?_⟩
    rw [List.reverse_reverse, List.append_nil]
    exact hends

/-- What the group takes at some position. -/
def GroupIn (head body : Pattern) (text group : List Char) : Prop :=
  ∃ c : TextCursor, c.text = text ∧ ∃ e, groupAt head body c = some (group, e)

end Pattern

end CyberControl
