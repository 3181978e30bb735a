import CyberControl.UnicodeAscii
import Mathlib.Algebra.Ring.Nat
import Mathlib.Data.List.Infix

/-! # Texts made of lines

Lines that are joined by line feeds: how such a text is folded and searched. -/

namespace CyberControl.TextLines

open Streaming Unicode

/-! ### Searching -/

section search
variable {α : Type} {separator : α} {token before after : List α}

/-- **A text without a separator is not found across it.** -/
theorem infix_around (h : separator ∉ token) :
    token <:+: before ++ separator :: after ↔ token <:+: before ∨ token <:+: after := by
  constructor
  · rintro ⟨s, t, heq⟩
    rcases List.append_eq_append_iff.mp heq with ⟨rest, rfl, -⟩ | ⟨rest, hleft, hright⟩
    · exact .inl ⟨s, rest, rfl⟩
    · cases rest with
      | nil =>
        rw [List.append_nil] at hleft
        exact .inl ⟨s, [], by rw [List.append_nil, hleft]⟩
      | cons x rest =>
        obtain ⟨rfl, rfl⟩ := List.cons.inj hright
        rcases List.append_eq_append_iff.mp hleft with ⟨middle, -, rfl⟩ | ⟨middle, rfl, hmiddle⟩
        · simp at h
        · cases middle with
          | nil =>
            rw [List.nil_append] at hmiddle
            rw [← hmiddle] at h
            simp at h
          | cons y middle =>
            obtain ⟨rfl, rfl⟩ := List.cons.inj hmiddle
            exact .inr ⟨middle, t, rfl⟩
  · rintro (hbefore | hafter)
    · exact hbefore.trans (List.prefix_append _ _).isInfix
    · exact hafter.trans ((List.suffix_cons _ _).isInfix.trans (List.suffix_append _ _).isInfix)

theorem infix_join (h : separator ∉ token) {lines : List (List α)} (hne : lines ≠ []) :
    token <:+: [separator].intercalate lines ↔ ∃ line ∈ lines, token <:+: line := by
  induction lines with
  | nil => exact absurd rfl hne
  | cons line lines ih =>
    cases lines with
    | nil => simp
    | cons next lines =>
      rw [List.intercalate_cons_cons, List.append_assoc, List.singleton_append, infix_around h,
        ih (List.cons_ne_nil _ _)]
      exact (List.exists_mem_cons_iff _ _ _).symm

theorem not_infix_of_mem {x : α} {text : List α} (htoken : x ∈ token) (htext : x ∉ text) :
    ¬ token <:+: text :=
  fun hwithin => htext (hwithin.subset htoken)

end search

/-! ### Joining -/

theorem flatMap_join {α β : Type} (f : α → List β) (separator : α) (lines : List (List α)) :
    ([separator].intercalate lines).flatMap f = (f separator).intercalate (lines.map (·.flatMap f)) := by
  induction lines with
  | nil => rfl
  | cons line lines ih =>
    cases lines with
    | nil => simp
    | cons next lines =>
      rw [List.intercalate_cons_cons, List.map_cons, List.map_cons, List.intercalate_cons_cons,
        List.flatMap_append, List.flatMap_append, ih, List.map_cons, List.flatMap_singleton]

variable {α : Type}

theorem length_join (separator : α) (line : List α) (lines : List (List α)) :
    ([separator].intercalate (line :: lines)).length
      = line.length + (lines.map fun next => next.length + 1).sum := by
  induction lines generalizing line with
  | nil => simp
  | cons next lines ih =>
    rw [List.intercalate_cons_cons, List.length_append, ih]
    simp
    omega

theorem prefix_join (separator : α) (line : List α) (lines : List (List α)) :
    line <+: [separator].intercalate (line :: lines) := by
  cases lines with
  | nil => rw [List.intercalate_singleton]
  | cons next lines =>
    rw [List.intercalate_cons_cons, List.append_assoc]
    exact List.prefix_append _ _

theorem getLast?_join {separator : α} {lines : List (List α)} {last : List α}
    (hlast : lines.getLast? = some last) (hne : last ≠ []) :
    ([separator].intercalate lines).getLast? = last.getLast? := by
  induction lines with
  | nil => cases hlast
  | cons line lines ih =>
    cases lines with
    | nil =>
      cases hlast
      simp
    | cons next lines =>
      have hrest := ih (by rw [← hlast]; rfl)
      rw [List.intercalate_cons_cons, List.getLast?_append, hrest]
      obtain ⟨x, hx⟩ := Option.ne_none_iff_exists'.mp
        (fun h => hne (List.getLast?_eq_none_iff.mp h))
      rw [hx]
      rfl

theorem mem_join {separator x : α} {lines : List (List α)}
    (h : x ∈ [separator].intercalate lines) : x = separator ∨ ∃ line ∈ lines, x ∈ line := by
  induction lines with
  | nil => cases h
  | cons line lines ih =>
    cases lines with
    | nil =>
      rw [List.intercalate_singleton] at h
      exact .inr ⟨line, List.mem_cons_self, h⟩
    | cons next lines =>
      rw [List.intercalate_cons_cons, List.mem_append, List.mem_append, List.mem_singleton] at h
      rcases h with (h | h) | h
      · exact .inr ⟨line, List.mem_cons_self, h⟩
      · exact .inl h
      · rcases ih h with h | ⟨other, hother, h⟩
        · exact .inl h
        · exact .inr ⟨other, List.mem_cons_of_mem _ hother, h⟩

end CyberControl.TextLines
