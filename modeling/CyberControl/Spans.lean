import Mathlib.Data.List.Basic
import Mathlib.Data.List.Pairwise

/-! # Spans of a text

A span is a pair of positions, the second one exclusive.  `Covers blank text first last spans` says that
the spans are nonempty, listed from left to right without overlaps, lie between `first` and `last`, and
contain every element there that is not blank. -/

namespace CyberControl.Spans

variable {α : Type*} {blank : α → Bool} {text : List α} {first middle last : ℕ}
  {spans left right : List (ℕ × ℕ)}

/-- The elements between the positions are blank. -/
def BlankBetween (blank : α → Bool) (text : List α) (first last : ℕ) : Prop :=
  ∀ i a, first ≤ i → i < last → text[i]? = some a → blank a

structure Covers (blank : α → Bool) (text : List α) (first last : ℕ) (spans : List (ℕ × ℕ)) : Prop where
  inside : ∀ span ∈ spans, first ≤ span.1 ∧ span.1 < span.2 ∧ span.2 ≤ last
  ordered : spans.Pairwise fun a b => a.2 ≤ b.1
  covered : ∀ i a, first ≤ i → i < last → text[i]? = some a → blank a = false →
    ∃ span ∈ spans, span.1 ≤ i ∧ i < span.2

theorem BlankBetween.covers (h : BlankBetween blank text first last) : Covers blank text first last [] where
  inside _ hspan := absurd hspan (by simp)
  ordered := List.Pairwise.nil
  covered i a hfirst hlast ha hblank := by
    rw [h i a hfirst hlast ha] at hblank
    cases hblank

theorem covers_singleton (h : first < last) : Covers blank text first last [(first, last)] where
  inside span hspan := by
    rw [List.mem_singleton.mp hspan]
    exact ⟨Nat.le_refl _, h, Nat.le_refl _⟩
  ordered := List.pairwise_singleton _ _
  covered i _ hfirst hlast _ _ := ⟨_, List.mem_singleton_self _, hfirst, hlast⟩

theorem Covers.append (hleft : Covers blank text first middle left)
    (hright : Covers blank text middle last right) (hfirst : first ≤ middle) (hlast : middle ≤ last) :
    Covers blank text first last (left ++ right) where
  inside span hspan := by
    rcases List.mem_append.mp hspan with hspan | hspan
    · have hinside := hleft.inside span hspan
      omega
    · have hinside := hright.inside span hspan
      omega
  ordered := by
    refine List.pairwise_append.mpr ⟨hleft.ordered, hright.ordered, fun a ha b hb => ?_⟩
    have hinside := hleft.inside a ha
    have hinside' := hright.inside b hb
    omega
  covered i a hi hi' ha hblank := by
    by_cases hmiddle : i < middle
    · obtain ⟨span, hspan, h⟩ := hleft.covered i a hi hmiddle ha hblank
      exact ⟨span, List.mem_append_left _ hspan, h⟩
    · obtain ⟨span, hspan, h⟩ := hright.covered i a (by omega) hi' ha hblank
      exact ⟨span, List.mem_append_right _ hspan, h⟩

theorem Covers.widen {inner outer : ℕ} (h : Covers blank text inner outer spans) (hfirst : first ≤ inner)
    (hlast : outer ≤ last) (hblank : BlankBetween blank text first inner)
    (hblank' : BlankBetween blank text outer last) : Covers blank text first last spans where
  inside span hspan := by
    have hinside := h.inside span hspan
    omega
  ordered := h.ordered
  covered i a hi hi' ha hvisible := by
    by_cases hinner : i < inner
    · rw [hblank i a hi hinner ha] at hvisible
      cases hvisible
    · by_cases houter : i < outer
      · exact h.covered i a (by omega) houter ha hvisible
      · rw [hblank' i a (by omega) hi' ha] at hvisible
        cases hvisible

theorem Covers.unique (h : Covers blank text first last spans) {a b : ℕ × ℕ} (ha : a ∈ spans)
    (hb : b ∈ spans) {i : ℕ} (hia : a.1 ≤ i ∧ i < a.2) (hib : b.1 ≤ i ∧ i < b.2) : a = b := by
  have hforward : spans.Pairwise fun a b =>
      (a.1 ≤ i ∧ i < a.2) → (b.1 ≤ i ∧ i < b.2) → a = b := by
    refine h.ordered.imp fun {a b} hle hia hib => ?_
    omega
  have hbackward : spans.Pairwise (flip fun a b =>
      (a.1 ≤ i ∧ i < a.2) → (b.1 ≤ i ∧ i < b.2) → a = b) := by
    refine h.ordered.imp fun {a b} hle hib hia => ?_
    omega
  exact List.Pairwise.forall_of_forall_of_flip (fun _ _ _ _ => rfl) hforward hbackward ha hb hia hib

theorem Covers.nodup (h : Covers blank text first last spans) : spans.Nodup := by
  refine List.nodup_iff_pairwise_ne.mpr ?_
  refine List.Pairwise.imp_of_mem (fun {a b} ha hb hle => ?_) h.ordered
  rintro rfl
  have hinside := h.inside a ha
  omega

end CyberControl.Spans
