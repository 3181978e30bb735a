import CyberControl.Json
import Mathlib.Data.List.Basic

/-! # Cut JSON texts

Where a text stands inside a string, and what that says about a text that is cut. -/

namespace CyberControl.Json

/-- Where a reader of a JSON text stands. -/
inductive Position where
  | outside
  | inside
  | escaped

/-- The position behind a character. -/
def Position.next : Position → Char → Option Position
  | .outside, c => if c = '"' then some .inside else if c.toNat < 128 then some .outside else none
  | .inside, c => some (if c = '"' then .outside else if c = '\\' then .escaped else .inside)
  | .escaped, c => if c.toNat < 128 then some .inside else none

/-- The text leads from the position `p` to the position `q`. -/
def Scans (p : Position) (text : List Char) (q : Position) : Prop :=
  text.foldlM Position.next p = some q

theorem Scans.nil (p : Position) : Scans p [] p := rfl

theorem Scans.append {p q r : Position} {text text' : List Char} (h : Scans p text q)
    (h' : Scans q text' r) : Scans p (text ++ text') r := by
  unfold Scans at h h' ⊢
  rw [List.foldlM_append, h]
  exact h'

variable {c : Char}

theorem Scans.cons {p q r : Position} {text : List Char} (h : p.next c = some q)
    (h' : Scans q text r) : Scans p (c :: text) r := by
  unfold Scans at h' ⊢
  rw [List.foldlM_cons, h]
  exact h'

theorem Scans.split {p r : Position} {text text' : List Char} (h : Scans p (text ++ text') r) :
    ∃ q, Scans p text q ∧ Scans q text' r := by
  unfold Scans at h ⊢
  rw [List.foldlM_append] at h
  exact Option.bind_eq_some_iff.mp h

/-- An ASCII text without quotes. -/
def Bare (text : List Char) : Prop := ∀ c ∈ text, c ≠ '"' ∧ c.toNat < 128

instance (text : List Char) : Decidable (Bare text) :=
  List.decidableBAll (fun c : Char => c ≠ '"' ∧ c.toNat < 128) text

theorem scans_outside {text : List Char} (h : Bare text) :
    Scans .outside text .outside := by
  induction text with
  | nil => exact .nil _
  | cons c text ih =>
    obtain ⟨hquote, hascii⟩ := h c (by simp)
    refine .cons ?_ (ih fun d hd => h d (by simp [hd]))
    rw [Position.next, if_neg hquote, if_pos hascii]

/-! ### What the parsers consume -/

/-- The parser consumed a part of the text that leads from `p` to the outside of strings. -/
def Consumed (p : Position) (cs rest : List Char) : Prop :=
  ∃ text, cs = text ++ rest ∧ Scans p text .outside

theorem Consumed.refl (cs : List Char) : Consumed .outside cs cs := ⟨[], rfl, .nil _⟩

theorem Consumed.trans {p : Position} {cs cs' rest : List Char} (h : Consumed p cs cs')
    (h' : Consumed .outside cs' rest) : Consumed p cs rest := by
  obtain ⟨text, rfl, hscan⟩ := h
  obtain ⟨text', rfl, hscan'⟩ := h'
  exact ⟨text ++ text', (List.append_assoc _ _ _).symm, hscan.append hscan'⟩

variable {cs rest : List Char}

theorem Consumed.cons {p q : Position} (hnext : p.next c = some q)
    (h : Consumed q cs rest) : Consumed p (c :: cs) rest := by
  obtain ⟨text, rfl, hscan⟩ := h
  exact ⟨c :: text, rfl, .cons hnext hscan⟩

theorem isSpace_ascii (h : isSpace c = true) : c ≠ '"' ∧ c.toNat < 128 := by
  simp only [isSpace, List.contains_iff_mem, List.mem_cons, List.not_mem_nil, or_false] at h
  rcases h with rfl | rfl | rfl | rfl <;> decide

theorem consumed_skipSpace (cs : List Char) : Consumed .outside cs (skipSpace cs) := by
  refine ⟨cs.takeWhile isSpace, List.takeWhile_append_dropWhile.symm, scans_outside fun c hc => ?_⟩
  exact isSpace_ascii (List.mem_takeWhile_imp hc)

theorem consumed_of_skipSpace {q : Position} {cs cs' rest : List Char}
    (hskip : skipSpace cs = c :: cs') (hnext : Position.outside.next c = some q)
    (h : Consumed q cs' rest) : Consumed .outside cs rest := by
  have hspace := consumed_skipSpace cs
  rw [hskip] at hspace
  exact hspace.trans (.cons hnext h)

theorem hexValue_ascii {n : ℕ} (h : hexValue c = some n) :
    c ≠ '"' ∧ c ≠ '\\' := by
  constructor <;> rintro rfl <;> revert h <;> simp [hexValue]

theorem hexValue4_eq_some {a b c d : Char} {u : ℕ} (h : hexValue4 a b c d = some u) :
    ∀ x ∈ [a, b, c, d], x ≠ '"' ∧ x ≠ '\\' := by
  simp only [hexValue4, Option.bind_eq_bind, Option.bind_eq_some_iff] at h
  obtain ⟨_, ha, _, hb, _, hc, _, hd, -⟩ := h
  simp only [List.forall_mem_cons, List.not_mem_nil, false_imp_iff, implies_true, and_true]
  exact ⟨hexValue_ascii ha, hexValue_ascii hb, hexValue_ascii hc, hexValue_ascii hd⟩

theorem unescape_ascii {n : ℕ} (h : unescape c = some n) : c.toNat < 128 := by
  unfold unescape at h
  split_ifs at h with h₁ h₂ h₃ h₄ h₅ h₆
  · rcases h₁ with rfl | rfl | rfl <;> decide
  all_goals subst_vars; decide

theorem next_inside (hquote : c ≠ '"') (hback : c ≠ '\\') :
    Position.inside.next c = some .inside := by
  rw [Position.next, if_neg hquote, if_neg hback]

theorem consUnit_eq_some {u : Option ℕ} {r : Option (List ℕ × List Char)} {us : List ℕ}
    {rest : List Char} (h : consUnit u r = some (us, rest)) :
    u ≠ none ∧ ∃ us', r = some (us', rest) := by
  simp only [consUnit, Option.bind_eq_bind, Option.bind_eq_some_iff, Prod.exists, Option.pure_def,
    Option.some.injEq, Prod.mk.injEq] at h
  obtain ⟨v, hu, us', rest', hr, -, rfl⟩ := h
  exact ⟨by simp [hu], us', hr⟩

theorem consumed_parseUnits {us : List ℕ}
    (h : parseUnits cs = some (us, rest)) : Consumed .inside cs rest := by
  fun_induction parseUnits cs generalizing us with
  | case1 rest' =>
    cases h
    exact .cons rfl (.refl _)
  | case2 a b c d rest' ih =>
    obtain ⟨hunit, us', hrest⟩ := consUnit_eq_some h
    obtain ⟨u, hu⟩ := Option.ne_none_iff_exists'.mp hunit
    have hhex := hexValue4_eq_some hu
    simp only [List.forall_mem_cons, List.not_mem_nil, false_imp_iff, implies_true, and_true] at hhex
    obtain ⟨ha, hb, hc, hd⟩ := hhex
    refine .cons (q := .escaped) rfl (.cons (q := .inside) rfl ?_)
    refine .cons (next_inside ha.1 ha.2) (.cons (next_inside hb.1 hb.2) ?_)
    exact .cons (next_inside hc.1 hc.2) (.cons (next_inside hd.1 hd.2) (ih hrest))
  | case3 e rest' _ ih =>
    obtain ⟨hunit, us', hrest⟩ := consUnit_eq_some h
    obtain ⟨u, hu⟩ := Option.ne_none_iff_exists'.mp hunit
    refine .cons (q := .escaped) rfl (.cons (q := .inside) ?_ (ih hrest))
    rw [Position.next, if_pos (unescape_ascii hu)]
  | case4 => cases h
  | case5 c rest' hquote _ hescape hcontrol ih =>
    obtain ⟨-, us', hrest⟩ := consUnit_eq_some h
    have hback : c ≠ '\\' := by
      rintro rfl
      cases rest' with
      | nil => cases hrest
      | cons e rest' => exact hescape e rest' rfl rfl
    exact .cons (next_inside hquote hback) (ih hrest)
  | case6 => cases h

theorem consumed_parseString {s : String}
    (h : parseString cs = some (s, rest)) : Consumed .inside cs rest := by
  simp only [parseString, Option.bind_eq_bind, Option.bind_eq_some_iff, Prod.exists, Option.pure_def,
    Option.some.injEq, Prod.mk.injEq] at h
  obtain ⟨us, rest', hunits, _, -, -, rfl⟩ := h
  exact consumed_parseUnits hunits

theorem consumed_parseLiteral {text cs rest : List Char} {v w : Json}
    (htext : Bare text) (h : parseLiteral text v cs = some (w, rest)) :
    Consumed .outside cs rest := by
  unfold parseLiteral at h
  split_ifs at h with hprefix
  obtain ⟨rest', rfl⟩ := List.isPrefixOf_iff_prefix.mp hprefix
  simp only [Option.some.injEq, Prod.mk.injEq, List.drop_left] at h
  exact ⟨text, by rw [h.2], scans_outside htext⟩

theorem isNumberChar_ascii (h : isNumberChar c = true) : c ≠ '"' ∧ c.toNat < 128 := by
  refine ⟨?_, lt_trans (isNumberChar_printable h).2 (by decide)⟩
  rintro rfl
  revert h
  decide

variable {v : Json}

theorem consumed_parseNumber (h : parseNumber cs = some (v, rest)) : Consumed .outside cs rest := by
  unfold parseNumber at h
  split_ifs at h with hnumber
  simp only [Option.some.injEq, Prod.mk.injEq] at h
  refine ⟨cs.takeWhile isNumberChar, ?_, scans_outside fun c hc => ?_⟩
  · rw [← h.2, List.takeWhile_append_dropWhile]
  · exact isNumberChar_ascii (List.mem_takeWhile_imp hc)

/-- What a parser of values with this fuel consumes. -/
def ConsumesValues (fuel : ℕ) : Prop :=
  ∀ {cs rest v}, parseValue fuel cs = some (v, rest) → Consumed .outside cs rest

def ConsumesElements (fuel : ℕ) : Prop :=
  ∀ {cs rest vs}, parseElements fuel cs = some (vs, rest) → Consumed .outside cs rest

def ConsumesMembers (fuel : ℕ) : Prop :=
  ∀ {cs rest ms}, parseMembers fuel cs = some (ms, rest) → Consumed .outside cs rest

variable {fuel : ℕ}

theorem ConsumesValues.succ (helements : ConsumesElements fuel)
    (hmembers : ConsumesMembers fuel) : ConsumesValues (fuel + 1) := by
  intro cs rest v h
  rw [parseValue] at h
  split at h
  · cases h
  rename_i c cs' hskip
  split_ifs at h with hn ht hf hquote hbracket hbrace
  · exact consumed_of_skipSpace hskip (by rw [hn]; rfl) (consumed_parseLiteral (by decide) h)
  · exact consumed_of_skipSpace hskip (by rw [ht]; rfl) (consumed_parseLiteral (by decide) h)
  · exact consumed_of_skipSpace hskip (by rw [hf]; rfl) (consumed_parseLiteral (by decide) h)
  · rw [Option.map_eq_some_iff] at h
    obtain ⟨⟨s, rest'⟩, hstring, hrest⟩ := h
    cases hrest
    exact consumed_of_skipSpace hskip (by rw [hquote]; rfl) (consumed_parseString hstring)
  · split at h
    · rename_i hclose
      cases h
      exact consumed_of_skipSpace hskip (by rw [hbracket]; rfl)
        (consumed_of_skipSpace hclose rfl (.refl _))
    · rw [Option.map_eq_some_iff] at h
      obtain ⟨⟨vs, rest'⟩, hparse, hrest⟩ := h
      cases hrest
      exact consumed_of_skipSpace hskip (by rw [hbracket]; rfl) (helements hparse)
  · split at h
    · rename_i hclose
      cases h
      exact consumed_of_skipSpace hskip (by rw [hbrace]; rfl)
        (consumed_of_skipSpace hclose rfl (.refl _))
    · rw [Option.map_eq_some_iff] at h
      obtain ⟨⟨ms, rest'⟩, hparse, hrest⟩ := h
      cases hrest
      exact consumed_of_skipSpace hskip (by rw [hbrace]; rfl) (hmembers hparse)
  · have hspace := consumed_skipSpace cs
    rw [hskip] at hspace
    exact hspace.trans (consumed_parseNumber h)

theorem ConsumesElements.succ (hvalues : ConsumesValues fuel)
    (helements : ConsumesElements fuel) : ConsumesElements (fuel + 1) := by
  intro cs rest vs h
  rw [parseElements] at h
  obtain ⟨⟨v, cs'⟩, hvalue, h⟩ := Option.bind_eq_some_iff.mp h
  refine (hvalues hvalue).trans ?_
  dsimp only at h
  split at h
  · rename_i hcomma
    obtain ⟨⟨vs', rest'⟩, hparse, hrest⟩ := Option.bind_eq_some_iff.mp h
    cases hrest
    exact consumed_of_skipSpace hcomma rfl (helements hparse)
  · rename_i hclose
    cases h
    exact consumed_of_skipSpace hclose rfl (.refl _)
  · cases h

theorem ConsumesMembers.succ (hvalues : ConsumesValues fuel)
    (hmembers : ConsumesMembers fuel) : ConsumesMembers (fuel + 1) := by
  intro cs rest ms h
  rw [parseMembers] at h
  split at h
  · rename_i hquote
    obtain ⟨⟨k, cs'⟩, hkey, h⟩ := Option.bind_eq_some_iff.mp h
    refine consumed_of_skipSpace hquote rfl ((consumed_parseString hkey).trans ?_)
    dsimp only at h
    split at h
    · rename_i hcolon
      obtain ⟨⟨v, cs'⟩, hvalue, h⟩ := Option.bind_eq_some_iff.mp h
      refine consumed_of_skipSpace hcolon rfl ((hvalues hvalue).trans ?_)
      dsimp only at h
      split at h
      · rename_i hcomma
        obtain ⟨⟨ms', rest'⟩, hparse, hrest⟩ := Option.bind_eq_some_iff.mp h
        cases hrest
        exact consumed_of_skipSpace hcomma rfl (hmembers hparse)
      · rename_i hclose
        cases h
        exact consumed_of_skipSpace hclose rfl (.refl _)
      · cases h
    · cases h
  · cases h

theorem consumes (fuel : ℕ) :
    ConsumesValues fuel ∧ ConsumesElements fuel ∧ ConsumesMembers fuel := by
  induction fuel with
  | zero =>
    refine ⟨fun h => ?_, fun h => ?_, fun h => ?_⟩
    · rw [parseValue] at h
      cases h
    · rw [parseElements] at h
      cases h
    · rw [parseMembers] at h
      cases h
  | succ fuel ih =>
    obtain ⟨hvalues, helements, hmembers⟩ := ih
    exact ⟨ConsumesValues.succ helements hmembers, ConsumesElements.succ hvalues helements,
      ConsumesMembers.succ hvalues hmembers⟩

/-! ### Cut texts -/

theorem scan_of_decode {cs : List Char} (h : decode cs = some v) :
    Scans .outside cs .outside := by
  unfold decode at h
  split at h
  · rename_i w rest hparse
    split_ifs at h with hrest
    have hspace := consumed_skipSpace rest
    rw [hrest] at hspace
    obtain ⟨text, htext, hscan⟩ := ((consumes _).1 hparse).trans hspace
    rw [htext, List.append_nil]
    exact hscan
  · cases h

/-- **A JSON text that is cut before a character beyond ASCII is no JSON text.** -/
theorem decode_eq_none_of_cut (hc : 128 ≤ c.toNat)
    (h : decode (cs ++ c :: rest) = some v) : decode cs = none := by
  by_contra hne
  obtain ⟨w, hw⟩ := Option.ne_none_iff_exists'.mp hne
  obtain ⟨p, hcut, hrest⟩ := (scan_of_decode h).split
  have houtside : p = .outside := Option.some.inj (hcut.symm.trans (scan_of_decode hw))
  have hquote : c ≠ '"' := by
    rintro rfl
    revert hc
    decide
  rw [houtside, Scans, List.foldlM_cons, Position.next, if_neg hquote, if_neg (by omega)] at hrest
  cases hrest

end CyberControl.Json
