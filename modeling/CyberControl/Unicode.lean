import Mathlib.Data.List.DropRight

/-! # Unicode text

Texts as lists of characters, over the parts of the Unicode character database that `str` and
`unicodedata` read. -/

namespace CyberControl.Unicode

instance lawfulBEq_text : LawfulBEq (List Char) := inferInstance

/-- The properties of the characters: white space, decimal digits, letters and numbers, full case folding,
full compatibility decompositions, combining classes and primary composites. -/
structure Database where
  isSpace : Char → Bool
  isDecimal : Char → Bool
  isAlnum : Char → Bool
  casefold : Char → List Char
  decomposition : Char → List Char
  combiningClass : Char → ℕ
  composite : Char → Char → Option Char
  decomposition_nonspace : ∀ c, isSpace c = false → ∃ d ∈ decomposition c, isSpace d = false
  composite_nonspace : ∀ a b c, composite a b = some c → isSpace c = false

namespace Database

variable (db : Database)

/-! ### `str.strip` -/

/-- `str.strip`. -/
def strip (text : List Char) : List Char := (text.dropWhile db.isSpace).rdropWhile db.isSpace

/-- No character of the text is anything but white space. -/
def Blank (text : List Char) : Prop := ∀ c ∈ text, db.isSpace c

instance (text : List Char) : Decidable (db.Blank text) :=
  List.decidableBAll (fun c => db.isSpace c = true) text

theorem strip_eq_nil {text : List Char} : db.strip text = [] ↔ db.Blank text := by
  have hleft : text.dropWhile db.isSpace = [] ↔ db.Blank text := List.dropWhile_eq_nil_iff
  unfold strip
  rw [List.rdropWhile_eq_nil_iff, ← hleft]
  constructor
  · intro h
    by_contra hne
    have hhead := List.head_dropWhile_not db.isSpace hne
    rw [h _ (List.head_mem hne)] at hhead
    cases hhead
  · intro h
    rw [h]
    exact fun c hc => absurd hc (by simp)

/-! ### Canonical ordering -/

/-- Put a mark before the first character that is a starter or of a higher class. -/
def insertMark (c : Char) : List Char → List Char
  | [] => [c]
  | d :: ds =>
    if db.combiningClass d = 0 ∨ db.combiningClass c ≤ db.combiningClass d then c :: d :: ds
    else d :: insertMark c ds

/-- The canonical ordering: the marks between two starters are sorted by their classes, in a stable way. -/
def reorder : List Char → List Char
  | [] => []
  | c :: cs => if db.combiningClass c = 0 then c :: reorder cs else db.insertMark c (reorder cs)

theorem mem_insertMark {c x : Char} {ds : List Char} : x ∈ db.insertMark c ds ↔ x = c ∨ x ∈ ds := by
  induction ds with
  | nil => simp [insertMark]
  | cons d ds ih =>
    unfold insertMark
    split_ifs with h
    · exact List.mem_cons
    · rw [List.mem_cons, ih, List.mem_cons]
      tauto

theorem mem_reorder {x : Char} {cs : List Char} : x ∈ db.reorder cs ↔ x ∈ cs := by
  induction cs with
  | nil => rfl
  | cons c cs ih =>
    unfold reorder
    split_ifs with h
    · rw [List.mem_cons, ih, List.mem_cons]
    · rw [mem_insertMark, ih, List.mem_cons]

/-! ### Composition -/

/-- The character is blocked from the starter by the marks between the two. -/
def blocked (marks : List Char) (c : Char) : Bool :=
  marks.getLast?.any fun last =>
    db.combiningClass last = 0 || db.combiningClass c ≤ db.combiningClass last

/-- The composition from a starter on; `marks` is what stays after it. -/
def composeFrom (starter : Char) (marks : List Char) : List Char → List Char
  | [] => starter :: marks
  | c :: cs =>
    match if db.blocked marks c then none else db.composite starter c with
    | some composed => composeFrom composed marks cs
    | none =>
      if db.combiningClass c = 0 then starter :: marks ++ composeFrom c [] cs
      else composeFrom starter (marks ++ [c]) cs

/-- The canonical composition. -/
def compose : List Char → List Char
  | [] => []
  | c :: cs => if db.combiningClass c = 0 then db.composeFrom c [] cs else c :: compose cs

/-- `unicodedata.normalize("NFKC", text)`. -/
def nfkc (text : List Char) : List Char := db.compose (db.reorder (text.flatMap db.decomposition))

theorem composeFrom_nonspace {starter : Char} {marks cs : List Char}
    (h : ¬ db.Blank (starter :: marks ++ cs)) : ¬ db.Blank (db.composeFrom starter marks cs) := by
  induction cs generalizing starter marks with
  | nil =>
    rw [List.append_nil] at h
    exact h
  | cons c cs ih =>
    unfold composeFrom
    cases hcomposed : if db.blocked marks c then none else db.composite starter c with
    | some composed =>
      have hcomposite : db.composite starter c = some composed := by
        split_ifs at hcomposed
        exact hcomposed
      refine ih fun hblank => ?_
      have hspace := hblank composed (by simp)
      rw [db.composite_nonspace _ _ _ hcomposite] at hspace
      cases hspace
    | none =>
      show ¬ db.Blank (if _ then _ else _)
      split_ifs with hstarter
      · intro hblank
        refine h fun x hx => ?_
        rw [List.mem_append] at hx
        rcases hx with hx | hx
        · exact hblank x (List.mem_append_left _ hx)
        · by_contra hspace
          refine ih (fun hrest => hspace (hrest x ?_))
            fun y hy => hblank y (List.mem_append_right _ hy)
          simpa using hx
      · refine ih fun hblank => h fun x hx => hblank x ?_
        simpa using hx

theorem compose_nonspace {cs : List Char} (h : ¬ db.Blank cs) : ¬ db.Blank (db.compose cs) := by
  induction cs with
  | nil => exact absurd (fun c hc => absurd hc (by simp)) h
  | cons c cs ih =>
    unfold compose
    split_ifs with hstarter
    · exact db.composeFrom_nonspace h
    · intro hblank
      refine ih (fun hrest => h fun x hx => ?_) fun x hx => hblank x (List.mem_cons_of_mem c hx)
      cases List.mem_cons.mp hx with
      | inl hc => exact hblank x (hc ▸ List.mem_cons_self)
      | inr hcs => exact hrest x hcs

/-- **Normalization keeps a text visible.** -/
theorem nfkc_nonspace {text : List Char} (h : ¬ db.Blank text) : ¬ db.Blank (db.nfkc text) := by
  refine db.compose_nonspace fun hblank => h fun c hc => ?_
  by_contra hspace
  obtain ⟨d, hd, hnonspace⟩ := db.decomposition_nonspace c (Bool.eq_false_iff.mpr hspace)
  have hmem : d ∈ db.reorder (text.flatMap db.decomposition) :=
    db.mem_reorder.mpr (List.mem_flatMap.mpr ⟨c, hc, hd⟩)
  rw [hblank d hmem] at hnonspace
  cases hnonspace

end Database

end CyberControl.Unicode
