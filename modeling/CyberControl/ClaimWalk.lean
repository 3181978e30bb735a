import CyberControl.ClaimSegments

/-! # The strings of a content

`_walk_strings` (`verification/claim_extraction.py`), the loop over an explicit stack that yields the
strings of a block with their JSON pointers. -/

namespace CyberControl.ClaimExtraction

section walk
variable (db : Unicode.Database)

/-- `ClaimExtractionError`, which is a `ValueError`. -/
def claimExtractionError (text : String) : Exn := .valueError text

/-- `value.replace(old, new)` for one character. -/
def replaceChar (old : Char) (new value : List Char) : List Char :=
  value.flatMap fun c => if c = old then new else [c]

def escapePointer (value : List Char) : List Char :=
  replaceChar '/' ['~', '1'] (replaceChar '~' ['~', '0'] value)

structure LeafText where
  jsonPointer : List Char
  keyHint : List Char
  value : List Char

structure Entry where
  pointer : List Char
  keyHint : List Char
  value : Json
  depth : ℕ

/-- `f"{pointer}/{escaped}"`. -/
def memberPointer (pointer key : List Char) : List Char := pointer ++ '/' :: escapePointer key

/-- `f"{pointer}/{index}"`. -/
def elementPointer (pointer : List Char) (index : ℕ) : List Char := pointer ++ '/' :: Nat.toDigits 10 index

/-- What is pushed for a dictionary, from its least key on, and for a list, from its first element on. -/
def Entry.children (entry : Entry) : List Entry :=
  match entry.value with
  | .object members =>
    (members.insertionSort fun a b => a.1 ≤ b.1).map fun member =>
      ⟨memberPointer entry.pointer member.1.toList, member.1.toList, member.2, entry.depth + 1⟩
  | .array elements =>
    elements.mapIdx fun index element =>
      ⟨elementPointer entry.pointer index, entry.keyHint, element, entry.depth + 1⟩
  | _ => []

def Entry.string? (entry : Entry) : Option (List Char) :=
  match entry.value with
  | .string s => some s.toList
  | _ => none

/-- What is yielded for an entry with a string. -/
def Entry.leaf (entry : Entry) (value : List Char) : LeafText :=
  ⟨if entry.pointer = [] then ['/'] else entry.pointer, entry.keyHint, value⟩

/-- The loop of `_walk_strings` with the nodes that may still be visited; the head of the list is the top of
the stack. -/
def walkFrom (maxContentDepth : ℕ) : ℕ → List Entry → Except Exn (List LeafText)
  | _, [] => .ok []
  | 0, _ :: _ => .error (claimExtractionError "candidate content exceeds the node safety limit")
  | remaining + 1, entry :: stack =>
    if maxContentDepth < entry.depth then
      .error (claimExtractionError "candidate content exceeds the nesting safety limit")
    else
      match entry.string? with
      | some value => do
        let leaves ← walkFrom maxContentDepth remaining stack
        if db.strip value = [] then return leaves else return entry.leaf value :: leaves
      | none => walkFrom maxContentDepth remaining (entry.children ++ stack)

def walkStrings (policy : ClaimExtractionPolicy) (content : Json) : Except Exn (List LeafText) :=
  walkFrom db policy.maxContentDepth policy.maxContentNodes [⟨[], "content".toList, content, 0⟩]

end walk

/-! ### The strings of a value -/

/-- The string leaves of a value, with their pointers and the keys that they are found under. -/
inductive StringLeaf : List Char → List Char → Json → LeafText → Prop
  | string {pointer keyHint : List Char} {s : String} :
      StringLeaf pointer keyHint (.string s)
        ⟨if pointer = [] then ['/'] else pointer, keyHint, s.toList⟩
  | member {pointer keyHint : List Char} {members : List (String × Json)} {member : String × Json}
      {leaf : LeafText} (hmember : member ∈ members)
      (hleaf : StringLeaf (memberPointer pointer member.1.toList) member.1.toList member.2 leaf) :
      StringLeaf pointer keyHint (.object members) leaf
  | element {pointer keyHint : List Char} {elements : List Json} {index : ℕ} {element : Json}
      {leaf : LeafText} (helement : elements[index]? = some element)
      (hleaf : StringLeaf (elementPointer pointer index) keyHint element leaf) :
      StringLeaf pointer keyHint (.array elements) leaf

/-- The keys of every dictionary in the value are distinct. -/
inductive UniqueKeys : Json → Prop
  | null : UniqueKeys .null
  | bool {b : Bool} : UniqueKeys (.bool b)
  | number {n : NumberText} : UniqueKeys (.number n)
  | nonFinite : UniqueKeys .nonFinite
  | string {s : String} : UniqueKeys (.string s)
  | array {elements : List Json} (helements : ∀ element ∈ elements, UniqueKeys element) :
      UniqueKeys (.array elements)
  | object {members : List (String × Json)} (hkeys : (members.map Prod.fst).Nodup)
      (hmembers : ∀ member ∈ members, UniqueKeys member.2) : UniqueKeys (.object members)

section leaves
variable {db : Unicode.Database} {maxContentDepth remaining : ℕ} {stack : List Entry} {entry : Entry}
  {leaves : List LeafText} {leaf : LeafText}

/-- A leaf of an entry is the string of the entry, or it is found below one of the children. -/
theorem stringLeaf_iff : StringLeaf entry.pointer entry.keyHint entry.value leaf ↔
    (∃ value, entry.string? = some value ∧ leaf = entry.leaf value) ∨
      ∃ child ∈ entry.children, StringLeaf child.pointer child.keyHint child.value leaf := by
  obtain ⟨pointer, keyHint, value, depth⟩ := entry
  constructor
  · intro h
    cases h with
    | string => exact .inl ⟨_, rfl, rfl⟩
    | member hmember hleaf =>
      refine .inr ⟨_, List.mem_map.mpr ⟨_, ?_, rfl⟩, hleaf⟩
      exact (List.mem_insertionSort _).mpr hmember
    | @element _ _ _ index element _ helement hleaf =>
      refine .inr ⟨⟨elementPointer pointer index, keyHint, element, depth + 1⟩, ?_, hleaf⟩
      obtain ⟨h, rfl⟩ := List.getElem?_eq_some_iff.mp helement
      exact List.mem_mapIdx.mpr ⟨index, h, rfl⟩
  · rintro (⟨text, htext, rfl⟩ | ⟨child, hchild, hleaf⟩)
    · cases value with
      | string s =>
        cases htext
        exact .string
      | _ => cases htext
    · cases value with
      | object members =>
        obtain ⟨member, hmember, rfl⟩ := List.mem_map.mp hchild
        exact .member ((List.mem_insertionSort _).mp hmember) hleaf
      | array elements =>
        obtain ⟨index, hindex, rfl⟩ := List.mem_mapIdx.mp hchild
        exact .element (List.getElem?_eq_getElem hindex) hleaf
      | _ => cases hchild

theorem children_of_string {value : List Char} (h : entry.string? = some value) : entry.children = [] := by
  obtain ⟨pointer, keyHint, v, depth⟩ := entry
  cases v with
  | string s => rfl
  | _ => cases h

theorem mem_walkFrom (h : walkFrom db maxContentDepth remaining stack = .ok leaves) :
    leaf ∈ leaves ↔ ¬ db.Blank leaf.value ∧
      ∃ entry ∈ stack, StringLeaf entry.pointer entry.keyHint entry.value leaf := by
  induction remaining generalizing stack leaves with
  | zero =>
    cases stack with
    | nil =>
      cases h
      simp
    | cons entry stack => cases h
  | succ remaining ih =>
    cases stack with
    | nil =>
      cases h
      simp
    | cons entry stack =>
      rw [walkFrom] at h
      split_ifs at h with hdepth
      rw [List.exists_mem_cons_iff, stringLeaf_iff]
      cases hstring : entry.string? with
      | some value =>
        simp only [hstring] at h
        obtain ⟨later, hlater, h⟩ := bind_eq_ok.mp h
        rw [children_of_string hstring]
        simp only [Option.some.injEq, exists_eq_left', List.not_mem_nil, false_and, exists_false,
          or_false]
        rw [and_or_left, ← ih hlater]
        split_ifs at h with hblank
        · cases h
          refine (or_iff_right ?_).symm
          rintro ⟨hvisible, rfl⟩
          exact hvisible (db.strip_eq_nil.mp hblank)
        · cases h
          rw [List.mem_cons]
          refine or_congr_left ⟨fun hleaf => ⟨?_, hleaf⟩, fun hleaf => hleaf.2⟩
          rw [hleaf]
          exact fun hall => hblank (db.strip_eq_nil.mpr hall)
      | none =>
        simp only [hstring] at h
        rw [ih h]
        simp only [reduceCtorEq, false_and, exists_false, false_or]
        refine and_congr_right fun _ => ?_
        simp only [List.mem_append, or_and_right, exists_or]

/-! ### Pointers -/

theorem replaceChar_cons (old : Char) (new : List Char) (c : Char) (cs : List Char) :
    replaceChar old new (c :: cs) = (if c = old then new else [c]) ++ replaceChar old new cs := rfl

/-- One character of an escaped key. -/
def escapedChar (c : Char) : List Char :=
  if c = '~' then ['~', '0'] else if c = '/' then ['~', '1'] else [c]

theorem escapePointer_cons (c : Char) (cs : List Char) :
    escapePointer (c :: cs) = escapedChar c ++ escapePointer cs := by
  unfold escapePointer escapedChar
  rw [replaceChar_cons]
  split_ifs with htilde hslash
  · rfl
  · rw [List.singleton_append, replaceChar_cons, if_pos hslash]
  · rw [List.singleton_append, replaceChar_cons, if_neg hslash]

theorem slash_notMem_escapePointer (key : List Char) : '/' ∉ escapePointer key := by
  induction key with
  | nil => exact List.not_mem_nil
  | cons c cs ih =>
    rw [escapePointer_cons, List.mem_append, not_or]
    refine ⟨?_, ih⟩
    unfold escapedChar
    split_ifs with htilde hslash
    · decide
    · decide
    · rw [List.mem_singleton]
      exact fun h => hslash h.symm

theorem escapePointer_injective {key key' : List Char} (h : escapePointer key = escapePointer key') :
    key = key' := by
  induction key generalizing key' with
  | nil =>
    cases key' with
    | nil => rfl
    | cons c' cs' =>
      rw [escapePointer_cons] at h
      have hlength := congrArg List.length h
      unfold escapedChar at hlength
      split_ifs at hlength <;> simp [escapePointer, replaceChar] at hlength
  | cons c cs ih =>
    cases key' with
    | nil =>
      rw [escapePointer_cons] at h
      have hlength := congrArg List.length h
      unfold escapedChar at hlength
      split_ifs at hlength <;> simp [escapePointer, replaceChar] at hlength
    | cons c' cs' =>
      rw [escapePointer_cons, escapePointer_cons] at h
      unfold escapedChar at h
      split_ifs at h with h₁ h₂ h₃ h₄ h₅ h₆ <;>
        simp only [List.cons_append, List.nil_append, List.cons.injEq, Char.reduceEq, true_and,
          false_and, and_false] at h
      · rw [h₁, h₂, ih h]
      · exact absurd h.1.symm h₂
      · rw [h₄, h₆, ih h]
      · exact absurd h.1.symm ‹_›
      · exact absurd h.1 h₁
      · exact absurd h.1 h₁
      · rw [h.1, ih h.2]

/-- Neither of the pointers leads to the other or below it. -/
def Apart (p q : List Char) : Prop := ¬ p ++ ['/'] <+: q ++ ['/'] ∧ ¬ q ++ ['/'] <+: p ++ ['/']

theorem Apart.symm {p q : List Char} (h : Apart p q) : Apart q p := ⟨h.2, h.1⟩

theorem Apart.ne {p q : List Char} (h : Apart p q) : p ≠ q := by
  rintro rfl
  exact h.1 List.prefix_rfl

theorem Apart.extend {p q r : List Char} (h : Apart p q) (hr : q ++ ['/'] <+: r ++ ['/']) : Apart p r := by
  refine ⟨fun hp => ?_, fun hr' => h.2 (hr.trans hr')⟩
  rcases List.prefix_or_prefix_of_prefix hp hr with hpq | hqp
  · exact h.1 hpq
  · exact h.2 hqp

theorem prefix_child (pointer key : List Char) : pointer ++ ['/'] <+: (pointer ++ '/' :: key) ++ ['/'] := by
  refine ⟨key ++ ['/'], ?_⟩
  simp

theorem eq_of_slash_below {key key' : List Char} (hkey : '/' ∉ key) (hkey' : '/' ∉ key')
    (h : key ++ ['/'] <+: key' ++ ['/']) : key = key' := by
  induction key generalizing key' with
  | nil =>
    cases key' with
    | nil => rfl
    | cons c' cs' =>
      rw [List.nil_append, List.cons_append, List.cons_prefix_cons] at h
      exact absurd (h.1 ▸ List.mem_cons_self) hkey'
  | cons c cs ih =>
    cases key' with
    | nil =>
      rw [List.nil_append, List.cons_append, List.cons_prefix_cons] at h
      exact absurd (h.1 ▸ List.mem_cons_self) hkey
    | cons c' cs' =>
      rw [List.cons_append, List.cons_append, List.cons_prefix_cons] at h
      rw [List.mem_cons, not_or] at hkey hkey'
      rw [h.1, ih hkey.2 hkey'.2 h.2]

theorem apart_children {pointer key key' : List Char} (hkey : '/' ∉ key) (hkey' : '/' ∉ key')
    (hne : key ≠ key') : Apart (pointer ++ '/' :: key) (pointer ++ '/' :: key') := by
  have hextends : ∀ {a b : List Char}, (pointer ++ '/' :: a) ++ ['/'] <+: (pointer ++ '/' :: b) ++ ['/'] →
      a ++ ['/'] <+: b ++ ['/'] := by
    intro a b h
    rw [List.append_assoc, List.append_assoc, List.prefix_append_right_inj, List.cons_append,
      List.cons_append, List.cons_prefix_cons] at h
    exact h.2
  exact ⟨fun h => hne (eq_of_slash_below hkey hkey' (hextends h)),
    fun h => hne (eq_of_slash_below hkey' hkey (hextends h)).symm⟩

theorem slash_notMem_toDigits (index : ℕ) : '/' ∉ Nat.toDigits 10 index := by
  intro h
  have hdigit := Nat.isDigit_of_mem_toDigits (by decide) (by decide) h
  exact absurd hdigit (by decide)

theorem toDigits_injective {m n : ℕ} (h : Nat.toDigits 10 m = Nat.toDigits 10 n) : m = n := by
  rw [← Nat.ofDigitChars_ten_toDigits (n := m), h, Nat.ofDigitChars_ten_toDigits]

theorem prefix_children {child : Entry} (h : child ∈ entry.children) :
    entry.pointer ++ ['/'] <+: child.pointer ++ ['/'] := by
  obtain ⟨pointer, keyHint, value, depth⟩ := entry
  cases value with
  | object members =>
    obtain ⟨member, -, rfl⟩ := List.mem_map.mp h
    exact prefix_child pointer _
  | array elements =>
    obtain ⟨index, hindex, rfl⟩ := List.mem_mapIdx.mp h
    exact prefix_child pointer _
  | _ => cases h

theorem children_apart (h : UniqueKeys entry.value) :
    entry.children.Pairwise fun a b => Apart a.pointer b.pointer := by
  obtain ⟨pointer, keyHint, value, depth⟩ := entry
  cases h with
  | @object members hkeys hmembers =>
    show (List.map _ _).Pairwise _
    rw [List.pairwise_map]
    have hsorted : ((members.insertionSort fun a b => a.1 ≤ b.1).map Prod.fst).Nodup :=
      ((List.perm_insertionSort _ members).map Prod.fst).nodup_iff.mpr hkeys
    rw [List.nodup_iff_pairwise_ne, List.pairwise_map] at hsorted
    refine hsorted.imp fun {a b} hne => ?_
    refine apart_children (slash_notMem_escapePointer _) (slash_notMem_escapePointer _) fun heq => hne ?_
    exact String.toList_inj.mp (escapePointer_injective heq)
  | @array elements helements =>
    refine List.pairwise_iff_getElem.mpr fun i j hi hj hlt => ?_
    simp only [Entry.children, List.getElem_mapIdx]
    refine apart_children (slash_notMem_toDigits i) (slash_notMem_toDigits j) fun heq => ?_
    exact absurd (toDigits_injective heq) (Nat.ne_of_lt hlt)
  | _ => exact List.Pairwise.nil

theorem children_uniqueKeys (h : UniqueKeys entry.value) :
    ∀ child ∈ entry.children, UniqueKeys child.value := by
  obtain ⟨pointer, keyHint, value, depth⟩ := entry
  intro child hchild
  cases h with
  | object hkeys hmembers =>
    obtain ⟨member, hmember, rfl⟩ := List.mem_map.mp hchild
    exact hmembers member ((List.mem_insertionSort _).mp hmember)
  | array helements =>
    obtain ⟨index, hindex, rfl⟩ := List.mem_mapIdx.mp hchild
    exact helements _ (List.getElem_mem _)
  | _ => cases hchild

theorem prefix_leaf (value : List Char) :
    entry.pointer ++ ['/'] <+: (entry.leaf value).jsonPointer ++ ['/'] := by
  unfold Entry.leaf
  split_ifs with h
  · rw [h]
    exact ⟨['/'], rfl⟩
  · exact List.prefix_rfl

theorem stringLeaf_below {pointer keyHint : List Char} {value : Json}
    (h : StringLeaf pointer keyHint value leaf) : pointer ++ ['/'] <+: leaf.jsonPointer ++ ['/'] := by
  induction h with
  | @string pointer keyHint s => exact @prefix_leaf ⟨pointer, keyHint, .string s, 0⟩ s.toList
  | member hmember hleaf ih => exact (prefix_child _ _).trans ih
  | element helement hleaf ih => exact (prefix_child _ _).trans ih

theorem stringLeaf_unique {pointer keyHint : List Char} {value : Json} {other : LeafText}
    (hunique : UniqueKeys value) (h : StringLeaf pointer keyHint value leaf)
    (hother : StringLeaf pointer keyHint value other) (hpointer : leaf.jsonPointer = other.jsonPointer) :
    leaf = other := by
  induction h with
  | string =>
    cases hother
    rfl
  | @member pointer keyHint members member leaf hmember hleaf ih =>
    cases hunique with
    | object hkeys hmembers =>
      cases hother with
      | @member _ _ _ member' _ hmember' hother =>
        by_cases hsame : member = member'
        · subst hsame
          exact ih (hmembers member hmember) hother hpointer
        · have hne : member.1 ≠ member'.1 := fun heq =>
            hsame (List.inj_on_of_nodup_map hkeys hmember hmember' heq)
          have hapart := @apart_children pointer _ _ (slash_notMem_escapePointer member.1.toList)
            (slash_notMem_escapePointer member'.1.toList) fun heq =>
              hne (String.toList_inj.mp (escapePointer_injective heq))
          exact absurd hpointer ((hapart.extend (stringLeaf_below hother)).symm.extend
            (stringLeaf_below hleaf)).symm.ne
  | @element pointer keyHint elements index element leaf helement hleaf ih =>
    cases hunique with
    | array helements =>
      cases hother with
      | @element _ _ _ index' element' _ helement' hother =>
        by_cases hsame : index = index'
        · subst hsame
          cases helement.symm.trans helement'
          exact ih (helements element (List.mem_of_getElem? helement)) hother hpointer
        · have hapart := @apart_children pointer _ _ (slash_notMem_toDigits index)
            (slash_notMem_toDigits index') fun heq => hsame (toDigits_injective heq)
          exact absurd hpointer ((hapart.extend (stringLeaf_below hother)).symm.extend
            (stringLeaf_below hleaf)).symm.ne

/-- The pointers of what the loop yields are apart, and below those of its stack. -/
theorem walkFrom_apart (h : walkFrom db maxContentDepth remaining stack = .ok leaves)
    (hapart : stack.Pairwise fun a b => Apart a.pointer b.pointer)
    (hunique : ∀ entry ∈ stack, UniqueKeys entry.value) :
    (leaves.Pairwise fun a b => Apart a.jsonPointer b.jsonPointer) ∧
      ∀ leaf ∈ leaves, ∃ entry ∈ stack, entry.pointer ++ ['/'] <+: leaf.jsonPointer ++ ['/'] := by
  induction remaining generalizing stack leaves with
  | zero =>
    cases stack with
    | nil =>
      cases h
      simp
    | cons entry stack => cases h
  | succ remaining ih =>
    cases stack with
    | nil =>
      cases h
      simp
    | cons entry stack =>
      rw [walkFrom] at h
      split_ifs at h with hdepth
      rw [List.pairwise_cons] at hapart
      rw [List.forall_mem_cons] at hunique
      cases hstring : entry.string? with
      | some value =>
        simp only [hstring] at h
        obtain ⟨later, hlater, h⟩ := bind_eq_ok.mp h
        obtain ⟨hpairwise, hbelow⟩ := ih hlater hapart.2 hunique.2
        have hbelow' : ∀ leaf ∈ later, ∃ e ∈ entry :: stack,
            e.pointer ++ ['/'] <+: leaf.jsonPointer ++ ['/'] := by
          intro leaf hleaf
          obtain ⟨e, he, hextends⟩ := hbelow leaf hleaf
          exact ⟨e, List.mem_cons_of_mem _ he, hextends⟩
        split_ifs at h with hblank
        · cases h
          exact ⟨hpairwise, hbelow'⟩
        · cases h
          refine ⟨List.pairwise_cons.mpr ⟨fun leaf hleaf => ?_, hpairwise⟩, ?_⟩
          · obtain ⟨e, he, hextends⟩ := hbelow leaf hleaf
            exact (((hapart.1 e he).extend hextends).symm.extend (prefix_leaf value)).symm
          · rw [List.forall_mem_cons]
            exact ⟨⟨entry, List.mem_cons_self, prefix_leaf value⟩, hbelow'⟩
      | none =>
        simp only [hstring] at h
        have hapart' : (entry.children ++ stack).Pairwise fun a b => Apart a.pointer b.pointer := by
          refine List.pairwise_append.mpr ⟨children_apart hunique.1, hapart.2, ?_⟩
          intro child hchild e he
          exact ((hapart.1 e he).symm.extend (prefix_children hchild)).symm
        have hunique' : ∀ e ∈ entry.children ++ stack, UniqueKeys e.value := by
          intro e he
          cases List.mem_append.mp he with
          | inl hchild => exact children_uniqueKeys hunique.1 e hchild
          | inr hstack => exact hunique.2 e hstack
        obtain ⟨hpairwise, hbelow⟩ := ih h hapart' hunique'
        refine ⟨hpairwise, fun leaf hleaf => ?_⟩
        obtain ⟨e, he, hextends⟩ := hbelow leaf hleaf
        cases List.mem_append.mp he with
        | inl hchild =>
          exact ⟨entry, List.mem_cons_self, (prefix_children hchild).trans hextends⟩
        | inr hstack => exact ⟨e, List.mem_cons_of_mem _ hstack, hextends⟩

end leaves

/-! ### `_walk_strings` -/

section content
variable {db : Unicode.Database} {policy : ClaimExtractionPolicy} {content : Json} {leaves : List LeafText}

theorem mem_walkStrings (h : walkStrings db policy content = .ok leaves) {leaf : LeafText} :
    leaf ∈ leaves ↔ StringLeaf [] "content".toList content leaf ∧ ¬ db.Blank leaf.value := by
  rw [mem_walkFrom h, and_comm]
  simp

theorem walkStrings_apart (h : walkStrings db policy content = .ok leaves) (hunique : UniqueKeys content) :
    leaves.Pairwise fun a b => a.jsonPointer ≠ b.jsonPointer := by
  refine List.Pairwise.imp (fun {a b} => Apart.ne) (walkFrom_apart h (List.pairwise_singleton _ _) ?_).1
  simpa using hunique

end content

end CyberControl.ClaimExtraction
