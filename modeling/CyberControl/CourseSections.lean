import CyberControl.CourseStore

/-! # Sections that courses share

The table of sections belongs to all courses of a tenant: `_load_sections_with_ancestors` reads from it what
the mappings of one course reach, and `replace_graph_content` merges the sections of one course into it. -/

namespace CyberControl.Topic1

open Collections Scheduling Relation

variable {K F D G : Type} [LinearOrder K]

/-! ### Loading -/

variable {x : K}

section load
variable {rows : List (TextbookSection K D)}

theorem parentOf_mem {x p : K} (h : parentOf rows x = some p) : x ∈ rows.map (·.sectionId) := by
  obtain ⟨item, hitem, rfl, -⟩ := parentOf_eq_some h
  exact List.mem_map_of_mem hitem

theorem parentOf_eq_none (h : x ∉ rows.map (·.sectionId)) : parentOf rows x = none := by
  cases hp : parentOf rows x with
  | none => rfl
  | some p => exact absurd (parentOf_mem hp) h

variable (rows) in
/-- What holds between two rounds of the loop. -/
structure Loading (start loaded pending : Finset K) : Prop where
  known : ∀ x ∈ loaded, x ∈ rows.map (·.sectionId)
  reached : ∀ x, x ∈ loaded ∨ x ∈ pending → Reached (parentOf rows) start x
  begun : ∀ x ∈ start, x ∈ rows.map (·.sectionId) → x ∈ loaded ∨ x ∈ pending
  expanded : ∀ x ∈ loaded, ∀ p ∈ parentOf rows x, p ∈ rows.map (·.sectionId) → p ∈ loaded ∨ p ∈ pending
  apart : ∀ x ∈ pending, x ∉ loaded

section round
variable (hids : (rows.map (·.sectionId)).Nodup) {start loaded pending : Finset K}
include hids

theorem Loading.round (h : Loading rows start loaded pending) :
    Loading rows start
      (loaded ∪ ((rows.filter fun row => row.sectionId ∈ pending).map (·.sectionId)).toFinset)
      ((((rows.filter fun row => row.sectionId ∈ pending).filterMap (·.parentSectionId)).toFinset) \
        (loaded ∪ ((rows.filter fun row => row.sectionId ∈ pending).map (·.sectionId)).toFinset)) := by
  have hfound : ∀ x, x ∈ ((rows.filter fun row => row.sectionId ∈ pending).map (·.sectionId)).toFinset ↔
      x ∈ pending ∧ x ∈ rows.map (·.sectionId) := by
    intro x
    simp only [List.mem_toFinset, List.mem_map, List.mem_filter, decide_eq_true_eq]
    constructor
    · rintro ⟨row, ⟨hrow, hpending⟩, rfl⟩
      exact ⟨hpending, row, hrow, rfl⟩
    · rintro ⟨hpending, row, hrow, rfl⟩
      exact ⟨row, ⟨hrow, hpending⟩, rfl⟩
  have hparents : ∀ p, p ∈ ((rows.filter fun row => row.sectionId ∈ pending).filterMap
      (·.parentSectionId)).toFinset ↔ ∃ x ∈ pending, parentOf rows x = some p := by
    intro p
    simp only [List.mem_toFinset, List.mem_filterMap, List.mem_filter, decide_eq_true_eq]
    constructor
    · rintro ⟨row, ⟨hrow, hpending⟩, hp⟩
      exact ⟨row.sectionId, hpending, (parentOf_eq hids hrow).trans hp⟩
    · rintro ⟨x, hx, hp⟩
      obtain ⟨row, hrow, rfl, hparent⟩ := parentOf_eq_some hp
      exact ⟨row, ⟨hrow, hx⟩, hparent⟩
  have hsplit : ∀ p, (∃ x ∈ pending, parentOf rows x = some p) →
      p ∈ loaded ∪ ((rows.filter fun row => row.sectionId ∈ pending).map (·.sectionId)).toFinset ∨
        p ∈ (((rows.filter fun row => row.sectionId ∈ pending).filterMap (·.parentSectionId)).toFinset) \
          (loaded ∪ ((rows.filter fun row => row.sectionId ∈ pending).map (·.sectionId)).toFinset) := by
    intro p hp
    by_cases hmem : p ∈ loaded ∪
        ((rows.filter fun row => row.sectionId ∈ pending).map (·.sectionId)).toFinset
    · exact .inl hmem
    · exact .inr (Finset.mem_sdiff.mpr ⟨(hparents p).mpr hp, hmem⟩)
  refine ⟨fun x hx => ?_, fun x hx => ?_, fun x hx hknown => ?_, fun x hx p hp hknown => ?_, fun x hx => ?_⟩
  · rcases Finset.mem_union.mp hx with hx | hx
    · exact h.known x hx
    · exact ((hfound x).mp hx).2
  · rcases hx with hx | hx
    · rcases Finset.mem_union.mp hx with hx | hx
      · exact h.reached x (.inl hx)
      · exact h.reached x (.inr ((hfound x).mp hx).1)
    · obtain ⟨y, hy, hparent⟩ := (hparents x).mp (Finset.mem_sdiff.mp hx).1
      exact (h.reached y (.inr hy)).parent hparent
  · left
    rcases h.begun x hx hknown with hx | hx
    · exact Finset.mem_union_left _ hx
    · exact Finset.mem_union_right _ ((hfound x).mpr ⟨hx, hknown⟩)
  · rcases Finset.mem_union.mp hx with hx | hx
    · rcases h.expanded x hx p hp hknown with hp | hp
      · exact .inl (Finset.mem_union_left _ hp)
      · exact .inl (Finset.mem_union_right _ ((hfound p).mpr ⟨hp, hknown⟩))
    · exact hsplit p ⟨x, ((hfound x).mp hx).1, hp⟩
  · exact (Finset.mem_sdiff.mp hx).2

omit hids in
theorem Loading.mem_iff (h : Loading rows start loaded ∅) (x : K) :
    x ∈ loaded ↔ x ∈ rows.map (·.sectionId) ∧ Reached (parentOf rows) start x := by
  refine ⟨fun hx => ⟨h.known x hx, h.reached x (.inl hx)⟩, ?_⟩
  rintro ⟨hknown, t, ht, hreach⟩
  induction hreach with
  | refl => exact (h.begun t ht hknown).resolve_right (Finset.notMem_empty t)
  | @tail y z _ hp ih =>
    exact (h.expanded y (ih (parentOf_mem hp)) z hp hknown).resolve_right (Finset.notMem_empty z)

omit hids in
theorem Loading.card_le (h : Loading rows start loaded pending) : loaded.card ≤ rows.length := by
  calc loaded.card ≤ (rows.map (·.sectionId)).toFinset.card :=
        Finset.card_le_card fun x hx => List.mem_toFinset.mpr (h.known x hx)
    _ ≤ (rows.map (·.sectionId)).length := List.toFinset_card_le _
    _ = rows.length := List.length_map _

theorem Loading.mem_loop {fuel : ℕ} (h : Loading rows start loaded pending)
    (hfuel : rows.length + (if pending = ∅ then 0 else 1) ≤ loaded.card + fuel) (x : K) :
    x ∈ loadSections rows fuel loaded pending ↔
      x ∈ rows.map (·.sectionId) ∧ Reached (parentOf rows) start x := by
  induction fuel generalizing loaded pending with
  | zero =>
    obtain rfl : pending = ∅ := by
      by_contra hne
      rw [if_neg hne] at hfuel
      have hle := h.card_le
      omega
    exact h.mem_iff x
  | succ fuel ih =>
    unfold loadSections
    split_ifs with hempty
    · rw [hempty] at h
      exact h.mem_iff x
    · refine ih (h.round hids) ?_
      rw [if_neg hempty] at hfuel
      have hle : loaded.card ≤ (loaded ∪
          ((rows.filter fun row => row.sectionId ∈ pending).map (·.sectionId)).toFinset).card :=
        Finset.card_le_card Finset.subset_union_left
      split_ifs with hnext
      · omega
      · -- a round that goes on has loaded a section
        obtain ⟨p, hp⟩ := Finset.nonempty_iff_ne_empty.mpr hnext
        obtain ⟨row, hrow, -⟩ := List.mem_filterMap.mp (List.mem_toFinset.mp (Finset.mem_sdiff.mp hp).1)
        have hpending := of_decide_eq_true (List.mem_filter.mp hrow).2
        have hlt : loaded.card < (loaded ∪
            ((rows.filter fun row => row.sectionId ∈ pending).map (·.sectionId)).toFinset).card := by
          refine Finset.card_lt_card (Finset.ssubset_iff_of_subset Finset.subset_union_left |>.mpr ?_)
          refine ⟨row.sectionId, Finset.mem_union_right _ ?_, h.apart _ hpending⟩
          exact List.mem_toFinset.mpr (List.mem_map_of_mem hrow)
        omega

/-- **The loop loads the existing sections that the first ones reach.** -/
theorem mem_loadSections (start : Finset K) (x : K) :
    x ∈ loadSections rows (rows.length + 1) ∅ start ↔
      x ∈ rows.map (·.sectionId) ∧ Reached (parentOf rows) start x := by
  have hstart : Loading rows start ∅ start :=
    ⟨fun y hy => absurd hy (Finset.notMem_empty y),
      fun y hy => ⟨y, hy.resolve_left (Finset.notMem_empty y), .refl⟩, fun y hy _ => .inr hy,
      fun y hy => absurd hy (Finset.notMem_empty y), fun y _ => Finset.notMem_empty y⟩
  refine hstart.mem_loop hids ?_ x
  rw [Finset.card_empty]
  split_ifs <;> omega

end round

theorem mem_loadSectionsWithAncestors {t : Tables K F D G}
    (hids : (t.textbookSections.map (·.sectionId)).Nodup) {sectionIds : List K} {row : TextbookSection K D} :
    row ∈ t.loadSectionsWithAncestors sectionIds ↔ row ∈ t.textbookSections ∧
      Reached (parentOf t.textbookSections) sectionIds.toFinset row.sectionId := by
  unfold Tables.loadSectionsWithAncestors
  simp only [mem_sortBy, List.mem_filter, decide_eq_true_eq, mem_loadSections hids]
  refine and_congr_right fun hrow => ?_
  exact and_iff_right (List.mem_map_of_mem hrow)

end load

/-! ### Merging -/

omit [LinearOrder K] in
theorem Ends.congr {parents parents' : K → Option K} {closed : Finset K}
    (hclosed : ∀ x ∈ closed, ∀ p ∈ parents x, p ∈ closed) (hsame : ∀ x ∈ closed, parents' x = parents x)
    (hx : x ∈ closed) (h : Ends parents x) : Ends parents' x := by
  induction h with
  | intro x _ ih =>
    refine Ends.of_parent fun p hp => ?_
    rw [hsame x hx] at hp
    exact ih p hp (hclosed x hx p hp)

omit [LinearOrder K] in
theorem Reached.congr {parents parents' : K → Option K} {closed : Finset K}
    (hclosed : ∀ x ∈ closed, ∀ p ∈ parents x, p ∈ closed) (hsame : ∀ x ∈ closed, parents' x = parents x)
    {start : Finset K} (hstart : start ⊆ closed) (h : Reached parents start x) :
    Reached parents' start x := by
  obtain ⟨t, ht, hreach⟩ := h
  have hboth : Reached parents' start x ∧ x ∈ closed := by
    induction hreach with
    | refl => exact ⟨⟨t, ht, .refl⟩, hstart ht⟩
    | tail _ hp ih => exact ⟨ih.1.parent ((hsame _ ih.2).trans hp), hclosed _ ih.2 _ hp⟩
  exact hboth.1

/-- The rows after a merge of sections that have all their parents among them. -/
structure Merged (rows items rows' : List (TextbookSection K D)) : Prop where
  rowIds : (rows.map (·.sectionId)).Nodup
  itemIds : (items.map (·.sectionId)).Nodup
  ids : (rows'.map (·.sectionId)).Nodup
  mem : ∀ row, row ∈ rows' ↔ row ∈ items ∨ (row ∈ rows ∧ row.sectionId ∉ items.map (·.sectionId))
  closed : ∀ item ∈ items, ∀ p ∈ item.parentSectionId, p ∈ items.map (·.sectionId)

namespace Merged
variable {rows items rows' : List (TextbookSection K D)} (h : Merged rows items rows')
include h

theorem parentOf_item (hx : x ∈ items.map (·.sectionId)) :
    parentOf rows' x = parentOf items x := by
  obtain ⟨item, hitem, rfl⟩ := List.mem_map.mp hx
  rw [parentOf_eq h.itemIds hitem, parentOf_eq h.ids ((h.mem item).mpr (.inl hitem))]

theorem parentOf_row (hx : x ∉ items.map (·.sectionId)) : parentOf rows' x = parentOf rows x := by
  by_cases hknown : x ∈ rows.map (·.sectionId)
  · obtain ⟨row, hrow, rfl⟩ := List.mem_map.mp hknown
    rw [parentOf_eq h.rowIds hrow, parentOf_eq h.ids ((h.mem row).mpr (.inr ⟨hrow, hx⟩))]
  · rw [parentOf_eq_none hknown, parentOf_eq_none]
    intro hmem
    obtain ⟨row, hrow, rfl⟩ := List.mem_map.mp hmem
    rcases (h.mem row).mp hrow with hitem | ⟨hold, -⟩
    · exact hx (List.mem_map_of_mem hitem)
    · exact hknown (List.mem_map_of_mem hold)

theorem closed_items : ∀ x ∈ (items.map (·.sectionId)).toFinset, ∀ p ∈ parentOf items x,
    p ∈ (items.map (·.sectionId)).toFinset := by
  intro x _ p hp
  obtain ⟨item, hitem, -, hparent⟩ := parentOf_eq_some hp
  exact List.mem_toFinset.mpr (h.closed item hitem p hparent)

/-- **A merge of trees into trees leaves trees.** -/
theorem ends (hrows : ∀ row ∈ rows, Ends (parentOf rows) row.sectionId)
    (hitems : ∀ item ∈ items, Ends (parentOf items) item.sectionId) :
    ∀ row ∈ rows', Ends (parentOf rows') row.sectionId := by
  have hitem : ∀ x ∈ items.map (·.sectionId), Ends (parentOf rows') x := by
    intro x hx
    obtain ⟨item, hmem, rfl⟩ := List.mem_map.mp hx
    exact (hitems item hmem).congr h.closed_items
      (fun y hy => h.parentOf_item (List.mem_toFinset.mp hy)) (List.mem_toFinset.mpr hx)
  -- a chain of old rows ends or goes over to the merged ones
  have hold : ∀ x, Ends (parentOf rows) x → Ends (parentOf rows') x := by
    intro x hx
    induction hx with
    | intro x _ ih =>
      by_cases hmem : x ∈ items.map (·.sectionId)
      · exact hitem x hmem
      · refine Ends.of_parent fun p hp => ih p ?_
        rw [h.parentOf_row hmem] at hp
        exact hp
  intro row hrow
  rcases (h.mem row).mp hrow with hmem | ⟨hmem, -⟩
  · exact hitem row.sectionId (List.mem_map_of_mem hmem)
  · exact hold row.sectionId (hrows row hmem)

/-- **From merged sections one reaches what one reached among them.** -/
theorem reached_iff {start : Finset K} (hstart : start ⊆ (items.map (·.sectionId)).toFinset) :
    Reached (parentOf rows') start x ↔ Reached (parentOf items) start x := by
  have hsame : ∀ y ∈ (items.map (·.sectionId)).toFinset, parentOf rows' y = parentOf items y :=
    fun y hy => h.parentOf_item (List.mem_toFinset.mp hy)
  constructor
  · refine Reached.congr (fun y hy p hp => ?_) (fun y hy => (hsame y hy).symm) hstart
    rw [hsame y hy] at hp
    exact h.closed_items y hy p hp
  · exact Reached.congr h.closed_items hsame hstart

end Merged

end CyberControl.Topic1
