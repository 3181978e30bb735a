import CyberControl.CourseContent

/-! # What a knowledge graph must satisfy

The validator of `Topic1GraphContentV1`: the limits of its lists and `validate_references` with the loops
over the section hierarchy. -/

namespace CyberControl.Topic1

open Collections Relation

variable {K F D : Type}

/-! ### Chains of parents -/

variable {ids : Finset K} {x : K}

section climb
variable [LinearOrder K] (parents : K → Option K)

/-- `while current is not None and state.get(current, 0) == 0`, at most `fuel` times. -/
def climb : ℕ → (K → ℕ) → List K → Option K → (K → ℕ) × List K × Option K
  | fuel + 1, state, trail, some current =>
    if state current = 0 then
      climb fuel (Function.update state current 1) (trail ++ [current]) (parents current)
    else (state, trail, some current)
  | 0, state, trail, current => (state, trail, current)
  | _ + 1, state, trail, none => (state, trail, none)

def hierarchyCycle : Exn := .valueError "textbook section hierarchy contains a cycle"

/-- `state[visited] = 2` along the trail. -/
def markVisited (state : K → ℕ) (trail : List K) : K → ℕ :=
  trail.foldl (fun state visited => Function.update state visited 2) state

/-- One turn of the loop of `_validate_section_hierarchy`. -/
def visitSection (fuel : ℕ) (state : K → ℕ) (sectionId : K) : Except Exn (K → ℕ) :=
  let (state, trail, current) := climb parents fuel state [] (some sectionId)
  if current.any fun current => state current = 1 then .error hierarchyCycle
  else .ok (markVisited state trail)

/-- The chain of parents that starts at `x` ends. -/
def Ends (x : K) : Prop := Acc (fun parent child => parents child = some parent) x

/-- What holds during a walk. -/
structure Climbing (state : K → ℕ) (trail : List K) (current : Option K) : Prop where
  le_two : ∀ x, state x ≤ 2
  onTrail : ∀ x, state x = 1 ↔ x ∈ trail
  finished : ∀ x, state x = 2 → Ends parents x
  ends : (∀ c ∈ current, Ends parents c) → ∀ x ∈ trail, Ends parents x
  leads : ∀ x ∈ trail, ∀ c ∈ current, TransGen (fun child parent => parents child = some parent) x c

variable {parents}

omit [LinearOrder K] in
theorem Ends.of_parent (h : ∀ p ∈ parents x, Ends parents p) : Ends parents x :=
  .intro x h

omit [LinearOrder K] in
theorem Ends.not_loop (h : Ends parents x)
    (hloop : TransGen (fun child parent => parents child = some parent) x x) : False := by
  have hacc : Acc (TransGen fun parent child => parents child = some parent) x := Acc.transGen h
  have hirrefl : ∀ y, Acc (TransGen fun parent child => parents child = some parent) y →
      ¬ TransGen (fun parent child => parents child = some parent) y y := by
    intro y hy
    induction hy with
    | intro y _ ih => exact fun hyy => ih y hyy hyy
  exact hirrefl x hacc (transGen_swap.mp hloop)

variable {state : K → ℕ}

theorem Climbing.climb (fuel : ℕ) {trail : List K} {current : Option K}
    (hclosed : ∀ x ∈ ids, ∀ p ∈ parents x, p ∈ ids) (hcurrent : ∀ c ∈ current, c ∈ ids)
    (hfuel : (ids.filter fun x => state x = 0).card ≤ fuel) (h : Climbing parents state trail current) :
    ∃ state' trail' current', Topic1.climb parents fuel state trail current = (state', trail', current') ∧
      Climbing parents state' trail' current' ∧ (∀ c ∈ current', c ∈ ids ∧ state' c ≠ 0) ∧
      (∀ x ∈ trail', x ∈ trail ∨ x ∈ ids) ∧ (∀ x, state x ≠ 0 → state' x = state x) ∧
      ∀ c ∈ current, state' c ≠ 0 := by
  induction fuel generalizing state trail current with
  | zero =>
    have hnone := Finset.card_eq_zero.mp (Nat.le_zero.mp hfuel)
    have hmarked : ∀ c ∈ current, state c ≠ 0 := by
      intro c hc hzero
      have hmem : c ∈ ids.filter fun x => state x = 0 := Finset.mem_filter.mpr ⟨hcurrent c hc, hzero⟩
      rw [hnone] at hmem
      exact absurd hmem (Finset.notMem_empty c)
    exact ⟨state, trail, current, rfl, h, fun c hc => ⟨hcurrent c hc, hmarked c hc⟩,
      fun x hx => .inl hx, fun _ _ => rfl, hmarked⟩
  | succ fuel ih =>
    cases current with
    | none => exact ⟨state, trail, none, rfl, h, by simp, fun x hx => .inl hx, fun _ _ => rfl, by simp⟩
    | some c =>
      have hc := hcurrent c rfl
      unfold Topic1.climb
      split_ifs with hzero
      · have hnext : Climbing parents (Function.update state c 1) (trail ++ [c]) (parents c) := by
          refine ⟨fun x => ?_, fun x => ?_, fun x hx => ?_, fun hends x hx => ?_, fun x hx p hp => ?_⟩
          · by_cases hx : x = c
            · simp [hx]
            · simpa [hx] using h.le_two x
          · by_cases hx : x = c
            · simp [hx]
            · simpa [hx] using h.onTrail x
          · by_cases hxc : x = c
            · simp [hxc] at hx
            · exact h.finished x (by simpa [hxc] using hx)
          · have hcends : Ends parents c := Ends.of_parent hends
            rcases List.mem_append.mp hx with hx | hx
            · exact h.ends (fun d hd => Option.mem_some.mp hd ▸ hcends) x hx
            · exact List.mem_singleton.mp hx ▸ hcends
          · rcases List.mem_append.mp hx with hx | hx
            · exact (h.leads x hx c rfl).tail hp
            · rw [List.mem_singleton.mp hx]
              exact .single hp
        have hless : (ids.filter fun x => Function.update state c 1 x = 0).card ≤ fuel := by
          have hsub : (ids.filter fun x => Function.update state c 1 x = 0)
              ⊂ ids.filter fun x => state x = 0 := by
            refine Finset.ssubset_iff_subset_ne.mpr ⟨fun x hx => ?_, fun heq => ?_⟩
            · obtain ⟨hx, hx0⟩ := Finset.mem_filter.mp hx
              refine Finset.mem_filter.mpr ⟨hx, ?_⟩
              by_cases hxc : x = c
              · exact hxc ▸ hzero
              · simpa [hxc] using hx0
            · have hmem : c ∈ ids.filter fun x => state x = 0 := Finset.mem_filter.mpr ⟨hc, hzero⟩
              rw [← heq] at hmem
              simp at hmem
          have hcard := Finset.card_lt_card hsub
          omega
        obtain ⟨state', trail', current', heq, hclimb, hend, htrail, hkept, -⟩ :=
          ih (hclosed c hc) hless hnext
        refine ⟨state', trail', current', heq, hclimb, hend, fun x hx => ?_, fun x hx => ?_, fun d hd => ?_⟩
        · rcases htrail x hx with hx | hx
          · rcases List.mem_append.mp hx with hx | hx
            · exact .inl hx
            · exact .inr (List.mem_singleton.mp hx ▸ hc)
          · exact .inr hx
        · have hxc : x ≠ c := fun hxc => hx (hxc ▸ hzero)
          have hsame : Function.update state c 1 x = state x := Function.update_of_ne hxc _ _
          rw [hkept x (by rwa [hsame]), hsame]
        · rw [← Option.mem_some.mp hd, hkept c (by simp)]
          simp
      · exact ⟨state, trail, some c, rfl, h, fun d hd => ⟨hcurrent d hd, Option.mem_some.mp hd ▸ hzero⟩,
          fun x hx => .inl hx, fun _ _ => rfl, fun d hd => Option.mem_some.mp hd ▸ hzero⟩

theorem markVisited_apply {trail : List K} :
    markVisited state trail x = if x ∈ trail then 2 else state x := by
  unfold markVisited
  induction trail generalizing state with
  | nil => simp
  | cons y trail ih =>
    rw [List.foldl_cons, ih]
    by_cases hx : x ∈ trail
    · simp [hx]
    · by_cases hxy : x = y
      · simp [hxy]
      · simp [hx, hxy]

variable (parents) in
/-- The marks between two walks. -/
structure Marked (state : K → ℕ) : Prop where
  zero_or_two : ∀ x, state x = 0 ∨ state x = 2
  finished : ∀ x, state x = 2 → Ends parents x

theorem visitSection_cases {sectionId : K}
    (hclosed : ∀ x ∈ ids, ∀ p ∈ parents x, p ∈ ids) (hid : sectionId ∈ ids)
    (h : Marked parents state) :
    (∃ state', visitSection parents ids.card state sectionId = .ok state' ∧ Marked parents state' ∧
        state' sectionId = 2 ∧ ∀ x, state x = 2 → state' x = 2) ∨
      (visitSection parents ids.card state sectionId = .error hierarchyCycle ∧
        ∃ x ∈ ids, ¬ Ends parents x) := by
  have hstart : Climbing parents state [] (some sectionId) := by
    refine ⟨fun x => ?_, fun x => ?_, h.finished, fun _ x hx => ?_, fun x hx => ?_⟩
    · rcases h.zero_or_two x with hx | hx <;> omega
    · rcases h.zero_or_two x with hx | hx <;> simp [hx]
    · exact absurd hx List.not_mem_nil
    · exact absurd hx List.not_mem_nil
  obtain ⟨state', trail, current, heq, hclimb, hend, htrail, hkept, hmarked⟩ :=
    hstart.climb ids.card hclosed (fun c hc => Option.mem_some.mp hc ▸ hid)
      (Finset.card_filter_le _ _)
  unfold visitSection
  rw [heq]
  by_cases hloop : (current.any fun current => state' current = 1) = true
  · right
    obtain ⟨c, hc, hone⟩ := (Option.any_eq_true _ _).mp hloop
    have hmem := (hclimb.onTrail c).mp (of_decide_eq_true hone)
    refine ⟨if_pos hloop, c, (hend c hc).1, fun hends => hends.not_loop (hclimb.leads c hmem c hc)⟩
  · left
    have hends : ∀ x ∈ trail, Ends parents x := by
      refine hclimb.ends fun c hc => hclimb.finished c ?_
      have hne : state' c ≠ 1 := by
        intro hone
        exact hloop ((Option.any_eq_true _ _).mpr ⟨c, hc, decide_eq_true hone⟩)
      have hle := hclimb.le_two c
      have hne0 := (hend c hc).2
      omega
    refine ⟨_, if_neg hloop, ⟨fun x => ?_, fun x hx => ?_⟩, ?_, fun x hx => ?_⟩
    · rw [markVisited_apply]
      split_ifs with hx
      · exact .inr rfl
      · have hne : state' x ≠ 1 := fun hone => hx ((hclimb.onTrail x).mp hone)
        have hle := hclimb.le_two x
        omega
    · rw [markVisited_apply] at hx
      split_ifs at hx with hmem
      · exact hends x hmem
      · exact hclimb.finished x hx
    · rw [markVisited_apply]
      split_ifs with hmem
      · rfl
      · have hne : state' sectionId ≠ 1 := fun hone => hmem ((hclimb.onTrail sectionId).mp hone)
        have hle := hclimb.le_two sectionId
        have hne0 := hmarked sectionId rfl
        omega
    · rw [markVisited_apply]
      split_ifs
      · rfl
      · rw [hkept x (by omega), hx]

/-- **The walks accept the hierarchies in which every chain of parents ends.** -/
theorem visitSections_ok (hclosed : ∀ x ∈ ids, ∀ p ∈ parents x, p ∈ ids) :
    (∃ state, (sorted ids).foldlM (visitSection parents ids.card) (fun _ => 0) = .ok state) ↔
      ∀ x ∈ ids, Ends parents x := by
  have hloop : ∀ (l : List K) (state : K → ℕ), (∀ x ∈ l, x ∈ ids) → Marked parents state →
      ((∃ state', l.foldlM (visitSection parents ids.card) state = .ok state' ∧ Marked parents state' ∧
          (∀ x, state x = 2 → state' x = 2) ∧ ∀ x ∈ l, state' x = 2) ∨
        ((∀ state', l.foldlM (visitSection parents ids.card) state ≠ .ok state') ∧
          ∃ x ∈ ids, ¬ Ends parents x)) := by
    intro l
    induction l with
    | nil => exact fun state _ h => .inl ⟨state, rfl, h, fun _ hx => hx, by simp⟩
    | cons a l ih =>
      intro state hl h
      rw [List.foldlM_cons]
      rcases visitSection_cases hclosed (hl a List.mem_cons_self) h with
        ⟨next, hnext, hmarked, ha, hkept⟩ | ⟨herror, hnot⟩
      · rw [hnext]
        rcases ih next (fun x hx => hl x (List.mem_cons_of_mem a hx)) hmarked with
          ⟨last, hlast, hmarked', hkept', hall⟩ | ⟨hnone, hnot⟩
        · refine .inl ⟨last, hlast, hmarked', fun x hx => hkept' x (hkept x hx), fun x hx => ?_⟩
          rcases List.mem_cons.mp hx with rfl | hx
          · exact hkept' x ha
          · exact hall x hx
        · exact .inr ⟨hnone, hnot⟩
      · rw [herror]
        refine .inr ⟨fun _ h => ?_, hnot⟩
        cases h
  rcases hloop (sorted ids) (fun _ => 0) (fun x hx => mem_sorted.mp hx)
    ⟨fun _ => .inl rfl, fun x hx => absurd hx (by simp)⟩ with ⟨state, hstate, hmarked, -, hall⟩ | ⟨hnone, x, hx, hnot⟩
  · exact ⟨fun _ x hx => hmarked.finished x (hall x (mem_sorted.mpr hx)), fun _ => ⟨state, hstate⟩⟩
  · exact ⟨fun ⟨state, h⟩ => absurd h (hnone state), fun h => absurd (h x hx) hnot⟩

end climb

/-! ### Sections that a mapping reaches -/

section reach
variable [LinearOrder K] (parents : K → Option K)

/-- The loop of `_validate_reconstructable_textbook_graph` over `pending`, whose end is the head of the
list here, at most `fuel` times. -/
def reachSections : ℕ → Finset K → List K → Finset K
  | 0, reachable, _ => reachable
  | _ + 1, reachable, [] => reachable
  | fuel + 1, reachable, current :: pending =>
    match parents current with
    | none => reachSections fuel reachable pending
    | some parent =>
      if parent ∈ reachable then reachSections fuel reachable pending
      else reachSections fuel (insert parent reachable) (parent :: pending)

/-- `x` is one of the `start` or an ancestor of one. -/
def Reached (start : Finset K) (x : K) : Prop :=
  ∃ t ∈ start, ReflTransGen (fun child parent => parents child = some parent) t x

variable {parents}

omit [LinearOrder K] in
theorem Reached.parent {start : Finset K} {x p : K} (h : Reached parents start x)
    (hp : parents x = some p) : Reached parents start p := by
  obtain ⟨t, ht, hreach⟩ := h
  exact ⟨t, ht, hreach.tail hp⟩

omit [LinearOrder K] in
theorem Reached.mem {start closed : Finset K} (h : Reached parents start x)
    (hstart : start ⊆ closed) (hclosed : ∀ x ∈ closed, ∀ p ∈ parents x, p ∈ closed) : x ∈ closed := by
  obtain ⟨t, ht, hreach⟩ := h
  induction hreach with
  | refl => exact hstart ht
  | tail _ hp ih => exact hclosed _ ih _ hp

theorem reachSections_spec {fuel : ℕ} {ids start reachable : Finset K} {pending : List K}
    (hclosed : ∀ x ∈ ids, ∀ p ∈ parents x, p ∈ ids) (hids : reachable ⊆ ids)
    (hstart : start ⊆ reachable) (hreached : ∀ x ∈ reachable, Reached parents start x)
    (hpending : ∀ x ∈ pending, x ∈ reachable)
    (hdone : ∀ x ∈ reachable, x ∉ pending → ∀ p ∈ parents x, p ∈ reachable)
    (hfuel : ids.card + pending.length ≤ reachable.card + fuel) (x : K) :
    x ∈ reachSections parents fuel reachable pending ↔ Reached parents start x := by
  induction fuel generalizing reachable pending with
  | zero =>
    have hle := Finset.card_le_card hids
    have hnil : pending = [] := List.eq_nil_of_length_eq_zero (by omega)
    subst hnil
    exact ⟨hreached x, fun h => h.mem hstart fun y hy => hdone y hy List.not_mem_nil⟩
  | succ fuel ih =>
    cases pending with
    | nil => exact ⟨hreached x, fun h => h.mem hstart fun y hy => hdone y hy List.not_mem_nil⟩
    | cons current pending =>
      have hcurrent := hpending current List.mem_cons_self
      have hrest : ∀ x ∈ pending, x ∈ reachable := fun x hx =>
        hpending x (List.mem_cons_of_mem current hx)
      rw [List.length_cons] at hfuel
      have hpop : (∀ p ∈ parents current, p ∈ reachable) →
          (x ∈ reachSections parents fuel reachable pending ↔ Reached parents start x) := by
        intro hparent
        refine ih hids hstart hreached hrest (fun y hy hnot => ?_) (by omega)
        by_cases hyc : y = current
        · exact hyc ▸ hparent
        · refine hdone y hy fun hmem => ?_
          rcases List.mem_cons.mp hmem with h | h
          · exact hyc h
          · exact hnot h
      unfold reachSections
      cases hp : parents current with
      | none => exact hpop (by simp [hp])
      | some parent =>
        simp only
        split_ifs with hmem
        · exact hpop fun p hpar => by rwa [← Option.some.inj (hp.symm.trans hpar)]
        · refine ih (fun y hy => ?_) (hstart.trans (Finset.subset_insert _ _)) (fun y hy => ?_)
            (fun y hy => ?_) (fun y hy hnot p hpar => ?_) ?_
          · rcases Finset.mem_insert.mp hy with rfl | hy
            · exact hclosed current (hids hcurrent) y hp
            · exact hids hy
          · rcases Finset.mem_insert.mp hy with rfl | hy
            · exact (hreached current hcurrent).parent hp
            · exact hreached y hy
          · rcases List.mem_cons.mp hy with rfl | hy
            · exact Finset.mem_insert_self y reachable
            · exact Finset.mem_insert_of_mem (hrest y hy)
          · have hne : y ≠ parent := fun h => hnot (h ▸ List.mem_cons_self)
            have hnot : y ∉ pending := fun h => hnot (List.mem_cons_of_mem parent h)
            have hy := (Finset.mem_insert.mp hy).resolve_left hne
            by_cases hyc : y = current
            · rw [hyc, hp, Option.mem_some] at hpar
              exact hpar ▸ Finset.mem_insert_self parent reachable
            · refine Finset.mem_insert_of_mem (hdone y hy (fun hmem => ?_) p hpar)
              rcases List.mem_cons.mp hmem with h | h
              · exact hyc h
              · exact hnot h
          · rw [Finset.card_insert_of_notMem hmem, List.length_cons]
            omega

/-- **The loop collects the first sections and their ancestors.** -/
theorem mem_reachable {ids start : Finset K} (hclosed : ∀ x ∈ ids, ∀ p ∈ parents x, p ∈ ids)
    (hstart : start ⊆ ids) (x : K) :
    x ∈ reachSections parents ids.card start (sorted start) ↔ Reached parents start x := by
  refine reachSections_spec hclosed hstart (Finset.Subset.refl start) (fun y hy => ⟨y, hy, .refl⟩)
    (fun y hy => mem_sorted.mp hy) (fun y hy hnot => absurd (mem_sorted.mpr hy) hnot) ?_ x
  rw [length_sorted]
  omega

end reach

/-! ### `validate_references` -/

section references
variable [LinearOrder K]

def uniqueIds (values : List K) (label : String) : Except Exn (Finset K) :=
  if values.Nodup then .ok values.toFinset
  else .error (.valueError ("duplicate " ++ label ++ " identity"))

def ensureUnique {α : Type} [DecidableEq α] (values : List α) (label : String) : Except Exn Unit :=
  ensure values.Nodup (.valueError ("duplicate " ++ label))

/-- The dictionary `parents`. -/
def parentOf (sections : List (TextbookSection K D)) (sectionId : K) : Option K :=
  (sections.find? fun item => item.sectionId = sectionId).bind (·.parentSectionId)

/-- The dictionary `textbooks`. -/
def textbookOf (sections : List (TextbookSection K D)) (sectionId : K) : Option K :=
  (sections.find? fun item => item.sectionId = sectionId).map (·.textbookId)

def validateSectionHierarchy (sections : List (TextbookSection K D)) (sectionIds : Finset K) :
    Except Exn Unit := do
  ensure (∀ item ∈ sections, ∀ parent ∈ item.parentSectionId, parent ∈ sectionIds)
    (.valueError "textbook section parent must exist in the graph")
  ensure (∀ item ∈ sections, ∀ parent ∈ item.parentSectionId,
      textbookOf sections parent = some item.textbookId)
    (.valueError "textbook section parent must belong to the same textbook")
  let _ ← (sorted sectionIds).foldlM (visitSection (parentOf sections) sectionIds.card) fun _ => 0
  return ()

def validateReconstructableTextbookGraph (textbooks : List (Textbook K D))
    (sections : List (TextbookSection K D)) (mappings : List (TextbookMapping K D)) :
    Except Exn Unit := do
  let ids := (sections.map (·.sectionId)).toFinset
  let start := (mappings.map (·.sectionId)).toFinset
  ensure (reachSections (parentOf sections) ids.card start (sorted start) = ids)
    (.valueError "all textbook sections must be reachable from a knowledge-point mapping")
  ensure ((sections.map (·.textbookId)).toFinset = (textbooks.map (·.textbookId)).toFinset)
    (.valueError "all textbooks must contain a mapped or ancestor section")

def validateReferences (content : Content K F D) : Except Exn Unit := do
  let kpIds ← uniqueIds (content.knowledgePoints.map (·.kpId)) "knowledge point"
  ensure (∀ item ∈ content.knowledgePoints, item.courseId = content.course.courseId)
    (.valueError "all knowledge points must belong to the graph course")
  let _ ← uniqueIds (content.prerequisites.map (·.edgeId)) "prerequisite"
  ensureUnique (content.prerequisites.map fun item =>
    (item.prerequisiteKpId, item.dependentKpId, item.relationType)) "prerequisite relation"
  content.prerequisites.forM fun edge => do
    ensure (edge.courseId = content.course.courseId)
      (.valueError "all prerequisites must belong to the graph course")
    ensure (edge.prerequisiteKpId ∈ kpIds ∧ edge.dependentKpId ∈ kpIds)
      (.valueError "prerequisite endpoints must exist in the graph")
  let misconceptionIds ← uniqueIds (content.misconceptions.map (·.misconceptionId)) "misconception"
  ensure (∀ item ∈ content.misconceptions, item.kpId ∈ kpIds)
    (.valueError "misconceptions must reference graph knowledge points")
  let textbookIds ← uniqueIds (content.textbooks.map (·.textbookId)) "textbook"
  let sectionIds ← uniqueIds (content.textbookSections.map (·.sectionId)) "textbook section"
  ensure (∀ item ∈ content.textbookSections, item.textbookId ∈ textbookIds)
    (.valueError "textbook sections must reference graph textbooks")
  validateSectionHierarchy content.textbookSections sectionIds
  let _ ← uniqueIds (content.textbookMappings.map (·.mappingId)) "textbook mapping"
  ensureUnique (content.textbookMappings.map fun item => (item.kpId, item.sectionId, item.mappingType))
    "textbook mapping relation"
  ensure (∀ item ∈ content.textbookMappings, item.kpId ∈ kpIds ∧ item.sectionId ∈ sectionIds)
    (.valueError "textbook mappings must reference graph entities")
  validateReconstructableTextbookGraph content.textbooks content.textbookSections content.textbookMappings
  let _ ← uniqueIds (content.goldenQuestions.map (·.questionId)) "golden question"
  content.goldenQuestions.forM fun question => do
    ensureUnique question.relatedKpIds "golden question related knowledge point"
    ensureUnique question.misconceptionIds "golden question misconception"
    ensure (∀ kpId ∈ question.primaryKpId :: question.relatedKpIds, kpId ∈ kpIds)
      (.valueError "golden questions must reference graph knowledge points")
    ensure (∀ misconceptionId ∈ question.misconceptionIds, misconceptionId ∈ misconceptionIds)
      (.valueError "golden questions reference unknown misconceptions")

/-- The lists of a content with their greatest lengths. -/
def lengths (content : Content K F D) : List (String × ℕ × ℕ) :=
  [("knowledge_points", content.knowledgePoints.length, 5000),
    ("prerequisites", content.prerequisites.length, 20000),
    ("misconceptions", content.misconceptions.length, 10000),
    ("textbooks", content.textbooks.length, 512),
    ("textbook_sections", content.textbookSections.length, 10000),
    ("textbook_mappings", content.textbookMappings.length, 20000),
    ("golden_questions", content.goldenQuestions.length, 20000)]

/-- The constructor of `Topic1GraphContentV1`. -/
def validateContent (content : Content K F D) : Except Exn Unit := do
  let places := (lengths content).filterMap fun (place, length, bound) =>
    if length ≤ bound then none else some place
  ensure (places = []) (.validationError places)
  validateReferences content

/-- The sections form trees, each within one textbook. -/
structure Hierarchy (sections : List (TextbookSection K D)) : Prop where
  parent : ∀ item ∈ sections, ∀ p ∈ item.parentSectionId,
    ∃ other ∈ sections, other.sectionId = p ∧ other.textbookId = item.textbookId
  ends : ∀ item ∈ sections, Ends (parentOf sections) item.sectionId

/-- What `validate_references` asks for. -/
structure References (content : Content K F D) : Prop where
  kpIds : (content.knowledgePoints.map (·.kpId)).Nodup
  kpCourse : ∀ item ∈ content.knowledgePoints, item.courseId = content.course.courseId
  edgeIds : (content.prerequisites.map (·.edgeId)).Nodup
  edgeRelations : (content.prerequisites.map fun item =>
    (item.prerequisiteKpId, item.dependentKpId, item.relationType)).Nodup
  edgeCourse : ∀ item ∈ content.prerequisites, item.courseId = content.course.courseId
  edgeEnds : ∀ item ∈ content.prerequisites, item.prerequisiteKpId ∈ content.knowledgePoints.map (·.kpId) ∧
    item.dependentKpId ∈ content.knowledgePoints.map (·.kpId)
  misconceptionIds : (content.misconceptions.map (·.misconceptionId)).Nodup
  misconceptionKps : ∀ item ∈ content.misconceptions, item.kpId ∈ content.knowledgePoints.map (·.kpId)
  textbookIds : (content.textbooks.map (·.textbookId)).Nodup
  sectionIds : (content.textbookSections.map (·.sectionId)).Nodup
  sectionTextbooks : ∀ item ∈ content.textbookSections, item.textbookId ∈ content.textbooks.map (·.textbookId)
  hierarchy : Hierarchy content.textbookSections
  mappingIds : (content.textbookMappings.map (·.mappingId)).Nodup
  mappingRelations : (content.textbookMappings.map fun item =>
    (item.kpId, item.sectionId, item.mappingType)).Nodup
  mappingEnds : ∀ item ∈ content.textbookMappings, item.kpId ∈ content.knowledgePoints.map (·.kpId) ∧
    item.sectionId ∈ content.textbookSections.map (·.sectionId)
  sectionsReached : ∀ item ∈ content.textbookSections,
    Reached (parentOf content.textbookSections) (content.textbookMappings.map (·.sectionId)).toFinset
      item.sectionId
  textbooksUsed : ∀ item ∈ content.textbooks, item.textbookId ∈ content.textbookSections.map (·.textbookId)
  questionIds : (content.goldenQuestions.map (·.questionId)).Nodup
  questionLists : ∀ item ∈ content.goldenQuestions, item.relatedKpIds.Nodup ∧ item.misconceptionIds.Nodup
  questionKps : ∀ item ∈ content.goldenQuestions, ∀ kpId ∈ item.primaryKpId :: item.relatedKpIds,
    kpId ∈ content.knowledgePoints.map (·.kpId)
  questionMisconceptions : ∀ item ∈ content.goldenQuestions, ∀ misconceptionId ∈ item.misconceptionIds,
    misconceptionId ∈ content.misconceptions.map (·.misconceptionId)

/-- The lists are no longer than the contract allows. -/
def WithinLimits (content : Content K F D) : Prop :=
  ∀ entry ∈ lengths content, entry.2.1 ≤ entry.2.2

theorem uniqueIds_ok {values : List K} {label : String} :
    uniqueIds values label = .ok ids ↔ values.Nodup ∧ values.toFinset = ids := by
  unfold uniqueIds
  split_ifs with h
  · simp [h]
  · simp [h]

theorem ensureUnique_ok {α : Type} [DecidableEq α] {values : List α} {label : String} :
    ensureUnique values label = .ok () ↔ values.Nodup := ensure_eq_ok

section dictionaries
variable {sections : List (TextbookSection K D)} (hids : (sections.map (·.sectionId)).Nodup)
include hids

theorem parentOf_eq {item : TextbookSection K D} (h : item ∈ sections) :
    parentOf sections item.sectionId = item.parentSectionId := by
  unfold parentOf
  rw [find?_key_eq_some hids h]
  rfl

theorem textbookOf_eq {item : TextbookSection K D} (h : item ∈ sections) :
    textbookOf sections item.sectionId = some item.textbookId := by
  unfold textbookOf
  rw [find?_key_eq_some hids h]
  rfl

omit hids in
theorem parentOf_eq_some {x p : K} (h : parentOf sections x = some p) :
    ∃ item ∈ sections, item.sectionId = x ∧ item.parentSectionId = some p := by
  obtain ⟨item, hfind, hparent⟩ := Option.bind_eq_some_iff.mp h
  exact ⟨item, List.mem_of_find?_eq_some hfind, by simpa using List.find?_some hfind, hparent⟩

theorem textbookOf_eq_some_iff {x t : K} :
    textbookOf sections x = some t ↔ ∃ item ∈ sections, item.sectionId = x ∧ item.textbookId = t := by
  constructor
  · intro h
    obtain ⟨item, hfind, htextbook⟩ := Option.map_eq_some_iff.mp h
    exact ⟨item, List.mem_of_find?_eq_some hfind, by simpa using List.find?_some hfind, htextbook⟩
  · rintro ⟨item, hitem, rfl, rfl⟩
    exact textbookOf_eq hids hitem

theorem validateSectionHierarchy_ok :
    validateSectionHierarchy sections (sections.map (·.sectionId)).toFinset = .ok () ↔
      Hierarchy sections := by
  have hwalk : (∀ item ∈ sections, ∀ p ∈ item.parentSectionId, p ∈ (sections.map (·.sectionId)).toFinset) →
      ((∃ state, (sorted (sections.map (·.sectionId)).toFinset).foldlM
          (visitSection (parentOf sections) (sections.map (·.sectionId)).toFinset.card) (fun _ => 0)
            = .ok state) ↔ ∀ item ∈ sections, Ends (parentOf sections) item.sectionId) := by
    intro hparents
    rw [visitSections_ok]
    · simp
    · intro x _ p hp
      obtain ⟨item, hitem, -, hparent⟩ := parentOf_eq_some hp
      exact hparents item hitem p hparent
  unfold validateSectionHierarchy
  simp only [↓unit_bind_eq_ok, bind_eq_ok, ensure_eq_ok, textbookOf_eq_some_iff hids]
  constructor
  · rintro ⟨hparents, hsame, state, hstate, -⟩
    exact ⟨hsame, (hwalk hparents).mp ⟨state, hstate⟩⟩
  · rintro ⟨hsame, hends⟩
    have hparents : ∀ item ∈ sections, ∀ p ∈ item.parentSectionId,
        p ∈ (sections.map (·.sectionId)).toFinset := by
      intro item hitem p hp
      obtain ⟨other, hother, rfl, -⟩ := hsame item hitem p hp
      exact List.mem_toFinset.mpr (List.mem_map_of_mem hother)
    obtain ⟨state, hstate⟩ := (hwalk hparents).mpr hends
    exact ⟨hparents, hsame, state, hstate, rfl⟩

end dictionaries

theorem validateReconstructable_ok {textbooks : List (Textbook K D)} {sections : List (TextbookSection K D)}
    {mappings : List (TextbookMapping K D)} (hierarchy : Hierarchy sections)
    (hmapped : ∀ item ∈ mappings, item.sectionId ∈ sections.map (·.sectionId))
    (htextbooks : ∀ item ∈ sections, item.textbookId ∈ textbooks.map (·.textbookId)) :
    validateReconstructableTextbookGraph textbooks sections mappings = .ok () ↔
      (∀ item ∈ sections, Reached (parentOf sections) (mappings.map (·.sectionId)).toFinset item.sectionId) ∧
        ∀ item ∈ textbooks, item.textbookId ∈ sections.map (·.textbookId) := by
  have hclosed : ∀ x ∈ (sections.map (·.sectionId)).toFinset, ∀ p ∈ parentOf sections x,
      p ∈ (sections.map (·.sectionId)).toFinset := by
    intro x _ p hp
    obtain ⟨item, hitem, -, hparent⟩ := parentOf_eq_some hp
    obtain ⟨other, hother, rfl, -⟩ := hierarchy.parent item hitem p hparent
    exact List.mem_toFinset.mpr (List.mem_map_of_mem hother)
  have hstart : (mappings.map (·.sectionId)).toFinset ⊆ (sections.map (·.sectionId)).toFinset := by
    intro x hx
    obtain ⟨item, hitem, rfl⟩ := List.mem_map.mp (List.mem_toFinset.mp hx)
    exact List.mem_toFinset.mpr (hmapped item hitem)
  unfold validateReconstructableTextbookGraph
  rw [unit_bind_eq_ok, ensure_eq_ok, ensure_eq_ok]
  refine and_congr ⟨fun h item hitem => ?_, fun h => ?_⟩ ⟨fun h item hitem => ?_, fun h => ?_⟩
  · rw [← mem_reachable hclosed hstart, h]
    exact List.mem_toFinset.mpr (List.mem_map_of_mem hitem)
  · ext x
    rw [mem_reachable hclosed hstart]
    refine ⟨fun hx => hx.mem hstart hclosed, fun hx => ?_⟩
    obtain ⟨item, hitem, rfl⟩ := List.mem_map.mp (List.mem_toFinset.mp hx)
    exact h item hitem
  · rw [← List.mem_toFinset, h]
    exact List.mem_toFinset.mpr (List.mem_map_of_mem hitem)
  · ext t
    rw [List.mem_toFinset, List.mem_toFinset]
    refine ⟨fun ht => ?_, fun ht => ?_⟩
    · obtain ⟨item, hitem, rfl⟩ := List.mem_map.mp ht
      exact htextbooks item hitem
    · obtain ⟨item, hitem, rfl⟩ := List.mem_map.mp ht
      exact h item hitem

/-- **The validator accepts exactly the contents whose references hold.** -/
theorem validateReferences_ok {content : Content K F D} :
    validateReferences content = .ok () ↔ References content := by
  unfold validateReferences
  simp only [↓unit_bind_eq_ok, bind_eq_ok, ensure_eq_ok, uniqueIds_ok, ensureUnique_ok, forM_eq_ok]
  constructor
  · rintro ⟨_, ⟨hkps, rfl⟩, hkpCourse, _, ⟨hedges, -⟩, hrelations, hends, _, ⟨hmisconceptions, rfl⟩,
      hmisconceptionKps, _, ⟨htextbooks, rfl⟩, _, ⟨hsections, rfl⟩, hsectionTextbooks, hhierarchy, _,
      ⟨hmappings, -⟩, hmappingRelations, hmappingEnds, hreconstructable, _, ⟨hquestions, -⟩, hquestion⟩
    simp only [List.mem_toFinset] at *
    rw [validateSectionHierarchy_ok hsections] at hhierarchy
    obtain ⟨hreached, hused⟩ := (validateReconstructable_ok hhierarchy (fun item hitem =>
      (hmappingEnds item hitem).2) hsectionTextbooks).mp hreconstructable
    exact ⟨hkps, hkpCourse, hedges, hrelations, fun item hitem => (hends item hitem).1,
      fun item hitem => (hends item hitem).2, hmisconceptions, hmisconceptionKps, htextbooks, hsections,
      hsectionTextbooks, hhierarchy, hmappings, hmappingRelations, hmappingEnds, hreached, hused, hquestions,
      fun item hitem => ⟨(hquestion item hitem).1, (hquestion item hitem).2.1⟩,
      fun item hitem => (hquestion item hitem).2.2.1, fun item hitem => (hquestion item hitem).2.2.2⟩
  · intro h
    refine ⟨_, ⟨h.kpIds, rfl⟩, h.kpCourse, _, ⟨h.edgeIds, rfl⟩, h.edgeRelations, fun item hitem => ?_, _,
      ⟨h.misconceptionIds, rfl⟩, ?_, _, ⟨h.textbookIds, rfl⟩, _, ⟨h.sectionIds, rfl⟩, ?_,
      (validateSectionHierarchy_ok h.sectionIds).mpr h.hierarchy, _, ⟨h.mappingIds, rfl⟩,
      h.mappingRelations, ?_, ?_, _, ⟨h.questionIds, rfl⟩, fun item hitem => ?_⟩
    · exact ⟨h.edgeCourse item hitem, by simpa only [List.mem_toFinset] using h.edgeEnds item hitem⟩
    · simpa only [List.mem_toFinset] using h.misconceptionKps
    · simpa only [List.mem_toFinset] using h.sectionTextbooks
    · simpa only [List.mem_toFinset] using h.mappingEnds
    · exact (validateReconstructable_ok h.hierarchy (fun item hitem => (h.mappingEnds item hitem).2)
        h.sectionTextbooks).mpr ⟨h.sectionsReached, h.textbooksUsed⟩
    · simp only [List.mem_toFinset]
      exact ⟨(h.questionLists item hitem).1, (h.questionLists item hitem).2, h.questionKps item hitem,
        h.questionMisconceptions item hitem⟩

/-- **The contract accepts exactly the contents within its limits whose references hold.** -/
theorem validateContent_ok {content : Content K F D} :
    validateContent content = .ok () ↔ WithinLimits content ∧ References content := by
  unfold validateContent
  rw [unit_bind_eq_ok, ensure_eq_ok, validateReferences_ok, List.filterMap_eq_nil_iff]
  refine and_congr_left fun _ => forall₂_congr fun entry hentry => ?_
  simp

end references

end CyberControl.Topic1
