import CyberControl.Profiling
import Mathlib.Algebra.Order.BigOperators.Group.Finset

/-! # Evidence across profile versions

A chain of rebuilds, each from the events of its own batch and the previous profile. -/

namespace CyberControl.Profiling

open Finset (range)

/-! ### Counts that start again -/

section carried
variable (counted : ℕ → Prop) [DecidablePred counted] (evidence : ℕ → ℕ)

/-- The count of an item in each version: the evidence of its batch added to the count of the version
before, when the batch has evidence that counts, and no feature otherwise. -/
def carried : ℕ → Option ℕ
  | 0 => if counted 0 then some (evidence 0) else none
  | n + 1 => if counted (n + 1) then some ((carried n).getD 0 + evidence (n + 1)) else none

variable {counted evidence}

theorem carried_ne_none (n : ℕ) : carried counted evidence n ≠ none ↔ counted n := by
  cases n with
  | zero => simp [carried]
  | succ n => simp [carried]

theorem carried_eq_total {n : ℕ} (hn : counted n) :
    carried counted evidence n = some (∑ i ∈ range (n + 1), evidence i) ↔
      ∀ i < n, evidence i ≠ 0 → ∀ j, i ≤ j → j < n → counted j := by
  induction n with
  | zero => simp [carried, hn]
  | succ n ih =>
    rw [carried, if_pos hn, Finset.sum_range_succ, Option.some_inj, Nat.add_right_cancel_iff]
    by_cases hprev : counted n
    · have hsome : carried counted evidence n
          = some ((carried counted evidence n).getD 0) := by
        cases hc : carried counted evidence n with
        | none => exact absurd hc ((carried_ne_none n).mpr hprev)
        | some c => rfl
      rw [hsome, Option.some_inj] at ih
      rw [ih hprev]
      constructor
      · intro h i _ he j hij hj
        by_cases hjn : j = n
        · exact hjn ▸ hprev
        · exact h i (by omega) he j hij (by omega)
      · intro h i hi he j hij hj
        exact h i (by omega) he j hij (by omega)
    · have hnone : carried counted evidence n = none := by
        by_contra hc
        exact hprev ((carried_ne_none n).mp hc)
      rw [hnone, Option.getD_none, eq_comm, Finset.sum_eq_zero_iff]
      constructor
      · intro h i hi he
        exact absurd (h i (Finset.mem_range.mpr hi)) he
      · intro h i hi
        by_contra he
        have hi := Finset.mem_range.mp hi
        exact hprev (h i hi he n (by omega) (by omega))

end carried

/-! ### Chains of rebuilds -/

/-- One rebuild: what it reads besides the previous profile. -/
structure Batch where
  profileId : ℕ
  events : List BehaviorEvent
  graph : CourseGraph
  generatedAt : ℕ

variable (robustBounds : RobustBounds) (learnerRef courseId : String)

/-- Build a profile from each batch and the profile before. -/
def rebuilds : Option Profile → List Batch → Except Exn (List Profile)
  | _, [] => .ok []
  | previous, batch :: batches => do
    let profile ← buildProfile robustBounds batch.profileId learnerRef courseId batch.events
      batch.graph batch.generatedAt previous
    let profiles ← rebuilds (some profile) batches
    .ok (profile :: profiles)

def Batch.accepted (batch : Batch) : List BehaviorEvent :=
  filterOutliers robustBounds batch.events batch.generatedAt

/-- The number of accepted events of a batch that are evidence for an item. -/
def Batch.evidence (batch : Batch) (item : Item) : ℕ :=
  ((batch.accepted robustBounds).filter fun event => item.listings event ≠ 0).length

/-- The accepted evidence events for an item in the batch at a position. -/
def evidenceAt (batches : List Batch) (item : Item) (n : ℕ) : ℕ :=
  (batches[n]?).elim 0 fun batch => batch.evidence robustBounds item

/-- The batch at a position has the item in its course graph. -/
def InGraphAt (batches : List Batch) (item : Item) (n : ℕ) : Prop :=
  ∃ batch ∈ batches[n]?, item.InGraph batch.graph

instance (batches : List Batch) (item : Item) : DecidablePred (InGraphAt batches item) := fun _ =>
  inferInstanceAs (Decidable (∃ _ ∈ _, _))

/-- The batch at a position has evidence for the item, and the item in its course graph. -/
def CountedAt (batches : List Batch) (item : Item) (n : ℕ) : Prop :=
  InGraphAt batches item n ∧ evidenceAt robustBounds batches item n ≠ 0

instance (batches : List Batch) (item : Item) :
    DecidablePred (CountedAt robustBounds batches item) := fun _ =>
  inferInstanceAs (Decidable (_ ∧ _))

/-- Once a version has a feature for an item of the course graph every later one has, and its evidence
count is the number of all accepted evidence events so far. -/
def Accumulates (batches : List Batch) (versions : List Profile) (item : Item) : Prop :=
  ∀ n version, versions[n]? = some version → InGraphAt batches item n →
    (∀ m < n, ∀ earlier, versions[m]? = some earlier → earlier.evidenceCount? item ≠ none →
      version.evidenceCount? item ≠ none) ∧
    ∀ count, version.evidenceCount? item = some count →
      count = ∑ i ∈ range (n + 1), evidenceAt robustBounds batches item i

/-- No batch interrupts the evidence for an item: while the item is in the course graph, a batch has
evidence for it when an earlier one had, and from a batch with evidence to a later one that counts
every batch counts. -/
def Continued (batches : List Batch) (item : Item) : Prop :=
  ∀ n, InGraphAt batches item n →
    ((∃ m < n, CountedAt robustBounds batches item m) → evidenceAt robustBounds batches item n ≠ 0) ∧
    (evidenceAt robustBounds batches item n ≠ 0 → ∀ i < n,
      evidenceAt robustBounds batches item i ≠ 0 →
        ∀ j, i ≤ j → j < n → CountedAt robustBounds batches item j)

/-- Evidence in every batch is continued. -/
theorem continued_of_counted {robustBounds : RobustBounds} {batches : List Batch} {item : Item}
    (h : ∀ n < batches.length, CountedAt robustBounds batches item n) :
    Continued robustBounds batches item := by
  rintro n ⟨batch, hbatch, -⟩
  obtain ⟨hn, -⟩ := List.getElem?_eq_some_iff.mp hbatch
  exact ⟨fun _ => (h n hn).2, fun _ i _ _ j _ hj => h j (by omega)⟩

section chain
variable {robustBounds learnerRef courseId} {seed : Option Profile} {batches : List Batch}
  {versions : List Profile} {item : Item}

theorem rebuilds_length (h : rebuilds robustBounds learnerRef courseId seed batches = .ok versions) :
    versions.length = batches.length := by
  induction batches generalizing seed versions with
  | nil =>
    cases h
    rfl
  | cons batch batches ih =>
    obtain ⟨profile, -, h⟩ := bind_eq_ok.mp h
    obtain ⟨profiles, hrest, h⟩ := bind_eq_ok.mp h
    cases h
    rw [List.length_cons, List.length_cons, ih hrest]

theorem rebuilds_build (h : rebuilds robustBounds learnerRef courseId seed batches = .ok versions)
    {n : ℕ} {batch : Batch} {version : Profile} (hbatch : batches[n]? = some batch)
    (hversion : versions[n]? = some version) :
    buildProfile robustBounds batch.profileId learnerRef courseId batch.events batch.graph
      batch.generatedAt (if n = 0 then seed else versions[n - 1]?) = .ok version := by
  induction batches generalizing seed versions n with
  | nil => simp at hbatch
  | cons first batches ih =>
    obtain ⟨profile, hbuild, h⟩ := bind_eq_ok.mp h
    obtain ⟨profiles, hrest, h⟩ := bind_eq_ok.mp h
    cases h
    cases n with
    | zero =>
      cases hbatch
      cases hversion
      exact hbuild
    | succ n =>
      have hprevious := ih hrest hbatch hversion
      cases n with
      | zero => exact hprevious
      | succ n => exact hprevious

/-- Where no accepted event lists the item twice, its evidence is the number of its events. -/
theorem acceptedListings_eq {batch : Batch}
    (hlisted : ∀ event ∈ batch.accepted robustBounds, item.listings event ≤ 1) :
    acceptedListings robustBounds batch.events batch.generatedAt item
      = batch.evidence robustBounds item := by
  unfold acceptedListings Batch.evidence
  rw [← Batch.accepted]
  generalize batch.accepted robustBounds = events at hlisted ⊢
  induction events with
  | nil => rfl
  | cons event events ih =>
    have hle := hlisted event (by simp)
    rw [List.map_cons, List.sum_cons, ih fun e he => hlisted e (by simp [he]), List.filter_cons]
    by_cases hzero : item.listings event = 0
    · simp [hzero]
    · have hone : item.listings event = 1 := by omega
      simp [hone, Nat.add_comm]

/-- **The versions of a chain hold the counts that start again.** -/
theorem rebuilds_carried (h : rebuilds robustBounds learnerRef courseId seed batches = .ok versions)
    (hseed : ∀ profile ∈ seed, profile.features = [])
    (hlisted : ∀ batch ∈ batches, ∀ event ∈ batch.accepted robustBounds, item.listings event ≤ 1)
    (n : ℕ) {version : Profile} (hversion : versions[n]? = some version) :
    version.evidenceCount? item
      = carried (CountedAt robustBounds batches item) (evidenceAt robustBounds batches item) n := by
  have hlen := rebuilds_length h
  have hstep : ∀ n version, versions[n]? = some version → version.evidenceCount? item
      = if CountedAt robustBounds batches item n then
          some ((((if n = 0 then seed else versions[n - 1]?).bind (·.evidenceCount? item)).getD 0)
            + evidenceAt robustBounds batches item n)
        else none := by
    intro n version hversion
    obtain ⟨hlt, -⟩ := List.getElem?_eq_some_iff.mp hversion
    obtain ⟨batch, hbatch⟩ : ∃ batch, batches[n]? = some batch :=
      ⟨batches[n], List.getElem?_eq_getElem (hlen ▸ hlt)⟩
    obtain ⟨-, -, -, -, -, hcount⟩ := buildProfile_ok (rebuilds_build h hbatch hversion)
    rw [hcount, acceptedListings_eq (hlisted batch (List.mem_of_getElem? hbatch))]
    have hgraph : InGraphAt batches item n ↔ item.InGraph batch.graph := by
      simp [InGraphAt, hbatch]
    have hevidence : evidenceAt robustBounds batches item n = batch.evidence robustBounds item := by
      simp [evidenceAt, hbatch]
    simp only [CountedAt, hgraph, hevidence]
  induction n generalizing version with
  | zero =>
    have hnone : (seed.bind (·.evidenceCount? item)).getD 0 = 0 := by
      cases seed with
      | none => rfl
      | some profile => simp [Profile.evidenceCount?, findFeature, hseed profile rfl]
    rw [hstep 0 version hversion, carried, if_pos rfl, hnone, Nat.zero_add]
  | succ n ih =>
    obtain ⟨hlt, -⟩ := List.getElem?_eq_some_iff.mp hversion
    obtain ⟨earlier, hearlier⟩ : ∃ earlier, versions[n]? = some earlier :=
      ⟨versions[n], List.getElem?_eq_getElem (by omega)⟩
    rw [hstep (n + 1) version hversion, carried, if_neg (Nat.succ_ne_zero n), Nat.add_sub_cancel,
      hearlier, Option.bind_some, ih hearlier]

/-- **Evidence accumulates exactly when no batch interrupts it.**  In every chain of rebuilds whose
accepted events list an item at most once, the item keeps its feature, with the number of all its
accepted evidence events, if and only if its evidence is continued. -/
theorem accumulates_iff_continued
    (h : rebuilds robustBounds learnerRef courseId seed batches = .ok versions)
    (hseed : ∀ profile ∈ seed, profile.features = [])
    (hlisted : ∀ batch ∈ batches, ∀ event ∈ batch.accepted robustBounds, item.listings event ≤ 1) :
    Accumulates robustBounds batches versions item ↔ Continued robustBounds batches item := by
  have hlen := rebuilds_length h
  have hcarried : ∀ n version, versions[n]? = some version → version.evidenceCount? item
      = carried (CountedAt robustBounds batches item) (evidenceAt robustBounds batches item) n :=
    fun n _ hversion => rebuilds_carried h hseed hlisted n hversion
  have hexists : ∀ n, InGraphAt batches item n → ∃ version, versions[n]? = some version := by
    rintro n ⟨batch, hbatch, -⟩
    obtain ⟨hlt, -⟩ := List.getElem?_eq_some_iff.mp hbatch
    exact ⟨versions[n], List.getElem?_eq_getElem (by omega)⟩
  have htotal := fun n => @carried_eq_total (CountedAt robustBounds batches item) _
    (evidenceAt robustBounds batches item) n
  constructor
  · intro hacc n hgraph
    obtain ⟨version, hversion⟩ := hexists n hgraph
    obtain ⟨hkeeps, hcounts⟩ := hacc n version hversion hgraph
    refine ⟨?_, fun hevidence => ?_⟩
    · rintro ⟨m, hm, hcounted⟩
      obtain ⟨earlier, hearlier⟩ := hexists m hcounted.1
      have hsome := hkeeps m hm earlier hearlier
        (by rw [hcarried m _ hearlier]; exact (carried_ne_none m).mpr hcounted)
      rw [hcarried n _ hversion] at hsome
      exact ((carried_ne_none n).mp hsome).2
    · have hcounted : CountedAt robustBounds batches item n := ⟨hgraph, hevidence⟩
      have hne := (@carried_ne_none (CountedAt robustBounds batches item) _
        (evidenceAt robustBounds batches item) n).mpr hcounted
      obtain ⟨count, hcount⟩ := Option.ne_none_iff_exists'.mp hne
      rw [← htotal n hcounted, hcount, hcounts count (by rw [hcarried n _ hversion, hcount])]
  · intro hcont n version hversion hgraph
    obtain ⟨hkeeps, hcounts⟩ := hcont n hgraph
    refine ⟨?_, ?_⟩
    · intro m hm earlier hearlier hsome
      rw [hcarried m _ hearlier] at hsome
      rw [hcarried n _ hversion]
      exact (carried_ne_none n).mpr ⟨hgraph, hkeeps ⟨m, hm, (carried_ne_none m).mp hsome⟩⟩
    · intro count hcount
      rw [hcarried n _ hversion] at hcount
      have hcounted := (carried_ne_none n).mp (by rw [hcount]; exact Option.some_ne_none count)
      have heq := (htotal n hcounted).mpr (hcounts hcounted.2)
      rw [heq] at hcount
      exact (Option.some.inj hcount).symm

end chain

/-! ### An interrupted chain -/

def arithmetic : CourseGraph := ⟨{"KP_sum", "KP_product"}, ∅⟩

/-- An answer about sums, and in the next batch one about products. -/
def interruptedBatches : List Batch :=
  [⟨1, [answer 1 "KP_sum" 10 11], arithmetic, 20⟩, ⟨2, [answer 2 "KP_product" 30 31], arithmetic, 40⟩]

/-- The events of each batch come after the cursor of the version before it. -/
def Incremental (batches : List Batch) (versions : List Profile) : Prop :=
  ∀ n batch previous, batches[n + 1]? = some batch → versions[n]? = some previous →
    ∀ event ∈ batch.events, ∀ cursor ∈ previous.ingestionCursor, cursor < event.cursor

/-- What the versions of a chain show of an item and of their cursors. -/
def shown (item : Item) (batches : List Batch) : Option (List (Option ℕ × Option Cursor)) :=
  (rebuilds noBounds "learner" "COURSE" none batches).toOption.map fun versions =>
    versions.map fun version => (version.evidenceCount? item, version.ingestionCursor)

theorem rebuilds_of_shown {item : Item} {batches : List Batch}
    {values : List (Option ℕ × Option Cursor)} (h : shown item batches = some values) :
    ∃ versions, rebuilds noBounds "learner" "COURSE" none batches = .ok versions ∧
      versions.map (fun version => (version.evidenceCount? item, version.ingestionCursor))
        = values := by
  obtain ⟨versions, hversions, hvalues⟩ := Option.map_eq_some_iff.mp h
  exact ⟨versions, eq_ok_of_toOption hversions, hvalues⟩

theorem shown_interrupted : shown (.knowledgePoint "KP_sum") interruptedBatches
    = some [(some 1, some (toLex (11, 1))), (none, some (toLex (31, 2)))] := by
  decide +kernel

/-- Two answers about sums. -/
def continuedBatches : List Batch :=
  [⟨1, [answer 1 "KP_sum" 10 11], arithmetic, 20⟩, ⟨2, [answer 2 "KP_sum" 30 31], arithmetic, 40⟩]

theorem accumulates_iff_continued_interrupted :
    (∃ versions, rebuilds noBounds "learner" "COURSE" none interruptedBatches = .ok versions ∧
      (Accumulates noBounds interruptedBatches versions (.knowledgePoint "KP_sum") ↔
        Continued noBounds interruptedBatches (.knowledgePoint "KP_sum"))) ∧
      ∃ versions, rebuilds noBounds "learner" "COURSE" none continuedBatches = .ok versions ∧
        versions.map (·.evidenceCount? (.knowledgePoint "KP_sum")) = [some 1, some 2] ∧
        Accumulates noBounds continuedBatches versions (.knowledgePoint "KP_sum") := by
  obtain ⟨versions, hversions, -⟩ := rebuilds_of_shown shown_interrupted
  have hcontinued : shown (.knowledgePoint "KP_sum") continuedBatches
      = some [(some 1, some (toLex (11, 1))), (some 2, some (toLex (31, 2)))] := by
    decide +kernel
  obtain ⟨versions', hversions', hvalues⟩ := rebuilds_of_shown hcontinued
  refine ⟨⟨versions, hversions, accumulates_iff_continued hversions (by simp) (by decide +kernel)⟩,
    versions', hversions', ?_, ?_⟩
  · simpa [Function.comp_def] using congrArg (List.map Prod.fst) hvalues
  · exact (accumulates_iff_continued hversions' (by simp) (by decide +kernel)).mpr
      (continued_of_counted (by decide +kernel))

/-- **A batch about another point drops the feature.**  The second version has no feature for the
sums that the first one has. -/
theorem interrupted_evidence_lost :
    ∃ versions, rebuilds noBounds "learner" "COURSE" none interruptedBatches = .ok versions ∧
      Incremental interruptedBatches versions ∧
      ¬ Accumulates noBounds interruptedBatches versions (.knowledgePoint "KP_sum") := by
  obtain ⟨versions, hversions, hvalues⟩ := rebuilds_of_shown shown_interrupted
  have hlen : versions.length = 2 := by simpa using congrArg List.length hvalues
  obtain ⟨first, second, rfl⟩ := List.length_eq_two.mp hlen
  simp only [List.map_cons, List.map_nil, List.cons.injEq, Prod.mk.injEq, and_true] at hvalues
  obtain ⟨⟨hfirst, hcursor⟩, hsecond, -⟩ := hvalues
  refine ⟨_, hversions, ?_, ?_⟩
  · intro n batch previous hbatch hprevious event hevent cursor hmem
    cases n with
    | zero =>
      cases hbatch
      cases hprevious
      obtain rfl := List.mem_singleton.mp hevent
      rw [hcursor] at hmem
      cases hmem
      decide
    | succ n => simp [interruptedBatches] at hbatch
  · intro h
    have hgraph : InGraphAt interruptedBatches (.knowledgePoint "KP_sum") 1 := by decide
    exact (h 1 second rfl hgraph).1 0 (by omega) first rfl (by simp [hfirst]) hsecond

end CyberControl.Profiling
