import CyberControl.KahnGreedy
import CyberControl.PathPlanning

/-! # Manual orders of a learning path

When `_ordered_nodes` of `domains/topic2/path_planning.py` follows a manual order that the prerequisites
allow. -/

namespace CyberControl.PathPlanning

open Collections CyberControl.Digraph Kahn
open Relation

variable (selected : Finset String) (edges : List Prerequisite)

/-- A topological order of the selected points. -/
structure TopologicalOrder (order : List String) : Prop where
  nodup : order.Nodup
  mem : ∀ v, v ∈ order ↔ v ∈ selected
  forward : ∀ edge ∈ edges, edge.prerequisiteKpId ∈ selected → edge.dependentKpId ∈ selected →
    order.idxOf edge.prerequisiteKpId < order.idxOf edge.dependentKpId

/-- The listed points stand in their listed order. -/
def Keeps (manual order : List String) : Prop := manual.Pairwise fun a b => order.idxOf a < order.idxOf b

/-- The transitive prerequisites of a point that are not listed. -/
def Unlisted (manual : List String) (kpId : String) : Set String :=
  {w | w ∉ manual ∧ TransGen (Leads (selectedEdges selected edges)) w kpId}

/-- The bottlenecks among the unlisted prerequisites do not decrease along the list, in the order of tier,
score and identifier. -/
def Rising (total : String → ℚ) (tier : String → LearningTier) (manual : List String) : Prop :=
  manual.Pairwise fun a b => ∀ la lb,
    Bottlenecks (Leads (selectedEdges selected edges)) (nodeKey selected total tier manual)
      (Unlisted selected edges manual a) la →
    Bottlenecks (Leads (selectedEdges selected edges)) (nodeKey selected total tier manual)
      (Unlisted selected edges manual b) lb →
    ¬ lb.map (nodeKey selected total tier manual) < la.map (nodeKey selected total tier manual)

variable {selected edges} {total : String → ℚ} {tier : String → LearningTier}

/-! ### Keys -/

theorem nodeKey_injective (manual : List String) : Function.Injective (nodeKey selected total tier manual) := by
  intro a b h
  exact congrArg (fun key => (ofLex (ofLex (ofLex key).2).2).2) h

variable {manual : List String}

theorem nodeKey_lt_of_fst {a b : String}
    (h : (ofLex (nodeKey selected total tier manual a)).1 < (ofLex (nodeKey selected total tier manual b)).1) :
    nodeKey selected total tier manual a < nodeKey selected total tier manual b :=
  Prod.Lex.lt_iff.mpr (.inl h)

theorem nodeKey_listed (hknown : ∀ v ∈ manual, v ∈ selected) (hnodup : manual.Nodup)
    {a b : String} (ha : a ∈ manual) (hb : b ∉ manual) :
    nodeKey selected total tier manual a < nodeKey selected total tier manual b := by
  apply nodeKey_lt_of_fst
  have hsub : manual.toFinset ⊆ selected := fun v hv => hknown v (List.mem_toFinset.mp hv)
  have hcard := Finset.card_le_card hsub
  have hindex := List.idxOf_lt_length_of_mem ha
  rw [List.toFinset_card_of_nodup hnodup] at hcard
  simp only [nodeKey, ofLex_toLex, if_pos ha, if_neg hb]
  omega

theorem nodeKey_pairwise (hnodup : manual.Nodup) :
    manual.Pairwise fun a b => nodeKey selected total tier manual a < nodeKey selected total tier manual b := by
  rw [List.pairwise_iff_getElem]
  intro i j hi hj hij
  apply nodeKey_lt_of_fst
  simp only [nodeKey, ofLex_toLex, if_pos (List.getElem_mem hi), if_pos (List.getElem_mem hj)]
  rwa [hnodup.idxOf_getElem i hi, hnodup.idxOf_getElem j hj]

/-! ### The order of the loop -/

variable {manualOrder : Option (List String)}

/-- **The order of `_ordered_nodes`** has the least key that could stand in each place. -/
theorem orderedNodes_greedy {ordered : List String}
    {repairs : List GraphRepair}
    (h : orderedNodes selected edges total tier manualOrder = .ok (ordered, repairs)) :
    TopologicalOrder selected edges ordered ∧ repairs = orderingRepairs selected ordered manualOrder ∧
      Greedy (Leads (selectedEdges selected edges)) (nodeKey selected total tier (manualOrder.getD []))
        (selected : Set String) ordered.idxOf := by
  obtain ⟨hnodup, hmem, hforward⟩ := orderedNodes_ok h
  simp only [orderedNodes] at h
  split_ifs at h with hunknown hduplicate hlen
  cases h
  have hleast : Least (outgoing (selectedEdges selected edges))
      (nodeKey selected total tier (manualOrder.getD [])) selected _ :=
    least_loop selectedEdges_closed selected.card inv_firstReady (by simp [Least, firstReady])
  refine ⟨⟨hnodup, hmem, hforward⟩, rfl, ?_, ?_, ?_, ?_⟩
  · rintro u v ⟨edge, hedge, rfl, rfl⟩
    exact (mem_selectedEdges.mp hedge).2
  · intro u hu v _ heq
    exact (List.idxOf_inj ((hmem u).mpr hu)).mp heq
  · rintro u v ⟨edge, hedge, rfl, rfl⟩
    obtain ⟨hedge, hp, hd⟩ := mem_selectedEdges.mp hedge
    exact hforward edge hedge hp hd
  · intro c hc z hz hlt hbefore
    exact hleast c ((hmem c).mpr hc) z hz hlt fun u _ huz => hbefore u (mem_outgoing.mp huz)

theorem zip_tail_of_pairwise {α : Type} {R : α → α → Prop} {l : List α} (h : l.Pairwise R) :
    ∀ pair ∈ l.zip l.tail, R pair.1 pair.2 := by
  induction l with
  | nil => simp
  | cons a l ih =>
    cases l with
    | nil => simp
    | cons b l =>
      obtain ⟨ha, hl⟩ := List.pairwise_cons.mp h
      intro pair hpair
      rw [List.tail_cons, List.zip_cons_cons, List.mem_cons] at hpair
      cases hpair with
      | inl heq => exact heq ▸ ha b List.mem_cons_self
      | inr hpair => exact ih hl pair hpair

theorem orderingRepairs_eq_nil {ordered : List String}
    (h : Keeps (manualOrder.getD []) ordered) : orderingRepairs selected ordered manualOrder = [] := by
  cases manualOrder with
  | none => rfl
  | some manual =>
    have hrequested := zip_tail_of_pairwise (List.Pairwise.filter (fun kpId => kpId ∈ selected) h)
    unfold orderingRepairs
    refine if_neg ?_
    rw [List.any_eq_true]
    rintro ⟨pair, hpair, hless⟩
    have hkept := hrequested pair hpair
    have hless := of_decide_eq_true hless
    omega

/-! ### What keeps the manual order -/

theorem TopologicalOrder.forward_of_transGen {order : List String} (h : TopologicalOrder selected edges order)
    {u v : String} (huv : TransGen (Leads (selectedEdges selected edges)) u v) :
    order.idxOf u < order.idxOf v := by
  have hstep : ∀ u v, Leads (selectedEdges selected edges) u v → order.idxOf u < order.idxOf v := by
    rintro u v ⟨edge, hedge, rfl, rfl⟩
    obtain ⟨hedge, hp, hd⟩ := mem_selectedEdges.mp hedge
    exact h.forward edge hedge hp hd
  induction huv with
  | single huv => exact hstep _ _ huv
  | tail _ hvw ih => exact ih.trans (hstep _ _ hvw)

theorem waiting_eq (manual : List String) (position : String → ℕ) (kpId : String) :
    Waiting (Leads (selectedEdges selected edges)) (· ∈ manual) position 0 kpId
      = Unlisted selected edges manual kpId := by
  ext w
  exact ⟨fun h => ⟨h.1, h.2.1⟩, fun h => ⟨h.1, h.2, Nat.zero_le _⟩⟩

theorem same_order {α β γ : Type} [Preorder β] [Preorder γ] {l : List α} {f : α → β} {g : α → γ}
    (hf : l.Pairwise fun a b => f a < f b) (hg : l.Pairwise fun a b => g a < g b) :
    ∀ a ∈ l, ∀ b ∈ l, f a < f b ↔ g a < g b := by
  have hboth : l.Pairwise fun a b => (f a < f b ↔ g a < g b) ∧ (f b < f a ↔ g b < g a) :=
    (hf.and hg).imp fun h => ⟨iff_of_true h.1 h.2, iff_of_false h.1.asymm h.2.asymm⟩
  have : Std.Symm fun a b => (f a < f b ↔ g a < g b) ∧ (f b < f a ↔ g b < g a) := ⟨fun _ _ h => ⟨h.2, h.1⟩⟩
  have hall := hboth.forall_of_forall fun a _ =>
    ⟨iff_of_false (lt_irrefl _) (lt_irrefl _), iff_of_false (lt_irrefl _) (lt_irrefl _)⟩
  exact fun a ha b hb => (hall ha hb).1

/-- **A greedy order keeps a manual order** that is possible exactly when the bottlenecks rise. -/
theorem keeps_iff {manual ordered feasible : List String} (hknown : ∀ v ∈ manual, v ∈ selected)
    (hnodup : manual.Nodup) (hgreedy : Greedy (Leads (selectedEdges selected edges))
      (nodeKey selected total tier manual) (selected : Set String) ordered.idxOf)
    (hfeasible : TopologicalOrder selected edges feasible) (hkeeps : Keeps manual feasible) :
    Keeps manual ordered ↔ Rising selected edges total tier manual := by
  have hfavoured : ∀ a b, a ∈ manual → ¬ b ∈ manual →
      nodeKey selected total tier manual a < nodeKey selected total tier manual b :=
    fun a b ha hb => nodeKey_listed hknown hnodup ha hb
  have hkey : Function.Injective (nodeKey selected total tier manual) := nodeKey_injective manual
  have hkeys : manual.Pairwise fun a b =>
    nodeKey selected total tier manual a < nodeKey selected total tier manual b := nodeKey_pairwise hnodup
  have hsame := same_order hkeys hkeeps
  have hacyclic : Acyclic (Leads (selectedEdges selected edges)) :=
    fun v hv => lt_irrefl _ (hfeasible.forward_of_transGen hv)
  have hfinite : ∀ kpId, (Unlisted selected edges manual kpId).Finite := by
    refine fun kpId => selected.finite_toSet.subset fun w hw => ?_
    exact (hgreedy.mem_nodes hw.2).1
  constructor
  · intro hkept
    refine List.Pairwise.imp_of_mem (fun {a b} _ hb hab la lb hla hlb hlt => ?_) hkept
    rw [← waiting_eq manual ordered.idxOf] at hla hlb
    have hba := hgreedy.before_of_lt hfavoured hkey (hknown b hb) hb hlb hla hlt
    omega
  · intro hrising
    refine List.Pairwise.imp_of_mem (fun {a b} ha hb h => ?_) ((hkeys.and hkeeps).and hrising)
    obtain ⟨⟨hkeyab, hab⟩, hnotlt⟩ := h
    obtain ⟨la, hla⟩ : ∃ la, Bottlenecks (Leads (selectedEdges selected edges))
      (nodeKey selected total tier manual) _ la := exists_bottlenecks hacyclic (hfinite a)
    obtain ⟨lb, hlb⟩ : ∃ lb, Bottlenecks (Leads (selectedEdges selected edges))
      (nodeKey selected total tier manual) _ lb := exists_bottlenecks hacyclic (hfinite b)
    have hnotlt := hnotlt la lb hla hlb
    rw [← waiting_eq manual ordered.idxOf] at hla hlb
    refine hgreedy.before_of_not_lt hfavoured hkey (hknown a ha) ha (hknown b hb) hkeyab ?_ ?_ (Nat.zero_le _)
      hla hlb hnotlt
    · intro z hz hza
      by_contra hlt
      have haz := (hsame a ha z hz).mp (not_le.mp hlt)
      have hza := hfeasible.forward_of_transGen hza
      omega
    · intro hba
      have hba := hfeasible.forward_of_transGen hba
      omega

/-- **Manual orders.** A manual order that some topological order keeps is kept, without a repair, exactly
when the bottlenecks among the unlisted prerequisites of its points do not decrease along it. -/
theorem orderedNodes_keeps_iff (hacyclic : Acyclic (Leads edges))
    (hknown : ∀ v ∈ manualOrder.getD [], v ∈ selected) (hnodup : (manualOrder.getD []).Nodup)
    (hfeasible : ∃ order, TopologicalOrder selected edges order ∧ Keeps (manualOrder.getD []) order) :
    (∃ ordered, orderedNodes selected edges total tier manualOrder = .ok (ordered, []) ∧
      TopologicalOrder selected edges ordered ∧ Keeps (manualOrder.getD []) ordered) ↔
      Rising selected edges total tier (manualOrder.getD []) := by
  obtain ⟨⟨ordered, repairs⟩, hordered⟩ : ∃ result,
    orderedNodes selected edges total tier manualOrder = .ok result :=
      orderedNodes_total hacyclic hknown hnodup
  obtain ⟨htopological, hrepairs, hgreedy⟩ := orderedNodes_greedy hordered
  obtain ⟨feasible, hfeasible, hkeeps⟩ := hfeasible
  have hiff := keeps_iff hknown hnodup hgreedy hfeasible hkeeps
  constructor
  · rintro ⟨other, hother, -, hkept⟩
    cases hordered.symm.trans hother
    exact hiff.mp hkept
  · intro hrising
    have hkept := hiff.mpr hrising
    rw [orderingRepairs_eq_nil hkept] at hrepairs
    exact ⟨ordered, hrepairs ▸ hordered, htopological, hkept⟩

/-! ### Two orders of three points -/

def threePoints : Finset String := {"KP_limits", "KP_sum", "KP_product"}

/-- Limits are a prerequisite of sums. -/
def limitsFirst : List Prerequisite := [⟨"EDGE_1", "KP_limits", "KP_sum", .REQUIRED, 1⟩]

theorem acyclic_limitsFirst : Acyclic (Leads limitsFirst) := by
  refine acyclic_of_rank ["KP_limits", "KP_sum"].idxOf ?_
  rintro a b ⟨edge, hedge, rfl, rfl⟩
  rw [List.mem_singleton.mp hedge]
  decide

theorem topological_sum : TopologicalOrder threePoints limitsFirst ["KP_limits", "KP_sum", "KP_product"] where
  nodup := by decide
  mem := by simp [threePoints]
  forward := by decide

theorem topological_product :
    TopologicalOrder threePoints limitsFirst ["KP_product", "KP_limits", "KP_sum"] where
  nodup := by decide
  mem := by
    intro v
    simp only [threePoints, List.mem_cons, List.not_mem_nil, or_false, Finset.mem_insert,
      Finset.mem_singleton]
    tauto
  forward := by decide

/-- Products before sums are possible, and kept. -/
theorem orderedNodes_keeps_product : ∃ ordered, orderedNodes threePoints limitsFirst (fun _ => 0)
      (fun _ => .FOUNDATION) (some ["KP_product", "KP_sum"]) = .ok (ordered, []) ∧
    TopologicalOrder threePoints limitsFirst ordered ∧ Keeps ["KP_product", "KP_sum"] ordered := by
  have hknown : ∀ v ∈ (some ["KP_product", "KP_sum"]).getD [], v ∈ threePoints := by decide
  have hkeeps : Keeps ((some ["KP_product", "KP_sum"]).getD []) ["KP_product", "KP_limits", "KP_sum"] := by
    unfold Keeps
    decide
  refine (orderedNodes_keeps_iff acyclic_limitsFirst hknown (by decide)
    ⟨_, topological_product, hkeeps⟩).mpr ?_
  -- nothing leads to products
  have hproduct : Unlisted threePoints limitsFirst ["KP_product", "KP_sum"] "KP_product" = ∅ := by
    refine Set.eq_empty_of_forall_notMem fun w hw => ?_
    obtain ⟨u, -, edge, hedge, -, hproduct⟩ := TransGen.tail'_iff.mp hw.2
    rw [List.mem_singleton.mp (mem_selectedEdges.mp hedge).1] at hproduct
    exact absurd hproduct (by decide)
  refine List.pairwise_pair.mpr fun la lb hla _ hlt => ?_
  cases la with
  | nil => exact List.not_lt_nil _ hlt
  | cons a la =>
    have ha := hla.of_cons.1
    rw [Option.getD_some, hproduct] at ha
    exact Set.notMem_empty a ha

/-- **Sums before products** are possible too, but products are put first, and a repair is reported. -/
theorem unlisted_prerequisite_overtakes : Acyclic (Leads limitsFirst) ∧
    TopologicalOrder threePoints limitsFirst ["KP_limits", "KP_sum", "KP_product"] ∧
    Keeps ["KP_sum", "KP_product"] ["KP_limits", "KP_sum", "KP_product"] ∧
    (∀ v ∈ ["KP_sum", "KP_product"], v ∈ threePoints) ∧ ["KP_sum", "KP_product"].Nodup ∧
    orderedNodes threePoints limitsFirst (fun _ => 0) (fun _ => .FOUNDATION) (some ["KP_sum", "KP_product"])
      = .ok (["KP_product", "KP_limits", "KP_sum"], [⟨"MANUAL_ORDER_TOPOLOGY_REPAIRED", none,
        "Prerequisite constraints took precedence over manual ordering."⟩]) := by
  have hrun : (orderedNodes threePoints limitsFirst (fun _ => 0) (fun _ => .FOUNDATION)
      (some ["KP_sum", "KP_product"])).toOption = some (["KP_product", "KP_limits", "KP_sum"],
        [⟨"MANUAL_ORDER_TOPOLOGY_REPAIRED", none,
          "Prerequisite constraints took precedence over manual ordering."⟩]) := by decide +kernel
  have hkeeps : Keeps ["KP_sum", "KP_product"] ["KP_limits", "KP_sum", "KP_product"] := by
    unfold Keeps
    decide
  exact ⟨acyclic_limitsFirst, topological_sum, hkeeps, by decide, by decide, eq_ok_of_toOption hrun⟩

end CyberControl.PathPlanning
