import CyberControl.Outbox

/-! # When the dispatcher claims what a tenant's repository would claim

The dispatcher reads only the first `candidateLimit` claimable rows in dispatch order and looks
for heads of partitions among them.  Rows behind a blocked head (one that is `DEAD`, delayed or
claimed) are claimable and take places in the window, although none of them can be claimed. -/

namespace CyberControl.Outbox

open Scheduling

/-! ### The window -/

variable {t : Table} {now limit : ℕ}

theorem claimedRows_eq_nil (hlimit : limit ≠ 0) :
    claimedRows t now limit = [] ↔
      ∀ r ∈ candidates t now limit, r.sequence ≠ publishedCursor t r.partition := by
  rw [claimedRows, roundRobin_eq_nil hlimit]
  simp only [mem_sortBy, contiguous, List.mem_filter, List.mem_map, decide_eq_true_eq]
  constructor
  · intro h r hr
    let g := (candidates t now limit).filter fun a => a.partition = r.partition
    have hmem : (r.partition, g) ∈ groupBy Row.partition (candidates t now limit) :=
      mem_groupBy.mpr ⟨List.mem_map_of_mem hr, rfl⟩
    have hrun : takeRun Row.sequence (publishedCursor t r.partition) (sortBy Row.sequence g) = [] := by
      by_contra hne
      exact hne (h _ ⟨⟨_, hmem, rfl⟩, hne⟩)
    have hg : r ∈ sortBy Row.sequence g := by simp [g, hr]
    exact (takeRun_eq_nil _ pairwise_sortBy).mp hrun r hg
  · rintro h q ⟨⟨⟨k, g⟩, hmem, rfl⟩, hne⟩
    obtain ⟨-, rfl⟩ := mem_groupBy.mp hmem
    refine absurd ((takeRun_eq_nil _ pairwise_sortBy).mpr fun a ha => ?_) hne
    simp only [mem_sortBy, List.mem_filter, decide_eq_true_eq] at ha
    exact ha.2 ▸ h a ha.1

theorem dispatchKey_nodup (h : Valid t) (l : List Row) (hl : l.Sublist t) :
    (l.map Row.dispatchKey).Nodup := by
  have hkeys : (l.map fun r => (r.partition, r.sequence)).Nodup :=
    h.sequence.sublist (hl.map _)
  let decode : (ℕ ×ₗ ℕ ×ₗ ℕ ×ₗ String ×ₗ String ×ₗ ℕ) → Partition × ℕ := fun k =>
    let place := ofLex (ofLex (ofLex (ofLex k).2).2).2
    ((place.1, (ofLex place.2).1), (ofLex place.2).2)
  have hdecode : (l.map fun r => (r.partition, r.sequence)) = (l.map Row.dispatchKey).map decode := by
    rw [List.map_map]
    rfl
  rw [hdecode] at hkeys
  exact hkeys.of_map _

variable {r : Row}

theorem mem_candidates (h : Valid t) :
    r ∈ candidates t now limit ↔ r ∈ t ∧ r.Claimable now ∧
      (t.filter fun x => x.Claimable now ∧ x.dispatchKey < r.dispatchKey).length <
        candidateLimit limit := by
  have hnodup := dispatchKey_nodup h (t.filter (Row.Claimable now)) List.filter_sublist
  have hcount : ((t.filter (Row.Claimable now)).filter fun x => x.dispatchKey < r.dispatchKey) =
      t.filter fun x => x.Claimable now ∧ x.dispatchKey < r.dispatchKey := by
    rw [List.filter_filter]
    refine List.filter_congr fun x _ => ?_
    simp [Bool.and_comm]
  constructor
  · intro hr
    have hmem : r ∈ t.filter (Row.Claimable now) := mem_sortBy.mp (List.mem_of_mem_take hr)
    have hlt := (mem_take_sortBy hnodup hmem _).mp hr
    rw [hcount] at hlt
    obtain ⟨hrt, hcl⟩ := List.mem_filter.mp hmem
    exact ⟨hrt, by simpa using hcl, hlt⟩
  · rintro ⟨hrt, hcl, hlt⟩
    have hmem : r ∈ t.filter (Row.Claimable now) := List.mem_filter.mpr ⟨hrt, by simpa using hcl⟩
    refine (mem_take_sortBy hnodup hmem _).mpr ?_
    rwa [hcount]

/-! ### Recovery -/

theorem recoverWhenDue_eq (t : Table) (now : ℕ) (due : Bool) :
    recoverWhenDue t now due = recoverExpiredClaims t now := by
  unfold recoverWhenDue
  split
  · rfl
  · split
    · rfl
    · rename_i hnone
      simp only [List.any_eq_true, decide_eq_true_eq, not_exists, not_and_or] at hnone
      symm
      refine (List.map_congr_left fun r hr => ?_).trans (List.map_id t)
      refine recover_eq_self fun h => ?_
      rcases hnone r with h' | h'
      · exact h' hr
      · exact h'.elim (fun h' => h' h.1) fun h' => h' h.2

section map
variable {f : Row → Row} (hf : ∀ r, SamePlace r (f r))
  (hpub : ∀ r, (f r).state = .PUBLISHED ↔ r.state = .PUBLISHED)
include hf hpub

theorem publishedCursor_map (t : Table) (p : Partition) :
    publishedCursor (t.map f) p = publishedCursor t p := by
  unfold publishedCursor
  induction t with
  | nil => rfl
  | cons r t ih =>
    have hr := hf r
    by_cases h : r.partition = p ∧ r.state = .PUBLISHED
    · have h' : (f r).partition = p ∧ (f r).state = .PUBLISHED :=
        ⟨hr.partition.trans h.1, (hpub r).mpr h.2⟩
      rw [List.map_cons, List.filter_cons_of_pos (by simpa using h'),
        List.filter_cons_of_pos (by simpa using h), List.map_cons, List.map_cons,
        List.foldr_cons, List.foldr_cons, hr.sequence, ih]
    · have h' : ¬ ((f r).partition = p ∧ (f r).state = .PUBLISHED) := fun h' =>
        h ⟨hr.partition.symm.trans h'.1, (hpub r).mp h'.2⟩
      rw [List.map_cons, List.filter_cons_of_neg (by simpa using h'),
        List.filter_cons_of_neg (by simpa using h), ih]

theorem eligible_map {now : ℕ} :
    Eligible (t.map f) now (f r) ↔ (f r).Claimable now ∧
      r.sequence = publishedCursor t r.partition ∧
      ¬ ∃ earlier ∈ t, earlier.partition = r.partition ∧ earlier.sequence < r.sequence ∧
        earlier.state ≠ .PUBLISHED := by
  have hr := hf r
  unfold Eligible
  rw [publishedCursor_map hf hpub, hr.partition, hr.sequence]
  refine and_congr_right fun _ => and_congr_right fun _ => not_congr ?_
  simp only [List.mem_map]
  constructor
  · rintro ⟨_, ⟨e, he, rfl⟩, hp, hs, hst⟩
    exact ⟨e, he, (hf e).partition ▸ hp, (hf e).sequence ▸ hs, fun h => hst ((hpub e).mpr h)⟩
  · rintro ⟨e, he, hp, hs, hst⟩
    exact ⟨f e, ⟨e, he, rfl⟩, (hf e).partition.trans hp, (hf e).sequence ▸ hs,
      fun h => hst ((hpub e).mp h)⟩

end map

/-! ### The two claims -/

variable {tenantId : String}

theorem tenantRows_eq_nil (hlimit : limit ≠ 0) :
    tenantRows t tenantId now limit = [] ↔
      ∀ r ∈ t, r.tenantId = tenantId → ¬ Eligible t now r := by
  unfold tenantRows
  rw [List.take_eq_nil_iff]
  simp only [hlimit, false_or, ← List.length_eq_zero_iff, perm_sortBy.length_eq]
  simp only [List.length_eq_zero_iff, List.filter_eq_nil_iff, decide_eq_true_eq, not_and]

variable {worker : Worker}

theorem validateClaimRequest_ok {limit : ℕ}
    (h : validateClaimRequest worker limit = .ok ()) : limit ≠ 0 := by
  unfold validateClaimRequest at h
  split at h
  · cases h
  · split at h
    · cases h
    · omega

/-- The eligible rows of a tenant do not depend on the recovery of other tenants' claims. -/
theorem eligible_recoverTenantClaims {now : ℕ}
    (htenant : r.tenantId = tenantId) :
    (r ∈ recoverTenantClaims t tenantId now ∧ Eligible (recoverTenantClaims t tenantId now) now r) ↔
      (r ∈ recoverExpiredClaims t now ∧ Eligible (recoverExpiredClaims t now) now r) := by
  let f : Row → Row := fun r => if r.tenantId = tenantId then r.recover now else r
  have hf : ∀ r, SamePlace r (f r) := by
    intro r
    by_cases h : r.tenantId = tenantId
    · simpa [f, h] using samePlace_recover now r
    · simpa [f, h] using SamePlace.refl r
  have hpub : ∀ r, (f r).state = .PUBLISHED ↔ r.state = .PUBLISHED := by
    intro r
    by_cases h : r.tenantId = tenantId
    · simpa [f, h] using recover_published now r
    · simp [f, h]
  have hfr : ∀ x : Row, x.tenantId = tenantId → f x = x.recover now := fun x hx => by simp [f, hx]
  constructor
  · rintro ⟨hr, he⟩
    obtain ⟨x, hx, rfl⟩ := List.mem_map.mp hr
    have heq := hfr x ((hf x).tenantId.symm.trans htenant)
    have hmem : x.recover now ∈ t.map (Row.recover now) := List.mem_map_of_mem hx
    have hel : Eligible (t.map (Row.recover now)) now (x.recover now) :=
      (eligible_map (samePlace_recover now) (recover_published now)).mpr (heq ▸ (eligible_map hf hpub).mp he)
    rw [← heq] at hmem hel
    exact ⟨hmem, hel⟩
  · rintro ⟨hr, he⟩
    obtain ⟨x, hx, rfl⟩ := List.mem_map.mp hr
    have heq := hfr x ((samePlace_recover now x).tenantId.symm.trans htenant)
    have hmem : f x ∈ t.map f := List.mem_map_of_mem hx
    have hel : Eligible (t.map f) now (f x) :=
      (eligible_map hf hpub).mpr (heq ▸ (eligible_map (samePlace_recover now) (recover_published now)).mp he)
    rw [heq] at hmem hel
    exact ⟨hmem, hel⟩

theorem claims_some {r : Except Exn (List Message × Table)} {rows : List Row} {f : Row → Message}
    (h : r = .ok (rows.map f, t)) : (∃ m ms t', r = .ok (m :: ms, t')) ↔ rows ≠ [] := by
  rw [h]
  cases rows <;> simp

/-- A tenant's repository claims a row exactly when one of the tenant is eligible. -/
theorem tenant_claims_iff {lease : ℕ}
    {limit now : ℕ} (hok : validateClaimRequest worker limit = .ok ()) :
    (∃ m ms t', tenantClaimBatch lease t tenantId worker limit now = .ok (m :: ms, t')) ↔
      ∃ r ∈ recoverExpiredClaims t now, r.tenantId = tenantId ∧
        Eligible (recoverExpiredClaims t now) now r := by
  let t₁ := recoverTenantClaims t tenantId now
  have hrun : tenantClaimBatch lease t tenantId worker limit now =
      .ok ((tenantRows t₁ tenantId now limit).map fun r => ⟨r.claim worker now lease, some r.sequence⟩,
        updateRows t₁ ((tenantRows t₁ tenantId now limit).map Row.outboxId)
          (Row.claim worker now lease)) := by
    simp [tenantClaimBatch, hok, bind, Except.bind, pure, Except.pure, t₁]
  have hnil : tenantRows t₁ tenantId now limit = [] ↔ _ :=
    tenantRows_eq_nil (validateClaimRequest_ok hok)
  rw [claims_some hrun, ne_eq, hnil]
  simp only [not_forall, not_not, exists_prop]
  refine exists_congr fun r => ⟨?_, ?_⟩
  · rintro ⟨hr, htenant, he⟩
    obtain ⟨hr', he'⟩ := (eligible_recoverTenantClaims htenant).mp ⟨hr, he⟩
    exact ⟨hr', htenant, he'⟩
  · rintro ⟨hr, htenant, he⟩
    obtain ⟨hr', he'⟩ := (eligible_recoverTenantClaims htenant).mpr ⟨hr, he⟩
    exact ⟨hr', htenant, he'⟩

/-- Some claimable row at the cursor of its partition has fewer than `candidateLimit` claimable
rows before it. -/
def HeadInWindow (t : Table) (now limit : ℕ) : Prop :=
  ∃ r ∈ t, r.Claimable now ∧ r.sequence = publishedCursor t r.partition ∧
    (t.filter fun x => x.Claimable now ∧ x.dispatchKey < r.dispatchKey).length < candidateLimit limit

instance (t : Table) (now limit : ℕ) : Decidable (HeadInWindow t now limit) :=
  inferInstanceAs (Decidable (∃ _ ∈ _, _))

theorem dispatcher_claims_of_window {lease : ℕ} (ht : Valid t)
    {limit now : ℕ} {due : Bool} (hok : validateClaimRequest worker limit = .ok ()) :
    (∃ m ms t', claimBatch lease t worker limit now due = .ok (m :: ms, t')) ↔
      HeadInWindow (recoverExpiredClaims t now) now limit := by
  let t₁ := recoverExpiredClaims t now
  have ht₁ : Valid t₁ := valid_map ht fun r _ => samePlace_recover now r
  have hrun : claimBatch lease t worker limit now due =
      .ok ((claimedRows t₁ now limit).map fun r => ⟨r.claim worker now lease, some r.sequence⟩,
        updateRows t₁ ((claimedRows t₁ now limit).map Row.outboxId) (Row.claim worker now lease)) := by
    simp [claimBatch, hok, recoverWhenDue_eq, bind, Except.bind, pure, Except.pure, t₁]
  rw [claims_some hrun, ne_eq, claimedRows_eq_nil (validateClaimRequest_ok hok)]
  simp only [not_forall, not_not, exists_prop]
  refine exists_congr fun r => ?_
  rw [mem_candidates ht₁]
  constructor
  · rintro ⟨⟨hr, hcl, hlt⟩, hseq⟩
    exact ⟨hr, hcl, hseq, hlt⟩
  · rintro ⟨hr, hcl, hseq, hlt⟩
    exact ⟨⟨hr, hcl, hlt⟩, hseq⟩

/-- **The dispatcher against the tenants' repositories.**  For every table and every well-formed
request: if a tenant's repository would claim a row then so does the dispatcher, exactly when no
row is eligible or the head of some partition is in the dispatcher's window. -/
theorem dispatcher_claims_iff (lease : ℕ) (t : Table) (ht : Valid t) (worker : Worker)
    (limit now : ℕ) (due : Bool) (hok : validateClaimRequest worker limit = .ok ()) :
    ((∃ tenantId m ms t', tenantClaimBatch lease t tenantId worker limit now = .ok (m :: ms, t')) →
      ∃ m ms t', claimBatch lease t worker limit now due = .ok (m :: ms, t')) ↔
    (∀ r ∈ recoverExpiredClaims t now, ¬ Eligible (recoverExpiredClaims t now) now r) ∨
      HeadInWindow (recoverExpiredClaims t now) now limit := by
  have htenant : (∃ tenantId m ms t',
      tenantClaimBatch lease t tenantId worker limit now = .ok (m :: ms, t')) ↔
        ∃ r ∈ recoverExpiredClaims t now, Eligible (recoverExpiredClaims t now) now r := by
    simp only [tenant_claims_iff hok]
    constructor
    · rintro ⟨_, r, hr, -, he⟩
      exact ⟨r, hr, he⟩
    · rintro ⟨r, hr, he⟩
      exact ⟨r.tenantId, r, hr, rfl, he⟩
  rw [dispatcher_claims_of_window ht hok, htenant, imp_iff_not_or]
  simp only [not_exists, not_and]

theorem eligible_recover {now : ℕ} (hr : r ∈ t) (he : Eligible t now r) :
    r ∈ recoverExpiredClaims t now ∧ Eligible (recoverExpiredClaims t now) now r := by
  have hself : r.recover now = r := recover_eq_self fun h => by simp [he.1.1] at h
  have hmem : r.recover now ∈ recoverExpiredClaims t now := List.mem_map_of_mem hr
  have hel : Eligible (recoverExpiredClaims t now) now (r.recover now) :=
    (eligible_map (samePlace_recover now) (recover_published now)).mpr ⟨hself.symm ▸ he.1, he.2⟩
  exact ⟨hself ▸ hmem, hself ▸ hel⟩

/-- A claim of a pending row, beside a row behind a dead head in the window. -/
theorem dispatcher_claims_beside_blocked :
    let row (id : ℕ) (p : String) (n : ℕ) (state : OutboxStatus) (priority : MessagePriority) : Row :=
      ⟨id, "t", p, n, state, priority, 0, 3, 0, n, none, none, none, none, none⟩
    let t : Table := [row 0 "a" 0 .PENDING .NORMAL, row 1 "b" 0 .DEAD .CRITICAL, row 2 "b" 1 .PENDING .CRITICAL]
    ∃ m ms t', claimBatch 30 t "w" 1 5 true = .ok (m :: ms, t') := by
  intro row t
  have hwindow : HeadInWindow (recoverExpiredClaims t 5) 5 1 :=
    ⟨row 0 "a" 0 .PENDING .NORMAL, by decide, by decide, by decide, by decide⟩
  refine (dispatcher_claims_iff 30 t ⟨by decide, by decide⟩ "w" 1 5 true (by decide)).mpr (.inr hwindow) ?_
  exact ⟨"t", (tenant_claims_iff (by decide)).mpr ⟨row 0 "a" 0 .PENDING .NORMAL, by decide, rfl, by decide⟩⟩

/-- A partition whose head is dead and which has eight later critical rows hides the only row
that can be claimed from a claim with limit one. -/
theorem blocked_partition_fills_window :
    let row (id : ℕ) (p : String) (n : ℕ) (state : OutboxStatus) (priority : MessagePriority) : Row :=
      ⟨id, "t", p, n, state, priority, 0, 3, 0, n, none, none, none, none, none⟩
    let t : Table := row 0 "a" 0 .PENDING .NORMAL :: row 1 "b" 0 .DEAD .CRITICAL ::
      (List.range 8).map fun n => row (n + 2) "b" (n + 1) .PENDING .CRITICAL
    Valid t ∧ Eligible t 9 (row 0 "a" 0 .PENDING .NORMAL) ∧
      (∃ m ms t', tenantClaimBatch 30 t "t" "w" 1 9 = .ok (m :: ms, t')) ∧
      ¬ ∃ m ms t', claimBatch 30 t "w" 1 9 true = .ok (m :: ms, t') := by
  intro row t
  have ht : Valid t := ⟨by decide, by decide⟩
  have he : Eligible t 9 (row 0 "a" 0 .PENDING .NORMAL) := by decide
  obtain ⟨hr', he'⟩ := eligible_recover (by simp [t]) he
  refine ⟨ht, he, (tenant_claims_iff (by decide)).mpr ⟨_, hr', rfl, he'⟩, ?_⟩
  rw [dispatcher_claims_of_window ht (by decide)]
  decide

end CyberControl.Outbox
