import CyberControl.OutboxPublisher

/-! # Publication order of a partition

The invariant of the publishers: the published sequences of each partition are an initial segment
(`Consistent`), and the messages of a task that may still publish are the next ones of its
partition (`Queue`).  Nothing ever takes back a publication: `Evolves` is the relation between a
table and its later states. -/

namespace CyberControl.Outbox

open Scheduling Transition

/-- Sequence `n` of partition `p` is published. -/
def PublishedAt (t : Table) (p : Partition) (n : ℕ) : Prop :=
  ∃ r ∈ t, r.partition = p ∧ r.sequence = n ∧ r.state = .PUBLISHED

/-- Every sequence below `n` of partition `p` is published. -/
def PublishedBelow (t : Table) (p : Partition) (n : ℕ) : Prop := ∀ k < n, PublishedAt t p k

/-- The table meets its constraints, and below a published row everything is published. -/
structure Consistent (t : Table) : Prop where
  valid : Valid t
  below : ∀ r ∈ t, r.state = .PUBLISHED → PublishedBelow t r.partition r.sequence

/-- What stays of a table: the places of its rows, and its published rows. -/
structure Evolves (t t' : Table) : Prop where
  place : ∀ r ∈ t, ∃ r' ∈ t', SamePlace r r'
  published : ∀ r ∈ t, r.state = .PUBLISHED → r ∈ t'

theorem Evolves.refl (t : Table) : Evolves t t := ⟨fun r hr => ⟨r, hr, .refl r⟩, fun _ hr _ => hr⟩

theorem Evolves.trans {t t' t'' : Table} (h : Evolves t t') (h' : Evolves t' t'') : Evolves t t'' where
  place r hr := by
    obtain ⟨r', hr', hp⟩ := h.place r hr
    obtain ⟨r'', hr'', hp'⟩ := h'.place r' hr'
    exact ⟨r'', hr'', hp'.outboxId.trans hp.outboxId, hp'.partition.trans hp.partition,
      hp'.sequence.trans hp.sequence⟩
  published r hr hst := h'.published r (h.published r hr hst) hst

variable {p : Partition} {n : ℕ} {t t' : Table}

theorem PublishedAt.mono (h : PublishedAt t p n)
    (he : Evolves t t') : PublishedAt t' p n := by
  obtain ⟨r, hr, hp, hn, hst⟩ := h
  exact ⟨r, he.published r hr hst, hp, hn, hst⟩

theorem PublishedBelow.mono (h : PublishedBelow t p n)
    (he : Evolves t t') : PublishedBelow t' p n :=
  fun k hk => (h k hk).mono he

/-! ### The published cursor -/

theorem le_foldr_max {l : List ℕ} (h : n ∈ l) : n ≤ l.foldr max 0 := by
  induction l with
  | nil => simp at h
  | cons a l ih =>
    rw [List.foldr_cons]
    rcases List.mem_cons.mp h with rfl | h
    · exact le_max_left _ _
    · exact (ih h).trans (le_max_right _ _)

theorem foldr_max_mem {l : List ℕ} (h : l.foldr max 0 ≠ 0) : l.foldr max 0 ∈ l := by
  induction l with
  | nil => exact absurd rfl h
  | cons a l ih =>
    rw [List.foldr_cons] at h ⊢
    rcases le_total a (l.foldr max 0) with hle | hle
    · rw [max_eq_right hle] at h ⊢
      exact List.mem_cons_of_mem _ (ih h)
    · rw [max_eq_left hle]
      exact List.mem_cons_self

variable {t : Table}

theorem Consistent.publishedAt_iff (h : Consistent t) (p : Partition) (n : ℕ) :
    PublishedAt t p n ↔ n < publishedCursor t p := by
  have hmem : ∀ m, m ∈ ((t.filter fun r => r.partition = p ∧ r.state = .PUBLISHED).map
      fun r => r.sequence + 1) ↔ ∃ r ∈ t, r.partition = p ∧ r.state = .PUBLISHED ∧ r.sequence + 1 = m := by
    intro m
    simp [and_assoc]
  constructor
  · rintro ⟨r, hr, hp, rfl, hst⟩
    exact le_foldr_max ((hmem _).mpr ⟨r, hr, hp, hst, rfl⟩)
  · intro hn
    have hne : publishedCursor t p ≠ 0 := by omega
    obtain ⟨r, hr, hp, hst, hseq⟩ := (hmem _).mp (foldr_max_mem hne)
    have heq : r.sequence + 1 = publishedCursor t p := hseq
    rcases Nat.lt_or_ge n r.sequence with hlt | hge
    · exact hp ▸ h.below r hr hst n hlt
    · obtain rfl : n = r.sequence := by omega
      exact ⟨r, hr, hp, rfl, hst⟩

/-! ### Row-wise changes -/

/-- A change of one row that keeps its place, leaves it alone when it is published, and publishes
it only behind published rows. -/
structure RowStep (t : Table) (r r' : Row) : Prop where
  place : SamePlace r r'
  kept : r.state = .PUBLISHED → r' = r
  published : r'.state = .PUBLISHED → r.state = .PUBLISHED ∨ PublishedBelow t r.partition r.sequence

theorem RowStep.refl (t : Table) (r : Row) : RowStep t r r := ⟨.refl r, fun _ => rfl, .inl⟩

variable {f : Row → Row}

theorem evolves_map (hf : ∀ r ∈ t, RowStep t r (f r)) :
    Evolves t (t.map f) where
  place r hr := ⟨f r, List.mem_map_of_mem hr, (hf r hr).place⟩
  published r hr hst := by
    have heq := (hf r hr).kept hst
    exact List.mem_map.mpr ⟨r, hr, heq⟩

theorem Consistent.map (h : Consistent t)
    (hf : ∀ r ∈ t, RowStep t r (f r)) : Consistent (t.map f) where
  valid := valid_map h.valid fun r hr => (hf r hr).place
  below r' hr' hst := by
    obtain ⟨r, hr, rfl⟩ := List.mem_map.mp hr'
    rw [(hf r hr).place.partition, (hf r hr).place.sequence]
    rcases (hf r hr).published hst with hpub | hbelow
    · exact (h.below r hr hpub).mono (evolves_map hf)
    · exact hbelow.mono (evolves_map hf)

theorem rowStep_recover (t : Table) (now : ℕ) (r : Row) : RowStep t r (r.recover now) where
  place := samePlace_recover now r
  kept hst := by
    unfold Row.recover
    rw [if_neg]
    simp [hst]
  published hst := .inl ((recover_published now r).mp hst)

variable {w : Worker}

theorem rowStep_updateClaimed {ids : List ℕ}
    (hplace : ∀ r, SamePlace r (f r)) (hst : ∀ r, r.state = .CLAIMED → (f r).state ≠ .PUBLISHED)
    (r : Row) : RowStep t r (if r.outboxId ∈ ids ∧ r.ClaimedBy w then f r else r) := by
  split
  · rename_i hc
    have hclaimed : r.state = .CLAIMED := hc.2.1
    exact ⟨hplace r, fun hp => by simp [hclaimed] at hp, fun hp => absurd hp (hst r hclaimed)⟩
  · exact RowStep.refl t r

theorem release_state (availableAt : ℕ) (errorCode : Option String) (restore : Bool) (r : Row) :
    (r.release availableAt errorCode restore).state ≠ .PUBLISHED := by
  simp only [Row.release]
  split <;> split <;> simp

/-! ### Tables after the repository calls -/

/-- The later table is consistent, and what held of the earlier one holds of it. -/
structure Later (t t' : Table) : Prop where
  consistent : Consistent t'
  evolves : Evolves t t'

theorem Consistent.later_map (h : Consistent t)
    (hf : ∀ r ∈ t, RowStep t r (f r)) : Later t (t.map f) :=
  ⟨h.map hf, evolves_map hf⟩

theorem Consistent.refl (h : Consistent t) : Later t t := ⟨h, .refl t⟩

theorem Consistent.renewClaims (h : Consistent t) (lease : ℕ) (ids : List ℕ) (w : Worker)
    (now : ℕ) : Later t (renewClaims lease t ids w now).2 :=
  h.later_map fun r _ => rowStep_updateClaimed (f := Row.renew (now + lease))
    (fun _ => ⟨rfl, rfl, rfl⟩) (fun r hr => by simp [Row.renew, hr]) r

theorem Consistent.releaseClaim (h : Consistent t) (id : ℕ) (w : Worker)
    (availableAt : ℕ) (errorCode : Option String) (restore : Bool) :
    Later t (releaseClaim t id w availableAt errorCode restore).2 :=
  h.later_map fun r _ => rowStep_updateClaimed (f := Row.release availableAt errorCode restore)
    (fun _ => ⟨rfl, rfl, rfl⟩) (fun r _ => release_state availableAt errorCode restore r) r

theorem Consistent.markPublished (h : Consistent t) {id : ℕ} {r₀ : Row} (hr₀ : r₀ ∈ t)
    (hid : r₀.outboxId = id) (hbelow : PublishedBelow t r₀.partition r₀.sequence) (w : Worker)
    (publishedAt : ℕ) : Later t (markPublished t id w publishedAt).2 := by
  refine h.later_map fun r hr => ?_
  split
  · rename_i hc
    obtain rfl : r = r₀ := h.valid.eq_of_outboxId hr hr₀ (by simpa [hid] using hc.1)
    exact ⟨⟨rfl, rfl, rfl⟩, fun hp => by simp [hc.2.1] at hp, fun _ => .inr hbelow⟩
  · exact RowStep.refl t r

theorem publishedAt_markPublished (h : Valid t) {id : ℕ} {r₀ : Row} (hr₀ : r₀ ∈ t)
    (hid : r₀.outboxId = id) (publishedAt : ℕ) (hone : countClaimed t w [id] = 1) :
    PublishedAt (markPublished t id w publishedAt).2 r₀.partition r₀.sequence := by
  obtain ⟨r, hr⟩ := List.length_pos_iff_exists_mem.mp
    (show 0 < (t.filter fun r => r.outboxId ∈ [id] ∧ r.ClaimedBy w).length from by
      rw [show (t.filter fun r => r.outboxId ∈ [id] ∧ r.ClaimedBy w).length = 1 from hone]
      exact Nat.one_pos)
  simp only [List.mem_filter, decide_eq_true_eq] at hr
  obtain ⟨hrt, hc⟩ := hr
  obtain rfl : r = r₀ := h.eq_of_outboxId hrt hr₀ (by simpa [hid] using hc.1)
  refine ⟨r.publish publishedAt, List.mem_map.mpr ⟨r, hrt, if_pos hc⟩, rfl, rfl, rfl⟩

theorem Consistent.append (h : Consistent t) {outboxId : ℕ}
    {priority : MessagePriority} {maxAttempts availableAt createdAt : ℕ}
    (hid : outboxId ∉ t.map Row.outboxId) :
    Later t (append t outboxId p priority maxAttempts availableAt createdAt) := by
  have hseq : ∀ r ∈ t, r.partition = p → r.sequence < nextSequence t p := by
    intro r hr hp
    refine le_foldr_max (List.mem_map.mpr ⟨r, ?_, rfl⟩)
    simp [hr, hp]
  have hevolves : Evolves t (Outbox.append t outboxId p priority maxAttempts availableAt createdAt) :=
    ⟨fun r hr => ⟨r, List.mem_append_left _ hr, .refl r⟩, fun r hr _ => List.mem_append_left _ hr⟩
  refine ⟨⟨⟨?_, ?_⟩, fun r hr hst => ?_⟩, hevolves⟩
  · rw [Outbox.append, List.map_append, List.nodup_append]
    refine ⟨h.valid.outboxId, by simp, ?_⟩
    rintro a ha b hb rfl
    rw [List.map_singleton, List.mem_singleton] at hb
    have ha' : a = outboxId := hb
    exact hid (ha' ▸ ha)
  · rw [Outbox.append, List.map_append, List.nodup_append]
    refine ⟨h.valid.sequence, by simp, ?_⟩
    rintro a ha b hb rfl
    rw [List.map_singleton, List.mem_singleton] at hb
    obtain ⟨r, hr, hra⟩ := List.mem_map.mp ha
    have hrb := hra.trans hb
    rw [Prod.mk.injEq] at hrb
    have hlt := hseq r hr hrb.1
    have hne := hrb.2
    simp only at hne
    omega
  · rcases List.mem_append.mp hr with hr | hr
    · exact (h.below r hr hst).mono hevolves
    · rw [List.mem_singleton] at hr
      subst hr
      cases hst

/-! ### Claims -/

theorem Consistent.claim (h : Consistent t) (w : Worker) (lease limit now : ℕ) :
    Later t (updateRows t ((claimedRows t now limit).map Row.outboxId) (Row.claim w now lease)) := by
  refine h.later_map fun r hr => ?_
  split
  · rename_i hmem
    obtain ⟨r', hr', hid⟩ := List.mem_map.mp hmem
    obtain ⟨hrt', hcl⟩ := mem_claimedRows hr'
    obtain rfl := h.valid.eq_of_outboxId hrt' hr hid
    exact ⟨⟨rfl, rfl, rfl⟩, fun hp => by simp [hcl.1] at hp, fun hp => by simp [Row.claim] at hp⟩
  · exact RowStep.refl t r

/-- **The messages a task may still publish**: the next ones of its partition, each with its row. -/
structure Queue (t : Table) (p : Partition) (ms : List Message) : Prop where
  place : ∀ m ∈ ms, ∃ r ∈ t, r.outboxId = messageId m ∧ r.partition = p ∧
    r.sequence = m.row.sequence
  consecutive : ∃ n, ms.map (fun m => m.row.sequence) = List.range' n ms.length ∧ PublishedBelow t p n

variable {ms : List Message}

theorem Queue.mono (h : Queue t p ms)
    (he : Evolves t t') : Queue t' p ms where
  place m hm := by
    obtain ⟨r, hr, hid, hp, hs⟩ := h.place m hm
    obtain ⟨r', hr', hplace⟩ := he.place r hr
    exact ⟨r', hr', hplace.outboxId.trans hid, hplace.partition.trans hp, hplace.sequence.trans hs⟩
  consecutive := by
    obtain ⟨n, hms, hbelow⟩ := h.consecutive
    exact ⟨n, hms, hbelow.mono he⟩

theorem Queue.below {m : Message}
    (h : Queue t p (m :: ms)) : PublishedBelow t p m.row.sequence := by
  obtain ⟨n, hms, hbelow⟩ := h.consecutive
  rw [List.map_cons, List.length_cons, List.range'_succ, List.cons.injEq] at hms
  exact hms.1 ▸ hbelow

theorem Queue.tail {m : Message}
    (h : Queue t p (m :: ms)) (hm : PublishedAt t p m.row.sequence) : Queue t p ms := by
  refine ⟨fun m' hm' => h.place m' (List.mem_cons_of_mem _ hm'), ?_⟩
  have hbelow := h.below
  obtain ⟨n, hms, -⟩ := h.consecutive
  rw [List.map_cons, List.length_cons, List.range'_succ, List.cons.injEq] at hms
  refine ⟨n + 1, hms.2, fun k hk => ?_⟩
  rcases Nat.lt_or_ge k m.row.sequence with hlt | hge
  · exact hbelow k hlt
  · obtain rfl : k = m.row.sequence := by omega
    exact hm

/-- The messages of a task that has yet to publish are a queue of its partition. -/
def Task.Ready (t : Table) (p : Partition) : Task → Prop
  | .head rest => Queue t p rest
  | .sinking m rest => Queue t p (m :: rest)
  | .marking m rest => Queue t p (m :: rest)
  | .releasing _ _ => True
  | .releasingTail _ => True

variable {task : Task}

theorem Task.Ready.mono (h : task.Ready t p)
    (he : Evolves t t') : task.Ready t' p := by
  cases task with
  | head rest => exact Queue.mono h he
  | sinking m rest => exact Queue.mono h he
  | marking m rest => exact Queue.mono h he
  | releasing m rest => trivial
  | releasingTail rest => trivial

theorem Task.ready_tail {rest : List Message}
    (h : tail rest = some task) : task.Ready t p := by
  cases rest with
  | nil => cases h
  | cons m rest =>
    cases h
    trivial

theorem Task.ready_loop {rest : List Message}
    (hq : Queue t p rest) (h : loop rest = some task) : task.Ready t p := by
  cases rest with
  | nil => cases h
  | cons m rest =>
    cases h
    exact hq

variable {lease : ℕ}

/-- **Step lemma for one task.** -/
theorem Task.Steps.ready
    {task' : Option Task} {a : TaskAction} (h : Consistent t) (hready : task.Ready t p)
    (hs : Task.Steps lease w t task a t' task') :
    Later t t' ∧ ∀ u ∈ task', u.Ready t' p := by
  cases hs with
  | abandoned => exact ⟨h.refl, by simp⟩
  | renewed rest now _ _ _ ht hu =>
    have hl : Later t t' := by
      rcases ht with rfl | rfl
      · exact h.refl
      · exact h.renewClaims lease _ w now
    refine ⟨hl, fun u hmem => ?_⟩
    rcases hu with rfl | rfl
    · cases hmem
      exact hready.mono hl.evolves
    · exact ready_tail hmem
  | handedOver m rest =>
    refine ⟨h.refl, fun u hmem => ?_⟩
    cases hmem
    exact hready
  | sinkReturned m rest =>
    refine ⟨h.refl, fun u hmem => ?_⟩
    cases hmem
    exact hready
  | sinkRaised m rest =>
    refine ⟨h.refl, fun u hmem => ?_⟩
    cases hmem
    trivial
  | published m rest publishedAt outcome hone =>
    have hq : Queue t p (m :: rest) := hready
    obtain ⟨r, hr, hid, rfl, hseq⟩ := hq.place m List.mem_cons_self
    have hbelow : PublishedBelow t r.partition r.sequence := hseq ▸ hq.below
    have hl := h.markPublished hr hid hbelow w publishedAt
    have hpub := publishedAt_markPublished h.valid hr hid publishedAt hone
    exact ⟨hl, fun u hmem => ready_loop ((hq.mono hl.evolves).tail (hseq ▸ hpub)) hmem⟩
  | notPublished m rest publishedAt _ _ ht =>
    have hq : Queue t p (m :: rest) := hready
    refine ⟨?_, fun u hmem => by cases hmem; trivial⟩
    rcases ht with rfl | rfl
    · exact h.refl
    · obtain ⟨r, hr, hid, rfl, hseq⟩ := hq.place m List.mem_cons_self
      exact h.markPublished hr hid (hseq ▸ hq.below) w publishedAt
  | released m rest availableAt errorCode _ _ ht =>
    refine ⟨?_, fun u hmem => ready_tail hmem⟩
    rcases ht with rfl | rfl
    · exact h.refl
    · exact h.releaseClaim _ w availableAt errorCode false
  | tailReleased rest outboxId availableAt errorCode _ _ ht =>
    refine ⟨?_, fun u hmem => ready_tail hmem⟩
    rcases ht with rfl | rfl
    · exact h.refl
    · exact h.releaseClaim _ w availableAt errorCode true

/-! ### The system -/

/-- **The order invariant.** -/
structure InOrder (s : System) : Prop where
  consistent : Consistent s.table
  tasks : ∀ w p task, (p, task) ∈ s.tasks w → task.Ready s.table p

theorem ready_partitionTasks (h : Consistent t) {lease limit now : ℕ}
    (hmem : (p, task) ∈ partitionTasks ((claimedRows t now limit).map fun r =>
      ⟨r.claim w now lease, some r.sequence⟩)) : task.Ready t p := by
  let toMessage : Row → Message := fun r => ⟨r.claim w now lease, some r.sequence⟩
  obtain ⟨⟨q, g⟩, hg, heq⟩ := List.mem_map.mp hmem
  cases heq
  obtain ⟨-, rfl⟩ := mem_groupBy.mp hg
  let rows := (claimedRows t now limit).filter fun r => r.partition = q
  have hgroup : ((claimedRows t now limit).map toMessage).filter (fun m => m.row.partition = q) =
      rows.map toMessage := by
    rw [List.filter_map]
    rfl
  obtain ⟨n, hn⟩ := claimedRows_consecutive t now limit q
  have hseq : (rows.map toMessage).map (fun m => m.row.sequence) =
      List.range' (publishedCursor t q) n := by
    rw [List.map_map]
    exact hn
  have hsorted : sortBy (fun m : Message => m.row.sequence) (rows.map toMessage) =
      rows.map toMessage := by
    refine List.Pairwise.insertionSort_eq ?_
    rw [← List.pairwise_map (f := fun m : Message => m.row.sequence) (R := (· ≤ ·)), hseq]
    exact List.pairwise_le_range'
  have hlen : n = (rows.map toMessage).length := by
    have := congrArg List.length hseq
    simpa using this.symm
  change Queue t q (sortBy _ (((claimedRows t now limit).map toMessage).filter _))
  rw [hgroup, hsorted]
  refine ⟨fun m hm => ?_, publishedCursor t q, hlen ▸ hseq, fun k hk => (h.publishedAt_iff q k).mpr hk⟩
  obtain ⟨r, hr, rfl⟩ := List.mem_map.mp hm
  simp only [rows, List.mem_filter, decide_eq_true_eq] at hr
  exact ⟨r, (mem_claimedRows hr.1).1, rfl, hr.2, rfl⟩

theorem claimBatch_ok {limit now : ℕ} {due : Bool}
    {messages : List Message} (h : claimBatch lease t w limit now due = .ok (messages, t')) :
    messages = (claimedRows (recoverWhenDue t now due) now limit).map
        (fun r => ⟨r.claim w now lease, some r.sequence⟩) ∧
      t' = updateRows (recoverWhenDue t now due)
        ((claimedRows (recoverWhenDue t now due) now limit).map Row.outboxId)
        (Row.claim w now lease) := by
  obtain ⟨-, h⟩ := unit_bind_eq_ok.mp h
  cases h
  exact ⟨rfl, rfl⟩

theorem Consistent.recoverWhenDue (h : Consistent t) (now : ℕ) (due : Bool) :
    Later t (recoverWhenDue t now due) := by
  have hrec : Later t (recoverExpiredClaims t now) := h.later_map fun r _ => rowStep_recover t now r
  unfold Outbox.recoverWhenDue
  split
  · exact hrec
  · split
    · exact hrec
    · exact h.refl

namespace InOrder

variable {lease : ℕ} {s s' : System}

theorem init : InOrder System.init where
  consistent := ⟨⟨by simp [System.init], by simp [System.init]⟩, by simp [System.init]⟩
  tasks w p task h := by simp [System.init] at h

/-- **Step lemma.** -/
theorem step {a : Action} (h : InOrder s) (hs : Outbox.step lease s a = some s') :
    InOrder s' ∧ Evolves s.table s'.table := by
  cases a with
  | append outboxId p priority maxAttempts availableAt createdAt =>
    simp only [Outbox.step, guarded_eq_some] at hs
    obtain ⟨⟨hid, -⟩, rfl⟩ := hs
    have hl : Later s.table (append s.table outboxId p priority maxAttempts availableAt createdAt) :=
      h.consistent.append hid
    exact ⟨⟨hl.consistent, fun w q task hm => (h.tasks w q task hm).mono hl.evolves⟩, hl.evolves⟩
  | claim w limit now due =>
    simp only [Outbox.step, Option.ite_none_right_eq_some] at hs
    obtain ⟨-, hs⟩ := hs
    split at hs
    · cases hs
      exact ⟨h, .refl _⟩
    · rename_i messages t hclaim
      cases hs
      obtain ⟨rfl, rfl⟩ := claimBatch_ok hclaim
      have hrec := h.consistent.recoverWhenDue now due
      have hcl := hrec.consistent.claim w lease limit now
      have he := hrec.evolves.trans hcl.evolves
      refine ⟨⟨hcl.consistent, fun w' q task hm => ?_⟩, he⟩
      by_cases hw : w' = w
      · subst hw
        simp only [System.startBatch, Function.update_self] at hm
        exact (ready_partitionTasks hrec.consistent hm).mono hcl.evolves
      · simp only [System.startBatch, Function.update_of_ne hw] at hm
        exact (h.tasks w' q task hm).mono he
  | crash w =>
    simp only [Outbox.step, Option.some.injEq] at hs
    subst hs
    refine ⟨⟨h.consistent, fun w' q task hm => ?_⟩, .refl _⟩
    by_cases hw : w' = w
    · subst hw
      simp at hm
    · simp only [Function.update_of_ne hw] at hm
      exact h.tasks w' q task hm
  | task w p a =>
    simp only [Outbox.step, Option.bind_eq_some_iff, Option.map_eq_some_iff] at hs
    obtain ⟨task, htask, ⟨t, task'⟩, hstep, rfl⟩ := hs
    have hmem := mem_of_lookup htask
    obtain ⟨hl, hready⟩ :=
      (Task.steps_of_step hstep).ready h.consistent (h.tasks w p task hmem)
    have htasks : (s.record w task a).tasks = s.tasks := by
      unfold System.record
      split <;> rfl
    refine ⟨⟨hl.consistent, fun w' q u hm => ?_⟩, hl.evolves⟩
    simp only [System.afterTask, htasks] at hm
    by_cases hw : w' = w
    · subst hw
      simp only [Function.update_self] at hm
      rcases mem_setTask hm with hm | ⟨v, hv, heq⟩
      · exact (h.tasks w' q u hm).mono hl.evolves
      · cases heq
        exact hready _ hv
    · simp only [Function.update_of_ne hw] at hm
      exact (h.tasks w' q u hm).mono hl.evolves

end InOrder

theorem inOrder_of_run {as : List Action} {s : System}
    (h : run (step lease) System.init as = some s) : InOrder s :=
  run_invariant (fun _ _ _ hI hs => (hI.step hs).1) InOrder.init h

theorem evolves_of_run {as : List Action} {s s' : System} (hI : InOrder s)
    (h : run (step lease) s as = some s') : Evolves s.table s'.table := by
  induction as generalizing s with
  | nil =>
    cases h
    exact .refl _
  | cons a as ih =>
    obtain ⟨t, ht, hr⟩ := run_cons_eq_some.mp h
    exact (hI.step ht).2.trans (ih (hI.step ht).1 hr)

/-- **Publication order.**  In every state of every run of any workers: the published sequences of
each partition are `0, …, c - 1` for its cursor `c`, each in one row; whatever happens later, a
published row stays as it is; and a message that has just been handed to the sink, or is being
delivered, has every smaller sequence of its partition published. -/
theorem published_initial_segment (lease : ℕ) (as : List Action) (s : System)
    (h : run (step lease) System.init as = some s) :
    (∀ p n, PublishedAt s.table p n ↔ n < publishedCursor s.table p) ∧
    (s.table.map fun r => (r.partition, r.sequence)).Nodup ∧
    (∀ bs s', run (step lease) s bs = some s' →
      ∀ r ∈ s.table, r.state = .PUBLISHED → r ∈ s'.table) ∧
    ∀ w p m rest, (p, Task.sinking m rest) ∈ s.tasks w → PublishedBelow s.table p m.row.sequence ∧
      ∃ r ∈ s.table, r.outboxId = messageId m ∧ r.partition = p ∧ r.sequence = m.row.sequence := by
  have hI := inOrder_of_run h
  refine ⟨hI.consistent.publishedAt_iff, hI.consistent.valid.sequence, fun bs s' hr r hmem hst => ?_,
    fun w p m rest hm => ?_⟩
  · exact (evolves_of_run hI hr).published r hmem hst
  · have hq : Queue s.table p (m :: rest) := hI.tasks w p _ hm
    exact ⟨hq.below, hq.place m List.mem_cons_self⟩

/-- A worker publishes the first message of a batch of two and is inside the sink with the second. -/
theorem published_initial_segment_two :
    let p : Partition := ("t", "p")
    let as : List Action := [.append 0 p .NORMAL 3 0 0, .append 1 p .NORMAL 3 0 1,
      .claim "w" 2 1 true, .task "w" p .handOver, .task "w" p .sinkReturns,
      .task "w" p (.mark 2 .done), .task "w" p .handOver]
    ∃ s, run (step 30) System.init as = some s ∧ publishedCursor s.table p = 1 ∧
      PublishedAt s.table p 0 := by
  intro p as
  have hrun : (run (step 30) System.init as).map (fun s => publishedCursor s.table p) = some 1 := by
    decide +kernel
  obtain ⟨s, hs, hcursor⟩ := Option.map_eq_some_iff.mp hrun
  exact ⟨s, hs, hcursor, ((published_initial_segment 30 as s hs).1 p 0).mpr (by omega)⟩

end CyberControl.Outbox
