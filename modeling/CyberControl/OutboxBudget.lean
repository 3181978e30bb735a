import CyberControl.OutboxOrder
import CyberControl.OutboxWindow

/-! # The delivery budget of a message

A claim adds one to `attempts` of every row of the batch, before the sink is invoked for any of
them.  So `attempts` is at most the number of sink calls, plus one while the row is claimed and
its message has not been handed to the sink (`Row.Charged`).  Releasing the tail of a batch takes
the one back; `_recover_expired_claims` does not. -/

namespace CyberControl.Outbox

open Scheduling Transition

/-- The accounting of one row: its attempts are sink calls, but for the current claim when its
message has not been handed over, and a dead row has used up its attempts. -/
structure Row.Charged (invoked : ℕ → ℕ) (handed : ℕ → Bool) (r : Row) : Prop where
  attempts : r.state ≠ .PUBLISHED → r.attempts ≤ invoked r.outboxId +
    if r.state = .CLAIMED ∧ handed r.outboxId = false then 1 else 0
  dead : r.state = .DEAD → r.maxAttempts ≤ r.attempts

/-- The message in delivery, from the call of the sink to the release of its claim. -/
def Task.current : Task → Option Message
  | .head _ => none
  | .sinking m _ => some m
  | .marking m _ => some m
  | .releasing m _ => some m
  | .releasingTail _ => none

/-- **The accounting invariant.** -/
structure Budget (s : System) : Prop where
  charged : ∀ r ∈ s.table, r.Charged s.invoked s.handed
  handed : ∀ w p task, (p, task) ∈ s.tasks w → ∀ m ∈ task.current, ∀ r ∈ s.table,
    r.outboxId = messageId m → r.ClaimedBy w → s.handed r.outboxId = true

/-! ### Rows -/

variable {w : Worker} {now : ℕ}

section rows
variable {invoked : ℕ → ℕ} {handed : ℕ → Bool} {r : Row}

theorem Row.Charged.of_not_claimed (h : r.Charged invoked handed) (hp : r.state ≠ .PUBLISHED)
    (hc : r.state ≠ .CLAIMED) : r.attempts ≤ invoked r.outboxId := by
  have ha := h.attempts hp
  rw [if_neg (fun h => hc h.1)] at ha
  exact ha

theorem Row.Charged.of_handed (h : r.Charged invoked handed) (hp : r.state ≠ .PUBLISHED)
    (hh : handed r.outboxId = true) : r.attempts ≤ invoked r.outboxId := by
  have ha := h.attempts hp
  rw [if_neg (fun h => by simp [hh] at h)] at ha
  exact ha

theorem charged_release {restore : Bool} {availableAt : ℕ} {errorCode : Option String}
    (h : (if restore then r.attempts - 1 else r.attempts) ≤ invoked r.outboxId) :
    (r.release availableAt errorCode restore).Charged invoked handed where
  attempts _ := Nat.le_trans h (Nat.le_add_right _ _)
  dead hst := by
    simp only [Row.release] at hst ⊢
    by_contra hlt
    rw [if_neg (by omega)] at hst
    cases hst

theorem charged_recover (h : r.Charged invoked handed)
    (hexp : r.state = .CLAIMED → r.claimExpiresAt.any (· ≤ now) → handed r.outboxId = true) :
    (r.recover now).Charged invoked handed := by
  by_cases hc : r.state = .CLAIMED ∧ r.claimExpiresAt.any (· ≤ now)
  · have hle := h.of_handed (by simp [hc.1]) (hexp hc.1 hc.2)
    rw [Row.recover, if_pos hc]
    refine ⟨fun _ => Nat.le_trans hle (Nat.le_add_right _ _), fun hst => ?_⟩
    simp only at hst ⊢
    by_contra hlt
    rw [if_neg (by omega)] at hst
    cases hst
  · rwa [recover_eq_self hc]

theorem charged_claim {now lease : ℕ} (h : r.Charged invoked handed)
    (hst : r.state = .PENDING) (hh : handed r.outboxId = false) :
    (r.claim w now lease).Charged invoked handed where
  attempts _ := by
    have hle := h.of_not_claimed (by simp [hst]) (by simp [hst])
    have hc : (r.claim w now lease).state = .CLAIMED ∧
        handed (r.claim w now lease).outboxId = false := ⟨rfl, hh⟩
    rw [if_pos hc]
    exact Nat.succ_le_succ hle
  dead hst := by simp [Row.claim] at hst

theorem Row.Charged.congr {handed' : ℕ → Bool} (h : r.Charged invoked handed)
    (hh : handed' r.outboxId = handed r.outboxId) : r.Charged invoked handed' :=
  ⟨fun hp => by rw [hh]; exact h.attempts hp, h.dead⟩

end rows

/-! ### Steps of a task -/

/-- What the steps of a task other than the hand-over do: they keep the accounting, make no row
claimed, and work on no new message. -/
structure Task.Keeps (invoked : ℕ → ℕ) (handed : ℕ → Bool) (t t' : Table) (task : Task)
    (task' : Option Task) : Prop where
  charged : ∀ r ∈ t', r.Charged invoked handed
  claimed : ∀ r' ∈ t', ∀ w, r'.ClaimedBy w → ∃ r ∈ t, r.outboxId = r'.outboxId ∧ r.ClaimedBy w
  current : ∀ u ∈ task', ∀ m ∈ u.current, m ∈ task.current

variable {t : Table}

theorem mem_updateClaimed {ids : List ℕ} {f : Row → Row} {r' : Row}
    (h : r' ∈ updateClaimed t w ids f) :
    ∃ r ∈ t, (r' = r ∧ ¬ (r.outboxId ∈ ids ∧ r.ClaimedBy w)) ∨
      (r' = f r ∧ r.outboxId ∈ ids ∧ r.ClaimedBy w) := by
  obtain ⟨r, hr, rfl⟩ := List.mem_map.mp h
  refine ⟨r, hr, ?_⟩
  split
  · rename_i hc
    exact .inr ⟨rfl, hc⟩
  · rename_i hc
    exact .inl ⟨rfl, hc⟩

variable {rest : List Message}

section steps
variable {invoked : ℕ → ℕ} {handed : ℕ → Bool} {t : Table} {w : Worker} {ids : List ℕ}
  {f : Row → Row} {task : Task} {task' : Option Task}

theorem Task.Keeps.refl (h : ∀ r ∈ t, r.Charged invoked handed)
    (hcur : ∀ u ∈ task', ∀ m ∈ u.current, m ∈ task.current) : Keeps invoked handed t t task task' :=
  ⟨h, fun r' hr' _ hc => ⟨r', hr', rfl, hc⟩, hcur⟩

theorem Task.Keeps.of_update (h : ∀ r ∈ t, r.Charged invoked handed)
    (hcur : ∀ u ∈ task', ∀ m ∈ u.current, m ∈ task.current)
    (hid : ∀ r, (f r).outboxId = r.outboxId) (hby : ∀ r w', (f r).ClaimedBy w' → r.ClaimedBy w')
    (hf : ∀ r ∈ t, r.outboxId ∈ ids → r.ClaimedBy w → (f r).Charged invoked handed) :
    Keeps invoked handed t (updateClaimed t w ids f) task task' where
  charged r' hr' := by
    obtain ⟨r, hr, ⟨rfl, -⟩ | ⟨rfl, hmem, hc⟩⟩ := mem_updateClaimed hr'
    · exact h _ hr
    · exact hf r hr hmem hc
  claimed r' hr' w' hc' := by
    obtain ⟨r, hr, ⟨rfl, -⟩ | ⟨rfl, -, -⟩⟩ := mem_updateClaimed hr'
    · exact ⟨_, hr, rfl, hc'⟩
    · exact ⟨r, hr, (hid r).symm, hby r w' hc'⟩
  current := hcur

theorem Task.current_tail : ∀ u ∈ tail rest, u.current = none := by
  intro u hu
  cases rest with
  | nil => cases hu
  | cons m rest =>
    cases hu
    rfl

theorem Task.current_loop : ∀ u ∈ loop rest, u.current = none := by
  intro u hu
  cases rest with
  | nil => cases hu
  | cons m rest =>
    cases hu
    rfl

theorem release_not_claimed {availableAt : ℕ} {errorCode : Option String} {restore : Bool} {r : Row}
    {w' : Worker} : ¬ (r.release availableAt errorCode restore).ClaimedBy w' := by
  rintro ⟨-, hby⟩
  simp [Row.release] at hby

/-- **Accounting lemma for a task.** -/
theorem Task.Steps.keeps {lease : ℕ} {t' : Table} {a : TaskAction}
    (h : ∀ r ∈ t, r.Charged invoked handed)
    (hcur : ∀ m ∈ task.current, ∀ r ∈ t, r.outboxId = messageId m → r.ClaimedBy w →
      handed r.outboxId = true)
    (hs : Task.Steps lease w t task a t' task') (hover : a ≠ .handOver) :
    Keeps invoked handed t t' task task' := by
  cases hs with
  | abandoned => exact .refl h (by simp)
  | renewed rest now _ _ _ ht hu =>
    have hnone : ∀ u ∈ task', ∀ m ∈ u.current, m ∈ (Task.head rest).current := by
      intro u hmem m hm
      rcases hu with rfl | rfl
      · cases hmem
        exact hm
      · simp [current_tail u hmem] at hm
    rcases ht with rfl | rfl
    · exact .refl h hnone
    · exact .of_update h hnone (fun _ => rfl) (fun r w' hc => hc) fun r hr _ hc =>
        ⟨(h r hr).attempts, (h r hr).dead⟩
  | handedOver m rest => exact absurd rfl hover
  | sinkReturned m rest => exact .refl h fun u hmem m' hm => by cases hmem; exact hm
  | sinkRaised m rest => exact .refl h fun u hmem m' hm => by cases hmem; exact hm
  | published m rest publishedAt outcome hone =>
    refine .of_update h (fun u hmem m' hm => ?_) (fun _ => rfl) (fun r w' hc => ?_)
      fun r hr _ hc => ⟨fun hp => absurd rfl hp, fun hd => by simp [Row.publish] at hd⟩
    · simp [current_loop u hmem] at hm
    · simp [Row.ClaimedBy, Row.publish] at hc
  | notPublished m rest publishedAt _ _ ht =>
    have hsome : ∀ u ∈ some (releasing m rest), ∀ m' ∈ u.current, m' ∈ (marking m rest).current := by
      intro u hmem m' hm
      cases hmem
      exact hm
    rcases ht with rfl | rfl
    · exact .refl h hsome
    · refine .of_update h hsome (fun _ => rfl) (fun r w' hc => ?_)
        fun r hr _ hc => ⟨fun hp => absurd rfl hp, fun hd => by simp [Row.publish] at hd⟩
      simp [Row.ClaimedBy, Row.publish] at hc
  | released m rest availableAt errorCode _ _ ht =>
    have hnone : ∀ u ∈ tail rest, ∀ m' ∈ u.current, m' ∈ (releasing m rest).current := by
      intro u hmem m' hm
      simp [current_tail u hmem] at hm
    rcases ht with rfl | rfl
    · exact .refl h hnone
    · refine .of_update h hnone (fun _ => rfl) (fun r w' hc => absurd hc release_not_claimed)
        fun r hr hid hc => charged_release ?_
      -- the message of this claim has been handed to the sink
      have hh := hcur m rfl r hr (by simpa using hid) hc
      simpa using (h r hr).of_handed (by simp [hc.1]) hh
  | tailReleased rest outboxId availableAt errorCode _ _ ht =>
    have hnone : ∀ u ∈ tail (rest.filter fun m => messageId m ≠ outboxId), ∀ m' ∈ u.current,
        m' ∈ (releasingTail rest).current := by
      intro u hmem m' hm
      simp [current_tail u hmem] at hm
    rcases ht with rfl | rfl
    · exact .refl h hnone
    · refine .of_update h hnone (fun _ => rfl) (fun r w' hc => absurd hc release_not_claimed)
        fun r hr hid hc => charged_release ?_
      -- the attempt charged in advance is given back
      have ha := (h r hr).attempts (by simp [hc.1])
      simp only [if_true]
      split at ha <;> omega

end steps

/-! ### The system -/

/-- Every expired claim that the step recovers has had its message handed to the sink. -/
def RecoversHanded (s : System) : Action → Prop
  | .claim _ _ now _ => ∀ r ∈ s.table, r.state = .CLAIMED → r.claimExpiresAt.any (· ≤ now) →
      s.handed r.outboxId = true
  | _ => True

instance (s : System) : DecidablePred (RecoversHanded s) := fun a =>
  match a with
  | .claim _ _ _ _ => inferInstanceAs (Decidable (∀ _ ∈ _, _))
  | .append .. => isTrue trivial
  | .crash _ => isTrue trivial
  | .task .. => isTrue trivial

theorem mem_recoverWhenDue {due : Bool} {r' : Row}
    (h : r' ∈ recoverWhenDue t now due) : ∃ r ∈ t, r' = r.recover now := by
  rw [recoverWhenDue_eq] at h
  obtain ⟨r, hr, rfl⟩ := List.mem_map.mp h
  exact ⟨r, hr, rfl⟩

theorem claimedBy_of_recover {r : Row} (h : (r.recover now).ClaimedBy w) :
    r.ClaimedBy w := by
  unfold Row.recover at h
  split at h
  · simp [Row.ClaimedBy] at h
  · exact h

variable {p : Partition}

theorem current_partitionTasks {messages : List Message} {task : Task}
    (h : (p, task) ∈ partitionTasks messages) : task.current = none := by
  obtain ⟨kg, -, heq⟩ := List.mem_map.mp h
  cases heq
  rfl

namespace Budget

variable {lease : ℕ} {s s' : System}

theorem init : Budget System.init where
  charged r hr := by simp [System.init] at hr
  handed w p task h := by simp [System.init] at h

theorem append {outboxId : ℕ} {priority : MessagePriority}
    {maxAttempts availableAt createdAt : ℕ} (h : Budget s)
    (ht : t = Outbox.append s.table outboxId p priority maxAttempts availableAt createdAt) :
    Budget { s with table := t } where
  charged r hr := by
    subst ht
    rcases List.mem_append.mp hr with hr | hr
    · exact h.charged r hr
    · rw [List.mem_singleton] at hr
      subst hr
      exact ⟨fun _ => Nat.zero_le _, fun hd => by simp at hd⟩
  handed w q task hm m hcur r hr hid hc := by
    subst ht
    rcases List.mem_append.mp hr with hr | hr
    · exact h.handed w q task hm m hcur r hr hid hc
    · rw [List.mem_singleton] at hr
      subst hr
      simp [Row.ClaimedBy] at hc

theorem claim {limit now : ℕ} {due : Bool} {messages : List Message}
    (h : Budget s) (hv : Valid s.table) (hC : RecoversHanded s (.claim w limit now due))
    (hclaim : claimBatch lease s.table w limit now due = .ok (messages, t)) :
    Budget (s.startBatch w messages t) := by
  obtain ⟨rfl, rfl⟩ := claimBatch_ok hclaim
  let t₁ := recoverWhenDue s.table now due
  let ids := (claimedRows t₁ now limit).map Row.outboxId
  have hids : (List.map (fun r => (⟨r.claim w now lease, some r.sequence⟩ : Message))
      (claimedRows t₁ now limit)).map messageId = ids := by
    rw [List.map_map]
    rfl
  have hv₁ : Valid t₁ := by
    rw [show t₁ = recoverExpiredClaims s.table now from recoverWhenDue_eq s.table now due]
    exact valid_map hv fun r _ => samePlace_recover now r
  have hcharged₁ : ∀ r ∈ t₁, r.Charged s.invoked s.handed := by
    intro r' hr'
    obtain ⟨r, hr, rfl⟩ := mem_recoverWhenDue hr'
    exact charged_recover (h.charged r hr) (hC r hr)
  have hrow : ∀ r' ∈ updateRows t₁ ids (Row.claim w now lease), ∃ r ∈ t₁,
      (r' = r ∧ r.outboxId ∉ ids) ∨ (r' = r.claim w now lease ∧ r.outboxId ∈ ids ∧ r.state = .PENDING) := by
    intro r' hr'
    obtain ⟨r, hr, rfl⟩ := List.mem_map.mp hr'
    refine ⟨r, hr, ?_⟩
    split
    · rename_i hmem
      obtain ⟨r₀, hr₀, hid⟩ := List.mem_map.mp hmem
      obtain ⟨hrt₀, hcl⟩ := mem_claimedRows hr₀
      obtain rfl := hv₁.eq_of_outboxId hrt₀ hr hid
      exact .inr ⟨rfl, hmem, hcl.1⟩
    · rename_i hmem
      exact .inl ⟨rfl, hmem⟩
  have hhanded : ∀ id, (s.startBatch w _ (updateRows t₁ ids (Row.claim w now lease))).handed id =
      if id ∈ ids then false else s.handed id := fun id => by
    rw [← hids]
    rfl
  refine ⟨fun r' hr' => ?_, fun w' q task hm m hcur r' hr' hid hc => ?_⟩
  · obtain ⟨r, hr, ⟨rfl, hmem⟩ | ⟨rfl, hmem, hst⟩⟩ := hrow r' hr'
    · exact (hcharged₁ r' hr).congr (by rw [hhanded, if_neg hmem])
    · have hfalse : (fun id => if id ∈ ids then false else s.handed id) r.outboxId = false :=
        if_pos hmem
      have hr₁ : r.Charged s.invoked fun id => if id ∈ ids then false else s.handed id :=
        ⟨fun hp => Nat.le_trans ((hcharged₁ r hr).of_not_claimed hp (by simp [hst]))
          (Nat.le_add_right _ _), (hcharged₁ r hr).dead⟩
      exact (charged_claim (w := w) hr₁ hst hfalse).congr (hhanded _)
  · by_cases hw : w' = w
    · subst hw
      simp only [System.startBatch, Function.update_self] at hm
      simp [current_partitionTasks hm] at hcur
    · simp only [System.startBatch, Function.update_of_ne hw] at hm
      obtain ⟨r, hr, ⟨rfl, hmem⟩ | ⟨rfl, -, -⟩⟩ := hrow r' hr'
      · obtain ⟨r₀, hr₀, rfl⟩ := mem_recoverWhenDue hr
        have hplace := samePlace_recover now r₀
        have hh := h.handed w' q task hm m hcur r₀ hr₀ (hplace.outboxId.symm.trans hid)
          (claimedBy_of_recover hc)
        rw [hhanded, if_neg hmem, hplace.outboxId]
        exact hh
      · simp only [Row.ClaimedBy, Row.claim, Option.some.injEq] at hc
        exact absurd hc.2.symm hw

theorem handOver {m : Message} (h : Budget s) :
    Budget ((s.handOver w m).afterTask w p s.table (some (.sinking m rest))) := by
  have hmono : ∀ id, s.handed id = true → (s.handOver w m).handed id = true := by
    intro id hid
    simp [System.handOver, hid]
  have hself : ∀ r ∈ s.table, r.outboxId = messageId m → r.ClaimedBy w →
      (s.handOver w m).handed r.outboxId = true := by
    intro r hr hid hc
    simp only [System.handOver, Bool.or_eq_true, List.any_eq_true, decide_eq_true_eq]
    exact .inr ⟨r, hr, rfl, hid, hc⟩
  refine ⟨fun r hr => ⟨fun hp => ?_, (h.charged r hr).dead⟩, fun w' q task hm m' hcur r hr hid hc => ?_⟩
  · have ha := (h.charged r hr).attempts hp
    by_cases hid : r.outboxId = messageId m
    · have hinv : (s.handOver w m).invoked r.outboxId = s.invoked r.outboxId + 1 := by
        simp [System.handOver, hid]
      simp only [System.afterTask, hinv]
      split at ha <;> omega
    · have hinv : (s.handOver w m).invoked r.outboxId = s.invoked r.outboxId := by
        simp [System.handOver, Function.update_of_ne hid]
      have hhanded : (s.handOver w m).handed r.outboxId = s.handed r.outboxId := by
        simp [System.handOver, hid]
      simp only [System.afterTask, hinv, hhanded]
      exact ha
  · simp only [System.afterTask] at hm
    by_cases hw : w' = w
    · subst hw
      simp only [Function.update_self] at hm
      rcases mem_setTask hm with hm | ⟨u, hu, heq⟩
      · exact hmono _ (h.handed w' q task hm m' hcur r hr hid hc)
      · cases hu
        cases heq
        cases hcur
        exact hself r hr hid hc
    · simp only [Function.update_of_ne hw] at hm
      exact hmono _ (h.handed w' q task hm m' hcur r hr hid hc)

theorem keeps {t' : Table} {task : Task} {task' : Option Task}
    (h : Budget s) (hmem : (p, task) ∈ s.tasks w)
    (hk : task.Keeps s.invoked s.handed s.table t' task') : Budget (s.afterTask w p t' task') where
  charged := hk.charged
  handed w' q u hm m hcur r' hr' hid hc := by
    obtain ⟨r, hr, hrid, hrc⟩ := hk.claimed r' hr' w' hc
    have hid' : r.outboxId = messageId m := hrid.trans hid
    simp only [System.afterTask] at hm
    have hh : s.handed r.outboxId = true := by
      by_cases hw : w' = w
      · subst hw
        simp only [Function.update_self] at hm
        rcases mem_setTask hm with hm | ⟨v, hv, heq⟩
        · exact h.handed w' q u hm m hcur r hr hid' hrc
        · cases heq
          exact h.handed w' p task hmem m (hk.current _ hv m hcur) r hr hid' hrc
      · simp only [Function.update_of_ne hw] at hm
        exact h.handed w' q u hm m hcur r hr hid' hrc
    rwa [hrid] at hh

/-- **Step lemma.** -/
theorem step {a : Action} (h : Budget s) (ho : InOrder s) (hC : RecoversHanded s a)
    (hs : Outbox.step lease s a = some s') : Budget s' := by
  cases a with
  | append outboxId p priority maxAttempts availableAt createdAt =>
    simp only [Outbox.step, guarded_eq_some] at hs
    obtain ⟨-, rfl⟩ := hs
    exact h.append rfl
  | claim w limit now due =>
    simp only [Outbox.step, Option.ite_none_right_eq_some] at hs
    obtain ⟨-, hs⟩ := hs
    split at hs
    · cases hs
      exact h
    · rename_i messages t hclaim
      cases hs
      exact h.claim ho.consistent.valid hC hclaim
  | crash w =>
    simp only [Outbox.step, Option.some.injEq] at hs
    subst hs
    refine ⟨h.charged, fun w' q task hm => ?_⟩
    by_cases hw : w' = w
    · subst hw
      simp at hm
    · simp only [Function.update_of_ne hw] at hm
      exact h.handed w' q task hm
  | task w p a =>
    simp only [Outbox.step, Option.bind_eq_some_iff, Option.map_eq_some_iff] at hs
    obtain ⟨task, htask, ⟨t, task'⟩, hstep, rfl⟩ := hs
    have hmem := mem_of_lookup htask
    have hsteps := Task.steps_of_step hstep
    by_cases hover : a = .handOver
    · subst hover
      cases hsteps with
      | handedOver m rest => exact h.handOver
    · have hrecord : s.record w task a = s := by
        unfold System.record
        split
        · exact absurd rfl hover
        · rfl
      rw [hrecord]
      exact h.keeps hmem (hsteps.keeps h.charged (h.handed w p task hmem) hover)

end Budget

theorem budget_of_run {lease : ℕ} {as : List Action} {s : System}
    (hC : AllSteps (step lease) RecoversHanded System.init as)
    (h : run (step lease) System.init as = some s) : InOrder s ∧ Budget s :=
  run_invariant_of (I := fun s => InOrder s ∧ Budget s)
    (fun _ _ _ hI hC hs => ⟨(hI.1.step hs).1, hI.2.step hI.1 hC hs⟩) ⟨InOrder.init, Budget.init⟩ hC h

/-- **Delivery budget.**  In every state of every run in which each recovered claim has had its
message handed over: a dead row has had the sink invoked for it as often as it has attempts, and
an unclaimed row has been charged for sink calls only. -/
theorem dead_only_after_max_deliveries (lease : ℕ) (as : List Action) (s : System)
    (hC : AllSteps (step lease) RecoversHanded System.init as)
    (h : run (step lease) System.init as = some s) :
    ∀ r ∈ s.table, (r.state = .DEAD → r.maxAttempts ≤ s.invoked r.outboxId) ∧
      (r.state = .PENDING → r.attempts ≤ s.invoked r.outboxId) := by
  intro r hr
  have hcharged := (budget_of_run hC h).2.charged r hr
  refine ⟨fun hd => ?_, fun hp => hcharged.of_not_claimed (by simp [hp]) (by simp [hp])⟩
  exact Nat.le_trans (hcharged.dead hd) (hcharged.of_not_claimed (by simp [hd]) (by simp [hd]))

/-- A message with one attempt whose sink call fails is dead after one delivery. -/
theorem dead_only_after_max_deliveries_one :
    let p : Partition := ("t", "p")
    let as : List Action := [.append 7 p .NORMAL 1 0 0, .claim "w" 1 0 true, .task "w" p .handOver,
      .task "w" p .sinkRaises, .task "w" p (.release 1 (some "RuntimeError") .done)]
    ∃ s, run (step 30) System.init as = some s ∧
      ∃ r ∈ s.table, r.state = .DEAD ∧ r.maxAttempts ≤ s.invoked r.outboxId := by
  intro p as
  have hrun : ((run (step 30) System.init as).map fun s => s.table.map Row.state) = some [.DEAD] := by
    decide +kernel
  have hC : AllSteps (step 30) RecoversHanded System.init as := by decide +kernel
  obtain ⟨s, hs, hstates⟩ := Option.map_eq_some_iff.mp hrun
  obtain ⟨r, hr, hst⟩ := List.mem_map.mp (show OutboxStatus.DEAD ∈ s.table.map Row.state by simp [hstates])
  exact ⟨s, hs, r, hr, hst, (dead_only_after_max_deliveries 30 as s hC hs r hr).1 hst⟩

/-- A worker that dies between its claim and the sink uses up the only attempt of the message:
the row is dead, and the sink has never been invoked. -/
theorem dead_without_delivery :
    let p : Partition := ("t", "p")
    let as : List Action := [.append 7 p .NORMAL 1 0 0, .claim "w" 1 0 true, .crash "w",
      .claim "v" 1 30 true]
    ∃ s, run (step 30) System.init as = some s ∧
      s.table.map (fun r => (r.state, r.maxAttempts, s.invoked r.outboxId)) = [(.DEAD, 1, 0)] := by
  intro p as
  have hrun : ((run (step 30) System.init as).map fun s =>
      s.table.map fun r => (r.state, r.maxAttempts, s.invoked r.outboxId)) = some [(.DEAD, 1, 0)] := by
    decide +kernel
  exact Option.map_eq_some_iff.mp hrun

end CyberControl.Outbox
