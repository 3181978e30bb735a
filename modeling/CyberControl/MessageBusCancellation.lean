import CyberControl.MessageBusOrder

/-! # Reservations and cancellation

An idempotency record that is not completed should belong to a message the bus still holds: one
in a gap buffer, or the one the publish in progress works on (`Bus.Holds`).  `Held` states this
of every record.  It is preserved by every step except one: `CancelledError` is no `Exception`,
so cancelling a publish that holds a reservation ends it without the `abort` that every other
way out performs.
`Accounted s p o` is the invariant while the publish on `p` holds `o` and has not yet suspended
again. -/

namespace CyberControl.Messaging

open Idempotency Transition

/-- The message, with its digest, whose reservation the suspended publish has to settle. -/
def Point.reservation? (c : Config) : Point → Option (Envelope × Digest)
  | .reserving _ _ => none
  | .rejecting e _ => some (e, c.deliveryDigest e)
  | .marking job => some (job.envelope, job.digest)
  | .entering job => some (job.envelope, job.digest)
  | .handling job _ => some (job.envelope, job.digest)
  | .aborting job _ => some (job.envelope, job.digest)
  | .reporting _ _ => none
  | .completing job => some (job.envelope, job.digest)

/-- `e` is held by a gap buffer, or by a publish in progress on a partition other than `p`. -/
def Bus.HoldsOutside (c : Config) (s : Bus) (p : Partition) (e : Envelope) (d : Digest) : Prop :=
  (∃ q n, (s.pending q).lookup n = some (e, d)) ∨
    ∃ q pt, q ≠ p ∧ s.active q = some pt ∧ pt.reservation? c = some (e, d)

/-- `e` is in the gap buffer of its partition, at its sequence. -/
def Bus.Buffered (s : Bus) (e : Envelope) (d : Digest) : Prop :=
  (s.pending e.partition).lookup e.sequence = some (e, d)

/-- The publish in progress on the partition of `e` works on `e`. -/
def Bus.InProgress (c : Config) (s : Bus) (e : Envelope) (d : Digest) : Prop :=
  ∃ pt, s.active e.partition = some pt ∧ pt.reservation? c = some (e, d)

/-- Every record that is not completed is accounted for: by a gap buffer, by another partition,
or by the reservation `o` that the publish on `p` has in hand. -/
structure Accounted (c : Config) (s : Bus) (p : Partition) (o : Option (Envelope × Digest)) :
    Prop where
  owned : ∀ key r, s.records key = some r → r.state ≠ .COMPLETED →
    ∃ e, e.delivery.idempotencyKey = key ∧ (o = some (e, r.digest) ∨ s.HoldsOutside c p e r.digest)
  digests : ∀ e d, o = some (e, d) ∨ s.HoldsOutside c p e d → d = c.deliveryDigest e

/-- The reservation held on `p`. -/
def Bus.reservation? (c : Config) (s : Bus) (p : Partition) : Option (Envelope × Digest) :=
  (s.active p).bind (Point.reservation? c)

/-- **The coupling invariant** of the store and the bus. -/
def Held (c : Config) (s : Bus) : Prop := ∀ p, Accounted c s p (s.reservation? c p)

variable {c : Config} {s : Bus}

theorem Bus.holds_iff (p q : Partition) (e : Envelope) (d : Digest) :
    s.reservation? c p = some (e, d) ∨ s.HoldsOutside c p e d ↔
      s.reservation? c q = some (e, d) ∨ s.HoldsOutside c q e d := by
  suffices h : ∀ p q, s.reservation? c p = some (e, d) ∨ s.HoldsOutside c p e d →
      s.reservation? c q = some (e, d) ∨ s.HoldsOutside c q e d from ⟨h p q, h q p⟩
  clear p q
  intro p q h
  have hall : (∃ r n, (s.pending r).lookup n = some (e, d)) ∨
      ∃ r pt, s.active r = some pt ∧ pt.reservation? c = some (e, d) := by
    rcases h with h | h | ⟨r, pt, -, h⟩
    · obtain ⟨pt, hpt⟩ := Option.bind_eq_some_iff.mp h
      exact .inr ⟨p, pt, hpt⟩
    · exact .inl h
    · exact .inr ⟨r, pt, h⟩
  rcases hall with h | ⟨r, pt, hr, hpt⟩
  · exact .inr (.inl h)
  · by_cases hrq : r = q
    · exact .inl (Option.bind_eq_some_iff.mpr ⟨pt, hrq ▸ hr, hpt⟩)
    · exact .inr (.inr ⟨r, pt, hrq, hr, hpt⟩)

theorem Accounted.held {p : Partition}
    (h : Accounted c s p (s.reservation? c p)) : Held c s := by
  intro q
  refine ⟨fun key r hr hst => ?_, fun e d hd => h.digests e d ((s.holds_iff q p e d).mp hd)⟩
  obtain ⟨e, he, ho⟩ := h.owned key r hr hst
  exact ⟨e, he, (s.holds_iff p q e r.digest).mp ho⟩

variable {e : Envelope} {d : Digest} {pt : Point} {n : ℕ}

namespace Accounted

variable {c : Config} {s : Bus} {p : Partition} {o : Option (Envelope × Digest)}

theorem settle {s' : Bus} (h : Accounted c s p o) (hr : s'.records = s.records)
    (hp : s'.pending = s.pending) (ha : ∀ q, q ≠ p → s'.active q = s.active q)
    (ho : s'.reservation? c p = o) : Held c s' := by
  have hout : ∀ e d, s'.HoldsOutside c p e d ↔ s.HoldsOutside c p e d := by
    intro e d
    refine or_congr (by rw [hp]) (exists_congr fun q => exists_congr fun pt => ?_)
    refine and_congr_right fun hq => ?_
    rw [ha q hq]
  refine Accounted.held (p := p) ?_
  rw [ho]
  refine ⟨fun key r hrec hst => ?_, fun e d hd => h.digests e d (hd.imp_right (hout e d).mp)⟩
  obtain ⟨e, he, hown⟩ := h.owned key r (hr ▸ hrec) hst
  exact ⟨e, he, hown.imp_right (hout e r.digest).mpr⟩

theorem suspend (h : Accounted c s p o) (ho : pt.reservation? c = o) :
    Held c (s.suspend p pt) :=
  h.settle rfl rfl (fun q hq => by simp [Bus.suspend, hq])
    (by simp [Bus.reservation?, Bus.suspend, ho])

theorem release {ev : Event} (h : Accounted c s p none) : Held c (s.release p ev) :=
  h.settle rfl rfl (fun q hq => by simp [Bus.release, hq]) (by simp [Bus.reservation?, Bus.release])

theorem reply {status : DispatchStatus} (h : Accounted c s p none) :
    Held c (s.reply p e status n) :=
  h.release

theorem leave {job : Job} {x : Exn} (h : Accounted c s p none) : Held c (s.leave p job x) := by
  unfold Bus.leave
  split
  · exact h.reply
  · exact h.release

theorem log {ev : Event} (h : Accounted c s p o) : Accounted c (s.log ev) p o :=
  ⟨h.owned, h.digests⟩

theorem drop (h : Accounted c s p (some (e, d)))
    (hgone : ∀ r, s.records e.delivery.idempotencyKey = some r → r.state = .COMPLETED ∨ r.digest ≠ d) :
    Accounted c s p none where
  digests e' d' hd := h.digests e' d' (.inr (hd.resolve_left (by simp)))
  owned key r hr hst := by
    obtain ⟨e', he', ho | ho⟩ := h.owned key r hr hst
    · obtain ⟨rfl, rfl⟩ := Prod.mk.inj (Option.some.inj ho)
      subst he'
      rcases hgone r hr with hc | hd
      · exact absurd hc hst
      · exact absurd rfl hd
    · exact ⟨e', he', .inr ho⟩

theorem update {r : Option IdempotencyRecord}
    (h : Accounted c s p (some (e, d))) (hr : ∀ x ∈ r, x.digest = d) :
    Accounted c { s with records := Function.update s.records e.delivery.idempotencyKey r } p
      (some (e, d)) where
  digests := h.digests
  owned key r' hr' hst := by
    by_cases hk : key = e.delivery.idempotencyKey
    · subst hk
      simp only [Function.update_self] at hr'
      exact ⟨e, rfl, .inl (by rw [hr r' hr'])⟩
    · simp only [Function.update_of_ne hk] at hr'
      exact h.owned key r' hr' hst

variable {records : Records}

theorem reserve (h : Accounted c s p none)
    (hrec : records = Function.update s.records e.delivery.idempotencyKey
      (some ⟨e.delivery.idempotencyKey, c.deliveryDigest e, .BUFFERED⟩)) :
    Accounted c { s with records } p (some (e, c.deliveryDigest e)) where
  digests e' d' hd := by
    rcases hd with hd | hd
    · obtain ⟨rfl, rfl⟩ := Prod.mk.inj (Option.some.inj hd)
      rfl
    · exact h.digests e' d' (.inr hd)
  owned key r hr hst := by
    subst hrec
    by_cases hk : key = e.delivery.idempotencyKey
    · subst hk
      simp only [Function.update_self, Option.some.injEq] at hr
      subst hr
      exact ⟨e, rfl, .inl rfl⟩
    · simp only [Function.update_of_ne hk] at hr
      obtain ⟨e', he', ho⟩ := h.owned key r hr hst
      exact ⟨e', he', .inr (ho.resolve_left (by simp))⟩

theorem insertPending (h : Accounted c s p (some (e, d)))
    (hfree : (s.pending p).lookup e.sequence = none) :
    Accounted c (s.setPending p ((s.pending p).insert e.sequence (e, d))) p none := by
  have hout : ∀ e' d', (s.setPending p ((s.pending p).insert e.sequence (e, d))).HoldsOutside c p e' d'
      ↔ some (e, d) = some (e', d') ∨ s.HoldsOutside c p e' d' := by
    intro e' d'
    unfold Bus.HoldsOutside
    rw [← or_assoc]
    refine or_congr ⟨?_, ?_⟩ Iff.rfl
    · rintro ⟨q, n, hn⟩
      rcases Bus.of_lookup_insert hn with ⟨rfl, rfl, hed⟩ | hn
      · exact .inl (hed ▸ rfl)
      · exact .inr ⟨q, n, hn⟩
    · rintro (he | ⟨q, n, hn⟩)
      · exact ⟨p, e.sequence, by simp [Bus.setPending, he]⟩
      · refine ⟨q, n, ?_⟩
        by_cases hq : q = p
        · subst hq
          have hne : n ≠ e.sequence := by
            rintro rfl
            rw [hfree] at hn
            cases hn
          simpa [Bus.setPending, AList.lookup_insert_ne hne] using hn
        · simpa [Bus.setPending, Function.update_of_ne hq] using hn
  refine ⟨fun key r hr hst => ?_, fun e' d' hd => ?_⟩
  · obtain ⟨e', he', ho⟩ := h.owned key r hr hst
    exact ⟨e', he', .inr ((hout e' r.digest).mpr ho)⟩
  · exact h.digests e' d' ((hout e' d').mp (hd.resolve_left (by simp)))

theorem erasePending (h : Accounted c s p none)
    (hl : (s.pending p).lookup n = some (e, d)) :
    Accounted c (s.setPending p ((s.pending p).erase n)) p (some (e, d)) := by
  have hin : ∀ e' d', (s.setPending p ((s.pending p).erase n)).HoldsOutside c p e' d' →
      s.HoldsOutside c p e' d' := by
    rintro e' d' (⟨q, m, hm⟩ | hq)
    · exact .inl ⟨q, m, (Bus.of_lookup_erase hm).2⟩
    · exact .inr hq
  refine ⟨fun key r hr hst => ?_, fun e' d' hd => ?_⟩
  · obtain ⟨e', he', ho⟩ := h.owned key r hr hst
    refine ⟨e', he', ?_⟩
    rcases ho.resolve_left (by simp) with ⟨q, m, hm⟩ | hq
    · by_cases hq : q = p ∧ m = n
      · obtain ⟨rfl, rfl⟩ := hq
        exact .inl (hl.symm.trans hm)
      · refine .inr (.inl ⟨q, m, ?_⟩)
        by_cases hqp : q = p
        · subst hqp
          have hne : m ≠ n := fun hmn => hq ⟨rfl, hmn⟩
          simpa [Bus.setPending, AList.lookup_erase_ne hne] using hm
        · simpa [Bus.setPending, Function.update_of_ne hqp] using hm
    · exact .inr (.inr hq)
  · rcases hd with hd | hd
    · exact h.digests e' d' (.inr (.inl ⟨p, n, hl.trans hd⟩))
    · exact h.digests e' d' (.inr (hin e' d' hd))

theorem drainPartition {head : Envelope} (h : Accounted c s p none) :
    Held c (s.drainPartition p head) := by
  unfold Bus.drainPartition
  split
  · rename_i e d hl
    exact (h.erasePending hl).suspend rfl
  · exact h.reply

theorem abort (h : Accounted c s p (some (e, d)))
    (ha : Idempotency.abort s.records e.delivery.idempotencyKey d = .ok records) :
    Accounted c { s with records } p none := by
  rcases abort_ok ha with ⟨hnone, rfl⟩ | ⟨existing, hr, -, hrec⟩
  · exact h.drop fun r hr => by simp [hnone] at hr
  · split at hrec
    · subst hrec
      refine (h.update (r := none) (by simp)).drop fun r hr' => ?_
      simp at hr'
    · rename_i hst
      subst hrec
      refine h.drop fun r hr' => .inl ?_
      rw [hr, Option.some.injEq] at hr'
      exact hr' ▸ not_not.mp hst

theorem transition {state : IdempotencyState}
    (h : Accounted c s p (some (e, d)))
    (ht : Idempotency.transition s.records e.delivery.idempotencyKey d state = .ok records) :
    Accounted c { s with records } p (some (e, d)) := by
  obtain ⟨existing, -, -, rfl⟩ := transition_ok ht
  exact h.update (by simp)

theorem complete (h : Accounted c s p (some (e, d)))
    (hc : Idempotency.complete s.records e.delivery.idempotencyKey d = .ok records) :
    Accounted c { s with records } p none := by
  refine (h.transition hc).drop fun r hr => .inl ?_
  obtain ⟨existing, -, -, rfl⟩ := transition_ok hc
  simp only [Function.update_self, Option.some.injEq] at hr
  exact hr ▸ rfl

end Accounted

namespace Held

variable {c : Config} {s : Bus} {p : Partition}

theorem init : Held c (Bus.init fun _ => none) := by
  refine fun p => ⟨fun key r hr => by simp [Bus.init] at hr, fun e d hd => ?_⟩
  simp [Bus.init, Bus.reservation?, Bus.HoldsOutside] at hd

theorem accounted (h : Held c s) (hpt : s.active p = some pt) :
    Accounted c s p (pt.reservation? c) := by
  have hp := h p
  rwa [Bus.reservation?, hpt, Option.bind_some] at hp

theorem of_eq {s' : Bus} (h : Held c s) (hr : s'.records = s.records) (hp : s'.pending = s.pending)
    (ha : s'.active = s.active) : Held c s' := by
  obtain ⟨_, _, _, _, _, _, _⟩ := s'
  simp only at hr hp ha
  subst hr hp ha
  exact fun p => ⟨(h p).owned, (h p).digests⟩

theorem dispatchReserved {expected : ℕ}
    (h : Accounted c s p (some (e, c.deliveryDigest e))) :
    Held c (s.dispatchReserved c p e expected) := by
  unfold Bus.dispatchReserved
  split
  · exact h.suspend rfl
  · split
    · split
      · exact h.suspend rfl
      · split
        · exact h.suspend rfl
        · rename_i hfree
          rw [Bool.not_eq_true, Option.isSome_eq_false_iff, Option.isNone_iff_eq_none] at hfree
          exact (h.insertPending hfree).reply
    · exact h.suspend rfl

/-- **Step lemma for a returning call.** -/
theorem advance (h : Held c s) (hpt : s.active p = some pt) :
    Held c (s.advance c p pt) := by
  have ha := h.accounted hpt
  cases pt with
  | reserving e expected =>
    simp only [Bus.advance, Bus.afterReserve]
    split
    · exact ha.release
    · rename_i hres
      rcases reserve_ok hres with ⟨-, -, hrec⟩ | ⟨_, -, -, hdup, -⟩
      · exact dispatchReserved (ha.reserve hrec)
      · exact absurd hdup.symm (ReservationDecision.duplicate_ne_reserved _)
    · exact ha.reply
    · exact ha.reply
  | rejecting e x =>
    simp only [Bus.advance]
    split
    · rename_i herr
      exact (ha.drop fun r hr => .inr (abort_error herr r hr)).release
    · rename_i hok
      exact (ha.abort hok).release
  | marking job =>
    simp only [Bus.advance]
    split
    · rename_i herr
      exact (ha.drop fun r hr => .inr (transition_error herr r hr)).leave
    · rename_i hok
      exact (ha.transition hok).suspend rfl
  | entering job =>
    simp only [Bus.advance, Bus.dispatchHandlers]
    split
    · exact ha.suspend rfl
    · exact ha.log.suspend rfl
  | handling job rest =>
    cases rest with
    | nil => exact ha.suspend rfl
    | cons x xs =>
      cases xs with
      | nil => exact ha.log.suspend rfl
      | cons y ys => exact ha.log.log.suspend rfl
  | aborting job x =>
    simp only [Bus.advance]
    split
    · rename_i herr
      exact (ha.drop fun r hr => .inr (abort_error herr r hr)).leave
    · rename_i hok
      split
      · exact (ha.abort hok).suspend rfl
      · exact (ha.abort hok).leave
  | reporting job x => exact ha.leave
  | completing job =>
    simp only [Bus.advance]
    split
    · rename_i herr
      exact (ha.drop fun r hr => .inr (transition_error herr r hr)).leave
    · rename_i hok
      have hc := ha.complete hok
      exact Accounted.drainPartition ⟨hc.owned, hc.digests⟩

end Held

/-- The step cancels no publish that holds a reservation. -/
def CancelsNoReservation (c : Config) (s : Bus) : Action → Prop
  | .cancel p => s.reservation? c p = none
  | _ => True

instance (c : Config) (s : Bus) : DecidablePred (CancelsNoReservation c s) := fun a =>
  match a with
  | .cancel p => inferInstanceAs (Decidable (s.reservation? c p = none))
  | .publish _ _ => isTrue trivial
  | .acquire _ => isTrue trivial
  | .advance _ => isTrue trivial
  | .fail _ _ => isTrue trivial
  | .cancelWaiting _ => isTrue trivial
  | .close => isTrue trivial

/-- **Step lemma.** -/
theorem Held.step {s s' : Bus} {a : Action} (h : Held c s)
    (hC : CancelsNoReservation c s a) (hs : Messaging.step c s a = some s') : Held c s' := by
  cases step_cases hs with
  | publish e now =>
    unfold Bus.publish
    split <;> exact h.of_eq rfl rfl rfl
  | @acquire e hmem hfree =>
    have hw : Held c { s with waiting := s.waiting.erase e } := h.of_eq rfl rfl rfl
    have ho : Bus.reservation? c { s with waiting := s.waiting.erase e } e.partition = none := by
      simp [Bus.reservation?, hfree]
    exact (ho ▸ hw e.partition).suspend rfl
  | advance hpt => exact h.advance hpt
  | failEntering x hpt | failHandling x hpt => exact (h.accounted hpt).suspend rfl
  | failReporting x hpt => exact (h.accounted hpt).leave
  | @cancel p pt hpt =>
    have ha := h p
    rw [show s.reservation? c p = none from hC] at ha
    exact ha.release
  | cancelWaiting hmem => exact h.of_eq rfl rfl rfl
  | close => exact h.of_eq rfl rfl rfl

theorem held_of_run {as : List Action}
    (hC : AllSteps (step c) (CancelsNoReservation c) (Bus.init fun _ => none) as)
    (h : run (step c) (Bus.init fun _ => none) as = some s) : Held c s :=
  run_invariant_of (fun _ _ _ hI hC hs => hI.step hC hs) Held.init hC h

/-! ### What the invariant means for a message -/

/-- A message in a gap buffer or under execution, at its own partition. -/
def Bus.Holds (c : Config) (s : Bus) (e : Envelope) : Prop :=
  s.Buffered e (c.deliveryDigest e) ∨ s.InProgress c e (c.deliveryDigest e)

/-- Publishing `e` at `now` reserves it anew: it is executed when its sequence is the expected
one, buffered when it is a later one, and rejected only for its place in the order. -/
def Redispatched (c : Config) (s : Bus) (e : Envelope) (now : ℕ) : Prop :=
  ∃ s', run (step c) s [.publish e now, .acquire e, .advance e.partition] = some s' ∧
    ((e.sequence = s.expected e.partition ∧ s'.trace = s.trace ∧
        s'.active e.partition = some (.marking ⟨e, c.deliveryDigest e, e, false⟩)) ∨
      (s.expected e.partition < e.sequence ∧ s'.Buffered e (c.deliveryDigest e) ∧
        s'.trace = s.trace ++
          [.returned e ⟨.BUFFERED, e.partitionKey, e.sequence, s.expected e.partition⟩]) ∨
      ((e.sequence < s.expected e.partition ∨
          c.maxGapBuffer ≤ (s.pending e.partition).entries.length ∨
          e.sequence ∈ s.pending e.partition) ∧
        s'.trace = s.trace ∧ ∃ x, s'.active e.partition = some (.rejecting e x)))

/-- No message is stranded: every record that is not completed belongs to a message the bus still
holds, and a message that is neither completed nor held is dispatched when published again. -/
structure NotStranded (c : Config) (s : Bus) : Prop where
  owned : ∀ key r, s.records key = some r → r.state ≠ .COMPLETED →
    ∃ e, e.delivery.idempotencyKey = key ∧ c.deliveryDigest e = r.digest ∧ s.Holds c e
  redispatched : ∀ e now, s.closed = false → e.delivery.expiresAt.any (· ≤ now) = false →
    s.active e.partition = none →
    (∀ r, s.records e.delivery.idempotencyKey = some r →
      r.digest = c.deliveryDigest e ∧ r.state ≠ .COMPLETED) →
    (∀ e', e'.delivery.idempotencyKey = e.delivery.idempotencyKey →
      c.deliveryDigest e' = c.deliveryDigest e → ¬ s.Holds c e') →
    Redispatched c s e now

theorem Point.envelope_of_fits {trace : List Event} {p : Partition}
    (h : pt.Fits c trace p n)
    (hr : pt.reservation? c = some (e, d)) : e.partition = p := by
  cases pt with
  | reserving e' m => cases hr
  | reporting job x => cases hr
  | rejecting e' x =>
    cases hr
    exact h.head
  | _ =>
    cases hr
    exact (h.job _ rfl).1

theorem Held.owned (h : Held c s) (ho : Ordered c s) {key : String}
    {r : IdempotencyRecord} (hr : s.records key = some r) (hst : r.state ≠ .COMPLETED) :
    ∃ e, e.delivery.idempotencyKey = key ∧ c.deliveryDigest e = r.digest ∧ s.Holds c e := by
  obtain ⟨e, he, hown⟩ := (h ("", "")).owned key r hr hst
  have hd := (h ("", "")).digests e r.digest hown
  rw [hd] at hown
  refine ⟨e, he, hd.symm, ?_⟩
  have hactive : ∀ q pt, s.active q = some pt →
      pt.reservation? c = some (e, c.deliveryDigest e) → s.InProgress c e (c.deliveryDigest e) := by
    intro q pt hq hpt
    obtain rfl := Point.envelope_of_fits (ho.active q pt hq) hpt
    exact ⟨pt, hq, hpt⟩
  rcases hown with hown | ⟨q, n, hn⟩ | ⟨q, pt, -, hq, hpt⟩
  · obtain ⟨pt, hq, hpt⟩ := Option.bind_eq_some_iff.mp hown
    exact .inr (hactive _ pt hq hpt)
  · obtain ⟨rfl, rfl⟩ := ho.buffered q n e _ hn
    exact .inl hn
  · exact .inr (hactive q pt hq hpt)

theorem redispatched_of_free {now : ℕ}
    (hopen : s.closed = false) (hfresh : e.delivery.expiresAt.any (· ≤ now) = false)
    (hidle : s.active e.partition = none) (hnone : s.records e.delivery.idempotencyKey = none) :
    Redispatched c s e now := by
  refine ⟨_, run_publish hopen hfresh hidle, ?_⟩
  simp only [reserve_none hnone, Bus.afterReserve, Bus.dispatchReserved]
  split
  · rename_i hlt
    exact .inr (.inr ⟨.inl hlt, rfl, sequenceStale, by simp [Bus.suspend]⟩)
  · split
    · rename_i hgt
      split
      · rename_i hfull
        exact .inr (.inr ⟨.inr (.inl hfull), rfl, bufferFull, by simp [Bus.suspend]⟩)
      · split
        · rename_i hslot
          refine .inr (.inr ⟨.inr (.inr ?_), rfl, slotOccupied, by simp [Bus.suspend]⟩)
          exact AList.lookup_isSome.mp hslot
        · exact .inr (.inl ⟨hgt, by simp [Bus.Buffered, Bus.reply, Bus.release, Bus.setPending],
            rfl⟩)
    · rename_i hlt hgt
      exact .inl ⟨by omega, rfl, by simp [Bus.suspend]⟩

/-- **No stranded message.**  In every state of every run in which no cancelled publish holds a
reservation, no message is stranded. -/
theorem not_stranded_without_cancelled_reservation (c : Config) (as : List Action) (s : Bus)
    (hC : AllSteps (step c) (CancelsNoReservation c) (Bus.init fun _ => none) as)
    (h : run (step c) (Bus.init fun _ => none) as = some s) : NotStranded c s := by
  have hheld := held_of_run hC h
  have hord := ordered_of_run h
  refine ⟨fun key r hr hst => hheld.owned hord hr hst, fun e now hopen hfresh hidle hrec hfree => ?_⟩
  refine redispatched_of_free hopen hfresh hidle ?_
  by_contra hsome
  obtain ⟨r, hr⟩ := Option.ne_none_iff_exists'.mp hsome
  obtain ⟨hd, hst⟩ := hrec r hr
  obtain ⟨e', hk, hd', hh⟩ := hheld.owned hord hr hst
  exact hfree e' hk (hd'.trans hd) hh

/-- Cancelling a publish that waits for its reservation leaves nothing behind: afterwards the
message is dispatched like a new one. -/
theorem not_stranded_after_early_cancel :
    let c : Config := ⟨fun e => e.delivery.idempotencyKey, fun _ => ["h"], false, 2⟩
    let e : Envelope := ⟨"t", "p", 0, "ev", 0, ⟨"k0", 1, 0, none⟩, ""⟩
    ∃ s, run (step c) (Bus.init fun _ => none) [.publish e 0, .acquire e, .cancel ("t", "p")] = some s ∧
      NotStranded c s := by
  intro c e
  let as : List Action := [.publish e 0, .acquire e, .cancel ("t", "p")]
  have hC : AllSteps (step c) (CancelsNoReservation c) (Bus.init fun _ => none) as := by decide
  exact ⟨_, rfl, not_stranded_without_cancelled_reservation c as _ hC rfl⟩

/-- Publishing a message whose record is held by nobody is answered `IN_FLIGHT` and changes
neither the records nor the gap buffers, so the next publish of it is answered in the same way. -/
theorem in_flight_of_unfinished {now : ℕ}
    {r : IdempotencyRecord} (hopen : s.closed = false)
    (hfresh : e.delivery.expiresAt.any (· ≤ now) = false) (hidle : s.active e.partition = none)
    (hr : s.records e.delivery.idempotencyKey = some r) (hd : r.digest = c.deliveryDigest e)
    (hst : r.state ≠ .COMPLETED) :
    ∃ s', run (step c) s [.publish e now, .acquire e, .advance e.partition] = some s' ∧
      s'.records = s.records ∧ s'.pending = s.pending ∧ s'.active = s.active ∧
      s'.closed = s.closed ∧ s'.trace = s.trace ++
        [.returned e ⟨.IN_FLIGHT, e.partitionKey, e.sequence, s.expected e.partition⟩] := by
  refine ⟨_, run_publish hopen hfresh hidle, ?_⟩
  have hreply : (s.atReserve e).afterReserve c e.partition e (s.expected e.partition)
      (.ok (.duplicate r.state, s.records)) =
        (s.atReserve e).reply e.partition e .IN_FLIGHT (s.expected e.partition) := by
    cases hs : r.state with
    | COMPLETED => exact absurd hs hst
    | BUFFERED => rfl
    | PROCESSING => rfl
  rw [reserve_some hr hd, hreply]
  refine ⟨rfl, rfl, ?_, rfl, rfl⟩
  simp [Bus.reply, Bus.release, Bus.atReserve, Bus.suspend, ← hidle]

/-- A publish that is cancelled inside a handler strands its message: no publish is in progress,
nothing is buffered, and every later publish of the message is answered `IN_FLIGHT`. -/
theorem cancelled_handler_strands :
    let c : Config := ⟨fun e => e.delivery.idempotencyKey, fun _ => ["h"], false, 2⟩
    let e : Envelope := ⟨"t", "p", 0, "ev", 0, ⟨"k0", 1, 0, none⟩, ""⟩
    ∃ s, run (step c) (Bus.init fun _ => none) [.publish e 0, .acquire e, .advance ("t", "p"),
        .advance ("t", "p"), .advance ("t", "p"), .cancel ("t", "p")] = some s ∧
      (∀ p, s.active p = none ∧ s.pending p = ∅) ∧
      s.records "k0" = some ⟨"k0", "k0", .PROCESSING⟩ ∧ ¬ NotStranded c s ∧
      ∀ now, ∃ s', run (step c) s [.publish e now, .acquire e, .advance ("t", "p")] = some s' ∧
        s'.trace.getLast? = some (.returned e ⟨.IN_FLIGHT, "p", 0, 0⟩) ∧
        s'.records = s.records ∧ s'.pending = s.pending ∧ s'.active = s.active := by
  intro c e
  obtain ⟨s, hs⟩ : ∃ s, run (step c) (Bus.init fun _ => none) [.publish e 0, .acquire e,
      .advance ("t", "p"), .advance ("t", "p"), .advance ("t", "p"), .cancel ("t", "p")] = some s :=
    ⟨_, rfl⟩
  have hidle : ∀ p, s.active p = none := by
    intro p
    cases hs
    by_cases hp : p = ("t", "p")
    · subst hp
      rfl
    · change Function.update (Function.update (Function.update (Function.update
        (Function.update (fun _ => none) ("t", "p") _) _ _) _ _) _ _) ("t", "p") none p = none
      simp only [Function.update_of_ne hp]
  have hpending : ∀ p, s.pending p = ∅ := by
    cases hs
    exact fun p => rfl
  have hrec : s.records "k0" = some ⟨"k0", "k0", .PROCESSING⟩ := by
    cases hs
    rfl
  refine ⟨s, hs, fun p => ⟨hidle p, hpending p⟩, hrec, fun h => ?_, fun now => ?_⟩
  · obtain ⟨e', -, -, hh | ⟨pt, hpt, -⟩⟩ := h.owned "k0" _ hrec (by decide)
    · rw [Bus.Buffered, hpending] at hh
      simp at hh
    · rw [hidle] at hpt
      cases hpt
  · have hopen : s.closed = false := by
      cases hs
      rfl
    have hexpected : s.expected ("t", "p") = 0 := by
      cases hs
      rfl
    have hagain := @in_flight_of_unfinished c s e now _ hopen rfl (hidle _) hrec rfl (by decide)
    obtain ⟨s', hrun, hr, hp, ha, -, htr⟩ := hagain
    refine ⟨s', hrun, ?_, hr, hp, ha⟩
    rw [htr, show e.partition = ("t", "p") from rfl, hexpected, List.getLast?_concat]

end CyberControl.Messaging
