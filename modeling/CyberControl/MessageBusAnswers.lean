import CyberControl.MessageBus

/-! # Every publish is answered once

What no interleaving of publishes, exceptions and cancellations loses or adds: each call of `publish` returns,
raises or is cancelled once, or is still on its way; and no gap buffer outgrows its bound. -/

namespace CyberControl.Messaging

open Idempotency Transition

/-- The envelope of the publish that ends with the event. -/
def Event.answered : Event → Option Envelope
  | .returned e _ => some e
  | .raised e _ => some e
  | .cancelled e => some e
  | _ => none

/-- How many publishes of `e` have ended. -/
def answers (e : Envelope) (trace : List Event) : ℕ := trace.countP fun ev => ev.answered = some e

/-- How many publishes of `e` the actions call. -/
def calls (e : Envelope) (as : List Action) : ℕ :=
  as.countP fun a => match a with
    | .publish e' _ => e' = e
    | _ => false

/-- The publish of `e` that holds the lock of its partition, if there is one. -/
def Bus.holding (s : Bus) (e : Envelope) : ℕ := (s.active e.partition).toList.countP fun pt => pt.head = e

variable {c : Config} {s s' t : Bus} {p : Partition} {head : Envelope} {ev : Event}

/-- A segment of the publish of `head`, which holds the lock of `p`: it suspends again, or it is answered. -/
structure Segment (c : Config) (s s' : Bus) (p : Partition) (head : Envelope) : Prop where
  waiting : s'.waiting = s.waiting
  pending : ∀ q, (s'.pending q).entries.length ≤ max (s.pending q).entries.length c.maxGapBuffer
  others : ∀ q ≠ p, s'.active q = s.active q
  heads : ∀ pt, s'.active p = some pt → pt.head = head
  answered : ∀ e, answers e s'.trace = answers e s.trace + if head = e ∧ s'.active p = none then 1 else 0

theorem answers_snoc (e : Envelope) (trace : List Event) (ev : Event) :
    answers e (trace ++ [ev]) = answers e trace + if ev.answered = some e then 1 else 0 := by
  simp [answers, List.countP_append, List.countP_singleton]

namespace Segment

theorem suspend {pt : Point} (h : pt.head = head) : Segment c s (s.suspend p pt) p head where
  waiting := rfl
  pending _ := le_max_left _ _
  others _ hq := Function.update_of_ne hq ..
  heads pt' hpt' := by
    obtain rfl : pt = pt' := by simpa [Bus.suspend] using hpt'
    exact h
  answered e := by simp [Bus.suspend]

theorem release (h : ev.answered = some head) : Segment c s (s.release p ev) p head where
  waiting := rfl
  pending _ := le_max_left _ _
  others _ hq := Function.update_of_ne hq ..
  heads pt hpt := by simp [Bus.release] at hpt
  answered e := by simp [Bus.release, answers_snoc, h]

theorem after (h : Segment c t s' p head) (hwaiting : t.waiting = s.waiting) (hactive : t.active = s.active)
    (hanswers : ∀ e, answers e t.trace = answers e s.trace)
    (hpending : ∀ q, (t.pending q).entries.length ≤ max (s.pending q).entries.length c.maxGapBuffer) :
    Segment c s s' p head where
  waiting := h.waiting.trans hwaiting
  pending q := by
    have hle := hpending q
    have hle' := h.pending q
    omega
  others q hq := (h.others q hq).trans (congrFun hactive q)
  heads := h.heads
  answered e := by rw [h.answered, hanswers]

theorem records {records : Records} (h : Segment c { s with records } s' p head) : Segment c s s' p head :=
  h.after rfl rfl (fun _ => rfl) fun _ => le_max_left _ _

theorem log (h : Segment c (s.log ev) s' p head) (hev : ev.answered = none) : Segment c s s' p head := by
  refine h.after rfl rfl (fun e => ?_) fun _ => le_max_left _ _
  simp [Bus.log, answers_snoc, hev]

theorem setPending {d : AList fun _ : ℕ => Envelope × Digest} (h : Segment c (s.setPending p d) s' p head)
    (hd : d.entries.length ≤ max (s.pending p).entries.length c.maxGapBuffer) : Segment c s s' p head := by
  refine h.after rfl rfl (fun _ => rfl) fun q => ?_
  by_cases hqp : q = p
  · subst hqp
    simpa [Bus.setPending] using hd
  · simp only [Bus.setPending, Function.update_of_ne hqp]
    exact le_max_left _ _

theorem leave {job : Job} {x : Exn} (h : job.head = head) : Segment c s (s.leave p job x) p head := by
  unfold Bus.leave
  split_ifs
  · exact release (congrArg some h)
  · exact release (congrArg some h)

theorem dispatchReserved {expected : ℕ} : Segment c s (s.dispatchReserved c p head expected) p head := by
  unfold Bus.dispatchReserved
  split_ifs with _ _ hfull hoccupied
  · exact suspend rfl
  · exact suspend rfl
  · exact suspend rfl
  · refine setPending (release rfl) (Nat.le_trans ?_ (le_max_right _ _))
    rw [AList.entries_insert_of_notMem (by simpa [AList.lookup_isSome] using hoccupied)]
    exact not_le.mp hfull
  · exact suspend rfl

theorem drainPartition : Segment c s (s.drainPartition p head) p head := by
  unfold Bus.drainPartition
  split
  · exact setPending (suspend rfl) (Nat.le_trans (List.kerase_sublist _ _).length_le (le_max_left _ _))
  · exact release rfl

theorem advance (pt : Point) : Segment c s (s.advance c p pt) p pt.head := by
  cases pt with
  | reserving e expected =>
    simp only [Bus.advance, Point.head]
    unfold Bus.afterReserve
    split
    · exact release rfl
    · exact records dispatchReserved
    · exact release rfl
    · exact release rfl
  | rejecting e x =>
    simp only [Bus.advance, Point.head]
    split
    · exact release rfl
    · exact records (release rfl)
  | marking job =>
    simp only [Bus.advance, Point.head]
    split
    · exact leave rfl
    · exact records (suspend rfl)
  | entering job =>
    simp only [Bus.advance, Point.head]
    unfold Bus.dispatchHandlers
    split
    · exact suspend rfl
    · exact log (suspend rfl) rfl
  | handling job rest =>
    rcases rest with _ | ⟨_, _ | ⟨_, _⟩⟩
    · exact suspend rfl
    · exact log (suspend rfl) rfl
    · exact log (log (suspend rfl) rfl) rfl
  | aborting job x =>
    simp only [Bus.advance, Point.head]
    split
    · exact leave rfl
    · split_ifs
      · exact records (suspend rfl)
      · exact records (leave rfl)
  | reporting job x => exact leave rfl
  | completing job =>
    simp only [Bus.advance, Point.head]
    split
    · exact leave rfl
    · exact after (log drainPartition rfl) rfl rfl (fun _ => rfl) fun _ => le_max_left _ _

end Segment

/-! ### Runs -/

/-- After the actions `as`: the lock of a partition is held by a publish of it, every publish that was called is
under way or has been answered, and no gap buffer is beyond its bound. -/
structure Answered (c : Config) (as : List Action) (s : Bus) : Prop where
  heads : ∀ p pt, s.active p = some pt → pt.head.partition = p
  answered : ∀ e, answers e s.trace + s.waiting.count e + s.holding e = calls e as
  pending : ∀ p, (s.pending p).entries.length ≤ c.maxGapBuffer

namespace Answered
variable {as : List Action} {a : Action}

theorem segment {pt : Point} (h : Answered c as s) (hpt : s.active p = some pt)
    (hs : Segment c s s' p pt.head) (ha : ∀ e, calls e (as ++ [a]) = calls e as) : Answered c (as ++ [a]) s' := by
  have hhead := h.heads p pt hpt
  refine ⟨fun q pt' hq => ?_, fun e => ?_, fun q => Nat.le_trans (hs.pending q) (max_le (h.pending q) le_rfl)⟩
  · by_cases hqp : q = p
    · subst hqp
      rw [hs.heads pt' hq, hhead]
    · exact h.heads q pt' (hs.others q hqp ▸ hq)
  · have hbefore := h.answered e
    rw [hs.waiting, hs.answered, ha]
    unfold Bus.holding at hbefore ⊢
    by_cases hep : e.partition = p
    · subst hep
      rw [hpt] at hbefore
      cases hafter : s'.active e.partition with
      | none => simpa [Nat.add_right_comm] using hbefore
      | some pt' => simpa [hs.heads pt' hafter] using hbefore
    · have hne : pt.head ≠ e := fun heq => hep (heq ▸ hhead)
      simpa [hne, hs.others _ hep] using hbefore

/-- **Step lemma.** -/
theorem step (h : Answered c as s) (hstep : step c s a = some s') : Answered c (as ++ [a]) s' := by
  have hcalls (e : Envelope) : calls e (as ++ [a]) = calls e as + calls e [a] := List.countP_append ..
  cases step_cases hstep with
  | publish e' now =>
    unfold Bus.publish
    split
    all_goals
      refine ⟨h.heads, fun e => ?_, h.pending⟩
      rw [hcalls, ← h.answered e]
      simp [Bus.log, Bus.holding, answers_snoc, Event.answered, calls, List.count_singleton]
      omega
  | @acquire e' hmem hfree =>
    refine ⟨fun q pt hq => ?_, fun e => ?_, h.pending⟩
    · rcases Bus.of_active_suspend hq with ⟨rfl, rfl⟩ | ⟨-, hq⟩
      · rfl
      · exact h.heads q pt hq
    · have hpositive := List.count_pos_iff.mpr hmem
      rw [hcalls, ← h.answered e]
      by_cases hsame : e' = e
      · subst hsame
        simp [Bus.suspend, Bus.holding, hfree, Point.head, calls]
        omega
      · by_cases hpartition : e.partition = e'.partition
        · simp [Bus.suspend, Bus.holding, hpartition, hfree, hsame, Point.head, calls,
            List.count_erase_of_ne (Ne.symm hsame)]
        · simp [Bus.suspend, Bus.holding, hpartition, calls, List.count_erase_of_ne (Ne.symm hsame)]
  | @advance p pt hpt => exact h.segment hpt (.advance pt) hcalls
  | failEntering x hpt | failHandling x hpt => exact h.segment hpt (.suspend rfl) hcalls
  | failReporting x hpt => exact h.segment hpt (.leave rfl) hcalls
  | cancel hpt => exact h.segment hpt (.release rfl) hcalls
  | @cancelWaiting e' hmem =>
    refine ⟨h.heads, fun e => ?_, h.pending⟩
    have hpositive := List.count_pos_iff.mpr hmem
    rw [hcalls, ← h.answered e]
    by_cases hsame : e' = e
    · subst hsame
      simp [Bus.log, Bus.holding, answers_snoc, Event.answered, calls]
      omega
    · simp [Bus.log, Bus.holding, answers_snoc, Event.answered, hsame, calls,
        List.count_erase_of_ne (Ne.symm hsame)]
  | close =>
    exact ⟨h.heads, fun e => (h.answered e).trans (hcalls e).symm, h.pending⟩

end Answered

/-- **Every publish is answered once.** In every run of a bus, each call of `publish` has returned, raised or been
cancelled once, or it waits for the lock of its partition or holds it; and every gap buffer is within its bound. -/
theorem answered_of_run {records : Records} {as : List Action} (h : run (step c) (Bus.init records) as = some s) :
    (∀ e, answers e s.trace + s.waiting.count e + s.holding e = calls e as) ∧
      ∀ p, (s.pending p).entries.length ≤ c.maxGapBuffer := by
  have hinit : Answered c [] (Bus.init records) :=
    ⟨fun p pt hpt => by simp [Bus.init] at hpt, fun _ => rfl, fun _ => Nat.zero_le _⟩
  have hanswered := run_invariant_past (I := Answered c) (fun _ _ _ _ ht hstep => ht.step hstep) hinit h
  exact ⟨hanswered.answered, hanswered.pending⟩

theorem answered_of_run_cancelled :
    let c : Config := ⟨fun e => e.delivery.idempotencyKey, fun _ => ["h"], false, 2⟩
    let e : Envelope := ⟨"t", "p", 0, "ev", 0, ⟨"k0", 1, 0, none⟩, ""⟩
    let as : List Action := [.publish e 0, .publish e 0, .acquire e, .cancel e.partition]
    ∃ s, run (step c) (Bus.init fun _ => none) as = some s ∧
      answers e s.trace + s.waiting.count e + s.holding e = 2 := by
  intro c e as
  obtain ⟨s, hs⟩ : ∃ s, run (step c) (Bus.init fun _ => none) as = some s := ⟨_, rfl⟩
  exact ⟨s, hs, (answered_of_run hs).1 e⟩

end CyberControl.Messaging
