import CyberControl.MessageBus
import CyberControl.History

/-! # In-order, exactly-once processing of a partition

The invariant `Ordered` of every run of the bus: the completed sequences of a partition are
`0, 1, …, expected - 1` in this order, the gap buffer holds only sequences beyond `expected`, the
message under execution is the expected one, and a handler starts only after all handlers of
smaller sequences have finished (`StepsInOrder`).  There is one lemma for each way in which a
segment of `advance` changes the state. -/

namespace CyberControl.Messaging

open Idempotency Transition History

/-- The sequences of partition `p` completed so far, in the order of completion. -/
def completedSequences (p : Partition) : List Event → List ℕ
  | [] => []
  | .completed e :: evs =>
    if e.partition = p then e.sequence :: completedSequences p evs else completedSequences p evs
  | _ :: evs => completedSequences p evs

theorem completedSequences_append (p : Partition) (evs evs' : List Event) :
    completedSequences p (evs ++ evs') = completedSequences p evs ++ completedSequences p evs' := by
  induction evs with
  | nil => rfl
  | cons ev evs ih =>
    cases ev with
    | completed e =>
      simp only [List.cons_append, completedSequences]
      split <;> simp [ih]
    | _ => simp only [List.cons_append, completedSequences, ih]

variable {p : Partition} {n : ℕ}

theorem mem_completedSequences {evs : List Event} :
    n ∈ completedSequences p evs ↔
      ∃ e, Event.completed e ∈ evs ∧ e.partition = p ∧ e.sequence = n := by
  induction evs with
  | nil => simp [completedSequences]
  | cons ev evs ih =>
    cases ev with
    | completed e =>
      simp only [completedSequences, List.mem_cons, Event.completed.injEq]
      split
      · rename_i hp
        rw [List.mem_cons, ih]
        constructor
        · rintro (rfl | ⟨e', he', h'⟩)
          · exact ⟨e, .inl rfl, hp, rfl⟩
          · exact ⟨e', .inr he', h'⟩
        · rintro ⟨e', rfl | he', h'⟩
          · exact .inl h'.2.symm
          · exact .inr ⟨e', he', h'⟩
      · rename_i hp
        rw [ih]
        constructor
        · rintro ⟨e', he', h'⟩
          exact ⟨e', .inr he', h'⟩
        · rintro ⟨e', rfl | he', h'⟩
          · exact absurd h'.1 hp
          · exact ⟨e', he', h'⟩
    | _ => simp [completedSequences, ih]

/-- What an event requires of the events before it. -/
def StepsInOrder (c : Config) (pre : List Event) : Event → Prop
  | .started e _ => ∀ n < e.sequence, n ∈ completedSequences e.partition pre
  | .completed e => ∀ h ∈ c.handlers e.eventType, Event.finished e h ∈ pre
  | _ => True

/-- Events that say nothing about the execution of handlers. -/
def Event.Quiet : Event → Prop
  | .started _ _ => False
  | .finished _ _ => False
  | .completed _ => False
  | _ => True

variable {c : Config} {ev : Event}

theorem Event.Quiet.stepsInOrder {pre : List Event} (h : ev.Quiet) :
    StepsInOrder c pre ev := by
  cases ev <;> trivial

theorem Event.Quiet.completedSequences (h : ev.Quiet)
    (evs : List Event) :
    completedSequences p (evs ++ [ev]) = Messaging.completedSequences p evs := by
  rw [completedSequences_append]
  cases ev <;> first | exact h.elim | simp [Messaging.completedSequences]

/-- The handlers that a suspended execution has already awaited. -/
def Point.HandlersDone (c : Config) (trace : List Event) : Point → Prop
  | .handling job rest => ∃ done, c.handlers job.envelope.eventType = done ++ rest ∧
      ∀ h ∈ done, Event.finished job.envelope h ∈ trace
  | .completing job => ∀ h ∈ c.handlers job.envelope.eventType, Event.finished job.envelope h ∈ trace
  | _ => True

/-- A point at which the lock holder of `p` can be suspended when `expected` is the next sequence
of `p`. -/
structure Point.Fits (c : Config) (trace : List Event) (p : Partition) (expected : ℕ)
    (pt : Point) : Prop where
  head : pt.head.partition = p
  job : ∀ job ∈ pt.job?, job.envelope.partition = p ∧ job.envelope.sequence = expected
  reserving : ∀ e n, pt = .reserving e n → n = expected
  done : pt.HandlersDone c trace

variable {pt : Point}

theorem Point.HandlersDone.append {trace evs : List Event}
    (h : pt.HandlersDone c trace) : pt.HandlersDone c (trace ++ evs) := by
  cases pt with
  | handling job rest =>
    obtain ⟨done, hd, hf⟩ := h
    exact ⟨done, hd, fun x hx => List.mem_append_left _ (hf x hx)⟩
  | completing job => exact fun x hx => List.mem_append_left _ (h x hx)
  | _ => trivial

theorem Point.Fits.append {trace evs : List Event}
    (h : pt.Fits c trace p n) : pt.Fits c (trace ++ evs) p n :=
  ⟨h.head, h.job, h.reserving, h.done.append⟩

/-- **The order invariant.** -/
structure Ordered (c : Config) (s : Bus) : Prop where
  completed : ∀ p, completedSequences p s.trace = List.range (s.expected p)
  beyond : ∀ p n, n ∈ s.pending p → s.expected p < n
  buffered : ∀ p n e d, (s.pending p).lookup n = some (e, d) → e.partition = p ∧ e.sequence = n
  active : ∀ p pt, s.active p = some pt → pt.Fits c s.trace p (s.expected p)
  history : AtEach (StepsInOrder c) s.trace

variable {e : Envelope} {job : Job}

namespace Ordered

variable {c : Config} {s : Bus} {p : Partition}

theorem init (records : Records) : Ordered c (Bus.init records) where
  completed p := rfl
  beyond p n h := absurd h (AList.notMem_empty n)
  buffered p n e d h := by simp [Bus.init] at h
  active p pt h := by simp [Bus.init] at h
  history := atEach_nil _

theorem of_records (h : Ordered c s) (records : Records) : Ordered c { s with records } :=
  ⟨h.completed, h.beyond, h.buffered, h.active, h.history⟩

theorem suspend (h : Ordered c s) (hpt : pt.Fits c s.trace p (s.expected p)) :
    Ordered c (s.suspend p pt) where
  completed := h.completed
  beyond := h.beyond
  buffered := h.buffered
  history := h.history
  active q pt' hq := by
    rcases Bus.of_active_suspend hq with ⟨rfl, rfl⟩ | ⟨-, hq⟩
    · exact hpt
    · exact h.active q pt' hq

theorem log (h : Ordered c s) (hev : StepsInOrder c s.trace ev)
    (hc : ∀ e, ev ≠ .completed e) : Ordered c (s.log ev) where
  completed q := by
    rw [Bus.log, completedSequences_append, h.completed q]
    cases ev with
    | completed e => exact absurd rfl (hc e)
    | _ => simp [completedSequences]
  beyond := h.beyond
  buffered := h.buffered
  active q pt hq := (h.active q pt hq).append
  history := atEach_snoc h.history hev

theorem release (h : Ordered c s) (hev : ev.Quiet) : Ordered c (s.release p ev) where
  completed q := by
    rw [Bus.release, hev.completedSequences, h.completed q]
  beyond := h.beyond
  buffered := h.buffered
  active q pt hq := (h.active q pt (Bus.of_active_release hq).2).append
  history := atEach_snoc h.history hev.stepsInOrder

theorem reply {status : DispatchStatus} (h : Ordered c s) :
    Ordered c (s.reply p e status n) :=
  h.release trivial

theorem leave {x : Exn} (h : Ordered c s) : Ordered c (s.leave p job x) := by
  unfold Bus.leave
  split
  · exact h.reply
  · exact h.release trivial

theorem insertPending {d : Digest} (h : Ordered c s) (he : e.partition = p)
    (hlt : s.expected p < e.sequence) :
    Ordered c (s.setPending p ((s.pending p).insert e.sequence (e, d))) where
  completed := h.completed
  active := h.active
  history := h.history
  beyond q n hn := by
    by_cases hqp : q = p
    · subst hqp
      simp only [Bus.setPending, Function.update_self, AList.mem_insert] at hn
      rcases hn with rfl | hn
      · exact hlt
      · exact h.beyond q n hn
    · simp only [Bus.setPending, Function.update_of_ne hqp] at hn
      exact h.beyond q n hn
  buffered q n e' d' hn := by
    rcases Bus.of_lookup_insert hn with ⟨rfl, rfl, hed⟩ | hn
    · obtain ⟨rfl, -⟩ := Prod.mk.inj hed
      exact ⟨he, rfl⟩
    · exact h.buffered q n e' d' hn

end Ordered

/-- The order invariant between `self._expected[partition] += 1` and the next look into the gap
buffer of `p`: the next message may be there, and the lock holder is at no point of its own. -/
structure Draining (c : Config) (s : Bus) (p : Partition) : Prop where
  completed : ∀ q, completedSequences q s.trace = List.range (s.expected q)
  beyond : ∀ q n, n ∈ s.pending q → s.expected q < n ∨ (q = p ∧ n = s.expected q)
  buffered : ∀ q n e d, (s.pending q).lookup n = some (e, d) → e.partition = q ∧ e.sequence = n
  active : ∀ q pt, q ≠ p → s.active q = some pt → pt.Fits c s.trace q (s.expected q)
  history : AtEach (StepsInOrder c) s.trace

theorem Draining.drainPartition {s : Bus} (h : Draining c s p)
    {head : Envelope} (hhead : head.partition = p) : Ordered c (s.drainPartition p head) := by
  unfold Bus.drainPartition
  cases hl : (s.pending p).lookup (s.expected p) with
  | none =>
    have hnot : s.expected p ∉ s.pending p := AList.lookup_eq_none.mp hl
    refine ⟨fun q => ?_, fun q n hn => ?_, h.buffered, fun q pt hq => ?_, ?_⟩
    · simp only [Bus.reply, Bus.release]
      rw [Event.Quiet.completedSequences (by trivial), h.completed q]
    · rcases h.beyond q n hn with hlt | ⟨rfl, rfl⟩
      · exact hlt
      · exact absurd hn hnot
    · obtain ⟨hqp, hq⟩ := Bus.of_active_release hq
      exact (h.active q pt hqp hq).append
    · exact atEach_snoc h.history trivial
  | some ed =>
    obtain ⟨e, d⟩ := ed
    obtain ⟨hep, hes⟩ := h.buffered p _ e d hl
    refine ⟨h.completed, fun q n hn => ?_, fun q n e' d' hn => ?_, fun q pt hq => ?_, h.history⟩
    · by_cases hqp : q = p
      · subst hqp
        simp only [Bus.suspend, Bus.setPending, Function.update_self, AList.mem_erase] at hn
        rcases h.beyond q n hn.2 with hlt | ⟨_, rfl⟩
        · exact hlt
        · exact absurd rfl hn.1
      · simp only [Bus.suspend, Bus.setPending, Function.update_of_ne hqp] at hn
        rcases h.beyond q n hn with hlt | ⟨rfl, _⟩
        · exact hlt
        · exact absurd rfl hqp
    · exact h.buffered q n e' d' (Bus.of_lookup_erase hn).2
    · rcases Bus.of_active_suspend hq with ⟨rfl, rfl⟩ | ⟨hqp, hq⟩
      · exact ⟨hhead, by simp [Point.job?, hep, hes, Bus.suspend, Bus.setPending],
          by simp, trivial⟩
      · exact h.active q pt hqp hq

namespace Ordered

variable {c : Config} {s : Bus} {p : Partition}

theorem complete (h : Ordered c s) (records : Records)
    (hp : job.envelope.partition = p) (hn : job.envelope.sequence = s.expected p)
    (hdone : ∀ x ∈ c.handlers job.envelope.eventType, Event.finished job.envelope x ∈ s.trace) :
    Draining c ((s.commit p records).log (.completed job.envelope)) p where
  completed q := by
    simp only [Bus.log, Bus.commit, completedSequences_append, h.completed q, completedSequences]
    by_cases hqp : q = p
    · subst hqp
      simp [hp, hn, List.range_succ]
    · have hne : ¬ job.envelope.partition = q := fun he => hqp (he.symm.trans hp)
      simp [hne, Function.update_of_ne hqp]
  beyond q n hn' := by
    have hlt := h.beyond q n hn'
    by_cases hqp : q = p
    · subst hqp
      simp only [Bus.log, Bus.commit, Function.update_self]
      rcases Nat.lt_or_ge (s.expected q + 1) n with hgt | hle
      · exact .inl hgt
      · exact .inr ⟨trivial, by omega⟩
    · simp only [Bus.log, Bus.commit, Function.update_of_ne hqp]
      exact .inl hlt
  buffered := h.buffered
  active q pt hqp hq := by
    simp only [Bus.log, Bus.commit, Function.update_of_ne hqp]
    exact (h.active q pt hq).append
  history := atEach_snoc h.history hdone

theorem dispatchReserved (h : Ordered c s) (he : e.partition = p) :
    Ordered c (s.dispatchReserved c p e (s.expected p)) := by
  unfold Bus.dispatchReserved
  have hrej : ∀ x, Ordered c (s.suspend p (.rejecting e x)) := fun x =>
    h.suspend ⟨he, by simp [Point.job?], by simp, trivial⟩
  split
  · exact hrej _
  · split
    · rename_i hlt
      split
      · exact hrej _
      · split
        · exact hrej _
        · exact (h.insertPending he hlt).reply
    · exact h.suspend ⟨he, by simp [Point.job?, he]; omega, by simp, trivial⟩

theorem dispatchHandlers (h : Ordered c s)
    (hj : (Point.entering job).Fits c s.trace p (s.expected p)) :
    Ordered c (s.dispatchHandlers c p job) := by
  obtain ⟨hp, hn⟩ := hj.job job rfl
  unfold Bus.dispatchHandlers
  cases hh : c.handlers job.envelope.eventType with
  | nil => exact h.suspend ⟨hj.head, hj.job, by simp, trivial⟩
  | cons x xs =>
    have hstart : StepsInOrder c s.trace (.started job.envelope x) := by
      intro n hlt
      rw [hp, h.completed p, List.mem_range]
      omega
    exact (h.log hstart (by simp)).suspend
      ⟨hj.head, hj.job, by simp, [], by simpa using hh, by simp⟩

/-- **Step lemma for a returning call.** -/
theorem advance (h : Ordered c s) (hpt : s.active p = some pt) :
    Ordered c (s.advance c p pt) := by
  have hf := h.active p pt hpt
  cases pt with
  | reserving e n =>
    obtain rfl := hf.reserving e n rfl
    simp only [Bus.advance, Bus.afterReserve]
    split
    · exact h.release trivial
    · exact dispatchReserved (h.of_records _) hf.head
    · exact h.reply
    · exact h.reply
  | rejecting e x =>
    simp only [Bus.advance]
    split
    · exact h.release trivial
    · exact (h.of_records _).release trivial
  | marking job =>
    simp only [Bus.advance]
    split
    · exact h.leave
    · exact (h.of_records _).suspend ⟨hf.head, hf.job, by simp, trivial⟩
  | entering job => exact h.dispatchHandlers hf
  | handling job rest =>
    obtain ⟨done, hd, hfin⟩ := hf.done
    cases rest with
    | nil =>
      refine h.suspend ⟨hf.head, hf.job, by simp, fun x hx => hfin x ?_⟩
      simpa [hd] using hx
    | cons x xs =>
      have hlog : Ordered c (s.log (.finished job.envelope x)) := h.log trivial (by simp)
      have hfin' : ∀ y ∈ done ++ [x], Event.finished job.envelope y ∈
          (s.log (.finished job.envelope x)).trace := by
        intro y hy
        simp only [List.mem_append, List.mem_singleton] at hy
        rcases hy with hy | rfl
        · exact List.mem_append_left _ (hfin y hy)
        · simp [Bus.log]
      cases xs with
      | nil =>
        exact hlog.suspend ⟨hf.head, hf.job, by simp, done ++ [x], by simpa using hd, hfin'⟩
      | cons y ys =>
        obtain ⟨hp, hn⟩ := hf.job job rfl
        have hstart : StepsInOrder c (s.log (.finished job.envelope x)).trace
            (.started job.envelope y) := by
          intro n hlt
          rw [hp, hlog.completed p, List.mem_range]
          exact hn ▸ hlt
        exact (hlog.log hstart (by simp)).suspend
          ⟨hf.head, hf.job, by simp, done ++ [x], by simpa using hd,
            fun z hz => List.mem_append_left _ (hfin' z hz)⟩
  | aborting job x =>
    simp only [Bus.advance]
    split
    · exact h.leave
    · split
      · exact (h.of_records _).suspend ⟨hf.head, hf.job, by simp, trivial⟩
      · exact (h.of_records _).leave
  | reporting job x => exact h.leave
  | completing job =>
    obtain ⟨hp, hn⟩ := hf.job job rfl
    simp only [Bus.advance]
    split
    · exact h.leave
    · exact (h.complete _ hp hn hf.done).drainPartition hf.head

/-- **Step lemma.** -/
theorem step {s' : Bus} {a : Action} (h : Ordered c s) (hs : Messaging.step c s a = some s') :
    Ordered c s' := by
  cases step_cases hs with
  | publish e now =>
    unfold Bus.publish
    split
    · exact h.log trivial (by simp)
    · exact ⟨h.completed, h.beyond, h.buffered, h.active, h.history⟩
  | @acquire e hmem hfree =>
    have hw : Ordered c { s with waiting := s.waiting.erase e } :=
      ⟨h.completed, h.beyond, h.buffered, h.active, h.history⟩
    exact hw.suspend ⟨rfl, by simp [Point.job?], by simp +contextual, trivial⟩
  | advance hpt => exact h.advance hpt
  | failEntering x hpt | failHandling x hpt =>
    have hf := h.active _ _ hpt
    exact h.suspend ⟨hf.head, hf.job, by simp, trivial⟩
  | failReporting x hpt => exact h.leave
  | cancel hpt => exact h.release trivial
  | @cancelWaiting e hmem =>
    have hw : Ordered c { s with waiting := s.waiting.erase e } :=
      ⟨h.completed, h.beyond, h.buffered, h.active, h.history⟩
    exact hw.log trivial (by simp)
  | close => exact ⟨h.completed, h.beyond, h.buffered, h.active, h.history⟩

end Ordered

theorem ordered_of_run {records : Records} {as : List Action} {s : Bus}
    (h : run (step c) (Bus.init records) as = some s) : Ordered c s :=
  run_invariant (fun _ _ _ hI hs => hI.step hs) (Ordered.init records) h

/-- **In order and exactly once.**  After every run of a bus over a new store, the completed
sequences of each partition are `0, …, expected - 1` in order of completion, a free partition
buffers only sequences beyond `expected`, and a handler of a message starts only when every
smaller sequence of its partition has completed, all handlers of that message having finished. -/
theorem partition_in_order_exactly_once (c : Config) (as : List Action) (s : Bus)
    (h : run (step c) (Bus.init fun _ => none) as = some s) :
    (∀ p, completedSequences p s.trace = List.range (s.expected p)) ∧
    (∀ p, s.active p = none → ∀ n ∈ s.pending p, s.expected p < n) ∧
    AtEach (fun pre ev => ∀ e x, ev = .started e x → ∀ n < e.sequence,
      ∃ e', e'.partition = e.partition ∧ e'.sequence = n ∧ Event.completed e' ∈ pre ∧
        ∀ y ∈ c.handlers e'.eventType, Event.finished e' y ∈ pre) s.trace := by
  have ho := ordered_of_run h
  refine ⟨ho.completed, fun p _ n hn => ho.beyond p n hn, ?_⟩
  intro pre ev post htr e x hev n hn
  subst hev
  have hstart := ho.history pre _ post htr n hn
  obtain ⟨e', hmem, hp, hs⟩ := mem_completedSequences.mp hstart
  refine ⟨e', hp, hs, hmem, fun y hy => ?_⟩
  obtain ⟨pre', post', rfl⟩ := List.append_of_mem hmem
  have hpre : AtEach (StepsInOrder c) (pre' ++ .completed e' :: post') := by
    have hall := ho.history
    rw [htr] at hall
    exact hall.of_append
  exact List.mem_append_left _ (hpre pre' _ post' rfl y hy)

/-- A buffered message is drained after its predecessor: both complete, in order. -/
theorem partition_in_order_exactly_once_two :
    let c : Config := ⟨fun e => e.delivery.idempotencyKey, fun _ => ["h"], false, 2⟩
    let e (n : ℕ) : Envelope := ⟨"t", "p", n, "ev", 0, ⟨if n = 0 then "k0" else "k1", 1, 0, none⟩, ""⟩
    let as : List Action := [.publish (e 1) 0, .acquire (e 1), .advance ("t", "p"),
      .publish (e 0) 0, .acquire (e 0)] ++ List.replicate 11 (.advance ("t", "p"))
    ∃ s, run (step c) (Bus.init fun _ => none) as = some s ∧
      s.expected ("t", "p") = 2 ∧ completedSequences ("t", "p") s.trace = List.range 2 := by
  intro c e as
  obtain ⟨s, hs⟩ : ∃ s, run (step c) (Bus.init fun _ => none) as = some s := ⟨_, rfl⟩
  have he : s.expected ("t", "p") = 2 := by
    have : some (s.expected ("t", "p")) = some 2 := by
      rw [← Option.map_some (f := fun s : Bus => s.expected ("t", "p")), ← hs]
      rfl
    exact Option.some.inj this
  refine ⟨s, hs, he, ?_⟩
  rw [(partition_in_order_exactly_once c as s hs).1 ("t", "p"), he]

end CyberControl.Messaging
