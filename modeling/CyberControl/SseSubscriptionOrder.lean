import CyberControl.SseLog
import CyberControl.SseSubscription

/-! # The invariant of a subscription

`Ordered log k s` is the invariant of a subscription `s` opened after sequence `k`.  What has been
returned, what a drain is about to return, the initial events, an item already taken and the queue
are, in this order, the matching events of the log from `k + 1` on, up to the subscriber's last
sequence.  A closed subscriber keeps an initial part of that, and a subscription whose drain has
raised is left `DRAINING` with nothing to return. -/

namespace CyberControl.SseBroker

/-- The events in a call's `merged`. -/
def Purpose.merged : Purpose → List Event
  | .admission => []
  | .handoff merged _ => merged
  | .drain _ merged _ => merged

/-- The event that a drain is about to return. -/
def Purpose.held : Purpose → Option Event
  | .drain held _ _ => some held
  | _ => none

namespace Point

/-- The event that `__anext__` has popped and is about to return. -/
def held : Point → Option Event
  | .awaitPage p => p.purpose.held
  | .page p _ => p.purpose.held
  | .closeAfterGap held => held
  | .drain held _ _ => some held
  | _ => none

/-- The event that the receive task has taken from the queue. -/
def taken : Point → Option Event
  | .received item => item.event?
  | _ => none

/-- The events in the local variables. -/
def events : Point → List Event
  | .awaitPage p => p.purpose.merged ++ p.replay
  | .page p (.ok read) => p.purpose.merged ++ p.replay ++ read
  | .page p (.error _) => p.purpose.merged ++ p.replay
  | .activate merged _ => merged
  | .drain _ merged _ => merged
  | _ => []

/-- The subscription is being admitted. -/
def admitting : Point → Bool
  | .initializing | .register | .awaitLatest | .latest _ | .activate _ _ | .failed _ => true
  | .awaitPage p => p.purpose.held.isNone
  | .page p _ => p.purpose.held.isNone
  | .closeAfterGap held => held.isNone
  | _ => false

/-- The replay of an admission is being read or merged. -/
def replaying : Point → Bool
  | .activate _ _ => true
  | .awaitPage p => p.purpose.held.isNone
  | .page p _ => p.purpose.held.isNone
  | _ => false

end Point

def queueEvents (queue : List Item) : List Event := queue.filterMap Item.event?

namespace Subscription

/-- What has been or may still be returned without the queue. -/
def front (s : Subscription) : List Event := s.yielded ++ s.point.held.toList ++ s.initialEvents

/-- What has been or may still be returned. -/
def pipeline (s : Subscription) : List Event :=
  s.front ++ s.point.taken.toList ++ queueEvents s.subscriber.queue

end Subscription

/-- The invariant of a subscription opened after sequence `k`. -/
structure Ordered (log : List Event) (k : ℕ) (s : Subscription) : Prop where
  afterSequence : s.afterSequence = some k
  prefixes : s.subscriber.eventTypePrefixes = s.eventTypePrefixes
  buffered : FromLog log s.subscriber.replayBuffer
  locals : FromLog log s.point.events
  last_ge : (k : ℤ) ≤ s.subscriber.lastSequence
  last_lt : s.subscriber.lastSequence = k ∨ s.subscriber.lastSequence < log.length
  front_isPrefix : s.front <+: stream log s.eventTypePrefixes k
  pipeline_isPrefix : s.closing = false → s.pipeline <+: stream log s.eventTypePrefixes k
  created : s.created = false →
    s.subscriber.state = .REPLAYING ∧ (s.point = .idle ∨ s.point = .initializing)
  admitting : s.point.admitting = true → s.subscriber.state = .REPLAYING
  replaying : s.subscriber.state = .REPLAYING → s.pipeline = [] ∧ s.subscriber.lastSequence = k
  held : s.point.held ≠ none → s.subscriber.state = .DRAINING ∧ s.initialEvents = []
  initial : s.initialEvents ≠ [] → s.subscriber.state = .DRAINING
  draining : s.subscriber.state = .DRAINING → s.pipeline = s.front
  initialLast : s.point.replaying = true → s.initialLastSequence = some (k : ℤ)
  draining_eq : s.subscriber.closed = false → s.subscriber.state = .DRAINING →
    s.initialEvents ≠ [] ∨ s.point.held ≠ none →
    s.front = streamUpTo log s.eventTypePrefixes k s.subscriber.lastSequence
  live_eq : s.closing = false → s.subscriber.closed = false → s.subscriber.state = .LIVE →
    s.pipeline = streamUpTo log s.eventTypePrefixes k s.subscriber.lastSequence

section changes
variable {log : List Event} {k : ℕ} {s : Subscription}

theorem ordered_open (prefixes : List String) : Ordered log k (.open (some k) prefixes) where
  afterSequence := rfl
  prefixes := rfl
  buffered := by simp [FromLog, Subscription.open]
  locals := by simp [FromLog, Subscription.open, Point.events]
  last_ge := Int.le_refl _
  last_lt := .inl rfl
  front_isPrefix := List.nil_prefix
  pipeline_isPrefix _ := List.nil_prefix
  created _ := ⟨rfl, .inl rfl⟩
  admitting h := by cases h
  replaying _ := ⟨rfl, rfl⟩
  held h := absurd rfl h
  initial h := absurd rfl h
  draining h := by cases h
  initialLast h := by cases h
  draining_eq _ h := by cases h
  live_eq _ _ h := by cases h

theorem Ordered.append_log (h : Ordered log k s) (x : List Event) : Ordered (log ++ x) k s :=
  { h with
    buffered := h.buffered.append_log x
    locals := h.locals.append_log x
    last_lt := h.last_lt.imp_right fun hlt => by rw [List.length_append]; push_cast; omega
    front_isPrefix := h.front_isPrefix.trans (stream_append_log x)
    pipeline_isPrefix := fun hc => (h.pipeline_isPrefix hc).trans (stream_append_log x)
    draining_eq := fun hc hs hi => by
      rw [streamUpTo_append_log x h.last_lt, h.draining_eq hc hs hi]
    live_eq := fun hc hd hs => by rw [streamUpTo_append_log x h.last_lt, h.live_eq hc hd hs] }

theorem Ordered.move (h : Ordered log k s) {p : Point} (hheld : p.held = s.point.held)
    (htaken : p.taken = s.point.taken) (hevents : FromLog log p.events)
    (hcreated : s.created = true ∨ p = .initializing)
    (hadmitting : p.admitting = true → s.subscriber.state = .REPLAYING)
    (hreplaying : p.replaying = true → s.initialLastSequence = some (k : ℤ)) :
    Ordered log k { s with point := p } := by
  have hfront : Subscription.front { s with point := p } = s.front := by
    rw [Subscription.front, Subscription.front, hheld]
  have hpipeline : Subscription.pipeline { s with point := p } = s.pipeline := by
    rw [Subscription.pipeline, Subscription.pipeline, hfront, htaken]
  exact
    { h with
      locals := hevents
      front_isPrefix := hfront ▸ h.front_isPrefix
      pipeline_isPrefix := fun hc => hpipeline ▸ h.pipeline_isPrefix hc
      created := fun hc => by
        rcases hcreated with hcr | hinit
        · cases hcr.symm.trans hc
        · exact ⟨(h.created hc).1, .inr hinit⟩
      admitting := hadmitting
      replaying := fun hs => hpipeline ▸ h.replaying hs
      held := fun hp => h.held (hheld ▸ hp)
      draining := fun hs => by rw [hpipeline, hfront, h.draining hs]
      initialLast := hreplaying
      draining_eq := fun hc hs hi => by rw [hfront, h.draining_eq hc hs (hheld ▸ hi)]
      live_eq := fun hc hd hs => by rw [hpipeline, h.live_eq hc hd hs] }

theorem pipeline_eq_nil (h : s.pipeline = []) :
    s.yielded = [] ∧ s.point.held = none ∧ s.initialEvents = [] ∧ s.point.taken = none ∧
      queueEvents s.subscriber.queue = [] := by
  simp only [Subscription.pipeline, Subscription.front, List.append_eq_nil_iff,
    Option.toList_eq_nil_iff] at h
  obtain ⟨⟨⟨⟨hy, hh⟩, hi⟩, ht⟩, hq⟩ := h
  exact ⟨hy, hh, hi, ht, hq⟩

theorem Ordered.queue_of_draining (h : Ordered log k s) (hs : s.subscriber.state = .DRAINING) :
    s.point.taken = none ∧ queueEvents s.subscriber.queue = [] := by
  have hp := h.draining hs
  rw [Subscription.pipeline, List.append_assoc] at hp
  have hnil := List.append_cancel_left (hp.trans (List.append_nil _).symm)
  rwa [List.append_eq_nil_iff, Option.toList_eq_nil_iff] at hnil

theorem Ordered.of_taken (h : Ordered log k s) (ht : s.point.taken ≠ none) :
    s.subscriber.state = .LIVE ∧ s.initialEvents = [] ∧ s.point.held = none := by
  have hlive : s.subscriber.state = .LIVE := by
    cases hs : s.subscriber.state with
    | REPLAYING => exact absurd (pipeline_eq_nil (h.replaying hs).1).2.2.2.1 ht
    | DRAINING => exact absurd (h.queue_of_draining hs).1 ht
    | LIVE => rfl
  refine ⟨hlive, ?_, ?_⟩
  · by_contra hi
    rw [h.initial hi] at hlive
    cases hlive
  · by_contra hh
    rw [(h.held hh).1] at hlive
    cases hlive

/-- `__anext__` ends without an event; an event it holds is lost, and one it has taken only when
the subscription closes. -/
theorem Ordered.abandon (h : Ordered log k s) {c : Bool}
    (hc : c = false → s.closing = false ∧ s.point.taken = none) :
    Ordered log k { s with closing := c, point := .idle } := by
  have hfront : Subscription.front { s with closing := c, point := .idle } = s.yielded ++ s.initialEvents := by
    simp [Subscription.front, Point.held]
  have hpipeline : Subscription.pipeline { s with closing := c, point := .idle } =
      s.yielded ++ s.initialEvents ++ queueEvents s.subscriber.queue := by
    simp [Subscription.pipeline, hfront, Point.taken]
  have hheld : s.point.held = none → s.front = s.yielded ++ s.initialEvents := by
    intro hnone
    simp [Subscription.front, hnone]
  have hprefix : s.yielded ++ s.initialEvents <+: s.front := by
    by_cases hnone : s.point.held = none
    · exact hheld hnone ▸ List.prefix_refl _
    · rw [(h.held hnone).2, List.append_nil, Subscription.front, List.append_assoc]
      exact List.prefix_append _ _
  have hkeep : s.point.held = none → s.point.taken = none →
      s.yielded ++ s.initialEvents ++ queueEvents s.subscriber.queue = s.pipeline := by
    intro hh ht
    rw [Subscription.pipeline, hheld hh, ht]
    simp
  exact
    { h with
      locals := by simp [FromLog, Point.events]
      front_isPrefix := by
        rw [hfront]
        exact hprefix.trans h.front_isPrefix
      pipeline_isPrefix := fun hcl => by
        obtain ⟨hclosing, htaken⟩ := hc hcl
        rw [hpipeline]
        by_cases hnone : s.point.held = none
        · rw [hkeep hnone htaken]
          exact h.pipeline_isPrefix hclosing
        · rw [(h.queue_of_draining (h.held hnone).1).2, List.append_nil]
          exact hprefix.trans h.front_isPrefix
      created := fun hcr => ⟨(h.created hcr).1, .inl rfl⟩
      admitting := fun hp => by cases hp
      replaying := fun hs => by
        obtain ⟨hy, -, hi, -, hq⟩ := pipeline_eq_nil (h.replaying hs).1
        rw [hpipeline, hy, hi, hq]
        exact ⟨rfl, (h.replaying hs).2⟩
      held := fun hp => absurd rfl hp
      draining := fun hs => by
        rw [hpipeline, hfront, (h.queue_of_draining hs).2, List.append_nil]
      initialLast := fun hp => by cases hp
      draining_eq := fun hcl hs hi => by
        rcases hi with hi | hi
        · have hnone : s.point.held = none := by
            by_contra hh
            exact hi (h.held hh).2
          rw [hfront, ← hheld hnone, h.draining_eq hcl hs (.inl hi)]
        · exact absurd rfl hi
      live_eq := fun hcl hd hs => by
        obtain ⟨hclosing, htaken⟩ := hc hcl
        have hnone : s.point.held = none := by
          by_contra hh
          have hs' := (h.held hh).1
          rw [show s.subscriber.state = .LIVE from hs] at hs'
          cases hs'
        rw [hpipeline, hkeep hnone htaken, h.live_eq hclosing hd hs] }

theorem Ordered.startClosing (h : Ordered log k s) : Ordered log k { s with closing := true } :=
  { h with
    pipeline_isPrefix := fun hc => by cases hc
    live_eq := fun hc => by cases hc }

/-- The subscriber changes, but not its place in the log; its queue keeps its events, or it is
closed and has none. -/
theorem Ordered.setSubscriber (h : Ordered log k s) {x : Subscriber}
    (hprefixes : x.eventTypePrefixes = s.subscriber.eventTypePrefixes)
    (hbuffered : FromLog log x.replayBuffer) (hlast : x.lastSequence = s.subscriber.lastSequence)
    (hstate : x.state = s.subscriber.state)
    (hclosed : s.subscriber.closed = true → x.closed = true)
    (hqueue : queueEvents x.queue = queueEvents s.subscriber.queue ∨
      x.closed = true ∧ queueEvents x.queue = []) :
    Ordered log k { s with subscriber := x } := by
  have hpipeline : Subscription.pipeline { s with subscriber := x } <+: s.pipeline := by
    rw [Subscription.pipeline, Subscription.pipeline]
    rcases hqueue with hq | ⟨-, hq⟩
    · rw [hq]
      exact List.prefix_refl _
    · rw [hq, List.append_nil]
      exact List.prefix_append _ _
  have hopen : x.closed = false → s.subscriber.closed = false ∧
      Subscription.pipeline { s with subscriber := x } = s.pipeline := by
    intro hx
    refine ⟨?_, ?_⟩
    · by_contra hcl
      rw [hclosed (Bool.not_eq_false _ ▸ hcl)] at hx
      cases hx
    · rcases hqueue with hq | ⟨hcl, -⟩
      · rw [Subscription.pipeline, Subscription.pipeline, hq]
        rfl
      · rw [hcl] at hx
        cases hx
  exact
    { h with
      prefixes := hprefixes.trans h.prefixes
      buffered := hbuffered
      last_ge := hlast ▸ h.last_ge
      last_lt := hlast ▸ h.last_lt
      pipeline_isPrefix := fun hc => hpipeline.trans (h.pipeline_isPrefix hc)
      created := fun hc => ⟨hstate.trans (h.created hc).1, (h.created hc).2⟩
      admitting := fun hp => hstate.trans (h.admitting hp)
      replaying := fun hs => by
        obtain ⟨hnil, hk⟩ := h.replaying (hstate ▸ hs)
        rw [hnil] at hpipeline
        exact ⟨List.prefix_nil.mp hpipeline, hlast.trans hk⟩
      held := fun hp => ⟨hstate.trans (h.held hp).1, (h.held hp).2⟩
      initial := fun hi => hstate.trans (h.initial hi)
      draining := fun hs => by
        have hfront : s.front <+: Subscription.pipeline { s with subscriber := x } := by
          rw [Subscription.pipeline, List.append_assoc]
          exact List.prefix_append _ _
        rw [h.draining (hstate ▸ hs)] at hpipeline
        exact (hfront.eq_of_length_le hpipeline.length_le).symm
      draining_eq := fun hx hs hi => by
        have hfront : Subscription.front { s with subscriber := x } = s.front := rfl
        rw [hfront, h.draining_eq (hopen hx).1 (hstate ▸ hs) hi, ← hlast]
      live_eq := fun hc hx hs => by
        rw [(hopen hx).2, h.live_eq hc (hopen hx).1 (hstate ▸ hs), ← hlast] }

/-! ### The subscriber under the lock -/

theorem Ordered.register (h : Ordered log k s) (b : Bool) :
    Ordered log k { s with subscriber := { s.subscriber with registered := b } } :=
  h.setSubscriber rfl h.buffered rfl rfl id (.inl rfl)

theorem Ordered.close (h : Ordered log k s) :
    Ordered log k { s with subscriber := s.subscriber.close } := by
  unfold Subscriber.close
  split
  · exact h.register false
  · exact h.setSubscriber rfl (by simp [FromLog, Subscriber.clearReplayBuffer]) rfl rfl
      (fun _ => rfl) (.inr ⟨rfl, rfl⟩)

variable {e : Event}

theorem Ordered.bufferReplayEvent (h : Ordered log k s) (he : log[e.sequence]? = some e)
    (bounds : Bounds) :
    Ordered log k { s with subscriber := s.subscriber.bufferReplayEvent bounds e } := by
  unfold Subscriber.bufferReplayEvent
  split
  · exact h
  · split
    · split
      · exact h.close
      · exact h
    · split
      · exact h.close
      · refine h.setSubscriber rfl (h.buffered.append ?_) rfl rfl id (.inl rfl)
        simpa [FromLog] using he

variable {events : List Event}

theorem Ordered.bufferAll (h : Ordered log k s) (hevents : FromLog log events)
    (bounds : Bounds) :
    Ordered log k { s with subscriber := events.foldl (Subscriber.bufferReplayEvent bounds) s.subscriber } := by
  induction events generalizing s with
  | nil => exact h
  | cons e events ih =>
    exact ih (h.bufferReplayEvent (hevents e (by simp)) bounds) fun x hx => hevents x (by simp [hx])

/-- A live subscriber takes note of the next event of the log, and queues it if it matches. -/
theorem Ordered.receive (h : Ordered log k s) (he : log[e.sequence]? = some e)
    (hnext : (e.sequence : ℤ) = s.subscriber.lastSequence + 1) (hlive : s.subscriber.state = .LIVE)
    (hopen : s.subscriber.closed = false) {queue : List Item}
    (hqueue : queueEvents queue =
      queueEvents s.subscriber.queue ++ [e].filter (matchesPrefixes s.eventTypePrefixes)) :
    Ordered log k { s with subscriber := { s.subscriber with queue := queue, lastSequence := e.sequence } } := by
  have hlast := h.last_ge
  have hgap : firstSequenceGap [e] (some s.subscriber.lastSequence) = none := by
    simp [firstSequenceGap, sequenceGapFrom, hnext]
  obtain ⟨hrun, -, hlt⟩ :=
    run_of_firstSequenceGap (by omega) (show FromLog log [e] by simpa [FromLog] using he) hgap
  have hlt := hlt (by simp)
  have hextend := streamUpTo_extend s.eventTypePrefixes hlast hrun
  have hone : (e.sequence : ℤ) = s.subscriber.lastSequence + ([e] : List Event).length := by
    rw [List.length_singleton]
    omega
  have hpipeline : Subscription.pipeline
      { s with subscriber := { s.subscriber with queue := queue, lastSequence := e.sequence } } =
        s.pipeline ++ [e].filter (matchesPrefixes s.eventTypePrefixes) := by
    rw [Subscription.pipeline, hqueue]
    exact (List.append_assoc _ _ _).symm
  have heq : s.closing = false → Subscription.pipeline
      { s with subscriber := { s.subscriber with queue := queue, lastSequence := e.sequence } } =
        streamUpTo log s.eventTypePrefixes k e.sequence := by
    intro hc
    rw [hpipeline, h.live_eq hc hopen hlive, hone, hextend]
  exact
    { h with
      last_ge := by show (k : ℤ) ≤ e.sequence; omega
      last_lt := .inr (by show (e.sequence : ℤ) < log.length; omega)
      pipeline_isPrefix := fun hc => heq hc ▸ streamUpTo_isPrefix
      created := fun hc => by cases hlive.symm.trans (h.created hc).1
      replaying := fun hs => by cases hlive.symm.trans hs
      draining := fun hs => by cases hlive.symm.trans hs
      draining_eq := fun _ hs => by cases hlive.symm.trans hs
      live_eq := fun hc _ _ => heq hc }

/-- **Fan-out to a live subscriber keeps the invariant.** -/
theorem Ordered.receiveAll (h : Ordered log k s) (hevents : FromLog log events)
    (bounds : Bounds) (hlive : s.subscriber.state = .LIVE) (hopen : s.subscriber.closed = false) :
    Ordered log k { s with subscriber := s.subscriber.receiveAll bounds events } := by
  induction events generalizing s with
  | nil => exact h
  | cons e events ih =>
    have he := hevents e (by simp)
    have hrest : FromLog log events := fun x hx => hevents x (by simp [hx])
    rw [Subscriber.receiveAll]
    split
    · exact ih h hrest hlive hopen
    · split
      · exact h.close
      · rename_i hnext
        have hnext : (e.sequence : ℤ) = s.subscriber.lastSequence + 1 := not_not.mp hnext
        split
        · rename_i hmatch
          rw [h.prefixes] at hmatch
          have hqueue : queueEvents s.subscriber.queue = queueEvents s.subscriber.queue ++
              [e].filter (matchesPrefixes s.eventTypePrefixes) := by simp [hmatch]
          exact ih (h.receive he hnext hlive hopen hqueue) hrest hlive hopen
        · rename_i hmatch
          rw [h.prefixes, not_not] at hmatch
          split
          · exact h.close
          · have hqueue : queueEvents (s.subscriber.queue ++ [.event e]) =
                queueEvents s.subscriber.queue ++
                  [e].filter (matchesPrefixes s.eventTypePrefixes) := by
              simp [queueEvents, hmatch, Item.event?]
            exact ih (h.receive he hnext hlive hopen hqueue) hrest hlive hopen

theorem Ordered.fanOut (h : Ordered log k s) (hevents : FromLog log events)
    (bounds : Bounds) :
    Ordered log k { s with subscriber := s.subscriber.fanOut bounds events } := by
  unfold Subscriber.fanOut
  split
  · exact h.register false
  · rename_i hopen
    split
    · rename_i hlive
      exact h.receiveAll hevents bounds hlive (Bool.not_eq_true _ ▸ hopen)
    · exact h.bufferAll hevents bounds

/-! ### Returning an event -/

theorem Ordered.take (h : Ordered log k s) {item : Item} {queue : List Item}
    (hpoint : s.point = .receive) (hqueue : s.subscriber.queue = item :: queue) :
    Ordered log k
      { s with subscriber := { s.subscriber with queue := queue }, point := .received item } := by
  have hpipeline : Subscription.pipeline
      { s with subscriber := { s.subscriber with queue := queue }, point := .received item } =
        s.pipeline := by
    have hitems : queueEvents s.subscriber.queue = item.event?.toList ++ queueEvents queue := by
      rw [hqueue]
      cases item with
      | event e => rfl
      | closed => rfl
    simp only [Subscription.pipeline, Subscription.front, Point.held, Point.taken, hpoint, hitems,
      Option.toList_none, List.append_nil, List.append_assoc]
  have hfront : Subscription.front
      { s with subscriber := { s.subscriber with queue := queue }, point := .received item } =
        s.front := by
    simp [Subscription.front, Point.held, hpoint]
  exact
    { h with
      locals := by simp [FromLog, Point.events]
      front_isPrefix := hfront ▸ h.front_isPrefix
      pipeline_isPrefix := fun hc => hpipeline ▸ h.pipeline_isPrefix hc
      created := fun hc => by
        rcases (h.created hc).2 with hp | hp <;> cases hpoint.symm.trans hp
      admitting := fun hp => by cases hp
      replaying := fun hs => hpipeline ▸ h.replaying hs
      held := fun hp => absurd rfl hp
      draining := fun hs => by rw [hpipeline, hfront, h.draining hs]
      initialLast := fun hp => by cases hp
      draining_eq := fun hc hs hi => by
        rw [hfront, h.draining_eq hc hs (.inl (hi.resolve_right fun hn => hn rfl))]
      live_eq := fun hc hd hs => by rw [hpipeline, h.live_eq hc hd hs] }

/-- `__anext__` returns an event that is next in line: what it held, has popped or has taken. -/
theorem Ordered.yieldEvent (h : Ordered log k s) {initial : List Event}
    (hstate : s.subscriber.state ≠ .REPLAYING)
    (hfront : s.yielded ++ e :: initial <+: stream log s.eventTypePrefixes k)
    (hpipeline : s.closing = false →
      s.yielded ++ e :: initial ++ queueEvents s.subscriber.queue = s.pipeline)
    (hinitial : initial ≠ [] → s.subscriber.state = .DRAINING)
    (hdraining : s.subscriber.state = .DRAINING → s.front = s.yielded ++ e :: initial) :
    Ordered log k (Subscription.yieldEvent { s with initialEvents := initial } e) := by
  have hfront' : Subscription.front (Subscription.yieldEvent { s with initialEvents := initial } e) =
      s.yielded ++ e :: initial := by
    simp [Subscription.front, Subscription.yieldEvent, Point.held]
  have hpipeline' : Subscription.pipeline (Subscription.yieldEvent { s with initialEvents := initial } e) =
      s.yielded ++ e :: initial ++ queueEvents s.subscriber.queue := by
    rw [Subscription.pipeline, hfront']
    simp [Subscription.yieldEvent, Point.taken]
  exact
    { h with
      locals := by simp [FromLog, Subscription.yieldEvent, Point.events]
      front_isPrefix := hfront'.symm ▸ hfront
      pipeline_isPrefix := fun hc => by
        rw [hpipeline', hpipeline hc]
        exact h.pipeline_isPrefix hc
      created := fun hc => absurd (h.created hc).1 hstate
      admitting := fun hp => by cases hp
      replaying := fun hs => absurd hs hstate
      held := fun hp => absurd rfl hp
      initial := hinitial
      draining := fun hs => by
        rw [hpipeline', hfront', (h.queue_of_draining hs).2, List.append_nil]
      initialLast := fun hp => by cases hp
      draining_eq := fun hc hs hi => by
        have hne : initial ≠ [] := hi.resolve_right fun hn => hn rfl
        have hflow : s.initialEvents ≠ [] ∨ s.point.held ≠ none := by
          by_contra hnone
          rw [not_or, not_not, not_not] at hnone
          have hf := hdraining hs
          rw [Subscription.front, hnone.1, hnone.2] at hf
          simp at hf
        rw [hfront', ← hdraining hs]
        exact h.draining_eq hc hs hflow
      live_eq := fun hc hd hs => by rw [hpipeline', hpipeline hc]; exact h.live_eq hc hd hs }

theorem Ordered.yieldHeld (h : Ordered log k s) (he : s.point.held = some e) :
    Ordered log k (s.yieldEvent e) := by
  obtain ⟨hstate, hinitial⟩ := h.held (by rw [he]; simp)
  have hfront : s.front = s.yielded ++ [e] := by simp [Subscription.front, he, hinitial]
  have hs : s = { s with initialEvents := [] } := by
    rw [← hinitial]
  rw [hs]
  refine h.yieldEvent (by rw [hstate]; simp) (hfront ▸ h.front_isPrefix) (fun _ => ?_)
    (fun hne => absurd rfl hne) fun _ => hfront
  rw [h.draining hstate, hfront, (h.queue_of_draining hstate).2, List.append_nil]

theorem Ordered.yieldTaken (h : Ordered log k s) (he : s.point.taken = some e)
    (hc : s.closing = false) : Ordered log k (s.yieldEvent e) := by
  obtain ⟨hstate, hinitial, hheld⟩ := h.of_taken (by rw [he]; simp)
  have hpipeline : s.yielded ++ [e] ++ queueEvents s.subscriber.queue = s.pipeline := by
    simp [Subscription.pipeline, Subscription.front, he, hheld, hinitial]
  have hs : s = { s with initialEvents := [] } := by
    rw [← hinitial]
  rw [hs]
  refine h.yieldEvent (by rw [hstate]; simp) ?_ (fun _ => hpipeline) (fun hne => absurd rfl hne)
    fun hd => by rw [hstate] at hd; cases hd
  exact (List.prefix_append _ _).trans (hpipeline ▸ h.pipeline_isPrefix hc)

theorem Ordered.yieldInitial (h : Ordered log k s) {rest : List Event}
    (he : s.initialEvents = e :: rest) :
    Ordered log k (Subscription.yieldEvent { s with initialEvents := rest } e) := by
  have hstate := h.initial (by rw [he]; simp)
  have hheld : s.point.held = none := by
    by_contra hh
    rw [(h.held hh).2] at he
    cases he
  have hfront : s.front = s.yielded ++ e :: rest := by simp [Subscription.front, hheld, he]
  refine h.yieldEvent (by rw [hstate]; simp) (hfront ▸ h.front_isPrefix) (fun _ => ?_)
    (fun _ => hstate) fun _ => hfront
  rw [h.draining hstate, hfront, (h.queue_of_draining hstate).2, List.append_nil]

theorem Ordered.hold (h : Ordered log k s) (he : s.initialEvents = [e]) :
    Ordered log k { s with initialEvents := [], point := .drain e [] 0 } := by
  have hstate := h.initial (by rw [he]; simp)
  have hheld : s.point.held = none := by
    by_contra hh
    rw [(h.held hh).2] at he
    cases he
  have hfront : Subscription.front { s with initialEvents := [], point := .drain e [] 0 } = s.front := by
    simp only [Subscription.front, hheld, he]
    simp [Point.held]
  have hqueue := h.queue_of_draining hstate
  have hpipeline : Subscription.pipeline { s with initialEvents := [], point := .drain e [] 0 } =
      s.pipeline := by
    rw [Subscription.pipeline, Subscription.pipeline, hfront, hqueue.1]
    rfl
  exact
    { h with
      locals := by simp [FromLog, Point.events]
      front_isPrefix := hfront ▸ h.front_isPrefix
      pipeline_isPrefix := fun hc => hpipeline ▸ h.pipeline_isPrefix hc
      created := fun hc => by cases hstate.symm.trans (h.created hc).1
      admitting := fun hp => by cases hp
      replaying := fun hs => by cases hstate.symm.trans hs
      held := fun _ => ⟨hstate, rfl⟩
      initial := fun hi => absurd rfl hi
      draining := fun hs => by rw [hpipeline, hfront, h.draining hs]
      initialLast := fun hp => by cases hp
      draining_eq := fun hc hs _ => by
        rw [hfront, h.draining_eq hc hs (.inl (by rw [he]; simp))]
      live_eq := fun _ _ hs => by cases hstate.symm.trans hs }

theorem Ordered.advance (h : Ordered log k s) (hheld : s.point.held = none)
    (htaken : s.point.taken = none) : Ordered log k s.advance := by
  unfold Subscription.advance
  split
  · rename_i e rest he
    split
    · rename_i hrest
      exact h.hold (hrest ▸ he)
    · exact h.yieldInitial he
  · split
    · exact h.abandon fun hc => by cases hc
    · rename_i hcreated
      rw [not_or, not_not] at hcreated
      exact h.move hheld.symm htaken.symm (by simp [FromLog, Point.events]) (.inl hcreated.1)
        (fun hp => by cases hp) fun hp => by cases hp

end changes

end CyberControl.SseBroker
