import CyberControl.SseReplay
import CyberControl.SseSubscriptionOrder

/-! # The segments of a subscription keep its invariant -/

namespace CyberControl.SseBroker

section segments
variable {log : List Event} {k : ℕ} {s : Subscription} {shared : Shared} {purpose : Purpose}

theorem fromLog_nil : FromLog log [] := fun _ he => by cases he

theorem Ordered.created_of (h : Ordered log k s) (hidle : s.point ≠ .idle)
    (hinitializing : s.point ≠ .initializing) : s.created = true := by
  by_contra hc
  exact (h.created (Bool.not_eq_true _ ▸ hc)).2.elim hidle hinitializing

/-! ### The end of a replay -/

/-- A subscription in a call of `_subscription_replay` for `purpose`. -/
structure Reading (log : List Event) (k : ℕ) (s : Subscription) (purpose : Purpose) : Prop where
  ordered : Ordered log k s
  created : s.created = true
  held : purpose.held = s.point.held
  taken : s.point.taken = none
  merged : FromLog log purpose.merged
  admission : purpose.held = none →
    s.subscriber.state = .REPLAYING ∧ s.initialLastSequence = some (k : ℤ)

variable {p : Point}

theorem Reading.move (h : Reading log k s purpose) (hheld : p.held = purpose.held)
    (htaken : p.taken = none) (hevents : FromLog log p.events)
    (hadmission : p.admitting = true ∨ p.replaying = true → purpose.held = none) :
    Ordered log k { s with point := p } :=
  h.ordered.move (hheld.trans h.held) (htaken.trans h.taken.symm) hevents (.inl h.created)
    (fun hp => (h.admission (hadmission (.inl hp))).1)
    fun hp => (h.admission (hadmission (.inr hp))).2

theorem Reading.abandon (h : Reading log k s purpose) : Ordered log k { s with point := .idle } :=
  h.ordered.abandon fun hc => ⟨hc, h.taken⟩

theorem Reading.afterReplay (h : Reading log k s purpose) {result : Except Exn (List Event)}
    (hresult : ResultFromLog log result) : Ordered log k (s.afterReplay purpose result) := by
  cases purpose with
  | admission =>
    cases result with
    | error e => exact h.move rfl rfl fromLog_nil fun _ => rfl
    | ok replay =>
      unfold Subscription.afterReplay
      dsimp only
      split
      · exact h.move rfl rfl (hresult replay rfl) fun _ => rfl
      · exact h.move rfl rfl fromLog_nil fun _ => rfl
  | handoff merged attempt =>
    cases result with
    | error e =>
      unfold Subscription.afterReplay
      dsimp only
      split
      · exact h.move rfl rfl fromLog_nil fun _ => rfl
      · exact h.move rfl rfl fromLog_nil fun _ => rfl
    | ok missing =>
      unfold Subscription.afterReplay
      dsimp only
      split
      · exact h.move rfl rfl fromLog_nil fun _ => rfl
      · rename_i merged' hmerge
        have hmerged : FromLog log merged' := (h.merged.append (hresult missing rfl)).merge hmerge
        split
        · exact h.move rfl rfl hmerged fun _ => rfl
        · exact h.move rfl rfl fromLog_nil fun _ => rfl
  | drain held merged attempt =>
    cases result with
    | error e =>
      unfold Subscription.afterReplay
      dsimp only
      split
      · exact h.move rfl rfl fromLog_nil fun hp => by rcases hp with hp | hp <;> cases hp
      · exact h.abandon
    | ok missing =>
      unfold Subscription.afterReplay
      dsimp only
      split
      · exact h.abandon
      · rename_i merged' hmerge
        have hmerged : FromLog log merged' := (h.merged.append (hresult missing rfl)).merge hmerge
        split
        · exact h.move rfl rfl hmerged fun hp => by rcases hp with hp | hp <;> cases hp
        · exact h.abandon

theorem Reading.turn {p : Paging} (h : Reading log k s p.purpose)
    (hcache : CacheFromLog log shared.replayCache) (hreplay : FromLog log p.replay) (pages : ℕ) :
    Ordered log k (s.turn shared pages p).1 := by
  have hturn := Paging.turn_fromLog pages hcache ⟨rfl, hreplay⟩
  unfold Subscription.turn
  split
  · rename_i p' cache hawait
    rw [hawait] at hturn
    obtain ⟨hpurpose, hreplay'⟩ := hturn
    have hnone : p'.purpose.held.isNone = true → p.purpose.held = none := fun hp =>
      hpurpose ▸ Option.isNone_iff_eq_none.mp hp
    refine h.move (congrArg Purpose.held hpurpose) rfl ?_ fun hp => hp.elim hnone hnone
    exact (hpurpose ▸ h.merged).append hreplay'
  · rename_i result cache hdone
    rw [hdone] at hturn
    exact h.afterReplay hturn

theorem Reading.startReplay (h : Reading log k s purpose)
    (hcache : CacheFromLog log shared.replayCache) (afterSequence throughSequence : Option ℤ) :
    Ordered log k (s.startReplay shared purpose afterSequence throughSequence).1 :=
  Reading.turn h hcache fromLog_nil 1024

/-! ### Admission -/

theorem Ordered.setInitialLast (h : Ordered log k s) :
    Ordered log k { s with initialLastSequence := some (k : ℤ) } :=
  { h with initialLast := fun _ => rfl }

theorem Ordered.startAdmission (h : Ordered log k s) (hcache : CacheFromLog log shared.replayCache)
    (hcreated : s.created = true) (hadmitting : s.point.admitting = true)
    (hheld : s.point.held = none) (htaken : s.point.taken = none) (latestSequence : Option ℤ) :
    Ordered log k (s.startAdmission shared latestSequence).1 := by
  have hafter : cursorOf s.afterSequence = some (k : ℤ) := by
    rw [h.afterSequence]
    rfl
  unfold Subscription.startAdmission
  rw [hafter]
  have hreading : Reading log k { s with initialLastSequence := some (k : ℤ) } .admission :=
    { ordered := h.setInitialLast
      created := hcreated
      held := hheld.symm
      taken := htaken
      merged := fromLog_nil
      admission := fun _ => ⟨h.admitting hadmitting, rfl⟩ }
  exact hreading.startReplay hcache _ _

theorem Ordered.readLatest (h : Ordered log k s) (hcache : CacheFromLog log shared.replayCache)
    (hcreated : s.created = true) (hadmitting : s.point.admitting = true)
    (hheld : s.point.held = none) (htaken : s.point.taken = none) : Ordered log k (s.readLatest shared).1 := by
  unfold Subscription.readLatest
  split
  · exact h.startAdmission hcache hcreated hadmitting hheld htaken _
  · exact h.move hheld.symm htaken.symm fromLog_nil (.inl hcreated) (fun _ => h.admitting hadmitting)
      fun hp => by cases hp

/-- The subscription once `yielded ++ initial` may be returned and `last` has been seen. -/
def handedOver (s : Subscription) (yielded initial : List Event) (last : ℤ) (p : Point) : Subscription :=
  { s with
    yielded := yielded
    initialEvents := initial
    subscriber := { s.subscriber.clearReplayBuffer with
      lastSequence := last
      state := if initial ≠ [] then .DRAINING else .LIVE }
    point := p }

/-- **Merged events without a gap are handed over.**  What may be returned was the stream up to
the subscriber's last sequence, and is afterwards the stream up to the last of the events. -/
theorem Ordered.handOver (h : Ordered log k s) {events yielded initial : List Event}
    (hcreated : s.created = true)
    (hfront : s.front = streamUpTo log s.eventTypePrefixes k s.subscriber.lastSequence)
    (hqueue : queueEvents s.subscriber.queue = []) (hevents : FromLog log events)
    (hgap : firstSequenceGap events (some s.subscriber.lastSequence) = none)
    (hnew : yielded ++ initial = s.front ++ events.filter (matchesPrefixes s.subscriber.eventTypePrefixes))
    (hp : p = .idle ∨ p = .initialized none) :
    Ordered log k (handedOver s yielded initial
      ((tailSequence events (some s.subscriber.lastSequence)).getD (-1)) p) := by
  have hge := h.last_ge
  obtain ⟨hrun, htail, hlt⟩ := run_of_firstSequenceGap (by omega) hevents hgap
  rw [htail, Option.getD_some]
  have hpoint : p.held = none ∧ p.taken = none ∧ p.events = [] ∧ p.admitting = false ∧
      p.replaying = false := by
    rcases hp with rfl | rfl <;> exact ⟨rfl, rfl, rfl, rfl, rfl⟩
  obtain ⟨hheld, htaken, hlocals, hadmitting, hreplaying⟩ := hpoint
  have hstream : yielded ++ initial =
      streamUpTo log s.eventTypePrefixes k (s.subscriber.lastSequence + events.length) := by
    rw [hnew, hfront, h.prefixes, streamUpTo_extend _ hge hrun]
  have hfront' : ∀ last, (handedOver s yielded initial last p).front = yielded ++ initial := by
    intro last
    simp [handedOver, Subscription.front, hheld]
  have hpipeline' : ∀ last, (handedOver s yielded initial last p).pipeline = yielded ++ initial := by
    intro last
    rw [Subscription.pipeline, hfront']
    simp [handedOver, Subscriber.clearReplayBuffer, htaken, hqueue]
  have hstate : (if initial ≠ [] then SubscriberState.DRAINING else .LIVE) ≠ .REPLAYING := by
    split <;> simp
  exact
    { afterSequence := h.afterSequence
      prefixes := h.prefixes
      buffered := fromLog_nil
      locals := by
        show FromLog log p.events
        rw [hlocals]
        exact fromLog_nil
      last_ge := by
        show (k : ℤ) ≤ s.subscriber.lastSequence + events.length
        omega
      last_lt := by
        by_cases hnil : events = []
        · simpa [handedOver, hnil] using h.last_lt
        · exact .inr (hlt hnil)
      front_isPrefix := by
        rw [hfront', hstream]
        exact streamUpTo_isPrefix
      pipeline_isPrefix := fun _ => by
        rw [hpipeline', hstream]
        exact streamUpTo_isPrefix
      created := fun hc => by cases hcreated.symm.trans hc
      admitting := fun hadm => by cases hadmitting.symm.trans hadm
      replaying := fun hs => absurd hs hstate
      held := fun hh => absurd hheld hh
      initial := fun hi => if_pos hi
      draining := fun _ => by rw [hpipeline', hfront']
      initialLast := fun hr => by cases hreplaying.symm.trans hr
      draining_eq := fun _ _ _ => (hfront' _).trans hstream
      live_eq := fun _ _ _ => (hpipeline' _).trans hstream }

theorem Ordered.activate (h : Ordered log k s) (hcache : CacheFromLog log shared.replayCache)
    {merged : List Event} {attempt : ℕ} (hpoint : s.point = .activate merged attempt) :
    Ordered log k (s.activate shared merged attempt).1 := by
  have hheld : s.point.held = none := by rw [hpoint]; rfl
  have htaken : s.point.taken = none := by rw [hpoint]; rfl
  have hstate : s.subscriber.state = .REPLAYING := h.admitting (by rw [hpoint]; rfl)
  have hinitialLast : s.initialLastSequence = some (k : ℤ) := h.initialLast (by rw [hpoint]; rfl)
  have hcreated : s.created = true := h.created_of (by rw [hpoint]; simp) (by rw [hpoint]; simp)
  have hmerged : FromLog log merged := by
    have := h.locals
    rwa [hpoint] at this
  have hleave : ∀ p : Point, p.held = none → p.taken = none → p.events = [] → p.replaying = false →
      Ordered log k { s with point := p } := fun p hp₁ hp₂ hp₃ hp₄ =>
    h.move (hp₁.trans hheld.symm) (hp₂.trans htaken.symm) (hp₃ ▸ fromLog_nil) (.inl hcreated)
      (fun _ => hstate) fun hp => by cases hp₄.symm.trans hp
  have hafter : cursorOf s.afterSequence = some (k : ℤ) := by
    rw [h.afterSequence]
    rfl
  unfold Subscription.activate
  split
  · exact hleave _ rfl rfl rfl rfl
  · dsimp only
    split
    · exact hleave _ rfl rfl rfl rfl
    · rename_i combined hcombined
      have hevents : FromLog log combined := (hmerged.append h.buffered).merge hcombined
      -- The cursor is given, so the hand-over starts at it.
      rw [hafter, if_neg (by simp)]
      split
      · rename_i hgap
        obtain ⟨hnil, hk⟩ := h.replaying hstate
        obtain ⟨hyielded, -, hinitial, -, hqueue⟩ := pipeline_eq_nil hnil
        have hfront : s.front = [] := by
          simp [Subscription.front, hyielded, hheld, hinitial]
        have hnew : s.yielded ++ (s.initialEvents ++
            combined.filter (matchesPrefixes s.subscriber.eventTypePrefixes)) =
              s.front ++ combined.filter (matchesPrefixes s.subscriber.eventTypePrefixes) := by
          rw [hyielded, hinitial, hfront]
          rfl
        have hlast : (tailSequence combined s.initialLastSequence).getD (-1) =
            (tailSequence combined (some s.subscriber.lastSequence)).getD (-1) := by
          rw [hinitialLast, hk]
        rw [hlast]
        exact h.handOver hcreated (by rw [hfront, hk, streamUpTo_self]) hqueue hevents (hk ▸ hgap) hnew
          (.inr rfl)
      · rename_i gap hgap
        split
        · exact hleave _ rfl rfl rfl rfl
        · have hreading : Reading log k s (.handoff merged attempt) :=
            { ordered := h
              created := hcreated
              held := hheld.symm
              taken := htaken
              merged := hmerged
              admission := fun _ => ⟨hstate, hinitialLast⟩ }
          exact hreading.startReplay hcache _ _

/-! ### Draining and returning -/

theorem Ordered.drain (h : Ordered log k s) (hcache : CacheFromLog log shared.replayCache)
    {held : Event} {merged : List Event} {attempt : ℕ} (hpoint : s.point = .drain held merged attempt) :
    Ordered log k (s.drain shared held merged attempt).1 := by
  have hheld : s.point.held = some held := by rw [hpoint]; rfl
  have htaken : s.point.taken = none := by rw [hpoint]; rfl
  have hcreated : s.created = true := h.created_of (by rw [hpoint]; simp) (by rw [hpoint]; simp)
  obtain ⟨hstate, hinitial⟩ := h.held (by rw [hheld]; simp)
  have hmerged : FromLog log merged := by
    have := h.locals
    rwa [hpoint] at this
  unfold Subscription.drain
  split
  · exact h.yieldHeld hheld
  · rename_i hopen
    have hopen : s.subscriber.closed = false :=
      Bool.not_eq_true _ ▸ fun hc => hopen (.inl hc)
    dsimp only
    split
    · exact h.abandon fun hc => ⟨hc, htaken⟩
    · rename_i combined hcombined
      have hevents : FromLog log combined := (hmerged.append h.buffered).merge hcombined
      split
      · rename_i hgap
        have hfront := h.draining_eq hopen hstate (.inr (by rw [hheld]; simp))
        have hnew : (s.yielded ++ [held]) ++ (s.initialEvents ++
            combined.filter (matchesPrefixes s.subscriber.eventTypePrefixes)) =
              s.front ++ combined.filter (matchesPrefixes s.subscriber.eventTypePrefixes) := by
          rw [Subscription.front, hheld, hinitial]
          simp
        have hover := h.handOver hcreated hfront (h.queue_of_draining hstate).2 hevents hgap hnew (.inl rfl)
        rw [hinitial, List.nil_append] at hover ⊢
        exact hover
      · split
        · exact h.close.yieldHeld hheld
        · have hreading : Reading log k s (.drain held merged attempt) :=
            { ordered := h
              created := hcreated
              held := hheld.symm
              taken := htaken
              merged := hmerged
              admission := fun hn => by cases hn }
          exact hreading.startReplay hcache _ _

theorem Ordered.reading (h : Ordered log k s) {p : Paging} {result : Except Exn (List Event)}
    (hpoint : s.point = .page p result) :
    Reading log k s p.purpose ∧ FromLog log p.replay ∧ ResultFromLog log result := by
  have hlocals := h.locals
  have hmerged : FromLog log (p.purpose.merged ++ p.replay) := by
    cases result with
    | ok read =>
      rw [hpoint] at hlocals
      exact hlocals.mono fun e he => List.mem_append_left _ he
    | error e =>
      rw [hpoint] at hlocals
      exact hlocals
  refine ⟨?_, hmerged.mono fun e he => List.mem_append_right _ he, ?_⟩
  · exact
      { ordered := h
        created := h.created_of (by rw [hpoint]; simp) (by rw [hpoint]; simp)
        held := by rw [hpoint]; rfl
        taken := by rw [hpoint]; rfl
        merged := hmerged.mono fun e he => List.mem_append_left _ he
        admission := fun hn => by
          have hnone : p.purpose.held.isNone = true := by rw [hn]; rfl
          exact ⟨h.admitting (by rw [hpoint]; exact hnone), h.initialLast (by rw [hpoint]; exact hnone)⟩ }
  · intro read hread
    rw [hpoint, hread] at hlocals
    exact hlocals.mono fun e he => List.mem_append_right _ he

theorem Ordered.leave (h : Ordered log k s) (hcreated : s.created = true)
    (hheld : s.point.held = none) (htaken : s.point.taken = none)
    (hp : p = .receive ∨ ∃ raised, p = .initialized raised) :
    Ordered log k { s with point := p } := by
  have hpoint : p.held = none ∧ p.taken = none ∧ p.events = [] ∧ p.admitting = false ∧
      p.replaying = false := by
    rcases hp with rfl | ⟨raised, rfl⟩ <;> exact ⟨rfl, rfl, rfl, rfl, rfl⟩
  obtain ⟨hheld', htaken', hevents, hadmitting, hreplaying⟩ := hpoint
  exact h.move (hheld'.trans hheld.symm) (htaken'.trans htaken.symm) (hevents ▸ fromLog_nil)
    (.inl hcreated) (fun hp => by cases hadmitting.symm.trans hp) fun hp => by cases hreplaying.symm.trans hp

/-- **A segment of the subscription keeps the invariant.** -/
theorem Ordered.resume (h : Ordered log k s) (hcache : CacheFromLog log shared.replayCache)
    {next : Subscription × Shared} (hresume : s.resume shared = some next) : Ordered log k next.1 := by
  unfold Subscription.resume at hresume
  revert hresume
  cases hpoint : s.point with
  | idle | awaitLatest | awaitPage p => nofun
  | initializing =>
    have hheld : s.point.held = none := by rw [hpoint]; rfl
    have htaken : s.point.taken = none := by rw [hpoint]; rfl
    have hadmitting : s.point.admitting = true := by rw [hpoint]; rfl
    intro hresume
    dsimp only at hresume
    split at hresume
    · rename_i hcreated
      cases hresume
      exact h.readLatest hcache hcreated hadmitting hheld htaken
    · cases hresume
      have hcreate : Ordered log k { s with created := true } :=
        { h with created := fun hc => by cases hc }
      exact hcreate.move hheld.symm htaken.symm fromLog_nil (.inl rfl)
        (fun _ => h.admitting hadmitting) fun hp => by cases hp
  | register =>
    have hregister := h.register true
    have hcreated : s.created = true := h.created_of (by rw [hpoint]; simp) (by rw [hpoint]; simp)
    rintro ⟨⟩
    exact hregister.readLatest hcache hcreated (by rw [hpoint]; rfl) (by rw [hpoint]; rfl)
      (by rw [hpoint]; rfl)
  | latest result =>
    have hcreated : s.created = true := h.created_of (by rw [hpoint]; simp) (by rw [hpoint]; simp)
    have hheld : s.point.held = none := by rw [hpoint]; rfl
    have htaken : s.point.taken = none := by rw [hpoint]; rfl
    have hadmitting : s.point.admitting = true := by rw [hpoint]; rfl
    cases result with
    | ok sequence =>
      rintro ⟨⟩
      exact h.startAdmission hcache hcreated hadmitting hheld htaken sequence
    | error e =>
      rintro ⟨⟩
      exact h.move hheld.symm htaken.symm fromLog_nil (.inl hcreated)
        (fun _ => h.admitting hadmitting) fun hp => by cases hp
  | page p result =>
    obtain ⟨hreading, hreplay, hresult⟩ := h.reading hpoint
    cases result with
    | ok events =>
      have haccept := Paging.accept_fromLog ⟨rfl, hreplay⟩ (hresult events rfl)
      intro hresume
      dsimp only at hresume
      split at hresume
      · rename_i result hdone
        rw [hdone] at haccept
        cases hresume
        exact hreading.afterReplay haccept
      · rename_i p' hagain
        rw [hagain] at haccept
        obtain ⟨hpurpose, hreplay'⟩ := haccept
        cases hresume
        exact (hpurpose ▸ hreading).turn hcache hreplay' _
    | error e =>
      rintro ⟨⟩
      exact hreading.afterReplay (resultFromLog_error e)
  | activate merged attempt =>
    rintro ⟨⟩
    exact h.activate hcache hpoint
  | closeAfterGap held =>
    have hcreated : s.created = true := h.created_of (by rw [hpoint]; simp) (by rw [hpoint]; simp)
    have hheld : s.point.held = held := by rw [hpoint]; rfl
    have htaken : s.point.taken = none := by rw [hpoint]; rfl
    cases held with
    | none =>
      rintro ⟨⟩
      exact h.close.leave hcreated hheld htaken (.inr ⟨none, rfl⟩)
    | some held =>
      rintro ⟨⟩
      exact h.close.yieldHeld hheld
  | failed e =>
    have hcreated : s.created = true := h.created_of (by rw [hpoint]; simp) (by rw [hpoint]; simp)
    rintro ⟨⟩
    exact h.close.leave hcreated (by rw [hpoint]; rfl) (by rw [hpoint]; rfl) (.inr ⟨some e, rfl⟩)
  | initialized raised =>
    have hheld : s.point.held = none := by rw [hpoint]; rfl
    have htaken : s.point.taken = none := by rw [hpoint]; rfl
    cases raised with
    | none =>
      rintro ⟨⟩
      exact h.advance hheld htaken
    | some e =>
      rintro ⟨⟩
      exact h.abandon fun hc => ⟨hc, htaken⟩
  | drain held merged attempt =>
    rintro ⟨⟩
    exact h.drain hcache hpoint
  | receive =>
    have htaken : s.point.taken = none := by rw [hpoint]; rfl
    intro hresume
    dsimp only at hresume
    split at hresume
    · cases hresume
      exact h.abandon fun hc => ⟨hc, htaken⟩
    · split at hresume
      · cases hresume
      · rename_i item queue hqueue
        cases hresume
        exact h.take hpoint hqueue
  | received item =>
    cases item with
    | closed =>
      rintro ⟨⟩
      exact h.abandon fun hc => by cases hc
    | event e =>
      intro hresume
      dsimp only at hresume
      split at hresume
      · rename_i hclosing
        cases hresume
        exact h.abandon fun hc => by cases hclosing.symm.trans hc
      · rename_i hclosing
        cases hresume
        exact h.yieldTaken (by rw [hpoint]; rfl) (Bool.not_eq_true _ ▸ hclosing)

variable {s' : Subscription}

theorem Ordered.next (h : Ordered log k s) (hnext : s.next = some s') :
    Ordered log k s' := by
  unfold Subscription.next at hnext
  split at hnext
  · rename_i hpoint
    have hheld : s.point.held = none := by rw [hpoint]; rfl
    have htaken : s.point.taken = none := by rw [hpoint]; rfl
    split_ifs at hnext with hclosed hcreated
    · cases hnext
      exact h
    · cases hnext
      exact h.advance hheld htaken
    · cases hnext
      have hreplaying : s.subscriber.state = .REPLAYING := by
        by_contra hstate
        have hnot : s.created = false := Bool.not_eq_true _ ▸ fun hc => hcreated ⟨hc, hstate⟩
        exact hstate (h.created hnot).1
      exact h.move hheld.symm htaken.symm fromLog_nil (.inr rfl) (fun _ => hreplaying)
        fun hp => by cases hp
  · cases hnext

theorem Ordered.heartbeat (h : Ordered log k s) (hbeat : s.heartbeat = some s') :
    Ordered log k s' := by
  unfold Subscription.heartbeat at hbeat
  split at hbeat
  · rename_i hpoint
    cases hbeat
    exact h.abandon fun hc => ⟨hc, by rw [hpoint]; rfl⟩
  · cases hbeat

theorem Ordered.interrupt (h : Ordered log k s) (hcancel : s.interrupt = some s') :
    Ordered log k s' := by
  unfold Subscription.interrupt at hcancel
  split at hcancel
  · cases hcancel
  · cases hcancel
    exact h.abandon fun hc => by cases hc

theorem Ordered.dropInitial (h : Ordered log k s) (hpoint : s.point = .idle)
    (hclosing : s.closing = true) :
    Ordered log k { s with initialEvents := [], cleanupComplete := true } := by
  have hfront : Subscription.front { s with initialEvents := [], cleanupComplete := true } = s.yielded := by
    simp [Subscription.front, Point.held, hpoint]
  have hpipeline : Subscription.pipeline { s with initialEvents := [], cleanupComplete := true } =
      s.yielded ++ queueEvents s.subscriber.queue := by
    rw [Subscription.pipeline, hfront]
    simp [Point.taken, hpoint]
  have hyielded : s.yielded <+: s.front := by
    rw [Subscription.front, List.append_assoc]
    exact List.prefix_append _ _
  exact
    { h with
      front_isPrefix := by
        rw [hfront]
        exact hyielded.trans h.front_isPrefix
      pipeline_isPrefix := fun hc => by cases hclosing.symm.trans hc
      replaying := fun hs => by
        obtain ⟨hy, -, -, -, hq⟩ := pipeline_eq_nil (h.replaying hs).1
        rw [hpipeline, hy, hq]
        exact ⟨rfl, (h.replaying hs).2⟩
      held := fun hh => ⟨(h.held hh).1, rfl⟩
      initial := fun hi => absurd rfl hi
      draining := fun hs => by
        rw [hpipeline, hfront, (h.queue_of_draining hs).2, List.append_nil]
      draining_eq := fun _ _ hi => by
        rcases hi with hi | hi
        · exact absurd rfl hi
        · exact absurd (show s.point.held = none by rw [hpoint]; rfl) hi
      live_eq := fun hc => by cases hclosing.symm.trans hc }

theorem Ordered.finishClose (h : Ordered log k s) (hclose : s.finishClose = some s') :
    Ordered log k s' := by
  unfold Subscription.finishClose at hclose
  split at hclose
  · rename_i hpoint
    split at hclose
    · rename_i hclosing
      have hsubscriber :
          Ordered log k { s with subscriber := if s.created then s.subscriber.close else s.subscriber } := by
        split
        · exact h.close
        · exact h
      cases hclose
      exact hsubscriber.dropInitial hpoint hclosing.1
    · cases hclose
  · cases hclose

end segments

end CyberControl.SseBroker
