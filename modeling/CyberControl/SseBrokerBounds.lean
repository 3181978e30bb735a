import CyberControl.SseBrokerStream

/-! # What the broker holds of a subscriber

However slow its reader is, a subscriber has no more queued and no more buffered than the broker is given. -/

namespace CyberControl.SseBroker

open Transition

/-- A subscriber within the bounds. -/
structure Subscriber.Within (bounds : Bounds) (x : Subscriber) : Prop where
  queue : x.queue.length ≤ bounds.subscriberQueueSize
  events : x.replayBuffer.length ≤ bounds.replayBufferMaxEvents
  bytes : x.replayBufferBytes = (x.replayBuffer.map Event.sizeBytes).sum
  bytes_le : x.replayBufferBytes ≤ bounds.replayBufferMaxBytes

def System.Within (bounds : Bounds) (s : System) : Prop := ∀ sub ∈ s.subscriptions, sub.subscriber.Within bounds

variable {bounds : Bounds} {x : Subscriber} {sub sub' : Subscription} {shared shared' : Shared} {s s' : System}

namespace Subscriber.Within

theorem close (h : x.Within bounds) : x.close.Within bounds := by
  unfold Subscriber.close
  split_ifs
  · exact ⟨h.queue, h.events, h.bytes, h.bytes_le⟩
  · exact ⟨bounds.subscriberQueueSize_pos, Nat.zero_le _, rfl, Nat.zero_le _⟩

theorem bufferReplayEvent (h : x.Within bounds) (e : Event) : (x.bufferReplayEvent bounds e).Within bounds := by
  have hbytes := h.bytes
  unfold Subscriber.bufferReplayEvent
  split
  · exact h
  split
  · split
    · exact h.close
    · exact h
  · split
    · exact h.close
    · exact ⟨h.queue, by simp; omega, by simp; omega, by dsimp only; omega⟩

theorem receiveAll (h : x.Within bounds) (events : List Event) : (x.receiveAll bounds events).Within bounds := by
  induction events generalizing x with
  | nil => exact h
  | cons e events ih =>
    unfold Subscriber.receiveAll
    split_ifs with _ _ _ hfull
    · exact ih h
    · exact h.close
    · exact h.close
    · exact ih ⟨by simp; omega, h.events, h.bytes, h.bytes_le⟩
    · exact ih ⟨h.queue, h.events, h.bytes, h.bytes_le⟩

theorem fanOut (h : x.Within bounds) (events : List Event) : (x.fanOut bounds events).Within bounds := by
  unfold Subscriber.fanOut
  split_ifs
  · exact ⟨h.queue, h.events, h.bytes, h.bytes_le⟩
  · exact h.receiveAll events
  · exact List.foldlRecOn events _ h fun x hx e _ => hx.bufferReplayEvent e

end Subscriber.Within

/-! ### Subscriptions -/

theorem afterReplay_subscriber (purpose : Purpose) (result : Except Exn (List Event)) :
    (sub.afterReplay purpose result).subscriber = sub.subscriber := by
  unfold Subscription.afterReplay
  repeat' split
  all_goals rfl

theorem turn_subscriber (pages : ℕ) (p : Paging) : (sub.turn shared pages p).1.subscriber = sub.subscriber := by
  unfold Subscription.turn
  split
  · rfl
  · exact afterReplay_subscriber _ _

theorem readLatest_subscriber : (sub.readLatest shared).1.subscriber = sub.subscriber := by
  unfold Subscription.readLatest
  split
  · exact turn_subscriber _ _
  · rfl

theorem advance_subscriber : sub.advance.subscriber = sub.subscriber := by
  unfold Subscription.advance
  repeat' split
  all_goals rfl

theorem activate_within (h : sub.subscriber.Within bounds) (merged : List Event) (attempt : ℕ) :
    (sub.activate shared merged attempt).1.subscriber.Within bounds := by
  unfold Subscription.activate
  dsimp only
  repeat' split
  all_goals
    first
    | exact h
    | exact ⟨h.queue, Nat.zero_le _, rfl, Nat.zero_le _⟩
    | exact (turn_subscriber _ _).symm ▸ h

theorem drain_within (h : sub.subscriber.Within bounds) (held : Event) (merged : List Event) (attempt : ℕ) :
    (sub.drain shared held merged attempt).1.subscriber.Within bounds := by
  unfold Subscription.drain
  dsimp only
  repeat' split
  all_goals
    first
    | exact h
    | exact h.close
    | exact ⟨h.queue, Nat.zero_le _, rfl, Nat.zero_le _⟩
    | exact (turn_subscriber _ _).symm ▸ h

theorem resume_within (h : sub.subscriber.Within bounds) :
    ∀ next ∈ sub.resume shared, next.1.subscriber.Within bounds := by
  unfold Subscription.resume
  repeat' split
  all_goals rintro next ⟨⟩
  all_goals
    first
    | exact h
    | exact h.close
    | exact activate_within h _ _
    | exact drain_within h _ _ _
    | exact (afterReplay_subscriber _ _).symm ▸ h
    | exact (turn_subscriber _ _).symm ▸ h
    | exact advance_subscriber.symm ▸ h
    | exact readLatest_subscriber.symm ▸ h
    | exact readLatest_subscriber.symm ▸ ⟨h.queue, h.events, h.bytes, h.bytes_le⟩
    | exact ⟨Nat.le_of_succ_le (by simpa [*] using h.queue), h.events, h.bytes, h.bytes_le⟩

theorem call_within (h : sub.subscriber.Within bounds) (hcall : sub.next = some sub' ∨ sub.heartbeat = some sub' ∨
    sub.interrupt = some sub' ∨ sub.finishClose = some sub') : sub'.subscriber.Within bounds := by
  unfold Subscription.next Subscription.heartbeat Subscription.interrupt Subscription.finishClose at hcall
  rcases hcall with hcall | hcall | hcall | hcall
  all_goals
    repeat' split at hcall
    all_goals cases hcall
    all_goals
      first
      | exact h
      | exact advance_subscriber.symm ▸ h
      | exact h.close

/-! ### The broker -/

namespace System.Within

theorem mapSubscribers (h : s.Within bounds) {f : Subscriber → Subscriber}
    (hf : ∀ x : Subscriber, x.Within bounds → (f x).Within bounds) : (s.mapSubscribers f).Within bounds :=
  List.forall_mem_map.mpr fun sub hsub => hf _ (h sub hsub)

theorem set (h : s.Within bounds) {i : ℕ} (hsub : sub.subscriber.Within bounds) :
    ∀ sub' ∈ s.subscriptions.set i sub, sub'.subscriber.Within bounds := by
  intro sub' hsub'
  rcases List.mem_or_eq_of_mem_set hsub' with hold | rfl
  · exact h sub' hold
  · exact hsub

theorem dropWhenEmpty (h : s.Within bounds) : s.dropWhenEmpty.Within bounds := by
  unfold System.dropWhenEmpty
  split
  · exact h
  · refine List.forall_mem_map.mpr fun sub hsub => ?_
    split
    all_goals exact h sub hsub

theorem deliverLocked (h : s.Within bounds) (j : ℕ) (e : Event) : (s.deliverLocked bounds j e).Within bounds := by
  unfold System.deliverLocked
  split
  · exact h
  have hbuffered : (s.mapSubscribers fun x =>
      if x.active ∧ x.state ≠ .LIVE then x.bufferReplayEvent bounds e else x).Within bounds := by
    refine h.mapSubscribers fun x hx => ?_
    split
    · exact hx.bufferReplayEvent e
    · exact hx
  dsimp only
  repeat' split
  · exact hbuffered
  · refine mapSubscribers hbuffered (f := fun x => if x.live then x.fanOut bounds [e] else x) fun x hx => ?_
    split
    · exact hx.fanOut [e]
    · exact hx
  · exact hbuffered

theorem resumeTask (h : s.Within bounds) {j : ℕ} {answer : Answer} :
    ∀ next ∈ s.resumeTask bounds j answer, next.Within bounds := by
  have hclosed : (s.mapSubscribers fun x => if x.active then x.close else x).Within bounds := by
    refine h.mapSubscribers fun x hx => ?_
    split
    · exact hx.close
    · exact hx
  have hfanned (events : List Event) : (s.mapSubscribers fun x =>
      if x.registered then x.fanOut bounds events else x).Within bounds := by
    refine h.mapSubscribers fun x hx => ?_
    split
    · exact hx.fanOut events
    · exact hx
  unfold System.resumeTask
  dsimp only
  repeat' split
  all_goals rintro next ⟨⟩
  all_goals
    first
    | exact h
    | exact h.deliverLocked _ _
    | exact hclosed
    | exact hfanned _

theorem onSubscription (h : s.Within bounds) {i : ℕ} {f : Subscription → Option Subscription}
    (hf : ∀ sub ∈ s.subscriptions, ∀ sub' ∈ f sub, sub'.subscriber.Within bounds)
    (hs : s.onSubscription i f = some s') : s'.Within bounds := by
  obtain ⟨sub, hsub, hs⟩ := Option.bind_eq_some_iff.mp hs
  obtain ⟨sub', hsub', hs⟩ := Option.bind_eq_some_iff.mp hs
  cases hs
  exact h.set (hf sub (List.mem_of_getElem? hsub) sub' hsub')

/-- **Step lemma.** -/
theorem step (h : s.Within bounds) {a : Action} (hs : System.step bounds s a = some s') : s'.Within bounds := by
  cases a with
  | append | evictReplay | evictLatest =>
    cases hs
    exact h
  | recordDurable =>
    obtain ⟨e, -, hs⟩ := Option.bind_eq_some_iff.mp hs
    cases hs
    exact h
  | subscribe =>
    cases hs
    refine List.forall_mem_append.mpr ⟨h, List.forall_mem_singleton.mpr ?_⟩
    exact ⟨Nat.zero_le _, Nat.zero_le _, rfl, Nat.zero_le _⟩
  | next => exact h.onSubscription (fun sub hsub _ hf => call_within (h sub hsub) (.inl hf)) hs
  | heartbeat => exact h.onSubscription (fun sub hsub _ hf => call_within (h sub hsub) (.inr (.inl hf))) hs
  | interrupt =>
    exact h.onSubscription (fun sub hsub _ hf => call_within (h sub hsub) (.inr (.inr (.inl hf)))) hs
  | aclose =>
    refine h.onSubscription (fun sub hsub sub' hf => ?_) hs
    cases hf
    exact h sub hsub
  | resume i =>
    obtain ⟨sub, hsub, hs⟩ := Option.bind_eq_some_iff.mp hs
    obtain ⟨⟨sub', shared⟩, hresume, hs⟩ := Option.bind_eq_some_iff.mp hs
    have hset : System.Within bounds { s with subscriptions := s.subscriptions.set i sub', shared } :=
      h.set (resume_within (h sub (List.mem_of_getElem? hsub)) _ hresume)
    dsimp only at hs
    split at hs
    all_goals cases hs
    · exact hset.dropWhenEmpty
    · exact hset
  | finishClose i =>
    obtain ⟨sub, hsub, hs⟩ := Option.bind_eq_some_iff.mp hs
    obtain ⟨sub', hclose, hs⟩ := Option.bind_eq_some_iff.mp hs
    have hset : System.Within bounds { s with subscriptions := s.subscriptions.set i sub' } :=
      h.set (call_within (h sub (List.mem_of_getElem? hsub)) (.inr (.inr (.inr hclose))))
    cases hs
    split
    · exact hset.dropWhenEmpty
    · exact hset
  | latestEnds | queryEnds =>
    simp only [System.step] at hs
    split at hs
    all_goals cases hs
    refine List.forall_mem_map.mpr fun sub hsub => ?_
    repeat' split
    all_goals exact h sub hsub
  | deliver | synchronize =>
    simp only [System.step] at hs
    split at hs
    all_goals cases hs
    exact h
  | resumeTask => exact h.resumeTask _ hs

end System.Within

/-- **The broker holds no more than its bounds allow**: in every run, whatever the subscribers, the calls and the
replay log do in between. -/
theorem within_of_run {acts : List Action} (hrun : run (System.step bounds) {} acts = some s) : s.Within bounds :=
  run_invariant (fun _ _ _ h hs => System.Within.step h hs) (fun _ h => by cases h) hrun

theorem within_of_run_handovers : ∃ s, run (System.step smallBounds) {} handovers = some s ∧
    s.Within smallBounds := by
  obtain ⟨s, hs⟩ : ∃ s, run (System.step smallBounds) {} handovers = some s := ⟨_, rfl⟩
  exact ⟨s, hs, within_of_run hs⟩

end CyberControl.SseBroker
