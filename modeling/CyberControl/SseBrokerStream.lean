import CyberControl.SseBrokerSystem
import CyberControl.SseSubscriptionSegments

/-! # The stream of every subscription has no gap, no repetition and no reordering -/

namespace CyberControl.SseBroker

open Transition

/-- The events that a call of `deliver` or `synchronize` holds. -/
def BrokerTask.events : BrokerTask → List Event
  | .deliver e => [e]
  | .fanOut _ _ events => events
  | _ => []

/-- The invariant of the broker. -/
structure InOrder (s : System) : Prop where
  sequenced : Sequenced s.log
  cache : CacheFromLog s.log s.shared.replayCache
  tasks : ∀ j task, s.tasks j = some task → FromLog s.log task.events
  ordered : ∀ sub ∈ s.subscriptions, ∀ k, sub.afterSequence = some k → Ordered s.log k sub

section changes
variable {s : System} {bounds : Bounds}

theorem inOrder_empty : InOrder {} where
  sequenced _ _ h := by simp at h
  cache _ h := by simp at h
  tasks _ _ h := by cases h
  ordered _ h := by cases h

/-! ### One kind of change at a time -/

/-- A change of one subscription that keeps its cursor and its place in the stream. -/
def KeepsOrder (log : List Event) (sub sub' : Subscription) : Prop :=
  sub'.afterSequence = sub.afterSequence ∧ ∀ k, Ordered log k sub → Ordered log k sub'

variable {log : List Event}

theorem KeepsOrder.ordered {sub sub' : Subscription} (h : KeepsOrder log sub sub')
    (hsub : ∀ k, sub.afterSequence = some k → Ordered log k sub) (k : ℕ)
    (hk : sub'.afterSequence = some k) : Ordered log k sub' :=
  h.2 k (hsub k (h.1.symm.trans hk))

theorem InOrder.append (h : InOrder s) {e : Event} (he : e.sequence = s.log.length) :
    InOrder { s with log := s.log ++ [e] } where
  sequenced i x hx := by
    rcases Nat.lt_trichotomy i s.log.length with hlt | heq | hgt
    · rw [List.getElem?_append_left hlt] at hx
      exact h.sequenced i x hx
    · subst heq
      simp only [List.getElem?_concat_length, Option.some.injEq] at hx
      exact hx ▸ he
    · rw [List.getElem?_eq_none (by simp; omega)] at hx
      cases hx
  cache := h.cache.append_log [e]
  tasks j task ht := (h.tasks j task ht).append_log [e]
  ordered sub hsub k hk := (h.ordered sub hsub k hk).append_log [e]

theorem InOrder.setShared (h : InOrder s) {shared : Shared}
    (hcache : CacheFromLog s.log shared.replayCache) : InOrder { s with shared := shared } :=
  { h with cache := hcache }

theorem InOrder.setSubscriptions (h : InOrder s) {subscriptions : List Subscription}
    (hsubs : ∀ sub' ∈ subscriptions, ∃ sub ∈ s.subscriptions, KeepsOrder s.log sub sub') :
    InOrder { s with subscriptions := subscriptions } :=
  { h with
    ordered := fun sub' hsub' => by
      obtain ⟨sub, hsub, hkeeps⟩ := hsubs sub' hsub'
      exact hkeeps.ordered (h.ordered sub hsub) }

theorem InOrder.mapSubscriptions (h : InOrder s) {f : Subscription → Subscription}
    (hf : ∀ sub, KeepsOrder s.log sub (f sub)) :
    InOrder { s with subscriptions := s.subscriptions.map f } :=
  h.setSubscriptions fun sub' hsub' => by
    obtain ⟨sub, hsub, rfl⟩ := List.mem_map.mp hsub'
    exact ⟨sub, hsub, hf sub⟩

variable {i : ℕ}

theorem InOrder.setSubscription (h : InOrder s) {sub sub' : Subscription}
    (hsub : s.subscriptions[i]? = some sub) (hkeeps : KeepsOrder s.log sub sub') :
    InOrder { s with subscriptions := s.subscriptions.set i sub' } :=
  h.setSubscriptions fun x hx => by
    rcases List.mem_or_eq_of_mem_set hx with hx | rfl
    · exact ⟨x, hx, rfl, fun _ => id⟩
    · exact ⟨sub, List.mem_of_getElem? hsub, hkeeps⟩

theorem InOrder.mapSubscribers (h : InOrder s) {f : Subscriber → Subscriber}
    (hf : ∀ (k : ℕ) (sub : Subscription), Ordered s.log k sub →
      Ordered s.log k { sub with subscriber := f sub.subscriber }) :
    InOrder (s.mapSubscribers f) :=
  h.mapSubscriptions fun sub => ⟨rfl, fun k => hf k sub⟩

theorem InOrder.setTask (h : InOrder s) (j : ℕ) {task : Option BrokerTask}
    (htask : ∀ t, task = some t → FromLog s.log t.events) : InOrder (s.setTask j task) :=
  { h with
    tasks := fun i t ht => by
      by_cases hij : i = j
      · subst hij
        exact htask t (by simpa [System.setTask] using ht)
      · exact h.tasks i t (by simpa [System.setTask, hij] using ht) }

theorem InOrder.dropTask (h : InOrder s) (j : ℕ) : InOrder (s.setTask j none) :=
  h.setTask j fun _ ht => by cases ht

theorem InOrder.setLock (h : InOrder s) (b : Bool) : InOrder { s with synchronizeLocked := b } :=
  { h with }

theorem InOrder.endSynchronize (h : InOrder s) (j : ℕ) : InOrder (s.endSynchronize j) :=
  (h.dropTask j).setLock false

theorem InOrder.recordDurableEvent (h : InOrder s) (e : Event) :
    InOrder { s with shared := s.shared.recordDurableEvent e } :=
  h.setShared fun entry he => by cases he

theorem InOrder.answer (h : InOrder s) (afterSequence : Option ℤ) (answer : Answer) :
    ResultFromLog s.log (answer.events s.log afterSequence) := by
  intro events hevents
  cases answer with
  | raises e => cases hevents
  | run first count =>
    refine h.sequenced.fromLog fun e he => ?_
    cases afterSequence with
    | some cursor =>
      cases hevents
      exact List.mem_of_mem_drop (List.mem_of_mem_take he)
    | none =>
      cases hevents
      exact List.mem_of_mem_drop (List.mem_of_mem_take he)

/-! ### Calls of `deliver` and `synchronize` -/

theorem InOrder.deliverLocked (h : InOrder s) (j : ℕ) {e : Event} (he : FromLog s.log [e]) :
    InOrder (s.deliverLocked bounds j e) := by
  unfold System.deliverLocked
  split
  · exact h.dropTask j
  · dsimp only
    have hbuffer : InOrder (s.mapSubscribers fun x =>
        if x.active ∧ x.state ≠ .LIVE then x.bufferReplayEvent bounds e else x) := by
      refine h.mapSubscribers fun k sub ho => ?_
      split
      · exact ho.bufferReplayEvent (he e (List.mem_singleton_self e)) bounds
      · exact ho
    split
    · exact hbuffer.dropTask j
    · split
      · refine InOrder.dropTask (hbuffer.mapSubscribers fun k sub ho => ?_) j
        split
        · exact ho.fanOut he bounds
        · exact ho
      · exact hbuffer.setTask j fun t ht => by
          cases ht
          exact fromLog_nil

variable {s' : System}

/-- **A step of `deliver` or `synchronize` keeps the invariant.** -/
theorem InOrder.resumeTask (h : InOrder s) {j : ℕ} {answer : Answer}
    (hresume : s.resumeTask bounds j answer = some s') : InOrder s' := by
  unfold System.resumeTask at hresume
  cases htask : s.tasks j with
  | none => simp [htask] at hresume
  | some task =>
    have hevents := h.tasks j task htask
    have hset : ∀ t : BrokerTask, t.events = [] → InOrder (s.setTask j (some t)) := fun t ht =>
      h.setTask j fun t' ht' => by
        cases ht'
        rw [ht]
        exact fromLog_nil
    cases task with
    | deliver e =>
      simp only [htask] at hresume
      cases hresume
      exact h.deliverLocked j hevents
    | synchronize through =>
      simp only [htask] at hresume
      split at hresume
      · cases hresume
      · cases hresume
        exact (hset _ rfl).setLock true
    | page through pages =>
      cases pages with
      | zero =>
        simp only [htask] at hresume
        cases hresume
        exact h.endSynchronize j
      | succ pages =>
        simp only [htask] at hresume
        split at hresume
        · cases hresume
          exact h.endSynchronize j
        · split at hresume
          · cases hresume
            exact h.endSynchronize j
          · cases hresume
            exact hset _ rfl
    | replay through pages cursor =>
      have hanswer := h.answer (some cursor) answer
      simp only [htask] at hresume
      split at hresume
      · split at hresume
        · cases hresume
          exact hset _ rfl
        · cases hresume
          exact h.endSynchronize j
      · rename_i events hread
        split at hresume
        · cases hresume
          exact h.endSynchronize j
        · rename_i last hlast
          split at hresume
          · cases hresume
            exact h.endSynchronize j
          · cases hresume
            refine InOrder.setTask (h.recordDurableEvent last) j fun t ht => ?_
            cases ht
            exact hanswer events hread
    | retentionDrop =>
      simp only [htask] at hresume
      cases hresume
      refine InOrder.endSynchronize (h.mapSubscribers fun k sub ho => ?_) j
      split
      · exact ho.close
      · exact ho
    | fanOut through pages events =>
      have hsorted : FromLog s.log (bySequence events) := hevents.mono fun e he => mem_bySequence he
      have hfan : InOrder (s.mapSubscribers fun x =>
          if x.registered then x.fanOut bounds (bySequence events) else x) := by
        refine h.mapSubscribers fun k sub ho => ?_
        split
        · exact ho.fanOut hsorted bounds
        · exact ho
      simp only [htask] at hresume
      split at hresume
      · cases hresume
        exact hfan.endSynchronize j
      · cases hresume
        exact hfan.setTask j fun t ht => by
          cases ht
          exact fromLog_nil

/-! ### Queries and the end of a subscription -/

theorem InOrder.dropWhenEmpty (h : InOrder s) : InOrder s.dropWhenEmpty := by
  unfold System.dropWhenEmpty
  split
  · exact h
  · refine InOrder.setShared (s := { s with subscriptions := _ }) (h.mapSubscriptions fun sub => ?_)
      fun entry he => by cases he
    split
    · exact ⟨rfl, fun k ho => ho.abandon fun hc => by cases hc⟩
    · exact ⟨rfl, fun k ho => ho.abandon fun hc => by cases hc⟩
    · exact ⟨rfl, fun k => id⟩

theorem keepsOrder_latest (sub : Subscription) (result : Except Exn (Option ℤ)) :
    KeepsOrder log sub
      (match sub.point with
      | .awaitLatest => { sub with point := .latest result }
      | _ => sub) := by
  split
  · rename_i hpoint
    refine ⟨rfl, fun k ho => ?_⟩
    have hcreated : sub.created = true := ho.created_of (by rw [hpoint]; simp) (by rw [hpoint]; simp)
    exact ho.move (by rw [hpoint]; rfl) (by rw [hpoint]; rfl) fromLog_nil (.inl hcreated)
      (fun _ => ho.admitting (by rw [hpoint]; rfl)) fun hp => by cases hp
  · exact ⟨rfl, fun _ => id⟩

theorem keepsOrder_page (sub : Subscription) (key : QueryKey)
    {result : Except Exn (List Event)} (hresult : ResultFromLog log result) :
    KeepsOrder log sub
      (match sub.point with
      | .awaitPage p => if p.key = key then { sub with point := .page p result } else sub
      | _ => sub) := by
  split
  · rename_i p hpoint
    split
    · refine ⟨rfl, fun k ho => ?_⟩
      have hcreated : sub.created = true := ho.created_of (by rw [hpoint]; simp) (by rw [hpoint]; simp)
      have hlocals : FromLog log (p.purpose.merged ++ p.replay) := by
        have := ho.locals
        rwa [hpoint] at this
      have hevents : FromLog log (Point.page p result).events := by
        cases result with
        | ok read => exact hlocals.append (hresult read rfl)
        | error e => exact hlocals
      exact ho.move (by rw [hpoint]; rfl) (by rw [hpoint]; rfl) hevents (.inl hcreated)
        (fun hp => ho.admitting (by rw [hpoint]; exact hp))
        fun hp => ho.initialLast (by rw [hpoint]; exact hp)
    · exact ⟨rfl, fun _ => id⟩
  · exact ⟨rfl, fun _ => id⟩

/-! ### Every action -/

theorem InOrder.onSubscription (h : InOrder s)
    {f : Subscription → Option Subscription}
    (hf : ∀ sub sub', f sub = some sub' → KeepsOrder s.log sub sub')
    (hs : s.onSubscription i f = some s') : InOrder s' := by
  simp only [System.onSubscription, Option.bind_eq_bind, Option.bind_eq_some_iff, Option.pure_def,
    Option.some.injEq] at hs
  obtain ⟨sub, hsub, sub', hsub', rfl⟩ := hs
  exact h.setSubscription hsub (hf sub sub' hsub')

theorem InOrder.resume (h : InOrder s)
    (hs : System.step bounds s (.resume i) = some s') : InOrder s' := by
  simp only [System.step, Option.bind_eq_bind, Option.bind_eq_some_iff] at hs
  obtain ⟨sub, hsub, ⟨sub', shared⟩, hresume, hs⟩ := hs
  obtain ⟨hafter, hcache⟩ := resume_keeps hresume
  have hkeeps : KeepsOrder s.log sub sub' := ⟨hafter, fun k ho => ho.resume h.cache hresume⟩
  have hset : InOrder { s with subscriptions := s.subscriptions.set i sub', shared := shared } :=
    (h.setSubscription hsub hkeeps).setShared (h.cache.mono hcache)
  split at hs
  · cases hs
    exact hset.dropWhenEmpty
  · cases hs
    exact hset

/-- **Every action keeps the invariant.** -/
theorem InOrder.step (h : InOrder s) {a : Action}
    (hs : System.step bounds s a = some s') : InOrder s' := by
  cases a with
  | append eventType dataJson emittedAt =>
    cases hs
    exact h.append rfl
  | recordDurable n =>
    simp only [System.step, Option.bind_eq_bind, Option.bind_eq_some_iff, Option.pure_def,
      Option.some.injEq] at hs
    obtain ⟨e, -, rfl⟩ := hs
    exact h.recordDurableEvent e
  | subscribe afterSequence eventTypePrefixes =>
    cases hs
    refine { h with ordered := fun sub hsub k hk => ?_ }
    rcases List.mem_append.mp hsub with hsub | hsub
    · exact h.ordered sub hsub k hk
    · rw [List.mem_singleton.mp hsub] at hk ⊢
      rw [show afterSequence = some k from hk]
      exact ordered_open eventTypePrefixes
  | next i =>
    exact h.onSubscription (fun _ _ hf => ⟨next_afterSequence hf, fun _ ho => ho.next hf⟩) hs
  | resume i => exact h.resume hs
  | heartbeat i =>
    exact h.onSubscription (fun _ _ hf => ⟨heartbeat_afterSequence hf, fun _ ho => ho.heartbeat hf⟩) hs
  | interrupt i =>
    exact h.onSubscription (fun _ _ hf => ⟨interrupt_afterSequence hf, fun _ ho => ho.interrupt hf⟩) hs
  | aclose i =>
    refine h.onSubscription (fun sub sub' hf => ?_) hs
    cases hf
    exact ⟨rfl, fun k ho => ho.startClosing⟩
  | finishClose i =>
    simp only [System.step, Option.bind_eq_bind, Option.bind_eq_some_iff, Option.pure_def,
      Option.some.injEq] at hs
    obtain ⟨sub, hsub, sub', hclose, rfl⟩ := hs
    have hset := h.setSubscription hsub
      ⟨finishClose_afterSequence hclose, fun k ho => ho.finishClose hclose⟩
    split
    · exact hset.dropWhenEmpty
    · exact hset
  | latestEnds count raised =>
    simp only [System.step] at hs
    split at hs
    · cases hs
      exact (h.mapSubscriptions fun sub => keepsOrder_latest sub _).setShared h.cache
    · cases hs
  | queryEnds key answer =>
    have hanswer := h.answer key.1 answer
    simp only [System.step] at hs
    split at hs
    · cases hs
      refine (h.mapSubscriptions fun sub => keepsOrder_page sub key hanswer).setShared ?_
      intro entry he
      dsimp only at he
      split at he
      · rename_i events hread
        rcases mem_storeReplayCache he with he | rfl
        · exact h.cache entry he
        · exact hanswer events hread
      · exact h.cache entry he
    · cases hs
  | deliver j n =>
    simp only [System.step] at hs
    split at hs
    · rename_i e hnone he
      cases hs
      refine (h.setTask j fun t ht => ?_).recordDurableEvent e
      cases ht
      intro x hx
      rw [List.mem_singleton.mp hx, h.sequenced n e he]
      exact he
    · cases hs
  | synchronize j throughSequence =>
    simp only [System.step] at hs
    split at hs
    · cases hs
      exact h.setTask j fun t ht => by
        cases ht
        exact fromLog_nil
    · cases hs
  | resumeTask j answer => exact h.resumeTask hs
  | evictReplay afterSequence =>
    cases hs
    exact h.setShared (h.cache.mono (List.filter_subset_self _))
  | evictLatest =>
    cases hs
    exact h.setShared h.cache

end changes

/-! ### Every run -/

theorem inOrder_of_run {bounds : Bounds} {s : System} {acts : List Action}
    (hrun : run (System.step bounds) {} acts = some s) : InOrder s :=
  run_invariant (fun _ _ _ h hs => h.step hs) inOrder_empty hrun

/-- **Every subscription gets a stream without gap, repetition or reordering.** -/
theorem gap_free_stream {bounds : Bounds} {s : System} {acts : List Action}
    (hrun : run (System.step bounds) {} acts = some s) {sub : Subscription}
    (hsub : sub ∈ s.subscriptions) {k : ℕ} (hk : sub.afterSequence = some k) :
    (∃ n, sub.yielded = ((s.log.drop (k + 1)).take n).filter (matchesPrefixes sub.eventTypePrefixes)) ∧
      (sub.eventTypePrefixes = [] → ∀ i e, sub.yielded[i]? = some e →
        e.sequence = k + 1 + i ∧ s.log[k + 1 + i]? = some e) := by
  have h := inOrder_of_run hrun
  have ho := h.ordered sub hsub k hk
  have hprefix : sub.yielded <+: stream s.log sub.eventTypePrefixes k := by
    refine List.IsPrefix.trans ?_ ho.front_isPrefix
    rw [Subscription.front, List.append_assoc]
    exact List.prefix_append _ _
  refine ⟨exists_take_of_isPrefix_filter hprefix, fun hall i e hi => ?_⟩
  have hstream : stream s.log sub.eventTypePrefixes k = s.log.drop (k + 1) := by
    rw [stream, hall]
    exact List.filter_eq_self.mpr fun _ _ => rfl
  have hlog : s.log[k + 1 + i]? = some e := by
    obtain ⟨rest, hrest⟩ := hstream ▸ hprefix
    have hlt := (List.getElem?_eq_some_iff.mp hi).1
    rw [← List.getElem?_drop, ← hrest, List.getElem?_append_left hlt, hi]
  exact ⟨h.sequenced _ e hlog, hlog⟩

def smallBounds : Bounds :=
  ⟨4, 4, 64, 4, 64, by decide, by decide, by decide, by decide, by decide⟩

/-- A subscription goes through a replay, a drain and a fan-out. -/
def handovers : List Action :=
  [.append "a" "{}" 0, .append "b" "{}" 0, .append "c" "{}" 0, .subscribe (some 0) [], .next 0,
    .resume 0, .resume 0, .latestEnds 3 none, .resume 0, .queryEnds (some 0, some 2) (.run 0 5),
    .resume 0, .resume 0, .resume 0, .next 0, .append "d" "{}" 0, .deliver 0 3,
    .resumeTask 0 (.run 0 0), .resume 0, .next 0, .resume 0, .append "e" "{}" 0, .deliver 0 4,
    .resumeTask 0 (.run 0 0), .next 0, .resume 0, .resume 0]

theorem gap_free_stream_handovers :
    ∃ s sub, run (System.step smallBounds) {} handovers = some s ∧ sub ∈ s.subscriptions ∧
      sub.yielded.map Event.sequence = [1, 2, 3, 4] ∧
      (∃ n, sub.yielded = ((s.log.drop (0 + 1)).take n).filter (matchesPrefixes sub.eventTypePrefixes)) ∧
      (sub.eventTypePrefixes = [] → ∀ i e, sub.yielded[i]? = some e →
        e.sequence = 0 + 1 + i ∧ s.log[0 + 1 + i]? = some e) := by
  obtain ⟨s, sub, hrun, hsub, hk, hyielded⟩ :
      ∃ s sub, run (System.step smallBounds) {} handovers = some s ∧ sub ∈ s.subscriptions ∧
        sub.afterSequence = some 0 ∧ sub.yielded.map Event.sequence = [1, 2, 3, 4] :=
    ⟨_, _, rfl, List.mem_singleton_self _, rfl, by decide +kernel⟩
  exact ⟨s, sub, hrun, hsub, hyielded, gap_free_stream hrun hsub hk⟩

end CyberControl.SseBroker
