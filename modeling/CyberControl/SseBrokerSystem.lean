import CyberControl.SseSubscription
import CyberControl.Transition

/-! # The broker as a transition system

One tenant of `SSEBroker`: its durable log, its subscriptions, the calls of `deliver` and
`synchronize` in progress, the coalesced queries and the caches.  An action is what happens between
two awaits: a call starts, a suspended call or subscription runs to its next suspension, a query
ends, an entry leaves a cache.

The log is what the replay log stores.  A read of it answers with a run of stored events that
follows on from the cursor, as long as the action says, or raises. -/

namespace CyberControl.SseBroker

/-- A call of `deliver` or `synchronize`, where it is suspended. -/
inductive BrokerTask where
  /-- `deliver`, waiting for the tenant lock. -/
  | deliver (e : Event)
  /-- `_synchronize_tenant`, waiting for the synchronization lock. -/
  | synchronize (throughSequence : Option ℤ)
  /-- Waiting for the tenant lock at the head of the page loop. -/
  | page (throughSequence : Option ℤ) (pages : ℕ)
  /-- Reading the replay log after a cursor. -/
  | replay (throughSequence : Option ℤ) (pages : ℕ) (cursor : ℤ)
  /-- Waiting for the tenant lock to close the subscribers. -/
  | retentionDrop
  /-- Waiting for the tenant lock to fan the events out. -/
  | fanOut (throughSequence : Option ℤ) (pages : ℕ) (events : List Event)

structure System where
  log : List Event := []
  shared : Shared := {}
  synchronizeLocked : Bool := false
  subscriptions : List Subscription := []
  tasks : ℕ → Option BrokerTask := fun _ => none

/-- The answer of the replay log: so many events from the cursor on, which start at `first` when
there is no cursor, or an exception. -/
inductive Answer where
  | run (first count : ℕ)
  | raises (e : Exn)

/-- `replay_log.replay(tenant, after_sequence)`. -/
def Answer.events (log : List Event) (afterSequence : Option ℤ) : Answer → Except Exn (List Event)
  | .raises e => .error e
  | .run first count =>
    match afterSequence with
    | some cursor => .ok ((log.drop (cursor + 1).toNat).take count)
    | none => .ok ((log.drop first).take count)

/-- `replay_log.latest_sequence(tenant)` of a log with so many events. -/
def latestOf (count : ℕ) : Option ℤ := if count = 0 then none else some (count - 1)

def Shared.recordDurableEvent (shared : Shared) (e : Event) : Shared :=
  { shared with
    replayCache := []
    latestCache := some (storeLatestSequence shared.latestCache (some e.sequence)) }

namespace System

def mapSubscribers (s : System) (f : Subscriber → Subscriber) : System :=
  { s with subscriptions := s.subscriptions.map fun sub => { sub with subscriber := f sub.subscriber } }

def subscribers (s : System) : List Subscriber := s.subscriptions.map Subscription.subscriber

/-- `min(subscriber.last_sequence for subscriber in live)`. -/
def minimumCursor (s : System) : Option ℤ :=
  ((s.subscribers.filter Subscriber.live).map Subscriber.lastSequence).min?

def setTask (s : System) (j : ℕ) (task : Option BrokerTask) : System :=
  { s with tasks := Function.update s.tasks j task }

/-- `_synchronize_tenant` returns or raises, and gives its lock back. -/
def endSynchronize (s : System) (j : ℕ) : System :=
  { s.setTask j none with synchronizeLocked := false }

/-- The section of `deliver` under the tenant lock. -/
def deliverLocked (bounds : Bounds) (s : System) (j : ℕ) (e : Event) : System :=
  if ¬ s.subscribers.any Subscriber.active then s.setTask j none
  else
    let s := s.mapSubscribers fun x =>
      if x.active ∧ x.state ≠ .LIVE then x.bufferReplayEvent bounds e else x
    match s.minimumCursor with
    | none => s.setTask j none
    | some cursor =>
      if e.sequence ≤ cursor + 1 then
        (s.mapSubscribers fun x => if x.live then x.fanOut bounds [e] else x).setTask j none
      else s.setTask j (some (.synchronize (some e.sequence)))

/-- Whether the cursor has reached the sequence to synchronize through. -/
def reached (throughSequence : Option ℤ) (cursor : ℤ) : Bool :=
  match throughSequence with
  | none => false
  | some through => through ≤ cursor

/-- A suspended `deliver` or `synchronize` runs to its next suspension. -/
def resumeTask (bounds : Bounds) (s : System) (j : ℕ) (answer : Answer) : Option System :=
  match s.tasks j with
  | none => none
  | some (.deliver e) => some (s.deliverLocked bounds j e)
  | some (.synchronize through) =>
    if s.synchronizeLocked then none
    else some { s.setTask j (some (.page through 1024)) with synchronizeLocked := true }
  | some (.page _ 0) => some (s.endSynchronize j)
  | some (.page through (pages + 1)) =>
    match s.minimumCursor with
    | none => some (s.endSynchronize j)
    | some cursor =>
      if reached through cursor then some (s.endSynchronize j)
      else some (s.setTask j (some (.replay through pages cursor)))
  | some (.replay through pages cursor) =>
    match answer.events s.log (some cursor) with
    | .error e =>
      if isCursorInvalid e then some (s.setTask j (some .retentionDrop))
      else some (s.endSynchronize j)
    | .ok events =>
      match events.getLast? with
      | none => some (s.endSynchronize j)
      | some last =>
        if ¬ validReplay events (some cursor) then some (s.endSynchronize j)
        else
          some { s.setTask j (some (.fanOut through pages events)) with
            shared := s.shared.recordDurableEvent last }
  | some .retentionDrop =>
    some ((s.mapSubscribers fun x => if x.active then x.close else x).endSynchronize j)
  | some (.fanOut through pages events) =>
    let s := s.mapSubscribers fun x =>
      if x.registered then x.fanOut bounds (bySequence events) else x
    if (events.getLast?.any fun last => reached through last.sequence) then
      some (s.endSynchronize j)
    else some (s.setTask j (some (.page through pages)))

/-- `_remove_subscriber`, after the subscriber has been closed: with the last subscriber go the
caches and the queries, and whoever waits for one is cancelled. -/
def dropWhenEmpty (s : System) : System :=
  if s.subscribers.any Subscriber.registered then s
  else
    { s with
      shared := {}
      subscriptions := s.subscriptions.map fun sub =>
        match sub.point with
        | .awaitLatest | .awaitPage _ => { sub with closing := true, point := .idle }
        | _ => sub }

end System

inductive Action where
  | append (eventType dataJson : String) (emittedAt : ℕ)
  | recordDurable (n : ℕ)
  | subscribe (afterSequence : Option ℕ) (eventTypePrefixes : List String)
  | next (i : ℕ)
  | resume (i : ℕ)
  | heartbeat (i : ℕ)
  | interrupt (i : ℕ)
  | aclose (i : ℕ)
  | finishClose (i : ℕ)
  | latestEnds (count : ℕ) (raised : Option Exn)
  | queryEnds (key : QueryKey) (answer : Answer)
  | deliver (j n : ℕ)
  | synchronize (j : ℕ) (throughSequence : Option ℕ)
  | resumeTask (j : ℕ) (answer : Answer)
  | evictReplay (afterSequence : Option ℤ)
  | evictLatest

namespace System

/-- One subscription changes, and nothing else. -/
def onSubscription (s : System) (i : ℕ) (f : Subscription → Option Subscription) : Option System := do
  let sub ← s.subscriptions[i]?
  let sub ← f sub
  return { s with subscriptions := s.subscriptions.set i sub }

def step (bounds : Bounds) (s : System) : Action → Option System
  | .append eventType dataJson emittedAt =>
    some { s with log := s.log ++ [⟨s.log.length, eventType, dataJson, emittedAt⟩] }
  | .recordDurable n => do
    let e ← s.log[n]?
    return { s with shared := s.shared.recordDurableEvent e }
  | .subscribe afterSequence eventTypePrefixes =>
    some { s with
      subscriptions := s.subscriptions ++ [.open afterSequence eventTypePrefixes] }
  | .next i => s.onSubscription i Subscription.next
  | .resume i => do
    let sub ← s.subscriptions[i]?
    let (sub', shared) ← sub.resume s.shared
    let s' := { s with subscriptions := s.subscriptions.set i sub', shared := shared }
    match sub.point with
    | .failed _ => return s'.dropWhenEmpty
    | _ => return s'
  | .heartbeat i => s.onSubscription i Subscription.heartbeat
  | .interrupt i => s.onSubscription i Subscription.interrupt
  | .aclose i => s.onSubscription i fun sub => some { sub with closing := true }
  | .finishClose i => do
    let sub ← s.subscriptions[i]?
    let sub' ← sub.finishClose
    let s' := { s with subscriptions := s.subscriptions.set i sub' }
    return if sub.created then s'.dropWhenEmpty else s'
  | .latestEnds count raised =>
    if s.shared.latestTask ∧ count ≤ s.log.length then
      let value := storeLatestSequence s.shared.latestCache (latestOf count)
      let result := match raised with
        | none => .ok value
        | some e => .error e
      let shared := { s.shared with
        latestTask := false
        latestCache := if raised = none then some value else s.shared.latestCache }
      some { s with
        shared := shared
        subscriptions := s.subscriptions.map fun sub =>
          match sub.point with
          | .awaitLatest => { sub with point := .latest result }
          | _ => sub }
    else none
  | .queryEnds key answer =>
    if key ∈ s.shared.replayTasks then
      let result := answer.events s.log key.1
      let cache := match result with
        | .ok events => storeReplayCache bounds s.shared.replayCache key.1 events
        | .error _ => s.shared.replayCache
      some { s with
        shared := { s.shared with replayTasks := s.shared.replayTasks.erase key, replayCache := cache }
        subscriptions := s.subscriptions.map fun sub =>
          match sub.point with
          | .awaitPage p => if p.key = key then { sub with point := .page p result } else sub
          | _ => sub }
    else none
  | .deliver j n =>
    match s.tasks j, s.log[n]? with
    | none, some e =>
      some { s.setTask j (some (.deliver e)) with shared := s.shared.recordDurableEvent e }
    | _, _ => none
  | .synchronize j throughSequence =>
    match s.tasks j with
    | none => some (s.setTask j (some (.synchronize (cursorOf throughSequence))))
    | some _ => none
  | .resumeTask j answer => s.resumeTask bounds j answer
  | .evictReplay afterSequence =>
    let cache := s.shared.replayCache.filter (·.1 ≠ afterSequence)
    some { s with shared := { s.shared with replayCache := cache } }
  | .evictLatest => some { s with shared := { s.shared with latestCache := none } }

end System

end CyberControl.SseBroker
