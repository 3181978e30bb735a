import CyberControl.SseBroker

/-! # A subscription and its suspension points

`SSESubscription.__anext__`, with `_initialize_subscription`, `_subscription_replay`,
`_activate_subscription` and `_drain_subscription_tail` of the broker, cut at their awaits.  A
`Point` says where a subscription is suspended and holds the local variables of the functions it is
suspended in; `resume` runs it from there to the next suspension.  Nothing is awaited while the tenant
lock is held, so a section under the lock is one step. -/

namespace CyberControl.SseBroker

/-- The key of a coalesced replay query: the cursor and the sequence to read through. -/
abbrev QueryKey := Option ℤ × Option ℤ

/-- What a call of `_subscription_replay` is for, with the local variables of its caller. -/
inductive Purpose where
  | admission
  | handoff (merged : List Event) (attempt : ℕ)
  | drain (held : Event) (merged : List Event) (attempt : ℕ)

/-- The local variables of `_subscription_replay`; `pages` are those left of its budget. -/
structure Paging where
  purpose : Purpose
  afterSequence : Option ℤ
  throughSequence : Option ℤ
  cursor : Option ℤ
  replay : List Event := []
  pages : ℕ := 1024

def Paging.key (p : Paging) : QueryKey := (p.cursor, p.throughSequence)

/-- Where a subscription is suspended. -/
inductive Point where
  /-- No call of `__anext__` is in progress. -/
  | idle
  /-- The initialization task has been created. -/
  | initializing
  /-- Waiting for the lock to register the subscriber. -/
  | register
  /-- Waiting for the coalesced query of the latest sequence. -/
  | awaitLatest
  /-- That query has ended. -/
  | latest (result : Except Exn (Option ℤ))
  /-- Waiting for a coalesced replay query. -/
  | awaitPage (p : Paging)
  /-- That query has ended. -/
  | page (p : Paging) (result : Except Exn (List Event))
  /-- Waiting for the lock in `_activate_subscription`. -/
  | activate (merged : List Event) (attempt : ℕ)
  /-- Waiting for the lock to close the subscriber, whose next event is no longer retained. -/
  | closeAfterGap (held : Option Event)
  /-- Waiting for the lock to remove the subscriber after the initialization has failed. -/
  | failed (e : Exn)
  /-- The initialization task has ended. -/
  | initialized (raised : Option Exn)
  /-- Waiting for the lock in `_drain_subscription_tail`, with `held` to be returned. -/
  | drain (held : Event) (merged : List Event) (attempt : ℕ)
  /-- Waiting for an item of the queue. -/
  | receive
  /-- The receive task has taken an item from the queue. -/
  | received (item : Item)

/-- An `SSESubscription` and its subscriber, which exists once `created`.  `yielded` is a history
variable: the events that `__anext__` has returned. -/
structure Subscription where
  afterSequence : Option ℕ
  eventTypePrefixes : List String
  subscriber : Subscriber
  created : Bool := false
  initialEvents : List Event := []
  initialLastSequence : Option ℤ := none
  closing : Bool := false
  cleanupComplete : Bool := false
  point : Point := .idle
  yielded : List Event := []

/-- The shared state that a subscription reads, or changes through the caches. -/
structure Shared where
  latestCache : Option (Option ℤ) := none
  replayCache : ReplayCache := []
  latestTask : Bool := false
  replayTasks : List QueryKey := []

def cursorOf (afterSequence : Option ℕ) : Option ℤ := afterSequence.map Nat.cast

/-- `subscribe`: the subscriber that `_initialize_subscription` will create starts at the cursor. -/
def Subscription.open (afterSequence : Option ℕ) (eventTypePrefixes : List String) : Subscription where
  afterSequence := afterSequence
  eventTypePrefixes := eventTypePrefixes
  subscriber :=
    { lastSequence := (cursorOf afterSequence).getD (-1), eventTypePrefixes := eventTypePrefixes }

def handoffExhausted : Exn :=
  .liyan
    { code := .MESSAGE_BUFFER_FULL
      safeMessage := "The SSE replay/live handoff could not reach a contiguous sequence."
      category := .MESSAGING
      retriable := true
      statusCode := 503 }

def pagesExhausted : Exn :=
  .liyan
    { code := .MESSAGE_BUFFER_FULL
      safeMessage := "The SSE subscription replay page budget was exhausted."
      category := .MESSAGING
      retriable := true
      statusCode := 503 }

def notYetVisible : Exn :=
  .liyan
    { code := .MESSAGE_SEQUENCE_GAP
      safeMessage := "The latest SSE event is not yet visible in durable replay storage."
      category := .MESSAGING
      retriable := true
      statusCode := 503 }

/-- An error that says the cursor is older than what is retained. -/
def isCursorInvalid : Exn → Bool
  | .liyan e => e.code = .SSE_REPLAY_CURSOR_INVALID
  | _ => false

/-! ### Reading pages -/

/-- What follows a page: another page, or the end of `_subscription_replay`. -/
inductive AfterPage where
  | again (p : Paging)
  | done (result : Except Exn (List Event))

/-- An event of a page is added when it is ahead of the last one added. -/
def collect (replay : List Event) (e : Event) : List Event :=
  match replay.getLast? with
  | none => replay ++ [e]
  | some last => if e.sequence > last.sequence then replay ++ [e] else replay

/-- The body of the page loop after the page has been read. -/
def Paging.accept (p : Paging) (page : List Event) : AfterPage :=
  if ¬ validReplay page p.cursor then .done (.error noncontiguous)
  else
    let replay := page.foldl collect p.replay
    let cursor := tailSequence page p.cursor
    let reached := match p.throughSequence, cursor with
      | none, _ => true
      | some _, none => false
      | some through, some cursor => through ≤ cursor
    if reached then .done (.ok replay)
    else if page = [] then
      if p.afterSequence = none then .done (.ok replay) else .done (.error notYetVisible)
    else .again { p with replay := replay, cursor := cursor }

/-- How a turn of the page loop ends: at a query, or at the end of `_subscription_replay`. -/
inductive Turn where
  | await (p : Paging)
  | done (result : Except Exn (List Event))

/-- The page loop up to its next suspension; a cached page does not suspend. -/
def Paging.turn : ℕ → ReplayCache → Paging → Turn × ReplayCache
  | 0, cache, _ => (.done (.error pagesExhausted), cache)
  | pages + 1, cache, p =>
    match cachedReplay cache p.cursor p.throughSequence with
    | none => (.await { p with pages := pages }, cache)
    | some (page, cache) =>
      match p.accept page with
      | .done result => (.done result, cache)
      | .again p => turn pages cache p

/-! ### Segments -/

namespace Subscription

/-- `__anext__` returns an event. -/
def yieldEvent (s : Subscription) (e : Event) : Subscription :=
  { s with yielded := s.yielded ++ [e], point := .idle }

/-- `_subscription_replay` has returned or raised. -/
def afterReplay (s : Subscription) (purpose : Purpose) (result : Except Exn (List Event)) :
    Subscription :=
  match purpose, result with
  | .admission, .error e => { s with point := .failed e }
  | .admission, .ok replay =>
    if validReplay replay (cursorOf s.afterSequence) then { s with point := .activate replay 0 }
    else { s with point := .failed noncontiguous }
  | .handoff _ _, .error e =>
    if isCursorInvalid e then { s with point := .closeAfterGap none } else { s with point := .failed e }
  | .handoff merged attempt, .ok missing =>
    match mergeReplayEvents (merged ++ missing) with
    | .error e => { s with point := .failed e }
    | .ok merged =>
      if attempt + 1 < 1024 then { s with point := .activate merged (attempt + 1) }
      else { s with point := .failed handoffExhausted }
  | .drain held _ _, .error e =>
    -- An exception of the drain leaves `__anext__` without the event it has popped.
    if isCursorInvalid e then { s with point := .closeAfterGap (some held) } else { s with point := .idle }
  | .drain held merged attempt, .ok missing =>
    match mergeReplayEvents (merged ++ missing) with
    | .error _ => { s with point := .idle }
    | .ok merged =>
      if attempt + 1 < 1024 then { s with point := .drain held merged (attempt + 1) }
      else { s with point := .idle }

/-- A turn of the page loop, with the query it waits for, if any, started. -/
def turn (s : Subscription) (shared : Shared) (pages : ℕ) (p : Paging) : Subscription × Shared :=
  match p.turn pages shared.replayCache with
  | (.await p, cache) =>
    ({ s with point := .awaitPage p },
      { shared with replayCache := cache, replayTasks := shared.replayTasks.insert p.key })
  | (.done result, cache) => (s.afterReplay p.purpose result, { shared with replayCache := cache })

/-- The call of `_subscription_replay`. -/
def startReplay (s : Subscription) (shared : Shared) (purpose : Purpose)
    (afterSequence throughSequence : Option ℤ) : Subscription × Shared :=
  s.turn shared 1024 { purpose, afterSequence, throughSequence, cursor := afterSequence }

/-- The part of `_initialize_subscription` after `_latest_sequence`. -/
def startAdmission (s : Subscription) (shared : Shared) (latestSequence : Option ℤ) : Subscription × Shared :=
  let after := cursorOf s.afterSequence
  { s with initialLastSequence := if after = none then latestSequence else after }.startReplay
    shared .admission after latestSequence

/-- `_latest_sequence` of an admission. -/
def readLatest (s : Subscription) (shared : Shared) : Subscription × Shared :=
  match shared.latestCache with
  | some sequence => s.startAdmission shared sequence
  | none => ({ s with point := .awaitLatest }, { shared with latestTask := true })

/-- `max(event.sequence for event in buffered)`. -/
def maxSequence (buffered : List Event) : Option ℤ :=
  (buffered.map fun e => (e.sequence : ℤ)).max?

/-- The section of `_activate_subscription` under the lock. -/
def activate (s : Subscription) (shared : Shared) (merged : List Event) (attempt : ℕ) :
    Subscription × Shared :=
  if s.subscriber.closed then ({ s with point := .initialized none }, shared)
  else
    let buffered := s.subscriber.replayBuffer
    match mergeReplayEvents (merged ++ buffered) with
    | .error e => ({ s with point := .failed e }, shared)
    | .ok combined =>
      let after := cursorOf s.afterSequence
      let handoffAfter :=
        if buffered ≠ [] ∧ merged = [] ∧ after = none then some (s.initialLastSequence.getD (-1))
        else after
      match firstSequenceGap combined handoffAfter with
      | none =>
        let initial := s.initialEvents ++ combined.filter (matchesPrefixes s.subscriber.eventTypePrefixes)
        let last := (tailSequence combined s.initialLastSequence).getD (-1)
        let subscriber := { s.subscriber.clearReplayBuffer with
          lastSequence := last
          state := if initial ≠ [] then .DRAINING else .LIVE }
        ({ s with initialEvents := initial, subscriber := subscriber, point := .initialized none }, shared)
      | some gap =>
        match maxSequence buffered with
        | none => ({ s with point := .failed (.valueError "max() arg is an empty sequence") }, shared)
        | some target => s.startReplay shared (.handoff merged attempt) (some gap) (some target)

/-- The section of `_drain_subscription_tail` under the lock. -/
def drain (s : Subscription) (shared : Shared) (held : Event) (merged : List Event) (attempt : ℕ) :
    Subscription × Shared :=
  if s.subscriber.closed ∨ s.subscriber.state ≠ .DRAINING then (s.yieldEvent held, shared)
  else
    let buffered := s.subscriber.replayBuffer
    match mergeReplayEvents (merged ++ buffered) with
    | .error _ => ({ s with point := .idle }, shared)
    | .ok combined =>
      match firstSequenceGap combined (some s.subscriber.lastSequence) with
      | none =>
        let matched := combined.filter (matchesPrefixes s.subscriber.eventTypePrefixes)
        let last := (tailSequence combined (some s.subscriber.lastSequence)).getD (-1)
        let subscriber := { s.subscriber.clearReplayBuffer with
          lastSequence := last
          state := if matched ≠ [] then .DRAINING else .LIVE }
        ({ s with initialEvents := s.initialEvents ++ matched, subscriber := subscriber }.yieldEvent held,
          shared)
      | some gap =>
        match maxSequence buffered with
        | none => ({ s with subscriber := s.subscriber.close }.yieldEvent held, shared)
        | some target => s.startReplay shared (.drain held merged attempt) (some gap) (some target)

/-- `__anext__` after `_ensure_initialized`. -/
def advance (s : Subscription) : Subscription :=
  match s.initialEvents with
  | e :: rest =>
    if rest = [] then { s with initialEvents := [], point := .drain e [] 0 }
    else { s with initialEvents := rest }.yieldEvent e
  | [] =>
    if ¬ s.created ∨ s.subscriber.closed then { s with closing := true, point := .idle }
    else { s with point := .receive }

/-- A call of `__anext__`, up to its first suspension. -/
def next (s : Subscription) : Option Subscription :=
  match s.point with
  | .idle =>
    if s.cleanupComplete ∨ s.closing then some s
    else if s.created ∧ s.subscriber.state ≠ .REPLAYING then some s.advance
    else some { s with point := .initializing }
  | _ => none

/-- From a suspension point to the next one.  The points that wait for a query are left by the end
of that query. -/
def resume (s : Subscription) (shared : Shared) : Option (Subscription × Shared) :=
  match s.point with
  | .idle | .awaitLatest | .awaitPage _ => none
  | .initializing =>
    if s.created then some (s.readLatest shared)
    else some ({ s with created := true, point := .register }, shared)
  | .register =>
    some ({ s with subscriber := { s.subscriber with registered := true } }.readLatest shared)
  | .latest (.ok sequence) => some (s.startAdmission shared sequence)
  | .latest (.error e) => some ({ s with point := .failed e }, shared)
  | .page p (.ok events) =>
    match p.accept events with
    | .done result => some (s.afterReplay p.purpose result, shared)
    | .again p => some (s.turn shared p.pages p)
  | .page p (.error e) => some (s.afterReplay p.purpose (.error e), shared)
  | .activate merged attempt => some (s.activate shared merged attempt)
  | .closeAfterGap none =>
    some ({ s with subscriber := s.subscriber.close, point := .initialized none }, shared)
  | .closeAfterGap (some held) =>
    some ({ s with subscriber := s.subscriber.close }.yieldEvent held, shared)
  | .failed e =>
    some ({ s with subscriber := s.subscriber.close, point := .initialized (some e) }, shared)
  | .initialized (some _) => some ({ s with point := .idle }, shared)
  | .initialized none => some (s.advance, shared)
  | .drain held merged attempt => some (s.drain shared held merged attempt)
  | .receive =>
    if s.closing then some ({ s with point := .idle }, shared)
    else
      match s.subscriber.queue with
      | [] => none
      | item :: queue =>
        some ({ s with subscriber := { s.subscriber with queue := queue }, point := .received item }, shared)
  | .received .closed => some ({ s with closing := true, point := .idle }, shared)
  | .received (.event e) =>
    if s.closing then some ({ s with point := .idle }, shared) else some (s.yieldEvent e, shared)

/-- The heartbeat timeout: `__anext__` returns `None`. -/
def heartbeat (s : Subscription) : Option Subscription :=
  match s.point with
  | .receive => some { s with point := .idle }
  | _ => none

/-- A cancellation reaches `__anext__`, from its caller or because a close has cancelled what it
awaits; it closes the subscription and returns nothing. -/
def interrupt (s : Subscription) : Option Subscription :=
  match s.point with
  | .idle => none
  | _ => some { s with closing := true, point := .idle }

/-- The end of `_close`, under the lock, once no call of `__anext__` is in progress. -/
def finishClose (s : Subscription) : Option Subscription :=
  match s.point with
  | .idle =>
    if s.closing ∧ ¬ s.cleanupComplete then
      let subscriber := if s.created then s.subscriber.close else s.subscriber
      some { s with subscriber := subscriber, initialEvents := [], cleanupComplete := true }
    else none
  | _ => none

end Subscription

end CyberControl.SseBroker
