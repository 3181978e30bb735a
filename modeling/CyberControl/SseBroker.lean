import CyberControl.Errors
import Mathlib.Algebra.Ring.Nat

/-! # The event-stream broker: what runs under the tenant lock

`SSEBroker` (`streaming/sse.py`) fans the events of a durable log out to subscribers.  This module
has the parts of it that suspend nowhere, for one tenant: the bounded queue and replay buffer of a
subscriber, `_fan_out_locked`, the merging of replayed events, `_first_sequence_gap` and the two
caches.  An entry may leave a cache at any moment (it expires, or another tenant's entries push it
out), so times of expiry are not kept.

A cursor is the sequence of the last event seen, `-1` when there is none; `none` is a cursor that
the caller did not give. -/

namespace CyberControl.SseBroker

/-- An `SSEEvent` of the tenant; `dataJson` is the text of its data. -/
structure Event where
  sequence : ℕ
  eventType : String
  dataJson : String
  emittedAt : ℕ
deriving DecidableEq

def Event.sizeBytes (e : Event) : ℕ := e.eventType.utf8ByteSize + e.dataJson.utf8ByteSize

/-- The bounds that the constructor of the broker checks. -/
structure Bounds where
  subscriberQueueSize : ℕ
  replayCacheMaxEvents : ℕ
  replayCacheMaxBytes : ℕ
  replayBufferMaxEvents : ℕ
  replayBufferMaxBytes : ℕ
  subscriberQueueSize_pos : 0 < subscriberQueueSize
  replayCacheMaxEvents_pos : 0 < replayCacheMaxEvents
  replayCacheMaxBytes_pos : 0 < replayCacheMaxBytes
  replayBufferMaxEvents_pos : 0 < replayBufferMaxEvents
  replayBufferMaxBytes_pos : 0 < replayBufferMaxBytes

inductive SubscriberState where
  | REPLAYING
  | DRAINING
  | LIVE
deriving DecidableEq, Repr

/-- What a subscriber's queue holds: events, or `_SUBSCRIBER_CLOSED`. -/
inductive Item where
  | event (e : Event)
  | closed

def Item.event? : Item → Option Event
  | .event e => some e
  | .closed => none

/-- `_Subscriber`.  `registered` says that the subscriber is in `_subscribers` of its tenant, and
`replayBuffer` lists the values of that dictionary, whose keys are the sequences. -/
structure Subscriber where
  queue : List Item := []
  lastSequence : ℤ
  eventTypePrefixes : List String := []
  state : SubscriberState := .REPLAYING
  replayBuffer : List Event := []
  replayBufferBytes : ℕ := 0
  closed : Bool := false
  registered : Bool := false

/-! ### Subscribers -/

/-- `_matches_subscriber`. -/
def matchesPrefixes (prefixes : List String) (e : Event) : Bool :=
  prefixes.isEmpty || prefixes.any fun p => p.toList.isPrefixOf e.eventType.toList

namespace Subscriber

variable (bounds : Bounds)

/-- In `_active_subscribers`. -/
def active (s : Subscriber) : Bool := s.registered && !s.closed

def live (s : Subscriber) : Bool := s.active && s.state = .LIVE

/-- `_clear_replay_buffer_locked`. -/
def clearReplayBuffer (s : Subscriber) : Subscriber :=
  { s with replayBuffer := [], replayBufferBytes := 0 }

/-- `_close_subscriber_locked`. -/
def close (s : Subscriber) : Subscriber :=
  if s.closed then { s with registered := false }
  else { s.clearReplayBuffer with closed := true, queue := [.closed], registered := false }

/-- `_buffer_replay_event_locked`. -/
def bufferReplayEvent (s : Subscriber) (e : Event) : Subscriber :=
  if e.sequence ≤ s.lastSequence then s
  else
    match s.replayBuffer.find? (·.sequence = e.sequence) with
    | some existing => if existing ≠ e then s.close else s
    | none =>
      if s.replayBuffer.length ≥ bounds.replayBufferMaxEvents ∨
          s.replayBufferBytes + e.sizeBytes > bounds.replayBufferMaxBytes then s.close
      else
        { s with replayBuffer := s.replayBuffer ++ [e], replayBufferBytes := s.replayBufferBytes + e.sizeBytes }

/-- The loop of `_fan_out_locked` over the events, for a `LIVE` subscriber. -/
def receiveAll : List Event → Subscriber → Subscriber
  | [], s => s
  | e :: events, s =>
    if e.sequence ≤ s.lastSequence then receiveAll events s
    else if (e.sequence : ℤ) ≠ s.lastSequence + 1 then s.close
    else if ¬ matchesPrefixes s.eventTypePrefixes e then
      receiveAll events { s with lastSequence := e.sequence }
    else if s.queue.length ≥ bounds.subscriberQueueSize then s.close
    else receiveAll events { s with queue := s.queue ++ [.event e], lastSequence := e.sequence }

/-- What `_fan_out_locked` does with one subscriber. -/
def fanOut (events : List Event) (s : Subscriber) : Subscriber :=
  if s.closed then { s with registered := false }
  else if s.state = .LIVE then s.receiveAll bounds events
  else events.foldl (bufferReplayEvent bounds) s

end Subscriber

/-! ### Merging -/

/-- Put an event into a list ordered by sequence, in place of one with its sequence. -/
def insertBySequence (e : Event) : List Event → List Event
  | [] => [e]
  | x :: l =>
    if e.sequence < x.sequence then e :: x :: l
    else if e.sequence = x.sequence then e :: l
    else x :: insertBySequence e l

/-- `sorted({event.sequence: event for event in events}.values(), key=sequence)`. -/
def bySequence (events : List Event) : List Event :=
  events.foldl (fun l e => insertBySequence e l) []

/-- `_merge_replay_events`, on the concatenation of the groups. -/
def mergeReplayEvents (events : List Event) : Except Exn (List Event) :=
  if events.any fun e => events.any fun x => x.sequence = e.sequence && x ≠ e then
    .error (.valueError "SSE replay returned conflicting events for one sequence")
  else .ok (bySequence events)

/-- The loop of `_first_sequence_gap` once `previous` is a number. -/
def sequenceGapFrom : ℤ → List Event → Option ℤ
  | _, [] => none
  | previous, e :: events =>
    if (e.sequence : ℤ) ≠ previous + 1 then some previous else sequenceGapFrom e.sequence events

def firstSequenceGap (events : List Event) (afterSequence : Option ℤ) : Option ℤ :=
  match events, afterSequence with
  | [], _ => none
  | e :: events, none => sequenceGapFrom e.sequence events
  | events, some previous => sequenceGapFrom previous events

/-- `_validate_replay`: the sequences follow on from the cursor, or from the first event. -/
def validReplay (events : List Event) (afterSequence : Option ℤ) : Bool :=
  firstSequenceGap events afterSequence = none

def noncontiguous : Exn := .valueError "SSE replay returned a noncontiguous sequence"

/-- `events[-1].sequence`, or the cursor when there are no events. -/
def tailSequence (events : List Event) (afterSequence : Option ℤ) : Option ℤ :=
  match events.getLast? with
  | some e => some e.sequence
  | none => afterSequence

/-! ### Caches -/

/-- The replay cache of the tenant, least recently used entry first. -/
abbrev ReplayCache := List (Option ℤ × List Event)

/-- `_cached_replay`: the events, and the cache with the entry moved to its end. -/
def cachedReplay (cache : ReplayCache) (afterSequence throughSequence : Option ℤ) :
    Option (List Event × ReplayCache) :=
  match cache.find? (·.1 = afterSequence) with
  | none => none
  | some entry =>
    let moved := cache.filter (·.1 ≠ afterSequence) ++ [entry]
    match throughSequence, tailSequence entry.2 afterSequence with
    | none, _ => some (entry.2, moved)
    | some _, none => none
    | some through, some tail => if tail < through then none else some (entry.2, moved)

/-- Whether the tail of a cached entry is ahead of the tail of the new events. -/
def tailAhead (previous new : Option ℤ) : Bool :=
  match previous, new with
  | none, _ => false
  | some _, none => true
  | some p, some n => n < p

def storeReplayCache (bounds : Bounds) (cache : ReplayCache) (afterSequence : Option ℤ)
    (events : List Event) : ReplayCache :=
  if events.length > bounds.replayCacheMaxEvents ∨
      (events.map Event.sizeBytes).sum > bounds.replayCacheMaxBytes then cache
  else
    let others := cache.filter (·.1 ≠ afterSequence)
    let store := (others ++ [(afterSequence, events)]).drop (others.length + 1 - 8)
    match cache.find? (·.1 = afterSequence) with
    | none => store
    | some previous =>
      if tailAhead (tailSequence previous.2 afterSequence) (tailSequence events afterSequence) then
        others ++ [previous]
      else store

/-- `_store_latest_sequence`: the value stored, which is also returned. -/
def storeLatestSequence (existing : Option (Option ℤ)) (sequence : Option ℤ) : Option ℤ :=
  match existing with
  | none => sequence
  | some existing =>
    match existing, sequence with
    | _, none => existing
    | some e, some n => if n < e then some e else some n
    | none, some n => some n

end CyberControl.SseBroker
