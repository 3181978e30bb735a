import CyberControl.Profiling
import CyberControl.Transition
import CyberControl.Versions
import Mathlib.Data.List.Pairwise

/-! # Memory refreshes

`refresh_memory` and `refresh_due_memory` of `domains/topic2/orchestrator.py` with the review events and
memory states of one learner and course.  A refresh reads the latest states of some knowledge points,
lists the reviews received since, applies those of each point to its state, and saves the new states
when none of the points has been saved by another refresh.  The strengths, risks and due times of a
state are floating-point numbers and left out; its counters, instants and cursor are here. -/

namespace CyberControl.Memory

open Collections Scheduling Transition Versions
open Profiling (BehaviorEvent Cursor receivedAfter receivedAfter_iff performanceValue)

/-! ### The engine -/

/-- `MemoryStateDraft`; `reviewIngestionCursor` is that of `model_parameters`. -/
structure MemoryState where
  memoryStateId : ℕ
  kpId : String
  stateVersion : ℕ
  parentMemoryStateId : Option ℕ
  reviewCount : ℕ
  lastReviewedAt : Option ℕ
  lastActivityAt : ℕ
  computedAt : ℕ
  reviewIngestionCursor : Option Cursor
deriving DecidableEq

/-- `initialize_state`; the identifier is replaced before the state is saved. -/
def initializeState (kpId : String) (initializedAt : ℕ) : MemoryState where
  memoryStateId := 0
  kpId := kpId
  stateVersion := 1
  parentMemoryStateId := none
  reviewCount := 0
  lastReviewedAt := none
  lastActivityAt := initializedAt
  computedAt := initializedAt
  reviewIngestionCursor := none

def MemoryState.anchor (state : MemoryState) : ℕ := state.lastReviewedAt.getD state.lastActivityAt

def applyReview (state : MemoryState) (reviewedAt : ℕ) : Except Exn MemoryState :=
  if reviewedAt < state.anchor then
    .error (.valueError "review cannot precede the latest memory activity")
  else
    .ok { state with
      stateVersion := state.stateVersion + 1
      parentMemoryStateId := some state.memoryStateId
      reviewCount := state.reviewCount + 1
      lastReviewedAt := some reviewedAt
      lastActivityAt := reviewedAt
      computedAt := reviewedAt
      reviewIngestionCursor := none }

def refreshState (state : MemoryState) (asOf : ℕ) : Except Exn MemoryState :=
  if asOf < state.anchor then
    .error (.valueError "memory refresh cannot precede the latest activity")
  else
    .ok { state with
      stateVersion := state.stateVersion + 1
      parentMemoryStateId := some state.memoryStateId
      computedAt := asOf
      reviewIngestionCursor := none }

/-- One round of the loop of `_reconcile_memory_state`, with the check of `quality_from_event`. -/
def applyEvent (state : MemoryState) (event : BehaviorEvent) : Except Exn MemoryState :=
  if performanceValue event = none then
    .error (.valueError "a review event requires correctness or score evidence")
  else applyReview state (max event.occurredAt (max state.lastActivityAt state.computedAt))

def conflict (message : String) : Exn :=
  .liyan { code := .TOPIC2_CONFLICT, safeMessage := message, category := .CONTRACT, statusCode := 409 }

def reconcileMemoryState (kpId : String) (current : Option MemoryState)
    (reviewEvents : List BehaviorEvent) (requestedAt : ℕ) : Except Exn MemoryState :=
  if ∃ state ∈ current, requestedAt < state.computedAt then
    .error (conflict "Memory refresh time cannot precede the latest state version.")
  else do
    let start := current.getD
      (initializeState kpId ((reviewEvents.map (·.occurredAt)).min?.getD requestedAt))
    let state ← reviewEvents.foldlM applyEvent start
    if requestedAt < state.computedAt then
      .error (conflict "Memory refresh time cannot precede reconciled review evidence.")
    else if state.computedAt < requestedAt ∨ current.isSome then refreshState state requestedAt
    else .ok state

/-! ### Rows -/

/-- `_memory_review_cursor`, or the computation time where there is none. -/
def pointCursor (state : MemoryState) : Cursor :=
  state.reviewIngestionCursor.getD (toLex (state.computedAt, 0))

/-- `list_review_events` of one learner and course. -/
def listReviewEvents (events : List BehaviorEvent) (cursor : Option Cursor)
    (receivedUntil occurredUntil : ℕ) (limit : ℕ) : List BehaviorEvent :=
  (sortBy (·.cursor) (events.filter fun event => event.kpId.isSome ∧ event.occurredAt ≤ occurredUntil ∧
    event.receivedAt ≤ receivedUntil ∧ receivedAfter cursor event)).take limit

def latestMemoryState (states : List MemoryState) (kpId : String) : Option MemoryState :=
  latestVersion (·.stateVersion) (states.filter fun state => state.kpId = kpId)

def latestMemoryStates (states : List MemoryState) (kpIds : List String) : List MemoryState :=
  kpIds.filterMap (latestMemoryState states)

def maxReviewEventsPerRefresh : ℕ := 5000

def maxMemoryBatch : ℕ := 1000

/-- The cursor of `_pending_review_events`: the least one, when every point has a state. -/
def listingCursor (current : List MemoryState) (expectedPointCount : ℕ) : Option Cursor :=
  if current.length = expectedPointCount then (current.map pointCursor).min? else none

/-- The reviews of a point that `_reviews_after_state_cursor` keeps. -/
def pointReviews (current : Option MemoryState) (kpId : String) (listed : List BehaviorEvent) :
    List BehaviorEvent :=
  listed.filter fun event => event.kpId = some kpId ∧ ∀ state ∈ current, pointCursor state < event.cursor

def finalCursor (previous : Option Cursor) (reviews : List BehaviorEvent) : Option Cursor :=
  (reviews.getLast?.map (·.cursor)).or previous

def validateMemoryVersion (states : List MemoryState) (state : MemoryState) : Except Exn Unit :=
  if Follows (·.stateVersion) (·.memoryStateId) (·.parentMemoryStateId) state
      (latestMemoryState states state.kpId) then .ok ()
  else .error (.liyan {
    code := .TOPIC2_VERSION_CONFLICT
    safeMessage := "The memory parent/version for " ++ state.kpId ++ " is stale."
    category := .CONTRACT
    statusCode := 409 })

/-- The checks of `save_memory_states`. -/
def validateMemoryBatch (states batch : List MemoryState) : Except Exn Unit :=
  if batch = [] ∨ maxMemoryBatch < batch.length then
    .error (.liyan {
      code := .TOPIC2_BATCH_LIMIT
      safeMessage := "Memory updates must contain between one and 1000 states."
      category := .CONTRACT
      statusCode := 413 })
  else if ¬ (batch.map (·.kpId)).Nodup then
    .error (.liyan {
      code := .CONTRACT_INVALID
      safeMessage := "A memory batch must target one learner/course and contain unique knowledge points."
      category := .CONTRACT
      statusCode := 422 })
  else batch.forM (validateMemoryVersion states)

/-! ### Refreshes -/

/-- A call of `_refresh_memory_points`: `committed` are the reviews there when it read `current`, and
`listed` is none until they are listed. -/
structure Refresh where
  kpIds : List String
  requestedAt : ℕ
  current : List MemoryState
  committed : List BehaviorEvent
  listed : Option (List BehaviorEvent)

/-- `current_by_kp.get(kp_id)`. -/
def Refresh.read (r : Refresh) (kpId : String) : Option MemoryState :=
  r.current.find? fun state => state.kpId = kpId

/-- What a saved refresh applied to a point. -/
structure Applied where
  kpId : String
  requestedAt : ℕ
  committed : List BehaviorEvent
  reviews : List BehaviorEvent
deriving DecidableEq

/-- `history` is that of the saved refreshes, newest first. -/
structure Rows where
  events : List BehaviorEvent
  states : List MemoryState
  refreshes : List Refresh
  history : List Applied

def Rows.empty : Rows := ⟨[], [], [], []⟩

/-- The new state of a point. -/
def refreshPoint (newId : String → ℕ) (r : Refresh) (listed : List BehaviorEvent) (kpId : String) :
    Except Exn MemoryState := do
  let current := r.read kpId
  let reviews := pointReviews current kpId listed
  let state ← reconcileMemoryState kpId current reviews r.requestedAt
  .ok { state with
    memoryStateId := newId kpId
    stateVersion := current.elim 1 (·.stateVersion + 1)
    parentMemoryStateId := current.map (·.memoryStateId)
    reviewIngestionCursor := finalCursor (current.bind (·.reviewIngestionCursor)) reviews }

/-- The states that a refresh saves. -/
def refreshPoints (states : List MemoryState) (newId : String → ℕ) (r : Refresh)
    (listed : List BehaviorEvent) : Except Exn (List MemoryState) := do
  let batch ← r.kpIds.mapM (refreshPoint newId r listed)
  validateMemoryBatch states batch
  .ok batch

def Refresh.applied (r : Refresh) (listed : List BehaviorEvent) (kpId : String) : Applied :=
  ⟨kpId, r.requestedAt, r.committed, pointReviews (r.read kpId) kpId listed⟩

inductive Action where
  | record (event : BehaviorEvent)
  | begin (kpIds : List String) (requestedAt : ℕ)
  | list (t : ℕ)
  | save (t : ℕ) (newId : String → ℕ)
  | abandon (t : ℕ)

/-- The saved states of a refresh, or none when it fails. -/
def Rows.save (s : Rows) (t : ℕ) (r : Refresh) (listed : List BehaviorEvent) :
    Except Exn (List MemoryState) → Rows
  | .error _ => { s with refreshes := s.refreshes.eraseIdx t }
  | .ok batch => { s with
      states := batch ++ s.states
      refreshes := s.refreshes.eraseIdx t
      history := r.kpIds.map (r.applied listed) ++ s.history }

def step (s : Rows) : Action → Option Rows
  | .record event =>
    if event.kpId.isSome ∧ (performanceValue event).isSome ∧
        event.eventId ∉ s.events.map (·.eventId) then
      some { s with events := s.events ++ [event] }
    else none
  | .begin kpIds requestedAt =>
    if kpIds ≠ [] ∧ kpIds.Nodup then
      some { s with refreshes := s.refreshes ++
        [⟨kpIds, requestedAt, latestMemoryStates s.states kpIds, s.events, none⟩] }
    else none
  | .list t =>
    s.refreshes[t]?.bind fun r =>
      if r.listed = none then
        let listed := listReviewEvents s.events (listingCursor r.current r.kpIds.length)
          r.requestedAt r.requestedAt (maxReviewEventsPerRefresh + 1)
        if maxReviewEventsPerRefresh < listed.length then
          some { s with refreshes := s.refreshes.eraseIdx t }
        else some { s with refreshes := s.refreshes.set t { r with listed := some listed } }
      else none
  | .save t newId =>
    s.refreshes[t]?.bind fun r => r.listed.map fun listed =>
      s.save t r listed (refreshPoints s.states newId r listed)
  | .abandon t => some { s with refreshes := s.refreshes.eraseIdx t }

/-! ### What a refresh is for -/

/-- What the saved refreshes have done to a point. -/
def Rows.historyOf (s : Rows) (kpId : String) : List Applied :=
  s.history.filter fun entry => entry.kpId = kpId

/-- The reviews that have been applied to a point. -/
def Rows.reviewsOf (s : Rows) (kpId : String) : List BehaviorEvent :=
  (s.historyOf kpId).flatMap (·.reviews)

/-- No review is applied to a point twice, and the review count is the number of those applied. -/
def CountsEachReview (s : Rows) : Prop :=
  ∀ kpId, (s.reviewsOf kpId).Nodup ∧
    ((latestMemoryState s.states kpId).elim 0 (·.reviewCount)) = (s.reviewsOf kpId).length

/-- A review that a refresh of its point could see as received, and that some refresh of its point could
see as completed, is applied in exactly one refresh. -/
def AppliesEachReview (s : Rows) : Prop :=
  ∀ kpId event, event.kpId = some kpId →
    (∃ entry ∈ s.historyOf kpId, event ∈ entry.committed ∧ event.receivedAt ≤ entry.requestedAt) →
    (∃ entry ∈ s.historyOf kpId, event.occurredAt ≤ entry.requestedAt) →
      (s.reviewsOf kpId).count event = 1

/-- A refresh that may still save: it has read the latest states, and none is from after its time. -/
def Refresh.Current (s : Rows) (r : Refresh) : Prop :=
  r.kpIds.length ≤ maxMemoryBatch ∧ ∀ kpId ∈ r.kpIds, r.read kpId = latestMemoryState s.states kpId ∧
    ∀ state ∈ r.read kpId, state.computedAt ≤ r.requestedAt

instance (s : Rows) (r : Refresh) : Decidable (r.Current s) := inferInstanceAs (Decidable (_ ∧ _))

/-- The review comes after those that the refresh applies to its point; and when the point has had no
review at all, it is received after the refresh was requested. -/
def Refresh.Before (r : Refresh) (listed : List BehaviorEvent) (kpId : String) (event : BehaviorEvent) :
    Prop :=
  (∀ review ∈ pointReviews (r.read kpId) kpId listed, review.cursor < event.cursor) ∧
    (pointReviews (r.read kpId) kpId listed = [] →
      (r.read kpId).bind (·.reviewIngestionCursor) = none →
        toLex (r.requestedAt, 0) < event.cursor)

instance (r : Refresh) (listed : List BehaviorEvent) (kpId : String) :
    DecidablePred (r.Before listed kpId) := fun _ =>
  inferInstanceAs (Decidable (_ ∧ _))

/-- A review commits after the cursor of its point; one that a refresh leaves out, because it is
completed after the refresh was requested or has committed after the listing, comes after those that
the refresh applies. -/
def InOrder (s : Rows) : Action → Prop
  | .record event => ∀ kpId ∈ event.kpId, ∀ state ∈ latestMemoryState s.states kpId,
      pointCursor state < event.cursor
  | .save t _ => ∀ r ∈ s.refreshes[t]?, ∀ listed ∈ r.listed, r.Current s → ∀ kpId ∈ r.kpIds,
      ∀ event ∈ s.events, event.kpId = some kpId → event ∉ listed →
        (∀ state ∈ r.read kpId, pointCursor state < event.cursor) → r.Before listed kpId event
  | _ => True

instance (s : Rows) : DecidablePred (InOrder s) := fun action =>
  match action with
  | .record _ => inferInstanceAs (Decidable (∀ _ ∈ _, _))
  | .save _ _ => inferInstanceAs (Decidable (∀ r ∈ _, _))
  | .begin _ _ => isTrue trivial
  | .list _ => isTrue trivial
  | .abandon _ => isTrue trivial

/-! ### One point -/

variable {state state' : MemoryState}

theorem applyEvent_ok {event : BehaviorEvent}
    (h : applyEvent state event = .ok state') :
    state'.kpId = state.kpId ∧ state'.reviewCount = state.reviewCount + 1 := by
  unfold applyEvent applyReview at h
  split_ifs at h with hquality hearly
  cases h
  exact ⟨rfl, rfl⟩

theorem foldlM_applyEvent_ok {reviews : List BehaviorEvent}
    (h : reviews.foldlM applyEvent state = .ok state') :
    state'.kpId = state.kpId ∧ state'.reviewCount = state.reviewCount + reviews.length := by
  induction reviews generalizing state with
  | nil =>
    cases h
    exact ⟨rfl, rfl⟩
  | cons event reviews ih =>
    rw [List.foldlM_cons] at h
    obtain ⟨next, hnext, hrest⟩ := bind_eq_ok.mp h
    obtain ⟨hkp, hcount⟩ := applyEvent_ok hnext
    obtain ⟨hkp', hcount'⟩ := ih hrest
    refine ⟨hkp'.trans hkp, ?_⟩
    rw [hcount', hcount, List.length_cons]
    omega

theorem refreshState_ok {asOf : ℕ}
    (h : refreshState state asOf = .ok state') :
    state'.kpId = state.kpId ∧ state'.reviewCount = state.reviewCount ∧ state'.computedAt = asOf := by
  unfold refreshState at h
  split_ifs at h with hearly
  cases h
  exact ⟨rfl, rfl, rfl⟩

variable {kpId : String}

theorem reconcileMemoryState_ok {current : Option MemoryState}
    {reviews : List BehaviorEvent} {requestedAt : ℕ} {state : MemoryState}
    (hkp : ∀ st ∈ current, st.kpId = kpId)
    (h : reconcileMemoryState kpId current reviews requestedAt = .ok state) :
    state.kpId = kpId ∧ state.reviewCount = current.elim 0 (·.reviewCount) + reviews.length ∧
      state.computedAt = requestedAt ∧ ∀ st ∈ current, st.computedAt ≤ requestedAt := by
  unfold reconcileMemoryState at h
  split_ifs at h with hlate
  obtain ⟨applied, happlied, h⟩ := bind_eq_ok.mp h
  obtain ⟨hkpId, hcount⟩ := foldlM_applyEvent_ok happlied
  have hstart : applied.kpId = kpId ∧
      applied.reviewCount = current.elim 0 (·.reviewCount) + reviews.length := by
    cases current with
    | none => exact ⟨hkpId, hcount⟩
    | some st => exact ⟨hkpId.trans (hkp st rfl), hcount⟩
  have htimes : ∀ st ∈ current, st.computedAt ≤ requestedAt := by
    intro st hst
    by_contra hgt
    exact hlate ⟨st, hst, by omega⟩
  split_ifs at h with hafter hrefresh
  · obtain ⟨hkpId', hcount', hcomputed⟩ := refreshState_ok h
    exact ⟨hkpId'.trans hstart.1, hcount'.trans hstart.2, hcomputed, htimes⟩
  · obtain rfl := Except.ok.inj h
    rw [not_or] at hrefresh
    exact ⟨hstart.1, hstart.2, by omega, htimes⟩

variable {listed : List BehaviorEvent}

/-- **What a refresh makes of a point.** -/
theorem refreshPoint_ok {newId : String → ℕ} {r : Refresh}
    {state : MemoryState} (h : refreshPoint newId r listed kpId = .ok state) :
    state.kpId = kpId ∧
      state.reviewCount = (r.read kpId).elim 0 (·.reviewCount)
        + (pointReviews (r.read kpId) kpId listed).length ∧
      state.computedAt = r.requestedAt ∧
      (∀ st ∈ r.read kpId, st.computedAt ≤ r.requestedAt) ∧
      state.stateVersion = (r.read kpId).elim 1 (fun st => st.stateVersion + 1) ∧
      state.parentMemoryStateId = (r.read kpId).map (·.memoryStateId) ∧
      state.reviewIngestionCursor = finalCursor ((r.read kpId).bind (·.reviewIngestionCursor))
        (pointReviews (r.read kpId) kpId listed) := by
  obtain ⟨reconciled, hreconciled, h⟩ := bind_eq_ok.mp h
  obtain rfl := Except.ok.inj h
  have hkp : ∀ st ∈ r.read kpId, st.kpId = kpId := by
    intro st hst
    have hfound := List.find?_some (Option.mem_def.mp hst)
    simpa using hfound
  obtain ⟨hkpId, hcount, hcomputed, htimes⟩ := reconcileMemoryState_ok hkp hreconciled
  exact ⟨hkpId, hcount, hcomputed, htimes, rfl, rfl, rfl⟩

/-! ### Saved refreshes -/

def Rows.statesOf (s : Rows) (kpId : String) : List MemoryState :=
  s.states.filter fun state => state.kpId = kpId

section save
variable {s : Rows} {t : ℕ} {newId : String → ℕ} {r : Refresh} {listed : List BehaviorEvent}
  {batch : List MemoryState} {kpId : String}

/-- The batch of a save: a state for each point, each following the latest one of its point. -/
theorem refreshPoints_ok (h : refreshPoints s.states newId r listed = .ok batch) :
    batch.map (·.kpId) = r.kpIds ∧ r.kpIds.length ≤ maxMemoryBatch ∧
      (∀ kpId ∈ r.kpIds, ∃ state ∈ batch, refreshPoint newId r listed kpId = .ok state) ∧
      ∀ state ∈ batch, Follows (·.stateVersion) (·.memoryStateId) (·.parentMemoryStateId) state
        (latestMemoryState s.states state.kpId) := by
  obtain ⟨batch', hbatch, h⟩ := bind_eq_ok.mp h
  obtain ⟨_, hvalid, h⟩ := bind_eq_ok.mp h
  obtain rfl := Except.ok.inj h
  have hpoints := mapM_eq_ok.mp hbatch
  unfold validateMemoryBatch at hvalid
  split_ifs at hvalid with hlimit hnodup
  refine ⟨?_, ?_, fun kpId hkp => exists_of_mem_left hpoints hkp, ?_⟩
  · rw [← List.forall₂_eq_eq_eq, List.forall₂_map_left_iff]
    exact hpoints.flip.imp fun state kpId hok => (refreshPoint_ok hok).1
  · rw [not_or] at hlimit
    rw [hpoints.length_eq]
    omega
  · intro state hstate
    have hfollows := forM_eq_ok.mp hvalid state hstate
    unfold validateMemoryVersion at hfollows
    split_ifs at hfollows with hok
    exact hok

theorem save_of_not_mem (h : refreshPoints s.states newId r listed = .ok batch) (hkp : kpId ∉ r.kpIds) :
    (s.save t r listed (.ok batch)).statesOf kpId = s.statesOf kpId ∧
      (s.save t r listed (.ok batch)).historyOf kpId = s.historyOf kpId := by
  obtain ⟨hids, -, -, -⟩ := refreshPoints_ok h
  rw [← hids, List.mem_map] at hkp
  have hstates : batch.filter (fun state => state.kpId = kpId) = [] := by
    rw [List.filter_eq_nil_iff]
    exact fun state hstate heq => hkp ⟨state, hstate, of_decide_eq_true heq⟩
  have hhistory : (r.kpIds.map (r.applied listed)).filter (fun entry => entry.kpId = kpId) = [] := by
    rw [List.filter_eq_nil_iff, ← hids]
    intro entry hentry heq
    obtain ⟨other, hother, rfl⟩ := List.mem_map.mp hentry
    obtain ⟨state, hstate, rfl⟩ := List.mem_map.mp hother
    exact hkp ⟨state, hstate, of_decide_eq_true heq⟩
  unfold Rows.statesOf Rows.historyOf Rows.save
  rw [List.filter_append, List.filter_append, hstates, hhistory]
  exact ⟨rfl, rfl⟩

theorem save_of_mem (h : refreshPoints s.states newId r listed = .ok batch) (hnodup : r.kpIds.Nodup)
    (hversions : ((s.statesOf kpId).map (·.stateVersion)).Nodup)
    (hread : ∀ state ∈ r.read kpId, state ∈ s.statesOf kpId) (hkp : kpId ∈ r.kpIds) :
    ∃ state, refreshPoint newId r listed kpId = .ok state ∧
      r.read kpId = latestMemoryState s.states kpId ∧
      state.stateVersion ∉ (s.statesOf kpId).map (·.stateVersion) ∧
      latestMemoryState (batch ++ s.states) kpId = some state ∧
      (s.save t r listed (.ok batch)).statesOf kpId = state :: s.statesOf kpId ∧
      (s.save t r listed (.ok batch)).historyOf kpId = r.applied listed kpId :: s.historyOf kpId := by
  obtain ⟨hids, -, hpoints, hfollows⟩ := refreshPoints_ok h
  obtain ⟨state, hstate, hok⟩ := hpoints kpId hkp
  obtain ⟨hkpId, -, -, -, hversion, hparent, -⟩ := refreshPoint_ok hok
  have hfollow := hfollows state hstate
  rw [hkpId] at hfollow
  obtain ⟨hlatest, hfresh, hnew⟩ := hfollow.eq_latest hversions hread hversion hparent
  have hstates : batch.filter (fun st => st.kpId = kpId) = [state] := by
    have hkeys : (batch.map MemoryState.kpId).Nodup := hids ▸ hnodup
    have hsingle := filter_key_eq_singleton hkeys hstate
    rwa [hkpId] at hsingle
  have hhistory : (r.kpIds.map (r.applied listed)).filter (fun entry => entry.kpId = kpId)
      = [r.applied listed kpId] := by
    have hkeys : ((r.kpIds.map (r.applied listed)).map Applied.kpId).Nodup := by
      have hsame : (r.kpIds.map (r.applied listed)).map Applied.kpId = r.kpIds := by
        rw [List.map_map]
        exact List.map_id _
      rw [hsame]
      exact hnodup
    exact filter_key_eq_singleton hkeys (List.mem_map_of_mem hkp)
  refine ⟨state, hok, hlatest, hfresh, ?_, ?_, ?_⟩
  · unfold latestMemoryState
    rw [List.filter_append, hstates]
    exact hnew
  · unfold Rows.statesOf Rows.save
    rw [List.filter_append, hstates, List.singleton_append]
  · unfold Rows.historyOf Rows.save
    rw [List.filter_append, hhistory, List.singleton_append]

end save

/-! ### Invariants -/

/-- The listed reviews of a refresh, with every one it had to list. -/
structure Refresh.Listing (r : Refresh) (events listed : List BehaviorEvent) : Prop where
  events : ∀ event ∈ listed, event ∈ events
  nodup : listed.Nodup
  sorted : listed.Pairwise fun a b => a.cursor ≤ b.cursor
  complete : ∀ event ∈ r.committed, event.kpId.isSome → event.occurredAt ≤ r.requestedAt →
    event.receivedAt ≤ r.requestedAt →
    receivedAfter (listingCursor r.current r.kpIds.length) event → event ∈ listed

/-- What a refresh under way has read. -/
structure Refresh.Sound (s : Rows) (r : Refresh) : Prop where
  nodup : r.kpIds.Nodup
  read : ∀ kpId, ∀ state ∈ r.read kpId, state ∈ s.statesOf kpId
  missing : ∀ kpId ∈ r.kpIds, r.read kpId = none → r.current.length ≠ r.kpIds.length
  committed : r.committed ⊆ s.events
  later : ∀ kpId ∈ r.kpIds, r.read kpId = latestMemoryState s.states kpId →
    ∀ entry ∈ s.historyOf kpId, entry.committed ⊆ r.committed
  listed : ∀ listed ∈ r.listed, r.Listing s.events listed

/-- What the latest state of a point says of the reviews applied to it. -/
structure Tracks (s : Rows) (kpId : String) : Prop where
  versions : ((s.statesOf kpId).map (·.stateVersion)).Nodup
  nodup : (s.reviewsOf kpId).Nodup
  count : (latestMemoryState s.states kpId).elim 0 (·.reviewCount) = (s.reviewsOf kpId).length
  cursor : ∀ event ∈ s.reviewsOf kpId, ∃ cursor ∈
    (latestMemoryState s.states kpId).bind (·.reviewIngestionCursor), event.cursor ≤ cursor
  time : ∀ entry ∈ s.historyOf kpId, ∃ state ∈ latestMemoryState s.states kpId,
    entry.requestedAt ≤ state.computedAt
  committed : ∀ entry ∈ s.historyOf kpId, entry.committed ⊆ s.events
  chain : (s.historyOf kpId).Pairwise fun newer older =>
    older.requestedAt ≤ newer.requestedAt ∧ older.committed ⊆ newer.committed

structure Inv (s : Rows) : Prop where
  ids : (s.events.map (·.eventId)).Nodup
  refreshes : ∀ r ∈ s.refreshes, r.Sound s
  tracks : ∀ kpId, Tracks s kpId

variable {s s' : Rows}

theorem Tracks.congr (h : Tracks s kpId)
    (hstates : s'.statesOf kpId = s.statesOf kpId) (hhistory : s'.historyOf kpId = s.historyOf kpId)
    (hevents : s.events ⊆ s'.events) : Tracks s' kpId := by
  have hlatest : latestMemoryState s'.states kpId = latestMemoryState s.states kpId :=
    congrArg (latestVersion MemoryState.stateVersion) hstates
  have hreviews : s'.reviewsOf kpId = s.reviewsOf kpId :=
    congrArg (·.flatMap (·.reviews)) hhistory
  refine ⟨?_, ?_, ?_, ?_, ?_, ?_, ?_⟩
  · rw [hstates]
    exact h.versions
  · rw [hreviews]
    exact h.nodup
  · rw [hlatest, hreviews]
    exact h.count
  · rw [hlatest, hreviews]
    exact h.cursor
  · rw [hlatest, hhistory]
    exact h.time
  · rw [hhistory]
    exact fun entry hentry => List.Subset.trans (h.committed entry hentry) hevents
  · rw [hhistory]
    exact h.chain

theorem Refresh.Sound.congr {r : Refresh} (h : r.Sound s) (hevents : s.events ⊆ s'.events)
    (hstates : ∀ kpId, s.statesOf kpId ⊆ s'.statesOf kpId)
    (hlater : ∀ kpId ∈ r.kpIds, r.read kpId = latestMemoryState s'.states kpId →
      r.read kpId = latestMemoryState s.states kpId ∧ s'.historyOf kpId = s.historyOf kpId) :
    r.Sound s' where
  nodup := h.nodup
  read := fun kpId state hstate => hstates kpId (h.read kpId state hstate)
  missing := h.missing
  committed := List.Subset.trans h.committed hevents
  later := by
    intro kpId hkp hread
    obtain ⟨hread', hhistory⟩ := hlater kpId hkp hread
    rw [hhistory]
    exact h.later kpId hkp hread'
  listed := by
    intro listed hlisted
    have hold := h.listed listed hlisted
    exact ⟨fun event he => hevents (hold.events event he), hold.nodup, hold.sorted, hold.complete⟩

/-! ### Cursors -/

theorem mem_pointReviews {current : Option MemoryState}
    {event : BehaviorEvent} : event ∈ pointReviews current kpId listed ↔
      event ∈ listed ∧ event.kpId = some kpId ∧ ∀ state ∈ current, pointCursor state < event.cursor := by
  simp [pointReviews]

/-- The final cursor is not before any review, and is one of them or the previous one. -/
theorem finalCursor_spec {previous : Option Cursor} {reviews : List BehaviorEvent}
    (hsorted : reviews.Pairwise fun a b => a.cursor ≤ b.cursor) :
    (∀ event ∈ reviews, ∃ cursor ∈ finalCursor previous reviews, event.cursor ≤ cursor) ∧
      ∀ cursor ∈ finalCursor previous reviews,
        (reviews = [] ∧ cursor ∈ previous) ∨ ∃ event ∈ reviews, event.cursor = cursor := by
  unfold finalCursor
  cases reviews using List.reverseRecOn with
  | nil => exact ⟨by simp, fun cursor hcursor => .inl ⟨rfl, hcursor⟩⟩
  | append_singleton reviews last =>
    rw [List.getLast?_concat, Option.map_some, Option.some_or]
    constructor
    · intro event hevent
      refine ⟨last.cursor, rfl, ?_⟩
      cases List.mem_append.mp hevent with
      | inl hearlier =>
        exact (List.pairwise_append.mp hsorted).2.2 event hearlier last (List.mem_singleton_self _)
      | inr hlast =>
        obtain rfl := List.mem_singleton.mp hlast
        exact le_rfl
    · rintro cursor ⟨⟩
      exact .inr ⟨last, by simp, rfl⟩

variable {s : Rows}

theorem listing_list {r : Refresh} (hids : (s.events.map (·.eventId)).Nodup)
    (hcommitted : r.committed ⊆ s.events)
    (h : listed = listReviewEvents s.events (listingCursor r.current r.kpIds.length) r.requestedAt
      r.requestedAt (maxReviewEventsPerRefresh + 1))
    (hlength : ¬ maxReviewEventsPerRefresh < listed.length) : r.Listing s.events listed := by
  have hall : listed = sortBy (·.cursor) (s.events.filter fun event => event.kpId.isSome ∧
      event.occurredAt ≤ r.requestedAt ∧ event.receivedAt ≤ r.requestedAt ∧
        receivedAfter (listingCursor r.current r.kpIds.length) event) := by
    rw [h, listReviewEvents] at hlength ⊢
    rw [List.length_take] at hlength
    exact List.take_of_length_le (by omega)
  rw [hall]
  refine ⟨?_, ?_, pairwise_sortBy, ?_⟩
  · intro event hevent
    rw [mem_sortBy] at hevent
    exact List.mem_of_mem_filter hevent
  · exact perm_sortBy.nodup_iff.mpr ((List.Nodup.of_map _ hids).filter _)
  · intro event hevent hkp hoccurred hreceived hafter
    rw [mem_sortBy, List.mem_filter]
    exact ⟨hcommitted hevent, by simp [hkp, hoccurred, hreceived, hafter]⟩

/-! ### Steps -/

section save
variable {s : Rows} {t : ℕ} {newId : String → ℕ} {r : Refresh} {listed : List BehaviorEvent}
  {batch : List MemoryState} {kpId : String}

theorem Tracks.pointReviews_new (h : Tracks s kpId) (hread : r.read kpId = latestMemoryState s.states kpId)
    {event : BehaviorEvent} (hevent : event ∈ pointReviews (r.read kpId) kpId listed) :
    event ∉ s.reviewsOf kpId := by
  intro hold
  obtain ⟨-, -, hafter⟩ := mem_pointReviews.mp hevent
  obtain ⟨cursor, hcursor, hle⟩ := h.cursor event hold
  obtain ⟨state, hstate, hstored⟩ := Option.bind_eq_some_iff.mp hcursor
  have hlt := hafter state (hread.trans hstate)
  have hpoint : pointCursor state = cursor := by
    rw [pointCursor, hstored, Option.getD_some]
  rw [hpoint] at hlt
  exact absurd hlt (not_lt.mpr hle)

theorem Tracks.save (h : Tracks s kpId) (hsound : r.Sound s) (hlisting : r.Listing s.events listed)
    (hbatch : refreshPoints s.states newId r listed = .ok batch) (hkp : kpId ∈ r.kpIds) :
    Tracks (s.save t r listed (.ok batch)) kpId := by
  obtain ⟨state, hok, hread, hfresh, hnew, hstates, hhistory⟩ :=
    @save_of_mem s t newId r listed batch kpId hbatch hsound.nodup h.versions (hsound.read kpId) hkp
  obtain ⟨-, hcount, hcomputed, htimes, -, -, hcursor⟩ := refreshPoint_ok hok
  have hreviews : (s.save t r listed (.ok batch)).reviewsOf kpId
      = pointReviews (r.read kpId) kpId listed ++ s.reviewsOf kpId := by
    unfold Rows.reviewsOf
    rw [hhistory, List.flatMap_cons]
    rfl
  have hlatest : latestMemoryState (s.save t r listed (.ok batch)).states kpId = some state := hnew
  have hsorted := hlisting.sorted.filter fun event =>
    event.kpId = some kpId ∧ ∀ state ∈ r.read kpId, pointCursor state < event.cursor
  obtain ⟨hreached, -⟩ := @finalCursor_spec ((r.read kpId).bind (·.reviewIngestionCursor)) _ hsorted
  have hearlier : ∀ entry ∈ s.historyOf kpId, entry.requestedAt ≤ r.requestedAt := by
    intro entry hentry
    obtain ⟨old, hold, hle⟩ := h.time entry hentry
    exact hle.trans (htimes old (hread.trans hold))
  refine ⟨?_, ?_, ?_, ?_, ?_, ?_, ?_⟩
  · rw [hstates, List.map_cons]
    exact List.nodup_cons.mpr ⟨hfresh, h.versions⟩
  · rw [hreviews, List.nodup_append']
    exact ⟨hlisting.nodup.filter _, h.nodup, fun event hevent => h.pointReviews_new hread hevent⟩
  · rw [hlatest, hreviews, Option.elim_some, hcount, hread, h.count, List.length_append, Nat.add_comm]
  · rw [hlatest, hreviews]
    intro event hevent
    cases List.mem_append.mp hevent with
    | inl hreview =>
      obtain ⟨cursor, hfinal, hle⟩ := hreached event hreview
      exact ⟨cursor, hcursor.trans hfinal, hle⟩
    | inr hold =>
      obtain ⟨cursor, hstored, hle⟩ := h.cursor event hold
      rw [← hread] at hstored
      cases hlast : (pointReviews (r.read kpId) kpId listed).getLast? with
      | none =>
        refine ⟨cursor, hcursor.trans ?_, hle⟩
        rw [finalCursor, hlast]
        exact hstored
      | some last =>
        refine ⟨last.cursor, hcursor.trans ?_, ?_⟩
        · rw [finalCursor, hlast]
          rfl
        · obtain ⟨-, -, hafter⟩ := mem_pointReviews.mp (List.mem_of_getLast? hlast)
          obtain ⟨old, hold, hcursor'⟩ := Option.bind_eq_some_iff.mp hstored
          have hlt := hafter old hold
          rw [pointCursor, hcursor', Option.getD_some] at hlt
          exact hle.trans hlt.le
  · rw [hlatest, hhistory]
    intro entry hentry
    refine ⟨state, rfl, ?_⟩
    rw [hcomputed]
    cases List.mem_cons.mp hentry with
    | inl hnew => exact (congrArg Applied.requestedAt hnew).le
    | inr hold => exact hearlier entry hold
  · rw [hhistory]
    intro entry hentry
    cases List.mem_cons.mp hentry with
    | inl hnew =>
      rw [hnew]
      exact hsound.committed
    | inr hold => exact h.committed entry hold
  · rw [hhistory, List.pairwise_cons]
    refine ⟨fun entry hentry => ⟨hearlier entry hentry, ?_⟩, h.chain⟩
    exact hsound.later kpId hkp hread entry hentry

theorem Inv.save (hinv : Inv s) (ht : s.refreshes[t]? = some r) (hlisted : r.listed = some listed)
    (hbatch : refreshPoints s.states newId r listed = .ok batch) :
    Inv (s.save t r listed (.ok batch)) := by
  have hsound := hinv.refreshes r (List.mem_of_getElem? ht)
  have hlisting := hsound.listed listed hlisted
  refine ⟨hinv.ids, ?_, ?_⟩
  · intro r' hr'
    have hsound' := hinv.refreshes r' (List.mem_of_mem_eraseIdx hr')
    refine hsound'.congr (List.Subset.refl _) ?_ ?_
    · intro kpId
      by_cases hkp : kpId ∈ r.kpIds
      · obtain ⟨state, -, -, -, -, hstates, -⟩ :=
          @save_of_mem s t newId r listed batch kpId hbatch hsound.nodup (hinv.tracks kpId).versions
            (hsound.read kpId) hkp
        rw [hstates]
        exact List.subset_cons_self _ _
      · rw [(save_of_not_mem hbatch hkp).1]
        exact List.Subset.refl _
    · intro kpId hkp' hread'
      by_cases hkp : kpId ∈ r.kpIds
      · -- what the other refresh has read is not the state that is saved here
        obtain ⟨state, -, -, hfresh, hnew, -, -⟩ :=
          @save_of_mem s t newId r listed batch kpId hbatch hsound.nodup (hinv.tracks kpId).versions
            (hsound.read kpId) hkp
        have hold := hsound'.read kpId state (hread'.trans hnew)
        exact absurd (List.mem_map_of_mem hold) hfresh
      · obtain ⟨hstates, hhistory⟩ := @save_of_not_mem s t newId r listed batch kpId hbatch hkp
        exact ⟨hread'.trans (congrArg (latestVersion MemoryState.stateVersion) hstates), hhistory⟩
  · intro kpId
    by_cases hkp : kpId ∈ r.kpIds
    · exact (hinv.tracks kpId).save hsound hlisting hbatch hkp
    · obtain ⟨hstates, hhistory⟩ := @save_of_not_mem s t newId r listed batch kpId hbatch hkp
      exact (hinv.tracks kpId).congr hstates hhistory (List.Subset.refl _)

end save

theorem Inv.erase (hinv : Inv s) (t : ℕ) :
    Inv { s with refreshes := s.refreshes.eraseIdx t } := by
  refine ⟨hinv.ids, ?_, fun kpId => (hinv.tracks kpId).congr rfl rfl (List.Subset.refl _)⟩
  intro r hr
  exact (hinv.refreshes r (List.mem_of_mem_eraseIdx hr)).congr (List.Subset.refl _)
    (fun _ => List.Subset.refl _) fun _ _ hread => ⟨hread, rfl⟩

theorem read_latestMemoryStates {states : List MemoryState} {kpIds : List String} :
    ((latestMemoryStates states kpIds).find? fun state => state.kpId = kpId)
      = if kpId ∈ kpIds then latestMemoryState states kpId else none := by
  refine find?_filterMap_key fun kpId state hstate => ?_
  have hmem := latestVersion_mem hstate
  exact of_decide_eq_true (List.mem_filter.mp hmem).2

theorem Inv.begin (hinv : Inv s) {kpIds : List String} (hnodup : kpIds.Nodup)
    (requestedAt : ℕ) :
    Refresh.Sound s ⟨kpIds, requestedAt, latestMemoryStates s.states kpIds, s.events, none⟩ where
  nodup := hnodup
  read := by
    intro kpId state hstate
    rw [Refresh.read, read_latestMemoryStates, Option.mem_def] at hstate
    split_ifs at hstate with hkp
    exact latestVersion_mem hstate
  missing := by
    intro kpId hkp hnone hlength
    rw [Refresh.read, read_latestMemoryStates, if_pos hkp] at hnone
    have hall := List.filterMap_length_eq_length.mp hlength kpId hkp
    rw [hnone] at hall
    cases hall
  committed := List.Subset.refl _
  later := fun kpId _ _ entry hentry => (hinv.tracks kpId).committed entry hentry
  listed := by simp

theorem inv_step (s : Rows) (action : Action) (s' : Rows) (hinv : Inv s) (h : step s action = some s') :
    Inv s' := by
  cases action with
  | record event =>
    obtain ⟨⟨-, -, hfresh⟩, rfl⟩ := guarded_eq_some.mp h
    have hsub := List.subset_append_left s.events [event]
    refine ⟨?_, ?_, fun kpId => (hinv.tracks kpId).congr rfl rfl hsub⟩
    · rw [List.map_append, List.nodup_append']
      refine ⟨hinv.ids, List.nodup_singleton _, ?_⟩
      intro id hid hid'
      obtain rfl := List.mem_singleton.mp hid'
      exact hfresh hid
    · intro r hr
      exact (hinv.refreshes r hr).congr hsub (fun _ => List.Subset.refl _)
        fun _ _ hread => ⟨hread, rfl⟩
  | begin kpIds requestedAt =>
    obtain ⟨⟨-, hnodup⟩, rfl⟩ := guarded_eq_some.mp h
    refine ⟨hinv.ids, ?_, fun kpId => (hinv.tracks kpId).congr rfl rfl (List.Subset.refl _)⟩
    intro r hr
    have hsound : r.Sound s := by
      cases List.mem_append.mp hr with
      | inl hold => exact hinv.refreshes r hold
      | inr hnew =>
        obtain rfl := List.mem_singleton.mp hnew
        exact hinv.begin hnodup requestedAt
    exact hsound.congr (List.Subset.refl _) (fun _ => List.Subset.refl _)
      fun _ _ hread => ⟨hread, rfl⟩
  | list t =>
    obtain ⟨r, ht, h⟩ := Option.bind_eq_some_iff.mp h
    obtain ⟨hunlisted, h⟩ := Option.ite_none_right_eq_some.mp h
    have hsound := hinv.refreshes r (List.mem_of_getElem? ht)
    simp only at h
    split_ifs at h with hlength
    · obtain rfl := Option.some.inj h
      exact hinv.erase t
    · obtain rfl := Option.some.inj h
      refine ⟨hinv.ids, ?_, fun kpId => (hinv.tracks kpId).congr rfl rfl (List.Subset.refl _)⟩
      intro r' hr'
      cases List.mem_or_eq_of_mem_set hr' with
      | inl hold =>
        exact (hinv.refreshes r' hold).congr (List.Subset.refl _) (fun _ => List.Subset.refl _)
          fun _ _ hread => ⟨hread, rfl⟩
      | inr hnew =>
        subst hnew
        refine ⟨hsound.nodup, hsound.read, hsound.missing, hsound.committed, hsound.later, ?_⟩
        rintro listed ⟨⟩
        have hlisting := listing_list hinv.ids hsound.committed rfl hlength
        exact ⟨hlisting.events, hlisting.nodup, hlisting.sorted, hlisting.complete⟩
  | save t newId =>
    obtain ⟨r, ht, h⟩ := Option.bind_eq_some_iff.mp h
    obtain ⟨listed, hlisted, rfl⟩ := Option.map_eq_some_iff.mp h
    cases hbatch : refreshPoints s.states newId r listed with
    | error e => exact hinv.erase t
    | ok batch => exact hinv.save ht hlisted hbatch
  | abandon t =>
    obtain rfl := Option.some.inj h
    exact hinv.erase t

/-! ### Reviews in order -/

/-- The reviews up to the cursor of a point have been applied to it, and so have those that fell due. -/
structure Settled (s : Rows) (kpId : String) : Prop where
  behind : ∀ event ∈ s.events, event.kpId = some kpId → ∀ state ∈ latestMemoryState s.states kpId,
    event.cursor ≤ pointCursor state → event ∈ s.reviewsOf kpId
  due : ∀ entry ∈ s.historyOf kpId, ∀ event ∈ entry.committed, event.kpId = some kpId →
    event.receivedAt ≤ entry.requestedAt → event.occurredAt ≤ entry.requestedAt →
      event ∈ s.reviewsOf kpId

section save
variable {s : Rows} {t : ℕ} {newId : String → ℕ} {r : Refresh} {listed : List BehaviorEvent}
  {batch : List MemoryState} {kpId : String}

theorem Refresh.Sound.mem_listed (hsound : r.Sound s) (hlisting : r.Listing s.events listed)
    (hkp : kpId ∈ r.kpIds) {event : BehaviorEvent} (hevent : event ∈ r.committed)
    (hpoint : event.kpId = some kpId) (hreceived : event.receivedAt ≤ r.requestedAt)
    (hoccurred : event.occurredAt ≤ r.requestedAt)
    (hafter : ∀ state ∈ r.read kpId, pointCursor state < event.cursor) : event ∈ listed := by
  refine hlisting.complete event hevent (by simp [hpoint]) hoccurred hreceived ?_
  rw [receivedAfter_iff]
  intro least hleast
  unfold listingCursor at hleast
  by_cases hlength : r.current.length = r.kpIds.length
  · rw [if_pos hlength] at hleast
    cases hread : r.read kpId with
    | none => exact absurd hlength (hsound.missing kpId hkp hread)
    | some state =>
      have hmem : pointCursor state ∈ r.current.map pointCursor :=
        List.mem_map_of_mem (List.mem_of_find?_eq_some hread)
      have hle := (List.le_min?_iff hleast).mp le_rfl _ hmem
      exact lt_of_le_of_lt hle (hafter state hread)
  · rw [if_neg hlength] at hleast
    cases hleast

/-- A review that comes after what a refresh applies comes after the cursor that it saves. -/
theorem Refresh.Before.lt_pointCursor {state : MemoryState} {event : BehaviorEvent}
    (hbefore : r.Before listed kpId event)
    (hafter : ∀ st ∈ r.read kpId, pointCursor st < event.cursor)
    (hsorted : (pointReviews (r.read kpId) kpId listed).Pairwise fun a b => a.cursor ≤ b.cursor)
    (hcomputed : state.computedAt = r.requestedAt)
    (hcursor : state.reviewIngestionCursor = finalCursor
      ((r.read kpId).bind (·.reviewIngestionCursor)) (pointReviews (r.read kpId) kpId listed)) :
    pointCursor state < event.cursor := by
  unfold pointCursor
  rw [hcursor, hcomputed]
  cases hfinal : finalCursor ((r.read kpId).bind (·.reviewIngestionCursor))
      (pointReviews (r.read kpId) kpId listed) with
  | none =>
    rw [finalCursor, Option.or_eq_none_iff, Option.map_eq_none_iff, List.getLast?_eq_none_iff]
      at hfinal
    exact hbefore.2 hfinal.1 hfinal.2
  | some cursor =>
    rw [Option.getD_some]
    obtain ⟨-, horigin⟩ := @finalCursor_spec ((r.read kpId).bind (·.reviewIngestionCursor)) _ hsorted
    cases horigin cursor hfinal with
    | inl hprevious =>
      obtain ⟨st, hst, hstored⟩ := Option.bind_eq_some_iff.mp hprevious.2
      have hlt := hafter st hst
      rwa [pointCursor, hstored, Option.getD_some] at hlt
    | inr hreview =>
      obtain ⟨review, hreview, rfl⟩ := hreview
      exact hbefore.1 review hreview

theorem Settled.save (h : Settled s kpId) (htracks : Tracks s kpId) (hsound : r.Sound s)
    (hlisting : r.Listing s.events listed)
    (hbatch : refreshPoints s.states newId r listed = .ok batch) (hkp : kpId ∈ r.kpIds)
    (hbefore : ∀ event ∈ s.events, event.kpId = some kpId → event ∉ listed →
      (∀ state ∈ r.read kpId, pointCursor state < event.cursor) → r.Before listed kpId event) :
    Settled (s.save t r listed (.ok batch)) kpId := by
  obtain ⟨state, hok, hread, -, hnew, -, hhistory⟩ :=
    @save_of_mem s t newId r listed batch kpId hbatch hsound.nodup htracks.versions
      (hsound.read kpId) hkp
  obtain ⟨-, -, hcomputed, -, -, -, hcursor⟩ := refreshPoint_ok hok
  have hreviews : (s.save t r listed (.ok batch)).reviewsOf kpId
      = pointReviews (r.read kpId) kpId listed ++ s.reviewsOf kpId := by
    unfold Rows.reviewsOf
    rw [hhistory, List.flatMap_cons]
    rfl
  have hsorted := hlisting.sorted.filter fun event =>
    event.kpId = some kpId ∧ ∀ state ∈ r.read kpId, pointCursor state < event.cursor
  -- a review that is not after the cursor read has been applied before
  have hcovered : ∀ event ∈ s.events, event.kpId = some kpId →
      (¬ ∀ st ∈ r.read kpId, pointCursor st < event.cursor) → event ∈ s.reviewsOf kpId := by
    intro event hevent hpoint hnot
    push Not at hnot
    obtain ⟨st, hst, hle⟩ := hnot
    exact h.behind event hevent hpoint st (hread ▸ hst) hle
  refine ⟨?_, ?_⟩
  · intro event hevent hpoint st hst hle
    have hsame : st = state := (Option.some.inj (hnew.symm.trans hst)).symm
    subst hsame
    rw [hreviews, List.mem_append]
    by_cases hafter : ∀ st ∈ r.read kpId, pointCursor st < event.cursor
    · by_cases hin : event ∈ listed
      · exact .inl (mem_pointReviews.mpr ⟨hin, hpoint, hafter⟩)
      · have hlast := hbefore event hevent hpoint hin hafter
        have hlt := hlast.lt_pointCursor hafter hsorted hcomputed hcursor
        exact absurd hlt (not_lt.mpr hle)
    · exact .inr (hcovered event hevent hpoint hafter)
  · rw [hhistory, hreviews]
    intro entry hentry event hevent hpoint hreceived hoccurred
    rw [List.mem_append]
    cases List.mem_cons.mp hentry with
    | inl hnew =>
      subst hnew
      by_cases hafter : ∀ st ∈ r.read kpId, pointCursor st < event.cursor
      · have hin := hsound.mem_listed hlisting hkp hevent hpoint hreceived hoccurred hafter
        exact .inl (mem_pointReviews.mpr ⟨hin, hpoint, hafter⟩)
      · exact .inr (hcovered event (hsound.committed hevent) hpoint hafter)
    | inr hold => exact .inr (h.due entry hold event hevent hpoint hreceived hoccurred)

end save

theorem Settled.congr (h : Settled s kpId)
    (hstates : s'.statesOf kpId = s.statesOf kpId) (hhistory : s'.historyOf kpId = s.historyOf kpId)
    (hevents : ∀ event ∈ s'.events, event.kpId = some kpId → event ∈ s.events ∨
      ∀ state ∈ latestMemoryState s.states kpId, pointCursor state < event.cursor) :
    Settled s' kpId := by
  have hlatest : latestMemoryState s'.states kpId = latestMemoryState s.states kpId :=
    congrArg (latestVersion MemoryState.stateVersion) hstates
  have hreviews : s'.reviewsOf kpId = s.reviewsOf kpId :=
    congrArg (·.flatMap (·.reviews)) hhistory
  refine ⟨?_, ?_⟩
  · rw [hlatest, hreviews]
    intro event hevent hpoint state hstate hle
    cases hevents event hevent hpoint with
    | inl hold => exact h.behind event hold hpoint state hstate hle
    | inr hafter => exact absurd (hafter state hstate) (not_lt.mpr hle)
  · rw [hhistory, hreviews]
    exact h.due

theorem settled_step {action : Action} (hinv : Inv s) (h : ∀ kpId, Settled s kpId)
    (horder : InOrder s action) (hstep : step s action = some s') : ∀ kpId, Settled s' kpId := by
  intro kpId
  cases action with
  | record event =>
    obtain ⟨-, rfl⟩ := guarded_eq_some.mp hstep
    refine (h kpId).congr rfl rfl fun e he hpoint => ?_
    cases List.mem_append.mp he with
    | inl hold => exact .inl hold
    | inr hnew =>
      obtain rfl := List.mem_singleton.mp hnew
      exact .inr (horder kpId hpoint)
  | begin kpIds requestedAt =>
    obtain ⟨-, rfl⟩ := guarded_eq_some.mp hstep
    exact (h kpId).congr rfl rfl fun e he _ => .inl he
  | list t =>
    obtain ⟨r, -, hstep⟩ := Option.bind_eq_some_iff.mp hstep
    obtain ⟨-, hstep⟩ := Option.ite_none_right_eq_some.mp hstep
    simp only at hstep
    split_ifs at hstep with hlength
    · obtain rfl := Option.some.inj hstep
      exact (h kpId).congr rfl rfl fun e he _ => .inl he
    · obtain rfl := Option.some.inj hstep
      exact (h kpId).congr rfl rfl fun e he _ => .inl he
  | save t newId =>
    obtain ⟨r, ht, hstep⟩ := Option.bind_eq_some_iff.mp hstep
    obtain ⟨listed, hlisted, rfl⟩ := Option.map_eq_some_iff.mp hstep
    have hsound := hinv.refreshes r (List.mem_of_getElem? ht)
    cases hbatch : refreshPoints s.states newId r listed with
    | error e => exact (h kpId).congr rfl rfl fun e he _ => .inl he
    | ok batch =>
      by_cases hkp : kpId ∈ r.kpIds
      · have hcurrent : r.Current s := by
          refine ⟨(refreshPoints_ok hbatch).2.1, fun kpId hkp => ?_⟩
          obtain ⟨state, hok, hread, -⟩ := @save_of_mem s t newId r listed batch kpId hbatch
            hsound.nodup (hinv.tracks kpId).versions (hsound.read kpId) hkp
          exact ⟨hread, (refreshPoint_ok hok).2.2.2.1⟩
        exact (h kpId).save (hinv.tracks kpId) hsound (hsound.listed listed hlisted) hbatch hkp
          (horder r ht listed hlisted hcurrent kpId hkp)
      · obtain ⟨hstates, hhistory⟩ := @save_of_not_mem s t newId r listed batch kpId hbatch hkp
        exact (h kpId).congr hstates hhistory fun e he _ => .inl he
  | abandon t =>
    obtain rfl := Option.some.inj hstep
    exact (h kpId).congr rfl rfl fun e he _ => .inl he

theorem inv_empty : Inv Rows.empty where
  ids := List.nodup_nil
  refreshes := by simp [Rows.empty]
  tracks := by
    intro kpId
    refine ⟨List.nodup_nil, List.nodup_nil, rfl, ?_, ?_, ?_, List.Pairwise.nil⟩
    · simp [Rows.empty, Rows.reviewsOf, Rows.historyOf]
    · simp [Rows.empty, Rows.historyOf]
    · simp [Rows.empty, Rows.historyOf]

theorem settled_empty (kpId : String) : Settled Rows.empty kpId where
  behind := by simp [Rows.empty]
  due := by simp [Rows.empty, Rows.historyOf]

theorem rel_or_rel_of_pairwise {α : Type*} {R : α → α → Prop} {l : List α} (h : l.Pairwise R) {a b : α}
    (ha : a ∈ l) (hb : b ∈ l) (hne : a ≠ b) : R a b ∨ R b a := by
  have hsymm : Std.Symm fun a b => R a b ∨ R b a := ⟨fun _ _ => Or.symm⟩
  have hor : l.Pairwise fun a b => R a b ∨ R b a := h.imp Or.inl
  exact hor.forall ha hb hne

/-- A review that one refresh could see as received and one as completed was due in the later of them. -/
theorem appliesEachReview_of_settled (hinv : Inv s) (h : ∀ kpId, Settled s kpId) :
    AppliesEachReview s := by
  rintro kpId event hpoint ⟨received, hreceived, hcommitted, hle⟩ ⟨completed, hcompleted, hle'⟩
  have htracks := hinv.tracks kpId
  refine List.count_eq_one_of_mem htracks.nodup ?_
  by_cases hsame : event.occurredAt ≤ received.requestedAt
  · exact (h kpId).due received hreceived event hcommitted hpoint hle hsame
  · -- the refresh that could see it as completed was requested later
    have hlater : received.requestedAt ≤ completed.requestedAt ∧
        received.committed ⊆ completed.committed := by
      have hne : completed ≠ received := fun heq => hsame (heq ▸ hle')
      cases rel_or_rel_of_pairwise htracks.chain hcompleted hreceived hne with
      | inl hlater => exact hlater
      | inr hearlier => exact absurd (hle'.trans hearlier.1) hsame
    exact (h kpId).due completed hcompleted event (hlater.2 hcommitted) hpoint (hle.trans hlater.1) hle'

/-- **Reviews.** In every run no review is applied to a point twice, and the review count of the latest
state is the number of those applied; in a run where the reviews that a refresh leaves out come after
those it applies, each review that falls due is applied in exactly one refresh. -/
theorem reviews_applied_once {actions : List Action}
    (h : run step Rows.empty actions = some s) :
    CountsEachReview s ∧ (AllSteps step InOrder Rows.empty actions → AppliesEachReview s) := by
  constructor
  · have hinv := run_invariant inv_step inv_empty h
    exact fun kpId => ⟨(hinv.tracks kpId).nodup, (hinv.tracks kpId).count⟩
  · intro horder
    have hboth : Inv s ∧ ∀ kpId, Settled s kpId := by
      refine run_invariant_of (I := fun s => Inv s ∧ ∀ kpId, Settled s kpId) ?_
        ⟨inv_empty, settled_empty⟩ horder h
      intro s action s' hI hin hstep
      exact ⟨inv_step s action s' hI.1 hstep, settled_step hI.1 hI.2 hin hstep⟩
    exact appliesEachReview_of_settled hboth.1 hboth.2

/-- **The newest state of a point covers its history**: the versions of its states are distinct, and the newest one
is not before any review applied to the point nor before any refresh of it. -/
theorem newest_covers {actions : List Action} (h : run step Rows.empty actions = some s)
    (kpId : String) : ((s.statesOf kpId).map (·.stateVersion)).Nodup ∧
      (∀ event ∈ s.reviewsOf kpId, ∃ cursor ∈
        (latestMemoryState s.states kpId).bind (·.reviewIngestionCursor), event.cursor ≤ cursor) ∧
      ∀ entry ∈ s.historyOf kpId, ∃ state ∈ latestMemoryState s.states kpId,
        entry.requestedAt ≤ state.computedAt := by
  have htracks := (run_invariant inv_step inv_empty h).tracks kpId
  exact ⟨htracks.versions, htracks.cursor, htracks.time⟩

/-- A review of a knowledge point. -/
def review (eventId : ℕ) (kpId : String) (occurredAt receivedAt : ℕ) : BehaviorEvent where
  eventId := eventId
  sourceEventId := "review"
  learnerRef := "learner"
  courseId := "COURSE"
  kpId := some kpId
  durationSeconds := none
  responseLatencyMs := none
  correctness := some 1
  score := none
  misconceptionIds := []
  occurredAt := occurredAt
  receivedAt := receivedAt

/-- Two reviews, the second one received late, and a refresh after each. -/
def lateReview : List Action :=
  [.record (review 1 "KP_sum" 10 11), .begin ["KP_sum", "KP_product"] 12, .list 0, .save 0 fun _ => 1,
    .record (review 2 "KP_sum" 9 13), .begin ["KP_sum"] 14, .list 0, .save 0 fun _ => 2]

theorem reviews_applied_once_lateReview :
    ∃ s, run step Rows.empty lateReview = some s ∧ CountsEachReview s ∧ AppliesEachReview s ∧
      (latestMemoryState s.states "KP_sum").map (·.reviewCount) = some 2 := by
  have hrun : (run step Rows.empty lateReview).map (fun s =>
      (latestMemoryState s.states "KP_sum").map (·.reviewCount)) = some (some 2) := by
    decide +kernel
  obtain ⟨s, hs, hcount⟩ := Option.map_eq_some_iff.mp hrun
  have hreviews := reviews_applied_once hs
  exact ⟨s, hs, hreviews.1, hreviews.2 (by decide +kernel), hcount⟩

theorem newest_covers_lateReview :
    ∃ s, run step Rows.empty lateReview = some s ∧ (s.reviewsOf "KP_sum").length = 2 ∧
      ((s.statesOf "KP_sum").map (·.stateVersion)).Nodup ∧
      (∀ event ∈ s.reviewsOf "KP_sum", ∃ cursor ∈
        (latestMemoryState s.states "KP_sum").bind (·.reviewIngestionCursor), event.cursor ≤ cursor) ∧
      ∀ entry ∈ s.historyOf "KP_sum", ∃ state ∈ latestMemoryState s.states "KP_sum",
        entry.requestedAt ≤ state.computedAt := by
  obtain ⟨s, hs, hlength⟩ := Option.map_eq_some_iff.mp
    (show (run step Rows.empty lateReview).map (fun s => (s.reviewsOf "KP_sum").length) = some 2 by decide +kernel)
  exact ⟨s, hs, hlength, newest_covers hs "KP_sum"⟩

/-- A review received before the first refresh of its point and completed after it, by the clock of the
client, and a refresh after that. -/
def earlyRefresh : List Action :=
  [.record (review 1 "KP_sum" 100 10), .begin ["KP_sum"] 30, .list 0, .save 0 fun _ => 1,
    .begin ["KP_sum"] 200, .list 0, .save 0 fun _ => 2]

/-- The review is never applied: the first refresh has left its time as the cursor of the point. -/
theorem early_review_lost :
    ∃ s, run step Rows.empty earlyRefresh = some s ∧ ¬ AppliesEachReview s := by
  have hrun : (run step Rows.empty earlyRefresh).map (fun s => s.historyOf "KP_sum")
      = some [⟨"KP_sum", 200, [review 1 "KP_sum" 100 10], []⟩,
        ⟨"KP_sum", 30, [review 1 "KP_sum" 100 10], []⟩] := by
    decide +kernel
  obtain ⟨s, hs, hhistory⟩ := Option.map_eq_some_iff.mp hrun
  refine ⟨s, hs, fun happlies => ?_⟩
  have hone := happlies "KP_sum" (review 1 "KP_sum" 100 10) rfl
  rw [Rows.reviewsOf, hhistory] at hone
  have hseen : ∃ entry ∈ [(⟨"KP_sum", 200, [review 1 "KP_sum" 100 10], []⟩ : Applied),
      ⟨"KP_sum", 30, [review 1 "KP_sum" 100 10], []⟩], review 1 "KP_sum" 100 10 ∈ entry.committed ∧
        (review 1 "KP_sum" 100 10).receivedAt ≤ entry.requestedAt := by
    decide
  have hcompleted : ∃ entry ∈ [(⟨"KP_sum", 200, [review 1 "KP_sum" 100 10], []⟩ : Applied),
      ⟨"KP_sum", 30, [review 1 "KP_sum" 100 10], []⟩],
        (review 1 "KP_sum" 100 10).occurredAt ≤ entry.requestedAt := by
    decide
  exact absurd (hone hseen hcompleted) (by decide)

end CyberControl.Memory
