import CyberControl.KnowledgeStore
import CyberControl.Transition

/-! # Builds and loads of one process

`KnowledgeBaseLifecycleService.build_and_activate` (`lifecycle.py`) and
`KnowledgeRetrievalService.load_active` (`retrieval_service.py`) over the tables of a tenant and course, with
the `HotReloadableRAGIndex` and the cache of their process.  A step takes one call from one await to the next. -/

namespace CyberControl.Knowledge.Activation

open Transition

/-! ### States -/

/-- `LoadedKnowledgeBase`; its index is of the knowledge base of its first manifest. -/
structure Loaded where
  activationId : ℕ
  activationVersion : ℕ
  knowledgeBase : KnowledgeBaseVersion
  manifest : IndexBuildManifest

/-- Where a call waits.  A build: before `_load_build_inputs`, before `completed_result`, before its index is
built and staged, before `execute`, before `execute` returns.  A load: in `_cache_matches_activation` before
and under the lock, for the lock, in `_read_active_metadata`, before `execute` of `_persist_recovery`, in
`_latest_manifest` with so many reads left, before the end of `_persist_recovery`. -/
inductive Phase where
  | inputs (command : BuildCommand) (key : String)
  | replaying (command : BuildCommand) (key : String) (inputs : BuildInputs)
  | building (command : BuildCommand) (key : String) (inputs : BuildInputs)
  | staged (command : BuildCommand) (key : String) (inputs : BuildInputs) (chunkCount : ℕ)
      (shards : List IndexShardManifest)
  | swapping (knowledgeBaseVersionId : ℕ) (result : KnowledgeBaseBuildResult)
  | comparing (cached : Loaded)
  | waiting
  | comparingLocked (cached : Loaded)
  | reading
  | restoring (loaded : Loaded)
  | recovering (loaded : Loaded)
  | rereading (loaded : Loaded) (readyVersion reads : ℕ)
  | settling (loaded : Loaded)
  | over

/-- The load holds the lock of the course. -/
def Phase.locked : Phase → Bool
  | .comparingLocked _ | .reading | .restoring _ | .recovering _ | .rereading _ _ _ | .settling _ => true
  | _ => false

def Phase.isOver : Phase → Bool
  | .over => true
  | _ => false

/-- `active` is the knowledge base of the index in `HotReloadableRAGIndex`, `cached` is `_loaded`, `built`
says whether a build has committed in this process. -/
structure State where
  store : Store
  active : Option ℕ
  cached : Option Loaded
  calls : List Phase
  built : Bool

def initial : State := ⟨.empty, none, none, [], false⟩

def State.setPhase (s : State) (c : ℕ) (phase : Phase) : State :=
  { s with calls := s.calls.set c phase }

/-! ### Steps -/

/-- `_cache_matches_activation` -/
def matchesActivation (s : Store) (cached : Loaded) : Bool :=
  match s.latestActivation with
  | none => false
  | some activation =>
    activation.activationId = cached.activationId &&
      activation.activationVersion = cached.activationVersion &&
      activation.knowledgeBaseVersionId = cached.knowledgeBase.knowledgeBaseVersionId

/-- `_read_active_metadata` up to the restoration. -/
def readActiveMetadata (s : Store) : Except Exn Loaded :=
  match s.latestActivation with
  | none => .error (notFound "No active local knowledge base exists for the tenant and course.")
  | some activation =>
    match s.knowledgeBase activation.knowledgeBaseVersionId with
    | none => .error (unavailable "Active activation points to a missing knowledge base.")
    | some knowledgeBase =>
      match s.latestManifest knowledgeBase.indexBuildManifestId with
      | none => .error (unavailable "Active knowledge base does not have a READY index manifest.")
      | some manifest =>
        if manifest.state ≠ .READY then
          .error (unavailable "Active knowledge base does not have a READY index manifest.")
        else .ok ⟨activation.activationId, activation.activationVersion, knowledgeBase, manifest⟩

/-- `isinstance(exc, LiyanError) and exc.code == ErrorCode.TOPIC4_CONFLICT`. -/
def isConflict : Exn → Bool
  | .liyan e => e.code = .TOPIC4_CONFLICT
  | _ => false

inductive Action where
  | build (command : BuildCommand) (key : String)
  | load
  | loadInputs (c : ℕ) (catalog : Catalog)
  | replay (c : ℕ)
  | stage (c : ℕ) (chunkCount : ℕ) (shards : List IndexShardManifest)
  | commit (c : ℕ) (catalog : Catalog) (now : ℕ)
  | swap (c : ℕ)
  | compare (c : ℕ)
  | acquire (c : ℕ)
  | readMetadata (c : ℕ)
  | restore (c : ℕ) (recoveryRequired : Bool)
  | recover (c : ℕ) (shards : Option (List IndexShardManifest)) (now : ℕ)
  | reread (c : ℕ)
  | settle (c : ℕ)
  | fail (c : ℕ)
  | restart

section step
variable (ids : Identifiers) (recoveryKey : ℕ → ℕ → String) (s : State) (c : ℕ)

/-- `_load_build_inputs` -/
def stepInputs (catalog : Catalog) : Option State :=
  match s.calls[c]? with
  | some (.inputs command key) =>
    match loadBuildInputs s.store catalog command with
    | .error _ => some (s.setPhase c .over)
    | .ok inputs => some (s.setPhase c (.replaying command key inputs))
  | _ => none

/-- `completed_result`, after which a repeated build returns. -/
def stepReplay : Option State :=
  match s.calls[c]? with
  | some (.replaying command key inputs) =>
    match completedResult s.store key (buildRequest command inputs) with
    | .ok none => some (s.setPhase c (.building command key inputs))
    | _ => some (s.setPhase c .over)
  | _ => none

/-- The transaction of `build_and_activate`. -/
def stepCommit (catalog : Catalog) (now : ℕ) : Option State :=
  match s.calls[c]? with
  | some (.staged command key inputs chunkCount shards) =>
    match execute s.store key (buildRequest command inputs)
        (buildCallback ids command inputs catalog chunkCount shards now) with
    | .ok (store, .built result) =>
      some { s.setPhase c (.swapping (ids.knowledgeBaseId command.version) result) with
        store := store
        built := s.built || (s.store.idempotency key).isNone }
    | _ => some (s.setPhase c .over)
  | _ => none

/-- `self._indexes.activate(index)`, after which the build returns. -/
def stepSwap : Option State :=
  match s.calls[c]? with
  | some (.swapping knowledgeBaseVersionId _) =>
    some { s.setPhase c .over with active := some knowledgeBaseVersionId }
  | _ => none

/-- `_cache_matches_activation`, after which `load_active` may return. -/
def stepCompare : Option State :=
  match s.calls[c]? with
  | some (.comparing cached) =>
    some (s.setPhase c (if matchesActivation s.store cached then .over else .waiting))
  | some (.comparingLocked cached) =>
    some (s.setPhase c (if matchesActivation s.store cached then .over else .reading))
  | _ => none

def stepAcquire : Option State :=
  match s.calls[c]? with
  | some .waiting =>
    if s.calls.any (·.locked) then none
    else some (s.setPhase c (s.cached.elim .reading .comparingLocked))
  | _ => none

def stepReadMetadata : Option State :=
  match s.calls[c]? with
  | some .reading =>
    match readActiveMetadata s.store with
    | .error _ => some (s.setPhase c .over)
    | .ok loaded => some (s.setPhase c (.restoring loaded))
  | _ => none

/-- The index is restored and activated. -/
def stepRestore (recoveryRequired : Bool) : Option State :=
  match s.calls[c]? with
  | some (.restoring loaded) =>
    let s := { s with active := some loaded.manifest.knowledgeBaseVersionId }
    if recoveryRequired then some (s.setPhase c (.recovering loaded))
    else some { s.setPhase c .over with cached := some loaded }
  | _ => none

/-- The transaction of `_persist_recovery`; without shards the index cannot be serialized. -/
def stepRecover (shards : Option (List IndexShardManifest)) (now : ℕ) : Option State :=
  match s.calls[c]? with
  | some (.recovering loaded) =>
    let readyVersion := loaded.manifest.versionCas + 2
    match shards with
    | none => some (s.setPhase c (.settling loaded))
    | some shards =>
      match execute s.store (recoveryKey loaded.manifest.indexBuildManifestId readyVersion)
          (recoveryRequest loaded.manifest)
          (recoveryCallback loaded.knowledgeBase loaded.manifest shards now) with
      | .ok (store, .recovered (some ready)) =>
        if ready.indexBuildManifestId ≠ loaded.manifest.indexBuildManifestId ∨
            ready.knowledgeBaseVersionId ≠ loaded.knowledgeBase.knowledgeBaseVersionId ∨
            ready.state ≠ .READY ∨ ready.versionCas < readyVersion then
          some { s.setPhase c .over with store := store }
        else some { s.setPhase c (.settling { loaded with manifest := ready }) with store := store }
      | .ok (store, _) => some { s.setPhase c (.rereading loaded readyVersion 1) with store := store }
      | .error e =>
        if isConflict e then some (s.setPhase c (.rereading loaded readyVersion 5))
        else some (s.setPhase c .over)
  | _ => none

/-- One read of `_latest_manifest` after the recovery of another loader. -/
def stepReread : Option State :=
  match s.calls[c]? with
  | some (.rereading loaded readyVersion (reads + 1)) =>
    let persisted := (s.store.latestManifest loaded.manifest.indexBuildManifestId).filter fun m =>
      m.state = .READY ∧ readyVersion ≤ m.versionCas
    match persisted, reads with
    | some manifest, _ => some (s.setPhase c (.settling { loaded with manifest }))
    | none, 0 => some (s.setPhase c (.settling loaded))
    | none, reads + 1 => some (s.setPhase c (.rereading loaded readyVersion (reads + 1)))
  | _ => none

/-- `self._loaded[key] = loaded`, after which `load_active` returns. -/
def stepSettle : Option State :=
  match s.calls[c]? with
  | some (.settling loaded) => some { s.setPhase c .over with cached := some loaded }
  | _ => none

/-- An await of the call raises, or the call is cancelled. -/
def stepFail : Option State :=
  match s.calls[c]? with
  | none | some .over => none
  | some _ => some (s.setPhase c .over)

def step : Action → Option State
  | .build command key => some { s with calls := s.calls ++ [.inputs command key] }
  | .load => some { s with calls := s.calls ++ [s.cached.elim .waiting .comparing] }
  | .loadInputs c catalog => stepInputs s c catalog
  | .replay c => stepReplay s c
  | .stage c chunkCount shards =>
    match s.calls[c]? with
    | some (.building command key inputs) =>
      some (s.setPhase c (.staged command key inputs chunkCount shards))
    | _ => none
  | .commit c catalog now => stepCommit ids s c catalog now
  | .swap c => stepSwap s c
  | .compare c => stepCompare s c
  | .acquire c => stepAcquire s c
  | .readMetadata c => stepReadMetadata s c
  | .restore c recoveryRequired => stepRestore s c recoveryRequired
  | .recover c shards now => stepRecover recoveryKey s c shards now
  | .reread c => stepReread s c
  | .settle c => stepSettle s c
  | .fail c => stepFail s c
  | .restart => some { store := s.store, active := none, cached := none, calls := [], built := false }

end step

end CyberControl.Knowledge.Activation
