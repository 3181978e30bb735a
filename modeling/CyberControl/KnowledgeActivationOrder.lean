import CyberControl.KnowledgeActivation

/-! # The order of activations -/

namespace CyberControl.Knowledge.Activation

open Transition Versions

variable {ids : Identifiers} {recoveryKey : ℕ → ℕ → String}

/-! ### Tables -/

/-- The activations are numbered 1, …, n and each replaces the one before it. -/
abbrev Linear (activations : List KnowledgeBaseActivation) : Prop :=
  Chained (·.activationVersion) (·.activationId) (·.replacesActivationId) activations

/-- The recorded result of a build is of a committed activation of the knowledge base with its label. -/
def Recorded (ids : Identifiers) (s : Store) : Prop :=
  ∀ (key version : String) (sources : List ℕ) (snapshot : ℕ) (digest : String) (expected : Option ℕ)
    (result : KnowledgeBaseBuildResult),
    s.idempotency key = some ⟨.buildActivate version sources snapshot digest expected, .built result⟩ →
      result.activation ∈ s.activations ∧
        result.activation.knowledgeBaseVersionId = ids.knowledgeBaseId version

/-- What holds of the tables of every committed state. -/
structure Sound (ids : Identifiers) (s : Store) : Prop where
  linear : Linear s.activations
  known : ∀ a ∈ s.activations, ∃ k ∈ s.knowledgeBases, k.knowledgeBaseVersionId = a.knowledgeBaseVersionId
  once : (s.activations.map (·.knowledgeBaseVersionId)).Nodup
  built : ∀ k ∈ s.knowledgeBases, ∃ m ∈ s.manifests,
    m.indexBuildManifestId = k.indexBuildManifestId ∧ m.versionCas = 1
  first : ∀ m ∈ s.manifests, ∃ f ∈ s.manifests,
    f.indexBuildManifestId = m.indexBuildManifestId ∧ f.versionCas = 1
  bound : ∀ k ∈ s.knowledgeBases, ∀ m ∈ s.manifests,
    m.indexBuildManifestId = k.indexBuildManifestId →
      m.knowledgeBaseVersionId = k.knowledgeBaseVersionId
  recorded : Recorded ids s

/-- What a transaction keeps of the tables. -/
structure Grows (s s' : Store) : Prop where
  knowledgeBases : s.knowledgeBases ⊆ s'.knowledgeBases
  activations : s.activations ⊆ s'.activations

theorem Grows.refl (s : Store) : Grows s s := ⟨List.Subset.refl _, List.Subset.refl _⟩

theorem sound_empty : Sound ids .empty where
  linear := trivial
  known := fun _ h => absurd h List.not_mem_nil
  once := List.nodup_nil
  built := fun _ h => absurd h List.not_mem_nil
  first := fun _ h => absurd h List.not_mem_nil
  bound := fun _ h => absurd h List.not_mem_nil
  recorded := nofun

variable {command : BuildCommand} {key : String} {shards : List IndexShardManifest} {inputs : BuildInputs}

variable {now : ℕ}

section tables
variable {s s' : Store} (h : Sound ids s)

include h

theorem Sound.latest : s.latestActivation = s.activations.head? := h.linear.latest

theorem Sound.eq_of_knowledgeBase {a b : KnowledgeBaseActivation} (ha : a ∈ s.activations)
    (hb : b ∈ s.activations) (hab : a.knowledgeBaseVersionId = b.knowledgeBaseVersionId) : a = b :=
  List.inj_on_of_nodup_map h.once ha hb hab

theorem Sound.eq_of_version {a b : KnowledgeBaseActivation} (ha : a ∈ s.activations)
    (hb : b ∈ s.activations) (hab : a.activationVersion = b.activationVersion) : a = b :=
  List.inj_on_of_nodup_map h.linear.versions_nodup ha hb hab

theorem Sound.follows (identifier now : ℕ) :
    Follows (·.activationVersion) (·.activationId) (·.replacesActivationId)
      (nextActivation ids identifier s.latestActivation now) s.activations.head? := by
  rw [h.latest]
  cases s.activations.head? with
  | none => exact ⟨rfl, rfl⟩
  | some latest => exact ⟨rfl, rfl⟩

theorem Sound.build {chunkCount now : ℕ}
    (hcommit : appendBuild ids command inputs (buildResult ids command inputs chunkCount shards now s) s =
      .ok s') :
    Sound ids { s' with
      idempotency := Function.update s'.idempotency key (some ⟨buildRequest command inputs,
        .built (buildResult ids command inputs chunkCount shards now s)⟩) } := by
  obtain ⟨hknowledgeBase, hmanifest, rfl⟩ := appendBuild_ok hcommit
  have hfresh : ∀ m ∈ s.manifests,
      m.indexBuildManifestId ≠ ids.manifestId (ids.knowledgeBaseId command.version) := by
    intro m hm hid
    obtain ⟨f, hf, hfid, hfirst⟩ := h.first m hm
    exact (hmanifest f hf (hfid.trans hid)).1 hfirst
  have hunbuilt : ∀ k ∈ s.knowledgeBases,
      k.indexBuildManifestId ≠ ids.manifestId (ids.knowledgeBaseId command.version) := by
    intro k hk hid
    obtain ⟨m, hm, hmid, -⟩ := h.built k hk
    exact hfresh m hm (hmid.trans hid)
  have hnew : ∀ a ∈ s.activations, a.knowledgeBaseVersionId ≠ ids.knowledgeBaseId command.version := by
    intro a ha heq
    obtain ⟨k, hk, hkid⟩ := h.known a ha
    exact hknowledgeBase k hk (hkid.trans heq)
  refine ⟨⟨h.follows _ now, h.linear⟩, ?_, ?_, ?_, ?_, ?_, ?_⟩
  · intro a ha
    rcases List.mem_cons.mp ha with rfl | ha
    · exact ⟨_, List.mem_cons_self, rfl⟩
    · obtain ⟨k, hk, hkid⟩ := h.known a ha
      exact ⟨k, List.mem_cons_of_mem _ hk, hkid⟩
  · refine List.nodup_cons.mpr ⟨fun hmem => ?_, h.once⟩
    obtain ⟨a, ha, heq⟩ := List.mem_map.mp hmem
    exact hnew a ha heq
  · intro k hk
    rcases List.mem_cons.mp hk with rfl | hk
    · exact ⟨buildingManifest ids command inputs, by simp, rfl, rfl⟩
    · obtain ⟨m, hm, hmid⟩ := h.built k hk
      exact ⟨m, by simp [hm], hmid⟩
  · intro m hm
    rcases List.mem_cons.mp hm with rfl | hm
    · exact ⟨buildingManifest ids command inputs, by simp, rfl, rfl⟩
    rcases List.mem_cons.mp hm with rfl | hm
    · exact ⟨buildingManifest ids command inputs, by simp, rfl, rfl⟩
    · obtain ⟨f, hf, hfid⟩ := h.first m hm
      exact ⟨f, by simp [hf], hfid⟩
  · intro k hk m hm hid
    rcases List.mem_cons.mp hk with rfl | hk
    · rcases List.mem_cons.mp hm with rfl | hm
      · rfl
      rcases List.mem_cons.mp hm with rfl | hm
      · rfl
      · exact absurd hid (hfresh m hm)
    · rcases List.mem_cons.mp hm with rfl | hm
      · exact absurd hid.symm (hunbuilt k hk)
      rcases List.mem_cons.mp hm with rfl | hm
      · exact absurd hid.symm (hunbuilt k hk)
      · exact h.bound k hk m hm hid
  · intro other version sources snapshot digest expected result hrecord
    dsimp only at hrecord
    by_cases hother : other = key
    · subst hother
      rw [Function.update_self] at hrecord
      cases hrecord
      exact ⟨List.mem_cons_self, rfl⟩
    · rw [Function.update_of_ne hother] at hrecord
      obtain ⟨hmem, hid⟩ := h.recorded other _ _ _ _ _ result hrecord
      exact ⟨List.mem_cons_of_mem _ hmem, hid⟩

theorem Sound.recover {knowledgeBase : KnowledgeBaseVersion} {old : IndexBuildManifest}
    {result : Result}
    (hknowledgeBase : knowledgeBase ∈ s.knowledgeBases)
    (hold : old.indexBuildManifestId = knowledgeBase.indexBuildManifestId)
    (hcommit : recoveryCallback knowledgeBase old shards now s = .ok (s', result)) :
    Sound ids { s' with
      idempotency := Function.update s'.idempotency key (some ⟨recoveryRequest old, result⟩) } := by
  have hrecorded : Recorded ids { s with
      idempotency := Function.update s.idempotency key (some ⟨recoveryRequest old, result⟩) } := by
    intro other version sources snapshot digest expected built hrecord
    dsimp only at hrecord
    by_cases hother : other = key
    · subst hother
      rw [Function.update_self] at hrecord
      cases hrecord
    · rw [Function.update_of_ne hother] at hrecord
      exact h.recorded other _ _ _ _ _ built hrecord
  obtain ⟨-, rfl, -⟩ | ⟨-, rfl, -⟩ := recoveryCallback_ok hcommit
  · exact ⟨h.linear, h.known, h.once, h.built, h.first, h.bound, hrecorded⟩
  obtain ⟨f, hf, hfid, hfirst⟩ := h.built knowledgeBase hknowledgeBase
  have hother : ∀ k ∈ s.knowledgeBases, k.indexBuildManifestId = old.indexBuildManifestId →
      k.knowledgeBaseVersionId = knowledgeBase.knowledgeBaseVersionId := by
    intro k hk hid
    rw [← h.bound k hk f hf (by rw [hfid, hid, hold]), h.bound knowledgeBase hknowledgeBase f hf hfid]
  refine ⟨h.linear, h.known, h.once, ?_, ?_, ?_, hrecorded⟩
  · intro k hk
    obtain ⟨m, hm, hmid⟩ := h.built k hk
    exact ⟨m, by simp [hm], hmid⟩
  · intro m hm
    rcases List.mem_cons.mp hm with rfl | hm
    · exact ⟨f, by simp [hf], hfid.trans hold.symm, hfirst⟩
    rcases List.mem_cons.mp hm with rfl | hm
    · exact ⟨f, by simp [hf], hfid.trans hold.symm, hfirst⟩
    · obtain ⟨g, hg, hgid⟩ := h.first m hm
      exact ⟨g, by simp [hg], hgid⟩
  · intro k hk m hm hid
    rcases List.mem_cons.mp hm with rfl | hm
    · exact (hother k hk hid.symm).symm
    rcases List.mem_cons.mp hm with rfl | hm
    · exact (hother k hk hid.symm).symm
    · exact h.bound k hk m hm hid

end tables

/-! ### Calls -/

/-- A loaded knowledge base with its manifest, and the activation that it was loaded for. -/
structure LoadedSound (s : Store) (loaded : Loaded) : Prop where
  knowledgeBase : loaded.knowledgeBase ∈ s.knowledgeBases
  manifestId : loaded.manifest.indexBuildManifestId = loaded.knowledgeBase.indexBuildManifestId
  manifestOf : loaded.manifest.knowledgeBaseVersionId = loaded.knowledgeBase.knowledgeBaseVersionId
  activated : ∃ a ∈ s.activations, a.knowledgeBaseVersionId = loaded.knowledgeBase.knowledgeBaseVersionId

/-- What a waiting call holds of the tables. -/
def Phase.Holds (s : Store) : Phase → Prop
  | .swapping k result => result.activation ∈ s.activations ∧ result.activation.knowledgeBaseVersionId = k
  | .restoring loaded | .recovering loaded => LoadedSound s loaded
  | _ => True

structure Invariant (ids : Identifiers) (s : State) : Prop where
  sound : Sound ids s.store
  holds : ∀ phase ∈ s.calls, phase.Holds s.store
  active : ∀ k ∈ s.active, ∃ a ∈ s.store.activations, a.knowledgeBaseVersionId = k

variable {s s' : Store}

theorem LoadedSound.grows (hgrows : Grows s s') {loaded : Loaded} (h : LoadedSound s loaded) :
    LoadedSound s' loaded := by
  obtain ⟨a, ha, hid⟩ := h.activated
  exact ⟨hgrows.knowledgeBases h.knowledgeBase, h.manifestId, h.manifestOf, a, hgrows.activations ha, hid⟩

variable {phase : Phase}

theorem Phase.Holds.grows (hgrows : Grows s s') (h : phase.Holds s) :
    phase.Holds s' := by
  cases phase with
  | swapping => exact ⟨hgrows.activations h.1, h.2⟩
  | restoring => exact LoadedSound.grows hgrows h
  | recovering => exact LoadedSound.grows hgrows h
  | _ => trivial

theorem Sound.loaded {s : Store} (h : Sound ids s) {loaded : Loaded}
    (hread : readActiveMetadata s = .ok loaded) : LoadedSound s loaded := by
  unfold readActiveMetadata at hread
  split at hread
  next => cases hread
  next activation hactivation =>
    split at hread
    next => cases hread
    next knowledgeBase hknowledgeBase =>
      split at hread
      next => cases hread
      next manifest hmanifest =>
        split_ifs at hread
        cases hread
        have hk := List.mem_of_find?_eq_some hknowledgeBase
        obtain ⟨hm, hid⟩ := List.mem_filter.mp (latestVersion_mem hmanifest)
        have hid := of_decide_eq_true hid
        have hkid : knowledgeBase.knowledgeBaseVersionId = activation.knowledgeBaseVersionId := by
          simpa using List.find?_some hknowledgeBase
        exact ⟨hk, hid, h.bound _ hk _ hm hid, activation, latestVersion_mem hactivation, hkid.symm⟩

variable {k : ℕ}

section calls
variable {s : State} (h : Invariant ids s) {c : ℕ}

include h

theorem Invariant.holdsAt (hc : s.calls[c]? = some phase) : phase.Holds s.store :=
  h.holds phase (List.mem_of_getElem? hc)

theorem Invariant.setPhase (hphase : phase.Holds s.store) :
    Invariant ids (s.setPhase c phase) := by
  refine ⟨h.sound, fun other hother => ?_, h.active⟩
  rcases List.mem_or_eq_of_mem_set hother with hother | rfl
  · exact h.holds other hother
  · exact hphase

theorem Invariant.append (hphase : phase.Holds s.store) :
    Invariant ids { s with calls := s.calls ++ [phase] } := by
  refine ⟨h.sound, fun other hother => ?_, h.active⟩
  rcases List.mem_append.mp hother with hother | hother
  · exact h.holds other hother
  · rw [List.mem_singleton.mp hother]
    exact hphase

theorem Invariant.grow {store : Store} (hsound : Sound ids store) (hgrows : Grows s.store store) :
    Invariant ids { s with store := store } := by
  refine ⟨hsound, fun phase hphase => (h.holds phase hphase).grows hgrows, fun k hk => ?_⟩
  obtain ⟨a, ha, hid⟩ := h.active k hk
  exact ⟨a, hgrows.activations ha, hid⟩

theorem Invariant.activate (hk : ∃ a ∈ s.store.activations, a.knowledgeBaseVersionId = k) :
    Invariant ids { s with active := some k } := by
  refine ⟨h.sound, h.holds, fun other hother => ?_⟩
  cases hother
  exact hk

end calls

/-! ### What a transaction of a call has done -/

/-- The call neither activates an index next nor has restored one. -/
def Phase.Plain : Phase → Prop
  | .swapping _ _ | .restoring _ | .recovering _ => False
  | _ => True

theorem Phase.Plain.holds (h : phase.Plain) (s : Store) : phase.Holds s := by
  cases phase with
  | swapping => exact h.elim
  | restoring => exact h.elim
  | recovering => exact h.elim
  | _ => trivial

/-- The tables after a build of a staged call has committed. -/
structure Committed (ids : Identifiers) (s : Store) (command : BuildCommand) (key : String)
    (inputs : BuildInputs) (result : KnowledgeBaseBuildResult) (s' : Store) : Prop where
  fresh : ∀ expected ∈ command.expectedActivationVersion,
    expected = s.latestActivation.elim 0 (·.activationVersion)
  unrecorded : s.idempotency key = none
  appended : ∃ chunkCount shards now t,
    result = buildResult ids command inputs chunkCount shards now s ∧
      appendBuild ids command inputs result s = .ok t ∧
      s' = { t with idempotency :=
        Function.update t.idempotency key (some ⟨buildRequest command inputs, .built result⟩) }

variable {catalog : Catalog} {c : ℕ}

theorem stepCommit_cases {s s' : State}
    (hstep : stepCommit ids s c catalog now = some s') :
    ∃ command key inputs chunkCount shards, s.calls[c]? = some (.staged command key inputs chunkCount shards) ∧
      (s' = s.setPhase c .over ∨
        (∃ result, s.store.idempotency key = some ⟨buildRequest command inputs, .built result⟩ ∧
          s' = s.setPhase c (.swapping (ids.knowledgeBaseId command.version) result)) ∨
        ∃ result store, Committed ids s.store command key inputs result store ∧
          s' = { s.setPhase c (.swapping (ids.knowledgeBaseId command.version) result) with
            store := store, built := true }) := by
  unfold stepCommit at hstep
  split at hstep
  next command key inputs chunkCount shards hc =>
    refine ⟨command, key, inputs, chunkCount, shards, hc, ?_⟩
    split at hstep
    next store result hexecute =>
      cases hstep
      obtain ⟨rfl, hrecord⟩ | ⟨hnone, t, hcallback, rfl⟩ := execute_ok hexecute
      · refine Or.inr (Or.inl ⟨result, hrecord, ?_⟩)
        rw [hrecord, Option.isNone_some, Bool.or_false]
        rfl
      · obtain ⟨hfresh, hresult, happend⟩ := buildCallback_ok hcallback
        have hcommit : Committed ids s.store command key inputs result { t with
            idempotency := Function.update t.idempotency key
              (some ⟨buildRequest command inputs, .built result⟩) } := by
          cases hresult
          exact ⟨hfresh, hnone, _, _, _, t, rfl, happend, rfl⟩
        refine Or.inr (Or.inr ⟨result, _, hcommit, ?_⟩)
        rw [hnone, Option.isNone_none, Bool.or_true]
    next =>
      cases hstep
      exact Or.inl rfl
  next => cases hstep

/-- The tables after `execute` of a recovery. -/
inductive Recovered (s : Store) (loaded : Loaded) : Store → Prop
  | unchanged : Recovered s loaded s
  | executed {key : String} {shards : List IndexShardManifest} {now : ℕ} {t : Store} {result : Result} :
      s.idempotency key = none →
      recoveryCallback loaded.knowledgeBase loaded.manifest shards now s = .ok (t, result) →
      Recovered s loaded { t with
        idempotency := Function.update t.idempotency key (some ⟨recoveryRequest loaded.manifest, result⟩) }

theorem recovered_of_execute {loaded : Loaded}
    {result : Result}
    (h : execute s key (recoveryRequest loaded.manifest)
      (recoveryCallback loaded.knowledgeBase loaded.manifest shards now) = .ok (s', result)) :
    Recovered s loaded s' := by
  obtain ⟨rfl, -⟩ | ⟨hnone, t, hcallback, rfl⟩ := execute_ok h
  · exact .unchanged
  · exact .executed hnone hcallback

theorem stepRecover_cases {s s' : State} {shards : Option (List IndexShardManifest)}
    (hstep : stepRecover recoveryKey s c shards now = some s') :
    ∃ loaded, s.calls[c]? = some (.recovering loaded) ∧ ∃ phase store, phase.Plain ∧
      s' = { s.setPhase c phase with store := store } ∧ Recovered s.store loaded store := by
  unfold stepRecover at hstep
  split at hstep
  next loaded hc =>
    refine ⟨loaded, hc, ?_⟩
    cases shards with
    | none =>
      cases hstep
      exact ⟨.settling loaded, s.store, trivial, rfl, .unchanged⟩
    | some shards =>
      dsimp only at hstep
      split at hstep
      next store ready hexecute =>
        split_ifs at hstep
        · cases hstep
          exact ⟨.over, store, trivial, rfl, recovered_of_execute hexecute⟩
        · cases hstep
          exact ⟨.settling _, store, trivial, rfl, recovered_of_execute hexecute⟩
      next store result _ hexecute =>
        cases hstep
        exact ⟨.rereading _ _ _, store, trivial, rfl, recovered_of_execute hexecute⟩
      next e hexecute =>
        split_ifs at hstep
        · cases hstep
          exact ⟨.rereading _ _ _, s.store, trivial, rfl, .unchanged⟩
        · cases hstep
          exact ⟨.over, s.store, trivial, rfl, .unchanged⟩
  next => cases hstep

variable {result : KnowledgeBaseBuildResult}

theorem Committed.sound (hcommit : Committed ids s command key inputs result s')
    (h : Sound ids s) : Sound ids s' := by
  obtain ⟨chunkCount, shards, now, t, rfl, happend, rfl⟩ := hcommit.appended
  exact h.build happend

theorem Committed.activations (hcommit : Committed ids s command key inputs result s') :
    s'.activations = result.activation :: s.activations ∧
      s'.knowledgeBases = result.knowledgeBase :: s.knowledgeBases ∧
      result.activation.knowledgeBaseVersionId = ids.knowledgeBaseId command.version := by
  obtain ⟨chunkCount, shards, now, t, rfl, happend, rfl⟩ := hcommit.appended
  obtain ⟨-, -, rfl⟩ := appendBuild_ok happend
  exact ⟨rfl, rfl, rfl⟩

theorem Committed.grows (hcommit : Committed ids s command key inputs result s') :
    Grows s s' := by
  obtain ⟨hactivations, hknowledgeBases, -⟩ := hcommit.activations
  refine ⟨?_, ?_⟩
  · rw [hknowledgeBases]
    exact List.subset_cons_self _ _
  · rw [hactivations]
    exact List.subset_cons_self _ _

theorem Recovered.sound {loaded : Loaded} (hrecovered : Recovered s loaded s')
    (h : Sound ids s) (hloaded : LoadedSound s loaded) : Sound ids s' := by
  cases hrecovered with
  | unchanged => exact h
  | executed hnone hcallback => exact h.recover hloaded.knowledgeBase hloaded.manifestId hcallback

theorem Recovered.frame {loaded : Loaded} (hrecovered : Recovered s loaded s') :
    s'.knowledgeBases = s.knowledgeBases ∧ s'.activations = s.activations := by
  cases hrecovered with
  | unchanged => exact ⟨rfl, rfl⟩
  | executed hnone hcallback =>
    obtain ⟨-, rfl, -⟩ | ⟨-, rfl, -⟩ := recoveryCallback_ok hcallback
    · exact ⟨rfl, rfl⟩
    · exact ⟨rfl, rfl⟩

/-! ### Steps -/

/-- The knowledge base whose index the action activates. -/
def activated (s : State) : Action → Option ℕ
  | .swap c =>
    match s.calls[c]? with
    | some (.swapping k _) => some k
    | _ => none
  | .restore c _ =>
    match s.calls[c]? with
    | some (.restoring loaded) => some loaded.manifest.knowledgeBaseVersionId
    | _ => none
  | _ => none

/-- The call is about to activate the index that it has built. -/
def Phase.isSwapping : Phase → Bool
  | .swapping _ _ => true
  | _ => false

/-- A build is not cut off between its commit and the activation of its index. -/
def Uninterrupted (s : State) : Action → Prop
  | .fail c => ∀ phase ∈ s.calls[c]?, phase.isSwapping = false
  | _ => True

instance (s : State) (a : Action) : Decidable (Uninterrupted s a) := by
  cases a with
  | fail c => exact inferInstanceAs (Decidable (∀ _ ∈ _, _))
  | _ => exact inferInstanceAs (Decidable True)

/-- A call that is about to activate its index goes on only by doing so, unless it is cut off. -/
def Keeps (s : State) (a : Action) (c : ℕ) : Prop :=
  Uninterrupted s a → ∀ k result, s.calls[c]? ≠ some (.swapping k result)

/-- What an action does. -/
inductive Moves (ids : Identifiers) (s : State) : Action → State → Prop
  | start {a : Action} (phase : Phase) : phase.Plain → activated s a = none →
      Moves ids s a { s with calls := s.calls ++ [phase] }
  | move {a : Action} (c : ℕ) (phase : Phase) (cached : Option Loaded) : phase.Holds s.store →
      Keeps s a c → activated s a = none → Moves ids s a { s.setPhase c phase with cached := cached }
  | commit {a : Action} (c : ℕ) {command : BuildCommand} {key : String} {inputs : BuildInputs}
      {chunkCount : ℕ} {shards : List IndexShardManifest} {result : KnowledgeBaseBuildResult} {store : Store} :
      s.calls[c]? = some (.staged command key inputs chunkCount shards) →
      Committed ids s.store command key inputs result store → activated s a = none →
      Moves ids s a { s.setPhase c (.swapping (ids.knowledgeBaseId command.version) result) with
        store := store, built := true }
  | recover {a : Action} (c : ℕ) (phase : Phase) {loaded : Loaded} {store : Store} : phase.Plain →
      Keeps s a c → LoadedSound s.store loaded → Recovered s.store loaded store → activated s a = none →
      Moves ids s a { s.setPhase c phase with store := store }
  | activate {a : Action} (c k : ℕ) (phase : Phase) (cached : Option Loaded) : phase.Holds s.store →
      (∃ b ∈ s.store.activations, b.knowledgeBaseVersionId = k) → activated s a = some k →
      (∀ other result, s.calls[c]? = some (.swapping other result) → other = k) →
      Moves ids s a { s.setPhase c phase with active := some k, cached := cached }
  | restart : Moves ids s .restart { store := s.store, active := none, cached := none, calls := [], built := false }

variable {a : Action}

theorem keeps_of {s : State} (hc : s.calls[c]? = some phase)
    (hphase : ∀ k result, phase ≠ .swapping k result) : Keeps s a c := by
  intro _ k result hswapping
  rw [hc] at hswapping
  exact hphase k result (Option.some.inj hswapping)

section moves
variable {s s' : State} (h : Invariant ids s) {c : ℕ}

theorem moves_inputs (hstep : stepInputs s c catalog = some s') :
    Moves ids s (.loadInputs c catalog) s' := by
  unfold stepInputs at hstep
  split at hstep
  next hc =>
    split at hstep
    next => cases hstep; exact .move c .over s.cached trivial (keeps_of hc nofun) rfl
    next => cases hstep; exact .move c _ s.cached trivial (keeps_of hc nofun) rfl
  next => cases hstep

theorem moves_replay (hstep : stepReplay s c = some s') : Moves ids s (.replay c) s' := by
  unfold stepReplay at hstep
  split at hstep
  next hc =>
    split at hstep
    next => cases hstep; exact .move c (.building _ _ _) s.cached trivial (keeps_of hc nofun) rfl
    next => cases hstep; exact .move c .over s.cached trivial (keeps_of hc nofun) rfl
  next => cases hstep

theorem moves_compare (hstep : stepCompare s c = some s') : Moves ids s (.compare c) s' := by
  unfold stepCompare at hstep
  split at hstep
  next hc =>
    cases hstep
    refine .move c _ s.cached ?_ (keeps_of hc nofun) rfl
    split_ifs <;> trivial
  next hc =>
    cases hstep
    refine .move c _ s.cached ?_ (keeps_of hc nofun) rfl
    split_ifs <;> trivial
  next => cases hstep

theorem moves_acquire (hstep : stepAcquire s c = some s') : Moves ids s (.acquire c) s' := by
  unfold stepAcquire at hstep
  split at hstep
  next hc =>
    split_ifs at hstep
    cases hstep
    refine .move c _ s.cached ?_ (keeps_of hc nofun) rfl
    cases s.cached <;> trivial
  next => cases hstep

theorem moves_reread (hstep : stepReread s c = some s') : Moves ids s (.reread c) s' := by
  unfold stepReread at hstep
  split at hstep
  next hc =>
    dsimp only at hstep
    split at hstep
    next => cases hstep; exact .move c (.settling _) s.cached trivial (keeps_of hc nofun) rfl
    next => cases hstep; exact .move c (.settling _) s.cached trivial (keeps_of hc nofun) rfl
    next => cases hstep; exact .move c (.rereading _ _ _) s.cached trivial (keeps_of hc nofun) rfl
  next => cases hstep

theorem moves_settle (hstep : stepSettle s c = some s') : Moves ids s (.settle c) s' := by
  unfold stepSettle at hstep
  split at hstep
  next loaded hc =>
    cases hstep
    exact .move c .over (some loaded) trivial (keeps_of hc nofun) rfl
  next => cases hstep

theorem moves_fail (hstep : stepFail s c = some s') : Moves ids s (.fail c) s' := by
  unfold stepFail at hstep
  split at hstep
  next => cases hstep
  next => cases hstep
  next phase hc _ _ =>
    cases hstep
    refine .move c .over s.cached trivial (fun huninterrupted k result hswapping => ?_) rfl
    have hfalse := huninterrupted _ hswapping
    cases hfalse

include h

theorem moves_commit (hstep : stepCommit ids s c catalog now = some s') :
    Moves ids s (.commit c catalog now) s' := by
  obtain ⟨command, key, inputs, chunkCount, shards, hc, hcases⟩ := stepCommit_cases hstep
  rcases hcases with rfl | ⟨result, hrecord, rfl⟩ | ⟨result, store, hcommit, rfl⟩
  · exact .move c .over s.cached trivial (keeps_of hc nofun) rfl
  · have hphase : Phase.Holds s.store (.swapping (ids.knowledgeBaseId command.version) result) :=
      h.sound.recorded _ _ _ _ _ _ result hrecord
    exact .move c _ s.cached hphase (keeps_of hc nofun) rfl
  · exact .commit c hc hcommit rfl

theorem moves_swap (hstep : stepSwap s c = some s') : Moves ids s (.swap c) s' := by
  unfold stepSwap at hstep
  split at hstep
  next k result hc =>
    cases hstep
    obtain ⟨hmem, hid⟩ := h.holdsAt hc
    refine .activate c k .over s.cached trivial ⟨_, hmem, hid⟩ (by simp [activated, hc]) ?_
    intro other result' hother
    rw [hc] at hother
    cases hother
    rfl
  next => cases hstep

theorem moves_readMetadata (hstep : stepReadMetadata s c = some s') :
    Moves ids s (.readMetadata c) s' := by
  unfold stepReadMetadata at hstep
  split at hstep
  next hc =>
    split at hstep
    next =>
      cases hstep
      exact .move c .over s.cached trivial (keeps_of hc nofun) rfl
    next loaded hread =>
      cases hstep
      have hphase : Phase.Holds s.store (.restoring loaded) := h.sound.loaded hread
      exact .move c _ s.cached hphase (keeps_of hc nofun) rfl
  next => cases hstep

theorem moves_restore {recoveryRequired : Bool} (hstep : stepRestore s c recoveryRequired = some s') :
    Moves ids s (.restore c recoveryRequired) s' := by
  unfold stepRestore at hstep
  split at hstep
  next loaded hc =>
    have hloaded : LoadedSound s.store loaded := h.holdsAt hc
    have hk : ∃ b ∈ s.store.activations,
        b.knowledgeBaseVersionId = loaded.manifest.knowledgeBaseVersionId := by
      rw [hloaded.manifestOf]
      exact hloaded.activated
    have hother : ∀ other result, s.calls[c]? = some (.swapping other result) →
        other = loaded.manifest.knowledgeBaseVersionId := by
      intro other result hswapping
      rw [hc] at hswapping
      cases hswapping
    dsimp only at hstep
    split_ifs at hstep
    · cases hstep
      exact .activate c _ (.recovering loaded) s.cached hloaded hk (by simp [activated, hc]) hother
    · cases hstep
      exact .activate c _ .over (some loaded) trivial hk (by simp [activated, hc]) hother
  next => cases hstep

theorem moves_recover {shards : Option (List IndexShardManifest)}
    (hstep : stepRecover recoveryKey s c shards now = some s') :
    Moves ids s (.recover c shards now) s' := by
  obtain ⟨loaded, hc, phase, store, hphase, rfl, hrecovered⟩ := stepRecover_cases hstep
  have hloaded : LoadedSound s.store loaded := h.holdsAt hc
  exact .recover c phase hphase (keeps_of hc nofun) hloaded hrecovered rfl

theorem moves_of_step (hstep : step ids recoveryKey s a = some s') : Moves ids s a s' := by
  cases a with
  | build command key => cases hstep; exact .start (.inputs command key) trivial rfl
  | load =>
    cases hstep
    refine .start _ ?_ rfl
    cases s.cached <;> trivial
  | loadInputs c catalog => exact moves_inputs hstep
  | replay c => exact moves_replay hstep
  | stage c chunkCount shards =>
    simp only [step] at hstep
    split at hstep
    next hc => cases hstep; exact .move c (.staged _ _ _ _ _) s.cached trivial (keeps_of hc nofun) rfl
    next => cases hstep
  | commit c catalog now => exact moves_commit h hstep
  | swap c => exact moves_swap h hstep
  | compare c => exact moves_compare hstep
  | acquire c => exact moves_acquire hstep
  | readMetadata c => exact moves_readMetadata h hstep
  | restore c recoveryRequired => exact moves_restore h hstep
  | recover c shards now => exact moves_recover h hstep
  | reread c => exact moves_reread hstep
  | settle c => exact moves_settle hstep
  | fail c => exact moves_fail hstep
  | restart => cases hstep; exact .restart

end moves

theorem Moves.grows {s s' : State} (hmoves : Moves ids s a s') : Grows s.store s'.store := by
  cases hmoves with
  | commit c hc hcommit hnone => exact hcommit.grows
  | recover c phase hphase hkeeps hloaded hrecovered hnone =>
    obtain ⟨hknowledgeBases, hactivations⟩ := hrecovered.frame
    exact ⟨hknowledgeBases ▸ List.Subset.refl _, hactivations ▸ List.Subset.refl _⟩
  | _ => exact Grows.refl _

/-- **Every step keeps the invariant.** -/
theorem Invariant.moves {s s' : State} (h : Invariant ids s) (hmoves : Moves ids s a s') :
    Invariant ids s' := by
  have hgrows := hmoves.grows
  cases hmoves with
  | start phase hphase hnone => exact h.append (hphase.holds _)
  | move c phase cached hphase hkeeps hnone =>
    have hset := h.setPhase (c := c) hphase
    exact ⟨hset.sound, hset.holds, hset.active⟩
  | @commit _ c command key inputs chunkCount shards result store hc hcommit hnone =>
    obtain ⟨hactivations, -, hid⟩ := hcommit.activations
    have hphase : Phase.Holds store (.swapping (ids.knowledgeBaseId command.version) result) :=
      ⟨by rw [hactivations]; exact List.mem_cons_self, hid⟩
    have hset := (h.grow (hcommit.sound h.sound) hgrows).setPhase (c := c) hphase
    exact ⟨hset.sound, hset.holds, hset.active⟩
  | recover c phase hphase hkeeps hloaded hrecovered hnone =>
    have hset := (h.grow (hrecovered.sound h.sound hloaded) hgrows).setPhase (c := c) (hphase.holds _)
    exact ⟨hset.sound, hset.holds, hset.active⟩
  | activate c k phase cached hphase hk hsome hother =>
    have hset := (h.setPhase (c := c) hphase).activate hk
    exact ⟨hset.sound, hset.holds, hset.active⟩
  | restart => exact ⟨h.sound, fun _ hphase => absurd hphase List.not_mem_nil, nofun⟩

theorem Invariant.step {s s' : State} (h : Invariant ids s)
    (hstep : Activation.step ids recoveryKey s a = some s') : Invariant ids s' :=
  h.moves (moves_of_step h hstep)

theorem invariant_initial : Invariant ids initial :=
  ⟨sound_empty, fun _ hphase => absurd hphase List.not_mem_nil, nofun⟩

theorem invariant_run {as : List Action} {s : State}
    (hrun : run (step ids recoveryKey) initial as = some s) : Invariant ids s :=
  run_invariant (fun _ _ _ h hstep => h.step hstep) invariant_initial hrun

/-! ### The order of the indexes -/

/-- The version of the activation of a knowledge base. -/
def versionOf (s : Store) (k : ℕ) : Option ℕ :=
  (s.activations.find? (·.knowledgeBaseVersionId = k)).map (·.activationVersion)

/-- The version of the activation whose index is active. -/
def activeActivation (s : State) : Option ℕ := s.active.bind (versionOf s.store)

/-- An index is activated only when none of a newer activation is active. -/
def InOrder (s : State) (a : Action) : Prop :=
  ∀ k ∈ activated s a, ∀ v ∈ activeActivation s, ∀ w ∈ versionOf s.store k, v ≤ w

instance (s : State) (a : Action) : Decidable (InOrder s a) := inferInstanceAs (Decidable (∀ _ ∈ _, _))

/-- The active index does not move back to an older activation. -/
def Forward (s s' : State) : Prop :=
  ∀ v ∈ activeActivation s, ∀ w ∈ activeActivation s', v ≤ w

theorem mem_versionOf {s : Store} (h : Sound ids s) {a : KnowledgeBaseActivation} (ha : a ∈ s.activations) :
    versionOf s a.knowledgeBaseVersionId = some a.activationVersion := by
  unfold versionOf
  cases hfind : s.activations.find? (·.knowledgeBaseVersionId = a.knowledgeBaseVersionId) with
  | none =>
    have hnone := List.find?_eq_none.mp hfind a ha
    simp at hnone
  | some b =>
    have hid : b.knowledgeBaseVersionId = a.knowledgeBaseVersionId := by
      simpa using List.find?_some hfind
    rw [h.eq_of_knowledgeBase (List.mem_of_find?_eq_some hfind) ha hid]
    rfl

theorem versionOf_grows (h : Sound ids s) (h' : Sound ids s') (hgrows : Grows s s')
    (hk : ∃ a ∈ s.activations, a.knowledgeBaseVersionId = k) : versionOf s' k = versionOf s k := by
  obtain ⟨a, ha, rfl⟩ := hk
  rw [mem_versionOf h ha, mem_versionOf h' (hgrows.activations ha)]

theorem activeActivation_grows {s s' : State} (h : Invariant ids s) (h' : Sound ids s'.store)
    (hgrows : Grows s.store s'.store) (hactive : s'.active = s.active) :
    activeActivation s' = activeActivation s := by
  unfold activeActivation
  rw [hactive]
  cases hk : s.active with
  | none => rfl
  | some k => exact versionOf_grows h.sound h' hgrows (h.active k hk)

/-- **A step moves forward exactly when it is in order.** -/
theorem forward_iff_inOrder {s s' : State} (h : Invariant ids s) (hmoves : Moves ids s a s') :
    Forward s s' ↔ InOrder s a := by
  have hunmoved : activated s a = none → s'.active = s.active → (Forward s s' ↔ InOrder s a) := by
    intro hnone hactive
    refine ⟨fun _ k hk => absurd hk (by simp [hnone]), fun _ v hv w hw => ?_⟩
    rw [activeActivation_grows h (h.moves hmoves).sound hmoves.grows hactive] at hw
    exact (Option.mem_unique hv hw).le
  cases hmoves with
  | start phase hphase hnone => exact hunmoved hnone rfl
  | move c phase cached hphase hkeeps hnone => exact hunmoved hnone rfl
  | commit c hc hcommit hnone => exact hunmoved hnone rfl
  | recover c phase hphase hkeeps hloaded hrecovered hnone => exact hunmoved hnone rfl
  | activate c k phase cached hphase hk hsome hother =>
    refine ⟨fun hforward l hl => ?_, fun horder => horder k hsome⟩
    rw [← Option.mem_unique hsome hl]
    exact hforward
  | restart => exact ⟨fun _ k hk => absurd hk (by simp [activated]), fun _ v _ w hw => absurd hw nofun⟩

/-! ### The latest activation -/

/-- When no call is in progress and a build has committed in this process, the active index is that of the
latest activation. -/
def Current (s : State) : Prop :=
  (∀ phase ∈ s.calls, phase.isOver = true) → s.built = true →
    s.active = s.store.latestActivation.map (·.knowledgeBaseVersionId)

/-- A call is about to activate the index of a knowledge base. -/
def Pending (calls : List Phase) (k : ℕ) : Prop :=
  ∃ (c : ℕ) (result : KnowledgeBaseBuildResult), calls[c]? = some (.swapping k result)

/-- The index of the latest activation is active or a call is about to activate it. -/
def Covered (s : State) : Prop :=
  s.built = true → ∃ latest ∈ s.store.activations.head?,
    s.active = some latest.knowledgeBaseVersionId ∨ Pending s.calls latest.knowledgeBaseVersionId

theorem Pending.append {calls : List Phase} (h : Pending calls k) (phase : Phase) :
    Pending (calls ++ [phase]) k := by
  obtain ⟨c, result, hc⟩ := h
  refine ⟨c, result, ?_⟩
  rw [List.getElem?_append_left (List.getElem?_eq_some_iff.mp hc).1]
  exact hc

theorem Pending.set {calls : List Phase} {k c : ℕ} (h : Pending calls k)
    (hc : ∀ result, calls[c]? ≠ some (.swapping k result)) : Pending (calls.set c phase) k := by
  obtain ⟨d, result, hd⟩ := h
  refine ⟨d, result, ?_⟩
  have hne : c ≠ d := by
    rintro rfl
    exact hc result hd
  exact (List.getElem?_set_ne hne).trans hd

/-- **In order and uninterrupted**, the index of the latest activation stays covered. -/
theorem Covered.moves {s s' : State} (h : Invariant ids s) (hcovered : Covered s)
    (horder : InOrder s a) (huninterrupted : Uninterrupted s a) (hmoves : Moves ids s a s') : Covered s' := by
  cases hmoves with
  | start phase hphase hnone =>
    intro hbuilt
    obtain ⟨latest, hlatest, hcase⟩ := hcovered hbuilt
    exact ⟨latest, hlatest, hcase.imp id fun hpending => hpending.append phase⟩
  | move c phase cached hphase hkeeps hnone =>
    intro hbuilt
    obtain ⟨latest, hlatest, hcase⟩ := hcovered hbuilt
    exact ⟨latest, hlatest, hcase.imp id fun hpending => hpending.set (hkeeps huninterrupted _)⟩
  | @commit _ c command key inputs chunkCount shards result store hc hcommit hnone =>
    intro _
    obtain ⟨hactivations, -, hid⟩ := hcommit.activations
    refine ⟨result.activation, by rw [hactivations]; rfl, Or.inr ⟨c, result, ?_⟩⟩
    rw [hid]
    exact List.getElem?_set_self (List.getElem?_eq_some_iff.mp hc).1
  | recover c phase hphase hkeeps hloaded hrecovered hnone =>
    intro hbuilt
    obtain ⟨latest, hlatest, hcase⟩ := hcovered hbuilt
    exact ⟨latest, by rwa [hrecovered.frame.2],
      hcase.imp id fun hpending => hpending.set (hkeeps huninterrupted _)⟩
  | activate c k phase cached hphase hk hsome hother =>
    intro hbuilt
    obtain ⟨latest, hlatest, hcase⟩ := hcovered hbuilt
    obtain ⟨b, hb, rfl⟩ := hk
    have hmem := List.mem_of_mem_head? hlatest
    by_cases heq : b.knowledgeBaseVersionId = latest.knowledgeBaseVersionId
    · exact ⟨latest, hlatest, Or.inl (congrArg some heq)⟩
    refine ⟨latest, hlatest, Or.inr ?_⟩
    rcases hcase with hactive | hpending
    · -- The index of the latest activation is active, so that no older one may be activated.
      have hle : latest.activationVersion ≤ b.activationVersion := by
        refine horder _ hsome _ ?_ _ (mem_versionOf h.sound hb)
        rw [activeActivation, hactive]
        exact mem_versionOf h.sound hmem
      have hge : b.activationVersion ≤ latest.activationVersion :=
        le_latestVersion (h.sound.latest.trans hlatest) hb
      rw [h.sound.eq_of_version hb hmem (le_antisymm hge hle)] at heq
      exact absurd rfl heq
    · refine hpending.set fun result hswapping => heq ?_
      exact (hother _ result hswapping).symm
  | restart => exact nofun

theorem Covered.current {s : State} (h : Invariant ids s) (hcovered : Covered s) : Current s := by
  intro hover hbuilt
  obtain ⟨latest, hlatest, hactive | ⟨c, result, hc⟩⟩ := hcovered hbuilt
  · rw [hactive, h.sound.latest, Option.mem_def.mp hlatest]
    rfl
  · have hswapping := hover _ (List.mem_of_getElem? hc)
    cases hswapping

/-! ### Stale builds -/

/-- A build with a stale `expected_activation_version` commits nothing. -/
def StaleCommitsNothing (s : State) (a : Action) (s' : State) : Prop :=
  ∀ c catalog now command key inputs chunkCount shards,
    a = .commit c catalog now → s.calls[c]? = some (.staged command key inputs chunkCount shards) →
    (∃ expected ∈ command.expectedActivationVersion,
      expected ≠ s.store.latestActivation.elim 0 (·.activationVersion)) →
    s'.store = s.store

theorem staleCommitsNothing {s s' : State} (hstep : step ids recoveryKey s a = some s') :
    StaleCommitsNothing s a s' := by
  rintro c catalog now command key inputs chunkCount shards rfl hc ⟨expected, hexpected, hstale⟩
  obtain ⟨_, _, _, _, _, hc', hcases⟩ := stepCommit_cases hstep
  rw [hc] at hc'
  cases hc'
  rcases hcases with rfl | ⟨result, hrecord, rfl⟩ | ⟨result, store, hcommit, rfl⟩
  · rfl
  · rfl
  · exact absurd (hcommit.fresh expected hexpected) hstale

/-! ### Runs -/

/-- **The activations are linear** whatever the calls do, and a stale build commits nothing; the active index
never moves back exactly when the indexes are activated in the order of their activations; and when, besides,
no build is cut off before it activates its index, the active index is that of the latest activation whenever
no call is in progress. -/
theorem activation_followed_iff {as : List Action} {s : State}
    (hrun : run (step ids recoveryKey) initial as = some s) :
    (Linear s.store.activations ∧
      (s.store.activations.map (·.activationVersion)).reverse = List.range' 1 s.store.activations.length) ∧
    AllSteps (step ids recoveryKey)
      (fun s a => ∀ s', step ids recoveryKey s a = some s' → StaleCommitsNothing s a s') initial as ∧
    (AllSteps (step ids recoveryKey)
      (fun s a => ∀ s', step ids recoveryKey s a = some s' → Forward s s') initial as ↔
        AllSteps (step ids recoveryKey) InOrder initial as) ∧
    (AllSteps (step ids recoveryKey) (fun s a => InOrder s a ∧ Uninterrupted s a) initial as → Current s) := by
  have hinvariant : Invariant ids s := invariant_run hrun
  refine ⟨⟨hinvariant.sound.linear, hinvariant.sound.linear.versions⟩, ?_, ?_, fun hall => ?_⟩
  · exact allSteps_of_forall (fun _ _ _ hstep => staleCommitsNothing hstep) _ _
  · refine allSteps_congr (I := Invariant ids) (fun t a t' ht hstep => ⟨ht.step hstep, ?_⟩)
      invariant_initial hrun
    rw [← forward_iff_inOrder ht (moves_of_step ht hstep)]
    refine ⟨fun hforward => hforward t' hstep, fun hforward u hu => ?_⟩
    rw [← Option.some.inj (hstep.symm.trans hu)]
    exact hforward
  · have hcovered : Invariant ids s ∧ Covered s := by
      refine run_invariant_of (I := fun t => Invariant ids t ∧ Covered t) ?_
        ⟨invariant_initial, nofun⟩ hall hrun
      rintro t a t' ⟨ht, hc⟩ ⟨horder, huninterrupted⟩ hstep
      exact ⟨ht.step hstep, hc.moves ht horder huninterrupted (moves_of_step ht hstep)⟩
    exact hcovered.2.current hinvariant

/-! ### Overlapping builds -/

/-- Identifiers for labels of different lengths. -/
def sampleIds : Identifiers := ⟨String.length, (· + 100), fun k version => 1000 * k + version, 7⟩

def sampleRecoveryKey (manifestId readyVersion : ℕ) : String :=
  "topic4:c2:index-recovery:" ++ toString manifestId ++ ":" ++ toString readyVersion

def sampleCommand (version : String) : BuildCommand :=
  ⟨version, [1], none, none, List.cons_ne_nil _ _, by simp, List.nodup_singleton 1⟩

def sampleCatalog : Catalog :=
  ⟨some ⟨5, true, 1, "0"⟩, fun _ => some ⟨5, true, 1, "0"⟩, fun i => some ⟨i, true, false⟩⟩

/-- The steps of a build up to its commit. -/
def sampleBuild (c : ℕ) : List Action :=
  [.loadInputs c sampleCatalog, .replay c, .stage c 1 [], .commit c sampleCatalog 0]

/-- Two builds, each of which activates its index before the next one commits, and a load. -/
def separate : List Action :=
  .build (sampleCommand "a") "00000000-0000-0000-0000-000000000001" :: sampleBuild 0 ++ [.swap 0] ++
    .build (sampleCommand "ab") "00000000-0000-0000-0000-000000000002" :: sampleBuild 1 ++ [.swap 1] ++
    [.load, .acquire 2, .readMetadata 2, .restore 2 false]

/-- Two builds, the first of which activates its index after the second. -/
def overlapping : List Action :=
  [.build (sampleCommand "a") "00000000-0000-0000-0000-000000000001",
    .build (sampleCommand "ab") "00000000-0000-0000-0000-000000000002"] ++
    sampleBuild 0 ++ sampleBuild 1 ++ [.swap 1, .swap 0]

/-- Whether no call is in progress, whether a build has committed, the knowledge base of the active index and
that of the latest activation. -/
def State.outcome (s : State) : Bool × Bool × Option ℕ × Option ℕ :=
  (s.calls.all (·.isOver), s.built, s.active,
    s.store.latestActivation.map (·.knowledgeBaseVersionId))

theorem separate_outcome : (run (step sampleIds sampleRecoveryKey) initial separate).map State.outcome =
    some (true, true, some 2, some 2) := by
  decide +kernel

/-- Builds that do not overlap are followed. -/
theorem activation_followed_separate :
    ∃ s, run (step sampleIds sampleRecoveryKey) initial separate = some s ∧ Current s := by
  obtain ⟨s, hs, -⟩ := Option.map_eq_some_iff.mp separate_outcome
  exact ⟨s, hs, (activation_followed_iff hs).2.2.2 (by decide +kernel)⟩

theorem overlapping_outcome : (run (step sampleIds sampleRecoveryKey) initial overlapping).map State.outcome =
    some (true, true, some 1, some 2) := by
  decide +kernel

/-- **The index of an older activation stays active** after overlapping builds. -/
theorem older_index_active :
    ∃ s, run (step sampleIds sampleRecoveryKey) initial overlapping = some s ∧ ¬ Current s ∧
      ¬ AllSteps (step sampleIds sampleRecoveryKey) InOrder initial overlapping := by
  obtain ⟨s, hs, houtcome⟩ := Option.map_eq_some_iff.mp overlapping_outcome
  simp only [State.outcome, Prod.mk.injEq, List.all_eq_true] at houtcome
  obtain ⟨hover, hbuilt, hactive, hlatest⟩ := houtcome
  refine ⟨s, hs, fun hcurrent => ?_, by decide +kernel⟩
  have heq := hcurrent hover hbuilt
  rw [hactive, hlatest] at heq
  cases heq

end CyberControl.Knowledge.Activation
