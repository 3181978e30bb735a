import CyberControl.ArtifactDocuments

/-! # Attempts that leave objects behind

Calls of `import_source` and `finalize_control_plane` of one tenant over the immutable object store
(`filesystem_artifacts.py`), in any interleaving.  A call begins with its clock reading and what it reads, puts
its objects one after the other, and commits its rows or fails (its transaction is rolled back, its callback
raises, its process dies); a callback that `run_transaction` runs again is another call. -/

namespace CyberControl.Artifacts

open Compliance (Objects Platform Settings byteSize natJson put)
open Transition

/-! ### Calls -/

inductive Operation where
  | importSource (command : SourceImportCommand)
  | finalize (verificationId expectedStateVersion : ℕ)
deriving DecidableEq

/-- A call with what it reads: the graph snapshot of the course, or the rows of the verification. -/
inductive Call (G : Type) where
  | importSource (command : SourceImportCommand) (context : Context) (graph : G)
  | finalize (verificationId expectedStateVersion : ℕ) (context : Context) (rows : Rows)

variable {G : Type}

def Call.operation : Call G → Operation
  | .importSource command _ _ => .importSource command
  | .finalize verificationId expectedStateVersion _ _ => .finalize verificationId expectedStateVersion

structure Services (G : Type) where
  py : Platform
  tenantId : String
  settings : Settings
  ingestion : Ingestion G
  reporting : Reporting

variable (services : Services G)

def Call.plan : Call G → Plan
  | .importSource command context graph =>
    importPlan services.py services.tenantId services.ingestion command context graph
  | .finalize _ _ context rows => reportPlan services.py services.tenantId services.reporting rows context

inductive Status where
  | running
  | failed
  | conflicted (objectKey : String)
  | committed
deriving DecidableEq

/-- Its transaction has not committed and will not. -/
def Status.isFailed : Status → Bool
  | .failed => true
  | .conflicted _ => true
  | .running => false
  | .committed => false

/-- A call under way: the objects that it has still to put, and the calls that had failed when it began. -/
structure Attempt (G : Type) where
  call : Call G
  remaining : List StoredObject
  earlier : List ℕ
  status : Status

/-- A row of `artifacts`: the key of the object, its size and its digest. -/
structure ArtifactRow where
  objectKey : String
  byteSize : ℕ
  sha256 : String

/-- `owners` has the attempt that has put an object. -/
structure State (G : Type) where
  objects : Objects := []
  owners : List (String × ℕ) := []
  attempts : List (Attempt G) := []
  rows : List ArtifactRow := []

/-- The attempts that have failed. -/
def State.failures (s : State G) : List ℕ :=
  (List.range s.attempts.length).filter fun i => s.attempts[i]?.any (·.status.isFailed)

inductive Action (G : Type) where
  | begin (call : Call G)
  | put (attempt : ℕ)
  | fail (attempt : ℕ)
  | commit (attempt : ℕ)

def State.setAttempt (s : State G) (i : ℕ) (a : Attempt G) : State G :=
  { s with attempts := s.attempts.set i a }

def step (s : State G) : Action G → Option (State G)
  | .begin call =>
    some { s with attempts := s.attempts ++ [⟨call, (call.plan services).objects, s.failures, .running⟩] }
  | .put i =>
    match s.attempts[i]? with
    | none => none
    | some a =>
      match a.status, a.remaining with
      | .running, (objectKey, content) :: remaining =>
        match put services.py services.settings s.objects objectKey content with
        | .ok objects =>
          some { s.setAttempt i { a with remaining := remaining } with
            objects := objects
            owners := if (s.objects.lookup objectKey).isSome then s.owners
              else s.owners ++ [(objectKey, i)] }
        | .error e =>
          if e = .other "ARTIFACT_CONFLICT" then
            some (s.setAttempt i { a with status := .conflicted objectKey })
          else some (s.setAttempt i { a with status := .failed })
      | _, _ => none
  | .fail i =>
    match s.attempts[i]? with
    | none => none
    | some a => if a.status = .running then some (s.setAttempt i { a with status := .failed }) else none
  | .commit i =>
    match s.attempts[i]? with
    | none => none
    | some a =>
      if a.status = .running ∧ a.remaining = [] ∧ (a.call.plan services).complete = true then
        some { s.setAttempt i { a with status := .committed } with
          rows := s.rows ++ (a.call.plan services).objects.map fun object =>
            ⟨object.1, byteSize object.2, services.py.sha256 object.2⟩ }
      else none

/-! ### What the claim asks -/

/-- The object under the key is of no attempt with the operation and arguments of `a` that had failed before `a`
began. -/
def Unblocked (s : State G) (a : Attempt G) (objectKey : String) : Prop :=
  ∀ (j : ℕ) (b : Attempt G), s.owners.lookup objectKey = some j → j ∈ a.earlier → s.attempts[j]? = some b →
    b.call.operation ≠ a.call.operation

/-- No attempt is refused at an object that a failed attempt of its operation and arguments left. -/
def NotBlocked (s : State G) : Prop :=
  ∀ (i : ℕ) (a : Attempt G) objectKey, s.attempts[i]? = some a → a.status = .conflicted objectKey →
    Unblocked s a objectKey

/-- The rows name objects that are there, with their sizes and digests. -/
def RowsThere (py : Platform) (s : State G) : Prop :=
  ∀ row ∈ s.rows, ∃ content, s.objects.lookup row.objectKey = some content ∧
    row.byteSize = byteSize content ∧ row.sha256 = py.sha256 content

/-- The keys of the documents that name the clock and the trace. -/
def Call.datedKeys (call : Call G) : List String :=
  match call with
  | .importSource command _ _ =>
    [sourceKey services.py (command.resolvedVersionId services.py services.tenantId) "document-ir.json"]
  | .finalize _ _ _ _ => (call.plan services).objects.map Prod.fst

/-- The knowledge points that the sections of the source match. -/
def matchedPoints (ingestion : Ingestion G) (command : SourceImportCommand) (graph : G) :
    Except Exn (List (List String)) := do
  let parsed ← ingestion.parse command
  parsed.sections.mapM (ingestion.matchPoints graph)

/-- Two calls read the same: the clock, the trace, and what the graph or the verification gives. -/
def SameReading : Call G → Call G → Prop
  | .importSource command context graph, .importSource command' context' graph' =>
    context.now = context'.now ∧ context.traceId = context'.traceId ∧
      matchedPoints services.ingestion command graph = matchedPoints services.ingestion command' graph'
  | .finalize _ _ context rows, .finalize _ _ context' rows' =>
    context.now = context'.now ∧ context.traceId = context'.traceId ∧ rows = rows'
  | _, _ => False

/-- A call that begins reads what each failed call of its operation and arguments read that left a dated
document under one of its keys. -/
def Repeats (s : State G) : Action G → Prop
  | .begin call =>
    ∀ j ∈ s.failures, ∀ b, s.attempts[j]? = some b → b.call.operation = call.operation →
      (∃ key ∈ call.datedKeys services, s.owners.lookup key = some j) → SameReading services call b.call
  | .put _ => True
  | .fail _ => True
  | .commit _ => True

/-! ### The same key, the same bytes -/

variable {key : String}

section contents
variable {services}

theorem plan_nodup (call : Call G) : ((call.plan services).objects.map Prod.fst).Nodup := by
  cases call with
  | importSource command context graph => exact importPlan_nodup services.ingestion command context graph
  | finalize verificationId expected context rows => exact reportPlan_nodup services.reporting rows context

/-- Calls that read the same put the same; the subject is in no document. -/
theorem plan_eq_of_sameReading {a b : Call G} (hoperation : b.operation = a.operation)
    (h : SameReading services a b) : a.plan services = b.plan services := by
  cases a with
  | importSource command context graph =>
    cases b with
    | finalize _ _ _ _ => cases hoperation
    | importSource command' context' graph' =>
      cases hoperation
      obtain ⟨now, traceId, subjectRef⟩ := context
      obtain ⟨now', traceId', subjectRef'⟩ := context'
      obtain ⟨rfl, rfl, hmatched⟩ := h
      unfold matchedPoints at hmatched
      simp only [Call.plan, importPlan]
      cases hparse : services.ingestion.parse command with
      | error e => rfl
      | ok parsed =>
        rw [hparse] at hmatched
        have hmatched : parsed.sections.mapM (services.ingestion.matchPoints graph) =
          parsed.sections.mapM (services.ingestion.matchPoints graph') := hmatched
        dsimp only
        rw [hmatched]
        rfl
  | finalize verificationId expected context rows =>
    cases b with
    | importSource _ _ _ => cases hoperation
    | finalize verificationId' expected' context' rows' =>
      obtain ⟨now, traceId, subjectRef⟩ := context
      obtain ⟨now', traceId', subjectRef'⟩ := context'
      obtain ⟨rfl, rfl, rfl⟩ := h
      rfl

theorem content_eq_of_mem {l : List StoredObject} (h : (l.map Prod.fst).Nodup)
    {content content' : List Char} (hmem : (key, content) ∈ l) (hmem' : (key, content') ∈ l) :
    content = content' :=
  congrArg Prod.snd (List.inj_on_of_nodup_map h hmem hmem' rfl)

/-- **What a key says about the bytes**: calls of one operation with the same arguments put the same bytes under
a key, except a dated document that they read differently. -/
theorem content_eq {a b : Call G} (hoperation : b.operation = a.operation)
    {content content' : List Char} (ha : (key, content) ∈ (a.plan services).objects)
    (hb : (key, content') ∈ (b.plan services).objects)
    (hdated : key ∈ a.datedKeys services → SameReading services a b) : content = content' := by
  by_cases hkey : key ∈ a.datedKeys services
  · rw [← plan_eq_of_sameReading hoperation (hdated hkey)] at hb
    exact content_eq_of_mem (plan_nodup a) ha hb
  · cases a with
    | finalize verificationId expected context rows => exact absurd (List.mem_map_of_mem ha) hkey
    | importSource command context graph =>
      cases b with
      | finalize _ _ _ _ => cases hoperation
      | importSource command' context' graph' =>
        cases hoperation
        have hne : key ≠ sourceKey services.py
            (command.resolvedVersionId services.py services.tenantId) "document-ir.json" :=
          fun h => hkey (h ▸ List.mem_cons_self)
        obtain ⟨parsed, hparse, hmem⟩ := mem_importPlan_of_ne ha hne
        obtain ⟨parsed', hparse', hmem'⟩ := mem_importPlan_of_ne hb hne
        cases hparse.symm.trans hparse'
        refine content_eq_of_mem ?_ hmem hmem'
        simp only [List.map_cons, List.map_nil, List.nodup_cons, List.mem_singleton]
        exact ⟨fun h => (names_ne command.mediaType).1 (sourceKey_inj h), by simp⟩

end contents

/-! ### What a step does -/

variable {content : List Char} {action : Action G}

section steps
variable {services} {s s' : State G}

theorem put_ok {py : Platform} {settings : Settings} {objects objects' : Objects}
    (h : put py settings objects key content = .ok objects') :
    (objects.lookup key = none ∧ objects' = objects ++ [(key, content)]) ∨
      ∃ existing, objects.lookup key = some existing ∧ byteSize existing = byteSize content ∧
        py.sha256 existing = py.sha256 content ∧ objects' = objects := by
  unfold put at h
  split at h
  · cases h
  · cases hlookup : objects.lookup key with
    | none =>
      rw [hlookup] at h
      exact .inl ⟨rfl, (Except.ok.inj h).symm⟩
    | some existing =>
      rw [hlookup] at h
      dsimp only at h
      split at h
      · cases h
      · rename_i hsame
        obtain ⟨hsize, hdigest⟩ := not_or.mp hsame
        exact .inr ⟨existing, rfl, not_not.mp hsize, not_not.mp hdigest, (Except.ok.inj h).symm⟩

theorem put_conflict {py : Platform} {settings : Settings} {objects : Objects}
    (h : put py settings objects key content = .error (.other "ARTIFACT_CONFLICT")) :
    ∃ existing, objects.lookup key = some existing ∧ existing ≠ content := by
  unfold put at h
  split at h
  · simp at h
  · cases hlookup : objects.lookup key with
    | none =>
      rw [hlookup] at h
      cases h
    | some existing =>
      rw [hlookup] at h
      dsimp only at h
      split at h
      · rename_i hdiffers
        refine ⟨existing, rfl, ?_⟩
        rintro rfl
        simp at hdiffers
      · cases h

/-- **What a step does.** -/
theorem step_cases (h : step services s action = some s') :
    (∃ call, action = .begin call ∧ s' = { s with
        attempts := s.attempts ++ [⟨call, (call.plan services).objects, s.failures, .running⟩] }) ∨
      (∃ i a key content remaining, action = .put i ∧ s.attempts[i]? = some a ∧ a.status = .running ∧
        a.remaining = (key, content) :: remaining ∧
          ((∃ objects, put services.py services.settings s.objects key content = .ok objects ∧
              s' = { s.setAttempt i { a with remaining := remaining } with
                objects := objects
                owners := if (s.objects.lookup key).isSome then s.owners else s.owners ++ [(key, i)] }) ∨
            (put services.py services.settings s.objects key content = .error (.other "ARTIFACT_CONFLICT") ∧
              s' = s.setAttempt i { a with status := .conflicted key }) ∨
            s' = s.setAttempt i { a with status := .failed })) ∨
      (∃ i a, action = .fail i ∧ s.attempts[i]? = some a ∧ a.status = .running ∧
        s' = s.setAttempt i { a with status := .failed }) ∨
      ∃ i a, action = .commit i ∧ s.attempts[i]? = some a ∧ a.status = .running ∧ a.remaining = [] ∧
        s' = { s.setAttempt i { a with status := .committed } with
          rows := s.rows ++ (a.call.plan services).objects.map fun object =>
            ⟨object.1, byteSize object.2, services.py.sha256 object.2⟩ } := by
  cases action with
  | begin call => exact .inl ⟨call, rfl, (Option.some.inj h).symm⟩
  | put i =>
    right
    left
    simp only [step] at h
    cases ha : s.attempts[i]? with
    | none =>
      rw [ha] at h
      cases h
    | some a =>
      rw [ha] at h
      dsimp only at h
      split at h
      · rename_i key content remaining hstatus hremaining
        refine ⟨i, a, key, content, remaining, rfl, ha, hstatus, hremaining, ?_⟩
        split at h
        · rename_i objects hput
          exact .inl ⟨objects, hput, (Option.some.inj h).symm⟩
        · rename_i e hput
          split at h
          · rename_i he
            subst he
            exact .inr (.inl ⟨hput, (Option.some.inj h).symm⟩)
          · exact .inr (.inr (Option.some.inj h).symm)
      · cases h
  | fail i =>
    right
    right
    left
    simp only [step] at h
    cases ha : s.attempts[i]? with
    | none =>
      rw [ha] at h
      cases h
    | some a =>
      rw [ha] at h
      obtain ⟨hstatus, h⟩ := guarded_eq_some.mp h
      exact ⟨i, a, rfl, ha, hstatus, h.symm⟩
  | commit i =>
    right
    right
    right
    simp only [step] at h
    cases ha : s.attempts[i]? with
    | none =>
      rw [ha] at h
      cases h
    | some a =>
      rw [ha] at h
      obtain ⟨⟨hstatus, hremaining, -⟩, h⟩ := guarded_eq_some.mp h
      exact ⟨i, a, rfl, ha, hstatus, hremaining, h.symm⟩

theorem lookup_append_of_some {β : Type} {l l' : List (String × β)} {b : β}
    (h : l.lookup key = some b) : (l ++ l').lookup key = some b := by
  rw [List.lookup_append, h]
  rfl

/-- **The store is immutable**: a step keeps the bytes under every key. -/
theorem objects_of_step (h : step services s action = some s')
    (hkey : s.objects.lookup key = some content) :
    s'.objects.lookup key = some content := by
  rcases step_cases h with ⟨call, -, rfl⟩ | ⟨i, a, k, c, remaining, -, -, -, -, hput⟩ | ⟨i, a, -, -, -, rfl⟩ |
    ⟨i, a, -, -, -, -, rfl⟩
  · exact hkey
  · rcases hput with ⟨objects, hput, rfl⟩ | ⟨-, rfl⟩ | rfl
    · rcases put_ok hput with ⟨-, rfl⟩ | ⟨existing, -, -, -, rfl⟩
      · exact lookup_append_of_some hkey
      · exact hkey
    · exact hkey
    · exact hkey
  · exact hkey
  · exact hkey

theorem objects_kept {actions : List (Action G)} (h : run (step services) s actions = some s')
    (hkey : s.objects.lookup key = some content) :
    s'.objects.lookup key = some content := by
  refine run_invariant (I := fun t => t.objects.lookup key = some content) ?_ hkey h
  exact fun _ _ _ ht hstep => objects_of_step hstep ht

end steps

/-! ### The invariant -/

variable {call : Call G}

section invariant
variable {services} {s s' : State G} {repeating : Prop}

/-- An object of the plan is in the store, or one of its size and digest is. -/
def Stored (py : Platform) (s : State G) (object : StoredObject) : Prop :=
  ∃ content, s.objects.lookup object.1 = some content ∧ byteSize content = byteSize object.2 ∧
    py.sha256 content = py.sha256 object.2

variable (services) in
/-- What holds in every state of a run; `repeating` says that later calls have read what failed ones read. -/
structure Inv (repeating : Prop) (s : State G) : Prop where
  owned : ∀ key content, s.objects.lookup key = some content →
    ∃ (j : ℕ) (b : Attempt G), s.owners.lookup key = some j ∧ s.attempts[j]? = some b ∧
      (key, content) ∈ (b.call.plan services).objects
  unowned : ∀ key, s.objects.lookup key = none → s.owners.lookup key = none
  remaining : ∀ (i : ℕ) (a : Attempt G), s.attempts[i]? = some a →
    a.remaining ⊆ (a.call.plan services).objects
  stored : ∀ (i : ℕ) (a : Attempt G), s.attempts[i]? = some a →
    ∀ object ∈ (a.call.plan services).objects, object ∈ a.remaining ∨ Stored services.py s object
  earlier : ∀ (i : ℕ) (a : Attempt G), s.attempts[i]? = some a → ∀ j ∈ a.earlier,
    ∃ b, s.attempts[j]? = some b ∧ b.status.isFailed = true
  repeats : repeating → ∀ (i : ℕ) (a : Attempt G), s.attempts[i]? = some a →
    ∀ j ∈ a.earlier, ∀ b, s.attempts[j]? = some b → b.call.operation = a.call.operation →
      (∃ key ∈ a.call.datedKeys services, s.owners.lookup key = some j) →
        SameReading services a.call b.call
  notBlocked : repeating → NotBlocked s
  rowsThere : RowsThere services.py s

theorem getElem?_setAttempt {i k : ℕ} {a a' : Attempt G} (h : s.attempts[i]? = some a) :
    (s.setAttempt i a').attempts[k]? = if i = k then some a' else s.attempts[k]? := by
  obtain ⟨hlt, -⟩ := List.getElem?_eq_some_iff.mp h
  unfold State.setAttempt
  rw [List.getElem?_set, if_pos hlt]

theorem Inv.not_mem_earlier (h : Inv services repeating s) {i k : ℕ} {a c : Attempt G}
    (ha : s.attempts[i]? = some a) (hrunning : a.status = .running) (hc : s.attempts[k]? = some c) :
    i ∉ c.earlier := by
  intro hi
  obtain ⟨b, hb, hfailed⟩ := h.earlier k c hc i hi
  rw [ha] at hb
  cases hb
  rw [hrunning] at hfailed
  cases hfailed

theorem Inv.setAttempt (h : Inv services repeating s) {i : ℕ} {a : Attempt G} (a' : Attempt G)
    (ha : s.attempts[i]? = some a) (hrunning : a.status = .running) (hcall : a'.call = a.call)
    (hearlier : a'.earlier = a.earlier)
    (hremaining : a'.remaining ⊆ a.remaining)
    (hstored : ∀ object ∈ a.remaining, object ∈ a'.remaining ∨ Stored services.py s object)
    (hblocked : repeating → ∀ key, a'.status = .conflicted key → Unblocked s a key) :
    Inv services repeating (s.setAttempt i a') := by
  have hnotEarlier : ∀ (k : ℕ) (c : Attempt G), s.attempts[k]? = some c → i ∉ c.earlier :=
    fun k c => h.not_mem_earlier ha hrunning
  -- every attempt but its own is the one that it was
  have hcases : ∀ (k : ℕ) (c : Attempt G), (s.setAttempt i a').attempts[k]? = some c →
      (k = i ∧ c = a') ∨ s.attempts[k]? = some c := by
    intro k c hc
    rw [getElem?_setAttempt ha] at hc
    split_ifs at hc with hik
    · cases hc
      exact .inl ⟨hik.symm, rfl⟩
    · exact .inr hc
  have hother : ∀ (k : ℕ), k ≠ i → (s.setAttempt i a').attempts[k]? = s.attempts[k]? := by
    intro k hk
    rw [getElem?_setAttempt ha, if_neg (Ne.symm hk)]
  constructor
  · intro key content hkey
    obtain ⟨j, b, howner, hb, hmem⟩ := h.owned key content hkey
    by_cases hj : j = i
    · subst hj
      rw [ha] at hb
      cases hb
      refine ⟨j, a', howner, ?_, hcall ▸ hmem⟩
      rw [getElem?_setAttempt ha, if_pos rfl]
    · exact ⟨j, b, howner, (hother j hj).trans hb, hmem⟩
  · exact h.unowned
  · intro k c hc
    rcases hcases k c hc with ⟨-, rfl⟩ | hc
    · rw [hcall]
      exact List.Subset.trans hremaining (h.remaining i a ha)
    · exact h.remaining k c hc
  · intro k c hc object hobject
    rcases hcases k c hc with ⟨-, rfl⟩ | hc
    · rw [hcall] at hobject
      rcases h.stored i a ha object hobject with hleft | hthere
      · exact hstored object hleft
      · exact .inr hthere
    · exact h.stored k c hc object hobject
  · intro k c hc j hj
    obtain ⟨k', c', hc', hj'⟩ :
        ∃ (k' : ℕ) (c' : Attempt G), s.attempts[k']? = some c' ∧ j ∈ c'.earlier := by
      rcases hcases k c hc with ⟨-, rfl⟩ | hc
      · exact ⟨i, a, ha, hearlier ▸ hj⟩
      · exact ⟨k, c, hc, hj⟩
    obtain ⟨b, hb, hfailed⟩ := h.earlier k' c' hc' j hj'
    have hji : j ≠ i := fun hji => hnotEarlier k' c' hc' (hji ▸ hj')
    exact ⟨b, (hother j hji).trans hb, hfailed⟩
  · intro hrepeating k c hc j hj b hb hoperation hleft
    rcases hcases k c hc with ⟨-, rfl⟩ | hc
    · rw [hearlier] at hj
      have hji : j ≠ i := fun hji => hnotEarlier i a ha (hji ▸ hj)
      rw [hcall] at hoperation hleft ⊢
      exact h.repeats hrepeating i a ha j hj b ((hother j hji).symm.trans hb) hoperation hleft
    · have hji : j ≠ i := fun hji => hnotEarlier k c hc (hji ▸ hj)
      exact h.repeats hrepeating k c hc j hj b ((hother j hji).symm.trans hb) hoperation hleft
  · intro hrepeating k c key hc hstatus j b howner hj hb
    rcases hcases k c hc with ⟨-, rfl⟩ | hc
    · rw [hearlier] at hj
      have hji : j ≠ i := fun hji => hnotEarlier i a ha (hji ▸ hj)
      rw [hcall]
      exact hblocked hrepeating key hstatus j b howner hj ((hother j hji).symm.trans hb)
    · have hji : j ≠ i := fun hji => hnotEarlier k c hc (hji ▸ hj)
      exact h.notBlocked hrepeating k c key hc hstatus j b howner hj ((hother j hji).symm.trans hb)
  · exact h.rowsThere

theorem Inv.store (h : Inv services repeating s) {i : ℕ} {a : Attempt G} (ha : s.attempts[i]? = some a)
    (hrunning : a.status = .running)
    (hmem : (key, content) ∈ (a.call.plan services).objects) (hkey : s.objects.lookup key = none) :
    Inv services repeating { s with
      objects := s.objects ++ [(key, content)]
      owners := s.owners ++ [(key, i)] } := by
  have howners : ∀ k j, (s.owners ++ [(key, i)]).lookup k = some j →
      s.owners.lookup k = some j ∨ (k = key ∧ j = i) := by
    intro k j hk
    rw [List.lookup_append] at hk
    cases hold : s.owners.lookup k with
    | some j' =>
      rw [hold] at hk
      exact .inl hk
    | none =>
      rw [hold, Option.none_or, List.lookup_cons] at hk
      split at hk
      · rename_i heq
        exact .inr ⟨by simpa using heq, (Option.some.inj hk).symm⟩
      · cases hk
  have hnotEarlier : ∀ (k : ℕ) (c : Attempt G), s.attempts[k]? = some c → i ∉ c.earlier :=
    fun k c => h.not_mem_earlier ha hrunning
  constructor
  · intro k c hk
    cases hold : s.objects.lookup k with
    | some c' =>
      have hsame : (s.objects ++ [(key, content)]).lookup k = some c' := lookup_append_of_some hold
      cases hsame.symm.trans hk
      obtain ⟨j, b, howner, hb, hplan⟩ := h.owned k c hold
      exact ⟨j, b, lookup_append_of_some howner, hb, hplan⟩
    | none =>
      have hlookup : (s.objects ++ [(key, content)]).lookup k = some c := hk
      rw [List.lookup_append, hold, Option.none_or, List.lookup_cons] at hlookup
      split at hlookup
      · rename_i heq
        obtain rfl : k = key := by simpa using heq
        cases hlookup
        refine ⟨i, a, ?_, ha, hmem⟩
        rw [List.lookup_append, h.unowned k hold, Option.none_or, List.lookup_cons_self]
      · cases hlookup
  · intro k hk
    have hlookup : (s.objects ++ [(key, content)]).lookup k = none := hk
    rw [List.lookup_append, Option.or_eq_none_iff] at hlookup
    obtain ⟨hold, hnew⟩ := hlookup
    rw [List.lookup_append, h.unowned k hold, Option.none_or]
    rw [List.lookup_cons] at hnew ⊢
    split
    · rename_i heq
      rw [heq] at hnew
      cases hnew
    · rfl
  · exact h.remaining
  · intro k c hc object hobject
    refine (h.stored k c hc object hobject).imp_right ?_
    rintro ⟨existing, hexisting, hsize, hdigest⟩
    exact ⟨existing, lookup_append_of_some hexisting, hsize, hdigest⟩
  · exact h.earlier
  · intro hrepeating k c hc j hj b hb hoperation hleft
    obtain ⟨k', hk', howner⟩ := hleft
    rcases howners k' j howner with howner | ⟨-, rfl⟩
    · exact h.repeats hrepeating k c hc j hj b hb hoperation ⟨k', hk', howner⟩
    · exact absurd hj (hnotEarlier k c hc)
  · intro hrepeating k c key' hc hstatus j b howner hj hb
    rcases howners key' j howner with howner | ⟨-, rfl⟩
    · exact h.notBlocked hrepeating k c key' hc hstatus j b howner hj hb
    · exact absurd hj (hnotEarlier k c hc)
  · intro row hrow
    obtain ⟨existing, hexisting, hsize, hdigest⟩ := h.rowsThere row hrow
    exact ⟨existing, lookup_append_of_some hexisting, hsize, hdigest⟩

theorem mem_failures {j : ℕ} (h : j ∈ s.failures) :
    ∃ b, s.attempts[j]? = some b ∧ b.status.isFailed = true := by
  have hfailed := (List.mem_filter.mp h).2
  cases hb : s.attempts[j]? with
  | none =>
    rw [hb] at hfailed
    cases hfailed
  | some b =>
    rw [hb] at hfailed
    exact ⟨b, rfl, hfailed⟩

/-- A call begins, and reads what the failed calls that it must not meet have read. -/
theorem Inv.begin (h : Inv services repeating s)
    (hrepeats : repeating → Repeats services s (.begin call)) :
    Inv services repeating { s with
      attempts := s.attempts ++ [⟨call, (call.plan services).objects, s.failures, .running⟩] } := by
  have hold : ∀ (j : ℕ) (b : Attempt G), s.attempts[j]? = some b →
      (s.attempts ++ [⟨call, (call.plan services).objects, s.failures, .running⟩])[j]? = some b := by
    intro j b hb
    rw [List.getElem?_append_left (List.getElem?_eq_some_iff.mp hb).1]
    exact hb
  have hcases : ∀ (k : ℕ) (c : Attempt G),
      (s.attempts ++ [⟨call, (call.plan services).objects, s.failures, .running⟩])[k]? = some c →
        s.attempts[k]? = some c ∨ c = ⟨call, (call.plan services).objects, s.failures, .running⟩ := by
    intro k c hc
    by_cases hk : k < s.attempts.length
    · rw [List.getElem?_append_left hk] at hc
      exact .inl hc
    · rw [List.getElem?_append_right (Nat.not_lt.mp hk)] at hc
      exact .inr (List.mem_singleton.mp (List.mem_of_getElem? hc))
  have hsame : ∀ (j : ℕ) (b b' : Attempt G), s.attempts[j]? = some b' →
      (s.attempts ++ [⟨call, (call.plan services).objects, s.failures, .running⟩])[j]? = some b → b = b' := by
    intro j b b' hb' hb
    exact Option.some.inj (hb.symm.trans (hold j b' hb'))
  constructor
  · intro key content hkey
    obtain ⟨j, b, howner, hb, hmem⟩ := h.owned key content hkey
    exact ⟨j, b, howner, hold j b hb, hmem⟩
  · exact h.unowned
  · intro k c hc
    rcases hcases k c hc with hc | rfl
    · exact h.remaining k c hc
    · exact List.Subset.refl _
  · intro k c hc object hobject
    rcases hcases k c hc with hc | rfl
    · exact h.stored k c hc object hobject
    · exact .inl hobject
  · intro k c hc j hj
    have hfailed : ∃ b, s.attempts[j]? = some b ∧ b.status.isFailed = true := by
      rcases hcases k c hc with hc | rfl
      · exact h.earlier k c hc j hj
      · exact mem_failures hj
    obtain ⟨b, hb, hfailed⟩ := hfailed
    exact ⟨b, hold j b hb, hfailed⟩
  · intro hrepeating k c hc j hj b hb hoperation hleft
    rcases hcases k c hc with hc | rfl
    · obtain ⟨b', hb', -⟩ := h.earlier k c hc j hj
      obtain rfl := hsame j b b' hb' hb
      exact h.repeats hrepeating k c hc j hj b hb' hoperation hleft
    · obtain ⟨b', hb', -⟩ := mem_failures hj
      obtain rfl := hsame j b b' hb' hb
      exact hrepeats hrepeating j hj b hb' hoperation hleft
  · intro hrepeating k c key hc hstatus j b howner hj hb
    rcases hcases k c hc with hc | rfl
    · obtain ⟨b', hb', -⟩ := h.earlier k c hc j hj
      obtain rfl := hsame j b b' hb' hb
      exact h.notBlocked hrepeating k c key hc hstatus j b howner hj hb'
    · cases hstatus
  · exact h.rowsThere

/-- **Step lemma.** -/
theorem Inv.step (h : Inv services repeating s)
    (hrepeats : repeating → Repeats services s action) (hstep : step services s action = some s') :
    Inv services repeating s' := by
  rcases step_cases hstep with ⟨call, rfl, rfl⟩ |
    ⟨i, a, key, content, remaining, -, ha, hrunning, hremaining, hput⟩ | ⟨i, a, -, ha, hrunning, rfl⟩ |
    ⟨i, a, -, ha, hrunning, hremaining, rfl⟩
  · exact h.begin hrepeats
  · have hmem : (key, content) ∈ (a.call.plan services).objects := by
      apply h.remaining i a ha
      rw [hremaining]
      exact List.mem_cons_self
    have hends : ∀ status, (repeating → ∀ k, status = .conflicted k → Unblocked s a k) →
        Inv services repeating (s.setAttempt i { a with status := status }) :=
      fun status => h.setAttempt { a with status := status } ha hrunning rfl rfl (List.Subset.refl _)
        fun object hobject => .inl hobject
    rcases hput with ⟨objects, hput, rfl⟩ | ⟨hput, rfl⟩ | rfl
    · have hrest : remaining ⊆ a.remaining := by
        rw [hremaining]
        exact List.subset_cons_self _ _
      rcases put_ok hput with ⟨hkey, rfl⟩ | ⟨existing, hexisting, hsize, hdigest, rfl⟩
      · have hstore := h.store ha hrunning hmem hkey
        have hset := hstore.setAttempt { a with remaining := remaining } ha hrunning rfl rfl hrest ?_ ?_
        · rw [hkey]
          exact hset
        · intro object hobject
          rw [hremaining] at hobject
          rcases List.mem_cons.mp hobject with rfl | hobject
          · refine .inr ⟨content, ?_, rfl, rfl⟩
            show (s.objects ++ [(key, content)]).lookup key = some content
            rw [List.lookup_append, hkey, Option.none_or, List.lookup_cons_self]
          · exact .inl hobject
        · intro _ k hk
          rw [hrunning] at hk
          cases hk
      · have hset := h.setAttempt { a with remaining := remaining } ha hrunning rfl rfl hrest ?_ ?_
        · rw [hexisting]
          exact hset
        · intro object hobject
          rw [hremaining] at hobject
          rcases List.mem_cons.mp hobject with rfl | hobject
          · exact .inr ⟨existing, hexisting, hsize, hdigest⟩
          · exact .inl hobject
        · intro _ k hk
          rw [hrunning] at hk
          cases hk
    · -- the object under the key is of a call that failed before: it has the same bytes
      apply hends
      intro hrepeating k hk j b howner hj hb hoperation
      cases hk
      obtain ⟨existing, hexisting, hdiffers⟩ := put_conflict hput
      obtain ⟨j', b', howner', hb', hplan⟩ := h.owned key existing hexisting
      cases howner'.symm.trans howner
      cases hb'.symm.trans hb
      refine hdiffers (content_eq hoperation hmem hplan fun hdated => ?_).symm
      exact h.repeats hrepeating i a ha j hj b hb hoperation ⟨key, hdated, howner⟩
    · apply hends
      intro _ k hk
      cases hk
  · refine h.setAttempt _ ha hrunning rfl rfl (List.Subset.refl _) (fun object hobject => .inl hobject) ?_
    intro _ k hk
    cases hk
  · have hset : Inv services repeating (s.setAttempt i { a with status := .committed }) := by
      refine h.setAttempt _ ha hrunning rfl rfl (List.Subset.refl _) (fun object hobject => .inl hobject) ?_
      intro _ k hk
      cases hk
    refine ⟨hset.owned, hset.unowned, hset.remaining, hset.stored, hset.earlier, hset.repeats,
      hset.notBlocked, ?_⟩
    intro row hrow
    rcases List.mem_append.mp hrow with hrow | hrow
    · exact h.rowsThere row hrow
    · obtain ⟨object, hobject, rfl⟩ := List.mem_map.mp hrow
      rcases h.stored i a ha object hobject with hleft | ⟨existing, hexisting, hsize, hdigest⟩
      · rw [hremaining] at hleft
        cases hleft
      · exact ⟨existing, hexisting, hsize.symm, hdigest.symm⟩

end invariant

/-! ### Runs -/

section runs
variable {services}

theorem Inv.initial (repeating : Prop) : Inv services repeating ({} : State G) where
  owned _ _ h := by cases h
  unowned _ _ := rfl
  remaining _ _ h := by simp at h
  stored _ _ h := by simp at h
  earlier _ _ h := by simp at h
  repeats _ _ _ h := by simp at h
  notBlocked _ _ _ _ h := by simp at h
  rowsThere _ h := by cases h

/-- **Leftovers**: in every run whose calls read what failed calls of their operation and arguments read that
left a dated document under one of their keys, no call is refused for what a failed call left; and in every run
the objects of committed rows are there and stay as they are. -/
theorem leftovers_never_block {actions : List (Action G)} {s : State G}
    (h : run (step services) {} actions = some s) :
    (AllSteps (step services) (Repeats services) {} actions → NotBlocked s) ∧ RowsThere services.py s ∧
      ∀ before t, before <+: actions → run (step services) {} before = some t →
        ∀ row ∈ t.rows, ∀ content, t.objects.lookup row.objectKey = some content →
          s.objects.lookup row.objectKey = some content := by
  refine ⟨fun hrepeats => ?_, ?_, ?_⟩
  · have hinv : Inv services True s := by
      refine run_invariant_of ?_ (Inv.initial True) hrepeats h
      exact fun _ _ _ hI hC hstep => hI.step (fun _ => hC) hstep
    exact hinv.notBlocked trivial
  · have hinv : Inv services False s := by
      refine run_invariant ?_ (Inv.initial False) h
      exact fun _ _ _ hI hstep => hI.step False.elim hstep
    exact hinv.rowsThere
  · rintro before t ⟨rest, rfl⟩ hbefore row - content hcontent
    obtain ⟨t', ht', hrest⟩ := run_append_eq_some.mp h
    cases hbefore.symm.trans ht'
    exact objects_kept hrest hcontent

theorem sameReading_refl (call : Call G) : SameReading services call call := by
  cases call with
  | importSource command context graph => exact ⟨rfl, rfl, rfl⟩
  | finalize verificationId expected context rows => exact ⟨rfl, rfl, rfl⟩

theorem calls_of_step {s s' : State G}
    (h : step services s action = some s') (haction : ∀ c, action = .begin c → c = call)
    (hcalls : ∀ a ∈ s.attempts, a.call = call) :
    ∀ a ∈ s'.attempts, a.call = call := by
  have hset : ∀ (i : ℕ) (a a' : Attempt G), s.attempts[i]? = some a → a'.call = a.call →
      ∀ b ∈ (s.setAttempt i a').attempts, b.call = call := by
    intro i a a' ha hcall b hb
    rcases List.mem_or_eq_of_mem_set hb with hb | rfl
    · exact hcalls b hb
    · exact hcall.trans (hcalls a (List.mem_of_getElem? ha))
  rcases step_cases h with ⟨c, rfl, rfl⟩ | ⟨i, a, k, content, remaining, -, ha, -, -, hput⟩ |
    ⟨i, a, -, ha, -, rfl⟩ | ⟨i, a, -, ha, -, -, rfl⟩
  · intro a ha
    rcases List.mem_append.mp ha with ha | ha
    · exact hcalls a ha
    · rw [List.mem_singleton.mp ha]
      exact haction c rfl
  · rcases hput with ⟨objects, -, rfl⟩ | ⟨-, rfl⟩ | rfl
    · exact hset i a _ ha rfl
    · exact hset i a _ ha rfl
    · exact hset i a _ ha rfl
  · exact hset i a _ ha rfl
  · exact hset i a _ ha rfl

/-- A call that is made again and again as it was reads the same every time. -/
theorem repeats_of_one_call {actions : List (Action G)}
    (h : ∀ c, Action.begin c ∈ actions → c = call) {s : State G}
    (hcalls : ∀ a ∈ s.attempts, a.call = call) : AllSteps (step services) (Repeats services) s actions := by
  induction actions generalizing s with
  | nil => trivial
  | cons action actions ih =>
    constructor
    · cases action with
      | begin c =>
        intro j _ b hb _ _
        rw [h c List.mem_cons_self, hcalls b (List.mem_of_getElem? hb)]
        exact sameReading_refl call
      | put i => trivial
      | fail i => trivial
      | commit i => trivial
    · intro t ht
      refine ih (fun c hc => h c (List.mem_cons_of_mem _ hc)) (calls_of_step ht ?_ hcalls)
      rintro c rfl
      exact h c List.mem_cons_self

end runs

/-! ### A callback that is run again -/

/-- Attempt `i` is refused at an object that attempt `j` left, with the same operation and arguments. -/
def State.blocks (s : State G) (i j : ℕ) (objectKey : String) : Bool :=
  s.attempts[i]?.any fun a => a.status = .conflicted objectKey && a.earlier.contains j &&
    s.owners.lookup objectKey = some j && s.attempts[j]?.any fun b => b.call.operation = a.call.operation

theorem not_notBlocked {s : State G} {i j : ℕ} {objectKey : String} (h : s.blocks i j objectKey = true) :
    ¬ NotBlocked s := by
  intro hn
  obtain ⟨a, ha, h⟩ := (Option.any_eq_true _ _).mp h
  simp only [Bool.and_eq_true, decide_eq_true_eq, List.contains_iff_mem] at h
  obtain ⟨⟨⟨hstatus, hj⟩, howner⟩, h⟩ := h
  obtain ⟨b, hb, hoperation⟩ := (Option.any_eq_true _ _).mp h
  exact hn i a objectKey ha hstatus j b howner hj hb (of_decide_eq_true hoperation)

def sampleServices : Services Unit where
  py := Compliance.samplePlatform
  tenantId := "t"
  settings := ⟨"p1", 86400, [], 1000000⟩
  ingestion :=
    { parserVersion := "c2-parser-v1"
      parse := fun command =>
        .ok ⟨[⟨"s1", none, 0, "T", "/sections/0", String.ofList command.content, "d", []⟩], "c"⟩
      matchPoints := fun _ _ => .ok []
      matchFormulas := fun _ _ _ _ => .ok fun _ => [] }
  reporting :=
    { knowledgeBaseVersion := "k1"
      policyVersion := "p1"
      isoformat := Compliance.decimal
      aggregate := fun _ _ _ createdAt =>
        .ok ([], ⟨5, 7, "RELEASE", .object [("created_at", natJson createdAt)]⟩) }

def sampleRows : Rows :=
  { claims := [⟨1, 1, "c", .null⟩]
    risks := []
    moduleResults := [⟨2, String.ofList (List.replicate 64 'a'), [], .null⟩]
    evidenceDigests := []
    revisionRound := 0 }

/-- The callback of a finalization at a time. -/
def sampleFinalize (now : ℕ) : Call Unit := .finalize 7 3 ⟨now, "0123456789abcdef", "u"⟩ sampleRows

/-- The first transaction puts its two objects and cannot be serialized; the callback is run again. -/
def rerun : List (Action Unit) :=
  [.begin (sampleFinalize 10), .put 0, .put 0, .fail 0, .begin (sampleFinalize 11), .put 1]

/-- With the clock reading of the first one, the callback goes through. -/
def rerunAtOnce : List (Action Unit) :=
  [.begin (sampleFinalize 10), .put 0, .put 0, .fail 0, .begin (sampleFinalize 10), .put 1, .put 1, .commit 1]

theorem rerun_ends : (run (step sampleServices) {} rerun).any
      (·.blocks 1 0 "evidence-chains/7/293711.json") = true ∧
    (run (step sampleServices) {} rerunAtOnce).any (·.rows.length = 2) = true := by
  constructor
  · decide +kernel
  · decide +kernel

/-- The objects of the first transaction shut the second one out: the clock has moved on. -/
theorem rerun_conflicts : ∃ s, run (step sampleServices) {} rerun = some s ∧ ¬ NotBlocked s := by
  obtain ⟨s, hs, hblocks⟩ := (Option.any_eq_true _ _).mp rerun_ends.1
  exact ⟨s, hs, not_notBlocked hblocks⟩

theorem leftovers_never_block_rerunAtOnce :
    ∃ s, run (step sampleServices) {} rerunAtOnce = some s ∧ s.rows.length = 2 ∧ NotBlocked s := by
  obtain ⟨s, hs, hrows⟩ := (Option.any_eq_true _ _).mp rerun_ends.2
  refine ⟨s, hs, of_decide_eq_true hrows, (leftovers_never_block hs).1 ?_⟩
  refine @repeats_of_one_call _ _ (sampleFinalize 10) _ ?_ _ ?_
  · intro c hc
    simp only [rerunAtOnce, List.mem_cons, Action.begin.injEq, reduceCtorEq, List.not_mem_nil, or_false,
      false_or] at hc
    simpa using hc
  · simp

end CyberControl.Artifacts
