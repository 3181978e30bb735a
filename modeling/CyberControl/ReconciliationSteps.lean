import CyberControl.ReconciliationJobs

/-! # The transactions on the reconciliation jobs

What one transaction does. -/

namespace CyberControl.Reconciliation

variable {settings : Settings} {target : Option ℕ}

/-! ### The constraints of the table -/

/-- The rows meet the constraints. -/
def Admitted (jobs : List Job) : Prop :=
  (∀ job ∈ jobs, job.valid) ∧ jobs.Pairwise fun a b => a.conflicts b = false

variable {jobs : List Job}

theorem save_eq_some {store store' : Store} (h : store.save jobs = some store') :
    store' = { store with jobs } ∧ Admitted jobs := by
  obtain ⟨jobs', hadmit, rfl⟩ := Option.map_eq_some_iff.mp h
  rw [admitJobs] at hadmit
  split_ifs at hadmit with hadmitted
  rw [← Option.some.inj hadmit]
  exact ⟨rfl, List.all_eq_true.mp hadmitted.1, hadmitted.2⟩

theorem Admitted.eq_of_jobId (h : Admitted jobs) {a b : Job} (ha : a ∈ jobs)
    (hb : b ∈ jobs) (hid : a.jobId = b.jobId) : a = b := by
  have hids : (jobs.map (·.jobId)).Nodup := by
    refine List.pairwise_map.mpr (h.2.imp fun {a b} hfree heq => ?_)
    simp [Job.conflicts, heq] at hfree
  exact List.inj_on_of_nodup_map hids ha hb hid

variable {row : Job}

theorem Admitted.token_eq_none (h : Admitted jobs) (hrow : row ∈ jobs)
    (hstate : row.state ≠ .running) : row.claimToken = none := by
  have hvalid := h.1 row hrow
  simp only [Job.valid, Job.claimOwnership, decide_eq_true_eq] at hvalid
  rcases hvalid.2.1 with hrunning | hidle
  · exact absurd hrunning.1 hstate
  · exact hidle.2.1

theorem find_job {p : Job → Bool} (h : jobs.find? p = some row) :
    row ∈ jobs ∧ p row :=
  ⟨List.mem_of_find?_eq_some h, List.find?_some h⟩

/-! ### What happens to a row -/

/-- The last snapshot of a registration is completed. -/
def Done (w : World) (registrationId : ℕ) : Prop :=
  (w.store.registrations registrationId).map (·.state) = some .completed

/-- The registration whose job an action schedules. -/
def Action.schedules (w : World) : Action → Option ℕ
  | .schedule registrationId _ _ _ _ _ _ =>
    if (w.store.registrations registrationId).any fun latest => latest.state ≠ .completed then
      some registrationId
    else none
  | _ => none

/-- The row of a job before and after a transaction, which schedules the registration `target`. -/
inductive Changes (target : Option ℕ) (w w' : World) (row : Job) : Job → Prop
  | same : Changes target w w' row row
  | claim (instanceId token : ℕ) (now : ℤ)
      (hdue : (row.state = .pending ∧ row.attemptCount < row.maxAttempts) ∨ row.state = .running)
      (hfresh : token ∉ w.tokens) (htokens : token ∈ w'.tokens)
      (hheld : w'.held = w.held ++ [⟨claimOf token row, none⟩]) :
      Changes target w w' row (claimRow instanceId token now row)
  | succeed (h : Held) (now : ℤ) (hheld : h ∈ w.held) (hstate : row.state = .running)
      (htoken : row.claimToken = some h.claim.claimToken) (houtcome : h.outcome = some true) :
      Changes target w w' row (finishSucceeded now row)
  | fail (h : Held) (failureCode : String) (now : ℤ) (hheld : h ∈ w.held)
      (hstate : row.state = .running) (htoken : row.claimToken = some h.claim.claimToken) :
      Changes target w w' row
        (finishFailed failureCode h.claim.attemptCount h.claim.maxAttempts now row)
  | reschedule (excluded : Job) (hoperation : row.operation = .finalizeProjection)
      (hopen : ¬ Done w row.correlationId) (htarget : target = some row.correlationId) :
      Changes target w w' row (reschedule excluded row)
  | queue (failureCode : String) (now : ℤ) (hstate : row.state = .pending)
      (harmed : row.jobId ∈ w.armed) :
      Changes target w w' row
        { row with nextAttemptAt := now, lastErrorCode := some failureCode, updatedAt := now }
  | complete (now : ℤ) (hstate : row.state = .pending) (harmed : row.jobId ∈ w.armed) :
      Changes target w w' row
        { row with
          state := .completed, completedAt := some now, lastErrorCode := none, updatedAt := now }

/-- A row that was just inserted. -/
structure Fresh (row : Job) : Prop where
  state : row.state = .pending
  attempts : row.attemptCount = 0
  bound : row.maxAttempts = 8
  token : row.claimToken = none
  target : row.operation = .finalizeProjection → row.registrationId = some row.correlationId

/-- A claim in the hands of a worker afterwards: it held it before, or has just drawn its token. -/
def HeldFrom (w w' : World) (h' : Held) : Prop :=
  h'.claim.claimToken ∈ w'.tokens ∧
    ((∃ h ∈ w.held, h.claim = h'.claim ∧ (h'.outcome = some true → h.outcome = some true ∨
        (h.claim.operation = .finalizeProjection →
          ∀ r, h.claim.registrationId = some r → Done w' r))) ∨
      h'.outcome = none ∧ h'.claim.claimToken ∉ w.tokens)

/-- What a transaction, or one row of a claim, does. -/
structure Micro (target : Option ℕ) (w w' : World) : Prop where
  admitted : Admitted w'.store.jobs
  rows : ∃ g : Job → Job, ∃ fresh : List Job, w'.store.jobs = w.store.jobs.map g ++ fresh ∧
    (∀ row ∈ w.store.jobs, Changes target w w' row (g row)) ∧ ∀ row ∈ fresh, Fresh row
  done : ∀ r, Done w r → Done w' r
  tokens : w.tokens ⊆ w'.tokens
  held : ∀ h' ∈ w'.held, HeldFrom w w' h'
  armed : ∀ id ∈ w'.armed, id ∈ w.armed ∨
    ∃ row ∈ w'.store.jobs, row.jobId = id ∧ row.operation ≠ .finalizeProjection

def HeldTokens (w : World) : Prop := ∀ h ∈ w.held, h.claim.claimToken ∈ w.tokens

variable {w w' : World}

theorem held_same (hheld : w'.held = w.held) (htokens : w'.tokens = w.tokens)
    (hdrawn : HeldTokens w) : ∀ h' ∈ w'.held, HeldFrom w w' h' := by
  intro h' hmem
  rw [hheld] at hmem
  rw [HeldFrom, htokens]
  exact ⟨hdrawn h' hmem, Or.inl ⟨h', hmem, rfl, Or.inl⟩⟩

theorem Micro.of_jobs (hadmitted : Admitted w.store.jobs)
    (hjobs : w'.store.jobs = w.store.jobs) (hdone : ∀ r, Done w r → Done w' r)
    (htokens : w'.tokens = w.tokens) (hheld : w'.held = w.held) (harmed : w'.armed = w.armed)
    (hdrawn : HeldTokens w) : Micro target w w' where
  admitted := by rw [hjobs]; exact hadmitted
  rows := ⟨id, [], by rw [hjobs, List.map_id, List.append_nil], fun _ _ => .same,
    List.forall_mem_nil _⟩
  done := hdone
  tokens := by rw [htokens]; exact List.Subset.refl _
  held := held_same hheld htokens hdrawn
  armed := by
    intro id hid
    rw [harmed] at hid
    exact Or.inl hid

theorem Micro.of_update {f : Job → Job} (hadmitted : Admitted w.store.jobs)
    (hrow : row ∈ w.store.jobs) (hjobs : w'.store.jobs = updateJob w.store.jobs row.jobId f)
    (hadmitted' : Admitted w'.store.jobs) (hchanges : Changes target w w' row (f row))
    (hdone : ∀ r, Done w r → Done w' r) (htokens : w.tokens ⊆ w'.tokens)
    (hheld : ∀ h' ∈ w'.held, HeldFrom w w' h') (harmed : w'.armed = w.armed) : Micro target w w' where
  admitted := hadmitted'
  rows := by
    refine ⟨fun job => if job.jobId = row.jobId then f job else job, [], ?_, ?_,
      List.forall_mem_nil _⟩
    · rw [hjobs, List.append_nil, updateJob]
    · intro job hjob
      show Changes target w w' job (if job.jobId = row.jobId then f job else job)
      split_ifs with hid
      · rw [hadmitted.eq_of_jobId hjob hrow hid]
        exact hchanges
      · exact .same
  done := hdone
  tokens := htokens
  held := hheld
  armed := by
    intro id hid
    rw [harmed] at hid
    exact Or.inl hid

theorem Micro.of_insert (hjobs : w'.store.jobs = w.store.jobs ++ [row])
    (hadmitted : Admitted w'.store.jobs) (hfresh : Fresh row) (hdone : ∀ r, Done w r → Done w' r)
    (htokens : w'.tokens = w.tokens) (hheld : w'.held = w.held) (hdrawn : HeldTokens w)
    (harmed : ∀ id ∈ w'.armed, id ∈ w.armed ∨ row.jobId = id ∧ row.operation ≠ .finalizeProjection) :
    Micro target w w' where
  admitted := hadmitted
  rows := by
    refine ⟨id, [row], by rw [hjobs, List.map_id], fun _ _ => .same, ?_⟩
    exact List.forall_mem_singleton.mpr hfresh
  done := hdone
  tokens := by rw [htokens]; exact List.Subset.refl _
  held := held_same hheld htokens hdrawn
  armed := by
    intro id hid
    refine (harmed id hid).imp_right fun hnew => ⟨row, ?_, hnew⟩
    rw [hjobs]
    exact List.mem_append_right _ (List.mem_singleton_self _)

/-! ### Claims -/

variable {store : Store} {now : ℤ} {w : World}

theorem claimOne_micro {claim : Claim} {instanceId jobId token : ℕ}
    (hadmitted : Admitted w.store.jobs) (hdrawn : HeldTokens w) (hfresh : token ∉ w.tokens)
    (h : claimOne settings w.store instanceId jobId token now = some (store, claim)) :
    Micro none w
      { w with store, held := w.held ++ [⟨claim, none⟩], tokens := w.tokens ++ [token] } := by
  obtain ⟨row, hfind, h⟩ := Option.bind_eq_some_iff.mp h
  obtain ⟨store', hsave, h⟩ := Option.bind_eq_some_iff.mp h
  cases h
  obtain ⟨rfl, hadmitted'⟩ := save_eq_some hsave
  obtain ⟨hrow, hdue⟩ := find_job hfind
  simp only [decide_eq_true_eq, due] at hdue
  obtain ⟨hid, hdue⟩ := hdue
  have htoken : token ∈ w.tokens ++ [token] := List.mem_append_right _ (List.mem_singleton_self _)
  refine Micro.of_update hadmitted hrow (by rw [hid]) hadmitted' ?_ (fun _ hdone => hdone)
    (List.subset_append_left _ _) ?_ rfl
  · exact .claim instanceId token now
      (hdue.imp (fun hpending => ⟨hpending.1, hpending.2.2⟩) fun hrunning => hrunning.1) hfresh htoken
      rfl
  · intro h' hmem
    rcases List.mem_append.mp hmem with hmem | hmem
    · exact ⟨List.mem_append_left _ (hdrawn h' hmem), Or.inl ⟨h', hmem, rfl, Or.inl⟩⟩
    · rw [List.mem_singleton.mp hmem]
      exact ⟨htoken, Or.inr ⟨rfl, hfresh⟩⟩

/-! ### Registrations -/

theorem done_setRegistration {registrationId : ℕ} {latest : Registration}
    (hstore : store.registrations =
      (w.store.setRegistration registrationId latest).registrations)
    (h : latest.state = .completed ∨ ¬ Done w registrationId) {r : ℕ} (hdone : Done w r) :
    Done { w with store } r := by
  show (store.registrations r).map (·.state) = some .completed
  rw [hstore]
  show (Function.update w.store.registrations registrationId (some latest) r).map (·.state) = _
  by_cases hr : r = registrationId
  · subst hr
    rw [Function.update_self]
    rcases h with hcompleted | hopen
    · rw [Option.map_some, hcompleted]
    · exact absurd hdone hopen
  · rw [Function.update_of_ne hr]
    exact hdone

theorem not_done_of_open {registrationId : ℕ} {latest : Registration}
    (hlatest : w.store.registrations registrationId = some latest)
    (hopen : latest.state ≠ .completed) : ¬ Done w registrationId := by
  intro hdone
  rw [Done, hlatest, Option.map_some] at hdone
  exact hopen (Option.some.inj hdone)

theorem finalizeRegistration_done {registrationId accountId : ℕ}
    (h : finalizeRegistration w.store registrationId accountId = some store) :
    store.jobs = w.store.jobs ∧ (∀ r, Done w r → Done { w with store } r) ∧
      Done { w with store } registrationId := by
  obtain ⟨latest, hlatest, rfl⟩ := Option.map_eq_some_iff.mp h
  by_cases hcompleted : latest.state = .completed
  · rw [if_pos hcompleted]
    refine ⟨rfl, fun _ hdone => hdone, ?_⟩
    show (w.store.registrations registrationId).map (·.state) = some .completed
    rw [hlatest, Option.map_some, hcompleted]
  · rw [if_neg hcompleted]
    refine ⟨rfl, fun r => done_setRegistration rfl (Or.inl rfl), ?_⟩
    show (Function.update w.store.registrations registrationId _ registrationId).map _ = _
    rw [Function.update_self]
    rfl

theorem prepareRegistration_done (w : World) (registrationId : ℕ) :
    (prepareRegistration w.store registrationId).jobs = w.store.jobs ∧
      ∀ r, Done w r → Done { w with store := prepareRegistration w.store registrationId } r := by
  unfold prepareRegistration
  cases hlatest : w.store.registrations registrationId with
  | none =>
    refine ⟨rfl, fun r => done_setRegistration rfl (Or.inr ?_)⟩
    rw [Done, hlatest]
    simp
  | some latest =>
    obtain ⟨state, accountId⟩ := latest
    cases state with
    | completed => exact ⟨rfl, fun _ hdone => hdone⟩
    | keycloakPending =>
      exact ⟨rfl, fun r => done_setRegistration rfl (Or.inr (not_done_of_open hlatest nofun))⟩
    | projectionPending =>
      exact ⟨rfl, fun r => done_setRegistration rfl (Or.inr (not_done_of_open hlatest nofun))⟩

/-! ### The other transactions -/

variable {succeeded : Bool}

theorem performJob_done {claim : Claim} {accountId : ℕ}
    (h : performJob w.store claim succeeded accountId = some store) :
    store.jobs = w.store.jobs ∧ (∀ r, Done w r → Done { w with store } r) ∧
      (succeeded → claim.operation = .finalizeProjection →
        ∀ r, claim.registrationId = some r → Done { w with store } r) := by
  rw [performJob] at h
  split_ifs at h with hfailed
  · cases h
    refine ⟨rfl, fun _ hdone => hdone, fun hsucceeded => ?_⟩
    rw [hfailed] at hsucceeded
    cases hsucceeded
  · cases hoperation : claim.operation with
    | finalizeProjection =>
      simp only [hoperation] at h
      obtain ⟨registrationId, hregistration, h⟩ := Option.bind_eq_some_iff.mp h
      obtain ⟨hjobs, hdone, hnow⟩ := finalizeRegistration_done h
      refine ⟨hjobs, hdone, fun _ _ r hr => ?_⟩
      rw [← Option.some.inj (hregistration.symm.trans hr)]
      exact hnow
    | deleteKeycloakUser =>
      simp only [hoperation] at h
      cases h
    | updateKeycloakUser | setKeycloakStatus =>
      simp only [hoperation] at h
      obtain ⟨_, -, rfl⟩ := Option.map_eq_some_iff.mp h
      exact ⟨rfl, fun _ hdone => hdone, fun _ => nofun⟩

theorem perform_micro {token accountId : ℕ}
    (hadmitted : Admitted w.store.jobs) (hdrawn : HeldTokens w)
    (h : step settings w (.perform token succeeded accountId) = some w') : Micro none w w' := by
  obtain ⟨held, hfind, h⟩ := Option.bind_eq_some_iff.mp h
  obtain ⟨store, hperform, h⟩ := Option.bind_eq_some_iff.mp h
  cases h
  obtain ⟨hjobs, hdone, hnow⟩ := performJob_done hperform
  refine ⟨by rw [show store.jobs = _ from hjobs]; exact hadmitted, ?_, hdone,
    List.Subset.refl _, ?_, fun _ => Or.inl⟩
  · exact ⟨id, [], by rw [List.map_id, List.append_nil]; exact hjobs, fun _ _ => .same,
      List.forall_mem_nil _⟩
  · intro h' hmem
    obtain ⟨g, hg, rfl⟩ := List.mem_map.mp hmem
    by_cases hsame : g = held
    · rw [if_pos hsame]
      refine ⟨hdrawn g hg, Or.inl ⟨g, hg, rfl, fun hsucceeded => Or.inr ?_⟩⟩
      rw [hsame]
      exact hnow (Option.some.inj hsucceeded)
    · rw [if_neg hsame]
      exact ⟨hdrawn g hg, Or.inl ⟨g, hg, rfl, Or.inl⟩⟩

variable {failureCode : String}

theorem finish_changes {h : Held} {succeeded result : Bool}
    (hheld : h ∈ w.held)
    (houtcome : succeeded → h.outcome = some true)
    (hfinish : finishReconciliationJob w.store h.claim.jobId h.claim.claimToken succeeded failureCode
      h.claim.attemptCount h.claim.maxAttempts now = some (result, store)) :
    store.registrations = w.store.registrations ∧
      (store.jobs = w.store.jobs ∨ Admitted store.jobs ∧
        ∃ row ∈ w.store.jobs, row.state = .running ∧ row.claimToken = some h.claim.claimToken ∧
          ∃ f, store.jobs = updateJob w.store.jobs row.jobId f ∧
            ∀ target w', Changes target w w' row (f row)) := by
  rw [finishReconciliationJob] at hfinish
  cases hfind : w.store.jobs.find? fun row => row.jobId = h.claim.jobId ∧ row.state = .running ∧
      row.claimToken = some h.claim.claimToken with
  | none =>
    simp only [hfind] at hfinish
    cases hfinish
    exact ⟨rfl, Or.inl rfl⟩
  | some row =>
    simp only [hfind] at hfinish
    obtain ⟨hrow, hmatch⟩ := find_job hfind
    simp only [decide_eq_true_eq] at hmatch
    obtain ⟨hid, hstate, htoken⟩ := hmatch
    split_ifs at hfinish with hsucceeded
    · obtain ⟨store', hsave, hfinish⟩ := Option.bind_eq_some_iff.mp hfinish
      cases hfinish
      obtain ⟨rfl, hadmitted'⟩ := save_eq_some hsave
      exact ⟨rfl, Or.inr ⟨hadmitted', row, hrow, hstate, htoken, _, by rw [hid], fun _ w' =>
        .succeed h now hheld hstate htoken (houtcome hsucceeded)⟩⟩
    · obtain ⟨accounts, -, hfinish⟩ := Option.bind_eq_some_iff.mp hfinish
      obtain ⟨store', hsave, hfinish⟩ := Option.bind_eq_some_iff.mp hfinish
      cases hfinish
      obtain ⟨rfl, hadmitted'⟩ := save_eq_some hsave
      exact ⟨rfl, Or.inr ⟨hadmitted', row, hrow, hstate, htoken, _, by rw [hid], fun _ w' =>
        .fail h failureCode now hheld hstate htoken⟩⟩

theorem finish_micro {token : ℕ}
    (hadmitted : Admitted w.store.jobs) (hdrawn : HeldTokens w)
    (h : step settings w (.finish token succeeded failureCode now) = some w') :
    Micro none w w' ∧ ∀ row ∈ w.store.jobs, row ∉ w'.store.jobs →
      row.state = .running ∧ row.claimToken = some token := by
  obtain ⟨held, hfind, h⟩ := Option.bind_eq_some_iff.mp h
  obtain ⟨⟨result, store⟩, hfinish, h⟩ := Option.bind_eq_some_iff.mp h
  cases h
  have hheld : held ∈ w.held := List.mem_of_find?_eq_some hfind
  have hmatch := List.find?_some hfind
  simp only [decide_eq_true_eq] at hmatch
  obtain ⟨rfl, hready⟩ := hmatch
  have houtcome : succeeded → held.outcome = some true := by
    intro hsucceeded
    subst hsucceeded
    split_ifs at hready with hexhausted
    cases houtcome : held.outcome with
    | none => simp [houtcome] at hready
    | some performed => simpa [houtcome] using hready
  obtain ⟨hregistrations, hjobs⟩ := finish_changes hheld houtcome hfinish
  have hfrom : ∀ h' ∈ w.held.filter fun h => h.claim.claimToken ≠ held.claim.claimToken,
      HeldFrom w
        { w with store, held := w.held.filter fun h => h.claim.claimToken ≠ held.claim.claimToken }
        h' := by
    intro h' hmem
    have hmem := List.mem_of_mem_filter hmem
    exact ⟨hdrawn h' hmem, Or.inl ⟨h', hmem, rfl, Or.inl⟩⟩
  have hdone : ∀ r, Done w r → (store.registrations r).map (·.state) = some .completed := by
    rw [hregistrations]
    exact fun _ hdone => hdone
  rcases hjobs with hjobs | ⟨hadmitted', row, hrow, hstate, htoken, f, hjobs, hchanges⟩
  · refine ⟨⟨by rw [show store.jobs = _ from hjobs]; exact hadmitted, ?_, hdone,
      List.Subset.refl _, hfrom, fun _ => Or.inl⟩, fun row hrow hgone => ?_⟩
    · exact ⟨id, [], by rw [List.map_id, List.append_nil]; exact hjobs, fun _ _ => .same,
        List.forall_mem_nil _⟩
    · exact absurd (by rw [show store.jobs = _ from hjobs]; exact hrow) hgone
  · refine ⟨Micro.of_update hadmitted hrow hjobs hadmitted' (hchanges _ _) hdone
      (List.Subset.refl _) hfrom rfl, fun row' hrow' hgone => ?_⟩
    have hid : row'.jobId = row.jobId := by
      by_contra hne
      refine hgone ?_
      rw [show store.jobs = _ from hjobs, updateJob]
      exact List.mem_map.mpr ⟨row', hrow', if_neg hne⟩
    rw [hadmitted.eq_of_jobId hrow' hrow hid]
    exact ⟨hstate, htoken⟩

theorem schedule_micro {registrationId keycloakUserId storageKey requestDigest : ℕ}
    {jobId : ℕ} (hadmitted : Admitted w.store.jobs)
    (hdrawn : HeldTokens w)
    (h : step settings w (.schedule registrationId keycloakUserId failureCode storageKey requestDigest
      jobId now) = some w') : Micro (Action.schedules w (.schedule registrationId keycloakUserId
      failureCode storageKey requestDigest jobId now)) w w' := by
  obtain ⟨store, hschedule, h⟩ := Option.bind_eq_some_iff.mp h
  cases h
  rw [scheduleRegistrationReconciliation] at hschedule
  cases hlatest : w.store.registrations registrationId with
  | none =>
    simp only [hlatest] at hschedule
    cases hschedule
    exact Micro.of_jobs hadmitted rfl (fun _ hdone => hdone) rfl rfl rfl hdrawn
  | some latest =>
    simp only [hlatest] at hschedule
    split_ifs at hschedule with hcompleted
    · cases hschedule
      exact Micro.of_jobs hadmitted rfl (fun _ hdone => hdone) rfl rfl rfl hdrawn
    · obtain ⟨rfl, hadmitted'⟩ := save_eq_some hschedule
      have hopen := not_done_of_open hlatest hcompleted
      have hregistrations : (w.store.setRegistration registrationId
          { latest with state := .projectionPending }).registrations = _ := rfl
      have hdone : ∀ r, Done w r → (Function.update w.store.registrations registrationId
          (some { latest with state := .projectionPending }) r).map (·.state) = some .completed :=
        fun _ => done_setRegistration hregistrations (Or.inr hopen)
      unfold upsert at hadmitted' ⊢
      split_ifs at hadmitted' ⊢ with hconflict
      · refine ⟨hadmitted', ⟨_, [], (List.append_nil _).symm, fun row _ => ?_,
          List.forall_mem_nil _⟩, hdone, List.Subset.refl _, held_same rfl rfl hdrawn,
          fun _ => Or.inl⟩
        split_ifs with htarget
        · rw [Job.sameTarget] at htarget
          obtain ⟨hcorrelation, hoperation⟩ := of_decide_eq_true htarget
          refine .reschedule _ hoperation (by rw [hcorrelation]; exact hopen) ?_
          rw [Action.schedules, hlatest, Option.any_some, decide_eq_true hcompleted, hcorrelation]
          rfl
        · exact .same
      · exact Micro.of_insert rfl hadmitted' ⟨rfl, rfl, rfl, rfl, fun _ => rfl⟩ hdone rfl rfl hdrawn
          fun _ => Or.inl

theorem arm_micro {accountId expectedVersion userId jobId correlationId : ℕ}
    {jobDocument : JobDocument} (hdrawn : HeldTokens w)
    (h : step settings w (.arm accountId expectedVersion userId jobDocument jobId correlationId now) =
      some w') : Micro none w w' := by
  obtain ⟨store, harm, h⟩ := Option.bind_eq_some_iff.mp h
  cases h
  obtain ⟨account, -, harm⟩ := Option.bind_eq_some_iff.mp harm
  split_ifs at harm with hrefused hactive
  obtain ⟨rfl, hadmitted'⟩ := save_eq_some harm
  refine Micro.of_insert rfl hadmitted' ⟨rfl, rfl, rfl, rfl, nofun⟩ (fun _ hdone => hdone) rfl rfl
    hdrawn fun id hid => ?_
  refine (List.mem_append.mp hid).imp_right fun hnew => ?_
  exact ⟨(List.mem_singleton.mp hnew).symm, nofun⟩

theorem queue_micro {jobId : ℕ}
    (hadmitted : Admitted w.store.jobs) (hdrawn : HeldTokens w)
    (h : step settings w (.queue jobId failureCode now) = some w') : Micro none w w' := by
  simp only [step] at h
  split_ifs at h with harmed
  obtain ⟨store, hqueue, h⟩ := Option.bind_eq_some_iff.mp h
  cases h
  rw [queueAccountCompensation] at hqueue
  cases hfind : w.store.jobs.find? fun row => row.jobId = jobId with
  | none =>
    simp only [hfind] at hqueue
    cases hqueue
    exact Micro.of_jobs hadmitted rfl (fun _ hdone => hdone) rfl rfl rfl hdrawn
  | some row =>
    simp only [hfind] at hqueue
    split_ifs at hqueue with hstate
    · cases hqueue
      exact Micro.of_jobs hadmitted rfl (fun _ hdone => hdone) rfl rfl rfl hdrawn
    · obtain ⟨rfl, hadmitted'⟩ := save_eq_some hqueue
      obtain ⟨hrow, hid⟩ := find_job hfind
      have hid : row.jobId = jobId := by simpa using hid
      subst hid
      exact Micro.of_update hadmitted hrow rfl hadmitted'
        (.queue failureCode now (not_not.mp hstate) harmed) (fun _ hdone => hdone)
        (List.Subset.refl _) (held_same rfl rfl hdrawn) rfl

theorem commit_micro {mutation : Mutation} {accountId expectedVersion jobId : ℕ}
    (hadmitted : Admitted w.store.jobs) (hdrawn : HeldTokens w)
    (h : step settings w (.commit mutation accountId expectedVersion jobId now) = some w') :
    Micro none w w' := by
  simp only [step] at h
  split_ifs at h with harmed
  obtain ⟨store, hcommit, h⟩ := Option.bind_eq_some_iff.mp h
  cases h
  obtain ⟨account, -, hcommit⟩ := Option.bind_eq_some_iff.mp hcommit
  split_ifs at hcommit with hversion
  obtain ⟨row, hfind, hcommit⟩ := Option.bind_eq_some_iff.mp hcommit
  split_ifs at hcommit with hstate
  obtain ⟨rfl, hadmitted'⟩ := save_eq_some hcommit
  obtain ⟨hrow, hid⟩ := find_job hfind
  have hid : row.jobId = jobId := by simpa using hid
  subst hid
  exact Micro.of_update hadmitted hrow rfl hadmitted' (.complete now (not_not.mp hstate) harmed)
    (fun _ hdone => hdone) (List.Subset.refl _) (held_same rfl rfl hdrawn) rfl

end CyberControl.Reconciliation
