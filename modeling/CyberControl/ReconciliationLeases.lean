import CyberControl.ReconciliationSteps

/-! # Leases of the reconciliation jobs

What holds of the jobs in every run of the workers and callers. -/

namespace CyberControl.Reconciliation

variable {settings : Settings} {target : Option ℕ}

/-! ### The invariant -/

/-- The columns of a row that a claim carries. -/
structure Matches (claim : Claim) (row : Job) : Prop where
  attempts : claim.attemptCount = row.attemptCount
  bound : claim.maxAttempts = row.maxAttempts
  jobId : claim.jobId = row.jobId
  operation : claim.operation = row.operation
  registration : claim.registrationId = row.registrationId

structure RowOk (w : World) (row : Job) : Prop where
  attempts : row.attemptCount ≤ row.maxAttempts
  account : row.operation ≠ .finalizeProjection → row.state = .pending →
    row.attemptCount < row.maxAttempts
  target : row.operation = .finalizeProjection → row.registrationId = some row.correlationId
  token : ∀ t, row.claimToken = some t → t ∈ w.tokens
  held : ∀ h ∈ w.held, row.claimToken = some h.claim.claimToken → Matches h.claim row
  completed : row.operation = .finalizeProjection → row.state = .completed →
    ∀ r, row.registrationId = some r → Done w r

/-- **The invariant.** -/
structure Invariant (w : World) : Prop where
  admitted : Admitted w.store.jobs
  rows : ∀ row ∈ w.store.jobs, RowOk w row
  drawn : HeldTokens w
  performed : ∀ h ∈ w.held, h.outcome = some true → h.claim.operation = .finalizeProjection →
    ∀ r, h.claim.registrationId = some r → Done w r
  armed : ∀ id ∈ w.armed, ∃ row ∈ w.store.jobs, row.jobId = id ∧ row.operation ≠ .finalizeProjection

theorem Invariant.initial (accounts : List Account) : Invariant (World.initial accounts) where
  admitted := ⟨List.forall_mem_nil _, List.Pairwise.nil⟩
  rows := List.forall_mem_nil _
  drawn := List.forall_mem_nil _
  performed := List.forall_mem_nil _
  armed := List.forall_mem_nil _

variable {w w' : World}

theorem RowOk.held_of_micro {row : Job} (h : RowOk w row)
    (hmicro : Micro target w w') :
    ∀ h' ∈ w'.held, row.claimToken = some h'.claim.claimToken → Matches h'.claim row := by
  intro h' hmem htoken
  obtain ⟨-, ⟨g, hg, hclaim, -⟩ | ⟨-, hfresh⟩⟩ := hmicro.held h' hmem
  · rw [← hclaim] at htoken ⊢
    exact h.held g hg htoken
  · exact absurd (h.token _ htoken) hfresh

/-- **What happens to a row keeps what holds of it.** -/
theorem RowOk.of_changes {row row' : Job} (h : RowOk w row) (hinv : Invariant w)
    (hrow : row ∈ w.store.jobs) (hmicro : Micro target w w') (hrow' : row' ∈ w'.store.jobs)
    (hchanges : Changes target w w' row row') : RowOk w' row' := by
  have htoken : ∀ t, row.claimToken = some t → t ∈ w'.tokens :=
    fun t ht => hmicro.tokens (h.token t ht)
  have hheld := h.held_of_micro hmicro
  have hcompleted : row.operation = .finalizeProjection → row.state = .completed →
      ∀ r, row.registrationId = some r → Done w' r :=
    fun hoperation hstate r hr => hmicro.done r (h.completed hoperation hstate r hr)
  cases hchanges with
  | same => exact ⟨h.attempts, h.account, h.target, htoken, hheld, hcompleted⟩
  | claim instanceId token now hdue hfresh htokens hnew =>
    have hattempts := h.attempts
    refine ⟨?_, ?_, h.target, ?_, ?_, ?_⟩
    · simp only [claimRow, Job.leaseExhausted, decide_eq_true_eq]
      split_ifs with hexhausted <;> omega
    · intro _ hpending
      cases hpending
    · intro t ht
      rw [← Option.some.inj ht]
      exact htokens
    · intro h' hmem ht
      rw [hnew] at hmem
      rcases List.mem_append.mp hmem with hmem | hmem
      · exact absurd (Option.some.inj ht ▸ hinv.drawn h' hmem) hfresh
      · rw [List.mem_singleton.mp hmem]
        exact ⟨rfl, rfl, rfl, rfl, rfl⟩
    · intro _ hcompleted
      cases hcompleted
  | succeed g now hg hstate ht houtcome =>
    refine ⟨h.attempts, ?_, h.target, ?_, ?_, ?_⟩
    · intro _ hpending
      cases hpending
    · intro t htoken
      cases htoken
    · intro _ _ htoken
      cases htoken
    intro hoperation _ r hr
    have hmatches := h.held g hg ht
    exact hmicro.done r (hinv.performed g hg houtcome (hmatches.operation.trans hoperation) r
      (hmatches.registration.trans hr))
  | fail g failureCode now hg hstate ht =>
    have hmatches := h.held g hg ht
    have hattempts := h.attempts
    refine ⟨h.attempts, ?_, h.target, ?_, ?_, ?_⟩
    · intro _ hpending
      show row.attemptCount < row.maxAttempts
      by_contra hexhausted
      simp only [finishFailed, hmatches.attempts, hmatches.bound] at hpending
      rw [if_pos (by omega)] at hpending
      cases hpending
    · intro t htoken
      cases htoken
    · intro _ _ htoken
      cases htoken
    · intro _ hfinished
      simp only [finishFailed] at hfinished
      split_ifs at hfinished
  | reschedule excluded hoperation hopen htarget =>
    have hnone : (reschedule excluded row).claimToken = none :=
      hmicro.admitted.token_eq_none hrow' (show ReconciliationState.pending ≠ _ by decide)
    refine ⟨h.attempts, fun hne => absurd hoperation hne, h.target, ?_, ?_, ?_⟩
    · intro t ht
      cases hnone.symm.trans ht
    · intro h' _ ht
      cases hnone.symm.trans ht
    · intro _ hcompleted
      cases hcompleted
  | queue failureCode now hstate harmed =>
    refine ⟨h.attempts, h.account, h.target, htoken, fun g hg ht => ?_, hcompleted⟩
    obtain ⟨hattempts, hbound, hid, hoperation, hregistration⟩ := hheld g hg ht
    exact ⟨hattempts, hbound, hid, hoperation, hregistration⟩
  | complete now hstate harmed =>
    refine ⟨h.attempts, ?_, h.target, htoken, fun g hg ht => ?_, fun hoperation => ?_⟩
    · intro _ hpending
      cases hpending
    · obtain ⟨hattempts, hbound, hid, hoperation, hregistration⟩ := hheld g hg ht
      exact ⟨hattempts, hbound, hid, hoperation, hregistration⟩
    obtain ⟨job, hjob, hid, hne⟩ := hinv.armed row.jobId harmed
    rw [hinv.admitted.eq_of_jobId hjob hrow hid] at hne
    exact absurd hoperation hne

variable {w : World}

theorem Fresh.rowOk {row : Job} (h : Fresh row) : RowOk w row where
  attempts := by rw [h.attempts]; exact Nat.zero_le _
  account := fun _ _ => by rw [h.attempts, h.bound]; decide
  target := h.target
  token := by
    intro _ ht
    cases h.token.symm.trans ht
  held := by
    intro _ _ ht
    cases h.token.symm.trans ht
  completed := by
    intro _ hstate
    cases h.state.symm.trans hstate

theorem Changes.columns {row row' : Job} (h : Changes target w w' row row') :
    row'.jobId = row.jobId ∧ row'.operation = row.operation ∧ row'.maxAttempts = row.maxAttempts := by
  cases h <;> exact ⟨rfl, rfl, rfl⟩

theorem Micro.row (h : Micro target w w') {row : Job} (hrow : row ∈ w.store.jobs) :
    ∃ row' ∈ w'.store.jobs, Changes target w w' row row' := by
  obtain ⟨g, fresh, hjobs, hchanges, -⟩ := h.rows
  refine ⟨g row, ?_, hchanges row hrow⟩
  rw [hjobs]
  exact List.mem_append_left _ (List.mem_map_of_mem hrow)

/-- **Step lemma.** -/
theorem Invariant.of_micro (hinv : Invariant w) (h : Micro target w w') :
    Invariant w' where
  admitted := h.admitted
  rows := by
    obtain ⟨g, fresh, hjobs, hchanges, hfresh⟩ := h.rows
    intro row' hrow'
    have hmem := hrow'
    rw [hjobs] at hmem
    rcases List.mem_append.mp hmem with hold | hnew
    · obtain ⟨row, hrow, rfl⟩ := List.mem_map.mp hold
      exact (hinv.rows row hrow).of_changes hinv hrow h hrow' (hchanges row hrow)
    · exact (hfresh row' hnew).rowOk
  drawn := fun h' hmem => (h.held h' hmem).1
  performed := by
    intro h' hmem houtcome hoperation r hr
    obtain ⟨-, ⟨g, hg, hclaim, hbefore⟩ | ⟨hnone, -⟩⟩ := h.held h' hmem
    · rw [← hclaim] at hoperation hr
      rcases hbefore houtcome with hold | hnow
      · exact h.done r (hinv.performed g hg hold hoperation r hr)
      · exact hnow hoperation r hr
    · exact absurd (hnone.symm.trans houtcome) nofun
  armed := by
    intro id hid
    rcases h.armed id hid with hold | hnew
    · obtain ⟨row, hrow, hrid, hne⟩ := hinv.armed id hold
      obtain ⟨row', hrow', hchanges⟩ := h.row hrow
      obtain ⟨hid', hoperation, -⟩ := hchanges.columns
      exact ⟨row', hrow', hid'.trans hrid, by rw [hoperation]; exact hne⟩
    · exact hnew

/-! ### Actions and runs -/

variable {action : Action}

/-- **What every micro step does, every action does.** -/
theorem step_induction {P : World → World → Prop} (hrefl : ∀ w, P w w)
    (htrans : ∀ u v w, P u v → P v w → P u w)
    (hmicro : ∀ v v', Invariant v → Micro (action.schedules w) v v' → P v v') (hinv : Invariant w)
    (h : step settings w action = some w') : Invariant w' ∧ P w w' := by
  have hone : ∀ w', Micro (action.schedules w) w w' → Invariant w' ∧ P w w' :=
    fun w' h => ⟨hinv.of_micro h, hmicro w w' hinv h⟩
  cases action with
  | claim instanceId picked now =>
    clear hone
    replace hmicro : ∀ v v', Invariant v → Micro none v v' → P v v' := hmicro
    replace h : claimAll settings w instanceId now picked = some w' := h
    induction picked generalizing w with
    | nil =>
      cases h
      exact ⟨hinv, hrefl _⟩
    | cons entry picked ih =>
      obtain ⟨jobId, token⟩ := entry
      rw [claimAll] at h
      split_ifs at h with hdrawn
      obtain ⟨⟨store, claim⟩, hclaim, h⟩ := Option.bind_eq_some_iff.mp h
      have hstep := claimOne_micro hinv.admitted hinv.drawn hdrawn hclaim
      obtain ⟨hinv', hrest⟩ := ih (hinv.of_micro hstep) h
      exact ⟨hinv', htrans _ _ _ (hmicro _ _ hinv hstep) hrest⟩
  | perform token succeeded accountId => exact hone w' (perform_micro hinv.admitted hinv.drawn h)
  | finish token succeeded failureCode now =>
    exact hone w' (finish_micro hinv.admitted hinv.drawn h).1
  | schedule registrationId keycloakUserId failureCode storageKey requestDigest jobId now =>
    exact hone w' (schedule_micro hinv.admitted hinv.drawn h)
  | prepare registrationId =>
    cases h
    obtain ⟨hjobs, hdone⟩ := prepareRegistration_done w registrationId
    exact hone _ (Micro.of_jobs hinv.admitted hjobs hdone rfl rfl rfl hinv.drawn)
  | finalize registrationId accountId =>
    obtain ⟨store, hfinalize, h⟩ := Option.bind_eq_some_iff.mp h
    cases h
    obtain ⟨hjobs, hdone, -⟩ := finalizeRegistration_done hfinalize
    exact hone _ (Micro.of_jobs hinv.admitted hjobs hdone rfl rfl rfl hinv.drawn)
  | arm accountId expectedVersion userId jobDocument jobId correlationId now =>
    exact hone w' (arm_micro hinv.drawn h)
  | queue jobId failureCode now => exact hone w' (queue_micro hinv.admitted hinv.drawn h)
  | commit mutation accountId expectedVersion jobId now =>
    exact hone w' (commit_micro hinv.admitted hinv.drawn h)

theorem Invariant.of_step (hinv : Invariant w)
    (h : step settings w action = some w') : Invariant w' :=
  (step_induction (P := fun _ _ => True) (fun _ => trivial) (fun _ _ _ _ _ => trivial)
    (fun _ _ _ _ => trivial) hinv h).1

variable {trace : List Action} {accounts : List Account}

theorem Invariant.of_run
    (h : Transition.run (step settings) (World.initial accounts) trace = some w) : Invariant w :=
  Transition.run_invariant (fun _ _ _ hinv hstep => hinv.of_step hstep) (Invariant.initial accounts) h

/-! ### Completed jobs -/

/-- A completed row stays as it is. -/
def CompletedStay (w w' : World) : Prop :=
  ∀ row ∈ w.store.jobs, row.state = .completed → row ∈ w'.store.jobs

theorem completed_micro (hinv : Invariant w) (h : Micro target w w') :
    CompletedStay w w' := by
  intro row hrow hcompleted
  obtain ⟨row', hrow', hchanges⟩ := h.row hrow
  have hne : ∀ {state}, row.state = state → state ≠ .completed → False :=
    fun hstate hne => hne (hstate.symm.trans hcompleted)
  cases hchanges with
  | same => exact hrow'
  | claim instanceId token now hdue =>
    rcases hdue with ⟨hstate, -⟩ | hstate
    · exact (hne hstate nofun).elim
    · exact (hne hstate nofun).elim
  | succeed g now hg hstate => exact (hne hstate nofun).elim
  | fail g failureCode now hg hstate => exact (hne hstate nofun).elim
  | reschedule excluded hoperation hopen htarget =>
    have hok := hinv.rows row hrow
    exact absurd (hok.completed hoperation hcompleted _ (hok.target hoperation)) hopen
  | queue failureCode now hstate => exact (hne hstate nofun).elim
  | complete now hstate => exact (hne hstate nofun).elim

theorem completed_step (hinv : Invariant w)
    (h : step settings w action = some w') : CompletedStay w w' := by
  refine (step_induction (fun _ row hrow _ => hrow) ?_ (fun _ _ => completed_micro) hinv h).2
  intro u v w huv hvw row hrow hcompleted
  exact hvw row (huv row hrow hcompleted) hcompleted

theorem completed_run (hinv : Invariant w)
    (h : Transition.run (step settings) w trace = some w') : CompletedStay w w' := by
  induction trace generalizing w with
  | nil =>
    cases h
    exact fun row hrow _ => hrow
  | cons action trace ih =>
    obtain ⟨v, hstep, hrun⟩ := Transition.run_cons_eq_some.mp h
    intro row hrow hcompleted
    have hstays := completed_step hinv hstep row hrow hcompleted
    exact ih (hinv.of_step hstep) hrun row hstays hcompleted

/-! ### Attempts left -/

def AttemptsLeft (w : World) : Prop :=
  ∀ row ∈ w.store.jobs, row.state = .pending → row.attemptCount < row.maxAttempts

/-- An action that schedules a registration finds its job, if any, with an attempt left. -/
def schedulesLive (w : World) (action : Action) : Bool :=
  (action.schedules w).all fun registrationId => w.store.jobs.all fun row =>
    (row.correlationId = registrationId ∧ row.operation = .finalizeProjection →
      row.attemptCount < row.maxAttempts : Bool)

/-- Some job is pending without an attempt left. -/
def Stuck (w : World) : Prop :=
  ∃ row ∈ w.store.jobs, row.state = .pending ∧ row.maxAttempts ≤ row.attemptCount

theorem stuck_iff : Stuck w ↔ ¬ AttemptsLeft w := by
  simp only [Stuck, AttemptsLeft]
  push Not
  rfl

theorem stuck_micro (hinv : Invariant w)
    (h : Micro target w w') (hstuck : Stuck w) : Stuck w' := by
  obtain ⟨row, hrow, hpending, hexhausted⟩ := hstuck
  obtain ⟨row', hrow', hchanges⟩ := h.row hrow
  have hne : row.state ≠ .running := by rw [hpending]; decide
  cases hchanges with
  | same => exact ⟨row, hrow', hpending, hexhausted⟩
  | claim instanceId token now hdue =>
    rcases hdue with ⟨-, hleft⟩ | hstate
    · omega
    · exact absurd hstate hne
  | succeed g now hg hstate => exact absurd hstate hne
  | fail g failureCode now hg hstate => exact absurd hstate hne
  | reschedule excluded hoperation hopen htarget => exact ⟨_, hrow', rfl, hexhausted⟩
  | queue failureCode now hstate harmed => exact ⟨_, hrow', hpending, hexhausted⟩
  | complete now hstate harmed =>
    obtain ⟨job, hjob, hid, hoperation⟩ := hinv.armed row.jobId harmed
    rw [hinv.admitted.eq_of_jobId hjob hrow hid] at hoperation
    have hleft := (hinv.rows row hrow).account hoperation hpending
    omega

/-- Only scheduling a job whose attempts are used up leaves it pending without one. -/
theorem attemptsLeft_micro (hinv : Invariant w)
    (h : Micro target w w') (hleft : AttemptsLeft w)
    (hlive : ∀ row ∈ w.store.jobs, target = some row.correlationId →
      row.operation = .finalizeProjection → row.attemptCount < row.maxAttempts) :
    AttemptsLeft w' := by
  intro row' hrow' hpending
  by_cases hoperation : row'.operation = .finalizeProjection
  · obtain ⟨g, fresh, hjobs, hchanges, hfresh⟩ := h.rows
    have hmem := hrow'
    rw [hjobs] at hmem
    rcases List.mem_append.mp hmem with hold | hnew
    · obtain ⟨row, hrow, heq⟩ := List.mem_map.mp hold
      have hchange := hchanges row hrow
      rw [heq] at hchange
      cases hchange with
      | same => exact hleft _ hrow hpending
      | claim => cases hpending
      | succeed => cases hpending
      | fail k failureCode now hk hstate htoken =>
        have hmatches := (hinv.rows row hrow).held k hk htoken
        by_contra hexhausted
        simp only [finishFailed, hmatches.attempts, hmatches.bound] at hpending hexhausted
        rw [if_pos (by omega)] at hpending
        cases hpending
      | reschedule excluded hfinalize hopen htarget => exact hlive row hrow htarget hfinalize
      | queue failureCode now hstate => exact hleft row hrow hstate
      | complete => cases hpending
    · rw [(hfresh row' hnew).attempts, (hfresh row' hnew).bound]
      decide
  · exact ((hinv.of_micro h).rows row' hrow').account hoperation hpending

theorem mem_upsert {jobs : List Job} {row excluded : Job} (hrow : row ∈ jobs)
    (hsame : row.sameTarget excluded) : reschedule excluded row ∈ upsert jobs excluded := by
  rw [upsert, if_pos (List.any_eq_true.mpr ⟨row, hrow, hsame⟩)]
  exact List.mem_map.mpr ⟨row, hrow, if_pos hsame⟩

theorem schedule_row {row : Job}
    (h : step settings w action = some w') (htarget : action.schedules w = some row.correlationId)
    (hrow : row ∈ w.store.jobs) (hoperation : row.operation = .finalizeProjection) :
    ∃ excluded, reschedule excluded row ∈ w'.store.jobs := by
  cases action with
  | schedule registrationId keycloakUserId failureCode storageKey requestDigest jobId now =>
    rw [Action.schedules] at htarget
    split_ifs at htarget with hopen
    obtain ⟨latest, hlatest, hstate⟩ := (Option.any_eq_true _ _).mp hopen
    have hid : registrationId = row.correlationId := Option.some.inj htarget
    obtain ⟨store, hschedule, h⟩ := Option.bind_eq_some_iff.mp h
    cases h
    simp only [scheduleRegistrationReconciliation, hlatest] at hschedule
    rw [if_neg (of_decide_eq_true hstate)] at hschedule
    obtain ⟨rfl, -⟩ := save_eq_some hschedule
    have hsame : row.sameTarget (newRegistrationJob jobId registrationId keycloakUserId
        latest.accountId failureCode ⟨storageKey, requestDigest, none⟩ now) :=
      decide_eq_true ⟨hid.symm, hoperation⟩
    exact ⟨_, mem_upsert hrow hsame⟩
  | _ => cases htarget

theorem attemptsLeft_step (hinv : Invariant w)
    (h : step settings w action = some w') :
    AttemptsLeft w' ↔ AttemptsLeft w ∧ schedulesLive w action := by
  constructor
  · intro hleft
    refine ⟨?_, ?_⟩
    · by_contra hstuck
      refine stuck_iff.mp ?_ hleft
      refine (step_induction (P := fun v v' => Stuck v → Stuck v') (fun _ => id)
        (fun _ _ _ huv hvw hu => hvw (huv hu)) (fun _ _ => stuck_micro) hinv h).2 ?_
      exact stuck_iff.mpr hstuck
    · rw [schedulesLive, Option.all_eq_true]
      intro r hr
      rw [List.all_eq_true]
      intro row hrow
      rw [decide_eq_true_eq]
      rintro ⟨rfl, hoperation⟩
      obtain ⟨excluded, hmem⟩ := schedule_row h hr hrow hoperation
      exact hleft (reschedule excluded row) hmem rfl
  · rintro ⟨hleft, hlive⟩
    have hlive : ∀ row ∈ w.store.jobs, action.schedules w = some row.correlationId →
        row.operation = .finalizeProjection → row.attemptCount < row.maxAttempts := by
      intro row hrow htarget hoperation
      have hall := (Option.all_eq_true _ _).mp hlive _ htarget
      exact of_decide_eq_true (List.all_eq_true.mp hall row hrow) ⟨rfl, hoperation⟩
    cases htarget : action.schedules w with
    | none =>
      refine (step_induction (P := fun v v' => AttemptsLeft v → AttemptsLeft v') (fun _ => id)
        (fun _ _ _ huv hvw hu => hvw (huv hu)) (fun v v' hinv hmicro hleft => ?_) hinv h).2 hleft
      rw [htarget] at hmicro
      exact attemptsLeft_micro hinv hmicro hleft fun _ _ => nofun
    | some registrationId =>
      cases action with
      | schedule =>
        exact attemptsLeft_micro hinv (schedule_micro hinv.admitted hinv.drawn h) hleft hlive
      | _ => cases htarget

/-- **Every pending job has an attempt left exactly when every scheduling found one.** -/
theorem attemptsLeft_run
    (h : Transition.run (step settings) (World.initial accounts) trace = some w) :
    AttemptsLeft w ↔
      Transition.AllSteps (step settings) (fun w action => schedulesLive w action)
        (World.initial accounts) trace := by
  refine (Transition.run_iff_allSteps (fun w action w' hinv hstep =>
    ⟨hinv.of_step hstep, attemptsLeft_step hinv hstep⟩) (Invariant.initial accounts) h).trans ?_
  exact and_iff_right (List.forall_mem_nil _)

/-! ### Performing a job -/

/-- A worker begins a job whose row still stores its token. -/
def holdsClaim (w : World) : Action → Bool
  | .perform token _ _ => w.store.jobs.any fun row => row.claimToken = some token
  | _ => true

/-- Every job that was performed was running. -/
def PerformedRunning (w : World) : Prop := ∀ p ∈ w.performed, p.state = some .running

theorem Admitted.running {jobs : List Job} (h : Admitted jobs) {row : Job} (hrow : row ∈ jobs)
    {token : ℕ} (htoken : row.claimToken = some token) : row.state = .running := by
  by_contra hstate
  rw [h.token_eq_none hrow hstate] at htoken
  cases htoken

theorem claimAll_performed {instanceId : ℕ} {now : ℤ} {picked : List (ℕ × ℕ)}
    (h : claimAll settings w instanceId now picked = some w') : w'.performed = w.performed := by
  induction picked generalizing w with
  | nil =>
    cases h
    rfl
  | cons entry picked ih =>
    obtain ⟨jobId, token⟩ := entry
    rw [claimAll] at h
    split_ifs at h with hdrawn
    obtain ⟨⟨store, claim⟩, -, h⟩ := Option.bind_eq_some_iff.mp h
    have hrest := ih h
    exact hrest

theorem performed_step (hinv : Invariant w)
    (hperformed : PerformedRunning w) (hholds : holdsClaim w action)
    (h : step settings w action = some w') : PerformedRunning w' := by
  cases action with
  | perform token succeeded accountId =>
    obtain ⟨held, hfind, h⟩ := Option.bind_eq_some_iff.mp h
    obtain ⟨store, hperform, h⟩ := Option.bind_eq_some_iff.mp h
    cases h
    have hmatch := List.find?_some hfind
    simp only [decide_eq_true_eq] at hmatch
    obtain ⟨rfl, -, -⟩ := hmatch
    obtain ⟨row, hrow, htoken⟩ := List.any_eq_true.mp hholds
    have htoken : row.claimToken = some held.claim.claimToken := by simpa using htoken
    have hmatches := (hinv.rows row hrow).held held (List.mem_of_find?_eq_some hfind) htoken
    intro p hp
    rcases List.mem_append.mp hp with hold | hnew
    · exact hperformed p hold
    · rw [List.mem_singleton.mp hnew]
      show (w.store.jobs.find? fun row => row.jobId = held.claim.jobId).map (·.state) = _
      cases hfound : w.store.jobs.find? fun row => row.jobId = held.claim.jobId with
      | none =>
        refine absurd (List.find?_eq_none.mp hfound row hrow) ?_
        simp [hmatches.jobId]
      | some row' =>
        obtain ⟨hrow', hid⟩ := find_job hfound
        have hid : row'.jobId = row.jobId := by simpa [hmatches.jobId] using hid
        rw [Option.map_some, hinv.admitted.eq_of_jobId hrow' hrow hid,
          hinv.admitted.running hrow htoken]
  | claim instanceId picked now =>
    rw [PerformedRunning, claimAll_performed h]
    exact hperformed
  | finish token succeeded failureCode now =>
    obtain ⟨_, -, h⟩ := Option.bind_eq_some_iff.mp h
    obtain ⟨_, -, h⟩ := Option.bind_eq_some_iff.mp h
    cases h
    exact hperformed
  | prepare registrationId =>
    cases h
    exact hperformed
  | queue jobId failureCode now =>
    simp only [step] at h
    split_ifs at h
    obtain ⟨_, -, h⟩ := Option.bind_eq_some_iff.mp h
    cases h
    exact hperformed
  | commit mutation accountId expectedVersion jobId now =>
    simp only [step] at h
    split_ifs at h
    obtain ⟨_, -, h⟩ := Option.bind_eq_some_iff.mp h
    cases h
    exact hperformed
  | schedule | finalize | arm =>
    obtain ⟨_, -, h⟩ := Option.bind_eq_some_iff.mp h
    cases h
    exact hperformed

theorem performed_run
    (hholds : Transition.AllSteps (step settings) (fun w action => holdsClaim w action)
      (World.initial accounts) trace)
    (h : Transition.run (step settings) (World.initial accounts) trace = some w) :
    PerformedRunning w := by
  refine (Transition.run_invariant_of (I := fun w => Invariant w ∧ PerformedRunning w)
    (fun w action w' hinv hhold hstep => ?_) ⟨Invariant.initial accounts, ?_⟩ hholds h).2
  · exact ⟨hinv.1.of_step hstep, performed_step hinv.1 hinv.2 hhold hstep⟩
  · exact List.forall_mem_nil _

/-! ### The leases -/

/-- One attempt of a worker on the job of a registration, which fails. -/
def failedAttempt (token : ℕ) : List Action :=
  [.claim 1 [(100, token)] (2 ^ token * 1000000), .perform token false 0,
    .finish token false "IDENTITY_REGISTRATION_UNAVAILABLE" (2 ^ token * 1000000)]

/-- A registration is scheduled, tried once, and tried again with success. -/
def recoveredRun : List Action :=
  [.prepare 7, .schedule 7 70 "TimeoutError" 1 11 100 0] ++ failedAttempt 1 ++
    [.claim 1 [(100, 2)] 5000000, .perform 2 true 5, .finish 2 true "" 5000000]

/-- Eight attempts fail; the registration is then submitted again and scheduled again. -/
def rescheduledRun : List Action :=
  [.prepare 7, .schedule 7 70 "TimeoutError" 1 11 100 0] ++
    (List.range 8).flatMap (fun n => failedAttempt (n + 1)) ++
    [.prepare 7, .schedule 7 70 "TimeoutError" 1 11 101 300000000]

/-- A worker claims a job and begins it when the lease has run out and another worker has finished
it. -/
def takenOverRun : List Action :=
  [.prepare 7, .schedule 7 70 "TimeoutError" 1 11 100 0, .claim 1 [(100, 1)] 1000000,
    .claim 2 [(100, 2)] 200000000, .perform 2 true 5, .finish 2 true "" 201000000,
    .perform 1 true 5]

end CyberControl.Reconciliation
