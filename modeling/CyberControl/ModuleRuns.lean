import CyberControl.ModuleExecution
import CyberControl.ModuleWaves

/-! # The runs of a dispatch plan

What `BoundedModuleExecutor.execute` of `verification/execution.py` reports and which handlers it calls, for
any plan and any behaviour of the handlers and of the clock. -/

namespace CyberControl.Verification

open Collections Scheduling

/-! ### Attempts -/

variable {outcome : ItemOutcome}

section attempts

/-- The state of an attempt that has ended. -/
def Invocation.state : Invocation → ModuleRunState
  | .finding _ => .SUCCEEDED
  | .deadlineExpired => .TIMED_OUT
  | .timedOut => .TIMED_OUT
  | .handlerError => .FAILED

/-- The error code that `_invoke` returns. -/
def Invocation.errorCode : Invocation → Option String
  | .finding _ => none
  | .deadlineExpired => some "VERIFICATION_DEADLINE_EXPIRED"
  | .timedOut => some "MODULE_TIMEOUT"
  | .handlerError => some "MODULE_HANDLER_ERROR"

variable (handlers : Handlers)

/-- The snapshots of an attempt that has ended. -/
def endedRuns (item : DispatchItem) (attempt : ℕ) : List ModuleRun :=
  attemptRuns item attempt (handlers.invoke item attempt).state (handlers.invoke item attempt).errorCode

/-- The item made the attempts 1 to `k`. -/
structure Attempted (item : DispatchItem) (outcome : ItemOutcome) (k : ℕ) : Prop where
  dispatchItemId_eq : outcome.dispatchItemId = item.dispatchItemId
  runs_eq : outcome.runs = (List.range' 1 k).flatMap (endedRuns handlers item)
  le_maxAttempts : k ≤ item.maxAttempts
  unsuccessful : ∀ a, 1 ≤ a → a < k → (handlers.invoke item a).state ≠ .SUCCEEDED
  result_iff : outcome.result.isSome ↔ 1 ≤ k ∧ (handlers.invoke item k).state = .SUCCEEDED
  exhausted : outcome.result = none → k = item.maxAttempts

variable {handlers} {verificationId : ℕ} {item : DispatchItem} {runs : List ModuleRun} {left attempt : ℕ}

theorem attemptsFrom_unsuccessful (h : (handlers.invoke item attempt).state ≠ .SUCCEEDED) :
    attemptsFrom handlers verificationId item (left + 1) attempt runs
      = attemptsFrom handlers verificationId item left (attempt + 1)
          (runs ++ endedRuns handlers item attempt) := by
  rw [attemptsFrom, endedRuns]
  cases hinvoke : handlers.invoke item attempt with
  | finding f =>
    rw [hinvoke] at h
    exact absurd rfl h
  | deadlineExpired => rfl
  | timedOut => rfl
  | handlerError => rfl

theorem attemptsFrom_successful (hstate : (handlers.invoke item attempt).state = .SUCCEEDED)
    (h : attemptsFrom handlers verificationId item (left + 1) attempt runs = .ok outcome) :
    outcome.runs = runs ++ endedRuns handlers item attempt ∧ outcome.result.isSome := by
  rw [attemptsFrom] at h
  rw [endedRuns]
  cases hinvoke : handlers.invoke item attempt with
  | finding f =>
    rw [hinvoke] at h
    obtain ⟨result, -, h⟩ := bind_eq_ok.mp h
    cases h
    exact ⟨rfl, rfl⟩
  | deadlineExpired =>
    rw [hinvoke] at hstate
    cases hstate
  | timedOut =>
    rw [hinvoke] at hstate
    cases hstate
  | handlerError =>
    rw [hinvoke] at hstate
    cases hstate

/-- **The attempts that are left end at the first success or at the last attempt.** -/
theorem attemptsFrom_runs (h : attemptsFrom handlers verificationId item left attempt runs = .ok outcome) :
    ∃ k ≤ left, outcome.runs = runs ++ (List.range' attempt k).flatMap (endedRuns handlers item) ∧
      (∀ a, attempt ≤ a → a + 1 < attempt + k → (handlers.invoke item a).state ≠ .SUCCEEDED) ∧
      (outcome.result.isSome ↔
        1 ≤ k ∧ (handlers.invoke item (attempt + k - 1)).state = .SUCCEEDED) ∧
      (outcome.result = none → k = left) := by
  induction left generalizing attempt runs with
  | zero =>
    cases h
    exact ⟨0, le_refl 0, by simp, by omega, by simp, fun _ => rfl⟩
  | succ left ih =>
    by_cases hstate : (handlers.invoke item attempt).state = .SUCCEEDED
    · obtain ⟨hruns, hresult⟩ := attemptsFrom_successful hstate h
      refine ⟨1, by omega, ?_, by omega, ?_, fun hnone => ?_⟩
      · rw [hruns]
        simp
      · exact ⟨fun _ => ⟨le_refl 1, hstate⟩, fun _ => hresult⟩
      · rw [hnone] at hresult
        cases hresult
    · rw [attemptsFrom_unsuccessful hstate] at h
      obtain ⟨k, hk, hruns, hbefore, hresult, hlast⟩ := ih h
      refine ⟨k + 1, by omega, ?_, fun a ha hlt => ?_, ?_, fun hnone => ?_⟩
      · rw [hruns, List.range'_succ, List.flatMap_cons, List.append_assoc]
      · by_cases haa : a = attempt
        · rw [haa]
          exact hstate
        · exact hbefore a (by omega) (by omega)
      · rw [hresult]
        cases k with
        | zero => simp [hstate]
        | succ k =>
          have hindex : attempt + 1 + (k + 1) - 1 = attempt + (k + 1 + 1) - 1 := by omega
          rw [hindex]
          simp
      · rw [hlast hnone]

theorem attemptsFrom_attempted
    (h : attemptsFrom handlers verificationId item item.maxAttempts 1 [] = .ok outcome) :
    ∃ k, Attempted handlers item outcome k := by
  obtain ⟨k, hk, hruns, hbefore, hresult, hlast⟩ := attemptsFrom_runs h
  rw [Nat.add_sub_cancel_left] at hresult
  exact ⟨k, (attemptsFrom_ok h).dispatchItemId_eq, by rw [hruns, List.nil_append], hk,
    fun a ha hlt => hbefore a ha (by omega), hresult, hlast⟩

end attempts

/-! ### Reports -/

variable {successful : List ℕ} {waves : List (List DispatchItem)} {outcomes : List ItemOutcome}
  {items : List DispatchItem}

section reports
variable (handlers : Handlers)

/-- The outcome of an item, given which items have a result. -/
inductive Report (successful : List ℕ) (item : DispatchItem) : ItemOutcome → Prop
  | dependencySkipped (h : ¬ ∀ dependency ∈ item.dependencyItemIds, dependency ∈ successful) :
      Report successful item (skipped item)
  | handlerMissing (h : ∀ dependency ∈ item.dependencyItemIds, dependency ∈ successful)
      (hregistered : handlers.registered item.module = false) :
      Report successful item (handlerMissing item)
  | attempted {outcome : ItemOutcome} {k : ℕ}
      (h : ∀ dependency ∈ item.dependencyItemIds, dependency ∈ successful)
      (hregistered : handlers.registered item.module = true)
      (hattempted : Attempted handlers item outcome k) : Report successful item outcome

variable {handlers} {verificationId : ℕ} {item : DispatchItem} {outcome : ItemOutcome}

theorem Report.dispatchItemId_eq (h : Report handlers successful item outcome) :
    outcome.dispatchItemId = item.dispatchItemId := by
  cases h with
  | dependencySkipped h => rfl
  | handlerMissing h hregistered => rfl
  | attempted h hregistered hattempted => exact hattempted.dispatchItemId_eq

theorem Report.congr {successful successful' : List ℕ} (h : Report handlers successful item outcome)
    (hsame : ∀ dependency ∈ item.dependencyItemIds, dependency ∈ successful ↔ dependency ∈ successful') :
    Report handlers successful' item outcome := by
  cases h with
  | dependencySkipped h =>
    refine .dependencySkipped fun hall => h fun dependency hdependency => ?_
    exact (hsame dependency hdependency).mpr (hall dependency hdependency)
  | handlerMissing h hregistered =>
    exact .handlerMissing (fun d hd => (hsame d hd).mp (h d hd)) hregistered
  | attempted h hregistered hattempted =>
    exact .attempted (fun d hd => (hsame d hd).mp (h d hd)) hregistered hattempted

theorem executeOrSkip_report (h : executeOrSkip handlers verificationId successful item = .ok outcome) :
    Report handlers successful item outcome := by
  unfold executeOrSkip executeItem at h
  split_ifs at h with hdependencies hregistered
  · obtain ⟨k, hk⟩ := attemptsFrom_attempted h
    exact .attempted hdependencies hregistered hk
  · cases h
    exact .handlerMissing hdependencies (by simpa using hregistered)
  · cases h
    exact .dependencySkipped hdependencies

theorem ids_of_forall₂ {R : DispatchItem → ItemOutcome → Prop}
    (h : List.Forall₂ R items outcomes)
    (hid : ∀ item outcome, R item outcome → outcome.dispatchItemId = item.dispatchItemId) :
    outcomes.map (·.dispatchItemId) = items.map (·.dispatchItemId) := by
  rw [← List.forall₂_eq_eq_eq, List.forall₂_map_left_iff, List.forall₂_map_right_iff]
  exact (h.imp fun item outcome hitem => hid item outcome hitem).flip

theorem mem_of_mem_successfulItems {id : ℕ} (h : id ∈ successfulItems outcomes) :
    id ∈ outcomes.map (·.dispatchItemId) := by
  obtain ⟨outcome, houtcome, -, rfl⟩ := mem_successfulItems.mp h
  exact List.mem_map_of_mem houtcome

/-- **The outcomes of the waves**: which items have a result is known before an item needs it. -/
theorem executeWaves_reports {successful completed : List ℕ}
    (hearliest : Earliest completed waves)
    (hids : (completed ++ waves.flatten.map (·.dispatchItemId)).Nodup)
    (h : executeWaves handlers verificationId waves successful = .ok outcomes) :
    List.Forall₂ (Report handlers (successful ++ successfulItems outcomes)) waves.flatten outcomes := by
  induction waves generalizing successful completed outcomes with
  | nil =>
    cases h
    exact .nil
  | cons wave waves ih =>
    obtain ⟨first, hfirst, h⟩ := bind_eq_ok.mp h
    obtain ⟨rest, hrest, h⟩ := bind_eq_ok.mp h
    cases h
    obtain ⟨hdone, -, hlater⟩ := hearliest
    have happend : successfulItems (first ++ rest) = successfulItems first ++ successfulItems rest := by
      simp [successfulItems]
    have hreports : List.Forall₂ (Report handlers successful) wave first :=
      (mapM_eq_ok.mp hfirst).imp fun _ _ hitem => executeOrSkip_report hitem
    have hfirstIds := ids_of_forall₂ hreports fun _ _ hreport => hreport.dispatchItemId_eq
    rw [List.flatten_cons, List.map_append] at hids
    have hrestReports := ih hlater (by rwa [List.append_assoc]) hrest
    have hrestIds := ids_of_forall₂ hrestReports fun _ _ hreport => hreport.dispatchItemId_eq
    rw [List.flatten_cons, happend]
    refine List.rel_append ?_ ?_
    · refine forall₂_imp_of_mem hreports ?_
      intro item hitem outcome _ hreport
      refine hreport.congr fun a ha => ?_
      have hcompleted := hdone item hitem a ha
      have hnew : a ∉ successfulItems first ++ successfulItems rest := by
        intro hin
        refine (List.nodup_append.mp hids).2.2 a hcompleted a ?_ rfl
        rw [← hfirstIds, ← hrestIds]
        rcases List.mem_append.mp hin with hin | hin
        · exact List.mem_append_left _ (mem_of_mem_successfulItems hin)
        · exact List.mem_append_right _ (mem_of_mem_successfulItems hin)
      rw [List.mem_append]
      exact ⟨.inl, fun hin => hin.resolve_right hnew⟩
    · rwa [← List.append_assoc]

/-- **The outcomes in the order of the plan**, one for each of its items. -/
theorem ordered_reports {outcomes ordered : List ItemOutcome} (hwaves : executionWaves items = .ok waves)
    (h : executeWaves handlers verificationId waves [] = .ok outcomes)
    (hordered : ordered = sortBy (fun o => (items.map (·.dispatchItemId)).idxOf o.dispatchItemId) outcomes) :
    List.Forall₂ (Report handlers (successfulItems ordered)) items ordered := by
  obtain ⟨hnodup, -, hrun⟩ := executionWaves_run hwaves
  have hperm := wavesFrom_perm (le_refl _) hrun
  have hreports := executeWaves_reports (earliest_wavesFrom (le_refl _) hrun)
    (by rw [List.nil_append]; exact (hperm.map _).nodup_iff.mpr hnodup) h
  rw [List.nil_append] at hreports
  have hids := ids_of_forall₂ hreports fun _ _ hreport => hreport.dispatchItemId_eq
  have hmap : ordered.map (·.dispatchItemId) = items.map (·.dispatchItemId) := by
    rw [hordered]
    refine map_sortBy_idxOf _ hnodup ?_
    rw [hids]
    exact hperm.map _
  have hmem : ∀ outcome, outcome ∈ ordered ↔ outcome ∈ outcomes := fun outcome => by
    rw [hordered, mem_sortBy]
  have hsame : List.Forall₂ (fun item outcome => outcome.dispatchItemId = item.dispatchItemId) items
      ordered := by
    rw [← List.forall₂_eq_eq_eq, List.forall₂_map_left_iff, List.forall₂_map_right_iff] at hmap
    exact hmap.flip
  refine forall₂_imp_of_mem hsame fun item hitem outcome houtcome hid => ?_
  obtain ⟨item', hitem', hreport⟩ := exists_of_mem_right hreports ((hmem outcome).mp houtcome)
  obtain rfl : item' = item := by
    refine List.inj_on_of_nodup_map hnodup (hperm.mem_iff.mp hitem') hitem ?_
    rw [← hreport.dispatchItemId_eq, hid]
  refine hreport.congr fun dependency _ => ?_
  simp only [mem_successfulItems, hmem]

end reports

/-! ### Run ids -/

variable {n : ℕ}

section ids

/-- The name from which `run_id` is made. -/
def runName (run : ModuleRun) : String :=
  match run.attempt with
  | 0 => if run.state = .SKIPPED then "dependency-skipped" else "handler-missing"
  | attempt + 1 => "attempt:" ++ toString (attempt + 1)

theorem attemptName_injective {m n : ℕ} (h : "attempt:" ++ toString m = "attempt:" ++ toString n) :
    m = n := by
  have hlist := congrArg String.toList h
  simp only [String.toList_append, List.append_cancel_left_eq, Nat.toString_eq_repr, Nat.toList_repr]
    at hlist
  have hnumber := congrArg (Nat.ofDigitChars 10 · 0) hlist
  simpa using hnumber

theorem runName_of_attempt {run : ModuleRun} (h : run.attempt = n) (hn : 1 ≤ n) :
    runName run = "attempt:" ++ toString n := by
  obtain ⟨m, rfl⟩ : ∃ m, n = m + 1 := ⟨n - 1, by omega⟩
  rw [runName, h]

inductive RunSnapshots (item : DispatchItem) : List ModuleRun → Prop
  | attempt (n : ℕ) (state : ModuleRunState) (errorCode : Option String)
      (hn : 1 ≤ n ∧ n ≤ item.maxAttempts)
      (hstate : state = .SUCCEEDED ∨ state = .FAILED ∨ state = .TIMED_OUT) :
      RunSnapshots item (attemptRuns item n state errorCode)
  | dependencySkipped : RunSnapshots item (skipped item).runs
  | handlerMissing : RunSnapshots item (handlerMissing item).runs

theorem filter_flatMap_of_mem {α β : Type} {f : α → List β} {p : β → Bool} {l : List α} {a : α}
    (hl : l.Nodup) (ha : a ∈ l) (h : ∀ b ∈ l, b ≠ a → (f b).filter p = []) :
    (l.flatMap f).filter p = (f a).filter p := by
  induction l with
  | nil => cases ha
  | cons b l ih =>
    obtain ⟨hb, hl⟩ := List.nodup_cons.mp hl
    rw [List.flatMap_cons, List.filter_append]
    rcases List.mem_cons.mp ha with rfl | hal
    · have hrest : (l.flatMap f).filter p = [] := by
        rw [List.filter_eq_nil_iff]
        intro c hc
        obtain ⟨d, hd, hcd⟩ := List.mem_flatMap.mp hc
        have hnone := h d (by simp [hd]) fun heq => hb (heq ▸ hd)
        exact List.filter_eq_nil_iff.mp hnone c hcd
      rw [hrest, List.append_nil]
    · have hne : b ≠ a := fun heq => hb (heq ▸ hal)
      rw [h b (by simp) hne, List.nil_append]
      exact ih hl hal fun c hc => h c (by simp [hc])

variable {handlers : Handlers} {item : DispatchItem} {outcome : ItemOutcome}

theorem mem_endedRuns {run : ModuleRun} (h : run ∈ endedRuns handlers item n) :
    run.dispatchItemId = item.dispatchItemId ∧ run.attempt = n := by
  simp only [endedRuns, attemptRuns, List.mem_cons, List.not_mem_nil, or_false] at h
  rcases h with rfl | rfl | rfl
  · exact ⟨rfl, rfl⟩
  · exact ⟨rfl, rfl⟩
  · exact ⟨rfl, rfl⟩

theorem Invocation.state_terminal (invocation : Invocation) : invocation.state = .SUCCEEDED ∨
    invocation.state = .FAILED ∨ invocation.state = .TIMED_OUT := by
  cases invocation with
  | finding f => exact .inl rfl
  | deadlineExpired => exact .inr (.inr rfl)
  | timedOut => exact .inr (.inr rfl)
  | handlerError => exact .inr (.inl rfl)

/-- **The snapshots of an item under one name** are those of one attempt, or the only one. -/
theorem Report.runs (h : Report handlers successful item outcome) :
    ∀ run ∈ outcome.runs, run.dispatchItemId = item.dispatchItemId ∧
      RunSnapshots item (outcome.runs.filter fun other => runName other = runName run) := by
  intro run hrun
  cases h with
  | dependencySkipped h =>
    obtain rfl : run = _ := List.mem_singleton.mp hrun
    refine ⟨rfl, ?_⟩
    rw [List.filter_eq_self.mpr]
    · exact .dependencySkipped
    · exact List.forall_mem_singleton.mpr (decide_eq_true rfl)
  | handlerMissing h hregistered =>
    obtain rfl : run = _ := List.mem_singleton.mp hrun
    refine ⟨rfl, ?_⟩
    rw [List.filter_eq_self.mpr]
    · exact .handlerMissing
    · exact List.forall_mem_singleton.mpr (decide_eq_true rfl)
  | @attempted _ k h hregistered hattempted =>
    rw [hattempted.runs_eq] at hrun ⊢
    obtain ⟨n, hn, hin⟩ := List.mem_flatMap.mp hrun
    obtain ⟨hid, hattempt⟩ := mem_endedRuns hin
    have hrange := List.mem_range'_1.mp hn
    have hname := runName_of_attempt hattempt hrange.1
    refine ⟨hid, ?_⟩
    rw [filter_flatMap_of_mem List.nodup_range' hn, List.filter_eq_self.mpr]
    · exact .attempt n _ _ ⟨hrange.1, by have := hattempted.le_maxAttempts; omega⟩
        (Invocation.state_terminal _)
    · intro other hother
      rw [hname, runName_of_attempt (mem_endedRuns hother).2 hrange.1]
      exact decide_eq_true rfl
    · intro m hm hne
      rw [List.filter_eq_nil_iff]
      intro other hother hsame
      have hother' := runName_of_attempt (mem_endedRuns hother).2 (List.mem_range'_1.mp hm).1
      rw [decide_eq_true_eq, hname, hother'] at hsame
      exact hne (attemptName_injective hsame)

variable {U : Type} [DecidableEq U] (uuid5 : ℕ → String → U)

def moduleRunId (run : ModuleRun) : U := uuid5 run.dispatchItemId (runName run)

variable {uuid5}

/-- **Run ids never repeat.** -/
theorem runSnapshots_of_reports (huuid : ∀ a b s t, uuid5 a s = uuid5 b t → a = b ∧ s = t)
    (hids : (items.map (·.dispatchItemId)).Nodup)
    (h : List.Forall₂ (Report handlers successful) items outcomes) :
    ∀ run ∈ outcomes.flatMap (·.runs), ∃ item ∈ items, item.dispatchItemId = run.dispatchItemId ∧
      RunSnapshots item ((outcomes.flatMap (·.runs)).filter
        fun other => moduleRunId uuid5 other = moduleRunId uuid5 run) := by
  intro run hrun
  obtain ⟨outcome, houtcome, hin⟩ := List.mem_flatMap.mp hrun
  obtain ⟨item, hitem, hreport⟩ := exists_of_mem_right h houtcome
  obtain ⟨hid, hsnapshots⟩ := hreport.runs run hin
  have houtcomes : (outcomes.map (·.dispatchItemId)).Nodup := by
    rw [ids_of_forall₂ h fun _ _ hreport => hreport.dispatchItemId_eq]
    exact hids
  refine ⟨item, hitem, hid.symm, ?_⟩
  rw [filter_flatMap_of_mem (List.Nodup.of_map _ houtcomes) houtcome]
  · rwa [List.filter_congr (q := fun other => decide (runName other = runName run))]
    intro other hother
    refine decide_eq_decide.mpr ⟨fun heq => (huuid _ _ _ _ heq).2, fun heq => ?_⟩
    rw [moduleRunId, moduleRunId, heq, hid, (hreport.runs other hother).1]
  · intro other hother hne
    rw [List.filter_eq_nil_iff]
    intro run' hrun' hsame
    obtain ⟨item', hitem', hreport'⟩ := exists_of_mem_right h hother
    have hsameId := (huuid _ _ _ _ (of_decide_eq_true hsame)).1
    rw [hid, (hreport'.runs run' hrun').1] at hsameId
    refine hne (List.inj_on_of_nodup_map houtcomes hother houtcome ?_)
    rw [hreport'.dispatchItemId_eq, hreport.dispatchItemId_eq, hsameId]

end ids

/-! ### Calls of the handlers -/

section events

/-- A handler is called for an item, or an item has a result. -/
inductive ExecutionEvent where
  | call (dispatchItemId attempt : ℕ)
  | result (dispatchItemId : ℕ)
deriving DecidableEq

variable (handlers : Handlers) (verificationId : ℕ)

/-- The attempts of an item that call its handler, from `attempt` on; an attempt after the deadline does not. -/
def callsFrom (item : DispatchItem) : ℕ → ℕ → List ℕ
  | 0, _ => []
  | left + 1, attempt =>
    match handlers.invoke item attempt with
    | .finding _ => [attempt]
    | .deadlineExpired => callsFrom item left (attempt + 1)
    | .timedOut => attempt :: callsFrom item left (attempt + 1)
    | .handlerError => attempt :: callsFrom item left (attempt + 1)

def itemEvents (successful : List ℕ) (item : DispatchItem) : List ExecutionEvent :=
  if (∀ dependency ∈ item.dependencyItemIds, dependency ∈ successful) ∧ handlers.registered item.module then
    (callsFrom handlers item item.maxAttempts 1).map (.call item.dispatchItemId) ++
      match executeItem handlers verificationId item with
      | .ok outcome => if outcome.result.isSome then [.result item.dispatchItemId] else []
      | .error _ => []
  else []

/-- The events of the waves; a wave in which an item raises is the last one. -/
def waveEvents : List (List DispatchItem) → List ℕ → List (List ExecutionEvent)
  | [], _ => []
  | wave :: waves, successful =>
    wave.flatMap (itemEvents handlers verificationId successful) ::
      match wave.mapM (executeOrSkip handlers verificationId successful) with
      | .ok outcomes => waveEvents waves (successful ++ successfulItems outcomes)
      | .error _ => []

/-- The events of `execute`. -/
def executeEvents (plan : DispatchPlan) (claims : List Claim) : List (List ExecutionEvent) :=
  if ¬ ((∀ claimId ∈ plan.claimIds, claimId ∈ claims.map (·.claimId)) ∧
      ∀ claim ∈ claims, claim.claimId ∈ plan.claimIds) then []
  else match executionWaves plan.items with
    | .ok waves => waveEvents handlers plan.verificationId waves []
    | .error _ => []

variable {handlers} {verificationId} {item : DispatchItem}

/-- **The calls of an item** come one after the other, none after a success. -/
theorem callsFrom_spec (left attempt : ℕ) : (callsFrom handlers item left attempt).Nodup ∧
    ∀ n ∈ callsFrom handlers item left attempt, attempt ≤ n ∧ n < attempt + left ∧
      ∀ a, attempt ≤ a → a < n → (handlers.invoke item a).state ≠ .SUCCEEDED := by
  induction left generalizing attempt with
  | zero => exact ⟨List.nodup_nil, by simp [callsFrom]⟩
  | succ left ih =>
    obtain ⟨hnodup, hspec⟩ := ih (attempt + 1)
    have hlater : (handlers.invoke item attempt).state ≠ .SUCCEEDED →
        ∀ n ∈ callsFrom handlers item left (attempt + 1), attempt ≤ n ∧ n < attempt + (left + 1) ∧
          ∀ a, attempt ≤ a → a < n → (handlers.invoke item a).state ≠ .SUCCEEDED := by
      intro hstate n hn
      obtain ⟨hle, hlt, hbefore⟩ := hspec n hn
      refine ⟨by omega, by omega, fun a ha han => ?_⟩
      by_cases haa : a = attempt
      · rw [haa]
        exact hstate
      · exact hbefore a (by omega) han
    have hcalled : (handlers.invoke item attempt).state ≠ .SUCCEEDED →
        (attempt :: callsFrom handlers item left (attempt + 1)).Nodup ∧
          ∀ n ∈ attempt :: callsFrom handlers item left (attempt + 1),
            attempt ≤ n ∧ n < attempt + (left + 1) ∧
              ∀ a, attempt ≤ a → a < n → (handlers.invoke item a).state ≠ .SUCCEEDED := by
      intro hstate
      refine ⟨List.nodup_cons.mpr ⟨fun hin => ?_, hnodup⟩, fun n hn => ?_⟩
      · have hle := (hspec attempt hin).1
        omega
      · rcases List.mem_cons.mp hn with rfl | hn
        · exact ⟨by omega, by omega, by omega⟩
        · exact hlater hstate n hn
    rw [callsFrom]
    cases hinvoke : handlers.invoke item attempt with
    | finding f =>
      refine ⟨List.nodup_singleton attempt, fun n hn => ?_⟩
      obtain rfl : n = attempt := List.mem_singleton.mp hn
      exact ⟨by omega, by omega, by omega⟩
    | deadlineExpired =>
      refine ⟨hnodup, hlater ?_⟩
      rw [hinvoke]
      simp [Invocation.state]
    | timedOut =>
      apply hcalled
      rw [hinvoke]
      simp [Invocation.state]
    | handlerError =>
      apply hcalled
      rw [hinvoke]
      simp [Invocation.state]

theorem mem_itemEvents_call {id attempt : ℕ}
    (h : .call id attempt ∈ itemEvents handlers verificationId successful item) :
    id = item.dispatchItemId ∧ (∀ dependency ∈ item.dependencyItemIds, dependency ∈ successful) ∧
      attempt ∈ callsFrom handlers item item.maxAttempts 1 := by
  unfold itemEvents at h
  split_ifs at h with hcalled
  · rcases List.mem_append.mp h with h | h
    · obtain ⟨n, hn, heq⟩ := List.mem_map.mp h
      cases heq
      exact ⟨rfl, hcalled.1, hn⟩
    · split at h
      · split_ifs at h
        · simp at h
        · simp at h
      · simp at h
  · simp at h

theorem result_mem_itemEvents
    (h : executeOrSkip handlers verificationId successful item = .ok outcome) (hsome : outcome.result.isSome) :
    .result item.dispatchItemId ∈ itemEvents handlers verificationId successful item := by
  have hdependencies : ∀ dependency ∈ item.dependencyItemIds, dependency ∈ successful :=
    (executeOrSkip_ok h).2 hsome
  have hregistered : handlers.registered item.module = true := by
    by_contra hnot
    rw [executeOrSkip, if_pos hdependencies, executeItem, if_neg hnot] at h
    cases h
    cases hsome
  rw [executeOrSkip, if_pos hdependencies] at h
  rw [itemEvents, if_pos ⟨hdependencies, hregistered⟩, h]
  apply List.mem_append_right
  dsimp only
  rw [if_pos hsome]
  exact List.mem_singleton_self _

/-- **A call waits for its dependencies**: their results are events of earlier waves. -/
theorem waveEvents_call {wave : List ExecutionEvent} {id attempt : ℕ}
    (hwave : (waveEvents handlers verificationId waves successful)[n]? = some wave)
    (hcall : .call id attempt ∈ wave) :
    ∃ item ∈ waves.flatten, item.dispatchItemId = id ∧
      attempt ∈ callsFrom handlers item item.maxAttempts 1 ∧
      ∀ dependency ∈ item.dependencyItemIds, dependency ∈ successful ∨
        ∃ m < n, ∃ earlier, (waveEvents handlers verificationId waves successful)[m]? = some earlier ∧
          .result dependency ∈ earlier := by
  induction waves generalizing successful n with
  | nil => simp [waveEvents] at hwave
  | cons first waves ih =>
    rw [waveEvents] at hwave ⊢
    cases n with
    | zero =>
      obtain rfl := Option.some.inj hwave
      obtain ⟨item, hitem, hin⟩ := List.mem_flatMap.mp hcall
      obtain ⟨hid, hdependencies, hattempt⟩ := mem_itemEvents_call hin
      exact ⟨item, by simp [hitem], hid.symm, hattempt, fun d hd => .inl (hdependencies d hd)⟩
    | succ n =>
      rw [List.getElem?_cons_succ] at hwave
      cases hfirst : first.mapM (executeOrSkip handlers verificationId successful) with
      | error error =>
        rw [hfirst] at hwave
        simp at hwave
      | ok outcomes =>
        rw [hfirst] at hwave
        obtain ⟨item, hitem, hid, hattempt, hdependencies⟩ := ih hwave
        refine ⟨item, by simp [List.mem_flatten.mp hitem], hid, hattempt, fun d hd => ?_⟩
        rcases hdependencies d hd with hin | ⟨m, hm, earlier, hearlier, hresult⟩
        · rcases List.mem_append.mp hin with hin | hin
          · exact .inl hin
          · obtain ⟨outcome, houtcome, hsome, rfl⟩ := mem_successfulItems.mp hin
            obtain ⟨before, hbefore, hok⟩ := exists_of_mem_right (mapM_eq_ok.mp hfirst) houtcome
            refine .inr ⟨0, by omega, _, rfl, List.mem_flatMap.mpr ⟨before, hbefore, ?_⟩⟩
            rw [(executeOrSkip_ok hok).1.dispatchItemId_eq]
            exact result_mem_itemEvents hok hsome
        · exact .inr ⟨m + 1, by omega, earlier, hearlier, hresult⟩

def ExecutionEvent.subject : ExecutionEvent → ℕ
  | .call id _ => id
  | .result id => id

theorem itemEvents_spec (successful : List ℕ) (item : DispatchItem) :
    (itemEvents handlers verificationId successful item).Nodup ∧
      ∀ event ∈ itemEvents handlers verificationId successful item, event.subject = item.dispatchItemId := by
  have hcalls : ((callsFrom handlers item item.maxAttempts 1).map
      (ExecutionEvent.call item.dispatchItemId)).Nodup :=
    (callsFrom_spec _ _).1.map fun a b hab => (ExecutionEvent.call.inj hab).2
  have hcallItems : ∀ event ∈ (callsFrom handlers item item.maxAttempts 1).map
      (ExecutionEvent.call item.dispatchItemId), event.subject = item.dispatchItemId := by
    intro event hevent
    obtain ⟨attempt, -, rfl⟩ := List.mem_map.mp hevent
    rfl
  unfold itemEvents
  split_ifs with hcalled
  · split
    · split_ifs
      · refine ⟨List.nodup_append.mpr ⟨hcalls, List.nodup_singleton _, ?_⟩, fun event hevent => ?_⟩
        · intro call hcall result hresult heq
          obtain ⟨attempt, -, rfl⟩ := List.mem_map.mp hcall
          rw [List.mem_singleton.mp hresult] at heq
          cases heq
        · rcases List.mem_append.mp hevent with hevent | hevent
          · exact hcallItems event hevent
          · rw [List.mem_singleton.mp hevent]
            rfl
      · rw [List.append_nil]
        exact ⟨hcalls, hcallItems⟩
    · rw [List.append_nil]
      exact ⟨hcalls, hcallItems⟩
  · exact ⟨List.nodup_nil, by simp⟩

/-- **No event happens twice.** -/
theorem waveEvents_nodup (hids : (waves.flatten.map (·.dispatchItemId)).Nodup) :
    (waveEvents handlers verificationId waves successful).flatten.Nodup ∧
      ∀ event ∈ (waveEvents handlers verificationId waves successful).flatten,
        event.subject ∈ waves.flatten.map (·.dispatchItemId) := by
  induction waves generalizing successful with
  | nil => exact ⟨List.nodup_nil, by simp [waveEvents]⟩
  | cons wave waves ih =>
    rw [List.flatten_cons, List.map_append] at hids
    obtain ⟨hwave, hwaves, hdisjoint⟩ := List.nodup_append.mp hids
    have hfirst : (wave.flatMap (itemEvents handlers verificationId successful)).Nodup := by
      refine List.nodup_flatMap.mpr ⟨fun item _ => (itemEvents_spec successful item).1, ?_⟩
      refine (List.pairwise_map.mp hwave).imp ?_
      intro a b hab event ha hb
      refine hab ?_
      rw [← (itemEvents_spec successful a).2 event ha, (itemEvents_spec successful b).2 event hb]
    have hfirstItems : ∀ event ∈ wave.flatMap (itemEvents handlers verificationId successful),
        event.subject ∈ wave.map (·.dispatchItemId) := by
      intro event hevent
      obtain ⟨item, hitem, hin⟩ := List.mem_flatMap.mp hevent
      rw [(itemEvents_spec successful item).2 event hin]
      exact List.mem_map_of_mem hitem
    rw [waveEvents, List.flatten_cons, List.flatten_cons, List.map_append]
    cases wave.mapM (executeOrSkip handlers verificationId successful) with
    | error error =>
      dsimp only
      rw [List.flatten_nil, List.append_nil]
      exact ⟨hfirst, fun event hevent => List.mem_append_left _ (hfirstItems event hevent)⟩
    | ok outcomes =>
      obtain ⟨hrest, hrestItems⟩ := @ih (successful ++ successfulItems outcomes) hwaves
      refine ⟨List.nodup_append.mpr ⟨hfirst, hrest, ?_⟩, fun event hevent => ?_⟩
      · rintro a ha b hb rfl
        exact hdisjoint _ (hfirstItems a ha) _ (hrestItems a hb) rfl
      · rcases List.mem_append.mp hevent with hevent | hevent
        · exact List.mem_append_left _ (hfirstItems event hevent)
        · exact List.mem_append_right _ (hrestItems event hevent)

/-! ### When the waves return -/

/-- A finding is within the bounds of the contract; an attempt without one always is. -/
def Invocation.Fits : Invocation → Prop
  | .finding f => f.evidenceRefIds.length ≤ 512 ∧ f.findingCodes.length ≤ 128
  | .deadlineExpired => True
  | .timedOut => True
  | .handlerError => True

theorem exists_attemptsFrom_iff {left attempt : ℕ} {runs : List ModuleRun} :
    (∃ outcome, attemptsFrom handlers verificationId item left attempt runs = .ok outcome) ↔
      ∀ n ∈ callsFrom handlers item left attempt, (handlers.invoke item n).Fits := by
  induction left generalizing attempt runs with
  | zero => simp [attemptsFrom, callsFrom]
  | succ left ih =>
    rw [attemptsFrom, callsFrom]
    cases hinvoke : handlers.invoke item attempt with
    | finding f =>
      rw [List.forall_mem_singleton, hinvoke, Invocation.Fits]
      by_cases hfits : f.evidenceRefIds.length ≤ 512 ∧ f.findingCodes.length ≤ 128
      · refine iff_of_true ⟨_, bind_eq_ok.mpr ⟨_, dif_pos hfits, rfl⟩⟩ hfits
      · refine iff_of_false ?_ hfits
        rintro ⟨outcome, h⟩
        obtain ⟨result, hresult, -⟩ := bind_eq_ok.mp h
        rw [moduleResult, dif_neg hfits] at hresult
        cases hresult
    | deadlineExpired => exact ih
    | timedOut =>
      rw [List.forall_mem_cons, hinvoke]
      exact ih.trans (and_iff_right trivial).symm
    | handlerError =>
      rw [List.forall_mem_cons, hinvoke]
      exact ih.trans (and_iff_right trivial).symm

theorem exists_executeOrSkip_iff :
    (∃ outcome, executeOrSkip handlers verificationId successful item = .ok outcome) ↔
      ∀ attempt, .call item.dispatchItemId attempt ∈ itemEvents handlers verificationId successful item →
        (handlers.invoke item attempt).Fits := by
  unfold executeOrSkip executeItem itemEvents
  by_cases hdependencies : ∀ dependency ∈ item.dependencyItemIds, dependency ∈ successful
  · by_cases hregistered : handlers.registered item.module
    · rw [if_pos hdependencies, if_pos hregistered, if_pos ⟨hdependencies, hregistered⟩,
        exists_attemptsFrom_iff]
      refine forall_congr' fun attempt => imp_congr ?_ Iff.rfl
      rw [List.mem_append, List.mem_map_of_injective fun a b hab => (ExecutionEvent.call.inj hab).2]
      refine (or_iff_left ?_).symm
      split
      · split_ifs <;> simp
      · simp
    · rw [if_pos hdependencies, if_neg hregistered, if_neg fun h => hregistered h.2]
      simp
  · rw [if_neg hdependencies, if_neg fun h => hdependencies h.1]
    simp

/-- **The waves return** when the findings of the calls fit: a wave with one that does not is the last. -/
theorem exists_executeWaves_iff (hids : (items.map (·.dispatchItemId)).Nodup)
    (hwaves : ∀ wave ∈ waves, ∀ item ∈ wave, item ∈ items) :
    (∃ outcomes, executeWaves handlers verificationId waves successful = .ok outcomes) ↔
      ∀ wave ∈ waveEvents handlers verificationId waves successful, ∀ item ∈ items, ∀ attempt,
        .call item.dispatchItemId attempt ∈ wave → (handlers.invoke item attempt).Fits := by
  induction waves generalizing successful with
  | nil => simp [executeWaves, waveEvents]
  | cons wave waves ih =>
    rw [List.forall_mem_cons] at hwaves
    have hwave : (∃ outcomes, wave.mapM (executeOrSkip handlers verificationId successful) = .ok outcomes) ↔
        ∀ item ∈ items, ∀ attempt, .call item.dispatchItemId attempt
            ∈ wave.flatMap (itemEvents handlers verificationId successful) →
          (handlers.invoke item attempt).Fits := by
      constructor
      · rintro ⟨outcomes, h⟩ item hitem attempt hcall
        obtain ⟨item', hitem', hcall⟩ := List.mem_flatMap.mp hcall
        have hid := (mem_itemEvents_call hcall).1
        obtain rfl : item = item' := List.inj_on_of_nodup_map hids hitem (hwaves.1 item' hitem') hid
        obtain ⟨outcome, -, hok⟩ := exists_of_mem_left (mapM_eq_ok.mp h) hitem'
        exact exists_executeOrSkip_iff.mp ⟨outcome, hok⟩ attempt hcall
      · intro h
        refine exists_mapM_eq_ok fun item hitem => exists_executeOrSkip_iff.mpr fun attempt hcall => ?_
        exact h item (hwaves.1 item hitem) attempt (List.mem_flatMap.mpr ⟨item, hitem, hcall⟩)
    rw [waveEvents, List.forall_mem_cons, ← hwave, executeWaves]
    cases hfirst : wave.mapM (executeOrSkip handlers verificationId successful) with
    | error error =>
      refine iff_of_false ?_ ?_
      · rintro ⟨outcomes, h⟩
        cases h
      · rintro ⟨⟨outcomes, h⟩, -⟩
        cases h
    | ok first =>
      rw [and_iff_right ⟨first, rfl⟩, ← ih hwaves.2]
      constructor
      · rintro ⟨outcomes, h⟩
        obtain ⟨_, hsame, h⟩ := bind_eq_ok.mp h
        cases hsame
        obtain ⟨rest, hrest, -⟩ := bind_eq_ok.mp h
        exact ⟨rest, hrest⟩
      · rintro ⟨rest, hrest⟩
        exact ⟨first ++ rest, bind_eq_ok.mpr ⟨first, rfl, bind_eq_ok.mpr ⟨rest, hrest, rfl⟩⟩⟩

end events

/-! ### `execute` -/

section execute
variable (handlers : Handlers)

/-- The calls of the handlers: none happens twice, each is one of the attempts of an item before which none
was successful, and the dependencies of the item have their results in earlier waves. -/
structure CallsInOrder (plan : DispatchPlan) (events : List (List ExecutionEvent)) : Prop where
  nodup : events.flatten.Nodup
  call : ∀ (n : ℕ) (wave : List ExecutionEvent) (id attempt : ℕ), events[n]? = some wave →
    ExecutionEvent.call id attempt ∈ wave →
    ∃ item ∈ plan.items, item.dispatchItemId = id ∧ 1 ≤ attempt ∧ attempt ≤ item.maxAttempts ∧
      (∀ a, 1 ≤ a → a < attempt → (handlers.invoke item a).state ≠ .SUCCEEDED) ∧
      ∀ dependency ∈ item.dependencyItemIds, ∃ m < n, ∃ earlier, events[m]? = some earlier ∧
        ExecutionEvent.result dependency ∈ earlier

/-- The bundle reports one outcome for each item, in the order of the plan; the snapshots under one run id
are those of one attempt, or the only one of an item. -/
structure Reported {U : Type} [DecidableEq U] (uuid5 : ℕ → String → U) (plan : DispatchPlan)
    (bundle : ModuleExecutionBundle) (outcomes : List ItemOutcome) : Prop where
  reports : List.Forall₂ (Report handlers (successfulItems outcomes)) plan.items outcomes
  runSnapshots_eq : bundle.runSnapshots = outcomes.flatMap (·.runs)
  results_eq : bundle.results = outcomes.filterMap (·.result)
  runIds : ∀ run ∈ bundle.runSnapshots, ∃ item ∈ plan.items, item.dispatchItemId = run.dispatchItemId ∧
    RunSnapshots item (bundle.runSnapshots.filter
      fun other => moduleRunId uuid5 other = moduleRunId uuid5 run)

/-- The plan is one for the claims and can be put in waves, and the findings of the calls fit the contract. -/
structure Executable (plan : DispatchPlan) (claims : List Claim) : Prop where
  planned : ∀ claimId ∈ plan.claimIds, claimId ∈ claims.map (·.claimId)
  claimed : ∀ claim ∈ claims, claim.claimId ∈ plan.claimIds
  layerable : Layerable plan.items
  fits : ∀ wave ∈ executeEvents handlers plan claims, ∀ item ∈ plan.items, ∀ attempt,
    .call item.dispatchItemId attempt ∈ wave → (handlers.invoke item attempt).Fits

variable {handlers}

/-- **`execute` returns** exactly for an executable plan. -/
theorem exists_execute_iff (plan : DispatchPlan) (claims : List Claim) :
    (∃ bundle, execute handlers plan claims = .ok bundle) ↔ Executable handlers plan claims := by
  by_cases hsame : (∀ claimId ∈ plan.claimIds, claimId ∈ claims.map (·.claimId)) ∧
      ∀ claim ∈ claims, claim.claimId ∈ plan.claimIds
  · have hevents : executeEvents handlers plan claims = match executionWaves plan.items with
        | .ok waves => waveEvents handlers plan.verificationId waves []
        | .error _ => [] := if_neg (not_not_intro hsame)
    have hwaves : ∀ {waves}, executionWaves plan.items = .ok waves →
        ((∃ outcomes, executeWaves handlers plan.verificationId waves [] = .ok outcomes) ↔
          ∀ wave ∈ executeEvents handlers plan claims, ∀ item ∈ plan.items, ∀ attempt,
            .call item.dispatchItemId attempt ∈ wave → (handlers.invoke item attempt).Fits) := by
      intro waves hwaves
      obtain ⟨hnodup, -, hrun⟩ := executionWaves_run hwaves
      rw [hevents, hwaves]
      refine exists_executeWaves_iff hnodup fun wave hwave item hitem => ?_
      exact (wavesFrom_perm (le_refl _) hrun).mem_iff.mp (List.mem_flatten_of_mem hwave hitem)
    rw [execute, if_neg (not_not_intro hsame)]
    constructor
    · rintro ⟨bundle, h⟩
      obtain ⟨waves, hrun, h⟩ := bind_eq_ok.mp h
      obtain ⟨outcomes, houtcomes, -⟩ := bind_eq_ok.mp h
      exact ⟨hsame.1, hsame.2, (executionWaves_layered hrun).1, (hwaves hrun).mp ⟨outcomes, houtcomes⟩⟩
    · intro h
      obtain ⟨waves, hrun⟩ := executionWaves_ok h.layerable
      obtain ⟨outcomes, houtcomes⟩ := (hwaves hrun).mpr h.fits
      exact ⟨_, bind_eq_ok.mpr ⟨waves, hrun, bind_eq_ok.mpr ⟨outcomes, houtcomes, rfl⟩⟩⟩
  · refine iff_of_false ?_ fun h => hsame ⟨h.planned, h.claimed⟩
    rintro ⟨bundle, h⟩
    rw [execute, if_pos hsame] at h
    cases h

theorem executeEvents_inOrder (plan : DispatchPlan) (claims : List Claim) :
    CallsInOrder handlers plan (executeEvents handlers plan claims) := by
  have hnone : CallsInOrder handlers plan [] := ⟨List.nodup_nil, by simp⟩
  unfold executeEvents
  split_ifs
  · cases hwaves : executionWaves plan.items with
    | error error => exact hnone
    | ok waves =>
      obtain ⟨hnodup, -, hrun⟩ := executionWaves_run hwaves
      have hperm := wavesFrom_perm (le_refl _) hrun
      refine ⟨(waveEvents_nodup ((hperm.map _).nodup_iff.mpr hnodup)).1, ?_⟩
      intro n wave id attempt hwave hcall
      obtain ⟨item, hitem, hid, hattempt, hdependencies⟩ := waveEvents_call hwave hcall
      obtain ⟨hle, hlt, hbefore⟩ := (callsFrom_spec item.maxAttempts 1).2 attempt hattempt
      refine ⟨item, hperm.mem_iff.mp hitem, hid, hle, by omega, hbefore, fun a ha => ?_⟩
      exact (hdependencies a ha).resolve_left List.not_mem_nil
  · exact hnone

section sample

/-- A retrieval that times out once, and an academic check that waits for it. -/
def sampleRunPlan : DispatchPlan where
  verificationId := 1
  claimIds := [1]
  items :=
    [{ dispatchItemId := 11, claimId := 1, module := .C3_ACADEMIC, priority := 0, dependencyItemIds := [10],
       timeoutMs := 1000, maxAttempts := 2 },
      { dispatchItemId := 10, claimId := 1, module := .C2_RAG, priority := 0, dependencyItemIds := [],
        timeoutMs := 1000, maxAttempts := 2 }]

def sampleRunHandlers : Handlers where
  registered _ := true
  invoke item attempt :=
    if item.dispatchItemId = 10 ∧ attempt = 1 then .timedOut else .finding (sampleFinding .SUPPORTED)
  completedAt _ _ := 0
  moduleResultId item attempt := 100 * item.dispatchItemId + attempt

end sample

end execute

end CyberControl.Verification
