import CyberControl.SseLog
import CyberControl.SseSubscription

/-! # What a subscription reads, and what it leaves alone -/

namespace CyberControl.SseBroker

section replay
variable {log : List Event}

/-! ### The replay cache -/

/-- Every cached run is of stored events. -/
def CacheFromLog (log : List Event) (cache : ReplayCache) : Prop :=
  ∀ entry ∈ cache, FromLog log entry.2

theorem CacheFromLog.mono {cache cache' : ReplayCache} (h : CacheFromLog log cache)
    (hsub : cache' ⊆ cache) : CacheFromLog log cache' := fun entry he => h entry (hsub he)

variable {cache : ReplayCache}

theorem CacheFromLog.append_log (h : CacheFromLog log cache) (x : List Event) :
    CacheFromLog (log ++ x) cache := fun entry he => (h entry he).append_log x

variable {events : List Event}

theorem mem_cachedReplay {cache cache' : ReplayCache} {afterSequence throughSequence : Option ℤ}
    (h : cachedReplay cache afterSequence throughSequence = some (events, cache')) :
    (∃ entry ∈ cache, entry.2 = events) ∧ cache' ⊆ cache := by
  unfold cachedReplay at h
  split at h
  · cases h
  · rename_i entry hfind
    have hmem := List.mem_of_find?_eq_some hfind
    have hmoved : cache.filter (·.1 ≠ afterSequence) ++ [entry] ⊆ cache := by
      intro x hx
      rcases List.mem_append.mp hx with hx | hx
      · exact List.mem_of_mem_filter hx
      · exact List.mem_singleton.mp hx ▸ hmem
    have hsome : (entry.2, cache.filter (·.1 ≠ afterSequence) ++ [entry]) = (events, cache') := by
      split at h
      · exact Option.some.inj h
      · cases h
      · split at h
        · cases h
        · exact Option.some.inj h
    cases hsome
    exact ⟨⟨entry, hmem, rfl⟩, hmoved⟩

theorem mem_storeReplayCache {bounds : Bounds} {afterSequence : Option ℤ}
    {entry : Option ℤ × List Event}
    (h : entry ∈ storeReplayCache bounds cache afterSequence events) :
    entry ∈ cache ∨ entry = (afterSequence, events) := by
  have hstore : ∀ n, entry ∈ (cache.filter (·.1 ≠ afterSequence) ++ [(afterSequence, events)]).drop n →
      entry ∈ cache ∨ entry = (afterSequence, events) := by
    intro n hn
    rcases List.mem_append.mp (List.mem_of_mem_drop hn) with hx | hx
    · exact .inl (List.mem_of_mem_filter hx)
    · exact .inr (List.mem_singleton.mp hx)
  unfold storeReplayCache at h
  split at h
  · exact .inl h
  · dsimp only at h
    split at h
    · exact hstore _ h
    · rename_i previous hfind
      split at h
      · rcases List.mem_append.mp h with hx | hx
        · exact .inl (List.mem_of_mem_filter hx)
        · exact .inl (List.mem_singleton.mp hx ▸ List.mem_of_find?_eq_some hfind)
      · exact hstore _ h

/-! ### Reading pages -/

/-- A page loop that reads for `purpose` and has collected stored events. -/
def Paging.Reads (log : List Event) (purpose : Purpose) (p : Paging) : Prop :=
  p.purpose = purpose ∧ FromLog log p.replay

/-- A result that consists of stored events, if it is no exception. -/
def ResultFromLog (log : List Event) (result : Except Exn (List Event)) : Prop :=
  ∀ events, result = .ok events → FromLog log events

def AfterPage.Reads (log : List Event) (purpose : Purpose) : AfterPage → Prop
  | .again p => p.Reads log purpose
  | .done result => ResultFromLog log result

def Turn.Reads (log : List Event) (purpose : Purpose) : Turn → Prop
  | .await p => p.Reads log purpose
  | .done result => ResultFromLog log result

theorem resultFromLog_ok (h : FromLog log events) : ResultFromLog log (.ok events) :=
  fun _ he => Except.ok.inj he ▸ h

theorem resultFromLog_error (e : Exn) : ResultFromLog log (.error e) := fun _ he => by cases he

theorem FromLog.collect {page replay : List Event} (hpage : FromLog log page)
    (hreplay : FromLog log replay) : FromLog log (page.foldl collect replay) := by
  induction page generalizing replay with
  | nil => exact hreplay
  | cons e page ih =>
    have he : FromLog log (replay ++ [e]) :=
      hreplay.append fun x hx => hpage x (List.mem_singleton.mp hx ▸ List.mem_cons_self)
    refine ih (fun x hx => hpage x (List.mem_cons_of_mem e hx)) ?_
    unfold SseBroker.collect
    split
    · exact he
    · split
      · exact he
      · exact hreplay

theorem Paging.accept_fromLog {p : Paging} {purpose : Purpose} (h : p.Reads log purpose)
    {page : List Event} (hpage : FromLog log page) : (p.accept page).Reads log purpose := by
  have hreplay := hpage.collect h.2
  unfold Paging.accept
  dsimp only
  split_ifs
  · exact resultFromLog_ok hreplay
  · exact resultFromLog_ok hreplay
  · exact resultFromLog_error _
  · exact ⟨h.1, hreplay⟩
  · exact resultFromLog_error _

theorem Paging.turn_cache (pages : ℕ) (cache : ReplayCache) (p : Paging) :
    (p.turn pages cache).2 ⊆ cache := by
  induction pages generalizing cache p with
  | zero => exact List.Subset.refl _
  | succ pages ih =>
    rw [Paging.turn]
    split
    · exact List.Subset.refl _
    · rename_i page cache' hcached
      have hsub := (mem_cachedReplay hcached).2
      split
      · exact hsub
      · exact List.Subset.trans (ih _ _) hsub

theorem Paging.turn_fromLog (pages : ℕ) {p : Paging} {purpose : Purpose}
    (hcache : CacheFromLog log cache) (h : p.Reads log purpose) :
    (p.turn pages cache).1.Reads log purpose := by
  induction pages generalizing cache p with
  | zero => exact resultFromLog_error _
  | succ pages ih =>
    rw [Paging.turn]
    split
    · exact h
    · rename_i page cache' hcached
      obtain ⟨⟨entry, hmem, hentry⟩, hsub⟩ := mem_cachedReplay hcached
      have hpage : FromLog log page := hentry ▸ hcache entry hmem
      have haccept := accept_fromLog h hpage
      split
      · rename_i result hdone
        rw [hdone] at haccept
        exact haccept
      · rename_i p' hagain
        rw [hagain] at haccept
        exact ih (hcache.mono hsub) haccept

end replay

/-! ### What a segment leaves alone -/

section frame
variable {s : Subscription} {shared : Shared}

/-- The subscription keeps its cursor and the replay cache its entries. -/
def Keeps (s : Subscription) (shared : Shared) (next : Subscription × Shared) : Prop :=
  next.1.afterSequence = s.afterSequence ∧ next.2.replayCache ⊆ shared.replayCache

variable {s' : Subscription}

theorem keeps_of_shared (h : s'.afterSequence = s.afterSequence) :
    Keeps s shared (s', shared) := ⟨h, List.Subset.refl _⟩

theorem afterReplay_afterSequence (purpose : Purpose) (result : Except Exn (List Event)) :
    (s.afterReplay purpose result).afterSequence = s.afterSequence := by
  unfold Subscription.afterReplay
  split
  · rfl
  · split <;> rfl
  · split <;> rfl
  · split
    · rfl
    · split <;> rfl
  · split <;> rfl
  · split
    · rfl
    · split <;> rfl

theorem turn_keeps (pages : ℕ) (p : Paging) : Keeps s shared (s.turn shared pages p) := by
  have hcache := Paging.turn_cache pages shared.replayCache p
  unfold Subscription.turn
  split
  · rename_i hturn
    rw [hturn] at hcache
    exact ⟨rfl, hcache⟩
  · rename_i hturn
    rw [hturn] at hcache
    exact ⟨afterReplay_afterSequence _ _, hcache⟩

theorem startReplay_keeps (purpose : Purpose) (afterSequence throughSequence : Option ℤ) :
    Keeps s shared (s.startReplay shared purpose afterSequence throughSequence) :=
  turn_keeps _ _

theorem startAdmission_keeps (latestSequence : Option ℤ) :
    Keeps s shared (s.startAdmission shared latestSequence) :=
  startReplay_keeps (s := { s with
    initialLastSequence := if cursorOf s.afterSequence = none then latestSequence else cursorOf s.afterSequence }) _ _ _

theorem readLatest_keeps : Keeps s shared (s.readLatest shared) := by
  unfold Subscription.readLatest
  split
  · exact startAdmission_keeps _
  · exact ⟨rfl, List.Subset.refl _⟩

theorem activate_keeps (merged : List Event) (attempt : ℕ) :
    Keeps s shared (s.activate shared merged attempt) := by
  unfold Subscription.activate
  split
  · exact keeps_of_shared rfl
  · dsimp only
    split
    · exact keeps_of_shared rfl
    · split
      · exact keeps_of_shared rfl
      · split
        · exact keeps_of_shared rfl
        · exact startReplay_keeps _ _ _

theorem drain_keeps (held : Event) (merged : List Event) (attempt : ℕ) :
    Keeps s shared (s.drain shared held merged attempt) := by
  unfold Subscription.drain
  split
  · exact keeps_of_shared rfl
  · dsimp only
    split
    · exact keeps_of_shared rfl
    · split
      · exact keeps_of_shared rfl
      · split
        · exact keeps_of_shared rfl
        · exact startReplay_keeps _ _ _

theorem advance_afterSequence : s.advance.afterSequence = s.afterSequence := by
  unfold Subscription.advance
  split
  · split <;> rfl
  · split <;> rfl

theorem resume_keeps {next : Subscription × Shared} (h : s.resume shared = some next) :
    Keeps s shared next := by
  unfold Subscription.resume at h
  split at h
  · cases h
  · cases h
  · cases h
  · split at h
    · cases h
      exact readLatest_keeps
    · cases h
      exact keeps_of_shared rfl
  · cases h
    exact readLatest_keeps (s := { s with subscriber := { s.subscriber with registered := true } })
  · cases h
    exact startAdmission_keeps _
  · cases h
    exact keeps_of_shared rfl
  · split at h
    · cases h
      exact keeps_of_shared (afterReplay_afterSequence _ _)
    · cases h
      exact turn_keeps _ _
  · cases h
    exact keeps_of_shared (afterReplay_afterSequence _ _)
  · cases h
    exact activate_keeps _ _
  · cases h
    exact keeps_of_shared rfl
  · cases h
    exact keeps_of_shared rfl
  · cases h
    exact keeps_of_shared rfl
  · cases h
    exact keeps_of_shared rfl
  · cases h
    exact keeps_of_shared advance_afterSequence
  · cases h
    exact drain_keeps _ _ _
  · split at h
    · cases h
      exact keeps_of_shared rfl
    · split at h
      · cases h
      · cases h
        exact keeps_of_shared rfl
  · cases h
    exact keeps_of_shared rfl
  · split at h
    · cases h
      exact keeps_of_shared rfl
    · cases h
      exact keeps_of_shared rfl

theorem next_afterSequence (h : s.next = some s') :
    s'.afterSequence = s.afterSequence := by
  unfold Subscription.next at h
  split at h
  · split_ifs at h
    · cases h
      rfl
    · cases h
      exact advance_afterSequence
    · cases h
      rfl
  · cases h

theorem heartbeat_afterSequence (h : s.heartbeat = some s') :
    s'.afterSequence = s.afterSequence := by
  unfold Subscription.heartbeat at h
  split at h <;> cases h
  rfl

theorem interrupt_afterSequence (h : s.interrupt = some s') :
    s'.afterSequence = s.afterSequence := by
  unfold Subscription.interrupt at h
  split at h <;> cases h
  rfl

theorem finishClose_afterSequence (h : s.finishClose = some s') :
    s'.afterSequence = s.afterSequence := by
  unfold Subscription.finishClose at h
  split at h
  · split at h <;> cases h
    rfl
  · cases h

end frame

end CyberControl.SseBroker
