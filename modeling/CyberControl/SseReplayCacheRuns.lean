import CyberControl.SseReplayCache
import Mathlib.Data.List.Induction

/-! # Runs of the replay cache

What `_store_replay_cache`, `_cached_replay` and the operations that drop entries do to the accounts of the
replay cache, in any order and with any events, cursors and clock readings. -/

namespace CyberControl.SseReplayCache

open OrderedDict

variable {T : Type}

/-! ### Storing -/

section storing
variable {s : State T} {bounds : Bounds T} {tenant : String} {afterSequence : Option ℤ} {entry : Entry T}

theorem Counts.add {n : ℕ × ℕ} (h : Counts s n) (entry : Entry T) :
    Counts { s with
      replayCacheEvents := s.replayCacheEvents + entry.events.length
      replayCacheBytes := s.replayCacheBytes + entry.sizeBytes } (entry.weight + n) := by
  obtain ⟨hevents, hbytes, hclamped⟩ := h
  refine ⟨?_, ?_, hclamped⟩
  · simp only [Entry.weight, Prod.fst_add, Int.natCast_add, hevents]
    exact add_comm _ _
  · simp only [Entry.weight, Prod.snd_add, Int.natCast_add, hbytes]
    exact add_comm _ _

/-- What `s'` has and `s` had not is the entry stored. -/
def WithinPlus (s' s : State T) (tenant : String) (afterSequence : Option ℤ) (entry : Entry T) : Prop :=
  ∀ t c e, s'.entryAt t c = some e → (t = tenant ∧ c = afterSequence ∧ e = entry) ∨ s.entryAt t c = some e

theorem putEntry_spec (h : Accurate s) (hevents : entry.events.length ≤ bounds.replayCacheMaxEvents)
    (hbytes : entry.sizeBytes ≤ bounds.replayCacheMaxBytes) :
    ∃ s', s.putEntry bounds tenant afterSequence ((s.replayCache.lookup tenant).getD ∅) entry = .ok s' ∧
      Accurate s' ∧ InBudget bounds s' ∧ s'.entryAt tenant afterSequence = some entry ∧
      WithinPlus s' s tenant afterSequence entry := by
  have hcounts : Counts s (TenantCache.weight ((s.replayCache.lookup tenant).getD ∅) +
      total TenantCache.weight (s.replayCache.erase tenant)) := by
    have hcounts := h.counts
    cases hcache : s.replayCache.lookup tenant with
    | none =>
      rw [erase_of_lookup_eq_none hcache, Option.getD_none, TenantCache.weight, total_empty, zero_add]
      exact hcounts
    | some cache =>
      rw [total_erase_of_lookup hcache] at hcounts
      exact hcounts
  have hentry : ∀ c, s.entryAt tenant c = ((s.replayCache.lookup tenant).getD ∅).lookup c := by
    intro c
    unfold State.entryAt
    cases s.replayCache.lookup tenant with
    | none => simp
    | some cache => rfl
  generalize (s.replayCache.lookup tenant).getD ∅ = cache at hcounts hentry ⊢
  -- the entry of the same cursor goes, the new one comes in
  have hremoved : Counts ((cache.lookup afterSequence).elim s s.accountRemoval)
      (total Entry.weight (cache.erase afterSequence) +
        total TenantCache.weight (s.replayCache.erase tenant)) := by
    cases hprevious : cache.lookup afterSequence with
    | none =>
      rw [erase_of_lookup_eq_none hprevious]
      exact hcounts
    | some previous =>
      rw [TenantCache.weight, total_erase_of_lookup hprevious, add_assoc] at hcounts
      exact hcounts.accountRemoval
  have hsame : ((cache.lookup afterSequence).elim s s.accountRemoval).replayCache = s.replayCache := by
    cases cache.lookup afterSequence with
    | none => rfl
    | some previous => rfl
  unfold State.putEntry
  generalize (cache.lookup afterSequence).elim s s.accountRemoval = removed at hremoved hsame ⊢
  have hadded := hremoved.add entry
  rw [← add_assoc, ← total_insert] at hadded
  have hinserted : (cache.insert afterSequence entry).entries =
      ⟨afterSequence, entry⟩ :: cache.entries.kerase afterSequence := AList.entries_insert
  obtain ⟨s₁, cache', hcursors, hsame₁, hcounts₁, hsub, rest, hhead⟩ := evictCursors_spec hadded hinserted
  have hmap : s₁.replayCache = s.replayCache := hsame₁.trans hsame
  have hacc : Accurate { s₁ with replayCache := s₁.replayCache.insert tenant cache' } := by
    refine ⟨?_, fun t found hfound => ?_⟩
    · rw [total_insert, hmap]
      exact hcounts₁.of_eq rfl rfl rfl
    · by_cases ht : t = tenant
      · subst ht
        rw [AList.lookup_insert] at hfound
        cases hfound
        simp [hhead]
      · rw [AList.lookup_insert_ne ht, hmap] at hfound
        exact h.nonempty t found hfound
  have hnew : Newest { s₁ with replayCache := s₁.replayCache.insert tenant cache' } tenant afterSequence entry :=
    ⟨cache', rest, _, AList.entries_insert, hhead⟩
  have hplus : WithinPlus { s₁ with replayCache := s₁.replayCache.insert tenant cache' } s tenant afterSequence
      entry := by
    intro t c e he
    unfold State.entryAt at he
    dsimp only at he
    by_cases ht : t = tenant
    · subst ht
      rw [AList.lookup_insert, Option.bind_some] at he
      have hinsert := lookup_of_sublist hsub he
      by_cases hc : c = afterSequence
      · subst hc
        rw [AList.lookup_insert] at hinsert
        exact .inl ⟨rfl, rfl, (Option.some.inj hinsert).symm⟩
      · rw [AList.lookup_insert_ne hc] at hinsert
        exact .inr ((hentry c).trans hinsert)
    · rw [AList.lookup_insert_ne ht, hmap] at he
      exact .inr he
  obtain ⟨s₂, htenants, hacc₂, hwithin₂, hnew₂⟩ := evictTenants_spec bounds hacc hnew
  obtain ⟨s₃, hbudget, hacc₃, hwithin₃, hnew₃, hin⟩ := evictOverBudget_spec hacc₂ hnew₂ hevents hbytes
  refine ⟨s₃, ?_, hacc₃, hin, hnew₃.entryAt_eq, fun t c e he => hplus t c e (hwithin₂ t c e (hwithin₃ t c e he))⟩
  simp only [bind, Except.bind, hcursors, htenants, hbudget]

theorem InBudget.accountAll (h : InBudget bounds s) (l : List (Entry T)) :
    InBudget bounds (l.foldl State.accountRemoval s) := by
  induction l generalizing s with
  | nil => exact h
  | cons e l ih =>
    obtain ⟨hevents, hbytes⟩ := h
    apply ih
    constructor
    · simp only [State.accountRemoval]
      omega
    · simp only [State.accountRemoval]
      omega

theorem InBudget.dropTenant (h : InBudget bounds s) (tenant : String) :
    InBudget bounds (s.dropTenant tenant) := by
  unfold State.dropTenant
  cases s.replayCache.lookup tenant with
  | none => exact h
  | some cache =>
    apply InBudget.accountAll
    exact ⟨h.events_le, h.bytes_le⟩

variable [LinearOrder T]

theorem InBudget.purge (h : InBudget bounds s) (now : T) : InBudget bounds (s.purge now) := by
  unfold State.purge
  induction s.replayCache.keys.reverse generalizing s with
  | nil => exact h
  | cons tenant tenants ih =>
    apply ih
    unfold State.purgeTenant
    cases s.replayCache.lookup tenant with
    | none => exact h
    | some cache =>
      have hall := h.accountAll ((values cache).filter fun e => e.expiresAt ≤ now)
      exact ⟨hall.events_le, hall.bytes_le⟩

/-- Whether the tail of the events reaches the sequence asked for. -/
def Reaches (events : List SSEEvent) (afterSequence throughSequence : Option ℤ) : Prop :=
  ∀ through, throughSequence = some through → ∃ last, tail events afterSequence = some last ∧ through ≤ last

/-- **What `_cached_replay` answers**: nothing, or an entry of this tenant and cursor that reaches far. -/
theorem cachedReplay_cases (s : State T) (tenant : String) (afterSequence throughSequence : Option ℤ)
    (now : T) :
    s.cachedReplay tenant afterSequence throughSequence now = (none, s.purge now) ∨
      ∃ cache entry, (s.purge now).replayCache.lookup tenant = some cache ∧
        cache.lookup afterSequence = some entry ∧ Reaches entry.events afterSequence throughSequence ∧
        s.cachedReplay tenant afterSequence throughSequence now =
          (some entry.events, { s.purge now with
            replayCache := (s.purge now).replayCache.insert tenant (cache.insert afterSequence entry) }) := by
  unfold State.cachedReplay
  generalize s.purge now = purged
  cases hcache : purged.replayCache.lookup tenant with
  | none => exact .inl (by simp only [hcache])
  | some cache =>
    cases hentry : cache.lookup afterSequence with
    | none => exact .inl (by simp only [hcache, hentry])
    | some entry =>
      cases throughSequence with
      | none => exact .inr ⟨cache, entry, rfl, hentry, by simp [Reaches], by simp only [hcache, hentry]⟩
      | some through =>
        cases htail : tail entry.events afterSequence with
        | none => exact .inl (by simp only [hcache, hentry, htail])
        | some last =>
          by_cases hshort : last < through
          · exact .inl (by simp only [hcache, hentry, htail, if_pos hshort])
          · refine .inr ⟨cache, entry, rfl, hentry, ?_, ?_⟩
            · intro t ht
              cases ht
              exact ⟨last, htail, Int.not_lt.mp hshort⟩
            · simp only [hcache, hentry, htail, if_neg hshort]

variable [Add T]

/-- The entry that `_store_replay_cache` builds. -/
def newEntry (bounds : Bounds T) (events : List SSEEvent) (storedAt : T) : Entry T :=
  ⟨events, storedAt + bounds.replayCacheSeconds, (events.map SSEEvent.sizeBytes).sum⟩

/-- The events alone are within the bounds. -/
def Fits (bounds : Bounds T) (events : List SSEEvent) : Prop :=
  events.length ≤ bounds.replayCacheMaxEvents ∧ (events.map SSEEvent.sizeBytes).sum ≤ bounds.replayCacheMaxBytes

/-- `_store_replay_cache` keeps the entry that it finds. -/
def KeepsPrevious (s : State T) (tenant : String) (afterSequence : Option ℤ) (events : List SSEEvent)
    (purgedAt : T) : Prop :=
  ∃ previous, (s.purge purgedAt).entryAt tenant afterSequence = some previous ∧
    reachesFurther (tail previous.events afterSequence) (tail events afterSequence) = true

/-- **Storing**: the accounts stay right and within the bounds, nothing is there but the new entry and what was
there before, and the new entry is there unless it does not fit or a longer one is kept. -/
theorem storeReplayCache_spec (h : Accurate s) (hin : InBudget bounds s) (tenant : String)
    (afterSequence : Option ℤ) (events : List SSEEvent) (purgedAt storedAt : T) :
    ∃ s', s.storeReplayCache bounds tenant afterSequence events purgedAt storedAt = .ok s' ∧ Accurate s' ∧
      InBudget bounds s' ∧ WithinPlus s' s tenant afterSequence (newEntry bounds events storedAt) ∧
      (Fits bounds events → ¬ KeepsPrevious s tenant afterSequence events purgedAt →
        s'.entryAt tenant afterSequence = some (newEntry bounds events storedAt)) := by
  unfold State.storeReplayCache
  by_cases hlarge : bounds.replayCacheMaxEvents < events.length ∨
      bounds.replayCacheMaxBytes < (events.map SSEEvent.sizeBytes).sum
  · rw [if_pos hlarge]
    refine ⟨s, rfl, h, hin, fun _ _ _ he => .inr he, fun hfits => ?_⟩
    obtain ⟨hevents, hbytes⟩ := hfits
    omega
  · rw [if_neg hlarge]
    obtain ⟨hevents, hbytes⟩ := not_or.mp hlarge
    obtain ⟨hpurged, hwithin, -⟩ := h.purge purgedAt
    have hpurgedIn := hin.purge purgedAt
    obtain ⟨s', hput, hacc, hin', hentry, hplus⟩ :=
      @putEntry_spec _ _ bounds tenant afterSequence (newEntry bounds events storedAt) hpurged
        (Nat.not_lt.mp hevents) (Nat.not_lt.mp hbytes)
    have hstored : WithinPlus s' s tenant afterSequence (newEntry bounds events storedAt) :=
      fun t c e he => (hplus t c e he).imp_right (hwithin t c e)
    dsimp only
    cases hprevious : (((s.purge purgedAt).replayCache.lookup tenant).getD ∅).lookup afterSequence with
    | none => exact ⟨s', hput, hacc, hin', hstored, fun _ _ => hentry⟩
    | some previous =>
      dsimp only
      by_cases hfurther : reachesFurther (tail previous.events afterSequence)
          (tail events afterSequence) = true
      · rw [if_pos hfurther]
        cases hcache : (s.purge purgedAt).replayCache.lookup tenant with
        | none =>
          rw [hcache] at hprevious
          simp at hprevious
        | some cache =>
          rw [hcache, Option.getD_some] at hprevious
          obtain ⟨hmoved, hmovedWithin⟩ := hpurged.moveToEnd hcache hprevious
          refine ⟨_, rfl, hmoved, ⟨hpurgedIn.events_le, hpurgedIn.bytes_le⟩, ?_, fun _ hkeeps => ?_⟩
          · exact fun t c e he => .inr (hwithin t c e (hmovedWithin t c e he))
          · refine absurd ⟨previous, ?_, hfurther⟩ hkeeps
            rw [State.entryAt, hcache]
            exact hprevious
      · rw [if_neg hfurther]
        exact ⟨s', hput, hacc, hin', hstored, fun _ _ => hentry⟩

end storing

/-! ### Runs -/

section runs
variable [LinearOrder T] [Add T] (bounds : Bounds T)

/-- The entry of a tenant and cursor is the one that one of the operations has built for them. -/
def StoredBy (operations : List (Operation T)) (tenant : String) (afterSequence : Option ℤ)
    (e : Entry T) : Prop :=
  ∃ purgedAt storedAt, Operation.store tenant afterSequence e.events purgedAt storedAt ∈ operations ∧
    e = newEntry bounds e.events storedAt

/-- What holds of the cache after the operations. -/
structure Sound (operations : List (Operation T)) (s : State T) : Prop where
  accurate : Accurate s
  inBudget : InBudget bounds s
  stored : ∀ tenant afterSequence e, s.entryAt tenant afterSequence = some e →
    StoredBy bounds operations tenant afterSequence e

variable {bounds}

theorem Sound.apply {operations : List (Operation T)} {s : State T} (h : Sound bounds operations s)
    (operation : Operation T) :
    ∃ s', apply bounds s operation = .ok s' ∧ Sound bounds (operations ++ [operation]) s' := by
  obtain ⟨hacc, hin, hstored⟩ := h
  have hold : ∀ {s' : State T}, Within s' s → ∀ tenant afterSequence e,
      s'.entryAt tenant afterSequence = some e →
        StoredBy bounds (operations ++ [operation]) tenant afterSequence e := by
    intro s' hwithin tenant afterSequence e he
    obtain ⟨purgedAt, storedAt, hmem, hbuilt⟩ := hstored tenant afterSequence e (hwithin _ _ _ he)
    exact ⟨purgedAt, storedAt, List.mem_append_left _ hmem, hbuilt⟩
  cases operation with
  | store tenant afterSequence events purgedAt storedAt =>
    obtain ⟨s', hrun, hacc', hin', hplus, -⟩ :=
      storeReplayCache_spec hacc hin tenant afterSequence events purgedAt storedAt
    refine ⟨s', hrun, hacc', hin', fun t c e he => ?_⟩
    rcases hplus t c e he with ⟨rfl, rfl, rfl⟩ | he
    · exact ⟨purgedAt, storedAt, List.mem_append_right _ List.mem_cons_self, rfl⟩
    · exact hold (fun _ _ _ he => he) t c e he
  | cached tenant afterSequence throughSequence now =>
    obtain ⟨hpurged, hwithin, -⟩ := hacc.purge now
    have hpurgedIn := hin.purge now
    refine ⟨_, rfl, ?_⟩
    rcases cachedReplay_cases s tenant afterSequence throughSequence now with
      hnone | ⟨cache, entry, hcache, hentry, -, hsome⟩
    · rw [hnone]
      exact ⟨hpurged, hpurgedIn, hold hwithin⟩
    · rw [hsome]
      obtain ⟨hmoved, hmovedWithin⟩ := hpurged.moveToEnd hcache hentry
      exact ⟨hmoved, ⟨hpurgedIn.events_le, hpurgedIn.bytes_le⟩, hold (hmovedWithin.trans hwithin)⟩
  | purge now =>
    obtain ⟨hpurged, hwithin, -⟩ := hacc.purge now
    exact ⟨_, rfl, hpurged, hin.purge now, hold hwithin⟩
  | dropTenant tenant =>
    obtain ⟨hdropped, hwithin⟩ := hacc.dropTenant tenant
    exact ⟨_, rfl, hdropped, hin.dropTenant tenant, hold hwithin⟩
  | record event now =>
    obtain ⟨hdropped, hwithin⟩ := hacc.dropTenant event.tenantId
    have hdroppedIn := hin.dropTenant event.tenantId
    refine ⟨_, rfl, ⟨hdropped.counts.of_eq rfl rfl rfl, hdropped.nonempty⟩, ?_, hold hwithin⟩
    exact ⟨hdroppedIn.events_le, hdroppedIn.bytes_le⟩

theorem run_sound (bounds : Bounds T) (operations : List (Operation T)) :
    ∃ s, run bounds operations = .ok s ∧ Sound bounds operations s := by
  induction operations using List.reverseRecOn with
  | nil =>
    refine ⟨{}, rfl, ⟨⟨rfl, rfl, rfl⟩, ?_⟩, ⟨by simp, by simp⟩, ?_⟩
    · intro tenant cache hcache
      simp at hcache
    · intro tenant afterSequence e he
      simp [State.entryAt] at he
  | append_singleton operations operation ih =>
    obtain ⟨s, hrun, hs⟩ := ih
    obtain ⟨s', hstep, hs'⟩ := hs.apply operation
    refine ⟨s', ?_, hs'⟩
    unfold run at hrun ⊢
    rw [List.foldlM_append, hrun]
    simp only [List.foldlM_cons, List.foldlM_nil, bind, Except.bind, hstep]
    rfl

variable (bounds)

/-- A store that fits, and for which no longer entry is kept, leaves its entry in the cache, and leaves the
counters within the bounds. -/
def KeepsWhatItStores (s : State T) : Prop :=
  ∀ tenant afterSequence events purgedAt storedAt, ∃ s',
    s.storeReplayCache bounds tenant afterSequence events purgedAt storedAt = .ok s' ∧ InBudget bounds s' ∧
      (Fits bounds events → ¬ KeepsPrevious s tenant afterSequence events purgedAt →
        s'.entryAt tenant afterSequence = some (newEntry bounds events storedAt))

/-- What `_cached_replay` returns are the events of an entry that has not expired, that a store has built for
this tenant and cursor, and whose tail reaches the sequence asked for. -/
def ReturnsWhatWasStored (operations : List (Operation T)) (s : State T) : Prop :=
  ∀ tenant afterSequence throughSequence now events,
    (s.cachedReplay tenant afterSequence throughSequence now).1 = some events →
      Reaches events afterSequence throughSequence ∧
        ∃ e, s.entryAt tenant afterSequence = some e ∧ e.events = events ∧ now < e.expiresAt ∧
          StoredBy bounds operations tenant afterSequence e

/-- **The replay cache**: after any operations, none of which raises, the counters are the sums over the
entries, nothing has been cut off and no tenant has an empty cache; the counters are within their bounds, a store
does not evict its own entry, and a replay gets what was stored for its tenant and cursor. -/
theorem replay_cache_accounting (operations : List (Operation T)) :
    ∃ s, run bounds operations = .ok s ∧ Accurate s ∧ InBudget bounds s ∧ KeepsWhatItStores bounds s ∧
      ReturnsWhatWasStored bounds operations s := by
  obtain ⟨s, hrun, hacc, hin, hstored⟩ := run_sound bounds operations
  refine ⟨s, hrun, hacc, hin, ?_, ?_⟩
  · intro tenant afterSequence events purgedAt storedAt
    obtain ⟨s', hstore, -, hin', -, hkeeps⟩ :=
      storeReplayCache_spec hacc hin tenant afterSequence events purgedAt storedAt
    exact ⟨s', hstore, hin', hkeeps⟩
  · intro tenant afterSequence throughSequence now events hevents
    obtain ⟨-, hwithin, hfresh⟩ := hacc.purge now
    rcases cachedReplay_cases s tenant afterSequence throughSequence now with
      hnone | ⟨cache, entry, hcache, hentry, hreaches, hsome⟩
    · rw [hnone] at hevents
      cases hevents
    · rw [hsome] at hevents
      cases hevents
      have hpurged : (s.purge now).entryAt tenant afterSequence = some entry := by
        rw [State.entryAt, hcache]
        exact hentry
      have hthere := hwithin _ _ _ hpurged
      exact ⟨hreaches, entry, hthere, rfl, hfresh _ _ _ hpurged, hstored _ _ _ hthere⟩

end runs

end CyberControl.SseReplayCache
