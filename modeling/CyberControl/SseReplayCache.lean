import CyberControl.Errors
import CyberControl.OrderedDict
import Mathlib.Algebra.Group.Prod
import Mathlib.Algebra.Ring.Nat
import Mathlib.Order.Lattice

/-! # The replay cache of the event-stream broker

`SSEBroker` (`streaming/sse.py`) keeps, for each tenant and cursor, the events that a replay has found.  Here is
the whole cache, with all tenants, the times at which entries expire and the two counters. -/

namespace CyberControl.SseReplayCache

open OrderedDict

variable {T : Type}

/-! ### Entries -/

structure SSEEvent where
  tenantId : String
  sequence : ℤ
  eventType : String
  dataJson : String
deriving DecidableEq

/-- `_event_size`. -/
def SSEEvent.sizeBytes (e : SSEEvent) : ℕ := e.eventType.utf8ByteSize + e.dataJson.utf8ByteSize

/-- `_ReplayCacheEntry`; `T` has the readings of the clock of the event loop. -/
structure Entry (T : Type) where
  events : List SSEEvent
  expiresAt : T
  sizeBytes : ℕ
deriving DecidableEq

/-- What an entry adds to the two counters. -/
def Entry.weight (e : Entry T) : ℕ × ℕ := (e.events.length, e.sizeBytes)

abbrev TenantCache (T : Type) := AList fun _ : Option ℤ => Entry T

def TenantCache.weight (cache : TenantCache T) : ℕ × ℕ := total Entry.weight cache

/-- `events[-1].sequence if events else after_sequence`. -/
def tail (events : List SSEEvent) (afterSequence : Option ℤ) : Option ℤ :=
  match events.getLast? with
  | some e => some e.sequence
  | none => afterSequence

/-- Whether a stored entry reaches further than the new events. -/
def reachesFurther (previous new : Option ℤ) : Bool :=
  match previous, new with
  | none, _ => false
  | some _, none => true
  | some p, some n => n < p

/-- `_LatestCacheEntry`. -/
structure LatestEntry (T : Type) where
  sequence : Option ℤ
  expiresAt : T

/-- The bounds of the cache, as the constructor of the broker checks them; it also wants the seconds positive,
which nothing here depends on. -/
structure Bounds (T : Type) where
  replayCacheSeconds : T
  replayCacheMaxEvents : ℕ
  replayCacheMaxBytes : ℕ
  replayCacheMaxTenants : ℕ
  replayCacheMaxEvents_pos : 0 < replayCacheMaxEvents
  replayCacheMaxBytes_pos : 0 < replayCacheMaxBytes
  replayCacheMaxTenants_pos : 0 < replayCacheMaxTenants

/-- The caches of the broker and the counters.  `clamped` says whether a `max(0, …)` has had a negative number
to cut off; the broker does not keep it. -/
structure State (T : Type) where
  replayCache : AList fun _ : String => TenantCache T := ∅
  replayCacheEvents : ℤ := 0
  replayCacheBytes : ℤ := 0
  latestCache : AList fun _ : String => LatestEntry T := ∅
  clamped : Bool := false

def emptyDictionary : Exn := .other "KeyError"

variable {tenant : String}

namespace State

/-- The entry of a tenant and cursor. -/
def entryAt (s : State T) (tenant : String) (afterSequence : Option ℤ) : Option (Entry T) :=
  (s.replayCache.lookup tenant).bind (·.lookup afterSequence)

/-- `_account_replay_cache_removal`. -/
def accountRemoval (s : State T) (e : Entry T) : State T :=
  { s with
    replayCacheEvents := max 0 (s.replayCacheEvents - e.events.length)
    replayCacheBytes := max 0 (s.replayCacheBytes - e.sizeBytes)
    clamped := s.clamped || s.replayCacheEvents < e.events.length || s.replayCacheBytes < e.sizeBytes }

/-- The cache of a tenant that is there gets these entries; without any, the tenant goes. -/
def setOrPop (s : State T) (tenant : String) (cache : TenantCache T) : State T :=
  { s with
    replayCache :=
      if cache.entries.isEmpty then s.replayCache.erase tenant else s.replayCache.replace tenant cache }

/-- `_drop_tenant_replay_cache`. -/
def dropTenant (s : State T) (tenant : String) : State T :=
  match s.replayCache.lookup tenant with
  | none => s
  | some cache => (values cache).foldl accountRemoval { s with replayCache := s.replayCache.erase tenant }

/-! ### Expiry -/

section clock
variable [LinearOrder T]

/-- The turn of the loop of `_purge_expired_replay_cache` for one tenant. -/
def purgeTenant (now : T) (s : State T) (tenant : String) : State T :=
  match s.replayCache.lookup tenant with
  | none => s
  | some cache =>
    let expired := (values cache).filter fun e => e.expiresAt ≤ now
    let kept := filterValues (fun e => !decide (e.expiresAt ≤ now)) cache
    (expired.foldl accountRemoval s).setOrPop tenant kept

/-- `_purge_expired_replay_cache`. -/
def purge (s : State T) (now : T) : State T := s.replayCache.keys.reverse.foldl (purgeTenant now) s

/-- `_cached_replay`: the events, when there are any to give, and the state. -/
def cachedReplay (s : State T) (tenant : String) (afterSequence throughSequence : Option ℤ) (now : T) :
    Option (List SSEEvent) × State T :=
  let s := s.purge now
  match s.replayCache.lookup tenant with
  | none => (none, s)
  | some cache =>
    match cache.lookup afterSequence with
    | none => (none, s)
    | some entry =>
      let moved := { s with replayCache := s.replayCache.insert tenant (cache.insert afterSequence entry) }
      match throughSequence, tail entry.events afterSequence with
      | none, _ => (some entry.events, moved)
      | some _, none => (none, s)
      | some through, some last => if last < through then (none, s) else (some entry.events, moved)

end clock

/-! ### Eviction -/

/-- `while len(tenant_cache) > 8`. -/
def evictCursors (s : State T) (cache : TenantCache T) : Except Exn (State T × TenantCache T) :=
  if 8 < cache.entries.length then
    match _h : popOldest cache with
    | none => .error emptyDictionary
    | some ((_, evicted), cache') => (s.accountRemoval evicted).evictCursors cache'
  else .ok (s, cache)
termination_by cache.entries.length
decreasing_by
  have := length_of_popOldest _h
  omega

/-- `while len(self._replay_cache) > self._replay_cache_max_tenants`. -/
def evictTenants (bounds : Bounds T) (s : State T) : Except Exn (State T) :=
  if bounds.replayCacheMaxTenants < s.replayCache.entries.length then
    match _h : popOldest s.replayCache with
    | none => .error emptyDictionary
    | some ((_, evicted), rest) =>
      evictTenants bounds { (values evicted).foldl accountRemoval s with replayCache := rest }
  else .ok s
termination_by s.replayCache.entries.length
decreasing_by
  have := length_of_popOldest _h
  show rest.entries.length < s.replayCache.entries.length
  omega

/-- The number of entries. -/
def count (s : State T) : ℕ := total (fun cache => cache.entries.length) s.replayCache

theorem total_setOrPop {M : Type} [AddCommMonoid M] {w : TenantCache T → M} {s : State T}
    {previous cache : TenantCache T} (hw : cache.entries = [] → w cache = 0)
    (h : s.replayCache.lookup tenant = some previous) :
    total w (s.setOrPop tenant cache).replayCache = w cache + total w (s.replayCache.erase tenant) := by
  unfold setOrPop
  by_cases hempty : cache.entries = []
  · simp only [hempty, List.isEmpty_nil, if_true, hw hempty, zero_add]
  · simp only [List.isEmpty_iff, hempty, if_false]
    exact total_replace h

theorem count_setOrPop {s : State T} {tenant cursor : _} {cache cache' : TenantCache T} {evicted : Entry T}
    (h : s.replayCache.lookup tenant = some cache) (hpop : popOldest cache = some ((cursor, evicted), cache')) :
    ((s.accountRemoval evicted).setOrPop tenant cache').count < s.count := by
  have hset : ((s.accountRemoval evicted).setOrPop tenant cache').count =
      cache'.entries.length + total (fun cache => cache.entries.length) (s.replayCache.erase tenant) := by
    apply total_setOrPop
    · intro hempty
      rw [hempty]
      rfl
    · exact h
  have hcount : s.count =
      cache.entries.length + total (fun cache => cache.entries.length) (s.replayCache.erase tenant) :=
    total_erase_of_lookup h
  have := length_of_popOldest hpop
  omega

/-- The last loop of `_store_replay_cache`. -/
def evictOverBudget (bounds : Bounds T) (s : State T) : Except Exn (State T) :=
  if bounds.replayCacheMaxEvents < s.replayCacheEvents ∨ bounds.replayCacheMaxBytes < s.replayCacheBytes then
    match _htenant : popOldest s.replayCache with
    | none => .ok s
    | some ((tenant, cache), _) =>
      match _hcursor : popOldest cache with
      | none => .error emptyDictionary
      | some ((_, evicted), cache') =>
        evictOverBudget bounds ((s.accountRemoval evicted).setOrPop tenant cache')
  else .ok s
termination_by s.count
decreasing_by exact count_setOrPop (lookup_of_popOldest _htenant) _hcursor

/-! ### Operations -/

/-- `_store_replay_cache` from where the entry is built. -/
def putEntry (bounds : Bounds T) (s : State T) (tenant : String) (afterSequence : Option ℤ)
    (cache : TenantCache T) (entry : Entry T) : Except Exn (State T) := do
  let s := (cache.lookup afterSequence).elim s s.accountRemoval
  let s := { s with
    replayCacheEvents := s.replayCacheEvents + entry.events.length
    replayCacheBytes := s.replayCacheBytes + entry.sizeBytes }
  let (s, cache) ← s.evictCursors (cache.insert afterSequence entry)
  let s ← evictTenants bounds { s with replayCache := s.replayCache.insert tenant cache }
  evictOverBudget bounds s

/-- `_store_replay_cache`; the clock is read when expired entries are dropped and when the entry is built. -/
def storeReplayCache [LinearOrder T] [Add T] (bounds : Bounds T) (s : State T) (tenant : String)
    (afterSequence : Option ℤ) (events : List SSEEvent) (purgedAt storedAt : T) : Except Exn (State T) :=
  let sizeBytes := (events.map SSEEvent.sizeBytes).sum
  if bounds.replayCacheMaxEvents < events.length ∨ bounds.replayCacheMaxBytes < sizeBytes then .ok s
  else
    let s := s.purge purgedAt
    let cache := (s.replayCache.lookup tenant).getD ∅
    let entry := ⟨events, storedAt + bounds.replayCacheSeconds, sizeBytes⟩
    match cache.lookup afterSequence with
    | none => s.putEntry bounds tenant afterSequence cache entry
    | some previous =>
      if reachesFurther (tail previous.events afterSequence) (tail events afterSequence) then
        .ok { s with replayCache := s.replayCache.insert tenant (cache.insert afterSequence previous) }
      else s.putEntry bounds tenant afterSequence cache entry

def storeLatestSequence [Add T] (bounds : Bounds T) (s : State T) (tenant : String) (sequence : Option ℤ)
    (now : T) : State T :=
  let sequence :=
    match s.latestCache.lookup tenant with
    | none => sequence
    | some existing => if reachesFurther existing.sequence sequence then existing.sequence else sequence
  let latest := s.latestCache.insert tenant ⟨sequence, now + bounds.replayCacheSeconds⟩
  { s with latestCache := keepNewest bounds.replayCacheMaxTenants latest }

def recordDurableEvent [Add T] (bounds : Bounds T) (s : State T) (event : SSEEvent) (now : T) : State T :=
  (s.dropTenant event.tenantId).storeLatestSequence bounds event.tenantId (some event.sequence) now

end State

inductive Operation (T : Type) where
  | store (tenant : String) (afterSequence : Option ℤ) (events : List SSEEvent) (purgedAt storedAt : T)
  | cached (tenant : String) (afterSequence throughSequence : Option ℤ) (now : T)
  | purge (now : T)
  | dropTenant (tenant : String)
  | record (event : SSEEvent) (now : T)

section operations
variable [LinearOrder T] [Add T] (bounds : Bounds T)

def apply (s : State T) : Operation T → Except Exn (State T)
  | .store tenant afterSequence events purgedAt storedAt =>
    s.storeReplayCache bounds tenant afterSequence events purgedAt storedAt
  | .cached tenant afterSequence throughSequence now =>
    .ok (s.cachedReplay tenant afterSequence throughSequence now).2
  | .purge now => .ok (s.purge now)
  | .dropTenant tenant => .ok (s.dropTenant tenant)
  | .record event now => .ok (s.recordDurableEvent bounds event now)

/-- The state of a new broker after the operations. -/
def run (operations : List (Operation T)) : Except Exn (State T) :=
  operations.foldlM (apply bounds) {}

end operations

/-! ### Accounts -/

/-- The counters stand at `n`, and nothing was cut off on the way. -/
structure Counts (s : State T) (n : ℕ × ℕ) : Prop where
  events : s.replayCacheEvents = n.1
  bytes : s.replayCacheBytes = n.2
  unclamped : s.clamped = false

/-- The counters are the sums over the entries, and no tenant has an empty cache. -/
structure Accurate (s : State T) : Prop where
  counts : Counts s (total TenantCache.weight s.replayCache)
  nonempty : ∀ tenant cache, s.replayCache.lookup tenant = some cache → cache.entries ≠ []

variable {cursor : Option ℤ} {e : Entry T} {cache' : TenantCache T}

section accounts
variable {s s' : State T} {n : ℕ × ℕ} {tenant : String} {cache : TenantCache T}

theorem Counts.accountRemoval (h : Counts s (e.weight + n)) : Counts (s.accountRemoval e) n := by
  obtain ⟨hevents, hbytes, hclamped⟩ := h
  simp only [Entry.weight, Prod.fst_add, Prod.snd_add] at hevents hbytes
  refine ⟨?_, ?_, ?_⟩
  · simp only [State.accountRemoval]
    omega
  · simp only [State.accountRemoval]
    omega
  · simp only [State.accountRemoval, hclamped, Bool.false_or, Bool.or_eq_false_iff, decide_eq_false_iff_not]
    omega

theorem Counts.accountAll {l : List (Entry T)} (h : Counts s ((l.map Entry.weight).sum + n)) :
    Counts (l.foldl State.accountRemoval s) n := by
  induction l generalizing s with
  | nil => simpa using h
  | cons e l ih =>
    refine ih (Counts.accountRemoval ?_)
    rwa [List.map_cons, List.sum_cons, add_assoc] at h

@[simp] theorem replayCache_accountAll (l : List (Entry T)) :
    (l.foldl State.accountRemoval s).replayCache = s.replayCache := by
  induction l generalizing s with
  | nil => rfl
  | cons e l ih => exact ih

theorem Counts.of_eq (h : Counts s n) (hevents : s'.replayCacheEvents = s.replayCacheEvents)
    (hbytes : s'.replayCacheBytes = s.replayCacheBytes) (hclamped : s'.clamped = s.clamped) : Counts s' n :=
  ⟨hevents.trans h.events, hbytes.trans h.bytes, hclamped.trans h.unclamped⟩

theorem weight_eq_zero (h : cache.entries = []) : cache.weight = 0 := by
  unfold TenantCache.weight total
  rw [h]
  rfl

/-! ### What the steps keep -/

/-- Every entry of `s'` is one of `s`, under the same tenant and cursor. -/
def Within (s' s : State T) : Prop :=
  ∀ tenant cursor e, s'.entryAt tenant cursor = some e → s.entryAt tenant cursor = some e

theorem Within.trans {s'' : State T} (h : Within s'' s') (h' : Within s' s) : Within s'' s :=
  fun tenant cursor e he => h' tenant cursor e (h tenant cursor e he)

theorem within_setOrPop (h : s.replayCache.lookup tenant = some cache)
    (hsub : cache'.entries.Sublist cache.entries) (hs' : s'.replayCache = s.replayCache) :
    Within (s'.setOrPop tenant cache') s := by
  intro tenant' cursor e he
  unfold State.entryAt State.setOrPop at *
  rw [hs'] at he
  obtain ⟨found, hfound, he⟩ := Option.bind_eq_some_iff.mp he
  by_cases ht : tenant' = tenant
  · subst ht
    rw [h]
    split_ifs at hfound with hempty
    · rw [AList.lookup_erase] at hfound
      cases hfound
    · rw [lookup_replace h, AList.lookup_insert] at hfound
      cases hfound
      exact lookup_of_sublist hsub he
  · have hsame : s.replayCache.lookup tenant' = some found := by
      split_ifs at hfound
      · rwa [AList.lookup_erase_ne ht] at hfound
      · rwa [lookup_replace h, AList.lookup_insert_ne ht] at hfound
    rw [hsame]
    exact he

theorem Accurate.setOrPop (h : s.replayCache.lookup tenant = some cache)
    (hs' : s'.replayCache = s.replayCache)
    (hnonempty : ∀ tenant cache, s.replayCache.lookup tenant = some cache → cache.entries ≠ [])
    (hcounts : Counts s' (cache'.weight + total TenantCache.weight (s.replayCache.erase tenant))) :
    Accurate (s'.setOrPop tenant cache') := by
  have h' : s'.replayCache.lookup tenant = some cache := by rw [hs', h]
  constructor
  · rw [State.total_setOrPop weight_eq_zero h', hs']
    exact hcounts.of_eq rfl rfl rfl
  · intro tenant' found hfound
    unfold State.setOrPop at hfound
    rw [hs'] at hfound
    by_cases ht : tenant' = tenant
    · subst ht
      split_ifs at hfound with hempty
      · simp at hfound
      · rw [lookup_replace h, AList.lookup_insert] at hfound
        cases hfound
        simpa using hempty
    · split_ifs at hfound
      · rw [AList.lookup_erase_ne ht] at hfound
        exact hnonempty _ _ hfound
      · rw [lookup_replace h, AList.lookup_insert_ne ht] at hfound
        exact hnonempty _ _ hfound

theorem Accurate.dropTenant (h : Accurate s) (tenant : String) :
    Accurate (s.dropTenant tenant) ∧ Within (s.dropTenant tenant) s := by
  unfold State.dropTenant
  cases hcache : s.replayCache.lookup tenant with
  | none => exact ⟨h, fun _ _ _ he => he⟩
  | some cache =>
    have hcounts := h.counts
    rw [total_erase_of_lookup hcache, TenantCache.weight, total_eq_sum_values] at hcounts
    refine ⟨⟨?_, ?_⟩, ?_⟩
    · rw [replayCache_accountAll]
      exact Counts.accountAll (hcounts.of_eq rfl rfl rfl)
    · intro tenant' found hfound
      rw [replayCache_accountAll] at hfound
      by_cases ht : tenant' = tenant
      · subst ht
        simp at hfound
      · exact h.nonempty tenant' found ((AList.lookup_erase_ne ht).symm.trans hfound)
    · intro tenant' cursor e he
      unfold State.entryAt at he ⊢
      rw [replayCache_accountAll] at he
      by_cases ht : tenant' = tenant
      · subst ht
        simp at he
      · rwa [AList.lookup_erase_ne ht] at he

theorem Accurate.moveToEnd (h : Accurate s)
    (hcache : s.replayCache.lookup tenant = some cache) (he : cache.lookup cursor = some e) :
    Accurate { s with replayCache := s.replayCache.insert tenant (cache.insert cursor e) } ∧
      Within { s with replayCache := s.replayCache.insert tenant (cache.insert cursor e) } s := by
  have hsame : ∀ c, (cache.insert cursor e).lookup c = cache.lookup c := by
    intro c
    by_cases hc : c = cursor
    · rw [hc, AList.lookup_insert, he]
    · exact AList.lookup_insert_ne hc
  refine ⟨⟨?_, ?_⟩, ?_⟩
  · have hweight : TenantCache.weight (cache.insert cursor e) = cache.weight := by
      unfold TenantCache.weight
      rw [total_insert, total_erase_of_lookup he]
    have hcounts := h.counts
    rw [total_erase_of_lookup hcache, ← hweight] at hcounts
    rw [total_insert]
    exact hcounts.of_eq rfl rfl rfl
  · intro tenant' found hfound
    by_cases ht : tenant' = tenant
    · subst ht
      rw [AList.lookup_insert] at hfound
      cases hfound
      simp [AList.entries_insert]
    · exact h.nonempty tenant' found ((AList.lookup_insert_ne ht).symm.trans hfound)
  · intro tenant' c e' he'
    unfold State.entryAt at he' ⊢
    by_cases ht : tenant' = tenant
    · subst ht
      rw [AList.lookup_insert, Option.bind_some, hsame] at he'
      rwa [hcache]
    · rwa [AList.lookup_insert_ne ht] at he'

end accounts

/-! ### Expired entries -/

section expiry
variable [LinearOrder T] {s : State T}

theorem Accurate.purgeTenant (h : Accurate s) (now : T) (tenant : String) :
    Accurate (State.purgeTenant now s tenant) ∧ Within (State.purgeTenant now s tenant) s ∧
      ∀ cursor e, (State.purgeTenant now s tenant).entryAt tenant cursor = some e → now < e.expiresAt := by
  unfold State.purgeTenant
  cases hcache : s.replayCache.lookup tenant with
  | none =>
    refine ⟨h, fun _ _ _ he => he, fun cursor e he => ?_⟩
    rw [State.entryAt, hcache] at he
    cases he
  | some cache =>
    have hcounts := h.counts
    rw [total_erase_of_lookup hcache, TenantCache.weight,
      total_filterValues fun e => !decide (e.expiresAt ≤ now), add_assoc] at hcounts
    simp only [Bool.not_not] at hcounts
    have hsame := @replayCache_accountAll _ s ((values cache).filter fun e => e.expiresAt ≤ now)
    have hsub : (filterValues (fun e => !decide (e.expiresAt ≤ now)) cache).entries.Sublist cache.entries :=
      List.filter_sublist
    refine ⟨Accurate.setOrPop hcache hsame h.nonempty (Counts.accountAll hcounts),
      within_setOrPop hcache hsub hsame, ?_⟩
    intro cursor e he
    unfold State.entryAt State.setOrPop at he
    dsimp only at he
    rw [hsame] at he
    split_ifs at he with hempty
    · simp at he
    · rw [lookup_replace hcache, AList.lookup_insert, Option.bind_some, ← Option.mem_def,
        AList.mem_lookup_iff] at he
      have hkept := (List.mem_filter.mp he).2
      simpa using hkept

/-- **Purging**: what is left has not expired. -/
theorem Accurate.purge (h : Accurate s) (now : T) :
    Accurate (s.purge now) ∧ Within (s.purge now) s ∧
      ∀ tenant cursor e, (s.purge now).entryAt tenant cursor = some e → now < e.expiresAt := by
  have hloop : ∀ (tenants : List String) (s : State T), Accurate s →
      Accurate (tenants.foldl (State.purgeTenant now) s) ∧ Within (tenants.foldl (State.purgeTenant now) s) s ∧
        ∀ tenant ∈ tenants, ∀ cursor e,
          (tenants.foldl (State.purgeTenant now) s).entryAt tenant cursor = some e → now < e.expiresAt := by
    intro tenants
    induction tenants with
    | nil => exact fun s h => ⟨h, fun _ _ _ he => he, by simp⟩
    | cons t tenants ih =>
      intro s h
      obtain ⟨hfirst, hwithin, hfresh⟩ := h.purgeTenant now t
      obtain ⟨hacc, hrest, hlater⟩ := ih _ hfirst
      refine ⟨hacc, hrest.trans hwithin, ?_⟩
      intro tenant htenant cursor e he
      rcases List.mem_cons.mp htenant with rfl | htenant
      · exact hfresh cursor e (hrest _ _ _ he)
      · exact hlater tenant htenant cursor e he
  obtain ⟨hacc, hwithin, hfresh⟩ := hloop s.replayCache.keys.reverse s h
  refine ⟨hacc, hwithin, fun tenant cursor e he => ?_⟩
  have hmem : tenant ∈ s.replayCache.keys := by
    have hold := hwithin _ _ _ he
    obtain ⟨cache, hcache, -⟩ := Option.bind_eq_some_iff.mp hold
    rw [← AList.mem_keys, ← AList.lookup_isSome, hcache]
    rfl
  exact hfresh tenant (List.mem_reverse.mpr hmem) cursor e he

end expiry

/-! ### Eviction for a new entry -/

section eviction
variable {s : State T} {n : ℕ × ℕ} {cache : TenantCache T}

/-- The entry of the tenant used last that its cursor used last: the one just stored. -/
def Newest (s : State T) (tenant : String) (cursor : Option ℤ) (e : Entry T) : Prop :=
  ∃ cache rest others, s.replayCache.entries = ⟨tenant, cache⟩ :: others ∧ cache.entries = ⟨cursor, e⟩ :: rest

theorem Newest.entryAt_eq (h : Newest s tenant cursor e) :
    s.entryAt tenant cursor = some e := by
  obtain ⟨cache, rest, others, hs, hcache⟩ := h
  have hlookup : s.replayCache.lookup tenant = some cache := by
    rw [← Option.mem_def, AList.mem_lookup_iff, hs]
    exact List.mem_cons_self
  rw [State.entryAt, hlookup, Option.bind_some, ← Option.mem_def, AList.mem_lookup_iff, hcache]
  exact List.mem_cons_self

theorem evictCursors_spec (h : Counts s (cache.weight + n)) {e : Sigma fun _ : Option ℤ => Entry T}
    {rest : List (Sigma fun _ : Option ℤ => Entry T)} (hhead : cache.entries = e :: rest) :
    ∃ s' cache', s.evictCursors cache = .ok (s', cache') ∧ s'.replayCache = s.replayCache ∧
      Counts s' (cache'.weight + n) ∧ cache'.entries.Sublist cache.entries ∧
        ∃ rest', cache'.entries = e :: rest' := by
  induction hlen : cache.entries.length generalizing s cache rest with
  | zero => simp [hhead] at hlen
  | succ k ih =>
    rw [State.evictCursors]
    by_cases hover : 8 < cache.entries.length
    · rw [if_pos hover]
      split
      · rename_i hpop
        rw [popOldest_eq_none.mp hpop] at hhead
        cases hhead
      · rename_i cursor evicted cache' hpop
        have hrest : rest ≠ [] := by
          rintro rfl
          rw [hhead] at hover
          simp at hover
        have hcounts : Counts (s.accountRemoval evicted) (TenantCache.weight cache' + n) := by
          rw [TenantCache.weight, total_of_popOldest hpop, add_assoc] at h
          exact h.accountRemoval
        have hlen' : cache'.entries.length = k := by
          have := length_of_popOldest hpop
          omega
        obtain ⟨s', cache'', hrun, hsame, hcounts', hsub, hhead'⟩ :=
          ih hcounts (head_of_popOldest hpop hhead hrest) hlen'
        exact ⟨s', cache'', hrun, hsame, hcounts', hsub.trans (sublist_of_popOldest hpop), hhead'⟩
    · rw [if_neg hover]
      exact ⟨s, cache, rfl, rfl, h, List.Sublist.refl _, rest, hhead⟩

theorem evictTenants_spec (bounds : Bounds T) (h : Accurate s)
    (hnew : Newest s tenant cursor e) :
    ∃ s', s.evictTenants bounds = .ok s' ∧ Accurate s' ∧ Within s' s ∧ Newest s' tenant cursor e := by
  induction hlen : s.replayCache.entries.length generalizing s with
  | zero =>
    obtain ⟨cache, rest, others, hs, -⟩ := hnew
    simp [hs] at hlen
  | succ k ih =>
    rw [State.evictTenants]
    by_cases hover : bounds.replayCacheMaxTenants < s.replayCache.entries.length
    · rw [if_pos hover]
      obtain ⟨cache, rest, others, hs, hcache⟩ := hnew
      split
      · rename_i hpop
        rw [popOldest_eq_none.mp hpop] at hs
        cases hs
      · rename_i tenant' evicted remaining hpop
        have hothers : others ≠ [] := by
          rintro rfl
          have := bounds.replayCacheMaxTenants_pos
          rw [hs] at hover
          simp only [List.length_singleton] at hover
          omega
        have hcounts : Counts ((values evicted).foldl State.accountRemoval s)
            (total TenantCache.weight remaining) := by
          have hall := h.counts
          rw [total_of_popOldest hpop, TenantCache.weight, total_eq_sum_values] at hall
          exact hall.accountAll
        generalize (values evicted).foldl State.accountRemoval s = s₁ at hcounts ⊢
        have hsub := sublist_of_popOldest hpop
        have hacc : Accurate { s₁ with replayCache := remaining } := by
          refine ⟨hcounts.of_eq rfl rfl rfl, fun t c hc => ?_⟩
          exact h.nonempty t c (lookup_of_sublist hsub hc)
        have hwithin : Within { s₁ with replayCache := remaining } s := by
          intro t c e he
          obtain ⟨found, hfound, he⟩ := Option.bind_eq_some_iff.mp he
          exact Option.bind_eq_some_iff.mpr ⟨found, lookup_of_sublist hsub hfound, he⟩
        have hnew' : Newest { s₁ with replayCache := remaining } tenant cursor e :=
          ⟨cache, rest, others.dropLast, head_of_popOldest hpop hs hothers, hcache⟩
        have hlen' : remaining.entries.length = k := by
          have := length_of_popOldest hpop
          omega
        obtain ⟨s', hrun, hacc', hwithin', hnew''⟩ := ih hacc hnew' hlen'
        exact ⟨s', hrun, hacc', hwithin'.trans hwithin, hnew''⟩
    · rw [if_neg hover]
      exact ⟨s, rfl, h, fun _ _ _ he => he, hnew⟩

theorem Newest.setOrPop {s' : State T} {tenant oldest : String} {cursor cursor' : Option ℤ}
    {e evicted : Entry T} {remaining : AList fun _ : String => TenantCache T}
    (h : Newest s tenant cursor e) (hs' : s'.replayCache = s.replayCache)
    (htenant : popOldest s.replayCache = some ((oldest, cache), remaining))
    (hcursor : popOldest cache = some ((cursor', evicted), cache'))
    (hmore : total TenantCache.weight s.replayCache ≠ e.weight) :
    Newest (s'.setOrPop oldest cache') tenant cursor e := by
  obtain ⟨newest, rest, others, hs, hnewest⟩ := h
  unfold Newest State.setOrPop
  rw [hs']
  by_cases hothers : others = []
  · -- one tenant is left, so its cache has a second entry
    subst hothers
    have hsingle := entries_of_popOldest htenant
    rw [hs, List.singleton_eq_append_iff] at hsingle
    have hsame : tenant = oldest ∧ newest = cache := by
      rcases hsingle with ⟨-, hlast⟩ | ⟨-, hlast⟩
      · simp only [List.cons.injEq, Sigma.mk.injEq, heq_eq_eq, and_true] at hlast
        exact ⟨hlast.1.symm, hlast.2.symm⟩
      · cases hlast
    obtain ⟨rfl, rfl⟩ := hsame
    have hrest : rest ≠ [] := by
      rintro rfl
      apply hmore
      simp [total, hs, TenantCache.weight, hnewest]
    have hhead := head_of_popOldest hcursor hnewest hrest
    refine ⟨cache', rest.dropLast, [], ?_, hhead⟩
    have hfull : cache'.entries.isEmpty = false := by rw [hhead]; rfl
    simp only [hfull, Bool.false_eq_true, if_false]
    show List.kreplace tenant cache' s.replayCache.entries = _
    rw [hs]
    exact kreplace_append_cons [] [] (by simp)
  · have hne := ne_of_popOldest htenant hs hothers
    split_ifs
    · obtain ⟨l', hl'⟩ := erase_head hs hne
      exact ⟨newest, rest, l', hl', hnewest⟩
    · obtain ⟨l', hl'⟩ := replace_head hs hne
      exact ⟨newest, rest, l', hl', hnewest⟩

/-- Both counters are within their bounds. -/
structure InBudget (bounds : Bounds T) (s : State T) : Prop where
  events_le : s.replayCacheEvents ≤ bounds.replayCacheMaxEvents
  bytes_le : s.replayCacheBytes ≤ bounds.replayCacheMaxBytes

/-- **The budget loop**: it ends within the bounds, without the entry stored last. -/
theorem evictOverBudget_spec {bounds : Bounds T} (h : Accurate s)
    (hnew : Newest s tenant cursor e) (hevents : e.events.length ≤ bounds.replayCacheMaxEvents)
    (hbytes : e.sizeBytes ≤ bounds.replayCacheMaxBytes) :
    ∃ s', s.evictOverBudget bounds = .ok s' ∧ Accurate s' ∧ Within s' s ∧ Newest s' tenant cursor e ∧
      InBudget bounds s' := by
  induction hcount : s.count using Nat.strong_induction_on generalizing s with
  | _ k ih =>
    rw [State.evictOverBudget]
    by_cases hover : bounds.replayCacheMaxEvents < s.replayCacheEvents ∨
        bounds.replayCacheMaxBytes < s.replayCacheBytes
    · rw [if_pos hover]
      split
      · rename_i htenant
        obtain ⟨newest, rest, others, hs, -⟩ := hnew
        rw [popOldest_eq_none.mp htenant] at hs
        cases hs
      · rename_i oldest cache remaining htenant
        have hlookup := lookup_of_popOldest htenant
        split
        · rename_i hcursor
          exact absurd (popOldest_eq_none.mp hcursor) (h.nonempty _ _ hlookup)
        · rename_i cursor' evicted cache' hcursor
          have hmore : total TenantCache.weight s.replayCache ≠ e.weight := by
            intro heq
            obtain ⟨hcountsEvents, hcountsBytes, -⟩ := h.counts
            rw [heq, Entry.weight] at hcountsEvents hcountsBytes
            dsimp only at hcountsEvents hcountsBytes
            omega
          have hcounts := h.counts
          rw [total_erase_of_lookup hlookup, TenantCache.weight, total_of_popOldest hcursor,
            add_assoc] at hcounts
          have hsame : (s.accountRemoval evicted).replayCache = s.replayCache := rfl
          have hacc := Accurate.setOrPop hlookup hsame h.nonempty hcounts.accountRemoval
          have hwithin := within_setOrPop hlookup (sublist_of_popOldest hcursor) hsame
          have hnew' := hnew.setOrPop hsame htenant hcursor hmore
          have hless := State.count_setOrPop hlookup hcursor
          obtain ⟨s', hrun, hacc', hwithin', hnew'', hin⟩ := ih _ (hcount ▸ hless) hacc hnew' rfl
          exact ⟨s', hrun, hacc', hwithin'.trans hwithin, hnew'', hin⟩
    · rw [if_neg hover]
      obtain ⟨hle, hle'⟩ := not_or.mp hover
      exact ⟨s, rfl, h, fun _ _ _ he => he, hnew, Int.not_lt.mp hle, Int.not_lt.mp hle'⟩

end eviction

end CyberControl.SseReplayCache
