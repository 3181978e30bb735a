import CyberControl.Idempotency
import CyberControl.Transition

/-! # The leased idempotency store

`PostgresIdempotencyStore` (`messaging/postgres_idempotency.py`) for one tenant and one key: a row
with the digest and the state of the message, and a lease of one worker instance on it.  Every
method locks the row in one transaction and rolls back when it raises, so a method is a function
from the row to an exception or to its answer and the new row.

The system has any number of instances that call the methods in any order at a nondecreasing
clock.  `granted` is a history variable: the end of the lease that an instance was last granted
and has not given up by its own `complete` or `abort`. -/

namespace CyberControl.PostgresIdempotency

open Idempotency Transition

abbrev Instance := String

/-- The constructor arguments of the stores of all instances; durations in clock ticks. -/
structure Settings where
  retention : ℕ
  processingLease : ℕ
  retention_pos : 0 < retention
  processingLease_pos : 0 < processingLease

/-- `IdempotencyRecordModel`: the columns the methods read. -/
structure Row where
  requestDigest : Digest
  state : IdempotencyState
  leaseOwner : Option Instance
  leaseExpiresAt : Option ℕ
  expiresAt : ℕ

def completedRestart : Exn :=
  .liyan { code := .MESSAGE_DUPLICATE_CONFLICT,
           safeMessage := "A completed idempotency record cannot return to processing.",
           category := .MESSAGING, statusCode := 409 }

def leasedByAnother : Exn :=
  .liyan { code := .MESSAGE_DUPLICATE_CONFLICT,
           safeMessage := "The idempotent operation is leased by another worker.",
           category := .MESSAGING, retriable := true, statusCode := 409 }

/-- `complete` and `abort` refuse a caller that is not the lease owner. -/
def onlyOwnerCan (operation : String) : Exn :=
  .liyan { code := .MESSAGE_DUPLICATE_CONFLICT,
           safeMessage :=
            "Only the active idempotency lease owner can " ++ operation ++ " the operation.",
           category := .MESSAGING, retriable := true, statusCode := 409 }

def reservationMissing : Exn :=
  .liyan { code := .INTERNAL, safeMessage := "The idempotency reservation is missing.",
           category := .MESSAGING }

/-! ### The methods -/

def lockedRecord : Option Row → Except Exn Row
  | none => .error reservationMissing
  | some r => .ok r

def assertDigest (r : Row) (digest : Digest) : Except Exn Unit :=
  if r.requestDigest ≠ digest then .error duplicateConflict else .ok ()

section methods
variable (c : Settings) (i : Instance) (now : ℕ) (digest : Digest) (row : Option Row)

/-- The row that `reserve` inserts, and writes over an outdated one. -/
def newRow : Row :=
  ⟨digest, .BUFFERED, some i, some (now + c.processingLease), now + c.retention⟩

def reserve : Except Exn (ReservationDecision × Option Row) :=
  match row with
  | none => .ok (.RESERVED, some (newRow c i now digest))
  | some r =>
    if r.expiresAt ≤ now then .ok (.RESERVED, some (newRow c i now digest))
    else do
      assertDigest r digest
      if (r.state = .BUFFERED ∨ r.state = .PROCESSING) ∧ r.leaseExpiresAt.any (· ≤ now) then
        return (.RESERVED, some { r with state := .BUFFERED, leaseOwner := some i,
                                         leaseExpiresAt := some (now + c.processingLease) })
      else return (.duplicate r.state, some r)

def markProcessing : Except Exn (Option Row) := do
  let r ← lockedRecord row
  assertDigest r digest
  if r.state = .COMPLETED then .error completedRestart
  else if r.leaseOwner ≠ some i ∧ r.leaseExpiresAt.any (now < ·) then .error leasedByAnother
  else return some { r with state := .PROCESSING, leaseOwner := some i,
                            leaseExpiresAt := some (now + c.processingLease) }

def complete : Except Exn (Option Row) := do
  let r ← lockedRecord row
  assertDigest r digest
  if r.state = .COMPLETED then return some r
  else if r.state ≠ .PROCESSING ∨ r.leaseOwner ≠ some i then .error (onlyOwnerCan "complete")
  else return some { r with state := .COMPLETED, leaseOwner := none, leaseExpiresAt := none }

def abort : Except Exn (Option Row) :=
  match row with
  | none => .ok none
  | some r => do
    assertDigest r digest
    if r.state = .PROCESSING ∧ r.leaseOwner ≠ some i then .error (onlyOwnerCan "abort")
    else return if r.state ≠ .COMPLETED then none else some r

end methods

/-! ### The system -/

inductive Op where
  | reserve (digest : Digest)
  | markProcessing (digest : Digest)
  | complete (digest : Digest)
  | abort (digest : Digest)
deriving DecidableEq

/-- What a call means for the lease of its caller. -/
inductive LeaseEffect where
  | granted
  | kept
  | givenUp

/-- A method call of instance `i` at time `now`; an exception leaves the row as it was. -/
def Op.exec (c : Settings) (i : Instance) (now : ℕ) (row : Option Row) : Op → LeaseEffect × Option Row
  | .reserve digest =>
    match PostgresIdempotency.reserve c i now digest row with
    | .ok (.RESERVED, row') => (.granted, row')
    | .ok (_, row') => (.kept, row')
    | .error _ => (.kept, row)
  | .markProcessing digest =>
    match PostgresIdempotency.markProcessing c i now digest row with
    | .ok row' => (.granted, row')
    | .error _ => (.kept, row)
  | .complete digest =>
    match PostgresIdempotency.complete i digest row with
    | .ok row' => (.givenUp, row')
    | .error _ => (.kept, row)
  | .abort digest =>
    match PostgresIdempotency.abort i digest row with
    | .ok row' => (.givenUp, row')
    | .error _ => (.kept, row)

structure Call where
  instanceId : Instance
  now : ℕ
  op : Op

structure State where
  row : Option Row
  clock : ℕ
  granted : Instance → Option ℕ

/-- No row yet, and no lease. -/
def State.init : State := ⟨none, 0, fun _ => none⟩

/-- The lease of `i` after a call at `now`. -/
def LeaseEffect.apply (c : Settings) (granted : Instance → Option ℕ) (i : Instance) (now : ℕ) :
    LeaseEffect → Instance → Option ℕ
  | .granted => Function.update granted i (some (now + c.processingLease))
  | .kept => granted
  | .givenUp => Function.update granted i none

def step (c : Settings) (s : State) (a : Call) : Option State :=
  if a.now < s.clock then none
  else
    let (effect, row) := a.op.exec c a.instanceId a.now s.row
    some ⟨row, a.now, effect.apply c s.granted a.instanceId a.now⟩

/-! ### What a call does to a row -/

/-- `j` holds the row, in `BUFFERED` or `PROCESSING` state with a lease that ends after `now`. -/
structure Row.HeldBy (r : Row) (j : Instance) (now : ℕ) : Prop where
  owner : r.leaseOwner = some j
  state : r.state = .BUFFERED ∨ r.state = .PROCESSING
  live : ∃ t, r.leaseExpiresAt = some t ∧ now < t

/-- The row is not past its retention. -/
def WithinRetention (row : Option Row) (now : ℕ) : Prop := ∀ r ∈ row, now < r.expiresAt

/-- The call aborts a `BUFFERED` row that another instance has leased. -/
def Op.AbortsForeign (i : Instance) (now : ℕ) (row : Option Row) (op : Op) : Prop :=
  ∃ r ∈ row, op = .abort r.requestDigest ∧ r.state = .BUFFERED ∧
    r.leaseOwner.any (· ≠ i) ∧ r.leaseExpiresAt.any (now < ·)

instance (row : Option Row) (now : ℕ) : Decidable (WithinRetention row now) :=
  inferInstanceAs (Decidable (∀ _ ∈ _, _))

instance (i : Instance) (now : ℕ) (row : Option Row) (op : Op) :
    Decidable (op.AbortsForeign i now row) :=
  inferInstanceAs (Decidable (∃ _ ∈ _, _))

variable {c : Settings} {i j : Instance} {now : ℕ} {row : Option Row} {r : Row} {op : Op}

theorem assertDigest_cases (r : Row) (digest : Digest) :
    (r.requestDigest = digest ∧ assertDigest r digest = .ok ()) ∨
      (r.requestDigest ≠ digest ∧ assertDigest r digest = .error duplicateConflict) := by
  by_cases hd : r.requestDigest = digest <;> simp [assertDigest, hd]

variable {digest : Digest}

theorem reserve_exec_kept (hret : now < r.expiresAt)
    (hkeep : r.state = .COMPLETED ∨ r.leaseExpiresAt.any (· ≤ now) = false) :
    (Op.reserve digest).exec c i now (some r) = (.kept, some r) := by
  have hcond : ¬ ((r.state = .BUFFERED ∨ r.state = .PROCESSING) ∧
      r.leaseExpiresAt.any (· ≤ now) = true) := by
    rintro ⟨hst, hexp⟩
    rcases hkeep with hk | hk
    · simp [hk] at hst
    · simp [hk] at hexp
  rcases assertDigest_cases r digest with ⟨-, ha⟩ | ⟨-, ha⟩
  · have hres : reserve c i now digest (some r) = .ok (.duplicate r.state, some r) := by
      simp only [reserve, if_neg (Nat.not_le.mpr hret), ha, bind, Except.bind, if_neg hcond]
      rfl
    simp only [Op.exec, hres]
    cases r.state <;> rfl
  · simp [Op.exec, reserve, if_neg (Nat.not_le.mpr hret), ha, bind, Except.bind]

theorem markProcessing_exec_kept
    (hkeep : r.state = .COMPLETED ∨ r.leaseOwner ≠ some i ∧ r.leaseExpiresAt.any (now < ·)) :
    (Op.markProcessing digest).exec c i now (some r) = (.kept, some r) := by
  rcases assertDigest_cases r digest with ⟨-, ha⟩ | ⟨-, ha⟩
  · by_cases hst : r.state = .COMPLETED
    · simp [Op.exec, markProcessing, lockedRecord, ha, bind, Except.bind, hst]
    · have hl := hkeep.resolve_left hst
      simp [Op.exec, markProcessing, lockedRecord, ha, bind, Except.bind, hst, hl.1, hl.2]
  · simp [Op.exec, markProcessing, lockedRecord, ha, bind, Except.bind]

theorem complete_exec_row (hkeep : r.state = .COMPLETED ∨ r.leaseOwner ≠ some i) :
    ((Op.complete digest).exec c i now (some r)).2 = some r := by
  rcases assertDigest_cases r digest with ⟨-, ha⟩ | ⟨-, ha⟩
  · by_cases hst : r.state = .COMPLETED
    · simp [Op.exec, complete, lockedRecord, ha, bind, Except.bind, pure, Except.pure, hst]
    · have hl := hkeep.resolve_left hst
      simp [Op.exec, complete, lockedRecord, ha, bind, Except.bind, hst, hl]
  · simp [Op.exec, complete, lockedRecord, ha, bind, Except.bind]

theorem abort_exec_row (hne : r.leaseOwner ≠ some i) :
    ((Op.abort digest).exec c i now (some r)).2 =
      if r.requestDigest = digest ∧ r.state = .BUFFERED then none else some r := by
  rcases assertDigest_cases r digest with ⟨hd, ha⟩ | ⟨hd, ha⟩
  · cases hst : r.state <;>
      simp [Op.exec, abort, ha, hd, hst, hne, bind, Except.bind, pure, Except.pure]
  · simp [Op.exec, abort, ha, hd, bind, Except.bind]

/-- **A call of another instance** leaves a leased row as it is, `abort` of a `BUFFERED` row
excepted: that one deletes it. -/
theorem Op.exec_foreign (hheld : r.HeldBy j now) (hne : i ≠ j) (hret : now < r.expiresAt) :
    (op.exec c i now (some r)).2 =
      if op = .abort r.requestDigest ∧ r.state = .BUFFERED then none else some r := by
  obtain ⟨t, ht, hlt⟩ := hheld.live
  have howner : r.leaseOwner ≠ some i := by
    rw [hheld.owner]
    simpa using hne.symm
  cases op with
  | reserve digest =>
    rw [reserve_exec_kept hret (.inr (by simp [ht, hlt]))]
    simp
  | markProcessing digest =>
    rw [markProcessing_exec_kept (.inr ⟨howner, by simp [ht, hlt]⟩)]
    simp
  | complete digest =>
    rw [complete_exec_row (.inr howner)]
    simp
  | abort digest =>
    rw [abort_exec_row howner]
    simp only [Op.abort.injEq, eq_comm]

theorem Op.abortsForeign_iff (hheld : r.HeldBy j now) (hne : i ≠ j) :
    op.AbortsForeign i now (some r) ↔ op = .abort r.requestDigest ∧ r.state = .BUFFERED := by
  obtain ⟨t, ht, hlt⟩ := hheld.live
  simp [Op.AbortsForeign, hheld.owner, ht, hlt, hne.symm]

theorem Op.exec_completed (hst : r.state = .COMPLETED) (hret : now < r.expiresAt) :
    (op.exec c i now (some r)).2 = some r := by
  cases op with
  | reserve digest => rw [reserve_exec_kept hret (.inl hst)]
  | markProcessing digest => rw [markProcessing_exec_kept (.inl hst)]
  | complete digest => exact complete_exec_row (.inl hst)
  | abort digest =>
    rcases assertDigest_cases r digest with ⟨-, ha⟩ | ⟨-, ha⟩
    · simp [Op.exec, PostgresIdempotency.abort, ha, hst, bind, Except.bind, pure, Except.pure]
    · simp [Op.exec, PostgresIdempotency.abort, ha, bind, Except.bind]

/-- The row is leased by `i` until `t`. -/
def LeasedUntil (row : Option Row) (i : Instance) (t : ℕ) : Prop :=
  ∃ r, row = some r ∧ r.leaseOwner = some i ∧ (r.state = .BUFFERED ∨ r.state = .PROCESSING) ∧
    r.leaseExpiresAt = some t

theorem reserve_ok {decision : ReservationDecision} {row' : Option Row}
    (h : reserve c i now digest row = .ok (decision, row')) :
    (decision = .RESERVED ∧ LeasedUntil row' i (now + c.processingLease)) ∨
      (decision ≠ .RESERVED ∧ row' = row) := by
  have hnew : LeasedUntil (some (newRow c i now digest)) i (now + c.processingLease) :=
    ⟨_, rfl, rfl, .inl rfl, rfl⟩
  cases row with
  | none =>
    cases h
    exact .inl ⟨rfl, hnew⟩
  | some r =>
    simp only [reserve] at h
    split at h
    · cases h
      exact .inl ⟨rfl, hnew⟩
    · obtain ⟨-, h⟩ := unit_bind_eq_ok.mp h
      split at h
      · cases h
        exact .inl ⟨rfl, _, rfl, rfl, .inl rfl, rfl⟩
      · cases h
        exact .inr ⟨ReservationDecision.duplicate_ne_reserved _, rfl⟩

theorem markProcessing_ok {row' : Option Row}
    (h : markProcessing c i now digest row = .ok row') :
    LeasedUntil row' i (now + c.processingLease) := by
  obtain ⟨r, -, h⟩ := bind_eq_ok.mp h
  obtain ⟨-, h⟩ := unit_bind_eq_ok.mp h
  split_ifs at h
  cases h
  exact ⟨_, rfl, rfl, .inr rfl, rfl⟩

/-- What a call means for its caller: a granted lease is in the row, and a call that leaves the
lease alone leaves the row alone. -/
theorem Op.exec_effect (c : Settings) (i : Instance) (now : ℕ) (row : Option Row) (op : Op) :
    match op.exec c i now row with
    | (.granted, row') => LeasedUntil row' i (now + c.processingLease)
    | (.kept, row') => row' = row
    | (.givenUp, _) => True := by
  cases op with
  | reserve digest =>
    simp only [Op.exec]
    cases hres : PostgresIdempotency.reserve c i now digest row with
    | error x => rfl
    | ok dr =>
      obtain ⟨decision, row'⟩ := dr
      rcases reserve_ok hres with ⟨rfl, hl⟩ | ⟨hd, rfl⟩
      · exact hl
      · cases decision <;> first | exact absurd rfl hd | rfl
  | markProcessing digest =>
    simp only [Op.exec]
    cases hm : PostgresIdempotency.markProcessing c i now digest row with
    | error x => rfl
    | ok row' => exact markProcessing_ok hm
  | complete digest =>
    simp only [Op.exec]
    cases PostgresIdempotency.complete i digest row with
    | error x => rfl
    | ok row' => trivial
  | abort digest =>
    simp only [Op.exec]
    cases PostgresIdempotency.abort i digest row with
    | error x => rfl
    | ok row' => trivial

/-! ### Runs -/

/-- The premises of a step: the row is within its retention, and the call does not abort a
`BUFFERED` row that another instance has leased. -/
structure SparesForeign (s : State) (a : Call) : Prop where
  retention : WithinRetention s.row a.now
  abort : ¬ a.op.AbortsForeign a.instanceId a.now s.row

instance (s : State) : DecidablePred (SparesForeign s) := fun a =>
  decidable_of_iff (WithinRetention s.row a.now ∧ ¬ a.op.AbortsForeign a.instanceId a.now s.row)
    ⟨fun h => ⟨h.1, h.2⟩, fun h => ⟨h.1, h.2⟩⟩

/-- **The lease invariant**: a granted lease that has not expired is in the row. -/
def Exclusive (s : State) : Prop :=
  ∀ j t, s.granted j = some t → s.clock < t → LeasedUntil s.row j t

theorem exclusive_init : Exclusive State.init := by
  intro j t hj
  simp [State.init] at hj

theorem LeasedUntil.heldBy {t : ℕ} (h : LeasedUntil row j t) (hlt : now < t) :
    ∃ r, row = some r ∧ r.HeldBy j now := by
  obtain ⟨r, hr, hown, hst, hexp⟩ := h
  exact ⟨r, hr, hown, hst, t, hexp, hlt⟩

variable {s s' : State} {a : Call}

theorem step_eq (h : step c s a = some s') :
    s.clock ≤ a.now ∧ s' = ⟨(a.op.exec c a.instanceId a.now s.row).2, a.now,
      (a.op.exec c a.instanceId a.now s.row).1.apply c s.granted a.instanceId a.now⟩ := by
  unfold step at h
  split at h
  · cases h
  · rename_i hle
    cases h
    exact ⟨by omega, rfl⟩

theorem LeaseEffect.apply_of_ne (effect : LeaseEffect) (granted : Instance → Option ℕ)
    (hne : j ≠ i) : effect.apply c granted i now j = granted j := by
  cases effect <;> simp [LeaseEffect.apply, Function.update_of_ne hne]

theorem step_foreign (h : step c s a = some s') (hr : s.row = some r)
    (hheld : r.HeldBy j a.now) (hne : a.instanceId ≠ j) (hret : WithinRetention s.row a.now) :
    s'.row = s.row ↔ ¬ a.op.AbortsForeign a.instanceId a.now s.row := by
  obtain ⟨-, rfl⟩ := step_eq h
  have hexec : (a.op.exec c a.instanceId a.now (some r)).2 = _ :=
    Op.exec_foreign hheld hne (hret r hr)
  rw [hr, Op.abortsForeign_iff hheld hne, hexec]
  split <;> simp [*]

/-- **Step lemma.** -/
theorem Exclusive.step (h : Exclusive s) (hC : SparesForeign s a)
    (hs : PostgresIdempotency.step c s a = some s') : Exclusive s' := by
  obtain ⟨hclock, hs'⟩ := step_eq hs
  intro j t hj hlt
  have hnow : a.now < t := by
    rw [hs'] at hlt
    exact hlt
  by_cases hji : j = a.instanceId
  · subst hji
    have heff := a.op.exec_effect c a.instanceId a.now s.row
    subst hs'
    rcases hx : a.op.exec c a.instanceId a.now s.row with ⟨effect, row'⟩
    simp only [hx] at heff hj ⊢
    cases effect with
    | granted =>
      simp only [LeaseEffect.apply, Function.update_self, Option.some.injEq] at hj
      exact hj ▸ heff
    | kept =>
      subst heff
      exact h _ t hj (by omega)
    | givenUp => simp [LeaseEffect.apply] at hj
  · have hj' : s.granted j = some t := by
      rw [hs'] at hj
      exact (LeaseEffect.apply_of_ne _ _ hji).symm.trans hj
    have hleased := h j t hj' (by omega)
    obtain ⟨r, hr, hheld⟩ := hleased.heldBy hnow
    have hrow : s'.row = s.row :=
      (step_foreign hs hr hheld (fun he => hji he.symm) hC.retention).mpr hC.abort
    rw [hrow]
    exact hleased

theorem exclusive_of_run {s : State} {as : List Call}
    (hC : AllSteps (PostgresIdempotency.step c) SparesForeign State.init as)
    (h : run (PostgresIdempotency.step c) State.init as = some s) : Exclusive s :=
  run_invariant_of (fun _ _ _ hI hC hs => hI.step hC hs) exclusive_init hC h

/-- **Lease exclusivity.**  In every state of every run within retention in which no instance
aborts a `BUFFERED` row leased by another: a lease that was granted, not given up and not expired
is in the row; no two instances have one; a call of another instance leaves a held row alone,
exactly as long as it is no such abort; `reserve` grants nothing while another lease is live; and
a completed row never changes. -/
theorem lease_exclusive (c : Settings) (as : List Call) (s : State)
    (hC : AllSteps (step c) SparesForeign State.init as)
    (h : run (step c) State.init as = some s) :
    (∀ j t, s.granted j = some t → s.clock < t → LeasedUntil s.row j t) ∧
    (∀ i j t t', s.granted i = some t → s.granted j = some t' → s.clock < t → s.clock < t' → i = j) ∧
    ∀ a s', step c s a = some s' → WithinRetention s.row a.now →
      (∀ r j, s.row = some r → r.HeldBy j a.now → a.instanceId ≠ j →
        (s'.row = s.row ↔ ¬ a.op.AbortsForeign a.instanceId a.now s.row)) ∧
      (∀ j t digest, s.granted j = some t → a.now < t → a.instanceId ≠ j → a.op = .reserve digest →
        (a.op.exec c a.instanceId a.now s.row).1 ≠ .granted) ∧
      (∀ r, s.row = some r → r.state = .COMPLETED → s'.row = s.row) := by
  have hex := exclusive_of_run hC h
  refine ⟨hex, fun i j t t' hi hj hlt hlt' => ?_, fun a s' hs hret => ⟨?_, ?_, ?_⟩⟩
  · obtain ⟨r, hr, hown, -, -⟩ := hex i t hi hlt
    obtain ⟨r', hr', hown', -, -⟩ := hex j t' hj hlt'
    rw [hr, Option.some.injEq] at hr'
    subst hr'
    rw [hown, Option.some.injEq] at hown'
    exact hown'
  · intro r j hr hheld hne
    exact step_foreign hs hr hheld hne hret
  · intro j t digest hj hlt hne hop
    obtain ⟨hclock, -⟩ := step_eq hs
    obtain ⟨r, hr, -, -, hexp⟩ := hex j t hj (by omega)
    rw [hop, hr, reserve_exec_kept (hret r hr) (.inr (by simp [hexp, hlt]))]
    simp
  · intro r hr hst
    obtain ⟨-, rfl⟩ := step_eq hs
    rw [hr]
    exact Op.exec_completed hst (hret r hr)

/-- A second instance takes over an expired lease; the late `mark_processing` and `complete` of
the first one are refused. -/
theorem lease_exclusive_takeover :
    let c : Settings := ⟨1000, 10, by decide, by decide⟩
    let as : List Call := [⟨"a", 0, .reserve "d"⟩, ⟨"b", 10, .reserve "d"⟩,
      ⟨"a", 11, .markProcessing "d"⟩, ⟨"a", 12, .complete "d"⟩]
    ∃ s, run (step c) State.init as = some s ∧ s.granted "b" = some 20 ∧ LeasedUntil s.row "b" 20 := by
  intro c as
  have hC : AllSteps (step c) SparesForeign State.init as := by decide
  exact ⟨_, rfl, rfl, (lease_exclusive c as _ hC rfl).1 "b" 20 rfl (by decide)⟩

/-- A late `abort` of the first instance deletes the row that the second one has leased, and a
third one passes `reserve` while the lease of the second is live. -/
theorem late_abort_breaks_lease :
    let c : Settings := ⟨1000, 10, by decide, by decide⟩
    ∃ s s' s'', run (step c) State.init [⟨"a", 0, .reserve "d"⟩, ⟨"b", 10, .reserve "d"⟩] = some s ∧
      (∃ r, s.row = some r ∧ r.HeldBy "b" 11 ∧ 11 < r.expiresAt) ∧
      step c s ⟨"a", 11, .abort "d"⟩ = some s' ∧ s'.row = none ∧
      step c s' ⟨"c", 12, .reserve "d"⟩ = some s'' ∧
      s''.granted "b" = some 20 ∧ s''.granted "c" = some 22 ∧ s''.clock < 20 := by
  intro c
  refine ⟨_, _, _, rfl, ⟨_, rfl, ⟨rfl, .inl rfl, 20, rfl, by decide⟩, by decide⟩, rfl, rfl, rfl, ?_⟩
  exact ⟨rfl, rfl, by decide⟩

end CyberControl.PostgresIdempotency
