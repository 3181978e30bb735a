import CyberControl.Errors
import CyberControl.Scheduling
import Mathlib.Data.Prod.Lex
import Mathlib.Data.String.Basic

/-! # The transactional outbox

The `outbox_messages` table and the repository calls on it
(`persistence/postgres_outbox_dispatcher.py`, `persistence/postgres_outbox.py`).  A table is a
list of rows in no particular order; each call is one transaction, so it is a function from the
table to an answer or an exception and the new table.  Times are clock ticks. -/

namespace CyberControl.Outbox

open Scheduling

/-! ### Rows -/

inductive OutboxStatus where
  | PENDING
  | CLAIMED
  | PUBLISHED
  | DEAD
deriving DecidableEq, Repr

inductive MessagePriority where
  | CRITICAL
  | HIGH
  | NORMAL
  | LOW
deriving DecidableEq, Repr

/-- `priority_order`. -/
def MessagePriority.order : MessagePriority → ℕ
  | .CRITICAL => 0
  | .HIGH => 1
  | .NORMAL => 2
  | .LOW => 3

abbrev Worker := String

/-- `(tenant_id, partition_key)`. -/
abbrev Partition := String × String

/-- `OutboxMessageModel`: the columns the repository reads and writes. -/
structure Row where
  outboxId : ℕ
  tenantId : String
  partitionKey : String
  sequence : ℕ
  state : OutboxStatus
  priority : MessagePriority
  attempts : ℕ
  maxAttempts : ℕ
  availableAt : ℕ
  createdAt : ℕ
  claimedBy : Option Worker
  claimedAt : Option ℕ
  claimExpiresAt : Option ℕ
  publishedAt : Option ℕ
  lastErrorCode : Option String
deriving DecidableEq

def Row.partition (r : Row) : Partition := (r.tenantId, r.partitionKey)

abbrev Table := List Row

/-- The unique constraints of the table. -/
structure Valid (t : Table) : Prop where
  outboxId : (t.map Row.outboxId).Nodup
  sequence : (t.map fun r => (r.partition, r.sequence)).Nodup

/-- `OutboxMessage` as a claim returns it: the row and the published cursor at its turn. -/
structure Message where
  row : Row
  publishedCursor : Option ℕ

def claimConflict : Exn :=
  .liyan { code := .DATABASE_TRANSACTION_STATE,
           safeMessage := "The outbox claim is missing, expired, or owned by another worker.",
           category := .MESSAGING, retriable := true, statusCode := 409 }

/-! ### Reading the table -/

/-- `coalesce(max(sequence) + 1, 0)` over the published rows of a partition. -/
def publishedCursor (t : Table) (p : Partition) : ℕ :=
  ((t.filter fun r => r.partition = p ∧ r.state = .PUBLISHED).map fun r => r.sequence + 1).foldr max 0

/-- `coalesce(max(sequence) + 1, 0)` over all rows of a partition. -/
def nextSequence (t : Table) (p : Partition) : ℕ :=
  ((t.filter fun r => r.partition = p).map fun r => r.sequence + 1).foldr max 0

/-- The rows a claim may take: pending, available and within their attempts. -/
def Row.Claimable (now : ℕ) (r : Row) : Prop :=
  r.state = .PENDING ∧ r.availableAt ≤ now ∧ r.attempts < r.maxAttempts

instance (now : ℕ) : DecidablePred (Row.Claimable now) := fun _ => inferInstanceAs (Decidable (_ ∧ _))

/-- The predicate of `PostgresOutboxRepository.claim_batch`. -/
def Eligible (t : Table) (now : ℕ) (r : Row) : Prop :=
  r.Claimable now ∧ r.sequence = publishedCursor t r.partition ∧
    ¬ ∃ earlier ∈ t, earlier.partition = r.partition ∧ earlier.sequence < r.sequence ∧
      earlier.state ≠ .PUBLISHED

instance (t : Table) (now : ℕ) : DecidablePred (Eligible t now) := fun _ =>
  inferInstanceAs (Decidable (_ ∧ _))

/-- The order of the dispatcher's candidate query. -/
def Row.dispatchKey (r : Row) : ℕ ×ₗ ℕ ×ₗ ℕ ×ₗ String ×ₗ String ×ₗ ℕ :=
  toLex (r.priority.order, toLex (r.availableAt, toLex (r.createdAt,
    toLex (r.tenantId, toLex (r.partitionKey, r.sequence)))))

/-- The order in which partitions take their turns: that of their first rows. -/
def partitionKey (rows : List Row) : ℕ ×ₗ ℕ ×ₗ ℕ :=
  match rows with
  | [] => toLex (0, toLex (0, 0))
  | r :: _ => toLex (r.priority.order, toLex (r.availableAt, r.createdAt))

/-! ### Claiming -/

/-- `_recover_expired_claims` on one row. -/
def Row.recover (now : ℕ) (r : Row) : Row :=
  if r.state = .CLAIMED ∧ r.claimExpiresAt.any (· ≤ now) then
    { r with state := if r.attempts ≥ r.maxAttempts then .DEAD else .PENDING,
             claimedBy := none, claimedAt := none, claimExpiresAt := none }
  else r

def recoverExpiredClaims (t : Table) (now : ℕ) : Table := t.map (Row.recover now)

/-- The recovery at the start of a claim: always when it is `due`, else when a claim has
expired. -/
def recoverWhenDue (t : Table) (now : ℕ) (due : Bool) : Table :=
  if due then recoverExpiredClaims t now
  else if t.any fun r => r.state = .CLAIMED ∧ r.claimExpiresAt.any (· ≤ now) then
    recoverExpiredClaims t now
  else t

def candidateLimit (limit : ℕ) : ℕ := min 10000 (max limit (limit * 8))

/-- The candidate query: the first claimable rows in dispatch order. -/
def candidates (t : Table) (now limit : ℕ) : List Row :=
  (sortBy Row.dispatchKey (t.filter (Row.Claimable now))).take (candidateLimit limit)

/-- Of each partition among the candidates, the rows that follow on from its cursor; partitions
without one are left out. -/
def contiguous (t : Table) (rows : List Row) : List (List Row) :=
  ((groupBy Row.partition rows).map fun kg =>
    takeRun Row.sequence (publishedCursor t kg.1) (sortBy Row.sequence kg.2)).filter (· ≠ [])

/-- The rows that a claim takes from a recovered table, in the order of their turns. -/
def claimedRows (t : Table) (now limit : ℕ) : List Row :=
  roundRobin limit (sortBy partitionKey (contiguous t (candidates t now limit)))

def Row.claim (worker : Worker) (now lease : ℕ) (r : Row) : Row :=
  { r with state := .CLAIMED, claimedBy := some worker, claimedAt := some now,
           claimExpiresAt := some (now + lease), attempts := r.attempts + 1 }

/-- Replace the rows that have an identifier in `ids`. -/
def updateRows (t : Table) (ids : List ℕ) (f : Row → Row) : Table :=
  t.map fun r => if r.outboxId ∈ ids then f r else r

def validateClaimRequest (worker : Worker) (limit : ℕ) : Except Exn Unit :=
  if worker = "" ∨ worker.length > 128 then
    .error (.valueError "worker_id must contain between one and 128 characters")
  else if ¬ (1 ≤ limit ∧ limit ≤ 1000) then
    .error (.valueError "outbox claim limit must be between one and 1000")
  else .ok ()

/-- `PostgresOutboxDispatcherRepository.claim_batch`. -/
def claimBatch (lease : ℕ) (t : Table) (worker : Worker) (limit now : ℕ) (due : Bool) :
    Except Exn (List Message × Table) := do
  validateClaimRequest worker limit
  let t' := recoverWhenDue t now due
  let rows := claimedRows t' now limit
  return (rows.map fun r => ⟨r.claim worker now lease, some r.sequence⟩,
    updateRows t' (rows.map Row.outboxId) (Row.claim worker now lease))

/-- `PostgresOutboxRepository._recover_expired_claims`: the rows of one tenant. -/
def recoverTenantClaims (t : Table) (tenantId : String) (now : ℕ) : Table :=
  t.map fun r => if r.tenantId = tenantId then r.recover now else r

/-- The rows that `PostgresOutboxRepository.claim_batch` takes from a recovered table. -/
def tenantRows (t : Table) (tenantId : String) (now limit : ℕ) : List Row :=
  (sortBy (fun r => toLex (r.priority.order, toLex (r.availableAt, r.createdAt)))
    (t.filter fun r => r.tenantId = tenantId ∧ Eligible t now r)).take limit

/-- `PostgresOutboxRepository.claim_batch` in the context of a tenant. -/
def tenantClaimBatch (lease : ℕ) (t : Table) (tenantId : String) (worker : Worker)
    (limit now : ℕ) : Except Exn (List Message × Table) := do
  validateClaimRequest worker limit
  let t' := recoverTenantClaims t tenantId now
  let rows := tenantRows t' tenantId now limit
  return (rows.map fun r => ⟨r.claim worker now lease, some r.sequence⟩,
    updateRows t' (rows.map Row.outboxId) (Row.claim worker now lease))

/-! ### The calls of a claim's owner -/

/-- The row is claimed by `worker`. -/
def Row.ClaimedBy (worker : Worker) (r : Row) : Prop :=
  r.state = .CLAIMED ∧ r.claimedBy = some worker

instance (worker : Worker) : DecidablePred (Row.ClaimedBy worker) := fun _ =>
  inferInstanceAs (Decidable (_ ∧ _))

/-- Update the rows of `ids` that `worker` has claimed: the `WHERE` clause of every call here. -/
def updateClaimed (t : Table) (worker : Worker) (ids : List ℕ) (f : Row → Row) : Table :=
  t.map fun r => if r.outboxId ∈ ids ∧ r.ClaimedBy worker then f r else r

/-- `rowcount` of `updateClaimed`. -/
def countClaimed (t : Table) (worker : Worker) (ids : List ℕ) : ℕ :=
  (t.filter fun r => r.outboxId ∈ ids ∧ r.ClaimedBy worker).length

def Row.publish (publishedAt : ℕ) (r : Row) : Row :=
  { r with state := .PUBLISHED, publishedAt := some publishedAt, claimedBy := none,
           claimedAt := none, claimExpiresAt := none, lastErrorCode := none }

def markPublished (t : Table) (outboxId : ℕ) (worker : Worker) (publishedAt : ℕ) :
    Except Exn Unit × Table :=
  (if countClaimed t worker [outboxId] ≠ 1 then .error claimConflict else .ok (),
    updateClaimed t worker [outboxId] (Row.publish publishedAt))

def Row.release (availableAt : ℕ) (errorCode : Option String) (restoreAttempt : Bool) (r : Row) :
    Row :=
  let attempts := if restoreAttempt then r.attempts - 1 else r.attempts
  { r with attempts, state := if attempts ≥ r.maxAttempts then .DEAD else .PENDING, availableAt,
           claimedBy := none, claimedAt := none, claimExpiresAt := none, lastErrorCode := errorCode }

def releaseClaim (t : Table) (outboxId : ℕ) (worker : Worker) (availableAt : ℕ)
    (errorCode : Option String) (restoreAttempt : Bool) : Except Exn Unit × Table :=
  (if countClaimed t worker [outboxId] ≠ 1 then .error claimConflict else .ok (),
    updateClaimed t worker [outboxId] (Row.release availableAt errorCode restoreAttempt))

def Row.renew (expiresAt : ℕ) (r : Row) : Row := { r with claimExpiresAt := some expiresAt }

/-- `renew_claims` on well-formed arguments: the update stays also when the call raises because
it has reached fewer rows than it was given. -/
def renewClaims (lease : ℕ) (t : Table) (outboxIds : List ℕ) (worker : Worker) (now : ℕ) :
    Except Exn ℕ × Table :=
  (if countClaimed t worker outboxIds ≠ outboxIds.length then .error claimConflict
    else .ok (now + lease),
    updateClaimed t worker outboxIds (Row.renew (now + lease)))

/-- `append` of a message with the next sequence of its partition. -/
def append (t : Table) (outboxId : ℕ) (p : Partition) (priority : MessagePriority)
    (maxAttempts availableAt createdAt : ℕ) : Table :=
  t ++ [{ outboxId, tenantId := p.1, partitionKey := p.2, sequence := nextSequence t p,
          state := .PENDING, priority, attempts := 0, maxAttempts, availableAt, createdAt,
          claimedBy := none, claimedAt := none, claimExpiresAt := none, publishedAt := none,
          lastErrorCode := none }]

/-! ### Updates that keep the places of the rows -/

/-- The row stands for the same message of the same partition. -/
structure SamePlace (r r' : Row) : Prop where
  outboxId : r'.outboxId = r.outboxId
  partition : r'.partition = r.partition
  sequence : r'.sequence = r.sequence

theorem SamePlace.refl (r : Row) : SamePlace r r := ⟨rfl, rfl, rfl⟩

theorem SamePlace.tenantId {r r' : Row} (h : SamePlace r r') : r'.tenantId = r.tenantId :=
  congrArg Prod.fst h.partition

theorem samePlace_recover (now : ℕ) (r : Row) : SamePlace r (r.recover now) := by
  unfold Row.recover
  split <;> exact ⟨rfl, rfl, rfl⟩

variable {r : Row}

theorem recover_eq_self {now : ℕ}
    (h : ¬ (r.state = .CLAIMED ∧ r.claimExpiresAt.any (· ≤ now))) : r.recover now = r := by
  rw [Row.recover, if_neg h]

theorem recover_published (now : ℕ) (r : Row) :
    (r.recover now).state = .PUBLISHED ↔ r.state = .PUBLISHED := by
  unfold Row.recover
  split
  · rename_i h
    simp only [h.1, reduceCtorEq, iff_false]
    split <;> simp
  · rfl

variable {t : Table}

theorem valid_map {f : Row → Row} (h : Valid t) (hf : ∀ r ∈ t, SamePlace r (f r)) :
    Valid (t.map f) where
  outboxId := by
    have heq : (t.map f).map Row.outboxId = t.map Row.outboxId := by
      rw [List.map_map]
      exact List.map_congr_left fun r hr => (hf r hr).outboxId
    rw [heq]
    exact h.outboxId
  sequence := by
    have heq : ((t.map f).map fun r => (r.partition, r.sequence)) =
        t.map fun r => (r.partition, r.sequence) := by
      rw [List.map_map]
      exact List.map_congr_left fun r hr => Prod.ext (hf r hr).partition (hf r hr).sequence
    rw [heq]
    exact h.sequence

theorem Valid.eq_of_outboxId (h : Valid t) {r r' : Row} (hr : r ∈ t) (hr' : r' ∈ t)
    (heq : r.outboxId = r'.outboxId) : r = r' :=
  List.inj_on_of_nodup_map h.outboxId hr hr' heq

/-! ### Rows taken by a claim -/

theorem mem_candidates_claimable {now limit : ℕ}
    (h : r ∈ candidates t now limit) : r ∈ t ∧ r.Claimable now := by
  have hmem := mem_sortBy.mp (List.mem_of_mem_take h)
  simpa using List.mem_filter.mp hmem

theorem mem_contiguous {rows q : List Row} (h : q ∈ contiguous t rows) :
    ∃ p, q = takeRun Row.sequence (publishedCursor t p)
        (sortBy Row.sequence (rows.filter fun r => r.partition = p)) ∧
      ∀ r ∈ q, r ∈ rows ∧ r.partition = p := by
  obtain ⟨hq, -⟩ := List.mem_filter.mp h
  obtain ⟨⟨p, g⟩, hg, rfl⟩ := List.mem_map.mp hq
  obtain ⟨-, rfl⟩ := mem_groupBy.mp hg
  refine ⟨p, rfl, fun r hr => ?_⟩
  have hmem := mem_sortBy.mp (takeRun_subset _ _ r hr)
  simpa using List.mem_filter.mp hmem

theorem labelled_contiguous (t : Table) (rows : List Row) :
    Labelled Row.partition (sortBy partitionKey (contiguous t rows)) where
  same q hq a ha b hb := by
    obtain ⟨p, -, hp⟩ := mem_contiguous (mem_sortBy.mp hq)
    rw [(hp a ha).2, (hp b hb).2]
  apart := by
    have hsymm : ∀ {q q' : List Row}, (∀ a ∈ q, ∀ b ∈ q', a.partition ≠ b.partition) →
        ∀ a ∈ q', ∀ b ∈ q, a.partition ≠ b.partition :=
      fun h a ha b hb he => h b hb a ha he.symm
    have hperm : (sortBy partitionKey (contiguous t rows)).Perm (contiguous t rows) := perm_sortBy
    rw [hperm.pairwise_iff hsymm]
    refine List.Pairwise.filter _ ?_
    rw [List.pairwise_map]
    have hkeys : (groupBy Row.partition rows).Pairwise fun kg kg' => kg.1 ≠ kg'.1 :=
      List.pairwise_map.mp groupBy_keys_nodup
    refine List.Pairwise.imp_of_mem (fun {kg kg'} hkg hkg' hne a ha b hb => ?_) hkeys
    obtain ⟨-, hg⟩ := mem_groupBy.mp (show (kg.1, kg.2) ∈ _ from hkg)
    obtain ⟨-, hg'⟩ := mem_groupBy.mp (show (kg'.1, kg'.2) ∈ _ from hkg')
    have ha' := mem_sortBy.mp (takeRun_subset _ _ a ha)
    have hb' := mem_sortBy.mp (takeRun_subset _ _ b hb)
    rw [hg] at ha'
    rw [hg'] at hb'
    simp only [List.mem_filter, decide_eq_true_eq] at ha' hb'
    rw [ha'.2, hb'.2]
    exact hne

theorem mem_claimedRows {now limit : ℕ} (h : r ∈ claimedRows t now limit) :
    r ∈ t ∧ r.Claimable now := by
  obtain ⟨q, hq, hr⟩ := mem_of_mem_roundRobin (labelled_contiguous t _) h
  obtain ⟨p, -, hp⟩ := mem_contiguous (mem_sortBy.mp hq)
  exact mem_candidates_claimable (hp r hr).1

/-- **What a claim takes of a partition**: consecutive sequences from its published cursor. -/
theorem claimedRows_consecutive (t : Table) (now limit : ℕ) (p : Partition) :
    ∃ n, ((claimedRows t now limit).filter fun r => r.partition = p).map Row.sequence =
      List.range' (publishedCursor t p) n := by
  let qs := sortBy partitionKey (contiguous t (candidates t now limit))
  have hlabel : Labelled Row.partition qs := labelled_contiguous t _
  by_cases hnil : (claimedRows t now limit).filter (fun r => r.partition = p) = []
  · exact ⟨0, by rw [hnil]; rfl⟩
  · obtain ⟨a, ha⟩ := List.exists_mem_of_ne_nil _ hnil
    simp only [List.mem_filter, decide_eq_true_eq] at ha
    obtain ⟨hac, hap⟩ := ha
    obtain ⟨q, hq, haq⟩ := mem_of_mem_roundRobin hlabel hac
    obtain ⟨p', hqrun, hqp⟩ := mem_contiguous (mem_sortBy.mp hq)
    obtain rfl : p' = p := (hqp a haq).2.symm.trans hap
    have hprefix := roundRobin_filter_isPrefix limit hlabel p'
    rw [← hap, hlabel.flatten_filter hq haq, hap] at hprefix
    have hseq := hprefix.map Row.sequence
    rw [hqrun, map_takeRun] at hseq
    exact ⟨_, eq_range'_of_isPrefix hseq⟩

end CyberControl.Outbox
