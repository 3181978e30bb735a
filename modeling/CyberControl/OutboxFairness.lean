import CyberControl.OutboxWindow
import CyberControl.OutboxOrder

/-! # Which rows a claim of the dispatcher takes

`Fair`: of each partition the rows are the consecutive ones from its published cursor, and no partition is served
ahead of another. -/

namespace CyberControl.Outbox

open Scheduling

/-- The run of a partition among the candidates: its rows that follow on from its cursor. -/
def claimableRun (t : Table) (rows : List Row) (p : Partition) : List Row :=
  takeRun Row.sequence (publishedCursor t p) (sortBy Row.sequence (rows.filter fun r => r.partition = p))

/-- A fair choice of rows of a recovered table. -/
structure Fair (t : Table) (now limit : ℕ) (rows : List Row) : Prop where
  distinct : (rows.map Row.outboxId).Nodup
  limited : rows.length = min limit (contiguous t (candidates t now limit)).flatten.length
  claimable : ∀ r ∈ rows, r ∈ t ∧ r.Claimable now
  consecutive : ∀ p, ∃ n, (rows.filter fun r => r.partition = p).map Row.sequence =
    List.range' (publishedCursor t p) n
  ends : ∀ fuel ≥ limit,
    robinPasses fuel limit (sortBy partitionKey (contiguous t (candidates t now limit))) = rows
  turns : ∀ done r rest, rows = done ++ r :: rest → ∀ p,
    min (done.countP fun r' => r'.partition = r.partition)
      (claimableRun t (candidates t now limit) p).length ≤
      done.countP fun r' => r'.partition = p

theorem flatten_contiguous_filter (t : Table) (rows : List Row) (p : Partition) :
    ((sortBy partitionKey (contiguous t rows)).flatten.filter fun r => r.partition = p) = claimableRun t rows p := by
  have hlabel := labelled_contiguous t rows
  have hqueue : ∀ q ∈ contiguous t rows, ∀ r ∈ q, r.partition = p →
      ((sortBy partitionKey (contiguous t rows)).flatten.filter fun r => r.partition = p) =
        claimableRun t rows p := by
    rintro q hq r hr rfl
    obtain ⟨p, rfl, hp⟩ := mem_contiguous hq
    rw [hlabel.flatten_filter (mem_sortBy.mpr hq) hr, (hp r hr).2, claimableRun]
  by_cases hnil : claimableRun t rows p = []
  · rw [hnil, List.filter_eq_nil_iff]
    intro r hr hrp
    rw [decide_eq_true_eq] at hrp
    obtain ⟨q, hq, hrq⟩ := List.mem_flatten.mp hr
    have hmem : r ∈ claimableRun t rows p := by
      rw [← hqueue q (mem_sortBy.mp hq) r hrq hrp]
      exact List.mem_filter.mpr ⟨hr, by simpa using hrp⟩
    simp [hnil] at hmem
  · obtain ⟨r, hr⟩ := List.exists_mem_of_ne_nil _ hnil
    have hmem := mem_sortBy.mp (takeRun_subset _ _ r hr)
    simp only [List.mem_filter, decide_eq_true_eq] at hmem
    refine hqueue (claimableRun t rows p) (List.mem_filter.mpr ⟨List.mem_map.mpr ⟨(p, _), ?_, rfl⟩,
      ?_⟩) r hr hmem.2
    · exact mem_groupBy.mpr ⟨List.mem_map.mpr ⟨r, hmem⟩, rfl⟩
    · simpa using hnil

theorem claimedRows_nodup {t : Table} (h : Valid t) (now limit : ℕ) :
    ((claimedRows t now limit).map Row.outboxId).Nodup := by
  refine List.Nodup.map_on (fun r hr r' hr' heq => ?_) (List.nodup_iff_count_le_one.mpr fun r => ?_)
  · exact h.eq_of_outboxId (mem_claimedRows hr).1 (mem_claimedRows hr').1 heq
  · obtain ⟨n, hn⟩ := claimedRows_consecutive t now limit r.partition
    have hnodup : ((claimedRows t now limit).filter fun r' => r'.partition = r.partition).Nodup := by
      apply List.Nodup.of_map Row.sequence
      rw [hn]
      exact List.nodup_range'
    rw [← List.count_filter (p := fun r' => r'.partition = r.partition) (by simp)]
    exact List.nodup_iff_count_le_one.mp hnodup r

theorem claimedRows_fair {t : Table} (h : Valid t) (now limit : ℕ) :
    Fair t now limit (claimedRows t now limit) := by
  have hlabel := labelled_contiguous t (candidates t now limit)
  have hperm : (sortBy partitionKey (contiguous t (candidates t now limit))).Perm
    (contiguous t (candidates t now limit)) := perm_sortBy
  refine ⟨claimedRows_nodup h now limit, ?_, fun r => mem_claimedRows,
    claimedRows_consecutive t now limit, fun fuel hf => robinPasses_of_le hf,
    fun done r rest hrows p => ?_⟩
  · rw [claimedRows, roundRobin_length, hperm.flatten.length_eq]
  · rw [← flatten_contiguous_filter, ← List.countP_eq_length_filter]
    exact roundRobin_fair hlabel hrows p

/-- **A claim of the dispatcher is fair**, whatever the table, the time and the limit, and marks the rows that it
returns and no others. -/
theorem claimBatch_fair (lease : ℕ) (t : Table) (h : Valid t) (worker : Worker) (limit now : ℕ)
    (due : Bool) (messages : List Message) (t' : Table)
    (hclaim : claimBatch lease t worker limit now due = .ok (messages, t')) :
    ∃ rows, Fair (recoverWhenDue t now due) now limit rows ∧
      messages = rows.map (fun r => ⟨r.claim worker now lease, some r.sequence⟩) ∧
      t' = (recoverWhenDue t now due).map fun r => if r ∈ rows then r.claim worker now lease else r := by
  obtain ⟨hmessages, rfl⟩ := claimBatch_ok hclaim
  have hvalid : Valid (recoverWhenDue t now due) := by
    rw [recoverWhenDue_eq]
    exact valid_map h fun r _ => samePlace_recover now r
  have hfair := claimedRows_fair hvalid now limit
  refine ⟨_, hfair, hmessages, List.map_congr_left fun r hr => if_congr ?_ rfl rfl⟩
  rw [List.mem_map]
  constructor
  · rintro ⟨r', hr', hid⟩
    exact hvalid.eq_of_outboxId (hfair.claimable r' hr').1 hr hid ▸ hr'
  · exact fun hrow => ⟨r, hrow, rfl⟩

/-- A claim of two rows from three pending ones in two partitions. -/
theorem claimBatch_fair_two :
    let row (id : ℕ) (p : String) (n : ℕ) : Row :=
      ⟨id, "t", p, n, .PENDING, .NORMAL, 0, 3, 0, id, none, none, none, none, none⟩
    let t : Table := [row 0 "a" 0, row 1 "a" 1, row 2 "b" 0]
    ∃ messages t', claimBatch 30 t "w" 2 5 true = .ok (messages, t') ∧
      ∃ rows, Fair (recoverWhenDue t 5 true) 5 2 rows ∧
        messages = rows.map (fun r => ⟨r.claim "w" 5 30, some r.sequence⟩) ∧
        t' = (recoverWhenDue t 5 true).map fun r => if r ∈ rows then r.claim "w" 5 30 else r := by
  intro row t
  have ht : Valid t := ⟨by decide, by decide⟩
  have hvalid : validateClaimRequest "w" 2 = .ok () := by decide
  obtain ⟨⟨messages, t'⟩, hclaim⟩ : ∃ result, claimBatch 30 t "w" 2 5 true = .ok result := by
    unfold claimBatch
    rw [hvalid]
    exact ⟨_, rfl⟩
  exact ⟨messages, t', hclaim, claimBatch_fair 30 t ht "w" 2 5 true messages t' hclaim⟩

end CyberControl.Outbox
