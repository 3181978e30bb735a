import Mathlib.Data.List.MinMax
import Mathlib.Data.List.Nodup

/-! # Chains of versions

Rows that carry a version, an identifier and the identifier of the row they replace.  A new row is
accepted when it follows the latest one, so that a writer who has read an older row is refused. -/

namespace CyberControl.Versions

variable {α ι : Type*}

/-- The row with the greatest version. -/
def latestVersion (version : α → ℕ) (rows : List α) : Option α := rows.argmax version

/-- The row is the first version, or the next one after `latest`. -/
def Follows (version : α → ℕ) (ident : α → ι) (parent : α → Option ι) (row : α) : Option α → Prop
  | none => version row = 1 ∧ parent row = none
  | some latest => version row = version latest + 1 ∧ parent row = some (ident latest)

instance [DecidableEq ι] (version : α → ℕ) (ident : α → ι) (parent : α → Option ι) (row : α)
    (latest : Option α) : Decidable (Follows version ident parent row latest) := by
  cases latest with
  | none => exact inferInstanceAs (Decidable (_ ∧ _))
  | some latest => exact inferInstanceAs (Decidable (_ ∧ _))

variable {version : α → ℕ} {ident : α → ι} {parent : α → Option ι} {rows : List α} {row : α}

@[simp] theorem latestVersion_nil : latestVersion version ([] : List α) = none := rfl

theorem follows_none : Follows version ident parent row none ↔ version row = 1 ∧ parent row = none :=
  Iff.rfl

theorem latestVersion_mem {latest : α} (h : latestVersion version rows = some latest) : latest ∈ rows :=
  List.argmax_mem h

theorem latestVersion_eq_none : latestVersion version rows = none ↔ rows = [] :=
  List.argmax_eq_none

theorem le_latestVersion {latest : α} (h : latestVersion version rows = some latest)
    (hrow : row ∈ rows) : version row ≤ version latest :=
  List.le_of_mem_argmax hrow h

theorem latestVersion_cons (h : ∀ latest ∈ latestVersion version rows, version latest < version row) :
    latestVersion version (row :: rows) = some row := by
  unfold latestVersion at h ⊢
  rw [List.argmax_cons]
  cases hlatest : rows.argmax version with
  | none => rfl
  | some latest =>
    have hlt := h latest hlatest
    simp only [if_neg (show ¬ version row < version latest by omega)]

/-- **An accepted row** was made of the latest one, has a version of its own and is the latest from
then on. -/
theorem Follows.eq_latest {previous : Option α} (hversions : (rows.map version).Nodup)
    (hprevious : ∀ p ∈ previous, p ∈ rows)
    (hversion : version row = previous.elim 1 fun p => version p + 1)
    (hparent : parent row = previous.map ident)
    (h : Follows version ident parent row (latestVersion version rows)) :
    previous = latestVersion version rows ∧ version row ∉ rows.map version ∧
      latestVersion version (row :: rows) = some row := by
  cases hlatest : latestVersion version rows with
  | none =>
    rw [hlatest] at h
    have hprev : previous = none := by
      rw [h.2] at hparent
      exact Option.map_eq_none_iff.mp hparent.symm
    have hnil := latestVersion_eq_none.mp hlatest
    refine ⟨hprev, by simp [hnil], latestVersion_cons ?_⟩
    simp [hlatest]
  | some latest =>
    rw [hlatest] at h
    obtain ⟨hnext, hlink⟩ := h
    obtain ⟨p, hprev, -⟩ := Option.map_eq_some_iff.mp (hparent.symm.trans hlink)
    have heq : p = latest := by
      rw [hprev, Option.elim_some] at hversion
      refine List.inj_on_of_nodup_map hversions (hprevious p hprev) (latestVersion_mem hlatest) ?_
      omega
    refine ⟨by rw [hprev, heq], ?_, latestVersion_cons ?_⟩
    · intro hmem
      obtain ⟨q, hq, hqversion⟩ := List.mem_map.mp hmem
      have hle := le_latestVersion hlatest hq
      omega
    · intro q hq
      have hle := le_latestVersion hlatest (latestVersion_mem hq)
      omega

/-! ### Chains -/

/-- Each of the rows, newest first, follows the one below it. -/
def Chained (version : α → ℕ) (ident : α → ι) (parent : α → Option ι) : List α → Prop
  | [] => True
  | row :: rows => Follows version ident parent row rows.head? ∧ Chained version ident parent rows

section
variable (h : Chained version ident parent rows)
include h

theorem Chained.head_version :
    rows.head?.elim 0 version = rows.length := by
  induction rows with
  | nil => rfl
  | cons row rows ih =>
    have hlength := ih h.2
    cases rows with
    | nil => exact h.1.1
    | cons next rows =>
      have hnext : version row = version next + 1 := h.1.1
      rw [List.head?_cons, Option.elim_some, hnext, List.length_cons]
      rw [List.head?_cons, Option.elim_some] at hlength
      omega

theorem Chained.version_bounds :
    ∀ row ∈ rows, 1 ≤ version row ∧ version row ≤ rows.length := by
  induction rows with
  | nil => exact fun _ hrow => absurd hrow List.not_mem_nil
  | cons first rows ih =>
    have hfirst := h.head_version
    rw [List.head?_cons, Option.elim_some] at hfirst
    intro row hrow
    rw [List.length_cons] at hfirst ⊢
    rcases List.mem_cons.mp hrow with rfl | hrow
    · omega
    · have hbounds := ih h.2 row hrow
      omega

theorem Chained.latest :
    latestVersion version rows = rows.head? := by
  cases rows with
  | nil => rfl
  | cons row rows =>
    refine latestVersion_cons fun latest hlatest => ?_
    have hbounds := (h.2.version_bounds latest (latestVersion_mem hlatest)).2
    have hfirst := h.head_version
    rw [List.head?_cons, Option.elim_some, List.length_cons] at hfirst
    omega

theorem Chained.versions :
    (rows.map version).reverse = List.range' 1 rows.length := by
  induction rows with
  | nil => rfl
  | cons row rows ih =>
    have hfirst := h.head_version
    rw [List.head?_cons, Option.elim_some, List.length_cons] at hfirst
    rw [List.map_cons, List.reverse_cons, ih h.2, List.length_cons, List.range'_concat, hfirst,
      Nat.one_mul, Nat.add_comm]

theorem Chained.versions_nodup : (rows.map version).Nodup := by
  rw [← List.nodup_reverse, h.versions]
  exact List.nodup_range'

end

end CyberControl.Versions
