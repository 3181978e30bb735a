import Mathlib.Data.List.Nodup

/-! # Revisions along a history of versions

A history is a list of versions, newest first, each with items that have a key and a revision. -/

namespace CyberControl.Revisions

variable {C α K : Type*} (items : C → List α) (key : α → K) (revision : α → ℕ)

/-- `r` is greater than every revision that the key `k` has had. -/
def Exceeds (history : List C) (k : K) (r : ℕ) : Prop :=
  ∀ version ∈ history, ∀ b ∈ items version, key b = k → revision b < r

/-- Every revision that the key `k` has had is at most `r` or below `next`. -/
def Overtakes (history : List C) (k : K) (r next : ℕ) : Prop :=
  ∀ version ∈ history, ∀ b ∈ items version, key b = k → revision b ≤ r ∨ revision b < next

/-- Each item of a version is unchanged or later than all before it. -/
def Advances : List C → Prop
  | [] => True
  | version :: earlier =>
    (∀ a ∈ items version, (∃ previous ∈ earlier.head?, a ∈ items previous) ∨
      Exceeds items key revision earlier (key a) (revision a)) ∧ Advances earlier

/-- No version has two items with one key. -/
def DistinctKeys (history : List C) : Prop := ∀ version ∈ history, ((items version).map key).Nodup

variable {items key revision} {history : List C} {version : C}

instance [DecidableEq K] {k : K} {r : ℕ} : Decidable (Exceeds items key revision history k r) :=
  inferInstanceAs (Decidable (∀ _ ∈ _, _))

instance [DecidableEq K] {k : K} {r next : ℕ} : Decidable (Overtakes items key revision history k r next) :=
  inferInstanceAs (Decidable
    (∀ version ∈ history, ∀ b ∈ items version, key b = k → revision b ≤ r ∨ revision b < next))

/-- The later of the next revision and the next version exceeds what they overtake. -/
theorem Overtakes.exceeds {k : K} {r next : ℕ} (h : Overtakes items key revision history k r next) :
    Exceeds items key revision history k (max (r + 1) next) := by
  intro version hversion b hb hkey
  have hcases := h version hversion b hb hkey
  omega

theorem Advances.head_greatest (hkeys : DistinctKeys items key (version :: history))
    (h : Advances items key revision (version :: history)) {a : α} (ha : a ∈ items version) :
    ∀ old ∈ version :: history, ∀ b ∈ items old, key b = key a →
      b = a ∨ revision b < revision a := by
  induction history generalizing version with
  | nil =>
    intro old hold b hb hkey
    rw [List.mem_singleton.mp hold] at hb
    exact .inl (List.inj_on_of_nodup_map (hkeys version List.mem_cons_self) hb ha hkey)
  | cons previous earlier ih =>
    intro old hold b hb hkey
    rcases List.mem_cons.mp hold with rfl | hold
    · exact .inl (List.inj_on_of_nodup_map (hkeys old List.mem_cons_self) hb ha hkey)
    · rcases h.1 a ha with ⟨p, hp, hap⟩ | hlater
      · obtain rfl : previous = p := Option.some.inj hp
        refine ih (fun w hw => hkeys w (List.mem_cons_of_mem version hw)) h.2 hap old hold b hb hkey
      · exact .inr (hlater old hold b hb hkey)

/-- **A key and a revision stand for one item.** -/
theorem Advances.item_unique (hkeys : DistinctKeys items key history)
    (h : Advances items key revision history) {v w : C} (hv : v ∈ history) (hw : w ∈ history)
    {a b : α} (ha : a ∈ items v) (hb : b ∈ items w) (hkey : key a = key b)
    (hrevision : revision a = revision b) : a = b := by
  induction history with
  | nil => exact absurd hv List.not_mem_nil
  | cons version earlier ih =>
    have hrest := fun u hu => hkeys u (List.mem_cons_of_mem version hu)
    rcases List.mem_cons.mp hv with rfl | hv'
    · rcases h.head_greatest hkeys ha w hw b hb hkey.symm with hba | hlt
      · exact hba.symm
      · omega
    · rcases List.mem_cons.mp hw with rfl | hw'
      · rcases h.head_greatest hkeys hb v hv a ha hkey with hab | hlt
        · exact hab
        · omega
      · exact ih hrest h.2 hv' hw'

/-- A new version continues a history when each of its items is unchanged, or has a greater revision than
the item of the version before it with its key, or is later than the whole history. -/
theorem Advances.cons (hkeys : DistinctKeys items key history)
    (h : Advances items key revision history)
    (hnew : ∀ a ∈ items version, (∃ previous ∈ history.head?, ∃ b ∈ items previous,
        a = b ∨ (key b = key a ∧ revision b < revision a)) ∨
        Exceeds items key revision history (key a) (revision a)) :
    Advances items key revision (version :: history) := by
  refine ⟨fun a ha => ?_, h⟩
  rcases hnew a ha with ⟨previous, hprevious, b, hb, rfl | ⟨hkey, hlt⟩⟩ | hlater
  · exact .inl ⟨previous, hprevious, hb⟩
  · right
    obtain ⟨earlier, rfl⟩ : ∃ earlier, history = previous :: earlier :=
      ⟨history.tail, (List.cons_head?_tail hprevious).symm⟩
    intro old hold c hc hca
    rcases h.head_greatest hkeys hb old hold c hc (hca.trans hkey.symm) with rfl | hless
    · exact hlt
    · omega
  · exact .inr hlater

end CyberControl.Revisions
