import CyberControl.Pattern

/-! # Runs and groups of patterns -/

namespace CyberControl.Pattern

variable {p : Char → Bool} {before rest run : List Char} {c d : TextCursor}

/-! ### Runs -/

/-- The characters between two cursors. -/
def Takes (c : TextCursor) (run : List Char) (d : TextCursor) : Prop :=
  c.after = run ++ d.after ∧ d.before = run.reverse ++ c.before

theorem Takes.refl (c : TextCursor) : Takes c [] c := ⟨rfl, rfl⟩

variable {e : TextCursor}

theorem Takes.trans {run' : List Char} (h : Takes c run d) (h' : Takes d run' e) :
    Takes c (run ++ run') e := by
  refine ⟨?_, ?_⟩
  · rw [h.1, h'.1, List.append_assoc]
  · rw [h'.2, h.2, List.reverse_append, List.append_assoc]

theorem takes_of_mem_char (h : d ∈ (char p).ends c) : ∃ x, p x ∧ Takes c [x] d := by
  obtain ⟨before, after⟩ := c
  cases after with
  | nil => cases h
  | cons x after =>
    simp only [ends] at h
    split at h
    · rename_i hx
      obtain rfl := List.mem_singleton.mp h
      exact ⟨x, hx, rfl, rfl⟩
    · cases h

variable {n : ℕ}

theorem takes_of_mem_iterate (h : d ∈ iterate (char p).ends n c) :
    ∃ run, (∀ x ∈ run, p x) ∧ Takes c run d := by
  induction n generalizing c with
  | zero =>
    obtain rfl := List.mem_singleton.mp h
    exact ⟨[], fun x hx => absurd hx List.not_mem_nil, .refl _⟩
  | succ n ih =>
    rw [iterate, List.mem_append, List.mem_flatMap] at h
    obtain ⟨e, he, hd⟩ | hd := h
    · obtain ⟨x, hx, htake⟩ := takes_of_mem_char (List.mem_of_mem_filter he)
      obtain ⟨run, hrun, htakes⟩ := ih hd
      exact ⟨x :: run, List.forall_mem_cons.mpr ⟨hx, hrun⟩, htake.trans htakes⟩
    · obtain rfl := List.mem_singleton.mp hd
      exact ⟨[], fun x hx => absurd hx List.not_mem_nil, .refl _⟩

theorem takes_of_mem_star (h : d ∈ (star (char p)).ends c) : ∃ run, (∀ x ∈ run, p x) ∧ Takes c run d :=
  takes_of_mem_iterate h

theorem ends_char_cons {x : Char} (hx : p x) : (char p).ends ⟨before, x :: rest⟩ = [⟨x :: before, rest⟩] :=
  if_pos hx

theorem ends_char_stop (h : rest.head?.any p = false) : (char p).ends ⟨before, rest⟩ = [] := by
  cases rest with
  | nil => rfl
  | cons x rest => exact if_neg (by simpa using h)

theorem head_iterate_char (hn : run.length ≤ n) (hrun : ∀ x ∈ run, p x)
    (hrest : rest.head?.any p = false) :
    (iterate (char p).ends n ⟨before, run ++ rest⟩).head? = some ⟨run.reverse ++ before, rest⟩ := by
  induction n generalizing run before with
  | zero =>
    obtain rfl := List.eq_nil_of_length_eq_zero (Nat.le_zero.mp hn)
    rfl
  | succ n ih =>
    cases run with
    | nil =>
      rw [iterate, List.nil_append, ends_char_stop hrest]
      rfl
    | cons x run =>
      rw [List.length_cons] at hn
      have hnext := @ih (x :: before) run (by omega) (fun y hy => hrun y (List.mem_cons_of_mem x hy))
      rw [iterate, List.cons_append, ends_char_cons (hrun x List.mem_cons_self), List.filter_cons_of_pos
        (by simp), List.filter_nil, List.flatMap_singleton, List.head?_append, hnext, List.reverse_cons,
        List.append_assoc]
      rfl

/-- **A repeated class first takes the whole run.** -/
theorem head_star_char (hrun : ∀ x ∈ run, p x) (hrest : rest.head?.any p = false) :
    ((star (char p)).ends ⟨before, run ++ rest⟩).head? = some ⟨run.reverse ++ before, rest⟩ :=
  head_iterate_char (by simp) hrun hrest

theorem head_seq {first second : Pattern} (hfirst : (first.ends c).head? = some d)
    (hsecond : (second.ends d).head? = some e) : ((seq first second).ends c).head? = some e := by
  obtain ⟨ds, hds⟩ := List.head?_eq_some_iff.mp hfirst
  rw [ends, hds, List.flatMap_cons, List.head?_append, hsecond, Option.some_or]

/-! ### Groups -/

variable {head body : Pattern}

theorem groupAt_of_head (hhead : (head.ends c).head? = some d)
    (hbody : (body.ends d).head? = some e) :
    groupAt head body c = some (d.after.take (d.after.length - e.after.length), e) := by
  obtain ⟨ds, hds⟩ := List.head?_eq_some_iff.mp hhead
  rw [groupAt, hds, List.findSome?_cons, hbody, Option.map_some]

theorem exists_of_groupAt {group : List Char}
    (h : groupAt head body c = some (group, e)) : ∃ d ∈ head.ends c, e ∈ body.ends d := by
  obtain ⟨d, hd, hgroup⟩ := List.exists_of_findSome?_eq_some h
  obtain ⟨e', he', hpair⟩ := Option.map_eq_some_iff.mp hgroup
  obtain ⟨_, rfl⟩ := Prod.mk.inj hpair
  exact ⟨d, hd, List.mem_of_mem_head? he'⟩

/-- **A group is found** when every match from an earlier position ends before it. -/
theorem mem_findGroups {skipped group : List Char}
    (hprogress : ∀ c group e, groupAt head body c = some (group, e) → e.after.length < c.after.length)
    (hn : (skipped ++ rest).length < n)
    (hgroup : groupAt head body ⟨skipped.reverse ++ before, rest⟩ = some (group, e))
    (hclear : ∀ passed ahead g d, skipped = passed ++ ahead → ahead ≠ [] →
      groupAt head body ⟨passed.reverse ++ before, ahead ++ rest⟩ = some (g, d) →
        ∃ jumped ahead', ahead = jumped ++ ahead' ∧
          d = ⟨jumped.reverse ++ (passed.reverse ++ before), ahead' ++ rest⟩) :
    group ∈ findGroups head body n ⟨before, skipped ++ rest⟩ := by
  induction n generalizing before skipped with
  | zero => omega
  | succ n ih =>
    rw [findGroups]
    cases skipped with
    | nil =>
      rw [List.reverse_nil, List.nil_append] at hgroup
      rw [List.nil_append, hgroup]
      exact List.mem_cons_self
    | cons x skipped =>
      cases hmatch : groupAt head body ⟨before, x :: skipped ++ rest⟩ with
      | some found =>
        obtain ⟨g, d⟩ := found
        have hshort := hprogress _ _ _ hmatch
        obtain ⟨jumped, ahead, hsplit, rfl⟩ :=
          hclear [] (x :: skipped) g d rfl (List.cons_ne_nil _ _) hmatch
        rw [List.reverse_nil, List.nil_append] at hshort ⊢
        refine List.mem_cons_of_mem _ (ih ?_ ?_ ?_)
        · exact Nat.lt_of_lt_of_le hshort (Nat.lt_succ_iff.mp hn)
        · rw [hsplit, List.reverse_append, List.append_assoc] at hgroup
          exact hgroup
        · intro passed ahead' g' d' hahead hne hgroup'
          have hpassed : (jumped ++ passed).reverse ++ before = passed.reverse ++
            (jumped.reverse ++ before) := by
            rw [List.reverse_append, List.append_assoc]
          have h := hclear (jumped ++ passed) ahead' g' d'
            (by rw [hsplit, hahead, List.append_assoc]) hne
            (hpassed ▸ hgroup')
          rw [hpassed] at h
          exact h
      | none =>
        show group ∈ findGroups head body n ⟨x :: before, skipped ++ rest⟩
        rw [List.cons_append, List.length_cons] at hn
        refine ih (by omega) ?_ ?_
        · rw [List.reverse_cons, List.append_assoc] at hgroup
          exact hgroup
        · intro passed ahead' g' d' hahead hne hgroup'
          have hpassed : (x :: passed).reverse ++ before = passed.reverse ++ (x :: before) := by
            rw [List.reverse_cons, List.append_assoc]
            rfl
          have h := hclear (x :: passed) ahead' g' d' (by rw [hahead, List.cons_append]) hne
            (hpassed ▸ hgroup')
          rw [hpassed] at h
          exact h

/-! ### Patterns without look-around -/

/-- The pattern looks at nothing but what it takes. -/
def Plain : Pattern → Prop
  | empty => True
  | char _ => True
  | seq first second => first.Plain ∧ second.Plain
  | alt first second => first.Plain ∧ second.Plain
  | star body => body.Plain
  | notAhead _ => False
  | notBehind _ => False
  | boundary _ => False

/-- `d'` is to `c'` what `d` is to `c`, with `more` behind. -/
def Longer (more : List Char) (c c' : TextCursor) : Prop := c'.after = c.after ++ more

variable {more : List Char} {c c' d : TextCursor}

theorem self_mem_iterate {f : TextCursor → List TextCursor} (n : ℕ) : c ∈ iterate f n c := by
  cases n with
  | zero => simp [iterate]
  | succ n => simp [iterate]

theorem exists_iterate_longer {f : TextCursor → List TextCursor}
    (hf : ∀ c c' d, Longer more c c' → d ∈ f c → ∃ d' ∈ f c', Longer more d d') {m n : ℕ} (hmn : m ≤ n)
    (hc : Longer more c c') (hd : d ∈ iterate f m c) : ∃ d' ∈ iterate f n c', Longer more d d' := by
  induction m generalizing n c c' with
  | zero =>
    obtain rfl : d = c := by simpa [iterate] using hd
    exact ⟨c', self_mem_iterate n, hc⟩
  | succ m ih =>
    obtain ⟨n, rfl⟩ := Nat.exists_eq_add_of_lt hmn
    rw [iterate, List.mem_append, List.mem_flatMap] at hd
    rcases hd with ⟨e, he, hd⟩ | hd
    · simp only [List.mem_filter, decide_eq_true_eq] at he
      obtain ⟨e', he', hlong⟩ := hf c c' e hc he.1
      obtain ⟨d', hd', hlong'⟩ := ih (n := m + n) (by omega) hlong hd
      refine ⟨d', ?_, hlong'⟩
      rw [iterate, List.mem_append, List.mem_flatMap]
      refine .inl ⟨e', List.mem_filter.mpr ⟨he', ?_⟩, hd'⟩
      have := congrArg List.length hc
      have := congrArg List.length hlong
      simp only [List.length_append, decide_eq_true_eq] at *
      omega
    · obtain rfl : d = c := by simpa using hd
      exact ⟨c', self_mem_iterate _, hc⟩

theorem exists_ends_longer {pattern : Pattern} (hp : pattern.Plain) (hc : Longer more c c')
    (hd : d ∈ pattern.ends c) : ∃ d' ∈ pattern.ends c', Longer more d d' := by
  induction pattern generalizing c c' d with
  | empty =>
    obtain rfl : d = c := by simpa [ends] using hd
    exact ⟨c', by simp [ends], hc⟩
  | char p =>
    obtain ⟨before, after⟩ := c
    cases after with
    | nil => simp [ends] at hd
    | cons x rest =>
      simp only [ends] at hd
      split at hd
      · rename_i hx
        obtain rfl : d = ⟨x :: before, rest⟩ := by simpa using hd
        refine ⟨⟨x :: c'.before, rest ++ more⟩, ?_, rfl⟩
        rw [Longer, List.cons_append] at hc
        simp [ends, hc, hx]
      · cases hd
  | seq first second ihf ihs =>
    simp only [ends, List.mem_flatMap] at hd ⊢
    obtain ⟨e, he, hd⟩ := hd
    obtain ⟨e', he', hlong⟩ := ihf hp.1 hc he
    obtain ⟨d', hd', hlong'⟩ := ihs hp.2 hlong hd
    exact ⟨d', ⟨e', he', hd'⟩, hlong'⟩
  | alt first second ihf ihs =>
    simp only [ends, List.mem_append] at hd ⊢
    rcases hd with hd | hd
    · obtain ⟨d', hd', hlong⟩ := ihf hp.1 hc hd
      exact ⟨d', .inl hd', hlong⟩
    · obtain ⟨d', hd', hlong⟩ := ihs hp.2 hc hd
      exact ⟨d', .inr hd', hlong⟩
  | star body ih =>
    refine exists_iterate_longer (fun c c' d hc hd => ih hp hc hd) ?_ hc hd
    rw [hc, List.length_append]
    omega
  | notAhead p => exact hp.elim
  | notBehind p => exact hp.elim
  | boundary p => exact hp.elim

/-- **A pattern without look-around matches in a text what it matches in a part of it.** -/
theorem MatchesIn.of_part {pattern : Pattern} {part : List Char} (hp : pattern.Plain)
    (h : pattern.MatchesIn part) (before after : List Char) :
    pattern.MatchesIn (before ++ part ++ after) := by
  obtain ⟨c, rfl, hends⟩ := h
  obtain ⟨d, hd⟩ := List.exists_mem_of_ne_nil _ hends
  have hlong : Longer after c ⟨c.before ++ before.reverse, c.after ++ after⟩ := rfl
  obtain ⟨d', hd', -⟩ := exists_ends_longer hp hlong hd
  exact ⟨_, by simp [TextCursor.text], List.ne_nil_of_mem hd'⟩

end CyberControl.Pattern
