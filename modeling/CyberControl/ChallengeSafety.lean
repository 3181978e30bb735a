import CyberControl.ChallengeSteps
import CyberControl.Errors

/-! # Safety of the verification challenges

What holds of the challenges in every run of the transactions. -/

namespace CyberControl.VerificationChallenges

variable {service : Service}

/-! ### The invariant -/

/-- A wrong code for the challenge of `s`. -/
def wrongFor (s : Sent) (p : Presented) : Bool := p.row.challengeId = s.challengeId ∧ p.code ≠ s.code

/-- The code of `s` was presented to its challenge, pending and unexpired, after fewer than
`maxAttempts` wrong ones. -/
def Earned (maxAttempts : ℕ) (presented : List Presented) (s : Sent) : Prop :=
  ∃ before p after, presented = before ++ p :: after ∧ p.row.challengeId = s.challengeId ∧
    p.code = s.code ∧ p.row.state = .pending ∧ p.presentedAt < p.row.expiresAt ∧
    before.countP (wrongFor s) < maxAttempts

variable {s : Sent}

theorem Earned.append {maxAttempts : ℕ} {presented : List Presented}
    (h : Earned maxAttempts presented s) (news : List Presented) :
    Earned maxAttempts (presented ++ news) s := by
  obtain ⟨before, p, after, rfl, hp⟩ := h
  exact ⟨before, p, after ++ news, by simp, hp⟩

/-- A challenge and the code that was sent for it. -/
structure Issued (service : Service) (w : World) (s : Sent) (c : Challenge) : Prop where
  id : c.challengeId = s.challengeId
  channel : c.channel = s.key.channel
  purpose : c.purpose = s.key.purpose
  identifier : c.identifierDigest = s.key.identifierDigest
  code : c.codeDigest = service.verificationCodeDigest c.challengeId s.code
  created : c.createdAt = s.sentAt
  lastSent : c.lastSentAt = s.sentAt
  expires : c.expiresAt = s.sentAt + seconds service.ttlSeconds
  allowed : s.key.allowed
  account : c.state ≠ .consumed → c.accountId = s.key.accountId
  attempts : c.state = .pending →
    w.presented.countP (wrongFor s) = c.attemptCount ∧ c.attemptCount < c.maxAttempts
  earned : c.state = .verified ∨ c.state = .consumed → Earned c.maxAttempts w.presented s
  bound : ∀ r, c.registrationId = some r →
    c.purpose = .register ∧ ∃ x ∈ w.db.registrations, x.registrationId = r
  finished : ∀ r, c.registrationId = some r → c.state = .consumed →
    ∃ x ∈ w.db.registrations, x.registrationId = r ∧
      ∃ record, w.db.records x.idempotencyKey = some record ∧ record.completed

/-- Registrations and their storage keys belong together, and each has its first version. -/
structure Registered (registrations : List RegistrationSnapshot) : Prop where
  keys : ∀ r ∈ registrations, ∀ r' ∈ registrations,
    r.registrationId = r'.registrationId ↔ r.idempotencyKey = r'.idempotencyKey
  first : ∀ r ∈ registrations, ∃ r' ∈ registrations,
    r'.registrationId = r.registrationId ∧ r'.registrationVersion = 1

theorem Registered.grows {registrations registrations' : List RegistrationSnapshot}
    (h : Registered registrations) (hgrows : Grows registrations registrations') :
    Registered registrations' := by
  rcases hgrows with rfl | ⟨snapshot, rfl, ⟨x, hx, hid, hkey⟩ | ⟨hversion, hkey, hid⟩⟩
  · exact h
  · refine ⟨fun r hr r' hr' => ?_, fun r hr => ?_⟩
    · rcases List.mem_append.mp hr with hr | hr <;> rcases List.mem_append.mp hr' with hr' | hr'
      · exact h.keys r hr r' hr'
      · rw [List.mem_singleton.mp hr', ← hid, ← hkey]
        exact h.keys r hr x hx
      · rw [List.mem_singleton.mp hr, ← hid, ← hkey]
        exact h.keys x hx r' hr'
      · rw [List.mem_singleton.mp hr, List.mem_singleton.mp hr']
        exact iff_of_true rfl rfl
    · obtain ⟨y, hy, hrest⟩ := h.first x hx
      rcases List.mem_append.mp hr with hr | hr
      · obtain ⟨z, hz, hrest⟩ := h.first r hr
        exact ⟨z, List.mem_append_left _ hz, hrest⟩
      · rw [List.mem_singleton.mp hr, ← hid]
        exact ⟨y, List.mem_append_left _ hy, hrest⟩
  · have hnew : ∀ r ∈ registrations, r.registrationId ≠ snapshot.registrationId := by
      intro r hr heq
      obtain ⟨z, hz, hzid, hzversion⟩ := h.first r hr
      exact hid z hz (hzid.trans heq) hzversion
    refine ⟨fun r hr r' hr' => ?_, fun r hr => ?_⟩
    · rcases List.mem_append.mp hr with hr | hr <;> rcases List.mem_append.mp hr' with hr' | hr'
      · exact h.keys r hr r' hr'
      · rw [List.mem_singleton.mp hr']
        exact iff_of_false (hnew r hr) (hkey r hr)
      · rw [List.mem_singleton.mp hr]
        exact iff_of_false (hnew r' hr').symm (hkey r' hr').symm
      · rw [List.mem_singleton.mp hr, List.mem_singleton.mp hr']
        exact iff_of_true rfl rfl
    · rcases List.mem_append.mp hr with hr | hr
      · obtain ⟨z, hz, hrest⟩ := h.first r hr
        exact ⟨z, List.mem_append_left _ hz, hrest⟩
      · rw [List.mem_singleton.mp hr]
        exact ⟨snapshot, List.mem_append_right _ (List.mem_singleton_self _), rfl, hversion⟩

/-- **The invariant.**  The challenges are those that were sent, in that order. -/
structure Invariant (service : Service) (w : World) : Prop where
  ids : (w.db.challenges.map (·.challengeId)).Nodup
  issued : List.Forall₂ (Issued service w) w.sent w.db.challenges
  known : ∀ p ∈ w.presented, p.row.challengeId ∈ w.db.challenges.map (·.challengeId)
  registered : Registered w.db.registrations

theorem Invariant.initial (service : Service) : Invariant service World.initial where
  ids := List.nodup_nil
  issued := List.Forall₂.nil
  known := List.forall_mem_nil _
  registered := ⟨List.forall_mem_nil _, List.forall_mem_nil _⟩

variable {c : Challenge}

/-- The consumption of a challenge completes the registration, which then consumes nothing. -/
theorem Issued.not_consumed {w : World} {registrationId key : ℕ}
    (h : Issued service w s c) (hregistered : Registered w.db.registrations)
    (hbound : c.registrationId = some registrationId)
    (hkey : ∃ r ∈ w.db.registrations, r.registrationId = registrationId ∧ r.idempotencyKey = key)
    (hopen : ∀ record, w.db.records key = some record → record.completed = false) :
    c.state ≠ .consumed := by
  intro hconsumed
  obtain ⟨x, hx, hxid, record, hrecord, hcompleted⟩ := h.finished registrationId hbound hconsumed
  obtain ⟨r, hr, hrid, hrkey⟩ := hkey
  rw [(hregistered.keys x hx r hr).mp (hxid.trans hrid.symm), hrkey] at hrecord
  rw [hopen record hrecord] at hcompleted
  cases hcompleted

theorem Issued.not_registering {w : World} {accountId : ℕ}
    (h : Issued service w s c) (hstate : c.state = .verified)
    (haccount : c.accountId = some accountId) :
    c.registrationId = none := by
  cases hbound : c.registrationId with
  | none => rfl
  | some r =>
    have hnone : s.key.accountId = none := by
      have hallowed := h.allowed
      simp only [ChallengeKey.allowed, decide_eq_true_eq] at hallowed
      rw [← hallowed, ← h.purpose]
      exact (h.bound r hbound).1
    rw [h.account (by rw [hstate]; decide), hnone] at haccount
    cases haccount

theorem Issued.matches_iff {w : World} (h : Issued service w s c)
    (code : String) : codeMatches service c code ↔ code = s.code := by
  rw [codeMatches, decide_eq_true_eq, h.code]
  exact (service.digest_injective c.challengeId).eq_iff

variable {w w' : World} {news : List Presented}

theorem Issued.mono (h : Issued service w s c) (hpresented : w'.presented = w.presented ++ news)
    (hquiet : c.state = .pending → ∀ p ∈ news, p.row.challengeId ≠ c.challengeId)
    (hrecords : KeepsCompleted w.db.records w'.db.records)
    (hregistrations : w.db.registrations ⊆ w'.db.registrations) : Issued service w' s c :=
  { h with
    attempts := by
      intro hpending
      have hnone : news.countP (wrongFor s) = 0 := by
        refine List.countP_eq_zero.mpr fun p hp => ?_
        have hne := hquiet hpending p hp
        rw [h.id] at hne
        simp [wrongFor, hne]
      rw [hpresented, List.countP_append, hnone]
      exact h.attempts hpending
    earned := by
      intro hstate
      rw [hpresented]
      exact (h.earned hstate).append news
    bound := by
      intro r hr
      obtain ⟨hpurpose, x, hx, hid⟩ := h.bound r hr
      exact ⟨hpurpose, x, hregistrations hx, hid⟩
    finished := by
      intro r hr hconsumed
      obtain ⟨x, hx, hid, record, hrecord, hcompleted⟩ := h.finished r hr hconsumed
      exact ⟨x, hregistrations hx, hid, hrecords _ record hrecord hcompleted⟩ }

/-- **What a transaction does to a challenge keeps what is known of it.** -/
theorem Issued.evolves {c c' : Challenge}
    (h : Issued service w s c) (hkept : Kept service w w' news)
    (hevolves : Evolves service w w' news c c') : Issued service w' s c' := by
  have hsubset := hkept.registrations.subset
  have hbound : ∀ r, c.registrationId = some r →
      c.purpose = .register ∧ ∃ x ∈ w'.db.registrations, x.registrationId = r := by
    intro r hr
    obtain ⟨hpurpose, x, hx, hid⟩ := h.bound r hr
    exact ⟨hpurpose, x, hsubset hx, hid⟩
  have hearned : c.state = .verified ∨ c.state = .consumed → Earned c.maxAttempts w'.presented s := by
    intro hstate
    rw [hkept.presented]
    exact (h.earned hstate).append news
  cases hevolves with
  | same hquiet => exact h.mono hkept.presented hquiet hkept.records hsubset
  | expire now hstate =>
    refine ⟨h.id, h.channel, h.purpose, h.identifier, h.code, h.created, h.lastSent, h.expires,
      h.allowed, fun _ => h.account ?_, nofun, ?_, hbound, fun _ _ => nofun⟩
    · intro hconsumed
      rw [hconsumed] at hstate
      cases hstate
    · rintro (hverified | hconsumed)
      · cases hverified
      · cases hconsumed
  | reject code now hstate hwrong hnews =>
    have hattempts := h.attempts hstate
    have hne : code ≠ s.code := by
      rw [ne_eq, ← h.matches_iff, hwrong]
      exact Bool.false_ne_true
    have hstate' : (rejectAttempt now c).state ≠ .verified ∧
        (rejectAttempt now c).state ≠ .consumed := by
      simp only [rejectAttempt, hstate]
      split_ifs <;> decide
    refine ⟨h.id, h.channel, h.purpose, h.identifier, h.code, h.created, h.lastSent, h.expires,
      h.allowed, fun _ => h.account (by rw [hstate]; decide), ?_, ?_, hbound, ?_⟩
    · intro hpending
      rw [hkept.presented, hnews, List.countP_append, hattempts.1]
      refine ⟨by simp [wrongFor, h.id, hne, rejectAttempt], ?_⟩
      by_contra hlast
      simp only [rejectAttempt, not_lt] at hpending hlast
      rw [if_pos hlast] at hpending
      cases hpending
    · rintro (hverified | hconsumed)
      · exact absurd hverified hstate'.1
      · exact absurd hconsumed hstate'.2
    · intro r _ hconsumed
      exact absurd hconsumed hstate'.2
  | verify code now hstate hlive hright hnews =>
    have hattempts := h.attempts hstate
    refine ⟨h.id, h.channel, h.purpose, h.identifier, h.code, h.created, h.lastSent, h.expires,
      h.allowed, fun _ => h.account (by rw [hstate]; decide), nofun, ?_, hbound, fun _ _ => nofun⟩
    intro _
    refine ⟨w.presented, ⟨c, code, now⟩, [], by rw [hkept.presented, hnews], h.id,
      (h.matches_iff code).mp hright, hstate, hlive, ?_⟩
    show w.presented.countP (wrongFor s) < c.maxAttempts
    omega
  | bind registrationId now hstate hpurpose hfree hstored =>
    refine ⟨h.id, h.channel, h.purpose, h.identifier, h.code, h.created, h.lastSent, h.expires,
      h.allowed, h.account, fun hpending => ?_, hearned, ?_, fun r _ hconsumed => ?_⟩
    · exact absurd (hstate.symm.trans hpending) (by decide)
    · intro r hr
      cases hr
      exact ⟨hpurpose, hstored⟩
    · exact absurd (hstate.symm.trans hconsumed) (by decide)
  | consume registrationId key accountId now hregistration hstate hkey hopen hdone =>
    refine ⟨h.id, h.channel, h.purpose, h.identifier, h.code, h.created, h.lastSent, h.expires,
      h.allowed, fun hne => absurd rfl hne, nofun, fun _ => hearned hstate, hbound, ?_⟩
    intro r hr _
    obtain ⟨x, hx, hid, hxkey⟩ := hkey
    refine ⟨x, hsubset hx, ?_, by rw [hxkey]; exact hdone⟩
    exact hid.trans (Option.some.inj (hregistration.symm.trans hr))
  | change accountId now hstate haccount =>
    refine ⟨h.id, h.channel, h.purpose, h.identifier, h.code, h.created, h.lastSent, h.expires,
      h.allowed, fun hne => absurd rfl hne, nofun, fun _ => hearned (Or.inl hstate), hbound, ?_⟩
    intro r hr _
    exact absurd ((h.not_registering hstate haccount).symm.trans hr) (by simp)

/-- What nothing changes any more of a challenge. -/
structure Continues (c c' : Challenge) : Prop where
  id : c'.challengeId = c.challengeId
  final : c.state.final → c'.state = c.state
  registration : ∀ r, c.registrationId = some r → c'.registrationId = some r
  account : c.state = .consumed → c'.accountId = c.accountId

theorem Continues.refl (c : Challenge) : Continues c c :=
  ⟨rfl, fun _ => rfl, fun _ h => h, fun _ => rfl⟩

theorem Continues.trans {c d e : Challenge} (h : Continues c d) (h' : Continues d e) :
    Continues c e where
  id := h'.id.trans h.id
  final := by
    intro hfinal
    have hstate := h.final hfinal
    rw [← hstate] at hfinal
    exact (h'.final hfinal).trans hstate
  registration := fun r hr => h'.registration r (h.registration r hr)
  account := by
    intro hconsumed
    have hstate := h.final (by rw [hconsumed]; rfl)
    exact (h'.account (hstate.trans hconsumed)).trans (h.account hconsumed)

theorem Issued.continues {c c' : Challenge}
    (h : Issued service w s c) (hregistered : Registered w.db.registrations)
    (hevolves : Evolves service w w' news c c') : Continues c c' := by
  cases hevolves with
  | same hquiet => exact Continues.refl c
  | expire now hstate =>
    refine ⟨rfl, fun hfinal => ?_, fun _ hr => hr, fun _ => rfl⟩
    cases hc : c.state <;> simp_all [ChallengeState.active, ChallengeState.final]
  | reject code now hstate hwrong hnews =>
    refine ⟨rfl, fun hfinal => ?_, fun _ hr => hr, fun _ => rfl⟩
    rw [hstate] at hfinal
    cases hfinal
  | verify code now hstate hlive hright hnews =>
    refine ⟨rfl, fun hfinal => ?_, fun _ hr => hr, fun _ => rfl⟩
    rw [hstate] at hfinal
    cases hfinal
  | bind registrationId now hstate hpurpose hfree hstored =>
    refine ⟨rfl, fun _ => rfl, fun r hr => ?_, fun _ => rfl⟩
    rcases hfree with hfree | hfree
    · exact absurd (hfree.symm.trans hr) (by simp)
    · exact hfree.symm.trans hr
  | consume registrationId key accountId now hregistration hstate hkey hopen hdone =>
    have hopen := h.not_consumed hregistered hregistration hkey hopen
    have hverified : c.state = .verified := hstate.resolve_right hopen
    refine ⟨rfl, fun hfinal => ?_, fun _ hr => hr, fun hconsumed => absurd hconsumed hopen⟩
    rw [hverified] at hfinal
    cases hfinal
  | change accountId now hstate haccount =>
    refine ⟨rfl, fun hfinal => ?_, fun _ hr => hr, fun _ => rfl⟩
    rw [hstate] at hfinal
    cases hfinal

/-! ### Steps and runs -/

theorem Issues.issued (h : Issues service w w' s)
    (hinv : Invariant service w) :
    Issued service w' s (newChallenge service s.key s.challengeId s.code s.sentAt) := by
  have hnone : w'.presented.countP (wrongFor s) = 0 := by
    refine List.countP_eq_zero.mpr fun p hp => ?_
    rw [h.presented] at hp
    obtain ⟨c, hc, hid⟩ := List.mem_map.mp (hinv.known p hp)
    have hne := h.fresh c hc
    rw [hid] at hne
    simp [wrongFor, hne]
  refine ⟨rfl, rfl, rfl, rfl, rfl, rfl, rfl, rfl, h.allowed, fun _ => rfl, fun _ => ⟨hnone, ?_⟩, ?_,
    nofun, nofun⟩
  · show 0 < service.maxAttempts
    have hbounds := service.maxAttempts_bounds
    omega
  · rintro (hverified | hconsumed)
    · cases hverified
    · cases hconsumed

theorem Kept.ids (h : Kept service w w' news) :
    w'.db.challenges.map (·.challengeId) = w.db.challenges.map (·.challengeId) := by
  obtain ⟨g, hrows, hevolves⟩ := h.rows
  rw [hrows, List.map_map]
  exact List.map_congr_left fun c hc => (hevolves c hc).fixed.1

/-- **Step lemma.** -/
theorem Invariant.of_step {t : Transaction} (hinv : Invariant service w)
    (h : step service w t = some w') : Invariant service w' := by
  rcases step_cases hinv.ids h with ⟨news, hkept⟩ | ⟨s, hissues⟩
  · refine ⟨by rw [hkept.ids]; exact hinv.ids, ?_, ?_, hinv.registered.grows hkept.registrations⟩
    · obtain ⟨g, hrows, hevolves⟩ := hkept.rows
      rw [hrows, hkept.sent, List.forall₂_map_right_iff]
      exact forall₂_imp_of_mem hinv.issued fun s _ c hc hissued => hissued.evolves hkept (hevolves c hc)
    · intro p hp
      rw [hkept.ids]
      rw [hkept.presented] at hp
      rcases List.mem_append.mp hp with hp | hp
      · exact hinv.known p hp
      · exact List.mem_map.mpr ⟨p.row, hkept.known p hp, rfl⟩
  · refine ⟨?_, ?_, ?_, by rw [hissues.registrations]; exact hinv.registered⟩
    · rw [hissues.rows, List.map_append]
      refine List.nodup_append.mpr ⟨hinv.ids, List.nodup_singleton _, fun a ha b hb => ?_⟩
      obtain ⟨c, hc, rfl⟩ := List.mem_map.mp ha
      rw [List.mem_singleton.mp hb]
      exact hissues.fresh c hc
    · rw [hissues.rows, hissues.sent]
      refine List.rel_append ?_ (.cons (hissues.issued hinv) .nil)
      refine hinv.issued.imp fun s c hissued => ?_
      refine hissued.mono (by rw [hissues.presented, List.append_nil])
        (fun _ => List.forall_mem_nil _) hissues.records ?_
      rw [hissues.registrations]
      exact List.Subset.refl _
    · intro p hp
      rw [hissues.presented] at hp
      rw [hissues.rows, List.map_append]
      exact List.mem_append_left _ (hinv.known p hp)

theorem Invariant.of_run {w : World} {trace : List Transaction}
    (h : Transition.run (step service) World.initial trace = some w) : Invariant service w :=
  Transition.run_invariant (fun _ _ _ hinv hstep => hinv.of_step hstep) (Invariant.initial service) h

theorem Invariant.continues_step {t : Transaction} (hinv : Invariant service w)
    (h : step service w t = some w') :
    ∀ c ∈ w.db.challenges, ∃ c' ∈ w'.db.challenges, Continues c c' := by
  intro c hc
  rcases step_cases hinv.ids h with ⟨news, hkept⟩ | ⟨s, hissues⟩
  · obtain ⟨g, hrows, hevolves⟩ := hkept.rows
    obtain ⟨s, -, hissued⟩ := exists_of_mem_right hinv.issued hc
    refine ⟨g c, ?_, hissued.continues hinv.registered (hevolves c hc)⟩
    rw [hrows]
    exact List.mem_map_of_mem hc
  · refine ⟨c, ?_, Continues.refl c⟩
    rw [hissues.rows]
    exact List.mem_append_left _ hc

/-- **Run lemma**: every challenge continues through every later run. -/
theorem Invariant.continues_run {trace : List Transaction}
    (hinv : Invariant service w)
    (h : Transition.run (step service) w trace = some w') :
    ∀ c ∈ w.db.challenges, ∃ c' ∈ w'.db.challenges, Continues c c' := by
  induction trace generalizing w with
  | nil =>
    cases h
    exact fun c hc => ⟨c, hc, Continues.refl c⟩
  | cons t trace ih =>
    obtain ⟨v, hstep, hrun⟩ := Transition.run_cons_eq_some.mp h
    intro c hc
    obtain ⟨d, hd, hcd⟩ := hinv.continues_step hstep c hc
    obtain ⟨e, he, hde⟩ := ih (hinv.of_step hstep) hrun d hd
    exact ⟨e, he, hcd.trans hde⟩

/-! ### The cooldown -/

/-- A code is sent while the challenge of `earlier` has a code out for less than the cooldown only
if that challenge can no longer be used. -/
theorem Issues.cooldown (h : Issues service w w' s)
    (hinv : Invariant service w) {earlier : Sent}
    (hissued : Issued service w earlier c) (hc : c ∈ w.db.challenges) (hkey : earlier.key = s.key)
    (hsoon : s.sentAt < earlier.sentAt + seconds service.cooldownSeconds)
    (hactive : c.state.active) : c.expiresAt ≤ s.sentAt := by
  by_contra hlive
  have hckey : c.key = s.key := by
    have hstate : c.state ≠ .consumed := by
      intro hconsumed
      rw [hconsumed] at hactive
      cases hactive
    rw [← hkey]
    simp only [Challenge.key, hissued.channel, hissued.purpose, hissued.identifier,
      hissued.account hstate]
  have hmem : c ∈ w.db.challenges.filter fun d => d.key = s.key ∧ d.state.active :=
    List.mem_filter.mpr ⟨hc, by simp [hckey, hactive]⟩
  have hfree := h.free
  cases hlatest : latestChallenge service w.db.challenges s.key with
  | none =>
    rw [service.newest_eq_none _ hlatest] at hmem
    cases hmem
  | some latest =>
    obtain ⟨hlmem, hnewest⟩ := service.newest_spec _ _ hlatest
    obtain ⟨e, -, hle⟩ := exists_of_mem_right hinv.issued (List.mem_of_mem_filter hlmem)
    have hcreated := hnewest c hmem
    have hwaiting : inCooldown service latest s.sentAt = true := by
      rw [inCooldown, decide_eq_true_eq, hle.expires, hle.lastSent]
      rw [hissued.created, hle.created] at hcreated
      rw [hissued.expires] at hlive
      omega
    rw [hlatest, Option.filter_some, hwaiting] at hfree
    cases hfree

/-- **Safety of the challenges, over every run.**  A challenge is verified or consumed only when
its code was presented in time; a final state, a registration and the account of the consumption
stay; and a second code within the cooldown is sent only after the first challenge has ended. -/
theorem challenges_safe (service : Service) (trace : List Transaction) (w : World)
    (h : Transition.run (step service) World.initial trace = some w) :
    (w.db.challenges.map (·.challengeId)).Nodup ∧
      (∀ c ∈ w.db.challenges, c.state = .verified ∨ c.state = .consumed →
        ∃ s ∈ w.sent, s.challengeId = c.challengeId ∧
          c.codeDigest = service.verificationCodeDigest c.challengeId s.code ∧
          Earned c.maxAttempts w.presented s) ∧
      (∀ later w', Transition.run (step service) w later = some w' →
        ∀ c ∈ w.db.challenges, ∃ c' ∈ w'.db.challenges, Continues c c') ∧
      ∀ t w' s, step service w t = some w' → w'.sent = w.sent ++ [s] →
        ∀ earlier ∈ w.sent, earlier.key = s.key →
          s.sentAt < earlier.sentAt + seconds service.cooldownSeconds →
          ∃ c ∈ w.db.challenges, c.challengeId = earlier.challengeId ∧
            (c.state.final ∨ c.expiresAt ≤ s.sentAt) := by
  have hinv := Invariant.of_run h
  refine ⟨hinv.ids, ?_, fun later w' hrun => hinv.continues_run hrun, ?_⟩
  · intro c hc hstate
    obtain ⟨s, hs, hissued⟩ := exists_of_mem_right hinv.issued hc
    exact ⟨s, hs, hissued.id.symm, hissued.code, hissued.earned hstate⟩
  · intro t w' s hstep hsent earlier hearlier hkey hsoon
    obtain ⟨c, hc, hissued⟩ := exists_of_mem_right hinv.issued.flip hearlier
    refine ⟨c, hc, hissued.id, ?_⟩
    rcases step_cases hinv.ids hstep with ⟨news, hkept⟩ | ⟨s', hissues⟩
    · rw [hkept.sent] at hsent
      exact absurd hsent.symm (by simp)
    · obtain rfl : s' = s := by simpa [hissues.sent] using hsent
      cases hactive : c.state.active with
      | true => exact Or.inr (hissues.cooldown hinv hissued hc hkey hsoon hactive)
      | false =>
        left
        cases hstate : c.state <;> simp_all [ChallengeState.active, ChallengeState.final]

/-! ### A code after a lockout -/

/-- The digits of a code in a base above every code point. -/
def codeNumber : List Char → ℕ
  | [] => 0
  | c :: l => codeNumber l * 1114112 + (c.toNat + 1)

theorem codeNumber_injective : Function.Injective codeNumber := by
  intro l
  induction l with
  | nil =>
    rintro (_ | ⟨c, l'⟩) h
    · rfl
    · simp only [codeNumber] at h
      omega
  | cons c l ih =>
    rintro (_ | ⟨c', l'⟩) h
    · simp only [codeNumber] at h
      omega
    · have hc : c.toNat < 1114112 := by
        rcases c.valid with hlt | hlt <;> simp only [Char.toNat, UInt32.toNat] at * <;> omega
      have hc' : c'.toNat < 1114112 := by
        rcases c'.valid with hlt | hlt <;> simp only [Char.toNat, UInt32.toNat] at * <;> omega
      simp only [codeNumber] at h
      have hchar : c.toNat = c'.toNat := by omega
      have hrest : codeNumber l = codeNumber l' := by omega
      rw [Char.toNat_inj.mp hchar, ih hrest]

/-- A row created last. -/
def newestOf : List Challenge → Option Challenge
  | [] => none
  | c :: l => some ((newestOf l).elim c fun d => if d.createdAt < c.createdAt then c else d)

theorem newestOf_spec {l : List Challenge} (h : newestOf l = some c) :
    c ∈ l ∧ ∀ d ∈ l, d.createdAt ≤ c.createdAt := by
  induction l generalizing c with
  | nil => cases h
  | cons a l ih =>
    rw [newestOf, Option.some.injEq] at h
    cases hrest : newestOf l with
    | none =>
      obtain rfl : a = c := by rw [hrest] at h; exact h
      cases l with
      | nil => exact ⟨List.mem_singleton_self _, by simp⟩
      | cons b l => cases hrest
    | some d =>
      obtain ⟨hmem, hnewest⟩ := ih hrest
      rw [hrest] at h
      have h : (if d.createdAt < a.createdAt then a else d) = c := h
      split_ifs at h with hlt
      · subst h
        refine ⟨List.mem_cons_self .., List.forall_mem_cons.mpr ⟨le_refl _, fun e he => ?_⟩⟩
        exact (hnewest e he).trans hlt.le
      · subst h
        exact ⟨List.mem_cons_of_mem _ hmem, List.forall_mem_cons.mpr ⟨not_lt.mp hlt, hnewest⟩⟩

/-- The default settings, but for the lockout after two wrong codes. -/
def exampleService : Service where
  ttlSeconds := 300
  cooldownSeconds := 60
  maxAttempts := 2
  processingLeaseSeconds := 60
  ttl_bounds := by decide
  cooldown_bounds := by decide
  maxAttempts_bounds := by decide
  verificationCodeDigest := fun _ code => codeNumber code.toList
  digest_injective := fun _ _ _ h => String.toList_injective (codeNumber_injective h)
  newest := newestOf
  newest_eq_none := by
    rintro (_ | ⟨c, l⟩) h
    · rfl
    · cases h
  newest_spec := fun _ _ => newestOf_spec

def exampleKey : ChallengeKey := ⟨.email, .register, 7, none⟩

/-- A wrong code and the right one are presented, and the challenge is used for a registration. -/
def registeredRun : List Transaction :=
  [.requestChallenge exampleKey 1 11 100 "123456" 0, .verifyChallenge 100 "1" 2 12 1000,
    .verifyChallenge 100 "123456" 3 13 2000, .prepareRegistration .email 7 100 4 14 500 3000,
    .finalizeRegistration 500 100 4 14 9 600 4000]

theorem challenges_safe_registered :
    ∃ w, Transition.run (step exampleService) World.initial registeredRun = some w ∧
      ∃ c ∈ w.db.challenges, c.state = .consumed ∧ ∃ s ∈ w.sent, s.challengeId = c.challengeId ∧
        Earned c.maxAttempts w.presented s := by
  refine ⟨_, rfl, _, List.mem_singleton_self _, rfl, ?_⟩
  obtain ⟨s, hs, hid, -, hearned⟩ := (challenges_safe exampleService registeredRun _ rfl).2.1 _
    (List.mem_singleton_self _) (Or.inr rfl)
  exact ⟨s, hs, hid, hearned⟩

/-- The challenge is locked by two wrong codes, and the code requested again three seconds after the
first one. -/
def lockoutRun : List Transaction :=
  [.requestChallenge exampleKey 1 11 100 "123456" 0,
    .verifyChallenge 100 "000000" 2 12 1000000, .verifyChallenge 100 "000001" 3 13 2000000,
    .requestChallenge exampleKey 4 11 101 "654321" 3000000]

/-- **Two codes within the cooldown.** -/
theorem code_sent_after_lockout :
    ∃ w, Transition.run (step exampleService) World.initial lockoutRun = some w ∧
      ∃ first second, w.sent = [first, second] ∧ first.key = second.key ∧
        second.sentAt < first.sentAt + seconds exampleService.cooldownSeconds := by
  refine ⟨_, rfl, _, _, rfl, rfl, by decide⟩

end CyberControl.VerificationChallenges
