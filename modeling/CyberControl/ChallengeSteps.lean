import CyberControl.VerificationChallenges

/-! # The transactions on the verification challenges

What one transaction does. -/

namespace CyberControl.VerificationChallenges

variable {service : Service}

/-! ### Idempotency records -/

def KeepsCompleted (records records' : Records) : Prop :=
  ∀ key record, records key = some record → record.completed →
    ∃ record', records' key = some record' ∧ record'.completed

theorem KeepsCompleted.refl (records : Records) : KeepsCompleted records records :=
  fun _ record h hcompleted => ⟨record, h, hcompleted⟩

theorem KeepsCompleted.trans {r s t : Records} (hrs : KeepsCompleted r s) (hst : KeepsCompleted s t) :
    KeepsCompleted r t := by
  intro key record h hcompleted
  obtain ⟨record', h', hcompleted'⟩ := hrs key record h hcompleted
  exact hst key record' h' hcompleted'

theorem keepsCompleted_update {records : Records} {key : ℕ} {record : IdempotencyRecord}
    (h : ∀ old, records key = some old → old.completed → record.completed) :
    KeepsCompleted records (Function.update records key (some record)) := by
  intro k old hold hcompleted
  by_cases hk : k = key
  · subst hk
    exact ⟨record, by simp, h old hold hcompleted⟩
  · exact ⟨old, by simpa [hk] using hold, hcompleted⟩

variable {now : ℤ}

theorem reserveIdempotency_keeps {records records' : Records} {operation : Operation}
    {key digest : ℕ} {duplicate : Option Payload}
    (h : reserveIdempotency service records operation key digest now = some (duplicate, records')) :
    KeepsCompleted records records' := by
  rw [reserveIdempotency] at h
  cases hrecord : records key with
  | none =>
    simp only [hrecord, Option.some.injEq, Prod.mk.injEq] at h
    rw [← h.2]
    exact keepsCompleted_update fun old hold => by rw [hrecord] at hold; cases hold
  | some record =>
    simp only [hrecord] at h
    split_ifs at h with hconflict hcompleted hlease
    · obtain ⟨payload, -, hpayload⟩ := Option.map_eq_some_iff.mp h
      rw [← (Prod.mk.inj hpayload).2]
      exact KeepsCompleted.refl records
    · rw [← (Prod.mk.inj (Option.some.inj h)).2]
      refine keepsCompleted_update fun old hold hold' => ?_
      rw [hrecord] at hold
      exact absurd (Option.some.inj hold ▸ hold') hcompleted

theorem completeIdempotency_keeps {records records' : Records} {key : ℕ} {payload : Payload}
    (h : completeIdempotency records key payload = some records') :
    KeepsCompleted records records' ∧ ∃ record, records' key = some record ∧ record.completed := by
  obtain ⟨record, -, rfl⟩ := Option.map_eq_some_iff.mp h
  exact ⟨keepsCompleted_update fun _ _ _ => rfl, _, Function.update_self .., rfl⟩

theorem releaseIdempotency_keeps (records : Records) (key : ℕ) (now : ℤ) :
    KeepsCompleted records (releaseIdempotency records key now) := by
  unfold releaseIdempotency
  cases hrecord : records key with
  | none => exact KeepsCompleted.refl records
  | some record =>
    show KeepsCompleted records (if record.completed then records else _)
    split_ifs with hcompleted
    · exact KeepsCompleted.refl records
    · refine keepsCompleted_update fun old hold hold' => ?_
      rw [hrecord] at hold
      exact absurd (Option.some.inj hold ▸ hold') hcompleted

/-! ### What a transaction does to a challenge -/

/-- The row of a challenge before and after a transaction, in which the codes `news` were
presented. -/
inductive Evolves (service : Service) (w w' : World) (news : List Presented) (c : Challenge) :
    Challenge → Prop
  | same (hquiet : c.state = .pending → ∀ p ∈ news, p.row.challengeId ≠ c.challengeId) :
      Evolves service w w' news c c
  | expire (now : ℤ) (hstate : c.state.active) :
      Evolves service w w' news c { c with state := .expired, updatedAt := now }
  | reject (code : String) (now : ℤ) (hstate : c.state = .pending)
      (hwrong : codeMatches service c code = false) (hnews : news = [⟨c, code, now⟩]) :
      Evolves service w w' news c (rejectAttempt now c)
  | verify (code : String) (now : ℤ) (hstate : c.state = .pending) (hlive : now < c.expiresAt)
      (hright : codeMatches service c code) (hnews : news = [⟨c, code, now⟩]) :
      Evolves service w w' news c
        { c with state := .verified, verifiedAt := some now, updatedAt := now }
  | bind (registrationId : ℕ) (now : ℤ) (hstate : c.state = .verified)
      (hpurpose : c.purpose = .register)
      (hfree : c.registrationId = none ∨ c.registrationId = some registrationId)
      (hstored : ∃ r ∈ w'.db.registrations, r.registrationId = registrationId) :
      Evolves service w w' news c { c with registrationId := some registrationId, updatedAt := now }
  | consume (registrationId key accountId : ℕ) (now : ℤ)
      (hbound : c.registrationId = some registrationId)
      (hstate : c.state = .verified ∨ c.state = .consumed)
      (hkey : ∃ r ∈ w.db.registrations, r.registrationId = registrationId ∧ r.idempotencyKey = key)
      (hopen : ∀ record, w.db.records key = some record → record.completed = false)
      (hdone : ∃ record, w'.db.records key = some record ∧ record.completed) :
      Evolves service w w' news c (consumeFor accountId now c)
  | change (accountId : ℕ) (now : ℤ) (hstate : c.state = .verified)
      (haccount : c.accountId = some accountId) :
      Evolves service w w' news c
        { c with state := .consumed, consumedAt := some now, updatedAt := now }

variable {w w' : World}

theorem Evolves.fixed {news : List Presented} {c c' : Challenge}
    (h : Evolves service w w' news c c') :
    c'.challengeId = c.challengeId ∧ c'.channel = c.channel ∧ c'.purpose = c.purpose ∧
      c'.identifierDigest = c.identifierDigest ∧ c'.codeDigest = c.codeDigest ∧
      c'.maxAttempts = c.maxAttempts ∧ c'.createdAt = c.createdAt ∧ c'.lastSentAt = c.lastSentAt ∧
      c'.expiresAt = c.expiresAt := by
  cases h <;> exact ⟨rfl, rfl, rfl, rfl, rfl, rfl, rfl, rfl, rfl⟩

/-- One snapshot more at most, of a registration that is there or of a new one. -/
def Grows (registrations registrations' : List RegistrationSnapshot) : Prop :=
  registrations' = registrations ∨ ∃ snapshot, registrations' = registrations ++ [snapshot] ∧
    ((∃ r ∈ registrations, r.registrationId = snapshot.registrationId ∧
        r.idempotencyKey = snapshot.idempotencyKey) ∨
      snapshot.registrationVersion = 1 ∧
        (∀ r ∈ registrations, r.idempotencyKey ≠ snapshot.idempotencyKey) ∧
        ∀ r ∈ registrations, r.registrationId = snapshot.registrationId → r.registrationVersion ≠ 1)

variable {registrations registrations' : List RegistrationSnapshot}

theorem Grows.subset (h : Grows registrations registrations') : registrations ⊆ registrations' := by
  rcases h with rfl | ⟨snapshot, rfl, -⟩
  · exact List.Subset.refl _
  · exact List.subset_append_left _ _

theorem appendSnapshot_eq_some {snapshot : RegistrationSnapshot}
    (h : appendSnapshot registrations snapshot = some registrations') :
    registrations' = registrations ++ [snapshot] ∧
      ∀ r ∈ registrations, r.registrationId = snapshot.registrationId →
        r.registrationVersion ≠ snapshot.registrationVersion := by
  rw [appendSnapshot] at h
  split_ifs at h with hused
  refine ⟨(Option.some.inj h).symm, fun r hr hid hversion => hused ?_⟩
  exact List.any_eq_true.mpr ⟨r, hr, by simp [hid, hversion]⟩

theorem latestSnapshot_eq_some {registrations : List RegistrationSnapshot}
    {p : RegistrationSnapshot → Bool} {latest : RegistrationSnapshot}
    (h : latestSnapshot registrations p = some latest) : latest ∈ registrations ∧ p latest :=
  List.mem_filter.mp (List.mem_of_getLast? h)

theorem latestSnapshot_eq_none {registrations : List RegistrationSnapshot}
    {p : RegistrationSnapshot → Bool} (h : latestSnapshot registrations p = none) :
    ∀ r ∈ registrations, p r = false := by
  have hnil : registrations.filter p = [] := List.getLast?_eq_none_iff.mp h
  intro r hr
  simpa using List.filter_eq_nil_iff.mp hnil r hr

/-- What a transaction that sends no code does. -/
structure Kept (service : Service) (w w' : World) (news : List Presented) : Prop where
  rows : ∃ g : Challenge → Challenge, w'.db.challenges = w.db.challenges.map g ∧
    ∀ c ∈ w.db.challenges, Evolves service w w' news c (g c)
  records : KeepsCompleted w.db.records w'.db.records
  registrations : Grows w.db.registrations w'.db.registrations
  sent : w'.sent = w.sent
  presented : w'.presented = w.presented ++ news
  known : ∀ p ∈ news, p.row ∈ w.db.challenges

theorem Kept.of_same (hrows : w'.db.challenges = w.db.challenges)
    (hrecords : KeepsCompleted w.db.records w'.db.records)
    (hregistrations : Grows w.db.registrations w'.db.registrations) (hsent : w'.sent = w.sent)
    (hpresented : w'.presented = w.presented) : Kept service w w' [] where
  rows := by
    refine ⟨id, by rw [hrows, List.map_id], fun c _ => .same ?_⟩
    intro _ p hp
    cases hp
  records := hrecords
  registrations := hregistrations
  sent := hsent
  presented := by rw [hpresented, List.append_nil]
  known := List.forall_mem_nil _

theorem Kept.of_update {news : List Presented} {row : Challenge}
    {f : Challenge → Challenge} (hids : (w.db.challenges.map (·.challengeId)).Nodup)
    (hrow : row ∈ w.db.challenges)
    (hrows : w'.db.challenges = updateChallenge w.db.challenges row.challengeId f)
    (hevolves : Evolves service w w' news row (f row)) (hnews : ∀ p ∈ news, p.row = row)
    (hrecords : KeepsCompleted w.db.records w'.db.records)
    (hregistrations : Grows w.db.registrations w'.db.registrations) (hsent : w'.sent = w.sent)
    (hpresented : w'.presented = w.presented ++ news) : Kept service w w' news where
  rows := by
    refine ⟨fun c => if c.challengeId = row.challengeId then f c else c, hrows, ?_⟩
    intro c hc
    show Evolves service w w' news c (if c.challengeId = row.challengeId then f c else c)
    split_ifs with hid
    · obtain rfl := List.inj_on_of_nodup_map hids hc hrow hid
      exact hevolves
    · refine .same fun _ p hp => ?_
      rw [hnews p hp]
      exact Ne.symm hid
  records := hrecords
  registrations := hregistrations
  sent := hsent
  presented := hpresented
  known := fun p hp => by rw [hnews p hp]; exact hrow

/-! ### The transactions -/

theorem find_challenge {challenges : List Challenge} {p : Challenge → Bool} {row : Challenge}
    (h : challenges.find? p = some row) : row ∈ challenges ∧ p row :=
  ⟨List.mem_of_find?_eq_some h, List.find?_some h⟩

/-- What a request that sends a code does. -/
structure Issues (service : Service) (w w' : World) (s : Sent) : Prop where
  rows : w'.db.challenges =
    w.db.challenges ++ [newChallenge service s.key s.challengeId s.code s.sentAt]
  fresh : ∀ c ∈ w.db.challenges, c.challengeId ≠ s.challengeId
  free : (latestChallenge service w.db.challenges s.key).filter
    (fun c => inCooldown service c s.sentAt) = none
  allowed : s.key.allowed
  records : KeepsCompleted w.db.records w'.db.records
  registrations : w'.db.registrations = w.db.registrations
  sent : w'.sent = w.sent ++ [s]
  presented : w'.presented = w.presented

theorem step_request {key : ChallengeKey} {storageKey digest challengeId : ℕ}
    {code : String}
    (h : step service w (.requestChallenge key storageKey digest challengeId code now) = some w') :
    Kept service w w' [] ∨ Issues service w w' ⟨challengeId, key, code, now⟩ := by
  simp only [step] at h
  split_ifs at h with hallowed
  obtain ⟨⟨result, db⟩, hrequest, hw⟩ := Option.bind_eq_some_iff.mp h
  rw [← Option.some.inj hw]
  obtain ⟨⟨duplicate, records⟩, hreserve, hrequest⟩ := Option.bind_eq_some_iff.mp hrequest
  have hkeeps := reserveIdempotency_keeps hreserve
  cases duplicate with
  | some payload =>
    cases hrequest
    exact Or.inl (Kept.of_same rfl (KeepsCompleted.refl _) (Or.inl rfl) (List.append_nil _) rfl)
  | none =>
    cases hlatest : (latestChallenge service w.db.challenges key).filter
        fun c => inCooldown service c now with
    | some latest =>
      simp only [hlatest] at hrequest
      obtain ⟨records', hcomplete, hrequest⟩ := Option.bind_eq_some_iff.mp hrequest
      cases hrequest
      exact Or.inl (Kept.of_same rfl (hkeeps.trans (completeIdempotency_keeps hcomplete).1)
        (Or.inl rfl) (List.append_nil _) rfl)
    | none =>
      simp only [hlatest] at hrequest
      split_ifs at hrequest with hused
      obtain ⟨records', hcomplete, hrequest⟩ := Option.bind_eq_some_iff.mp hrequest
      cases hrequest
      right
      refine ⟨rfl, ?_, hlatest, hallowed, hkeeps.trans (completeIdempotency_keeps hcomplete).1,
        rfl, rfl, rfl⟩
      intro c hc hid
      exact hused (List.any_eq_true.mpr ⟨c, hc, by simpa using hid⟩)

theorem evolves_verifyRow (row : Challenge) (code : String) (now : ℤ) :
    Evolves service w w' [⟨row, code, now⟩] row (verifyRow service row code now).1 := by
  unfold verifyRow
  split_ifs with hexpired hstate hmatches
  · exact .expire now hexpired.2
  · exact .same fun hpending => absurd hpending hstate
  · exact .reject code now (not_not.mp hstate) hmatches rfl
  · have hstate : row.state = .pending := not_not.mp hstate
    refine .verify code now hstate ?_ (Bool.eq_true_of_not_eq_false hmatches) rfl
    by_contra hlate
    exact hexpired ⟨not_lt.mp hlate, by rw [hstate]; rfl⟩

theorem step_verify {challengeId storageKey digest : ℕ} {code : String}
    (hids : (w.db.challenges.map (·.challengeId)).Nodup)
    (h : step service w (.verifyChallenge challengeId code storageKey digest now) = some w') :
    ∃ news, Kept service w w' news := by
  obtain ⟨⟨looked, payload, db⟩, hverify, hw⟩ := Option.bind_eq_some_iff.mp h
  rw [← Option.some.inj hw]
  obtain ⟨⟨duplicate, records⟩, hreserve, hverify⟩ := Option.bind_eq_some_iff.mp hverify
  have hkeeps := reserveIdempotency_keeps hreserve
  cases duplicate with
  | some payload =>
    cases hverify
    exact ⟨[], Kept.of_same rfl (KeepsCompleted.refl _) (Or.inl rfl) rfl (by simp)⟩
  | none =>
    obtain ⟨records', hcomplete, hverify⟩ := Option.bind_eq_some_iff.mp hverify
    cases hverify
    have hrecords := hkeeps.trans (completeIdempotency_keeps hcomplete).1
    cases hfind : w.db.challenges.find? fun c => c.challengeId = challengeId with
    | none => exact ⟨[], Kept.of_same rfl hrecords (Or.inl rfl) rfl (by simp [hfind])⟩
    | some row =>
      obtain ⟨hrow, hid⟩ := find_challenge hfind
      have hid : row.challengeId = challengeId := by simpa using hid
      refine ⟨[⟨row, code, now⟩], Kept.of_update hids hrow (by rw [hid])
        (evolves_verifyRow row code now) ?_ hrecords (Or.inl rfl) rfl (by simp [hfind])⟩
      intro p hp
      rw [List.mem_singleton.mp hp]

theorem bindChallenge_kept {w : World} {db : Database} {records : Records} {channel : ContactChannel}
    {identifierDigest challengeId storageKey registrationId version : ℕ}
    (hids : (w.db.challenges.map (·.challengeId)).Nodup)
    (hrecords : KeepsCompleted w.db.records records)
    (hversion : (∃ r ∈ w.db.registrations, r.registrationId = registrationId ∧
        r.idempotencyKey = storageKey) ∨
      version = 1 ∧ ∀ r ∈ w.db.registrations, r.idempotencyKey ≠ storageKey)
    (h : bindChallenge ⟨w.db.challenges, w.db.registrations, w.db.accounts, records⟩ channel
      identifierDigest challengeId storageKey registrationId version now = some db) :
    Kept service w ⟨db, w.sent, w.presented⟩ [] := by
  obtain ⟨row, hfind, h⟩ := Option.bind_eq_some_iff.mp h
  obtain ⟨hrow, hid⟩ := find_challenge hfind
  have hid : row.challengeId = challengeId := by simpa using hid
  split_ifs at h with hvalid
  obtain ⟨registrations, happend, h⟩ := Option.bind_eq_some_iff.mp h
  obtain ⟨rfl, hunused⟩ := appendSnapshot_eq_some happend
  cases h
  simp only [registrationChallenge, Bool.not_eq_false, decide_eq_true_eq] at hvalid
  obtain ⟨-, hpurpose, -, hstate, -, hfree⟩ := hvalid
  refine Kept.of_update hids hrow (by rw [hid]) ?_ (List.forall_mem_nil _) hrecords ?_ rfl
    (List.append_nil _).symm
  · exact .bind registrationId now hstate hpurpose hfree
      ⟨_, List.mem_append_right _ (List.mem_singleton_self _), rfl⟩
  · refine Or.inr ⟨_, rfl, ?_⟩
    rcases hversion with hexists | ⟨rfl, hnew⟩
    · exact Or.inl hexists
    · exact Or.inr ⟨rfl, hnew, hunused⟩

theorem step_prepare {channel : ContactChannel}
    {identifierDigest challengeId storageKey digest freshId : ℕ}
    (hids : (w.db.challenges.map (·.challengeId)).Nodup)
    (h : step service w (.prepareRegistration channel identifierDigest challengeId storageKey digest
      freshId now) = some w') : Kept service w w' [] := by
  obtain ⟨db, hprepare, hw⟩ := Option.bind_eq_some_iff.mp h
  rw [← Option.some.inj hw]
  obtain ⟨⟨duplicate, records⟩, hreserve, hprepare⟩ := Option.bind_eq_some_iff.mp hprepare
  have hkeeps := reserveIdempotency_keeps hreserve
  cases duplicate with
  | some payload =>
    cases hprepare
    exact Kept.of_same rfl (KeepsCompleted.refl _) (Or.inl rfl) rfl rfl
  | none =>
    cases hlatest : latestSnapshot w.db.registrations fun r => r.idempotencyKey = storageKey with
    | none =>
      simp only [hlatest] at hprepare
      have hnew := latestSnapshot_eq_none hlatest
      refine bindChallenge_kept hids hkeeps (Or.inr ⟨rfl, ?_⟩) hprepare
      intro r hr
      simpa using hnew r hr
    | some latest =>
      simp only [hlatest] at hprepare
      obtain ⟨hmem, hkey⟩ := latestSnapshot_eq_some hlatest
      split_ifs at hprepare with hconflict hcompleted
      · obtain ⟨accountId, -, hprepare⟩ := Option.bind_eq_some_iff.mp hprepare
        obtain ⟨_, -, hprepare⟩ := Option.bind_eq_some_iff.mp hprepare
        obtain ⟨records', hcomplete, hprepare⟩ := Option.bind_eq_some_iff.mp hprepare
        cases hprepare
        exact Kept.of_same rfl (hkeeps.trans (completeIdempotency_keeps hcomplete).1) (Or.inl rfl)
          rfl rfl
      · exact bindChallenge_kept hids hkeeps
          (Or.inl ⟨latest, hmem, rfl, by simpa using hkey⟩) hprepare

theorem step_schedule {registrationId : ℕ}
    (h : step service w (.scheduleReconciliation registrationId) = some w') :
    Kept service w w' [] := by
  obtain ⟨db, hschedule, hw⟩ := Option.bind_eq_some_iff.mp h
  rw [← Option.some.inj hw]
  rw [scheduleReconciliation] at hschedule
  cases hlatest : latestSnapshot w.db.registrations fun r => r.registrationId = registrationId with
  | none =>
    simp only [hlatest] at hschedule
    cases hschedule
    exact Kept.of_same rfl (KeepsCompleted.refl _) (Or.inl rfl) rfl rfl
  | some latest =>
    simp only [hlatest] at hschedule
    split_ifs at hschedule with hcompleted
    · cases hschedule
      exact Kept.of_same rfl (KeepsCompleted.refl _) (Or.inl rfl) rfl rfl
    · obtain ⟨registrations, happend, hschedule⟩ := Option.bind_eq_some_iff.mp hschedule
      cases hschedule
      obtain ⟨hregistrations, -⟩ := appendSnapshot_eq_some happend
      refine Kept.of_same rfl (KeepsCompleted.refl _) (Or.inr ⟨_, hregistrations, Or.inl ?_⟩) rfl rfl
      exact ⟨latest, (latestSnapshot_eq_some hlatest).1, rfl, rfl⟩

theorem completeRegistration_grows
    {latest : RegistrationSnapshot} {accountId : ℕ} (hlatest : latest ∈ registrations)
    (h : completeRegistration registrations latest accountId = some registrations') :
    Grows registrations registrations' := by
  rw [completeRegistration] at h
  split_ifs at h with hcompleted
  · exact Or.inl (Option.some.inj h).symm
  · obtain ⟨hregistrations, -⟩ := appendSnapshot_eq_some h
    exact Or.inr ⟨_, hregistrations, Or.inl ⟨latest, hlatest, rfl, rfl⟩⟩

theorem step_finalize {registrationId challengeId storageKey digest : ℕ}
    {oidcSubject freshId : ℕ} (hids : (w.db.challenges.map (·.challengeId)).Nodup)
    (h : step service w (.finalizeRegistration registrationId challengeId storageKey digest
      oidcSubject freshId now) = some w') : Kept service w w' [] := by
  obtain ⟨db, hfinalize, hw⟩ := Option.bind_eq_some_iff.mp h
  rw [← Option.some.inj hw]
  rw [finalizeRegistration] at hfinalize
  split_ifs at hfinalize with hforeign
  have hkey : ∃ r ∈ w.db.registrations, r.registrationId = registrationId ∧
      r.idempotencyKey = storageKey := by
    rw [List.all_eq_true] at hforeign
    push Not at hforeign
    obtain ⟨r, hr, hmatch⟩ := hforeign
    exact ⟨r, hr, by simpa using hmatch⟩
  obtain ⟨record, hrecord, hfinalize⟩ := Option.bind_eq_some_iff.mp hfinalize
  split_ifs at hfinalize with hdigest hcompleted
  · cases hfinalize
    exact Kept.of_same rfl (KeepsCompleted.refl _) (Or.inl rfl) rfl rfl
  · obtain ⟨latest, hlatest, hfinalize⟩ := Option.bind_eq_some_iff.mp hfinalize
    obtain ⟨⟨accountId, accounts⟩, -, hfinalize⟩ := Option.bind_eq_some_iff.mp hfinalize
    obtain ⟨row, hfind, hfinalize⟩ := Option.bind_eq_some_iff.mp hfinalize
    split_ifs at hfinalize with hstate
    obtain ⟨registrations, hregistrations, hfinalize⟩ := Option.bind_eq_some_iff.mp hfinalize
    obtain ⟨records, hrecords, hfinalize⟩ := Option.bind_eq_some_iff.mp hfinalize
    cases hfinalize
    obtain ⟨hrow, hid⟩ := find_challenge hfind
    simp only [decide_eq_true_eq] at hid
    obtain ⟨hkeeps, hdone⟩ := completeIdempotency_keeps hrecords
    refine Kept.of_update hids hrow (by rw [hid.1]) ?_ (List.forall_mem_nil _) hkeeps
      (completeRegistration_grows (latestSnapshot_eq_some hlatest).1 hregistrations) rfl
      (List.append_nil _).symm
    refine .consume registrationId storageKey accountId now hid.2 ?_ hkey ?_ hdone
    · by_contra hneither
      exact hstate (not_or.mp hneither)
    · intro record' hrecord'
      rw [hrecord] at hrecord'
      rw [← Option.some.inj hrecord']
      exact Bool.eq_false_iff.mpr hcompleted

theorem step_change {accountId challengeId : ℕ}
    (hids : (w.db.challenges.map (·.challengeId)).Nodup)
    (h : step service w (.commitContactChange accountId challengeId now) = some w') :
    Kept service w w' [] := by
  obtain ⟨db, hchange, hw⟩ := Option.bind_eq_some_iff.mp h
  rw [← Option.some.inj hw]
  obtain ⟨row, hfind, hchange⟩ := Option.bind_eq_some_iff.mp hchange
  split_ifs at hchange with hexpired
  cases hchange
  obtain ⟨hrow, hid⟩ := find_challenge hfind
  simp only [decide_eq_true_eq] at hid
  exact Kept.of_update hids hrow (by rw [hid.1]) (.change accountId now hid.2.2 hid.2.1)
    (List.forall_mem_nil _)
    (KeepsCompleted.refl _) (Or.inl rfl) rfl (List.append_nil _).symm

theorem step_cases {t : Transaction}
    (hids : (w.db.challenges.map (·.challengeId)).Nodup) (h : step service w t = some w') :
    (∃ news, Kept service w w' news) ∨ ∃ s, Issues service w w' s := by
  cases t with
  | requestChallenge key storageKey digest challengeId code now =>
    exact (step_request h).imp (fun hkept => ⟨[], hkept⟩) fun hissues => ⟨_, hissues⟩
  | verifyChallenge challengeId code storageKey digest now => exact Or.inl (step_verify hids h)
  | prepareRegistration channel identifierDigest challengeId storageKey digest freshId now =>
    exact Or.inl ⟨[], step_prepare hids h⟩
  | finalizeRegistration registrationId challengeId storageKey digest oidcSubject freshId now =>
    exact Or.inl ⟨[], step_finalize hids h⟩
  | scheduleReconciliation registrationId => exact Or.inl ⟨[], step_schedule h⟩
  | commitContactChange accountId challengeId now => exact Or.inl ⟨[], step_change hids h⟩
  | releaseIdempotency storageKey now =>
    cases h
    exact Or.inl ⟨[], Kept.of_same rfl (releaseIdempotency_keeps _ _ _) (Or.inl rfl) rfl rfl⟩

end CyberControl.VerificationChallenges
