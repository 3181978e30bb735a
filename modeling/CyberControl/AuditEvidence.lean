import CyberControl.AuditJournal

/-! # Evidence of tampering

Equal last hashes of two chains of one length mean equal records. -/

namespace CyberControl.Audit

open Python

variable {Uuid Time : Type}

theorem jsonl_append_extends {py : Platform Uuid Time} (store : JsonlAuditStore Uuid Time) (call : Call py) :
    Extends py store.records (store.append py call).2.records (store.append py call).1 := by
  have h := append_extends store.records call.draft call.eventId
  unfold append at h
  unfold JsonlAuditStore.append
  dsimp only at h ⊢
  cases hbuild : buildAuditRecord py call.draft call.eventId _ _ with
  | error e =>
    rw [hbuild] at h
    exact h
  | ok record =>
    rw [hbuild] at h
    cases call.fault with
    | none => exact h
    | some n => exact fun _ => ⟨(List.append_nil _).symm, id⟩

/-- **The audit chain is evidence.**  After any calls of `append`, on a store in memory or on a file
that opened, the records of every tenant are those before and those that the calls returned, and they
verify; and where the record hash is injective on canonical documents, two lists of one length that verify
and end in one hash have the same fields. -/
theorem chains_evident (py : Platform Uuid Time) (hfree : CollisionFree py) :
    (∀ calls tenantId,
      appends py (fun _ => []) calls tenantId
        = answers (fun records call => append py records call.1 call.2) tenantId (fun _ => []) calls ∧
      verifyAuditChain py (appends py (fun _ => []) calls tenantId) = .ok true) ∧
      (∀ file store calls tenantId, JsonlAuditStore.load py file = .ok store →
        (store.appends py calls).records tenantId
          = store.records tenantId ++ answers (JsonlAuditStore.append py) tenantId store calls ∧
        verifyAuditChain py ((store.appends py calls).records tenantId) = .ok true) ∧
      ∀ l l' : List (AuditRecord Uuid Time), l.length = l'.length →
        verifyAuditChain py l = .ok true → verifyAuditChain py l' = .ok true →
        lastHash l = lastHash l' → List.Forall₂ (SameFields py) l l' := by
  refine ⟨fun calls tenantId => ?_, fun file store calls tenantId hload => ?_, ?_⟩
  · obtain ⟨hrecords, hverify⟩ := @foldl_extends _ _ py _ _ _ id (fun records call =>
      append_extends records call.1 call.2) (fun _ => []) calls tenantId
    exact ⟨hrecords, hverify rfl⟩
  · obtain ⟨log, -, hverified, rfl⟩ := load_eq_ok.mp hload
    obtain ⟨hrecords, hverify⟩ := foldl_extends jsonl_append_extends _ calls tenantId
    exact ⟨hrecords, hverify (hverified tenantId)⟩
  · exact fun l l' hlength h h' hlast => same_of_last_hash hfree hlength h h' hlast

/-! ### Two records with one hash -/

/-- The canonical document of a record. -/
def sampleDocument : Json :=
  .object
    [("action", .string "login"), ("actor_ref", .string "user:1"), ("category", .string "auth"),
      ("envelope_id", .null), ("event_id", .string "3f2504e0-4f89-41d3-9a0c-0305e82c3301"),
      ("metadata", .object [("roles", .array [.string "a"])]),
      ("occurred_at", .string "2026-01-01T00:00:00+00:00"), ("outcome", .string "success"),
      ("previous_hash", .string GENESIS_HASH), ("sequence", .number (Json.intText 0)),
      ("target_ref", .null), ("tenant_id", .string "t1"), ("trace_id", .null)]

/-- The digest of that document, and a text of its own for every other one. -/
def sampleDigest (s : String) : String :=
  if s = String.ofList sampleDocument.encode then
    "b83d75f3e18f9ca27dd0d3c05e17c9f791bcc3aa690be4d4fdf39a87d2739c90"
  else String.ofList ('x' :: s.toList)

theorem sampleDigest_inj {s s' : String} (h : sampleDigest s = sampleDigest s') : s = s' := by
  have hother : ∀ t : String,
      "b83d75f3e18f9ca27dd0d3c05e17c9f791bcc3aa690be4d4fdf39a87d2739c90" ≠
        String.ofList ('x' :: t.toList) := by
    intro t heq
    have hlist := (congrArg String.toList heq).trans String.toList_ofList
    have hhead := congrArg List.head? hlist
    exact absurd hhead (by rw [List.head?_cons]; decide)
  unfold sampleDigest at h
  split_ifs at h with hs hs' hs'
  · rw [hs, hs']
  · exact absurd h (hother s')
  · exact absurd h.symm (hother s)
  · have htail := congrArg String.toList h
    rw [String.toList_ofList, String.toList_ofList, List.cons.injEq] at htail
    exact String.toList_inj.mp htail.2

/-- A platform whose digests are distinct. -/
def samplePlatform : Platform AsciiText AsciiText :=
  { (sampleLibrary readableDigest).toPlatform with sha256 := sampleDigest }

theorem sha256_sample (s : String) : samplePlatform.sha256 s = sampleDigest s := by
  simp only [samplePlatform]

def sampleRecord (roles : Value) : AuditRecord AsciiText AsciiText where
  eventId := sampleId
  tenantId := "t1"
  sequence := 0
  category := "auth"
  action := "login"
  outcome := "success"
  actorRef := "user:1"
  targetRef := none
  traceId := none
  envelopeId := none
  metadata := [(.str "roles", roles)]
  occurredAt := sampleTime
  previousHash := GENESIS_HASH
  eventHash := "b83d75f3e18f9ca27dd0d3c05e17c9f791bcc3aa690be4d4fdf39a87d2739c90"

theorem chains_evident_sample :
    (∀ calls tenantId,
      verifyAuditChain samplePlatform (appends samplePlatform (fun _ => []) calls tenantId) =
        .ok true) ∧
      SameFields samplePlatform (sampleRecord (.list [.str "a"]))
        (sampleRecord (.tuple [.str "a"])) := by
  have hfree : CollisionFree samplePlatform := by
    intro d d' hd hd' h
    rw [sha256_sample, sha256_sample] at h
    have htext := String.ofList_inj.mp (sampleDigest_inj h)
    have hdecode := Json.decode_encode hd
    rw [htext, Json.decode_encode hd'] at hdecode
    exact (Option.some.inj hdecode).symm
  obtain ⟨hmemory, -, hsame⟩ := chains_evident samplePlatform hfree
  have hverify : ∀ roles, (Value.dict ((sampleRecord roles).hashed samplePlatform)).canonical
      samplePlatform.numberValue = some sampleDocument →
      verifyAuditChain samplePlatform [sampleRecord roles] = .ok true := by
    intro roles hdocument
    refine (@verify_concat _ _ samplePlatform (sampleRecord roles) []).mpr ⟨rfl, rfl, rfl, ?_⟩
    rw [recordHash, hdocument]
    dsimp only
    rw [sha256_sample, sampleDigest, if_pos rfl]
    rfl
  have hchains := hsame [sampleRecord (.list [.str "a"])] [sampleRecord (.tuple [.str "a"])] rfl
    (hverify _ rfl) (hverify _ rfl) rfl
  refine ⟨fun calls tenantId => (hmemory calls tenantId).2, ?_⟩
  rw [List.forall₂_cons] at hchains
  exact hchains.1

end CyberControl.Audit
