import Mathlib.Data.List.Forall2

/-! # Errors

`LiyanError` with its code, safe message, category, retriability and HTTP status
(`core/errors.py`), restricted to the codes and categories the modelled functions use, and
`Exn`, the exceptions that the modelled functions raise or let through. -/

namespace CyberControl

inductive ErrorCategory where
  | CONTRACT
  | AUTH
  | TENANT
  | MESSAGING
  | DATABASE
  | TIMEOUT
  | RATE_LIMIT
  | CIRCUIT
  | TASK
  | INTERNAL
deriving DecidableEq, Repr

inductive ErrorCode where
  | AUTH_FORBIDDEN
  | MESSAGE_DUPLICATE_CONFLICT
  | MESSAGE_SEQUENCE_GAP
  | MESSAGE_SEQUENCE_STALE
  | MESSAGE_HANDLER_MISSING
  | MESSAGE_EXPIRED
  | MESSAGE_BUFFER_FULL
  | SSE_FRAGMENT_CONFLICT
  | SSE_STREAM_CLOSED
  | SSE_REPLAY_CURSOR_INVALID
  | SSE_EVENT_INVALID
  | SSE_EVENT_INTEGRITY_FAILED
  | DATABASE_TRANSACTION_STATE
  | TASK_HANDLER_MISSING
  | TASK_QUEUE_CLOSED
  | TASK_FAILED
  | TIMEOUT
  | RATE_LIMITED
  | CIRCUIT_OPEN
  | CONTRACT_INVALID
  | TOPIC2_CONFLICT
  | TOPIC2_BATCH_LIMIT
  | TOPIC2_VERSION_CONFLICT
  | TENANT_MISMATCH
  | TOPIC1_NOT_FOUND
  | TOPIC1_CONFLICT
  | TOPIC1_CYCLE
  | TOPIC1_IMPORT_LIMIT
  | TOPIC4_NOT_FOUND
  | TOPIC4_CONFLICT
  | TOPIC4_VERSION_CONFLICT
  | TOPIC4_STATE_TRANSITION_INVALID
  | TOPIC4_INTEGRITY_FAILED
  | TOPIC4_DEADLINE_EXPIRED
  | INTERNAL
deriving DecidableEq, Repr

structure LiyanError where
  code : ErrorCode
  safeMessage : String
  category : ErrorCategory
  retriable : Bool := false
  statusCode : ℕ := 500
deriving DecidableEq

/-- `MessageSequenceError(code, safe_message)`. -/
def MessageSequenceError (code : ErrorCode) (safeMessage : String) : LiyanError :=
  { code, safeMessage, category := .MESSAGING, statusCode := 409 }

/-- `MessageConflictError(code, safe_message)`. -/
def MessageConflictError (code : ErrorCode) (safeMessage : String) : LiyanError :=
  { code, safeMessage, category := .MESSAGING, statusCode := 409 }

/-- An exception: a `LiyanError`, a built-in one with its text, the `ValidationError` of a contract with
the places it names, or `other` for whatever the code outside the model (handlers, drivers) raises. -/
inductive Exn where
  | liyan (e : LiyanError)
  | valueError (text : String)
  | validationError (places : List String)
  | runtimeError (text : String)
  | other (name : String)
deriving DecidableEq

/-- `if not condition: raise error`. -/
def ensure (condition : Prop) [Decidable condition] (error : Exn) : Except Exn Unit :=
  if condition then .ok () else .error error

/-! ### Computations that return -/

theorem ite_eq_ok {ε : Type} {condition : Prop} [Decidable condition] {error : ε} :
    (if condition then .ok () else .error error : Except ε Unit) = .ok () ↔ condition := by
  split_ifs with h
  · exact ⟨fun _ => h, fun _ => rfl⟩
  · exact ⟨nofun, fun h' => absurd h' h⟩

theorem ensure_eq_ok {condition : Prop} [Decidable condition] {error : Exn} :
    ensure condition error = .ok () ↔ condition :=
  ite_eq_ok

variable {ε α β : Type} {f : α → Except ε β}

theorem bind_eq_ok {x : Except ε α} {b : β} :
    x >>= f = .ok b ↔ ∃ a, x = .ok a ∧ f a = .ok b := by
  cases x with
  | error e => simp [bind, Except.bind]
  | ok a => simp [bind, Except.bind]

theorem unit_bind_eq_ok {ε α : Type} {x : Except ε Unit} {f : Unit → Except ε α} {a : α} :
    x >>= f = .ok a ↔ x = .ok () ∧ f () = .ok a := by
  rw [bind_eq_ok]
  exact ⟨fun ⟨_, hx, h⟩ => ⟨hx, h⟩, fun ⟨hx, h⟩ => ⟨(), hx, h⟩⟩

theorem eq_ok_of_toOption {ε α : Type} {x : Except ε α} {a : α} (h : x.toOption = some a) : x = .ok a := by
  cases x with
  | error e => cases h
  | ok b =>
    cases h
    rfl

theorem mapM_eq_ok {l : List α} {r : List β} :
    l.mapM f = .ok r ↔ List.Forall₂ (fun a b => f a = .ok b) l r := by
  induction l generalizing r with
  | nil =>
    rw [List.mapM_nil, List.forall₂_nil_left_iff]
    exact ⟨fun h => (Except.ok.inj h).symm, fun h => h ▸ rfl⟩
  | cons a l ih =>
    rw [List.mapM_cons, bind_eq_ok, List.forall₂_cons_left_iff]
    constructor
    · rintro ⟨b, hb, h⟩
      obtain ⟨r', hr', h⟩ := bind_eq_ok.mp h
      exact ⟨b, r', hb, ih.mp hr', (Except.ok.inj h).symm⟩
    · rintro ⟨b, r', hb, hr', rfl⟩
      exact ⟨b, hb, bind_eq_ok.mpr ⟨r', ih.mpr hr', rfl⟩⟩

theorem exists_of_mem_right {α β : Type} {R : α → β → Prop} {l : List α} {r : List β}
    (h : List.Forall₂ R l r) {b : β} (hb : b ∈ r) : ∃ a ∈ l, R a b := by
  induction h with
  | nil => cases hb
  | @cons a b' l r hab _ ih =>
    rcases List.mem_cons.mp hb with rfl | hb
    · exact ⟨a, List.mem_cons_self, hab⟩
    · obtain ⟨a', ha', hab'⟩ := ih hb
      exact ⟨a', List.mem_cons_of_mem a ha', hab'⟩

theorem exists_of_mem_left {α β : Type} {R : α → β → Prop} {l : List α} {r : List β}
    (h : List.Forall₂ R l r) {a : α} (ha : a ∈ l) : ∃ b ∈ r, R a b :=
  exists_of_mem_right h.flip ha

theorem forall₂_imp_of_mem {α β : Type} {R S : α → β → Prop} {l : List α} {r : List β}
    (h : List.Forall₂ R l r) (himp : ∀ a ∈ l, ∀ b ∈ r, R a b → S a b) : List.Forall₂ S l r := by
  induction h with
  | nil => exact .nil
  | cons hab _ ih =>
    refine .cons (himp _ List.mem_cons_self _ List.mem_cons_self hab) (ih fun a ha b hb => ?_)
    exact himp a (List.mem_cons_of_mem _ ha) b (List.mem_cons_of_mem _ hb)

theorem mapM_of_ok {g : α → β} {l : List α}
    (h : ∀ a ∈ l, f a = .ok (g a)) : l.mapM f = .ok (l.map g) := by
  induction l with
  | nil => rfl
  | cons a l ih =>
    rw [List.mapM_cons, h a (by simp), ih fun b hb => h b (by simp [hb])]
    rfl

theorem exists_mapM_forall₂ {P : α → β → Prop} {l : List α}
    (h : ∀ a ∈ l, ∃ b, f a = .ok b ∧ P a b) :
    ∃ r, l.mapM f = .ok r ∧ List.Forall₂ (fun a b => f a = .ok b ∧ P a b) l r := by
  induction l with
  | nil => exact ⟨[], rfl, .nil⟩
  | cons a l ih =>
    obtain ⟨b, hb, hp⟩ := h a (by simp)
    obtain ⟨r, hr, hforall⟩ := ih fun c hc => h c (by simp [hc])
    refine ⟨b :: r, ?_, .cons ⟨hb, hp⟩ hforall⟩
    rw [List.mapM_cons, hb, hr]
    rfl

theorem exists_mapM_eq_ok {l : List α}
    (h : ∀ a ∈ l, ∃ b, f a = .ok b) : ∃ r, l.mapM f = .ok r := by
  obtain ⟨r, hr, -⟩ := exists_mapM_forall₂ fun a ha =>
    (h a ha).imp fun b hb => And.intro hb trivial
  exact ⟨r, hr⟩

theorem mapM_ok {g : α → β} {l : List α} {r : List β}
    (h : ∀ a ∈ l, ∀ b, f a = .ok b → b = g a) (hr : l.mapM f = .ok r) : r = l.map g := by
  induction l generalizing r with
  | nil =>
    cases hr
    rfl
  | cons a l ih =>
    rw [List.mapM_cons] at hr
    obtain ⟨b, hb, hr⟩ := bind_eq_ok.mp hr
    obtain ⟨r', hr', hr⟩ := bind_eq_ok.mp hr
    cases hr
    rw [List.map_cons, h a (by simp) b hb, ih (fun c hc => h c (by simp [hc])) hr']

theorem forM_eq_ok {ε α : Type} {f : α → Except ε Unit} {l : List α} :
    l.forM f = .ok () ↔ ∀ a ∈ l, f a = .ok () := by
  induction l with
  | nil => exact ⟨fun _ => by simp, fun _ => rfl⟩
  | cons a l ih =>
    change (f a >>= fun _ => l.forM f) = .ok () ↔ _
    rw [bind_eq_ok, List.forall_mem_cons, ← ih]
    exact ⟨fun ⟨_, ha, hl⟩ => ⟨ha, hl⟩, fun ⟨ha, hl⟩ => ⟨(), ha, hl⟩⟩

end CyberControl
