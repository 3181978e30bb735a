import Mathlib.Algebra.Order.Field.Rat
import Mathlib.Tactic.Linarith
import Mathlib.Tactic.Ring
import Mathlib.Tactic.FieldSimp
import CyberControl.Transition

/-! # A token bucket limits a rate

`TokenBucketRateLimiter` of `infrastructure/resilience.py` over exact rationals.  `acquire` runs under the lock of
the limiter, so a call is one action with its amount and its clock reading; a run is a list of calls whose amounts
are positive and whose clock does not go back (`step`). -/

namespace CyberControl.TokenBucket

open Transition

/-- The parameters of a limiter, as `__init__` accepts them. -/
structure Config where
  capacity : ℚ
  refillRatePerSecond : ℚ
  capacity_pos : 0 < capacity
  rate_pos : 0 < refillRatePerSecond

/-- `_tokens` and `_updated_at`. -/
structure TokenBucketRateLimiter where
  tokens : ℚ
  updatedAt : ℚ
deriving DecidableEq

/-- `__init__`: the parameters it accepts, with the full bucket, or its `ValueError`. -/
def new (capacity refillRatePerSecond now : ℚ) : Except String (Config × TokenBucketRateLimiter) :=
  if h : capacity ≤ 0 ∨ refillRatePerSecond ≤ 0 then
    .error "capacity and refill_rate_per_second must be positive"
  else
    .ok (⟨capacity, refillRatePerSecond, not_le.mp fun hc => h (.inl hc), not_le.mp fun hr => h (.inr hr)⟩,
      ⟨capacity, now⟩)

/-- The tokens after the refill at time `now`. -/
def level (c : Config) (b : TokenBucketRateLimiter) (now : ℚ) : ℚ :=
  min c.capacity (b.tokens + (now - b.updatedAt) * c.refillRatePerSecond)

/-- A call of `acquire` with the clock reading it makes. -/
structure Call where
  amount : ℚ
  now : ℚ

/-- What `acquire` leaves, and `retry_after` of its `RateLimitExceeded` if it raises. -/
def acquire (c : Config) (b : TokenBucketRateLimiter) (call : Call) : TokenBucketRateLimiter × Option ℚ :=
  let tokens := level c b call.now
  if call.amount ≤ tokens then (⟨tokens - call.amount, call.now⟩, none)
  else (⟨tokens, call.now⟩, some ((call.amount - tokens) / c.refillRatePerSecond))

/-- A call with a positive amount, not before the last clock reading. -/
def step (c : Config) (b : TokenBucketRateLimiter) (call : Call) : Option TokenBucketRateLimiter :=
  if 0 < call.amount ∧ b.updatedAt ≤ call.now then some (acquire c b call).1 else none

/-- How the calls of a list are answered, one after the other. -/
def answers (c : Config) : TokenBucketRateLimiter → List Call → List (Option ℚ)
  | _, [] => []
  | b, call :: calls => (acquire c b call).2 :: answers c (acquire c b call).1 calls

/-- The amount of the calls that are admitted between two times. -/
def admitted (c : Config) (start finish : ℚ) : TokenBucketRateLimiter → List Call → ℚ
  | _, [] => 0
  | b, call :: calls =>
    (if (acquire c b call).2 = none ∧ start ≤ call.now ∧ call.now ≤ finish then call.amount else 0) +
      admitted c start finish (acquire c b call).1 calls

/-! ### One call -/

variable {c : Config} {b b' : TokenBucketRateLimiter} {call : Call} {calls : List Call}

theorem step_eq_some : step c b call = some b' ↔
    (0 < call.amount ∧ b.updatedAt ≤ call.now) ∧ (acquire c b call).1 = b' :=
  guarded_eq_some

theorem acquire_cases (c : Config) (b : TokenBucketRateLimiter) (call : Call) :
    (call.amount ≤ level c b call.now ∧
        acquire c b call = (⟨level c b call.now - call.amount, call.now⟩, none)) ∨
      (level c b call.now < call.amount ∧ acquire c b call =
        (⟨level c b call.now, call.now⟩, some ((call.amount - level c b call.now) / c.refillRatePerSecond))) := by
  by_cases henough : call.amount ≤ level c b call.now
  · exact .inl ⟨henough, if_pos henough⟩
  · exact .inr ⟨not_le.mp henough, if_neg henough⟩

@[simp] theorem acquire_updatedAt : (acquire c b call).1.updatedAt = call.now := by
  rcases acquire_cases c b call with ⟨-, h⟩ | ⟨-, h⟩
  · rw [h]
  · rw [h]

/-- The bucket holds between nothing and its capacity. -/
def Bounded (c : Config) (b : TokenBucketRateLimiter) : Prop :=
  0 ≤ b.tokens ∧ b.tokens ≤ c.capacity

theorem level_le (c : Config) (b : TokenBucketRateLimiter) (now : ℚ) : level c b now ≤ c.capacity :=
  min_le_left _ _

theorem level_nonneg (hb : Bounded c b) {now : ℚ} (hnow : b.updatedAt ≤ now) : 0 ≤ level c b now := by
  have hrefill := mul_nonneg (sub_nonneg.mpr hnow) c.rate_pos.le
  exact le_min c.capacity_pos.le (add_nonneg hb.1 hrefill)

theorem Bounded.acquire (hb : Bounded c b) (hamount : 0 < call.amount) (hclock : b.updatedAt ≤ call.now) :
    Bounded c (acquire c b call).1 := by
  have hle := level_le c b call.now
  have hnonneg := level_nonneg hb hclock
  rcases acquire_cases c b call with ⟨henough, h⟩ | ⟨-, h⟩
  · rw [h]
    exact ⟨by linarith, by linarith⟩
  · rw [h]
    exact ⟨hnonneg, hle⟩

theorem bounded_run (hb : Bounded c b) (h : run (step c) b calls = some b') : Bounded c b' := by
  refine run_invariant (fun b call b' hb hstep => ?_) hb h
  obtain ⟨⟨hamount, hclock⟩, rfl⟩ := step_eq_some.mp hstep
  exact hb.acquire hamount hclock

theorem updatedAt_le (h : run (step c) b calls = some b') :
    b.updatedAt ≤ b'.updatedAt ∧ ∀ call ∈ calls, b.updatedAt ≤ call.now := by
  induction calls generalizing b with
  | nil =>
    cases h
    simp
  | cons call calls ih =>
    obtain ⟨t, ht, hrest⟩ := run_cons_eq_some.mp h
    obtain ⟨⟨-, hclock⟩, rfl⟩ := step_eq_some.mp ht
    obtain ⟨hlast, hall⟩ := ih hrest
    simp only [acquire_updatedAt] at hlast hall
    refine ⟨hclock.trans hlast, List.forall_mem_cons.mpr ⟨hclock, fun later hlater => ?_⟩⟩
    exact hclock.trans (hall later hlater)

/-! ### Windows -/

theorem counted_add_tokens_le (hamount : 0 < call.amount) (counted : Prop) [Decidable counted] :
    (if (acquire c b call).2 = none ∧ counted then call.amount else 0) + (acquire c b call).1.tokens ≤
      level c b call.now := by
  rcases acquire_cases c b call with ⟨-, h⟩ | ⟨-, h⟩
  · rw [h]
    split_ifs <;> linarith
  · simp [h]

variable {start finish : ℚ}

theorem refill_nonneg (c : Config) {earlier later : ℚ} (h : earlier ≤ later) :
    0 ≤ c.refillRatePerSecond * (later - earlier) :=
  mul_nonneg c.rate_pos.le (sub_nonneg.mpr h)

theorem admitted_of_late (h : run (step c) b (call :: calls) = some b') (hlate : finish < call.now) :
    admitted c start finish b (call :: calls) = 0 := by
  induction calls generalizing b call with
  | nil => simp [admitted, not_le.mpr hlate]
  | cons next calls ih =>
    obtain ⟨t, ht, hrest⟩ := run_cons_eq_some.mp h
    obtain ⟨-, rfl⟩ := step_eq_some.mp ht
    have hnext := (updatedAt_le hrest).2 next List.mem_cons_self
    rw [acquire_updatedAt] at hnext
    rw [admitted, ih hrest (hlate.trans_le hnext)]
    simp [not_le.mpr hlate]

/-- **The potential argument**: what is admitted until the end of a window was in the bucket, or has flowed in. -/
theorem admitted_le (hb : Bounded c b) (h : run (step c) b calls = some b') (hupdated : b.updatedAt ≤ finish) :
    admitted c start finish b calls ≤ b.tokens + c.refillRatePerSecond * (finish - b.updatedAt) := by
  induction calls generalizing b with
  | nil => exact add_nonneg hb.1 (refill_nonneg c hupdated)
  | cons call calls ih =>
    rcases lt_or_ge finish call.now with hlate | hbefore
    · rw [admitted_of_late h hlate]
      exact add_nonneg hb.1 (refill_nonneg c hupdated)
    · obtain ⟨t, ht, hrest⟩ := run_cons_eq_some.mp h
      obtain ⟨⟨hamount, hclock⟩, rfl⟩ := step_eq_some.mp ht
      have htail := ih (hb.acquire hamount hclock) hrest (by rwa [acquire_updatedAt])
      have hcounted := counted_add_tokens_le (c := c) (b := b) hamount (start ≤ call.now ∧ call.now ≤ finish)
      have hlevel : level c b call.now ≤ b.tokens + (call.now - b.updatedAt) * c.refillRatePerSecond :=
        min_le_right _ _
      rw [acquire_updatedAt] at htail
      rw [admitted]
      linarith

/-- No window sees more than a full bucket and its refill: the bucket is at most full at its first call. -/
theorem admitted_window (hb : Bounded c b) (h : run (step c) b calls = some b') (hwindow : start ≤ finish) :
    admitted c start finish b calls ≤ c.capacity + c.refillRatePerSecond * (finish - start) := by
  have hroom := add_nonneg c.capacity_pos.le (refill_nonneg c hwindow)
  induction calls generalizing b with
  | nil => exact hroom
  | cons call calls ih =>
    rcases lt_or_ge finish call.now with hlate | hbefore
    · exact (admitted_of_late h hlate).trans_le hroom
    obtain ⟨t, ht, hrest⟩ := run_cons_eq_some.mp h
    obtain ⟨⟨hamount, hclock⟩, rfl⟩ := step_eq_some.mp ht
    have hb' := hb.acquire hamount hclock
    rcases lt_or_ge call.now start with hearly | hin
    · simpa [admitted, not_le.mpr hearly] using ih hb' hrest
    · have hupdated : (acquire c b call).1.updatedAt ≤ finish := by rwa [acquire_updatedAt]
      have htail : admitted c start finish (acquire c b call).1 calls ≤ _ := admitted_le hb' hrest hupdated
      have hcounted := counted_add_tokens_le (c := c) (b := b) hamount (start ≤ call.now ∧ call.now ≤ finish)
      have hlevel := level_le c b call.now
      have hless := mul_le_mul_of_nonneg_left (sub_le_sub_left hin finish) c.rate_pos.le
      rw [acquire_updatedAt] at htail
      rw [admitted]
      linarith

/-! ### Rejected calls -/

/-- **A rejected call leaves the level as it was**, at every later time: what was lost at the brim stays lost. -/
theorem level_of_rejected (h : (acquire c b call).2 ≠ none) {later : ℚ} (hlater : call.now ≤ later) :
    level c (acquire c b call).1 later = level c b later := by
  rcases acquire_cases c b call with ⟨-, heq⟩ | ⟨-, heq⟩
  · exact absurd (by rw [heq]) h
  have hrefill : 0 ≤ (later - call.now) * c.refillRatePerSecond :=
    mul_nonneg (sub_nonneg.mpr hlater) c.rate_pos.le
  have hsplit : b.tokens + (later - b.updatedAt) * c.refillRatePerSecond =
      b.tokens + (call.now - b.updatedAt) * c.refillRatePerSecond + (later - call.now) * c.refillRatePerSecond := by
    ring
  rw [heq]
  unfold level
  dsimp only
  rw [hsplit, ← min_add_add_right, ← min_assoc, min_eq_left (le_add_of_nonneg_right hrefill)]

/-- Two buckets with the same level at the time of the next call answer the calls from it on alike. -/
theorem answers_of_level {b₁ b₂ : TokenBucketRateLimiter}
    (h : ∀ call ∈ calls.head?, level c b₁ call.now = level c b₂ call.now) :
    answers c b₁ calls = answers c b₂ calls := by
  cases calls with
  | nil => rfl
  | cons call calls =>
    have hsame : acquire c b₁ call = acquire c b₂ call := by
      unfold acquire
      rw [h call rfl]
    simp only [answers, hsame]

theorem level_of_all_rejected (h : run (step c) b calls = some b') (hrejected : none ∉ answers c b calls)
    {later : ℚ} (hlater : b'.updatedAt ≤ later) : level c b' later = level c b later := by
  induction calls generalizing b with
  | nil =>
    cases h
    rfl
  | cons call calls ih =>
    obtain ⟨t, ht, hrest⟩ := run_cons_eq_some.mp h
    obtain ⟨-, rfl⟩ := step_eq_some.mp ht
    obtain ⟨hfirst, hothers⟩ := not_or.mp (mt List.mem_cons.mpr hrejected)
    have hclock := (updatedAt_le hrest).1
    rw [acquire_updatedAt] at hclock
    rw [ih hrest hothers, level_of_rejected (Ne.symm hfirst) (hclock.trans hlater)]

/-- **The answer to a rejected call is kept**: when `retry_after` has passed and nothing else was admitted, the
tokens it asks for are there. -/
theorem admitted_after_retry {retryAfter now : ℚ} (hrejected : (acquire c b call).2 = some retryAfter)
    (hfits : call.amount ≤ c.capacity) (h : run (step c) (acquire c b call).1 calls = some b')
    (hbetween : none ∉ answers c (acquire c b call).1 calls)
    (hnow : b'.updatedAt ≤ now) (hretry : call.now + retryAfter ≤ now) :
    (acquire c b' ⟨call.amount, now⟩).2 = none := by
  have hlevel := level_of_all_rejected h hbetween hnow
  rcases acquire_cases c b call with ⟨-, heq⟩ | ⟨-, heq⟩ <;> rw [heq] at hrejected hlevel
  · cases hrejected
  obtain rfl := Option.some.inj hrejected
  have hwait := mul_le_mul_of_nonneg_right hretry c.rate_pos.le
  rw [add_mul, div_mul_cancel₀ _ c.rate_pos.ne'] at hwait
  have henough : call.amount ≤ level c b' now := by
    rw [hlevel]
    exact le_min hfits (by linarith)
  simp [acquire, henough]

/-! ### The contract -/

theorem new_eq_ok {capacity refillRatePerSecond now : ℚ} (h : new capacity refillRatePerSecond now = .ok (c, b)) :
    b = ⟨c.capacity, now⟩ := by
  unfold new at h
  split_ifs at h with hrefused
  obtain ⟨rfl, rfl⟩ := Prod.mk.inj (Except.ok.inj h)
  rfl

theorem bounded_new {capacity refillRatePerSecond now : ℚ} (h : new capacity refillRatePerSecond now = .ok (c, b)) :
    Bounded c b := by
  rw [new_eq_ok h]
  exact ⟨c.capacity_pos.le, le_refl c.capacity⟩

/-- **The rate is enforced.** In every run from a new limiter: the tokens stay within the capacity; no window
admits more than the capacity and the refill of its length; a rejected call changes no later answer; and what was
rejected, if it fits at all, is admitted once its `retry_after` has passed and nothing else was admitted. -/
theorem enforces_rate {capacity refillRatePerSecond created : ℚ} {b₀ : TokenBucketRateLimiter}
    (hnew : new capacity refillRatePerSecond created = .ok (c, b₀)) (h : run (step c) b₀ calls = some b) :
    (0 ≤ b.tokens ∧ b.tokens ≤ c.capacity) ∧
      (∀ start finish, start ≤ finish →
        admitted c start finish b₀ calls ≤ c.capacity + c.refillRatePerSecond * (finish - start)) ∧
      ∀ call, 0 < call.amount → b.updatedAt ≤ call.now → ∀ retryAfter,
        (acquire c b call).2 = some retryAfter →
          (∀ later b', run (step c) (acquire c b call).1 later = some b' →
            answers c (acquire c b call).1 later = answers c b later) ∧
          (call.amount ≤ c.capacity → ∀ between b',
            run (step c) (acquire c b call).1 between = some b' →
            none ∉ answers c (acquire c b call).1 between →
            ∀ now, b'.updatedAt ≤ now → call.now + retryAfter ≤ now →
              (acquire c b' ⟨call.amount, now⟩).2 = none) := by
  have hbounded := bounded_new hnew
  refine ⟨bounded_run hbounded h, fun start finish hwindow => admitted_window hbounded h hwindow, ?_⟩
  intro call hamount hclock retryAfter hrejected
  have hne : (acquire c b call).2 ≠ none := by simp [hrejected]
  constructor
  · intro later b' hlater
    refine answers_of_level fun next hnext => level_of_rejected hne ?_
    have hfrom := (updatedAt_le hlater).2 next (List.mem_of_head? hnext)
    rwa [acquire_updatedAt] at hfrom
  · intro hfits between b' hbetween hothers now hnow hretry
    exact admitted_after_retry hrejected hfits hbetween hothers hnow hretry

/-- Ten tokens, two a second; a call of eight, one of six that is rejected, and one of four after it. -/
def sampleCalls : List Call := [⟨8, 1⟩, ⟨6, 2⟩, ⟨4, 2⟩]

def sampleConfig : Config := ⟨10, 2, by norm_num, by norm_num⟩

theorem enforces_rate_sample : ∃ b, run (step sampleConfig) ⟨10, 0⟩ sampleCalls = some b ∧
    (0 ≤ b.tokens ∧ b.tokens ≤ 10) ∧ (acquire sampleConfig b ⟨6, 3⟩).2 = some 2 ∧
    (acquire sampleConfig (acquire sampleConfig b ⟨6, 3⟩).1 ⟨6, 5⟩).2 = none := by
  have hnew : new 10 2 0 = .ok (sampleConfig, ⟨10, 0⟩) := by
    unfold new
    rw [dif_neg (by norm_num)]
    rfl
  have hrun : run (step sampleConfig) ⟨10, 0⟩ sampleCalls = some ⟨0, 2⟩ := by decide +kernel
  obtain ⟨hbounds, -, hrejected⟩ := enforces_rate hnew hrun
  have hanswer : (acquire sampleConfig ⟨0, 2⟩ ⟨6, 3⟩).2 = some 2 := by decide +kernel
  have hretried := (hrejected ⟨6, 3⟩ (by norm_num) (by norm_num) 2 hanswer).2
  refine ⟨⟨0, 2⟩, hrun, hbounds, hanswer, ?_⟩
  refine hretried (by decide +kernel) [] _ rfl (by simp [answers]) 5 ?_ (by norm_num)
  rw [acquire_updatedAt]
  norm_num

end CyberControl.TokenBucket
