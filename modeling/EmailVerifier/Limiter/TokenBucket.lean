import Mathlib.Algebra.Order.Field.Rat
import Mathlib.Tactic.Linarith
import Mathlib.Tactic.Ring

/-! The shared token bucket: `internal/limiter/token_bucket.lua` as `Limiter.Take` runs it.

Scripts run one after another on the store, each with the clock reading its caller
took before. Arithmetic is exact. A bucket stores the reading of the last script,
whatever that was, so a reading that arrives late moves the bucket back in time and
the interval it skipped is credited again.
-/

set_option autoImplicit false

namespace EmailVerifier.Limiter

/-- One call of the script. `Limiter.Take` refuses a rate or burst that is not positive
before it gets there, and reads the clock before the script runs. -/
structure Take where
  rate : ℚ
  burst : ℚ
  now : ℚ
  ran : ℚ
  rate_pos : 0 < rate
  burst_pos : 0 < burst
  read : now ≤ ran

structure Bucket where
  tokens : ℚ
  ts : ℚ
  nonneg : 0 ≤ tokens

structure Decision where
  allowed : Bool
  tokens : ℚ
  retryAfter : ℚ
  deriving DecidableEq

-- A key that is not there counts as a full bucket, last seen now.
def tokensAt (state : Option Bucket) (t : Take) : ℚ × ℚ :=
  match state with
  | none => (t.burst, t.now)
  | some b => (b.tokens, b.ts)

def refilled (state : Option Bucket) (t : Take) : ℚ :=
  min t.burst ((tokensAt state t).1 + max 0 (t.now - (tokensAt state t).2) * t.rate)

lemma refilled_nonneg (state : Option Bucket) (t : Take) : 0 ≤ refilled state t := by
  have tokens : 0 ≤ (tokensAt state t).1 := by
    cases state with
    | none => exact t.burst_pos.le
    | some b => exact b.nonneg
  have credit : 0 ≤ max 0 (t.now - (tokensAt state t).2) * t.rate :=
    mul_nonneg (le_max_left _ _) t.rate_pos.le
  exact le_min t.burst_pos.le (add_nonneg tokens credit)

def tokenBucket (state : Option Bucket) (want : ℚ) (t : Take) : Decision × Bucket :=
  if enough : want ≤ refilled state t then
    (⟨true, refilled state t - want, 0⟩, ⟨refilled state t - want, t.now, sub_nonneg.mpr enough⟩)
  else
    (⟨false, refilled state t, (want - refilled state t) / t.rate⟩,
      ⟨refilled state t, t.now, refilled_nonneg state t⟩)

def granted (d : Decision) : Nat := if d.allowed then 1 else 0

/-- How many of the takes are granted, in the order their scripts run. -/
def grants : Option Bucket → List Take → Nat
  | _, [] => 0
  | state, t :: more => granted (tokenBucket state 1 t).1 + grants (some (tokenBucket state 1 t).2) more

-- What is granted comes out of the bucket.
lemma tokenBucket_spends (state : Option Bucket) (t : Take) :
    granted (tokenBucket state 1 t).1 + (tokenBucket state 1 t).2.tokens = refilled state t := by
  unfold tokenBucket
  split
  · simp [granted]
  · simp [granted]

lemma tokenBucket_ts (state : Option Bucket) (want : ℚ) (t : Take) : (tokenBucket state want t).2.ts = t.now := by
  unfold tokenBucket
  split <;> rfl

lemma refilled_le_burst (state : Option Bucket) (t : Take) : refilled state t ≤ t.burst := min_le_left _ _

-- A reading that is not earlier than the bucket's credits the time between, no more.
lemma refilled_le_credit {b : Bucket} {t : Take} {R : ℚ} (later : b.ts ≤ t.now) (rate : t.rate ≤ R) :
    refilled (some b) t ≤ b.tokens + R * (t.now - b.ts) := by
  have elapsed : max 0 (t.now - b.ts) = t.now - b.ts := max_eq_right (sub_nonneg.mpr later)
  calc refilled (some b) t ≤ b.tokens + max 0 (t.now - b.ts) * t.rate := min_le_right _ _
    _ = b.tokens + t.rate * (t.now - b.ts) := by rw [elapsed, mul_comm]
    _ ≤ b.tokens + R * (t.now - b.ts) := by
      have := mul_le_mul_of_nonneg_right rate (sub_nonneg.mpr later)
      linarith

/-- Clock readings in the order the scripts run. -/
def InOrder (takes : List Take) : Prop := takes.Pairwise fun a b => a.now ≤ b.now

lemma grants_from {b : Bucket} {takes : List Take} {R : ℚ} {last : ℚ} (inOrder : InOrder takes)
    (later : ∀ t ∈ takes, b.ts ≤ t.now) (rates : ∀ t ∈ takes, t.rate ≤ R) (until_ : ∀ t ∈ takes, t.now ≤ last)
    (latest : b.ts ≤ last) (positive : 0 < R) : (grants (some b) takes : ℚ) ≤ b.tokens + R * (last - b.ts) := by
  induction takes generalizing b with
  | nil =>
    have credit := mul_nonneg positive.le (sub_nonneg.mpr latest)
    have tokens := b.nonneg
    simp only [grants, Nat.cast_zero]
    linarith
  | cons t more ih =>
    obtain ⟨first, restInOrder⟩ := List.pairwise_cons.mp inOrder
    have spent := tokenBucket_spends (some b) t
    have credit := refilled_le_credit (later t List.mem_cons_self) (rates t List.mem_cons_self)
    have ts := tokenBucket_ts (some b) 1 t
    have rest := ih (b := (tokenBucket (some b) 1 t).2) restInOrder (fun t' member => ts ▸ first t' member)
      (fun t' member => rates t' (List.mem_cons_of_mem t member))
      (fun t' member => until_ t' (List.mem_cons_of_mem t member)) (ts ▸ until_ t List.mem_cons_self)
    rw [ts] at rest
    have split : R * (last - b.ts) = R * (last - t.now) + R * (t.now - b.ts) := by ring
    simp only [grants, Nat.cast_add]
    linarith

/-- All takes read and ran between `T₀` and `T₁`, with rates and bursts within bounds. -/
structure Within (takes : List Take) (R B T₀ T₁ : ℚ) : Prop where
  rates : ∀ t ∈ takes, t.rate ≤ R
  bursts : ∀ t ∈ takes, t.burst ≤ B
  earliest : ∀ t ∈ takes, T₀ ≤ t.now
  latest : ∀ t ∈ takes, t.ran ≤ T₁

/-- Whatever the bucket held before, takes whose readings arrive in order are granted no
more than one burst and what the rate allows in between. -/
theorem grants_bounded {state : Option Bucket} {takes : List Take} {R B T₀ T₁ : ℚ} (rate : 0 < R) (burst : 0 < B)
    (ordered : T₀ ≤ T₁) (within : Within takes R B T₀ T₁) (inOrder : InOrder takes) :
    (grants state takes : ℚ) ≤ B + R * (T₁ - T₀) := by
  cases takes with
  | nil =>
    have credit := mul_nonneg rate.le (sub_nonneg.mpr ordered)
    simp only [grants, Nat.cast_zero]
    linarith
  | cons t more =>
    obtain ⟨first, restInOrder⟩ := List.pairwise_cons.mp inOrder
    have member : t ∈ t :: more := List.mem_cons_self
    have ts := tokenBucket_ts state 1 t
    have before : ∀ t' ∈ t :: more, t'.now ≤ T₁ := fun t' member => t'.read.trans (within.latest t' member)
    -- The first script leaves at most a burst, less what it granted; from there on time pays.
    have spent := tokenBucket_spends state t
    have full := (refilled_le_burst state t).trans (within.bursts t member)
    have rest := grants_from (b := (tokenBucket state 1 t).2) restInOrder
      (fun t' member => ts ▸ first t' member) (fun t' member => within.rates t' (List.mem_cons_of_mem t member))
      (fun t' member => before t' (List.mem_cons_of_mem t member)) (ts ▸ before t member) rate
    rw [ts] at rest
    have sooner : R * (T₁ - t.now) ≤ R * (T₁ - T₀) := by
      have := within.earliest t member
      apply mul_le_mul_of_nonneg_left _ rate.le
      linarith
    simp only [grants, Nat.cast_add]
    linarith

def takeAt (now ran : ℚ) (read : now ≤ ran) : Take where
  rate := 1
  burst := 1
  now := now
  ran := ran
  rate_pos := by norm_num
  burst_pos := by norm_num
  read := read

lemma second_late : (0 : ℚ) ≤ 1 := by norm_num

/-- Three takes in order, a second apart from first to last: two at most. -/
theorem ordered_takes_bounded : (grants none [takeAt 0 0 le_rfl, takeAt 0 1 second_late, takeAt 1 1 le_rfl] : ℚ) ≤
    1 + 1 * (1 - 0) := by
  apply grants_bounded (by norm_num) (by norm_num) (by norm_num)
  · constructor <;> simp [takeAt]
  · simp [InOrder, takeAt]

/-- Readings 1, 0, 1, 0, 1, all of them run at 1: every late zero moves the bucket back, and
the same second is credited twice. -/
def lateReadings : List Take :=
  [takeAt 1 1 le_rfl, takeAt 0 1 second_late, takeAt 1 1 le_rfl, takeAt 0 1 second_late, takeAt 1 1 le_rfl]

theorem late_readings_overdraw : Within lateReadings 1 1 0 1 ∧
    lateReadings.Pairwise (fun a b => a.ran ≤ b.ran) ∧ ¬(grants none lateReadings : ℚ) ≤ 1 + 1 * (1 - 0) := by
  have three : grants none lateReadings = 3 := by decide +kernel
  refine ⟨by constructor <;> simp [lateReadings, takeAt], by simp [lateReadings, takeAt], ?_⟩
  rw [three]
  norm_num

end EmailVerifier.Limiter
