import EmailVerifier.Limiter.TokenBucket
import EmailVerifier.Pacer.WorkingPoint

/-! Coming back when told to: the bucket's hint under the bands a key can have.

A refusal says how long it takes until a whole token is there. A band may say that the
bucket holds less than a token: then the hint is wrong every time.
-/

set_option autoImplicit false

namespace EmailVerifier.Pacer
open Text Data Limiter

/-- A take as `Acquire` makes it under the band. -/
structure Under (b : Band) (t : Take) : Prop where
  slow : b.minRate ≤ t.rate
  fast : t.rate ≤ b.maxRate
  burst : t.burst = b.burst

def bucketAfter (takes : List Take) : Option Bucket :=
  takes.foldl (fun state t => some (tokenBucket state 1 t).2) none

def KeepsItsWord (b : Band) : Prop :=
  ∀ (takes : List Take) (first second : Take), (∀ t ∈ takes, Under b t) → InOrder (takes ++ [first]) →
    Under b first → (tokenBucket (bucketAfter takes) 1 first).1.allowed = false →
    second.rate = first.rate → second.burst = first.burst →
    second.now = first.now + (tokenBucket (bucketAfter takes) 1 first).1.retryAfter →
    (tokenBucket (some (tokenBucket (bucketAfter takes) 1 first).2) 1 second).1.allowed = true

lemma allowed_iff (state : Option Bucket) (want : ℚ) (t : Take) :
    (tokenBucket state want t).1.allowed = true ↔ want ≤ refilled state t := by
  unfold tokenBucket
  split
  · rename_i enough
    exact iff_of_true rfl enough
  · rename_i short
    exact iff_of_false Bool.false_ne_true short

lemma refused_of_small_burst (state : Option Bucket) {t : Take} (small : t.burst < 1) :
    (tokenBucket state 1 t).1.allowed = false := by
  rw [← Bool.not_eq_true, allowed_iff]
  exact not_le.mpr ((refilled_le_burst state t).trans_lt small)

lemma refused_leaves {state : Option Bucket} {t : Take} (refused : (tokenBucket state 1 t).1.allowed = false) :
    (tokenBucket state 1 t).2.tokens = refilled state t ∧
      (tokenBucket state 1 t).1.retryAfter = (1 - refilled state t) / t.rate ∧ refilled state t < 1 := by
  have short : ¬ 1 ≤ refilled state t := by rw [← allowed_iff, refused]; exact Bool.false_ne_true
  unfold tokenBucket
  rw [dif_neg short]
  exact ⟨rfl, rfl, not_le.mp short⟩

lemma granted_after_wait {state : Option Bucket} {first second : Take}
    (refused : (tokenBucket state 1 first).1.allowed = false) (rate : second.rate = first.rate)
    (later : second.now = first.now + (tokenBucket state 1 first).1.retryAfter) (room : 1 ≤ second.burst) :
    (tokenBucket (some (tokenBucket state 1 first).2) 1 second).1.allowed = true := by
  obtain ⟨tokens, wait, short⟩ := refused_leaves refused
  have positive := first.rate_pos
  have elapsed : second.now - (tokenBucket state 1 first).2.ts = (1 - refilled state first) / first.rate := by
    rw [tokenBucket_ts, later, wait]
    ring
  have waits : 0 ≤ (1 - refilled state first) / first.rate := div_nonneg (by linarith) positive.le
  rw [allowed_iff]
  refine le_min room ?_
  change 1 ≤ (tokenBucket state 1 first).2.tokens + max 0 (second.now - (tokenBucket state 1 first).2.ts) * second.rate
  rw [elapsed, max_eq_right waits, tokens, rate, div_mul_cancel₀ _ positive.ne']
  linarith

def floorTake {b : Band} (normal : b.Normal) (now : ℚ) : Take where
  rate := b.minRate
  burst := b.burst
  now := now
  ran := now
  rate_pos := normal.minRate
  burst_pos := normal.burst
  read := le_rfl

lemma floorTake_under {b : Band} (normal : b.Normal) (now : ℚ) : Under b (floorTake normal now) :=
  ⟨le_rfl, normal.rates, rfl⟩

lemma Normal.keepsItsWord_iff {b : Band} (normal : b.Normal) : KeepsItsWord b ↔ 1 ≤ b.burst := by
  constructor
  · intro keeps
    by_contra small
    have starved (state : Option Bucket) (now : ℚ) : (tokenBucket state 1 (floorTake normal now)).1.allowed = false :=
      refused_of_small_burst state (t := floorTake normal now) (not_le.mp small)
    have granted := keeps [] (floorTake normal 0)
      (floorTake normal (0 + (tokenBucket none 1 (floorTake normal 0)).1.retryAfter)) (by simp) (by simp [InOrder])
      (floorTake_under normal 0) (starved none 0) rfl rfl rfl
    exact Bool.false_ne_true ((starved _ _).symm.trans granted)
  · intro room takes first second under _ here refused rate burst later
    exact granted_after_wait refused rate later (by rw [burst, here.burst]; exact room)

/-- For every band that `bandFor` can return: a refused take is granted when it comes back
exactly when the band's burst is a whole token. -/
theorem refused_take_granted_iff [Unicode] [Codec] (got : Got) (key domain : Str) :
    KeepsItsWord ((bandIn got).getD (shipped key domain)) ↔ 1 ≤ ((bandIn got).getD (shipped key domain)).burst :=
  Normal.keepsItsWord_iff (bandIn_normal key domain got)

def halfToken : Str := lit "\x7b\"burst\":0.5\x7d"

def halfBand : Band := { burst := 1 / 2 }

abbrev halfCodec : Codec :=
  { plainCodec with unmarshalBand := fun raw => if raw = halfToken then some halfBand else none }

lemma halfBand_read : @bandIn halfCodec (.ok (some halfToken)) = some halfBand.normalise := by
  have read : halfCodec.unmarshalBand halfToken = some halfBand := if_pos rfl
  exact congrArg (Option.map Band.normalise) read

/-- Under that band the first take is refused, and refused again when it comes back. -/
theorem half_burst_refused_again : letI := halfCodec
    let band := (bandIn (.ok (some halfToken))).getD (shipped (lit "mx.test") (lit "b.test"))
    ∃ first second : Take, Under band first ∧ (tokenBucket none 1 first).1.allowed = false ∧
      second.rate = first.rate ∧ second.burst = first.burst ∧
      second.now = first.now + (tokenBucket none 1 first).1.retryAfter ∧
      (tokenBucket (some (tokenBucket none 1 first).2) 1 second).1.allowed = false := by
  have small : halfBand.normalise.burst < 1 := by norm_num [halfBand, Band.normalise]
  have starved (state : Option Bucket) (now : ℚ) : (tokenBucket state 1 (floorTake halfBand.normalise_normal now)).1.allowed = false :=
    refused_of_small_burst state small
  rw [halfBand_read]
  exact ⟨floorTake halfBand.normalise_normal 0, floorTake halfBand.normalise_normal (0 + (tokenBucket none 1 (floorTake halfBand.normalise_normal 0)).1.retryAfter),
    floorTake_under _ 0, starved none 0, rfl, rfl, rfl, starved _ _⟩

end EmailVerifier.Pacer
