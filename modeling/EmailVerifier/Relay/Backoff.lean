import EmailVerifier.Configuration.Validate
import EmailVerifier.Data.Instant
import EmailVerifier.Relay.Deliver
import EmailVerifier.Semantics.Protocol

/-! How long a retry waits.

The delay is the base shifted left by the attempts so far, in 64 bits. It doubles from one
attempt to the next as long as the shift leaves the sign alone; the first that does not is
negative. The configuration bounds neither the attempts nor the base.
-/

set_option autoImplicit false

namespace EmailVerifier.Relay
open Text Data Semantics
open EmailVerifier.Configuration (Config Format nodeConfig validate_nil_iff checks relayChecks)

def readClock (last : Option Int) : Event calls → Option Int
  | ⟨.now, time⟩ => some (show Int from time)
  | _ => last

/-- Whatever is scheduled is due the delay after the clock was read last, in whole seconds. -/
def DueAfter (delay : Int) : World calls (Option Int) := fun last e last' =>
  last' = readClock last e ∧
    ∀ due id, e.op = .store (.zadd due id) → ∃ time, last = some time ∧ due = unix (time + delay)

section
variable [Library] {delay : Int} {last : Option Int}

omit [Library] in
lemma storing_due {c : Cmd} {failed : String}
    (timely : ∀ due id, c = .zadd due id → ∃ time, last = some time ∧ due = unix (time + delay)) :
    (storing c failed).Follows (DueAfter delay) (fun _ last' => last' = last) last := by
  intro answer
  refine ⟨last, ⟨rfl, fun due id same => timely due id (Op.store.inj same)⟩, ?_⟩
  cases answer <;> rfl

lemma storeItem_due {item : Item} {rest : Act (Except Err Unit)}
    (then_ : rest.Follows (DueAfter delay) (fun _ _ => True) last) :
    (storeItem item rest).Follows (DueAfter delay) (fun _ _ => True) last := by
  unfold storeItem
  split
  · trivial
  · refine (storing_due fun _ _ same => by cases same).andThen fun answer last' same => ?_
    subst same
    cases answer with
    | error err => trivial
    | ok _ => exact then_

lemma Retry_due (q : Queue) (item : Item) (base : Int) (reason : Str) :
    (q.Retry item base reason).Follows (DueAfter (backoff base (item.attempts + 1))) (fun _ _ => True) none := by
  unfold Queue.Retry
  split
  · exact storeItem_due ((storing_due fun _ _ same => by cases same).mono fun _ _ _ => trivial)
  · refine storeItem_due fun time => ⟨some time, ⟨rfl, fun _ _ same => by cases same⟩, ?_⟩
    refine (storing_due fun due id same => ⟨time, rfl, ?_⟩).mono fun _ _ _ => trivial
    exact (Cmd.zadd.inj same).1.symm

end

lemma backoff_eq (base : Int) (k : Nat) : backoff base k = wrap64 (base * 2 ^ (k - 1)) := rfl

lemma backoff_exact {base : Int} {k : Nat} (positive : 0 < base) (small : base * 2 ^ (k - 1) < 2 ^ 63) :
    backoff base k = base * 2 ^ (k - 1) := by
  have : 0 < base * 2 ^ (k - 1) := Int.mul_pos positive (Int.pow_pos (by decide))
  exact wrap64_of_fits ⟨by omega, small⟩

lemma backoff_negative {base : Int} {k : Nat} (large : 2 ^ 63 ≤ base * 2 ^ (k - 1))
    (below : base * 2 ^ (k - 1) < 2 ^ 64) : backoff base k < 0 := by
  rw [backoff_eq, wrap64, Int.bmod]
  generalize base * 2 ^ (k - 1) = n at large below
  split <;> omega

/-- Attempt by attempt, up to the last that is scheduled: the delay is at least the base and not
less than the one before, and the due time is at least the base away. -/
def Grows (maxAttempts base : Int) : Prop :=
  ∀ k : Nat, 1 ≤ k → k < maxAttempts → base ≤ backoff base k ∧ (2 ≤ k → backoff base (k - 1) ≤ backoff base k) ∧
    ∀ time, unix time + base / second ≤ unix (time + backoff base k)

lemma doubled_le {base : Int} (positive : 0 < base) {i j : Nat} (le : i ≤ j) : base * 2 ^ i ≤ base * 2 ^ j :=
  Int.mul_le_mul_of_nonneg_left (pow_le_pow_right₀ (by decide) le) (Int.le_of_lt positive)

lemma grows_of_small {maxAttempts base : Int} (positive : 0 < base)
    (small : base * 2 ^ (maxAttempts.toNat - 2) < 2 ^ 63) : Grows maxAttempts base := by
  intro k first before
  have exact_ : ∀ j, j ≤ k → backoff base j = base * 2 ^ (j - 1) := fun j le =>
    backoff_exact positive (Int.lt_of_le_of_lt (doubled_le positive (by omega)) small)
  have least : base ≤ backoff base k := by
    have := doubled_le positive (Nat.zero_le (k - 1))
    rw [exact_ k (Nat.le_refl k)]
    simpa using this
  refine ⟨least, fun second => ?_, fun time => ?_⟩
  · rw [exact_ k (Nat.le_refl k), exact_ (k - 1) (Nat.sub_le k 1)]
    exact doubled_le positive (by omega)
  · unfold unix second
    omega

lemma small_of_grows {maxAttempts base : Int} (positive : 0 < base) (fits : Fits64 base)
    (grows : Grows maxAttempts base) : base * 2 ^ (maxAttempts.toNat - 2) < 2 ^ 63 := by
  -- By induction on the shift: where it fits, the next is below twice the limit, and negative if it does not fit.
  have all : ∀ j, j ≤ maxAttempts.toNat - 2 → base * 2 ^ j < 2 ^ 63 := by
    intro j
    induction j with
    | zero =>
      have := fits.2
      omega
    | succ j ih =>
      intro within
      have smaller := ih (by omega)
      by_contra large
      have negative : backoff base (j + 2) < 0 := by
        apply backoff_negative
        · exact Int.not_lt.mp large
        · rw [show j + 2 - 1 = j + 1 from rfl, Int.pow_succ, ← Int.mul_assoc]
          omega
      have least := (grows (j + 2) (by omega) (by omega)).1
      omega
  exact all _ (Nat.le_refl _)

/-- A retry is due the delay after the clock was read. With a relay that is switched on and a
configuration that is accepted, the delays grow exactly if the last of them fits in 64 bits. -/
theorem backoff_grows_iff [Format] [Library] {c : Config} (accepted : c.Validate = []) (enabled : c.relay.enabled = true)
    (fits : Fits64 c.relay.retryBase) :
    (∀ item reason, ((newQueue c.relay.maxAttempts).Retry item c.relay.retryBase reason).Follows
      (DueAfter (backoff c.relay.retryBase (item.attempts + 1))) (fun _ _ => True) none) ∧
    (Grows (newQueue c.relay.maxAttempts).maxAttempts c.relay.retryBase ↔
      c.relay.retryBase * 2 ^ (c.relay.maxAttempts.toNat - 2) < 2 ^ 63) := by
  have passes := (validate_nil_iff c).mp accepted
  have attempts := passes ⟨c.relay.enabled && c.relay.maxAttempts ≤ 0, lit "relay.max_attempts must be positive"⟩
    (by simp [checks, relayChecks])
  have base := passes ⟨c.relay.enabled && c.relay.retryBase ≤ 0, lit "relay.retry_base must be positive"⟩
    (by simp [checks, relayChecks])
  simp only [enabled, Bool.true_and, decide_eq_false_iff_not, Int.not_le] at attempts base
  refine ⟨fun item reason => Retry_due _ item _ reason, ?_⟩
  rw [newQueue, if_neg (Int.not_le.mpr attempts)]
  exact ⟨small_of_grows base fits, grows_of_small base⟩

def relayConfig : Config := { nodeConfig with
  relay := {
    enabled := true
    dkimKeyFile := lit "key"
    dkimSelector := lit "s1"
    domain := lit "node.test"
    returnPathDomain := lit "bounce.node.test" } }

theorem relayConfig_grows : Grows (newQueue relayConfig.relay.maxAttempts).maxAttempts relayConfig.relay.retryBase :=
  (backoff_grows_iff (c := relayConfig) (by decide +kernel) rfl (by decide)).2.mpr (by decide)

/-- Forty attempts from five minutes on: the accepted configuration makes a delay negative. -/
theorem patient_relay_overflows :
    Config.Validate { relayConfig with relay := { relayConfig.relay with maxAttempts := 40 } } = [] ∧
    backoff relayConfig.relay.retryBase 26 < 0 ∧ (26 : Int) < 40 ∧ relayConfig.relay.retryBase = 5 * 60 * second := by
  decide +kernel

end EmailVerifier.Relay
