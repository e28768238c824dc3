import Mathlib.Algebra.Order.Ring.Int

/-! Machine integers and instants as Go has them.

An instant is a whole number of seconds since the first of January of year one, held in
64 bits, and the nanoseconds beyond. Seconds since the Unix epoch are the same number
moved by a constant, wrapped where it does not fit.
-/

set_option autoImplicit false

namespace EmailVerifier.Data

def wrap64 (n : Int) : Int := n.bmod (2 ^ 64)

def Fits64 (n : Int) : Prop := -2 ^ 63 ≤ n ∧ n < 2 ^ 63

instance (n : Int) : Decidable (Fits64 n) := inferInstanceAs (Decidable (_ ∧ _))

lemma wrap64_fits (n : Int) : Fits64 (wrap64 n) := by
  unfold wrap64 Fits64 Int.bmod
  dsimp only
  split <;> omega

lemma wrap64_of_fits {n : Int} (fits : Fits64 n) : wrap64 n = n := by
  obtain ⟨low, high⟩ := fits
  unfold wrap64 Int.bmod
  dsimp only
  split <;> omega

-- What wraps around falls behind.
lemma wrap64_le {n : Int} (nonneg : 0 ≤ n) : wrap64 n ≤ n := by
  unfold wrap64 Int.bmod
  dsimp only
  split <;> omega

lemma wrap64_wrap64_add (n k : Int) : wrap64 (wrap64 n + k) = wrap64 (n + k) := by
  unfold wrap64 Int.bmod
  dsimp only
  split <;> split <;> split <;> omega

def second : Int := 1000000000

/-- An instant, in nanoseconds since the beginning of year one. -/
structure Time where
  nanos : Int
  fits : Fits64 (nanos / second)
  deriving DecidableEq

namespace Time

def zero : Time := ⟨0, by decide⟩

def IsZero (t : Time) : Bool := t.nanos = 0

def Before (t u : Time) : Bool := t.nanos < u.nanos

def After (t u : Time) : Bool := u.nanos < t.nanos

def epoch : Int := 62135596800

lemma seconds_of {s n : Int} (beyond : n % second = n) : (s * second + n) / second = s := by
  unfold second at *
  omega

/-- The instant so many nanoseconds from year one, its seconds wrapped. -/
def wrapped (nanos : Int) : Time where
  nanos := wrap64 (nanos / second) * second + nanos % second
  fits := by
    rw [seconds_of (Int.emod_emod_of_dvd _ (dvd_refl _))]
    exact wrap64_fits _

def Add (t : Time) (d : Int) : Time := wrapped (t.nanos + d)

def Sub (t u : Time) : Int := t.nanos - u.nanos

def Unix (t : Time) : Int := wrap64 (t.nanos / second - epoch)

def ofUnix (sec : Int) : Time := wrapped (wrap64 (sec + epoch) * second)

lemma Unix_fits (t : Time) : Fits64 t.Unix := wrap64_fits _

lemma wrapped_seconds (nanos : Int) : (wrapped nanos).nanos / second = wrap64 (nanos / second) :=
  seconds_of (Int.emod_emod_of_dvd _ (dvd_refl _))

lemma Unix_ofUnix {sec : Int} (fits : Fits64 sec) : (ofUnix sec).Unix = sec := by
  have seconds : wrap64 (sec + epoch) * second / second = wrap64 (sec + epoch) :=
    Int.mul_ediv_cancel _ (by decide)
  rw [Unix, ofUnix, wrapped_seconds, seconds, wrap64_of_fits (wrap64_fits _), sub_eq_add_neg, wrap64_wrap64_add,
    add_neg_cancel_right, wrap64_of_fits fits]

end Time

end EmailVerifier.Data
