import EmailVerifier.Text.Bytes

/-! Hexadecimal digits as Go's `encoding/hex` reads them.

Writing uses lower case and reading takes both cases, so of the spellings of one text only
one is written.
-/

set_option autoImplicit false

namespace EmailVerifier.Text

def hexValue (b : UInt8) : Option Nat :=
  if 48 ≤ b ∧ b ≤ 57 then some (b.toNat - 48)
  else if 97 ≤ b ∧ b ≤ 102 then some (b.toNat - 87)
  else if 65 ≤ b ∧ b ≤ 70 then some (b.toNat - 55)
  else none

/-- `hex.DecodeString`. -/
def hexDecode : Str → Option Str
  | [] => some []
  | [_] => none
  | a :: b :: rest => do
    let high ← hexValue a
    let low ← hexValue b
    let more ← hexDecode rest
    return UInt8.ofNat (16 * high + low) :: more

/-- No digit is a capital letter. -/
def Lower (s : Str) : Prop := ∀ b ∈ s, ¬ (65 ≤ b ∧ b ≤ 70)

instance (s : Str) : Decidable (Lower s) := List.decidableBAll _ s

lemma hexValue_hexDigit {n : Nat} (small : n < 16) : hexValue (hexDigit n) = some n := by
  have all : ∀ n < 16, hexValue (hexDigit n) = some n := by decide
  exact all n small

lemma hexDigit_hexValue {b : UInt8} {n : Nat} (lower : ¬ (65 ≤ b ∧ b ≤ 70)) (value : hexValue b = some n) :
    n < 16 ∧ hexDigit n = b := by
  unfold hexValue at value
  rw [if_neg lower] at value
  simp only [UInt8.le_iff_toNat_le, UInt8.toNat_ofNat, Nat.reducePow, Nat.reduceMod] at value
  split_ifs at value with digit letter <;> obtain rfl := Option.some.inj value
  · refine ⟨by omega, UInt8.toNat_inj.mp ?_⟩
    rw [hexDigit, if_pos (by omega)]
    simp only [Nat.toUInt8, UInt8.toNat_ofNat']
    omega
  · refine ⟨by omega, UInt8.toNat_inj.mp ?_⟩
    rw [hexDigit, if_neg (by omega)]
    simp only [Nat.toUInt8, UInt8.toNat_ofNat']
    omega

lemma hexDecode_hexEncode (s : Str) : hexDecode (hexEncode s) = some s := by
  induction s with
  | nil => rfl
  | cons b rest ih =>
    have small := b.toNat_lt
    unfold hexEncode at ih ⊢
    simp only [List.flatMap_cons, List.cons_append, List.nil_append, hexDecode, ih,
      hexValue_hexDigit (show b.toNat / 16 < 16 by omega), hexValue_hexDigit (show b.toNat % 16 < 16 by omega)]
    have whole : 16 * (b.toNat / 16) + b.toNat % 16 = b.toNat := by omega
    simp only [Option.bind_eq_bind, Option.bind_some, whole, UInt8.ofNat_toNat, Option.pure_def]

lemma hexEncode_lower (s : Str) : Lower (hexEncode s) := by
  have digit : ∀ n < 16, ¬ (65 ≤ hexDigit n ∧ hexDigit n ≤ 70) := by decide
  intro b member
  obtain ⟨c, -, member⟩ := List.mem_flatMap.mp member
  have small := c.toNat_lt
  rcases List.mem_pair.mp member with rfl | rfl
  · exact digit _ (by omega)
  · exact digit _ (by omega)

lemma hexEncode_hexDecode {s bytes : Str} (lower : Lower s) (read : hexDecode s = some bytes) : hexEncode bytes = s := by
  induction s using hexDecode.induct generalizing bytes with
  | case1 =>
    cases read
    rfl
  | case2 => cases read
  | case3 a b rest ih =>
    simp only [Lower, List.forall_mem_cons] at lower
    simp only [hexDecode, Option.bind_eq_bind, Option.bind_eq_some_iff, Option.pure_def, Option.some.injEq] at read
    obtain ⟨high, first, low, second, more, others, rfl⟩ := read
    obtain ⟨highSmall, isA⟩ := hexDigit_hexValue lower.1 first
    obtain ⟨lowSmall, isB⟩ := hexDigit_hexValue lower.2.1 second
    have byte : (UInt8.ofNat (16 * high + low)).toNat = 16 * high + low := by
      simp only [UInt8.toNat_ofNat']
      omega
    have this := ih lower.2.2 others
    unfold hexEncode at this ⊢
    rw [List.flatMap_cons, this, byte, show (16 * high + low) / 16 = high by omega,
      show (16 * high + low) % 16 = low by omega, isA, isB]
    rfl

end EmailVerifier.Text
