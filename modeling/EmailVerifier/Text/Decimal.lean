import EmailVerifier.Data.Instant
import EmailVerifier.Text.Bytes

/-! Decimal numbers as Go's `strconv` writes and reads them. -/

set_option autoImplicit false

namespace EmailVerifier.Text
open Data

def digitByte (d : Nat) : UInt8 := UInt8.ofNat (48 + d)

def digitValue (b : UInt8) : Option Nat := if 48 ≤ b ∧ b ≤ 57 then some (b.toNat - 48) else none

/-- The digits of a number in front of the text so far, the last digit first. -/
def writeDigits : Nat → Nat → Str → Str
  | 0, _, text => text
  | fuel + 1, n, text =>
    if n < 10 then digitByte n :: text else writeDigits fuel (n / 10) (digitByte (n % 10) :: text)

def formatUint (n : Nat) : Str := writeDigits (n + 1) n []

def formatInt (n : Int) : Str := if n < 0 then 45 :: formatUint n.natAbs else formatUint n.natAbs

def readDigits : Nat → Str → Option Nat
  | n, [] => some n
  | n, b :: rest => (digitValue b).bind fun d => readDigits (10 * n + d) rest

def parseUint (s : Str) : Option Nat := if s = [] then none else readDigits 0 s

/-- `strconv.ParseInt(s, 10, 64)`: an optional sign, digits, and the range of 64 bits. -/
def parseInt (s : Str) : Option Int :=
  match s with
  | 45 :: rest => (parseUint rest).bind fun n => if n ≤ 2 ^ 63 then some (-n) else none
  | 43 :: rest => (parseUint rest).bind fun n => if n < 2 ^ 63 then some n else none
  | rest => (parseUint rest).bind fun n => if n < 2 ^ 63 then some n else none

lemma digitValue_digitByte {d : Nat} (small : d < 10) : digitValue (digitByte d) = some d := by
  have all : ∀ d < 10, digitValue (digitByte d) = some d := by decide
  exact all d small

lemma mem_writeDigits (fuel n : Nat) (text : Str) : ∀ b ∈ writeDigits fuel n text, 48 ≤ b ∧ b ≤ 57 ∨ b ∈ text := by
  have digit (d : Nat) (small : d < 10) : 48 ≤ digitByte d ∧ digitByte d ≤ 57 := by
    have all : ∀ d < 10, 48 ≤ digitByte d ∧ digitByte d ≤ 57 := by decide
    exact all d small
  induction fuel generalizing n text with
  | zero => exact fun b member => .inr member
  | succ fuel ih =>
    unfold writeDigits
    split
    · rename_i small
      intro b member
      rcases List.mem_cons.mp member with rfl | member
      · exact .inl (digit n small)
      · exact .inr member
    · intro b member
      rcases ih _ _ b member with written | member
      · exact .inl written
      rcases List.mem_cons.mp member with rfl | member
      · exact .inl (digit _ (Nat.mod_lt _ (by decide)))
      · exact .inr member

lemma mem_formatInt (n : Int) : ∀ b ∈ formatInt n, b = 45 ∨ 48 ≤ b ∧ b ≤ 57 := by
  have digits (n : Nat) : ∀ b ∈ formatUint n, 48 ≤ b ∧ b ≤ 57 := fun b member =>
    (mem_writeDigits _ _ _ b member).resolve_right List.not_mem_nil
  unfold formatInt
  split
  · intro b member
    rcases List.mem_cons.mp member with rfl | member
    · exact .inl rfl
    · exact .inr (digits _ b member)
  · exact fun b member => .inr (digits _ b member)

-- Reading a number's digits puts them behind what was read before them.
lemma readDigits_writeDigits (fuel n : Nat) (text : Str) (enough : n < fuel) :
    readDigits 0 (writeDigits fuel n text) = readDigits n text := by
  induction fuel generalizing n text with
  | zero => omega
  | succ fuel ih =>
    unfold writeDigits
    split
    · rename_i small
      simp [readDigits, digitValue_digitByte small]
    · rw [ih _ _ (by omega)]
      have last : n % 10 < 10 := Nat.mod_lt _ (by decide)
      simp only [readDigits, digitValue_digitByte last, Option.bind_some]
      congr 1
      omega

-- The first byte written is a digit.
lemma writeDigits_head (fuel n : Nat) (text : Str) (enough : n < fuel) :
    ∃ d rest, d < 10 ∧ writeDigits fuel n text = digitByte d :: rest := by
  induction fuel generalizing n text with
  | zero => omega
  | succ fuel ih =>
    unfold writeDigits
    split
    · rename_i small
      exact ⟨n, text, small, rfl⟩
    · exact ih _ _ (by omega)

lemma parseUint_formatUint (n : Nat) : parseUint (formatUint n) = some n := by
  obtain ⟨d, rest, -, written⟩ := writeDigits_head (n + 1) n [] (by omega)
  have read := readDigits_writeDigits (n + 1) n [] (by omega)
  unfold parseUint formatUint
  rw [if_neg (by simp [written]), read]
  rfl

lemma digitByte_ne_sign {d : Nat} (small : d < 10) : digitByte d ≠ 45 ∧ digitByte d ≠ 43 := by
  have all : ∀ d < 10, digitByte d ≠ 45 ∧ digitByte d ≠ 43 := by decide
  exact all d small

lemma parseInt_formatUint (n : Nat) : parseInt (formatUint n) = if n < 2 ^ 63 then some (n : Int) else none := by
  have read := parseUint_formatUint n
  obtain ⟨d, rest, digit, written⟩ := writeDigits_head (n + 1) n [] (by omega)
  obtain ⟨notMinus, notPlus⟩ := digitByte_ne_sign digit
  unfold formatUint at read ⊢
  rw [written] at read ⊢
  unfold parseInt
  split
  · rename_i same
    exact absurd (List.cons.inj same).1 notMinus
  · rename_i same
    exact absurd (List.cons.inj same).1 notPlus
  · rw [read, Option.bind_some]

lemma parseInt_formatInt {n : Int} (fits : Fits64 n) : parseInt (formatInt n) = some n := by
  obtain ⟨low, high⟩ := fits
  unfold formatInt
  split
  · have small : n.natAbs ≤ 2 ^ 63 := by omega
    have back : -(n.natAbs : Int) = n := by omega
    simp only [parseInt, parseUint_formatUint, Option.bind_some, if_pos small, back]
  · have small : n.natAbs < 2 ^ 63 := by omega
    have back : (n.natAbs : Int) = n := by omega
    rw [parseInt_formatUint, if_pos small, back]

end EmailVerifier.Text
