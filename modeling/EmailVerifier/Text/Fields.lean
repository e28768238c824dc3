import Mathlib.Data.Rat.Defs
import EmailVerifier.Text.Bytes

/-! Records written field after field, so that each field is read back from the front.
Lengths and numbers are in unary. -/

set_option autoImplicit false

namespace EmailVerifier.Text

def writeNat (n : Nat) : Str := List.replicate n 1 ++ [0]

def readNat : Str → Option (Nat × Str)
  | b :: rest => if b = 0 then some (0, rest) else (readNat rest).map fun (n, left) => (n + 1, left)
  | [] => none

lemma readNat_writeNat (n : Nat) (rest : Str) : readNat (writeNat n ++ rest) = some (n, rest) := by
  unfold writeNat
  induction n with
  | zero => rfl
  | succ n ih =>
    simp only [List.replicate_succ, List.cons_append, readNat]
    rw [if_neg (by decide), ih]
    rfl

def writeStr (s : Str) : Str := writeNat s.length ++ s

def readStr (s : Str) : Option (Str × Str) := (readNat s).map fun (n, rest) => (rest.take n, rest.drop n)

lemma readStr_writeStr (s rest : Str) : readStr (writeStr s ++ rest) = some (s, rest) := by
  simp [readStr, writeStr, List.append_assoc, readNat_writeNat]

def writeInt (n : Int) : Str := writeNat (if n < 0 then 1 else 0) ++ writeNat n.natAbs

def readInt (s : Str) : Option (Int × Str) := do
  let (negative, rest) ← readNat s
  let (n, left) ← readNat rest
  return (if negative = 1 then -(n : Int) else n, left)

lemma readInt_writeInt (n : Int) (rest : Str) : readInt (writeInt n ++ rest) = some (n, rest) := by
  simp only [readInt, writeInt, List.append_assoc, readNat_writeNat, Option.bind_eq_bind, Option.bind_some]
  have back : (if (if n < 0 then 1 else 0) = 1 then -(n.natAbs : Int) else n.natAbs) = n := by
    split <;> split at * <;> omega
  rw [back]
  rfl

def writeRat (q : ℚ) : Str := writeInt q.num ++ writeNat q.den

def readRat (s : Str) : Option (ℚ × Str) := do
  let (num, rest) ← readInt s
  let (den, left) ← readNat rest
  return (mkRat num den, left)

lemma readRat_writeRat (q : ℚ) (rest : Str) : readRat (writeRat q ++ rest) = some (q, rest) := by
  simp only [readRat, writeRat, List.append_assoc, readInt_writeInt, readNat_writeNat, Option.bind_eq_bind,
    Option.bind_some, Rat.mkRat_self]
  rfl

end EmailVerifier.Text
