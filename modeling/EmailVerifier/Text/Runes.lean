import Mathlib.Data.List.DropRight
import EmailVerifier.Text.Bytes

/-! Decoding what was encoded, and what trimming and lower case do to the runes of a string.

A string that is trimmed and in lower case stays as it is when it is trimmed and lowered
once more, valid UTF-8 or not: what is invalid has become the replacement rune by then.
-/

set_option autoImplicit false

namespace EmailVerifier.Text

/-- The numbers that stand for a rune. -/
def Scalar (code : Nat) : Prop := code < 0xD800 ∨ (0xE000 ≤ code ∧ code < 0x110000)

/-! The bytes that make one rune, and the rune they make. -/

def isPair (b b1 : UInt8) : Bool := 0xC2 ≤ b && b ≤ 0xDF && isContinuation b1

def isTriple (b b1 b2 : UInt8) : Bool :=
  0xE0 ≤ b && b ≤ 0xEF && isContinuation b1 && isContinuation b2 && (b ≠ 0xE0 || 0xA0 ≤ b1) && (b ≠ 0xED || b1 ≤ 0x9F)

def isQuadruple (b b1 b2 b3 : UInt8) : Bool :=
  0xF0 ≤ b && b ≤ 0xF4 && isContinuation b1 && isContinuation b2 && isContinuation b3 &&
    (b ≠ 0xF0 || 0x90 ≤ b1) && (b ≠ 0xF4 || b1 ≤ 0x8F)

def ofPair (b b1 : UInt8) : Nat := (b.toNat % 32) * 64 + b1.toNat % 64

def ofTriple (b b1 b2 : UInt8) : Nat := (b.toNat % 16) * 4096 + (b1.toNat % 64) * 64 + b2.toNat % 64

def ofQuadruple (b b1 b2 b3 : UInt8) : Nat :=
  (b.toNat % 8) * 262144 + (b1.toNat % 64) * 4096 + (b2.toNat % 64) * 64 + b3.toNat % 64

lemma decodeRune_nil (b : UInt8) : decodeRune b [] = if b < 0x80 then (b.toNat, 1) else (runeError, 1) := rfl

lemma decodeRune_one (b b1 : UInt8) : decodeRune b [b1] =
    if b < 0x80 then (b.toNat, 1) else if isPair b b1 then (ofPair b b1, 2) else (runeError, 1) := rfl

lemma decodeRune_two (b b1 b2 : UInt8) : decodeRune b [b1, b2] =
    if b < 0x80 then (b.toNat, 1) else if isPair b b1 then (ofPair b b1, 2)
    else if isTriple b b1 b2 then (ofTriple b b1 b2, 3) else (runeError, 1) := rfl

lemma decodeRune_three (b b1 b2 b3 : UInt8) (more : Str) : decodeRune b (b1 :: b2 :: b3 :: more) =
    if b < 0x80 then (b.toNat, 1) else if isPair b b1 then (ofPair b b1, 2)
    else if isTriple b b1 b2 then (ofTriple b b1 b2, 3)
    else if isQuadruple b b1 b2 b3 then (ofQuadruple b b1 b2 b3, 4) else (runeError, 1) := rfl

lemma decodeRune_kept (b : UInt8) (kept more : Str) (within : (decodeRune b (kept ++ more)).2 ≤ kept.length + 1) :
    decodeRune b kept = decodeRune b (kept ++ more) := by
  match kept, more with
  | b1 :: b2 :: b3 :: rest, _ => simp [decodeRune_three]
  | kept, [] => simp
  | [b1, b2], b3 :: more =>
    simp only [List.cons_append, List.nil_append, decodeRune_three, decodeRune_two] at within ⊢
    grind
  | [b1], [b2] =>
    simp only [List.cons_append, List.nil_append, decodeRune_one, decodeRune_two] at within ⊢
    grind
  | [b1], b2 :: b3 :: more =>
    simp only [List.cons_append, List.nil_append, decodeRune_one, decodeRune_three] at within ⊢
    grind
  | [], [b1] =>
    simp only [List.nil_append, decodeRune_one, decodeRune_nil] at within ⊢
    grind
  | [], [b1, b2] =>
    simp only [List.nil_append, decodeRune_two, decodeRune_nil] at within ⊢
    grind
  | [], b1 :: b2 :: b3 :: more =>
    simp only [List.nil_append, decodeRune_three, decodeRune_nil] at within ⊢
    grind

lemma isPair_iff (b b1 : UInt8) : isPair b b1 = true ↔
    (0xC2 ≤ b.toNat ∧ b.toNat ≤ 0xDF) ∧ 0x80 ≤ b1.toNat ∧ b1.toNat ≤ 0xBF := by
  simp [isPair, isContinuation, UInt8.le_iff_toNat_le]

lemma isTriple_iff (b b1 b2 : UInt8) : isTriple b b1 b2 = true ↔
    (0xE0 ≤ b.toNat ∧ b.toNat ≤ 0xEF) ∧ (0x80 ≤ b1.toNat ∧ b1.toNat ≤ 0xBF) ∧ (0x80 ≤ b2.toNat ∧ b2.toNat ≤ 0xBF) ∧
      (b.toNat = 0xE0 → 0xA0 ≤ b1.toNat) ∧ (b.toNat = 0xED → b1.toNat ≤ 0x9F) := by
  simp [isTriple, isContinuation, UInt8.le_iff_toNat_le, ← UInt8.toNat_inj, and_assoc, ← imp_iff_not_or]

lemma isQuadruple_iff (b b1 b2 b3 : UInt8) : isQuadruple b b1 b2 b3 = true ↔
    (0xF0 ≤ b.toNat ∧ b.toNat ≤ 0xF4) ∧ (0x80 ≤ b1.toNat ∧ b1.toNat ≤ 0xBF) ∧ (0x80 ≤ b2.toNat ∧ b2.toNat ≤ 0xBF) ∧
      (0x80 ≤ b3.toNat ∧ b3.toNat ≤ 0xBF) ∧ (b.toNat = 0xF0 → 0x90 ≤ b1.toNat) ∧
      (b.toNat = 0xF4 → b1.toNat ≤ 0x8F) := by
  simp [isQuadruple, isContinuation, UInt8.le_iff_toNat_le, ← UInt8.toNat_inj, and_assoc, ← imp_iff_not_or]

lemma decodeRune_width (b : UInt8) (rest : Str) :
    1 ≤ (decodeRune b rest).2 ∧ (decodeRune b rest).2 ≤ rest.length + 1 := by
  match rest with
  | [] =>
    rw [decodeRune_nil]
    split <;> simp
  | [b1] =>
    rw [decodeRune_one]
    split_ifs <;> simp
  | [b1, b2] =>
    rw [decodeRune_two]
    split_ifs <;> simp
  | b1 :: b2 :: b3 :: more =>
    rw [decodeRune_three]
    split_ifs <;> simp

lemma ofPair_scalar (b b1 : UInt8) : Scalar (ofPair b b1) := by
  unfold Scalar ofPair
  omega

lemma ofTriple_scalar {b b1 b2 : UInt8} (triple : isTriple b b1 b2 = true) : Scalar (ofTriple b b1 b2) := by
  rw [isTriple_iff] at triple
  unfold Scalar ofTriple
  omega

lemma ofQuadruple_scalar {b b1 b2 b3 : UInt8} (quadruple : isQuadruple b b1 b2 b3 = true) :
    Scalar (ofQuadruple b b1 b2 b3) := by
  rw [isQuadruple_iff] at quadruple
  unfold Scalar ofQuadruple
  omega

lemma decodeRune_scalar (b : UInt8) (rest : Str) : Scalar (decodeRune b rest).1 := by
  have ascii (b : UInt8) : Scalar b.toNat := by
    have := b.toNat_lt
    unfold Scalar
    omega
  have broken : Scalar runeError := .inr (by decide)
  match rest with
  | [] =>
    rw [decodeRune_nil]
    split_ifs
    · exact ascii b
    · exact broken
  | [b1] =>
    rw [decodeRune_one]
    split_ifs
    · exact ascii b
    · exact ofPair_scalar b b1
    · exact broken
  | [b1, b2] =>
    rw [decodeRune_two]
    split_ifs with _ _ triple
    · exact ascii b
    · exact ofPair_scalar b b1
    · exact ofTriple_scalar triple
    · exact broken
  | b1 :: b2 :: b3 :: more =>
    rw [decodeRune_three]
    split_ifs with _ _ triple quadruple
    · exact ascii b
    · exact ofPair_scalar b b1
    · exact ofTriple_scalar triple
    · exact ofQuadruple_scalar quadruple
    · exact broken

lemma toNat_toUInt8 {n : Nat} (small : n < 256) : n.toUInt8.toNat = n := by
  simp [Nat.toUInt8, small]

lemma toUInt8_wide {n : Nat} (small : n < 256) (wide : 0x80 ≤ n) : ¬ n.toUInt8 < 0x80 := by
  rw [UInt8.lt_iff_toNat_lt, toNat_toUInt8 small]
  exact Nat.not_lt.mpr wide

lemma exists_byte {n : Nat} (small : n < 256) : ∃ b : UInt8, n.toUInt8 = b ∧ b.toNat = n :=
  ⟨_, rfl, toNat_toUInt8 small⟩

lemma decodeRune_encodeRune {code : Nat} (scalar : Scalar code) (rest : Str) :
    ∃ b tail, encodeRune code = b :: tail ∧ decodeRune b (tail ++ rest) = (code, tail.length + 1) := by
  unfold Scalar at scalar
  unfold encodeRune
  dsimp only
  have wide {b : UInt8} (large : 0x80 ≤ b.toNat) : ¬ b < 0x80 := Nat.not_lt.mpr large
  -- The bytes come back as the numbers they were made from, so each case is arithmetic.
  split_ifs with one two three four
  · obtain ⟨b, byte, first⟩ := exists_byte (n := code) (by omega)
    rw [byte]
    refine ⟨b, [], rfl, ?_⟩
    have ascii : b < 0x80 := by
      rw [UInt8.lt_iff_toNat_lt, first]
      exact one
    unfold decodeRune
    rw [if_pos ascii, first]
    rfl
  · obtain ⟨b, byte, first⟩ := exists_byte (n := 0xC0 + code / 64) (by omega)
    obtain ⟨b1, byte1, second⟩ := exists_byte (n := 0x80 + code % 64) (by omega)
    rw [byte, byte1]
    refine ⟨b, [b1], rfl, ?_⟩
    have pair : isPair b b1 = true := by
      rw [isPair_iff]
      omega
    change (if b < 0x80 then _ else if isPair b b1 then (ofPair _ _, 2) else _) = _
    rw [if_neg (wide (by omega)), if_pos pair]
    refine Prod.ext ?_ rfl
    change b.toNat % 32 * 64 + b1.toNat % 64 = code
    omega
  · obtain ⟨b, byte, first⟩ := exists_byte (n := 0xE0 + code / 4096) (by omega)
    obtain ⟨b1, byte1, second⟩ := exists_byte (n := 0x80 + code / 64 % 64) (by omega)
    obtain ⟨b2, byte2, third⟩ := exists_byte (n := 0x80 + code % 64) (by omega)
    rw [byte, byte1, byte2]
    refine ⟨b, [b1, b2], rfl, ?_⟩
    have noPair : ¬ isPair b b1 = true := by
      rw [isPair_iff]
      omega
    have triple : isTriple b b1 b2 = true := by
      rw [isTriple_iff]
      omega
    change (if b < 0x80 then _ else if isPair b b1 then (ofPair _ _, 2) else
      if isTriple b b1 b2 then (ofTriple _ _ _, 3) else _) = _
    rw [if_neg (wide (by omega)), if_neg noPair, if_pos triple]
    refine Prod.ext ?_ rfl
    change b.toNat % 16 * 4096 + b1.toNat % 64 * 64 + b2.toNat % 64 = code
    omega
  · obtain ⟨b, byte, first⟩ := exists_byte (n := 0xF0 + code / 262144) (by omega)
    obtain ⟨b1, byte1, second⟩ := exists_byte (n := 0x80 + code / 4096 % 64) (by omega)
    obtain ⟨b2, byte2, third⟩ := exists_byte (n := 0x80 + code / 64 % 64) (by omega)
    obtain ⟨b3, byte3, fourth⟩ := exists_byte (n := 0x80 + code % 64) (by omega)
    rw [byte, byte1, byte2, byte3]
    refine ⟨b, [b1, b2, b3], rfl, ?_⟩
    have noPair : ¬ isPair b b1 = true := by
      rw [isPair_iff]
      omega
    have noTriple : ¬ isTriple b b1 b2 = true := by
      rw [isTriple_iff]
      omega
    have quadruple : isQuadruple b b1 b2 b3 = true := by
      rw [isQuadruple_iff]
      omega
    rw [List.cons_append, List.cons_append, List.cons_append, List.nil_append, decodeRune_three, if_neg (wide (by omega)),
      if_neg noPair, if_neg noTriple, if_pos quadruple]
    refine Prod.ext ?_ rfl
    change b.toNat % 8 * 262144 + b1.toNat % 64 * 4096 + b2.toNat % 64 * 64 + b3.toNat % 64 = code
    omega
  · omega

lemma runesWithin_enough (fuel more : Nat) (s : Str) (enough : s.length ≤ fuel) :
    runesWithin (fuel + more) s = runesWithin fuel s := by
  induction fuel generalizing s with
  | zero =>
    rw [List.length_eq_zero_iff.mp (Nat.le_zero.mp enough)]
    cases more <;> rfl
  | succ fuel ih =>
    cases s with
    | nil =>
      rw [Nat.add_right_comm]
      rfl
    | cons b rest =>
      rw [Nat.add_right_comm]
      unfold runesWithin
      dsimp only
      rw [ih]
      have width := decodeRune_width b rest
      simp only [List.length_drop, List.length_cons] at enough ⊢
      omega

lemma runes_cons (b : UInt8) (rest : Str) : runes (b :: rest) =
    ⟨(decodeRune b rest).1, (b :: rest).take (decodeRune b rest).2⟩ :: runes ((b :: rest).drop (decodeRune b rest).2) := by
  have width := decodeRune_width b rest
  have fewer : ((b :: rest).drop (decodeRune b rest).2).length ≤ rest.length := by
    simp only [List.length_drop, List.length_cons]
    omega
  obtain ⟨more, same⟩ := Nat.exists_eq_add_of_le fewer
  conv_lhs => unfold runes runesWithin
  dsimp only [List.length_cons]
  congr 1
  rw [same, runesWithin_enough _ _ _ (Nat.le_refl _)]
  rfl

lemma flatMap_bytes_runes (s : Str) : (runes s).flatMap Rune.bytes = s := by
  induction length : s.length using Nat.strong_induction_on generalizing s with
  | _ n ih =>
    cases s with
    | nil => rfl
    | cons b rest =>
      have width := decodeRune_width b rest
      have back := ih _ (by simp only [List.length_drop, List.length_cons] at length ⊢; omega)
        ((b :: rest).drop (decodeRune b rest).2) rfl
      rw [runes_cons, List.flatMap_cons, back]
      exact List.take_append_drop _ _

lemma runes_encoded (codes : List Nat) (scalars : ∀ code ∈ codes, Scalar code) :
    runes (codes.flatMap encodeRune) = codes.map fun code => ⟨code, encodeRune code⟩ := by
  induction codes with
  | nil => rfl
  | cons code more ih =>
    obtain ⟨b, tail, encoded, decoded⟩ :=
      decodeRune_encodeRune (scalars code List.mem_cons_self) (more.flatMap encodeRune)
    rw [List.flatMap_cons, encoded, List.cons_append, runes_cons, decoded, List.map_cons, encoded,
      ← ih fun code member => scalars code (List.mem_cons_of_mem _ member)]
    simp

lemma runes_front {s : Str} {front back : List Rune} (whole : runes s = front ++ back) :
    runes (front.flatMap Rune.bytes) = front := by
  induction front generalizing s with
  | nil => rfl
  | cons r more ih =>
    cases s with
    | nil => cases whole
    | cons b rest =>
      rw [runes_cons, List.cons_append, List.cons.injEq] at whole
      obtain ⟨rfl, whole⟩ := whole
      have width := decodeRune_width b rest
      generalize decoded : decodeRune b rest = d at whole width ⊢
      obtain ⟨code, w⟩ := d
      dsimp only at whole width ⊢
      obtain ⟨n, rfl⟩ : ∃ n, w = n + 1 := ⟨w - 1, by omega⟩
      rw [List.take_succ_cons, List.drop_succ_cons] at *
      have after : more.flatMap Rune.bytes ++ back.flatMap Rune.bytes = rest.drop n := by
        rw [← List.flatMap_append, ← whole, flatMap_bytes_runes]
      have same : rest.take n ++ more.flatMap Rune.bytes ++ back.flatMap Rune.bytes = rest := by
        rw [List.append_assoc, after, List.take_append_drop]
      have length : (rest.take n).length = n := List.length_take_of_le (by omega)
      have kept : decodeRune b (rest.take n ++ more.flatMap Rune.bytes) = (code, n + 1) := by
        rw [decodeRune_kept b _ (back.flatMap Rune.bytes), same, decoded]
        rw [same, decoded, List.length_append, length]
        dsimp only
        omega
      rw [List.flatMap_cons, List.cons_append, runes_cons, kept]
      dsimp only
      rw [List.take_succ_cons, List.drop_succ_cons, List.take_left' length, List.drop_left' length, ih whole]

lemma runes_back {s : Str} {front back : List Rune} (whole : runes s = front ++ back) :
    runes (back.flatMap Rune.bytes) = back := by
  induction front generalizing s with
  | nil =>
    rw [List.nil_append] at whole
    rw [← whole, flatMap_bytes_runes]
  | cons r more ih =>
    cases s with
    | nil => cases whole
    | cons b rest =>
      rw [runes_cons, List.cons_append, List.cons.injEq] at whole
      exact ih whole.2

lemma mem_runes_scalar {s : Str} {r : Rune} (member : r ∈ runes s) : Scalar r.code := by
  obtain ⟨front, back, whole⟩ := List.append_of_mem member
  have again := runes_back whole
  rw [List.flatMap_cons] at again
  cases bytes : r.bytes ++ back.flatMap Rune.bytes with
  | nil =>
    rw [bytes] at again
    cases again
  | cons b rest =>
    rw [bytes, runes_cons, List.cons.injEq] at again
    rw [← again.1]
    exact decodeRune_scalar b rest

def trimRunes (l : List Rune) : List Rune :=
  ((l.dropWhile fun r => isSpace r.code).reverse.dropWhile fun r => isSpace r.code).reverse

lemma trimSpace_eq (s : Str) : trimSpace s = (trimRunes (runes s)).flatMap Rune.bytes := rfl

lemma runes_trimSpace (s : Str) : runes (trimSpace s) = trimRunes (runes s) := by
  have front := List.takeWhile_append_dropWhile (p := fun r : Rune => isSpace r.code) (l := runes s)
  have inner := runes_back front.symm
  have back := congrArg List.reverse (List.takeWhile_append_dropWhile (p := fun r : Rune => isSpace r.code)
    (l := ((runes s).dropWhile fun r => isSpace r.code).reverse))
  rw [List.reverse_append, List.reverse_reverse] at back
  exact runes_front (inner.trans back.symm)

lemma trimRunes_trimRunes (l : List Rune) : trimRunes (trimRunes l) = trimRunes l := by
  have front : (trimRunes l).dropWhile (fun r => isSpace r.code) = trimRunes l := by
    have within : trimRunes l <+: l.dropWhile fun r => isSpace r.code := by
      unfold trimRunes
      have suffix := List.dropWhile_suffix (fun r : Rune => isSpace r.code)
        (l := (l.dropWhile fun r => isSpace r.code).reverse)
      simpa using List.reverse_prefix.mpr suffix
    cases kept : trimRunes l with
    | nil => rfl
    | cons r more =>
      rw [kept] at within
      obtain ⟨tail, whole⟩ := within
      have first : isSpace r.code = false := by
        have head := List.head?_dropWhile_not (fun r : Rune => isSpace r.code) l
        rw [← whole] at head
        simpa using head
      rw [List.dropWhile_cons, first]
      rfl
  unfold trimRunes at front ⊢
  rw [front, List.reverse_reverse, List.dropWhile_idempotent]

lemma trimSpace_trimSpace (s : Str) : trimSpace (trimSpace s) = trimSpace s := by
  rw [trimSpace_eq (trimSpace s), runes_trimSpace, trimRunes_trimRunes, trimSpace_eq]

lemma trimRunes_map (f : Rune → Rune) (keeps : ∀ r, isSpace (f r).code = isSpace r.code) (l : List Rune) :
    trimRunes (l.map f) = (trimRunes l).map f := by
  have same : (fun r : Rune => isSpace r.code) ∘ f = fun r => isSpace r.code := funext keeps
  simp only [trimRunes, List.dropWhile_map, ← List.map_reverse, same]

/-- What holds of the case tables beyond ASCII. -/
class LawfulUnicode [Unicode] : Prop where
  lower_scalar : ∀ code, Scalar code → Scalar (Unicode.lower code)
  lower_lower : ∀ code, Unicode.lower (Unicode.lower code) = Unicode.lower code
  lower_space : ∀ code, isSpace (Unicode.lower code) = isSpace code

section
variable [Unicode] [LawfulUnicode]

def lowerRune (r : Rune) : Rune := ⟨Unicode.lower r.code, encodeRune (Unicode.lower r.code)⟩

lemma runes_toLower (s : Str) : runes (toLower s) = (runes s).map lowerRune := by
  have scalars : ∀ code ∈ (runes s).map fun r => Unicode.lower r.code, Scalar code := by
    intro code member
    obtain ⟨r, inside, rfl⟩ := List.mem_map.mp member
    exact LawfulUnicode.lower_scalar _ (mem_runes_scalar inside)
  have again := runes_encoded _ scalars
  rw [List.flatMap_map, List.map_map] at again
  exact again

lemma toLower_toLower (s : Str) : toLower (toLower s) = toLower s := by
  conv_lhs => unfold toLower
  rw [show (runes s).flatMap (fun r => encodeRune (Unicode.lower r.code)) = toLower s from rfl, runes_toLower,
    List.flatMap_map]
  simp only [lowerRune, LawfulUnicode.lower_lower]
  rfl

lemma trimSpace_toLower (s : Str) : trimSpace (toLower s) = toLower (trimSpace s) := by
  have keeps (r : Rune) : isSpace (lowerRune r).code = isSpace r.code := LawfulUnicode.lower_space r.code
  rw [trimSpace_eq, runes_toLower, trimRunes_map lowerRune keeps, List.flatMap_map, toLower, runes_trimSpace]
  rfl

end

lemma isSpace_letter (code : Nat) (letter : 65 ≤ code ∧ code ≤ 122) : isSpace code = false := by
  have all : ∀ code ≤ 122, 65 ≤ code → isSpace code = false := by decide
  exact all code letter.2 letter.1

lemma asciiTables_lower (code : Nat) : Unicode.lower code =
    if code = 0x212A then 107 else if code = 0x130 then 105 else if 65 ≤ code ∧ code ≤ 90 then code + 32 else code :=
  rfl

instance : LawfulUnicode where
  lower_scalar code scalar := by
    rw [asciiTables_lower]
    unfold Scalar at *
    split_ifs <;> omega
  lower_lower code := by
    simp only [asciiTables_lower]
    split_ifs <;> omega
  lower_space code := by
    rw [asciiTables_lower]
    split_ifs with kelvin dotted letter
    · rw [kelvin]
      decide
    · rw [dotted]
      decide
    · rw [isSpace_letter code (by omega), isSpace_letter _ (by omega)]
    · rfl

end EmailVerifier.Text
