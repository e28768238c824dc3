import Mathlib.Algebra.Order.Ring.Int
import Mathlib.Data.List.Infix

/-! Byte strings with the operations of Go's `strings` package.

A Go string is a sequence of bytes and only some operations read it as UTF-8.
Those decode rune by rune, an invalid byte counting as one replacement rune of
width one. Case mapping beyond ASCII is a table of the language's runtime; it is
left open here and every result holds for any table.
-/

set_option autoImplicit false

namespace EmailVerifier.Text

abbrev Str := List UInt8

instance : LawfulBEq Str := inferInstance

def lit (s : String) : Str := s.toList.flatMap String.utf8EncodeChar

def hasPrefix (s start : Str) : Bool := start.isPrefixOf s

def hasSuffix (s tail : Str) : Bool := tail.isSuffixOf s

/-- `strings.Contains`. -/
def contains : Str → Str → Bool
  | [], sub => sub.isEmpty
  | b :: rest, sub => sub.isPrefixOf (b :: rest) || contains rest sub

/-- `strings.Index`: where the first occurrence starts. -/
def index : Str → Str → Option Nat
  | [], sub => if sub.isEmpty then some 0 else none
  | b :: rest, sub => if sub.isPrefixOf (b :: rest) then some 0 else (index rest sub).map (· + 1)

/-- `strings.TrimSuffix`. -/
def trimSuffix (s tail : Str) : Str :=
  if hasSuffix s tail then s.take (s.length - tail.length) else s

lemma trimSuffix_eq_or (s tail : Str) : trimSuffix s tail = s ∨ s = trimSuffix s tail ++ tail := by
  unfold trimSuffix hasSuffix
  split
  · rename_i ends
    obtain ⟨front, rfl⟩ := List.isSuffixOf_iff_suffix.mp ends
    right
    simp
  · exact .inl rfl

/-- `strings.TrimRight` for a set of single bytes. -/
def trimRight (s : Str) (cutset : List UInt8) : Str :=
  (s.reverse.dropWhile fun b => cutset.contains b).reverse

/-- `strings.Cut` at the first occurrence of one byte. -/
def cut (s : Str) (sep : UInt8) : Option (Str × Str) :=
  match s.dropWhile (· ≠ sep) with
  | [] => none
  | _ :: after => some (s.takeWhile (· ≠ sep), after)

/-- `strings.Split` at one byte: never empty. -/
def split (sep : UInt8) : Str → List Str
  | [] => [[]]
  | b :: rest =>
    match split sep rest with
    | [] => [[b]]
    | first :: more => if b = sep then [] :: first :: more else (b :: first) :: more

def hexDigit (n : Nat) : UInt8 := if n < 10 then (48 + n).toUInt8 else (87 + n).toUInt8

/-- `hex.EncodeToString`. -/
def hexEncode (s : Str) : Str :=
  s.flatMap fun b => [hexDigit (b.toNat / 16), hexDigit (b.toNat % 16)]

/-- `net.JoinHostPort`: an address with a colon is bracketed. -/
def joinHostPort (host port : Str) : Str :=
  if host.contains 58 then lit "[" ++ host ++ lit "]:" ++ port else host ++ lit ":" ++ port

/-- What follows the last occurrence of one byte, as `strings.LastIndex` finds it. -/
def afterLast (sep : UInt8) (s : Str) : Option Str :=
  if sep ∈ s then some (s.reverse.takeWhile (· ≠ sep)).reverse else none

def Ascii (s : Str) : Prop := ∀ b ∈ s, b < 0x80

def base64URLAlphabet : Str := lit "ABCDEFGHIJKLMNOPQRSTUVWXYZabcdefghijklmnopqrstuvwxyz0123456789-_"

/-- `base64.RawURLEncoding`: three bytes at a time, no padding. -/
def base64RawURL : Str → Str
  | a :: b :: c :: rest =>
    let n := a.toNat * 65536 + b.toNat * 256 + c.toNat
    [digit (n / 262144), digit (n / 4096 % 64), digit (n / 64 % 64), digit (n % 64)] ++ base64RawURL rest
  | [a, b] =>
    let n := a.toNat * 65536 + b.toNat * 256
    [digit (n / 262144), digit (n / 4096 % 64), digit (n / 64 % 64)]
  | [a] => [digit (a.toNat / 4), digit (a.toNat * 16 % 64)]
  | [] => []
where
  digit (n : Nat) : UInt8 := base64URLAlphabet.getD n 65

lemma digit_mem (n : Nat) : base64RawURL.digit n ∈ base64URLAlphabet := by
  unfold base64RawURL.digit
  rw [List.getD_eq_getElem?_getD]
  cases found : base64URLAlphabet[n]? with
  | none => decide
  | some b => exact List.mem_of_getElem? found

lemma base64RawURL_subset (s : Str) : ∀ b ∈ base64RawURL s, b ∈ base64URLAlphabet := by
  fun_induction base64RawURL s with
  | case1 a b c rest n ih =>
    intro d member
    rcases List.mem_append.mp member with here | there
    · simp only [List.mem_cons, List.not_mem_nil, or_false] at here
      rcases here with rfl | rfl | rfl | rfl <;> exact digit_mem _
    · exact ih d there
  | case2 a b n =>
    intro d member
    simp only [List.mem_cons, List.not_mem_nil, or_false] at member
    rcases member with rfl | rfl | rfl <;> exact digit_mem _
  | case3 a =>
    intro d member
    simp only [List.mem_cons, List.not_mem_nil, or_false] at member
    rcases member with rfl | rfl <;> exact digit_mem _
  | case4 => exact List.forall_mem_nil _

lemma base64RawURL_ascii (s : Str) : Ascii (base64RawURL s) := by
  have letters : base64URLAlphabet.all (fun b => decide (b < 0x80)) = true := by decide +kernel
  intro b member
  exact of_decide_eq_true (List.all_eq_true.mp letters b (base64RawURL_subset s b member))

/-- Decimal rendering, as `%d` and `strconv.Itoa` write a non-negative number. -/
def itoa (n : Nat) : Str := lit (toString n)

def digitsValue : Str → Option Nat
  | [] => none
  | s => s.foldl (fun acc b => acc.bind fun n =>
      if 48 ≤ b ∧ b ≤ 57 then some (n * 10 + (b.toNat - 48)) else none) (some 0)

/-- `strconv.Atoi`, for numbers within the machine's range. -/
def atoi : Str → Option Int
  | [] => none
  | b :: rest =>
    if b = 45 then (digitsValue rest).map fun n => -(n : Int)
    else if b = 43 then (digitsValue rest).map fun n => (n : Int)
    else (digitsValue (b :: rest)).map fun n => (n : Int)

/-- One decoded rune and the bytes it came from. -/
structure Rune where
  code : Nat
  bytes : Str
  deriving DecidableEq, Repr

def runeError : Nat := 0xFFFD

def isContinuation (b : UInt8) : Bool := 0x80 ≤ b && b ≤ 0xBF

/-- The rune leading a non-empty string and its width in bytes, as
`utf8.DecodeRuneInString` gives them. -/
def decodeRune (b : UInt8) (rest : Str) : Nat × Nat :=
  let payload (c : UInt8) : Nat := c.toNat % 64
  if b < 0x80 then (b.toNat, 1)
  else match rest with
    | b1 :: more =>
      if 0xC2 ≤ b && b ≤ 0xDF && isContinuation b1 then ((b.toNat % 32) * 64 + payload b1, 2)
      else match more with
        | b2 :: more' =>
          -- E0 and ED narrow the second byte: no overlong forms, no surrogates.
          if 0xE0 ≤ b && b ≤ 0xEF && isContinuation b1 && isContinuation b2
              && (b ≠ 0xE0 || 0xA0 ≤ b1) && (b ≠ 0xED || b1 ≤ 0x9F) then
            ((b.toNat % 16) * 4096 + payload b1 * 64 + payload b2, 3)
          else match more' with
            | b3 :: _ =>
              if 0xF0 ≤ b && b ≤ 0xF4 && isContinuation b1 && isContinuation b2 && isContinuation b3
                  && (b ≠ 0xF0 || 0x90 ≤ b1) && (b ≠ 0xF4 || b1 ≤ 0x8F) then
                ((b.toNat % 8) * 262144 + payload b1 * 4096 + payload b2 * 64 + payload b3, 4)
              else (runeError, 1)
            | [] => (runeError, 1)
        | [] => (runeError, 1)
    | [] => (runeError, 1)

def runesWithin : Nat → Str → List Rune
  | 0, _ | _, [] => []
  | fuel + 1, b :: rest =>
    let (code, width) := decodeRune b rest
    ⟨code, (b :: rest).take width⟩ :: runesWithin fuel ((b :: rest).drop width)

def runes (s : Str) : List Rune := runesWithin s.length s

/-- The UTF-8 bytes of a rune; anything that is not a scalar value is written as
the replacement rune. -/
def encodeRune (code : Nat) : Str :=
  let byte (n : Nat) : UInt8 := n.toUInt8
  if code < 0x80 then [byte code]
  else if code < 0x800 then [byte (0xC0 + code / 64), byte (0x80 + code % 64)]
  else if code < 0x10000 ∧ ¬(0xD800 ≤ code ∧ code < 0xE000) then
    [byte (0xE0 + code / 4096), byte (0x80 + code / 64 % 64), byte (0x80 + code % 64)]
  else if 0x10000 ≤ code ∧ code < 0x110000 then
    [byte (0xF0 + code / 262144), byte (0x80 + code / 4096 % 64), byte (0x80 + code / 64 % 64),
      byte (0x80 + code % 64)]
  else [0xEF, 0xBF, 0xBD]

/-- `unicode.IsSpace`. -/
def isSpace (code : Nat) : Bool :=
  [0x09, 0x0A, 0x0B, 0x0C, 0x0D, 0x20, 0x85, 0xA0, 0x1680, 0x2028, 0x2029, 0x202F, 0x205F,
    0x3000].contains code || (0x2000 ≤ code && code ≤ 0x200A)

/-- `strings.TrimSpace`. -/
def trimSpace (s : Str) : Str :=
  let inner := (runes s).dropWhile fun r => isSpace r.code
  let kept := (inner.reverse.dropWhile fun r => isSpace r.code).reverse
  kept.flatMap Rune.bytes

@[simp] lemma trimSpace_nil : trimSpace [] = [] := rfl

lemma ne_nil_of_trimSpace {s : Str} (some : trimSpace s ≠ []) : s ≠ [] := by
  rintro rfl
  exact some trimSpace_nil

/-- `strings.Fields`: maximal runs of runes that are not space. -/
def fields (s : Str) : List Str :=
  let close (word : Str) (done : List Str) : List Str := if word.isEmpty then done else word :: done
  let (word, done) := (runes s).foldr
    (fun r (word, done) => if isSpace r.code then ([], close word done) else (r.bytes ++ word, done))
    ([], [])
  close word done

/-- Case tables of the runtime. On ASCII they are the usual ones. -/
class Unicode where
  lower : Nat → Nat
  upper : Nat → Nat
  /-- One representative for each orbit of simple case folding. -/
  fold : Nat → Nat
  lower_ascii : ∀ code, code < 0x80 → lower code = if 65 ≤ code ∧ code ≤ 90 then code + 32 else code
  upper_ascii : ∀ code, code < 0x80 → upper code = if 97 ≤ code ∧ code ≤ 122 then code - 32 else code
  fold_ascii : ∀ code, code < 0x80 → fold code = if 65 ≤ code ∧ code ≤ 90 then code + 32 else code

def asciiLower (code : Nat) : Nat := if 65 ≤ code ∧ code ≤ 90 then code + 32 else code

def asciiUpper (code : Nat) : Nat := if 97 ≤ code ∧ code ≤ 122 then code - 32 else code

/-- The tables cut down to ASCII, with the further letters that fold into it. -/
instance asciiTables : Unicode where
  lower code := if code = 0x212A then 107 else if code = 0x130 then 105 else asciiLower code
  upper code := if code = 0x17F then 83 else if code = 0x131 then 73 else asciiUpper code
  fold code := if code = 0x212A then 107 else if code = 0x17F then 115 else asciiLower code
  lower_ascii code small := by
    rw [if_neg (by omega), if_neg (by omega)]
    rfl
  upper_ascii code small := by
    rw [if_neg (by omega), if_neg (by omega)]
    rfl
  fold_ascii code small := by
    rw [if_neg (by omega), if_neg (by omega)]
    rfl

/-- `strings.ToLower`. -/
def toLower [Unicode] (s : Str) : Str := (runes s).flatMap fun r => encodeRune (Unicode.lower r.code)

/-- `strings.ToUpper`. -/
def toUpper [Unicode] (s : Str) : Str := (runes s).flatMap fun r => encodeRune (Unicode.upper r.code)

/-- `strings.EqualFold`. -/
def equalFold [Unicode] (s t : Str) : Bool :=
  (runes s).map (fun r => Unicode.fold r.code) = (runes t).map fun r => Unicode.fold r.code

/-! Where `strings.Index` finds an occurrence, and that there is none before it. -/

lemma index_none {s sub : Str} (missing : index s sub = none) (i : Nat) : ¬ sub <+: s.drop i := by
  induction s generalizing i with
  | nil =>
    simp only [index, List.isEmpty_iff] at missing
    split at missing
    · cases missing
    · rename_i some
      simpa using some
  | cons b rest ih =>
    simp only [index] at missing
    split at missing
    · cases missing
    · rename_i elsewhere
      cases i with
      | zero => simpa [List.isPrefixOf_iff_prefix] using elsewhere
      | succ i => exact ih (by simpa using missing) i

lemma index_some {s sub : Str} {i : Nat} (found : index s sub = some i) :
    sub <+: s.drop i ∧ ∀ j < i, ¬ sub <+: s.drop j := by
  induction s generalizing i with
  | nil =>
    simp only [index, List.isEmpty_iff] at found
    split at found
    · rename_i none
      cases found
      simp [none]
    · cases found
  | cons b rest ih =>
    simp only [index] at found
    split at found
    · rename_i here
      cases found
      exact ⟨List.isPrefixOf_iff_prefix.mp here, by simp⟩
    · rename_i elsewhere
      obtain ⟨later, same, rfl⟩ := Option.map_eq_some_iff.mp found
      obtain ⟨occurs, first⟩ := ih same
      refine ⟨occurs, fun j before => ?_⟩
      cases j with
      | zero => simpa [List.isPrefixOf_iff_prefix] using elsewhere
      | succ j => exact first j (by omega)

lemma not_prefix_drop {s sub : Str} {i : Nat} (some : sub ≠ []) (past : s.length ≤ i) : ¬ sub <+: s.drop i := by
  rw [List.drop_eq_nil_of_le past, List.prefix_nil]
  exact some

end EmailVerifier.Text
