import EmailVerifier.Text.Bytes

/-! Regular expressions with leftmost-first matching.

A pattern maps a position to the positions it can end at, best first: this is the
preference order of backtracking search, so the first success of a whole pattern
is the match that Go's `regexp` reports. Matching reads runes, not bytes. The
Perl classes are ASCII, and case folding adds the two letters outside ASCII that
fold onto `k` and `s`.
-/

set_option autoImplicit false

namespace EmailVerifier.Text

/-- How far a match has got: the rune just passed, those ahead, and the groups
closed so far, latest first. -/
structure Cursor where
  before : Option Nat
  ahead : List Nat
  groups : List (Nat × List Nat)
  deriving DecidableEq, Repr

inductive Pattern where
  | empty
  | one (accepts : Nat → Bool)
  | seq (first second : Pattern)
  | alt (first second : Pattern)
  /-- At least `least` and at most `most` copies, or any number of further ones. -/
  | times (greedy : Bool) (least : Nat) (most : Option Nat) (body : Pattern)
  | group (index : Nat) (body : Pattern)
  | textStart
  | textEnd
  | wordBoundary

def isDigit (r : Nat) : Bool := 48 ≤ r && r ≤ 57

def isWord (r : Nat) : Bool :=
  isDigit r || (65 ≤ r && r ≤ 90) || (97 ≤ r && r ≤ 122) || r = 95

def isPerlSpace (r : Nat) : Bool := [9, 10, 12, 13, 32].contains r

/-- Up to `extra` optional copies of a body. -/
def upTo (body : Cursor → List Cursor) (greedy : Bool) : Nat → Cursor → List Cursor
  | 0, c => [c]
  | extra + 1, c =>
    let more := (body c).flatMap (upTo body greedy extra)
    if greedy then more ++ [c] else c :: more

def repeated (body : Cursor → List Cursor) (greedy : Bool) (extra : Nat) : Nat → Cursor → List Cursor
  | 0, c => upTo body greedy extra c
  | least + 1, c => (body c).flatMap (repeated body greedy extra least)

def Pattern.run : Pattern → Cursor → List Cursor
  | .empty, c => [c]
  | .one accepts, c =>
    match c.ahead with
    | [] => []
    | r :: rest => if accepts r then [{ c with before := some r, ahead := rest }] else []
  | .seq first second, c => (first.run c).flatMap second.run
  | .alt first second, c => first.run c ++ second.run c
  | .times greedy least most body, c =>
    -- Each copy takes a rune, so what is ahead bounds an open repetition.
    repeated body.run greedy (most.getD (least + c.ahead.length) - least) least c
  | .group index body, c =>
    (body.run c).map fun d =>
      { d with groups := (index, c.ahead.take (c.ahead.length - d.ahead.length)) :: d.groups }
  | .textStart, c => if c.before.isNone then [c] else []
  | .textEnd, c => if c.ahead.isEmpty then [c] else []
  | .wordBoundary, c => if c.before.any isWord != c.ahead.head?.any isWord then [c] else []

def Pattern.findFrom (p : Pattern) (before : Option Nat) : List Nat → Option Cursor
  | [] => (p.run ⟨before, [], []⟩).head?
  | r :: rest => (p.run ⟨before, r :: rest, []⟩).head?.or (p.findFrom (some r) rest)

def Pattern.find (p : Pattern) (s : Str) : Option Cursor := p.findFrom none ((runes s).map Rune.code)

/-- `MatchString`. -/
def Pattern.isMatch (p : Pattern) (s : Str) : Bool := (p.find s).isSome

def Cursor.captured (c : Cursor) (index : Nat) : Str :=
  ((c.groups.lookup index).getD []).flatMap encodeRune

def lowerOf (r : Nat) : Nat := if 65 ≤ r ∧ r ≤ 90 then r + 32 else r

/-- One literal character; with `fold` its case variants too. -/
def Pattern.letter (fold : Bool) (c : Char) : Pattern :=
  .one fun r => r = c.toNat ||
    (fold && (lowerOf r = lowerOf c.toNat || (r = 0x212A && lowerOf c.toNat = 107)
      || (r = 0x17F && lowerOf c.toNat = 115)))

def Pattern.word (fold : Bool) (s : String) : Pattern :=
  s.toList.foldr (fun c p => .seq (.letter fold c) p) .empty

def Pattern.anyOf : List Pattern → Pattern
  | [] => .one fun _ => false
  | [p] => p
  | p :: ps => .alt p (anyOf ps)

def Pattern.words (fold : Bool) (ws : List String) : Pattern := .anyOf (ws.map (.word fold))

def Pattern.inOrder (ps : List Pattern) : Pattern := ps.foldr .seq .empty

def Pattern.optional (p : Pattern) : Pattern := .times true 0 (some 1) p

def Pattern.digit : Pattern := .one isDigit

def Pattern.space : Pattern := .one isPerlSpace

/-! Replacing the matches of a pattern.

The matches replaced are those of `ReplaceAllString`: leftmost first, none overlapping,
each looked for where the last one ended. Patterns here take at least one rune.
-/

namespace Pattern

/-- A text without its matches, from a rune on: so many runes of it belong to the last match. -/
def replaceFrom (p : Pattern) (new : Str) : Nat → Option Nat → List Rune → Str
  | _, _, [] => []
  | skip + 1, _, r :: rest => replaceFrom p new skip (some r.code) rest
  | 0, before, r :: rest =>
    match (p.run ⟨before, (r :: rest).map Rune.code, []⟩).head? with
    | some c => new ++ replaceFrom p new (rest.length - c.ahead.length) (some r.code) rest
    | none => r.bytes ++ replaceFrom p new 0 (some r.code) rest

def replaceAll (p : Pattern) (new s : Str) : Str := p.replaceFrom new 0 none (runes s)

def oneOrMore (accepts : Nat → Bool) : Pattern := .times true 1 none (.one accepts)

def joined (accepts : Nat → Bool) (mark : Char) : Pattern :=
  .inOrder [.oneOrMore accepts, .letter false mark, .oneOrMore accepts]

end Pattern

/-- Neither the mark nor between two tokens. -/
def inWord (separates : Nat → Bool) (mark r : Nat) : Bool := !separates r && r != mark

end EmailVerifier.Text
