import EmailVerifier.Semantics.Program
import EmailVerifier.Text.Decimal

/-! The list of those who asked to be forgotten: `internal/suppress/suppress.go`.

The list holds digests and no addresses. The digest function is left open but for the
length of what it gives; nothing here rests on more than that it is a function.
-/

set_option autoImplicit false

namespace EmailVerifier.Suppress
open Text Data Semantics

/-- `sha256.Sum256`. -/
class Sha256 where
  sum256 : Str → Str
  length : ∀ s, (sum256 s).length = 32

instance plainDigest : Sha256 where
  sum256 s := (s ++ List.replicate 32 0).take 32
  length s := by simp

/-- A reply of `Do`: a number, or something of another type. -/
inductive Value where
  | int (n : Int)
  | other (type : Str)
  deriving DecidableEq, Repr

inductive Key where
  | version
  | updatedAt
  deriving DecidableEq, Repr

inductive Op where
  | sismember (digest : Str)
  | del
  | sadd (digests : List Str)
  | set (key : Key) (val : Str)
  | now
  deriving DecidableEq, Repr

-- An error is its text.
def Op.Answer : Op → Type
  | .sismember _ | .del | .sadd _ => Except Str Value
  | .set _ _ => Except Str Unit
  | .now => Time

abbrev calls : Interface := ⟨Op, Op.Answer⟩

abbrev Act (A : Type) := Prog calls A

def sismember (digest : Str) : Act (Except Str Value) := Prog.ask (I := calls) (.sismember digest)

def del : Act (Except Str Value) := Prog.ask (I := calls) .del

def sadd (digests : List Str) : Act (Except Str Value) := Prog.ask (I := calls) (.sadd digests)

def set (key : Key) (val : Str) : Act (Except Str Unit) := Prog.ask (I := calls) (.set key val)

def now : Act Time := Prog.ask (I := calls) .now

/-- A store that may be missing is a flag. -/
structure Options where
  enforce : Bool := false
  salt : Str := []
  store : Bool := false
  deriving DecidableEq

def Options.Enabled (l : Options) : Bool := l.salt ≠ [] && l.store

def Options.Enforcing (l : Options) : Bool := l.Enabled && l.enforce

section
variable [Unicode]

def fold (value : Str) : Str := toLower (trimSpace value)

def Hash [Sha256] (salt value : Str) : Str := hexEncode (Sha256.sum256 (salt ++ [0] ++ fold value))

end

/-- What is looked up for an address: itself, and the domain if it has one. -/
def candidates (addr : Str) : List (String × Str) :=
  match afterLast 64 addr with
  | some domain => if domain = [] then [("address", addr)] else [("address", addr), ("domain", domain)]
  | none => [("address", addr)]

def member (digest : Str) : Act (Except Str Bool) := do
  match ← sismember digest with
  | .error err => return .error err
  | .ok (.int n) => return .ok (n = 1)
  | .ok (.other type) => return .error (lit "suppress: SISMEMBER returned " ++ type)

section
variable [Unicode] [Sha256]

def lookUp (salt : Str) : List (String × Str) → Act (Except Str (Bool × Str))
  | [] => return .ok (false, [])
  | (kind, value) :: more => do
    match ← member (Hash salt value) with
    | .error err => return .error err
    | .ok true => return .ok (true, lit "suppressed by " ++ lit kind)
    | .ok false => lookUp salt more

def Options.Suppressed (l : Options) (email : Str) : Act (Except Str (Bool × Str)) :=
  if ¬ l.Enabled ∨ email = [] then return .ok (false, [])
  else lookUp l.salt (candidates (fold email))

end

def isHex (b : UInt8) : Bool := (48 ≤ b && b ≤ 57) || (97 ≤ b && b ≤ 102) || (65 ≤ b && b ≤ 70)

def isDigest (s : Str) : Bool := s.length = 64 && s.all isHex

def chunk : Nat := 500

/-- The export, one command for each chunk. Each takes at least one digest. -/
def addChunks : Nat → List Str → Act (Except Str Unit)
  | 0, _ => return .ok ()
  | fuel + 1, digests =>
    if digests = [] then return .ok ()
    else do
      match ← sadd (digests.take chunk) with
      | .error err => return .error (lit "suppress: importing: " ++ err)
      | .ok _ => addChunks fuel (digests.drop chunk)

-- The two marks that are set once the export is in.
def sign (version : Str) : Act (Except Str Unit) := do
  match ← set .version version with
  | .error err => return .error err
  | .ok () => set .updatedAt (formatInt (← now).Unix)

def Options.Import (l : Options) (version : Str) (digests : List Str) (replace : Bool) : Act (Except Str Unit) :=
  if ¬ l.Enabled then return .error (lit "suppress: not configured (no salt or no store)")
  else if ¬ digests.all isDigest then
    return .error (lit "suppress: entry is not a sha256 digest; addresses must never be sent")
  else do
    let cleared ← if replace then del else pure (.ok (.int 0))
    match cleared with
    | .error err => return .error (lit "suppress: clearing the previous export: " ++ err)
    | .ok _ =>
      match ← addChunks digests.length digests with
      | .error err => return .error err
      | .ok () => sign version

end EmailVerifier.Suppress
