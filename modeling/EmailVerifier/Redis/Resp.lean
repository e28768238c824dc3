import EmailVerifier.Text.Decimal
import EmailVerifier.Text.Lines

/-! Commands and replies on the wire: `internal/redis/resp.go`.

The reader works on what has arrived of the stream and gives back what it leaves unread;
where it runs out it fails. The values a server may send are those of RESP2, an error
element at any depth included.
-/

set_option autoImplicit false

namespace EmailVerifier.Redis
open Text Data

def encode (args : List Str) : Str :=
  lit "*" ++ formatInt args.length ++ crlf ++ args.flatMap fun a => lit "$" ++ formatInt a.length ++ crlf ++ a ++ crlf

/-! ## Reading -/

/-- Nil, a string, a number or a list. -/
inductive Reply where
  | null
  | text (s : Str)
  | int (n : Int)
  | many (elems : List Reply)
  deriving Repr

inductive Err where
  /-- `Error`, what Redis itself rejected. -/
  | rejected (msg : Str)
  /-- The connection failed, or nothing more came in time. -/
  | transport
  | nested
  | empty
  | badInt (line : Str)
  | badBulk (line : Str)
  | bulkOver (n : Int)
  | badArray (line : Str)
  | arrayOver (n : Int)
  | unexpected (line : Str)
  deriving DecidableEq, Repr

def maxBulkLen : Int := 512 * 2 ^ 20
def maxArrayLen : Int := 2 ^ 20
def maxDepth : Nat := 8

abbrev Read := Except Err Reply × Str

/-- `ReadString` up to and with a line feed. -/
def readString : Str → Option (Str × Str)
  | [] => none
  | b :: rest => if b = 10 then some ([10], rest) else (readString rest).map fun read => (b :: read.1, read.2)

/-- `io.ReadFull`: exactly `n` bytes. -/
def readFull (n : Nat) (s : Str) : Option Str × Str :=
  if s.length < n then (none, []) else (some (s.take n), s.drop n)

/-- The room a `bytes.Buffer` makes for one read. -/
def minRead : Nat := 512

/-- `io.CopyN` into a buffer that grows with the bytes that come, with the bytes still to read. -/
def copyN : Nat → Nat → Str → Str → Option Str × Str
  | 0, n, b, s => if n = 0 then (some b, s) else (none, [])
  | fuel + 1, n, b, s =>
    if n = 0 then (some b, s)
    else
      let got := min (min n minRead) s.length
      if got = 0 then (none, []) else copyN fuel (n - got) (b ++ s.take got) (s.drop got)

def smallBulk : Nat := 64 * 2 ^ 10

/-- `n` bytes and two more, allocated up front only where that is cheap. -/
def readBulk (n : Nat) (s : Str) : Read :=
  match if n ≤ smallBulk then readFull (n + 2) s else copyN (n + 2) (n + 2) [] s with
  | (none, rest) => (.error .transport, rest)
  | (some buf, rest) => (.ok (.text (buf.take n)), rest)

/-- The loop over the elements of an array, with what it has so far. -/
def readElements (read : Str → Read) : Nat → List Reply → Str → Read
  | 0, out, s => (.ok (.many out), s)
  | n + 1, out, s =>
    match read s with
    | (.error err, rest) => (.error err, rest)
    | (.ok v, rest) => readElements read n (out ++ [v]) rest

/-- The switch of `readValue` on a line, with a way to read the elements of an array. -/
def readKind (elements : Nat → List Reply → Str → Read) (line rest : Str) : Read :=
  match line with
  | [] => (.error .empty, rest)
  | kind :: arg =>
    if kind = 43 then (.ok (.text arg), rest)
    else if kind = 45 then (.error (.rejected arg), rest)
    else if kind = 58 then
      match parseInt arg with
      | none => (.error (.badInt arg), rest)
      | some n => (.ok (.int n), rest)
    else if kind = 36 then
      match parseInt arg with
      | none => (.error (.badBulk line), rest)
      | some n =>
        if n < 0 then (.ok .null, rest)
        else if maxBulkLen < n then (.error (.bulkOver n), rest)
        else readBulk n.toNat rest
    else if kind = 42 then
      match parseInt arg with
      | none => (.error (.badArray line), rest)
      | some n =>
        if n < 0 then (.ok .null, rest)
        else if maxArrayLen < n then (.error (.arrayOver n), rest)
        else elements n.toNat [] rest
    else (.error (.unexpected line), rest)

def readValue : Nat → Str → Read
  | 0, s => (.error .nested, s)
  | depth + 1, s =>
    match readString s with
    | none => (.error .transport, [])
    | some (line, rest) => readKind (readElements (readValue depth)) (trimRight line crlf) rest

def readReply (s : Str) : Read := readValue (maxDepth + 1) s

/-! ## What a server sends -/

/-- Text without a line break. -/
structure Line where
  text : Str
  plain : ∀ b ∈ text, b ≠ 13 ∧ b ≠ 10

/-- A RESP2 value. -/
inductive Value where
  | simple (s : Line)
  | error (s : Line)
  | int (n : Int) (fits : Fits64 n)
  | bulk (s : Str)
  | null
  | nullArray
  | array (elems : List Value)

def header (kind : UInt8) (arg : Str) : Str := kind :: arg ++ crlf

mutual
def encodeValue : Value → Str
  | .simple s => header 43 s.text
  | .error s => header 45 s.text
  | .int n _ => header 58 (formatInt n)
  | .bulk s => header 36 (formatInt s.length) ++ s ++ crlf
  | .null => header 36 (lit "-1")
  | .nullArray => header 42 (lit "-1")
  | .array elems => header 42 (formatInt elems.length) ++ encodeValues elems
def encodeValues : List Value → Str
  | [] => []
  | v :: more => encodeValue v ++ encodeValues more
end

/-! What a value says: the first error in it, or all of it. -/

mutual
def decode : Value → Except Err Reply
  | .simple s => .ok (.text s.text)
  | .error s => .error (.rejected s.text)
  | .int n _ => .ok (.int n)
  | .bulk s => .ok (.text s)
  | .null => .ok .null
  | .nullArray => .ok .null
  | .array elems => (decodeAll elems).map .many
def decodeAll : List Value → Except Err (List Reply)
  | [] => .ok []
  | v :: more => do
    let first ← decode v
    let others ← decodeAll more
    return first :: others
end

/-! What comes after the first error in it. -/

mutual
def leftover : Value → Str
  | .array elems => leftoverAll elems
  | _ => []
def leftoverAll : List Value → Str
  | [] => []
  | v :: more =>
    match decode v with
    | .error _ => leftover v ++ encodeValues more
    | .ok _ => leftoverAll more
end

end EmailVerifier.Redis
