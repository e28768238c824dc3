import EmailVerifier.Redis.Framing
import EmailVerifier.Semantics.Hands
import EmailVerifier.Semantics.Player

/-! The pooled client: `internal/redis/client.go`.

A connection is a number; what has come in on it and was not read yet is kept with it. To
open one, to set its deadline and to write on it may fail, with an error of the transport.
The server answers each command it gets with one value of its choice. The answer of a write
that went through is that value: `Do` does not look at it, it stands in the trace.
-/

set_option autoImplicit false

namespace EmailVerifier.Redis
open Text Data Semantics

inductive Op where
  /-- The last idle connection, if there is one. -/
  | take
  | dial
  | setDeadline (conn : Nat)
  | write (conn : Nat) (bytes : Str)
  | read (conn : Nat)
  /-- Back to the idle ones, or closed if they are enough. -/
  | park (conn : Nat)
  | close (conn : Nat)
  deriving DecidableEq

def Op.Answer : Op → Type
  | .take => Option Nat
  | .dial => Option Nat
  | .setDeadline _ => Bool
  | .write _ _ => Option Value
  | .read _ => Except Err Reply
  | .park _ | .close _ => Unit

abbrev calls : Interface := ⟨Op, Op.Answer⟩

abbrev Act := Prog calls

def take : Act (Option Nat) := Prog.ask (I := calls) .take
def dial : Act (Option Nat) := Prog.ask (I := calls) .dial
def setDeadline (conn : Nat) : Act Bool := Prog.ask (I := calls) (.setDeadline conn)
def write (conn : Nat) (bytes : Str) : Act (Option Value) := Prog.ask (I := calls) (.write conn bytes)
def read (conn : Nat) : Act (Except Err Reply) := Prog.ask (I := calls) (.read conn)
def park (conn : Nat) : Act Unit := Prog.ask (I := calls) (.park conn)
def close (conn : Nat) : Act Unit := Prog.ask (I := calls) (.close conn)

def get : Act (Option Nat) := do
  match ← take with
  | some c => return some c
  | none => dial

def put (c : Nat) (out : Except Err Reply) : Act Unit :=
  match out with
  | .error err => if err.fatal then close c else park c
  | .ok _ => park c

def Do (args : List Str) : Act (Except Err Reply) := do
  match ← get with
  | none => return .error .transport
  | some c =>
    if ¬ (← setDeadline c) then
      close c
      return .error .transport
    match ← write c (encode args) with
    | none =>
      close c
      return .error .transport
    | some _ =>
      let reply ← read c
      put c reply
      return reply

/-- A script and its SHA-1. -/
structure Script where
  body : Str
  sha : Str

def Script.argv (verb script : Str) (keys args : List Str) : List Str :=
  [verb, script, formatInt keys.length] ++ keys ++ args

def Run (s : Script) (keys args : List Str) : Act (Except Err Reply) := do
  match ← Do (Script.argv (lit "EVALSHA") s.sha keys args) with
  | .error (.rejected msg) =>
    if hasPrefix msg (lit "NOSCRIPT") then Do (Script.argv (lit "EVAL") s.body keys args)
    else return .error (.rejected msg)
  | out => return out

/-! ## Many calls -/

inductive Call where
  | Do (args : List Str)
  | Run (s : Script) (keys args : List Str)

def Call.perform : Call → Act (Except Err Reply)
  | .Do args => Redis.Do args
  | .Run s keys args => Redis.Run s keys args

def Call.commands : Call → List (List Str)
  | .Do args => [args]
  | .Run s keys args => [Script.argv (lit "EVALSHA") s.sha keys args, Script.argv (lit "EVAL") s.body keys args]

def Call.called (call : Call) : Act (Call × Except Err Reply) := do return (call, ← call.perform)

structure Shared where
  idle : List Nat := []
  cap : Nat
  -- What has come in on a connection and was not read.
  unread : Nat → Str := fun _ => []
  -- How many connections were opened.
  opened : Nat := 0

def Shared.receive (s : Shared) (conn : Nat) (bytes : Str) : Shared := { s with unread := Function.update s.unread conn bytes }

/-- How much of an answer arrives in time is open. -/
inductive Serves : World calls Shared where
  | took {s : Shared} {idle : List Nat} {conn : Nat} : s.idle = idle ++ [conn] →
      Serves s ⟨.take, some conn⟩ { s with idle }
  | noneIdle {s : Shared} : s.idle = [] → Serves s ⟨.take, none⟩ s
  | dialled {s : Shared} : Serves s ⟨.dial, some s.opened⟩ { s.receive s.opened [] with opened := s.opened + 1 }
  | undialled {s : Shared} : Serves s ⟨.dial, none⟩ s
  | timed {s : Shared} {conn : Nat} {ok : Bool} : Serves s ⟨.setDeadline conn, ok⟩ s
  | written {s : Shared} {conn : Nat} {bytes : Str} {v : Value} :
      Serves s ⟨.write conn bytes, some v⟩ (s.receive conn (s.unread conn ++ encodeValue v))
  -- Some of it may have reached the server all the same.
  | unwritten {s : Shared} {conn : Nat} {bytes received : Str} :
      Serves s ⟨.write conn bytes, none⟩ (s.receive conn received)
  | read {s : Shared} {conn : Nat} {arrived more : Str} : s.unread conn = arrived ++ more →
      Serves s ⟨.read conn, (readReply arrived).1⟩ (s.receive conn ((readReply arrived).2 ++ more))
  | parked {s : Shared} {conn : Nat} :
      Serves s ⟨.park conn, ()⟩ (if s.idle.length < s.cap then { s with idle := s.idle ++ [conn] } else s)
  | closed {s : Shared} {conn : Nat} : Serves s ⟨.close conn, ()⟩ s

/-- Any number of calls at once; `Close` may come at any time. -/
def client : Rules calls (Call × Except Err Reply) Shared where
  world := Serves
  job p := ∃ call : Call, p = call.called
  drift pool s' := s' = { pool.shared with idle := [] }

abbrev Calls := Pool calls (Call × Except Err Reply) Shared

/-- `New`. -/
def New (poolSize : Int) : Calls := { shared := { cap := if poolSize ≤ 0 then 8 else poolSize.toNat } }

end EmailVerifier.Redis
