import EmailVerifier.Data.Table
import EmailVerifier.Semantics.Program
import EmailVerifier.Text.Bytes

/-! The relay's data, the commands it sends to Redis and the calls it makes.

`internal/relay` keeps one message under `relay:msg:<id>` and moves its id between the
lists `relay:ready` and `relay:dead` and the sorted set `relay:later`. A command is
written here with its key already chosen, and its reply with the type Redis gives it.
Times are nanoseconds since the epoch.
-/

set_option autoImplicit false

namespace EmailVerifier.Relay
open Text Data Semantics

-- The errors this service tests for with `errors.Is`.
inductive Sentinel where
  | notSending
  | nullMX
  deriving DecidableEq, Repr

structure Err where
  text : Str
  is : List Sentinel := []
  deriving DecidableEq, Repr

/-- `fmt.Errorf` with the error wrapped at the end. -/
def Err.wrap (message : Str) (err : Err) : Err := { err with text := message ++ err.text }

def errorsNew (text : String) : Err := { text := lit text }

structure Header where
  name : Str
  value : Str
  deriving DecidableEq, Repr

structure Message where
  from_ : Str
  to_ : Str
  subject : Str
  text : Str := []
  html : Str := []
  extra : List Header := []
  deriving DecidableEq, Repr

/-- One queued message, as stored. -/
structure Item where
  id : Str
  mailFrom : Str := []
  rcptTo : Str := []
  data : Str := []
  attempts : Nat := 0
  queued : Int := 0
  lastErr : Str := []
  deriving DecidableEq, Repr

/-- What one delivery attempt concluded. -/
structure Outcome where
  delivered : Bool := false
  permanent : Bool := false
  code : Int := 0
  reply : Str := []
  err : Str := []
  tls : Bool := false
  deriving DecidableEq, Repr

structure SendOptions where
  mxHost : Str
  helo : Str
  mailFrom : Str
  rcptTo : Str
  data : Str
  timeout : Int
  deriving DecidableEq, Repr

/-! ## Redis -/

inductive ListKey where
  | ready
  | dead
  deriving DecidableEq, Repr

inductive Cmd where
  | set (id blob : Str)
  | get (id : Str)
  | del (id : Str)
  | lpush (key : ListKey) (id : Str)
  | rpop
  | zadd (due : Int) (id : Str)
  | zrem (id : Str)
  | zrangeByScore (upTo : Int)
  | llen (key : ListKey)
  | zcard
  deriving DecidableEq, Repr

def Cmd.Reply : Cmd → Type
  | .get _ => Option Str
  | .rpop => Option Str
  | .zrem _ => Int
  | .zrangeByScore _ => List Str
  | .llen _ => Int
  | .zcard => Int
  | _ => Unit

/-- The keys of the relay. `ready` and `dead` have the head of the Redis list first,
`later` is in the order of the sorted set. -/
structure Store where
  bodies : Table Str Str := ∅
  ready : List Str := []
  later : List (Int × Str) := []
  dead : List Str := []

-- A sorted set orders equal scores by the member's bytes.
def sooner (a b : Int × Str) : Bool := a.1 < b.1 || (a.1 = b.1 && a.2 < b.2)

def schedule (entry : Int × Str) : List (Int × Str) → List (Int × Str)
  | [] => [entry]
  | first :: more => if sooner entry first then entry :: first :: more else first :: schedule entry more

def Cmd.run : (c : Cmd) → Store → c.Reply × Store
  | .set id blob, s => ((), { s with bodies := s.bodies.insert id blob })
  | .get id, s => (s.bodies.lookup id, s)
  | .del id, s => ((), { s with bodies := s.bodies.erase id })
  | .lpush .ready id, s => ((), { s with ready := id :: s.ready })
  | .lpush .dead id, s => ((), { s with dead := id :: s.dead })
  | .rpop, s => (s.ready.getLast?, { s with ready := s.ready.dropLast })
  -- A member that is there already gets the new score.
  | .zadd due id, s => ((), { s with later := schedule (due, id) (s.later.filter fun e => e.2 ≠ id) })
  | .zrem id, s =>
    ((if s.later.any fun e => e.2 = id then 1 else 0 : Int), { s with later := s.later.filter fun e => e.2 ≠ id })
  | .zrangeByScore upTo, s => ((s.later.filter fun e => e.1 ≤ upTo).map Prod.snd, s)
  | .llen .ready, s => ((s.ready.length : Int), s)
  | .llen .dead, s => ((s.dead.length : Int), s)
  | .zcard, s => ((s.later.length : Int), s)

/-! ## Calls -/

inductive Op where
  | store (command : Cmd)
  | now
  | randRead (n : Nat)
  | burned
  | sendingPaused
  | enforcing
  | stale
  | suppressed (addr : Str)
  | sign (headers : List Header) (body : Str)
  | mx (domain : Str)
  | acquire (mxHost domain : Str)
  | observe (mxHost : Str) (throttled : Bool)
  | resolve (host : Str)
  | dialContext (network address : Str)
  | send (conn : Nat) (options : SendOptions)
  | sent (outcome : Str)
  | queueDepth (ready later dead : Int)
  deriving DecidableEq, Repr

def Op.Answer : Op → Type
  | .store command => Except Err command.Reply
  | .now => Int
  | .randRead n => Except Err { bytes : Str // bytes.length = n }
  | .burned => Bool × Str
  | .sendingPaused => Bool × Str
  | .enforcing => Bool
  | .stale => Bool
  | .suppressed _ => Except Err (Bool × Str)
  | .sign _ _ => Except Err Str
  | .mx _ => Except Err (List Str)
  | .acquire _ _ => Except Err Unit
  | .resolve _ => Except Err (List Str)
  | .dialContext _ _ => Except Err Nat
  | .send _ _ => Outcome
  | _ => Unit

abbrev calls : Interface := ⟨Op, Op.Answer⟩

abbrev Act (A : Type) := Prog calls A

def command (c : Cmd) : Act (Except Err c.Reply) := Prog.ask (I := calls) (.store c)

def now : Act Int := Prog.ask (I := calls) .now

def randRead (n : Nat) : Act (Except Err { bytes : Str // bytes.length = n }) :=
  Prog.ask (I := calls) (.randRead n)

def burned : Act (Bool × Str) := Prog.ask (I := calls) .burned

def sendingPaused : Act (Bool × Str) := Prog.ask (I := calls) .sendingPaused

def enforcing : Act Bool := Prog.ask (I := calls) .enforcing

def stale : Act Bool := Prog.ask (I := calls) .stale

def suppressed (addr : Str) : Act (Except Err (Bool × Str)) := Prog.ask (I := calls) (.suppressed addr)

def sign (headers : List Header) (body : Str) : Act (Except Err Str) :=
  Prog.ask (I := calls) (.sign headers body)

def mx (domain : Str) : Act (Except Err (List Str)) := Prog.ask (I := calls) (.mx domain)

def acquire (mxHost domain : Str) : Act (Except Err Unit) := Prog.ask (I := calls) (.acquire mxHost domain)

def observe (mxHost : Str) (throttled : Bool) : Act Unit := Prog.ask (I := calls) (.observe mxHost throttled)

def resolve (host : Str) : Act (Except Err (List Str)) := Prog.ask (I := calls) (.resolve host)

def dialContext (network address : Str) : Act (Except Err Nat) :=
  Prog.ask (I := calls) (.dialContext network address)

def send (conn : Nat) (options : SendOptions) : Act Outcome := Prog.ask (I := calls) (.send conn options)

def sent (outcome : Str) : Act Unit := Prog.ask (I := calls) (.sent outcome)

def queueDepth (ready later dead : Int) : Act Unit := Prog.ask (I := calls) (.queueDepth ready later dead)

end EmailVerifier.Relay
