import EmailVerifier.Data.Table
import EmailVerifier.Resolver.Guard
import EmailVerifier.Semantics.Player
import EmailVerifier.Semantics.Pool

/-! Resolving a host and vetting every answer: `internal/resolver/resolver.go` and
`cache.go`.

The cache is a step of its own each time it is asked or written to; in between other
calls may come. Which entry a full cache drops is Go's choice and left open, and so is
how a literal is parsed.
-/

set_option autoImplicit false

namespace EmailVerifier.Resolver
open Text Data Semantics

inductive Err where
  | hostEmpty
  /-- `resolve <host>: <err>` -/
  | lookup (host err : Str)
  /-- `resolve <host>: no routable address` -/
  | noRoutableAddress (host : Str)
  /-- `BlockedError` -/
  | blocked (host : Str) (addr : Addr) (reason : Str)
  deriving DecidableEq, Repr

/-! ## The cache -/

structure Entry where
  addrs : List Addr
  err : Option Err
  expires : Int
  deriving DecidableEq, Repr

structure Cache where
  entries : Table Str Entry := ∅
  ttl : Int
  negTTL : Int
  max : Int

def second : Int := 1000000000

def newCache (ttl negTTL size : Int) : Cache where
  ttl := if ttl ≤ 0 then 5 * 60 * second else ttl
  negTTL := if negTTL ≤ 0 then 60 * second else negTTL
  max := if size ≤ 0 then 4096 else size

namespace Cache

variable (c : Cache)

def size : Int := c.entries.keys.length

def keep (test : Str → Entry → Bool) : Cache := { c with entries := c.entries.keep test }

def delete (host : Str) : Cache := { c with entries := c.entries.erase host }

def get (now : Int) (host : Str) : Option Entry × Cache :=
  match c.entries.lookup host with
  | none => (none, c)
  | some e => if e.expires < now then (none, c.delete host) else (some e, c)

/-- The first loop of `evictLocked`. -/
def sweep (now : Int) : Cache := c.keep fun _ e => !(e.expires < now)

def evictLocked (now : Int) (victim : Str) : Cache :=
  if (c.sweep now).size < c.max then c.sweep now else (c.sweep now).delete victim

def holds (err : Option Err) : Int := if err.isSome then c.negTTL else c.ttl

def put (now later : Int) (victim host : Str) (addrs : List Addr) (err : Option Err) : Cache :=
  let c' := if c.max ≤ c.size then c.evictLocked now victim else c
  { c' with entries := c'.entries.insert host ⟨addrs, err, later + c.holds err⟩ }

end Cache

/-! ## The resolver -/

inductive Op where
  | get (host : Str)
  | lookup (network host : Str)
  | put (host : Str) (addrs : List Addr) (err : Option Err)
  deriving DecidableEq

def Op.Answer : Op → Type
  | .get _ => Option Entry
  | .lookup _ _ => Except Str (List Addr)
  | .put _ _ _ => Unit

def calls : Interface := ⟨Op, Op.Answer⟩

abbrev Act := Prog calls

def get (host : Str) : Act (Option Entry) := Prog.ask (I := calls) (.get host)
def lookup (network host : Str) : Act (Except Str (List Addr)) := Prog.ask (I := calls) (.lookup network host)
def put (host : Str) (addrs : List Addr) (err : Option Err) : Act Unit := Prog.ask (I := calls) (.put host addrs err)

structure Options where
  network : Str := []
  cacheTTL : Int := 0
  negativeTTL : Int := 0
  cacheSize : Int := 0

def Options.net (o : Options) : Str := if o.network = [] then lit "ip4" else o.network

/-- `netip.ParseAddr`. -/
class Literals where
  parseAddr : Str → Option Addr

/-- The loop of `Resolve` over the answers: what passes, and the first refusal. -/
def vet (host : Str) (addrs : List Addr) : List Addr × Option Err :=
  addrs.foldl (fun (out, first) a =>
    let a := a.Unmap
    if (Blocked a).1 then (out, first.or (some (.blocked host a (Blocked a).2))) else (out ++ [a], first)) ([], none)

def conclude (host : Str) (addrs : List Addr) (err : Option Err) : Act (List Addr × Option Err) := do
  put host addrs err
  return (addrs, err)

/-- The addresses of a host that are safe to connect to, or an error. -/
def Resolve [Literals] (o : Options) (host : Str) : Act (List Addr × Option Err) := do
  if host = [] then return ([], some .hostEmpty)
  match Literals.parseAddr host with
  | some addr =>
    -- A literal is vetted directly rather than looked up.
    return if (Blocked addr).1 then ([], some (.blocked host addr (Blocked addr).2)) else ([addr], none)
  | none =>
    match ← get host with
    | some e => return (e.addrs, e.err)
    | none =>
      match ← lookup o.net host with
      | .error err => conclude host [] (some (.lookup host err))
      | .ok [] => conclude host [] (some (.noRoutableAddress host))
      | .ok addrs =>
        let (out, first) := vet host addrs
        if out = [] then conclude host [] first else conclude host out none

/-! ## Many calls -/

/-- What was put into the cache, and when. -/
structure Stored where
  host : Str
  addrs : List Addr
  err : Option Err
  time : Int
  deriving DecidableEq

/-- The cache, the clock, and a record of everything that was ever stored. -/
structure Shared where
  cache : Cache
  clock : Int
  stored : List Stored := []

inductive Serves : World calls Shared where
  | got {s : Shared} {host : Str} {now : Int} : s.clock ≤ now →
      Serves s ⟨.get host, (s.cache.get now host).1⟩ { s with cache := (s.cache.get now host).2, clock := now }
  | looked {s : Shared} {network host : Str} {answer : Except Str (List Addr)} : Serves s ⟨.lookup network host, answer⟩ s
  -- Any entry may be the one that is dropped.
  | put {s : Shared} {host : Str} {addrs : List Addr} {err : Option Err} {now later : Int} {victim : Str} :
      s.clock ≤ now → now ≤ later → ((s.cache.sweep now).size < s.cache.max ∨ victim ∈ (s.cache.sweep now).entries) →
      Serves s ⟨.put host addrs err, ()⟩
        { cache := s.cache.put now later victim host addrs err, clock := later
          stored := s.stored ++ [⟨host, addrs, err, later⟩] }

abbrev Answered := List Addr × Option Err

/-- Any number of calls at once; the clock goes on, and entries may be dropped at any time. -/
def resolvers [Literals] (o : Options) : Rules calls Answered Shared where
  world := Serves
  job p := ∃ host, p = Resolve o host
  drift pool s' := ∃ later test, pool.shared.clock ≤ later ∧
    s' = { pool.shared with clock := later, cache := pool.shared.cache.keep test }

abbrev Calls := Pool calls Answered Shared

def started (o : Options) (clock : Int) : Calls :=
  { shared := { cache := newCache o.cacheTTL o.negativeTTL o.cacheSize, clock } }

end EmailVerifier.Resolver
