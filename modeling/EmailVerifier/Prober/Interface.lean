import Mathlib.Data.Rat.Defs
import Mathlib.Algebra.Order.Ring.Rat
import EmailVerifier.Data.Table
import EmailVerifier.Prober.Retry
import EmailVerifier.Semantics.Program
import EmailVerifier.Text.Lines

/-! The prober's data and everything it asks of its surroundings.

Requests, results and options follow `internal/prober/prober.go`. Every call out
of the package is one operation: health, resolver, pacer, dialer, connection,
suppression, profiles, randomness, this node's memory of fallen families, and the
hooks. An optional collaborator is a flag of the options. `enter` and `leave` are
not calls: they mark in a trace where one `session` begins and ends, with what it
was given and what it handed back.
-/

set_option autoImplicit false

namespace EmailVerifier.Prober
open Text Data Semantics

/-- How a session was encrypted. -/
inductive TLSOutcome where
  | none
  | verified
  | unverified
  | failed
  | fallback
  | skipped
  deriving DecidableEq, Repr

/-- Why a family fell back to one domain per session. -/
inductive FallbackReason where
  | relay
  | domainLimit
  | mailFrom
  deriving DecidableEq, Repr

/-- How a domain's catch-all question was settled. -/
inductive CatchAllOutcome where
  | skippedNoAccept
  | cleanAfter1
  | catchAll
  | randomiser
  | auditFull
  | unanswered
  deriving DecidableEq, Repr

structure DomainGroup where
  domain : Str
  emails : List Str
  needCatchAll : Bool
  deriving DecidableEq, Repr

/-- One batch for one recipient MX. `skipTLS` is set on the plaintext rerun only. -/
structure Request where
  mxHost : Str
  domain : Str := []
  emails : List Str := []
  needCatchAll : Bool := false
  helo : Str := []
  mailFrom : Str := []
  skipTLS : Bool := false
  policyStop : Int := 0
  domains : List DomainGroup := []
  deriving DecidableEq, Repr

/-- What a session established about one address. The flags are tri-state. -/
structure Result where
  connected : Option Bool := none
  accepted : Option Bool := none
  catchAll : Option Bool := none
  randomiser : Option Bool := none
  smtpCode : Int := 0
  enhancedCode : Str := []
  cls : Class := .unset
  reply : Str := []
  err : Str := []
  retryAfterSeconds : Nat := 0
  tls : Option TLSOutcome := none
  deriving DecidableEq, Repr

abbrev Results := Table Str Result

structure Response where
  results : Results
  paceKey : Str := []
  multiDomain : Bool := false
  deriving DecidableEq

/-- One domain's addresses inside one session. -/
structure SessionGroup where
  domain : Str
  addrs : List Str
  askCatchAll : Bool := false
  deriving DecidableEq, Repr

structure CatchAllVerdict where
  catchAll : Option Bool := none
  randomiser : Option Bool := none
  deriving DecidableEq, Repr

abbrev Verdicts := Table Str CatchAllVerdict

/-- Which pacer is wired: none at all, one that only paces, or one that also hands
out session leases. -/
inductive PacerKind where
  | none
  | pacing
  | leasing
  deriving DecidableEq, Repr

/-- Which profile store is wired, and whether it remembers broken TLS. -/
inductive ProfilesKind where
  | none
  | plain
  | tls
  deriving DecidableEq, Repr

/-- The optional interfaces a metrics sink implements. -/
structure Recorder where
  catchAll : Bool := true
  tls : Bool := true
  multiDomain : Bool := true
  deriving DecidableEq, Repr

/-- The options a prober is built with; durations are nanoseconds. -/
structure Options where
  helo : Str := []
  mailFrom : Str := []
  sourceIP : Str := []
  timeout : Int := 0
  dialNetwork : Str := []
  port : Str := []
  maxRCPTPerSession : Int := 0
  deferralRetry : Int := 0
  policyStop : Int := 0
  policyStopMax : Int := 0
  catchAllProbes : Int := 0
  catchAllAuditRate : ℚ := 0
  startTLS : Str := []
  tlsHandshakeTimeout : Int := 0
  replyMaxChars : Int := 0
  multiDomain : Option (Str → Str × Bool) := none
  pacer : PacerKind := .none
  profiles : ProfilesKind := .none
  metrics : Option Recorder := none
  health : Bool := false
  suppress : Bool := false
  onReply : Bool := false
  onRefusal : Bool := false
  onLease : Bool := false
  onFallback : Bool := false
  onPaced : Bool := false
  onSuppressionError : Bool := false

/-- A vetted address, as it is written. -/
structure Addr where
  string : Str
  deriving DecidableEq, Repr

/-- A connection, by the socket it runs over and whether TLS has been put on it. -/
structure Conn where
  socket : Nat
  tls : Bool := false
  deriving DecidableEq, Repr

/-- A granted session lease. -/
structure Lease where
  id : Nat
  waited : Nat := 0
  deriving DecidableEq, Repr

/-- The commands of a session. A bogus recipient is written like a real one; the
two are kept apart because only one of them stands in the request. -/
inductive Command where
  | ehlo (helo : Str)
  | startTLS
  | mailFrom (sender : Str)
  | rcpt (addr : Str)
  | bogus (addr : Str)
  | rset
  | quit
  deriving DecidableEq, Repr

def Command.line : Command → Str
  | .ehlo helo => lit "EHLO " ++ helo
  | .startTLS => lit "STARTTLS"
  | .mailFrom sender => lit "MAIL FROM:<" ++ sender ++ lit ">"
  | .rcpt addr => lit "RCPT TO:<" ++ addr ++ lit ">"
  | .bogus addr => lit "RCPT TO:<" ++ addr ++ lit ">"
  | .rset => lit "RSET"
  | .quit => lit "QUIT"

def Command.bytes (c : Command) : Str := c.line ++ crlf

structure Reply where
  code : Int
  text : Str
  deriving DecidableEq, Repr

structure ReplyEvent where
  mxHost : Str
  cls : Class
  smtpCode : Int
  enhancedCode : Str
  reply : Str
  err : Str
  tls : Option TLSOutcome
  deriving DecidableEq, Repr

/-- What the metrics sink is told. -/
inductive Metric where
  | tlsSession (outcome : TLSOutcome)
  | sessionDomains (n : Nat)
  | multiDomainFallback (family : Str) (reason : FallbackReason)
  | catchAllProbes (outcome : CatchAllOutcome)
  | result (cls : Class)
  | reply (code : Int) (cls : Class)
  | blocked (reason : Str)
  deriving DecidableEq, Repr

/-- Something told to a hook or an observer. Nobody may be listening. -/
inductive Notice where
  | observe (host : Str) (throttled : Bool)
  | observePolicy (host : Str)
  | count (metric : Metric)
  | onLease (host : Str) (waited : Nat)
  | onPaced (host : Str)
  | onRefusal (host reply : Str)
  | onReply (event : ReplyEvent)
  | onFallback (family host : Str) (reason : FallbackReason) (reply : Str)
  | onSuppressionError (err : Failure)
  deriving DecidableEq, Repr

inductive Op where
  | enter (groups : List SessionGroup) (grouped : Bool)
  | leave (rest : List Str)
  | burned
  | resolve (host : Str)
  | acquireSession (host domain : Str)
  | release (lease : Lease)
  | acquire (host domain : Str)
  | dialContext (network target : Str) (timeout : Nat)
  | setDeadline (conn : Conn) (timeout : Nat)
  | setWriteDeadline (conn : Conn) (timeout : Nat)
  | write (conn : Conn) (command : Command)
  | readReply (conn : Conn)
  | handshake (conn : Conn) (serverName : Str) (timeout : Nat)
  | close (conn : Conn)
  | isRandomiser (host : Str)
  | markRandomiser (host : Str)
  | tlsBroken (host : Str)
  | markTLSBroken (host : Str)
  | enforcing
  | suppressed (email : Str)
  | fallenLoad (family : Str)
  | fallenLoadOrStore (family : Str)
  | randRead
  | randFloat
  | notify (notice : Notice)
  deriving DecidableEq, Repr

abbrev Nonce := { bytes : Str // bytes.length = 12 }

def Op.Answer : Op → Type
  | .burned => Bool × Str
  | .resolve _ => Except Failure (List Addr)
  | .acquireSession _ _ => Except Failure Lease
  | .acquire _ _ => Except Failure Unit
  | .dialContext _ _ _ => Except Failure Nat
  | .write _ _ => Except Failure Unit
  | .readReply _ => Except Failure Reply
  | .handshake _ _ _ => Except Failure Bool
  | .isRandomiser _ => Bool
  | .tlsBroken _ => Bool
  | .enforcing => Bool
  | .suppressed _ => Except Failure (Bool × Str)
  | .fallenLoad _ => Bool
  | .fallenLoadOrStore _ => Bool
  | .randRead => Except Failure Nonce
  | .randFloat => ℚ
  | _ => Unit

abbrev calls : Interface := ⟨Op, Op.Answer⟩

abbrev Act (A : Type) := Prog calls A

/-! ## The calls, typed -/

def enter (groups : List SessionGroup) (grouped : Bool) : Act Unit :=
  Prog.ask (I := calls) (.enter groups grouped)

def leave (rest : List Str) : Act Unit := Prog.ask (I := calls) (.leave rest)

def burned : Act (Bool × Str) := Prog.ask (I := calls) .burned

def resolve (host : Str) : Act (Except Failure (List Addr)) := Prog.ask (I := calls) (.resolve host)

def acquireSession (host domain : Str) : Act (Except Failure Lease) :=
  Prog.ask (I := calls) (.acquireSession host domain)

def release (lease : Lease) : Act Unit := Prog.ask (I := calls) (.release lease)

def pacerAcquire (host domain : Str) : Act (Except Failure Unit) :=
  Prog.ask (I := calls) (.acquire host domain)

def dialContext (network target : Str) (timeout : Nat) : Act (Except Failure Nat) :=
  Prog.ask (I := calls) (.dialContext network target timeout)

def setDeadline (conn : Conn) (timeout : Nat) : Act Unit :=
  Prog.ask (I := calls) (.setDeadline conn timeout)

def setWriteDeadline (conn : Conn) (timeout : Nat) : Act Unit :=
  Prog.ask (I := calls) (.setWriteDeadline conn timeout)

def writeLine (conn : Conn) (command : Command) : Act (Except Failure Unit) :=
  Prog.ask (I := calls) (.write conn command)

def readLines (conn : Conn) : Act (Except Failure Reply) := Prog.ask (I := calls) (.readReply conn)

def handshake (conn : Conn) (serverName : Str) (timeout : Nat) : Act (Except Failure Bool) :=
  Prog.ask (I := calls) (.handshake conn serverName timeout)

def close (conn : Conn) : Act Unit := Prog.ask (I := calls) (.close conn)

def isRandomiser (host : Str) : Act Bool := Prog.ask (I := calls) (.isRandomiser host)

def markRandomiser (host : Str) : Act Unit := Prog.ask (I := calls) (.markRandomiser host)

def profileTLSBroken (host : Str) : Act Bool := Prog.ask (I := calls) (.tlsBroken host)

def profileMarkTLSBroken (host : Str) : Act Unit := Prog.ask (I := calls) (.markTLSBroken host)

def enforcing : Act Bool := Prog.ask (I := calls) .enforcing

def suppressed (email : Str) : Act (Except Failure (Bool × Str)) :=
  Prog.ask (I := calls) (.suppressed email)

def fallenLoad (family : Str) : Act Bool := Prog.ask (I := calls) (.fallenLoad family)

def fallenLoadOrStore (family : Str) : Act Bool := Prog.ask (I := calls) (.fallenLoadOrStore family)

def randRead : Act (Except Failure Nonce) := Prog.ask (I := calls) .randRead

def randFloat : Act ℚ := Prog.ask (I := calls) .randFloat

def notify (wired : Bool) (notice : Notice) : Act Unit :=
  if wired then Prog.ask (I := calls) (.notify notice) else pure ()

end EmailVerifier.Prober
