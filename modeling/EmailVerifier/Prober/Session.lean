import EmailVerifier.Prober.Options

/-! One SMTP session: `Prober.session` of `internal/prober/prober.go` and the
helpers it calls, as programs over the prober's calls.

An early return is the error side of an `Except`. The deferred calls run where
the body ends, in the order Go runs them: the connection, the lease, the stamp.
-/

set_option autoImplicit false

namespace EmailVerifier.Prober
open Text Data Semantics

/-- What a session hands back: results, catch-all verdicts, and the addresses it
left unasked because grouping was refused. -/
structure Exit where
  results : Results := ∅
  verdicts : Verdicts := ∅
  rest : List Str := []

/-- What a session has gathered between two questions. -/
structure Progress where
  out : Results := ∅
  verdicts : Verdicts := ∅
  asked : Nat := 0
  policyRun : Nat := 0

/-- `fail`: one non-answer for every address of the session. -/
def failAll (addrs : List Str) (r : Result) : Exit where
  results := Table.setAll addrs r ∅

/-- `unattempted`: every address left gets the same non-answer. -/
def Progress.unattempted (p : Progress) (left : List Str) (r : Result) : Exit where
  results := Table.setAll left r p.out
  verdicts := p.verdicts

def observe (o : Options) (host : Str) (cls : Class) : Act Unit :=
  notify o.paced (.observe host cls.isThrottle)

def refused (o : Options) (host : Str) (cls : Class) (reply : Str) : Act Unit :=
  notify (cls = .policy && o.onRefusal) (.onRefusal host reply)

def countCatchAll (o : Options) (outcome : CatchAllOutcome) : Act Unit :=
  notify (o.counted Recorder.catchAll) (.count (.catchAllProbes outcome))

def acquire (o : Options) (req : Request) : Act (Except Failure Unit) :=
  if o.paced then do
    match ← pacerAcquire req.mxHost req.domain with
    | .error err => pure (.error err)
    | .ok _ => do
      notify o.onPaced (.onPaced req.mxHost)
      pure (.ok ())
  else pure (.ok ())

def leaseSession (o : Options) (req : Request) : Act (Except Failure (Option Lease)) :=
  if o.leases then do
    match ← acquireSession req.mxHost req.domain with
    | .error err => pure (.error err)
    | .ok lease => do
      notify o.onLease (.onLease req.mxHost lease.waited)
      pure (.ok (some lease))
  else pure (.ok none)

def releaseLease : Option Lease → Act Unit
  | none => pure ()
  | some lease => release lease

def noAddress : Failure where
  text := lit "prober: no address to dial"

/-- The vetted addresses in order; the last failure is the one reported. -/
def dialAny (o : Options) : List Addr → Failure → Act (Except Failure Conn)
  | [], lastErr => pure (.error lastErr)
  | a :: more, _ => do
    match ← dialContext o.network (joinHostPort a.string o.portOr) o.timeoutOr with
    | .ok socket => pure (.ok { socket := socket })
    | .error err => dialAny o more err

def step (conn : Conn) : Option Command → Act (Except Failure Reply)
  | none => readLines conn
  | some command => do
    match ← writeLine conn command with
    | .error err => pure (.error err)
    | .ok _ => readLines conn

def teardown (conn : Conn) : Act Unit := do
  setWriteDeadline conn teardownTimeout
  let _ ← writeLine conn .rset
  let _ ← writeLine conn .quit
  pure ()

/-- The family behind a host and whether it may be grouped right now. -/
def grouping (o : Options) (host : Str) : Act (Str × Bool) :=
  match o.multiDomain with
  | none => pure ([], false)
  | some cleared =>
    if (cleared host).2 then do
      let fell ← fallenLoad (cleared host).1
      pure ((cleared host).1, !fell)
    else pure ((cleared host).1, false)

def fallBack (o : Options) (host : Str) (reason : FallbackReason) (reply : Str) : Act Unit := do
  let (family, _) ← grouping o host
  if family = [] then pure ()
  else do
    let already ← fallenLoadOrStore family
    if already then pure ()
    else do
      notify (o.counted Recorder.multiDomain) (.count (.multiDomainFallback family reason))
      notify o.onFallback (.onFallback family host reason (redactReply reply o.replyLimit))

def regroupFrom (o : Options) (req : Request) (conn : Conn) (p : Progress) (left : List Str)
    (reason : FallbackReason) (reply : Str) : Act Exit := do
  fallBack o req.mxHost reason reply
  teardown conn
  pure { results := p.out, verdicts := p.verdicts, rest := left }

def bogusAddress (domain : Str) : Act (Except Failure Str) :=
  if domain = [] then
    pure (.error { text := lit "prober: domain is required for catch-all detection" })
  else do
    match ← randRead with
    | .error err => pure (.error { err with text := lit "prober: random local part: " ++ err.text })
    | .ok nonce => pure (.ok (bogusFor nonce domain))

def auditDrawn (o : Options) : Act Bool :=
  if o.catchAllAuditRate ≤ 0 then pure false
  else do
    let draw ← randFloat
    pure (draw < o.catchAllAuditRate)

def tlsBroken (o : Options) (host : Str) : Act Bool :=
  if o.profiles = .tls then profileTLSBroken host else pure false

def markTLSBroken (o : Options) (host : Str) : Act Unit :=
  if o.profiles = .tls then profileMarkTLSBroken host else pure ()

section
variable [Unicode]

/-- A question before any RCPT. Another code than the wanted one, or no reply at
all, ends the session for every address. -/
def expect (o : Options) (req : Request) (addrs : List Str) (conn : Conn) (command : Option Command)
    (want : Int) : Act (Except Exit Reply) := do
  match ← step conn command with
  | .error err => pure (.error (failAll addrs (failure o (classifyNetErr err) 0 [] err.text)))
  | .ok reply =>
    if reply.code = want then pure (.ok reply)
    else do
      observe o req.mxHost (beforeRCPT o reply)
      refused o req.mxHost (beforeRCPT o reply) reply.text
      pure (.error (failAll addrs (failure o (beforeRCPT o reply) reply.code reply.text [])))

/-- How STARTTLS went. -/
inductive Secured where
  | plain (outcome : TLSOutcome)
  | upgraded (verified : Bool)
  | failed (err : Failure)

def negotiate (o : Options) (req : Request) (conn : Conn) (ehlo : Str) : Act Secured :=
  if req.skipTLS then pure (.plain .fallback)
  else if !o.startTLSOn || !advertisesSTARTTLS ehlo then pure (.plain .none)
  else do
    let broken ← tlsBroken o req.mxHost
    if broken then pure (.plain .skipped)
    else do
      match ← step conn (some .startTLS) with
      | .error err => pure (.failed err)
      | .ok reply =>
        if reply.code ≠ 220 then pure (.plain .fallback)
        else do
          match ← handshake conn (trimSuffix req.mxHost (lit ".")) o.tlsHandshakeTimeoutOr with
          | .error err => pure (.failed err)
          | .ok verified => pure (.upgraded verified)

/-- What a real RCPT's reply becomes. A foreign domain refused as relay says
nothing about the mailbox. -/
def answerResult (o : Options) (reply : Reply) (relay : Bool) : Result :=
  let r := rcptResult reply.code reply.text o.deferralRetryOr o.identity
  if relay then { r with cls := .policy, accepted := none, retryAfterSeconds := 0 } else r

def dropped (cls : Class) (err : Failure) : Result where
  connected := some false
  cls := cls
  err := err.text

def stoppedFor (policyRun : Nat) : Result where
  connected := some false
  cls := .policy
  err := lit "not attempted: " ++ itoa policyRun ++ lit " consecutive policy replies from this server"

def Progress.book (p : Progress) (addr : Str) (r : Result) : Progress :=
  { p with
    out := p.out.insert addr r
    asked := p.asked + 1
    policyRun := if r.cls = .policy then p.policyRun + 1 else 0 }

/-- Who hears of an answer: the pacer always, health and the stand-down only of a
policy reply about this client. -/
def report (o : Options) (req : Request) (r : Result) (relay : Bool) (text : Str) : Act Unit := do
  observe o req.mxHost r.cls
  if r.cls = .policy && !relay then do
    refused o req.mxHost r.cls text
    notify o.health (.observePolicy req.mxHost)
  else pure ()

/-- One token per recipient. The first question was paid for before the socket. -/
def pay (o : Options) (req : Request) (asked : Nat) : Act (Except Failure Unit) :=
  if asked > 0 then acquire o req else pure (.ok ())

/-- The question about one address. `more` are the addresses after it in the
session; `further` holds in every group of a grouped session but the first. -/
def askOne (o : Options) (req : Request) (conn : Conn) (further : Bool) (addr : Str)
    (more : List Str) (p : Progress) : Act (Except Exit Progress) := do
  match ← pay o req p.asked with
  | .error err => pure (.error (p.unattempted (addr :: more) (dropped (budgetClass err) err)))
  | .ok _ =>
    match ← step conn (some (.rcpt addr)) with
    | .error err => pure (.error (p.unattempted (addr :: more) (dropped (classifyNetErr err) err)))
    | .ok reply =>
      let relay := further && relayRefusal reply.code reply.text
      if further && !relayRefusal reply.code reply.text && domainLimitRefusal reply.code reply.text then do
        let exit ← regroupFrom o req conn p (addr :: more) .domainLimit reply.text
        pure (.error exit)
      else do
        let r := answerResult o reply relay
        report o req r relay reply.text
        let booked := p.book addr r
        if relay then do
          let exit ← regroupFrom o req conn booked more .relay reply.text
          pure (.error exit)
        else if 0 < o.policyStopFor req ∧ o.policyStopFor req ≤ booked.policyRun then do
          teardown conn
          pure (.error (booked.unattempted more (stoppedFor booked.policyRun)))
        else pure (.ok booked)

/-- The addresses of one group, with those of the groups to come in `later`. -/
def askAddrs (o : Options) (req : Request) (conn : Conn) (further : Bool) (later : List Str) :
    List Str → Progress → Act (Except Exit Progress)
  | [], p => pure (.ok p)
  | addr :: more, p => do
    match ← askOne o req conn further addr (more ++ later) p with
    | .error exit => pure (.error exit)
    | .ok booked => askAddrs o req conn further later more booked

/-- One of the two commands that open the next domain's transaction. -/
def reopen (o : Options) (req : Request) (conn : Conn) (p : Progress) (left : List Str)
    (command : Command) : Act (Except Exit Unit) := do
  match ← step conn (some command) with
  | .error err => pure (.error (p.unattempted left (dropped (classifyNetErr err) err)))
  | .ok reply =>
    if reply.code = 250 then pure (.ok ())
    else if reply.code = 421 ∨ (beforeRCPT o reply).isThrottle then do
      observe o req.mxHost (beforeRCPT o reply)
      pure (.error (p.unattempted left (failure o (beforeRCPT o reply) reply.code reply.text [])))
    else do
      let exit ← regroupFrom o req conn p left .mailFrom reply.text
      pure (.error exit)

def nextTransaction (o : Options) (req : Request) (conn : Conn) (p : Progress) (left : List Str) :
    Act (Except Exit Unit) := do
  match ← reopen o req conn p left .rset with
  | .error exit => pure (.error exit)
  | .ok _ => reopen o req conn p left (.mailFrom (req.mailFromFor o))

/-- The loop of bogus questions, with at most `left` to go; returns how many were
accepted and how many answered. -/
def askBogus (o : Options) (req : Request) (conn : Conn) (domain : Str) (audit : Bool) :
    Nat → Nat → Nat → Act (Nat × Nat)
  | 0, accepted, answered => pure (accepted, answered)
  | left + 1, accepted, answered => do
    match ← bogusAddress domain with
    | .error _ => pure (accepted, answered)
    | .ok bogus =>
      match ← acquire o req with
      | .error _ => pure (accepted, answered)
      | .ok _ =>
        match ← step conn (some (.bogus bogus)) with
        | .error _ => pure (accepted, answered)
        | .ok reply =>
          if classifyAs reply.code reply.text o.identity = .valid then
            askBogus o req conn domain audit left (accepted + 1) (answered + 1)
          else if audit then askBogus o req conn domain audit left accepted (answered + 1)
          else pure (accepted, answered + 1)

def catchAllOutcome (audit : Bool) (answered : Nat) (v : CatchAllVerdict) : CatchAllOutcome :=
  if answered = 0 then .unanswered
  else if audit then .auditFull
  else if v.randomiser = some true then .randomiser
  else if v.catchAll = some true then .catchAll
  else .cleanAfter1

/-- The catch-all question, asked only where a real address was accepted. -/
def askCatchAll (o : Options) (req : Request) (conn : Conn) (domain : Str) (addrs : List Str)
    (out : Results) : Act CatchAllVerdict :=
  if addrs.any fun addr => (out.lookup addr).any fun r => r.cls = .valid then do
    let audit ← auditDrawn o
    let limit := if audit then max o.catchAllProbesOr auditProbes else o.catchAllProbesOr
    let (accepted, answered) ← askBogus o req conn domain audit limit 0 0
    let verdict := decideCatchAll accepted answered
    countCatchAll o (catchAllOutcome audit answered verdict)
    pure verdict
  else do
    countCatchAll o .skippedNoAccept
    pure {}

def openFor (o : Options) (req : Request) (conn : Conn) (first : Bool) (p : Progress) (left : List Str) :
    Act (Except Exit Unit) :=
  if first then pure (.ok ()) else nextTransaction o req conn p left

def askGroup (o : Options) (req : Request) (conn : Conn) (further : Bool) (later : List Str)
    (g : SessionGroup) (p : Progress) : Act (Except Exit Progress) := do
  match ← askAddrs o req conn further later g.addrs p with
  | .error exit => pure (.error exit)
  | .ok p =>
    if g.askCatchAll then do
      let v ← askCatchAll o req conn g.domain g.addrs p.out
      pure (.ok { p with verdicts := p.verdicts.insert g.domain v })
    else pure (.ok p)

/-- The group loop. `first` holds for the session's first group only. -/
def askGroups (o : Options) (req : Request) (conn : Conn) (grouped : Bool) :
    Bool → List SessionGroup → Progress → Act Exit
  | _, [], p => do
    teardown conn
    pure { results := p.out, verdicts := p.verdicts }
  | first, g :: more, p => do
    let later := more.flatMap SessionGroup.addrs
    match ← openFor o req conn first p (g.addrs ++ later) with
    | .error exit => pure exit
    | .ok _ =>
      match ← askGroup o req conn (grouped && !first) later g p with
      | .error exit => pure exit
      | .ok p => askGroups o req conn grouped false more p

def transact (o : Options) (req : Request) (groups : List SessionGroup) (grouped : Bool) (conn : Conn) :
    Act Exit := do
  match ← expect o req (groups.flatMap SessionGroup.addrs) conn (some (.mailFrom (req.mailFromFor o))) 250 with
  | .error exit => pure exit
  | .ok _ => askGroups o req conn grouped true groups {}

/-- How the talk on one connection ended: with results, or with a failed upgrade
that calls for a plaintext rerun. -/
inductive Talk where
  | ended (conn : Conn) (tls : Option TLSOutcome) (exit : Exit)
  | rerun (err : Failure)

def converse (o : Options) (req : Request) (groups : List SessionGroup) (grouped : Bool) (conn : Conn) :
    Act Talk := do
  let addrs := groups.flatMap SessionGroup.addrs
  match ← expect o req addrs conn none 220 with
  | .error exit => pure (.ended conn none exit)
  | .ok _ =>
    match ← expect o req addrs conn (some (.ehlo (req.heloFor o))) 250 with
    | .error exit => pure (.ended conn none exit)
    | .ok ehlo =>
      match ← negotiate o req conn ehlo.text with
      | .failed err => pure (.rerun err)
      | .plain outcome => do
        let exit ← transact o req groups grouped conn
        pure (.ended conn (some outcome) exit)
      | .upgraded verified =>
        let outcome : TLSOutcome := if verified then .verified else .unverified
        let secure : Conn := { conn with tls := true }
        match ← expect o req addrs secure (some (.ehlo (req.heloFor o))) 250 with
        | .error exit => pure (.ended secure (some outcome) exit)
        | .ok _ => do
          let exit ← transact o req groups grouped secure
          pure (.ended secure (some outcome) exit)

def standDown (o : Options) : Act (Bool × Str) := if o.health then burned else pure (false, [])

/-- Resolve and vet. The guard's refusals are kept apart from lookups that failed. -/
def resolveHost (o : Options) (req : Request) (addrs : List Str) : Act (Except Exit (List Addr)) := do
  match ← resolve req.mxHost with
  | .error err =>
    let cls := if err.guarded then .guarded else classifyNetErr err
    pure (.error (failAll addrs (failure o cls 0 [] err.text)))
  | .ok ips => pure (.ok ips)

/-- What a session needs before it may ask for a lease: a usable sending address
and the vetted addresses of the host. -/
def vet (o : Options) (req : Request) (addrs : List Str) : Act (Except Exit (List Addr)) := do
  let (isBurned, why) ← standDown o
  if isBurned then
    pure (.error (failAll addrs (failure o .ipBurned 0 [] (lit "sending IP stood down: " ++ why))))
  else resolveHost o req addrs

/-- Budget before the socket, then the first address that answers. -/
def connect (o : Options) (req : Request) (addrs : List Str) (ips : List Addr) : Act (Except Exit Conn) := do
  match ← acquire o req with
  | .error err => pure (.error (failAll addrs (budgetFailure o err)))
  | .ok _ =>
    match ← dialAny o ips noAddress with
    | .error err => pure (.error (failAll addrs (failure o (classifyNetErr err) 0 [] err.text)))
    | .ok conn => do
      setDeadline conn o.timeoutOr
      pure (.ok conn)

def unreached (r : Result) : Bool :=
  r.connected ≠ some true && (r.cls = .unset || r.cls = .connError || r.cls = .timeout)

def afterRerun (o : Options) (upErr : Failure) (r : Result) : Result :=
  if unreached r then
    { r with
      cls := .tlsFailed
      err := lit "tls handshake: " ++ upErr.text ++ lit "; plaintext retry: " ++ r.err
      tls := some .failed
      retryAfterSeconds := retryHint .tlsFailed [] o.deferralRetryOr }
  else r

/-- The first deferred call: every result of a session that got as far as TLS
carries how it was encrypted. -/
def stampTLS (o : Options) (groups : List SessionGroup) (exit : Exit) : Option TLSOutcome → Act Exit
  | none => pure exit
  | some outcome => do
    notify (o.counted Recorder.tls) (.count (.tlsSession outcome))
    notify (o.counted Recorder.multiDomain) (.count (.sessionDomains groups.length))
    pure { exit with results := exit.results.mapVals fun _ r => { r with tls := some outcome } }

def finish (exit : Exit) : Act Exit := do
  leave exit.rest
  pure exit

/-- The body of `session`, with the call it makes to itself as `again`. -/
def sessionBody (o : Options) (again : Request → Act Exit) (req : Request) (groups : List SessionGroup)
    (grouped : Bool) : Act Exit := do
  let addrs := groups.flatMap SessionGroup.addrs
  enter groups grouped
  match ← vet o req addrs with
  | .error exit => finish exit
  | .ok ips =>
    match ← leaseSession o req with
    | .error err => finish (failAll addrs (budgetFailure o err))
    | .ok lease =>
      match ← connect o req addrs ips with
      | .error exit => do
        releaseLease lease
        finish exit
      | .ok conn =>
        match ← converse o req groups grouped conn with
        | .ended last tls exit => do
          close last
          releaseLease lease
          let stamped ← stampTLS o groups exit tls
          finish stamped
        | .rerun upErr => do
          markTLSBroken o req.mxHost
          close conn
          releaseLease lease
          leave []
          let exit ← again { req with skipTLS := true }
          notify (o.counted Recorder.tls && exit.results.entries.any fun e => unreached e.2)
            (.count (.tlsSession .failed))
          -- The deferred close finds the connection closed already.
          close conn
          pure { exit with results := exit.results.mapVals fun _ r => afterRerun o upErr r }

/-- One session. The rerun never negotiates TLS, so it never runs again. -/
def session (o : Options) (req : Request) (groups : List SessionGroup) (grouped : Bool) : Act Exit :=
  sessionBody o (fun plain => sessionBody o (fun _ => pure {}) plain groups grouped) req groups grouped

end

/-! What a bystander of a request has to remember to tell what a reply answers.

The kind of the running session, how many transactions it has opened and the last
command written. A further domain's transaction is where a receiver can refuse
grouping.
-/

structure Dialogue where
  grouped : Bool := false
  /-- The transactions opened on this connection. -/
  mails : Nat := 0
  /-- The last command written, which the next reply answers; none for the banner. -/
  due : Option Command := none
  deriving DecidableEq, Repr

def isMailFrom : Command → Bool
  | .mailFrom _ => true
  | _ => false

def isRcpt : Command → Bool
  | .rcpt _ => true
  | _ => false

namespace Dialogue

def further (d : Dialogue) : Bool := d.grouped && 1 < d.mails

def asks (d : Dialogue) (command : Command) : Dialogue :=
  { d with
    due := some command
    mails := if isMailFrom command then d.mails + 1 else d.mails }

def next (d : Dialogue) : Event calls → Dialogue
  | ⟨.enter _ grouped, _⟩ => { grouped := grouped }
  | ⟨.dialContext _ _ _, _⟩ => { grouped := d.grouped }
  | ⟨.write _ command, _⟩ => d.asks command
  | _ => d

end Dialogue

end EmailVerifier.Prober
