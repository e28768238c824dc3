import EmailVerifier.Pacer.Memory
import EmailVerifier.Semantics.Program

/-! The methods of `internal/pacer/pacer.go`, as programs over what they call.

A section under the lock is one operation; so is every command to the store, every take
from the bucket and every try for a lease. The loops that wait for budget or for a lease
have a bound on their rounds and give nothing when they run out of it.
-/

set_option autoImplicit false

namespace EmailVerifier.Pacer
open Text Data Semantics

structure Decision where
  allowed : Bool
  retryAfter : Int
  deriving DecidableEq, Repr

structure LeaseDecision where
  granted : Bool
  id : Str
  retryAfter : Int
  deriving DecidableEq, Repr

inductive LeaseOutcome where
  | immediate
  | grantedAfterWait
  | timedOut
  deriving DecidableEq, Repr

/-- `*PausedError`, or an error that is a text. -/
inductive Failure where
  | paused (mxHost : Str) (till : Time)
  | text (s : Str)
  deriving DecidableEq

inductive Op where
  | now
  | get (key : Str)
  | set (key val : Str)
  | take (key : Str) (rate burst : ℚ)
  | lease (key : Str) (limit ttl : Int)
  | release (key id : Str)
  /-- The `select` between the end of the context and a timer. -/
  | after (wait : Int)
  | locked (sec : Section)
  | pause (key : Str)
  | leaseWait (outcome : LeaseOutcome)

def Op.Answer : Op → Type
  | .now => Time
  | .get _ => Got
  | .set _ _ => Except Str Unit
  | .take _ _ _ => Except Str Decision
  | .lease _ _ _ => Except Str LeaseDecision
  | .release _ _ => Except Str Unit
  | .after _ => Except Str Unit
  | .locked sec => sec.Result
  | .pause _ => Unit
  | .leaseWait _ => Unit

def calls : Interface := ⟨Op, Op.Answer⟩

abbrev Act := Prog calls

def now : Act Time := Prog.ask (I := calls) Op.now
def get (key : Str) : Act Got := Prog.ask (I := calls) (Op.get key)
def set (key val : Str) : Act (Except Str Unit) := Prog.ask (I := calls) (Op.set key val)
def take (key : Str) (rate burst : ℚ) : Act (Except Str Decision) := Prog.ask (I := calls) (Op.take key rate burst)
def lease (key : Str) (limit ttl : Int) : Act (Except Str LeaseDecision) := Prog.ask (I := calls) (Op.lease key limit ttl)
def releaseLease (key id : Str) : Act (Except Str Unit) := Prog.ask (I := calls) (Op.release key id)
def after (wait : Int) : Act (Except Str Unit) := Prog.ask (I := calls) (Op.after wait)
def locked (sec : Section) : Act sec.Result := Prog.ask (I := calls) (Op.locked sec)
def countPause (key : Str) : Act Unit := Prog.ask (I := calls) (Op.pause key)
def leaseWait (outcome : LeaseOutcome) : Act Unit := Prog.ask (I := calls) (Op.leaseWait outcome)

def runtimeKey (key : Str) (field : String) : Str := lit "rt:mx:" ++ key ++ lit ":" ++ lit field

def limitsKey (key : Str) : Str := lit "limits:mx:" ++ key

section
variable [Unicode] [Codec]

/-- `bandFor` without the band in the store. -/
def shipped (key domain : Str) : Band :=
  match if hasPrefix key (lit "@") then readSeed key else none with
  | some b => b
  | none => (seedFor domain).getD conservative

def bandIn : Got → Option Band
  | .ok (some raw) => (Codec.unmarshalBand raw).map Band.normalise
  | _ => none

def bandFor (key domain : Str) : Act Band := do
  return (bandIn (← get (limitsKey key))).getD (shipped key domain)

/-- What the text of a saved rate says, if it says a positive number. -/
def readRate (raw : Str) : Option Number :=
  (Codec.parseFloat raw).bind fun v => if v.nonpositive then none else some v

def rateIn : Got → Option Number
  | .ok (some raw) => readRate raw
  | _ => none

def savedRate (key : Str) : Act (Option Number) := do
  return rateIn (← get (runtimeKey key "rate"))

/-- Where a loaded key starts. Neither infinity nor what is not a number is below it. -/
def startRate (band : Band) : Option Number → ℚ
  | some (.finite saved) => if saved < band.maxRate then max band.minRate saved else band.maxRate
  | _ => band.maxRate

def stateFor (key domain : Str) : Act Nat := do
  match ← locked (.find key) with
  | some ref => return ref
  | none =>
    let band ← bandFor key domain
    let saved ← savedRate key
    locked (.install key band (startRate band saved))

def orSecond (retryAfter : Int) : Int := if retryAfter ≤ 0 then second else retryAfter

/-- The loop of `Acquire`. -/
def takeToken (key : Str) (rate burst : ℚ) : Nat → Act (Option (Except Failure Unit))
  | 0 => pure none
  | fuel + 1 => do
    match ← take key rate burst with
    | .error err => return some (.error (.text (lit "pacer: no budget established for " ++ key ++ lit ": " ++ err)))
    | .ok d =>
      if d.allowed then return some (.ok ())
      match ← after (orSecond d.retryAfter) with
      | .error err => return some (.error (.text err))
      | .ok () => takeToken key rate burst fuel

def Acquire (fuel : Nat) (mxHost domain : Str) : Act (Option (Except Failure Unit)) := do
  let key := PaceKey mxHost
  let ref ← stateFor key domain
  match ← locked (.budget ref) with
  | none => return none
  | some (.error till) => return some (.error (.paused key till))
  | some (.ok (rate, burst)) => takeToken key rate burst fuel

/-- The function `AcquireSession` returns. -/
def release (key id : Str) : Act Unit := do
  locked (.leave key)
  let _ ← releaseLease key id

def recordLease (o : Options) (afterRefusal : Bool) : Act Unit :=
  if o.leaseMetrics then leaseWait (if afterRefusal then .grantedAfterWait else .immediate) else pure ()

abbrev Room := Option (Str × Str)

def pollInterval : Int := 250000000

/-- How long to wait before the next try: a holder normally releases long before its lease
would expire. -/
def pollWait (retryAfter : Int) : Int :=
  if retryAfter ≤ 0 ∨ pollInterval < retryAfter then pollInterval else retryAfter

/-- The loop of `AcquireSession`: the room or the refusal, and the time waited. -/
def takeLease (o : Options) (key : Str) (limit : Int) (start : Time) :
    Bool → Nat → Act (Option (Except Failure Room × Int))
  | _, 0 => pure none
  | refused, fuel + 1 => do
    match ← lease key limit o.leaseTTL with
    | .error err =>
      let since := (← now).Sub start
      return some (.error (.text (lit "pacer: no session lease for " ++ key ++ lit ": " ++ err)), since)
    | .ok d =>
      if d.granted then
        let waited := (← now).Sub start
        recordLease o refused
        locked (.enter key)
        return some (.ok (some (key, d.id)), waited)
      let wait := pollWait d.retryAfter
      if ((← now).Add wait).After (start.Add o.leaseWait) then
        if o.leaseMetrics then leaseWait .timedOut
        let since := (← now).Sub start
        let till := (← now).Add (orSecond d.retryAfter)
        return some (.error (.paused key till), since)
      match ← after wait with
      | .error err => return some (.error (.text err), (← now).Sub start)
      | .ok () => takeLease o key limit start true fuel

def AcquireSession (o : Options) (fuel : Nat) (mxHost domain : Str) : Act (Option (Except Failure Room × Int)) := do
  let key := PaceKey mxHost
  if ¬ o.leases then return some (.ok none, 0)
  let ref ← stateFor key domain
  match ← locked (.room ref) with
  | none => return none
  | some (.error till) => return some (.error (.paused key till), 0)
  | some (.ok limit) =>
    let start ← now
    takeLease o key limit start false fuel

def ProposalKey (mxHost : Str) : Str := limitsKey (PaceKey mxHost) ++ lit ":proposed"

def proposeBand (o : Options) (key : Str) (st : MXState) : Act Unit := do
  let next := min o.promote.ceiling (st.band.maxRate * o.promote.step)
  if next ≤ st.band.maxRate then return ()
  let formedAt := (← now).Unix
  let _ ← set (ProposalKey key) (Codec.marshalProposal
    { mxHost := key, currentMax := st.band.maxRate, proposedMax := next, cleanAt := st.cleanAtCeiling, formedAt })

def persist (key : Str) (st : MXState) : Act Unit := do
  let _ ← set (runtimeKey key "rate") (Codec.formatFloat st.rate)
  let _ ← set (runtimeKey key "conc") (formatInt st.conc)
  let _ ← set (runtimeKey key "state") st.state.name
  if ¬ st.pausedUntil.IsZero then
    let _ ← set (runtimeKey key "pause_until") (formatInt st.pausedUntil.Unix)

def Observe (o : Options) (mxHost : Str) (throttled : Bool) : Act Unit := do
  let key := PaceKey mxHost
  match ← locked (.observe key throttled) with
  | none => return ()
  | some (snapshot, paused, propose) =>
    if paused ∧ o.metrics then countPause key
    if propose then proposeBand o key snapshot
    persist key snapshot

/-- The proposal in what the store gave; an empty text is one that was cleared. -/
def proposalIn : Got → Option Proposal
  | .ok (some raw) => if raw = [] then none else Codec.unmarshalProposal raw
  | _ => none

/-- The method `Proposal`. -/
def standingProposal (mxHost : Str) : Act (Option Proposal) := do
  return proposalIn (← get (ProposalKey mxHost))

def Promote (mxHost : Str) : Act (Except Str Proposal) := do
  let key := PaceKey mxHost
  match ← standingProposal key with
  | none => return .error (lit "pacer: no standing proposal for " ++ key)
  | some pr =>
    let band ← bandFor key []
    match Codec.marshalBand { band with maxRate := pr.proposedMax } with
    | .error err => return .error err
    | .ok body =>
      match ← set (limitsKey key) body with
      | .error err => return .error (lit "pacer: writing the promoted band: " ++ err)
      | .ok () =>
        match ← set (ProposalKey key) [] with
        | .error err => return .error err
        | .ok () =>
          locked (.forget key)
          return .ok pr

def PauseKey (o : Options) (mxHost : Str) (till : Time) : Act (Except Str Unit) := do
  let key := PaceKey mxHost
  locked (.pauseKey key till)
  if o.metrics then countPause key
  set (runtimeKey key "pause_until") (formatInt till.Unix)

def ResumeKey (mxHost : Str) : Act (Except Str Unit) := do
  let key := PaceKey mxHost
  locked (.resumeKey key)
  set (runtimeKey key "pause_until") (lit "0")

end

end EmailVerifier.Pacer
