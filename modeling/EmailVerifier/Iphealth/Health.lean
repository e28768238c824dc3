import EmailVerifier.Data.Netip
import EmailVerifier.Data.Table
import EmailVerifier.Semantics.Hands
import EmailVerifier.Semantics.Player

/-! Whether the sending IP is still usable: `internal/iphealth/iphealth.go` and `redact.go`.

Each lookup, each use of the fields under the lock and each call of the store and the
recorder is one operation. Which zones are watched, and whether the node stands down, is
in the fields; the two writes to them are kept apart by who makes them. An error is its
text.
-/

set_option autoImplicit false

namespace EmailVerifier.Iphealth
open Text Data Semantics

/-! ## Keys in the names of zones -/

/-- `strings.ReplaceAll` for a text that is not empty. The number counts the bytes of an
occurrence that are still to be left out. -/
def replaceAll (old new : Str) : Nat → Str → Str
  | _, [] => []
  | 0, b :: rest =>
    if old.isPrefixOf (b :: rest) then new ++ replaceAll old new (old.length - 1) rest else b :: replaceAll old new 0 rest
  | skip + 1, _ :: rest => replaceAll old new skip rest

/-- The endings of zones whose name has the key as its first label, and their labels without one. -/
def keyedZoneFamilies : List (Str × Nat) := [(lit ".mail.abusix.zone", 4), (lit ".dq.spamhaus.net", 4)]

def join (sep : String) (parts : List Str) : Str := List.intercalate (lit sep) parts

def RedactZone (zone : Str) : Str :=
  match keyedZoneFamilies.find? fun family => hasSuffix zone family.1 with
  | none => zone
  | some family =>
    if (split 46 zone).length ≤ family.2 then zone else lit "<key>." ++ join "." (split 46 zone).tail

def redactError (err zone : Str) : Str :=
  if RedactZone zone = zone then err else replaceAll zone (RedactZone zone) 0 err

/-! ## What the code calls -/

/-- An error of the lookup; `notFound` for a `net.DNSError` that says so. -/
structure LookupErr where
  text : Str
  notFound : Bool
  deriving DecidableEq, Repr

abbrev Reply := Except LookupErr (List Addr)

inductive Op where
  | lookup (name : Str)
  /-- `h.zones` as `SelfTest` ranges over it. -/
  | configured
  /-- `h.Zones()`. -/
  | zones
  | trusted
  /-- The assignments at the end of `SelfTest`. -/
  | keep (zones : List Str)
  /-- The assignments at the end of `Check`. -/
  | judge (burned : Bool) (reason : Str)
  /-- The assignments of `Resume`. -/
  | clear
  | ipListed (ip list : Str) (listed : Bool)
  | set (key val : Str)
  deriving DecidableEq

def Op.Answer : Op → Type
  | .lookup _ => Reply
  | .configured | .zones => List Str
  | .trusted => Bool
  | .keep _ | .judge _ _ | .clear | .ipListed _ _ _ => Unit
  | .set _ _ => Except Str Unit

abbrev calls : Interface := ⟨Op, Op.Answer⟩

abbrev Act := Prog calls

def lookup (name : Str) : Act Reply := Prog.ask (I := calls) (.lookup name)
def configured : Act (List Str) := Prog.ask (I := calls) .configured
def Zones : Act (List Str) := Prog.ask (I := calls) .zones
def trusted : Act Bool := Prog.ask (I := calls) .trusted
def keep (zones : List Str) : Act Unit := Prog.ask (I := calls) (.keep zones)
def judge (burned : Bool) (reason : Str) : Act Unit := Prog.ask (I := calls) (.judge burned reason)
def clear : Act Unit := Prog.ask (I := calls) .clear
def ipListed (ip list : Str) (listed : Bool) : Act Unit := Prog.ask (I := calls) (.ipListed ip list listed)
def set (key val : Str) : Act (Except Str Unit) := Prog.ask (I := calls) (.set key val)

structure Options where
  ip : Str
  zones : List Str := []
  /-- There is a `Lookup`; without one nothing is checked. -/
  lookup : Bool := true
  store : Bool := false
  metrics : Bool := false

def DefaultZones : List Str := [lit "zen.spamhaus.org", lit "bl.spamcop.net"]

/-- The zones of a new `Health`. -/
def Options.watched (o : Options) : List Str := if o.zones = [] then DefaultZones else o.zones

def Options.Enabled (o : Options) : Bool := o.lookup && o.ip ≠ []

def Key (ip : Str) : Str := lit "ip:health:" ++ ip

/-! ## One query -/

/-- An answer in 127.0.0.0/8 that is not the sentinel for a refused query. -/
def listing : Addr → Bool
  | .v4 x => x >>> 24 = 127 ∧ x ≠ ip4 127 255 255 254
  | _ => false

def queryName (point zone : Str) : Str := point ++ lit "." ++ zone

def readReply (zone : Str) : Reply → Except Str Bool
  | .error err => if err.notFound then .ok false else .error (redactError err.text zone)
  | .ok addrs => .ok (addrs.any listing)

def query (point zone : Str) : Act (Except Str Bool) := do
  return readReply zone (← lookup (queryName point zone))

def reverse (ip : Str) : Str := join "." (split 46 ip).reverse

def persist (o : Options) (burned : Bool) (reason : Str) : Act Unit := do
  if o.store then
    let _ ← set (Key o.ip) (if burned then lit "burned:" ++ reason else lit "ok")
  return

/-! ## The self-test -/

structure ZoneFinding where
  zone : Str
  reason : Str
  deriving DecidableEq, Repr

structure SelfTestResult where
  dropped : List ZoneFinding := []
  caveats : List ZoneFinding := []
  deriving DecidableEq, Repr

/-- Where a blocklist is asked about an address that no honest list carries, and the address. -/
def unlistablePoints : List (Str × Str) :=
  [(lit "1.2.0.192", lit "192.0.2.1"), (lit "1.113.0.203", lit "203.0.113.1")]

/-- The loop of `secondOpinion` over the points that are left, with the last failure. -/
def secondOpinion (zone reported : Str) : List (Str × Str) → Option Str → Act (Except Str (Option Str))
  | [], some failed =>
    return .error (reported ++ lit " listed its own clean point and the second opinion is unreachable: " ++ failed)
  | [], none =>
    return .error (reported ++ lit " listed its own clean point, and 192.0.2.1 and 203.0.113.1 with it; the resolver answers everything (a stub)")
  | (point, addr) :: more, failed => do
    match ← query point zone with
    | .error err => secondOpinion zone reported more (some err)
    | .ok true => secondOpinion zone reported more failed
    | .ok false =>
      return .ok (some (reported ++
        lit " lists 127.0.0.1, which RFC 5782 reserves as its clean point; kept because " ++ addr ++
        lit " is not listed, so this is a list carrying a bad entry rather than a resolver answering everything"))

def selfTestZone (zone : Str) : Act (Except Str (Option Str)) := do
  let reported := RedactZone zone
  match ← query (lit "2.0.0.127") zone with
  | .error err => return .error (reported ++ lit " test point unreachable: " ++ err)
  | .ok false => return .error (reported ++ lit " did not list its own test point; the resolver cannot query it")
  | .ok true =>
    match ← query (lit "1.0.0.127") zone with
    | .error err => return .error (reported ++ lit " clean point unreachable: " ++ err)
    | .ok false => return .ok none
    | .ok true => secondOpinion zone reported unlistablePoints none

/-- The loop of `SelfTest`, with what it has found and kept so far. -/
def testZones : List Str → SelfTestResult × List Str → Act (SelfTestResult × List Str)
  | [], found => return found
  | zone :: more, (result, kept) => do
    match ← selfTestZone zone with
    | .error err => testZones more ({ result with dropped := result.dropped ++ [⟨zone, err⟩] }, kept)
    | .ok none => testZones more (result, kept ++ [zone])
    | .ok (some caveat) =>
      testZones more ({ result with caveats := result.caveats ++ [⟨zone, caveat⟩] }, kept ++ [zone])

def SelfTest (o : Options) : Act (SelfTestResult × Option Str) := do
  if ¬ o.Enabled then return ({}, some (lit "iphealth: no resolver configured for DNSBL queries"))
  let zones ← configured
  let (result, kept) ← testZones zones ({}, [])
  if kept = [] then
    -- Some zone was dropped: there is always one to test.
    let reason := (result.dropped.head?.map ZoneFinding.reason).getD []
    return (result, some (lit "iphealth: no zone passed its self-test: " ++ reason))
  keep kept
  return (result, none)

/-! ## One round -/

structure Report where
  listed : Table Str Bool := ∅
  burned : Bool := false
  reason : Str := []

/-- The loop of `Check`, with what was reported and the zones that list the address. -/
def askZones (o : Options) : List Str → Table Str Bool × List Str → Act (Table Str Bool × List Str)
  | [], found => return found
  | zone :: more, (listed, on) => do
    match ← query (reverse o.ip) zone with
    -- A failed query is not a listing.
    | .error _ => askZones o more (listed, on)
    | .ok found =>
      let reported := RedactZone zone
      if o.metrics then ipListed o.ip reported found
      askZones o more (listed.insert reported found, if found then on ++ [reported] else on)

def Check (o : Options) : Act (Except Str Report) := do
  if ¬ o.Enabled then return .error (lit "iphealth: checking is disabled")
  if ¬ (← trusted) then
    return .error (lit "iphealth: resolver has not passed the self-test; refusing to act on its answers")
  let zones ← Zones
  let (listed, on) ← askZones o zones (∅, [])
  let burned : Bool := on ≠ []
  let reason := if burned then lit "listed on " ++ join ", " on else []
  judge burned reason
  persist o burned reason
  return .ok { listed, burned, reason }

def Resume (o : Options) : Act Unit := do
  clear
  persist o false (lit "resumed by operator")

/-! ## Calls side by side -/

/-- The fields, and what the last round to judge had done until then. -/
structure Shared where
  zones : List Str
  trusted : Bool := false
  burned : Bool := false
  reason : Str := []
  round : Trace calls := []

/-- A lookup and the store answer anything at any time. -/
inductive Serves : World calls Shared where
  | looked {s : Shared} {name : Str} {reply : Reply} : Serves s ⟨.lookup name, reply⟩ s
  | configured {s : Shared} : Serves s ⟨.configured, s.zones⟩ s
  | zones {s : Shared} : Serves s ⟨.zones, s.zones⟩ s
  | trusted {s : Shared} : Serves s ⟨.trusted, s.trusted⟩ s
  | keep {s : Shared} {zones : List Str} : Serves s ⟨.keep zones, ()⟩ { s with zones, trusted := true }
  | judge {s : Shared} {burned : Bool} {reason : Str} {round : Trace calls} :
      Serves s ⟨.judge burned reason, ()⟩ { s with burned, reason, round }
  | clear {s : Shared} : Serves s ⟨.clear, ()⟩ { s with burned := false, reason := [] }
  | listed {s : Shared} {ip list : Str} {listed : Bool} : Serves s ⟨.ipListed ip list listed, ()⟩ s
  | set {s : Shared} {key val : Str} {answer : Except Str Unit} : Serves s ⟨.set key val, answer⟩ s

inductive Outcome where
  | tested (result : SelfTestResult × Option Str)
  | checked (result : Except Str Report)
  | resumed

def tests (o : Options) : Act Outcome := do return .tested (← SelfTest o)
def checks (o : Options) : Act Outcome := do return .checked (← Check o)

def resumes (o : Options) : Act Outcome := do
  Resume o
  return .resumed

/-- The round that judges is on record as the last one. -/
def Records (did : Trace calls) (e : Event calls) (s' : Shared) : Prop :=
  match e.op with
  | .judge _ _ => s'.round = did
  | _ => True

def node (jobs : List (Act Outcome)) : Rules calls Outcome Shared where
  world := Serves
  job p := p ∈ jobs
  may _ did e s' := Records did e s'

abbrev Calls := Pool calls Outcome Shared

/-- `New`. -/
def New (o : Options) : Calls := { shared := { zones := o.watched } }

end EmailVerifier.Iphealth
