import EmailVerifier.Prober.Session
import EmailVerifier.Semantics.Protocol

/-! How a request conducts itself: the protocol its events keep to.

The state is what an onlooker knows: what the running session has in hand, where
its dialogue stands, and the questions and answers of the whole request. A step is
possible only where it is in order, so whatever the steps allow is all that any
server, resolver, pacer or store can get a prober to do.
-/

set_option autoImplicit false

namespace EmailVerifier.Prober
open Text Data Semantics

/-- What the options and the request fix: the words a session may use, the addresses
and domains it may ask about, and what it must have in hand to dial. -/
structure Scope where
  host : Str
  helo : Str
  sender : Str
  port : Str
  timeout : Nat
  maxRCPT : Nat
  addrs : List Str
  domains : List Str
  health : Bool
  leasing : Bool
  paced : Bool

/-- How far the dialogue has come. -/
inductive Standing where
  | greeted
  | hailed
  | mailed
  deriving DecidableEq, Repr

/-- What the connection is good for now. -/
inductive Stage where
  | shut
  /-- The last reply was read; the next command may go out. -/
  | ready (standing : Standing)
  /-- A command was written and its reply is due; no command for the banner. -/
  | awaiting (command : Option Command)
  | upgrading
  /-- A bogus question went without an answer. -/
  | adrift
  /-- Nothing more will be asked here. -/
  | stuck
  | leaving
  deriving DecidableEq, Repr

/-- What an onlooker knows of one request. -/
structure Watch where
  inside : Bool := false
  groups : Nat := 0
  cleared : Bool := false
  ips : Option (List Addr) := none
  lease : Option Lease := none
  paid : Bool := false
  conn : Option Conn := none
  timed : Bool := false
  stage : Stage := .shut
  opened : Nat := 0
  sent : List Str := []
  answers : List (Str × Reply) := []
  refusals : Nat := 0

/-- No session is under way and nothing is held. -/
structure Watch.Idle (w : Watch) : Prop where
  outside : w.inside = false
  unleased : w.lease = none
  alone : w.conn = none
  shut : w.stage = .shut

def lost : Option Command → Stage
  | some (.bogus _) => .adrift
  | _ => .stuck

def heard : Option Command → Int → Stage
  | none, code => if code = 220 then .ready .greeted else .stuck
  | some (.ehlo _), code => if code = 250 then .ready .hailed else .stuck
  | some .startTLS, code => if code = 220 then .upgrading else .ready .hailed
  | some (.mailFrom _), code => if code = 250 then .ready .mailed else .stuck
  | some (.rcpt _), _ => .ready .mailed
  | some (.bogus _), _ => .ready .mailed
  | some .rset, code => if code = 250 then .ready .hailed else .stuck
  | some .quit, _ => .stuck

lemma heard_ne_leaving (command : Option Command) (code : Int) : heard command code ≠ .leaving := by
  unfold heard
  split <;> first | (split <;> nofun) | nofun

def answersWith (answers : List (Str × Reply)) : Option Command → Reply → List (Str × Reply)
  | some (.rcpt addr), reply => answers ++ [(addr, reply)]
  | _, _ => answers

def Watch.hear (w : Watch) (command : Option Command) : Except Failure Reply → Watch
  | .ok reply => { w with
      stage := heard command reply.code
      answers := answersWith w.answers command reply }
  | .error _ => { w with stage := lost command }

def Watch.wrote (w : Watch) (command : Command) : Except Failure Unit → Watch
  | .ok _ => { w with stage := .awaiting (some command) }
  | .error _ => { w with stage := lost (some command) }

/-- The questions that are in order, and what asking takes. -/
inductive Sends (c : Scope) (w : Watch) : Command → Watch → Prop where
  | ehlo : w.stage = .ready .greeted → Sends c w (.ehlo c.helo) w
  | startTLS : w.stage = .ready .hailed → Sends c w .startTLS w
  | mailFrom : w.stage = .ready .hailed →
      Sends c w (.mailFrom c.sender) { w with opened := w.opened + 1 }
  | rcpt {addr : Str} : w.stage = .ready .mailed → (c.paced = true → w.paid = true) → addr ∈ c.addrs →
      Sends c w (.rcpt addr) { w with paid := false, sent := w.sent ++ [addr] }
  | bogus {nonce : Nonce} {domain : Str} : w.stage = .ready .mailed → (c.paced = true → w.paid = true) →
      domain ∈ c.domains → Sends c w (.bogus (bogusFor nonce domain)) { w with paid := false }
  | rset : w.stage = .ready .mailed ∨ w.stage = .adrift → w.opened < w.groups → Sends c w .rset w

/-- What must be in hand for a dial. -/
structure MayDial (c : Scope) (w : Watch) (target : Str) : Prop where
  inside : w.inside = true
  alone : w.conn = none
  cleared : c.health = true → w.cleared = true
  vetted : ∃ ips a, w.ips = some ips ∧ a ∈ ips ∧ target = joinHostPort a.string c.port
  leased : c.leasing = true → w.lease.isSome
  paid : c.paced = true → w.paid = true

/-- What a session may be given. -/
structure MayEnter (c : Scope) (groups : List SessionGroup) : Prop where
  few : (groups.flatMap SessionGroup.addrs).length ≤ c.maxRCPT
  asked : ∀ g ∈ groups, ∀ addr ∈ g.addrs, addr ∈ c.addrs
  wanted : ∀ g ∈ groups, g.askCatchAll = true → g.domain ∈ c.domains

/-- Calls that touch no lease, token, connection or address. -/
def Aside : Op → Prop
  | .isRandomiser _ | .markRandomiser _ | .tlsBroken _ | .markTLSBroken _
  | .enforcing | .suppressed _ | .fallenLoad _ | .fallenLoadOrStore _ | .randRead | .randFloat
  | .notify _ => True
  | _ => False

/-- Telling and looking up: all of these but the draw of a random name. -/
def Quiet : Op → Prop
  | .randRead => False
  | o => Aside o

lemma Quiet.aside {o : Op} (quiet : Quiet o) : Aside o := by
  cases o <;> first | exact quiet | cases quiet

/-- The protocol of one request. -/
inductive Step (c : Scope) : World calls Watch where
  | aside {w : Watch} {o : Op} {a : o.Answer} : Aside o → Step c w ⟨o, a⟩ w
  | enter {w : Watch} {groups : List SessionGroup} {grouped : Bool} : w.Idle → MayEnter c groups →
      Step c w ⟨.enter groups grouped, ()⟩ { w with
        inside := true
        groups := groups.length
        cleared := false
        ips := none
        paid := false
        opened := 0 }
  | burned {w : Watch} {yes : Bool} {why : Str} : w.inside = true →
      Step c w ⟨.burned, (yes, why)⟩ { w with cleared := !yes }
  | resolve {w : Watch} {a : Except Failure (List Addr)} : w.inside = true →
      Step c w ⟨.resolve c.host, a⟩ { w with ips := a.toOption }
  | leased {w : Watch} {domain : Str} {lease : Lease} : w.inside = true → w.lease = none →
      w.conn = none → Step c w ⟨.acquireSession c.host domain, .ok lease⟩ { w with lease := some lease }
  | unleased {w : Watch} {domain : Str} {err : Failure} : w.inside = true → w.lease = none →
      w.conn = none → Step c w ⟨.acquireSession c.host domain, .error err⟩ w
  | paid {w : Watch} {domain : Str} : w.inside = true →
      Step c w ⟨.acquire c.host domain, .ok ()⟩ { w with paid := true }
  | unpaid {w : Watch} {domain : Str} {err : Failure} : w.inside = true →
      Step c w ⟨.acquire c.host domain, .error err⟩ w
  | dialled {w : Watch} {network target : Str} {timeout socket : Nat} : MayDial c w target →
      Step c w ⟨.dialContext network target timeout, .ok socket⟩
        { w with conn := some { socket := socket }, timed := false, stage := .awaiting none }
  | undialled {w : Watch} {network target : Str} {timeout : Nat} {err : Failure} : MayDial c w target →
      Step c w ⟨.dialContext network target timeout, .error err⟩ w
  | write {w sent : Watch} {conn : Conn} {command : Command} {a : Except Failure Unit} :
      w.conn = some conn → Sends c w command sent → Step c w ⟨.write conn command, a⟩ (sent.wrote command a)
  | read {w : Watch} {conn : Conn} {command : Option Command} {a : Except Failure Reply} :
      w.conn = some conn → w.stage = .awaiting command → Step c w ⟨.readReply conn, a⟩ (w.hear command a)
  | upgraded {w : Watch} {conn : Conn} {name : Str} {timeout : Nat} {verified : Bool} :
      w.conn = some conn → w.stage = .upgrading → Step c w ⟨.handshake conn name timeout, .ok verified⟩
        { w with conn := some { conn with tls := true }, stage := .ready .greeted }
  | spurned {w : Watch} {conn : Conn} {name : Str} {timeout : Nat} {err : Failure} :
      w.conn = some conn → w.stage = .upgrading → Step c w ⟨.handshake conn name timeout, .error err⟩
        { w with stage := .stuck }
  | deadline {w : Watch} {conn : Conn} : w.conn = some conn → w.timed = false → w.stage = .awaiting none →
      Step c w ⟨.setDeadline conn c.timeout, ()⟩ { w with timed := true }
  | leaving {w : Watch} {conn : Conn} : w.conn = some conn → w.stage ≠ .leaving →
      Step c w ⟨.setWriteDeadline conn teardownTimeout, ()⟩ { w with stage := .leaving }
  | bye {w : Watch} {conn : Conn} {command : Command} {a : Except Failure Unit} : w.conn = some conn →
      w.stage = .leaving → command = .rset ∨ command = .quit → Step c w ⟨.write conn command, a⟩ w
  | close {w : Watch} {conn : Conn} : w.conn = some conn →
      Step c w ⟨.close conn, ()⟩ { w with conn := none, stage := .shut }
  | closeAgain {w : Watch} {conn : Conn} : w.conn = none → Step c w ⟨.close conn, ()⟩ w
  | release {w : Watch} {lease : Lease} : w.lease = some lease → w.conn = none →
      Step c w ⟨.release lease, ()⟩ { w with lease := none }
  | leave {w : Watch} {rest : List Str} : w.inside = true → w.lease = none → w.conn = none →
      w.stage = .shut → Step c w ⟨.leave rest, ()⟩ { w with
        inside := false
        refusals := if rest = [] then w.refusals else w.refusals + 1 }

/-- A later moment of the same session: the questions and answers may have grown,
what is held has not changed. -/
structure Onward (w w' : Watch) : Prop where
  inside : w'.inside = w.inside
  groups : w'.groups = w.groups
  lease : w'.lease = w.lease
  refusals : w'.refusals = w.refusals
  answers : w.answers <+: w'.answers

variable {w sent : Watch} {c : Scope}

lemma Onward.rfl : Onward w w :=
  ⟨Eq.refl _, Eq.refl _, Eq.refl _, Eq.refl _, List.prefix_rfl⟩

lemma Onward.trans {w₁ w₂ w₃ : Watch} (first : Onward w₁ w₂) (second : Onward w₂ w₃) : Onward w₁ w₃ :=
  ⟨second.inside.trans first.inside, second.groups.trans first.groups,
    second.lease.trans first.lease, second.refusals.trans first.refusals,
    first.answers.trans second.answers⟩

lemma answersWith_grows (answers : List (Str × Reply)) (command : Option Command) (reply : Reply) :
    answers <+: answersWith answers command reply := by
  unfold answersWith
  split
  · exact List.prefix_append _ _
  · exact List.prefix_rfl

lemma Onward.hear {w' : Watch} (onward : Onward w w') (command : Option Command) (reply : Reply) :
    Onward w (w'.hear command (.ok reply)) :=
  ⟨onward.inside, onward.groups, onward.lease, onward.refusals,
    onward.answers.trans (answersWith_grows _ _ _)⟩

lemma Onward.staged {w' : Watch} (onward : Onward w w') (stage : Stage) : Onward w { w' with stage := stage } :=
  ⟨onward.inside, onward.groups, onward.lease, onward.refusals, onward.answers⟩

lemma Sends.onward {command : Command} (sends : Sends c w command sent) : Onward w sent := by
  cases sends <;> exact ⟨rfl, rfl, rfl, rfl, List.prefix_rfl⟩

lemma Sends.conn {command : Command} (sends : Sends c w command sent) : sent.conn = w.conn := by
  cases sends <;> rfl

/-- What may be asked next: the banner that is due, or a command that is in order. -/
inductive Asks (c : Scope) (w : Watch) : Option Command → Watch → Prop where
  | banner : w.stage = .awaiting none → Asks c w none w
  | command {command : Command} {sent : Watch} : Sends c w command sent → Asks c w (some command) sent

lemma Asks.onward {command : Option Command} (asks : Asks c w command sent) : Onward w sent := by
  cases asks with
  | banner _ => exact .rfl
  | command sends => exact sends.onward

lemma Asks.conn {command : Option Command} (asks : Asks c w command sent) : sent.conn = w.conn := by
  cases asks with
  | banner _ => rfl
  | command sends => exact sends.conn

end EmailVerifier.Prober
