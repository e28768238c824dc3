import EmailVerifier.Configuration.Validate
import EmailVerifier.Limiter.Lease
import EmailVerifier.Prober.ProbeConduct
import EmailVerifier.Prober.Surroundings
import EmailVerifier.Semantics.Pool

/-! Requests on any number of nodes, with the leases they share and a clock.

`AcquireSession` runs the lease script until it grants; a refused try has no effect but
to drop what has expired. `Acquire` waits, and a dial takes, any time. An operation on a
connection ends by the connection's deadline, so no time passes beyond it while a
request with an open connection waits for anything but a token. Lease ids and sockets
never come twice. `Grip` is what a request has in hand by its own trace.
-/

set_option autoImplicit false

namespace EmailVerifier.Prober
open Text Semantics Limiter EmailVerifier.Configuration

def milliseconds (t : Int) : Int := t / 1000000

structure Rooms where
  clock : Int := 0
  leases : Str → LeaseSet := fun _ => {}
  -- The largest limit a lease of the key was asked with.
  peak : Str → Nat := fun _ => 0
  issued : List Nat := []
  expiry : Nat → Int := fun _ => 0
  sockets : List Nat := []
  deadline : Nat → Int := fun _ => 0

namespace Rooms

def setLeases (s : Rooms) (key : Str) (set : LeaseSet) : Rooms :=
  { s with leases := Function.update s.leases key set }

def script (s : Rooms) (ttl : Int) (key : Str) (limit : Nat) (read : Int) (id : Nat) : LeaseReply × LeaseSet :=
  (s.leases key).lease limit (milliseconds read) ttl id (milliseconds s.clock)

def grant (s : Rooms) (ttl : Int) (key : Str) (limit : Nat) (read : Int) (id : Nat) : Rooms :=
  { s with
    leases := Function.update s.leases key (s.script ttl key limit read id).2
    peak := Function.update s.peak key (max (s.peak key) limit)
    issued := id :: s.issued
    expiry := Function.update s.expiry id (milliseconds read + ttl) }

def giveBack (s : Rooms) (id : Nat) : Rooms :=
  { s with leases := fun key => (s.leases key).release id (milliseconds s.clock) }

def connect (s : Rooms) (socket : Nat) : Rooms :=
  { s with sockets := socket :: s.sockets, deadline := Function.update s.deadline socket s.clock }

def setDeadline (s : Rooms) (socket : Nat) (timeout : Nat) : Rooms :=
  { s with deadline := Function.update s.deadline socket (s.clock + timeout) }

end Rooms

def Op.elsewhere : Op → Bool
  | .acquireSession _ _ | .release _ | .dialContext _ _ _ | .setDeadline _ _ | .setWriteDeadline _ _ => false
  | _ => true

inductive Houses (ttl : Int) (paceKey : Str → Str) : World calls Rooms where
  | granted {s : Rooms} {host domain : Str} {lease : Lease} {limit : Nat} {read : Int} : read ≤ s.clock →
      lease.id ∉ s.issued → (s.script ttl (paceKey host) limit read lease.id).1.granted = true →
      Houses ttl paceKey s ⟨.acquireSession host domain, .ok lease⟩ (s.grant ttl (paceKey host) limit read lease.id)
  | refused {s : Rooms} {host domain : Str} {err : Failure} :
      Houses ttl paceKey s ⟨.acquireSession host domain, .error err⟩ s
  -- Granted, but the reply was lost: the room is taken until it expires.
  | unheard {s : Rooms} {host domain : Str} {err : Failure} {id limit : Nat} {read : Int} : read ≤ s.clock →
      id ∉ s.issued → (s.script ttl (paceKey host) limit read id).1.granted = true →
      Houses ttl paceKey s ⟨.acquireSession host domain, .error err⟩ (s.grant ttl (paceKey host) limit read id)
  | released {s : Rooms} {lease : Lease} : Houses ttl paceKey s ⟨.release lease, ()⟩ (s.giveBack lease.id)
  | unreleased {s : Rooms} {lease : Lease} : Houses ttl paceKey s ⟨.release lease, ()⟩ s
  | dialled {s : Rooms} {network target : Str} {timeout socket : Nat} : socket ∉ s.sockets →
      Houses ttl paceKey s ⟨.dialContext network target timeout, .ok socket⟩ (s.connect socket)
  | undialled {s : Rooms} {network target : Str} {timeout : Nat} {err : Failure} :
      Houses ttl paceKey s ⟨.dialContext network target timeout, .error err⟩ s
  | deadline {s : Rooms} {conn : Conn} {timeout : Nat} :
      Houses ttl paceKey s ⟨.setDeadline conn timeout, ()⟩ (s.setDeadline conn.socket timeout)
  | writeDeadline {s : Rooms} {conn : Conn} {timeout : Nat} :
      Houses ttl paceKey s ⟨.setWriteDeadline conn timeout, ()⟩ (s.setDeadline conn.socket timeout)
  | other {s : Rooms} {e : Event calls} : e.op.elsewhere = true → Houses ttl paceKey s e s

structure Grip where
  lease : Option (Str × Nat) := none
  socket : Option Nat := none
  timed : Bool := false
  leaving : Bool := false
  deriving DecidableEq, Repr

def Grip.note (g : Grip) : Event calls → Grip
  | ⟨.acquireSession host _, .ok lease⟩ => { g with lease := some (host, lease.id) }
  | ⟨.release _, _⟩ => { g with lease := none }
  | ⟨.dialContext _ _ _, .ok socket⟩ => { g with socket := some socket, timed := false, leaving := false }
  | ⟨.setDeadline _ _, _⟩ => { g with timed := true }
  | ⟨.setWriteDeadline _ _, _⟩ => { g with leaving := true }
  | ⟨.close _, _⟩ => { g with socket := none }
  | _ => g

def gripOf (did : Trace calls) : Grip := did.foldl Grip.note {}

def awaitsToken {A : Type} : Act A → Bool
  | .perform (.acquire _ _) _ => true
  | _ => false

abbrev Nodes := Pool calls (Option (Except Str Response)) Rooms

def Nodes.grips (pool : Nodes) : List Grip := pool.running.map fun proc => gripOf proc.did

/-- The clock may stand at this time as far as the open connections are concerned. -/
def InTime (waits : Bool) (pool : Nodes) (clock : Int) : Prop :=
  ∀ proc ∈ pool.running, ∀ socket, (gripOf proc.did).socket = some socket →
    (waits = true ∧ awaitsToken proc.rest = true) ∨ clock ≤ pool.shared.deadline socket

inductive Passes (waits : Bool) (pool : Nodes) : Rooms → Prop where
  | time {clock : Int} : pool.shared.clock ≤ clock → InTime waits pool clock →
      Passes waits pool { pool.shared with clock := clock }
  | purge {key : Str} {read : Int} : read ≤ pool.shared.clock → Passes waits pool
      (pool.shared.setLeases key (((pool.shared.leases key).alive
        (milliseconds pool.shared.clock)).zremRangeByScore (milliseconds read)))

section
variable [Unicode] (paceKey : Str → Str) (cfg : Config)

/-- The lease time the pacer is built with, as the script is given it. -/
def leaseTTL : Int := milliseconds cfg.pacer.sessionLease

def Requested (p : Act (Option (Except Str Response))) : Prop :=
  ∃ fuel o req, o.pacer = .leasing ∧ o.timeout = cfg.probe.timeout ∧ p = Probe fuel o req

def nodes : Rules calls (Option (Except Str Response)) Rooms where
  world := Houses (leaseTTL cfg) paceKey
  job := Requested cfg
  drift := Passes true

end

def hotel (ttl : Int) (paceKey : Str → Str) : Player calls Rooms := fun s o =>
  match o with
  | .acquireSession host _ =>
    let id := s.issued.length
    if id ∉ s.issued ∧ (s.script ttl (paceKey host) 1 s.clock id).1.granted = true then
      (.ok ⟨id, 0⟩, s.grant ttl (paceKey host) 1 s.clock id)
    else (.error broken, s)
  | .release lease => ((), s.giveBack lease.id)
  | .dialContext _ _ _ =>
    let socket := s.sockets.length
    if socket ∈ s.sockets then (.error broken, s) else (.ok socket, s.connect socket)
  | .setDeadline conn timeout => ((), s.setDeadline conn.socket timeout)
  | .setWriteDeadline conn timeout => ((), s.setDeadline conn.socket timeout)
  | other => ((granting false other).1, s)

lemma hotel_houses (ttl : Int) (paceKey : Str → Str) (s : Rooms) (o : Op) :
    Houses ttl paceKey s ⟨o, (hotel ttl paceKey s o).1⟩ (hotel ttl paceKey s o).2 := by
  cases o with
  | acquireSession host domain =>
    unfold hotel
    dsimp only
    split
    · rename_i room
      exact .granted (Int.le_refl _) room.1 room.2
    · exact .refused
  | release lease => exact .released
  | dialContext network target timeout =>
    unfold hotel
    dsimp only
    split
    · exact .undialled
    · rename_i fresh
      exact .dialled fresh
  | setDeadline conn timeout => exact .deadline
  | setWriteDeadline conn timeout => exact .writeDeadline
  | _ => exact .other rfl

def leasingOptions : Options where
  pacer := .leasing
  timeout := nodeConfig.probe.timeout

def aRequest : Act (Option (Except Str Response)) := Probe 1 leasingOptions oneAddress

lemma aRequest_requested : Requested nodeConfig aRequest := ⟨1, leasingOptions, oneAddress, rfl, rfl, rfl⟩

def underway (n : Nat) (p : Act (Option (Except Str Response))) (s : Rooms) :
    Trace calls × Act (Option (Except Str Response)) × Rooms :=
  p.playFor (hotel (leaseTTL nodeConfig) fun host => host) n s

end EmailVerifier.Prober
