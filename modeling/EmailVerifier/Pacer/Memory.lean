import EmailVerifier.Data.Table
import EmailVerifier.Pacer.Band

/-! What one process keeps about each pace key, and the sections of `pacer.go` that run
under the lock.

Each section is one atomic step at one reading of the clock. The entries are objects:
`stateFor` hands out a reference, and an entry that is evicted while a call holds it
stays readable. Where Go ranges over the map the entries are taken in the table's order.
-/

set_option autoImplicit false

namespace EmailVerifier.Pacer
open Text Data

inductive Phase where
  | probing
  | steady
  | backoff
  | paused
  deriving DecidableEq, Repr

def Phase.name : Phase → Str
  | .probing => lit "PROBING"
  | .steady => lit "STEADY"
  | .backoff => lit "BACKOFF"
  | .paused => lit "PAUSED"

def cleanBeforeClimb : Int := 10

def backoffFactor : ℚ := 1 / 2

def climbFactor : ℚ := 11 / 10

structure Promotion where
  after : Int := 0
  step : ℚ := 0
  ceiling : ℚ := 0

/-- The options, durations in nanoseconds; of the collaborators whether there is one. -/
structure Options where
  idleTTL : Int := 0
  maxTracked : Int := 0
  metrics : Bool := false
  promote : Promotion := {}
  leases : Bool := false
  leaseTTL : Int := 0
  leaseWait : Int := 0
  leaseMetrics : Bool := false

/-- `New`: the options with their defaults filled in. -/
def new (o : Options) : Options :=
  { o with
    idleTTL := if o.idleTTL ≤ 0 then 30 * 60 * second else o.idleTTL
    maxTracked := if o.maxTracked ≤ 0 then 512 else o.maxTracked
    promote := { o.promote with
      step := if o.promote.step ≤ 1 then 3 / 2 else o.promote.step
      ceiling := if o.promote.ceiling ≤ 0 then 20 else o.promote.ceiling }
    leaseTTL := if o.leaseTTL ≤ 0 then 50 * second else o.leaseTTL
    leaseWait := if o.leaseWait ≤ 0 then 60 * second else o.leaseWait }

structure MXState where
  band : Band
  rate : ℚ
  conc : Int
  clean : Int := 0
  state : Phase
  pausedUntil : Time := Time.zero
  lastUsed : Time
  cleanAtCeiling : Int := 0
  proposed : Bool := false
  deriving DecidableEq

namespace MXState

def touch (st : MXState) (now : Time) : MXState := { st with lastUsed := now }

/-- The throttled case of `Observe`: the state, and whether the key is now paused. -/
def throttle (st : MXState) (now : Time) : MXState × Bool :=
  let st := { st with clean := 0, cleanAtCeiling := 0 }
  if st.band.minRate < st.rate then
    ({ st with
        rate := max st.band.minRate (st.rate * backoffFactor)
        conc := max st.band.minConc (wrap64 (st.conc - 1))
        state := .backoff }, false)
  else ({ st with pausedUntil := now.Add st.band.pauseFor, state := .paused }, true)

/-- Whether the next clean answer is one that earns a higher rate. -/
def climbs (st : MXState) : Bool := cleanBeforeClimb ≤ wrap64 (st.clean + 1) ∧ st.rate < st.band.maxRate

def climb (st : MXState) : MXState :=
  if st.climbs then
    { st with
      clean := 0
      rate := min st.band.maxRate (st.rate * climbFactor)
      conc := min st.band.maxConc (wrap64 (st.conc + 1)) }
  else { st with clean := wrap64 (st.clean + 1) }

def settle (st : MXState) : MXState := if st.state = .paused then st else { st with state := .steady }

/-- The evidence at the ceiling: the state, and whether to propose a wider band. -/
def weigh (st : MXState) (promote : Promotion) : MXState × Bool :=
  if st.band.maxRate ≤ st.rate then
    let st := { st with cleanAtCeiling := wrap64 (st.cleanAtCeiling + 1) }
    if 0 < promote.after ∧ st.proposed = false ∧ promote.after ≤ st.cleanAtCeiling then
      ({ st with proposed := true }, true)
    else (st, false)
  else (st, false)

@[simp] lemma climb_pausedUntil (st : MXState) : st.climb.pausedUntil = st.pausedUntil := by
  unfold climb
  split <;> rfl

@[simp] lemma settle_pausedUntil (st : MXState) : st.settle.pausedUntil = st.pausedUntil := by
  unfold settle
  split <;> rfl

@[simp] lemma weigh_pausedUntil (st : MXState) (promote : Promotion) :
    (st.weigh promote).1.pausedUntil = st.pausedUntil := by
  simp only [weigh]
  split
  · split <;> rfl
  · rfl

/-- The locked part of `Observe`: the state, whether it paused, whether it proposes. -/
def observe (st : MXState) (promote : Promotion) (now : Time) (throttled : Bool) : MXState × Bool × Bool :=
  let st := st.touch now
  if throttled then ((st.throttle now).1, (st.throttle now).2, false)
  else ((st.climb.settle.weigh promote).1, false, (st.climb.settle.weigh promote).2)

end MXState

/-- The objects ever made, the map from keys to them, and the leases held per key. -/
structure Memory where
  objects : List MXState := []
  mx : Table Str Nat := ∅
  inflight : Table Str Int := ∅

namespace Memory

variable (m : Memory)

def state (key : Str) : Option MXState := (m.mx.lookup key).bind fun ref => m.objects[ref]?

def write (ref : Nat) (st : MXState) : Memory := { m with objects := m.objects.set ref st }

def forget (key : Str) : Memory := { m with mx := m.mx.erase key }

def lastUsed (key : Str) : Int := ((m.state key).elim 0 fun st => st.lastUsed.nanos)

/-- The search of `evictLocked` for the key not used for longest. The empty text stands
for none found yet. -/
def oldest (keys : List Str) : Str :=
  (keys.foldl (fun found key =>
    if found.1 = [] ∨ m.lastUsed key < found.2 then (key, m.lastUsed key) else found) ([], 0)).1

/-- The second loop of `evictLocked`: at most as many rounds as there are keys. -/
def shrink (maxTracked : Int) : Nat → Memory → Memory
  | 0, m => m
  | fuel + 1, m =>
    if maxTracked ≤ m.mx.keys.length then
      if m.oldest m.mx.keys = [] then m else shrink maxTracked fuel (m.forget (m.oldest m.mx.keys))
    else m

def idle (cutoff : Time) : List Str := m.mx.keys.filter fun key => m.lastUsed key < cutoff.nanos

def evictLocked (o : Options) (now : Time) : Memory :=
  let kept := (m.idle (now.Add (-o.idleTTL))).foldl forget m
  shrink o.maxTracked (kept.mx.keys.length + 1) kept

def insert (key : Str) (st : MXState) : Memory :=
  { m with objects := m.objects ++ [st], mx := m.mx.insert key m.objects.length }

end Memory

/-- What the store gave: the value, that there is none, or an error. -/
abbrev Got := Except Str (Option Str)

/-- `savedPause`, of what the store gave. -/
def savedPause : Got → Option Time
  | .ok (some raw) => (parseInt raw).map Time.ofUnix
  | _ => none

/-- The object `stateFor` makes: the pause is the one saved, if it can be read. -/
def loaded (band : Band) (start : ℚ) (now : Time) (pause : Option Time) : MXState :=
  let st : MXState := { band, rate := start, conc := band.minConc, state := .probing, lastUsed := now }
  match pause with
  | none => st
  | some till => { st with pausedUntil := till, state := if now.Before till then .paused else .probing }

/-- The sections under the lock, by the call they are part of. -/
inductive Section where
  /-- `stateFor`, before it reads the store. -/
  | find (key : Str)
  /-- `stateFor`, after it: an entry made meanwhile is kept. -/
  | install (key : Str) (band : Band) (start : ℚ)
  /-- `Acquire`, through its reference. -/
  | budget (ref : Nat)
  /-- `AcquireSession`, through its reference. -/
  | room (ref : Nat)
  | enter (key : Str)
  | leave (key : Str)
  | observe (key : Str) (throttled : Bool)
  | pauseKey (key : Str) (till : Time)
  | resumeKey (key : Str)
  | forget (key : Str)
  deriving DecidableEq

def Section.Result : Section → Type
  | .find _ => Option Nat
  | .install _ _ _ => Nat
  -- The pause in force, or the rate and the burst.
  | .budget _ => Option (Except Time (ℚ × ℚ))
  | .room _ => Option (Except Time Int)
  | .observe _ _ => Option (MXState × Bool × Bool)
  | _ => Unit

/-- The pause in force through a reference, or what is read of the state. -/
def Memory.unlessPaused {A : Type} (m : Memory) (ref : Nat) (now : Time) (read : MXState → A) :
    Option (Except Time A) :=
  m.objects[ref]?.map fun st => if now.Before st.pausedUntil then .error st.pausedUntil else .ok (read st)

/-- One section, at a reading of the clock; `got` is what the store gives for the saved
pause, which `stateFor` reads under the lock. -/
def Section.run (o : Options) (now : Time) (got : Got) (m : Memory) : (sec : Section) → sec.Result × Memory
  | .find key =>
    match m.mx.lookup key with
    | none => (none, m)
    | some ref => (some ref, (m.objects[ref]?).elim m fun st => m.write ref (st.touch now))
  | .install key band start =>
    match m.mx.lookup key with
    | some ref => (ref, (m.objects[ref]?).elim m fun st => m.write ref (st.touch now))
    | none => (m.objects.length, (m.evictLocked o now).insert key (loaded band start now (savedPause got)))
  | .budget ref => (m.unlessPaused ref now fun st => (st.rate, st.band.burst), m)
  | .room ref => (m.unlessPaused ref now fun st => max 1 st.conc, m)
  | .enter key => ((), { m with inflight := m.inflight.insert key (wrap64 ((m.inflight.lookup key).getD 0 + 1)) })
  | .leave key =>
    let held := (m.inflight.lookup key).getD 0
    ((), if 0 < held then { m with inflight := m.inflight.insert key (held - 1) } else m)
  | .observe key throttled =>
    match m.mx.lookup key with
    | none => (none, m)
    | some ref =>
      match m.objects[ref]? with
      | none => (none, m)
      | some st => (some (st.observe o.promote now throttled), m.write ref (st.observe o.promote now throttled).1)
  | .pauseKey key till =>
    ((), (m.mx.lookup key).elim m fun ref => (m.objects[ref]?).elim m fun st =>
      m.write ref { st with pausedUntil := till, state := .paused })
  | .resumeKey key =>
    ((), (m.mx.lookup key).elim m fun ref => (m.objects[ref]?).elim m fun st =>
      m.write ref { st with pausedUntil := Time.zero, state := .steady })
  | .forget key => ((), m.forget key)

end EmailVerifier.Pacer
