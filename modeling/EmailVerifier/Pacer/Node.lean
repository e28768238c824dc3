import EmailVerifier.Pacer.Calls
import EmailVerifier.Semantics.Player
import EmailVerifier.Semantics.Pool
import EmailVerifier.Text.Fields

/-! One process with its pacer, and the store it shares with others.

Every section and every reading of the clock comes with a time of its own. Where faults
are possible a command to the store may fail, with or without having had its effect. What
the bucket and the leases answer is left open. The history is no part of the program: it
notes every answer that was taken into account, by the object it was about.
-/

set_option autoImplicit false

namespace EmailVerifier.Pacer
open Text Data Semantics

structure Observation where
  ref : Nat
  throttled : Bool
  before : ℚ
  after : ℚ
  deriving DecidableEq

structure Node where
  memory : Memory := {}
  store : Str → Option Str := fun _ => none
  clock : Time := Time.zero
  history : List Observation := []

def Section.observation (o : Options) (now : Time) (m : Memory) : Section → List Observation
  | .observe key throttled =>
    match m.mx.lookup key with
    | none => []
    | some ref =>
      match m.objects[ref]? with
      | none => []
      | some st => [⟨ref, throttled, st.rate, (st.observe o.promote now throttled).1.rate⟩]
  | _ => []

def Section.reads : Section → Str
  | .install key _ _ => runtimeKey key "pause_until"
  | _ => []

namespace Node

def put (s : Node) (key val : Str) : Node := { s with store := Function.update s.store key (some val) }

lemma put_store (s : Node) (key val key' : Str) :
    (s.put key val).store key' = if key' = key then some val else s.store key' :=
  Function.update_apply s.store key (some val) key'

def enter (s : Node) (o : Options) (now : Time) (got : Got) (sec : Section) : Node :=
  { s with
    memory := (sec.run o now got s.memory).2
    clock := now
    history := s.history ++ sec.observation o now s.memory }

/-- Entries dropped from the map: an eviction, or with all keys a restart. -/
def drop (s : Node) (keys : List Str) : Node := { s with memory := keys.foldl Memory.forget s.memory }

end Node

def Op.elsewhere : Op → Bool
  | .take _ _ _ | .lease _ _ _ | .release _ _ | .after _ | .pause _ | .leaseWait _ => true
  | _ => false

inductive Serves (o : Options) (faults : Bool) : World calls Node where
  | now {s : Node} {t : Time} : Serves o faults s ⟨.now, t⟩ { s with clock := t }
  | got {s : Node} {key : Str} : Serves o faults s ⟨.get key, .ok (s.store key)⟩ s
  | unread {s : Node} {key err : Str} : faults = true → Serves o faults s ⟨.get key, .error err⟩ s
  | put {s : Node} {key val : Str} : Serves o faults s ⟨.set key val, .ok ()⟩ (s.put key val)
  | unwritten {s : Node} {key val err : Str} : faults = true → Serves o faults s ⟨.set key val, .error err⟩ s
  | unheard {s : Node} {key val err : Str} : faults = true →
      Serves o faults s ⟨.set key val, .error err⟩ (s.put key val)
  | entered {s : Node} {sec : Section} {t : Time} {got : Got} :
      (got = .ok (s.store sec.reads) ∨ faults = true ∧ ∃ err, got = .error err) →
      Serves o faults s ⟨.locked sec, (sec.run o t got s.memory).1⟩ (s.enter o t got sec)
  | other {s : Node} {e : Event calls} : e.op.elsewhere = true → Serves o faults s e s

/-- The calls other packages make. -/
inductive Call where
  | acquire (fuel : Nat) (mxHost domain : Str)
  | acquireSession (fuel : Nat) (mxHost domain : Str)
  | release (key id : Str)
  | observe (mxHost : Str) (throttled : Bool)
  | pauseKey (mxHost : Str) (till : Time)
  | resumeKey (mxHost : Str)
  | promote (mxHost : Str)

/-- The host a call is about; a session is given back under its key. -/
def Call.host : Call → Str
  | .acquire _ mxHost _ | .acquireSession _ mxHost _ | .observe mxHost _ | .pauseKey mxHost _ | .resumeKey mxHost
  | .promote mxHost => mxHost
  | .release key _ => key

def Call.prog [Unicode] [Codec] (o : Options) : Call → Act Unit
  | .acquire fuel mxHost domain => Functor.discard (Acquire fuel mxHost domain)
  | .acquireSession fuel mxHost domain => Functor.discard (AcquireSession o fuel mxHost domain)
  | .release key id => Pacer.release key id
  | .observe mxHost throttled => Observe o mxHost throttled
  | .pauseKey mxHost till => Functor.discard (PauseKey o mxHost till)
  | .resumeKey mxHost => Functor.discard (ResumeKey mxHost)
  | .promote mxHost => Functor.discard (Promote mxHost)

/-- The store does what it is told, the clock stands, budget and room are granted. -/
def standing (o : Options) : Player calls Node := fun s op =>
  match op with
  | .now => (s.clock, s)
  | .get key => (.ok (s.store key), s)
  | .set key val => (.ok (), s.put key val)
  | .take _ _ _ => (.ok ⟨true, 0⟩, s)
  | .lease _ _ _ => (.ok ⟨true, lit "lease", 0⟩, s)
  | .release _ _ => (.ok (), s)
  | .after _ => (.ok (), s)
  | .locked sec => ((sec.run o s.clock (.ok (s.store sec.reads)) s.memory).1, s.enter o s.clock (.ok (s.store sec.reads)) sec)
  | .pause _ => ((), s)
  | .leaseWait _ => ((), s)

lemma standing_serves (o : Options) (faults : Bool) (s : Node) (op : Op) :
    Serves o faults s ⟨op, (standing o s op).1⟩ (standing o s op).2 := by
  cases op with
  | now => exact .now
  | get key => exact .got
  | set key val => exact .put
  | locked sec => exact .entered (.inl rfl)
  | _ => exact .other rfl

def performed [Unicode] [Codec] (o : Options) (cs : List Call) (s : Node) : Node :=
  cs.foldl (fun s call => ((call.prog o).play (standing o) s).2.2) s

def writeProposal (pr : Proposal) : Str :=
  writeStr pr.mxHost ++ (writeRat pr.currentMax ++ (writeRat pr.proposedMax ++ (writeInt pr.cleanAt ++
    writeInt pr.formedAt)))

def readProposal (s : Str) : Option Proposal := do
  let (mxHost, s) ← readStr s
  let (currentMax, s) ← readRat s
  let (proposedMax, s) ← readRat s
  let (cleanAt, s) ← readInt s
  let (formedAt, _) ← readInt s
  return { mxHost, currentMax, proposedMax, cleanAt, formedAt }

lemma readProposal_writeProposal (pr : Proposal) : readProposal (writeProposal pr) = some pr := by
  have last : readInt (writeInt pr.formedAt) = some (pr.formedAt, []) := by
    simpa using readInt_writeInt pr.formedAt []
  simp only [readProposal, writeProposal, readStr_writeStr, readRat_writeRat, readInt_writeInt, last,
    Option.bind_eq_bind, Option.bind_some]
  rfl

/-- Codecs to run with. The one band they know leaves no room above its concurrency. -/
instance plainCodec : Codec where
  unmarshalBand raw :=
    if raw = lit "\x7b\"min_concurrency\":9223372036854775807\x7d" then
      some { minConc := 9223372036854775807 } else none
  marshalBand _ := .error (lit "json")
  unmarshalProposal := readProposal
  marshalProposal := writeProposal
  parseFloat _ := none
  formatFloat _ := []
  readFile _ := none
  proposal_back := readProposal_writeProposal
  proposal_empty := rfl

end EmailVerifier.Pacer
