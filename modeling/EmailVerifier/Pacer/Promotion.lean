import EmailVerifier.Pacer.Spelling
import EmailVerifier.Pacer.Standing

/-! What a promotion leaves for the next load.

`Promote` reads the proposal and the band, writes the wider band, clears the proposal and
drops the entry, one command after the other. The band it widens is the one for no
recipient domain, and it compares the proposal with nothing.
-/

set_option autoImplicit false

namespace EmailVerifier.Pacer
open Text Data Semantics

section
variable [Unicode] [Codec]

def Node.readBand (s : Node) (domain key : Str) : Band :=
  (bandIn (.ok (s.store (limitsKey key)))).getD (shipped key domain)

def Node.proposed (s : Node) (key : Str) : Option Proposal := proposalIn (.ok (s.store (ProposalKey key)))

/-- The band and the rate in force for a key: its entry's, or those of a fresh load. -/
def Node.inForce (s : Node) (domain key : Str) : MXState := s.standing (s.readBand domain) key

/-- What became of the commands of a promotion: how the read of the band was answered, and
which writes took effect. -/
structure Log where
  read : Got := .ok none
  took : List Str := []

def Log.wrote (log : Log) (field : Str) : Log := { log with took := log.took ++ [field] }

def Log.note (key : Str) (log : Log) : Event calls → Log
  | ⟨.get field, got⟩ => if field = limitsKey key then { log with read := got } else log
  | ⟨.set field _, .ok _⟩ => log.wrote field
  | _ => log

-- A write that is reported as failed may have been done all the same.
def Logs (key : Str) (x x' : Node × Log) : Event calls → Prop
  | ⟨.set field val, .error _⟩ => x' = x ∨ x' = (x.1.put field val, x.2.wrote field)
  | e => x'.2 = x.2.note key e

def recording (o : Options) (key : Str) : World calls (Node × Log) :=
  fun x e x' => Serves o true x.1 e x'.1 ∧ Logs key x x' e

/-- The band a promotion reads. -/
def Log.band (log : Log) (key : Str) : Band := (bandIn log.read).getD (shipped key [])

/-- The band a promotion writes, as it is read back. -/
def widened (b : Band) (pr : Proposal) : Band := ({ b with maxRate := pr.proposedMax } : Band).normalise

variable {o : Options} {key domain : Str} {x x' : Node × Log}

/-- The wider band was written, and the proposal cleared or not. -/
structure Wrote (key : Str) (s : Node) (pr : Proposal) (cleared : Bool) (x : Node × Log) : Prop where
  proposed : s.proposed key = some pr
  took : x.2.took = limitsKey key :: if cleared then [ProposalKey key] else []
  store : ∃ body, Codec.marshalBand { x.2.band key with maxRate := pr.proposedMax } = .ok body ∧ x.1.store =
    (if cleared then (s.put (limitsKey key) body).put (ProposalKey key) [] else s.put (limitsKey key) body).store

def Ends (key : Str) (s : Node) (result : Except Str Proposal) (x : Node × Log) : Prop :=
  match result with
  | .error _ => x.2.took = [] ∧ x.1.store = s.store ∨ ∃ pr cleared, Wrote key s pr cleared x
  | .ok pr => Wrote key s pr true x ∧ x.1.memory = s.memory.forget key

omit [Codec] in
lemma ProposalKey_ne_limitsKey (folded : PaceKey key = key) : ProposalKey key ≠ limitsKey key := by
  rw [ProposalKey_eq, folded]
  intro same
  have longer := congrArg List.length same
  have tail : (lit ":proposed").length = 9 := by decide
  simp only [limitsKey, List.length_append] at longer
  omega

section
variable (coded : ∀ b raw, Codec.marshalBand b = .ok raw → Codec.unmarshalBand raw = some b) {mxHost : Str} {s : Node}
  {pr : Proposal} {cleared : Bool}
include coded

lemma Wrote.readBand (folded : PaceKey key = key) (wrote : Wrote key s pr cleared x) (domain : Str) :
    x.1.readBand domain key = widened (x.2.band key) pr := by
  obtain ⟨body, written, store⟩ := wrote.store
  have there : x.1.store (limitsKey key) = some body := by
    rw [store]
    cases cleared <;> simp [Node.put_store, (ProposalKey_ne_limitsKey folded).symm]
  have read : bandIn (.ok (some body)) = some _ := congrArg (Option.map Band.normalise) (coded _ _ written)
  rw [Node.readBand, there, read]
  rfl

omit coded in
lemma Wrote.kept (folded : PaceKey key = key) (wrote : Wrote key s pr cleared x) :
    x.1.store (rateField key) = s.store (rateField key) ∧
      x.1.proposed key = if cleared then none else s.proposed key := by
  obtain ⟨body, -, store⟩ := wrote.store
  have rate (field : Str) : rateField key ≠ limitsKey field := runtimeKey_ne_limitsKey _ _ _
  have cleared' : rateField key ≠ ProposalKey key := by
    rw [ProposalKey_eq]
    exact rate _
  unfold Node.proposed
  rw [store]
  cases cleared <;> simp [Node.put_store, ProposalKey_ne_limitsKey folded, rate, cleared', proposalIn]

lemma Wrote.loaded (folded : PaceKey key = key) (wrote : Wrote key s pr cleared x) (absent : x.1.memory.state key = none)
    (domain : Str) : (x.1.inForce domain key).band = widened (x.2.band key) pr ∧
      (x.1.inForce domain key).rate = startRate (widened (x.2.band key) pr) (rateIn (.ok (s.store (rateField key)))) := by
  rw [Node.inForce, Node.standing, absent, Option.getD_none, wrote.readBand coded folded, Node.reload,
    (wrote.kept folded).1]
  exact loaded_point _ _ _ _

end

end

def writeBand (b : Band) : Str :=
  writeRat b.minRate ++ (writeRat b.maxRate ++ (writeInt b.minConc ++ (writeInt b.maxConc ++ (writeRat b.burst ++
    (writeInt b.cooldown ++ (writeInt b.pause ++ writeInt b.pauseAlt))))))

def parseBand (s : Str) : Option Band := do
  let (minRate, s) ← readRat s
  let (maxRate, s) ← readRat s
  let (minConc, s) ← readInt s
  let (maxConc, s) ← readInt s
  let (burst, s) ← readRat s
  let (cooldown, s) ← readInt s
  let (pause, s) ← readInt s
  let (pauseAlt, _) ← readInt s
  return { minRate, maxRate, minConc, maxConc, burst, cooldown, pause, pauseAlt }

def seeded : Band where
  minRate := 1 / 2
  maxRate := 1
  minConc := 1
  maxConc := 1
  burst := 1
  cooldown := 300
  pauseAlt := 600

abbrev bandCodec : Codec :=
  { plainCodec with
    unmarshalBand := parseBand
    marshalBand := fun b => .ok (writeBand b)
    parseFloat := fun raw => (readRat raw).map fun found => .finite found.1
    formatFloat := writeRat
    readFile := fun name => if name = lit "bands/b.test.json" then some (writeBand seeded) else none }

def upTo (top : ℚ) : Proposal := ⟨lit "mx.test", 0, top, 0, 0⟩

def proposing (top : ℚ) (others : Str → Option Str) : Node where
  store := fun key => if key = lit "limits:mx:mx.test:proposed" then some (writeProposal (upTo top)) else others key

def logged (o : Options) (key : Str) : Player calls (Node × Log) := fun x op =>
  ((standing o x.1 op).1, (standing o x.1 op).2, x.2.note key ⟨op, (standing o x.1 op).1⟩)

def narrow : Band where
  minRate := 1 / 10
  maxRate := 1 / 2
  minConc := 1
  maxConc := 1
  burst := 1
  cooldown := 1
  pause := 1

def steady : Node := proposing 1 fun key =>
  if key = lit "limits:mx:mx.test" then some (writeBand narrow)
  else if key = lit "rt:mx:mx.test:rate" then some (writeRat (1 / 4))
  else none

def promoted : Trace calls × Except Str Proposal × Node × Log :=
  letI := bandCodec
  (Promote (lit "mx.test")).play (logged (new {}) (PaceKey (lit "mx.test"))) (steady, {})

def uncleared (o : Options) (field : Str) : Player calls Node := fun s op =>
  match op with
  | .set key val => if key = field then (.error (lit "redis: READONLY"), s) else (.ok (), s.put key val)
  | op => standing o s op

end EmailVerifier.Pacer
