import Mathlib.Algebra.Order.Field.Rat
import Mathlib.Tactic.Linarith
import EmailVerifier.Text.Decimal

/-! The working range of one pace key: `internal/pacer/band.go` and `family.go`.

Rates are exact rationals. Reading and writing JSON and floating-point text are functions
of the language's library, and the shipped seeds are files; both are left open.
-/

set_option autoImplicit false

namespace EmailVerifier.Pacer
open Text Data

structure Band where
  minRate : ℚ := 0
  maxRate : ℚ := 0
  minConc : Int := 0
  maxConc : Int := 0
  burst : ℚ := 0
  cooldown : Int := 0
  pause : Int := 0
  pauseAlt : Int := 0
  deriving DecidableEq, Repr

def conservative : Band where
  minRate := 1 / 10
  maxRate := 1 / 2
  minConc := 1
  maxConc := 1
  burst := 1
  cooldown := 300
  pause := 600

namespace Band

def normalise (b : Band) : Band :=
  let pause := if b.pause = 0 then b.pauseAlt else b.pause
  let d := conservative
  let maxRate := if b.maxRate ≤ 0 then d.maxRate else b.maxRate
  let minRate := if b.minRate ≤ 0 ∨ maxRate < b.minRate then min d.minRate maxRate else b.minRate
  let minConc := if b.minConc ≤ 0 then 1 else b.minConc
  { minRate := minRate
    maxRate := maxRate
    minConc := minConc
    maxConc := if b.maxConc < minConc then minConc else b.maxConc
    burst := if b.burst ≤ 0 then 1 else b.burst
    cooldown := if b.cooldown ≤ 0 then d.cooldown else b.cooldown
    pause := if pause ≤ 0 then d.pause else pause
    pauseAlt := b.pauseAlt }

def pauseFor (b : Band) : Int := wrap64 (b.pause * second)

/-- Both ranges are ranges, of positive numbers. -/
structure Ordered (b : Band) : Prop where
  minRate : 0 < b.minRate
  rates : b.minRate ≤ b.maxRate
  minConc : 1 ≤ b.minConc
  concs : b.minConc ≤ b.maxConc

lemma conservative_ordered : conservative.Ordered := by
  constructor <;> unfold conservative <;> norm_num

lemma normalise_ordered (b : Band) : b.normalise.Ordered := by
  have default := conservative_ordered
  have top : 0 < b.normalise.maxRate := by
    simp only [normalise]
    split
    · exact default.minRate.trans_le default.rates
    · rename_i positive
      exact lt_of_not_ge positive
  have rates : 0 < b.normalise.minRate ∧ b.normalise.minRate ≤ b.normalise.maxRate := by
    simp only [normalise] at top ⊢
    generalize (if b.maxRate ≤ 0 then conservative.maxRate else b.maxRate) = maxRate at top ⊢
    split
    · exact ⟨lt_min default.minRate top, min_le_right _ _⟩
    · rename_i inside
      push Not at inside
      exact inside
  have concs : 1 ≤ b.normalise.minConc ∧ b.normalise.minConc ≤ b.normalise.maxConc := by
    simp only [normalise]
    split <;> split <;> omega
  exact ⟨rates.1, rates.2, concs.1, concs.2⟩

/-- What a band is once it is normalised. -/
structure Normal (b : Band) : Prop extends b.Ordered where
  burst : 0 < b.burst
  cooldown : 0 < b.cooldown
  pause : 0 < b.pause

lemma conservative_normal : conservative.Normal :=
  ⟨conservative_ordered, by decide, by decide, by decide⟩

lemma default_pos {A : Type} [Zero A] [LinearOrder A] {x default : A} (positive : 0 < default) :
    0 < if x ≤ 0 then default else x := by
  split
  · exact positive
  · exact not_le.mp ‹_›

lemma normalise_normal (b : Band) : b.normalise.Normal where
  toOrdered := b.normalise_ordered
  burst := default_pos one_pos
  cooldown := default_pos conservative_normal.cooldown
  pause := default_pos conservative_normal.pause

end Band

/-- What `strconv.ParseFloat` gives. -/
inductive Number where
  | finite (q : ℚ)
  | infinite (negative : Bool)
  | nan
  deriving DecidableEq, Repr

/-- `v <= 0`, which is false of what is not a number. -/
def Number.nonpositive : Number → Bool
  | .finite q => q ≤ 0
  | .infinite negative => negative
  | .nan => false

structure Proposal where
  mxHost : Str
  currentMax : ℚ
  proposedMax : ℚ
  cleanAt : Int
  formedAt : Int
  deriving DecidableEq, Repr

/-- `encoding/json` on bands and proposals, `strconv` on floating-point text, and the
files shipped with the binary. A proposal that was written is read back. -/
class Codec where
  unmarshalBand : Str → Option Band
  marshalBand : Band → Except Str Str
  unmarshalProposal : Str → Option Proposal
  marshalProposal : Proposal → Str
  parseFloat : Str → Option Number
  formatFloat : ℚ → Str
  readFile : Str → Option Str
  proposal_back : ∀ pr, unmarshalProposal (marshalProposal pr) = some pr
  proposal_empty : unmarshalProposal [] = none

/-- What is formatted is parsed back. -/
abbrev Codec.Faithful [Codec] : Prop := ∀ q, Codec.parseFloat (Codec.formatFloat q) = some (.finite q)

section
variable [Unicode] [Codec]

def readSeed (domain : Str) : Option Band :=
  ((Codec.readFile (lit "bands/" ++ domain ++ lit ".json")).bind Codec.unmarshalBand).map Band.normalise

/-- The loop of `seedFor`: the domain, then its parents. -/
def seedFrom : Nat → Str → Option Band
  | 0, _ => none
  | fuel + 1, d =>
    if d = [] then none
    else match readSeed d with
      | some b => some b
      | none =>
        match cut d 46 with
        | none => none
        | some (_, parent) => seedFrom fuel parent

def seedFor (domain : Str) : Option Band :=
  let d := toLower (trimSuffix (trimSpace domain) (lit "."))
  seedFrom (d.length + 1) d

omit [Unicode] in
lemma readSeed_normal {domain : Str} {b : Band} (found : readSeed domain = some b) : b.Normal := by
  obtain ⟨raw, -, rfl⟩ := Option.map_eq_some_iff.mp found
  exact raw.normalise_normal

omit [Unicode] in
lemma seedFrom_normal {fuel : Nat} {d : Str} {b : Band} (found : seedFrom fuel d = some b) : b.Normal := by
  induction fuel generalizing d with
  | zero => cases found
  | succ fuel ih =>
    unfold seedFrom at found
    split at found
    · cases found
    · split at found
      · rename_i seed
        cases found
        exact readSeed_normal seed
      · split at found
        · cases found
        · exact ih found

end

structure Family where
  suffix : Str
  key : Str

/-- `families.json`. -/
def families : List Family :=
  [⟨lit "mail.protection.outlook.com", lit "@microsoft-eop"⟩, ⟨lit "aspmx.l.google.com", lit "@google"⟩,
    ⟨lit "googlemail.com", lit "@google"⟩, ⟨lit "smtp.google.com", lit "@google"⟩,
    ⟨lit "pphosted.com", lit "@proofpoint"⟩, ⟨lit "mimecast.com", lit "@mimecast"⟩,
    ⟨lit "mimecast.co.za", lit "@mimecast"⟩, ⟨lit "hornetsecurity.com", lit "@hornetsecurity"⟩,
    ⟨lit "ionos.de", lit "@ionos"⟩, ⟨lit "kundenserver.de", lit "@ionos"⟩]

def normaliseHost [Unicode] (h : Str) : Str := toLower (trimSuffix (trimSpace h) (lit "."))

def PaceKey [Unicode] (mxHost : Str) : Str :=
  if hasPrefix mxHost (lit "@") then mxHost
  else
    let h := normaliseHost mxHost
    ((families.find? fun f => h = f.suffix || hasSuffix h (lit "." ++ f.suffix)).map Family.key).getD mxHost

end EmailVerifier.Pacer
