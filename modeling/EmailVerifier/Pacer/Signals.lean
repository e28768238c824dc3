import EmailVerifier.Pacer.WorkingPoint
import EmailVerifier.Prober.Classify

/-! Which answers move the pacer.

Answers are fed to one key the way `prober.observe` does, each at its own time and with
its own failures of the store, so that leaving some of them out changes nothing about
the others. Of a key two things matter then, its state and the text of its proposal, and
every answer is a function of these.
-/

set_option autoImplicit false

namespace EmailVerifier.Pacer
open Text Data Semantics

/-- One classified answer: when the pacer takes it in, when a proposal would be formed,
and which keys of the store cannot be written at that time. -/
structure Answer where
  cls : Prober.Class
  heard : Time
  formed : Time
  lost : List Str := []

def unrelated : Prober.Class → Bool
  | .deferred | .policy => true
  | _ => false

def hearing (o : Options) (a : Answer) : Player calls Node := fun s op =>
  match op with
  | .now => (a.formed, { s with clock := a.formed })
  | .set key val => if key ∈ a.lost then (.error (lit "store"), s) else (.ok (), s.put key val)
  | .locked sec => ((sec.run o a.heard (.ok (s.store sec.reads)) s.memory).1, s.enter o a.heard (.ok (s.store sec.reads)) sec)
  | op => standing o s op

section
variable [Unicode] [Codec]

/-- `prober.observe`, where there is a pacer. -/
def observe (o : Options) (mxHost : Str) (cls : Prober.Class) : Act Unit := Observe o mxHost cls.isThrottle

def hears (o : Options) (mxHost : Str) (s : Node) (a : Answer) : Node :=
  ((observe o mxHost a.cls).play (hearing o a) s).2.2

def hearsAll (o : Options) (mxHost : Str) (s : Node) (answers : List Answer) : Node :=
  answers.foldl (hears o mxHost) s

/-- What is to be seen of a key: rate, concurrency and pause, and the standing proposal. -/
def Node.view (s : Node) (key : Str) : Option (ℚ × Int × Time) × Option Proposal :=
  ((s.memory.state key).map fun st => (st.rate, st.conc, st.pausedUntil), proposalIn (.ok (s.store (ProposalKey key))))

/-- The part of a node that is about one key: its state, and the text of its proposal. -/
abbrev Part := Option MXState × Option Str

def Node.part (s : Node) (key : Str) : Part := (s.memory.state key, s.store (ProposalKey key))

def Promotion.next (promote : Promotion) (band : Band) : ℚ := min promote.ceiling (band.maxRate * promote.step)

def proposalOf (o : Options) (key : Str) (st : MXState) (formed : Time) : Proposal where
  mxHost := key
  currentMax := st.band.maxRate
  proposedMax := o.promote.next st.band
  cleanAt := st.cleanAtCeiling
  formedAt := formed.Unix

def proposes (o : Options) (key : Str) (a : Answer) (text : Option Str) (st : MXState) (propose : Bool) : Option Str :=
  if propose = true ∧ st.band.maxRate < o.promote.next st.band ∧ ProposalKey key ∉ a.lost then
    some (Codec.marshalProposal (proposalOf o key st a.formed))
  else text

def Part.hears (o : Options) (key : Str) (part : Part) (a : Answer) : Part :=
  match part.1 with
  | none => part
  | some st =>
    let observed := st.observe o.promote a.heard a.cls.isThrottle
    (some observed.1, proposes o key a part.2 observed.1 observed.2.2)

def Op.besides (key : Str) : Op → Prop
  | .locked _ => False
  | .set field _ => field ≠ ProposalKey key
  | _ => True

variable {o : Options} {key : Str} {a : Answer} {s : Node}

omit [Codec] in
lemma besides_part {part : Part} (s : Node) (op : Op) (besides : op.besides key)
    (here : s.part key = part) : (hearing o a s op).2.part key = part := by
  cases op with
  | locked sec => cases besides
  | set field val =>
    by_cases lost : field ∈ a.lost
    · simpa only [hearing, lost, if_true] using here
    · simp only [hearing, lost, if_false, Node.part, Node.put_store, if_neg (Ne.symm besides)]
      exact here
  | _ => exact here

lemma persist_part (st : MXState) : (persist key st).Against (hearing o a) (fun _ t => t.part key = s.part key) s := by
  have apart (field : String) : (Op.set (runtimeKey key field) []).besides key := by
    change runtimeKey key field ≠ ProposalKey key
    rw [ProposalKey_eq]
    exact runtimeKey_ne_limitsKey _ _ _
  have sets {A : Type} {field : String} {val : Str} {f : Except Str Unit → Act A}
      (rest : ∀ x, (f x).Only (Op.besides key)) : (set (runtimeKey key field) val >>= f).Only (Op.besides key) :=
    .bind ((Prog.only_ask _).mpr (apart field)) rest
  have only : (persist key st).Only (Op.besides key) := by
    refine sets fun _ => sets fun _ => sets fun _ => ?_
    split
    · exact sets fun _ => Prog.only_pure _
    · exact Prog.only_pure _
  exact only.keeps besides_part rfl

lemma proposeBand_part (st : MXState) :
    (proposeBand o key st).Against (hearing o a)
      (fun _ t => t.part key = (s.memory.state key, proposes o key a (s.store (ProposalKey key)) st true)) s := by
  unfold proposeBand
  dsimp only
  by_cases low : min o.promote.ceiling (st.band.maxRate * o.promote.step) ≤ st.band.maxRate
  · rw [if_pos low]
    have none : proposes o key a (s.store (ProposalKey key)) st true = s.store (ProposalKey key) :=
      if_neg fun high => absurd high.2.1 (not_lt.mpr low)
    rw [none]
    rfl
  · rw [if_neg low]
    change Node.part (hearing o a { s with clock := a.formed }
      (.set (ProposalKey key) (Codec.marshalProposal (proposalOf o key st a.formed)))).2 key = _
    by_cases lost : ProposalKey key ∈ a.lost
    · have none : proposes o key a (s.store (ProposalKey key)) st true = s.store (ProposalKey key) :=
        if_neg fun high => high.2.2 lost
      rw [none]
      simp only [hearing, lost, if_true]
      rfl
    · have formed : proposes o key a (s.store (ProposalKey key)) st true =
          some (Codec.marshalProposal (proposalOf o key st a.formed)) := if_pos ⟨rfl, not_le.mp low, lost⟩
      rw [formed]
      simp only [hearing, lost, if_false, Node.part, Node.put_store, if_true]
      rfl

lemma publish_part (st : MXState) (paused propose : Bool) :
    (do
      if paused ∧ o.metrics then countPause key
      if propose then proposeBand o key st
      persist key st : Act Unit).Against (hearing o a)
      (fun _ t => t.part key = (s.memory.state key, proposes o key a (s.store (ProposalKey key)) st propose)) s := by
  have persists {s : Node} : (persist key st).Against (hearing o a) (fun _ t => t.part key = s.part key) s :=
    persist_part st
  have rest : (do
      if propose then proposeBand o key st
      persist key st : Act Unit).Against (hearing o a)
      (fun _ t => t.part key = (s.memory.state key, proposes o key a (s.store (ProposalKey key)) st propose)) s := by
    cases propose with
    | false => exact persists
    | true =>
      apply Prog.Against.bind
      exact (proposeBand_part st).mono fun _ t here => persists.mono fun _ u same => same.trans here
  by_cases counts : paused ∧ o.metrics
  · simp only [counts, and_self, if_true]
    exact rest
  · simp only [counts, if_false]
    exact rest

lemma hears_absent {part : Part} (absent : part.1 = none) (a : Answer) : part.hears o key a = part := by
  simp only [Part.hears, absent]

lemma observe_part (o : Options) (mxHost : Str) (s : Node) (a : Answer) :
    (observe o mxHost a.cls).Against (hearing o a)
      (fun _ t => t.part (PaceKey mxHost) = (s.part (PaceKey mxHost)).hears o (PaceKey mxHost) a) s := by
  unfold observe Observe
  apply Prog.Against.bind
  simp only [locked, Prog.ask, Prog.Against, hearing, Node.enter, Section.run]
  cases tracked : s.memory.mx.lookup (PaceKey mxHost) with
  | none =>
    have absent : (s.part (PaceKey mxHost)).1 = none := by simp only [Node.part, Memory.state, tracked, Option.bind_none]
    simp only [hears_absent absent]
    rfl
  | some ref =>
    cases object : s.memory.objects[ref]? with
    | none =>
      have absent : (s.part (PaceKey mxHost)).1 = none := by
        simp only [Node.part, Memory.state, tracked, Option.bind_some, object]
      simp only [object, hears_absent absent]
      rfl
    | some st =>
      have found : (s.part (PaceKey mxHost)).1 = some st := state_eq_some.mpr ⟨ref, tracked, object⟩
      simp only [object]
      refine (publish_part _ _ _).mono fun _ t same => ?_
      rw [same]
      simp only [Part.hears, found]
      congr 1
      obtain ⟨bound, -⟩ := List.getElem?_eq_some_iff.mp object
      exact state_eq_some.mpr ⟨ref, tracked, List.getElem?_set_self bound⟩

lemma hears_part (o : Options) (mxHost : Str) (s : Node) (a : Answer) :
    (hears o mxHost s a).part (PaceKey mxHost) = (s.part (PaceKey mxHost)).hears o (PaceKey mxHost) a :=
  (observe_part o mxHost s a).play

lemma hearsAll_part (o : Options) (mxHost : Str) (s : Node) (answers : List Answer) :
    (hearsAll o mxHost s answers).part (PaceKey mxHost) =
      answers.foldl (Part.hears o (PaceKey mxHost)) (s.part (PaceKey mxHost)) := by
  induction answers generalizing s with
  | nil => rfl
  | cons a more ih =>
    change (hearsAll o mxHost (hears o mxHost s a) more).part _ = _
    rw [ih, hears_part]
    rfl

end

namespace MXState

def Quiet (promote : Promotion) (st : MXState) : Prop :=
  promote.after ≤ 0 ∨ st.proposed = true ∨ promote.next st.band ≤ st.band.maxRate

def Resting (promote : Promotion) (st : MXState) : Prop := st.band.maxRate ≤ st.rate ∧ st.Quiet promote

structure Alike (promote : Promotion) (st st' : MXState) : Prop where
  band : st'.band = st.band
  rate : st'.rate = st.rate
  conc : st'.conc = st.conc
  pausedUntil : st'.pausedUntil = st.pausedUntil
  -- At the ceiling only a throttle can bring the count back into play, and it resets it.
  clean : st.rate < st.band.maxRate → st'.clean = st.clean
  evidence : st.Quiet promote ∧ st'.Quiet promote ∨
    st'.cleanAtCeiling = st.cleanAtCeiling ∧ st'.proposed = st.proposed

variable {promote : Promotion} {st st' : MXState}

lemma Alike.refl (promote : Promotion) (st : MXState) : Alike promote st st :=
  ⟨rfl, rfl, rfl, rfl, fun _ => rfl, .inr ⟨rfl, rfl⟩⟩

/-- Whether a clean answer proposes a wider band, by the state after the climb. -/
def Proposing (promote : Promotion) (st : MXState) : Prop :=
  st.band.maxRate ≤ st.rate ∧ 0 < promote.after ∧ st.proposed = false ∧ promote.after ≤ wrap64 (st.cleanAtCeiling + 1)

instance : Decidable (st.Proposing promote) := inferInstanceAs (Decidable (_ ∧ _))

lemma weigh_proposes (st : MXState) (promote : Promotion) : (st.weigh promote).2 = decide (st.Proposing promote) := by
  simp only [weigh, Proposing]
  split
  · rename_i top
    split <;> simp_all
  · rename_i below
    simp [below]

lemma weigh_proposed (st : MXState) (promote : Promotion) :
    (st.weigh promote).1.proposed = (st.proposed || (st.weigh promote).2) := by
  simp only [weigh]
  split
  · split <;> simp
  · simp

lemma weigh_cleanAtCeiling (st : MXState) (promote : Promotion) :
    (st.weigh promote).1.cleanAtCeiling =
      if st.band.maxRate ≤ st.rate then wrap64 (st.cleanAtCeiling + 1) else st.cleanAtCeiling := by
  simp only [weigh]
  split
  · split <;> rfl
  · rfl

lemma Quiet.congr (quiet : st.Quiet promote) (band : st'.band = st.band) (proposed : st.proposed = true → st'.proposed = true) :
    st'.Quiet promote := by
  unfold Quiet at *
  rw [band]
  exact quiet.imp_right (Or.imp_left proposed)

lemma Alike.quiet (alike : Alike promote st st') (quiet : st.Quiet promote) : st'.Quiet promote := by
  rcases alike.evidence with ⟨-, quiet'⟩ | ⟨-, proposed⟩
  · exact quiet'
  · exact quiet.congr alike.band fun set => proposed.trans set

lemma Alike.symm (alike : Alike promote st st') : Alike promote st' st := by
  obtain ⟨band, rate, conc, pausedUntil, clean, evidence⟩ := alike
  refine ⟨band.symm, rate.symm, conc.symm, pausedUntil.symm, fun below => ?_, ?_⟩
  · rw [band, rate] at below
    exact (clean below).symm
  · exact evidence.imp And.symm fun same => ⟨same.1.symm, same.2.symm⟩

lemma Alike.trans {st'' : MXState} (first : Alike promote st st') (second : Alike promote st' st'') :
    Alike promote st st'' := by
  refine ⟨second.band.trans first.band, second.rate.trans first.rate, second.conc.trans first.conc,
    second.pausedUntil.trans first.pausedUntil, fun below => ?_, ?_⟩
  · rw [second.clean (by rw [first.rate, first.band]; exact below)]
    exact first.clean below
  · rcases first.evidence with ⟨quiet, quiet'⟩ | ⟨count, proposed⟩
    · exact .inl ⟨quiet, second.quiet quiet'⟩
    · rcases second.evidence with ⟨quiet', quiet''⟩ | ⟨count', proposed'⟩
      · exact .inl ⟨first.symm.quiet quiet', quiet''⟩
      · exact .inr ⟨count'.trans count, proposed'.trans proposed⟩

/-! One lemma for each piece of `observe`. -/

lemma Alike.touch (alike : Alike promote st st') (now : Time) : Alike promote (st.touch now) (st'.touch now) :=
  ⟨alike.band, alike.rate, alike.conc, alike.pausedUntil, alike.clean, alike.evidence⟩

lemma Alike.throttle (alike : Alike promote st st') (now : Time) :
    Alike promote (st.throttle now).1 (st'.throttle now).1 := by
  cases st'
  obtain ⟨band, rate, conc, pausedUntil, -, evidence⟩ := alike
  cases band
  cases rate
  cases conc
  cases pausedUntil
  simp only [MXState.throttle]
  split <;> exact ⟨rfl, rfl, rfl, rfl, fun _ => rfl, evidence.imp_right fun same => ⟨rfl, same.2⟩⟩

lemma Alike.climb (alike : Alike promote st st') : Alike promote st.climb st'.climb := by
  have same : st'.climbs = st.climbs := by
    unfold climbs
    rw [alike.band, alike.rate]
    by_cases below : st.rate < st.band.maxRate
    · rw [alike.clean below]
    · simp only [below, and_false]
  unfold MXState.climb
  rw [same]
  cases st'
  obtain ⟨band, rate, conc, pausedUntil, clean, evidence⟩ := alike
  cases band
  cases rate
  cases conc
  cases pausedUntil
  split
  · exact ⟨rfl, rfl, rfl, rfl, fun _ => rfl, evidence⟩
  · exact ⟨rfl, rfl, rfl, rfl, fun below => congrArg (fun n => wrap64 (n + 1)) (clean below), evidence⟩

lemma settle_alike (st : MXState) (promote : Promotion) : Alike promote st st.settle := by
  unfold settle
  split <;> exact ⟨rfl, rfl, rfl, rfl, fun _ => rfl, .inr ⟨rfl, rfl⟩⟩

lemma Quiet.weigh (quiet : st.Quiet promote) : (st.weigh promote).1.Quiet promote :=
  quiet.congr (weigh_samePoint st promote).band fun set => by rw [weigh_proposed, set, Bool.true_or]

-- The same evidence proposes the same.
section
variable (alike : Alike promote st st')
include alike

lemma weigh_congr (count : st'.cleanAtCeiling = st.cleanAtCeiling)
    (proposed : st'.proposed = st.proposed) : (st'.weigh promote).2 = (st.weigh promote).2 ∧
    (st'.weigh promote).1.cleanAtCeiling = (st.weigh promote).1.cleanAtCeiling ∧
    (st'.weigh promote).1.proposed = (st.weigh promote).1.proposed := by
  have fires : (st'.weigh promote).2 = (st.weigh promote).2 := by
    rw [weigh_proposes, weigh_proposes, decide_eq_decide]
    unfold Proposing
    rw [alike.band, alike.rate, proposed, count]
  refine ⟨fires, ?_, ?_⟩
  · rw [weigh_cleanAtCeiling, weigh_cleanAtCeiling, alike.band, alike.rate, count]
  · rw [weigh_proposed, weigh_proposed, proposed, fires]

lemma Alike.weigh : Alike promote (st.weigh promote).1 (st'.weigh promote).1 := by
  obtain ⟨band, rate, conc, clean⟩ := weigh_samePoint st promote
  obtain ⟨band', rate', conc', clean'⟩ := weigh_samePoint st' promote
  refine ⟨?_, ?_, ?_, ?_, fun below => ?_, ?_⟩
  · rw [band, band', alike.band]
  · rw [rate, rate', alike.rate]
  · rw [conc, conc', alike.conc]
  · rw [weigh_pausedUntil, weigh_pausedUntil, alike.pausedUntil]
  · rw [rate, band] at below
    rw [clean, clean', alike.clean below]
  · rcases alike.evidence with ⟨quiet, quiet'⟩ | ⟨count, proposed⟩
    · exact .inl ⟨quiet.weigh, quiet'.weigh⟩
    · exact .inr (weigh_congr alike count proposed).2

lemma Alike.settle : Alike promote st.settle st'.settle :=
  (settle_alike st promote).symm.trans (alike.trans (settle_alike st' promote))

lemma Alike.observe (now : Time) (throttled : Bool) :
    Alike promote (st.observe promote now throttled).1 (st'.observe promote now throttled).1 := by
  cases throttled with
  | true => exact (alike.touch now).throttle now
  | false => exact (alike.touch now).climb.settle.weigh

end

lemma Resting.observe (resting : st.Resting promote) (now : Time) : Alike promote st (st.observe promote now false).1 := by
  obtain ⟨top, quiet⟩ := resting
  have still : (st.touch now).climbs = false := by
    simp only [climbs, decide_eq_false_iff_not, not_and, not_lt]
    exact fun _ => top
  have counted : Alike promote st (st.touch now).climb := by
    simp only [MXState.climb, still, Bool.false_eq_true, if_false]
    exact ⟨rfl, rfl, rfl, rfl, fun below => absurd top (not_le.mpr below), .inr ⟨rfl, rfl⟩⟩
  have settled := counted.trans (settle_alike _ promote)
  obtain ⟨band, rate, conc, clean⟩ := weigh_samePoint (st.touch now).climb.settle promote
  have quiet := settled.quiet quiet
  exact settled.trans ⟨band, rate, conc, weigh_pausedUntil _ _, fun _ => clean, .inl ⟨quiet, quiet.weigh⟩⟩

-- Neither the count nor the climb is about the evidence.
lemma climb_evidence (st : MXState) (now : Time) :
    (st.touch now).climb.settle.band = st.band ∧
    (st.touch now).climb.settle.cleanAtCeiling = st.cleanAtCeiling ∧
    (st.touch now).climb.settle.proposed = st.proposed := by
  unfold settle MXState.climb
  split <;> split <;> exact ⟨rfl, rfl, rfl⟩

end MXState

section
variable [Unicode] [Codec] {o : Options} {key : Str} {st st' : MXState}

lemma quiet_proposes (quiet : st.Quiet o.promote) (a : Answer) (text : Option Str) (now : Time) (throttled : Bool) :
    proposes o key a text (st.observe o.promote now throttled).1 (st.observe o.promote now throttled).2.2 = text := by
  apply if_neg
  rintro ⟨fires, higher, -⟩
  cases throttled with
  | true => cases fires
  | false =>
    obtain ⟨band, -, proposed⟩ := st.climb_evidence now
    have band' := (MXState.weigh_samePoint (st.touch now).climb.settle o.promote).band.trans band
    change ((st.touch now).climb.settle.weigh o.promote).2 = true at fires
    rw [MXState.weigh_proposes, decide_eq_true_eq] at fires
    obtain ⟨-, wanted, unproposed, -⟩ := fires
    rcases quiet with unwanted | already | low
    · exact absurd wanted (not_lt.mpr unwanted)
    · rw [proposed, already] at unproposed
      cases unproposed
    · change ((st.touch now).climb.settle.weigh o.promote).1.band.maxRate <
        o.promote.next ((st.touch now).climb.settle.weigh o.promote).1.band at higher
      rw [band'] at higher
      exact absurd higher (not_lt.mpr low)

lemma throttled_proposes (a : Answer) (text : Option Str) (now : Time) :
    proposes o key a text (st.observe o.promote now true).1 (st.observe o.promote now true).2.2 = text :=
  if_neg fun fires => nomatch fires.1

lemma alike_proposes (alike : MXState.Alike o.promote st st') (a : Answer) (text : Option Str) (now : Time)
    (throttled : Bool) :
    proposes o key a text (st'.observe o.promote now throttled).1 (st'.observe o.promote now throttled).2.2 =
    proposes o key a text (st.observe o.promote now throttled).1 (st.observe o.promote now throttled).2.2 := by
  rcases alike.evidence with ⟨quiet, quiet'⟩ | ⟨count, proposed⟩
  · rw [quiet_proposes quiet, quiet_proposes quiet']
  · cases throttled with
    | true => rw [throttled_proposes, throttled_proposes]
    | false =>
      obtain ⟨-, count₁, proposed₁⟩ := st.climb_evidence now
      obtain ⟨-, count₂, proposed₂⟩ := st'.climb_evidence now
      obtain ⟨fires, count', -⟩ := MXState.weigh_congr (alike.touch now).climb.settle
        (count₂.trans (count.trans count₁.symm)) (proposed₂.trans (proposed.trans proposed₁.symm))
      have band := (alike.observe now false).band
      simp only [MXState.observe, Bool.false_eq_true, if_false] at band ⊢
      simp only [proposes, proposalOf, fires, band, count']

def Part.Alike (o : Options) (part part' : Part) : Prop :=
  part'.2 = part.2 ∧ Option.Rel (MXState.Alike o.promote) part.1 part'.1

def Part.Resting (o : Options) (part : Part) : Prop := ∀ st, part.1 = some st → st.Resting o.promote

omit [Unicode] [Codec] in
lemma Part.Alike.refl (o : Options) (part : Part) : part.Alike o part := by
  refine ⟨rfl, ?_⟩
  cases part.1 with
  | none => exact .none
  | some st => exact .some (.refl _ _)

variable {s : Node} {part : Part} {mxHost : Str}

lemma Part.Alike.hears {part' : Part} (alike : part.Alike o part') (key : Str) (a : Answer) :
    (part.hears o key a).Alike o (part'.hears o key a) := by
  obtain ⟨state, text⟩ := part
  obtain ⟨state', text'⟩ := part'
  obtain ⟨rfl, states⟩ := alike
  cases states with
  | none => exact ⟨rfl, .none⟩
  | some alike => exact ⟨alike_proposes alike _ _ _ _, .some (alike.observe _ _)⟩

lemma Part.Alike.ignores {part' : Part} (alike : part.Alike o part') (key : Str) {a : Answer}
    (clean : a.cls.isThrottle = false) (resting : part.Resting o) : (part.hears o key a).Alike o part' := by
  obtain ⟨state, text⟩ := part
  obtain ⟨state', text'⟩ := part'
  obtain ⟨rfl, states⟩ := alike
  cases states with
  | none => exact ⟨rfl, .none⟩
  | some alike =>
    have rest := resting _ rfl
    simp only [Part.hears, clean]
    exact ⟨(quiet_proposes rest.2 _ _ _ _).symm, .some ((rest.observe _).symm.trans alike)⟩

omit [Unicode] [Codec] in
lemma unrelated_clean {cls : Prober.Class} (aside : unrelated cls = true) : cls.isThrottle = false := by
  cases cls <;> first | rfl | cases aside

def Undisturbed (o : Options) (mxHost : Str) (s : Node) (answers : List Answer) : Prop :=
  ∀ before a after, answers = before ++ a :: after → unrelated a.cls = true →
    ((hearsAll o mxHost s before).part (PaceKey mxHost)).Resting o

def related (answers : List Answer) : List Answer := answers.filter fun a => !unrelated a.cls

lemma alike_related {answers : List Answer} {s' : Node}
    (alike : (s.part (PaceKey mxHost)).Alike o (s'.part (PaceKey mxHost)))
    (undisturbed : Undisturbed o mxHost s answers) :
    ((hearsAll o mxHost s answers).part (PaceKey mxHost)).Alike o
      ((hearsAll o mxHost s' (related answers)).part (PaceKey mxHost)) := by
  induction answers generalizing s s' with
  | nil => exact alike
  | cons a more ih =>
    have later : Undisturbed o mxHost (hears o mxHost s a) more := by
      intro before b after split aside
      exact undisturbed (a :: before) b after (congrArg (a :: ·) split) aside
    by_cases aside : unrelated a.cls = true
    · rw [related, List.filter_cons_of_neg (by simp [aside])]
      have ignored : ((hears o mxHost s a).part (PaceKey mxHost)).Alike o (s'.part (PaceKey mxHost)) := by
        rw [hears_part]
        exact alike.ignores _ (unrelated_clean aside) (undisturbed [] a more rfl aside)
      exact ih ignored later
    · rw [related, List.filter_cons_of_pos (by simp [aside])]
      have heard : ((hears o mxHost s a).part (PaceKey mxHost)).Alike o ((hears o mxHost s' a).part (PaceKey mxHost)) := by
        rw [hears_part, hears_part]
        exact alike.hears _ a
      exact ih heard later

lemma alike_view {s' : Node} (alike : (s.part key).Alike o (s'.part key)) : s.view key = s'.view key := by
  obtain ⟨text, states⟩ := alike
  simp only [Node.part] at text states
  unfold Node.view
  rw [text]
  generalize s.memory.state key = state at states
  generalize s'.memory.state key = state' at states
  cases states with
  | none => rfl
  | some alike => simp only [Option.map_some, alike.rate, alike.conc, alike.pausedUntil]

def MXState.Pinned (promote : Promotion) (st : MXState) : Prop := st.band.maxRate ≤ st.band.minRate ∧ st.Quiet promote

structure MXState.Fixed (promote : Promotion) (st : MXState) : Prop where
  top : st.band.maxRate ≤ st.rate
  bottom : st.rate ≤ st.band.minRate
  quiet : st.Quiet promote

omit [Unicode] [Codec] in
lemma MXState.Fixed.observe {promote : Promotion} (fixed : st.Fixed promote) (now : Time) (throttled : Bool) :
    (st.observe promote now throttled).1.Fixed promote := by
  cases throttled with
  | true =>
    have floored : ¬ (st.touch now).band.minRate < (st.touch now).rate := not_lt.mpr fixed.bottom
    simp only [MXState.observe, MXState.throttle, if_true, if_neg floored]
    exact ⟨fixed.top, fixed.bottom, fixed.quiet⟩
  | false =>
    have alike := MXState.Resting.observe ⟨fixed.top, fixed.quiet⟩ now
    refine ⟨?_, ?_, alike.quiet fixed.quiet⟩
    · rw [alike.band, alike.rate]
      exact fixed.top
    · rw [alike.band, alike.rate]
      exact fixed.bottom

lemma hears_fst (part : Part) (a : Answer) : (part.hears o key a).1 =
    part.1.map fun st => (st.observe o.promote a.heard a.cls.isThrottle).1 := by
  obtain ⟨state, text⟩ := part
  cases state <;> rfl

lemma fixed_undisturbed (answers : List Answer)
    (fixed : ∀ st, s.memory.state (PaceKey mxHost) = some st → st.Fixed o.promote) : Undisturbed o mxHost s answers := by
  intro before a after _ _
  suffices stays : ∀ st, ((hearsAll o mxHost s before).part (PaceKey mxHost)).1 = some st → st.Fixed o.promote by
    intro st found
    exact ⟨(stays st found).top, (stays st found).quiet⟩
  clear * - fixed
  induction before generalizing s with
  | nil => exact fixed
  | cons a more ih =>
    apply ih (s := hears o mxHost s a)
    intro st found
    have heard : ((hears o mxHost s a).part (PaceKey mxHost)).1 = some st := found
    rw [hears_part, hears_fst, Option.map_eq_some_iff] at heard
    obtain ⟨st₀, before, rfl⟩ := heard
    exact (fixed st₀ before).observe _ _

def answered (cls : Prober.Class) (formed : Time) : Answer := { cls, heard := Time.zero, formed }

omit [Unicode] [Codec] in
lemma throttled_start (promote : Promotion) (inBand : st.InBand) (now : Time) : ∃ st₁, (st.observe promote now true).1 = st₁ ∧
    st₁.band = st.band ∧ st₁.clean = 0 ∧ st₁.cleanAtCeiling = 0 ∧ st₁.proposed = st.proposed ∧ 0 < st₁.rate ∧
    (st.band.minRate < st.band.maxRate → st₁.rate < st.band.maxRate) ∧
    (st.band.maxRate ≤ st.band.minRate → st.band.maxRate ≤ st₁.rate) := by
  have positive := inBand.rate_pos
  have low := inBand.low
  have high := inBand.high
  have least := inBand.ordered.minRate
  refine ⟨_, rfl, ?_⟩
  simp only [MXState.observe, MXState.throttle, if_true]
  split
  · rename_i above
    change st.band.minRate < st.rate at above
    refine ⟨rfl, rfl, rfl, rfl, lt_max_of_lt_left least, fun wide => max_lt wide ?_, fun narrow => ?_⟩
    · change st.rate * (1 / 2) < st.band.maxRate
      linarith
    · linarith
  · rename_i floored
    change ¬ st.band.minRate < st.rate at floored
    refine ⟨rfl, rfl, rfl, rfl, positive, fun wide => ?_, fun narrow => ?_⟩
    · exact (not_lt.mp floored).trans_lt wide
    · exact narrow.trans low

omit [Unicode] [Codec] in
lemma observe_still (promote : Promotion) (still : st.climbs = false) (now : Time) : (st.observe promote now false).1.band = st.band ∧
    (st.observe promote now false).1.rate = st.rate ∧
    (st.observe promote now false).1.clean = wrap64 (st.clean + 1) := by
  obtain ⟨band, rate, -, clean⟩ := MXState.observe_clean st promote now
  have counted : (st.touch now).climb = { st.touch now with clean := wrap64 (st.clean + 1) } := if_neg (by
    rw [show (st.touch now).climbs = false from still]
    decide)
  rw [band, rate, clean, counted]
  exact ⟨rfl, rfl, rfl⟩

omit [Unicode] [Codec] in
lemma observe_climbs (promote : Promotion) (climbs : st.climbs = true) (now : Time) :
    (st.observe promote now false).1.rate = min st.band.maxRate (st.rate * climbFactor) := by
  rw [(MXState.observe_clean st promote now).rate, MXState.climb, if_pos (show (st.touch now).climbs = true from climbs)]
  rfl

omit [Unicode] [Codec] in
lemma observe_top (promote : Promotion) (top : st.band.maxRate ≤ st.rate) (now : Time) :
    (st.observe promote now false).1.band = st.band ∧ (st.observe promote now false).1.rate = st.rate ∧
    (st.observe promote now false).1.cleanAtCeiling = wrap64 (st.cleanAtCeiling + 1) ∧
    ((st.observe promote now false).2.2 = true ↔
      0 < promote.after ∧ st.proposed = false ∧ promote.after ≤ wrap64 (st.cleanAtCeiling + 1)) ∧
    (st.observe promote now false).1.proposed = (st.proposed || (st.observe promote now false).2.2) := by
  have still : st.climbs = false := by
    simp only [MXState.climbs, decide_eq_false_iff_not, not_and, not_lt]
    exact fun _ => top
  obtain ⟨band, rate, -⟩ := observe_still promote still now
  obtain ⟨band', count, proposed⟩ := st.climb_evidence now
  have rate' : (st.touch now).climb.settle.rate = st.rate :=
    (MXState.weigh_samePoint (st.touch now).climb.settle promote).rate.symm.trans rate
  refine ⟨band, rate, ?_, ?_, ?_⟩
  · change ((st.touch now).climb.settle.weigh promote).1.cleanAtCeiling = _
    rw [MXState.weigh_cleanAtCeiling, band', rate', count, if_pos top]
  · change ((st.touch now).climb.settle.weigh promote).2 = true ↔ _
    rw [MXState.weigh_proposes, decide_eq_true_eq]
    unfold MXState.Proposing
    rw [band', rate', count, proposed]
    exact ⟨fun fires => fires.2, fun fires => ⟨top, fires⟩⟩
  · change ((st.touch now).climb.settle.weigh promote).1.proposed = _
    rw [MXState.weigh_proposed, proposed]
    rfl

def deferrals (formed : Time) (n : Nat) : List Answer := List.replicate n (answered .deferred formed)

lemma deferrals_succ (formed : Time) (n : Nat) (part : Part) : (deferrals formed (n + 1)).foldl (Part.hears o key) part =
    ((deferrals formed n).foldl (Part.hears o key) part).hears o key (answered .deferred formed) := by
  rw [deferrals, List.replicate_succ', List.foldl_append]
  rfl

lemma deferrals_count (o : Options) (key : Str) (here : part.1 = some st) (start : st.clean = 0) {n : Nat}
    (few : n ≤ 9) : ∃ st', ((deferrals Time.zero n).foldl (Part.hears o key) part).1 = some st' ∧
      st'.band = st.band ∧ st'.rate = st.rate ∧ st'.clean = n := by
  induction n with
  | zero => exact ⟨st, here, rfl, rfl, start⟩
  | succ n ih =>
    obtain ⟨st', found, band, rate, clean⟩ := ih (by omega)
    have exact : wrap64 (st'.clean + 1) = n + 1 := by
      rw [clean]
      exact wrap64_of_fits ⟨by omega, by omega⟩
    have still : st'.climbs = false := by
      simp only [MXState.climbs, exact, cleanBeforeClimb, decide_eq_false_iff_not]
      omega
    obtain ⟨band', rate', clean'⟩ := observe_still o.promote still Time.zero
    rw [deferrals_succ, hears_fst, found]
    exact ⟨_, rfl, band'.trans band, rate'.trans rate, clean'.trans exact⟩

lemma deferrals_climb (o : Options) (key : Str) (here : part.1 = some st) (start : st.clean = 0) (below : st.rate < st.band.maxRate)
    (positive : 0 < st.rate) : ∃ st', ((deferrals Time.zero 10).foldl (Part.hears o key) part).1 = some st' ∧
      st.rate < st'.rate := by
  obtain ⟨st', found, band, rate, clean⟩ := deferrals_count o key here start (le_refl 9)
  have climbs : st'.climbs = true := by
    simp only [MXState.climbs, clean, band, rate, decide_eq_true_eq]
    exact ⟨by decide, below⟩
  have faster := observe_climbs o.promote climbs Time.zero
  rw [deferrals_succ, hears_fst, found]
  refine ⟨_, rfl, ?_⟩
  change st.rate < (st'.observe o.promote Time.zero false).1.rate
  rw [faster, band, rate]
  apply lt_min below
  unfold climbFactor
  linarith

lemma deferrals_earn (key : Str) (text : Option Str) (formed : Time) (fits : Fits64 o.promote.after)
    (top : st.band.maxRate ≤ st.rate) (start : st.cleanAtCeiling = 0) (unproposed : st.proposed = false) {n : Nat}
    (few : n < o.promote.after) : ∃ st', (deferrals formed n).foldl (Part.hears o key) (some st, text) = (some st', text) ∧
      st'.band = st.band ∧ st'.band.maxRate ≤ st'.rate ∧ st'.cleanAtCeiling = n ∧ st'.proposed = false := by
  induction n with
  | zero => exact ⟨st, rfl, rfl, top, start, unproposed⟩
  | succ n ih =>
    obtain ⟨st', found, band, top', count, unproposed'⟩ := ih (by omega)
    have exact : wrap64 (st'.cleanAtCeiling + 1) = n + 1 := by
      rw [count]
      exact wrap64_of_fits ⟨by omega, by have := fits.2; omega⟩
    obtain ⟨band', rate', count', fires, proposed'⟩ := observe_top o.promote top' Time.zero
    have silent : (st'.observe o.promote Time.zero false).2.2 = false := by
      rw [Bool.eq_false_iff, Ne, fires, exact]
      omega
    rw [deferrals_succ, found]
    refine ⟨(st'.observe o.promote Time.zero false).1, ?_, band'.trans band, ?_, count'.trans exact, ?_⟩
    · change (some _, proposes o key _ text _ (st'.observe o.promote Time.zero false).2.2) = _
      rw [silent, proposes, if_neg fun fires => nomatch fires.1]
      rfl
    · rw [band', rate']
      exact top'
    · rw [proposed', unproposed', silent]
      rfl

lemma deferrals_propose (key : Str) (text : Option Str) (formed : Time) (fits : Fits64 o.promote.after)
    (top : st.band.maxRate ≤ st.rate) (start : st.cleanAtCeiling = 0) (loud : ¬ st.Quiet o.promote) :
    ∃ pr : Proposal, pr.formedAt = formed.Unix ∧
      ((deferrals formed o.promote.after.toNat).foldl (Part.hears o key) (some st, text)).2 =
        some (Codec.marshalProposal pr) := by
  simp only [MXState.Quiet, not_or, not_le, Bool.not_eq_true] at loud
  obtain ⟨wanted, unproposed, higher⟩ := loud
  obtain ⟨n, enough⟩ : ∃ n : Nat, o.promote.after.toNat = n + 1 := ⟨o.promote.after.toNat - 1, by omega⟩
  obtain ⟨st', found, band, top', count, unproposed'⟩ :=
    deferrals_earn (n := n) key text formed fits top start unproposed (by omega)
  obtain ⟨band', -, count', fires, -⟩ := observe_top o.promote top' Time.zero
  have exact : wrap64 (st'.cleanAtCeiling + 1) = n + 1 := by
    rw [count]
    exact wrap64_of_fits ⟨by omega, by have := fits.2; omega⟩
  have loud : (st'.observe o.promote Time.zero false).2.2 = true := fires.mpr ⟨wanted, unproposed', by omega⟩
  rw [enough, deferrals_succ, found]
  refine ⟨proposalOf o key (st'.observe o.promote Time.zero false).1 formed, rfl, ?_⟩
  apply if_pos
  refine ⟨loud, ?_, List.not_mem_nil⟩
  change (st'.observe o.promote Time.zero false).1.band.maxRate < o.promote.next (st'.observe o.promote Time.zero false).1.band
  rw [band', band]
  exact higher

omit [Unicode] in
lemma proposalIn_marshal (pr : Proposal) : proposalIn (.ok (some (Codec.marshalProposal pr))) = some pr := by
  have back := Codec.proposal_back pr
  simp only [proposalIn]
  split
  · rename_i empty
    rw [empty, Codec.proposal_empty] at back
    cases back
  · exact back

omit [Unicode] [Codec] in
lemma related_deferrals (a : Answer) (told : unrelated a.cls = false) (formed : Time) (n : Nat) :
    related (a :: deferrals formed n) = [a] := by
  rw [related, List.filter_cons_of_pos (by simp [told]), List.filter_eq_nil_iff.mpr]
  intro b member
  rw [(List.mem_replicate.mp member).2]
  exact Bool.false_ne_true

lemma view_fst (key : Str) : (s.view key).1 = (s.part key).1.map fun st => (st.rate, st.conc, st.pausedUntil) := rfl

lemma view_snd (key : Str) : (s.view key).2 = proposalIn (.ok (s.part key).2) := rfl

lemma pinned_of_ignored (fits : Fits64 o.promote.after)
    (found : s.memory.state (PaceKey mxHost) = some st) (inBand : st.InBand)
    (ignored : ∀ answers, (hearsAll o mxHost s answers).view (PaceKey mxHost) =
      (hearsAll o mxHost s (related answers)).view (PaceKey mxHost)) : st.Pinned o.promote := by
  obtain ⟨st₁, heard, band, clean, count, proposed, positive, wide, narrow⟩ := throttled_start o.promote inBand Time.zero
  have start : ((hears o mxHost s (answered .throttled Time.zero)).part (PaceKey mxHost)) =
      (some st₁, s.store (ProposalKey (PaceKey mxHost))) := by
    rw [hears_part]
    simp only [Node.part, Part.hears, found]
    change (some (st.observe o.promote Time.zero true).1, _) = _
    rw [heard]
    exact congrArg (Prod.mk (some st₁)) (throttled_proposes _ _ _)
  have all (formed : Time) (n : Nat) :
      (hearsAll o mxHost s (answered .throttled Time.zero :: deferrals formed n)).part (PaceKey mxHost) =
        (deferrals formed n).foldl (Part.hears o (PaceKey mxHost)) (some st₁, s.store (ProposalKey (PaceKey mxHost))) := by
    rw [← start]
    exact hearsAll_part o mxHost (hears o mxHost s (answered .throttled Time.zero)) (deferrals formed n)
  have one (formed : Time) (n : Nat) :
      (hearsAll o mxHost s (related (answered .throttled Time.zero :: deferrals formed n))).part (PaceKey mxHost) =
        (some st₁, s.store (ProposalKey (PaceKey mxHost))) := by
    rw [related_deferrals _ rfl]
    exact start
  have narrowed : st.band.maxRate ≤ st.band.minRate := by
    by_contra wider
    have here : ((some st₁, s.store (ProposalKey (PaceKey mxHost))) : Part).1 = some st₁ := rfl
    obtain ⟨st', found', faster⟩ :=
      deferrals_climb o (PaceKey mxHost) here clean (band ▸ wide (not_le.mp wider)) positive
    have same := congrArg Prod.fst (ignored (answered .throttled Time.zero :: deferrals Time.zero 10))
    rw [view_fst, view_fst, all, one, found'] at same
    simp only [Option.map_some, Option.some.injEq, Prod.mk.injEq] at same
    exact absurd same.1 faster.ne'
  refine ⟨narrowed, by_contra fun loud => ?_⟩
  have loud' : ¬ st₁.Quiet o.promote := fun quiet => loud (quiet.congr band.symm fun set => proposed.symm.trans set)
  -- Formed at two different times, it cannot have been the standing one both times.
  have standing (formed : Time) : ∃ pr : Proposal, pr.formedAt = formed.Unix ∧
      proposalIn (.ok (s.store (ProposalKey (PaceKey mxHost)))) = some pr := by
    obtain ⟨pr, time, text⟩ := deferrals_propose (PaceKey mxHost) (s.store (ProposalKey (PaceKey mxHost))) formed fits
      (band ▸ narrow narrowed) count loud'
    have same := congrArg Prod.snd (ignored (answered .throttled Time.zero :: deferrals formed o.promote.after.toNat))
    rw [view_snd, view_snd, all, one, text, proposalIn_marshal] at same
    exact ⟨pr, time, same.symm⟩
  obtain ⟨pr, time, stood⟩ := standing (Time.ofUnix 0)
  obtain ⟨pr', time', stood'⟩ := standing (Time.ofUnix 1)
  rw [stood] at stood'
  cases stood'
  exact absurd (time.symm.trans time') (by decide)

/-- Answers that say nothing about our rate leave the key as it is where each of them finds
it at rest; and, with the rate within its band, they do so in every sequence only if the band
is a single rate and there is nothing to propose. -/
theorem unrelated_ignored {mxHost : Str} {s : Node} (fits : Fits64 o.promote.after) :
    (∀ answers, Undisturbed o mxHost s answers → (hearsAll o mxHost s answers).view (PaceKey mxHost) =
      (hearsAll o mxHost s (related answers)).view (PaceKey mxHost)) ∧
    ((∀ st, s.memory.state (PaceKey mxHost) = some st → st.InBand) →
      ((∀ answers, (hearsAll o mxHost s answers).view (PaceKey mxHost) =
        (hearsAll o mxHost s (related answers)).view (PaceKey mxHost)) ↔
          ∀ st, s.memory.state (PaceKey mxHost) = some st → st.Pinned o.promote)) := by
  have ignored : ∀ answers, Undisturbed o mxHost s answers → (hearsAll o mxHost s answers).view (PaceKey mxHost) =
      (hearsAll o mxHost s (related answers)).view (PaceKey mxHost) :=
    fun answers undisturbed => alike_view (alike_related (.refl o _) undisturbed)
  refine ⟨ignored, fun inBand =>
    ⟨fun all st found => pinned_of_ignored fits found (inBand st found) all, fun pinned answers => ?_⟩⟩
  apply ignored answers
  apply fixed_undisturbed
  intro st found
  have narrow := (pinned st found).1
  exact ⟨narrow.trans (inBand st found).low, (inBand st found).high.trans narrow, (pinned st found).2⟩

end

def acquired : Node := performed {} [.acquire 1 (lit "mx.test") []] {}

lemma acquired_state {st : MXState} (found : acquired.memory.state (PaceKey (lit "mx.test")) = some st) :
    st.band = conservative.normalise ∧ st.rate = 1 / 2 ∧ st.conc = 1 := by
  have all : (acquired.memory.state (PaceKey (lit "mx.test"))).all
      (fun st => st.band = conservative.normalise ∧ st.rate = 1 / 2 ∧ st.conc = 1) = true := by decide +kernel
  rw [found, Option.all_some, decide_eq_true_eq] at all
  exact all

/-- A refusal, and then a throttle: the refusal makes no difference. Other answers do. -/
theorem refusal_ignored :
    (hearsAll {} (lit "mx.test") acquired [answered .policy Time.zero, answered .throttled Time.zero]).view
      (PaceKey (lit "mx.test")) =
    (hearsAll {} (lit "mx.test") acquired (related [answered .policy Time.zero, answered .throttled Time.zero])).view
      (PaceKey (lit "mx.test")) ∧
    ¬ ∀ answers, (hearsAll {} (lit "mx.test") acquired answers).view (PaceKey (lit "mx.test")) =
      (hearsAll {} (lit "mx.test") acquired (related answers)).view (PaceKey (lit "mx.test")) := by
  have inBand : ∀ st, acquired.memory.state (PaceKey (lit "mx.test")) = some st → st.InBand := by
    intro st found
    obtain ⟨band, rate, conc⟩ := acquired_state found
    refine ⟨?_, ?_, ?_, ?_, ?_⟩
    · rw [band]
      exact Band.normalise_ordered _
    all_goals
      rw [band]
      first | rw [rate] | rw [conc]
      decide +kernel
  refine ⟨(unrelated_ignored (by decide)).1 _ fun before a after split aside => ?_, fun all => ?_⟩
  swap
  · obtain ⟨st, found⟩ : ∃ st, acquired.memory.state (PaceKey (lit "mx.test")) = some st :=
      Option.isSome_iff_exists.mp (by decide +kernel)
    have narrow := (((unrelated_ignored (by decide)).2 inBand).mp all st found).1
    rw [(acquired_state found).1] at narrow
    exact absurd narrow (by decide +kernel)
  rcases before with _ | ⟨b, _ | ⟨c, before⟩⟩
  · intro st found
    obtain ⟨band, rate, -⟩ := acquired_state found
    refine ⟨?_, .inl (le_refl 0)⟩
    rw [band, rate]
    decide +kernel
  · cases split
    cases aside
  · simp at split

/-- Ten deferrals after a throttle, and the rate is higher than it would be without them. -/
theorem deferrals_speed_up :
    ((hearsAll {} (lit "mx.test") acquired (answered .throttled Time.zero :: deferrals Time.zero 10)).view
      (PaceKey (lit "mx.test"))).1.map (·.1) = some (11 / 40) ∧
    ((hearsAll {} (lit "mx.test") acquired (related (answered .throttled Time.zero :: deferrals Time.zero 10))).view
      (PaceKey (lit "mx.test"))).1.map (·.1) = some (1 / 4) := by
  decide +kernel

end EmailVerifier.Pacer
